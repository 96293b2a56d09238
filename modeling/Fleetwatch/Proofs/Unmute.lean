import Fleetwatch.Proofs.Page

/-!
# Unmuting

`delete_mute` takes one stored mute away, the one a muted row of the page names. What
the row comes back as is up to the mutes that are left: the page looks its check up
again, and another live mute of the same names hides it under that one. Creating a mute
and deleting it is no change at all.
-/

namespace Fleetwatch

open Query Ranking Sql Table

variable {env : Env} {ledger : List Entry} {db : Db}

/-! ## Rows of one check -/

/-- What the open and the muted rows of a check have in common. -/
structure ShownCheck where
  source : String
  collector : String
  reportId : String
  sect : String
  label : String
  subject : Option String
  verdict : Verdict
  observed : Option String
  docRef : Option String
  detail : Option String
  collectedAt : Int
  deriving DecidableEq

def ProblemCheck.shown (p : ProblemCheck) : ShownCheck :=
  { source := p.source
    collector := p.collector
    reportId := p.reportId
    sect := p.sect
    label := p.label
    subject := p.subject
    verdict := p.verdict
    observed := p.observed
    docRef := p.docRef
    detail := p.detail
    collectedAt := p.collectedAt }

def MutedCheck.shown (m : MutedCheck) : ShownCheck :=
  { source := m.source
    collector := m.collector
    reportId := m.reportId
    sect := m.sect
    label := m.label
    subject := m.subject
    verdict := m.verdict
    observed := m.observed
    docRef := m.docRef
    detail := m.detail
    collectedAt := m.collectedAt }

/-- Is this another identity than the muted row's? -/
def MutedCheck.otherThan (m : MutedCheck) (source collector label : String) : Bool :=
  ¬ (source = m.source ∧ collector = m.collector ∧ label = m.label)

/-- Deleting the mute a muted row names restores the row's check and moves no row of
another identity. -/
structure Restores (env : Env) (now : Int) (db : Db) (m : MutedCheck) : Prop where
  deleted : (deleteMute env m.muteId db).1 = true
  opened : ∃ p ∈ (problems env now (deleteMute env m.muteId db).2).checks, p.shown = m.shown
  gone : ∀ m' ∈ (problems env now (deleteMute env m.muteId db).2).muted, m'.shown ≠ m.shown
  othersOpened :
    (problems env now (deleteMute env m.muteId db).2).checks.filter
        (fun p => m.otherThan p.source p.collector p.label) =
      (problems env now db).checks.filter (fun p => m.otherThan p.source p.collector p.label)
  othersMuted :
    (problems env now (deleteMute env m.muteId db).2).muted.filter
        (fun m' => m.otherThan m'.source m'.collector m'.label) =
      (problems env now db).muted.filter (fun m' => m.otherThan m'.source m'.collector m'.label)

/-- The mute a muted row names is the only live one of its names. -/
def OnlyMute (now : Int) (db : Db) (m : MutedCheck) : Prop :=
  ∀ row ∈ db.mute, now < row.expiresAt → row.source = m.source → row.collector = m.collector →
    row.label = m.label → row.id = m.muteId

/-! ## After the delete -/

theorem listMutes_deleteMute (env : Env) (id : String) (now : Int) (db : Db) :
    listMutes now (deleteMute env id db).2 =
      (listMutes now db).filter (fun m => decide (env.weight m.id ≠ env.weight id)) := by
  unfold listMutes deleteMute deleteWhere
  rw [List.filter_map, filter_orderBy, List.filter_filter, List.filter_filter]
  congr 2
  apply List.filter_congr
  intro row _
  rw [Bool.and_comm]
  congr 1
  exact (decide_not).symm

/-- The page finds the mute of another identity as before: the one deleted was not it. -/
theorem mute_deleteMute_of_other (keyed : Keyed (MuteRow.key env) db.mute) {now : Int}
    {row : MuteRow} (stored : row ∈ db.mute) {r : ProblemRow}
    (other : ¬ (r.check.source = row.source ∧ r.check.collector = row.collector ∧
      r.check.label = row.label)) :
    r.mute now (deleteMute env row.id db).2 = r.mute now db := by
  unfold ProblemRow.mute byId
  rw [listMutes_deleteMute]
  refine keepGreatest_filter _ _ ?_
  intro m listed names
  obtain ⟨row', stored', _, rfl⟩ := mem_listMutes.mp listed
  refine decide_eq_true ?_
  intro same
  obtain rfl := keyed.eq_of_key_eq stored' stored same
  obtain ⟨source, rest⟩ := Prod.mk.inj names
  obtain ⟨collector, label⟩ := Prod.mk.inj rest
  exact other ⟨source.symm, collector.symm, label.symm⟩

/-- A check is covered after the delete exactly by the live mutes of its names under
other ids. -/
theorem covered_deleteMute_iff (keyed : Keyed (MuteRow.key env) db.mute) (whole : WholeExpiries db)
    {now : Int} {row : MuteRow} (stored : row ∈ db.mute) {c : CheckRow} :
    covered now (deleteMute env row.id db).2 c = true ↔
      ∃ mu ∈ db.mute, now < mu.expiresAt ∧ mu.source = c.source ∧ mu.collector = c.collector ∧
        mu.label = c.label ∧ mu.id ≠ row.id := by
  rw [covered_iff]
  constructor
  · rintro ⟨mu, kept, live, source, collector, label⟩
    obtain ⟨stored', survives⟩ := List.mem_filter.mp kept
    refine ⟨mu, stored', (bind_lt_iff (whole mu stored')).mp live, source, collector, label, ?_⟩
    rintro same
    obtain rfl := keyed.eq_of_key_eq stored' stored (congrArg env.weight same)
    exact absurd rfl (by simpa using survives : ¬ mu.key env = env.weight mu.id)
  · rintro ⟨mu, stored', live, source, collector, label, different⟩
    refine ⟨mu, List.mem_filter.mpr ⟨stored', ?_⟩, (bind_lt_iff (whole mu stored')).mpr live,
      source, collector, label⟩
    rw [Bool.not_eq_true', decide_eq_false_iff_not]
    intro same
    obtain rfl := keyed.eq_of_key_eq stored' stored same
    exact different rfl

/-! ## A mute made and deleted -/

theorem deleteWhere_append_singleton {α : Type} {hit : α → Bool} {table : List α} {row : α}
    (others : ∀ stored ∈ table, hit stored = false) (own : hit row = true) :
    deleteWhere hit (table ++ [row]) = table := by
  unfold deleteWhere
  rw [List.filter_append,
    List.filter_eq_self.mpr (fun stored member => by simp [others stored member])]
  simp [own]

/-- Deleting the mute a call has just created puts every table back. -/
theorem deleteMute_createMute {call : MuteCall} {m : Mute}
    (created : (createMute env call db).1 = .ok m) :
    (deleteMute env m.id (createMute env call db).2).2 = db := by
  have allowed := mutable_of_ok created
  rw [createMute_of_mutable allowed] at created ⊢
  obtain rfl : newMute call = m := Except.ok.inj created
  have free := not_clashes_iff.mp allowed.fresh
  have undone : deleteWhere (fun row => decide (row.key env = env.weight (newMute call).id))
      (db.mute ++ [(newMute call).toRow]) = db.mute :=
    deleteWhere_append_singleton (fun stored member => decide_eq_false (free stored member))
      (decide_eq_true rfl)
  exact congrArg (fun table => { db with mute := table }) undone

/-! ## What unmuting restores -/

/-- In every reachable state, at every instant, deleting the mute a muted row names
restores the row exactly when no other live mute has its names; and a mute created and
deleted again leaves the page and the overview as they were. -/
theorem unmute_restores_iff {permitted : Op → Prop} (reached : Reachable env permitted db)
    (now : Int) :
    (∀ m ∈ (problems env now db).muted, Restores env now db m ↔ OnlyMute now db m) ∧
      ∀ call m, (createMute env call db).1 = .ok m → ∀ t,
        problems env t (deleteMute env m.id (createMute env call db).2).2 = problems env t db ∧
          overview env t (deleteMute env m.id (createMute env call db).2).2 = overview env t db := by
  obtain ⟨ledger, rep⟩ := reached.represents
  have whole := reached.wholeExpiries
  refine ⟨?_, ?_⟩
  · intro m listed
    obtain ⟨r, found, names⟩ := List.mem_filterMap.mp listed
    obtain ⟨mu, looked, rfl⟩ := Option.map_eq_some_iff.mp names
    obtain ⟨⟨row, stored, rfl⟩, _, source, collector, label⟩ := (mute_eq_some whole looked).1
    have uncovers : covered now (deleteMute env row.id db).2 r.check = false ↔
        OnlyMute now db (mutedCheck r row.toMute) := by
      rw [← Bool.not_eq_true, covered_deleteMute_iff rep.mute whole stored]
      unfold OnlyMute
      push Not
      rfl
    constructor
    · intro restores
      rw [← uncovers, ← Bool.not_eq_true, ← mute_isSome, Option.isSome_iff_exists]
      rintro ⟨mu', looked'⟩
      refine restores.gone (mutedCheck r mu') ?_ rfl
      exact List.mem_filterMap.mpr ⟨r, found, Option.map_eq_some_iff.mpr ⟨mu', looked', rfl⟩⟩
    · intro only
      have bare := uncovers.mpr only
      have others := checks_and_muted_eq env now (mutedCheck r row.toMute).otherThan db
        (deleteMute env row.id db).2 rfl (by
          intro r' _ other
          apply mute_deleteMute_of_other rep.mute stored
          rintro ⟨source', collector', label'⟩
          exact of_decide_eq_true other ⟨source'.trans source, collector'.trans collector,
            label'.trans label⟩)
      constructor
      case deleted => exact List.any_eq_true.mpr ⟨row, stored, decide_eq_true rfl⟩
      case opened => exact ⟨problemCheck r, mem_checks.mpr ⟨r, found, bare, rfl⟩, rfl⟩
      case gone =>
        intro m' listed' same
        obtain ⟨r', _, names'⟩ := List.mem_filterMap.mp listed'
        obtain ⟨mu', looked', rfl⟩ := Option.map_eq_some_iff.mp names'
        have covers : covered now (deleteMute env row.id db).2 r'.check = true := by
          rw [← mute_isSome]
          exact Option.isSome_iff_exists.mpr ⟨mu', looked'⟩
        obtain ⟨other, stored', live, source', collector', label', different⟩ :=
          (covered_deleteMute_iff rep.mute whole stored).mp covers
        refine different (only other stored' live ?_ ?_ ?_)
        · exact source'.trans (congrArg ShownCheck.source same)
        · exact collector'.trans (congrArg ShownCheck.collector same)
        · exact label'.trans (congrArg ShownCheck.label same)
      case othersOpened => exact others.1
      case othersMuted => exact others.2
  · intro call m created t
    rw [deleteMute_createMute created]
    exact ⟨rfl, rfl⟩

/-- The sample producer's muted row, under one of its mutes. -/
def sampleMuted (id : String) : MutedCheck :=
  mutedCheck { check := checkRow sampleReport 0 (sampleCheck "root" "usage" .fail), firstSeen := none }
    (newMute (sampleMute id))

theorem unmute_restores_mutedOnce :
    Restores asciiEnv second (stateAfter asciiEnv mutedOnce)
        (sampleMuted "01ARZ3NDEKTSV4RRFFQ69G5FB0") ∧
      ∀ t, problems asciiEnv t (deleteMute asciiEnv "01ARZ3NDEKTSV4RRFFQ69G5FB1"
          (stateAfter asciiEnv mutedTwice)).2 = problems asciiEnv t (stateAfter asciiEnv mutedOnce) ∧
        overview asciiEnv t (deleteMute asciiEnv "01ARZ3NDEKTSV4RRFFQ69G5FB1"
          (stateAfter asciiEnv mutedTwice)).2 = overview asciiEnv t (stateAfter asciiEnv mutedOnce) := by
  have reached : Reachable asciiEnv Op.ingestOrMute (stateAfter asciiEnv mutedOnce) :=
    ⟨mutedOnce, by simp [mutedOnce, Op.ingestOrMute], rfl⟩
  have restores := unmute_restores_iff reached second
  refine ⟨(restores.1 _ (by decide)).mpr ?_, ?_⟩
  · unfold OnlyMute
    decide
  · exact restores.2 (sampleMute "01ARZ3NDEKTSV4RRFFQ69G5FB1")
      (newMute (sampleMute "01ARZ3NDEKTSV4RRFFQ69G5FB1")) (by decide)

/-- Two live mutes of one check: deleting the one the page names leaves the row muted
under the other. -/
theorem unmute_keeps_hidden :
    ¬ ∀ env db now, Reachable env Op.ingestOrMute db → ∀ m ∈ (problems env now db).muted,
      Restores env now db m := by
  intro claimed
  have reached : Reachable asciiEnv Op.ingestOrMute (stateAfter asciiEnv mutedTwice) :=
    ⟨mutedTwice, by simp [mutedTwice, Op.ingestOrMute], rfl⟩
  have restores := claimed asciiEnv _ second reached (sampleMuted "01ARZ3NDEKTSV4RRFFQ69G5FB0")
    (by decide)
  exact restores.gone (sampleMuted "01ARZ3NDEKTSV4RRFFQ69G5FB1") (by decide) rfl

end Fleetwatch
