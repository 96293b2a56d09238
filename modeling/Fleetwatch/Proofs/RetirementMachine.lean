import Fleetwatch.Proofs.Retired
import Fleetwatch.Proofs.Silencing

/-!
# Retirement as a state machine

A producer is active or has been retired since some instant. An accepted
`create_retirement` retires an active one and leaves a retired one where it is, and
`delete_retirement` makes it active again. Of the keys its rows are written under the
`retirement` table holds this state and nothing else; over producers that are named
exactly as they are stored these are the keys of the names, so the two lists of the page
are decided by where a producer stands and by its tile.
-/

namespace Fleetwatch

open Query Sql Table Text

variable {env : Env} {ledger : List Entry} {db : Db}

/-! ## The machine -/

/-- Where a producer stands; `retired` carries the instant it was declared finished. -/
inductive Standing where
  | active
  | retired (since : Int)
  deriving DecidableEq

/-- Retiring again does not move the instant. -/
def Standing.retire (at' : Int) : Standing → Standing
  | .active => .retired at'
  | .retired since => .retired since

theorem Standing.retire_eq_retired (at' : Int) (standing : Standing) :
    ∃ since, standing.retire at' = .retired since := by
  cases standing with
  | active => exact ⟨at', rfl⟩
  | retired since => exact ⟨since, rfl⟩

/-- The key of the names a call is given. -/
def namedKey (env : Env) (call : RetirementCall) : ProducerKey :=
  producerKey env call.new.source call.new.collector

/-- The key of the row a call writes. -/
def storedKey (env : Env) (call : RetirementCall) : ProducerKey := (retirementRow call).key env

/-- What one write does to the standing of a key, which a retirement call is taken to name by
`keyOf`: an accepted retirement under it retires it, and un-retiring it makes it active. -/
def Standing.next (env : Env) (keyOf : RetirementCall → ProducerKey) (producer : ProducerKey)
    (db : Db) (standing : Standing) : Op → Standing
  | .createRetirement call =>
    if keyOf call = producer ∧ (createRetirement env call db).1.isOk then
      standing.retire (datetime3 call.now)
    else standing
  | .deleteRetirement source collector =>
    if producerKey env source collector = producer then .active else standing
  | _ => standing

/-- The store and one key's standing, side by side. -/
def standingStep (env : Env) (keyOf : RetirementCall → ProducerKey) (producer : ProducerKey)
    (s : Db × Standing) (op : Op) : Db × Standing :=
  (step env s.1 op, s.2.next env keyOf producer s.1 op)

/-- Where a producer stands after a run, by the names the calls were given. -/
def standing (env : Env) (ops : List Op) (producer : ProducerKey) : Standing :=
  (Run.run (standingStep env (namedKey env) producer) (Db.empty, .active) ops).2

/-- Where a key stands after a run, by the rows the calls write: since the first retirement
accepted after the last un-retirement. -/
def storedStanding (env : Env) (ops : List Op) (key : ProducerKey) : Standing :=
  (Run.run (standingStep env (storedKey env) key) (Db.empty, .active) ops).2

/-- The instants `retirement` should hold for a producer. -/
def Standing.instants : Standing → List Int
  | .active => []
  | .retired since => [since]

/-! ## Names -/

/-- The producer a write names. -/
def Op.names : Op → Option (String × String)
  | .ingest call => some (call.source, call.upload.collector)
  | .createRetirement call => some (call.new.source, call.new.collector)
  | .deleteRetirement source collector => some (source, collector)
  | _ => none

/-- The names a run uses. -/
def Names (ops : List Op) (name : String × String) : Prop :=
  ∃ op ∈ ops, op.names = some name

/-- Producers are named exactly as they are stored: without surrounding white space, and
two names the collation equates are one. -/
structure NamedAsStored (env : Env) (ops : List Op) : Prop where
  trimmed : ∀ name, Names ops name → trim name.1 = name.1 ∧ trim name.2 = name.2
  distinct : ∀ name name', Names ops name → Names ops name' →
    producerKey env name.1 name.2 = producerKey env name'.1 name'.2 → name = name'

theorem names_iff {ops : List Op} {name : String × String} :
    Names ops name ↔ name ∈ ops.filterMap Op.names := by
  rw [List.mem_filterMap]
  rfl

/-- The write names a producer of the run, if any. -/
def Op.within (ops : List Op) (op : Op) : Prop :=
  ∀ name, op.names = some name → Names ops name

theorem Op.within_of_mem {ops : List Op} : ∀ op ∈ ops, op.within ops :=
  fun op member _ names => ⟨op, member, names⟩

/-- Every accepted report carries a name of the run. -/
theorem named_ledger (env : Env) (ops : List Op) :
    ∀ e ∈ Run.run (ledgerStep env) [] ops, Names ops (e.call.source, e.call.upload.collector) := by
  refine Run.run_invariant
    (fun ledger : List Entry =>
      ∀ e ∈ ledger, Names ops (e.call.source, e.call.upload.collector)) ?_ ops []
    Op.within_of_mem (by intro e member; cases member)
  intro ledger op within named e member
  rcases mem_ledgerStep member with old | ⟨call, rfl, -, rfl⟩ | ⟨_, _, _, -, old, inLedger, rfl⟩
  · exact named e old
  · exact within _ rfl
  · exact named old inLedger

/-! ## The table holds the machine -/

/-- Only the two retirement calls write to the table. -/
theorem step_retirement (env : Env) (db : Db) (op : Op) :
    (step env db op).retirement = db.retirement ∨ (∃ call, op = .createRetirement call) ∨
      ∃ source collector, op = .deleteRetirement source collector := by
  cases op with
  | ingest call => exact Or.inl (ingest_overlays env call db).2
  | createMute call =>
    refine Or.inl ?_
    rw [step, createMute_retirement]
  | deleteMute id => exact Or.inl rfl
  | createRetirement call => exact Or.inr (Or.inl ⟨call, rfl⟩)
  | deleteRetirement source collector => exact Or.inr (Or.inr ⟨source, collector, rfl⟩)
  | rebuildLatestReport => exact Or.inl rfl
  | sweep now rawDays checkDays => exact Or.inl rfl

/-- Under a free key the row just written is found again. -/
theorem createRetirement_isOk_of_free {call : RetirementCall} (allowed : Retirable call)
    (free : clashes (RetirementRow.key env) (retirementRow call) db.retirement = false) :
    (createRetirement env call db).1.isOk = true := by
  have stored : RetiredAs (retirementRow call).source (retirementRow call).collector
      (retiredIn env call db) := ⟨_, mem_upsert.mpr (Or.inl ⟨free, rfl⟩), rfl, rfl⟩
  obtain ⟨existing, found⟩ := Option.isSome_iff_exists.mp ((readBack_isSome_iff call).mpr stored)
  rw [createRetirement_of_retirable allowed, found]
  rfl

/-- The instants stored under a key are those of its standing. -/
def HoldsStanding (env : Env) (key : ProducerKey) (s : Db × Standing) : Prop :=
  (rowsAt (RetirementRow.key env) key s.1.retirement).map (·.retiredAt) = s.2.instants

section Stored

variable {key : ProducerKey} {s : Db × Standing}

theorem standingStep_createRetirement (env : Env) (keyOf : RetirementCall → ProducerKey)
    (key : ProducerKey) (s : Db × Standing) (call : RetirementCall) :
    standingStep env keyOf key s (.createRetirement call) =
      ((createRetirement env call s.1).2,
        if keyOf call = key ∧ (createRetirement env call s.1).1.isOk = true then
          s.2.retire (datetime3 call.now)
        else s.2) := rfl

/-- What a call does to the instants under a key. -/
theorem HoldsStanding.create (holds : HoldsStanding env key s) (call : RetirementCall) :
    HoldsStanding env key
      (standingStep env (storedKey env) key s (.createRetirement call)) := by
  unfold HoldsStanding at holds ⊢
  rw [standingStep_createRetirement, storedKey]
  dsimp only
  by_cases allowed : Retirable call
  · have after : (createRetirement env call s.1).2 = retiredIn env call s.1 := by
      rw [createRetirement_of_retirable allowed]
    have table : rowsAt (RetirementRow.key env) key (retiredIn env call s.1).retirement = _ :=
      rowsAt_upsert (RetirementRow.key env) (retirementRow call) s.1.retirement
        (restate_key env (retirementRow call)) key
    rw [after, table]
    by_cases own : key = (retirementRow call).key env
    · subst own
      rw [if_pos rfl]
      cases stands : s.2 with
      | active =>
        rw [stands] at holds
        have none : rowsAt (RetirementRow.key env) ((retirementRow call).key env)
            s.1.retirement = [] := List.map_eq_nil_iff.mp holds
        have ok := createRetirement_isOk_of_free allowed (clashes_eq_false_iff_rowsAt.mpr none)
        rw [if_pos none, if_pos ⟨rfl, ok⟩]
        rfl
      | retired since =>
        -- accepted or not, the call leaves the instant where it was
        rw [stands] at holds
        have some : rowsAt (RetirementRow.key env) ((retirementRow call).key env)
            s.1.retirement ≠ [] := by
          intro none
          rw [none] at holds
          cases holds
        have stays : (if (retirementRow call).key env = (retirementRow call).key env ∧
            (createRetirement env call s.1).1.isOk = true then
              (Standing.retired since).retire (datetime3 call.now)
            else .retired since) = .retired since := by
          split <;> rfl
        rw [if_neg some, List.map_map, stays]
        exact holds
    · rw [if_neg own, if_neg (fun both => own both.1.symm)]
      exact holds
  · obtain ⟨err, failed⟩ : ∃ err, createRetirement env call s.1 = (.error err, s.1) :=
      createRetirement_of_not_retirable allowed
    rw [failed, if_neg (fun both => Bool.false_ne_true both.2)]
    exact holds

theorem HoldsStanding.delete (holds : HoldsStanding env key s) (source collector : String) :
    HoldsStanding env key
      (standingStep env (storedKey env) key s (.deleteRetirement source collector)) := by
  unfold HoldsStanding at holds ⊢
  have table : rowsAt (RetirementRow.key env) key (deleteRetirement env source collector
      s.1).2.retirement = if decide (key = producerKey env source collector) = true then []
        else rowsAt (RetirementRow.key env) key s.1.retirement :=
    rowsAt_deleteWhere_of_const _ (fun row _ same => by rw [same])
  refine (congrArg (List.map (·.retiredAt)) table).trans ?_
  change _ = (if producerKey env source collector = key then Standing.active else s.2).instants
  by_cases own : producerKey env source collector = key
  · rw [if_pos (decide_eq_true own.symm), if_pos own]
    rfl
  · rw [if_neg (by simpa using Ne.symm own), if_neg own]
    exact holds

theorem HoldsStanding.step (holds : HoldsStanding env key s) (op : Op) :
    HoldsStanding env key (standingStep env (storedKey env) key s op) := by
  have same : ∀ {table : List RetirementRow}, table = s.1.retirement →
      (rowsAt (RetirementRow.key env) key table).map (·.retiredAt) = s.2.instants := by
    intro table unchanged
    rw [unchanged]
    exact holds
  cases op with
  | ingest call => exact same (ingest_overlays env call s.1).2
  | createMute call =>
    have kept : (Fleetwatch.step env s.1 (.createMute call)).retirement = s.1.retirement := by
      rw [Fleetwatch.step, createMute_retirement]
    exact same kept
  | deleteMute _ => exact same rfl
  | createRetirement call => exact holds.create call
  | deleteRetirement source collector => exact holds.delete source collector
  | rebuildLatestReport => exact same rfl
  | sweep _ _ _ => exact same rfl

end Stored

/-- The first component runs the store. -/
theorem standing_fst (env : Env) (keyOf : RetirementCall → ProducerKey) (producer : ProducerKey)
    (ops : List Op) :
    (Run.run (standingStep env keyOf producer) (Db.empty, .active) ops).1 = stateAfter env ops :=
  Run.run_simulation (fun (s : Db × Standing) (db : Db) => s.1 = db)
    (fun _ _ op same => congrArg (fun db => step env db op) same) ops _ _ rfl

/-- The table holds each key's standing, whatever names are used. -/
theorem storedStanding_instants (env : Env) (ops : List Op) (key : ProducerKey) :
    (rowsAt (RetirementRow.key env) key (stateAfter env ops).retirement).map (·.retiredAt) =
      (storedStanding env ops key).instants := by
  have holds : HoldsStanding env key
      (Run.run (standingStep env (storedKey env) key) (Db.empty, .active) ops) :=
    @Run.run_invariant _ _ _ (fun _ => True) (HoldsStanding env key)
      (fun _ op _ holds => holds.step op) ops _ (fun _ _ => trivial) rfl
  unfold HoldsStanding at holds
  rw [standing_fst] at holds
  exact holds

section Named

variable {ops : List Op} (named : NamedAsStored env ops)

include named

/-- The row of a call is stored under the names it was given. -/
theorem retirementRow_names {call : RetirementCall}
    (within : Names ops (call.new.source, call.new.collector)) :
    (retirementRow call).source = call.new.source ∧
      (retirementRow call).collector = call.new.collector := by
  show trim call.new.source = _ ∧ trim call.new.collector = _
  exact named.trimmed (call.new.source, call.new.collector) within

/-- Where names are stored as they are given, it is one machine. -/
theorem standing_eq_stored (producer : ProducerKey) :
    standing env ops producer = storedStanding env ops producer := by
  have one : ∀ (s : Db × Standing), ∀ op ∈ ops,
      standingStep env (namedKey env) producer s op =
        standingStep env (storedKey env) producer s op := by
    intro s op member
    cases op with
    | createRetirement call =>
      have key : storedKey env call = namedKey env call := by
        obtain ⟨source, collector⟩ := retirementRow_names named ⟨_, member, rfl⟩
        unfold storedKey namedKey RetirementRow.key
        rw [source, collector]
      rw [standingStep_createRetirement, standingStep_createRetirement, key]
    | ingest _ => rfl
    | createMute _ => rfl
    | deleteMute _ => rfl
    | deleteRetirement _ _ => rfl
    | rebuildLatestReport => rfl
    | sweep _ _ _ => rfl
  unfold standing storedStanding Run.run
  rw [List.foldl_ext _ _ _ one]

/-- Every stored retirement carries a name of the run. -/
theorem named_retirement : ∀ row ∈ (stateAfter env ops).retirement,
    Names ops (row.source, row.collector) := by
  refine Run.run_invariant
    (fun db : Db => ∀ row ∈ db.retirement, Names ops (row.source, row.collector)) ?_ ops Db.empty
    Op.within_of_mem (by intro row member; cases member)
  intro db op within names row member
  rcases step_retirement env db op with same | ⟨call, rfl⟩ | ⟨source, collector, rfl⟩
  · rw [same] at member
    exact names row member
  · rcases createRetirement_after env call db with same | ⟨_, after⟩
    · rw [step, same] at member
      exact names row member
    · rw [step, after] at member
      rcases spelling_of_retiredIn member with ⟨_, rfl⟩ | ⟨row', stored, source, collector⟩
      · rw [(retirementRow_names named (within _ rfl)).1,
          (retirementRow_names named (within _ rfl)).2]
        exact within _ rfl
      · rw [source, collector]
        exact names row' stored
  · exact names row (List.mem_filter.mp member).1

end Named

/-! ## The page -/

/-- The tile is about a report of its producer that none of the others is later than. -/
def AboutLatest (env : Env) (db : Db) (tile : OverviewEntry) : Prop :=
  ∃ r ∈ db.report, r.id = tile.reportId ∧ r.source = tile.source ∧ r.collector = tile.collector ∧
    r.collectedAt = tile.collectedAt ∧
      ∀ other ∈ db.report, other.producer env = r.producer env → other.collectedAt ≤ r.collectedAt

/-- The page's two lists of producers, decided by where each stands. -/
structure FollowsStanding (env : Env) (ops : List Op) (now : Int) (p : Problems) : Prop where
  stale : ∀ tile ∈ p.stale, tile ∈ overview env now (stateAfter env ops)
  returned : ∀ tile ∈ p.returned, tile ∈ overview env now (stateAfter env ops)
  disjoint : ∀ tile ∈ p.stale, ∀ tile' ∈ p.returned,
    producerKey env tile.source tile.collector ≠ producerKey env tile'.source tile'.collector
  active : ∀ tile ∈ overview env now (stateAfter env ops),
    standing env ops (producerKey env tile.source tile.collector) = .active →
      (tile ∈ p.stale ↔ tile.freshness ≠ .fresh) ∧ tile ∉ p.returned
  retired : ∀ tile ∈ overview env now (stateAfter env ops), ∀ since,
    standing env ops (producerKey env tile.source tile.collector) = .retired since →
      tile ∉ p.stale ∧ (tile ∈ p.returned ↔ since < tile.collectedAt)
  latest : ∀ tile ∈ overview env now (stateAfter env ops), AboutLatest env (stateAfter env ops) tile

theorem aboutLatest (rep : Represents env ledger db) {now : Int} {tile : OverviewEntry}
    (member : tile ∈ overview env now db) : AboutLatest env db tile := by
  obtain ⟨l, inTable, e, points, rfl⟩ := (mem_overview rep).mp member
  refine ⟨e.reportRow, ?_, rfl, rfl, rfl, rfl, ?_⟩
  · rw [rep.report]
    exact List.mem_map.mpr ⟨e, points.member, rfl⟩
  · intro other stored same
    rw [rep.report] at stored
    obtain ⟨e', inLedger, rfl⟩ := List.mem_map.mp stored
    exact points.newest e' inLedger same

/-- No tile is both. -/
theorem not_stale_and_returned (retirements : List Retirement) (tile : OverviewEntry)
    (stale : isStale retirements tile = true) : hasReturned retirements tile = false := by
  unfold isStale at stale
  unfold hasReturned
  cases found : retired retirements tile.source tile.collector with
  | none => rfl
  | some r =>
    rw [found] at stale
    cases stale

section Named

variable {ops : List Op} (named : NamedAsStored env ops) {now : Int} {tile : OverviewEntry}
  (member : tile ∈ overview env now (stateAfter env ops))

include named member

/-- The page looks a tile's retirement up by its bytes and finds what the collation
would. -/
theorem retired_eq_standing :
    (retired (listRetirements (stateAfter env ops)) tile.source tile.collector).map (·.retiredAt) =
      (standing env ops (producerKey env tile.source tile.collector)).instants.head? := by
  have names := named_retirement named
  have rows := storedStanding_instants env ops (producerKey env tile.source tile.collector)
  rw [← standing_eq_stored named] at rows
  obtain ⟨_, _, e, points, tileIs⟩ := (mem_overview (represents_run env ops)).mp member
  have own : Names ops (tile.source, tile.collector) := by
    rw [tileIs]
    exact named_ledger env ops e points.member
  rw [← rows]
  cases found : retired (listRetirements (stateAfter env ops)) tile.source tile.collector with
  | none =>
    have absent := retired_eq_none_iff.mp found
    have none : rowsAt (RetirementRow.key env) (producerKey env tile.source tile.collector)
        (stateAfter env ops).retirement = [] := by
      rw [List.eq_nil_iff_forall_not_mem]
      intro row stored
      obtain ⟨inTable, same⟩ := mem_rowsAt.mp stored
      obtain ⟨source, collector⟩ := Prod.mk.inj
        (named.distinct _ _ (names row inTable) own same)
      exact absent row inTable ⟨source, collector⟩
    rw [none]
    rfl
  | some r =>
    obtain ⟨row, stored, rfl, source, collector⟩ := retired_eq_some found
    have single := Keyed.rowsAt_eq (represents_run env ops).retirement stored
    have key : row.key env = producerKey env tile.source tile.collector := by
      rw [← source, ← collector]
      rfl
    rw [key] at single
    rw [show rowsAt (RetirementRow.key env) (producerKey env tile.source tile.collector)
      (stateAfter env ops).retirement = [row] from single]
    rfl

theorem isStale_eq_standing (active : standing env ops
    (producerKey env tile.source tile.collector) = .active) :
    isStale (listRetirements (stateAfter env ops)) tile = decide (tile.freshness ≠ .fresh) ∧
      hasReturned (listRetirements (stateAfter env ops)) tile = false := by
  have found := retired_eq_standing named member
  rw [active] at found
  have none := Option.map_eq_none_iff.mp found
  unfold isStale hasReturned
  rw [none]
  exact ⟨rfl, rfl⟩

theorem hasReturned_eq_standing {since : Int} (retiredSince : standing env ops
    (producerKey env tile.source tile.collector) = .retired since) :
    isStale (listRetirements (stateAfter env ops)) tile = false ∧
      hasReturned (listRetirements (stateAfter env ops)) tile =
        decide (since < tile.collectedAt) := by
  have found := retired_eq_standing named member
  rw [retiredSince] at found
  obtain ⟨r, lookedUp, at'⟩ := Option.map_eq_some_iff.mp found
  unfold isStale hasReturned
  rw [lookedUp]
  exact ⟨rfl, by rw [← at']⟩

end Named

/-- Over producers named exactly as stored, after every run and at every instant the
page's stale and returned producers are decided by where each stands; and the two
retirement calls write to no table but their own. -/
theorem retirement_machine {ops : List Op} (named : NamedAsStored env ops) (now : Int) :
    FollowsStanding env ops now (problems env now (stateAfter env ops)) ∧
      (∀ call db, (createRetirement env call db).2 =
        { db with retirement := (createRetirement env call db).2.retirement }) ∧
      ∀ source collector db, (deleteRetirement env source collector db).2 =
        { db with retirement := (deleteRetirement env source collector db).2.retirement } := by
  have rep : Represents env _ (stateAfter env ops) := represents_run env ops
  refine ⟨?_, ?_, fun _ _ _ => rfl⟩
  · constructor
    case stale => exact fun tile listed => (List.mem_filter.mp listed).1
    case returned => exact fun tile listed => (List.mem_filter.mp listed).1
    case disjoint =>
      intro tile stale tile' returned same
      obtain ⟨inOverview, isStale'⟩ := List.mem_filter.mp stale
      obtain ⟨inOverview', hasReturned'⟩ := List.mem_filter.mp returned
      obtain ⟨l, inTable, e, points, rfl⟩ := (mem_overview rep).mp inOverview
      obtain rfl := tile_unique rep inTable points inOverview' (same.symm.trans points.producer.symm)
      have none := not_stale_and_returned _ _ isStale'
      exact Bool.false_ne_true (none.symm.trans hasReturned')
    case active =>
      intro tile member active
      obtain ⟨staleIs, returnedIs⟩ := isStale_eq_standing named member active
      refine ⟨?_, ?_⟩
      · show tile ∈ (overview _ _ _).filter _ ↔ _
        rw [List.mem_filter, staleIs, decide_eq_true_iff]
        exact and_iff_right member
      · intro listed
        rw [(List.mem_filter.mp listed).2] at returnedIs
        cases returnedIs
    case retired =>
      intro tile member since retiredSince
      obtain ⟨staleIs, returnedIs⟩ := hasReturned_eq_standing named member retiredSince
      refine ⟨?_, ?_⟩
      · intro listed
        rw [(List.mem_filter.mp listed).2] at staleIs
        cases staleIs
      · show tile ∈ (overview _ _ _).filter _ ↔ _
        rw [List.mem_filter, returnedIs, decide_eq_true_iff]
        exact and_iff_right member
    case latest => exact fun tile member => aboutLatest rep member
  · intro call db
    rcases createRetirement_after env call db with same | ⟨_, after⟩
    · rw [same]
    · rw [after]
      rfl

/-- The sample producer reports, is retired, reports again and is retired again. -/
def retiredAgain : List Op :=
  [.ingest sampleReport, .createRetirement sampleRetirement,
    .ingest { sampleReport with
      upload := { sampleReport.upload with
        id := "01ARZ3NDEKTSV4RRFFQ69G5FB7", collectedAt := 172800 * second } },
    .createRetirement { sampleRetirement with now := 259200 * second }]

theorem retirement_machine_retiredAgain :
    FollowsStanding asciiEnv retiredAgain (172800 * second)
      (problems asciiEnv (172800 * second) (stateAfter asciiEnv retiredAgain)) := by
  have named : NamedAsStored asciiEnv retiredAgain := by
    constructor
    case trimmed =>
      simp only [names_iff]
      decide
    case distinct =>
      intro name name' used used' _
      rw [names_iff] at used used'
      have single : ∀ name ∈ retiredAgain.filterMap Op.names, name = ("amun", "disk") := by decide
      rw [single name used, single name' used']
  exact (retirement_machine named (172800 * second)).1

example : standing asciiEnv retiredAgain (producerKey asciiEnv "amun" "disk") =
    .retired (86400 * second) := by decide

end Fleetwatch
