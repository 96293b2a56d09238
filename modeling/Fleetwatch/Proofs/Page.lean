import Fleetwatch.Proofs.MuteOverlay
import Fleetwatch.Proofs.Pointees

/-!
# Every problem is on the page once

The page is one pass over the failing checks of the reports the pointers name, in the
order of the query. The left join keeps each of them once, and the lookup of its mute
sends it to one of two lists; so the two together are those checks, whatever mutes are
stored. `page_lists` names the rows of both.
-/

namespace Fleetwatch

open Query Ranking Sql Table

variable {env : Env} {ledger : List Entry} {db : Db}

/-! ## The failing checks of the latest reports -/

/-- The `fail` and `warn` rows of the reports `latest_report` points at, as the table
stores them. -/
def pointedProblems (env : Env) (db : Db) : List CheckRow :=
  db.checkResult.filter (fun c => c.verdict.isProblem &&
    db.latestReport.any (fun l => pointsAt env l c))

/-- A stored check is pointed at exactly when its report is. -/
theorem pointed_iff (rep : Represents env ledger db) {e : Entry} (member : e ∈ ledger)
    {c : CheckRow} (own : c ∈ e.checkRows) :
    db.latestReport.any (fun l => pointsAt env l c) = true ↔ e ∈ pointees env ledger db := by
  rw [List.any_eq_true, mem_pointees rep]
  refine exists_congr fun l => and_congr_right fun inTable => ?_
  obtain ⟨e', points⟩ := rep.latest.sound l inTable
  unfold pointsAt
  rw [decide_eq_true_iff, checkRows_reportId own, points.reportId]
  constructor
  · intro same
    rw [rep.eq_of_key member points.member same]
    exact points
  · intro points'
    rw [rep.pointee_eq points points'.member points'.reportId |>.symm]

/-- The problems query finds each of them once. -/
theorem latestProblems_perm (rep : Represents env ledger db) :
    (latestProblems env db).Perm (pointedProblems env db) := by
  have shown : (pointees env ledger db).Perm
      (ledger.filter (fun e => e ∈ pointees env ledger db)) := by
    have distinct := (nodup_producer_pointees rep).of_map
    refine (List.perm_ext_iff_of_nodup distinct (rep.ids.of_map.filter _)).mpr fun e => ?_
    rw [List.mem_filter, decide_eq_true_iff]
    constructor
    · intro pointed
      obtain ⟨_, _, points⟩ := (mem_pointees rep).mp pointed
      exact ⟨points.member, pointed⟩
    · exact And.right
  have stored : pointedProblems env db =
      (ledger.filter (fun e => e ∈ pointees env ledger db)).flatMap
        (fun e => e.checkRows.filter (fun c => c.verdict.isProblem)) := by
    unfold pointedProblems
    rw [rep.checkResult, List.filter_flatMap, flatMap_filter]
    refine List.flatMap_congr fun e member => ?_
    by_cases pointed : e ∈ pointees env ledger db
    · rw [if_pos (decide_eq_true pointed)]
      apply List.filter_congr
      intro c own
      rw [(pointed_iff rep member own).mpr pointed, Bool.and_true]
    · rw [if_neg (by simpa using pointed), List.filter_eq_nil_iff]
      intro c own kept
      exact pointed ((pointed_iff rep member own).mp ((Bool.and_eq_true _ _).mp kept).2)
  rw [latestProblems_eq_pointees rep, stored]
  exact shown.flatMap_right _

/-! ## The mutes that cover a check -/

/-- A live mute of a check: stored, unexpired at `now`, and under the check's own names. -/
structure Silences (now : Int) (db : Db) (m : Mute) (c : CheckRow) : Prop where
  stored : ∃ row ∈ db.mute, row.toMute = m
  unexpired : now < m.expiresAt
  source : m.source = c.source
  collector : m.collector = c.collector
  label : m.label = c.label

/-- Expiries are stored in whole milliseconds. -/
def WholeExpiries (db : Db) : Prop :=
  ∀ row ∈ db.mute, datetime3 row.expiresAt = row.expiresAt

theorem Reachable.wholeExpiries {permitted : Op → Prop} (reached : Reachable env permitted db) :
    WholeExpiries db := by
  obtain ⟨ops, allowed, rfl⟩ := reached
  refine Run.run_invariant WholeExpiries ?_ ops Db.empty allowed (by intro row stored; cases stored)
  intro db op _ whole
  cases op with
  | ingest call =>
    rw [step, WholeExpiries, (ingest_overlays env call db).1]
    exact whole
  | createMute call =>
    rcases createMute_after env call db with same | ⟨_, after⟩
    · rw [step, same]
      exact whole
    · rw [step, after]
      intro row stored
      rcases List.mem_append.mp stored with earlier | new
      · exact whole row earlier
      · rw [List.mem_singleton.mp new]
        exact datetime3_idem _
  | deleteMute id =>
    rw [step, deleteMute]
    intro row stored
    exact whole row (List.mem_filter.mp stored).1
  | createRetirement call =>
    rw [step, WholeExpiries, createRetirement_mute]
    exact whole
  | deleteRetirement _ _ =>
    rw [step, deleteRetirement]
    exact whole
  | rebuildLatestReport =>
    rw [step, rebuildLatestReport]
    exact whole
  | sweep _ _ _ =>
    rw [step, Fleetwatch.sweep]
    exact whole

/-- To a whole millisecond the digits the binding drops make no difference. -/
theorem bind_lt_iff {t expiry : Int} (whole : datetime3 expiry = expiry) :
    bindDatetime t < expiry ↔ t < expiry := by
  unfold datetime3 at whole
  unfold bindDatetime
  omega

theorem mem_listMutes_iff {now : Int} (whole : WholeExpiries db) {m : Mute} :
    m ∈ listMutes now db ↔ (∃ row ∈ db.mute, row.toMute = m) ∧ now < m.expiresAt := by
  rw [mem_listMutes]
  constructor
  · intro listed
    obtain ⟨row, stored, live, rfl⟩ := listed
    exact ⟨⟨row, stored, rfl⟩, (bind_lt_iff (whole row stored)).mp live⟩
  · intro live
    obtain ⟨⟨row, stored, rfl⟩, unexpired⟩ := live
    exact ⟨row, stored, (bind_lt_iff (whole row stored)).mpr unexpired, rfl⟩

/-- The mute the page looks up is a live one of the check that none outlasts. -/
theorem mute_eq_some {now : Int} (whole : WholeExpiries db) {r : ProblemRow} {m : Mute}
    (found : r.mute now db = some m) :
    Silences now db m r.check ∧ ∀ m', Silences now db m' r.check → m'.expiresAt ≤ m.expiresAt := by
  obtain ⟨listed, names, longest⟩ := keepGreatest_eq_some found
  obtain ⟨stored, unexpired⟩ := (mem_listMutes_iff whole).mp listed
  obtain ⟨source, rest⟩ := Prod.mk.inj names
  obtain ⟨collector, label⟩ := Prod.mk.inj rest
  refine ⟨⟨stored, unexpired, source, collector, label⟩, ?_⟩
  intro m' silences
  apply longest m' ((mem_listMutes_iff whole).mpr ⟨silences.stored, silences.unexpired⟩)
  exact Prod.ext silences.source (Prod.ext silences.collector silences.label)

/-- It finds none exactly where the check has no live mute. -/
theorem mute_eq_none {now : Int} (whole : WholeExpiries db) {r : ProblemRow}
    (absent : r.mute now db = none) (m : Mute) : ¬ Silences now db m r.check := by
  intro silences
  have other := keepGreatest_eq_none_iff.mp absent m
    ((mem_listMutes_iff whole).mpr ⟨silences.stored, silences.unexpired⟩)
  exact other (Prod.ext silences.source (Prod.ext silences.collector silences.label))

/-! ## The page of some identities -/

theorem problems_checks (env : Env) (now : Int) (db : Db) : (problems env now db).checks =
    ((problemRows env db).filter (fun r => (r.mute now db).isNone)).map problemCheck := rfl

theorem problems_muted (env : Env) (now : Int) (db : Db) : (problems env now db).muted =
    (problemRows env db).filterMap (fun r => (r.mute now db).map (mutedCheck r)) := rfl

section Selected

variable (env : Env) (now : Int) (select : String → String → String → Bool) (db : Db)

/-- The open rows of the selected identities. -/
theorem filter_checks :
    (problems env now db).checks.filter (fun p => select p.source p.collector p.label) =
      (((problemRows env db).filter (fun r =>
        select r.check.source r.check.collector r.check.label)).filter
          (fun r => (r.mute now db).isNone)).map problemCheck := by
  rw [problems_checks, List.filter_map, List.filter_filter, List.filter_filter]
  congr 1
  apply List.filter_congr
  intro r _
  exact Bool.and_comm _ _

/-- The muted rows of the selected identities. -/
theorem filter_muted :
    (problems env now db).muted.filter (fun m => select m.source m.collector m.label) =
      ((problemRows env db).filter (fun r =>
        select r.check.source r.check.collector r.check.label)).filterMap
          (fun r => (r.mute now db).map (mutedCheck r)) := by
  rw [problems_muted, List.filter_filterMap, List.filterMap_filter]
  apply List.filterMap_congr
  intro r _
  cases r.mute now db with
  | none => simp
  | some m => rfl

/-- Two states show the same rows of the selected identities when they find the same rows
and the same mutes of them. -/
theorem checks_and_muted_eq (db' : Db)
    (rows : (problemRows env db').filter (fun r =>
        select r.check.source r.check.collector r.check.label) =
      (problemRows env db).filter (fun r =>
        select r.check.source r.check.collector r.check.label))
    (mutes : ∀ r ∈ problemRows env db, select r.check.source r.check.collector r.check.label = true →
      r.mute now db' = r.mute now db) :
    (problems env now db').checks.filter (fun p => select p.source p.collector p.label) =
        (problems env now db).checks.filter (fun p => select p.source p.collector p.label) ∧
      (problems env now db').muted.filter (fun m => select m.source m.collector m.label) =
        (problems env now db).muted.filter (fun m => select m.source m.collector m.label) := by
  rw [filter_checks, filter_checks, filter_muted, filter_muted, rows]
  constructor
  · congr 1
    apply List.filter_congr
    intro r member
    obtain ⟨found, selected⟩ := List.mem_filter.mp member
    rw [mutes r found selected]
  · apply List.filterMap_congr
    intro r member
    obtain ⟨found, selected⟩ := List.mem_filter.mp member
    rw [mutes r found selected]

end Selected

/-! ## The two lists -/

/-- The page at `now`, row by row: the open problems, and the muted ones each with the
mute it names. -/
structure PageLists (env : Env) (now : Int) (db : Db) (opened : List CheckRow)
    (hidden : List (CheckRow × Mute)) : Prop where
  checks : ∃ since : CheckRow → Option Int, (problems env now db).checks =
    opened.map (fun c => problemCheck { check := c, firstSeen := since c })
  muted : (problems env now db).muted =
    hidden.map (fun (c, m) => mutedCheck { check := c, firstSeen := none } m)
  whole : (opened ++ hidden.map Prod.fst).Perm (pointedProblems env db)
  openedOrder : opened.Pairwise (fun c c' => checkOrder env c < checkOrder env c')
  hiddenOrder : (hidden.map Prod.fst).Pairwise (fun c c' => checkOrder env c < checkOrder env c')
  unmuted : ∀ c ∈ opened, ∀ m, ¬ Silences now db m c
  covers : ∀ pair ∈ hidden, Silences now db pair.2 pair.1
  longest : ∀ pair ∈ hidden, ∀ m, Silences now db m pair.1 → m.expiresAt ≤ pair.2.expiresAt

/-- The rows of the query stand in its order and none of them ties. -/
theorem pairwise_problemRows (rep : Represents env ledger db) :
    (problemRows env db).Pairwise (fun r r' => checkOrder env r.check < checkOrder env r'.check) := by
  have sorted : (orderBy (checkOrder env) (latestProblems env db)).Pairwise
      (fun c c' => checkOrder env c ≤ checkOrder env c') := pairwise_orderBy _
  have distinct : ((orderBy (checkOrder env) (latestProblems env db)).map (checkOrder env)).Nodup :=
    ((orderBy_perm _).map _).nodup_iff.mpr (nodup_checkOrder rep)
  rw [← map_check_problemRows rep] at sorted distinct
  have le := List.pairwise_map.mp sorted
  have ne := List.pairwise_map.mp (List.pairwise_map.mp distinct)
  exact (le.and ne).imp (fun both => lt_of_le_of_ne both.1 both.2)

/-- The page's muted rows with the mutes they name. -/
def hiddenRows (now : Int) (db : Db) (rows : List ProblemRow) : List (CheckRow × Mute) :=
  rows.filterMap (fun r => (r.mute now db).map (fun m => (r.check, m)))

theorem mem_hiddenRows {now : Int} {rows : List ProblemRow} {pair : CheckRow × Mute} :
    pair ∈ hiddenRows now db rows ↔
      ∃ r ∈ rows, r.check = pair.1 ∧ r.mute now db = some pair.2 := by
  unfold hiddenRows
  rw [List.mem_filterMap]
  refine exists_congr fun r => and_congr_right fun _ => ?_
  cases r.mute now db with
  | none => simp
  | some m => simp [Prod.ext_iff]

/-- Each row is opened or hidden. -/
theorem opened_append_hidden_perm (now : Int) (db : Db) (rows : List ProblemRow) :
    ((rows.filter (fun r => (r.mute now db).isNone)).map ProblemRow.check ++
      (hiddenRows now db rows).map Prod.fst).Perm (rows.map ProblemRow.check) := by
  induction rows with
  | nil => exact List.Perm.nil
  | cons r rest ih =>
    cases found : r.mute now db with
    | none => simpa [hiddenRows, found] using ih
    | some m =>
      have moved : ((rest.filter (fun r => (r.mute now db).isNone)).map ProblemRow.check ++
          r.check :: (hiddenRows now db rest).map Prod.fst).Perm (r.check ::
            ((rest.filter (fun r => (r.mute now db).isNone)).map ProblemRow.check ++
              (hiddenRows now db rest).map Prod.fst)) := List.perm_middle
      simpa [hiddenRows, found] using moved.trans (ih.cons r.check)

/-- The hidden rows stand in the order of the rows they come from. -/
theorem hidden_sublist (now : Int) (db : Db) (rows : List ProblemRow) :
    ((hiddenRows now db rows).map Prod.fst).Sublist (rows.map ProblemRow.check) := by
  induction rows with
  | nil => exact List.Sublist.slnil
  | cons r rest ih =>
    cases found : r.mute now db with
    | none => simpa [hiddenRows, found] using ih.cons r.check
    | some m => simpa [hiddenRows, found] using ih

/-- In every reachable state and at every instant the page's two lists are the failing
checks of the reports the pointers name, each once and in order, and a check is muted
exactly when a live mute has its names, the longest of them being the one it names. -/
theorem page_lists {permitted : Op → Prop} (reached : Reachable env permitted db) (now : Int) :
    ∃ opened hidden, PageLists env now db opened hidden := by
  obtain ⟨ledger, rep⟩ := reached.represents
  have whole := reached.wholeExpiries
  have before := pairwise_problemRows rep
  have sorted : ((problemRows env db).map ProblemRow.check).Pairwise
      (fun c c' => checkOrder env c < checkOrder env c') := List.pairwise_map.mpr before
  refine ⟨((problemRows env db).filter (fun r => (r.mute now db).isNone)).map ProblemRow.check,
    hiddenRows now db (problemRows env db), ?_⟩
  constructor
  case checks =>
    refine ⟨fun c => ((rowsAt (ProblemSinceRow.key env) (c.identity env) db.problemSince).map
      (·.firstSeen)).head?, ?_⟩
    show ((problemRows env db).filter _).map problemCheck = _
    rw [List.map_map]
    apply List.map_congr_left
    intro r member
    have since := ((mem_problemRows rep).mp (List.mem_filter.mp member).1).2
    exact congrArg (fun first => problemCheck { check := r.check, firstSeen := first }) since
  case muted =>
    show (problemRows env db).filterMap (fun r => (r.mute now db).map (mutedCheck r)) = _
    unfold hiddenRows
    rw [List.map_filterMap]
    congr 1
    funext r
    rw [Option.map_map]
    rfl
  case whole =>
    refine (opened_append_hidden_perm now db _).trans ?_
    rw [map_check_problemRows rep]
    exact (orderBy_perm _).trans (latestProblems_perm rep)
  case openedOrder => exact List.pairwise_map.mpr (before.filter _)
  case hiddenOrder => exact sorted.sublist (hidden_sublist now db _)
  case unmuted =>
    intro c opened m
    obtain ⟨r, member, rfl⟩ := List.mem_map.mp opened
    exact mute_eq_none whole (Option.isNone_iff_eq_none.mp (List.mem_filter.mp member).2) m
  case covers =>
    intro pair hidden
    obtain ⟨r, _, check, found⟩ := mem_hiddenRows.mp hidden
    rw [← check]
    exact (mute_eq_some whole found).1
  case longest =>
    intro pair hidden m silences
    obtain ⟨r, _, check, found⟩ := mem_hiddenRows.mp hidden
    rw [← check] at silences
    exact (mute_eq_some whole found).2 m silences

theorem page_lists_mutedTwice :
    ∃ opened hidden, PageLists asciiEnv second (stateAfter asciiEnv mutedTwice) opened hidden := by
  have reached : Reachable asciiEnv Op.keepsChecks (stateAfter asciiEnv mutedTwice) :=
    ⟨mutedTwice, by simp [mutedTwice, Op.keepsChecks], rfl⟩
  exact page_lists reached second

end Fleetwatch
