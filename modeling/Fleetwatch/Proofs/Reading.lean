import Fleetwatch.Proofs.Ledger

/-!
# What the queries read

The joins of the views, over tables that represent a ledger: an id finds its entry
and nothing else, a pointer finds the entry it points at, and the problems query
finds each producer's failing checks in the one report its pointer names.
-/

namespace Fleetwatch

open Query Sql Table

variable {env : Env} {ledger : List Entry} {db : Db}

/-! ## By id -/

theorem Represents.eq_of_key (rep : Represents env ledger db) {e e' : Entry} (member : e ∈ ledger)
    (member' : e' ∈ ledger) (same : e.key env = e'.key env) : e = e' :=
  List.inj_on_of_nodup_map rep.ids member member' same

theorem Represents.keyedReport (rep : Represents env ledger db) :
    Keyed (ReportRow.key env) db.report := by
  unfold Keyed
  rw [rep.report, List.map_map]
  exact rep.ids

/-- Exactly one report row is stored under an entry's id. -/
theorem Represents.rowsAt_report (rep : Represents env ledger db) {e : Entry}
    (member : e ∈ ledger) : rowsAt (ReportRow.key env) (e.key env) db.report = [e.reportRow] := by
  have stored : e.reportRow ∈ db.report := by
    rw [rep.report]
    exact List.mem_map.mpr ⟨e, member, rfl⟩
  exact rep.keyedReport.rowsAt_eq stored

/-- The check rows stored under an entry's id are the entry's, in order. -/
theorem Represents.checks_of (rep : Represents env ledger db) {e : Entry} (member : e ∈ ledger) :
    db.checkResult.filter (fun c => env.weight c.reportId = e.key env) = e.checkRows := by
  rw [rep.checkResult, filter_flatMap_of_single rep.ids.of_map member]
  · rw [List.filter_eq_self]
    intro c own
    rw [checkRows_reportId own]
    exact decide_eq_true rfl
  · intro other inLedger different c own
    rw [checkRows_reportId own]
    refine decide_eq_false ?_
    intro same
    exact different (rep.eq_of_key inLedger member same)

/-- The rows of a report stand in the order of its checks. -/
theorem pairwise_seq_checkRowsFrom (call : IngestCall) (checks : List CheckUpload) (seq : Nat) :
    (checkRowsFrom call seq checks).Pairwise (fun left right => left.seq < right.seq) := by
  induction checks generalizing seq with
  | nil => simp [checkRowsFrom]
  | cons c rest ih =>
    simp only [checkRowsFrom, List.zipIdx_cons, List.map_cons, List.pairwise_cons]
    refine ⟨?_, ih (seq + 1)⟩
    intro row member
    obtain ⟨⟨other, i⟩, found, rfl⟩ := List.mem_map.mp member
    exact List.le_snd_of_mem_zipIdx found

theorem pairwise_seq_checkRows (e : Entry) :
    e.checkRows.Pairwise (fun left right => left.seq < right.seq) := by
  unfold Entry.checkRows
  split
  · exact List.Pairwise.nil
  · exact pairwise_seq_checkRowsFrom _ _ _

theorem orderBy_seq_checkRows (e : Entry) : orderBy CheckRow.seq e.checkRows = e.checkRows :=
  List.Pairwise.insertionSort_eq ((pairwise_seq_checkRows e).imp fun earlier => le_of_lt earlier)

/-- `report_detail` finds an entry by its id and shows the checks it has left. -/
theorem Represents.reportDetail (rep : Represents env ledger db) {e : Entry} (member : e ∈ ledger)
    {id : String} (same : env.weight id = e.key env) :
    Fleetwatch.reportDetail env id db = some
      { id := e.id
        source := e.call.source
        collector := e.call.upload.collector
        schema := e.call.upload.schema
        collectedAt := e.storedAt
        receivedAt := datetime3 e.call.now
        durationMs := e.call.upload.durationMs
        intervalS := e.call.upload.intervalS
        ok := (tally e.call.upload.checks).fail == 0
        checks := e.checkRows.map CheckRow.toOut } := by
  have found : db.report.find? (fun r => r.key env = e.key env) = some e.reportRow := by
    have one := rep.rowsAt_report member
    unfold rowsAt at one
    rw [← List.head?_filter, one]
    rfl
  unfold Fleetwatch.reportDetail
  rw [same, found]
  simp only [rep.checks_of member, orderBy_seq_checkRows]
  rfl

/-! ## By pointer -/

/-- A pointer points at the entry whose id it names. -/
theorem Represents.pointee_eq (rep : Represents env ledger db) {l : LatestReportRow}
    {e e' : Entry} (points : PointsTo env ledger l e) (member : e' ∈ ledger)
    (named : l.reportId = e'.id) : e = e' := by
  apply rep.eq_of_key points.member member
  unfold Entry.key
  rw [← points.reportId, named]

/-- The report row under a pointer's id is that of the entry it points at. -/
theorem Represents.row_of_pointer (rep : Represents env ledger db) {l : LatestReportRow} {e : Entry}
    (points : PointsTo env ledger l e) {r : ReportRow} (stored : r ∈ db.report)
    (same : r.key env = env.weight l.reportId) : r = e.reportRow := by
  rw [rep.report] at stored
  obtain ⟨e', member, rfl⟩ := List.mem_map.mp stored
  rw [points.reportId] at same
  rw [rep.eq_of_key member points.member same]

theorem mem_latestReports (rep : Represents env ledger db) {r : ReportRow} :
    r ∈ latestReports env db ↔
      ∃ l ∈ db.latestReport, ∃ e, PointsTo env ledger l e ∧ r = e.reportRow := by
  unfold latestReports
  constructor
  · intro member
    obtain ⟨⟨l, r'⟩, joined, rfl⟩ := List.mem_map.mp member
    obtain ⟨inTable, stored, matched⟩ := mem_innerJoin.mp joined
    obtain ⟨e, points⟩ := rep.latest.sound l inTable
    refine ⟨l, inTable, e, points, ?_⟩
    rw [rep.report] at stored
    obtain ⟨e', inLedger, rfl⟩ := List.mem_map.mp stored
    have same : e'.key env = e.key env := by
      have matched' := of_decide_eq_true matched
      simpa [Entry.key, points.reportId] using matched'
    rw [rep.eq_of_key inLedger points.member same]
  · rintro ⟨l, inTable, e, points, rfl⟩
    refine List.mem_map.mpr ⟨(l, e.reportRow), mem_innerJoin.mpr ⟨inTable, ?_, ?_⟩, rfl⟩
    · rw [rep.report]
      exact List.mem_map.mpr ⟨e, points.member, rfl⟩
    · refine decide_eq_true ?_
      rw [points.reportId]
      rfl

/-- What the problems join takes from one pointer. -/
theorem filter_pointsAt (rep : Represents env ledger db) {l : LatestReportRow} {e : Entry}
    (points : PointsTo env ledger l e) : db.checkResult.filter (pointsAt env l) = e.checkRows := by
  rw [← rep.checks_of points.member]
  unfold pointsAt
  rw [points.reportId]
  rfl

theorem checkRows_producer {e : Entry} {row : CheckRow} (member : row ∈ e.checkRows) :
    producerKey env row.source row.collector = e.producer env := by
  obtain ⟨i, c, _, rfl⟩ := mem_entry_checkRows member
  rfl

/-- The problems query as one pass over the pointers. -/
theorem latestProblems_eq (env : Env) (db : Db) :
    latestProblems env db = db.latestReport.flatMap (fun l =>
      (db.checkResult.filter (pointsAt env l)).filter (fun c => c.verdict.isProblem)) := by
  unfold latestProblems innerJoin
  rw [List.map_flatMap, List.filter_flatMap]
  congr 1
  funext l
  simp

theorem mem_latestProblems (rep : Represents env ledger db) {c : CheckRow} :
    c ∈ latestProblems env db ↔
      ∃ l ∈ db.latestReport, ∃ e, PointsTo env ledger l e ∧ c ∈ e.checkRows ∧
        c.verdict.isProblem = true := by
  rw [latestProblems_eq, List.mem_flatMap]
  constructor
  · rintro ⟨l, inTable, member⟩
    obtain ⟨e, points⟩ := rep.latest.sound l inTable
    rw [filter_pointsAt rep points] at member
    obtain ⟨own, problem⟩ := List.mem_filter.mp member
    exact ⟨l, inTable, e, points, own, problem⟩
  · rintro ⟨l, inTable, e, points, own, problem⟩
    refine ⟨l, inTable, ?_⟩
    rw [filter_pointsAt rep points]
    exact List.mem_filter.mpr ⟨own, problem⟩

/-- The problems of one producer are those of the report its pointer names, in its
order. -/
theorem filter_latestProblems (rep : Represents env ledger db) {l : LatestReportRow} {e : Entry}
    (inTable : l ∈ db.latestReport) (points : PointsTo env ledger l e) {cond : CheckRow → Bool}
    (own : ∀ c ∈ latestProblems env db, cond c = true →
      producerKey env c.source c.collector = e.producer env) :
    (latestProblems env db).filter cond =
      (e.checkRows.filter (fun c => c.verdict.isProblem)).filter cond := by
  rw [latestProblems_eq,
    filter_flatMap_of_single rep.latest.keyed.nodup inTable, filter_pointsAt rep points]
  intro other inTable' different c member
  have found : c ∈ latestProblems env db := by
    rw [latestProblems_eq]
    exact List.mem_flatMap.mpr ⟨other, inTable', member⟩
  obtain ⟨e', points'⟩ := rep.latest.sound other inTable'
  rw [filter_pointsAt rep points'] at member
  have producer : producerKey env c.source c.collector = e'.producer env :=
    checkRows_producer (List.mem_filter.mp member).1
  cases holds : cond c with
  | false => rfl
  | true =>
    have same : other.key env = l.key env := by
      rw [points'.producer, points.producer, ← producer, own c found holds]
    exact absurd (rep.latest.keyed.eq_of_key_eq inTable' inTable same) different

/-! ## The start of a run -/

/-- The rows of the problems query: each failing check once, with the start of its run
where one is stored. -/
theorem mem_problemRows (rep : Represents env ledger db) {r : ProblemRow} :
    r ∈ problemRows env db ↔
      r.check ∈ latestProblems env db ∧
        r.firstSeen = ((rowsAt (ProblemSinceRow.key env) (r.check.identity env)
          db.problemSince).map (·.firstSeen)).head? := by
  have single : ∀ c ∈ latestProblems env db, (db.problemSince.filter (sinceOf env c)).length ≤ 1 :=
    fun c _ => rep.problemSince.length_rowsAt_le (c.identity env)
  unfold problemRows
  rw [mem_orderBy, leftJoin_eq_map single, List.map_map, List.mem_map]
  constructor
  · rintro ⟨c, member, rfl⟩
    refine ⟨member, ?_⟩
    rw [List.head?_map]
    rfl
  · rintro ⟨member, since⟩
    refine ⟨r.check, member, ?_⟩
    rw [List.head?_map] at since
    rcases r with ⟨c, firstSeen⟩
    exact congrArg (ProblemRow.mk c) since.symm

/-- The key the problems query sorts by reads the check alone. -/
def checkOrder (env : Env) (c : CheckRow) : Nat ×ₗ List Nat ×ₗ List Nat ×ₗ List Nat ×ₗ Nat :=
  problemOrder env { check := c, firstSeen := none }

/-- The left join neither loses nor doubles a failing check. -/
theorem map_check_problemRows (rep : Represents env ledger db) :
    (problemRows env db).map ProblemRow.check =
      orderBy (checkOrder env) (latestProblems env db) := by
  have single : ∀ c ∈ latestProblems env db, (db.problemSince.filter (sinceOf env c)).length ≤ 1 :=
    fun c _ => rep.problemSince.length_rowsAt_le (c.identity env)
  have sorts : ∀ r : ProblemRow, checkOrder env r.check = problemOrder env r := fun _ => rfl
  unfold problemRows
  rw [map_orderBy ProblemRow.check (checkOrder env) _ sorts, List.map_map]
  exact congrArg (orderBy (checkOrder env)) (map_fst_leftJoin single)

theorem exists_problemRow (rep : Represents env ledger db) {c : CheckRow}
    (member : c ∈ latestProblems env db) : ∃ r ∈ problemRows env db, r.check = c := by
  have sorted : c ∈ orderBy (checkOrder env) (latestProblems env db) := mem_orderBy.mpr member
  rw [← map_check_problemRows rep] at sorted
  exact List.mem_map.mp sorted

/-- Counting rows of the query by their check is counting the checks. -/
theorem length_filter_problemRows (rep : Represents env ledger db) (cond : CheckRow → Bool) :
    ((problemRows env db).filter (fun r => cond r.check)).length =
      ((latestProblems env db).filter cond).length := by
  have counted := congrArg (fun rows => (rows.filter cond).length) (map_check_problemRows rep)
  simp only [length_filter_orderBy, List.filter_map, List.length_map] at counted
  exact counted

/-! ## The mute that covers a check -/

/-- Does a live mute name the check, byte for byte? -/
def covered (now : Int) (db : Db) (c : CheckRow) : Bool :=
  db.mute.any (fun mu => mu.live now && decide (mu.source = c.source) &&
    decide (mu.collector = c.collector) && decide (mu.label = c.label))

theorem covered_iff {now : Int} {c : CheckRow} :
    covered now db c = true ↔ ∃ mu ∈ db.mute, bindDatetime now < mu.expiresAt ∧
      mu.source = c.source ∧ mu.collector = c.collector ∧ mu.label = c.label := by
  unfold covered MuteRow.live
  simp only [List.any_eq_true, Bool.and_eq_true, decide_eq_true_eq, and_assoc]

/-- The page finds a mute for a row exactly when a live one names its check. -/
theorem mute_isSome (now : Int) (db : Db) (r : ProblemRow) :
    (r.mute now db).isSome = covered now db r.check := by
  unfold ProblemRow.mute byId
  rw [Bool.eq_iff_iff, covered_iff, ← Option.ne_none_iff_isSome, ne_eq,
    Ranking.keepGreatest_eq_none_iff]
  push Not
  constructor
  · rintro ⟨m, listed, same⟩
    obtain ⟨mu, stored, live, rfl⟩ := mem_listMutes.mp listed
    obtain ⟨source, rest⟩ := Prod.mk.inj same
    obtain ⟨collector, label⟩ := Prod.mk.inj rest
    exact ⟨mu, stored, live, source, collector, label⟩
  · rintro ⟨mu, stored, live, source, collector, label⟩
    refine ⟨mu.toMute, mem_listMutes.mpr ⟨mu, stored, live, rfl⟩, ?_⟩
    exact Prod.ext source (Prod.ext collector label)

theorem mute_isNone (now : Int) (db : Db) (r : ProblemRow) :
    (r.mute now db).isNone = !covered now db r.check := by
  rw [← mute_isSome, Option.not_isSome]

theorem mem_checks {now : Int} {p : ProblemCheck} :
    p ∈ (problems env now db).checks ↔
      ∃ r ∈ problemRows env db, covered now db r.check = false ∧ p = problemCheck r := by
  unfold problems
  rw [List.mem_map]
  simp only [List.mem_filter, mute_isNone, Bool.not_eq_true', and_assoc]
  exact exists_congr fun r => and_congr_right fun _ => and_congr_right fun _ => eq_comm

/-- Counting the page's open rows is counting the uncovered checks. -/
theorem length_filter_checks (rep : Represents env ledger db) (now : Int)
    {shown : ProblemCheck → Bool} (cond : CheckRow → Bool)
    (reads : ∀ r : ProblemRow, shown (problemCheck r) = cond r.check) :
    ((problems env now db).checks.filter shown).length =
      ((latestProblems env db).filter (fun c => !covered now db c && cond c)).length := by
  rw [← length_filter_problemRows rep]
  unfold problems
  rw [List.filter_map, List.length_map, List.filter_filter]
  congr 2
  funext r
  rw [Function.comp_apply, reads, mute_isNone, Bool.and_comm]

/-- Counting the page's muted rows is counting the covered checks. -/
theorem length_filter_muted (rep : Represents env ledger db) (now : Int)
    {shown : MutedCheck → Bool} (cond : CheckRow → Bool)
    (reads : ∀ r m, shown (mutedCheck r m) = cond r.check) :
    ((problems env now db).muted.filter shown).length =
      ((latestProblems env db).filter (fun c => covered now db c && cond c)).length := by
  rw [← length_filter_problemRows rep]
  show (((problemRows env db).filterMap
    (fun r => (r.mute now db).map (mutedCheck r))).filter shown).length = _
  generalize problemRows env db = rows
  induction rows with
  | nil => rfl
  | cons r rest ih =>
    have found := mute_isSome now db r
    cases hit : r.mute now db with
    | none =>
      rw [hit] at found
      simp only [List.filterMap_cons, hit, Option.map_none, ih]
      rw [List.filter_cons_of_neg]
      simp [← found]
    | some m =>
      rw [hit] at found
      simp only [List.filterMap_cons, hit, Option.map_some]
      by_cases kept : cond r.check = true
      · rw [List.filter_cons_of_pos (by rw [reads, kept]), List.filter_cons_of_pos, List.length_cons,
          List.length_cons, ih]
        simp [← found, kept]
      · rw [List.filter_cons_of_neg (by rw [reads]; exact kept), List.filter_cons_of_neg, ih]
        simp [kept]

/-! ## The retirement that covers a producer -/

theorem retired_eq_none_iff {source collector : String} :
    retired (listRetirements db) source collector = none ↔
      ∀ row ∈ db.retirement, ¬ (row.source = source ∧ row.collector = collector) := by
  unfold retired
  rw [List.getLast?_eq_none_iff, List.filter_eq_nil_iff]
  constructor
  · intro none row stored same
    exact none row.toRetirement (mem_listRetirements.mpr ⟨row, stored, rfl⟩) (decide_eq_true same)
  · intro none r listed same
    obtain ⟨row, stored, rfl⟩ := mem_listRetirements.mp listed
    exact none row stored (of_decide_eq_true same)

theorem retired_eq_some {source collector : String} {r : Retirement}
    (found : retired (listRetirements db) source collector = some r) :
    ∃ row ∈ db.retirement, row.toRetirement = r ∧ row.source = source ∧
      row.collector = collector := by
  unfold retired at found
  obtain ⟨listed, same⟩ := List.mem_filter.mp (List.mem_of_getLast? found)
  obtain ⟨row, stored, rfl⟩ := mem_listRetirements.mp listed
  exact ⟨row, stored, rfl, of_decide_eq_true same⟩

end Fleetwatch
