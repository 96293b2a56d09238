import Fleetwatch.Proofs.Auth
import Fleetwatch.Proofs.Page
import Fleetwatch.Proofs.ProblemSince
import Fleetwatch.Routes.Ingest

/-!
# A producer writes only as itself

The statements of an ingest carry the call's own names, and the server compares names
through the collation. So each table keeps the rows of every other producer, in their
order; and since the reports the pointers name are those of the other producers as before,
so do the views.
-/

namespace Fleetwatch

open Query Ranking Sql Table

variable {env : Env} {ledger ledger' : List Entry} {db db' : Db} {call : IngestCall}

/-- The rows of every producer but one, in their order. -/
def others {α : Type} (env : Env) (producer : ProducerKey) (names : α → String × String)
    (rows : List α) : List α :=
  rows.filter (fun row => decide (producerKey env (names row).1 (names row).2 ≠ producer))

/-- Every row that joins a table carries the names of the producer, byte for byte. -/
def AddsAs {α : Type} (source collector : String) (names : α → String × String)
    (before after : List α) : Prop :=
  ∀ row ∈ after, row ∈ before ∨ names row = (source, collector)

/-- The store changes in rows of one producer only. -/
structure Confined (env : Env) (source collector : String) (before after : Store) : Prop where
  report : others env (producerKey env source collector) (fun r => (r.source, r.collector))
      after.db.report =
    others env (producerKey env source collector) (fun r => (r.source, r.collector))
      before.db.report
  checkResult : others env (producerKey env source collector) (fun c => (c.source, c.collector))
      after.db.checkResult =
    others env (producerKey env source collector) (fun c => (c.source, c.collector))
      before.db.checkResult
  latestReport : others env (producerKey env source collector) (fun l => (l.source, l.collector))
      after.db.latestReport =
    others env (producerKey env source collector) (fun l => (l.source, l.collector))
      before.db.latestReport
  problemSince : others env (producerKey env source collector) (fun p => (p.source, p.collector))
      after.db.problemSince =
    others env (producerKey env source collector) (fun p => (p.source, p.collector))
      before.db.problemSince
  addsReport : AddsAs source collector (fun r => (r.source, r.collector)) before.db.report
    after.db.report
  addsChecks : AddsAs source collector (fun c => (c.source, c.collector)) before.db.checkResult
    after.db.checkResult
  addsRuns : AddsAs source collector (fun p => (p.source, p.collector)) before.db.problemSince
    after.db.problemSince
  mute : after.db.mute = before.db.mute
  retirement : after.db.retirement = before.db.retirement
  sessions : after.sessions = before.sessions

/-- No view of another producer tells the two states apart. -/
structure Unseen (env : Env) (source collector : String) (before after : Db) : Prop where
  overview : ∀ now,
    others env (producerKey env source collector) (fun e => (e.source, e.collector))
        (overview env now after) =
      others env (producerKey env source collector) (fun e => (e.source, e.collector))
        (overview env now before)
  checks : ∀ now,
    others env (producerKey env source collector) (fun p => (p.source, p.collector))
        (problems env now after).checks =
      others env (producerKey env source collector) (fun p => (p.source, p.collector))
        (problems env now before).checks
  muted : ∀ now,
    others env (producerKey env source collector) (fun m => (m.source, m.collector))
        (problems env now after).muted =
      others env (producerKey env source collector) (fun m => (m.source, m.collector))
        (problems env now before).muted
  stale : ∀ now,
    others env (producerKey env source collector) (fun e => (e.source, e.collector))
        (problems env now after).stale =
      others env (producerKey env source collector) (fun e => (e.source, e.collector))
        (problems env now before).stale
  returned : ∀ now,
    others env (producerKey env source collector) (fun e => (e.source, e.collector))
        (problems env now after).returned =
      others env (producerKey env source collector) (fun e => (e.source, e.collector))
        (problems env now before).returned
  lapsing : ∀ now, (problems env now after).lapsing = (problems env now before).lapsing
  listed : ∀ wanted wanted' limit,
    (matchesFilter env wanted source && matchesFilter env wanted' collector) = false →
      listReports env wanted wanted' limit after = listReports env wanted wanted' limit before
  detail : ∀ r ∈ before.report, ∀ id, r.key env = env.weight id →
    reportDetail env id after = reportDetail env id before
  history : ∀ key, producerKey env key.source key.collector ≠ producerKey env source collector →
    ∀ lower upper, history env key lower upper after = history env key lower upper before

/-! ## Rows of the others -/

section Others

variable {α : Type} {producer : ProducerKey} {names : α → String × String}

theorem others_append (rows added : List α)
    (own : ∀ row ∈ added, producerKey env (names row).1 (names row).2 = producer) :
    others env producer names (rows ++ added) = others env producer names rows := by
  have none : others env producer names added = [] := by
    unfold others
    rw [List.filter_eq_nil_iff]
    intro row member
    rw [own row member]
    simp
  unfold others at none ⊢
  rw [List.filter_append, none, List.append_nil]

/-- What is read of other producers only is read off their rows. -/
theorem filter_eq_of_others_eq {part : α → Bool} {rows rows' : List α}
    (same : others env producer names rows = others env producer names rows')
    (within : ∀ row, part row = true →
      producerKey env (names row).1 (names row).2 ≠ producer) :
    rows.filter part = rows'.filter part :=
  filter_eq_of_filter_eq same (fun row kept => decide_eq_true (within row kept))

/-- A part of a list keeps its rows of the others where the list does. -/
theorem others_filter_eq {part : α → Bool} {rows rows' : List α}
    (same : others env producer names rows = others env producer names rows') :
    others env producer names (rows.filter part) =
      others env producer names (rows'.filter part) := by
  unfold others at same ⊢
  rw [List.filter_comm, same, List.filter_comm]

end Others

/-! ## The tables -/

theorem checkRows_names {row : CheckRow} (member : row ∈ checkRows call) :
    row.source = call.source ∧ row.collector = call.upload.collector := by
  obtain ⟨_, _, _, rfl⟩ := mem_checkRowsFrom member
  exact ⟨rfl, rfl⟩

theorem others_advanced (call : IngestCall) (table : List LatestReportRow) :
    others env (call.producer env) (fun l => (l.source, l.collector)) (advanced env call table) =
      others env (call.producer env) (fun l => (l.source, l.collector)) table :=
  filter_upsert (fun _ => rfl) (fun _ same => decide_eq_false (not_not_intro same))

/-- Runs are opened for the producer of the call. -/
theorem others_openRuns (fits : Fits call) (table : List ProblemSinceRow) :
    others env (call.producer env) (fun p => (p.source, p.collector)) (openRuns env call table) =
      others env (call.producer env) (fun p => (p.source, p.collector)) table := by
  refine openRuns_induction (fun rows =>
    others env (call.producer env) (fun p => (p.source, p.collector)) rows =
      others env (call.producer env) (fun p => (p.source, p.collector)) table) rfl ?_
  intro c member rows same
  rw [← same]
  apply filter_insertIgnore
  rw [problemSinceRow_eq fits member]
  exact decide_eq_false (not_not_intro rfl)

/-- And ended for it. -/
theorem others_endRuns (call : IngestCall) (table : List ProblemSinceRow) :
    others env (call.producer env) (fun p => (p.source, p.collector)) (endRuns env call table) =
      others env (call.producer env) (fun p => (p.source, p.collector)) table := by
  refine filter_deleteWhere ?_
  intro row _ other
  have different : ¬ producerKey env row.source row.collector =
      producerKey env call.source call.upload.collector := of_decide_eq_true other
  rw [decide_eq_false different, Bool.false_and]

theorem others_problemSince (fits : Fits call) (db : Db) :
    others env (call.producer env) (fun p => (p.source, p.collector))
        (stored env call db).problemSince =
      others env (call.producer env) (fun p => (p.source, p.collector)) db.problemSince := by
  unfold stored
  split
  · rw [others_endRuns, others_openRuns fits]
  · rfl

theorem addsAs_openRuns (fits : Fits call) (table : List ProblemSinceRow) :
    AddsAs call.source call.upload.collector (fun p => (p.source, p.collector)) table
      (openRuns env call table) := by
  refine openRuns_induction (AddsAs call.source call.upload.collector
    (fun p => (p.source, p.collector)) table) (fun _ => Or.inl) ?_
  intro c member rows adds row inRows
  unfold insertIgnore at inRows
  split at inRows
  · exact adds row inRows
  · rcases List.mem_append.mp inRows with earlier | new
    · exact adds row earlier
    · rw [List.mem_singleton.mp new, problemSinceRow_eq fits member]
      exact Or.inr rfl

theorem addsAs_problemSince (fits : Fits call) (db : Db) :
    AddsAs call.source call.upload.collector (fun p => (p.source, p.collector)) db.problemSince
      (stored env call db).problemSince := by
  intro row member
  unfold stored at member
  split at member
  · exact addsAs_openRuns fits db.problemSince row (List.mem_filter.mp member).1
  · exact Or.inl member

/-- Whatever the state, an ingest is confined to the producer it is for. -/
theorem confined_ingest (env : Env) (call : IngestCall) (store : Store) :
    Confined env call.source call.upload.collector store
      { store with db := (ingest env call store.db).2 } := by
  rcases ingest_eq_self_or_stored env call store.db with same | ⟨_, _, fits, after⟩
  · rw [same]
    exact ⟨rfl, rfl, rfl, rfl, fun _ => Or.inl, fun _ => Or.inl, fun _ => Or.inl, rfl, rfl, rfl⟩
  · rw [after]
    constructor
    case report =>
      apply others_append
      intro row new
      rw [List.mem_singleton.mp new]
      rfl
    case checkResult =>
      apply others_append
      intro row new
      obtain ⟨source, collector⟩ := checkRows_names new
      exact congrArg₂ (producerKey env) source collector
    case latestReport => exact others_advanced call store.db.latestReport
    case problemSince => exact others_problemSince fits store.db
    case addsReport =>
      intro row member
      rcases List.mem_append.mp member with earlier | new
      · exact Or.inl earlier
      · rw [List.mem_singleton.mp new]
        exact Or.inr rfl
    case addsChecks =>
      intro row member
      rcases List.mem_append.mp member with earlier | new
      · exact Or.inl earlier
      · obtain ⟨source, collector⟩ := checkRows_names new
        exact Or.inr (Prod.ext source collector)
    case addsRuns => exact addsAs_problemSince fits store.db
    case mute => rfl
    case retirement => rfl
    case sessions => rfl

/-! ## The reports the pointers name -/

/-- The reports the pointers of some producers name. -/
theorem filter_pointees (rep : Represents env ledger db) (cond : ProducerKey → Bool) :
    (pointees env ledger db).filter (fun e => cond (e.producer env)) =
      (db.latestReport.filter (fun l => cond (l.key env))).flatMap
        (fun l => rowsAt (Entry.key env) (env.weight l.reportId) ledger) := by
  unfold pointees
  rw [List.filter_flatMap, flatMap_filter]
  refine List.flatMap_congr fun l inTable => ?_
  obtain ⟨e, points⟩ := rep.latest.sound l inTable
  rw [rowsAt_pointee rep points, points.producer, List.filter_singleton,
    Bool.cond_eq_ite]

/-- The pointers of other producers name the reports they named before. -/
theorem others_pointees (rep : Represents env ledger db) (accepts : Accepts env ledger call) :
    (pointees env (ledger ++ [Entry.new call]) (stored env call db)).filter
        (fun e => decide (e.producer env ≠ call.producer env)) =
      (pointees env ledger db).filter (fun e => decide (e.producer env ≠ call.producer env)) := by
  have table : (stored env call db).latestReport.filter
      (fun l => decide (l.key env ≠ call.producer env)) =
        db.latestReport.filter (fun l => decide (l.key env ≠ call.producer env)) :=
    others_advanced call db.latestReport
  rw [filter_pointees (rep.stored accepts) (fun producer => decide (producer ≠ call.producer env)),
    filter_pointees rep (fun producer => decide (producer ≠ call.producer env)), table]
  refine List.flatMap_congr fun l kept => ?_
  -- the pointer names an entry of the ledger, so not the new one
  obtain ⟨e, points⟩ := rep.latest.sound l (List.mem_filter.mp kept).1
  have free : (Entry.new call).key env ≠ env.weight l.reportId := by
    rw [points.reportId]
    exact (accepts.fresh e points.member).symm
  rw [rowsAt_append]
  simp [rowsAt, free]

/-! ## The views of the others -/

section Views

variable {producer : ProducerKey} (rep : Represents env ledger db)
  (rep' : Represents env ledger' db')
  (shown : (pointees env ledger' db').filter (fun e => decide (e.producer env ≠ producer)) =
    (pointees env ledger db).filter (fun e => decide (e.producer env ≠ producer)))
  (mutes : db'.mute = db.mute)

include rep rep' shown

theorem others_latestReports :
    others env producer (fun r => (r.source, r.collector)) (latestReports env db') =
      others env producer (fun r => (r.source, r.collector)) (latestReports env db) := by
  unfold others
  rw [latestReports_eq_pointees rep, latestReports_eq_pointees rep', List.filter_map,
    List.filter_map]
  exact congrArg (List.map Entry.reportRow) shown

theorem others_latestProblems :
    others env producer (fun c => (c.source, c.collector)) (latestProblems env db') =
      others env producer (fun c => (c.source, c.collector)) (latestProblems env db) := by
  -- a report shows checks of its own producer
  have byReport : ∀ entries : List Entry,
      others env producer (fun c => (c.source, c.collector)) (entries.flatMap (fun e =>
        e.checkRows.filter (fun c => c.verdict.isProblem))) =
      (entries.filter (fun e => decide (e.producer env ≠ producer))).flatMap (fun e =>
        e.checkRows.filter (fun c => c.verdict.isProblem)) := by
    intro entries
    unfold others
    rw [List.filter_flatMap, flatMap_filter]
    refine List.flatMap_congr fun e _ => ?_
    have own : ∀ c ∈ e.checkRows.filter (fun c => c.verdict.isProblem),
        producerKey env c.source c.collector = e.producer env :=
      fun c member => checkRows_producer (List.mem_filter.mp member).1
    by_cases other : e.producer env ≠ producer
    · rw [if_pos (decide_eq_true other), List.filter_eq_self]
      intro c member
      exact decide_eq_true (by rw [own c member]; exact other)
    · rw [if_neg (by simpa using other), List.filter_eq_nil_iff]
      intro c member kept
      rw [own c member] at kept
      exact other (of_decide_eq_true kept)
  rw [latestProblems_eq_pointees rep, latestProblems_eq_pointees rep', byReport, byReport, shown]

include mutes

/-- The counters of another producer's tile. -/
theorem latestRow_eq_of_other {now : Int} {r : ReportRow}
    (other : r ∈ others env producer (fun r => (r.source, r.collector)) (latestReports env db)) :
    latestRow env now db' r = latestRow env now db r := by
  obtain ⟨latest, different⟩ := List.mem_filter.mp other
  rw [latestReports_eq_pointees rep] at latest
  obtain ⟨e, pointed, rfl⟩ := List.mem_map.mp latest
  have pointed' : e ∈ (pointees env ledger' db').filter
      (fun e => decide (e.producer env ≠ producer)) := by
    rw [shown]
    exact List.mem_filter.mpr ⟨pointed, different⟩
  obtain ⟨l, inTable, points⟩ := (mem_pointees rep).mp pointed
  obtain ⟨l', inTable', points'⟩ := (mem_pointees rep').mp (List.mem_filter.mp pointed').1
  have weights : muteWeight env now db' = muteWeight env now db := by
    unfold muteWeight
    rw [mutes]
  have counts : ∀ v : Verdict, v.isProblem = true →
      mutedCount env now db' e.id v = mutedCount env now db e.id v := by
    intro v problem
    rw [mutedCount_eq rep inTable points now problem, mutedCount_eq rep' inTable' points' now problem,
      weights]
  have fails : mutedCount env now db' e.reportRow.id .fail =
      mutedCount env now db e.reportRow.id .fail := counts .fail rfl
  have warns : mutedCount env now db' e.reportRow.id .warn =
      mutedCount env now db e.reportRow.id .warn := counts .warn rfl
  unfold latestRow
  rw [fails, warns]

theorem others_overview (now : Int) :
    others env producer (fun e => (e.source, e.collector)) (overview env now db') =
      others env producer (fun e => (e.source, e.collector)) (overview env now db) := by
  have tiles : ∀ db : Db,
      others env producer (fun e => (e.source, e.collector)) (overview env now db) =
        (orderBy (fun r : LatestRow => toLex (env.weight r.source, env.weight r.collector))
          ((others env producer (fun r => (r.source, r.collector)) (latestReports env db)).map
            (latestRow env now db))).map (overviewEntry now) := by
    intro db
    unfold others overview
    rw [List.filter_map, filter_orderBy, List.filter_map]
    rfl
  rw [tiles, tiles, others_latestReports rep rep' shown]
  congr 2
  apply List.map_congr_left
  intro r other
  exact latestRow_eq_of_other rep rep' shown mutes other

/-- What the page sorts out of the overview by the retirements. -/
theorem others_overview_filter (unretired : db'.retirement = db.retirement)
    (part : List Retirement → OverviewEntry → Bool) (now : Int) :
    others env producer (fun e => (e.source, e.collector))
        ((overview env now db').filter (part (listRetirements db'))) =
      others env producer (fun e => (e.source, e.collector))
        ((overview env now db).filter (part (listRetirements db))) := by
  have retirements : listRetirements db' = listRetirements db := by
    unfold listRetirements
    rw [unretired]
  rw [retirements]
  exact others_filter_eq (others_overview rep rep' shown mutes now)

omit mutes

variable (runs : others env producer (fun p => (p.source, p.collector)) db'.problemSince =
  others env producer (fun p => (p.source, p.collector)) db.problemSince)

include runs

/-- The rows of the problems query, each with the run of its own producer. -/
theorem others_problemRows :
    (problemRows env db').filter (fun r =>
        decide (producerKey env r.check.source r.check.collector ≠ producer)) =
      (problemRows env db).filter (fun r =>
        decide (producerKey env r.check.source r.check.collector ≠ producer)) := by
  have joined : leftJoin (sinceOf env)
      (others env producer (fun c => (c.source, c.collector)) (latestProblems env db))
        db'.problemSince =
      leftJoin (sinceOf env)
        (others env producer (fun c => (c.source, c.collector)) (latestProblems env db))
          db.problemSince := by
    refine leftJoin_congr fun c kept => ?_
    refine filter_eq_of_others_eq runs ?_
    intro row matched
    have same : row.key env = c.identity env := of_decide_eq_true matched
    have own : producerKey env row.source row.collector = producerKey env c.source c.collector :=
      congrArg Prod.fst same
    rw [own]
    exact of_decide_eq_true (List.mem_filter.mp kept).2
  have rows : ∀ db : Db, (problemRows env db).filter (fun r =>
      decide (producerKey env r.check.source r.check.collector ≠ producer)) =
      orderBy (problemOrder env) ((leftJoin (sinceOf env)
        (others env producer (fun c => (c.source, c.collector)) (latestProblems env db))
          db.problemSince).map fun row =>
            { check := row.1, firstSeen := row.2.map (·.firstSeen) }) := by
    intro db
    unfold problemRows others
    rw [filter_orderBy, List.filter_map, ← filter_leftJoin]
    rfl
  rw [rows, rows, others_latestProblems rep rep' shown, joined]

include mutes

theorem others_page (now : Int) :
    others env producer (fun p => (p.source, p.collector)) (problems env now db').checks =
        others env producer (fun p => (p.source, p.collector)) (problems env now db).checks ∧
      others env producer (fun m => (m.source, m.collector)) (problems env now db').muted =
        others env producer (fun m => (m.source, m.collector)) (problems env now db).muted := by
  have lookup : ∀ r : ProblemRow, r.mute now db' = r.mute now db := by
    intro r
    unfold ProblemRow.mute listMutes
    rw [mutes]
  exact checks_and_muted_eq env now
    (fun source collector _ => decide (producerKey env source collector ≠ producer)) db db'
    (others_problemRows rep rep' shown runs) (fun r _ _ => lookup r)

end Views

/-! ## Reports and histories -/

theorem listReports_of_others {source collector : String} (wanted wanted' : Option String)
    (limit : UInt32)
    (same : others env (producerKey env source collector) (fun r => (r.source, r.collector))
        db'.report =
      others env (producerKey env source collector) (fun r => (r.source, r.collector)) db.report)
    (unwanted : (matchesFilter env wanted source && matchesFilter env wanted' collector) = false) :
    listReports env wanted wanted' limit db' = listReports env wanted wanted' limit db := by
  have reads : ∀ {wanted : Option String} {left right : String}, env.weight left = env.weight right →
      matchesFilter env wanted left = matchesFilter env wanted right := by
    intro wanted left right alike
    unfold matchesFilter
    rw [alike]
  have rows : db'.report.filter (fun r =>
      matchesFilter env wanted r.source && matchesFilter env wanted' r.collector) =
      db.report.filter (fun r =>
        matchesFilter env wanted r.source && matchesFilter env wanted' r.collector) := by
    refine filter_eq_of_others_eq same ?_
    intro r matched own
    obtain ⟨source', collector'⟩ := Prod.mk.inj own
    rw [reads source', reads collector', unwanted] at matched
    cases matched
  unfold listReports
  rw [rows]

theorem history_of_others {producer : ProducerKey} {key : CheckKey} (lower upper : Int)
    (same : others env producer (fun c => (c.source, c.collector)) db'.checkResult =
      others env producer (fun c => (c.source, c.collector)) db.checkResult)
    (other : producerKey env key.source key.collector ≠ producer) :
    history env key lower upper db' = history env key lower upper db := by
  have rows : historyRows env key lower upper db' = historyRows env key lower upper db := by
    refine filter_eq_of_others_eq same ?_
    intro c matched own
    simp only [Bool.and_eq_true, decide_eq_true_eq] at matched
    obtain ⟨⟨⟨⟨source, collector⟩, _⟩, _⟩, _⟩ := matched
    exact other ((Prod.ext source.symm collector.symm).trans own)
  unfold history
  rw [rows]

/-- A stored report and its checks are as they were. -/
theorem reportDetail_ingest (call : IngestCall) {r : ReportRow} (member : r ∈ db.report) {id : String}
    (named : r.key env = env.weight id) :
    reportDetail env id (ingest env call db).2 = reportDetail env id db := by
  rcases ingest_eq_self_or_stored env call db with same | ⟨_, free, _, after⟩
  · rw [same]
  · have found : (db.report.find? (fun r => decide (r.key env = env.weight id))).isSome = true := by
      rw [List.find?_isSome]
      exact ⟨r, member, decide_eq_true named⟩
    have checks : (checkRows call).filter (fun c => decide (env.weight c.reportId = env.weight id)) =
        [] := by
      rw [List.filter_eq_nil_iff]
      intro c new matched
      obtain ⟨_, _, _, rfl⟩ := mem_checkRowsFrom new
      exact free ⟨r, member, named.trans (of_decide_eq_true matched).symm⟩
    have report : (stored env call db).report.find? (fun r => decide (r.key env = env.weight id)) =
        db.report.find? (fun r => decide (r.key env = env.weight id)) := by
      show (db.report ++ [reportRow call]).find? _ = _
      rw [List.find?_append, Option.or_of_isSome found]
    have rows : (stored env call db).checkResult.filter
        (fun c => decide (env.weight c.reportId = env.weight id)) =
        db.checkResult.filter (fun c => decide (env.weight c.reportId = env.weight id)) := by
      show (db.checkResult ++ checkRows call).filter _ = _
      rw [List.filter_append, checks, List.append_nil]
    rw [after]
    unfold reportDetail
    rw [report, rows]

/-! ## The request -/

theorem unseen_ingest (rep : Represents env ledger db) (call : IngestCall) :
    Unseen env call.source call.upload.collector db (ingest env call db).2 := by
  have confined := confined_ingest env call { db := db, sessions := [] }
  have page : ∃ ledger', Represents env ledger' (ingest env call db).2 ∧
      (pointees env ledger' (ingest env call db).2).filter
          (fun e => decide (e.producer env ≠ call.producer env)) =
        (pointees env ledger db).filter
          (fun e => decide (e.producer env ≠ call.producer env)) := by
    rcases ingest_eq_self_or_stored env call db with same | ⟨admitted, free, fits, after⟩
    · rw [same]
      exact ⟨ledger, rep, rfl⟩
    · have accepts := accepts_of_stored rep admitted free fits
      rw [after]
      exact ⟨_, rep.stored accepts, others_pointees rep accepts⟩
  obtain ⟨ledger', rep', shown⟩ := page
  constructor
  case overview =>
    intro now
    exact others_overview rep rep' shown confined.mute now
  case checks =>
    intro now
    exact (others_page rep rep' shown confined.mute confined.problemSince now).1
  case muted =>
    intro now
    exact (others_page rep rep' shown confined.mute confined.problemSince now).2
  case stale =>
    intro now
    exact others_overview_filter rep rep' shown confined.mute confined.retirement isStale now
  case returned =>
    intro now
    exact others_overview_filter rep rep' shown confined.mute confined.retirement hasReturned now
  case lapsing =>
    intro now
    show (listMutes now _).filter _ = (listMutes now db).filter _
    unfold listMutes
    rw [confined.mute]
  case listed =>
    intro wanted wanted' limit unwanted
    exact listReports_of_others wanted wanted' limit confined.report unwanted
  case detail =>
    intro r member id named
    exact reportDetail_ingest call member named
  case history =>
    intro key other lower upper
    exact history_of_others lower upper confined.checkResult other

/-- A request that is refused changes nothing. -/
theorem create_of_error {parse : String → Except String ReportUpload}
    {tokens : List (String × String)} {request : IngestRequest} {store : Store} {err : AppError}
    (refused : (create env parse tokens request store).1 = .error err) :
    (create env parse tokens request store).2 = store := by
  revert refused
  unfold create
  cases authenticate request.headers tokens with
  | none => exact fun _ => rfl
  | some source =>
    cases String.fromUTF8? request.body with
    | none => exact fun _ => rfl
    | some raw =>
      cases parsed : parse raw with
      | error e =>
        simp only [parsed]
        exact fun _ => trivial
      | ok upload =>
        simp only [parsed]
        intro refused
        rw [respond_store, ingest_of_error (respond_error refused)]

/-- A request authenticated as a source changes only rows of that source and the upload's
collector, whatever the state; and from every reachable state no view of another producer
sees it. -/
theorem create_confined {parse : String → Except String ReportUpload}
    {tokens : List (String × String)} {request : IngestRequest} {source raw : String}
    {upload : ReportUpload} (authenticated : authenticate request.headers tokens = some source)
    (decoded : String.fromUTF8? request.body = some raw) (parsed : parse raw = .ok upload)
    (store : Store) :
    Confined env source upload.collector store (create env parse tokens request store).2 ∧
      ∀ permitted, Reachable env permitted store.db →
        Unseen env source upload.collector store.db (create env parse tokens request store).2.db := by
  let call : IngestCall := { source := source, upload := upload, raw := raw, now := request.now }
  have after : (create env parse tokens request store).2 =
      { store with db := (ingest env call store.db).2 } := by
    unfold create
    simp only [authenticated, decoded, parsed]
    exact respond_store store _
  rw [after]
  refine ⟨confined_ingest env call store, ?_⟩
  intro permitted reached
  obtain ⟨ledger, rep⟩ := reached.represents
  exact unseen_ingest rep call

/-- The body of a report that has no checks. -/
def sampleBody : String :=
  "\x7b\"schema\":1,\"id\":\"01ARZ3NDEKTSV4RRFFQ69G5FB7\",\"collector\":\"disk\"," ++
    "\"collected_at\":\"1970-01-01T00:00:00Z\",\"checks\":[]\x7d"

/-- What the body says. -/
def sampleUpload : ReportUpload :=
  (sampleCall "thoth" "disk" "01ARZ3NDEKTSV4RRFFQ69G5FB7" 0 []).upload

/-- A parser that reads this one body. -/
def sampleParse (text : String) : Except String ReportUpload :=
  if text = sampleBody then .ok sampleUpload else .error "expected value at line 1 column 1"

/-- The same collector of another source posts a report. -/
def sampleRequest : IngestRequest :=
  { headers := [(AUTHORIZATION, bearing "def")]
    body := sampleBody.toUTF8
    now := second }

theorem create_confined_sample :
    Unseen asciiEnv "thoth" "disk" (stateAfter asciiEnv [.ingest sampleReport])
      (create asciiEnv sampleParse [("amun", "abc"), ("thoth", "def")] sampleRequest
        { db := stateAfter asciiEnv [.ingest sampleReport], sessions := [] }).2.db := by
  have authenticated : authenticate sampleRequest.headers [("amun", "abc"), ("thoth", "def")] =
      some "thoth" := by decide
  have decoded : String.fromUTF8? sampleRequest.body = some sampleBody :=
    dif_pos sampleBody.isValidUTF8
  have reached : Reachable asciiEnv Op.isCall (stateAfter asciiEnv [.ingest sampleReport]) :=
    ⟨[.ingest sampleReport], by simp [Op.isCall], rfl⟩
  have parsed : sampleParse sampleBody = .ok sampleUpload := if_pos rfl
  exact (create_confined authenticated decoded parsed
    { db := stateAfter asciiEnv [.ingest sampleReport], sessions := [] }).2 Op.isCall reached

end Fleetwatch
