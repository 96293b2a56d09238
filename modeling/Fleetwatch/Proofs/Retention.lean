import Fleetwatch.Proofs.Page

/-!
# What retention takes

A sweep deletes check rows by the `collected_at` copied onto each of them. All the rows
of a report carry the report's own, so the sweep takes a report's checks all or none;
and the rows of the page carry that of their producer's latest report, so the page loses
a producer's rows only when that report is older than the cutoff.
-/

namespace Fleetwatch

open Query Ranking Sql Table

variable {env : Env} {ledger : List Entry} {db : Db}

/-! ## The checks of one report -/

/-- The check rows a report was ingested with, at positions from zero, under its columns
and counted by it. -/
structure Whole (r : ReportRow) (call : IngestCall) (rows : List CheckRow) : Prop where
  uploaded : rows = checkRows call
  positions : rows.map (·.seq) = List.range call.upload.checks.length
  columns : ∀ c ∈ rows, c.source = r.source ∧ c.collector = r.collector ∧
    c.collectedAt = r.collectedAt
  pass : r.nPass = (withVerdict .pass rows).length
  warn : r.nWarn = (withVerdict .warn rows).length
  fail : r.nFail = (withVerdict .fail rows).length
  skip : r.nSkip = (withVerdict .skip rows).length

theorem map_seq_checkRows (call : IngestCall) :
    (checkRows call).map (·.seq) = List.range call.upload.checks.length := by
  unfold checkRows checkRowsFrom
  rw [List.map_map, List.range_eq_range', ← List.zipIdx_map_snd 0 call.upload.checks]
  rfl

theorem whole_checkRows (e : Entry) : Whole e.reportRow e.call (checkRows e.call) := by
  have stored := tally_eq e.call.upload.checks
  constructor
  case uploaded => rfl
  case positions => exact map_seq_checkRows e.call
  case columns =>
    intro c member
    obtain ⟨i, upload, _, rfl⟩ := mem_checkRowsFrom member
    exact ⟨rfl, rfl, rfl⟩
  case pass => exact (congrArg Counts.pass stored).trans (length_filter_checkRows e.call .pass).symm
  case warn => exact (congrArg Counts.warn stored).trans (length_filter_checkRows e.call .warn).symm
  case fail => exact (congrArg Counts.fail stored).trans (length_filter_checkRows e.call .fail).symm
  case skip => exact (congrArg Counts.skip stored).trans (length_filter_checkRows e.call .skip).symm

/-- A report was stored by one call of the run, with all its checks, and has all of them
or none. -/
structure AllOrNone (env : Env) (ops : List Op) (r : ReportRow) (before : List Op)
    (call : IngestCall) : Prop where
  stored : ∃ after, ops = before ++ .ingest call :: after
  fresh : (ingest env call (stateAfter env before)).1 = .ok (storedAck call)
  whole : Whole r call (checksOf env (ingest env call (stateAfter env before)).2 r.id)
  left : checksOf env (stateAfter env ops) r.id =
      checksOf env (ingest env call (stateAfter env before)).2 r.id ∨
    checksOf env (stateAfter env ops) r.id = []
  ok : r.ok = true ↔ r.nFail = 0

/-- Right after the call that stored an entry its checks are the uploaded ones. -/
theorem checksOf_ingest {before : List Op} {call : IngestCall}
    (fresh : (ingest env call (stateAfter env before)).1 = .ok (storedAck call)) :
    checksOf env (ingest env call (stateAfter env before)).2 call.upload.id = checkRows call := by
  have holds := holds_run env before [] call fresh
  have after : stateAfter env (before ++ [.ingest call]) =
      (ingest env call (stateAfter env before)).2 := by
    unfold stateAfter
    rw [Run.run_append, Run.run_cons, Run.run_nil, step]
  rw [after] at holds
  exact holds.checks (by rintro ⟨_, _, _, found, _⟩; cases found)

theorem allOrNone (env : Env) (ops : List Op) :
    ∀ r ∈ (stateAfter env ops).report, ∃ before call, AllOrNone env ops r before call := by
  have rep : Represents env _ (stateAfter env ops) := represents_run env ops
  intro r inTable
  rw [rep.report] at inTable
  obtain ⟨e, member, rfl⟩ := List.mem_map.mp inTable
  obtain ⟨before, after, split, fresh⟩ := entry_origin env ops member
  have ingested : checksOf env (ingest env e.call (stateAfter env before)).2 e.id =
      checkRows e.call := checksOf_ingest fresh
  refine ⟨before, e.call, ⟨after, split⟩, fresh, ?_, ?_, ?_⟩
  · rw [show e.reportRow.id = e.id from rfl, ingested]
    exact whole_checkRows e
  · rw [show e.reportRow.id = e.id from rfl, ingested, checksOf_eq rep member]
    unfold Entry.checkRows
    cases e.checksSwept with
    | true => exact Or.inr rfl
    | false => exact Or.inl rfl
  · exact beq_iff_eq

/-! ## The page under a sweep -/

section Page

variable (env : Env) (now rawDays checkDays : Int) (db : Db)

/-- Does the check outlive the sweep? -/
def keeps (now checkDays : Int) (c : CheckRow) : Bool :=
  !decide (c.collectedAt < cutoff now checkDays)

theorem latestProblems_sweep :
    latestProblems env (sweep now rawDays checkDays db).2 =
      (latestProblems env db).filter (keeps now checkDays) := by
  rw [latestProblems_eq, latestProblems_eq, List.filter_flatMap]
  refine List.flatMap_congr fun l _ => ?_
  show ((db.checkResult.filter (keeps now checkDays)).filter _).filter _ = _
  simp only [List.filter_filter]
  apply List.filter_congr
  intro c _
  cases keeps now checkDays c <;> simp

/-- The page's rows after a sweep are those that outlive it. -/
theorem problemRows_sweep :
    problemRows env (sweep now rawDays checkDays db).2 =
      (problemRows env db).filter (fun r => keeps now checkDays r.check) := by
  unfold problemRows
  rw [filter_orderBy, List.filter_map, latestProblems_sweep]
  exact congrArg (fun pairs => orderBy (problemOrder env) (List.map _ pairs))
    (filter_leftJoin (sinceOf env) (keeps now checkDays) (latestProblems env db)
      db.problemSince).symm

theorem checks_sweep (t : Int) :
    (problems env t (sweep now rawDays checkDays db).2).checks =
      (problems env t db).checks.filter (fun p => !decide (p.collectedAt < cutoff now checkDays)) := by
  rw [problems_checks, problems_checks, problemRows_sweep, List.filter_map, List.filter_filter,
    List.filter_filter]
  congr 1
  apply List.filter_congr
  intro r _
  exact Bool.and_comm _ _

theorem muted_sweep (t : Int) :
    (problems env t (sweep now rawDays checkDays db).2).muted =
      (problems env t db).muted.filter (fun m => !decide (m.collectedAt < cutoff now checkDays)) := by
  rw [problems_muted, problems_muted, problemRows_sweep, List.filter_filterMap,
    List.filterMap_filter]
  apply List.filterMap_congr
  intro r _
  have same : r.mute t (sweep now rawDays checkDays db).2 = r.mute t db := rfl
  rw [same]
  cases r.mute t db with
  | none => simp
  | some m => rfl

end Page

/-! ## One sweep -/

/-- The latest report of a producer: the one its pointer names, which none of its others is
later than. -/
structure LatestReportOf (env : Env) (db : Db) (producer : ProducerKey) (r : ReportRow) : Prop where
  stored : r ∈ db.report
  pointed : ∃ l ∈ db.latestReport, l.key env = producer ∧ r.key env = env.weight l.reportId
  own : r.producer env = producer
  newest : ∀ other ∈ db.report, other.producer env = producer → other.collectedAt ≤ r.collectedAt

/-- The producer's latest report was collected before the cutoff. -/
def LatestBefore (env : Env) (db : Db) (producer : ProducerKey) (limit : Int) : Prop :=
  ∃ r, LatestReportOf env db producer r ∧ r.collectedAt < limit

/-- What one sweep takes, and what it leaves alone. -/
structure SweepTakes (env : Env) (now rawDays checkDays : Int) (db : Db) : Prop where
  report : List.Forall₂ (fun r r' => r' = r ∨ r' = { r with raw := none }) db.report
    (sweep now rawDays checkDays db).2.report
  latestReport : (sweep now rawDays checkDays db).2.latestReport = db.latestReport
  problemSince : (sweep now rawDays checkDays db).2.problemSince = db.problemSince
  mute : (sweep now rawDays checkDays db).2.mute = db.mute
  retirement : (sweep now rawDays checkDays db).2.retirement = db.retirement
  fewerChecks : ∀ t, (problems env t (sweep now rawDays checkDays db).2).checks.Sublist
    (problems env t db).checks
  fewerMuted : ∀ t, (problems env t (sweep now rawDays checkDays db).2).muted.Sublist
    (problems env t db).muted
  checks : ∀ t producer, ¬ LatestBefore env db producer (cutoff now checkDays) →
    (problems env t (sweep now rawDays checkDays db).2).checks.filter
        (fun p => producerKey env p.source p.collector = producer) =
      (problems env t db).checks.filter (fun p => producerKey env p.source p.collector = producer)
  muted : ∀ t producer, ¬ LatestBefore env db producer (cutoff now checkDays) →
    (problems env t (sweep now rawDays checkDays db).2).muted.filter
        (fun m => producerKey env m.source m.collector = producer) =
      (problems env t db).muted.filter (fun m => producerKey env m.source m.collector = producer)
  again : (sweep now rawDays checkDays (sweep now rawDays checkDays db).2).2 =
    (sweep now rawDays checkDays db).2

/-- A row of the page carries the instant of its producer's latest report. -/
theorem latestReportOf_row (rep : Represents env ledger db) {r : ProblemRow}
    (found : r ∈ problemRows env db) :
    ∃ latest, LatestReportOf env db (producerKey env r.check.source r.check.collector) latest ∧
      latest.collectedAt = r.check.collectedAt := by
  obtain ⟨inLatest, _⟩ := (mem_problemRows rep).mp found
  obtain ⟨l, inTable, e, points, own, _⟩ := (mem_latestProblems rep).mp inLatest
  rw [checkRows_producer own]
  refine ⟨e.reportRow, ⟨?_, ⟨l, inTable, points.producer, ?_⟩, rfl, ?_⟩,
    (checkRows_collectedAt own).symm⟩
  · rw [rep.report]
    exact List.mem_map.mpr ⟨e, points.member, rfl⟩
  · rw [points.reportId]
    rfl
  · intro other stored same
    rw [rep.report] at stored
    obtain ⟨e', inLedger, rfl⟩ := List.mem_map.mp stored
    exact points.newest e' inLedger same

/-- A row of a producer whose latest report is not before the limit is not either. -/
theorem not_before_of_row (rep : Represents env ledger db) {r : ProblemRow}
    (found : r ∈ problemRows env db) {limit : Int}
    (young : ¬ LatestBefore env db (producerKey env r.check.source r.check.collector) limit) :
    ¬ r.check.collectedAt < limit := by
  obtain ⟨latest, latestOf, same⟩ := latestReportOf_row rep found
  intro before
  exact young ⟨latest, latestOf, by rw [same]; exact before⟩

theorem report_sweep (now rawDays checkDays : Int) (db : Db) :
    List.Forall₂ (fun r r' => r' = r ∨ r' = { r with raw := none }) db.report
      (sweep now rawDays checkDays db).2.report := by
  unfold sweep
  rw [List.forall₂_map_right_iff, List.forall₂_same]
  intro r _
  by_cases old : (r.raw.isSome && decide (r.receivedAt < cutoff now rawDays)) = true
  · exact Or.inr (if_pos old)
  · exact Or.inl (if_neg old)

/-- A second sweep at the same instant finds nothing to take. -/
theorem sweep_sweep (now rawDays checkDays : Int) (db : Db) :
    (sweep now rawDays checkDays (sweep now rawDays checkDays db).2).2 =
      (sweep now rawDays checkDays db).2 := by
  unfold sweep deleteWhere
  simp only [List.map_map, List.filter_filter, Bool.and_self]
  congr 1
  apply List.map_congr_left
  intro r _
  by_cases old : (r.raw.isSome && decide (r.receivedAt < cutoff now rawDays)) = true
  · simp only [Function.comp_apply, old, if_true, Option.isSome_none, Bool.false_and,
      Bool.false_eq_true, if_false]
  · rw [Function.comp_apply, if_neg old, if_neg old]

theorem sweepTakes (rep : Represents env ledger db) (now rawDays checkDays : Int) :
    SweepTakes env now rawDays checkDays db where
  report := report_sweep now rawDays checkDays db
  latestReport := rfl
  problemSince := rfl
  mute := rfl
  retirement := rfl
  fewerChecks := by
    intro t
    rw [checks_sweep]
    exact List.filter_sublist
  fewerMuted := by
    intro t
    rw [muted_sweep]
    exact List.filter_sublist
  checks := by
    intro t producer young
    rw [checks_sweep, List.filter_filter]
    apply List.filter_congr
    intro p shown
    obtain ⟨r, found, _, rfl⟩ := mem_checks.mp shown
    by_cases own : producerKey env r.check.source r.check.collector = producer
    · have notOld := not_before_of_row rep found (own.symm ▸ young)
      simp [problemCheck, notOld]
    · simp [problemCheck, own]
  muted := by
    intro t producer young
    rw [muted_sweep, List.filter_filter]
    apply List.filter_congr
    intro m hidden
    rw [problems_muted] at hidden
    obtain ⟨r, found, names⟩ := List.mem_filterMap.mp hidden
    obtain ⟨mu, _, rfl⟩ := Option.map_eq_some_iff.mp names
    by_cases own : producerKey env r.check.source r.check.collector = producer
    · have notOld := not_before_of_row rep found (own.symm ▸ young)
      simp [mutedCheck, notOld]
    · simp [mutedCheck, own]
  again := sweep_sweep now rawDays checkDays db

/-- After every run each stored report has all the checks it was ingested with or none; and
a sweep at any instant, for any day counts, takes payloads, the checks of old reports and
nothing else. -/
theorem retention_allOrNone (env : Env) (ops : List Op) :
    (∀ r ∈ (stateAfter env ops).report, ∃ before call, AllOrNone env ops r before call) ∧
      ∀ now rawDays checkDays, SweepTakes env now rawDays checkDays (stateAfter env ops) :=
  ⟨allOrNone env ops, sweepTakes (represents_run env ops)⟩

end Fleetwatch
