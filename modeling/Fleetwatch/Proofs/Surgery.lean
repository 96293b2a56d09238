import Fleetwatch.Proofs.MuteOverlay
import Fleetwatch.Proofs.ProblemSince

/-!
# Reports deleted by hand

The ledger loses entries, which no write of the service does. The foreign keys take the
checks and the pointers with them, and `rebuild_latest_report` points every producer at
the first of its reports that are left. The failing-run table has neither: a run whose
first report is gone keeps its start until a newer report ends it.
-/

namespace Fleetwatch

open Query Ranking Sql Table

variable {env : Env} {ledger : List Entry} {db : Db}

/-! ## What a run's start refers to -/

/-- Some report of the producer, stored at the instant, shows the label failing. -/
def ShownFailing (env : Env) (ledger : List Entry) (k : CheckIdentity) (t : Int) : Prop :=
  ∃ e ∈ ledger, e.producer env = k.1 ∧ failsLabel env k.2 e.call = true ∧ e.storedAt = t

/-- Every open run begins at a report of the ledger that shows it. -/
def RunsReported (env : Env) (ledger : List Entry) (db : Db) : Prop :=
  ∀ row ∈ db.problemSince, ShownFailing env ledger (row.key env) row.firstSeen

theorem ShownFailing.mono {ledger' : List Entry} {k : CheckIdentity} {t : Int}
    (shown : ShownFailing env ledger k t) (subset : ∀ e ∈ ledger, e ∈ ledger') :
    ShownFailing env ledger' k t := by
  obtain ⟨e, member, rest⟩ := shown
  exact ⟨e, subset e member, rest⟩

theorem mem_firstSeen {k : CheckIdentity} {t : Int} {table : List ProblemSinceRow} :
    t ∈ (rowsAt (ProblemSinceRow.key env) k table).map (·.firstSeen) ↔
      ∃ row ∈ table, row.key env = k ∧ row.firstSeen = t := by
  simp only [List.mem_map, mem_rowsAt, and_assoc]

/-- A stored report begins the runs it opens itself. -/
theorem RunsReported.stored (reported : RunsReported env ledger db) {call : IngestCall}
    (fits : Fits call) : RunsReported env (ledger ++ [Entry.new call]) (stored env call db) := by
  have earlier : ∀ row ∈ db.problemSince,
      ShownFailing env (ledger ++ [Entry.new call]) (row.key env) row.firstSeen :=
    fun row old => (reported row old).mono (fun _ => List.mem_append_left _)
  intro row inTable
  unfold Fleetwatch.stored at inTable
  dsimp only at inTable
  split at inTable
  · have start : row.firstSeen ∈ (rowsAt (ProblemSinceRow.key env) (row.key env)
        (endRuns env call (openRuns env call db.problemSince))).map (·.firstSeen) :=
      mem_firstSeen.mpr ⟨row, inTable, rfl, rfl⟩
    rw [firstSeen_leader fits] at start
    split at start
    · rename_i own
      split at start
      · rename_i fails
        split at start
        · rw [List.mem_singleton.mp start]
          exact ⟨Entry.new call, by simp, own.symm, fails, rfl⟩
        · obtain ⟨old, stored', same, first⟩ := mem_firstSeen.mp start
          rw [← same, ← first]
          exact earlier old stored'
      · cases start
    · obtain ⟨old, stored', same, first⟩ := mem_firstSeen.mp start
      rw [← same, ← first]
      exact earlier old stored'
  · exact earlier row inTable

theorem RunsReported.ingest (rep : Represents env ledger db)
    (reported : RunsReported env ledger db) (call : IngestCall) :
    RunsReported env (ledgerStep env ledger (.ingest call)) (ingest env call db).2 := by
  by_cases accepts : Accepts env ledger call
  · rw [ledgerStep_ingest_of_accepts accepts, ingest_of_accepts rep accepts]
    exact reported.stored accepts.fits
  · rw [ledgerStep_ingest_of_not_accepts accepts, ingest_of_not_accepts rep accepts]
    exact reported

/-! ## The tables after the deletion -/

/-- The entries that are left. -/
def survivors (gone : ReportRow → Bool) (ledger : List Entry) : List Entry :=
  ledger.filter (fun e => !gone e.reportRow)

theorem mem_survivors {gone : ReportRow → Bool} {e : Entry} :
    e ∈ survivors gone ledger ↔ e ∈ ledger ∧ gone e.reportRow = false := by
  unfold survivors
  rw [List.mem_filter, Bool.not_eq_true']

/-- An id is that of a deleted report exactly when its entry is deleted. -/
theorem deleted_iff (rep : Represents env ledger db) (gone : ReportRow → Bool) {e : Entry}
    (member : e ∈ ledger) :
    db.report.any (fun r => gone r && decide (r.key env = env.weight e.id)) = gone e.reportRow := by
  rw [rep.report, Bool.eq_iff_iff, List.any_eq_true]
  constructor
  · rintro ⟨r, stored, hit⟩
    obtain ⟨e', inLedger, rfl⟩ := List.mem_map.mp stored
    rw [Bool.and_eq_true, decide_eq_true_eq] at hit
    rw [← rep.eq_of_key inLedger member hit.2]
    exact hit.1
  · intro hit
    refine ⟨e.reportRow, List.mem_map.mpr ⟨e, member, rfl⟩, ?_⟩
    rw [Bool.and_eq_true]
    exact ⟨hit, decide_eq_true rfl⟩

theorem deleteReports_report (rep : Represents env ledger db) (gone : ReportRow → Bool) :
    (deleteReports env gone db).report = (survivors gone ledger).map Entry.reportRow := by
  unfold deleteReports deleteWhere survivors
  rw [rep.report, List.filter_map]
  rfl

theorem deleteReports_checkResult (rep : Represents env ledger db) (gone : ReportRow → Bool) :
    (deleteReports env gone db).checkResult = (survivors gone ledger).flatMap Entry.checkRows := by
  unfold deleteReports deleteWhere survivors
  dsimp only
  rw [rep.checkResult]
  refine filter_flatMap_of_const fun e member c own => ?_
  rw [checkRows_reportId own, deleted_iff rep gone member]

/-- A pointer that is left points at an entry that is left. -/
theorem deleteReports_latestReport (rep : Represents env ledger db) (gone : ReportRow → Bool)
    {l : LatestReportRow} (inTable : l ∈ (deleteReports env gone db).latestReport) :
    ∃ e, PointsTo env (survivors gone ledger) l e := by
  obtain ⟨old, kept⟩ := List.mem_filter.mp inTable
  obtain ⟨e, points⟩ := rep.latest.sound l old
  dsimp only at kept
  rw [points.reportId, deleted_iff rep gone points.member, Bool.not_eq_true'] at kept
  refine ⟨e, mem_survivors.mpr ⟨points.member, kept⟩, points.producer, points.reportId,
    points.collectedAt, ?_⟩
  intro other left same
  exact points.newest other (mem_survivors.mp left).1 same

/-! ## The rebuild -/

theorem Rebuildable.pointsAtTop (built : Rebuildable env ledger db) :
    PointsAtTop env ledger (rebuildLatestReport env db).latestReport := by
  intro l inTable e points
  obtain ⟨e', points', top⟩ := built.pointsTo_rebuilt inTable
  have same : e.key env = e'.key env := by
    unfold Entry.key
    rw [← points.reportId, ← points'.reportId]
  obtain rfl := List.inj_on_of_nodup_map built.ids points.member points'.member same
  exact top

/-- The service after the deletion and the rebuild. -/
theorem represents_rebuilt (rep : Represents env ledger db) (gone : ReportRow → Bool) :
    Represents env (survivors gone ledger)
        (rebuildLatestReport env (deleteReports env gone db)) ∧
      PointsAtTop env (survivors gone ledger)
        (rebuildLatestReport env (deleteReports env gone db)).latestReport := by
  have built : Rebuildable env (survivors gone ledger) (deleteReports env gone db) :=
    { report := deleteReports_report rep gone
      ids := rep.ids.sublist (List.filter_sublist.map _)
      keyed := rep.latest.keyed.deleteWhere _
      sound := fun l inTable => deleteReports_latestReport rep gone inTable }
  refine ⟨?_, built.pointsAtTop⟩
  exact
    { report := built.report
      checkResult := deleteReports_checkResult rep gone
      ids := built.ids
      admitted := fun e left => rep.admitted e (mem_survivors.mp left).1
      fits := fun e left => rep.fits e (mem_survivors.mp left).1
      latest := built.tracks
      problemSince := rep.problemSince
      mute := rep.mute
      retirement := rep.retirement }

/-! ## Runs -/

/-- The reports accepted in a run of writes. -/
noncomputable def ledgerAfter (env : Env) (ops : List Op) : List Entry :=
  Run.run (ledgerStep env) [] ops

/-- The database after a run, a deletion, the rebuild and further ingest calls. -/
def repairedAfter (env : Env) (ops : List Op) (gone : ReportRow → Bool) (calls : List IngestCall) :
    Db :=
  ingestAll env (rebuildLatestReport env (deleteReports env gone (stateAfter env ops))) calls

/-- The reports that are left then: those the deletion spared and those accepted since. -/
noncomputable def leftAfter (env : Env) (ops : List Op) (gone : ReportRow → Bool)
    (calls : List IngestCall) : List Entry :=
  Run.run (fun ledger call => ledgerStep env ledger (.ingest call))
    (survivors gone (ledgerAfter env ops)) calls

/-- Every age the page shows is that of a report that shows the label failing. -/
def AgesReported (env : Env) (ledger : List Entry) (db : Db) : Prop :=
  ∀ now, ∀ p ∈ (problems env now db).checks, ∀ t, p.firstSeen = some t →
    ShownFailing env ledger (checkIdentity env p.source p.collector p.label) t

theorem RunsReported.ages (reported : RunsReported env ledger db) (rep : Represents env ledger db) :
    AgesReported env ledger db := by
  intro now p member t shown
  obtain ⟨r, known, -, rfl⟩ := mem_checks.mp member
  have since := ((mem_problemRows rep).mp known).2
  have start : t ∈ (rowsAt (ProblemSinceRow.key env) (r.check.identity env)
      db.problemSince).map (·.firstSeen) :=
    List.mem_of_mem_head? (since.symm.trans shown)
  obtain ⟨row, stored, same, first⟩ := mem_firstSeen.mp start
  have own := reported row stored
  rw [same, first] at own
  exact own

/-- A report sent in whole milliseconds is in order, whatever it meets. -/
theorem inOrder_of_whole {call : IngestCall}
    (whole : datetime3 call.upload.collectedAt = call.upload.collectedAt) :
    InOrder env db call := by
  intro _ _ _ l _ _ same finer
  refine absurd ?_ finer
  rw [same, ← whole, bind_datetime3, datetime3_idem]

/-- No write of the service makes a run's start refer to nothing. -/
theorem RunsReported.step (rep : Represents env ledger db) (reported : RunsReported env ledger db)
    (op : Op) : RunsReported env (ledgerStep env ledger op) (step env db op) := by
  cases op with
  | ingest call => exact reported.ingest rep call
  | createMute call =>
    show RunsReported env ledger (createMute env call db).2
    rcases createMute_after env call db with same | ⟨-, after⟩
    · rw [same]
      exact reported
    · rw [after]
      exact reported
  | deleteMute id => exact reported
  | createRetirement call =>
    show RunsReported env ledger (createRetirement env call db).2
    rcases createRetirement_after env call db with same | ⟨-, after⟩
    · rw [same]
      exact reported
    · rw [after]
      exact reported
  | deleteRetirement source collector => exact reported
  | rebuildLatestReport => exact reported
  | sweep now rawDays checkDays =>
    intro row stored
    obtain ⟨e, member, shown⟩ := reported row stored
    exact ⟨e.sweep now rawDays checkDays, List.mem_map.mpr ⟨e, member, rfl⟩, shown⟩

theorem runsReported_stateAfter (env : Env) (ops : List Op) :
    RunsReported env (ledgerAfter env ops) (stateAfter env ops) := by
  have kept := Run.run_simulation
    (fun ledger db => Represents env ledger db ∧ RunsReported env ledger db)
    (fun _ _ op both => ⟨represents_step both.1 op, both.2.step both.1 op⟩) ops [] Db.empty
    ⟨represents_empty env, fun row none => by cases none⟩
  exact kept.2

/-- Every run open when reports are deleted keeps one it began at. -/
def RunsKept (env : Env) (ops : List Op) (gone : ReportRow → Bool) : Prop :=
  RunsReported env (survivors gone (ledgerAfter env ops)) (stateAfter env ops)

/-- What the rebuild brings about and further reports keep; the ages are part of it where they
were right to begin with. -/
structure Repaired (kept : Prop) (env : Env) (ledger : List Entry) (db : Db) : Prop where
  rep : Represents env ledger db
  top : PointsAtTop env ledger db.latestReport
  reported : kept → RunsReported env ledger db

theorem Repaired.ingest {kept : Prop} (repaired : Repaired kept env ledger db) {call : IngestCall}
    (whole : datetime3 call.upload.collectedAt = call.upload.collectedAt) :
    Repaired kept env (ledgerStep env ledger (.ingest call)) (ingest env call db).2 := by
  have rep' := represents_ingest repaired.rep call
  have ranking := (pointerIsRanking_iff_top repaired.rep).mpr repaired.top
  have ranking' :=
    (pointerIsRanking_ingest_iff repaired.rep ranking call).mpr (inOrder_of_whole whole)
  exact ⟨rep', (pointerIsRanking_iff_top rep').mp ranking',
    fun own => (repaired.reported own).ingest repaired.rep call⟩

theorem represents_repaired (env : Env) (ops : List Op) (gone : ReportRow → Bool)
    (calls : List IngestCall) :
    Represents env (leftAfter env ops gone calls) (repairedAfter env ops gone calls) := by
  have rep : Represents env (ledgerAfter env ops) (stateAfter env ops) := represents_run env ops
  exact Run.run_simulation (Represents env) (fun _ _ call rep => represents_ingest rep call) calls
    _ _ (represents_rebuilt rep gone).1

/-- After any deletion, the rebuild and any further reports sent in whole milliseconds, the
pointers are the ranking of the reports that are left. The ages are theirs too when every run
that was open keeps a report it began at. -/
theorem repaired_pointers_and_ages (env : Env) (ops : List Op) (gone : ReportRow → Bool)
    (calls : List IngestCall)
    (whole : ∀ call ∈ calls, datetime3 call.upload.collectedAt = call.upload.collectedAt) :
    (repairedAfter env ops gone calls).report =
        (leftAfter env ops gone calls).map Entry.reportRow ∧
      PointerIsRanking env (repairedAfter env ops gone calls) ∧
      (RunsKept env ops gone →
        AgesReported env (leftAfter env ops gone calls) (repairedAfter env ops gone calls)) := by
  have rep : Represents env (ledgerAfter env ops) (stateAfter env ops) := represents_run env ops
  obtain ⟨rebuilt, top⟩ := represents_rebuilt rep gone
  have run : Repaired (RunsKept env ops gone) env (leftAfter env ops gone calls)
      (repairedAfter env ops gone calls) := by
    refine Run.run_simulation_permitted (Repaired _ env) ?_ calls _ _ whole
      ⟨rebuilt, top, fun kept => kept⟩
    intro ledger db call exact repaired
    exact repaired.ingest exact
  exact ⟨run.rep.report, (pointerIsRanking_iff_top run.rep).mpr run.top,
    fun kept => (run.reported kept).ages run.rep⟩

/-- The report, sent once more under another id and with another instant. -/
def IngestCall.again (call : IngestCall) (id : String) (t : Int) : IngestCall :=
  { call with upload := { call.upload with id := id, collectedAt := t } }

/-- A report with open runs, and one of another producer. -/
def twoSources : List Op :=
  [.ingest sampleReport,
    .ingest (sampleCall "thoth" "disk" "01ARZ3NDEKTSV4RRFFQ69G5FAW" 0
      [sampleCheck "root" "usage" .pass])]

def ofThoth (r : ReportRow) : Bool := r.source = "thoth"

/-- The report that opened the runs, sent a second later. -/
def sampleAgain : IngestCall := sampleReport.again "01ARZ3NDEKTSV4RRFFQ69G5FAX" second

theorem repaired_other_source :
    PointerIsRanking asciiEnv (repairedAfter asciiEnv twoSources ofThoth [sampleAgain]) ∧
      AgesReported asciiEnv (leftAfter asciiEnv twoSources ofThoth [sampleAgain])
        (repairedAfter asciiEnv twoSources ofThoth [sampleAgain]) := by
  have runs : ∀ row ∈ (stateAfter asciiEnv twoSources).problemSince,
      (row.key asciiEnv).1.1 ≠ asciiEnv.weight "thoth" := by decide +kernel
  have kept : RunsKept asciiEnv twoSources ofThoth := by
    intro row stored
    obtain ⟨e, member, own, fails, first⟩ := runsReported_stateAfter asciiEnv twoSources row stored
    refine ⟨e, mem_survivors.mpr ⟨member, decide_eq_false fun thoth => ?_⟩, own, fails, first⟩
    refine runs row stored ?_
    rw [← own]
    exact congrArg asciiEnv.weight thoth
  obtain ⟨-, ranking, ages⟩ := repaired_pointers_and_ages asciiEnv twoSources ofThoth [sampleAgain]
    (by decide)
  exact ⟨ranking, ages kept⟩

/-- All reports deleted; the next one shows the age of the first. -/
theorem stale_age_shown :
    (problems asciiEnv second (repairedAfter asciiEnv [.ingest sampleReport] (fun _ => true)
        [sampleAgain])).checks.map (fun p => (p.label, p.firstSeen)) =
      [("usage", some 0), ("inodes", some 0)] ∧
    (repairedAfter asciiEnv [.ingest sampleReport] (fun _ => true) [sampleAgain]).report.map
        (·.collectedAt) = [second] ∧
    ¬ ∀ env ops gone calls,
      (∀ call ∈ calls, datetime3 call.upload.collectedAt = call.upload.collectedAt) →
        PointerIsRanking env (repairedAfter env ops gone calls) ∧
          AgesReported env (leftAfter env ops gone calls) (repairedAfter env ops gone calls) := by
  have page : (problems asciiEnv second (repairedAfter asciiEnv [.ingest sampleReport]
      (fun _ => true) [sampleAgain])).checks.map (fun p => (p.label, p.firstSeen)) =
        [("usage", some 0), ("inodes", some 0)] := by decide +kernel
  have reports : (repairedAfter asciiEnv [.ingest sampleReport] (fun _ => true)
      [sampleAgain]).report.map (·.collectedAt) = [second] := by decide +kernel
  refine ⟨page, reports, fun claimed => ?_⟩
  have ages := (claimed asciiEnv [.ingest sampleReport] (fun _ => true) [sampleAgain]
    (by decide)).2
  obtain ⟨p, shown, named⟩ := List.mem_map.mp (page ▸ List.mem_cons_self)
  obtain ⟨e, left, -, -, first⟩ := ages second p shown 0 (Prod.mk.inj named).2
  have stored : e.storedAt ∈ (repairedAfter asciiEnv [.ingest sampleReport] (fun _ => true)
      [sampleAgain]).report.map (·.collectedAt) := by
    rw [(represents_repaired _ _ _ _).report, List.map_map]
    exact List.mem_map.mpr ⟨e, left, rfl⟩
  rw [reports, first] at stored
  exact absurd (List.mem_singleton.mp stored) (by decide)

/-! ## A run that keeps none -/

theorem accepts_again {left : List Entry} (rep : Represents env ledger db) {e : Entry}
    (member : e ∈ ledger) {id : String} (valid : env.ulidFromString id = true)
    (unused : ∀ other ∈ left, other.key env ≠ env.weight id) {t : Int}
    (dated : isDatetime t = true) : Accepts env left (e.call.again id t) where
  admitted :=
    { rep.admitted e member with ulid := valid }
  fits :=
    { rep.fits e member with
      id := decide_eq_true (env.ulid_length id valid).le
      collectedAt := dated }
  fresh := unused

/-- A report stored later than all others leads its producer. -/
theorem leads_of_latest (rep : Represents env ledger db) {call : IngestCall}
    (accepts : Accepts env ledger call) (latest : ∀ e ∈ ledger, e.storedAt < call.storedAt) :
    leads env call db = true := by
  have rep' := rep.stored accepts
  obtain ⟨l, inTable, own⟩ := rep'.latest.complete (Entry.new call) (by simp)
  obtain ⟨e, points⟩ := rep'.latest.sound l inTable
  have newest := points.newest (Entry.new call) (by simp) (own.symm.trans points.producer)
  refine (isLatest_iff (rep.latest.advanced call).keyed call).mpr ⟨l, inTable, own, ?_⟩
  rcases List.mem_append.mp points.member with earlier | new
  · exact absurd newest (not_le.mpr (latest e earlier))
  · rw [points.reportId, List.mem_singleton.mp new]
    rfl

/-- At some instant no mute is live. -/
theorem exists_no_mute (mutes : List MuteRow) :
    ∃ now, ∀ mu ∈ mutes, mu.expiresAt ≤ bindDatetime now := by
  induction mutes with
  | nil => exact ⟨0, fun mu none => by cases none⟩
  | cons mu rest ih =>
    obtain ⟨now, past⟩ := ih
    refine ⟨max now (mu.expiresAt + 1000), fun other member => ?_⟩
    rcases List.mem_cons.mp member with rfl | later
    · have bound := bind_mono (le_max_right now (other.expiresAt + 1000))
      unfold bindDatetime at bound ⊢
      omega
    · exact le_trans (past other later) (bind_mono (le_max_left _ _))

/-- A leader that shows a label failing gets the start of the label's run on the page. -/
theorem exists_check_of_leader (rep : Represents env ledger db) {call : IngestCall}
    (accepts : Accepts env ledger call) (leading : leads env call db = true)
    {row : ProblemSinceRow} (stored : row ∈ db.problemSince)
    (own : (row.key env).1 = call.producer env)
    (fails : failsLabel env (row.key env).2 call = true) :
    ∃ now, ∃ p ∈ (problems env now (Fleetwatch.stored env call db)).checks,
      checkIdentity env p.source p.collector p.label = row.key env ∧
        p.firstSeen = some row.firstSeen := by
  have rep' := rep.stored accepts
  obtain ⟨l, inTable, hit, named⟩ := (isLatest_iff (rep.latest.advanced call).keyed call).mp leading
  obtain ⟨e, points⟩ := rep'.latest.sound l inTable
  obtain rfl : e = Entry.new call := rep'.pointee_eq points (by simp) named
  -- a failing check of the report, as the problems query finds it
  obtain ⟨c, sent, hit'⟩ := List.any_eq_true.mp fails
  rw [Bool.and_eq_true, decide_eq_true_eq] at hit'
  obtain ⟨i, inEntry⟩ := exists_checkRow sent
  have latest : checkRow call i c ∈ latestProblems env (Fleetwatch.stored env call db) :=
    (mem_latestProblems rep').mpr ⟨l, inTable, _, points, inEntry, hit'.1⟩
  obtain ⟨r, known, same⟩ := exists_problemRow rep' latest
  have identity : r.check.identity env = row.key env := by
    rw [same]
    exact Prod.ext own.symm hit'.2
  have start : (rowsAt (ProblemSinceRow.key env) (row.key env)
      (Fleetwatch.stored env call db).problemSince).map (·.firstSeen) = [row.firstSeen] := by
    have open' := rep.problemSince.rowsAt_eq stored
    unfold Fleetwatch.stored
    dsimp only
    rw [if_pos leading, firstSeen_leader accepts.fits, if_pos own, if_pos fails, open',
      if_neg (List.cons_ne_nil _ _)]
    rfl
  have since := ((mem_problemRows rep').mp known).2
  rw [identity, start] at since
  obtain ⟨now, past⟩ := exists_no_mute (Fleetwatch.stored env call db).mute
  refine ⟨now, problemCheck r, mem_checks.mpr ⟨r, known, ?_, rfl⟩, identity, since⟩
  rw [Bool.eq_false_iff, ne_eq, covered_iff]
  rintro ⟨mu, inTable', live, -⟩
  exact absurd live (not_lt.mpr (past mu inTable'))

/-- Where a run keeps no report it began at, the report that opened it, sent once more, shows
the age of one that is not there. -/
theorem exists_stale_age (env : Env) (ops : List Op) (gone : ReportRow → Bool)
    (stale : ¬ RunsKept env ops gone) {id : String} (valid : env.ulidFromString id = true)
    (unused : ∀ r ∈ (stateAfter env ops).report, r.key env ≠ env.weight id) {t : Int}
    (dated : isDatetime t = true) (whole : datetime3 t = t)
    (later : ∀ r ∈ (stateAfter env ops).report, r.collectedAt < t) :
    ∃ call, call.upload.collectedAt = t ∧
      ¬ AgesReported env (leftAfter env ops gone [call]) (repairedAfter env ops gone [call]) := by
  have rep : Represents env (ledgerAfter env ops) (stateAfter env ops) := represents_run env ops
  have rebuilt := (represents_rebuilt rep gone).1
  unfold RunsKept RunsReported at stale
  push Not at stale
  obtain ⟨row, stored, orphan⟩ := stale
  obtain ⟨e, member, own, fails, first⟩ := runsReported_stateAfter env ops row stored
  have reportRows : ∀ other ∈ ledgerAfter env ops,
      other.reportRow ∈ (stateAfter env ops).report := by
    intro other inLedger
    rw [rep.report]
    exact List.mem_map.mpr ⟨other, inLedger, rfl⟩
  have accepts : Accepts env (survivors gone (ledgerAfter env ops)) (e.call.again id t) :=
    accepts_again rep member valid
      (fun other left => unused _ (reportRows other (mem_survivors.mp left).1)) dated
  have leading := leads_of_latest rebuilt accepts (by
    intro other left
    have earlier := later _ (reportRows other (mem_survivors.mp left).1)
    rw [← whole] at earlier
    exact earlier)
  obtain ⟨now, p, shown, identity, age⟩ :=
    exists_check_of_leader rebuilt accepts leading stored own.symm fails
  refine ⟨e.call.again id t, rfl, fun ages => ?_⟩
  have after : repairedAfter env ops gone [e.call.again id t] =
      Fleetwatch.stored env (e.call.again id t)
        (rebuildLatestReport env (deleteReports env gone (stateAfter env ops))) := by
    unfold repairedAfter ingestAll
    rw [Run.run_cons, Run.run_nil, ingest_of_accepts rebuilt accepts]
  rw [after] at ages
  obtain ⟨e', left, own', fails', first'⟩ := ages now p shown _ age
  unfold leftAfter at left
  rw [Run.run_cons, Run.run_nil, ledgerStep_ingest_of_accepts accepts] at left
  rw [identity] at own' fails'
  rcases List.mem_append.mp left with spared | new
  · exact orphan ⟨e', spared, own', fails', first'⟩
  · rw [List.mem_singleton.mp new] at first'
    have same : t = e.storedAt := whole.symm.trans (first'.trans first.symm)
    exact absurd (later _ (reportRows e member)) (not_lt.mpr (le_of_eq same))

end Fleetwatch
