import Fleetwatch.Proofs.RetentionRow
import Fleetwatch.Proofs.Tiles

/-!
# Retention takes nothing that is looked at

The sweep clears payloads and deletes old check rows. Two stores that differ in nothing else
go on alike whatever is written to them, so a run of the service leaves what the same writes
would have left without a single sweep, but for what the sweeps took; and the views that look
back no further than that cannot tell the difference.
-/

namespace Fleetwatch

open Query Ranking Sql Table

/-- A report row without its payload. -/
def ReportRow.bare (r : ReportRow) : ReportRow := { r with raw := none }

/-- Is the check no older than an instant? -/
def CheckRow.since (cut : Int) (c : CheckRow) : Bool := cut ≤ c.collectedAt

/-- Two stores that differ in payloads and in check rows from before an instant. -/
structure Alike (cut : Int) (db db' : Db) : Prop where
  report : db.report.map ReportRow.bare = db'.report.map ReportRow.bare
  checkResult : db.checkResult.filter (CheckRow.since cut) =
    db'.checkResult.filter (CheckRow.since cut)
  latestReport : db.latestReport = db'.latestReport
  problemSince : db.problemSince = db'.problemSince
  mute : db.mute = db'.mute
  retirement : db.retirement = db'.retirement

theorem Alike.refl (cut : Int) (db : Db) : Alike cut db db := ⟨rfl, rfl, rfl, rfl, rfl, rfl⟩

section

variable {env : Env} {cut : Int} {db db' : Db}

/-! ## Writes -/

/-- Reading a report table by anything but its payloads. -/
theorem map_of_bare {β : Type} {f : ReportRow → β} (reads : ∀ r, f r.bare = f r)
    {reports reports' : List ReportRow}
    (same : reports.map ReportRow.bare = reports'.map ReportRow.bare) :
    reports.map f = reports'.map f := by
  have through : ∀ rows : List ReportRow, rows.map f = (rows.map ReportRow.bare).map f := by
    intro rows
    rw [List.map_map]
    exact List.map_congr_left fun r _ => (reads r).symm
  rw [through, same, ← through]

theorem taken_iff_of_alike (alike : Alike cut db db') (call : IngestCall) :
    Taken env call db ↔ Taken env call db' := by
  have keys : db.report.map (ReportRow.key env) = db'.report.map (ReportRow.key env) :=
    map_of_bare (fun _ => rfl) alike.report
  have held : ∀ db : Db, Taken env call db ↔
      env.weight call.upload.id ∈ db.report.map (ReportRow.key env) := by
    intro db
    rw [List.mem_map]
    rfl
  rw [held, keys, ← held]

theorem alike_stored (alike : Alike cut db db') (call : IngestCall) :
    Alike cut (stored env call db) (stored env call db') := by
  obtain ⟨report, checkResult, latestReport, problemSince, mute, retirement⟩ := alike
  have leading : leads env call db = leads env call db' := by
    unfold leads
    rw [latestReport]
  constructor
  · unfold stored
    rw [List.map_append, List.map_append, report]
  · unfold stored
    rw [List.filter_append, List.filter_append, checkResult]
  · unfold stored
    rw [latestReport]
  · unfold stored
    rw [leading, problemSince]
  · exact mute
  · exact retirement

theorem alike_ingest (alike : Alike cut db db') (call : IngestCall) :
    Alike cut (ingest env call db).2 (ingest env call db').2 := by
  have taken : Taken env call db ↔ Taken env call db' := taken_iff_of_alike alike call
  rcases ingest_eq_self_or_stored env call db with same | ⟨admitted, free, fits, after⟩
  · rcases ingest_eq_self_or_stored env call db' with same' | ⟨admitted, free, fits, -⟩
    · rw [same, same']
      exact alike
    · rw [ingest_eq_stored admitted (free ∘ taken.mp) fits, ingest_eq_stored admitted free fits]
      exact alike_stored alike call
  · rw [after, ingest_eq_stored admitted (free ∘ taken.mpr) fits]
    exact alike_stored alike call

theorem mutable_of_same_mutes (same : db.mute = db'.mute) {call : MuteCall}
    (allowed : Mutable env call db) : Mutable env call db' :=
  { allowed with fresh := same ▸ allowed.fresh }

theorem alike_createMute (alike : Alike cut db db') (call : MuteCall) :
    Alike cut (createMute env call db).2 (createMute env call db').2 := by
  by_cases allowed : Mutable env call db
  · rw [createMute_of_mutable allowed,
      createMute_of_mutable (mutable_of_same_mutes alike.mute allowed)]
    exact { alike with mute := congrArg (· ++ _) alike.mute }
  · have refused : ¬ Mutable env call db' := allowed ∘ mutable_of_same_mutes alike.mute.symm
    obtain ⟨err, failed⟩ := createMute_of_not_mutable allowed
    obtain ⟨err', failed'⟩ := createMute_of_not_mutable refused
    rw [failed, failed']
    exact alike

theorem alike_createRetirement (alike : Alike cut db db') (call : RetirementCall) :
    Alike cut (createRetirement env call db).2 (createRetirement env call db').2 := by
  by_cases allowed : Retirable call
  · rw [createRetirement_of_retirable allowed, createRetirement_of_retirable allowed]
    exact { alike with retirement := congrArg (upsert _ _ _) alike.retirement }
  · obtain ⟨err, failed⟩ : ∃ err, createRetirement env call db = (.error err, db) :=
      createRetirement_of_not_retirable allowed
    obtain ⟨err', failed'⟩ : ∃ err, createRetirement env call db' = (.error err, db') :=
      createRetirement_of_not_retirable allowed
    rw [failed, failed']
    exact alike

/-- The rebuild reads no payload. -/
theorem alike_rebuild (alike : Alike cut db db') :
    Alike cut (rebuildLatestReport env db) (rebuildLatestReport env db') := by
  have ranked : (topRanked env db).map ReportRow.toPointer =
      (topRanked env db').map ReportRow.toPointer := by
    refine map_of_bare (fun _ => rfl) ?_
    have sameProducer : ∀ r : ReportRow, r.bare.producer env = r.producer env := fun _ => rfl
    have sameRank : ∀ r : ReportRow, reportRank env r.bare = reportRank env r := fun _ => rfl
    unfold topRanked
    rw [map_leaders sameProducer sameRank, map_leaders sameProducer sameRank, alike.report]
  have pointed : ∀ (rows : List ReportRow) (table : List LatestReportRow),
      rows.foldl (repoint env) table =
        (rows.map ReportRow.toPointer).foldl (fun table l =>
          upsert (LatestReportRow.key env) l
            (fun row => { row with reportId := l.reportId, collectedAt := l.collectedAt }) table)
          table := by
    intro rows table
    rw [List.foldl_map]
    rfl
  refine { alike with latestReport := ?_ }
  show (topRanked env db).foldl (repoint env) db.latestReport =
    (topRanked env db').foldl (repoint env) db'.latestReport
  rw [pointed, pointed, ranked, alike.latestReport]

/-- Whatever is written to two such stores, they stay alike. -/
theorem alike_step (alike : Alike cut db db') {op : Op} (keeps : op.keepsChecks) :
    Alike cut (step env db op) (step env db' op) := by
  cases op with
  | ingest call => exact alike_ingest alike call
  | createMute call => exact alike_createMute alike call
  | deleteMute id => exact { alike with mute := congrArg (deleteWhere _) alike.mute }
  | createRetirement call => exact alike_createRetirement alike call
  | deleteRetirement source collector =>
    exact { alike with retirement := congrArg (deleteWhere _) alike.retirement }
  | rebuildLatestReport => exact alike_rebuild alike
  | sweep now rawDays checkDays => exact absurd keeps not_false

/-- A sweep that takes no check from after the instant is not seen. -/
theorem alike_sweep (alike : Alike cut db db') {now rawDays checkDays : Int}
    (old : ∀ c ∈ db.checkResult, c.collectedAt < cutoff now checkDays → c.collectedAt < cut) :
    Alike cut (sweep now rawDays checkDays db).2 db' := by
  have cleared : (sweep now rawDays checkDays db).2.report.map ReportRow.bare =
      db.report.map ReportRow.bare := by
    unfold sweep
    rw [List.map_map]
    refine List.map_congr_left fun r _ => ?_
    rw [Function.comp_apply]
    split <;> rfl
  have deleted : (sweep now rawDays checkDays db).2.checkResult.filter (CheckRow.since cut) =
      db.checkResult.filter (CheckRow.since cut) := by
    unfold sweep deleteWhere
    rw [List.filter_filter]
    apply List.filter_congr
    intro c stored
    cases recent : c.since cut with
    | false => rfl
    | true =>
      have young : ¬ c.collectedAt < cutoff now checkDays := fun before =>
        absurd (of_decide_eq_true recent) (not_le.mpr (old c stored before))
      rw [Bool.true_and, Bool.not_eq_true', decide_eq_false_iff_not]
      exact young
  exact { alike with report := cleared.trans alike.report
                     checkResult := deleted.trans alike.checkResult }

/-! ## Runs -/

/-- No sweep of the run takes a check from the instant or after it. -/
def TakesOld (env : Env) (cut : Int) : Db → List Op → Prop
  | _, [] => True
  | db, op :: rest =>
    (∀ now rawDays checkDays, op = .sweep now rawDays checkDays →
      ∀ c ∈ db.checkResult, c.collectedAt < cutoff now checkDays → c.collectedAt < cut) ∧
    TakesOld env cut (step env db op) rest

instance (op : Op) : Decidable op.keepsChecks :=
  match op with
  | .sweep .. => isFalse not_false
  | .ingest _ | .createMute _ | .deleteMute _ | .createRetirement _ | .deleteRetirement _ _
  | .rebuildLatestReport => isTrue trivial

/-- A run leaves what its writes alone would have left. -/
theorem alike_run (ops : List Op) {db db' : Db} (alike : Alike cut db db')
    (takes : TakesOld env cut db ops) :
    Alike cut (Run.run (step env) db ops) (Run.run (step env) db' (ops.filter Op.keepsChecks)) := by
  induction ops generalizing db db' with
  | nil => exact alike
  | cons op rest ih =>
    obtain ⟨here, later⟩ := takes
    rw [Run.run_cons, List.filter_cons]
    by_cases keeps : op.keepsChecks
    · rw [if_pos (decide_eq_true keeps), Run.run_cons]
      exact ih (alike_step alike keeps) later
    · rw [if_neg (by simpa using keeps)]
      refine ih ?_ later
      cases op with
      | sweep now rawDays checkDays =>
        exact alike_sweep alike (here now rawDays checkDays rfl)
      | _ => exact absurd trivial keeps

/-! ## Reads -/

/-- The list of reports reads no payload and no check. -/
theorem listReports_of_alike (alike : Alike cut db db') (source collector : Option String)
    (limit : UInt32) :
    listReports env source collector limit db = listReports env source collector limit db' := by
  have through : ∀ db : Db, listReports env source collector limit db =
      listReports env source collector limit { db with report := db.report.map ReportRow.bare } := by
    intro db
    have sorted : ∀ rows : List ReportRow,
        (orderBy (fun r => OrderDual.toDual (toLex (r.collectedAt, r.key env))) rows).map
          ReportRow.bare =
        orderBy (fun r => OrderDual.toDual (toLex (r.collectedAt, r.key env)))
          (rows.map ReportRow.bare) :=
      fun rows => map_orderBy ReportRow.bare _ rows (fun _ => rfl)
    unfold listReports
    dsimp only
    rw [List.filter_map, ← sorted, ← List.map_take, List.map_map]
    rfl
  rw [through, alike.report, through db']
  rfl

/-- The history of a window reads no check from before it. -/
theorem history_of_alike (alike : Alike cut db db') (key : CheckKey) {lower : Int}
    (recent : cut ≤ bindDatetime lower) (upper : Int) :
    history env key lower upper db = history env key lower upper db' := by
  have through : ∀ db : Db, historyRows env key lower upper db =
      historyRows env key lower upper
        { db with checkResult := db.checkResult.filter (CheckRow.since cut) } := by
    intro db
    unfold historyRows
    rw [List.filter_filter]
    apply List.filter_congr
    intro c _
    cases young : c.since cut with
    | true => rw [Bool.and_true]
    | false =>
      have old : ¬ (bindDatetime lower ≤ c.collectedAt ∧ c.collectedAt ≤ bindDatetime upper) :=
        fun window => of_decide_eq_false young (recent.trans window.1)
      rw [decide_eq_false old, Bool.and_false, Bool.and_false]
  unfold history
  rw [through, alike.checkResult, through db']
  rfl

/-- The checks of a report from the instant or after it are all recent. -/
theorem since_of_member {ledger : List Entry} (rep : Represents env ledger db) {e : Entry}
    (member : e ∈ ledger) (recent : cut ≤ e.storedAt) :
    db.checkResult.filter (fun c => env.weight c.reportId = e.key env) =
      (db.checkResult.filter (CheckRow.since cut)).filter
        (fun c => env.weight c.reportId = e.key env) := by
  rw [List.filter_filter]
  apply List.filter_congr
  intro c stored
  by_cases own : env.weight c.reportId = e.key env
  · rw [rep.checkResult] at stored
    obtain ⟨e', inLedger, inRows⟩ := List.mem_flatMap.mp stored
    have same : e' = e := by
      refine rep.eq_of_key inLedger member ?_
      rw [← own, checkRows_reportId inRows]
      rfl
    subst same
    have young : c.since cut = true := by
      refine decide_eq_true ?_
      rw [checkRows_collectedAt inRows]
      exact recent
    rw [young, Bool.and_true]
  · rw [decide_eq_false own, Bool.false_and]

/-- A row of an entry of the instant or after it has the same checks in both stores. -/
theorem checks_of_alike {ledger ledger' : List Entry} (rep : Represents env ledger db)
    (rep' : Represents env ledger' db') (alike : Alike cut db db') {r r' : ReportRow}
    (stored : r ∈ db.report) (stored' : r' ∈ db'.report) (same : r.bare = r'.bare)
    (recent : cut ≤ r.collectedAt) :
    db.checkResult.filter (fun c => env.weight c.reportId = r.key env) =
      db'.checkResult.filter (fun c => env.weight c.reportId = r.key env) := by
  rw [rep.report] at stored
  rw [rep'.report] at stored'
  obtain ⟨e, member, rfl⟩ := List.mem_map.mp stored
  obtain ⟨e', member', rfl⟩ := List.mem_map.mp stored'
  have key : e.key env = e'.key env :=
    congrArg (fun r : ReportRow => r.key env) same
  have sameInstant : e.storedAt = e'.storedAt := congrArg ReportRow.collectedAt same
  have recent' : cut ≤ e'.storedAt := by
    rw [← sameInstant]
    exact recent
  have own := since_of_member rep member recent
  have own' := since_of_member rep' member' recent'
  rw [← key] at own'
  show db.checkResult.filter (fun c => env.weight c.reportId = e.key env) = _
  rw [own, alike.checkResult, ← own']
  rfl

/-- A report from the instant or after it reads the same. -/
theorem reportDetail_of_alike {ledger ledger' : List Entry} (rep : Represents env ledger db)
    (rep' : Represents env ledger' db') (alike : Alike cut db db') {id : String}
    {detail : ReportDetail} (found : reportDetail env id db = some detail)
    (recent : cut ≤ detail.collectedAt) : reportDetail env id db' = some detail := by
  have looked : (db.report.find? (fun r => r.key env = env.weight id)).map ReportRow.bare =
      (db'.report.find? (fun r => r.key env = env.weight id)).map ReportRow.bare := by
    have through : ∀ rows : List ReportRow,
        (rows.find? (fun r => r.key env = env.weight id)).map ReportRow.bare =
          (rows.map ReportRow.bare).find? (fun r => r.key env = env.weight id) := by
      intro rows
      rw [List.find?_map]
      rfl
    rw [through, through, alike.report]
  unfold reportDetail at found ⊢
  cases here : db.report.find? (fun r => r.key env = env.weight id) with
  | none =>
    rw [here] at found
    cases found
  | some r =>
    rw [here] at found looked
    obtain rfl := Option.some.inj found
    obtain ⟨r', there, same⟩ := Option.map_eq_some_iff.mp looked.symm
    have key : r.key env = env.weight id := by simpa using List.find?_some here
    have checks := checks_of_alike rep rep' alike (List.mem_of_find?_eq_some here)
      (List.mem_of_find?_eq_some there) same.symm recent
    rw [key] at checks
    rw [there, checks]
    obtain ⟨id, source, collector, schemaVer, collectedAt, receivedAt, durationMs, intervalS, ok,
      nPass, nWarn, nFail, nSkip, raw⟩ := r
    obtain ⟨id', source', collector', schemaVer', collectedAt', receivedAt', durationMs', intervalS',
      ok', nPass', nWarn', nFail', nSkip', raw'⟩ := r'
    obtain ⟨rfl, rfl, rfl, rfl, rfl, rfl, rfl, rfl, rfl, rfl, rfl, rfl, rfl, -⟩ :=
      ReportRow.mk.inj same
    rfl

/-- The overview and the problems read the checks of the latest reports only. -/
theorem latestProblems_of_alike {ledger ledger' : List Entry} (rep : Represents env ledger db)
    (rep' : Represents env ledger' db') (alike : Alike cut db db')
    (recent : ∀ l ∈ db.latestReport, cut ≤ l.collectedAt) :
    latestProblems env db = latestProblems env db' := by
  have pointed : ∀ {ledger : List Entry} {db : Db}, Represents env ledger db →
      ∀ l ∈ db.latestReport, cut ≤ l.collectedAt →
      db.checkResult.filter (pointsAt env l) =
        (db.checkResult.filter (CheckRow.since cut)).filter (pointsAt env l) := by
    intro ledger db rep l inTable young
    obtain ⟨e, points⟩ := rep.latest.sound l inTable
    have key : env.weight l.reportId = e.key env := congrArg env.weight points.reportId
    have own := since_of_member rep points.member (points.collectedAt ▸ young)
    rw [← key] at own
    exact own
  rw [latestProblems_eq, latestProblems_eq, ← alike.latestReport]
  refine List.flatMap_congr fun l inTable => ?_
  have inTable' : l ∈ db'.latestReport := alike.latestReport ▸ inTable
  rw [pointed rep l inTable (recent l inTable), pointed rep' l inTable' (recent l inTable),
    alike.checkResult]

theorem overview_of_alike {ledger ledger' : List Entry} (rep : Represents env ledger db)
    (rep' : Represents env ledger' db') (alike : Alike cut db db')
    (recent : ∀ l ∈ db.latestReport, cut ≤ l.collectedAt) (now : Int) :
    overview env now db = overview env now db' := by
  have listed := latestProblems_of_alike rep rep' alike recent
  have reports : (latestReports env db).map ReportRow.bare =
      (latestReports env db').map ReportRow.bare := by
    have through : ∀ db : Db, (latestReports env db).map ReportRow.bare =
        db.latestReport.flatMap (fun l => (db.report.map ReportRow.bare).filter
          (fun r => r.key env = env.weight l.reportId)) := by
      intro db
      unfold latestReports innerJoin
      rw [List.map_flatMap, List.map_flatMap]
      refine List.flatMap_congr fun l _ => ?_
      rw [List.map_map, List.filter_map]
      simp only [List.map_map]
      rfl
    rw [through, through, alike.report, alike.latestReport]
  have counted : latestRow env now db = latestRow env now db' := by
    funext r
    unfold latestRow mutedCount mutedPairs
    rw [listed, alike.mute]
  have rows := map_of_bare (f := latestRow env now db) (fun _ => rfl) reports
  unfold overview
  rw [rows, counted]

theorem problems_of_alike {ledger ledger' : List Entry} (rep : Represents env ledger db)
    (rep' : Represents env ledger' db') (alike : Alike cut db db')
    (recent : ∀ l ∈ db.latestReport, cut ≤ l.collectedAt) (now : Int) :
    problems env now db = problems env now db' := by
  have rows : problemRows env db = problemRows env db' := by
    unfold problemRows
    rw [latestProblems_of_alike rep rep' alike recent, alike.problemSince]
  have mutes : listMutes now db = listMutes now db' := by
    unfold listMutes
    rw [alike.mute]
  have retirements : listRetirements db = listRetirements db' := by
    unfold listRetirements
    rw [alike.retirement]
  unfold problems ProblemRow.mute
  rw [rows, mutes, retirements, overview_of_alike rep rep' alike recent now]

/-! ## What nobody sees -/

/-- What a reader is told of two stores is the same, looking back no further than an instant. -/
structure Indistinguishable (env : Env) (cut : Int) (db db' : Db) : Prop where
  runs : ∀ source collector limit,
    listReports env source collector limit db = listReports env source collector limit db'
  history : ∀ key lower upper, cut ≤ bindDatetime lower →
    history env key lower upper db = history env key lower upper db'
  report : ∀ id detail, cut ≤ detail.collectedAt →
    (reportDetail env id db = some detail ↔ reportDetail env id db' = some detail)
  mutes : ∀ now, listMutes now db = listMutes now db'
  retirements : listRetirements db = listRetirements db'
  board : (∀ l ∈ db.latestReport, cut ≤ l.collectedAt) → ∀ now,
    overview env now db = overview env now db' ∧ problems env now db = problems env now db'

theorem Alike.symm (alike : Alike cut db db') : Alike cut db' db where
  report := alike.report.symm
  checkResult := alike.checkResult.symm
  latestReport := alike.latestReport.symm
  problemSince := alike.problemSince.symm
  mute := alike.mute.symm
  retirement := alike.retirement.symm

theorem indistinguishable_of_alike {ledger ledger' : List Entry} (rep : Represents env ledger db)
    (rep' : Represents env ledger' db') (alike : Alike cut db db') :
    Indistinguishable env cut db db' where
  runs := listReports_of_alike alike
  history := fun key lower upper recent => history_of_alike alike key recent upper
  report := fun id detail recent =>
    ⟨fun found => reportDetail_of_alike rep rep' alike found recent,
      fun found => reportDetail_of_alike rep' rep alike.symm found recent⟩
  mutes := fun now => by unfold listMutes; rw [alike.mute]
  retirements := by unfold listRetirements; rw [alike.retirement]
  board := fun recent now =>
    ⟨overview_of_alike rep rep' alike recent now, problems_of_alike rep rep' alike recent now⟩

end

/-! ## The service -/

section

variable {Host : Type} (app : AppState Host)

/-- No request sweeps. -/
theorem keepsChecks_of_request {request : Request} {sessions : List SessionRow} {op : Op}
    (writes : request.op app sessions = some op) : op.keepsChecks := by
  unfold Request.op at writes
  split at writes
  · obtain ⟨_, _, rfl⟩ := Option.map_eq_some_iff.mp writes
    trivial
  · obtain ⟨_, _, rfl⟩ := Option.map_eq_some_iff.mp writes
    trivial
  · obtain ⟨_, _, rfl⟩ := Option.map_eq_some_iff.mp writes
    trivial
  · obtain ⟨_, _, rfl⟩ := Option.map_eq_some_iff.mp writes
    trivial
  · obtain ⟨_, _, rfl⟩ := Option.map_eq_some_iff.mp writes
    trivial
  · cases writes

theorem cutoff_mono {now later days : Int} (le : now ≤ later) :
    cutoff now days ≤ cutoff later days :=
  bind_mono (by omega)

/-- An event takes no check that the retention period still covers at an instant after it. -/
theorem takes_of_event {p : Process} {e : Event} {t : Int} (before : e.now ≤ t) {op : Op}
    (writes : e.op app p = some op) {now rawDays checkDays : Int}
    (sweeps : op = .sweep now rawDays checkDays) {c : CheckRow}
    (stored : c ∈ p.server.store.db.checkResult) (old : c.collectedAt < cutoff now checkDays) :
    c.collectedAt < cutoff t app.cfg.checkRetentionDays := by
  subst sweeps
  cases e with
  | request r => exact absurd (keepsChecks_of_request app writes) not_false
  | retention at' tick =>
    cases tick with
    | swept =>
      obtain ⟨rfl, rfl, rfl⟩ := Op.sweep.inj (Option.some.inj writes)
      exact lt_of_lt_of_le old (cutoff_mono before)
    | clearedOnly =>
      obtain ⟨rfl, rfl, rfl⟩ := Op.sweep.inj (Option.some.inj writes)
      exact absurd old (not_lt.mpr (cutoff_daysBack_le stored))
    | failed => cases writes
  | sessionSweep _ => cases writes
  | selfcheck _ => cases writes
  | start _ _ reconciled => cases reconciled <;> cases writes

variable [DecidableEq Host]

theorem takesOld_opsAlong {t : Int} (events : List Event) (since : ∀ e ∈ events, e.now ≤ t)
    (p : Process) :
    TakesOld app.env (cutoff t app.cfg.checkRetentionDays) p.server.store.db
      (opsAlong app p events) := by
  induction events generalizing p with
  | nil => trivial
  | cons e rest ih =>
    have later := ih (fun other member => since other (List.mem_cons_of_mem _ member))
      (processStep app p e)
    rw [processStep_db] at later
    unfold opsAlong
    cases writes : e.op app p with
    | none =>
      rw [writes] at later
      exact later
    | some op =>
      rw [writes] at later
      refine ⟨?_, later⟩
      intro now rawDays checkDays sweeps c stored old
      exact takes_of_event app (since e List.mem_cons_self) writes sweeps stored old

/-- At any instant after a run of the service, what its sweeps took is not missed: every view
that looks back no further than the retention period is what the same writes would have left
without a sweep. -/
theorem retention_unseen {events : List Event} {t : Int} (since : ∀ e ∈ events, e.now ≤ t) :
    Indistinguishable app.env (cutoff t app.cfg.checkRetentionDays)
      (processAfter app events).server.store.db
      (Run.run (step app.env) Db.empty
        ((opsAlong app Process.initial events).filter Op.keepsChecks)) := by
  have takes : TakesOld app.env (cutoff t app.cfg.checkRetentionDays) Db.empty
      (opsAlong app Process.initial events) := takesOld_opsAlong app events since Process.initial
  rw [processAfter, run_db]
  exact indistinguishable_of_alike (represents_run app.env _) (represents_run app.env _)
    (alike_run _ (Alike.refl _ _) takes)

end

/-- A self-report of the first day, and a sweep over a year later. -/
def sampleYear : List Event :=
  [.selfcheck sampleSurroundings, .retention (402 * 86400 * second) .swept]

/-- The sweep takes all its checks, and the report is still listed. -/
theorem retention_unseen_sample :
    listReports sampleApp.env none none 10 (processAfter sampleApp sampleYear).server.store.db =
        listReports sampleApp.env none none 10 (Run.run (step sampleApp.env) Db.empty
          ((opsAlong sampleApp Process.initial sampleYear).filter Op.keepsChecks)) ∧
      (processAfter sampleApp sampleYear).server.store.db.checkResult = [] ∧
      (Run.run (step sampleApp.env) Db.empty
        ((opsAlong sampleApp Process.initial sampleYear).filter Op.keepsChecks)).checkResult ≠ [] :=
  ⟨(@retention_unseen _ sampleApp _ sampleYear (402 * 86400 * second) (by decide)).runs none none 10,
    by decide +kernel, by decide +kernel⟩

end Fleetwatch
