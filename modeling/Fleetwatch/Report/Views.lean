import Fleetwatch.Lib.Ranking
import Fleetwatch.Report.Overlays
import Fleetwatch.Report.Staleness
import Mathlib.Data.Prod.Lex

/-!
# The read queries

`overview`, `problems`, `report_detail` and the repair path
`rebuild_latest_report` of `src/report/repo.rs`. A view reads the clock more than
once in the source; here one instant `now` stands for all of them. `ORDER BY`
leaves rows it ties in the order the joins found them.
-/

namespace Fleetwatch

open Query Ranking Sql Table

/-! ## The overview -/

/-- `LatestRow`: what the overview query returns for one producer. -/
structure LatestRow where
  id : String
  source : String
  collector : String
  collectedAt : Int
  intervalS : Option UInt64
  nPass : Nat
  nWarn : Nat
  nFail : Nat
  nSkip : Nat
  mutedFail : Nat
  mutedWarn : Nat
  deriving DecidableEq, Repr

section

variable (env : Env)

/-- `c.report_id = l.report_id`. -/
def pointsAt (l : LatestReportRow) (c : CheckRow) : Bool :=
  env.weight c.reportId = env.weight l.reportId

/-- `JOIN check_result c ON c.report_id = l.report_id WHERE c.verdict IN ('fail',
'warn')`. -/
def latestProblems (db : Db) : List CheckRow :=
  ((innerJoin (pointsAt env) db.latestReport db.checkResult).map Prod.snd).filter
    (fun c => c.verdict.isProblem)

/-- `mu.source = c.source AND mu.collector = c.collector AND mu.label = c.label AND
mu.expires_at > ?`. -/
def mutedBy (now : Int) (c : CheckRow) (mu : MuteRow) : Bool :=
  mu.identity env = c.identity env && mu.live now

/-- The rows the muted-count aggregate sums over: one for each pair of a problem and a
mute that covers it. -/
def mutedPairs (now : Int) (db : Db) : List (CheckRow × MuteRow) :=
  innerJoin (mutedBy env now) (latestProblems env db) db.mute

/-- `COALESCE(SUM(c.verdict = …), 0)` of the group `c.report_id = id`. -/
def mutedCount (now : Int) (db : Db) (id : String) (verdict : Verdict) : Nat :=
  ((mutedPairs env now db).filter (fun (c, _) =>
    env.weight c.reportId = env.weight id ∧ c.verdict = verdict)).length

def latestRow (now : Int) (db : Db) (r : ReportRow) : LatestRow :=
  { id := r.id
    source := r.source
    collector := r.collector
    collectedAt := r.collectedAt
    intervalS := r.intervalS
    nPass := r.nPass
    nWarn := r.nWarn
    nFail := r.nFail
    nSkip := r.nSkip
    mutedFail := mutedCount env now db r.id .fail
    mutedWarn := mutedCount env now db r.id .warn }

/-- `JOIN report r ON r.id = l.report_id`. -/
def latestReports (db : Db) : List ReportRow :=
  (innerJoin (fun (l : LatestReportRow) (r : ReportRow) =>
    decide (r.key env = env.weight l.reportId)) db.latestReport db.report).map Prod.snd

end

def worstOf (nFail nWarn nPass : Nat) : Verdict :=
  if nFail > 0 then .fail
  else if nWarn > 0 then .warn
  else if nPass > 0 then .pass
  else .skip

/-- `overview_entry`: the muted checks are carved out of the live counts. -/
def overviewEntry (now : Int) (r : LatestRow) : OverviewEntry :=
  let ageS := numSeconds (now - r.collectedAt)
  let liveFail := r.nFail - r.mutedFail
  let liveWarn := r.nWarn - r.mutedWarn
  { source := r.source
    collector := r.collector
    reportId := r.id
    collectedAt := r.collectedAt
    ageS := ageS
    intervalS := r.intervalS
    freshness := freshness ageS r.intervalS
    worst := worstOf liveFail liveWarn r.nPass
    pass := r.nPass
    warn := liveWarn
    fail := liveFail
    skip := r.nSkip
    muted := r.mutedFail + r.mutedWarn
    total := r.nPass + r.nWarn + r.nFail + r.nSkip }

/-- `overview`: one tile for each producer, by name. -/
def overview (env : Env) (now : Int) (db : Db) : List OverviewEntry :=
  let rows := (latestReports env db).map (latestRow env now db)
  (orderBy (fun r => toLex (env.weight r.source, env.weight r.collector)) rows).map
    (overviewEntry now)

/-! ## The problems view -/

/-- `ProblemRow`: a failing or warning check of a latest report with the start of its
run. -/
structure ProblemRow where
  check : CheckRow
  firstSeen : Option Int
  deriving DecidableEq, Repr

/-- `FIELD(c.verdict, 'fail', 'warn')`. -/
def fieldOfVerdict : Verdict → Nat
  | .fail => 1
  | .warn => 2
  | .pass | .skip => 0

/-- The problems query's `ORDER BY`. -/
def problemOrder (env : Env) (r : ProblemRow) :
    Nat ×ₗ List Nat ×ₗ List Nat ×ₗ List Nat ×ₗ Nat :=
  let c := r.check
  toLex (fieldOfVerdict c.verdict, toLex (env.weight c.source, toLex (env.weight c.collector,
    toLex (env.weight c.sect, c.seq))))

/-- The `LEFT JOIN problem_since`. -/
def sinceOf (env : Env) (c : CheckRow) (s : ProblemSinceRow) : Bool :=
  s.key env = c.identity env

def problemRows (env : Env) (db : Db) : List ProblemRow :=
  orderBy (problemOrder env)
    ((leftJoin (sinceOf env) (latestProblems env db) db.problemSince).map
      (fun (c, s) => { check := c, firstSeen := s.map (·.firstSeen) }))

/-- `by_id`: the live mutes keyed by identity, byte for byte; of several the one that
expires latest. -/
def byId (mutes : List Mute) : String × String × String → Option Mute :=
  keepGreatest (fun m => (m.source, m.collector, m.label)) (fun m => m.expiresAt) mutes

/-- The mute that covers a row of the problems view. -/
def ProblemRow.mute (now : Int) (db : Db) (r : ProblemRow) : Option Mute :=
  byId (listMutes now db) (r.check.source, r.check.collector, r.check.label)

def mutedCheck (r : ProblemRow) (m : Mute) : MutedCheck :=
  let c := r.check
  { source := c.source
    collector := c.collector
    reportId := c.reportId
    sect := c.sect
    label := c.label
    subject := c.subject
    verdict := c.verdict
    observed := c.observed
    docRef := c.docRef
    detail := c.detail
    collectedAt := c.collectedAt
    muteId := m.id
    reason := m.reason
    expiresAt := m.expiresAt }

/-- `first_seen.is_none_or(|t| t < collected_at)`. -/
def confirmed (r : ProblemRow) : Bool :=
  match r.firstSeen with
  | none => true
  | some t => t < r.check.collectedAt

def problemCheck (r : ProblemRow) : ProblemCheck :=
  let c := r.check
  { source := c.source
    collector := c.collector
    reportId := c.reportId
    sect := c.sect
    label := c.label
    subject := c.subject
    verdict := c.verdict
    observed := c.observed
    expected := c.expected
    docRef := c.docRef
    detail := c.detail
    collectedAt := c.collectedAt
    firstSeen := r.firstSeen
    confirmed := confirmed r }

/-- `retired`: the retirements keyed by producer, byte for byte. Collecting into a map
keeps the last of a key. -/
def retired (retirements : List Retirement) (source collector : String) : Option Retirement :=
  (retirements.filter (fun r => r.source = source ∧ r.collector = collector)).getLast?

/-- Does the overview entry go to `stale`? -/
def isStale (retirements : List Retirement) (e : OverviewEntry) : Bool :=
  match retired retirements e.source e.collector with
  | some _ => false
  | none => e.freshness ≠ .fresh

/-- Does the overview entry go to `returned`? -/
def hasReturned (retirements : List Retirement) (e : OverviewEntry) : Bool :=
  match retired retirements e.source e.collector with
  | some r => r.retiredAt < e.collectedAt
  | none => false

/-- `problems`. Each loop sends an item to one of two lists by a `match`; here each list
is what that match sends to it. -/
def problems (env : Env) (now : Int) (db : Db) : Problems :=
  let rows := problemRows env db
  let mutes := listMutes now db
  let retirements := listRetirements db
  { checks := (rows.filter (fun r => (r.mute now db).isNone)).map problemCheck
    muted := rows.filterMap (fun r => (r.mute now db).map (mutedCheck r))
    stale := (overview env now db).filter (isStale retirements)
    lapsing := mutes.filter (fun m => isLapsing m now)
    returned := (overview env now db).filter (hasReturned retirements) }

/-! ## One report -/

def CheckRow.toOut (c : CheckRow) : CheckOut :=
  { sect := c.sect
    label := c.label
    subject := c.subject
    verdict := c.verdict
    observed := c.observed
    expected := c.expected
    value := c.value
    unit := c.unit
    docRef := c.docRef
    detail := c.detail }

/-- `report_detail`: one report with its checks in report order, or nothing. -/
def reportDetail (env : Env) (id : String) (db : Db) : Option ReportDetail :=
  match db.report.find? (fun r => r.key env = env.weight id) with
  | none => none
  | some r =>
    let checks := orderBy CheckRow.seq
      (db.checkResult.filter (fun c => env.weight c.reportId = env.weight id))
    some
      { id := r.id
        source := r.source
        collector := r.collector
        schema := r.schemaVer
        collectedAt := r.collectedAt
        receivedAt := r.receivedAt
        durationMs := r.durationMs
        intervalS := r.intervalS
        ok := r.ok
        checks := checks.map CheckRow.toOut }

/-! ## The runs list and a check's history -/

def ReportRow.toSummary (r : ReportRow) : ReportSummary :=
  { id := r.id
    source := r.source
    collector := r.collector
    collectedAt := r.collectedAt
    durationMs := r.durationMs
    ok := r.ok
    pass := r.nPass
    warn := r.nWarn
    fail := r.nFail
    skip := r.nSkip
    total := r.nPass + r.nWarn + r.nFail + r.nSkip }

/-- `? IS NULL OR column = ?`. -/
def matchesFilter (env : Env) (wanted : Option String) (column : String) : Bool :=
  match wanted with
  | none => true
  | some value => env.weight column = env.weight value

/-- `list_reports`: the reports, newest first. -/
def listReports (env : Env) (source collector : Option String) (limit : UInt32) (db : Db) :
    List ReportSummary :=
  let rows := db.report.filter (fun r =>
    matchesFilter env source r.source && matchesFilter env collector r.collector)
  ((orderBy (fun r => OrderDual.toDual (toLex (r.collectedAt, r.key env))) rows).take
    limit.toNat).map ReportRow.toSummary

/-- The rows of `check_result` the history query selects. -/
def historyRows (env : Env) (key : CheckKey) (lower upper : Int) (db : Db) : List CheckRow :=
  db.checkResult.filter (fun c => env.weight c.source = env.weight key.source &&
    env.weight c.collector = env.weight key.collector && env.weight c.sect = env.weight key.sect &&
    env.weight c.label = env.weight key.label &&
    decide (bindDatetime lower ≤ c.collectedAt ∧ c.collectedAt ≤ bindDatetime upper))

/-- What `history` makes of the rows it is given: the unit is the last one there is. -/
def historyOf (key : CheckKey) (rows : List CheckRow) : History :=
  { source := key.source
    collector := key.collector
    sect := key.sect
    label := key.label
    unit := rows.reverse.findSome? CheckRow.unit
    points := rows.map (fun c =>
      { collectedAt := c.collectedAt, verdict := c.verdict, value := c.value }) }

/-- `history`: one check between two instants, oldest first. -/
def history (env : Env) (key : CheckKey) (lower upper : Int) (db : Db) : History :=
  historyOf key (orderBy CheckRow.collectedAt (historyRows env key lower upper db))

/-! ## The repair path -/

/-- `ORDER BY collected_at DESC, id DESC`: the window ranks by the stored instant, then
the id. -/
def reportRank (env : Env) (r : ReportRow) : Int ×ₗ List Nat := toLex (r.collectedAt, r.key env)

/-- `latest_rn!`, `rn = 1`: the first of each producer's reports. -/
def topRanked (env : Env) (db : Db) : List ReportRow :=
  leaders (ReportRow.producer env) (reportRank env) db.report

/-- The row the window gives a producer whose first report is `r`. -/
def ReportRow.toPointer (r : ReportRow) : LatestReportRow :=
  { source := r.source, collector := r.collector, reportId := r.id, collectedAt := r.collectedAt }

/-- One row of the `INSERT … SELECT … ON DUPLICATE KEY UPDATE`. -/
def repoint (env : Env) (table : List LatestReportRow) (r : ReportRow) : List LatestReportRow :=
  upsert (LatestReportRow.key env) r.toPointer
    (fun row => { row with reportId := r.id, collectedAt := r.collectedAt }) table

/-- `rebuild_latest_report`, without the row count it reports to its caller. -/
def rebuildLatestReport (env : Env) (db : Db) : Db :=
  { db with latestReport := (topRanked env db).foldl (repoint env) db.latestReport }

end Fleetwatch
