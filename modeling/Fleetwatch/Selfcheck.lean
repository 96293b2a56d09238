import Fleetwatch.Report.Ingest
import Fleetwatch.Report.Views

/-!
# The self-report

The service reporting on itself, as one more producer (`src/selfcheck.rs`): how
many pool connections are in use, how late each producer's newest report arrived,
whether labels hold still, what the last sweep cleared and what boot cost. A check's
`f64` value is stored and never compared; the two comparisons the source makes in
`f64` are made here on the integers they are about, which is exact for counts below
`2^51`.
-/

namespace Fleetwatch.Selfcheck

open Query Sql

/-- The pool's ceiling (`src/db.rs`). -/
def MAX_CONNECTIONS : UInt32 := 8

/-- The producer the service reports as. -/
def SOURCE : String := "fleetwatch"
def COLLECTOR : String := "internals"

/-- Every 15 minutes, in seconds. -/
def INTERVAL : UInt64 := 900

/-- What the last retention sweep did. -/
structure Sweep where
  sweptAt : Int
  rawCleared : UInt64
  checksDeleted : UInt64

/-- Costs measured during startup. -/
structure Boot where
  migrateMs : UInt64
  reconcileMs : UInt64

/-! ## The judgements -/

def check (sect label : String) (verdict : Verdict) (observed : String) : CheckUpload :=
  { sect := sect
    label := label
    subject := none
    verdict := verdict
    observed := some observed
    expected := none
    value := none
    unit := none
    docRef := none
    detail := none }

def valued (c : CheckUpload) (value : Float) (unit : String) : CheckUpload :=
  { c with value := some ⟨value.toBits⟩, unit := some unit }

/-- `size.saturating_sub(idle as u32)`: the connections in use among those the pool
has opened. -/
def inUse (size : UInt32) (idle : UInt64) : UInt32 :=
  if size < idle.toUInt32 then 0 else size - idle.toUInt32

/-- Pool utilisation; three quarters of the ceiling is worth a warning. -/
def poolCheck (size : UInt32) (idle : UInt64) : CheckUpload :=
  let inUse := inUse size idle
  let verdict : Verdict :=
    if inUse ≥ MAX_CONNECTIONS then .fail
    else if 4 * inUse.toNat ≥ 3 * MAX_CONNECTIONS.toNat then .warn
    else .pass
  valued
    (check "pool" "connections in use" verdict
      s!"{inUse} of {MAX_CONNECTIONS} in use, {idle} idle, {size} open")
    inUse.toFloat "connections"

/-- The verdict of `lag_check`: a report may take as long to arrive as its producer's
collection period, read as an `i64`. -/
def lagVerdict (lagS : Int64) : Option UInt64 → Verdict
  | some i => if lagS > i.toInt64 then .warn else .pass
  | none => .pass

/-- How a lag row names its producer. -/
def lagLabel (source collector : String) : String := s!"{source} · {collector}"

/-- One check for each producer: how long its newest report took to arrive. -/
def lagCheck (source collector : String) (lagS : Int64) (intervalS : Option UInt64) :
    CheckUpload :=
  let expectation := match intervalS with
    | some i => s!", its collection period is {i}s"
    | none => ", no declared interval"
  valued
    (check "ingest lag" (lagLabel source collector) (lagVerdict lagS intervalS)
      s!"newest report arrived {lagS}s after it was collected{expectation}")
    lagS.toFloat "s"

/-- Did the daily sweep run, and what did it clear? An hour of jitter is allowed. -/
def retentionCheck (sweep : Option Sweep) (now : Int) : CheckUpload :=
  match sweep with
  | none =>
    check "retention" "last sweep" .skip "no sweep has completed since this pod started"
  | some s =>
    let ageS := numSeconds (now - s.sweptAt)
    valued
      (check "retention" "last sweep" (if ageS > 25 * 3600 then .fail else .pass)
        s!"{ageS / 3600}h ago: cleared {s.rawCleared} raw payload(s), deleted {s.checksDeleted} old check(s)")
      ageS.toFloat "s"

/-- What boot cost, reported and not judged. -/
def bootChecks (boot : Boot) : List CheckUpload :=
  [ valued (check "boot" "migrations" .pass s!"{boot.migrateMs}ms to apply")
      boot.migrateMs.toFloat "ms",
    valued (check "boot" "latest_report reconcile" .pass s!"{boot.reconcileMs}ms")
      boot.reconcileMs.toFloat "ms" ]

/-- How many labels a section showed over the window, beside how many checks its
newest report has. -/
structure Churn where
  source : String
  collector : String
  sect : String
  seen : Nat
  now : Nat

/-- The window a section's labels are counted over. -/
def CHURN_WINDOW_DAYS : UInt32 := 3

/-- More than two and a half labels for each check of the newest report. -/
def Churn.churning (c : Churn) : Bool := c.now > 0 ∧ 2 * c.seen > 5 * c.now

def churnText (c : Churn) : String :=
  s!"{c.source} · {c.collector} · {c.sect}: {c.seen} labels for {c.now} checks"

/-- Do labels hold still? -/
def churnCheck (sections : List Churn) : CheckUpload :=
  let churning := sections.filter Churn.churning
  let observed :=
    if churning.isEmpty then
      s!"no section showed more than 2.5× its checks in {CHURN_WINDOW_DAYS} days"
    else "; ".intercalate (churning.map churnText)
  valued
    (check "labels" "labels hold still" (if churning.isEmpty then .pass else .warn) observed)
    (Float.ofNat churning.length) "sections"

/-! ## The queries -/

/-- `GROUP BY`: each group's rows, named by one of them. -/
def groupBy {α κ : Type} [DecidableEq κ] (key : α → κ) (rows : List α) : List (α × List α) :=
  (rows.pwFilter (fun left right => key left ≠ key right)).map
    (fun row => (row, rows.filter (fun other => key other = key row)))

section

variable (env : Env)

def sectionKey (source collector sect : String) : List Nat × List Nat × List Nat :=
  (env.weight source, env.weight collector, env.weight sect)

/-- The subquery `w`: the labels each section showed in the reports received since the
window opened; `serverNow` is what `NOW()` reads on the database server. -/
def seenLabels (serverNow : Int) (db : Db) : List ((ReportRow × CheckRow) × Nat) :=
  let opened := datetime0 serverNow - CHURN_WINDOW_DAYS.toNat * 86400 * second
  let joined := (innerJoin (fun (r : ReportRow) (cr : CheckRow) =>
    decide (env.weight cr.reportId = r.key env)) db.report db.checkResult).filter
      (fun (r, _) => decide (opened ≤ r.receivedAt))
  (groupBy (fun (r, cr) => sectionKey env r.source r.collector cr.sect) joined).map
    (fun (named, rows) => (named, (rows.map (fun (_, cr) => env.weight cr.label)).dedup.length))

/-- The subquery `l`: the checks of each section in its producer's newest report. -/
def newestChecks (db : Db) : List (CheckRow × Nat) :=
  let joined := (innerJoin (pointsAt env) db.latestReport db.checkResult).map Prod.snd
  (groupBy (fun cr => sectionKey env cr.source cr.collector cr.sect) joined).map
    (fun (named, rows) => (named, rows.length))

/-- `churns`. -/
def churns (serverNow : Int) (db : Db) : List Churn :=
  let rows := innerJoin (fun (w : (ReportRow × CheckRow) × Nat) (l : CheckRow × Nat) =>
    decide (sectionKey env l.1.source l.1.collector l.1.sect =
      sectionKey env w.1.1.source w.1.1.collector w.1.2.sect))
    (seenLabels env serverNow db) (newestChecks env db)
  (orderBy (fun (w, _) => toLex (env.weight w.1.1.source,
      toLex (env.weight w.1.1.collector, env.weight w.1.2.sect))) rows).map
    (fun (w, l) =>
      { source := w.1.1.source, collector := w.1.1.collector, sect := w.1.2.sect,
        seen := w.2, now := l.2 })

/-- One row of the lag query. -/
structure LagRow where
  source : String
  collector : String
  lagS : Int64
  intervalS : Option UInt64

/-- `TIMESTAMPDIFF(SECOND, r.collected_at, r.received_at)` of a latest report. -/
def lagRow (r : ReportRow) : LagRow :=
  { source := r.source
    collector := r.collector
    lagS := numSeconds (r.receivedAt - r.collectedAt)
    intervalS := r.intervalS }

/-- `lags`: one row for each pointer, by name. -/
def lags (db : Db) : List LagRow :=
  (orderBy (fun r : ReportRow => toLex (env.weight r.source, env.weight r.collector))
    (latestReports env db)).map lagRow

end

/-! ## The report -/

/-- What `build` reads outside the database: the pool's counters, boot's costs, the last
sweep, the clocks of the process and of the database server, the ULID it generates and
how long it took. -/
structure Surroundings where
  size : UInt32
  numIdle : UInt64
  boot : Boot
  sweep : Option Sweep
  now : Int
  serverNow : Int
  id : String
  elapsedMs : UInt64

/-- The service's own row, which `build` leaves out. -/
def LagRow.own (row : LagRow) : Bool := row.source = SOURCE ∧ row.collector = COLLECTOR

/-- The loop over the lags. -/
def lagChecks (rows : List LagRow) : List CheckUpload :=
  (rows.filter (fun row => !row.own)).map
    (fun row => lagCheck row.source row.collector row.lagS row.intervalS)

/-- `build`. -/
def build (env : Env) (s : Surroundings) (db : Db) : ReportUpload :=
  { schema := SCHEMA
    id := s.id
    collector := COLLECTOR
    collectedAt := s.now
    durationMs := some s.elapsedMs
    intervalS := some INTERVAL
    checks := [poolCheck s.size s.numIdle] ++ lagChecks (lags env db) ++
      [churnCheck (churns env s.serverNow db), retentionCheck s.sweep s.now] ++
      bootChecks s.boot }

/-- The call of `ingest` that `run_once` makes with it. -/
def runOnceCall (env : Env) (s : Surroundings) (db : Db) : IngestCall :=
  { source := SOURCE
    upload := build env s db
    raw := "\x7b\"note\":\"generated in-process by selfcheck\"\x7d"
    now := s.now }

end Fleetwatch.Selfcheck
