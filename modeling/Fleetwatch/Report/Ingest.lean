import Fleetwatch.Lib.Text
import Fleetwatch.Schema

/-!
# Ingest

`ingest` of `src/report/repo.rs`: one upload is validated, then written in one
transaction. The statements run in the source's order on the six tables; an error
anywhere drops the transaction, so the caller's database is what it was.
-/

namespace Fleetwatch

open Sql Table Text

/-- One call of `ingest`: the source its token stands for, the upload, the request
body it was parsed from, and the server's clock. -/
structure IngestCall where
  source : String
  upload : ReportUpload
  raw : String
  now : Int
  deriving DecidableEq, Repr

/-! ## Validation -/

/-- The longest section or label, in bytes, that validation admits. -/
def MAX_IDENTITY_BYTES : Nat := 255

/-- One round of the inner loop over `("section", …)` and `("label", …)`. -/
def validateWidth (i : Nat) (field value : String) : Except AppError Unit :=
  if value.utf8ByteSize > MAX_IDENTITY_BYTES then
    .error (.unprocessable s!"check #{i}: {field} exceeds 255 bytes ({value.utf8ByteSize} bytes — run-varying data belongs in observed/value, not the identity)")
  else .ok ()

def validateCheck (i : Nat) (c : CheckUpload) : Except AppError Unit := do
  if trim c.label = "" then
    .error (.unprocessable s!"check #{i}: label must not be empty")
  validateWidth i "section" c.sect
  validateWidth i "label" c.label

/-- The loop over the checks, from index `i`. -/
def validateChecks : Nat → List CheckUpload → Except AppError Unit
  | _, [] => .ok ()
  | i, c :: rest => do
    validateCheck i c
    validateChecks (i + 1) rest

def validate (env : Env) (upload : ReportUpload) : Except AppError Unit := do
  if upload.schema ≠ SCHEMA then
    .error (.unprocessable
      s!"unsupported schema version {upload.schema} (this fleetwatch accepts {SCHEMA})")
  if env.ulidFromString upload.id = false then
    .error (.unprocessable s!"id {env.debugStr upload.id} is not a valid ULID")
  if trim upload.collector = "" then
    .error (.unprocessable "collector must not be empty")
  validateChecks 0 upload.checks

/-! ## The rows of a report -/

/-- The counters `n_pass`, `n_warn`, `n_fail` and `n_skip`. -/
structure Counts where
  pass : Nat
  warn : Nat
  fail : Nat
  skip : Nat
  deriving DecidableEq, Repr

/-- One round of the counting loop. -/
def Counts.add (counts : Counts) : Verdict → Counts
  | .pass => { counts with pass := counts.pass + 1 }
  | .warn => { counts with warn := counts.warn + 1 }
  | .fail => { counts with fail := counts.fail + 1 }
  | .skip => { counts with skip := counts.skip + 1 }

def tally (checks : List CheckUpload) : Counts :=
  checks.foldl (fun counts c => counts.add c.verdict) ⟨0, 0, 0, 0⟩

/-- The row `INSERT IGNORE INTO report` writes. `IGNORE` turns a value that does
not fit into a warning and stores what does; `raw` is `LONGTEXT`, which no body
exceeds. -/
def insertedReport (call : IngestCall) : ReportRow :=
  let upload := call.upload
  let counts := tally upload.checks
  { id := cut ID_WIDTH upload.id
    source := cut SOURCE_WIDTH call.source
    collector := cut COLLECTOR_WIDTH upload.collector
    schemaVer := upload.schema
    collectedAt := datetime3Ignore upload.collectedAt
    receivedAt := datetime3 call.now
    durationMs := upload.durationMs
    intervalS := upload.intervalS
    ok := counts.fail == 0
    nPass := counts.pass
    nWarn := counts.warn
    nFail := counts.fail
    nSkip := counts.skip
    raw := some call.raw }

/-- The row `insert_check` writes for the check at position `seq`. -/
def checkRow (call : IngestCall) (seq : Nat) (c : CheckUpload) : CheckRow :=
  { reportId := call.upload.id
    seq := seq
    source := call.source
    collector := call.upload.collector
    collectedAt := datetime3 call.upload.collectedAt
    sect := c.sect
    label := c.label
    subject := c.subject
    verdict := c.verdict
    observed := c.observed
    expected := c.expected
    value := c.value
    unit := c.unit
    docRef := c.docRef
    detail := c.detail }

/-- `insert_check`: a plain `INSERT`, refused when a value does not fit its column. -/
def insertCheck (call : IngestCall) (seq : Nat) (c : CheckUpload) (table : List CheckRow) :
    Except AppError (List CheckRow) := do
  requireFit "report_id" (fitsChars ID_WIDTH call.upload.id)
  requireFit "source" (fitsChars SOURCE_WIDTH call.source)
  requireFit "collector" (fitsChars COLLECTOR_WIDTH call.upload.collector)
  requireDatetime "collected_at" call.upload.collectedAt
  requireFit "section" (fitsChars SECTION_WIDTH c.sect)
  requireFit "label" (fitsChars LABEL_WIDTH c.label)
  requireFit "subject" (fitsNullable (fitsChars SUBJECT_WIDTH) c.subject)
  requireFit "observed" (fitsNullable fitsText c.observed)
  requireFit "expected" (fitsNullable fitsText c.expected)
  requireFit "unit" (fitsNullable (fitsChars UNIT_WIDTH) c.unit)
  requireFit "doc_ref" (fitsNullable (fitsChars DOC_REF_WIDTH) c.docRef)
  requireFit "detail" (fitsNullable fitsText c.detail)
  return table ++ [checkRow call seq c]

/-- The loop that inserts the checks, from position `seq`. -/
def insertChecks (call : IngestCall) :
    Nat → List CheckUpload → List CheckRow → Except AppError (List CheckRow)
  | _, [], table => .ok table
  | seq, c :: rest, table => do
    let table ← insertCheck call seq c table
    insertChecks call (seq + 1) rest table

/-! ## The pointer to the latest report -/

/-- The `ON DUPLICATE KEY UPDATE` of `latest_report`. Both comparisons read the
bound instant with its microseconds, and `report_id` is assigned first, so each
reads the old `collected_at`. -/
def advancePointer (env : Env) (id : String) (collected : Int) (row : LatestReportRow) :
    LatestReportRow :=
  let bound := bindDatetime collected
  let reportId :=
    if row.collectedAt < bound ∨
        (bound = row.collectedAt ∧ env.weight row.reportId < env.weight id) then id
    else row.reportId
  let collectedAt := if row.collectedAt < bound then datetime3 bound else row.collectedAt
  { row with reportId := reportId, collectedAt := collectedAt }

/-- The `VALUES` of the `latest_report` upsert. -/
def pointerRow (call : IngestCall) : LatestReportRow :=
  { source := call.source
    collector := call.upload.collector
    reportId := call.upload.id
    collectedAt := datetime3 call.upload.collectedAt }

def upsertLatestReport (env : Env) (call : IngestCall) (table : List LatestReportRow) :
    Except AppError (List LatestReportRow) := do
  requireFit "source" (fitsChars SOURCE_WIDTH call.source)
  requireFit "collector" (fitsChars COLLECTOR_WIDTH call.upload.collector)
  requireFit "report_id" (fitsChars ID_WIDTH call.upload.id)
  requireDatetime "collected_at" call.upload.collectedAt
  return upsert (LatestReportRow.key env) (pointerRow call)
    (advancePointer env call.upload.id call.upload.collectedAt) table

/-- `is_latest`: does the producer's pointer name this very report? -/
def isLatest (env : Env) (call : IngestCall) (latestReport : List LatestReportRow) : Bool :=
  let producer := producerKey env call.source call.upload.collector
  (latestReport.find? (fun row => row.key env = producer)).map (·.reportId) = some call.upload.id

/-! ## Failing runs -/

/-- The row `INSERT IGNORE INTO problem_since` writes. -/
def problemSinceRow (call : IngestCall) (c : CheckUpload) : ProblemSinceRow :=
  { source := cut SOURCE_WIDTH call.source
    collector := cut COLLECTOR_WIDTH call.upload.collector
    label := cut LABEL_WIDTH c.label
    firstSeen := datetime3Ignore call.upload.collectedAt }

/-- The loop that opens a run for each failing check; a run already open keeps its
start. -/
def openRuns (env : Env) (call : IngestCall) (table : List ProblemSinceRow) :
    List ProblemSinceRow :=
  call.upload.checks.foldl (fun table c =>
    if c.verdict.isProblem then
      (insertIgnore (ProblemSinceRow.key env) (problemSinceRow call c) table).1
    else table) table

/-- The labels the upload shows failing. -/
def failing (upload : ReportUpload) : List String :=
  (upload.checks.filter (fun c => c.verdict.isProblem)).map (·.label)

/-- `DELETE FROM problem_since`: every run of the producer the report does not show
failing has ended. Without a failing label there is no `NOT IN`. -/
def endRuns (env : Env) (call : IngestCall) (table : List ProblemSinceRow) :
    List ProblemSinceRow :=
  let labels := failing call.upload
  deleteWhere (fun row =>
    decide (producerKey env row.source row.collector =
      producerKey env call.source call.upload.collector) &&
    (labels.isEmpty || labels.all (fun label => env.weight row.label ≠ env.weight label))) table

/-! ## The transaction -/

def ingestTx (env : Env) (call : IngestCall) (db : Db) : Except AppError (IngestAck × Db) := do
  validate env call.upload
  let (report, rowsAffected) :=
    insertIgnore (ReportRow.key env) (insertedReport call) db.report
  if rowsAffected = 0 then
    return ({ id := call.upload.id, duplicate := true, checks := 0 }, db)
  let checkResult ← insertChecks call 0 call.upload.checks db.checkResult
  let latestReport ← upsertLatestReport env call db.latestReport
  let problemSince :=
    if isLatest env call latestReport then endRuns env call (openRuns env call db.problemSince)
    else db.problemSince
  return ({ id := call.upload.id, duplicate := false, checks := call.upload.checks.length },
    { db with
      report := report
      checkResult := checkResult
      latestReport := latestReport
      problemSince := problemSince })

/-- `ingest`: the acknowledgement or the error, and the database afterwards. -/
def ingest (env : Env) (call : IngestCall) (db : Db) : Except AppError IngestAck × Db :=
  match ingestTx env call db with
  | .ok (ack, committed) => (.ok ack, committed)
  | .error err => (.error err, db)

end Fleetwatch
