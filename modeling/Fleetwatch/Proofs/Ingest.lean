import Fleetwatch.Report.Ingest

/-!
# What one ingest does

`ingest` has three outcomes: it fails and writes nothing, it recognises a replay
and writes nothing, or it stores the report. `ingest_outcome` says so once, with
everything each outcome guarantees; the proofs about runs start from it and never
unfold the transaction.
-/

namespace Fleetwatch

open Sql Table Text

/-! ## Validation -/

structure AdmittedCheck (c : CheckUpload) : Prop where
  label_visible : trim c.label ≠ ""
  section_bytes : c.sect.utf8ByteSize ≤ MAX_IDENTITY_BYTES
  label_bytes : c.label.utf8ByteSize ≤ MAX_IDENTITY_BYTES

/-- What validation checks, as one statement. -/
structure Admitted (env : Env) (upload : ReportUpload) : Prop where
  schema : upload.schema = SCHEMA
  ulid : env.ulidFromString upload.id = true
  collector_visible : trim upload.collector ≠ ""
  checks : ∀ c ∈ upload.checks, AdmittedCheck c

theorem validateWidth_eq_ok {i : Nat} {field value : String} {out : Unit} :
    validateWidth i field value = .ok out ↔ value.utf8ByteSize ≤ MAX_IDENTITY_BYTES := by
  unfold validateWidth
  split
  · rename_i long
    simp only [reduceCtorEq, false_iff, Nat.not_le]
    exact long
  · rename_i short
    simp only [true_iff]
    exact Nat.not_lt.mp short

theorem validateCheck_eq_ok {i : Nat} {c : CheckUpload} {out : Unit} :
    validateCheck i c = .ok out ↔ AdmittedCheck c := by
  unfold validateCheck
  split
  · rename_i blank
    constructor
    · intro h
      cases h
    · intro admitted
      exact absurd blank admitted.label_visible
  · rename_i visible
    simp only [bind_eq_ok, validateWidth_eq_ok]
    constructor
    · rintro ⟨_, section_bytes, label_bytes⟩
      exact ⟨visible, section_bytes, label_bytes⟩
    · intro admitted
      exact ⟨(), admitted.section_bytes, admitted.label_bytes⟩

theorem validateChecks_eq_ok {checks : List CheckUpload} {i : Nat} {out : Unit} :
    validateChecks i checks = .ok out ↔ ∀ c ∈ checks, AdmittedCheck c := by
  induction checks generalizing i with
  | nil => simp [validateChecks]
  | cons c rest ih =>
    simp only [validateChecks, bind_eq_ok, validateCheck_eq_ok, ih, List.forall_mem_cons]
    constructor
    · rintro ⟨_, first, others⟩
      exact ⟨first, others⟩
    · rintro ⟨first, others⟩
      exact ⟨(), first, others⟩

theorem validate_eq_ok {env : Env} {upload : ReportUpload} {out : Unit} :
    validate env upload = .ok out ↔ Admitted env upload := by
  unfold validate
  by_cases schema : upload.schema = SCHEMA
  · by_cases ulid : env.ulidFromString upload.id = true
    · by_cases collector : trim upload.collector = ""
      · simp only [schema, ulid, collector]
        constructor
        · intro h
          cases h
        · intro admitted
          exact absurd collector admitted.collector_visible
      · simp only [schema, ulid, collector, ne_eq, not_true_eq_false, if_false, Bool.true_eq_false]
        rw [validateChecks_eq_ok]
        constructor
        · intro checks
          exact ⟨schema, ulid, collector, checks⟩
        · intro admitted
          exact admitted.checks
    · simp only [schema, ulid]
      constructor
      · intro h
        cases h
      · intro admitted
        exact absurd admitted.ulid ulid
  · simp only [ne_eq, schema, not_false_eq_true, if_true]
    constructor
    · intro h
      cases h
    · intro admitted
      exact absurd admitted.schema schema

/-! ## Column widths -/

structure FitsCheck (c : CheckUpload) : Prop where
  sect : fitsChars SECTION_WIDTH c.sect = true
  label : fitsChars LABEL_WIDTH c.label = true
  subject : fitsNullable (fitsChars SUBJECT_WIDTH) c.subject = true
  observed : fitsNullable fitsText c.observed = true
  expected : fitsNullable fitsText c.expected = true
  unit : fitsNullable (fitsChars UNIT_WIDTH) c.unit = true
  docRef : fitsNullable (fitsChars DOC_REF_WIDTH) c.docRef = true
  detail : fitsNullable fitsText c.detail = true

/-- What every plain `INSERT` of the transaction asks of the call. -/
structure Fits (call : IngestCall) : Prop where
  id : fitsChars ID_WIDTH call.upload.id = true
  source : fitsChars SOURCE_WIDTH call.source = true
  collector : fitsChars COLLECTOR_WIDTH call.upload.collector = true
  collectedAt : isDatetime call.upload.collectedAt = true
  checks : ∀ c ∈ call.upload.checks, FitsCheck c

/-- The rows `insert_check` adds for a list of checks, from position `seq`. -/
def checkRowsFrom (call : IngestCall) (seq : Nat) (checks : List CheckUpload) : List CheckRow :=
  (checks.zipIdx seq).map (fun (c, i) => checkRow call i c)

/-- The check rows of a call. -/
def checkRows (call : IngestCall) : List CheckRow := checkRowsFrom call 0 call.upload.checks

/-- The four columns every row of the call shares. -/
def FitsProducer (call : IngestCall) : Prop :=
  fitsChars ID_WIDTH call.upload.id = true ∧ fitsChars SOURCE_WIDTH call.source = true ∧
    fitsChars COLLECTOR_WIDTH call.upload.collector = true ∧
    isDatetime call.upload.collectedAt = true

theorem insertCheck_eq_ok {call : IngestCall} {seq : Nat} {c : CheckUpload}
    {table out : List CheckRow} :
    insertCheck call seq c table = .ok out ↔
      FitsProducer call ∧ FitsCheck c ∧ out = table ++ [checkRow call seq c] := by
  simp only [insertCheck, bind_eq_ok, requireFit_eq_ok, requireDatetime_eq_ok, exists_const,
    pure, Except.pure, Except.ok.injEq]
  constructor
  · rintro ⟨id, source, collector, collectedAt, sect, label, subject, observed, expected, unit,
      docRef, detail, rfl⟩
    exact ⟨⟨id, source, collector, collectedAt⟩,
      ⟨sect, label, subject, observed, expected, unit, docRef, detail⟩, rfl⟩
  · rintro ⟨⟨id, source, collector, collectedAt⟩, fits, rfl⟩
    exact ⟨id, source, collector, collectedAt, fits.sect, fits.label, fits.subject, fits.observed,
      fits.expected, fits.unit, fits.docRef, fits.detail, rfl⟩

theorem insertChecks_eq_ok {call : IngestCall} (producer : FitsProducer call)
    {checks : List CheckUpload} {seq : Nat} {table out : List CheckRow} :
    insertChecks call seq checks table = .ok out ↔
      (∀ c ∈ checks, FitsCheck c) ∧ out = table ++ checkRowsFrom call seq checks := by
  induction checks generalizing seq table with
  | nil => simp [insertChecks, checkRowsFrom, eq_comm]
  | cons c rest ih =>
    simp only [insertChecks, bind_eq_ok, insertCheck_eq_ok, List.forall_mem_cons]
    constructor
    · rintro ⟨inserted, ⟨_, first, rfl⟩, later⟩
      obtain ⟨others, rfl⟩ := ih.mp later
      exact ⟨⟨first, others⟩, by simp [checkRowsFrom]⟩
    · rintro ⟨⟨first, others⟩, rfl⟩
      refine ⟨_, ⟨producer, first, rfl⟩, ih.mpr ⟨others, ?_⟩⟩
      simp [checkRowsFrom]

/-- The pointer table after a call that fits. -/
def advanced (env : Env) (call : IngestCall) (table : List LatestReportRow) :
    List LatestReportRow :=
  upsert (LatestReportRow.key env) (pointerRow call)
    (advancePointer env call.upload.id call.upload.collectedAt) table

theorem upsertLatestReport_eq_ok {env : Env} {call : IngestCall}
    {table out : List LatestReportRow} :
    upsertLatestReport env call table = .ok out ↔
      FitsProducer call ∧ out = advanced env call table := by
  simp only [upsertLatestReport, bind_eq_ok, requireFit_eq_ok, requireDatetime_eq_ok,
    exists_const, pure, Except.pure, Except.ok.injEq]
  constructor
  · rintro ⟨source, collector, id, collectedAt, rfl⟩
    exact ⟨⟨id, source, collector, collectedAt⟩, rfl⟩
  · rintro ⟨⟨id, source, collector, collectedAt⟩, rfl⟩
    exact ⟨source, collector, id, collectedAt, rfl⟩

/-! ## The counters -/

/-- How many checks have the verdict. -/
def countVerdict (v : Verdict) (checks : List CheckUpload) : Nat :=
  (checks.filter (fun c => c.verdict = v)).length

/-- The counting loop counts, whatever it starts from. -/
theorem foldl_counts (checks : List CheckUpload) (start : Counts) :
    checks.foldl (fun counts c => counts.add c.verdict) start =
      { pass := start.pass + countVerdict .pass checks
        warn := start.warn + countVerdict .warn checks
        fail := start.fail + countVerdict .fail checks
        skip := start.skip + countVerdict .skip checks } := by
  induction checks generalizing start with
  | nil => simp [countVerdict]
  | cons c rest ih =>
    rw [List.foldl_cons, ih]
    cases verdict : c.verdict <;> simp [Counts.add, countVerdict, verdict] <;> omega

theorem tally_eq (checks : List CheckUpload) :
    tally checks =
      { pass := countVerdict .pass checks
        warn := countVerdict .warn checks
        fail := countVerdict .fail checks
        skip := countVerdict .skip checks } := by
  unfold tally
  rw [foldl_counts]
  simp

/-- `ok` says that no check failed. -/
theorem tally_ok_iff (checks : List CheckUpload) :
    ((tally checks).fail == 0) = true ↔ ∀ c ∈ checks, c.verdict ≠ .fail := by
  rw [tally_eq, beq_iff_eq]
  simp only [countVerdict, List.length_eq_zero_iff, List.filter_eq_nil_iff, decide_eq_true_eq,
    ne_eq]

/-! ## The report row -/

/-- The report row of a call whose values fit: nothing is cut. -/
def reportRow (call : IngestCall) : ReportRow :=
  { insertedReport call with
    id := call.upload.id
    source := call.source
    collector := call.upload.collector
    collectedAt := datetime3 call.upload.collectedAt }

theorem insertedReport_eq {call : IngestCall} (fits : Fits call) :
    insertedReport call = reportRow call := by
  have id := cut_eq_self (of_decide_eq_true fits.id)
  have source := cut_eq_self (of_decide_eq_true fits.source)
  have collector := cut_eq_self (of_decide_eq_true fits.collector)
  have collectedAt := datetime3Ignore_eq fits.collectedAt
  simp [insertedReport, reportRow, id, source, collector, collectedAt]

/-- A ULID is exactly as long as the column, so the id is never cut. -/
theorem insertedReport_id {env : Env} {call : IngestCall} (admitted : Admitted env call.upload) :
    (insertedReport call).id = call.upload.id := by
  have length := env.ulid_length _ admitted.ulid
  exact cut_eq_self (Nat.le_of_eq length)

/-- Is the upload's id held by a stored report already? -/
def Taken (env : Env) (call : IngestCall) (db : Db) : Prop :=
  ∃ row ∈ db.report, row.key env = env.weight call.upload.id

/-! ## The three outcomes -/

/-- Does this report become its producer's latest? -/
def leads (env : Env) (call : IngestCall) (db : Db) : Bool :=
  isLatest env call (advanced env call db.latestReport)

/-- The database after a call that stored its report. -/
def stored (env : Env) (call : IngestCall) (db : Db) : Db :=
  { db with
    report := db.report ++ [reportRow call]
    checkResult := db.checkResult ++ checkRows call
    latestReport := advanced env call db.latestReport
    problemSince :=
      if leads env call db then endRuns env call (openRuns env call db.problemSince)
      else db.problemSince }

def replayAck (call : IngestCall) : IngestAck :=
  { id := call.upload.id, duplicate := true, checks := 0 }

def storedAck (call : IngestCall) : IngestAck :=
  { id := call.upload.id, duplicate := false, checks := call.upload.checks.length }

/-- The outcomes of `ingest`, each with the condition it happens under. -/
inductive IngestOutcome (env : Env) (call : IngestCall) (db : Db) :
    Except AppError IngestAck × Db → Prop where
  | rejected (err : AppError)
      (why : ¬ Admitted env call.upload ∨ ¬ Taken env call db ∧ ¬ Fits call) :
      IngestOutcome env call db (.error err, db)
  | replayed (admitted : Admitted env call.upload) (taken : Taken env call db) :
      IngestOutcome env call db (.ok (replayAck call), db)
  | stored (admitted : Admitted env call.upload) (fresh : ¬ Taken env call db)
      (fits : Fits call) :
      IngestOutcome env call db (.ok (storedAck call), stored env call db)

theorem clashes_insertedReport_iff {env : Env} {call : IngestCall} {db : Db}
    (admitted : Admitted env call.upload) :
    clashes (ReportRow.key env) (insertedReport call) db.report = true ↔ Taken env call db := by
  rw [clashes_iff]
  unfold Taken
  simp only [ReportRow.key, insertedReport_id admitted]

/-- What the transaction commits once validation has passed and the id is free. -/
theorem ingestTx_eq_ok {env : Env} {call : IngestCall} {db : Db}
    (admitted : Admitted env call.upload) (fresh : ¬ Taken env call db)
    {out : IngestAck × Db} :
    ingestTx env call db = .ok out ↔ Fits call ∧ out = (storedAck call, stored env call db) := by
  have free : ¬ clashes (ReportRow.key env) (insertedReport call) db.report = true :=
    fun clash => fresh ((clashes_insertedReport_iff admitted).mp clash)
  simp only [ingestTx, insertIgnore, free, if_false, bind_eq_ok, validate_eq_ok, exists_const,
    Bool.false_eq_true, Nat.one_ne_zero, upsertLatestReport_eq_ok, pure, Except.pure, Except.ok.injEq]
  constructor
  · rintro ⟨_, checkResult, inserted, latestReport, ⟨producer, rfl⟩, rfl⟩
    obtain ⟨checks, rfl⟩ := (insertChecks_eq_ok producer).mp inserted
    have fits : Fits call := ⟨producer.1, producer.2.1, producer.2.2.1, producer.2.2.2, checks⟩
    refine ⟨fits, ?_⟩
    simp only [insertedReport_eq fits]
    rfl
  · rintro ⟨fits, rfl⟩
    have producer : FitsProducer call :=
      ⟨fits.id, fits.source, fits.collector, fits.collectedAt⟩
    refine ⟨admitted, _, (insertChecks_eq_ok producer).mpr ⟨fits.checks, rfl⟩, _,
      ⟨producer, rfl⟩, ?_⟩
    simp only [insertedReport_eq fits]
    rfl

/-- Every call has exactly one of the three outcomes. -/
theorem ingest_outcome (env : Env) (call : IngestCall) (db : Db) :
    IngestOutcome env call db (ingest env call db) := by
  by_cases admitted : Admitted env call.upload
  · by_cases taken : Taken env call db
    · have clash := (clashes_insertedReport_iff admitted).mpr taken
      have valid : validate env call.upload = .ok () := validate_eq_ok.mpr admitted
      have replay : ingestTx env call db = .ok (replayAck call, db) := by
        simp [ingestTx, insertIgnore, clash, valid, replayAck, bind, Except.bind, pure, Except.pure]
      simp only [ingest, replay]
      exact .replayed admitted taken
    · unfold ingest
      cases tx : ingestTx env call db with
      | error err =>
        refine .rejected err (Or.inr ⟨taken, ?_⟩)
        intro fits
        rw [(ingestTx_eq_ok admitted taken).mpr ⟨fits, rfl⟩] at tx
        cases tx
      | ok out =>
        obtain ⟨fits, rfl⟩ := (ingestTx_eq_ok admitted taken).mp tx
        exact .stored admitted taken fits
  · unfold ingest
    cases tx : ingestTx env call db with
    | error err => exact .rejected err (Or.inl admitted)
    | ok out =>
      simp only [ingestTx, bind_eq_ok, validate_eq_ok] at tx
      obtain ⟨_, valid, _⟩ := tx
      exact absurd valid admitted

/-- The report is stored exactly when it is admitted, its id is free and its values
fit their columns. -/
theorem ingest_eq_stored {env : Env} {call : IngestCall} {db : Db}
    (admitted : Admitted env call.upload) (fresh : ¬ Taken env call db) (fits : Fits call) :
    ingest env call db = (.ok (storedAck call), stored env call db) := by
  unfold ingest
  rw [(ingestTx_eq_ok admitted fresh).mpr ⟨fits, rfl⟩]

/-- A call that is not stored leaves every table alone. -/
theorem ingest_eq_self_or_stored (env : Env) (call : IngestCall) (db : Db) :
    (ingest env call db).2 = db ∨
      (Admitted env call.upload ∧ ¬ Taken env call db ∧ Fits call ∧
        (ingest env call db).2 = stored env call db) := by
  cases outcome : ingest env call db with
  | mk result after =>
    have cases' := outcome ▸ ingest_outcome env call db
    cases cases' with
    | rejected err why => exact Or.inl rfl
    | replayed admitted taken => exact Or.inl rfl
    | stored admitted fresh fits => exact Or.inr ⟨admitted, fresh, fits, rfl⟩

/-- An ingest that fails leaves every table alone. -/
theorem ingest_of_error {env : Env} {call : IngestCall} {db : Db} {err : AppError}
    (failed : (ingest env call db).1 = .error err) : (ingest env call db).2 = db := by
  cases outcome : ingest env call db with
  | mk result after =>
    rw [outcome] at failed
    have cases' := outcome ▸ ingest_outcome env call db
    cases cases' with
    | rejected _ _ => rfl
    | replayed _ _ => cases failed
    | stored _ _ _ => cases failed

/-- The induction rule of the loop that opens runs: what each `INSERT IGNORE` of the call's
rows preserves, the loop preserves. -/
theorem openRuns_induction {env : Env} {call : IngestCall} (inv : List ProblemSinceRow → Prop)
    {table : List ProblemSinceRow} (initially : inv table)
    (opens : ∀ c ∈ call.upload.checks, ∀ table, inv table →
      inv (insertIgnore (ProblemSinceRow.key env) (problemSinceRow call c) table).1) :
    inv (openRuns env call table) := by
  unfold openRuns
  generalize call.upload.checks = checks at opens
  induction checks generalizing table with
  | nil => exact initially
  | cons c rest ih =>
    rw [List.foldl_cons]
    have rest' := fun other member => opens other (List.mem_cons_of_mem c member)
    split
    · exact ih (opens c List.mem_cons_self table initially) rest'
    · exact ih initially rest'

/-- An ingest touches neither overlay. -/
theorem ingest_overlays (env : Env) (call : IngestCall) (db : Db) :
    (ingest env call db).2.mute = db.mute ∧ (ingest env call db).2.retirement = db.retirement := by
  rcases ingest_eq_self_or_stored env call db with same | ⟨_, _, _, after⟩
  · rw [same]
    exact ⟨rfl, rfl⟩
  · rw [after]
    exact ⟨rfl, rfl⟩

end Fleetwatch
