import Fleetwatch.Proofs.Reading

/-!
# What an acknowledgement is worth

A producer deletes its spool file when it sees a 2xx. The first part follows an
acknowledged report through any later run: its row stays, and its checks stay
until a sweep takes them all. The second part says when an admitted upload is
stored as it was sent.
-/

namespace Fleetwatch

open Sql Table Text

/-! ## The ledger only grows -/

/-- The state a run of writes leads to. -/
def stateAfter (env : Env) (ops : List Op) : Db := Run.run (step env) Db.empty ops

/-- Some sweep of the run is late enough to take the call's checks. -/
def Swept (call : IngestCall) (ops : List Op) : Prop :=
  ∃ now rawDays checkDays, Op.sweep now rawDays checkDays ∈ ops ∧
    datetime3 call.upload.collectedAt < cutoff now checkDays

/-- The store holds the call's report: one row under its id, with its source, collector
and stored `collected_at`, and unless they are swept exactly its checks in order. -/
structure Holds (env : Env) (call : IngestCall) (swept : Prop) (db : Db) : Prop where
  row : ∃ row, rowsAt (ReportRow.key env) (env.weight call.upload.id) db.report = [row] ∧
    row.id = call.upload.id ∧ row.source = call.source ∧
    row.collector = call.upload.collector ∧
    row.collectedAt = datetime3 call.upload.collectedAt
  checks : ¬ swept →
    db.checkResult.filter (fun c => env.weight c.reportId = env.weight call.upload.id) =
      checkRows call

/-- An entry stays in the ledger through any run, and keeps its checks through one that
sweeps none of its age. -/
theorem entry_run (env : Env) (ops : List Op) (ledger : List Entry) {e : Entry}
    (member : e ∈ ledger) :
    ∃ e' ∈ Run.run (ledgerStep env) ledger ops, e'.call = e.call ∧
      (e.checksSwept = false → ¬ Swept e.call ops → e'.checksSwept = false) := by
  induction ops generalizing ledger e with
  | nil => exact ⟨e, member, rfl, fun kept _ => kept⟩
  | cons op rest ih =>
    rw [Run.run_cons]
    -- where one step leaves the entry
    have here : ∃ e₁ ∈ ledgerStep env ledger op, e₁.call = e.call ∧
        (e.checksSwept = false → ¬ Swept e.call [op] → e₁.checksSwept = false) := by
      cases op with
      | ingest call =>
        by_cases accepts : Accepts env ledger call
        · rw [ledgerStep_ingest_of_accepts accepts]
          exact ⟨e, List.mem_append_left _ member, rfl, fun kept _ => kept⟩
        · rw [ledgerStep_ingest_of_not_accepts accepts]
          exact ⟨e, member, rfl, fun kept _ => kept⟩
      | sweep now rawDays checkDays =>
        refine ⟨e.sweep now rawDays checkDays, List.mem_map.mpr ⟨e, member, rfl⟩, rfl, ?_⟩
        intro kept young
        have notOld : ¬ e.storedAt < cutoff now checkDays := by
          intro old
          exact young ⟨now, rawDays, checkDays, List.mem_singleton.mpr rfl, old⟩
        simp [Entry.sweep, kept, notOld]
      | createMute _ => exact ⟨e, member, rfl, fun kept _ => kept⟩
      | deleteMute _ => exact ⟨e, member, rfl, fun kept _ => kept⟩
      | createRetirement _ => exact ⟨e, member, rfl, fun kept _ => kept⟩
      | deleteRetirement _ _ => exact ⟨e, member, rfl, fun kept _ => kept⟩
      | rebuildLatestReport => exact ⟨e, member, rfl, fun kept _ => kept⟩
    obtain ⟨e₁, member₁, same₁, kept₁⟩ := here
    obtain ⟨e', member', same', kept'⟩ := ih _ member₁
    refine ⟨e', member', same'.trans same₁, ?_⟩
    intro kept notSwept
    apply kept'
    · apply kept₁ kept
      rintro ⟨now, rawDays, checkDays, found, old⟩
      have isOp := List.mem_singleton.mp found
      exact notSwept ⟨now, rawDays, checkDays, isOp ▸ List.mem_cons_self, old⟩
    · rw [same₁]
      rintro ⟨now, rawDays, checkDays, found, old⟩
      exact notSwept ⟨now, rawDays, checkDays, List.mem_cons_of_mem _ found, old⟩

/-- What the store holds of an entry. -/
theorem holds_of_entry {env : Env} {ledger : List Entry} {db : Db}
    (rep : Represents env ledger db) {e : Entry} (member : e ∈ ledger) (swept : Prop)
    (kept : ¬ swept → e.checksSwept = false) : Holds env e.call swept db where
  row := ⟨e.reportRow, rep.rowsAt_report member, rfl, rfl, rfl, rfl⟩
  checks := by
    intro notSwept
    have rows := rep.checks_of member
    rw [Entry.checkRows, kept notSwept] at rows
    exact rows

/-- What a run stored, every longer run still holds. -/
theorem holds_run (env : Env) (before since : List Op) (call : IngestCall)
    (result : (ingest env call (stateAfter env before)).1 = .ok (storedAck call)) :
    Holds env call (Swept call since) (stateAfter env (before ++ .ingest call :: since)) := by
  have rep : Represents env _ (stateAfter env before) := represents_run env before
  have accepts : Accepts env (Run.run (ledgerStep env) [] before) call := by
    cases outcome : ingest env call (stateAfter env before) with
    | mk answer after =>
      rw [outcome] at result
      cases outcome ▸ ingest_outcome env call (stateAfter env before) with
      | rejected err why => cases result
      | replayed admitted taken => cases Except.ok.inj result
      | stored admitted free fits => exact accepts_of_stored rep admitted free fits
  have member : Entry.new call ∈
      Run.run (ledgerStep env) [] (before ++ [.ingest call]) := by
    rw [Run.run_append, Run.run_cons, Run.run_nil, ledgerStep_ingest_of_accepts accepts]
    exact List.mem_append_right _ List.mem_cons_self
  obtain ⟨e, inLedger, same, kept⟩ := entry_run env since _ member
  rw [← Run.run_append, List.append_assoc, List.singleton_append] at inLedger
  have later : Represents env _ (stateAfter env (before ++ .ingest call :: since)) :=
    represents_run env (before ++ .ingest call :: since)
  have holds := holds_of_entry later inLedger (Swept call since) (kept rfl)
  rwa [same] at holds

/-- Every entry of a run's ledger was stored by one call of the run, which answered that
it was not a duplicate. -/
theorem entry_origin (env : Env) (ops : List Op) {e : Entry}
    (member : e ∈ Run.run (ledgerStep env) [] ops) :
    ∃ before since, ops = before ++ .ingest e.call :: since ∧
      (ingest env e.call (stateAfter env before)).1 = .ok (storedAck e.call) := by
  induction ops using List.reverseRecOn generalizing e with
  | nil => cases member
  | append_singleton earlier op ih =>
    rw [Run.run_append, Run.run_cons, Run.run_nil] at member
    -- an entry from before the last write was stored before it
    have fromEarlier : ∀ {e : Entry}, e ∈ Run.run (ledgerStep env) [] earlier →
        ∃ before since, earlier ++ [op] = before ++ .ingest e.call :: since ∧
          (ingest env e.call (stateAfter env before)).1 = .ok (storedAck e.call) := by
      intro e found
      obtain ⟨before, since, split, result⟩ := ih found
      exact ⟨before, since ++ [op], by simp [split], result⟩
    rcases mem_ledgerStep member with old | ⟨call, rfl, accepts, rfl⟩ |
      ⟨now, rawDays, checkDays, rfl, old, found, rfl⟩
    · exact fromEarlier old
    · have rep : Represents env _ (stateAfter env earlier) := represents_run env earlier
      refine ⟨earlier, [], rfl, ?_⟩
      rw [entry_new_call, ingest_of_accepts rep accepts]
    · exact fromEarlier (e := old) found

/-! ## Exactly once -/

/-- What the answer to a call means, given the writes before it. An error and a
duplicate changed nothing; a duplicate's id is that of an upload acknowledged before,
which the store still holds; anything else is held from then on. -/
def Promise (env : Env) (before : List Op) (call : IngestCall) :
    Except AppError IngestAck × Db → Prop
  | (.error _, after) => after = stateAfter env before
  | (.ok ack, after) =>
    if ack.duplicate then
      after = stateAfter env before ∧
        ∃ earlier first since, before = earlier ++ .ingest first :: since ∧
          (ingest env first (stateAfter env earlier)).1 = .ok (storedAck first) ∧
          env.weight first.upload.id = env.weight call.upload.id ∧
          ∀ later, Holds env first (Swept first (since ++ .ingest call :: later))
            (stateAfter env (before ++ .ingest call :: later))
    else
      ∀ later, Holds env call (Swept call later) (stateAfter env (before ++ .ingest call :: later))

/-- Every answer means what `Promise` says, after any writes and before any more. -/
theorem ingest_promise (env : Env) (before : List Op) (call : IngestCall) :
    Promise env before call (ingest env call (stateAfter env before)) := by
  have rep : Represents env _ (stateAfter env before) := represents_run env before
  cases outcome : ingest env call (stateAfter env before) with
  | mk answer after =>
    cases outcome ▸ ingest_outcome env call (stateAfter env before) with
    | rejected err why => rfl
    | replayed admitted taken =>
      obtain ⟨e, member, same⟩ := (taken_iff rep call).mp taken
      obtain ⟨earlier, since, split, result⟩ := entry_origin env before member
      refine ⟨rfl, earlier, e.call, since, split, result, same, ?_⟩
      intro later
      have holds := holds_run env earlier (since ++ .ingest call :: later) e.call result
      rwa [← List.cons_append, ← List.append_assoc, ← split] at holds
    | stored admitted free fits =>
      show ∀ later, Holds env call (Swept call later) _
      intro later
      exact holds_run env before later call (by rw [outcome])

/-- A report one producer sent. -/
def sampleCall (source collector id : String) (collectedAt : Int) (checks : List CheckUpload) :
    IngestCall :=
  { source := source
    upload :=
      { schema := 1
        id := id
        collector := collector
        collectedAt := collectedAt
        durationMs := none
        intervalS := none
        checks := checks }
    raw := "\x7b\x7d"
    now := collectedAt }

/-- Ids are shared by all producers: a second one that reuses an id is told its report is
a duplicate, and the row under it is the first one's. -/
theorem ingest_acknowledged_not_stored :
    ¬ ∀ env before call ack, (ingest env call (stateAfter env before)).1 = .ok ack →
      Holds env call (Swept call []) (ingest env call (stateAfter env before)).2 := by
  intro claimed
  let first := sampleCall "amun" "disk" "01ARZ3NDEKTSV4RRFFQ69G5FAV" 0 []
  let second := sampleCall "thoth" "disk" "01ARZ3NDEKTSV4RRFFQ69G5FAV" 0 []
  have holds := claimed asciiEnv [.ingest first] second (replayAck second) (by decide)
  obtain ⟨row, rows, _, source, _⟩ := holds.row
  have only : rowsAt (ReportRow.key asciiEnv) (asciiEnv.weight second.upload.id)
      (ingest asciiEnv second (stateAfter asciiEnv [.ingest first])).2.report =
        [reportRow first] := by decide
  rw [only] at rows
  obtain rfl : reportRow first = row := by simpa using rows
  exact absurd source (by decide)

/-! ## Stored verbatim -/

/-- A check as the detail view shows it when it is stored as it was sent. -/
def CheckUpload.toOut (c : CheckUpload) : CheckOut :=
  { sect := c.sect
    label := c.label
    subject := c.subject
    verdict := c.verdict
    observed := c.observed
    expected := c.expected
    value := c.value
    unit := c.unit
    docRef := c.docRef
    detail := c.detail }

/-- The call is acknowledged, and the detail view then shows the upload as it was sent. -/
def StoredVerbatim (env : Env) (call : IngestCall) (db : Db) : Prop :=
  (ingest env call db).1 = .ok (storedAck call) ∧
    ∃ detail, reportDetail env call.upload.id (ingest env call db).2 = some detail ∧
      detail.source = call.source ∧ detail.collector = call.upload.collector ∧
      detail.checks = call.upload.checks.map CheckUpload.toOut ∧
      (detail.ok = true ↔ ∀ c ∈ call.upload.checks, c.verdict ≠ .fail)

/-- Every value that is not the collector's or a section's name fits its column, and
`collected_at` is a `DATETIME`. -/
structure FitsOtherwise (call : IngestCall) : Prop where
  source : fitsChars SOURCE_WIDTH call.source = true
  collectedAt : isDatetime call.upload.collectedAt = true
  checks : ∀ c ∈ call.upload.checks,
    fitsNullable (fitsChars SUBJECT_WIDTH) c.subject = true ∧
      fitsNullable fitsText c.observed = true ∧ fitsNullable fitsText c.expected = true ∧
      fitsNullable (fitsChars UNIT_WIDTH) c.unit = true ∧
      fitsNullable (fitsChars DOC_REF_WIDTH) c.docRef = true ∧
      fitsNullable fitsText c.detail = true

/-- Validation leaves two names to the columns: the collector's, which it does not
measure, and the sections', which it measures against a wider column. -/
theorem fits_iff_of_admitted {env : Env} {call : IngestCall} (admitted : Admitted env call.upload)
    (otherwise : FitsOtherwise call) :
    Fits call ↔ fitsChars COLLECTOR_WIDTH call.upload.collector = true ∧
      ∀ c ∈ call.upload.checks, fitsChars SECTION_WIDTH c.sect = true := by
  constructor
  · intro fits
    exact ⟨fits.collector, fun c member => (fits.checks c member).sect⟩
  · rintro ⟨collector, sections⟩
    refine ⟨?_, otherwise.source, collector, otherwise.collectedAt, ?_⟩
    · exact decide_eq_true (Nat.le_of_eq (env.ulid_length _ admitted.ulid))
    · intro c member
      obtain ⟨subject, observed, expected, unit, docRef, detail⟩ := otherwise.checks c member
      have label : c.label.length ≤ LABEL_WIDTH :=
        Nat.le_trans (length_le_utf8ByteSize c.label) (admitted.checks c member).label_bytes
      exact ⟨sections c member, decide_eq_true label, subject, observed, expected, unit, docRef,
        detail⟩

theorem map_toOut_checkRows (call : IngestCall) :
    (checkRows call).map CheckRow.toOut = call.upload.checks.map CheckUpload.toOut := by
  unfold checkRows checkRowsFrom
  rw [List.map_map]
  conv_rhs => rw [← List.zipIdx_map_fst 0 call.upload.checks, List.map_map]
  rfl

/-- An admitted upload under a free id whose other values fit is stored verbatim exactly
when its collector and its sections fit their columns. -/
theorem ingest_verbatim_iff {env : Env} {permitted : Op → Prop} {db : Db}
    (reached : Reachable env permitted db) (call : IngestCall)
    (admitted : Admitted env call.upload) (fresh : ¬ Taken env call db)
    (otherwise : FitsOtherwise call) :
    StoredVerbatim env call db ↔ fitsChars COLLECTOR_WIDTH call.upload.collector = true ∧
      ∀ c ∈ call.upload.checks, fitsChars SECTION_WIDTH c.sect = true := by
  rw [← fits_iff_of_admitted admitted otherwise]
  obtain ⟨ledger, rep⟩ := reached.represents
  constructor
  · rintro ⟨answer, _⟩
    cases outcome : ingest env call db with
    | mk result after =>
      rw [outcome] at answer
      cases outcome ▸ ingest_outcome env call db with
      | rejected err why => cases answer
      | replayed admitted taken => exact absurd taken fresh
      | stored admitted free fits => exact fits
  · intro fits
    have accepts := accepts_of_stored rep admitted fresh fits
    have member : Entry.new call ∈ ledger ++ [Entry.new call] := by simp
    have shown := (rep.stored accepts).reportDetail member rfl
    unfold StoredVerbatim
    rw [ingest_eq_stored admitted fresh fits]
    exact ⟨rfl, _, shown, rfl, rfl, map_toOut_checkRows call, tally_ok_iff call.upload.checks⟩

/-- A check with nothing but a name and a verdict. -/
def sampleCheck (sect label : String) (verdict : Verdict) : CheckUpload :=
  { sect := sect
    label := label
    subject := none
    verdict := verdict
    observed := none
    expected := none
    value := none
    unit := none
    docRef := none
    detail := none }

theorem ingest_verbatim_sample :
    StoredVerbatim asciiEnv (sampleCall "amun" "disk" "01ARZ3NDEKTSV4RRFFQ69G5FAV" 0
      [sampleCheck "root" "usage" .fail]) Db.empty := by
  have validated : validate asciiEnv (sampleCall "amun" "disk" "01ARZ3NDEKTSV4RRFFQ69G5FAV" 0
      [sampleCheck "root" "usage" .fail]).upload = .ok () := by decide
  have start : Reachable asciiEnv (fun _ => True) Db.empty := Run.Reachable.refl
  refine (ingest_verbatim_iff start _ (validate_eq_ok.mp validated) ?_
    ⟨by decide, by decide, by decide⟩).mpr (by decide)
  rintro ⟨row, member, _⟩
  cases member

/-- A collector's name of 65 characters passes validation and is refused by the
database. -/
theorem ingest_refused_by_width :
    ¬ ∀ env db, Reachable env (fun _ => True) db → ∀ call, Admitted env call.upload →
      ¬ Taken env call db → FitsOtherwise call → StoredVerbatim env call db := by
  intro claimed
  let call := sampleCall "amun" (String.ofList (List.replicate 65 'c'))
    "01ARZ3NDEKTSV4RRFFQ69G5FAV" 0 []
  have fresh : ¬ Taken asciiEnv call Db.empty := by
    rintro ⟨row, member, _⟩
    cases member
  have validated : validate asciiEnv call.upload = .ok () := by decide
  have verbatim := claimed asciiEnv Db.empty Run.Reachable.refl call
    (validate_eq_ok.mp validated) fresh ⟨by decide, by decide, by decide⟩
  have refused : (ingest asciiEnv call Db.empty).1 =
      .error (.other (.dataTooLong "collector")) := by decide
  rw [verbatim.1] at refused
  cases refused

end Fleetwatch
