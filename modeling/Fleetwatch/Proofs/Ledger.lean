import Fleetwatch.Proofs.Ingest
import Fleetwatch.Proofs.Overlays
import Fleetwatch.Service

/-!
# The ledger behind the tables

What the store is for, in its own terms: an append-only ledger of the reports it
has accepted. An upload enters it once, under an id no earlier entry has, and
retention takes an entry's payload or all of its checks away, never the entry.
`represents_step` connects it to the code: the six tables stay a faithful picture
of the ledger under every write, whatever the clients send.
-/

namespace Fleetwatch

open Query Ranking Sql Table

/-! ## Entries -/

/-- One accepted report and what retention has done to it since. -/
structure Entry where
  call : IngestCall
  rawCleared : Bool
  checksSwept : Bool
  deriving DecidableEq

namespace Entry

def id (e : Entry) : String := e.call.upload.id

def key (env : Env) (e : Entry) : List Nat := env.weight e.id

def producer (env : Env) (e : Entry) : ProducerKey :=
  producerKey env e.call.source e.call.upload.collector

/-- The stored `collected_at`. -/
def storedAt (e : Entry) : Int := datetime3 e.call.upload.collectedAt

/-- The row of `report` the entry is stored as. -/
def reportRow (e : Entry) : ReportRow :=
  { Fleetwatch.reportRow e.call with raw := if e.rawCleared then none else some e.call.raw }

/-- The rows of `check_result` the entry has left. -/
def checkRows (e : Entry) : List CheckRow :=
  if e.checksSwept then [] else Fleetwatch.checkRows e.call

/-- An entry as it is made. -/
def new (call : IngestCall) : Entry := { call := call, rawCleared := false, checksSwept := false }

/-- What one sweep does to an entry. -/
def sweep (now rawDays checkDays : Int) (e : Entry) : Entry :=
  { e with
    rawCleared := e.rawCleared || decide (datetime3 e.call.now < cutoff now rawDays)
    checksSwept := e.checksSwept || decide (e.storedAt < cutoff now checkDays) }

end Entry

section EntryRows

variable {env : Env} {e : Entry}

@[simp] theorem entry_reportRow_key : e.reportRow.key env = e.key env := rfl
@[simp] theorem entry_reportRow_producer : e.reportRow.producer env = e.producer env := rfl
@[simp] theorem entry_new_call {call : IngestCall} : (Entry.new call).call = call := rfl

theorem entry_new_reportRow (call : IngestCall) : (Entry.new call).reportRow = reportRow call := rfl

theorem mem_checkRowsFrom {call : IngestCall} {seq : Nat} {checks : List CheckUpload}
    {row : CheckRow} (member : row ∈ checkRowsFrom call seq checks) :
    ∃ i, ∃ c ∈ checks, row = checkRow call i c := by
  obtain ⟨⟨c, i⟩, found, rfl⟩ := List.mem_map.mp member
  exact ⟨i, c, List.fst_mem_of_mem_zipIdx found, rfl⟩

/-- Every check row of an entry carries the entry's own columns. -/
theorem mem_entry_checkRows {row : CheckRow} (member : row ∈ e.checkRows) :
    ∃ i, ∃ c ∈ e.call.upload.checks, row = checkRow e.call i c := by
  unfold Entry.checkRows at member
  split at member
  · simp at member
  · exact mem_checkRowsFrom member

theorem exists_checkRow {call : IngestCall} {c : CheckUpload} (member : c ∈ call.upload.checks) :
    ∃ i, checkRow call i c ∈ (Entry.new call).checkRows := by
  rw [← List.zipIdx_map_fst 0 call.upload.checks] at member
  obtain ⟨⟨c', i⟩, numbered, rfl⟩ := List.mem_map.mp member
  exact ⟨i, List.mem_map.mpr ⟨(c', i), numbered, rfl⟩⟩

theorem checkRows_reportId {row : CheckRow} (member : row ∈ e.checkRows) :
    row.reportId = e.id := by
  obtain ⟨i, c, _, rfl⟩ := mem_entry_checkRows member
  rfl

theorem checkRows_collectedAt {row : CheckRow} (member : row ∈ e.checkRows) :
    row.collectedAt = e.storedAt := by
  obtain ⟨i, c, _, rfl⟩ := mem_entry_checkRows member
  rfl

end EntryRows

/-! ## The ledger as a transition system -/

/-- The calls the ledger takes: valid, storable, and under an id of their own. -/
structure Accepts (env : Env) (ledger : List Entry) (call : IngestCall) : Prop where
  admitted : Admitted env call.upload
  fits : Fits call
  fresh : ∀ e ∈ ledger, e.key env ≠ env.weight call.upload.id

open Classical in
/-- What a write does to the ledger. -/
noncomputable def ledgerStep (env : Env) (ledger : List Entry) : Op → List Entry
  | .ingest call => if Accepts env ledger call then ledger ++ [Entry.new call] else ledger
  | .sweep now rawDays checkDays => ledger.map (Entry.sweep now rawDays checkDays)
  | _ => ledger

theorem ledgerStep_ingest_of_accepts {env : Env} {ledger : List Entry} {call : IngestCall}
    (accepts : Accepts env ledger call) :
    ledgerStep env ledger (.ingest call) = ledger ++ [Entry.new call] :=
  if_pos accepts

theorem ledgerStep_ingest_of_not_accepts {env : Env} {ledger : List Entry} {call : IngestCall}
    (refuses : ¬ Accepts env ledger call) : ledgerStep env ledger (.ingest call) = ledger :=
  if_neg refuses

/-- After a write an entry is an old one, the new report's, or an old one swept. -/
theorem mem_ledgerStep {env : Env} {ledger : List Entry} {op : Op} {e : Entry}
    (member : e ∈ ledgerStep env ledger op) :
    e ∈ ledger ∨
      (∃ call, op = .ingest call ∧ Accepts env ledger call ∧ e = Entry.new call) ∨
      ∃ now rawDays checkDays, op = .sweep now rawDays checkDays ∧
        ∃ old ∈ ledger, e = old.sweep now rawDays checkDays := by
  cases op with
  | ingest call =>
    by_cases accepts : Accepts env ledger call
    · rw [ledgerStep_ingest_of_accepts accepts] at member
      rcases List.mem_append.mp member with earlier | new
      · exact .inl earlier
      · exact .inr (.inl ⟨call, rfl, accepts, List.mem_singleton.mp new⟩)
    · rw [ledgerStep_ingest_of_not_accepts accepts] at member
      exact .inl member
  | sweep now rawDays checkDays =>
    obtain ⟨old, inLedger, rfl⟩ := List.mem_map.mp member
    exact .inr (.inr ⟨now, rawDays, checkDays, rfl, old, inLedger, rfl⟩)
  | createMute _ => exact .inl member
  | deleteMute _ => exact .inl member
  | createRetirement _ => exact .inl member
  | deleteRetirement _ _ => exact .inl member
  | rebuildLatestReport => exact .inl member

/-- A pointer and the entry it points at: one of its producer's newest, whose stored
instant it carries. -/
structure PointsTo (env : Env) (ledger : List Entry) (l : LatestReportRow) (e : Entry) : Prop where
  member : e ∈ ledger
  producer : l.key env = e.producer env
  reportId : l.reportId = e.id
  collectedAt : l.collectedAt = e.storedAt
  newest : ∀ other ∈ ledger, other.producer env = e.producer env → other.storedAt ≤ e.storedAt

/-- The pointer table: one row for each producer that has an entry. -/
structure Tracks (env : Env) (ledger : List Entry) (table : List LatestReportRow) : Prop where
  keyed : Keyed (LatestReportRow.key env) table
  sound : ∀ l ∈ table, ∃ e, PointsTo env ledger l e
  complete : ∀ e ∈ ledger, ∃ l ∈ table, l.key env = e.producer env

/-- The six tables as a picture of the ledger. -/
structure Represents (env : Env) (ledger : List Entry) (db : Db) : Prop where
  report : db.report = ledger.map Entry.reportRow
  checkResult : db.checkResult = ledger.flatMap Entry.checkRows
  ids : (ledger.map (Entry.key env)).Nodup
  admitted : ∀ e ∈ ledger, Admitted env e.call.upload
  fits : ∀ e ∈ ledger, Fits e.call
  latest : Tracks env ledger db.latestReport
  problemSince : Keyed (ProblemSinceRow.key env) db.problemSince
  mute : Keyed (MuteRow.key env) db.mute
  retirement : Keyed (RetirementRow.key env) db.retirement

theorem represents_empty (env : Env) : Represents env [] Db.empty where
  report := rfl
  checkResult := rfl
  ids := List.nodup_nil
  admitted := by simp
  fits := by simp
  latest := ⟨List.nodup_nil, by simp [Db.empty], by simp⟩
  problemSince := List.nodup_nil
  mute := List.nodup_nil
  retirement := List.nodup_nil

/-- An id is taken exactly when an entry has it. -/
theorem taken_iff {env : Env} {ledger : List Entry} {db : Db} (rep : Represents env ledger db)
    (call : IngestCall) :
    Taken env call db ↔ ∃ e ∈ ledger, e.key env = env.weight call.upload.id := by
  unfold Taken
  rw [rep.report]
  constructor
  · rintro ⟨row, member, same⟩
    obtain ⟨e, inLedger, rfl⟩ := List.mem_map.mp member
    exact ⟨e, inLedger, same⟩
  · rintro ⟨e, inLedger, same⟩
    exact ⟨e.reportRow, List.mem_map.mpr ⟨e, inLedger, rfl⟩, same⟩

/-! ## The pointer under one report -/

/-- Does the upsert's first `IF` take the new id? -/
def Takes (env : Env) (id : String) (collected : Int) (row : LatestReportRow) : Prop :=
  row.collectedAt < bindDatetime collected ∨
    (bindDatetime collected = row.collectedAt ∧ env.weight row.reportId < env.weight id)

/-- Where the id is taken, so is the stored instant: in a tie the two are one. -/
theorem advancePointer_of_takes {env : Env} {id : String} {collected : Int}
    {row : LatestReportRow} (whole : datetime3 row.collectedAt = row.collectedAt)
    (takes : Takes env id collected row) :
    advancePointer env id collected row =
      { row with reportId := id, collectedAt := datetime3 collected } := by
  unfold advancePointer
  rcases takes with later | ⟨tie, larger⟩
  · simp [later]
  · have same : row.collectedAt = datetime3 collected := by
      rw [← whole, ← tie, datetime3_bind]
    simp only [tie, larger, lt_irrefl, and_self, or_true, if_true, if_false, same]

theorem advancePointer_of_not_takes {env : Env} {id : String} {collected : Int}
    {row : LatestReportRow} (keeps : ¬ Takes env id collected row) :
    advancePointer env id collected row = row := by
  unfold Takes at keeps
  obtain ⟨notLater, notTie⟩ := not_or.mp keeps
  unfold advancePointer
  simp only [notLater, notTie, or_self, if_false]

/-- A report that does not take the pointer is stored no later than the one that
holds it. -/
theorem storedAt_le_of_not_takes {env : Env} {id : String} {collected : Int}
    {row : LatestReportRow} (keeps : ¬ Takes env id collected row) :
    datetime3 collected ≤ row.collectedAt := by
  have notLater : ¬ row.collectedAt < bindDatetime collected := fun later => keeps (Or.inl later)
  exact le_trans (datetime3_le_bind collected) (not_lt.mp notLater)

theorem storedAt_le_of_takes {env : Env} {id : String} {collected : Int}
    {row : LatestReportRow} (whole : datetime3 row.collectedAt = row.collectedAt)
    (takes : Takes env id collected row) : row.collectedAt ≤ datetime3 collected := by
  have le : row.collectedAt ≤ bindDatetime collected := by
    rcases takes with later | ⟨tie, _⟩
    · exact le_of_lt later
    · exact le_of_eq tie.symm
  have stored := datetime3_mono le
  rwa [whole, datetime3_bind] at stored

theorem PointsTo.whole {env : Env} {ledger : List Entry} {l : LatestReportRow} {e : Entry}
    (points : PointsTo env ledger l e) : datetime3 l.collectedAt = l.collectedAt := by
  rw [points.collectedAt]
  exact datetime3_idem _

/-- A pointer whose entry no newer one of its producer joins goes on pointing at it. -/
theorem PointsTo.mono {env : Env} {ledger ledger' : List Entry} {l : LatestReportRow} {e : Entry}
    (points : PointsTo env ledger l e) (subset : ∀ other ∈ ledger, other ∈ ledger')
    (joins : ∀ other ∈ ledger', other ∉ ledger → other.producer env = e.producer env →
      other.storedAt ≤ e.storedAt) : PointsTo env ledger' l e where
  member := subset e points.member
  producer := points.producer
  reportId := points.reportId
  collectedAt := points.collectedAt
  newest := by
    intro other member same
    by_cases earlier : other ∈ ledger
    · exact points.newest other earlier same
    · exact joins other member earlier same

/-- The upsert keeps the pointer table in step with a ledger the call has joined. -/
theorem Tracks.advanced {env : Env} {ledger : List Entry} {table : List LatestReportRow}
    (tracks : Tracks env ledger table) (call : IngestCall) :
    Tracks env (ledger ++ [Entry.new call]) (advanced env call table) where
  keyed := tracks.keyed.upsert _ (fun _ => rfl)
  sound := by
    intro l member
    rcases mem_upsert.mp member with ⟨free, rfl⟩ | ⟨row, stored, rfl⟩
    · -- the producer's first report
      refine ⟨Entry.new call, by simp, rfl, rfl, rfl, ?_⟩
      intro other inLedger same
      rcases List.mem_append.mp inLedger with earlier | new
      · obtain ⟨row, inTable, rowKey⟩ := tracks.complete other earlier
        exact absurd (rowKey.trans same) (not_clashes_iff.mp free row inTable)
      · rw [List.mem_singleton.mp new]
    · obtain ⟨e, points⟩ := tracks.sound row stored
      by_cases hit : row.key env = (pointerRow call).key env
      · rw [if_pos hit]
        by_cases takes : Takes env call.upload.id call.upload.collectedAt row
        · rw [advancePointer_of_takes points.whole takes]
          refine ⟨Entry.new call, by simp, hit, rfl, rfl, ?_⟩
          intro other inLedger same
          rcases List.mem_append.mp inLedger with earlier | new
          · have older := points.newest other earlier (same.trans (hit.symm.trans points.producer))
            rw [← points.collectedAt] at older
            exact le_trans older (storedAt_le_of_takes points.whole takes)
          · rw [List.mem_singleton.mp new]
        · rw [advancePointer_of_not_takes takes]
          refine ⟨e, points.mono (fun _ early => List.mem_append_left _ early) ?_⟩
          intro other inLedger joined _
          rcases List.mem_append.mp inLedger with earlier | new
          · exact absurd earlier joined
          · rw [List.mem_singleton.mp new, ← points.collectedAt]
            exact storedAt_le_of_not_takes takes
      · rw [if_neg hit]
        refine ⟨e, points.mono (fun _ early => List.mem_append_left _ early) ?_⟩
        intro other inLedger joined same
        rcases List.mem_append.mp inLedger with earlier | new
        · exact absurd earlier joined
        · rw [List.mem_singleton.mp new, ← points.producer] at same
          exact absurd same.symm hit
  complete := by
    have keeps : ∀ row : LatestReportRow,
        (advancePointer env call.upload.id call.upload.collectedAt row).key env = row.key env :=
      fun _ => rfl
    intro e inLedger
    rcases List.mem_append.mp inLedger with earlier | new
    · obtain ⟨row, inTable, rowKey⟩ := tracks.complete e earlier
      obtain ⟨l, inTable', same⟩ := exists_mem_upsert_of_mem (pointerRow call) keeps inTable
      exact ⟨l, inTable', same.trans rowKey⟩
    · rw [List.mem_singleton.mp new]
      exact exists_mem_upsert_new (pointerRow call) table keeps

/-! ## The rebuild -/

theorem keyed_foldl_repoint {env : Env} (rows : List ReportRow) {table : List LatestReportRow}
    (keyed : Keyed (LatestReportRow.key env) table) :
    Keyed (LatestReportRow.key env) (rows.foldl (repoint env) table) := by
  induction rows generalizing table with
  | nil => exact keyed
  | cons r rest ih => exact ih (keyed.upsert _ (fun _ => rfl))

/-- A pointer after the rebuild is one the rebuild wrote, or an old one of a producer it has
no row for. -/
theorem mem_foldl_repoint {env : Env} {rows : List ReportRow} {table : List LatestReportRow}
    {l : LatestReportRow} (member : l ∈ rows.foldl (repoint env) table) :
    (∃ r ∈ rows, l.key env = r.producer env ∧ l.reportId = r.id ∧ l.collectedAt = r.collectedAt) ∨
      (l ∈ table ∧ ∀ r ∈ rows, r.producer env ≠ l.key env) := by
  induction rows generalizing table with
  | nil => exact .inr ⟨member, fun r none => by cases none⟩
  | cons r rest ih =>
    rcases ih member with ⟨r', later, written⟩ | ⟨inTable, others⟩
    · exact .inl ⟨r', List.mem_cons_of_mem r later, written⟩
    · rcases mem_upsert.mp inTable with ⟨-, rfl⟩ | ⟨row, stored, rfl⟩
      · exact .inl ⟨r, List.mem_cons_self, rfl, rfl, rfl⟩
      · by_cases hit : row.key env = r.toPointer.key env
        · rw [if_pos hit]
          exact .inl ⟨r, List.mem_cons_self, hit, rfl, rfl⟩
        · rw [if_neg hit] at others ⊢
          refine .inr ⟨stored, fun r' inRows => ?_⟩
          rcases List.mem_cons.mp inRows with rfl | later
          · exact fun same => hit same.symm
          · exact others r' later

/-- The rebuild leaves a pointer for each producer it has a row for. -/
theorem exists_foldl_repoint {env : Env} {rows : List ReportRow} {table : List LatestReportRow}
    {producer : ProducerKey}
    (known : (∃ l ∈ table, l.key env = producer) ∨ ∃ r ∈ rows, r.producer env = producer) :
    ∃ l ∈ rows.foldl (repoint env) table, l.key env = producer := by
  induction rows generalizing table with
  | nil =>
    rcases known with old | ⟨r, none, -⟩
    · exact old
    · cases none
  | cons r rest ih =>
    have keeps : ∀ row : LatestReportRow,
        { row with reportId := r.id, collectedAt := r.collectedAt }.key env = row.key env :=
      fun _ => rfl
    apply ih
    rcases known with ⟨l, inTable, same⟩ | ⟨r', inRows, same⟩
    · obtain ⟨l', inTable', kept⟩ := exists_mem_upsert_of_mem r.toPointer keeps inTable
      exact .inl ⟨l', inTable', kept.trans same⟩
    · rcases List.mem_cons.mp inRows with rfl | later
      · obtain ⟨l, inTable, written⟩ := exists_mem_upsert_new r'.toPointer table keeps
        exact .inl ⟨l, inTable, written.trans same⟩
      · exact .inr ⟨r', later, same⟩

theorem reportRank_le_storedAt {env : Env} {e other : Entry}
    (rank : reportRank env other.reportRow ≤ reportRank env e.reportRow) :
    other.storedAt ≤ e.storedAt := by
  rcases Prod.Lex.toLex_le_toLex.mp rank with earlier | ⟨same, _⟩
  · exact le_of_lt earlier
  · exact le_of_eq same

/-- What the rebuild needs of the tables: the reports are the ledger's, and each pointer
points at one of them, but a producer may have none. -/
structure Rebuildable (env : Env) (ledger : List Entry) (db : Db) : Prop where
  report : db.report = ledger.map Entry.reportRow
  ids : (ledger.map (Entry.key env)).Nodup
  keyed : Keyed (LatestReportRow.key env) db.latestReport
  sound : ∀ l ∈ db.latestReport, ∃ e, PointsTo env ledger l e

theorem Represents.rebuildable {env : Env} {ledger : List Entry} {db : Db}
    (rep : Represents env ledger db) : Rebuildable env ledger db where
  report := rep.report
  ids := rep.ids
  keyed := rep.latest.keyed
  sound := rep.latest.sound

namespace Rebuildable

variable {env : Env} {ledger : List Entry} {db : Db} (built : Rebuildable env ledger db)

include built

/-- The window's first rows are reports of entries none of their producer is newer
than. -/
theorem mem_topRanked {r : ReportRow} :
    r ∈ topRanked env db ↔ ∃ e ∈ ledger, r = e.reportRow ∧
      ∀ other ∈ ledger, other.producer env = e.producer env →
        reportRank env other.reportRow ≤ reportRank env e.reportRow := by
  unfold topRanked
  rw [mem_leaders, built.report]
  constructor
  · rintro ⟨member, first⟩
    obtain ⟨e, inLedger, rfl⟩ := List.mem_map.mp member
    refine ⟨e, inLedger, rfl, fun other inLedger' same => ?_⟩
    exact first _ (List.mem_map.mpr ⟨other, inLedger', rfl⟩) same
  · rintro ⟨e, inLedger, rfl, top⟩
    refine ⟨List.mem_map.mpr ⟨e, inLedger, rfl⟩, fun row member same => ?_⟩
    obtain ⟨other, inLedger', rfl⟩ := List.mem_map.mp member
    exact top other inLedger' same

theorem exists_topRanked {e : Entry} (member : e ∈ ledger) :
    ∃ r ∈ topRanked env db, r.producer env = e.producer env := by
  have stored : e.reportRow ∈ db.report := by
    rw [built.report]
    exact List.mem_map.mpr ⟨e, member, rfl⟩
  exact exists_mem_leaders stored

/-- Every pointer after the rebuild points at the first entry of its producer. -/
theorem pointsTo_rebuilt {l : LatestReportRow}
    (inTable : l ∈ (rebuildLatestReport env db).latestReport) :
    ∃ e, PointsTo env ledger l e ∧
      ∀ other ∈ ledger, other.producer env = e.producer env →
        reportRank env other.reportRow ≤ reportRank env e.reportRow := by
  rcases mem_foldl_repoint inTable with ⟨r, ranked, producer, id, instant⟩ | ⟨old, others⟩
  · obtain ⟨e, member, rfl, top⟩ := built.mem_topRanked.mp ranked
    refine ⟨e, ⟨member, producer, id, instant, fun other inLedger same => ?_⟩, top⟩
    exact reportRank_le_storedAt (top other inLedger same)
  · obtain ⟨e, points⟩ := built.sound l old
    obtain ⟨r, ranked, same⟩ := built.exists_topRanked points.member
    exact absurd (same.trans points.producer.symm) (others r ranked)

theorem tracks : Tracks env ledger (rebuildLatestReport env db).latestReport where
  keyed := keyed_foldl_repoint _ built.keyed
  sound := fun _ inTable => (built.pointsTo_rebuilt inTable).imp fun _ points => points.1
  complete := fun _ member => exists_foldl_repoint (.inr (built.exists_topRanked member))

end Rebuildable

/-! ## The failing-run table -/

theorem keyed_openRuns {env : Env} (call : IngestCall) {table : List ProblemSinceRow}
    (keyed : Keyed (ProblemSinceRow.key env) table) :
    Keyed (ProblemSinceRow.key env) (openRuns env call table) :=
  openRuns_induction (Keyed (ProblemSinceRow.key env)) keyed (fun _ _ _ keyed => keyed.insertIgnore _)

/-! ## Every write -/

theorem Represents.stored {env : Env} {ledger : List Entry} {db : Db}
    (rep : Represents env ledger db) {call : IngestCall} (accepts : Accepts env ledger call) :
    Represents env (ledger ++ [Entry.new call]) (stored env call db) where
  report := by simp [Fleetwatch.stored, rep.report, entry_new_reportRow]
  checkResult := by
    simp [Fleetwatch.stored, rep.checkResult, Entry.checkRows, Entry.new]
  ids := by
    rw [List.map_append, List.map_singleton]
    refine List.Nodup.append rep.ids (List.nodup_singleton _) ?_
    intro k inLedger new
    obtain ⟨e, member, rfl⟩ := List.mem_map.mp inLedger
    exact accepts.fresh e member (List.mem_singleton.mp new)
  admitted := by
    intro e member
    rcases List.mem_append.mp member with earlier | new
    · exact rep.admitted e earlier
    · exact List.mem_singleton.mp new ▸ accepts.admitted
  fits := by
    intro e member
    rcases List.mem_append.mp member with earlier | new
    · exact rep.fits e earlier
    · exact List.mem_singleton.mp new ▸ accepts.fits
  latest := rep.latest.advanced call
  problemSince := by
    show Keyed _ (if leads env call db then endRuns env call (openRuns env call db.problemSince)
      else db.problemSince)
    split
    · exact (keyed_openRuns call rep.problemSince).deleteWhere _
    · exact rep.problemSince
  mute := rep.mute
  retirement := rep.retirement

theorem not_taken_of_accepts {env : Env} {ledger : List Entry} {db : Db}
    (rep : Represents env ledger db) {call : IngestCall} (accepts : Accepts env ledger call) :
    ¬ Taken env call db := by
  rw [taken_iff rep]
  rintro ⟨e, member, same⟩
  exact accepts.fresh e member same

/-- A stored call is one the ledger takes. -/
theorem accepts_of_stored {env : Env} {ledger : List Entry} {db : Db}
    (rep : Represents env ledger db) {call : IngestCall} (admitted : Admitted env call.upload)
    (free : ¬ Taken env call db) (fits : Fits call) : Accepts env ledger call where
  admitted := admitted
  fits := fits
  fresh := by
    intro e member same
    exact free ((taken_iff rep call).mpr ⟨e, member, same⟩)

theorem ingest_of_accepts {env : Env} {ledger : List Entry} {db : Db}
    (rep : Represents env ledger db) {call : IngestCall} (accepts : Accepts env ledger call) :
    ingest env call db = (.ok (storedAck call), stored env call db) :=
  ingest_eq_stored accepts.admitted (not_taken_of_accepts rep accepts) accepts.fits

theorem ingest_of_not_accepts {env : Env} {ledger : List Entry} {db : Db}
    (rep : Represents env ledger db) {call : IngestCall} (refuses : ¬ Accepts env ledger call) :
    (ingest env call db).2 = db := by
  rcases ingest_eq_self_or_stored env call db with same | ⟨admitted, free, fits, _⟩
  · exact same
  · exact absurd (accepts_of_stored rep admitted free fits) refuses

/-- The ledger step of an ingest is the code's: it stores exactly what the ledger
takes. -/
theorem represents_ingest {env : Env} {ledger : List Entry} {db : Db}
    (rep : Represents env ledger db) (call : IngestCall) :
    Represents env (ledgerStep env ledger (.ingest call)) (ingest env call db).2 := by
  by_cases accepts : Accepts env ledger call
  · rw [ledgerStep_ingest_of_accepts accepts, ingest_of_accepts rep accepts]
    exact rep.stored accepts
  · rw [ledgerStep_ingest_of_not_accepts accepts, ingest_of_not_accepts rep accepts]
    exact rep

theorem represents_sweep {env : Env} {ledger : List Entry} {db : Db}
    (rep : Represents env ledger db) (now rawDays checkDays : Int) :
    Represents env (ledger.map (Entry.sweep now rawDays checkDays))
      (sweep now rawDays checkDays db).2 where
  report := by
    simp only [sweep, rep.report, List.map_map]
    apply List.map_congr_left
    intro e _
    cases cleared : e.rawCleared <;>
      simp [Entry.reportRow, Entry.sweep, cleared, reportRow, insertedReport]
    split <;> simp_all
  checkResult := by
    simp only [sweep, rep.checkResult, deleteWhere, List.filter_flatMap, List.flatMap_map]
    congr 1
    funext e
    have rows : ∀ row ∈ e.checkRows, row.collectedAt = e.storedAt :=
      fun _ => checkRows_collectedAt
    by_cases old : e.storedAt < cutoff now checkDays
    · have none : e.checkRows.filter (fun row => !decide (row.collectedAt < cutoff now checkDays)) =
          [] := by
        rw [List.filter_eq_nil_iff]
        intro row member
        simp [rows row member, old]
      refine none.trans ?_
      simp [Entry.checkRows, Entry.sweep, old]
    · have all : e.checkRows.filter (fun row => !decide (row.collectedAt < cutoff now checkDays)) =
          e.checkRows := by
        rw [List.filter_eq_self]
        intro row member
        simpa [rows row member] using not_lt.mp old
      refine all.trans ?_
      simp [Entry.checkRows, Entry.sweep, old]
  ids := by
    rw [List.map_map]
    exact rep.ids
  admitted := by
    intro e member
    obtain ⟨earlier, inLedger, rfl⟩ := List.mem_map.mp member
    exact rep.admitted earlier inLedger
  fits := by
    intro e member
    obtain ⟨earlier, inLedger, rfl⟩ := List.mem_map.mp member
    exact rep.fits earlier inLedger
  latest := by
    refine ⟨rep.latest.keyed, ?_, ?_⟩
    · intro l member
      obtain ⟨e, points⟩ := rep.latest.sound l member
      refine ⟨e.sweep now rawDays checkDays, List.mem_map.mpr ⟨e, points.member, rfl⟩,
        points.producer, points.reportId, points.collectedAt, ?_⟩
      intro other swept same
      obtain ⟨earlier, inLedger, rfl⟩ := List.mem_map.mp swept
      exact points.newest earlier inLedger same
    · intro e member
      obtain ⟨earlier, inLedger, rfl⟩ := List.mem_map.mp member
      exact rep.latest.complete earlier inLedger
  problemSince := rep.problemSince
  mute := rep.mute
  retirement := rep.retirement

/-- The tables stay a picture of the ledger under every write. -/
theorem represents_step {env : Env} {ledger : List Entry} {db : Db}
    (rep : Represents env ledger db) (op : Op) :
    Represents env (ledgerStep env ledger op) (step env db op) := by
  cases op with
  | ingest call => exact represents_ingest rep call
  | createMute call =>
    show Represents env ledger (createMute env call db).2
    rcases createMute_after env call db with same | ⟨allowed, after⟩
    · rw [same]
      exact rep
    · rw [after]
      exact { rep with mute := rep.mute.append allowed.fresh }
  | deleteMute id => exact { rep with mute := rep.mute.deleteWhere _ }
  | createRetirement call =>
    show Represents env ledger (createRetirement env call db).2
    rcases createRetirement_after env call db with same | ⟨_, after⟩
    · rw [same]
      exact rep
    · rw [after]
      exact { rep with retirement := keyed_retiredIn rep.retirement }
  | deleteRetirement source collector =>
    exact { rep with retirement := rep.retirement.deleteWhere _ }
  | rebuildLatestReport => exact { rep with latest := rep.rebuildable.tracks }
  | sweep now rawDays checkDays => exact represents_sweep rep now rawDays checkDays

/-- The refinement over whole runs. -/
theorem represents_run (env : Env) (ops : List Op) :
    Represents env (Run.run (ledgerStep env) [] ops) (Run.run (step env) Db.empty ops) :=
  Run.run_simulation (Represents env)
    (fun _ _ op rep => represents_step rep op) ops [] Db.empty (represents_empty env)

/-- Every reachable database has a ledger behind it. -/
theorem Reachable.represents {env : Env} {permitted : Op → Prop} {db : Db}
    (reached : Reachable env permitted db) : ∃ ledger, Represents env ledger db := by
  obtain ⟨ops, _, rfl⟩ := reached
  exact ⟨_, represents_run env ops⟩

end Fleetwatch
