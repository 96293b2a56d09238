import Fleetwatch.Proofs.Acknowledged

/-!
# The maintained pointer and the ranking

Migration 0005 says the pointer materialises exactly the window's order: the newest
stored instant, then the larger id. The upsert compares the instant it was sent,
with its microseconds, to the one stored before, without them; so two reports of
one millisecond are ordered by id only when the later arrival has no digits below
the millisecond. `pointer_isRanking_iff` says the two orders agree over a run
exactly when no call of it meets that difference.
-/

namespace Fleetwatch

open Ranking Sql Table

variable {env : Env} {ledger : List Entry} {db : Db}

/-- The pointer table is the window: one row for each producer that has a report, which
carries the id and the stored instant of the report ranked first; and so the rebuild
changes nothing. -/
structure PointerIsRanking (env : Env) (db : Db) : Prop where
  one : ∀ r ∈ db.report, ∃ l, rowsAt (LatestReportRow.key env) (r.producer env) db.latestReport = [l]
  ranked : ∀ l ∈ db.latestReport, ∃ r ∈ topRanked env db,
    r.producer env = l.key env ∧ l.reportId = r.id ∧ l.collectedAt = r.collectedAt
  rebuild : rebuildLatestReport env db = db

/-- The call is not one that is stored in its producer's latest millisecond with digits
below it and an id below the latest report's. -/
def InOrder (env : Env) (db : Db) (call : IngestCall) : Prop :=
  Admitted env call.upload → ¬ Taken env call db → Fits call →
    ∀ l ∈ db.latestReport, l.key env = producerKey env call.source call.upload.collector →
      l.collectedAt = datetime3 call.upload.collectedAt →
      bindDatetime call.upload.collectedAt ≠ l.collectedAt →
      env.weight l.reportId ≤ env.weight call.upload.id

/-! ## The ranking of the ledger -/

/-- The window's rank of an entry. -/
def Entry.rank (env : Env) (e : Entry) : Int ×ₗ List Nat := reportRank env e.reportRow

theorem rank_le_iff {e e' : Entry} :
    e.rank env ≤ e'.rank env ↔
      e.storedAt < e'.storedAt ∨ (e.storedAt = e'.storedAt ∧ e.key env ≤ e'.key env) :=
  Prod.Lex.toLex_le_toLex

/-- The window ranks the entry first of its producer. -/
def IsTop (env : Env) (ledger : List Entry) (e : Entry) : Prop :=
  ∀ other ∈ ledger, other.producer env = e.producer env → other.rank env ≤ e.rank env

/-- Every pointer points at the entry ranked first. -/
def PointsAtTop (env : Env) (ledger : List Entry) (table : List LatestReportRow) : Prop :=
  ∀ l ∈ table, ∀ e, PointsTo env ledger l e → IsTop env ledger e

theorem IsTop.unique (rep : Represents env ledger db) {e e' : Entry} (member : e ∈ ledger)
    (member' : e' ∈ ledger) (top : IsTop env ledger e) (top' : IsTop env ledger e')
    (same : e.producer env = e'.producer env) : e = e' := by
  have le := top' e member same
  have ge := top e' member' same.symm
  have ranks := le_antisymm le ge
  exact rep.eq_of_key member member' (Prod.mk.inj (toLex.injective ranks)).2

/-- A pointer table that points at the first entries is one the rebuild leaves alone. -/
theorem rebuild_eq_self (rep : Represents env ledger db)
    (top : PointsAtTop env ledger db.latestReport) : rebuildLatestReport env db = db := by
  have fixed : ∀ r ∈ topRanked env db, repoint env db.latestReport r = db.latestReport := by
    intro r ranked
    obtain ⟨e, member, rfl, first⟩ := rep.rebuildable.mem_topRanked.mp ranked
    refine upsert_eq_self (rep.latest.complete e member) ?_
    intro l inTable same
    obtain ⟨e', points⟩ := rep.latest.sound l inTable
    obtain rfl : e' = e := by
      refine IsTop.unique rep points.member member (top l inTable e' points) first ?_
      exact points.producer.symm.trans same
    show { l with reportId := e'.id, collectedAt := e'.storedAt } = l
    rw [← points.reportId, ← points.collectedAt]
  have fold : ∀ rows : List ReportRow, (∀ r ∈ rows, r ∈ topRanked env db) →
      rows.foldl (repoint env) db.latestReport = db.latestReport := by
    intro rows
    induction rows with
    | nil => intro _; rfl
    | cons r rest ih =>
      intro ranked
      rw [List.foldl_cons, fixed r (ranked r List.mem_cons_self)]
      exact ih (fun other later => ranked other (List.mem_cons_of_mem _ later))
  unfold rebuildLatestReport
  rw [fold _ (fun _ member => member)]

/-- Pointing at the first of the ranking, a property of the tables, is one of the ledger. -/
theorem pointerIsRanking_iff_top (rep : Represents env ledger db) :
    PointerIsRanking env db ↔ PointsAtTop env ledger db.latestReport := by
  constructor
  · intro ranking l inTable e points
    obtain ⟨r, top, _, id, _⟩ := ranking.ranked l inTable
    obtain ⟨e', member, rfl, first⟩ := rep.rebuildable.mem_topRanked.mp top
    obtain rfl : e = e' := rep.pointee_eq points member id
    exact first
  · intro top
    refine ⟨?_, ?_, rebuild_eq_self rep top⟩
    · intro r stored
      rw [rep.report] at stored
      obtain ⟨e, member, rfl⟩ := List.mem_map.mp stored
      obtain ⟨l, inTable, same⟩ := rep.latest.complete e member
      refine ⟨l, ?_⟩
      rw [entry_reportRow_producer, ← same]
      exact rep.latest.keyed.rowsAt_eq inTable
    · intro l inTable
      obtain ⟨e, points⟩ := rep.latest.sound l inTable
      refine ⟨e.reportRow, rep.rebuildable.mem_topRanked.mpr ⟨e, points.member, rfl, ?_⟩,
        points.producer.symm, points.reportId, points.collectedAt⟩
      exact top l inTable e points

/-! ## One call -/

/-- Where the upsert takes the new id it ranks at least as high as the old one, unless it
took it for digits the column dropped. -/
theorem rank_le_of_takes {call : IngestCall} {l : LatestReportRow} {e : Entry}
    (points : PointsTo env ledger l e)
    (takes : Takes env call.upload.id call.upload.collectedAt l) :
    e.rank env ≤ (Entry.new call).rank env ↔
      (l.collectedAt = datetime3 call.upload.collectedAt →
        bindDatetime call.upload.collectedAt ≠ l.collectedAt →
        env.weight l.reportId ≤ env.weight call.upload.id) := by
  rw [rank_le_iff, ← points.collectedAt]
  show l.collectedAt < datetime3 call.upload.collectedAt ∨
    (l.collectedAt = datetime3 call.upload.collectedAt ∧
      env.weight e.id ≤ env.weight call.upload.id) ↔ _
  rw [← points.reportId]
  have le := storedAt_le_of_takes points.whole takes
  constructor
  · rintro (later | ⟨_, larger⟩) same _
    · exact absurd same (ne_of_lt later)
    · exact larger
  · intro ordered
    rcases lt_or_eq_of_le le with later | same
    · exact Or.inl later
    · refine Or.inr ⟨same, ?_⟩
      rcases takes with finer | ⟨_, larger⟩
      · exact ordered same (ne_of_gt finer)
      · exact le_of_lt larger

/-- A report that does not take the pointer ranks below the one it names. -/
theorem rank_le_of_not_takes {call : IngestCall} {l : LatestReportRow} {e : Entry}
    (points : PointsTo env ledger l e)
    (keeps : ¬ Takes env call.upload.id call.upload.collectedAt l) :
    (Entry.new call).rank env ≤ e.rank env := by
  rw [rank_le_iff, ← points.collectedAt]
  show datetime3 call.upload.collectedAt < l.collectedAt ∨
    (datetime3 call.upload.collectedAt = l.collectedAt ∧
      env.weight call.upload.id ≤ env.weight e.id)
  rw [← points.reportId]
  rcases lt_or_eq_of_le (storedAt_le_of_not_takes keeps) with earlier | same
  · exact Or.inl earlier
  · refine Or.inr ⟨same, ?_⟩
    obtain ⟨notLater, notTie⟩ := not_or.mp keeps
    have bound : bindDatetime call.upload.collectedAt = l.collectedAt := by
      refine le_antisymm (not_lt.mp notLater) ?_
      rw [← same]
      exact datetime3_le_bind _
    exact not_lt.mp (fun larger => notTie ⟨bound, larger⟩)

section Stored

variable (rep : Represents env ledger db) {call : IngestCall} (accepts : Accepts env ledger call)

include rep accepts

/-- A stored call that leaves every pointer at the top is in order: where it takes the
pointer for its microseconds, its entry must rank first. -/
theorem inOrder_of_pointsAtTop
    (after : PointsAtTop env (ledger ++ [Entry.new call]) (advanced env call db.latestReport)) :
    InOrder env db call := by
  intro _ _ _ l inTable hit same finer
  have rep' := rep.stored accepts
  obtain ⟨e, points⟩ := rep.latest.sound l inTable
  have later : l.collectedAt < bindDatetime call.upload.collectedAt := by
    refine lt_of_le_of_ne ?_ (Ne.symm finer)
    rw [same]
    exact datetime3_le_bind _
  have inTable' : advancePointer env call.upload.id call.upload.collectedAt l ∈
      advanced env call db.latestReport :=
    mem_upsert.mpr (Or.inr ⟨l, inTable, (if_pos hit).symm⟩)
  rw [advancePointer_of_takes points.whole (Or.inl later)] at inTable'
  obtain ⟨e', points'⟩ := rep'.latest.sound _ inTable'
  obtain rfl : e' = Entry.new call := rep'.pointee_eq points' (by simp) rfl
  have rank := after _ inTable' _ points' e (List.mem_append_left _ points.member)
    (points.producer.symm.trans hit)
  exact (rank_le_of_takes points (Or.inl later)).mp rank same finer

/-- Where the new entry's pointer is, nothing ranks above it. -/
theorem top_of_new (top : PointsAtTop env ledger db.latestReport) (inOrder : InOrder env db call)
    {row : LatestReportRow} (inTable : row ∈ db.latestReport) {e : Entry}
    (points : PointsTo env ledger row e) (hit : row.key env = (pointerRow call).key env)
    (takes : Takes env call.upload.id call.upload.collectedAt row) {other : Entry}
    (member : other ∈ ledger ++ [Entry.new call])
    (sameProducer : other.producer env = (Entry.new call).producer env) :
    other.rank env ≤ (Entry.new call).rank env := by
  have free := not_taken_of_accepts rep accepts
  have higher : e.rank env ≤ (Entry.new call).rank env :=
    (rank_le_of_takes points takes).mpr
      (inOrder accepts.admitted free accepts.fits row inTable hit)
  rcases List.mem_append.mp member with earlier | new
  · refine le_trans (top row inTable e points other earlier ?_) higher
    exact sameProducer.trans (hit.symm.trans points.producer)
  · rw [List.mem_singleton.mp new]

/-- A pointer left alone stays at the top when the new entry does not outrank it. -/
theorem top_of_old (top : PointsAtTop env ledger db.latestReport) {row : LatestReportRow}
    (inTable : row ∈ db.latestReport) {e e' : Entry} (points : PointsTo env ledger row e)
    (points' : PointsTo env (ledger ++ [Entry.new call]) row e')
    (notNew : (Entry.new call).producer env = e.producer env →
      (Entry.new call).rank env ≤ e.rank env)
    {other : Entry} (member : other ∈ ledger ++ [Entry.new call])
    (sameProducer : other.producer env = e'.producer env) : other.rank env ≤ e'.rank env := by
  have rep' := rep.stored accepts
  obtain rfl : e' = e :=
    rep'.pointee_eq points' (List.mem_append_left _ points.member) points.reportId
  rcases List.mem_append.mp member with earlier | new
  · exact top row inTable e' points other earlier sameProducer
  · rw [List.mem_singleton.mp new] at sameProducer ⊢
    exact notNew sameProducer

theorem pointsAtTop_of_inOrder (top : PointsAtTop env ledger db.latestReport)
    (inOrder : InOrder env db call) :
    PointsAtTop env (ledger ++ [Entry.new call]) (advanced env call db.latestReport) := by
  have rep' := rep.stored accepts
  have inNew : Entry.new call ∈ ledger ++ [Entry.new call] := by simp
  intro l inTable' e' points' other member sameProducer
  rcases mem_upsert.mp inTable' with ⟨unheld, rfl⟩ | ⟨row, inTable, rfl⟩
  · -- the producer's first report has nothing to outrank
    rcases List.mem_append.mp member with earlier | new
    · obtain ⟨row, inTable, rowKey⟩ := rep.latest.complete other earlier
      refine absurd ?_ (not_clashes_iff.mp unheld row inTable)
      exact rowKey.trans (sameProducer.trans points'.producer.symm)
    · obtain rfl : e' = Entry.new call := rep'.pointee_eq points' inNew rfl
      rw [List.mem_singleton.mp new]
  · obtain ⟨e, points⟩ := rep.latest.sound row inTable
    by_cases hit : row.key env = (pointerRow call).key env
    · rw [if_pos hit] at points'
      by_cases takes : Takes env call.upload.id call.upload.collectedAt row
      · rw [advancePointer_of_takes points.whole takes] at points'
        obtain rfl : e' = Entry.new call := rep'.pointee_eq points' inNew rfl
        exact top_of_new rep accepts top inOrder inTable points hit takes member sameProducer
      · rw [advancePointer_of_not_takes takes] at points'
        exact top_of_old rep accepts top inTable points points'
          (fun _ => rank_le_of_not_takes points takes) member sameProducer
    · rw [if_neg hit] at points'
      refine top_of_old rep accepts top inTable points points' ?_ member sameProducer
      intro producer
      exact absurd (points.producer.trans producer.symm) hit

end Stored

/-- A stored call keeps the pointers at the top exactly when it is in order. -/
theorem pointsAtTop_stored_iff (rep : Represents env ledger db)
    (top : PointsAtTop env ledger db.latestReport) {call : IngestCall}
    (accepts : Accepts env ledger call) :
    PointsAtTop env (ledger ++ [Entry.new call]) (advanced env call db.latestReport) ↔
      InOrder env db call :=
  ⟨inOrder_of_pointsAtTop rep accepts, pointsAtTop_of_inOrder rep accepts top⟩

/-- One call, stored or not, keeps the pointer the ranking exactly when it is in order. -/
theorem pointerIsRanking_ingest_iff (rep : Represents env ledger db)
    (ranking : PointerIsRanking env db) (call : IngestCall) :
    PointerIsRanking env (ingest env call db).2 ↔ InOrder env db call := by
  by_cases accepts : Accepts env ledger call
  · rw [ingest_of_accepts rep accepts, pointerIsRanking_iff_top (rep.stored accepts)]
    exact pointsAtTop_stored_iff rep ((pointerIsRanking_iff_top rep).mp ranking) accepts
  · rw [ingest_of_not_accepts rep accepts]
    refine iff_of_true ranking ?_
    intro admitted free fits
    exact absurd (accepts_of_stored rep admitted free fits) accepts

/-! ## Runs -/

theorem ingestAll_eq_stateAfter (env : Env) (calls : List IngestCall) :
    ingestAll env Db.empty calls = stateAfter env (calls.map Op.ingest) := by
  unfold ingestAll stateAfter Run.run
  rw [List.foldl_map]
  rfl

theorem ingestAll_append_singleton (env : Env) (start : Db) (calls : List IngestCall)
    (call : IngestCall) :
    ingestAll env start (calls ++ [call]) = (ingest env call (ingestAll env start calls)).2 := by
  unfold ingestAll
  rw [Run.run_append, Run.run_cons, Run.run_nil]

theorem represents_ingestAll (env : Env) (calls : List IngestCall) :
    ∃ ledger, Represents env ledger (ingestAll env Db.empty calls) := by
  rw [ingestAll_eq_stateAfter]
  exact ⟨_, represents_run env _⟩

theorem pointerIsRanking_empty (env : Env) : PointerIsRanking env Db.empty :=
  (pointerIsRanking_iff_top (represents_empty env)).mpr (by intro l inTable; cases inTable)

/-- Over a run of ingest calls the pointer is the ranking after every call exactly when
every call is in order in the state it meets. -/
theorem pointer_isRanking_iff (env : Env) (calls : List IngestCall) :
    (∀ before after, calls = before ++ after →
      PointerIsRanking env (ingestAll env Db.empty before)) ↔
    ∀ before call after, calls = before ++ call :: after →
      InOrder env (ingestAll env Db.empty before) call := by
  constructor
  · intro always before call after split
    obtain ⟨ledger, rep⟩ := represents_ingestAll env before
    have now := always before (call :: after) split
    have next := always (before ++ [call]) after (by simp [split])
    rw [ingestAll_append_singleton] at next
    exact (pointerIsRanking_ingest_iff rep now call).mp next
  · intro inOrder before
    induction before using List.reverseRecOn with
    | nil => intro _ _; exact pointerIsRanking_empty env
    | append_singleton earlier call ih =>
      intro after split
      have split' : calls = earlier ++ call :: after := by simp [split]
      obtain ⟨ledger, rep⟩ := represents_ingestAll env earlier
      rw [ingestAll_append_singleton]
      exact (pointerIsRanking_ingest_iff rep (ih _ split') call).mpr
        (inOrder earlier call after split')

/-- Two reports half a millisecond apart: the later one has the smaller id, takes the
pointer for its microseconds and is stored in the same millisecond. -/
theorem pointer_not_ranking :
    ¬ ∀ env calls, PointerIsRanking env (ingestAll env Db.empty calls) := by
  intro claimed
  let first := sampleCall "amun" "disk" "01ARZ3NDEKTSV4RRFFQ69G5FAW" 0 []
  let second := sampleCall "amun" "disk" "01ARZ3NDEKTSV4RRFFQ69G5FAV" 500000 []
  have ranking := claimed asciiEnv [first, second]
  have pointer : { pointerRow first with reportId := second.upload.id } ∈
      (ingestAll asciiEnv Db.empty [first, second]).latestReport := by decide
  have top : topRanked asciiEnv (ingestAll asciiEnv Db.empty [first, second]) =
      [reportRow first] := by decide
  obtain ⟨r, isTop, _, id, _⟩ := ranking.ranked _ pointer
  rw [top, List.mem_singleton] at isTop
  rw [isTop] at id
  exact absurd id (by decide)

end Fleetwatch
