import Fleetwatch.Proofs.MuteOverlay

/-!
# A producer that stopped reporting

Freshness is the age of the latest report on its producer's clock; that a producer is
dead is a fact about arrivals, on the server's. The two agree as long as the latest
report's clock was not far ahead when it arrived: `dead_looksDead` has the bound, and
`ahead_looksFresh` shows that no larger one would do.
-/

namespace Fleetwatch

open Query Sql Table

variable {env : Env} {ledger : List Entry} {db : Db}

/-! ## Dead and stale -/

/-- Every stored report of the producer arrived more than three intervals ago. -/
def Dead (env : Env) (now : Int) (interval : Nat) (db : Db) (producer : ProducerKey) : Prop :=
  ∀ r ∈ db.report, r.producer env = producer → r.receivedAt + 3 * interval * second < now

/-- The producer's tile is not fresh, and the board lists it as stale. -/
structure LooksDead (env : Env) (now : Int) (db : Db) (producer : ProducerKey) : Prop where
  notFresh : ∀ tile ∈ overview env now db,
    producerKey env tile.source tile.collector = producer → tile.freshness ≠ .fresh
  stale : ∃ tile ∈ (problems env now db).stale,
    producerKey env tile.source tile.collector = producer

/-- The most a producer's clock may be ahead when a report arrives: one second less than
one and a half intervals, rounded up to whole seconds. -/
def lead (interval : Nat) : Int := (3 * interval - 1) / 2 * second

/-- The law: a dead producer that is not retired looks dead. -/
def DeadLooksDead (env : Env) (now : Int) (db : Db) : Prop :=
  ∀ l ∈ db.latestReport, ∀ r ∈ db.report, r.key env = env.weight l.reportId →
    (∀ row ∈ db.retirement, row.key env ≠ l.key env) →
    Dead env now (declaredInterval r.intervalS) db (l.key env) →
    LooksDead env now db (l.key env)

theorem looksDead_of_tile (rep : Represents env ledger db) {l : LatestReportRow} {e : Entry}
    (inTable : l ∈ db.latestReport) (points : PointsTo env ledger l e) {now : Int}
    (notRetired : ∀ row ∈ db.retirement, row.key env ≠ l.key env)
    (notFresh : (tileOf env now db e).freshness ≠ .fresh) : LooksDead env now db (l.key env) where
  notFresh := by
    intro tile member same
    rw [tile_unique rep inTable points member same]
    exact notFresh
  stale := by
    have member : tileOf env now db e ∈ overview env now db :=
      (mem_overview rep).mpr ⟨l, inTable, e, points, rfl⟩
    have stale : isStale (listRetirements db) (tileOf env now db e) = true := by
      rw [← Bool.not_eq_false, isStale_eq_false_iff, not_or]
      refine ⟨?_, notFresh⟩
      intro found
      obtain ⟨row, stored, source, collector⟩ := found
      refine notRetired row stored ?_
      rw [points.producer]
      unfold RetirementRow.key
      rw [source, collector]
      rfl
    exact ⟨_, List.mem_filter.mpr ⟨member, stale⟩, points.producer.symm⟩

/-- In every reachable state, at every instant, a dead producer that is not retired looks
dead, provided that its latest report's clock was not too far ahead when it arrived. -/
theorem dead_looksDead {permitted : Op → Prop} (reached : Reachable env permitted db) {now : Int}
    (instant : isInstant now = true) {l : LatestReportRow} (inTable : l ∈ db.latestReport)
    {r : ReportRow} (stored : r ∈ db.report) (latest : r.key env = env.weight l.reportId)
    (notRetired : ∀ row ∈ db.retirement, row.key env ≠ l.key env)
    (dead : Dead env now (declaredInterval r.intervalS) db (l.key env))
    (clock : r.collectedAt ≤ r.receivedAt + lead (declaredInterval r.intervalS)) :
    LooksDead env now db (l.key env) := by
  obtain ⟨ledger, rep⟩ := reached.represents
  obtain ⟨e, points⟩ := rep.latest.sound l inTable
  obtain rfl : r = e.reportRow := rep.row_of_pointer points stored latest
  refine looksDead_of_tile rep inTable points notRetired ?_
  have fits := rep.fits e points.member
  have arrived : e.reportRow.receivedAt + 3 * declaredInterval e.reportRow.intervalS * second <
      now := dead e.reportRow stored points.producer.symm
  have floored := one_le_declaredInterval e.reportRow.intervalS
  have collected : e.storedAt ≤ e.reportRow.receivedAt + lead (declaredInterval
      e.reportRow.intervalS) := clock
  have old : (3 * declaredInterval e.reportRow.intervalS / 2 + 1) * second ≤ now - e.storedAt := by
    unfold lead second at *
    omega
  have calendar := age_le fits instant
  obtain ⟨lower, _⟩ := tdiv_second_mem old calendar
  have small : declaredInterval e.call.upload.intervalS < 2 ^ 61 := by
    show declaredInterval e.reportRow.intervalS < 2 ^ 61
    unfold second at *
    omega
  rw [ne_eq, tileOf_fresh_iff fits instant small]
  show ¬ (now - e.storedAt).tdiv second * 2 ≤ declaredInterval e.reportRow.intervalS * 3
  omega

/-- The sample report is dead four hours on. -/
theorem dead_looksDead_sample :
    LooksDead asciiEnv (14400 * second) (stateAfter asciiEnv [.ingest sampleReport])
      (producerKey asciiEnv "amun" "disk") := by
  have reached : Reachable asciiEnv Op.isCall (stateAfter asciiEnv [.ingest sampleReport]) :=
    ⟨[.ingest sampleReport], by simp [Op.isCall], rfl⟩
  have pointer : pointerRow sampleReport ∈
      (stateAfter asciiEnv [.ingest sampleReport]).latestReport := by decide
  have report : reportRow sampleReport ∈
      (stateAfter asciiEnv [.ingest sampleReport]).report := by decide
  refine dead_looksDead reached (by decide) pointer report rfl (by decide) ?_ (by decide)
  unfold Dead
  decide

/-- A report stamped a day ahead keeps its dead producer fresh. -/
theorem dead_looksFresh :
    ¬ ∀ env calls now, isInstant now = true →
      DeadLooksDead env now (ingestAll env Db.empty calls) := by
  intro claimed
  let ahead :=
    { sampleCall "amun" "disk" "01ARZ3NDEKTSV4RRFFQ69G5FAV" (86400 * second) [] with now := 0 }
  have looksDead := claimed asciiEnv [ahead] (14400 * second) (by decide) (pointerRow ahead)
    (by decide) (reportRow ahead) (by decide) rfl (by decide) (by unfold Dead; decide)
  obtain ⟨tile, stale, _⟩ := looksDead.stale
  have none : (problems asciiEnv (14400 * second) (ingestAll asciiEnv Db.empty [ahead])).stale =
      [] := by decide
  rw [none] at stale
  cases stale

/-- The bound is exact: where the clock was further ahead, the producer does not look dead
at the first instant it is. -/
theorem ahead_looksFresh {permitted : Op → Prop} (reached : Reachable env permitted db)
    {l : LatestReportRow} (inTable : l ∈ db.latestReport) {r : ReportRow} (stored : r ∈ db.report)
    (latest : r.key env = env.weight l.reportId) (received : isInstant r.receivedAt = true)
    {now : Int} (instant : isInstant now = true)
    (first : now = r.receivedAt + 3 * declaredInterval r.intervalS * second + 1)
    (clock : r.receivedAt + lead (declaredInterval r.intervalS) < r.collectedAt) :
    ¬ LooksDead env now db (l.key env) := by
  intro looksDead
  obtain ⟨ledger, rep⟩ := reached.represents
  obtain ⟨e, points⟩ := rep.latest.sound l inTable
  obtain rfl : r = e.reportRow := rep.row_of_pointer points stored latest
  have fits := rep.fits e points.member
  have member : tileOf env now db e ∈ overview env now db :=
    (mem_overview rep).mpr ⟨l, inTable, e, points, rfl⟩
  refine looksDead.notFresh _ member points.producer.symm ?_
  have floored := one_le_declaredInterval e.reportRow.intervalS
  have small : declaredInterval e.reportRow.intervalS < 2 ^ 61 := by
    obtain ⟨_, before⟩ := isInstant_iff.mp instant
    obtain ⟨notBefore, _⟩ := isInstant_iff.mp received
    unfold second at *
    omega
  -- the columns keep whole milliseconds, so ahead is at least one of them
  have young : now - e.storedAt < (3 * declaredInterval e.reportRow.intervalS / 2 + 1) * second := by
    have collected : e.reportRow.receivedAt + lead (declaredInterval e.reportRow.intervalS) <
        e.storedAt := clock
    have wholeStored : datetime3 e.storedAt = e.storedAt := datetime3_idem _
    have wholeReceived : datetime3 e.reportRow.receivedAt = e.reportRow.receivedAt :=
      datetime3_idem _
    unfold lead second datetime3 at *
    omega
  rw [tileOf_fresh_iff fits instant small]
  have age := tdiv_second_lt (by omega) young
  show (now - e.storedAt).tdiv second * 2 ≤ declaredInterval e.reportRow.intervalS * 3
  omega

end Fleetwatch
