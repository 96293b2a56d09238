import Fleetwatch.Proofs.Reading
import Mathlib.Algebra.Group.Int.Defs

/-!
# A producer's tile

The overview has one tile for each pointer, made from the report the pointer names.
The lists the board derives from it keep or drop that tile, and what they look at is
its freshness: the age of the report in whole seconds against the interval it
declares. The ages of stored reports are far from the ends of an `i64`, so nothing
wraps.
-/

namespace Fleetwatch

open Query Sql Table

variable {env : Env} {ledger : List Entry} {db : Db}

/-! ## One tile -/

theorem mem_overview (rep : Represents env ledger db) {now : Int} {tile : OverviewEntry} :
    tile ∈ overview env now db ↔
      ∃ l ∈ db.latestReport, ∃ e, PointsTo env ledger l e ∧
        tile = overviewEntry now (latestRow env now db e.reportRow) := by
  unfold overview
  rw [List.mem_map]
  constructor
  · rintro ⟨row, member, rfl⟩
    rw [mem_orderBy] at member
    obtain ⟨r, found, rfl⟩ := List.mem_map.mp member
    obtain ⟨l, inTable, e, points, rfl⟩ := (mem_latestReports rep).mp found
    exact ⟨l, inTable, e, points, rfl⟩
  · rintro ⟨l, inTable, e, points, rfl⟩
    refine ⟨_, ?_, rfl⟩
    rw [mem_orderBy]
    exact List.mem_map.mpr ⟨_, (mem_latestReports rep).mpr ⟨l, inTable, e, points, rfl⟩, rfl⟩

/-- The tile of the entry a pointer names. -/
def tileOf (env : Env) (now : Int) (db : Db) (e : Entry) : OverviewEntry :=
  overviewEntry now (latestRow env now db e.reportRow)

/-- A producer has one tile. -/
theorem tile_unique (rep : Represents env ledger db) {l : LatestReportRow} {e : Entry}
    (inTable : l ∈ db.latestReport) (points : PointsTo env ledger l e) {now : Int}
    {tile : OverviewEntry} (member : tile ∈ overview env now db)
    (same : producerKey env tile.source tile.collector = l.key env) :
    tile = tileOf env now db e := by
  obtain ⟨l', inTable', e', points', rfl⟩ := (mem_overview rep).mp member
  have producer : l'.key env = l.key env := points'.producer.trans same
  obtain rfl := rep.latest.keyed.eq_of_key_eq inTable' inTable producer
  obtain rfl := rep.pointee_eq points' points.member points.reportId
  rfl

/-- A list that filters the overview has no tile of the producer exactly when the filter
drops its one. -/
theorem silent_iff (rep : Represents env ledger db) {l : LatestReportRow} {e : Entry}
    (inTable : l ∈ db.latestReport) (points : PointsTo env ledger l e) (now : Int)
    (cond : OverviewEntry → Bool) :
    (∀ tile ∈ (overview env now db).filter cond,
        producerKey env tile.source tile.collector ≠ l.key env) ↔
      cond (tileOf env now db e) = false := by
  constructor
  · intro silent
    by_contra shown
    rw [Bool.not_eq_false] at shown
    have member : tileOf env now db e ∈ overview env now db :=
      (mem_overview rep).mpr ⟨l, inTable, e, points, rfl⟩
    exact silent _ (List.mem_filter.mpr ⟨member, shown⟩) points.producer.symm
  · intro dropped tile member same
    obtain ⟨inOverview, kept⟩ := List.mem_filter.mp member
    rw [tile_unique rep inTable points inOverview same, dropped] at kept
    cases kept

/-- A tile is not stale exactly when a retirement carries its very names or it is
fresh. -/
theorem isStale_eq_false_iff (tile : OverviewEntry) :
    isStale (listRetirements db) tile = false ↔
      (∃ row ∈ db.retirement, row.source = tile.source ∧ row.collector = tile.collector) ∨
        tile.freshness = .fresh := by
  unfold isStale
  cases found : retired (listRetirements db) tile.source tile.collector with
  | none =>
    have absent := retired_eq_none_iff.mp found
    simp only [decide_eq_false_iff_not, ne_eq, not_not]
    constructor
    · exact Or.inr
    · rintro (⟨row, stored, same⟩ | fresh)
      · exact absurd same (absent row stored)
      · exact fresh
  | some r =>
    obtain ⟨row, stored, _, source, collector⟩ := retired_eq_some found
    exact iff_of_true rfl (Or.inl ⟨row, stored, source, collector⟩)

/-! ## The arithmetic of an age -/

/-- The interval a report declares: hourly when absent, at least a second. -/
def declaredInterval (intervalS : Option UInt64) : Nat :=
  max 1 ((intervalS.map UInt64.toNat).getD 3600)

theorem one_le_declaredInterval (intervalS : Option UInt64) : 1 ≤ declaredInterval intervalS :=
  le_max_left _ _

/-- Flooring at one, as integers. -/
theorem toInt_floor (i : Int64) : (if i < 1 then (1 : Int64) else i).toInt = max 1 i.toInt := by
  by_cases less : i < 1
  · have less' : i.toInt < 1 := Int64.lt_iff_toInt_lt.mp less
    rw [if_pos less, max_eq_left (le_of_lt less')]
    rfl
  · have notLess : ¬ i.toInt < 1 := fun less' => less (Int64.lt_iff_toInt_lt.mpr less')
    rw [if_neg less, max_eq_right (not_lt.mp notLess)]

/-- An interval an `i64` can hold is measured as it is declared. -/
theorem toInt_effectiveInterval {intervalS : Option UInt64}
    (small : declaredInterval intervalS < 2 ^ 63) :
    (effectiveInterval intervalS).toInt = declaredInterval intervalS := by
  unfold effectiveInterval
  rw [toInt_floor]
  cases intervalS with
  | none => decide
  | some i =>
    unfold declaredInterval at small ⊢
    simp only [Option.map_some, Option.getD_some] at small ⊢
    have fits : 2 * i.toBitVec.toNat < 2 ^ 64 := by
      rw [UInt64.toNat_toBitVec]
      omega
    have same : i.toInt64.toInt = i.toNat := BitVec.toInt_eq_toNat_of_lt fits
    rw [same]
    omega

theorem toInt_numSeconds {delta : Int} (lower : -2 ^ 63 ≤ delta.tdiv second)
    (upper : delta.tdiv second < 2 ^ 63) : (numSeconds delta).toInt = delta.tdiv second :=
  Int64.toInt_ofInt_of_le lower upper

/-- A product an `i64` can hold does not wrap. -/
theorem toInt_mul_of_small {a b : Int64} (lower : -2 ^ 63 ≤ a.toInt * b.toInt)
    (upper : a.toInt * b.toInt < 2 ^ 63) : (a * b).toInt = a.toInt * b.toInt := by
  rw [Int64.toInt_mul, Int.bmod_eq_of_le]
  · omega
  · omega

theorem freshness_eq_fresh_iff (ageS : Int64) (intervalS : Option UInt64) :
    freshness ageS intervalS = .fresh ↔ ageS * 2 ≤ effectiveInterval intervalS * 3 := by
  unfold freshness
  by_cases fresh : ageS * 2 ≤ effectiveInterval intervalS * 3
  · simp only [fresh, if_true]
  · simp only [fresh, if_false, iff_false]
    split <;> simp

theorem toInt_doubled {ageS : Int64} (lower : -2 ^ 61 ≤ ageS.toInt) (upper : ageS.toInt < 2 ^ 61) :
    (ageS * 2).toInt = ageS.toInt * 2 := by
  have two : (2 : Int64).toInt = 2 := rfl
  rw [toInt_mul_of_small, two] <;> rw [two] <;> omega

theorem toInt_tripled {intervalS : Option UInt64} (small : declaredInterval intervalS < 2 ^ 61) :
    (effectiveInterval intervalS * 3).toInt = declaredInterval intervalS * 3 := by
  have interval : (effectiveInterval intervalS).toInt = declaredInterval intervalS :=
    toInt_effectiveInterval (by omega)
  have three : (3 : Int64).toInt = 3 := rfl
  rw [toInt_mul_of_small, three, interval] <;> rw [three, interval] <;> omega

theorem isInstant_iff {t : Int} :
    isInstant t = true ↔ -8334601228800 * second ≤ t ∧ t < 8210266876800 * second := by
  simp [isInstant]

/-- Whole seconds keep the order of the differences they are taken from. -/
theorem tdiv_second_mem {delta lower upper : Int} (ge : lower * second ≤ delta)
    (le : delta ≤ upper * second) :
    lower ≤ delta.tdiv second ∧ delta.tdiv second ≤ upper := by
  have positive : 0 < second := by decide
  have cancel : ∀ k : Int, (k * second).tdiv second = k :=
    fun k => Int.mul_tdiv_cancel k (ne_of_gt positive)
  refine ⟨?_, ?_⟩
  · rw [← cancel lower]
    exact Int.tdiv_le_tdiv positive ge
  · rw [← cancel upper]
    exact Int.tdiv_le_tdiv positive le

theorem tdiv_second_lt {delta bound : Int} (positive : 0 < bound) (lt : delta < bound * second) :
    delta.tdiv second < bound := by
  rcases le_total 0 delta with later | earlier
  · rw [Int.tdiv_eq_ediv_of_nonneg later]
    exact Int.ediv_lt_of_lt_mul (by decide) lt
  · have truncated : delta.tdiv second ≤ 0 := by
      rw [← Int.zero_tdiv second]
      exact Int.tdiv_le_tdiv (by decide) earlier
    omega

/-- A stored instant is one a `DATETIME` holds. -/
theorem storedAt_bounds {e : Entry} (fits : Fits e.call) :
    datetimeMin ≤ e.storedAt ∧ e.storedAt < datetimeEnd := by
  obtain ⟨notEarlier, earlier⟩ : datetimeMin ≤ e.call.upload.collectedAt ∧
      e.call.upload.collectedAt < datetimeEnd := by simpa [isDatetime] using fits.collectedAt
  have whole : datetime3 datetimeMin = datetimeMin := by decide
  refine ⟨?_, lt_of_le_of_lt (datetime3_le _) earlier⟩
  rw [← whole]
  exact datetime3_mono notEarlier

/-- No stored report is older than the calendar allows. -/
theorem age_le {e : Entry} (fits : Fits e.call) {now : Int} (instant : isInstant now = true) :
    now - e.storedAt ≤ 8272434096000 * second := by
  obtain ⟨_, before⟩ := isInstant_iff.mp instant
  obtain ⟨notEarlier, _⟩ := storedAt_bounds fits
  unfold datetimeMin at notEarlier
  omega

/-- The age of a stored report, and that it is far from the ends of an `i64`. -/
theorem toInt_age {e : Entry} (fits : Fits e.call) {now : Int} (instant : isInstant now = true) :
    (numSeconds (now - e.storedAt)).toInt = (now - e.storedAt).tdiv second ∧
      -8588003529600 ≤ (now - e.storedAt).tdiv second ∧
      (now - e.storedAt).tdiv second ≤ 8272434096000 := by
  obtain ⟨notBefore, _⟩ := isInstant_iff.mp instant
  obtain ⟨_, earlier⟩ := storedAt_bounds fits
  have atLeast : -8588003529600 * second ≤ now - e.storedAt := by
    unfold datetimeEnd at earlier
    omega
  obtain ⟨lower, upper⟩ := tdiv_second_mem atLeast (age_le fits instant)
  exact ⟨toInt_numSeconds (by omega) (by omega), lower, upper⟩

/-- A tile is fresh exactly while one and a half intervals have not passed since its
report was collected. -/
theorem tileOf_fresh_iff {e : Entry} (fits : Fits e.call) {now : Int}
    (instant : isInstant now = true) (small : declaredInterval e.call.upload.intervalS < 2 ^ 61) :
    (tileOf env now db e).freshness = .fresh ↔
      (now - e.storedAt).tdiv second * 2 ≤ declaredInterval e.call.upload.intervalS * 3 := by
  obtain ⟨age, lower, upper⟩ := toInt_age fits instant
  have compared := freshness_eq_fresh_iff (numSeconds (now - e.storedAt)) e.call.upload.intervalS
  rw [Int64.le_iff_toInt_le, toInt_doubled (by omega) (by omega), toInt_tripled small, age] at compared
  exact compared

/-- A tile that is fresh later on was fresh before. -/
theorem tileOf_fresh_of_later {e : Entry} (fits : Fits e.call) {now later : Int} {db' : Db}
    (instant : isInstant now = true) (instant' : isInstant later = true) (le : now ≤ later)
    (fresh : (tileOf env later db' e).freshness = .fresh) :
    (tileOf env now db e).freshness = .fresh := by
  obtain ⟨age, lower, upper⟩ := toInt_age fits instant
  obtain ⟨age', lower', upper'⟩ := toInt_age fits instant'
  have older : (now - e.storedAt).tdiv second ≤ (later - e.storedAt).tdiv second :=
    Int.tdiv_le_tdiv (by decide) (by omega)
  have doubled : (numSeconds (now - e.storedAt) * 2).toInt = (now - e.storedAt).tdiv second * 2 := by
    rw [toInt_doubled (by omega) (by omega), age]
  have doubled' : (numSeconds (later - e.storedAt) * 2).toInt =
      (later - e.storedAt).tdiv second * 2 := by
    rw [toInt_doubled (by omega) (by omega), age']
  have compared := (freshness_eq_fresh_iff (numSeconds (later - e.storedAt))
    e.call.upload.intervalS).mp fresh
  refine (freshness_eq_fresh_iff (numSeconds (now - e.storedAt)) e.call.upload.intervalS).mpr ?_
  rw [Int64.le_iff_toInt_le] at compared ⊢
  rw [doubled'] at compared
  rw [doubled]
  omega

end Fleetwatch
