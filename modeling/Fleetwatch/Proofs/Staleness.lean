import Fleetwatch.Proofs.Tiles
import Fleetwatch.Selfcheck
import Mathlib.Algebra.Group.Nat.Defs

/-!
# The arithmetic of intervals

`freshness` and `lag_check` measure in `i64` what the wire carries as a `u64`. Where
the interval's triple fits, what they compute is the comparison of integers they are
written as. Between a third of the range and its end the triple overflows, and from
`2^63` on the cast makes the interval negative: `freshness` floors it at a second,
and `lag_check` holds every lag against it.
-/

namespace Fleetwatch

open Sql

/-! ## What the integers say -/

/-- The bands of `freshness` over the integers. -/
def classify (age interval : Int) : Freshness :=
  if 2 * age ≤ 3 * interval then .fresh
  else if age ≤ 3 * interval then .overdue
  else .silent

/-- `a * b` in a build that checks: nothing where the product leaves `i64`. -/
def checkedMul (a b : Int64) : Option Int64 :=
  if -2 ^ 63 ≤ a.toInt * b.toInt ∧ a.toInt * b.toInt < 2 ^ 63 then some (a * b) else none

/-- `freshness` in a build that checks. -/
def freshnessChecked (ageS : Int64) (intervalS : Option UInt64) : Option Freshness := do
  let interval := effectiveInterval intervalS
  let doubled ← checkedMul ageS 2
  let tripled ← checkedMul interval 3
  if doubled ≤ tripled then return .fresh
  else if ageS ≤ tripled then return .overdue
  else return .silent

/-- Nothing overflows, and the answer is the integers'. -/
def FreshnessExact (ageS : Int64) (intervalS : Option UInt64) : Prop :=
  freshnessChecked ageS intervalS = some (classify ageS.toInt (declaredInterval intervalS)) ∧
    freshness ageS intervalS = classify ageS.toInt (declaredInterval intervalS)

/-- `lag_check` warns for the lags that exceed the interval as integers. -/
def LagExact (source collector : String) (lagS : Int64) (intervalS : Option UInt64) : Prop :=
  (Selfcheck.lagCheck source collector lagS intervalS).verdict = .warn ↔
    ∃ i, intervalS = some i ∧ (i.toNat : Int) < lagS.toInt

/-- The intervals `freshness` measures exactly at an age: those whose triple fits, and
those that wrap to one second while the report is no older. -/
def Measurable (age : Int) (intervalS : Option UInt64) : Prop :=
  ∀ i, intervalS = some i → 3 * i.toNat < 2 ^ 63 ∨ (2 ^ 63 ≤ i.toNat ∧ age ≤ 1)

/-- The intervals a lag is judged against exactly: those an `i64` can hold, and those
that wrap to a number the lag does not exceed. -/
def LagMeasurable (lag : Int) (intervalS : Option UInt64) : Prop :=
  ∀ i, intervalS = some i → i.toNat < 2 ^ 63 ∨ lag ≤ (i.toNat : Int) - 2 ^ 64

/-- How bad a freshness is. -/
def Freshness.rank : Freshness → Nat
  | .fresh => 0
  | .overdue => 1
  | .silent => 2

/-- An older report or a shorter interval never classifies better. -/
theorem classify_mono {age age' interval interval' : Int} (older : age ≤ age')
    (shorter : interval' ≤ interval) :
    (classify age interval).rank ≤ (classify age' interval').rank := by
  unfold classify
  by_cases fresh : 2 * age ≤ 3 * interval
  · simp [fresh, Freshness.rank]
  · have notFresh' : ¬ 2 * age' ≤ 3 * interval' := by omega
    by_cases overdue : age ≤ 3 * interval
    · simp only [fresh, overdue, notFresh', if_true, if_false]
      split <;> simp [Freshness.rank]
    · have notOverdue' : ¬ age' ≤ 3 * interval' := by omega
      simp [fresh, overdue, notFresh', notOverdue']

/-! ## What the words say -/

theorem checkedMul_eq_some {a b : Int64} (lower : -2 ^ 63 ≤ a.toInt * b.toInt)
    (upper : a.toInt * b.toInt < 2 ^ 63) : checkedMul a b = some (a * b) :=
  if_pos ⟨lower, upper⟩

theorem checkedMul_eq_none {a b : Int64} (past : 2 ^ 63 ≤ a.toInt * b.toInt) :
    checkedMul a b = none :=
  if_neg (fun within => absurd within.2 (not_lt.mpr past))

/-- An answer of the checking build is the wrapping build's too. -/
theorem freshness_of_checked {ageS : Int64} {intervalS : Option UInt64} {f : Freshness}
    (checked : freshnessChecked ageS intervalS = some f) : freshness ageS intervalS = f := by
  unfold freshnessChecked at checked
  obtain ⟨doubled, first, checked⟩ := Option.bind_eq_some_iff.mp checked
  obtain ⟨tripled, second, checked⟩ := Option.bind_eq_some_iff.mp checked
  have own : ∀ {a b c : Int64}, checkedMul a b = some c → c = a * b := by
    intro a b c product
    unfold checkedMul at product
    split at product
    · exact (Option.some.inj product).symm
    · cases product
  rw [own first, own second] at checked
  unfold freshness
  split at checked
  · rename_i fresh
    rw [if_pos fresh]
    exact Option.some.inj checked
  · rename_i notFresh
    rw [if_neg notFresh]
    split at checked
    · rename_i overdue
      rw [if_pos overdue]
      exact Option.some.inj checked
    · rename_i notOverdue
      rw [if_neg notOverdue]
      exact Option.some.inj checked

/-- The checking build answers what the integers say of the effective interval, as long
as its triple fits. -/
theorem freshnessChecked_eq {ageS : Int64} (lower : -2 ^ 61 ≤ ageS.toInt)
    (upper : ageS.toInt < 2 ^ 61) (intervalS : Option UInt64) :
    freshnessChecked ageS intervalS =
      if 3 * (effectiveInterval intervalS).toInt < 2 ^ 63 then
        some (classify ageS.toInt (effectiveInterval intervalS).toInt)
      else none := by
  have positive : 1 ≤ (effectiveInterval intervalS).toInt := by
    unfold effectiveInterval
    rw [toInt_floor]
    exact le_max_left _ _
  have two : (2 : Int64).toInt = 2 := rfl
  have three : (3 : Int64).toInt = 3 := rfl
  have doubles : checkedMul ageS 2 = some (ageS * 2) :=
    checkedMul_eq_some (by rw [two]; omega) (by rw [two]; omega)
  have doubled : (ageS * 2).toInt = ageS.toInt * 2 := toInt_doubled lower upper
  unfold freshnessChecked
  dsimp only
  rw [doubles]
  by_cases fits : 3 * (effectiveInterval intervalS).toInt < 2 ^ 63
  · have triples : checkedMul (effectiveInterval intervalS) 3 =
        some (effectiveInterval intervalS * 3) :=
      checkedMul_eq_some (by rw [three]; omega) (by rw [three]; omega)
    have tripled : (effectiveInterval intervalS * 3).toInt =
        (effectiveInterval intervalS).toInt * 3 := by
      rw [toInt_mul_of_small, three] <;> rw [three] <;> omega
    have fresh : ageS * 2 ≤ effectiveInterval intervalS * 3 ↔
        2 * ageS.toInt ≤ 3 * (effectiveInterval intervalS).toInt := by
      rw [Int64.le_iff_toInt_le, doubled, tripled]
      omega
    have overdue : ageS ≤ effectiveInterval intervalS * 3 ↔
        ageS.toInt ≤ 3 * (effectiveInterval intervalS).toInt := by
      rw [Int64.le_iff_toInt_le, tripled]
      omega
    rw [if_pos fits, triples]
    simp only [Option.bind_eq_bind, Option.bind_some, fresh, overdue, classify]
    split
    · rfl
    · split <;> rfl
  · have overflows : checkedMul (effectiveInterval intervalS) 3 = none :=
      checkedMul_eq_none (by rw [three]; omega)
    rw [if_neg fits, overflows]
    rfl

/-- From `2^63` on the cast is negative. -/
theorem toInt_toInt64_of_large {i : UInt64} (large : 2 ^ 63 ≤ i.toNat) :
    i.toInt64.toInt = (i.toNat : Int) - 2 ^ 64 := by
  have msb : 2 ^ 64 ≤ 2 * i.toBitVec.toNat := by
    rw [UInt64.toNat_toBitVec]
    omega
  change i.toBitVec.toInt = _
  rw [BitVec.toInt_eq_toNat_cond, if_neg (by omega), UInt64.toNat_toBitVec]
  rfl

theorem toInt_toInt64_of_small {i : UInt64} (small : i.toNat < 2 ^ 63) :
    i.toInt64.toInt = i.toNat := by
  have fits : 2 * i.toBitVec.toNat < 2 ^ 64 := by
    rw [UInt64.toNat_toBitVec]
    omega
  exact BitVec.toInt_eq_toNat_of_lt fits

/-- From `2^63` on the interval is measured as one second. -/
theorem toInt_effectiveInterval_of_large {i : UInt64} (large : 2 ^ 63 ≤ i.toNat) :
    (effectiveInterval (some i)).toInt = 1 := by
  have below := UInt64.toNat_lt i
  unfold effectiveInterval
  rw [toInt_floor, toInt_toInt64_of_large large]
  omega

/-- An age no `DATETIME` pair reaches is far from the ends of an `i64`. -/
theorem toInt_datetime_age {s t : Int} (hs : isDatetime s = true) (ht : isDatetime t = true) :
    -2 ^ 61 ≤ (numSeconds (s - t)).toInt ∧ (numSeconds (s - t)).toInt < 2 ^ 61 ∧
      (numSeconds (s - t)).toInt = (s - t).tdiv second := by
  obtain ⟨lower, upper⟩ : datetimeMin ≤ s ∧ s < datetimeEnd := by simpa [isDatetime] using hs
  obtain ⟨lower', upper'⟩ : datetimeMin ≤ t ∧ t < datetimeEnd := by simpa [isDatetime] using ht
  unfold datetimeMin at lower lower'
  unfold datetimeEnd at upper upper'
  have atLeast : -315569520000 * second ≤ s - t := by omega
  have atMost : s - t ≤ 315569520000 * second := by omega
  obtain ⟨least, most⟩ := tdiv_second_mem atLeast atMost
  have same : (numSeconds (s - t)).toInt = (s - t).tdiv second :=
    toInt_numSeconds (by omega) (by omega)
  refine ⟨?_, ?_, same⟩ <;> rw [same] <;> omega

/-! ## When they agree -/

/-- For an age far from the ends of an `i64`, `freshness` is exact for the measurable
intervals and no other. -/
theorem freshnessExact_iff_measurable {ageS : Int64} (lower : -2 ^ 61 ≤ ageS.toInt)
    (upper : ageS.toInt < 2 ^ 61) (intervalS : Option UInt64) :
    FreshnessExact ageS intervalS ↔ Measurable ageS.toInt intervalS := by
  have checked : FreshnessExact ageS intervalS ↔
      freshnessChecked ageS intervalS = some (classify ageS.toInt (declaredInterval intervalS)) :=
    ⟨fun exact' => exact'.1, fun checked => ⟨checked, freshness_of_checked checked⟩⟩
  rw [checked, freshnessChecked_eq lower upper]
  cases intervalS with
  | none =>
    have hourly : (effectiveInterval none).toInt = declaredInterval none := by decide
    have fits : 3 * (effectiveInterval none).toInt < 2 ^ 63 := by decide
    rw [if_pos fits, hourly]
    exact iff_of_true rfl (by intro i absent; cases absent)
  | some i =>
    have declared : declaredInterval (some i) = max 1 i.toNat := rfl
    have measurable : Measurable ageS.toInt (some i) ↔
        3 * i.toNat < 2 ^ 63 ∨ (2 ^ 63 ≤ i.toNat ∧ ageS.toInt ≤ 1) := by
      unfold Measurable
      simp
    rw [measurable]
    rcases lt_or_ge i.toNat (2 ^ 63) with small | large
    · have word : (effectiveInterval (some i)).toInt = declaredInterval (some i) :=
        toInt_effectiveInterval (by rw [declared]; omega)
      rw [word]
      by_cases fits : 3 * (declaredInterval (some i) : Int) < 2 ^ 63
      · rw [if_pos fits]
        rw [declared] at fits
        exact iff_of_true rfl (Or.inl (by omega))
      · rw [if_neg fits]
        rw [declared] at fits
        exact iff_of_false (by simp) (by omega)
    · have word := toInt_effectiveInterval_of_large large
      have fresh : classify ageS.toInt (declaredInterval (some i)) = .fresh := by
        unfold classify
        rw [declared, if_pos (by omega)]
      rw [word, fresh, if_pos (by omega)]
      unfold classify
      by_cases young : ageS.toInt ≤ 1
      · rw [if_pos (by omega)]
        exact iff_of_true rfl (Or.inr ⟨large, young⟩)
      · rw [if_neg (by omega)]
        refine iff_of_false ?_ (by omega)
        split <;> simp

theorem lagExact_iff_measurable (source collector : String) (lagS : Int64)
    (intervalS : Option UInt64) :
    LagExact source collector lagS intervalS ↔ LagMeasurable lagS.toInt intervalS := by
  unfold LagExact LagMeasurable
  have verdict : (Selfcheck.lagCheck source collector lagS intervalS).verdict =
      Selfcheck.lagVerdict lagS intervalS := rfl
  rw [verdict]
  cases intervalS with
  | none => simp [Selfcheck.lagVerdict]
  | some i =>
    have warns : Selfcheck.lagVerdict lagS (some i) = .warn ↔ i.toInt64.toInt < lagS.toInt := by
      rw [← Int64.lt_iff_toInt_lt]
      change (if i.toInt64 < lagS then Verdict.warn else .pass) = .warn ↔ _
      split <;> simp_all
    rw [warns]
    have below := UInt64.toNat_lt i
    have largest : lagS.toInt < 2 ^ 63 := Int64.toInt_lt lagS
    rcases lt_or_ge i.toNat (2 ^ 63) with small | large
    · refine iff_of_true ?_ (fun j same => Or.inl (Option.some.inj same ▸ small))
      rw [toInt_toInt64_of_small small]
      simp only [Option.some.injEq, exists_eq_left']
    · rw [toInt_toInt64_of_large large]
      simp only [Option.some.injEq, exists_eq_left', forall_eq']
      omega

/-- For every age between two stored instants, every lag and every interval of the wire:
`freshness` overflows nowhere and is the classification of the integers exactly for the
measurable intervals, `lag_check` warns for the lags that exceed the interval exactly for
those it can measure, and among measurable ones an older report or a shorter interval
never classifies better. -/
theorem interval_arithmetic_exact_iff {s t : Int} (hs : isDatetime s = true)
    (ht : isDatetime t = true) (intervalS : Option UInt64) :
    (FreshnessExact (numSeconds (s - t)) intervalS ↔
      Measurable ((s - t).tdiv second) intervalS) ∧
    (∀ source collector lagS, LagExact source collector lagS intervalS ↔
      LagMeasurable lagS.toInt intervalS) ∧
    ∀ s' t' intervalS', isDatetime s' = true → isDatetime t' = true →
      Measurable ((s - t).tdiv second) intervalS →
      Measurable ((s' - t').tdiv second) intervalS' →
      (s - t).tdiv second ≤ (s' - t').tdiv second →
      declaredInterval intervalS' ≤ declaredInterval intervalS →
      (freshness (numSeconds (s - t)) intervalS).rank ≤
        (freshness (numSeconds (s' - t')) intervalS').rank := by
  obtain ⟨lower, upper, age⟩ := toInt_datetime_age hs ht
  refine ⟨?_, fun source collector lagS => lagExact_iff_measurable source collector lagS intervalS,
    ?_⟩
  · rw [freshnessExact_iff_measurable lower upper, age]
  · intro s' t' intervalS' hs' ht' measurable measurable' older shorter
    obtain ⟨lower', upper', age'⟩ := toInt_datetime_age hs' ht'
    rw [← age] at measurable older
    rw [← age'] at measurable' older
    have exact₁ := (freshnessExact_iff_measurable lower upper intervalS).mpr measurable
    have exact₂ := (freshnessExact_iff_measurable lower' upper' intervalS').mpr measurable'
    rw [exact₁.2, exact₂.2]
    exact classify_mono older (by exact_mod_cast shorter)

/-- Two hours on, against the hour a producer declares by default. -/
theorem interval_arithmetic_exact_hourly :
    FreshnessExact (numSeconds (7200 * second - 0)) (some 3600) := by
  have instant : isDatetime (7200 * second) = true ∧ isDatetime 0 = true := by decide
  refine (interval_arithmetic_exact_iff instant.1 instant.2 (some 3600)).1.mpr ?_
  intro i same
  obtain rfl := Option.some.inj same
  exact Or.inl (by decide)

/-- A report two hours old from a producer that declares `2^63` seconds is silent, and a
lag of a second against `2^64 - 1` warns. -/
theorem interval_arithmetic_wraps :
    (isDatetime (7200 * second) = true ∧ isDatetime 0 = true) ∧
      freshness (numSeconds (7200 * second - 0)) (some 9223372036854775808) = .silent ∧
      classify 7200 (declaredInterval (some 9223372036854775808)) = .fresh ∧
      ¬ FreshnessExact (numSeconds (7200 * second - 0)) (some 9223372036854775808) ∧
      ¬ LagExact "amun" "disk" 1 (some 18446744073709551615) := by
  have silent : freshness (numSeconds (7200 * second - 0)) (some 9223372036854775808) = .silent := by
    decide
  have fresh : classify 7200 (declaredInterval (some 9223372036854775808)) = .fresh := by decide
  have age : (numSeconds (7200 * second - 0)).toInt = 7200 := by decide
  refine ⟨by decide, silent, fresh, ?_, ?_⟩
  · rintro ⟨_, exact'⟩
    rw [age, fresh, silent] at exact'
    cases exact'
  · intro exact'
    obtain ⟨i, same, less⟩ := exact'.mp rfl
    obtain rfl := Option.some.inj same
    revert less
    decide

end Fleetwatch
