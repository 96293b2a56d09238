import Mathlib.Order.Basic
import Mathlib.Order.MinMax
import Mathlib.Tactic.Common

/-!
# The start of a streak, read off a table of instants

Who keeps the history, newest first, finds the start of the current streak by walking back.
A table that only knows at which instants the property held and at which it failed takes the
earliest hit after the last break. It finds a given hit exactly when every break comes before
it and every earlier hit is no later than some break.
-/

namespace Fleetwatch.Streak

variable {τ : Type} [LinearOrder τ]

/-- The last break, or the floor where there was none. -/
def lastBreak (floor : τ) (breaks : List τ) : τ := breaks.max?.getD floor

/-- The earliest hit after the last break. -/
def earliestSince (floor : τ) (breaks hits : List τ) : Option τ :=
  (hits.filter (fun t => decide (lastBreak floor breaks < t))).min?

variable {floor t : τ} {breaks hits : List τ}

/-- What is above the floor is after the last break when it is after each of them. -/
theorem lastBreak_lt_iff (above : floor < t) :
    lastBreak floor breaks < t ↔ ∀ b ∈ breaks, b < t := by
  unfold lastBreak
  cases last : breaks.max? with
  | none =>
    rw [List.max?_eq_none_iff.mp last]
    exact iff_of_true above (fun b none => absurd none List.not_mem_nil)
  | some m =>
    obtain ⟨member, greatest⟩ := List.max?_eq_some_iff.mp last
    rw [Option.getD_some]
    exact ⟨fun before b inBreaks => lt_of_le_of_lt (greatest b inBreaks) before,
      fun before => before m member⟩

/-- The table finds a hit exactly when all breaks come before it, and an earlier hit is followed
by one of them. -/
theorem earliestSince_eq_some_iff (above : ∀ s ∈ hits, floor < s) (hit : t ∈ hits) :
    earliestSince floor breaks hits = some t ↔
      (∀ b ∈ breaks, b < t) ∧ ∀ s ∈ hits, s < t → ∃ b ∈ breaks, s ≤ b := by
  unfold earliestSince
  rw [List.min?_eq_some_iff, List.mem_filter, decide_eq_true_iff, lastBreak_lt_iff (above t hit),
    and_iff_right hit]
  refine and_congr_right fun _ => ?_
  constructor
  · intro least s inHits earlier
    by_contra unbroken
    have after : ∀ b ∈ breaks, b < s :=
      fun b inBreaks => not_le.mp (fun later => unbroken ⟨b, inBreaks, later⟩)
    have kept := (lastBreak_lt_iff (above s inHits)).mpr after
    have later := least s (List.mem_filter.mpr ⟨inHits, decide_eq_true kept⟩)
    exact absurd earlier (not_lt.mpr later)
  · intro broken s member
    obtain ⟨inHits, kept⟩ := List.mem_filter.mp member
    have after := (lastBreak_lt_iff (above s inHits)).mp (of_decide_eq_true kept)
    refine not_lt.mp fun earlier => ?_
    obtain ⟨b, inBreaks, later⟩ := broken s inHits earlier
    exact absurd (after b inBreaks) (not_lt.mpr later)

end Fleetwatch.Streak
