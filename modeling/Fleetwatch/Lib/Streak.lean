import Mathlib.Data.List.TakeWhile
import Mathlib.Order.Defs.PartialOrder
import Mathlib.Tactic.Common

/-!
# The current streak of a history

A history is a list, newest first. Its current streak for a property is the
longest prefix of items that all have it, and the streak began with that prefix's
last item. A table that opens an entry when the property first holds and deletes
it when the property fails tracks exactly this; `streakStart_cons` is the step
such a table has to match.
-/

namespace Fleetwatch.Streak

variable {α τ : Type}

/-- The unbroken run of items with the property that ends with the newest. -/
def streak (holds : α → Bool) (history : List α) : List α :=
  history.takeWhile holds

/-- The item the current streak began with, or nothing when the newest item
breaks it. -/
def streakStart (holds : α → Bool) (history : List α) : Option α :=
  (streak holds history).getLast?

@[simp] theorem streakStart_nil (holds : α → Bool) : streakStart holds [] = none := rfl

/-- A newer item either continues the streak, keeping its start and becoming the
start when there was none, or ends it. -/
theorem streakStart_cons (holds : α → Bool) (newest : α) (history : List α) :
    streakStart holds (newest :: history) =
      if holds newest then some ((streakStart holds history).getD newest) else none := by
  unfold streakStart streak
  by_cases h : holds newest
  · rw [List.takeWhile_cons_of_pos h, if_pos h, List.getLast?_cons]
  · rw [List.takeWhile_cons_of_neg h, if_neg h]
    rfl

/-- There is a current streak exactly when the newest item has the property. -/
theorem streakStart_isSome (holds : α → Bool) (history : List α) :
    (streakStart holds history).isSome ↔ ∃ newest ∈ history.head?, holds newest = true := by
  cases history with
  | nil => simp
  | cons newest rest =>
    rw [streakStart_cons]
    by_cases h : holds newest <;> simp [h]

/-- A history read through a map has the mapped streak. -/
theorem streakStart_map (f : τ → α) (holds : α → Bool) (history : List τ) :
    streakStart holds (history.map f) = (streakStart (fun item => holds (f item)) history).map f := by
  unfold streakStart streak
  rw [List.takeWhile_map, List.getLast?_map]
  rfl

theorem mem_of_streakStart {holds : α → Bool} {history : List α} {first : α}
    (started : streakStart holds history = some first) :
    first ∈ history ∧ holds first = true := by
  have member := List.mem_of_getLast? started
  exact ⟨(List.takeWhile_prefix holds).subset member, List.mem_takeWhile_imp member⟩

end Fleetwatch.Streak
