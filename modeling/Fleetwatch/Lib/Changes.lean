import Mathlib.Data.List.Destutter

/-!
# The changes of a sequence

One who is shown a sequence and speaks up only when its key differs from the last one is
heard at its changes: the first element of each stretch with one key.
-/

namespace Fleetwatch.Changes

variable {α β : Type} [DecidableEq β] (key : α → β)

/-- The start, and each element whose key is not that of the one before. -/
def changes (start : α) (seen : List α) : List α :=
  seen.destutter' (fun x y => key x ≠ key y) start

@[simp] theorem changes_nil (start : α) : changes key start [] = [start] := rfl

theorem changes_cons_of_eq {start x : α} (same : key x = key start) (seen : List α) :
    changes key start (x :: seen) = changes key start seen := by
  unfold changes
  rw [List.destutter'_cons_neg]
  simp [same]

theorem changes_cons_of_ne {start x : α} (differs : key x ≠ key start) (seen : List α) :
    changes key start (x :: seen) = start :: changes key x seen := by
  unfold changes
  rw [List.destutter'_cons_pos]
  exact differs.symm

omit [DecidableEq β] in
theorem key_getLastD {a b : α} (same : key a = key b) (seen : List α) :
    key (seen.getLastD a) = key (seen.getLastD b) := by
  cases seen with
  | nil => exact same
  | cons x seen => simp only [List.getLastD_cons]

/-- One more element is a change exactly when its key differs from the last one seen. -/
theorem changes_concat (start : α) (seen : List α) (x : α) :
    changes key start (seen ++ [x]) =
      changes key start seen ++ if key x = key (seen.getLastD start) then [] else [x] := by
  induction seen generalizing start with
  | nil =>
    by_cases same : key x = key start
    · simp [changes_cons_of_eq key same, same]
    · simp [changes_cons_of_ne key same, same]
  | cons y seen ih =>
    rw [List.cons_append, List.getLastD_cons]
    by_cases same : key y = key start
    · rw [changes_cons_of_eq key same, changes_cons_of_eq key same, ih,
        key_getLastD key same.symm]
    · rw [changes_cons_of_ne key same, changes_cons_of_ne key same, ih, List.cons_append]

/-- The last change stands for everything seen since. -/
theorem key_getLast_changes (start : α) (seen : List α) {x : α}
    (last : (changes key start seen).getLast? = some x) : key x = key (seen.getLastD start) := by
  induction seen using List.reverseRecOn with
  | nil =>
    cases last
    rfl
  | append_singleton seen y ih =>
    rw [changes_concat] at last
    rw [List.getLastD_concat]
    split at last
    · rename_i same
      rw [List.append_nil] at last
      rw [ih last, same]
    · rw [List.getLast?_concat] at last
      cases last
      rfl

end Fleetwatch.Changes
