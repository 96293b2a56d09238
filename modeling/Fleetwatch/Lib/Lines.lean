import Mathlib.Tactic.Common

/-!
# Lines

Text written a row at a time, each row ended by a line feed, and read back as lines.
A row is one line exactly when it holds no line feed of its own.
-/

namespace Fleetwatch.Text

/-- `str::lines`: the texts between line feeds. A line feed at the end begins no line;
the carriage return the source would take off is left on. -/
def lines : List Char → List (List Char)
  | [] => []
  | c :: rest =>
    if c = '\n' then [] :: lines rest
    else
      match lines rest with
      | [] => [[c]]
      | line :: more => (c :: line) :: more

/-- Rows, each ended by a line feed. -/
def ended (rows : List (List Char)) : List Char := rows.flatMap (fun row => row ++ ['\n'])

theorem ended_cons (row : List Char) (rows : List (List Char)) :
    ended (row :: rows) = row ++ '\n' :: ended rows := by
  unfold ended
  rw [List.flatMap_cons, List.append_assoc, List.singleton_append]

/-- A line feed ends the row before it. -/
theorem lines_append_feed {row : List Char} (rest : List Char) (free : '\n' ∉ row) :
    lines (row ++ '\n' :: rest) = row :: lines rest := by
  induction row with
  | nil => exact if_pos rfl
  | cons c row ih =>
    obtain ⟨different, free'⟩ := not_or.mp (mt List.mem_cons.mpr free)
    rw [List.cons_append, lines, if_neg (Ne.symm different), ih free']

/-- A row adds the line feeds it holds to its own. -/
theorem length_lines_append_feed (row rest : List Char) :
    (lines (row ++ '\n' :: rest)).length = row.count '\n' + 1 + (lines rest).length := by
  induction row with
  | nil =>
    rw [List.nil_append, lines, if_pos rfl, List.length_cons, List.count_nil]
    omega
  | cons c row ih =>
    rw [List.cons_append, lines]
    by_cases feed : c = '\n'
    · rw [if_pos feed, feed, List.length_cons, ih, List.count_cons_self]
      omega
    · rw [if_neg feed, List.count_cons_of_ne feed, ← ih]
      cases more : lines (row ++ '\n' :: rest) with
      | nil =>
        rw [more, List.length_nil] at ih
        omega
      | cons line more => rfl

theorem lines_ended {rows : List (List Char)} (free : ∀ row ∈ rows, '\n' ∉ row) :
    lines (ended rows) = rows := by
  induction rows with
  | nil => rfl
  | cons row rows ih =>
    obtain ⟨here, later⟩ := List.forall_mem_cons.mp free
    rw [ended_cons, lines_append_feed _ here, ih later]

theorem length_lines_ended_ge (rows : List (List Char)) :
    rows.length ≤ (lines (ended rows)).length := by
  induction rows with
  | nil => exact Nat.zero_le _
  | cons row rows ih =>
    rw [ended_cons, length_lines_append_feed, List.length_cons]
    omega

/-- There are as many lines as rows exactly when no row holds a line feed. -/
theorem length_lines_ended_iff (rows : List (List Char)) :
    (lines (ended rows)).length = rows.length ↔ ∀ row ∈ rows, '\n' ∉ row := by
  constructor
  · intro same
    induction rows with
    | nil => intro row member; cases member
    | cons row rows ih =>
      rw [ended_cons, length_lines_append_feed, List.length_cons] at same
      have atLeast := length_lines_ended_ge rows
      have none : row.count '\n' = 0 := by omega
      exact List.forall_mem_cons.mpr ⟨List.count_eq_zero.mp none, ih (by omega)⟩
  · intro free
    rw [lines_ended free]

end Fleetwatch.Text
