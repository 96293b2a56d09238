import Mathlib.Data.List.Chain
import Mathlib.Data.List.DropRight
import Mathlib.Tactic.Common

/-!
# Text, the way Rust's standard library reads it

`char::is_whitespace` is Unicode's `White_Space` and `char::is_control` its
category `Cc`; both are far larger than their ASCII parts, so they are spelled out
here rather than taken from Lean's own character predicates. `trim` and
`split_whitespace` are built on the first.
-/

namespace Fleetwatch.Text

/-- `char::is_whitespace`: Unicode `White_Space`. -/
def isWhitespace (c : Char) : Bool :=
  let n := c.toNat
  (0x09 ≤ n && n ≤ 0x0D) || n == 0x20 || n == 0x85 || n == 0xA0 || n == 0x1680 ||
    (0x2000 ≤ n && n ≤ 0x200A) || n == 0x2028 || n == 0x2029 || n == 0x202F ||
    n == 0x205F || n == 0x3000

/-- `char::is_control`: Unicode category `Cc`. -/
def isControl (c : Char) : Bool :=
  let n := c.toNat
  n ≤ 0x1F || (0x7F ≤ n && n ≤ 0x9F)

/-- The line and paragraph separators, `Zl` and `Zp`. -/
def isSeparator (c : Char) : Bool :=
  c.toNat == 0x2028 || c.toNat == 0x2029

/-- `str::trim`. -/
def trim (s : String) : String :=
  String.ofList ((s.toList.dropWhile isWhitespace).rdropWhile isWhitespace)

/-- `str::split_whitespace`: the non-empty pieces between white space. -/
def splitWhitespace (text : List Char) : List (List Char) :=
  (text.splitOnP isWhitespace).filter (fun piece => !piece.isEmpty)

/-- `[&str]::join(" ")`. -/
def joinSpaces : List (List Char) → List Char
  | [] => []
  | [piece] => piece
  | piece :: next :: rest => piece ++ ' ' :: joinSpaces (next :: rest)

/-- No character of white space is followed by another. -/
def SingleSpaced (text : List Char) : Prop :=
  text.IsChain (fun first second => ¬ (isWhitespace first = true ∧ isWhitespace second = true))

theorem isWhitespace_of_isSeparator {c : Char} (h : isSeparator c = true) :
    isWhitespace c = true := by
  unfold isSeparator at h
  unfold isWhitespace
  simp only [Bool.or_eq_true, beq_iff_eq] at h
  rcases h with h | h <;> simp [h]

theorem isWhitespace_space : isWhitespace ' ' = true := by decide

/-- What is left of a text at its end does not open it anew. -/
theorem dropWhile_rdropWhile_dropWhile {p : Char → Bool} (text : List Char) :
    ((text.dropWhile p).rdropWhile p).dropWhile p = (text.dropWhile p).rdropWhile p := by
  rw [List.dropWhile_eq_self_iff]
  intro nonempty
  have kept := List.rdropWhile_prefix p (text.dropWhile p)
  have opens : text.dropWhile p ≠ [] := by
    intro none
    rw [none] at nonempty
    simp at nonempty
  rw [kept.getElem nonempty, ← List.head_eq_getElem opens, List.head_dropWhile_not p opens]
  exact Bool.false_ne_true

/-- Trimmed text has nothing to trim. -/
theorem trim_trim (s : String) : trim (trim s) = trim s := by
  unfold trim
  rw [String.toList_ofList, dropWhile_rdropWhile_dropWhile, List.rdropWhile_idempotent]

/-- Text with a visible character in it has something left when it is trimmed. -/
theorem trim_ne_empty {s : String} {c : Char} (member : c ∈ s.toList)
    (visible : isWhitespace c = false) : trim s ≠ "" := by
  intro blank
  have nothing : (s.toList.dropWhile isWhitespace).rdropWhile isWhitespace = [] := by
    have texts := congrArg String.toList blank
    unfold trim at texts
    rwa [String.toList_ofList] at texts
  rw [List.rdropWhile_eq_nil_iff] at nothing
  have whole := (List.takeWhile_append_dropWhile (p := isWhitespace) (l := s.toList)).symm
  rw [whole] at member
  rcases List.mem_append.mp member with front | rest
  · exact absurd (List.mem_takeWhile_imp front) (by simp [visible])
  · exact absurd (nothing c rest) (by simp [visible])

/-- Every character takes at least one byte. -/
theorem length_le_utf8ByteSize (s : String) : s.length ≤ s.utf8ByteSize := by
  induction s using String.push_induction with
  | empty => simp
  | push s c ih =>
    rw [String.length_push, String.utf8ByteSize_push]
    exact Nat.add_le_add ih c.utf8Size_pos

/-- Whatever stands in a piece stands in the text and does not separate. -/
theorem of_mem_splitOnP {α : Type} {sep : α → Bool} {text piece : List α} {c : α}
    (found : piece ∈ text.splitOnP sep) (member : c ∈ piece) : c ∈ text ∧ sep c = false := by
  induction text generalizing piece with
  | nil =>
    obtain rfl := List.mem_singleton.mp found
    cases member
  | cons first rest ih =>
    have later : ∀ other ∈ rest.splitOnP sep, c ∈ other → c ∈ first :: rest ∧ sep c = false := by
      intro other inRest inside
      obtain ⟨inText, plain⟩ := ih inRest inside
      exact ⟨List.mem_cons_of_mem first inText, plain⟩
    rw [List.splitOnP_cons_eq_if_modifyHead] at found
    split at found
    · rcases List.mem_cons.mp found with rfl | inRest
      · cases member
      · exact later piece inRest member
    · rename_i plain
      cases pieces : rest.splitOnP sep with
      | nil => exact absurd pieces (List.splitOnP_ne_nil _ _)
      | cons head tail =>
        rw [pieces] at later
        rw [pieces, List.modifyHead_cons] at found
        rcases List.mem_cons.mp found with rfl | inTail
        · rcases List.mem_cons.mp member with rfl | inHead
          · exact ⟨List.mem_cons_self, Bool.eq_false_iff.mpr plain⟩
          · exact later head List.mem_cons_self inHead
        · exact later piece (List.mem_cons_of_mem head inTail) member

/-- Every character of a piece stands in the text and is not white space. -/
theorem mem_splitWhitespace {text piece : List Char} (h : piece ∈ splitWhitespace text) :
    piece ≠ [] ∧ ∀ c ∈ piece, c ∈ text ∧ isWhitespace c = false := by
  obtain ⟨found, nonempty⟩ := List.mem_filter.mp h
  refine ⟨by simpa using nonempty, ?_⟩
  intro c member
  exact of_mem_splitOnP found member

theorem mem_joinSpaces {pieces : List (List Char)} {c : Char} (h : c ∈ joinSpaces pieces) :
    c = ' ' ∨ ∃ piece ∈ pieces, c ∈ piece := by
  induction pieces with
  | nil => simp [joinSpaces] at h
  | cons piece rest ih =>
    cases rest with
    | nil => exact Or.inr ⟨piece, by simp, by simpa [joinSpaces] using h⟩
    | cons next rest =>
      simp only [joinSpaces, List.mem_append, List.mem_cons] at h
      rcases h with inPiece | rfl | later
      · exact Or.inr ⟨piece, by simp, inPiece⟩
      · exact Or.inl rfl
      · rcases ih later with space | ⟨other, member, inOther⟩
        · exact Or.inl space
        · exact Or.inr ⟨other, List.mem_cons_of_mem _ member, inOther⟩

/-- Text without white space is single-spaced. -/
theorem singleSpaced_of_visible {text : List Char}
    (visible : ∀ c ∈ text, isWhitespace c = false) : SingleSpaced text := by
  apply List.Pairwise.isChain
  apply List.Pairwise.imp_of_mem (R := fun _ _ => True) _ (List.pairwise_of_forall fun _ _ => trivial)
  intro first second member _ _ both
  rw [visible first member] at both
  exact Bool.false_ne_true both.1

/-- Joining visible, non-empty pieces with single spaces never puts two white
space characters side by side: each space stands between two visible ones. -/
theorem singleSpaced_joinSpaces {pieces : List (List Char)}
    (visible : ∀ piece ∈ pieces, piece ≠ [] ∧ ∀ c ∈ piece, isWhitespace c = false) :
    SingleSpaced (joinSpaces pieces) := by
  induction pieces with
  | nil => exact List.IsChain.nil
  | cons piece rest ih =>
    have here := visible piece List.mem_cons_self
    have tail := ih (fun other member => visible other (List.mem_cons_of_mem _ member))
    cases rest with
    | nil => exact singleSpaced_of_visible here.2
    | cons next rest =>
      have nextVisible := visible next (by simp)
      -- the character after the inserted space opens the next piece
      have opens : ∀ c ∈ (joinSpaces (next :: rest)).head?, isWhitespace c = false := by
        intro c first
        obtain ⟨head, others, rfl⟩ := List.exists_cons_of_ne_nil nextVisible.1
        have same : c = head := by
          cases rest <;> simpa [joinSpaces, eq_comm] using first
        exact same ▸ nextVisible.2 head List.mem_cons_self
      apply List.IsChain.append (singleSpaced_of_visible here.2)
      · apply List.IsChain.cons tail
        intro c first both
        rw [opens c first] at both
        exact Bool.false_ne_true both.2
      · intro c last _ _ both
        rw [here.2 c (List.mem_of_getLast? last)] at both
        exact Bool.false_ne_true both.1

end Fleetwatch.Text
