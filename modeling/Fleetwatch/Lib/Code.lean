import Mathlib.Data.List.Perm.Basic
import Mathlib.Data.List.Sort
import Mathlib.Tactic.Common

/-!
# Self-delimiting codes

A code is self-delimiting when each codeword can be split off the front of whatever
follows it. Codewords joined by a separator then come apart into the words they were made
of, whatever the words contain; and sorted before they are joined they tell two lists of
items apart exactly when these differ in more than their order.
-/

namespace Fleetwatch.Code

variable {α β γ : Type} {code : β → List α}

structure SelfDelimiting (code : β → List α) : Prop where
  split : ∀ {a b : β} {rest rest' : List α},
    code a ++ rest = code b ++ rest' → a = b ∧ rest = rest'

/-- A code is self-delimiting when a reader takes each codeword off what follows it. -/
theorem selfDelimiting_of_reader (read : List α → Option (β × List α))
    (reads : ∀ item rest, read (code item ++ rest) = some (item, rest)) :
    SelfDelimiting code := by
  constructor
  intro a b rest rest' same
  have read' := reads a rest
  rw [same, reads b rest'] at read'
  obtain ⟨item, tail⟩ := Prod.mk.inj (Option.some.inj read')
  exact ⟨item.symm, tail.symm⟩

theorem SelfDelimiting.injective (self : SelfDelimiting code) : Function.Injective code := by
  intro a b same
  have appended : code a ++ [] = code b ++ [] := by rw [same]
  exact (self.split appended).1

theorem SelfDelimiting.comp (self : SelfDelimiting code) {f : γ → β} (inj : Function.Injective f) :
    SelfDelimiting (fun item => code (f item)) := by
  constructor
  intro a b rest rest' same
  obtain ⟨item, tail⟩ := self.split same
  exact ⟨inj item, tail⟩

theorem SelfDelimiting.prepend (self : SelfDelimiting code) (front : List α) :
    SelfDelimiting (fun item => front ++ code item) := by
  constructor
  intro a b rest rest' same
  rw [List.append_assoc, List.append_assoc] at same
  exact self.split (List.append_cancel_left same)

/-- A code of two items at least has no empty codeword: it could be split off anything. -/
theorem SelfDelimiting.ne_nil [Nontrivial β] (self : SelfDelimiting code) (item : β) :
    code item ≠ [] := by
  intro empty
  obtain ⟨other, different⟩ := exists_ne item
  have same : code item ++ code other = code other ++ [] := by rw [empty]; simp
  exact different (self.split same).1.symm

/-! ## Lists of codewords -/

/-- `joinToString`: the words with a separator between them. -/
def join (sep : List α) : List (List α) → List α
  | [] => []
  | word :: rest => word ++ rest.flatMap (fun other => sep ++ other)

/-- Codewords one after the other come apart. -/
theorem SelfDelimiting.flatMap_inj (self : SelfDelimiting code) (filled : ∀ item, code item ≠ [])
    {xs ys : List β} (same : xs.flatMap code = ys.flatMap code) : xs = ys := by
  induction xs generalizing ys with
  | nil =>
    cases ys with
    | nil => rfl
    | cons y ys => exact absurd (List.append_eq_nil_iff.mp same.symm).1 (filled y)
  | cons x xs ih =>
    cases ys with
    | nil => exact absurd (List.append_eq_nil_iff.mp same).1 (filled x)
    | cons y ys =>
      obtain ⟨rfl, tail⟩ := self.split same
      rw [ih tail]

/-- So do codewords with a separator between them, whatever it is. -/
theorem SelfDelimiting.join_inj (self : SelfDelimiting code) (filled : ∀ item, code item ≠ [])
    (sep : List α) {xs ys : List β} (same : join sep (xs.map code) = join sep (ys.map code)) :
    xs = ys := by
  cases xs with
  | nil =>
    cases ys with
    | nil => rfl
    | cons y ys => exact absurd (List.append_eq_nil_iff.mp same.symm).1 (filled y)
  | cons x xs =>
    cases ys with
    | nil => exact absurd (List.append_eq_nil_iff.mp same).1 (filled x)
    | cons y ys =>
      obtain ⟨rfl, tail⟩ := self.split same
      rw [List.flatMap_map, List.flatMap_map] at tail
      have filled' : ∀ item, sep ++ code item ≠ [] :=
        fun item empty => filled item (List.append_eq_nil_iff.mp empty).2
      rw [(self.prepend sep).flatMap_inj filled' tail]

/-- Codewords up to a symbol none of them begins with. -/
theorem SelfDelimiting.flatMap_stop (self : SelfDelimiting code) {stop : α}
    (starts : ∀ item, ∃ first rest, code item = first :: rest ∧ first ≠ stop) :
    SelfDelimiting (fun xs : List β => xs.flatMap code ++ [stop]) := by
  constructor
  intro xs
  induction xs with
  | nil =>
    intro ys rest rest' same
    cases ys with
    | nil => exact ⟨rfl, List.append_cancel_left same⟩
    | cons y ys =>
      obtain ⟨first, more, begins, other⟩ := starts y
      simp only [List.flatMap_nil, List.flatMap_cons, begins, List.nil_append,
        List.cons_append] at same
      exact absurd (List.cons.inj same).1.symm other
  | cons x xs ih =>
    intro ys rest rest' same
    cases ys with
    | nil =>
      obtain ⟨first, more, begins, other⟩ := starts x
      simp only [List.flatMap_nil, List.flatMap_cons, begins, List.nil_append,
        List.cons_append] at same
      exact absurd (List.cons.inj same).1 other
    | cons y ys =>
      simp only [List.flatMap_cons, List.append_assoc] at same
      obtain ⟨rfl, tail⟩ := self.split same
      rw [← List.append_assoc, ← List.append_assoc] at tail
      obtain ⟨rfl, rest_eq⟩ := ih tail
      exact ⟨rfl, rest_eq⟩

/-- And codewords between separators up to such a symbol. -/
theorem SelfDelimiting.join_stop (self : SelfDelimiting code) {sep stop : α} (different : sep ≠ stop)
    (starts : ∀ item, ∃ first rest, code item = first :: rest ∧ first ≠ stop) :
    SelfDelimiting (fun xs : List β => join [sep] (xs.map code) ++ [stop]) := by
  have later : SelfDelimiting (fun xs : List β =>
      xs.flatMap (fun item => [sep] ++ code item) ++ [stop]) :=
    (self.prepend [sep]).flatMap_stop (fun item => ⟨sep, code item, rfl, different⟩)
  constructor
  intro xs ys rest rest' same
  cases xs with
  | nil =>
    cases ys with
    | nil => exact ⟨rfl, List.append_cancel_left same⟩
    | cons y ys =>
      obtain ⟨first, more, begins, other⟩ := starts y
      simp only [List.map_nil, List.map_cons, join, begins, List.nil_append,
        List.cons_append] at same
      exact absurd (List.cons.inj same).1.symm other
  | cons x xs =>
    cases ys with
    | nil =>
      obtain ⟨first, more, begins, other⟩ := starts x
      simp only [List.map_nil, List.map_cons, join, begins, List.nil_append,
        List.cons_append] at same
      exact absurd (List.cons.inj same).1 other
    | cons y ys =>
      simp only [List.map_cons, join, List.append_assoc, List.flatMap_map] at same
      obtain ⟨rfl, tail⟩ := self.split same
      rw [← List.append_assoc, ← List.append_assoc] at tail
      obtain ⟨rfl, rest_eq⟩ := later.split tail
      exact ⟨rfl, rest_eq⟩

/-! ## Sorted lists -/

section Sorted

variable [LinearOrder γ]

def sorted (words : List γ) : List γ := words.insertionSort (· ≤ ·)

theorem sorted_perm (words : List γ) : (sorted words).Perm words :=
  List.perm_insertionSort _ _

/-- Sorting forgets the order and nothing else. -/
theorem sorted_eq_iff {words words' : List γ} : sorted words = sorted words' ↔ words.Perm words' := by
  constructor
  · intro same
    have perm := sorted_perm words
    rw [same] at perm
    exact perm.symm.trans (sorted_perm words')
  · intro perm
    have ordered : ∀ words : List γ, (sorted words).Pairwise (· ≤ ·) :=
      fun words => List.pairwise_insertionSort _ words
    refine List.Perm.eq_of_pairwise ?_ (ordered words) (ordered words') ?_
    · exact fun _ _ _ _ => le_antisymm
    · exact (sorted_perm words).trans (perm.trans (sorted_perm words').symm)

end Sorted

/-- Sorted codewords, joined, are equal exactly when the items are the same but for their
order. -/
theorem SelfDelimiting.join_sorted_eq_iff [LinearOrder (List α)] [Nontrivial β]
    (self : SelfDelimiting code) (sep : List α) {xs ys : List β} :
    join sep (sorted (xs.map code)) = join sep (sorted (ys.map code)) ↔ xs.Perm ys := by
  -- sorting codewords is putting their items in some order
  have items : ∀ zs : List β, ∃ zs' : List β, zs'.map code = sorted (zs.map code) := by
    intro zs
    have all : ∀ word ∈ sorted (zs.map code), ∃ item, code item = word := by
      intro word member
      obtain ⟨item, _, same⟩ := List.mem_map.mp ((sorted_perm _).mem_iff.mp member)
      exact ⟨item, same⟩
    generalize sorted (zs.map code) = words at all
    induction words with
    | nil => exact ⟨[], rfl⟩
    | cons word words ih =>
      obtain ⟨item, rfl⟩ := all word List.mem_cons_self
      obtain ⟨rest, rfl⟩ := ih (fun other member => all other (List.mem_cons_of_mem _ member))
      exact ⟨item :: rest, rfl⟩
  obtain ⟨xs', hxs⟩ := items xs
  obtain ⟨ys', hys⟩ := items ys
  constructor
  · intro same
    rw [← hxs, ← hys] at same
    have words : sorted (xs.map code) = sorted (ys.map code) := by
      rw [← hxs, ← hys, self.join_inj self.ne_nil sep same]
    exact (List.map_perm_map_iff self.injective).mp (sorted_eq_iff.mp words)
  · intro perm
    rw [sorted_eq_iff.mpr (perm.map code)]

end Fleetwatch.Code
