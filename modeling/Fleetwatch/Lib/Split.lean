import Fleetwatch.Lib.Text

/-!
# Cutting text at a separator

Rust's `split`, `split_once`, `splitn` and `rfind` over a separator character. Text put
together around a separator comes apart into the same pieces when the pieces before the
cut do not hold it; the piece after the last cut may.
-/

namespace Fleetwatch.Text

/-- `str::split`: the pieces between the separators. -/
def split (sep : Char) (text : List Char) : List (List Char) := text.splitOnP (· == sep)

/-- `str::split_once`: the text before the first separator, and the text after it. -/
def splitOnce (sep : Char) : List Char → Option (List Char × List Char)
  | [] => none
  | c :: rest =>
    if c = sep then some ([], rest)
    else (splitOnce sep rest).map (fun (before, after) => (c :: before, after))

/-- `str::rfind` and the two slices around it: the text before the last separator, and
the text after it. -/
def splitLast (sep : Char) (text : List Char) : Option (List Char × List Char) :=
  (splitOnce sep text.reverse).map (fun (after, before) => (before.reverse, after.reverse))

/-- `str::splitn`: at most `n` pieces, the last holding what is left. -/
def splitn (sep : Char) : Nat → List Char → List (List Char)
  | 0, _ => []
  | 1, text => [text]
  | n + 2, text =>
    match splitOnce sep text with
    | none => [text]
    | some (before, after) => before :: splitn sep (n + 1) after

theorem splitOnce_append {sep : Char} {before : List Char} (after : List Char)
    (free : sep ∉ before) : splitOnce sep (before ++ sep :: after) = some (before, after) := by
  induction before with
  | nil => simp [splitOnce]
  | cons c rest ih =>
    obtain ⟨different, free'⟩ := not_or.mp (mt List.mem_cons.mpr free)
    rw [List.cons_append, splitOnce, if_neg (Ne.symm different), ih free']
    rfl

theorem splitLast_append {sep : Char} {after : List Char} (before : List Char)
    (free : sep ∉ after) : splitLast sep (before ++ sep :: after) = some (before, after) := by
  unfold splitLast
  have reversed : (before ++ sep :: after).reverse = after.reverse ++ sep :: before.reverse := by
    simp
  rw [reversed, splitOnce_append _ (by simpa using free)]
  simp

/-- The first separator is the one with none before it. -/
theorem splitOnce_eq_some_iff {sep : Char} {text before after : List Char} :
    splitOnce sep text = some (before, after) ↔ text = before ++ sep :: after ∧ sep ∉ before := by
  constructor
  · intro cut
    induction text generalizing before with
    | nil => cases cut
    | cons c rest ih =>
      rw [splitOnce] at cut
      split at cut
      · rename_i here
        obtain ⟨rfl, rfl⟩ := Prod.mk.inj (Option.some.inj cut)
        exact ⟨by rw [here]; rfl, List.not_mem_nil⟩
      · rename_i different
        obtain ⟨⟨before', after'⟩, later, same⟩ := Option.map_eq_some_iff.mp cut
        obtain ⟨rfl, rfl⟩ := Prod.mk.inj same
        obtain ⟨rfl, free⟩ := ih later
        refine ⟨rfl, ?_⟩
        rw [List.mem_cons, not_or]
        exact ⟨Ne.symm different, free⟩
  · rintro ⟨rfl, free⟩
    exact splitOnce_append after free

/-- The last separator is the one with none after it. -/
theorem splitLast_eq_some_iff {sep : Char} {text before after : List Char} :
    splitLast sep text = some (before, after) ↔ text = before ++ sep :: after ∧ sep ∉ after := by
  constructor
  · intro cut
    obtain ⟨⟨after', before'⟩, first, same⟩ := Option.map_eq_some_iff.mp cut
    obtain ⟨rfl, rfl⟩ := Prod.mk.inj same
    obtain ⟨reversed, free⟩ := splitOnce_eq_some_iff.mp first
    refine ⟨?_, by simpa using free⟩
    have text' := congrArg List.reverse reversed
    simpa using text'
  · rintro ⟨rfl, free⟩
    exact splitLast_append before free

/-- Text without the separator is not cut. -/
theorem splitOnce_eq_none {sep : Char} {text : List Char} (free : sep ∉ text) :
    splitOnce sep text = none := by
  cases cut : splitOnce sep text with
  | none => rfl
  | some pieces =>
    obtain ⟨whole, _⟩ := splitOnce_eq_some_iff.mp cut
    refine absurd ?_ free
    rw [whole]
    exact List.mem_append_right _ List.mem_cons_self

theorem splitn_append {sep : Char} {before : List Char} (n : Nat) (after : List Char)
    (free : sep ∉ before) :
    splitn sep (n + 2) (before ++ sep :: after) = before :: splitn sep (n + 1) after := by
  rw [splitn, splitOnce_append after free]

end Fleetwatch.Text
