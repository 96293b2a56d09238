import Fleetwatch.Lib.Utf16

/-!
# Arrays of strings in JSON

`JSONArray.toString` of strings as Android's `org.json` writes it, over code units. It is
self-delimiting: a quote inside a string is always behind a backslash.
-/

namespace Fleetwatch.JsonArray

open Code Utf16

/-- A lower-case hexadecimal digit. -/
def hexDigit (n : Nat) : CodeUnit :=
  if n < 10 then Fin.ofNat 65536 (48 + n) else Fin.ofNat 65536 (87 + n)

/-- One unit of `JSONStringer.string`. -/
def escape (c : CodeUnit) : List CodeUnit :=
  if c = 34 ∨ c = 92 ∨ c = 47 then [92, c]
  else if c = 9 then [92, 116]
  else if c = 8 then [92, 98]
  else if c = 10 then [92, 110]
  else if c = 13 then [92, 114]
  else if c = 12 then [92, 102]
  else if c ≤ 31 then [92, 117, 48, 48, hexDigit (c.val / 16), hexDigit (c.val % 16)]
  else [c]

/-- `JSONStringer.string`. -/
def quote (text : List CodeUnit) : List CodeUnit := 34 :: (text.flatMap escape ++ [34])

/-- `JSONArray.toString`. -/
def jsonArray (texts : List (List CodeUnit)) : List CodeUnit :=
  91 :: (join [44] (texts.map quote) ++ [93])

/-- What a hexadecimal digit stands for. -/
def hexValue (c : CodeUnit) : Nat := if c.val < 58 then c.val - 48 else c.val - 87

/-- The unit an escape stands for. -/
def unescape : List CodeUnit → Option (CodeUnit × List CodeUnit)
  | 92 :: 117 :: _ :: _ :: high :: low :: rest =>
    some (Fin.ofNat 65536 (16 * hexValue high + hexValue low), rest)
  | 92 :: c :: rest =>
    some (if c = 116 then 9 else if c = 98 then 8 else if c = 110 then 10
      else if c = 114 then 13 else if c = 102 then 12 else c, rest)
  | c :: rest => some (c, rest)
  | [] => none

theorem hexValue_hexDigit : ∀ n < 16, hexValue (hexDigit n) = n := by decide

theorem unescape_escape (c : CodeUnit) (rest : List CodeUnit) :
    unescape (escape c ++ rest) = some (c, rest) := by
  unfold escape
  split
  · rename_i special
    rcases special with rfl | rfl | rfl <;> rfl
  · rename_i plain
    split
    · rename_i h; rw [h]; rfl
    split
    · rename_i h; rw [h]; rfl
    split
    · rename_i h; rw [h]; rfl
    split
    · rename_i h; rw [h]; rfl
    split
    · rename_i h; rw [h]; rfl
    split
    · rename_i control
      have small : c.val ≤ 31 := control
      show some (Fin.ofNat 65536 (16 * hexValue (hexDigit (c.val / 16)) +
        hexValue (hexDigit (c.val % 16))), rest) = some (c, rest)
      have whole : 16 * (c.val / 16) + c.val % 16 = c.val := by omega
      rw [hexValue_hexDigit _ (by omega), hexValue_hexDigit _ (by omega), whole]
      simp
    · have notBackslash : c ≠ 92 := fun same => plain (Or.inr (Or.inl same))
      show unescape (c :: rest) = some (c, rest)
      unfold unescape
      split
      · rename_i same
        exact absurd (List.cons.inj same).1 notBackslash
      · rename_i same
        exact absurd (List.cons.inj same).1 notBackslash
      · rename_i same
        obtain ⟨rfl, rfl⟩ := List.cons.inj same
        rfl
      · rename_i same
        cases same

theorem selfDelimiting_escape : SelfDelimiting escape :=
  selfDelimiting_of_reader unescape unescape_escape

/-- No escape begins with a quote. -/
theorem escape_starts (c : CodeUnit) : ∃ first rest, escape c = first :: rest ∧ first ≠ 34 := by
  unfold escape
  split
  · exact ⟨92, _, rfl, by decide⟩
  · rename_i plain
    have notQuote : c ≠ 34 := fun same => plain (Or.inl same)
    split_ifs
    all_goals first
      | exact ⟨92, _, rfl, by decide⟩
      | exact ⟨c, _, rfl, notQuote⟩

theorem selfDelimiting_quote : SelfDelimiting quote :=
  (selfDelimiting_escape.flatMap_stop escape_starts).prepend [34]

theorem selfDelimiting_jsonArray : SelfDelimiting jsonArray :=
  (selfDelimiting_quote.join_stop (by decide)
    (fun text => ⟨34, _, rfl, by decide⟩)).prepend [91]

end Fleetwatch.JsonArray
