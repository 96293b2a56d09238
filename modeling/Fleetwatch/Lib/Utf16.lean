import Fleetwatch.Lib.Code
import Mathlib.Algebra.GroupWithZero.Nat
import Mathlib.Data.List.Lex
import Mathlib.Order.Fin.Basic

/-!
# Strings of code units

A string of the JVM is a list of 16-bit code units, compared unit by unit; any list is one.
A string of Unicode characters has one such spelling, and no two have the same.
-/

namespace Fleetwatch.Utf16

open Code

abbrev CodeUnit := Fin 65536

instance neZero_codeUnits : NeZero 65536 := ⟨Nat.succ_ne_zero 65535⟩

/-- UTF-16 of a character: one unit, or a surrogate pair. -/
def encodeChar (c : Char) : List CodeUnit :=
  let n := c.toNat
  if n < 0x10000 then [Fin.ofNat 65536 n]
  else [Fin.ofNat 65536 (0xD800 + (n - 0x10000) / 0x400),
    Fin.ofNat 65536 (0xDC00 + (n - 0x10000) % 0x400)]

def utf16 (s : String) : List CodeUnit := s.toList.flatMap encodeChar

theorem encodeChar_of_lt {c : Char} (small : c.toNat < 0x10000) :
    encodeChar c = [Fin.ofNat 65536 c.toNat] :=
  if_pos small

theorem encodeChar_of_not_lt {c : Char} (large : ¬ c.toNat < 0x10000) :
    encodeChar c = [Fin.ofNat 65536 (0xD800 + (c.toNat - 0x10000) / 0x400),
      Fin.ofNat 65536 (0xDC00 + (c.toNat - 0x10000) % 0x400)] :=
  if_neg large

/-- A character is no surrogate, and lies below the last plane's end. -/
theorem toNat_range (c : Char) : c.toNat < 0xD800 ∨ 0xDFFF < c.toNat ∧ c.toNat < 0x110000 :=
  c.valid

/-- What a unit says of the number it was made of. -/
theorem ofNat_inj {m n : Nat} (hm : m < 65536) (hn : n < 65536)
    (same : Fin.ofNat 65536 m = Fin.ofNat 65536 n) : m = n := by
  have vals := congrArg Fin.val same
  rwa [Fin.val_ofNat, Fin.val_ofNat, Nat.mod_eq_of_lt hm, Nat.mod_eq_of_lt hn] at vals

theorem selfDelimiting_encodeChar : SelfDelimiting encodeChar := by
  constructor
  intro a b rest rest' same
  have rangeA := toNat_range a
  have rangeB := toNat_range b
  by_cases smallA : a.toNat < 0x10000
  · by_cases smallB : b.toNat < 0x10000
    · rw [encodeChar_of_lt smallA, encodeChar_of_lt smallB] at same
      obtain ⟨unit, tail⟩ := List.cons.inj same
      exact ⟨Char.toNat_inj.mp (ofNat_inj smallA smallB unit), tail⟩
    · -- a surrogate is no character
      rw [encodeChar_of_lt smallA, encodeChar_of_not_lt smallB] at same
      have unit := ofNat_inj smallA (by omega) (List.cons.inj same).1
      omega
  · by_cases smallB : b.toNat < 0x10000
    · rw [encodeChar_of_not_lt smallA, encodeChar_of_lt smallB] at same
      have unit := ofNat_inj (by omega) smallB (List.cons.inj same).1
      omega
    · rw [encodeChar_of_not_lt smallA, encodeChar_of_not_lt smallB] at same
      obtain ⟨high, more⟩ := List.cons.inj same
      obtain ⟨low, tail⟩ := List.cons.inj more
      have high' := ofNat_inj (by omega) (by omega) high
      have low' := ofNat_inj (by omega) (by omega) low
      exact ⟨Char.toNat_inj.mp (by omega), tail⟩

theorem encodeChar_ne_nil (c : Char) : encodeChar c ≠ [] := by
  by_cases small : c.toNat < 0x10000
  · rw [encodeChar_of_lt small]
    exact List.cons_ne_nil _ _
  · rw [encodeChar_of_not_lt small]
    exact List.cons_ne_nil _ _

/-- A string is read off its spelling. -/
theorem utf16_injective : Function.Injective utf16 := by
  intro s s' same
  exact String.toList_inj.mp (selfDelimiting_encodeChar.flatMap_inj encodeChar_ne_nil same)

end Fleetwatch.Utf16
