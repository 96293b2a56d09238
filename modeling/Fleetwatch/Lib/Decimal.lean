import Mathlib.Algebra.Group.Int.Defs
import Mathlib.Tactic.Common

/-!
# Decimal numbers

Rust's `i64::from_str`, over the digits `Display` writes. Reading what was written gives
the number back.
-/

namespace Fleetwatch.Text

/-- One or more decimal digits. -/
def parseDigits (digits : List Char) : Option Nat :=
  if digits ≠ [] ∧ digits.all Char.isDigit then some (Nat.ofDigitChars 10 digits 0) else none

def fitsI64 (n : Int) : Bool := -2 ^ 63 ≤ n && n < 2 ^ 63

/-- An optional sign, and digits. -/
def parseSigned : List Char → Option Int
  | '-' :: digits => (parseDigits digits).map (fun n : Nat => -(n : Int))
  | '+' :: digits => (parseDigits digits).map (fun n : Nat => (n : Int))
  | digits => (parseDigits digits).map (fun n : Nat => (n : Int))

/-- `i64::from_str`: the number must fit. -/
def parseI64 (text : List Char) : Option Int := (parseSigned text).filter fitsI64

theorem parseDigits_toDigits (n : Nat) : parseDigits (Nat.toDigits 10 n) = some n := by
  have all : (Nat.toDigits 10 n).all Char.isDigit = true := by
    rw [List.all_eq_true]
    intro c member
    exact Nat.isDigit_of_mem_toDigits (by decide) (by decide) member
  unfold parseDigits
  rw [if_pos ⟨Nat.toDigits_ne_nil, all⟩, Nat.ofDigitChars_toDigits (by decide) (by decide)]

/-- What is written of a number. -/
theorem toList_toString_int (n : Int) :
    (toString n).toList =
      if 0 ≤ n then Nat.toDigits 10 n.toNat else '-' :: Nat.toDigits 10 (-n).toNat := by
  rw [Int.toString_eq_repr, Int.repr_eq_if]
  split
  · exact Nat.toList_repr
  · rw [String.toList_append, Nat.toList_repr]
    rfl

theorem isDigit_or_minus {n : Int} {c : Char} (member : c ∈ (toString n).toList) :
    c.isDigit = true ∨ c = '-' := by
  rw [toList_toString_int] at member
  split at member
  · exact Or.inl (Nat.isDigit_of_mem_toDigits (by decide) (by decide) member)
  · rcases List.mem_cons.mp member with sign | digit
    · exact Or.inr sign
    · exact Or.inl (Nat.isDigit_of_mem_toDigits (by decide) (by decide) digit)

theorem parseSigned_toString (n : Int) : parseSigned (toString n).toList = some n := by
  rw [toList_toString_int]
  split
  · rename_i nonneg
    cases digits : Nat.toDigits 10 n.toNat with
    | nil => exact absurd digits Nat.toDigits_ne_nil
    | cons first rest =>
      have isDigit : first.isDigit = true := by
        apply Nat.isDigit_of_mem_toDigits (b := 10) (n := n.toNat) (by decide) (by decide)
        rw [digits]
        exact List.mem_cons_self
      have read := parseDigits_toDigits n.toNat
      rw [digits] at read
      unfold parseSigned
      split
      · -- a sign is no digit
        rename_i sign
        rw [(List.cons.inj sign).1] at isDigit
        exact absurd isDigit (by decide)
      · rename_i sign
        rw [(List.cons.inj sign).1] at isDigit
        exact absurd isDigit (by decide)
      · rw [read, Option.map_some, Int.toNat_of_nonneg nonneg]
  · rename_i negative
    have size : ((-n).toNat : Int) = -n := Int.toNat_of_nonneg (by omega)
    rw [parseSigned, parseDigits_toDigits, Option.map_some, size, Int.neg_neg]

theorem parseI64_toString {n : Int} (fits : fitsI64 n = true) :
    parseI64 (toString n).toList = some n := by
  rw [parseI64, parseSigned_toString, Option.filter_some, if_pos fits]

end Fleetwatch.Text
