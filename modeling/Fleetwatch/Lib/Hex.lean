import Mathlib.Tactic.Common

/-!
# Hexadecimal

The `hex` crate: bytes are written with lower-case digits and read in either case.
Reading what was written gives the bytes back.
-/

namespace Fleetwatch.Hex

/-- The digit of a nibble. -/
def digit (n : Nat) : Char := if n < 10 then Char.ofNat (48 + n) else Char.ofNat (87 + n)

/-- The nibble of a digit, of either case. -/
def value (c : Char) : Option Nat :=
  let n := c.toNat
  if 48 ≤ n ∧ n ≤ 57 then some (n - 48)
  else if 97 ≤ n ∧ n ≤ 102 then some (n - 87)
  else if 65 ≤ n ∧ n ≤ 70 then some (n - 55)
  else none

/-- `hex::encode`. -/
def encode (bytes : List UInt8) : List Char :=
  bytes.flatMap (fun b => [digit (b.toNat / 16), digit (b.toNat % 16)])

/-- `hex::decode`. -/
def decode : List Char → Option (List UInt8)
  | [] => some []
  | [_] => none
  | high :: low :: rest => do
    let high ← value high
    let low ← value low
    let bytes ← decode rest
    return UInt8.ofNat (16 * high + low) :: bytes

/-- The digits, one by one. -/
theorem digit_cases : ∀ n < 16, value (digit n) = some n ∧ (digit n).isAlphanum = true := by
  decide

theorem value_digit {n : Nat} (nibble : n < 16) : value (digit n) = some n :=
  (digit_cases n nibble).1

theorem decode_encode (bytes : List UInt8) : decode (encode bytes) = some bytes := by
  induction bytes with
  | nil => rfl
  | cons b rest ih =>
    have small := b.toNat_lt
    have high : b.toNat / 16 < 16 := by omega
    have low : b.toNat % 16 < 16 := by omega
    have whole : 16 * (b.toNat / 16) + b.toNat % 16 = b.toNat := by omega
    show decode (digit (b.toNat / 16) :: digit (b.toNat % 16) :: encode rest) = _
    rw [decode, value_digit high, value_digit low, ih]
    show some (UInt8.ofNat (16 * (b.toNat / 16) + b.toNat % 16) :: rest) = _
    rw [whole, UInt8.ofNat_toNat]

/-- Written bytes are letters and digits. -/
theorem isAlphanum_of_mem_encode {bytes : List UInt8} {c : Char} (member : c ∈ encode bytes) :
    c.isAlphanum = true := by
  obtain ⟨b, _, inByte⟩ := List.mem_flatMap.mp member
  have small := b.toNat_lt
  rcases List.mem_cons.mp inByte with rfl | later
  · exact (digit_cases _ (by omega)).2
  · rw [List.mem_singleton.mp later]
    exact (digit_cases _ (by omega)).2

/-- The ASCII characters, one by one: a digit is read by its lower case. -/
theorem value_cases : ∀ n < 128, value (Char.ofNat n) = value (Char.ofNat n).toLower ∧
    ∀ m < 16, value (Char.ofNat n) = some m → (Char.ofNat n).toLower = digit m := by
  decide +kernel

theorem value_lt {c : Char} {n : Nat} (read : value c = some n) : n < 16 ∧ c.toNat < 128 := by
  unfold value at read
  dsimp only at read
  split at read
  · obtain rfl := Option.some.inj read
    omega
  · split at read
    · obtain rfl := Option.some.inj read
      omega
    · split at read
      · obtain rfl := Option.some.inj read
        omega
      · cases read

/-- A character is read as a nibble exactly when its lower case is the nibble's digit. -/
theorem value_eq_some_iff {c : Char} {n : Nat} :
    value c = some n ↔ n < 16 ∧ c.toLower = digit n := by
  constructor
  · intro read
    obtain ⟨nibble, ascii⟩ := value_lt read
    have cases' := (value_cases c.toNat ascii).2 n nibble
    rw [Char.ofNat_toNat] at cases'
    exact ⟨nibble, cases' read⟩
  · rintro ⟨nibble, lower⟩
    have ascii : c.toNat < 128 := by
      by_contra past
      have notUpper : ¬ (c.val ≥ 'A'.val ∧ c.val ≤ 'Z'.val) := by
        rintro ⟨_, le⟩
        exact past (Nat.lt_of_le_of_lt (UInt32.le_iff_toNat_le.mp le) (by decide))
      have same : c.toLower = c := dif_neg notUpper
      have small : ∀ m < 16, (digit m).toNat < 128 := by decide
      exact past (by rw [← same, lower]; exact small n nibble)
    have blind := (value_cases c.toNat ascii).1
    rw [Char.ofNat_toNat] at blind
    rw [blind, lower, value_digit nibble]

/-- Digits decode to bytes exactly when their lower case is how the bytes are written. -/
theorem decode_eq_some_iff {text : List Char} {bytes : List UInt8} :
    decode text = some bytes ↔ text.map Char.toLower = encode bytes := by
  induction bytes generalizing text with
  | nil =>
    cases text with
    | nil => exact iff_of_true rfl rfl
    | cons high rest =>
      refine iff_of_false ?_ (by simp [encode])
      cases rest with
      | nil => simp [decode]
      | cons low rest => simp [decode, Option.bind_eq_some_iff]
  | cons b bytes ih =>
    have small := b.toNat_lt
    have written : encode (b :: bytes) =
        digit (b.toNat / 16) :: digit (b.toNat % 16) :: encode bytes := rfl
    cases text with
    | nil => exact iff_of_false (by simp [decode]) (by simp [written])
    | cons high rest =>
      cases rest with
      | nil => exact iff_of_false (by simp [decode]) (by simp [written])
      | cons low rest =>
        rw [written, decode]
        simp only [Option.bind_eq_bind, Option.bind_eq_some_iff, pure, Option.some.injEq,
          List.cons.injEq, List.map_cons]
        constructor
        · rintro ⟨h, readHigh, l, readLow, bytes', spelled, rfl, rfl⟩
          obtain ⟨nibble, high'⟩ := value_eq_some_iff.mp readHigh
          obtain ⟨nibble', low'⟩ := value_eq_some_iff.mp readLow
          have byte : (UInt8.ofNat (16 * h + l)).toNat = 16 * h + l := by
            rw [UInt8.toNat_ofNat']
            omega
          have first : (16 * h + l) / 16 = h := by omega
          have second : (16 * h + l) % 16 = l := by omega
          rw [byte, first, second]
          exact ⟨high', low', ih.mp spelled⟩
        · rintro ⟨high', low', spelled⟩
          have whole : 16 * (b.toNat / 16) + b.toNat % 16 = b.toNat := by omega
          refine ⟨b.toNat / 16, value_eq_some_iff.mpr ⟨by omega, high'⟩, b.toNat % 16,
            value_eq_some_iff.mpr ⟨by omega, low'⟩, bytes, ih.mpr spelled, ?_, rfl⟩
          rw [whole, UInt8.ofNat_toNat]

theorem length_encode (bytes : List UInt8) : (encode bytes).length = 2 * bytes.length := by
  induction bytes with
  | nil => rfl
  | cons b rest ih =>
    have written : encode (b :: rest) =
        digit (b.toNat / 16) :: digit (b.toNat % 16) :: encode rest := rfl
    rw [written, List.length_cons, List.length_cons, List.length_cons, ih]
    omega

end Fleetwatch.Hex
