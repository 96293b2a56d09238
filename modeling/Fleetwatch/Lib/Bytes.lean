import Mathlib.Tactic.Common

/-!
# Text as bytes

`str::as_bytes` is the UTF-8 encoding. An ASCII character is the one byte of its code;
any other begins with a byte past 127, so the bytes tell whether a text is ASCII.
-/

namespace Fleetwatch.Bytes

/-- `str::as_bytes`. -/
def utf8 (text : List Char) : List UInt8 := text.flatMap String.utf8EncodeChar

@[simp] theorem utf8_nil : utf8 [] = [] := rfl

@[simp] theorem utf8_cons (c : Char) (text : List Char) :
    utf8 (c :: text) = String.utf8EncodeChar c ++ utf8 text := List.flatMap_cons

@[simp] theorem utf8_append (left right : List Char) :
    utf8 (left ++ right) = utf8 left ++ utf8 right := List.flatMap_append

/-- Two texts with the same bytes are the same text. -/
theorem utf8_injective : Function.Injective utf8 := by
  intro left right same
  have bytes : (String.ofList left).toByteArray = (String.ofList right).toByteArray := by
    rw [String.toByteArray_ofList, String.toByteArray_ofList]
    unfold List.utf8Encode
    exact congrArg List.toByteArray same
  have text := congrArg String.toList (String.toByteArray_inj.mp bytes)
  rwa [String.toList_ofList, String.toList_ofList] at text

theorem utf8EncodeChar_of_ascii {c : Char} (ascii : c.toNat < 128) :
    String.utf8EncodeChar c = [UInt8.ofNat c.toNat] := by
  unfold String.utf8EncodeChar
  exact if_pos (Nat.le_of_lt_succ ascii)

/-- A character past ASCII begins with a byte past it. -/
theorem exists_byte_of_not_ascii {c : Char} (past : 128 ≤ c.toNat) :
    ∃ b ∈ String.utf8EncodeChar c, 128 ≤ b.toNat := by
  have notAscii : ¬ c.val.toNat ≤ 127 := Nat.not_le_of_gt past
  unfold String.utf8EncodeChar
  simp only [if_neg notAscii]
  split
  · refine ⟨_, List.mem_cons_self, ?_⟩
    rw [UInt8.toNat_ofNat']
    omega
  · split
    · refine ⟨_, List.mem_cons_self, ?_⟩
      rw [UInt8.toNat_ofNat']
      omega
    · refine ⟨_, List.mem_cons_self, ?_⟩
      rw [UInt8.toNat_ofNat']
      omega

/-- Text of ASCII characters is a byte for each. -/
theorem utf8_of_ascii {text : List Char} (ascii : ∀ c ∈ text, c.toNat < 128) :
    utf8 text = text.map (fun c => UInt8.ofNat c.toNat) := by
  induction text with
  | nil => rfl
  | cons c rest ih =>
    rw [utf8_cons, utf8EncodeChar_of_ascii (ascii c List.mem_cons_self),
      ih (fun other member => ascii other (List.mem_cons_of_mem _ member))]
    rfl

/-- Reading each byte of ASCII text as a character gives the text back. -/
theorem map_char_of_ascii {text : List Char} (ascii : ∀ c ∈ text, c.toNat < 128) :
    (utf8 text).map (fun b => Char.ofNat b.toNat) = text := by
  rw [utf8_of_ascii ascii, List.map_map]
  conv_rhs => rw [← List.map_id text]
  apply List.map_congr_left
  intro c member
  have small : c.toNat < 256 := Nat.lt_trans (ascii c member) (by decide)
  simp [Nat.mod_eq_of_lt small]

/-! ## Reading bytes as text -/

/-- `str::from_utf8`. -/
def fromUtf8 (bytes : List UInt8) : Option (List Char) :=
  (String.fromUTF8? bytes.toByteArray).map String.toList

/-- A byte that continues a character. -/
def isContinuation (b : UInt8) : Bool := 0x80 ≤ b && b ≤ 0xBF

/-- The first two bytes of a character of three. -/
def opensThree (first second : UInt8) : Bool :=
  first == 0xE0 && (0xA0 ≤ second && second ≤ 0xBF) ||
  0xE1 ≤ first && first ≤ 0xEC && isContinuation second ||
  first == 0xED && (0x80 ≤ second && second ≤ 0x9F) ||
  0xEE ≤ first && first ≤ 0xEF && isContinuation second

/-- The first two bytes of a character of four. -/
def opensFour (first second : UInt8) : Bool :=
  first == 0xF0 && (0x90 ≤ second && second ≤ 0xBF) ||
  0xF1 ≤ first && first ≤ 0xF3 && isContinuation second ||
  first == 0xF4 && (0x80 ≤ second && second ≤ 0x8F)

/-- How many bytes one replacement character stands for, where no character can be read: those
that open one and break off. -/
def brokenLength : List UInt8 → Nat
  | first :: second :: rest =>
    if opensThree first second then 2
    else if opensFour first second then if rest.head?.any isContinuation then 3 else 2
    else 1
  | _ => 1

def lossyFuel : Nat → List UInt8 → List Char
  | 0, _ => []
  | _, [] => []
  | n + 1, first :: rest =>
    let bytes := first :: rest
    match bytes.toByteArray.utf8DecodeChar? 0 with
    | some c => c :: lossyFuel n (bytes.drop c.utf8Size)
    | none => Char.ofNat 0xFFFD :: lossyFuel n (bytes.drop (brokenLength bytes))

/-- `String::from_utf8_lossy`. Every character takes at least one byte. -/
def fromUtf8Lossy (bytes : List UInt8) : List Char := lossyFuel bytes.length bytes

example : fromUtf8Lossy [0x48, 0xE2, 0x82, 0x49, 0xFF] =
    ['H', Char.ofNat 0xFFFD, 'I', Char.ofNat 0xFFFD] := by decide +kernel

theorem toByteArray_utf8 (text : List Char) : (utf8 text).toByteArray = text.utf8Encode := rfl

theorem fromUtf8_utf8 (text : List Char) : fromUtf8 (utf8 text) = some text := by
  have valid : (utf8 text).toByteArray.IsValidUTF8 := by
    rw [toByteArray_utf8]
    exact ByteArray.isValidUTF8_utf8Encode
  have read : String.fromUTF8? (utf8 text).toByteArray = some (String.ofList text) := by
    unfold String.fromUTF8?
    rw [dif_pos valid]
    refine congrArg some (String.toByteArray_inj.mp ?_)
    rw [String.toByteArray_ofList]
    exact toByteArray_utf8 text
  unfold fromUtf8
  rw [read, Option.map_some, String.toList_ofList]

theorem lossyFuel_utf8 (text : List Char) (n : Nat) (enough : (utf8 text).length ≤ n) :
    lossyFuel n (utf8 text) = text := by
  induction text generalizing n with
  | nil => cases n <;> rfl
  | cons c rest ih =>
    have size : (String.utf8EncodeChar c).length = c.utf8Size := String.length_utf8EncodeChar c
    have positive := c.utf8Size_pos
    rw [utf8_cons, List.length_append, size] at enough
    have decoded : (utf8 (c :: rest)).toByteArray.utf8DecodeChar? 0 = some c := by
      rw [toByteArray_utf8]
      exact List.utf8DecodeChar?_utf8Encode_cons
    have left : (utf8 (c :: rest)).drop c.utf8Size = utf8 rest := by
      rw [utf8_cons, ← size, List.drop_left]
    obtain ⟨m, rfl⟩ : ∃ m, n = m + 1 := ⟨n - 1, by omega⟩
    cases bytes : utf8 (c :: rest) with
    | nil =>
      have none := congrArg List.length bytes
      rw [utf8_cons, List.length_append, size, List.length_nil] at none
      omega
    | cons first others =>
      rw [bytes] at decoded left
      simp only [lossyFuel, decoded, left]
      rw [ih m (by omega)]

/-- Text that was written is read back. -/
theorem fromUtf8Lossy_utf8 (text : List Char) : fromUtf8Lossy (utf8 text) = text :=
  lossyFuel_utf8 text _ (Nat.le_refl _)

end Fleetwatch.Bytes
