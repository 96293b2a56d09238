import Fleetwatch.Lib.Bytes
import Fleetwatch.Lib.Hex
import Fleetwatch.Lib.Split
import Fleetwatch.Lib.UrlRoundtrip

/-!
# Percent decoding, and forms

How text goes into a URL and comes out of it: one path segment or one form component
percent-encoded, a form written as `name=value` pairs (`application/x-www-form-urlencoded`),
and the readers of both. What was written is read back, whatever the text.
-/

namespace Fleetwatch.Urlencoded

open Bytes Text Whatwg

/-! ## Percent decoding -/

/-- The byte of a percent sign and two hexadecimal digits. -/
def escaped (sign high low : UInt8) : Option UInt8 :=
  if sign = 0x25 then do
    let high ← Hex.value (Char.ofNat high.toNat)
    let low ← Hex.value (Char.ofNat low.toNat)
    return UInt8.ofNat (16 * high + low)
  else none

/-- `percent_decode`: a percent sign no two digits follow stands for itself. -/
def percentDecode : List UInt8 → List UInt8
  | sign :: high :: low :: rest =>
    match escaped sign high low with
    | some b => b :: percentDecode rest
    | none => sign :: percentDecode (high :: low :: rest)
  | bytes => bytes

theorem percentDecode_cons {b : UInt8} (plain : b ≠ 0x25) (rest : List UInt8) :
    percentDecode (b :: rest) = b :: percentDecode rest := by
  match rest with
  | [] => rfl
  | [_] => rfl
  | high :: low :: rest =>
    have none : escaped b high low = none := if_neg plain
    rw [percentDecode, none]

theorem hexDigit_ascii : ∀ n < 16, (hexDigit n).toNat < 128 := by decide

/-- The bytes of a written percent triplet. -/
theorem utf8_percentByte (b : UInt8) :
    utf8 (percentByte b) = [0x25, UInt8.ofNat (hexDigit (b.toNat / 16)).toNat,
      UInt8.ofNat (hexDigit (b.toNat % 16)).toNat] := by
  have small := b.toNat_lt
  refine utf8_of_ascii ?_
  intro c member
  rcases List.mem_cons.mp member with rfl | digit
  · decide
  · rcases List.mem_cons.mp digit with rfl | low
    · exact hexDigit_ascii _ (by omega)
    · rw [List.mem_singleton.mp low]
      exact hexDigit_ascii _ (by omega)

theorem percentDecode_percentByte (b : UInt8) (rest : List UInt8) :
    percentDecode (utf8 (percentByte b) ++ rest) = b :: percentDecode rest := by
  have small := b.toNat_lt
  have digit : ∀ n < 16,
      Hex.value (Char.ofNat (UInt8.ofNat (hexDigit n).toNat).toNat) = some n := by decide
  have whole : 16 * (b.toNat / 16) + b.toNat % 16 = b.toNat := by omega
  have read : escaped 0x25 (UInt8.ofNat (hexDigit (b.toNat / 16)).toNat)
      (UInt8.ofNat (hexDigit (b.toNat % 16)).toNat) = some b := by
    unfold escaped
    rw [if_pos rfl, digit _ (by omega), digit _ (by omega)]
    show some (UInt8.ofNat (16 * (b.toNat / 16) + b.toNat % 16)) = some b
    rw [whole, UInt8.ofNat_toNat]
  rw [utf8_percentByte]
  show percentDecode (_ :: _ :: _ :: rest) = _
  rw [percentDecode, read]

/-- A byte written as itself, when it is no percent sign, or as a percent triplet. -/
def Escapes (write : UInt8 → List UInt8) : Prop :=
  ∀ b, (b ≠ 0x25 ∧ write b = [b]) ∨ write b = utf8 (percentByte b)

/-- Bytes written so are read back. -/
theorem percentDecode_flatMap {write : UInt8 → List UInt8} (escapes : Escapes write)
    (bytes : List UInt8) : percentDecode (bytes.flatMap write) = bytes := by
  induction bytes with
  | nil => rfl
  | cons b rest ih =>
    rw [List.flatMap_cons]
    rcases escapes b with ⟨plain, same⟩ | triplet
    · rw [same, List.singleton_append, percentDecode_cons plain, ih]
    · rw [triplet, percentDecode_percentByte, ih]

/-! ## Path segments -/

/-- `PercentDecodedStr`: the text of one path segment, if its bytes are UTF-8. -/
def decodeSegment (segment : List Char) : Option (List Char) :=
  fromUtf8 (percentDecode (utf8 segment))

/-- What `encodeURIComponent` encodes: all but letters, digits and nine marks. -/
def inComponentSet (c : Char) : Bool :=
  !(c.isAlphanum || c ∈ ['-', '_', '.', '!', '~', '*', '\'', '(', ')'])

/-- `encodeURIComponent`. -/
def encodeComponent (text : List Char) : List Char := encode inComponentSet text

theorem percentDecode_encode {set : Char → Bool} (sign : set '%' = true)
    (wide : ∀ c, 128 ≤ c.toNat → set c = true) (text : List Char) :
    percentDecode (utf8 (encode set text)) = utf8 text := by
  induction text with
  | nil => rfl
  | cons c rest ih =>
    have split' : encode set (c :: rest) = encode set [c] ++ encode set rest := by
      simp [encode]
    rw [split', utf8_append, utf8_cons, ← ih]
    cases inside : set c with
    | true =>
      have written : encode set [c] = (String.utf8EncodeChar c).flatMap percentByte := by
        simp [encode, inside]
      rw [written]
      generalize String.utf8EncodeChar c = bytes
      induction bytes with
      | nil => rfl
      | cons b others ih' =>
        rw [List.flatMap_cons, utf8_append, List.append_assoc, percentDecode_percentByte, ih']
        rfl
    | false =>
      have written : encode set [c] = [c] := by simp [encode, inside]
      have ascii : c.toNat < 128 := by
        by_contra past
        rw [wide c (Nat.le_of_not_lt past)] at inside
        cases inside
      have plain : UInt8.ofNat c.toNat ≠ 0x25 := by
        intro same
        have code := congrArg UInt8.toNat same
        rw [UInt8.toNat_ofNat', Nat.mod_eq_of_lt (by omega)] at code
        have percent : c = '%' := Char.toNat_inj.mp code
        rw [percent, sign] at inside
        cases inside
      rw [written, utf8_cons, utf8_nil, List.append_nil, utf8EncodeChar_of_ascii ascii,
        List.singleton_append, percentDecode_cons plain, List.singleton_append]

theorem inComponentSet_of_not_ascii {c : Char} (past : 128 ≤ c.toNat) :
    inComponentSet c = true := by
  have notAlphanum : c.isAlphanum = false := by
    by_contra alphanum
    have small : c.toNat < 128 := by
      have either : c.isAlphanum = true := by simpa using alphanum
      delta Char.isAlphanum Char.isAlpha Char.isUpper Char.isLower Char.isDigit at either
      simp only [Bool.or_eq_true, Bool.and_eq_true, decide_eq_true_eq, ge_iff_le,
        UInt32.le_iff_toNat_le] at either
      have code : c.val.toNat = c.toNat := rfl
      have bounds : 'A'.val.toNat = 65 ∧ 'Z'.val.toNat = 90 ∧ 'a'.val.toNat = 97 ∧
        'z'.val.toNat = 122 ∧ '0'.val.toNat = 48 ∧ '9'.val.toNat = 57 := by decide
      omega
    omega
  have notMark : c ∉ ['-', '_', '.', '!', '~', '*', '\'', '(', ')'] := by
    intro member
    have marks : ∀ m ∈ ['-', '_', '.', '!', '~', '*', '\'', '(', ')'], m.toNat < 128 := by simp
    exact absurd (marks c member) (Nat.not_lt_of_le past)
  unfold inComponentSet
  rw [notAlphanum, decide_eq_false notMark]
  rfl

/-- What was encoded as a component is read back as a segment. -/
theorem decodeSegment_encodeComponent (text : List Char) :
    decodeSegment (encodeComponent text) = some text := by
  unfold decodeSegment encodeComponent
  rw [percentDecode_encode (by decide) (fun _ => inComponentSet_of_not_ascii), fromUtf8_utf8]

/-- A character of an encoded component: none that a URL gives a meaning to. -/
structure Bare (c : Char) : Prop where
  slash : isSlash c = false
  asks : c ≠ '?'
  hash : c ≠ '#'
  ampersand : c ≠ '&'
  printed : isC0OrSpace c = false
  path : inPathSet c = false

instance (c : Char) : Decidable (Bare c) :=
  decidable_of_iff
    (isSlash c = false ∧ c ≠ '?' ∧ c ≠ '#' ∧ c ≠ '&' ∧ isC0OrSpace c = false ∧ inPathSet c = false)
    ⟨fun ⟨h₁, h₂, h₃, h₄, h₅, h₆⟩ => ⟨h₁, h₂, h₃, h₄, h₅, h₆⟩,
      fun ⟨h₁, h₂, h₃, h₄, h₅, h₆⟩ => ⟨h₁, h₂, h₃, h₄, h₅, h₆⟩⟩

theorem ascii_of_not_component {c : Char} (plain : inComponentSet c = false) : c.toNat < 128 := by
  by_contra past
  rw [inComponentSet_of_not_ascii (Nat.le_of_not_lt past)] at plain
  cases plain

theorem bare_of_not_component {c : Char} (plain : inComponentSet c = false) : Bare c := by
  have ascii := ascii_of_not_component plain
  have codes : ∀ n < 128, inComponentSet (Char.ofNat n) = false → Bare (Char.ofNat n) := by
    decide +kernel
  have code := codes c.toNat ascii
  rw [Char.ofNat_toNat] at code
  exact code plain

theorem bare_of_mem_encodeComponent {text : List Char} {c : Char}
    (member : c ∈ encodeComponent text) : Bare c := by
  have digits : ∀ n < 16, Bare (hexDigit n) := by decide
  rcases mem_encode member with ⟨_, plain⟩ | rfl | ⟨n, small, rfl⟩
  · exact bare_of_not_component plain
  · decide
  · exact digits n small

/-- A component is a dot segment only when the text is one or two dots. -/
theorem isDot_encodeComponent_iff (text : List Char) :
    isDot (encodeComponent text) = true ↔ text = ['.'] ∨ text = ['.', '.'] := by
  constructor
  · intro dot
    have plain := not_set_of_isDot_encode (by decide) dot
    have spelled := (isDot_iff _).mp (isDot_encode (by decide) dot)
    have codes : ∀ n < 128, ((Char.ofNat n).toLower = '.' → Char.ofNat n = '.') ∧
        ((Char.ofNat n).toLower = '%' → Char.ofNat n = '%') := by decide
    have lowered : ∀ c ∈ text, (c.toLower = '.' → c = '.') ∧ (c.toLower = '%' → c = '%') := by
      intro c member
      have code := codes c.toNat (ascii_of_not_component (plain c member))
      rwa [Char.ofNat_toNat] at code
    have unsigned : '%' ∉ text.map Char.toLower := by
      intro member
      obtain ⟨c, inText, same⟩ := List.mem_map.mp member
      obtain rfl := (lowered c inText).2 same
      exact absurd (plain '%' inText) (by decide)
    have dots : text.map Char.toLower = ['.'] ∨ text.map Char.toLower = ['.', '.'] := by
      have spellings : ∀ s ∈ dotSpellings, '%' ∈ s ∨ s = ['.'] ∨ s = ['.', '.'] := by decide
      exact (spellings _ spelled).resolve_left unsigned
    rcases dots with one | two
    · obtain ⟨c, rfl, first⟩ := List.map_eq_singleton_iff.mp one
      rw [(lowered c List.mem_cons_self).1 first]
      exact Or.inl rfl
    · obtain ⟨c, rest, rfl, first, later⟩ := List.map_eq_cons_iff.mp two
      obtain ⟨d, rfl, second⟩ := List.map_eq_singleton_iff.mp later
      rw [(lowered c (by simp)).1 first, (lowered d (by simp)).1 second]
      exact Or.inr rfl
  · rintro (rfl | rfl)
    · decide
    · decide

/-! ## Forms -/

/-- A byte the form serializer leaves as it is. -/
def isPlain (b : UInt8) : Bool :=
  (0x30 ≤ b && b ≤ 0x39) || (0x41 ≤ b && b ≤ 0x5A) || (0x61 ≤ b && b ≤ 0x7A) ||
    b == 0x2A || b == 0x2D || b == 0x2E || b == 0x5F

def serializeByte (b : UInt8) : List Char :=
  if isPlain b then [Char.ofNat b.toNat] else if b = 0x20 then ['+'] else percentByte b

/-- `form_urlencoded::byte_serialize`. -/
def serialize (text : List Char) : List Char := (utf8 text).flatMap serializeByte

/-- `form_urlencoded::decode`: a plus sign is a space, before percent decoding. -/
def deserialize (text : List Char) : List Char :=
  fromUtf8Lossy (percentDecode ((utf8 text).map (fun b => if b = 0x2B then 0x20 else b)))

abbrev Pair := List Char × List Char

def pairText (pair : Pair) : List Char := serialize pair.1 ++ '=' :: serialize pair.2

/-- A form: its pairs with `&` between them. -/
def write (pairs : List Pair) : List Char := ['&'].intercalate (pairs.map pairText)

/-- One piece of a form; without `=` the value is empty. -/
def readPair (piece : List Char) : Pair :=
  match splitOnce '=' piece with
  | some (name, value) => (deserialize name, deserialize value)
  | none => (deserialize piece, [])

/-- `form_urlencoded::parse`: empty pieces are passed over. -/
def parse (text : List Char) : List Pair :=
  ((split '&' text).filter (fun piece => !piece.isEmpty)).map readPair

/-- The bytes, one by one: what the serializer writes, and how the reader takes it. -/
theorem serializeByte_cases (b : UInt8) :
    (b ≠ 0x25 ∧ (utf8 (serializeByte b)).map (fun b => if b = 0x2B then 0x20 else b) = [b]) ∨
      (utf8 (serializeByte b)).map (fun b => if b = 0x2B then 0x20 else b) =
        utf8 (percentByte b) := by
  unfold serializeByte
  split
  · rename_i plain
    have facts : ∀ n < 256, isPlain (UInt8.ofNat n) = true →
        n < 128 ∧ n ≠ 0x25 ∧ n ≠ 0x2B := by decide +kernel
    have fact := facts b.toNat b.toNat_lt
    rw [UInt8.ofNat_toNat] at fact
    obtain ⟨ascii, sign, plus⟩ := fact plain
    have codes : ∀ n < 128, (Char.ofNat n).toNat = n := by decide
    have code := codes b.toNat ascii
    refine Or.inl ⟨?_, ?_⟩
    · intro same
      exact sign (congrArg UInt8.toNat same)
    · rw [utf8_cons, utf8_nil, List.append_nil, utf8EncodeChar_of_ascii (by rwa [code]), code,
        UInt8.ofNat_toNat, List.map_singleton, if_neg]
      intro same
      exact plus (congrArg UInt8.toNat same)
  · split
    · rename_i space
      subst space
      exact Or.inl ⟨by decide, by decide⟩
    · right
      have small := b.toNat_lt
      have plus : ∀ n < 16, UInt8.ofNat (hexDigit n).toNat ≠ 0x2B := by decide
      rw [utf8_percentByte, List.map_cons, List.map_cons, List.map_cons, List.map_nil,
        if_neg (by decide), if_neg (plus _ (by omega)), if_neg (plus _ (by omega))]

/-- A component that was serialized is read back. -/
theorem deserialize_serialize (text : List Char) : deserialize (serialize text) = text := by
  have bytes : (utf8 (serialize text)).map (fun b => if b = 0x2B then 0x20 else b) =
      (utf8 text).flatMap
        (fun b => (utf8 (serializeByte b)).map (fun b => if b = 0x2B then 0x20 else b)) := by
    unfold serialize
    generalize utf8 text = all
    induction all with
    | nil => rfl
    | cons b rest ih =>
      rw [List.flatMap_cons, utf8_append, List.map_append, ih, List.flatMap_cons]
  unfold deserialize
  rw [bytes, percentDecode_flatMap serializeByte_cases, fromUtf8Lossy_utf8]

/-- So is one that was percent-encoded, if a plus sign was. -/
theorem deserialize_encode {set : Char → Bool} (sign : set '%' = true) (plus : set '+' = true)
    (wide : ∀ c, 128 ≤ c.toNat → set c = true) (text : List Char) :
    deserialize (encode set text) = text := by
  have kept : (utf8 (encode set text)).map (fun b => if b = 0x2B then 0x20 else b) =
      utf8 (encode set text) := by
    have digits : ∀ n < 16, (hexDigit n).toNat < 128 ∧ hexDigit n ≠ '+' := by decide
    have free : ∀ c ∈ encode set text, c.toNat < 128 ∧ c ≠ '+' := by
      intro c member
      rcases mem_encode member with ⟨_, plain⟩ | rfl | ⟨n, small, rfl⟩
      · refine ⟨?_, ?_⟩
        · by_contra past
          rw [wide c (Nat.le_of_not_lt past)] at plain
          cases plain
        · rintro rfl
          rw [plus] at plain
          cases plain
      · decide
      · exact digits n small
    rw [utf8_of_ascii (fun c member => (free c member).1), List.map_map]
    refine List.map_congr_left ?_
    intro c member
    refine if_neg ?_
    intro same
    have code := congrArg UInt8.toNat same
    rw [UInt8.toNat_ofNat', Nat.mod_eq_of_lt (by have := (free c member).1; omega)] at code
    exact (free c member).2 (Char.toNat_inj.mp code)
  unfold deserialize
  rw [kept, percentDecode_encode sign wide, fromUtf8Lossy_utf8]

/-- A serialized component holds no character that separates it from the next one, or from a
fragment. -/
theorem not_mem_serialize {text : List Char} {c : Char} (member : c ∈ serialize text) :
    c ≠ '&' ∧ c ≠ '=' ∧ c ≠ '#' := by
  obtain ⟨b, _, inside⟩ := List.mem_flatMap.mp member
  have small := b.toNat_lt
  unfold serializeByte at inside
  split at inside
  · rename_i plain
    have facts : ∀ n < 256, isPlain (UInt8.ofNat n) = true →
        Char.ofNat n ≠ '&' ∧ Char.ofNat n ≠ '=' ∧ Char.ofNat n ≠ '#' := by decide +kernel
    have fact := facts b.toNat small
    rw [UInt8.ofNat_toNat] at fact
    rw [List.mem_singleton.mp inside]
    exact fact plain
  · split at inside
    · rw [List.mem_singleton.mp inside]
      decide
    · rcases List.mem_cons.mp inside with rfl | digits
      · decide
      · have digit : ∀ n < 16, hexDigit n ≠ '&' ∧ hexDigit n ≠ '=' ∧ hexDigit n ≠ '#' := by
          decide
        rcases List.mem_cons.mp digits with rfl | low
        · exact digit _ (by omega)
        · rw [List.mem_singleton.mp low]
          exact digit _ (by omega)

theorem readPair_pairText (pair : Pair) : readPair (pairText pair) = pair := by
  have free : '=' ∉ serialize pair.1 := fun member => (not_mem_serialize member).2.1 rfl
  unfold readPair pairText
  rw [splitOnce_append _ free]
  show (deserialize (serialize pair.1), deserialize (serialize pair.2)) = pair
  rw [deserialize_serialize, deserialize_serialize]

theorem not_mem_pairText {pair : Pair} {c : Char} (special : c = '&' ∨ c = '#') :
    c ∉ pairText pair := by
  intro member
  rcases List.mem_append.mp member with name | later
  · rcases special with rfl | rfl
    · exact (not_mem_serialize name).1 rfl
    · exact (not_mem_serialize name).2.2 rfl
  · rcases List.mem_cons.mp later with rfl | value
    · exact absurd special (by decide)
    · rcases special with rfl | rfl
      · exact (not_mem_serialize value).1 rfl
      · exact (not_mem_serialize value).2.2 rfl

theorem pairText_ne_nil (pair : Pair) : pairText pair ≠ [] := by
  unfold pairText
  simp

/-- A character of a serialized component. -/
theorem mem_serialize {text : List Char} {c : Char} (member : c ∈ serialize text) :
    inSpecialQuerySet c = false ∧ c ≠ '#' := by
  obtain ⟨b, _, inside⟩ := List.mem_flatMap.mp member
  have small := b.toNat_lt
  have facts : ∀ n < 256, (serializeByte (UInt8.ofNat n)).all
      (fun d => decide (inSpecialQuerySet d = false ∧ d ≠ '#')) = true := by decide +kernel
  have fact := facts b.toNat small
  rw [UInt8.ofNat_toNat] at fact
  exact of_decide_eq_true (List.all_eq_true.mp fact c inside)

/-- No character of a form is one that a query encodes, or that ends it. -/
theorem mem_write {pairs : List Pair} {c : Char} (member : c ∈ write pairs) :
    inSpecialQuerySet c = false ∧ c ≠ '#' := by
  have inPair : ∀ pair : Pair, c ∈ pairText pair → inSpecialQuerySet c = false ∧ c ≠ '#' := by
    intro pair inside
    rcases List.mem_append.mp inside with name | later
    · exact mem_serialize name
    · rcases List.mem_cons.mp later with rfl | value
      · decide
      · exact mem_serialize value
  unfold write at member
  induction pairs with
  | nil => cases member
  | cons pair rest ih =>
    cases rest with
    | nil => exact inPair pair (by simpa [List.intercalate] using member)
    | cons next more =>
      have cut : ['&'].intercalate ((pair :: next :: more).map pairText) =
          pairText pair ++ '&' :: ['&'].intercalate ((next :: more).map pairText) := by
        simp [List.intercalate]
      rw [cut] at member
      rcases List.mem_append.mp member with here | later
      · exact inPair pair here
      · rcases List.mem_cons.mp later with rfl | further
        · decide
        · exact ih further

/-- Pieces that do not hold the separator come apart again. -/
theorem split_intercalate {sep : Char} {pieces : List (List Char)} (filled : pieces ≠ [])
    (free : ∀ piece ∈ pieces, sep ∉ piece) : split sep ([sep].intercalate pieces) = pieces :=
  List.splitOn_intercalate sep free filled

/-- A form that was written is read back. -/
theorem parse_write (pairs : List Pair) : parse (write pairs) = pairs := by
  unfold parse write
  cases pairs with
  | nil => rfl
  | cons pair rest =>
    rw [split_intercalate (by simp)]
    · have all : ((pair :: rest).map pairText).filter (fun piece => !piece.isEmpty) =
          (pair :: rest).map pairText := by
        refine List.filter_eq_self.mpr ?_
        intro piece member
        obtain ⟨source, _, rfl⟩ := List.mem_map.mp member
        simpa using pairText_ne_nil source
      rw [all, List.map_map]
      exact List.map_id'' readPair_pairText _
    · intro piece member
      obtain ⟨source, _, rfl⟩ := List.mem_map.mp member
      exact not_mem_pairText (Or.inl rfl)

end Fleetwatch.Urlencoded
