import Fleetwatch.Lib.Hex
import Fleetwatch.Lib.Utf16
import Mathlib.Algebra.Group.Int.Defs
import Mathlib.Algebra.Group.Nat.Defs

/-!
# JSON documents and their readers

A document as it is written, and the two ways it is read here: by codecs in the manner of
`serde`, which ask for the fields they know and fail on anything of the wrong kind, and by
a runtime over code units, which keeps the whole tree. A codec carries the proof that it
reads what it wrote.
-/

namespace Fleetwatch

open Utf16

/-- A JSON document; its numbers are integers. -/
inductive Json where
  | null
  | bool (b : Bool)
  | num (n : Int)
  | str (s : String)
  | arr (items : List Json)
  | obj (fields : List (String × Json))

/-! ## The text -/

namespace Json

/-- A character of a string, as `serde_json` escapes it. -/
def escape (c : Char) : List Char :=
  if c = '"' ∨ c = '\\' then ['\\', c]
  else if c.toNat = 8 then ['\\', 'b']
  else if c.toNat = 9 then ['\\', 't']
  else if c.toNat = 10 then ['\\', 'n']
  else if c.toNat = 12 then ['\\', 'f']
  else if c.toNat = 13 then ['\\', 'r']
  else if c.toNat < 32 then
    ['\\', 'u', '0', '0', Hex.digit (c.toNat / 16), Hex.digit (c.toNat % 16)]
  else [c]

def quote (s : String) : List Char := '"' :: (s.toList.flatMap escape ++ ['"'])

mutual

/-- The compact text `serde_json` writes. -/
def text : Json → List Char
  | .null => ['n', 'u', 'l', 'l']
  | .bool true => ['t', 'r', 'u', 'e']
  | .bool false => ['f', 'a', 'l', 's', 'e']
  | .num n => (toString n).toList
  | .str s => quote s
  | .arr items => '[' :: (itemsText items ++ [']'])
  | .obj fields => '{' :: (fieldsText fields ++ ['}'])

def itemsText : List Json → List Char
  | [] => []
  | [item] => item.text
  | item :: items => item.text ++ ',' :: itemsText items

def fieldsText : List (String × Json) → List Char
  | [] => []
  | [(name, value)] => quote name ++ ':' :: value.text
  | (name, value) :: fields => quote name ++ ':' :: (value.text ++ ',' :: fieldsText fields)

end

example : String.ofList (text (.obj [("n", .num (-1)), ("s", .str "a\"\n")])) =
    "\x7b\"n\":-1,\"s\":\"a\\\"\\n\"\x7d" := by decide

end Json

/-- A document as a runtime of code units holds it. -/
inductive Tree where
  | null
  | bool (b : Bool)
  | number (n : Int)
  | string (s : List CodeUnit)
  | array (items : List Tree)
  | object (fields : List (List CodeUnit × Tree))

section ToTree

variable (round : Int → Int)

mutual

/-- The tree of a document, in a runtime that rounds numbers its way. -/
def Json.toTree : Json → Tree
  | .null => .null
  | .bool b => .bool b
  | .num n => .number (round n)
  | .str s => .string (utf16 s)
  | .arr items => .array (toTrees items)
  | .obj fields => .object (toFields fields)

def toTrees : List Json → List Tree
  | [] => []
  | item :: items => item.toTree :: toTrees items

def toFields : List (String × Json) → List (List CodeUnit × Tree)
  | [] => []
  | (name, value) :: fields => (utf16 name, value.toTree) :: toFields fields

end

theorem toTrees_eq_map (items : List Json) :
    toTrees round items = items.map (Json.toTree round) := by
  induction items with
  | nil => rfl
  | cons item items ih => rw [toTrees, ih, List.map_cons]

end ToTree

/-! ## Fields -/

/-- The value of a field, if there is one; nothing at all if it stands there twice. -/
def fieldOf (name : String) : List (String × Json) → Option (Option Json)
  | [] => some none
  | (other, value) :: fields =>
    if other = name then
      match fieldOf name fields with
      | some none => some (some value)
      | _ => none
    else fieldOf name fields

/-- What a runtime finds under a name: the last of several. -/
def Tree.opt (name : List CodeUnit) : List (List CodeUnit × Tree) → Option Tree
  | [] => none
  | (other, value) :: fields =>
    match Tree.opt name fields with
    | some later => some later
    | none => if other = name then some value else none

theorem fieldOf_eq_none_iff {name : String} {fields : List (String × Json)} :
    fieldOf name fields = some none ↔ name ∉ fields.map Prod.fst := by
  induction fields with
  | nil => simp [fieldOf]
  | cons field fields ih =>
    obtain ⟨other, value⟩ := field
    rw [fieldOf, List.map_cons, List.mem_cons, not_or, ← ih]
    by_cases same : other = name
    · rw [if_pos same]
      refine iff_of_false ?_ (fun both => both.1 same.symm)
      split <;> simp
    · rw [if_neg same]
      exact (and_iff_right (Ne.symm same)).symm

/-- A field that stands there once is found. -/
theorem fieldOf_eq_some {name : String} {value : Json} {fields : List (String × Json)}
    (distinct : (fields.map Prod.fst).Nodup) (member : (name, value) ∈ fields) :
    fieldOf name fields = some (some value) := by
  induction fields with
  | nil => cases member
  | cons field fields ih =>
    obtain ⟨other, first⟩ := field
    obtain ⟨absent, distinct'⟩ := List.nodup_cons.mp distinct
    rw [fieldOf]
    rcases List.mem_cons.mp member with here | later
    · obtain ⟨rfl, rfl⟩ := Prod.mk.inj here
      rw [if_pos rfl, fieldOf_eq_none_iff.mpr absent]
    · have different : other ≠ name := by
        rintro rfl
        exact absent (List.mem_map.mpr ⟨_, later, rfl⟩)
      rw [if_neg different, ih distinct' later]

/-- And a runtime finds its tree. -/
theorem opt_toFields {round : Int → Int} {name : String} {value : Json}
    {fields : List (String × Json)} (distinct : (fields.map Prod.fst).Nodup)
    (member : (name, value) ∈ fields) :
    Tree.opt (utf16 name) (toFields round fields) = some (value.toTree round) := by
  have absent_opt : ∀ fields : List (String × Json), name ∉ fields.map Prod.fst →
      Tree.opt (utf16 name) (toFields round fields) = none := by
    intro fields
    induction fields with
    | nil => exact fun _ => rfl
    | cons field fields ih =>
      obtain ⟨other, first⟩ := field
      intro absent
      obtain ⟨different, absent'⟩ := not_or.mp (mt List.mem_cons.mpr absent)
      rw [toFields, Tree.opt, ih absent', if_neg]
      exact fun same => different (utf16_injective same).symm
  induction fields with
  | nil => cases member
  | cons field fields ih =>
    obtain ⟨other, first⟩ := field
    obtain ⟨absent, distinct'⟩ := List.nodup_cons.mp distinct
    rw [toFields, Tree.opt]
    rcases List.mem_cons.mp member with here | later
    · obtain ⟨rfl, rfl⟩ := Prod.mk.inj here
      rw [absent_opt fields absent, if_pos rfl]
    · rw [ih distinct' later]

/-! ## Codecs -/

/-- How the values of a type are written and read. The canonical values are those of the
type the codec is for, where the model's type holds more. -/
structure Codec (α : Type) where
  write : α → Json
  read : Json → Option α
  canonical : α → Prop
  reads : ∀ value, canonical value → read (write value) = some value

namespace Codec

variable {α : Type}

def bool : Codec Bool where
  write := .bool
  read
    | .bool b => some b
    | _ => none
  canonical _ := True
  reads _ _ := rfl

def string : Codec String where
  write := .str
  read
    | .str s => some s
    | _ => none
  canonical _ := True
  reads _ _ := rfl

/-- A `u32`. -/
def u32 : Codec Nat where
  write n := .num n
  read
    | .num n => if 0 ≤ n ∧ n < 2 ^ 32 then some n.toNat else none
    | _ => none
  canonical n := n < 2 ^ 32
  reads := by
    intro n small
    exact if_pos ⟨by omega, by omega⟩

/-- A `u64`. -/
def u64 : Codec UInt64 where
  write n := .num n.toNat
  read
    | .num n => if 0 ≤ n ∧ n < 2 ^ 64 then some (UInt64.ofNat n.toNat) else none
    | _ => none
  canonical _ := True
  reads := by
    intro n _
    have small := n.toNat_lt
    show (if (0 : Int) ≤ n.toNat ∧ (n.toNat : Int) < 2 ^ 64 then
      some (UInt64.ofNat (n.toNat : Int).toNat) else none) = _
    rw [if_pos ⟨by omega, by omega⟩, Int.toNat_natCast, UInt64.ofNat_toNat]

/-- An `i64`. -/
def i64 : Codec Int64 where
  write n := .num n.toInt
  read
    | .num n => if -2 ^ 63 ≤ n ∧ n < 2 ^ 63 then some (Int64.ofInt n) else none
    | _ => none
  canonical _ := True
  reads := by
    intro n _
    have low := n.le_toInt
    have high := n.toInt_lt
    show (if -2 ^ 63 ≤ n.toInt ∧ n.toInt < 2 ^ 63 then some (Int64.ofInt n.toInt) else none) = _
    rw [if_pos ⟨by omega, by omega⟩, Int64.ofInt_toInt]

/-- A value of a `unit` enum, spelled by its name. -/
def variant [DecidableEq α] (name : α → String) (values : List α)
    (spelled : ∀ value, values.find? (fun other => name other = name value) = some value) :
    Codec α where
  write value := .str (name value)
  read
    | .str s => values.find? (fun value => name value = s)
    | _ => none
  canonical _ := True
  reads value _ := spelled value

/-- An `Option`: `null` where there is nothing. The value itself is never `null`. -/
def option (codec : Codec α) (filled : ∀ value, codec.write value ≠ .null) : Codec (Option α) where
  write
    | none => .null
    | some value => codec.write value
  read
    | .null => some none
    | value => (codec.read value).map some
  canonical value := ∀ inner, value = some inner → codec.canonical inner
  reads := by
    intro value canonical
    cases value with
    | none => rfl
    | some inner =>
      have read := codec.reads inner (canonical inner rfl)
      show (match codec.write inner with
        | .null => some none
        | value => (codec.read value).map some) = some (some inner)
      split
      · rename_i null
        exact absurd null (filled inner)
      · rw [read, Option.map_some]

/-- A `Vec`. -/
def list (codec : Codec α) : Codec (List α) where
  write items := .arr (items.map codec.write)
  read
    | .arr items => items.mapM codec.read
    | _ => none
  canonical items := ∀ item ∈ items, codec.canonical item
  reads := by
    intro items canonical
    show (items.map codec.write).mapM codec.read = some items
    induction items with
    | nil => rfl
    | cons item items ih =>
      have first := codec.reads item (canonical item List.mem_cons_self)
      have rest := ih (fun other member => canonical other (List.mem_cons_of_mem _ member))
      rw [List.map_cons, List.mapM_cons, first, rest]
      rfl

section Canonical

@[simp] theorem canonical_bool (b : Bool) : bool.canonical b := trivial

@[simp] theorem canonical_string (s : String) : string.canonical s := trivial

@[simp] theorem canonical_u32 (n : Nat) : u32.canonical n ↔ n < 2 ^ 32 := Iff.rfl

@[simp] theorem canonical_u64 (n : UInt64) : u64.canonical n := trivial

@[simp] theorem canonical_i64 (n : Int64) : i64.canonical n := trivial

@[simp] theorem canonical_variant [DecidableEq α] (name : α → String) (values : List α)
    (spelled : ∀ value, values.find? (fun other => name other = name value) = some value)
    (value : α) : (variant name values spelled).canonical value := trivial

@[simp] theorem canonical_option (codec : Codec α) (filled : ∀ value, codec.write value ≠ .null)
    (value : Option α) :
    (option codec filled).canonical value ↔ ∀ inner, value = some inner → codec.canonical inner :=
  Iff.rfl

@[simp] theorem canonical_list (codec : Codec α) (items : List α) :
    (list codec).canonical items ↔ ∀ item ∈ items, codec.canonical item := Iff.rfl

end Canonical

/-- A field that must be there. -/
def required (codec : Codec α) (name : String) (fields : List (String × Json)) : Option α := do
  let found ← fieldOf name fields
  let value ← found
  codec.read value

/-- A field that may be missing, and then is nothing. -/
def optional (codec : Codec (Option α)) (name : String) (fields : List (String × Json)) :
    Option (Option α) := do
  match ← fieldOf name fields with
  | none => some none
  | some value => codec.read value

theorem required_eq (codec : Codec α) {name : String} {value : α} {fields : List (String × Json)}
    (distinct : (fields.map Prod.fst).Nodup) (member : (name, codec.write value) ∈ fields)
    (canonical : codec.canonical value) : codec.required name fields = some value := by
  unfold required
  rw [fieldOf_eq_some distinct member]
  exact codec.reads value canonical

theorem optional_eq (codec : Codec (Option α)) {name : String} {value : Option α}
    {fields : List (String × Json)} (distinct : (fields.map Prod.fst).Nodup)
    (member : (name, codec.write value) ∈ fields) (canonical : codec.canonical value) :
    codec.optional name fields = some value := by
  unfold optional
  rw [fieldOf_eq_some distinct member]
  exact codec.reads value canonical

end Codec

/-! ## Structs -/

/-- The fields of an object, written from a `σ` and read into an `α`: `value` is what is
read of what was written. -/
structure Fields (σ α : Type) where
  names : List String
  write : σ → List (String × Json)
  read : List (String × Json) → Option α
  canonical : σ → Prop
  value : σ → α
  named : ∀ s, (write s).map Prod.fst = names
  reads : ∀ s fields, canonical s → (fields.map Prod.fst).Nodup → write s ⊆ fields →
    read fields = some (value s)

namespace Fields

variable {σ α β : Type}

/-- No field yet, and what to make of those to come. -/
def start (make : α) : Fields σ α where
  names := []
  write _ := []
  read _ := some make
  canonical _ := True
  value _ := make
  named _ := rfl
  reads _ _ _ _ _ := rfl

/-- One more field, read by `readField`. -/
def field (before : Fields σ (α → β)) (name : String) (codec : Codec α) (get : σ → α)
    (readField : List (String × Json) → Option α)
    (agrees : ∀ value fields, (fields.map Prod.fst).Nodup → (name, codec.write value) ∈ fields →
      codec.canonical value → readField fields = some value) : Fields σ β where
  names := before.names ++ [name]
  write s := before.write s ++ [(name, codec.write (get s))]
  read fields := do
    let make ← before.read fields
    let value ← readField fields
    return make value
  canonical s := before.canonical s ∧ codec.canonical (get s)
  value s := before.value s (get s)
  named := by
    intro s
    rw [List.map_append, before.named]
    rfl
  reads := by
    rintro s fields ⟨canonical, canonical'⟩ distinct written
    obtain ⟨earlier, this⟩ := List.append_subset.mp written
    have make := before.reads s fields canonical distinct earlier
    have value := agrees (get s) fields distinct (this (List.mem_singleton_self _)) canonical'
    rw [make, value]
    rfl

/-- One more field that must be there. -/
def required (before : Fields σ (α → β)) (name : String) (codec : Codec α) (get : σ → α) :
    Fields σ β :=
  before.field name codec get (codec.required name)
    (fun _ _ distinct member canonical => codec.required_eq distinct member canonical)

/-- One more field that may be missing. -/
def optional (before : Fields σ (Option α → β)) (name : String) (codec : Codec (Option α))
    (get : σ → Option α) : Fields σ β :=
  before.field name codec get (codec.optional name)
    (fun _ _ distinct member canonical => codec.optional_eq distinct member canonical)

/-- No name stands twice in what is written. -/
theorem write_distinct (fields : Fields σ α) (distinct : fields.names.Nodup) (s : σ) :
    ((fields.write s).map Prod.fst).Nodup := by
  rw [fields.named]
  exact distinct

/-- The codec of a struct. -/
def object (fields : Fields α α) (distinct : fields.names.Nodup)
    (whole : ∀ value, fields.value value = value) : Codec α where
  write value := .obj (fields.write value)
  read
    | .obj found => fields.read found
    | _ => none
  canonical := fields.canonical
  reads := by
    intro value canonical
    have read := fields.reads value (fields.write value) canonical
      (fields.write_distinct distinct value) (List.Subset.refl _)
    rw [whole] at read
    exact read

section Canonical

variable (before : Fields σ (α → β)) (name : String) (s : σ)

@[simp] theorem canonical_start (make : α) : (start make : Fields σ α).canonical s := trivial

@[simp] theorem canonical_required (codec : Codec α) (get : σ → α) :
    (before.required name codec get).canonical s ↔
      before.canonical s ∧ codec.canonical (get s) := Iff.rfl

@[simp] theorem canonical_optional (before : Fields σ (Option α → β)) (codec : Codec (Option α))
    (get : σ → Option α) :
    (before.optional name codec get).canonical s ↔
      before.canonical s ∧ codec.canonical (get s) := Iff.rfl

@[simp] theorem canonical_object (fields : Fields α α) (distinct : fields.names.Nodup)
    (whole : ∀ value, fields.value value = value) (value : α) :
    (fields.object distinct whole).canonical value ↔ fields.canonical value := Iff.rfl

end Canonical

end Fields

end Fleetwatch
