import Fleetwatch.Lib.Json

/-!
# Reading an `org.json` object

The accessors of `JSONObject` and `JSONArray` on Android. None of them fails: a value of
the wrong kind is converted or left out. `JSONObject.NULL` is a value like any other, so
`optString` spells it. Reading a text and spelling a value are parameters.
-/

namespace Fleetwatch

open Utf16

/-- An object of the runtime, as its fields. -/
abbrev JsonObject := List (List CodeUnit × Tree)

structure OrgJson where
  /-- `JSONTokener.nextValue`. -/
  read : List CodeUnit → Option Tree
  /-- `String.valueOf` of what is not a string. -/
  valueOf : Tree → List CodeUnit
  /-- What a string says as a boolean. -/
  toBoolean : List CodeUnit → Option Bool

namespace JsonObject

section

variable (org : OrgJson)

def optString (o : JsonObject) (name : List CodeUnit) : List CodeUnit :=
  match Tree.opt name o with
  | none => []
  | some (.string s) => s
  | some value => org.valueOf value

def optBoolean (o : JsonObject) (name : List CodeUnit) (fallback : Bool) : Bool :=
  match Tree.opt name o with
  | some (.bool b) => b
  | some (.string s) => (org.toBoolean s).getD fallback
  | _ => fallback

def isNull (o : JsonObject) (name : List CodeUnit) : Bool :=
  match Tree.opt name o with
  | none => true
  | some .null => true
  | some _ => false

def optJSONArray (o : JsonObject) (name : List CodeUnit) : Option (List Tree) :=
  match Tree.opt name o with
  | some (.array items) => some items
  | _ => none

end

/-- The items that are objects, in their order. -/
def objects (items : Option (List Tree)) : List JsonObject :=
  (items.getD []).filterMap fun
    | .object o => some o
    | _ => none

/-! ## What is found of a written object -/

section Written

variable {fields : List (String × Json)} (distinct : (fields.map Prod.fst).Nodup)
  (org : OrgJson) (round : Int → Int) {name : String}

include distinct

theorem optString_toFields {text : String} (member : (name, .str text) ∈ fields) :
    optString org (toFields round fields) (utf16 name) = utf16 text := by
  unfold optString
  rw [opt_toFields distinct member]
  rfl

theorem optBoolean_toFields {b : Bool} (fallback : Bool) (member : (name, .bool b) ∈ fields) :
    optBoolean org (toFields round fields) (utf16 name) fallback = b := by
  unfold optBoolean
  rw [opt_toFields distinct member]
  rfl

theorem isNull_toFields {value : Json} (member : (name, value) ∈ fields) :
    isNull (toFields round fields) (utf16 name) = true ↔ value = .null := by
  unfold isNull
  rw [opt_toFields distinct member]
  cases value <;> simp [Json.toTree]

/-- An optional text, asked for only when it is not `null`. -/
theorem optString_toFields_option {text : Option String}
    {filled : ∀ value, Codec.string.write value ≠ .null}
    (member : (name, (Codec.option Codec.string filled).write text) ∈ fields) :
    (if isNull (toFields round fields) (utf16 name) then none
      else some (optString org (toFields round fields) (utf16 name))) = text.map utf16 := by
  cases text with
  | none => rw [if_pos ((isNull_toFields distinct round member).mpr rfl), Option.map_none]
  | some value =>
    have notNull : ¬ isNull (toFields round fields) (utf16 name) = true := by
      rw [isNull_toFields distinct round member]
      exact filled value
    rw [if_neg notNull, optString_toFields distinct org round member, Option.map_some]

/-- An array of objects is read as those, none left out. -/
theorem objects_toFields {items : List (List (String × Json))}
    (member : (name, .arr (items.map .obj)) ∈ fields) :
    objects (optJSONArray (toFields round fields) (utf16 name)) = items.map (toFields round) := by
  have found : optJSONArray (toFields round fields) (utf16 name) =
      some (items.map (fun item => .object (toFields round item))) := by
    unfold optJSONArray
    rw [opt_toFields distinct member]
    show some (toTrees round (items.map Json.obj)) = _
    rw [toTrees_eq_map, List.map_map]
    rfl
  rw [found]
  show (items.map (fun item => Tree.object (toFields round item))).filterMap _ = _
  rw [List.filterMap_map]
  exact congrFun List.filterMap_eq_map items

end Written

end JsonObject

end Fleetwatch
