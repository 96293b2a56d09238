import Fleetwatch.Lib.JsonObject

/-!
# The phone's view of the problems

`Problems.kt` of the Android app: the parsed payload, what of it is worth waking a phone
for, and the fingerprint that tells one problem set from another. A Kotlin string is a list
of UTF-16 code units.
-/

namespace Fleetwatch.Android

open Code Utf16

abbrev KString := List CodeUnit

structure Problem where
  source : KString
  collector : KString
  sect : KString
  label : KString
  verdict : KString
  observed : Option KString
  confirmed : Bool
  deriving DecidableEq, Repr

structure Stale where
  source : KString
  collector : KString
  deriving DecidableEq, Repr

structure Problems where
  checks : List Problem
  stale : List Stale
  returned : List Stale
  deriving DecidableEq, Repr

/-- The API's verdict string for a warning. -/
def WARN : KString := utf16 "warn"

namespace Problems

def isEmpty (p : Problems) : Bool := p.checks.isEmpty && p.stale.isEmpty && p.returned.isEmpty

def count (p : Problems) : Nat := p.checks.length + p.stale.length + p.returned.length

/-- `notifiable`: without warnings, and without failures seen in only one report. -/
def notifiable (p : Problems) : Problems :=
  { p with checks := p.checks.filter (fun it => it.verdict ≠ WARN && it.confirmed) }

/-- `fingerprint`: the entries in the order of their texts. `jsonArray` is
`JSONArray(…).toString()`. -/
def fingerprint (jsonArray : List KString → KString) (p : Problems) : KString :=
  join (utf16 "|") (sorted
    (p.checks.map (fun it =>
        jsonArray [it.source, it.collector, it.sect, it.label, it.verdict]) ++
      p.stale.map (fun it => jsonArray [it.source, it.collector, utf16 "stale"]) ++
      p.returned.map (fun it => jsonArray [it.source, it.collector, utf16 "returned"])))

/-- One check of the payload. An absent optional is written `null`, and `optString` would
spell it; a server older than `confirmed` is believed. -/
def parseProblem (org : OrgJson) (o : JsonObject) : Problem where
  source := o.optString org (utf16 "source")
  collector := o.optString org (utf16 "collector")
  sect := o.optString org (utf16 "section")
  label := o.optString org (utf16 "label")
  verdict := o.optString org (utf16 "verdict")
  observed :=
    if o.isNull (utf16 "observed") then none else some (o.optString org (utf16 "observed"))
  confirmed := o.optBoolean org (utf16 "confirmed") true

def parseStale (org : OrgJson) (o : JsonObject) : Stale where
  source := o.optString org (utf16 "source")
  collector := o.optString org (utf16 "collector")

/-- `parse`. It throws on a text that is not an object; missing arrays are empty. -/
def parse (org : OrgJson) (json : KString) : Option Problems :=
  match org.read json with
  | some (.object root) =>
    let root : JsonObject := root
    some {
      checks := (JsonObject.objects (root.optJSONArray (utf16 "checks"))).map (parseProblem org)
      stale := (JsonObject.objects (root.optJSONArray (utf16 "stale"))).map (parseStale org)
      returned := (JsonObject.objects (root.optJSONArray (utf16 "returned"))).map (parseStale org) }
  | _ => none

end Problems

end Fleetwatch.Android
