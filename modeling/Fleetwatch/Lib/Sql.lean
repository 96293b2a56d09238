import Mathlib.Data.List.Lex
import Mathlib.Tactic.Common

/-!
# Column semantics of a SQL store

What a database does to a value between the statement that binds it and the row
that holds it: strings are compared through a collation and limited by the
column's width, and a `DATETIME(3)` keeps whole milliseconds while the bound
parameter it came from keeps its microseconds. An instant is a number of
nanoseconds since the epoch.
-/

namespace Fleetwatch.Sql

/-- A collation compares strings through their sort keys. Strings with one sort
key are equal to the database however they are spelled. -/
structure Collation where
  weight : String → List Nat

/-- Nanoseconds in a second. -/
def second : Int := 1000000000

/-- A bound instant: the protocol carries microseconds. -/
def bindDatetime (t : Int) : Int := t - t % 1000

/-- A stored `DATETIME(3)`: further digits are dropped. -/
def datetime3 (t : Int) : Int := t - t % 1000000

/-- A stored `DATETIME`, or `NOW()`: whole seconds. -/
def datetime0 (t : Int) : Int := t - t % second

/-- The instants a `DATETIME` column can hold, years 0 to 9999. -/
def datetimeMin : Int := -62167219200 * second
def datetimeEnd : Int := 253402300800 * second

def isDatetime (t : Int) : Bool := datetimeMin ≤ t ∧ t < datetimeEnd

/-- What an `IGNORE` statement stores for an instant out of range:
`0000-00-00 00:00:00`, before every instant in it. -/
def zeroDate : Int := datetimeMin - 86400 * second

/-- The value an `IGNORE` statement stores in a `DATETIME(3)`. -/
def datetime3Ignore (t : Int) : Int :=
  if isDatetime t then datetime3 t else zeroDate

/-- The value an `IGNORE` statement stores in a `VARCHAR(width)`: cut to fit. -/
def cut (width : Nat) (value : String) : String := String.ofList (value.toList.take width)

theorem cut_eq_self {width : Nat} {value : String} (fits : value.length ≤ width) :
    cut width value = value := by
  unfold cut
  rw [List.take_of_length_le (fits), String.ofList_toList]

theorem datetime3Ignore_eq {t : Int} (valid : isDatetime t = true) :
    datetime3Ignore t = datetime3 t := by
  simp [datetime3Ignore, valid]

theorem datetime3_le_bind (t : Int) : datetime3 t ≤ bindDatetime t := by
  unfold datetime3 bindDatetime
  omega

theorem bind_le (t : Int) : bindDatetime t ≤ t := by
  unfold bindDatetime
  omega

theorem bind_mono {s t : Int} (le : s ≤ t) : bindDatetime s ≤ bindDatetime t := by
  unfold bindDatetime
  omega

theorem datetime3_le (t : Int) : datetime3 t ≤ t :=
  Int.le_trans (datetime3_le_bind t) (bind_le t)

theorem lt_datetime3_add (t : Int) : t < datetime3 t + 1000000 := by
  unfold datetime3
  omega

theorem datetime0_le (t : Int) : datetime0 t ≤ t := by
  unfold datetime0 second
  omega

@[simp] theorem datetime3_bind (t : Int) : datetime3 (bindDatetime t) = datetime3 t := by
  unfold datetime3 bindDatetime
  omega

@[simp] theorem bind_datetime3 (t : Int) : bindDatetime (datetime3 t) = datetime3 t := by
  unfold datetime3 bindDatetime
  omega

@[simp] theorem datetime3_idem (t : Int) : datetime3 (datetime3 t) = datetime3 t := by
  unfold datetime3
  omega

theorem datetime3_mono {s t : Int} (le : s ≤ t) : datetime3 s ≤ datetime3 t := by
  unfold datetime3
  omega

end Fleetwatch.Sql
