import Fleetwatch.Lib.Sql

/-!
# Instants of a bounded calendar

`DateTime<Utc>` of the `chrono` crate: nanoseconds since the epoch, within the years the
crate can name. Addition past the last of them panics; reading a timestamp outside of them
fails.
-/

namespace Fleetwatch.Chrono

open Sql

/-- The seconds of `DateTime::MIN_UTC` and `DateTime::MAX_UTC`. -/
def minTimestamp : Int := -8334601228800
def maxTimestamp : Int := 8210266876799

@[ext] structure DateTime where
  nanos : Int
  inRange : minTimestamp ≤ nanos / second ∧ nanos / second ≤ maxTimestamp
  deriving DecidableEq

namespace DateTime

/-- `timestamp`: the whole seconds. -/
def timestamp (t : DateTime) : Int := t.nanos / second

/-- The start of the instant's second. -/
def wholeSecond (t : DateTime) : DateTime where
  nanos := t.timestamp * second
  inRange := by
    have same : t.timestamp * second / second = t.timestamp :=
      Int.mul_ediv_cancel _ (by decide)
    rw [same]
    exact t.inRange

/-- `DateTime::from_timestamp`, of no nanoseconds. -/
def fromTimestamp (seconds : Int) : Option DateTime :=
  if range : minTimestamp ≤ seconds ∧ seconds ≤ maxTimestamp then
    some
      { nanos := seconds * second
        inRange := by
          rw [Int.mul_ediv_cancel _ (by decide)]
          exact range }
  else none

/-- `DateTime + Duration`: nothing where the addition panics. -/
def add (t : DateTime) (duration : Int) : Option DateTime :=
  if range : minTimestamp ≤ (t.nanos + duration) / second ∧
      (t.nanos + duration) / second ≤ maxTimestamp then
    some { nanos := t.nanos + duration, inRange := range }
  else none

theorem nanos_of_add {t sum : DateTime} {duration : Int} (added : t.add duration = some sum) :
    sum.nanos = t.nanos + duration := by
  unfold add at added
  split at added
  · rw [← Option.some.inj added]
  · cases added

/-- Reading back an instant's timestamp loses what is left of its second. -/
theorem fromTimestamp_timestamp (t : DateTime) :
    fromTimestamp t.timestamp = some t.wholeSecond := by
  unfold fromTimestamp
  rw [dif_pos (show minTimestamp ≤ t.timestamp ∧ t.timestamp ≤ maxTimestamp from t.inRange)]
  rfl

theorem wholeSecond_eq_self {t : DateTime} (whole : t.nanos % second = 0) : t.wholeSecond = t := by
  ext
  exact Int.ediv_mul_cancel (Int.dvd_of_emod_eq_zero whole)

end DateTime

/-! ## Written dates -/

/-- The year, month and day of a number of days since the epoch, in the proleptic
Gregorian calendar; years are counted from March. -/
def civil (days : Int) : Int × Nat × Nat :=
  let shifted := days + 719468
  let era := shifted.fdiv 146097
  let dayOfEra := (shifted - era * 146097).toNat
  let yearOfEra := (dayOfEra - dayOfEra / 1460 + dayOfEra / 36524 - dayOfEra / 146096) / 365
  let dayOfYear := dayOfEra - (365 * yearOfEra + yearOfEra / 4 - yearOfEra / 100)
  let march := (5 * dayOfYear + 2) / 153
  let day := dayOfYear - (153 * march + 2) / 5 + 1
  let month := if march < 10 then march + 3 else march - 9
  (yearOfEra + era * 400 + if month ≤ 2 then 1 else 0, month, day)

/-- A number in at least `width` digits. -/
def padded (width n : Nat) : List Char :=
  let digits := Nat.toDigits 10 n
  List.replicate (width - digits.length) '0' ++ digits

/-- `%Y`: four digits, with a sign outside of the years they can write. -/
def formatYear (year : Int) : List Char :=
  let digits := padded 4 year.natAbs
  if year < 0 then '-' :: digits else if 9999 < year then '+' :: digits else digits

/-- `format("%Y-%m-%d %H:%M")` of an instant. -/
def formatMinute (t : Int) : String :=
  let seconds := t.fdiv second
  let (year, month, day) := civil (seconds.fdiv 86400)
  let minutes := ((seconds.fmod 86400) / 60).toNat
  String.ofList (formatYear year ++ '-' :: padded 2 month ++ '-' :: padded 2 day ++
    ' ' :: padded 2 (minutes / 60) ++ ':' :: padded 2 (minutes % 60))

example : formatMinute (951827696 * second) = "2000-02-29 12:34" := by decide

theorem isDigit_of_mem_padded {width n : Nat} {c : Char} (member : c ∈ padded width n) :
    c.isDigit = true := by
  rcases List.mem_append.mp member with zero | digit
  · rw [List.eq_of_mem_replicate zero]
    rfl
  · exact Nat.isDigit_of_mem_toDigits (by decide) (by decide) digit

/-- A written minute is digits and the five marks between them. -/
theorem mem_formatMinute {t : Int} {c : Char} (member : c ∈ (formatMinute t).toList) :
    c.isDigit = true ∨ c ∈ ['-', '+', ' ', ':'] := by
  have year : ∀ y, c ∈ formatYear y → c.isDigit = true ∨ c ∈ ['-', '+', ' ', ':'] := by
    intro y written
    unfold formatYear at written
    dsimp only at written
    split at written
    · rcases List.mem_cons.mp written with rfl | digit
      · exact Or.inr (by decide)
      · exact Or.inl (isDigit_of_mem_padded digit)
    · split at written
      · rcases List.mem_cons.mp written with rfl | digit
        · exact Or.inr (by decide)
        · exact Or.inl (isDigit_of_mem_padded digit)
      · exact Or.inl (isDigit_of_mem_padded written)
  have field : ∀ (mark : Char) n, mark ∈ ['-', '+', ' ', ':'] → c ∈ mark :: padded 2 n →
      c.isDigit = true ∨ c ∈ ['-', '+', ' ', ':'] := by
    intro mark n between written
    rcases List.mem_cons.mp written with rfl | digit
    · exact Or.inr between
    · exact Or.inl (isDigit_of_mem_padded digit)
  unfold formatMinute at member
  rw [String.toList_ofList] at member
  rcases List.mem_append.mp member with member | minute
  · rcases List.mem_append.mp member with member | hour
    · rcases List.mem_append.mp member with member | day
      · rcases List.mem_append.mp member with member | month
        · exact year _ member
        · exact field _ _ (by decide) month
      · exact field _ _ (by decide) day
    · exact field _ _ (by decide) hour
  · exact field _ _ (by decide) minute

end Fleetwatch.Chrono
