import Fleetwatch.Report.Types

/-!
# Staleness

How current a collector's latest report is, from the report's age and the
interval it declares (`src/report/staleness.rs`). The arithmetic is `i64`: the
wire's `u64` interval is reinterpreted, and a product past the range wraps, as it
does in the release build the image ships.
-/

namespace Fleetwatch

/-- A collector that declares no interval is assumed hourly. -/
def DEFAULT_INTERVAL_S : Int64 := 3600

/-- The instants a `DateTime<Utc>` can hold: years -262143 to 262142. -/
def isInstant (t : Int) : Bool :=
  -8334601228800 * Sql.second ≤ t ∧ t < 8210266876800 * Sql.second

/-- `TimeDelta::num_seconds`: whole seconds of a difference of two instants,
truncated towards zero. -/
def numSeconds (delta : Int) : Int64 :=
  Int64.ofInt (delta.tdiv Sql.second)

/-- The interval `freshness` measures with: the declared one as an `i64`, the
default when absent, floored at one. -/
def effectiveInterval (intervalS : Option UInt64) : Int64 :=
  let interval := match intervalS with
    | some i => i.toInt64
    | none => DEFAULT_INTERVAL_S
  if interval < 1 then 1 else interval

/-- Classify a report `ageS` old against its declared interval: fresh up to 1.5
times it, overdue up to three times, silent beyond. -/
def freshness (ageS : Int64) (intervalS : Option UInt64) : Freshness :=
  let interval := effectiveInterval intervalS
  if ageS * 2 ≤ interval * 3 then .fresh
  else if ageS ≤ interval * 3 then .overdue
  else .silent

end Fleetwatch
