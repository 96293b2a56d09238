import Fleetwatch.Lib.Sql

/-!
# Report and check types

The wire format producers upload and the shapes the views serve
(`src/report/types.rs`). Instants (`DateTime<Utc>`) are nanoseconds since the
epoch. `u32` and `u64` fields of the wire are fixed-width; counts of list
elements are natural numbers, since no body that fits a request holds `2^32`
checks.
-/

namespace Fleetwatch

/-- The wire schema version the service accepts. -/
def SCHEMA : UInt32 := 1

/-- A check's outcome. -/
inductive Verdict where
  | pass
  | warn
  | fail
  | skip
  deriving DecidableEq, Repr

/-- `matches!(verdict, Fail | Warn)`: the verdicts that open a failing run and
that the problems view selects. -/
def Verdict.isProblem : Verdict → Bool
  | .fail | .warn => true
  | .pass | .skip => false

@[simp] theorem isProblem_fail : Verdict.fail.isProblem = true := rfl
@[simp] theorem isProblem_warn : Verdict.warn.isProblem = true := rfl
@[simp] theorem isProblem_pass : Verdict.pass.isProblem = false := rfl
@[simp] theorem isProblem_skip : Verdict.skip.isProblem = false := rfl

/-- How current a collector's latest report is. -/
inductive Freshness where
  | fresh
  | overdue
  | silent
  deriving DecidableEq, Repr

/-- An `f64`, carried as its bits: nothing computes with the value of a check, it
is stored and read back. -/
structure F64 where
  bits : UInt64
  deriving DecidableEq, Repr

/-- One check of an upload; `docRef` is `ref` on the wire. -/
structure CheckUpload where
  sect : String
  label : String
  subject : Option String
  verdict : Verdict
  observed : Option String
  expected : Option String
  value : Option F64
  unit : Option String
  docRef : Option String
  detail : Option String
  deriving DecidableEq, Repr

/-- One report posted by a producer; `id` is its idempotency key. -/
structure ReportUpload where
  schema : UInt32
  id : String
  collector : String
  collectedAt : Int
  durationMs : Option UInt64
  intervalS : Option UInt64
  checks : List CheckUpload
  deriving DecidableEq, Repr

/-- Response to a successful ingest. -/
structure IngestAck where
  id : String
  duplicate : Bool
  checks : Nat
  deriving DecidableEq, Repr

/-- One tile of the overview: a `(source, collector)` with its latest rollup. -/
structure OverviewEntry where
  source : String
  collector : String
  reportId : String
  collectedAt : Int
  ageS : Int64
  intervalS : Option UInt64
  freshness : Freshness
  worst : Verdict
  pass : Nat
  warn : Nat
  fail : Nat
  skip : Nat
  muted : Nat
  total : Nat
  deriving DecidableEq

/-- A failing or warning check on the problems view. -/
structure ProblemCheck where
  source : String
  collector : String
  reportId : String
  sect : String
  label : String
  subject : Option String
  verdict : Verdict
  observed : Option String
  expected : Option String
  docRef : Option String
  detail : Option String
  collectedAt : Int
  firstSeen : Option Int
  confirmed : Bool
  deriving DecidableEq, Repr

/-- A failing or warning check a live mute suppresses. -/
structure MutedCheck where
  source : String
  collector : String
  reportId : String
  sect : String
  label : String
  subject : Option String
  verdict : Verdict
  observed : Option String
  docRef : Option String
  detail : Option String
  collectedAt : Int
  muteId : String
  reason : String
  expiresAt : Int
  deriving DecidableEq, Repr

/-- A suppression of one check identity `(source, collector, label)`. -/
structure Mute where
  id : String
  source : String
  collector : String
  label : String
  reason : String
  createdBy : String
  createdAt : Int
  expiresAt : Int
  deriving DecidableEq, Repr

/-- Request body to create a mute. -/
structure NewMute where
  source : String
  collector : String
  label : String
  reason : String
  ttlHours : UInt32
  deriving DecidableEq, Repr

/-- A producer declared finished. -/
structure Retirement where
  source : String
  collector : String
  reason : String
  createdBy : String
  retiredAt : Int
  deriving DecidableEq, Repr

/-- Request body to retire a producer. -/
structure NewRetirement where
  source : String
  collector : String
  reason : String
  deriving DecidableEq, Repr

/-- The problems view. -/
structure Problems where
  checks : List ProblemCheck
  muted : List MutedCheck
  stale : List OverviewEntry
  lapsing : List Mute
  returned : List OverviewEntry

/-- A check as rendered in a report's detail view. -/
structure CheckOut where
  sect : String
  label : String
  subject : Option String
  verdict : Verdict
  observed : Option String
  expected : Option String
  value : Option F64
  unit : Option String
  docRef : Option String
  detail : Option String
  deriving DecidableEq, Repr

/-- A full report with all its checks. -/
structure ReportDetail where
  id : String
  source : String
  collector : String
  schema : UInt32
  collectedAt : Int
  receivedAt : Int
  durationMs : Option UInt64
  intervalS : Option UInt64
  ok : Bool
  checks : List CheckOut
  deriving DecidableEq, Repr

/-- One line of the runs list. -/
structure ReportSummary where
  id : String
  source : String
  collector : String
  collectedAt : Int
  durationMs : Option UInt64
  ok : Bool
  pass : Nat
  warn : Nat
  fail : Nat
  skip : Nat
  total : Nat
  deriving DecidableEq, Repr

/-- The four parts that name one check across reports. -/
structure CheckKey where
  source : String
  collector : String
  sect : String
  label : String
  deriving DecidableEq, Repr

/-- One point in a single check's time series. -/
structure HistoryPoint where
  collectedAt : Int
  verdict : Verdict
  value : Option F64
  deriving DecidableEq, Repr

/-- The time series for one check. -/
structure History where
  source : String
  collector : String
  sect : String
  label : String
  unit : Option String
  points : List HistoryPoint
  deriving DecidableEq, Repr

end Fleetwatch
