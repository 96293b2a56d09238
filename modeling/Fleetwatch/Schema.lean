import Fleetwatch.Lib.Query
import Fleetwatch.Lib.Table
import Fleetwatch.Report.Types
import Mathlib.Data.List.DropRight

/-!
# The stored state

The tables of `src/migrations/`, one structure for each row type and one for the
whole database. Keys are read through the collation, as the server compares them;
a `verdict` column is an `ENUM` (migration 0004), so it holds a `Verdict`. The
`AUTO_INCREMENT` id of a check row is left out, as no query reads it.
-/

namespace Fleetwatch

open Sql Table

/-- What the code takes from outside the repository: the columns' collation, the
parser of the `ulid` crate, and Rust's `{:?}` of a string. -/
structure Env where
  collation : Collation
  ulidFromString : String → Bool
  debugStr : String → String
  /-- A ULID is spelled with 26 characters. -/
  ulid_length : ∀ s, ulidFromString s = true → s.length = 26

/-- The sort key the database compares a string through. -/
def Env.weight (env : Env) (s : String) : List Nat := env.collation.weight s

/-- `Ulid::from_string`: 26 characters of Crockford's base 32, in either case. -/
def isUlid (s : String) : Bool :=
  s.length = 26 && s.toList.all (fun c => c.toUpper ∈ "0123456789ABCDEFGHJKMNPQRSTVWXYZ".toList)

/-- An environment whose collation ignores the case of ASCII letters and trailing
spaces, as the server's default does; it spells out what runs on given inputs need. -/
def asciiEnv : Env where
  collation := ⟨fun s => (s.toList.rdropWhile (· == ' ')).map (fun c => c.toUpper.toNat)⟩
  ulidFromString := isUlid
  debugStr := fun s => "\"" ++ s ++ "\""
  ulid_length := by
    intro s valid
    unfold isUlid at valid
    rw [Bool.and_eq_true] at valid
    exact of_decide_eq_true valid.1

/-- What the server answers to a statement it cannot run. -/
inductive SqlError where
  | dataTooLong (column : String)
  | incorrectDatetime (column : String)
  | duplicateEntry (table : String)
  deriving DecidableEq, Repr

/-- `AppError` (`src/error.rs`). -/
inductive AppError where
  | unauthorized
  | notFound
  | badRequest (message : String)
  | unprocessable (message : String)
  | other (cause : SqlError)
  deriving DecidableEq, Repr

/-- A row of `report` (migration 0001). -/
structure ReportRow where
  id : String
  source : String
  collector : String
  schemaVer : UInt32
  collectedAt : Int
  receivedAt : Int
  durationMs : Option UInt64
  intervalS : Option UInt64
  ok : Bool
  nPass : Nat
  nWarn : Nat
  nFail : Nat
  nSkip : Nat
  raw : Option String
  deriving DecidableEq, Repr

/-- A row of `check_result` (migrations 0001 and 0004). -/
structure CheckRow where
  reportId : String
  seq : Nat
  source : String
  collector : String
  collectedAt : Int
  sect : String
  label : String
  subject : Option String
  verdict : Verdict
  observed : Option String
  expected : Option String
  value : Option F64
  unit : Option String
  docRef : Option String
  detail : Option String
  deriving DecidableEq, Repr

/-- A row of `latest_report` (migration 0005). -/
structure LatestReportRow where
  source : String
  collector : String
  reportId : String
  collectedAt : Int
  deriving DecidableEq, Repr

/-- A row of `problem_since` (migration 0006). -/
structure ProblemSinceRow where
  source : String
  collector : String
  label : String
  firstSeen : Int
  deriving DecidableEq, Repr

/-- A row of `mute` (migration 0003). -/
structure MuteRow where
  id : String
  source : String
  collector : String
  label : String
  reason : String
  createdBy : String
  createdAt : Int
  expiresAt : Int
  deriving DecidableEq, Repr

/-- A row of `retirement` (migration 0007). -/
structure RetirementRow where
  source : String
  collector : String
  reason : String
  createdBy : String
  retiredAt : Int
  deriving DecidableEq, Repr

/-- The database. -/
structure Db where
  report : List ReportRow
  checkResult : List CheckRow
  latestReport : List LatestReportRow
  problemSince : List ProblemSinceRow
  mute : List MuteRow
  retirement : List RetirementRow
  deriving DecidableEq, Repr

/-- The database the migrations leave behind. -/
def Db.empty : Db := ⟨[], [], [], [], [], []⟩

/-- A producer's identity as the database compares it. -/
abbrev ProducerKey := List Nat × List Nat

/-- A check's identity without its section, as the database compares it. -/
abbrev CheckIdentity := ProducerKey × List Nat

section Keys

variable (env : Env)

def producerKey (source collector : String) : ProducerKey :=
  (env.weight source, env.weight collector)

def checkIdentity (source collector label : String) : CheckIdentity :=
  (producerKey env source collector, env.weight label)

def ReportRow.key (row : ReportRow) : List Nat := env.weight row.id
def ReportRow.producer (row : ReportRow) : ProducerKey := producerKey env row.source row.collector
def CheckRow.identity (row : CheckRow) : CheckIdentity :=
  checkIdentity env row.source row.collector row.label
def LatestReportRow.key (row : LatestReportRow) : ProducerKey :=
  producerKey env row.source row.collector
def ProblemSinceRow.key (row : ProblemSinceRow) : CheckIdentity :=
  checkIdentity env row.source row.collector row.label
def MuteRow.key (row : MuteRow) : List Nat := env.weight row.id
def MuteRow.identity (row : MuteRow) : CheckIdentity :=
  checkIdentity env row.source row.collector row.label
def RetirementRow.key (row : RetirementRow) : ProducerKey :=
  producerKey env row.source row.collector

end Keys

/-! ## Column widths

`VARCHAR(n)` counts characters, `TEXT` 65535 bytes. A plain `INSERT` of a value
that does not fit is refused. -/

def SOURCE_WIDTH : Nat := 64
def COLLECTOR_WIDTH : Nat := 64
def SECTION_WIDTH : Nat := 128
def LABEL_WIDTH : Nat := 255
def SUBJECT_WIDTH : Nat := 128
def UNIT_WIDTH : Nat := 32
def DOC_REF_WIDTH : Nat := 255
def CREATED_BY_WIDTH : Nat := 128
def ID_WIDTH : Nat := 26
def TEXT_BYTES : Nat := 65535

/-- Does the value fit a `VARCHAR(width)`? -/
def fitsChars (width : Nat) (value : String) : Bool := value.length ≤ width

/-- Does the value fit a `TEXT`? -/
def fitsText (value : String) : Bool := value.utf8ByteSize ≤ TEXT_BYTES

/-- A nullable column takes `NULL` whatever its width. -/
def fitsNullable (fits : String → Bool) : Option String → Bool
  | none => true
  | some value => fits value

/-- Refuse the statement unless the value fits the column. -/
def requireFit (column : String) (fits : Bool) : Except AppError Unit :=
  if fits then .ok () else .error (.other (.dataTooLong column))

/-- Refuse the statement unless the instant is a `DATETIME`. -/
def requireDatetime (column : String) (t : Int) : Except AppError Unit :=
  if isDatetime t then .ok () else .error (.other (.incorrectDatetime column))

/-- A statement sequence succeeds exactly when its first part does and the rest
succeeds on what it returned. -/
theorem bind_eq_ok {ε α β : Type} {first : Except ε α} {next : α → Except ε β} {out : β} :
    (first >>= next) = .ok out ↔ ∃ value, first = .ok value ∧ next value = .ok out := by
  cases first with
  | error err => simp [bind, Except.bind]
  | ok value => simp [bind, Except.bind]

theorem requireFit_eq_ok {column : String} {fits : Bool} {out : Unit} :
    requireFit column fits = .ok out ↔ fits = true := by
  unfold requireFit
  split <;> simp_all

theorem requireDatetime_eq_ok {column : String} {t : Int} {out : Unit} :
    requireDatetime column t = .ok out ↔ isDatetime t = true := by
  unfold requireDatetime
  split <;> simp_all

end Fleetwatch
