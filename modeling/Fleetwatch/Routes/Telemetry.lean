import Fleetwatch.Lib.Text

/-!
# Client activity trace

`POST /api/telemetry` (`src/routes/telemetry.rs`) folds the client's events into
the log. A record is the fields `record` hands to the tracing formatter, which
writes a `%` field verbatim.
-/

namespace Fleetwatch

open Text

/-- One thing that happened in the client; `atMs` is the wire's `at`, the client's
clock in epoch milliseconds. -/
structure TelemetryEvent where
  kind : String
  path : String
  label : Option String
  atMs : Int64
  deriving DecidableEq, Repr

/-- One `client-event` line of the log. -/
structure LogRecord where
  user : String
  kind : String
  path : String
  label : String
  atMs : Int64
  deriving DecidableEq, Repr

/-- Most events accepted from one POST. -/
def MAX_EVENTS : Nat := 100

/-- Longest label kept, in characters. -/
def MAX_LABEL : Nat := 160

/-- Format characters that are invisible, or that reorder what is displayed. -/
def isDeceptiveFormat (c : Char) : Bool :=
  let n := c.toNat
  n == 0xAD || (0x200B ≤ n && n ≤ 0x200F) || (0x202A ≤ n && n ≤ 0x202E) ||
    (0x2060 ≤ n && n ≤ 0x2064) || (0x2066 ≤ n && n ≤ 0x2069) || n == 0xFEFF

/-- The first pass of `one_line`: control and deceptive characters become spaces. -/
def unbroken (label : List Char) : List Char :=
  label.map (fun c => if isControl c || isDeceptiveFormat c then ' ' else c)

/-- Flatten a client-supplied label to a single harmless log field. -/
def oneLine (label : String) (max : Nat) : String :=
  String.ofList ((joinSpaces (splitWhitespace (unbroken label.toList))).take max)

def record (user : String) (events : List TelemetryEvent) : List LogRecord :=
  (events.take MAX_EVENTS).map fun e =>
    { user := user
      kind := e.kind
      path := e.path
      label := oneLine (e.label.getD "") MAX_LABEL
      atMs := e.atMs }

end Fleetwatch
