import Fleetwatch.Lib.Chrono
import Fleetwatch.Report.Types

/-!
# The board on a terminal

`src/board.rs`: the counts, which mirror what the phone's poller decides, and the page
written out as text, one row at a time.
-/

namespace Fleetwatch

open Chrono

/-- The board count: failing and warning checks, stale collectors and retired ones
that are reporting again. -/
def count (p : Problems) : Nat :=
  p.checks.length + p.stale.length + p.returned.length

/-- The part of the board the phone would wake for: `count` without warnings and
without failures seen in only one report. -/
def notifiableCount (p : Problems) : Nat :=
  (p.checks.filter (fun c => c.verdict ≠ .warn && c.confirmed)).length + p.stale.length +
    p.returned.length

/-! ## The rows -/

/-- `age`, in the largest unit there are two of. -/
def age (seconds : Int64) : String :=
  if seconds < 120 then s!"{seconds}s"
  else if seconds < 7200 then s!"{seconds / 60}m"
  else if seconds < 172800 then s!"{seconds / 3600}h"
  else s!"{seconds / 86400}d"

/-- `fmt`: as wide as its column. -/
def Verdict.fmt : Verdict → String
  | .pass => "pass"
  | .warn => "warn"
  | .fail => "fail"
  | .skip => "skip"

/-- A freshness' `{:?}` in lower case. -/
def Freshness.lowercase : Freshness → String
  | .fresh => "fresh"
  | .overdue => "overdue"
  | .silent => "silent"

/-- The first line of a board with nothing on it. -/
def clearLine : String := "board clear — nothing failing, nothing silent"

def headLine (p : Problems) : String :=
  if count p = 0 then clearLine
  else s!"{count p} problem(s) on the board; the phone notifies on {notifiableCount p} — warnings and first-report failures stay on the dashboard"

/-- How long the check has been failing, as far as that is known. -/
def runMark (c : ProblemCheck) : String :=
  if c.confirmed = false then "  [first report]"
  else
    match c.firstSeen with
    | some since => s!"  [since {formatMinute since}]"
    | none => ""

def checkLine (c : ProblemCheck) : String :=
  s!"  {c.verdict.fmt}  {c.source}/{c.collector}  {c.sect}/{c.label}" ++
    (match c.observed with
      | some obs => s!" — {obs}"
      | none => "") ++
    (match c.expected with
      | some exp => s!" (expected {exp})"
      | none => "") ++
    runMark c

def staleLine (e : OverviewEntry) : String :=
  s!"  stale  {e.source}/{e.collector} — {e.freshness.lowercase}, last report {age e.ageS} ago"

def returnedLine (e : OverviewEntry) : String :=
  s!"  returned  {e.source}/{e.collector} — retired, but a report arrived {age e.ageS} ago"

def mutedLine (m : MutedCheck) : String :=
  s!"  {m.verdict.fmt}  {m.source}/{m.collector}  {m.sect}/{m.label} — {m.reason} (expires {formatMinute m.expiresAt})"

def lapsingLine (m : Mute) : String :=
  s!"  {m.source}/{m.collector}/{m.label} — {m.reason} (expires {formatMinute m.expiresAt})"

/-! ## The page -/

/-- `writeln!` for each row of a section. -/
def writeRows {α : Type} (line : α → String) (rows : List α) : String :=
  String.join (rows.map (fun row => line row ++ "\n"))

/-- A section with a heading, written only when it has rows. -/
def writeSection {α : Type} (heading : String) (line : α → String) (rows : List α) : String :=
  if rows.isEmpty then "" else heading ++ "\n" ++ writeRows line rows

/-- `render`. -/
def render (p : Problems) : String :=
  headLine p ++ "\n" ++
    writeRows checkLine p.checks ++
    writeRows staleLine p.stale ++
    writeRows returnedLine p.returned ++
    writeSection s!"muted ({p.muted.length}, not counted):" mutedLine p.muted ++
    writeSection s!"lapsing mutes ({p.lapsing.length}):" lapsingLine p.lapsing

end Fleetwatch
