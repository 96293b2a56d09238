import Fleetwatch.Android.Problems
import Fleetwatch.Board
import Fleetwatch.Report.Wire

/-!
# The readers of the problems view

Beside the phone (`Problems.kt`) two more programs read what `GET /api/problems` answers:
`src/bin/board.rs`, whose exit code is what scripts see, and the page, whose badge is
`ProblemsStore.count` of `problems-store.ts`.
-/

namespace Fleetwatch

open Utf16

section Cli

variable (instant : InstantCodec)

/-- `serde_json::from_str::<Problems>`; `parse` reads a text as a document. -/
def fromStr (parse : String → Option Json) (body : String) : Option Problems :=
  (parse body).bind (problemsCodec instant).read

/-- What the service answered. -/
structure Response where
  status : Nat
  body : String

/-- `fetch` and `main` of `board`: 2 where the board could not be read, else whether the
phone would have notified. -/
def exitCode (parse : String → Option Json) (answer : Option Response) : Nat :=
  match answer with
  | none => 2
  | some resp =>
    if resp.status < 200 ∨ 300 ≤ resp.status then 2
    else
      match fromStr instant parse resp.body with
      | none => 2
      | some problems => if notifiableCount problems = 0 then 0 else 1

end Cli

namespace ProblemsStore

/-- The length of an array field of the page's `Problems`. -/
def lengthOf (name : String) (root : JsonObject) : Option Nat :=
  match Tree.opt (utf16 name) root with
  | some (.array items) => some items.length
  | _ => none

/-- `count`, of the answer as `JSON.parse` holds it. -/
def count (value : Tree) : Option Nat :=
  match value with
  | .object root => do
    let checks ← lengthOf "checks" root
    let stale ← lengthOf "stale" root
    let returned ← lengthOf "returned" root
    return checks + stale + returned
  | _ => none

end ProblemsStore

end Fleetwatch
