import Fleetwatch.Android.Problems
import Fleetwatch.Lib.Run

/-!
# What a poll does and remembers

`Alerting.kt`, and of `Watch.kt` what `doWork` makes of a parsed payload. The mark in the
preferences is the fingerprint the phone last delivered.
-/

namespace Fleetwatch.Android

/-- What a poll should do. -/
inductive Step where
  | clear
  | quiet
  | fire
  deriving DecidableEq, Repr

/-- The fingerprint to store after acting. -/
def remembered (step : Step) (delivered : Bool) (now last : KString) : KString :=
  match step with
  | .clear => now
  | .quiet => last
  | .fire => if delivered then now else last

section

variable (jsonArray : List KString → KString)

/-- What this poll should do, given the fingerprint the phone last delivered. -/
def step (alerting : Problems) (last : KString) : Step :=
  if alerting.isEmpty then .clear
  else if alerting.fingerprint jsonArray = last then .quiet
  else .fire

/-- `poll`: decide, act, remember. -/
def poll (alerting : Problems) (last : KString) (act : Step → Bool) : KString :=
  let step := step jsonArray alerting last
  remembered step (act step) (alerting.fingerprint jsonArray) last

/-- A payload, and what acting on it answers: was the phone told? -/
structure Poll where
  problems : Problems
  act : Step → Bool

/-- `doWork`: every decision is made on the notifiable part. -/
def doWork (last : KString) (p : Poll) : KString :=
  poll jsonArray p.problems.notifiable last p.act

/-- The mark after a run of polls that starts from the empty one. -/
def markAfter (polls : List Poll) : KString := Run.run (doWork jsonArray) [] polls

end

end Fleetwatch.Android
