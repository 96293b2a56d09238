import Fleetwatch.Android.Alerting

/-!
# The worker on the phone

`Watch.kt`: what one run of the background poll asks, posts and remembers. The preferences
hold the mark; the shade holds the one notification the worker ever posts.
-/

namespace Fleetwatch.Android

open Code Utf16

/-- What a notification shows. -/
structure Alert where
  title : KString
  text : KString
  deriving DecidableEq, Repr

namespace Problems

def MAX_NAMED : Nat := 3

/-- The entries as `summary` names them, what came back first and the failing checks last. -/
def parts (p : Problems) : List KString :=
  p.returned.map (fun it => it.source ++ utf16 "/" ++ it.collector ++ utf16 " back") ++
    p.stale.map (fun it => it.source ++ utf16 "/" ++ it.collector ++ utf16 " silent") ++
    p.checks.map (fun it => it.label ++ utf16 " " ++ it.verdict)

/-- One line for the notification body. -/
def summary (p : Problems) : KString :=
  if p.parts.isEmpty then utf16 "All clear"
  else if p.parts.length ≤ MAX_NAMED then join (utf16 ", ") p.parts
  else join (utf16 ", ") (p.parts.take MAX_NAMED) ++
    utf16 s!" +{p.parts.length - MAX_NAMED} more"

/-- The notification `notify` builds of a problem set. -/
def alert (p : Problems) : Alert where
  title := if p.count = 1 then utf16 "1 fleet problem" else utf16 s!"{p.count} fleet problems"
  text := p.summary

end Problems

/-- What `notify` asks the system about. -/
structure Device where
  sdkInt : Nat
  granted : Bool
  deriving DecidableEq, Repr

def TIRAMISU : Nat := 33

/-- From Android 13 on, posting needs the runtime permission. -/
def Device.permits (device : Device) : Bool := device.sdkInt < TIRAMISU || device.granted

/-- The worker's notification where it stands, and every notification posted so far. -/
structure Shade where
  showing : Option Alert
  posted : List Alert
  deriving DecidableEq, Repr

/-- `cancel` of the notification manager, and what a hand that swipes does. -/
def Shade.cancel (shade : Shade) : Shade := { shade with showing := none }

/-- `notify` of the notification manager: a new notification takes the old one's place. -/
def Shade.notify (shade : Shade) (alert : Alert) : Shade :=
  { showing := some alert, posted := shade.posted ++ [alert] }

/-- What outlives a run of the worker: the token file, `last_fingerprint`, and the shade. -/
structure Phone where
  readToken : String
  mark : KString
  shade : Shade
  deriving DecidableEq, Repr

/-- What a run of the worker tells WorkManager. -/
inductive WorkResult where
  | success
  | retry
  deriving DecidableEq, Repr

/-- `fetch`, of the status and the text that came back, if anything did: it throws unless the
status is 200. -/
def fetch (answer : Option (Nat × KString)) : Option KString :=
  match answer with
  | some (200, text) => some text
  | _ => none

/-- `notify`: the shade afterwards, and whether the notification reached it. -/
def notify (device : Device) (problems : Problems) (shade : Shade) : Shade × Bool :=
  if device.permits then (shade.notify problems.alert, true) else (shade, false)

/-- What `doWork` passes to `poll` to act with. -/
def act (device : Device) (alerting : Problems) (shade : Shade) : Step → Shade × Bool
  | .clear => (shade.cancel, true)
  | .quiet => (shade, true)
  | .fire => notify device alerting shade

section

variable (jsonArray : List KString → KString) (org : OrgJson)

/-- `ProblemsWorker.doWork`. Without a token nothing is asked; a poll that fails in any way
is retried and changes nothing. -/
def ProblemsWorker.doWork (device : Device) (answer : Option (Nat × KString)) (phone : Phone) :
    WorkResult × Phone :=
  if phone.readToken = "" then (.success, phone)
  else
    match (fetch answer).bind (Problems.parse org) with
    | none => (.retry, phone)
    | some problems =>
      let alerting := problems.notifiable
      let last := phone.mark
      let acts := act device alerting phone.shade
      let mark := poll jsonArray alerting last (fun step => (acts step).2)
      let shade := (acts (step jsonArray alerting last)).1
      (.success, { phone with mark, shade })

end

end Fleetwatch.Android
