import Fleetwatch.Android.Watch
import Fleetwatch.Main

/-!
# The service and the phone that watches it

The service never reaches out: the phone asks it for its problems on a timer. The two run
side by side, and a request or its answer may be lost on the way.
-/

namespace Fleetwatch

open Android (KString Device Phone)
open Chrono (DateTime)

/-- A run of the phone's worker: when it asks, how far its request and the answer get, and what
the system says of notifications. -/
structure Visit where
  now : DateTime
  reached : Bool
  answered : Bool
  device : Device

/-- What happens to the two: something at the service, a run of the worker, or a hand that
dismisses the notification. -/
inductive Moment where
  | service (event : Event)
  | poll (visit : Visit)
  | dismissed

structure Watched where
  process : Process
  phone : Phone

/-- A service and a phone before their first start. -/
def Watched.initial (readToken : String) : Watched :=
  { process := Process.initial, phone := { readToken, mark := [], shade := ⟨none, []⟩ } }

/-- The request of `fetch`: no cookie, and the token as a bearer. A token the platform refuses
to send is one the service refuses to read. -/
def pollRequest (readToken : String) (now : DateTime) : Request :=
  { headers := [(AUTHORIZATION, Bytes.utf8 ("Bearer ".toList ++ readToken.toList))]
    jar := fun _ => none
    now
    call := .problems }

section

variable {Host : Type} [DecidableEq Host] (app : AppState Host)
  (jsonArray : List KString → KString) (org : OrgJson) (written : Body → KString)

/-- What a request to the service comes to: the answer as the phone sees it, and the server
afterwards. `written` is the text of a body. -/
def exchange (visit : Visit) (readToken : String) (server : Server) :
    Option (Nat × KString) × Server :=
  if visit.reached then
    let (reply, server) := serve app (pollRequest readToken visit.now) server
    (if visit.answered then reply.map (fun reply => (reply.status, written reply.body)) else none,
      server)
  else (none, server)

/-- A run of the worker. Without a token it sends nothing. -/
def pollStep (visit : Visit) (w : Watched) : Watched :=
  if w.phone.readToken = "" then w
  else
    let (answer, server) := exchange app written visit w.phone.readToken w.process.server
    { process := { w.process with server }
      phone := (Android.ProblemsWorker.doWork jsonArray org visit.device answer w.phone).2 }

def watchedStep (w : Watched) : Moment → Watched
  | .service event => { w with process := processStep app w.process event }
  | .poll visit => pollStep app jsonArray org written visit w
  | .dismissed => { w with phone := { w.phone with shade := w.phone.shade.cancel } }

/-- The two after a run. -/
def watchedAfter (readToken : String) (moments : List Moment) : Watched :=
  Run.run (watchedStep app jsonArray org written) (Watched.initial readToken) moments

end

end Fleetwatch
