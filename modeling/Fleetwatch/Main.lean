import Fleetwatch.Routes.Api
import Fleetwatch.Selfcheck
import Fleetwatch.Service

/-!
# The running service

`src/main.rs`: a process serves requests and runs three tasks beside them, the daily
retention sweep, the hourly sweep of sessions and the self-report. What it remembers
besides the store starts anew with it.
-/

namespace Fleetwatch

/-- How a tick of the retention task went. Its two statements commit one by one, so the second
may fail alone. -/
inductive Tick where
  | swept
  | clearedOnly
  | failed
  deriving DecidableEq, Repr

/-- A process and what it serves. -/
structure Process where
  server : Server
  boot : Selfcheck.Boot
  lastSweep : Option Selfcheck.Sweep

/-- What happens to a process: a request, a tick of one of its tasks, or a start in its place,
whose reconciliation may fail. -/
inductive Event where
  | request (request : Request)
  | retention (now : Int) (tick : Tick)
  | sessionSweep (now : Int)
  | selfcheck (surroundings : Selfcheck.Surroundings)
  | start (now : Int) (boot : Selfcheck.Boot) (reconciled : Bool)

/-- When it happens. -/
def Event.now : Event → Int
  | .request r => r.now.nanos
  | .retention now _ | .sessionSweep now | .start now _ _ => now
  | .selfcheck s => s.now

/-- The process before its first start. -/
def Process.initial : Process :=
  { server := Server.empty, boot := ⟨0, 0⟩, lastSweep := none }

section

variable {Host : Type} [DecidableEq Host] (app : AppState Host)

/-- A tick of the retention task: the stamp means that a sweep completed. -/
def retentionTick (now : Int) (tick : Tick) (p : Process) : Process :=
  let db := p.server.store.db
  let ((raw, checks), swept) :=
    sweep now app.cfg.rawRetentionDays app.cfg.checkRetentionDays db
  match tick with
  | .swept =>
    { p with
      server := p.server.withDb swept
      lastSweep := some
        { sweptAt := now, rawCleared := UInt64.ofNat raw, checksDeleted := UInt64.ofNat checks } }
  | .clearedOnly => { p with server := p.server.withDb { db with report := swept.report } }
  | .failed => p

/-- `selfcheck::run_once`, in this process. -/
def selfcheckTick (surroundings : Selfcheck.Surroundings) (p : Process) : Process :=
  let db := p.server.store.db
  let known := { surroundings with boot := p.boot, sweep := p.lastSweep }
  { p with server := p.server.withDb (ingest app.env (Selfcheck.runOnceCall app.env known db) db).2 }

def processStep (p : Process) : Event → Process
  | .request request => { p with server := (serve app request p.server).2 }
  | .retention now tick => retentionTick app now tick p
  | .sessionSweep now =>
    { p with server := p.server.withSessions (sweepExpired now p.server.store.sessions).2 }
  | .selfcheck surroundings => selfcheckTick app surroundings p
  | .start _ boot reconciled =>
    let db := p.server.store.db
    { server := if reconciled then p.server.withDb (rebuildLatestReport app.env db) else p.server
      boot := boot
      lastSweep := none }

/-- The process after a run of events. -/
def processAfter (events : List Event) : Process :=
  Run.run (processStep app) Process.initial events

end

end Fleetwatch
