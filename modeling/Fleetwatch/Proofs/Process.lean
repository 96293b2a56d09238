import Fleetwatch.Proofs.Api

/-!
# The running service refines its stores

Whatever is asked of a process, however its tasks tick and fail and whenever it starts
anew, each event makes at most one write of the repository and at most one call on the
sessions. So the database is one the writes lead to and the sessions are those the calls
lead to, and what holds of either holds of the running service.
-/

namespace Fleetwatch

open Sql Table

section

variable {Host : Type} (app : AppState Host)

/-- The call an event makes on the sessions. -/
def Event.sessionOp : Event → Option SessionOp
  | .request r => r.sessionOp app
  | .sessionSweep now => some (SessionOp.sweep now)
  | .retention _ _ | .selfcheck _ | .start _ _ _ => none

/-! ## A sweep that stops half way -/

/-- The earliest instant a check was collected at, or `now`. -/
def earliest (now : Int) (checks : List CheckRow) : Int :=
  checks.foldr (fun c least => min c.collectedAt least) now

theorem earliest_le {now : Int} {checks : List CheckRow} {c : CheckRow} (member : c ∈ checks) :
    earliest now checks ≤ c.collectedAt := by
  induction checks with
  | nil => cases member
  | cons first rest ih =>
    rcases List.mem_cons.mp member with rfl | later
    · exact min_le_left _ _
    · exact (min_le_right _ _).trans (ih later)

/-- So many days back that no check is older. -/
def daysBack (now : Int) (checks : List CheckRow) : Int :=
  (now - earliest now checks) / (86400 * second) + 1

theorem cutoff_daysBack_le {now : Int} {checks : List CheckRow} {c : CheckRow}
    (member : c ∈ checks) : cutoff now (daysBack now checks) ≤ c.collectedAt := by
  have least : earliest now checks ≤ c.collectedAt := earliest_le member
  have bound := bind_le (now - daysBack now checks * 86400 * second)
  unfold cutoff
  unfold daysBack second at *
  omega

/-- Clearing the payloads alone is a sweep of some other retention period. -/
theorem sweep_daysBack (now rawDays checkDays : Int) (db : Db) :
    (sweep now rawDays (daysBack now db.checkResult) db).2 =
      { db with report := (sweep now rawDays checkDays db).2.report } := by
  have kept : deleteWhere
      (fun c : CheckRow => decide (c.collectedAt < cutoff now (daysBack now db.checkResult)))
      db.checkResult = db.checkResult := by
    unfold deleteWhere
    rw [List.filter_eq_self]
    intro c member
    rw [Bool.not_eq_true', decide_eq_false_iff_not]
    exact not_lt.mpr (cutoff_daysBack_le member)
  unfold sweep
  simp only [kept]

/-! ## One event -/

/-- The write an event makes to the database. -/
def Event.op (p : Process) : Event → Option Op
  | .request r => r.op app p.server.store.sessions
  | .retention now .swept =>
    some (.sweep now app.cfg.rawRetentionDays app.cfg.checkRetentionDays)
  | .retention now .clearedOnly =>
    some (.sweep now app.cfg.rawRetentionDays (daysBack now p.server.store.db.checkResult))
  | .retention _ .failed => none
  | .sessionSweep _ => none
  | .selfcheck s =>
    some (.ingest (Selfcheck.runOnceCall app.env { s with boot := p.boot, sweep := p.lastSweep }
      p.server.store.db))
  | .start _ _ reconciled => if reconciled then some .rebuildLatestReport else none

variable [DecidableEq Host]

theorem processStep_sessions (p : Process) (e : Event) :
    (processStep app p e).server.store.sessions =
      sessionsThen app (e.sessionOp app) p.server.store.sessions := by
  cases e with
  | request r =>
    show (serve app r p.server).2.store.sessions = _
    rw [serve_server]
    rfl
  | retention now tick => cases tick <;> rfl
  | sessionSweep now => rfl
  | selfcheck s => rfl
  | start now boot reconciled => cases reconciled <;> rfl

theorem processStep_db (p : Process) (e : Event) :
    (processStep app p e).server.store.db = dbThen app (e.op app p) p.server.store.db := by
  cases e with
  | request r =>
    show (serve app r p.server).2.store.db = _
    rw [serve_server]
    rfl
  | retention now tick =>
    cases tick with
    | swept => rfl
    | clearedOnly =>
      exact (sweep_daysBack now app.cfg.rawRetentionDays app.cfg.checkRetentionDays _).symm
    | failed => rfl
  | sessionSweep now => rfl
  | selfcheck s => rfl
  | start now boot reconciled => cases reconciled <;> rfl

/-- The writes a run of events makes, in order. -/
def opsAlong : Process → List Event → List Op
  | _, [] => []
  | p, e :: rest => (e.op app p).toList ++ opsAlong (processStep app p e) rest

theorem run_sessions (events : List Event) (p : Process) :
    (Run.run (processStep app) p events).server.store.sessions =
      Run.run (sessionStep app.env app.mac app.cfg.sessionSecret) p.server.store.sessions
        (events.filterMap (Event.sessionOp app)) := by
  induction events generalizing p with
  | nil => rfl
  | cons e rest ih =>
    rw [Run.run_cons, ih, processStep_sessions, List.filterMap_cons]
    cases e.sessionOp app <;> rfl

theorem run_db (events : List Event) (p : Process) :
    (Run.run (processStep app) p events).server.store.db =
      Run.run (step app.env) p.server.store.db (opsAlong app p events) := by
  induction events generalizing p with
  | nil => rfl
  | cons e rest ih =>
    rw [Run.run_cons, ih, processStep_db, opsAlong, Run.run_append]
    cases e.op app p <;> rfl

theorem length_opsAlong_le (events : List Event) (p : Process) :
    (opsAlong app p events).length ≤ events.length := by
  induction events generalizing p with
  | nil => exact le_rfl
  | cons e rest ih =>
    have one : (e.op app p).toList.length ≤ 1 := by
      cases e.op app p <;> simp
    rw [opsAlong, List.length_append, List.length_cons]
    have later := ih (processStep app p e)
    omega

/-- The store of a process is the one the two transition systems lead to. -/
structure Refines (events : List Event) : Prop where
  db : (processAfter app events).server.store.db =
    Run.run (step app.env) Db.empty (opsAlong app Process.initial events)
  bounded : (opsAlong app Process.initial events).length ≤ events.length
  reachable : Reachable app.env (fun _ => True) (processAfter app events).server.store.db
  sessions : (processAfter app events).server.store.sessions =
    sessionsAfter app.env app.mac app.cfg.sessionSecret (events.filterMap (Event.sessionOp app))

/-- Every run of the service refines its stores, with at most one write for each event. -/
theorem process_refines (events : List Event) : Refines app events where
  db := run_db app events Process.initial
  bounded := length_opsAlong_le app events Process.initial
  reachable := ⟨_, fun _ _ => trivial, (run_db app events Process.initial).symm⟩
  sessions := run_sessions app events Process.initial

end

end Fleetwatch
