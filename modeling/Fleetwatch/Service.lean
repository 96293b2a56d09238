import Fleetwatch.Lib.Run
import Fleetwatch.Report.Ingest
import Fleetwatch.Report.Views

/-!
# The service as a transition system

Everything that writes the six tables: the calls of `src/report/repo.rs` and the
daily sweep of `src/report/retention.rs`. A state is reachable when some sequence
of them, by any clients at any instants, leads to it from the empty database.
-/

namespace Fleetwatch

open Sql Table

/-! ## Retention -/

/-- `Utc::now() - Duration::days(days)` as it is bound. -/
def cutoff (now days : Int) : Int := bindDatetime (now - days * 86400 * second)

/-- `sweep`: clears old payloads and deletes old check rows. Returns `(raw_cleared,
checks_deleted)`. -/
def sweep (now rawDays checkDays : Int) (db : Db) : (Nat × Nat) × Db :=
  let oldRaw := fun r : ReportRow => r.raw.isSome && decide (r.receivedAt < cutoff now rawDays)
  let oldCheck := fun c : CheckRow => decide (c.collectedAt < cutoff now checkDays)
  (((db.report.filter oldRaw).length, (db.checkResult.filter oldCheck).length),
    { db with
      report := db.report.map (fun r => if oldRaw r then { r with raw := none } else r)
      checkResult := deleteWhere oldCheck db.checkResult })

/-! ## Surgery -/

/-- `DELETE FROM report` by hand: the foreign keys of `check_result` (migration 0001) and
`latest_report` (migration 0005) delete the rows that name a deleted report. -/
def deleteReports (env : Env) (gone : ReportRow → Bool) (db : Db) : Db :=
  let deleted := fun id => db.report.any (fun r => gone r && decide (r.key env = env.weight id))
  { db with
    report := deleteWhere gone db.report
    checkResult := deleteWhere (fun c => deleted c.reportId) db.checkResult
    latestReport := deleteWhere (fun l => deleted l.reportId) db.latestReport }

/-! ## Steps -/

/-- A write to the store. -/
inductive Op where
  | ingest (call : IngestCall)
  | createMute (call : MuteCall)
  | deleteMute (id : String)
  | createRetirement (call : RetirementCall)
  | deleteRetirement (source collector : String)
  | rebuildLatestReport
  | sweep (now rawDays checkDays : Int)

def step (env : Env) (db : Db) : Op → Db
  | .ingest call => (ingest env call db).2
  | .createMute call => (createMute env call db).2
  | .deleteMute id => (deleteMute env id db).2
  | .createRetirement call => (createRetirement env call db).2
  | .deleteRetirement source collector => (deleteRetirement env source collector db).2
  | .rebuildLatestReport => rebuildLatestReport env db
  | .sweep now rawDays checkDays => (sweep now rawDays checkDays db).2

/-- The states the service can be in after permitted writes only. -/
def Reachable (env : Env) (permitted : Op → Prop) (db : Db) : Prop :=
  Run.Reachable (step env) permitted Db.empty db

/-- Ingest and the two mute calls. -/
def Op.ingestOrMute : Op → Prop
  | .ingest _ | .createMute _ | .deleteMute _ => True
  | _ => False

/-- The calls of the API: ingest, mutes and retirements. -/
def Op.isCall : Op → Prop
  | .rebuildLatestReport | .sweep .. => False
  | _ => True

/-- Every write but the sweep. -/
def Op.keepsChecks : Op → Prop
  | .sweep .. => False
  | _ => True

/-- The state a sequence of ingest calls leads to. -/
def ingestAll (env : Env) (db : Db) (calls : List IngestCall) : Db :=
  Run.run (fun db call => (ingest env call db).2) db calls

end Fleetwatch
