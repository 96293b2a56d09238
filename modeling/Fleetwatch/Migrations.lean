import Fleetwatch.Lib.Since
import Fleetwatch.Report.Views
import Mathlib.Data.List.Defs

/-!
# The backfills

What migrations 0005 and 0006 write into their new tables from the history that is stored
already. The statement of migration 0005 is the one of `rebuildLatestReport`.
-/

namespace Fleetwatch

open Streak Table

/-- A database where the two tables have just been created. -/
def Db.unfilled (db : Db) : Db := { db with latestReport := [], problemSince := [] }

section

variable (env : Env)

/-- The rows of `check_result` under an identity. -/
def checksUnder (k : CheckIdentity) (db : Db) : List CheckRow :=
  db.checkResult.filter (fun c => decide (c.identity env = k))

/-- `started`: the earliest failure since the last pass, or since the beginning of 1970. -/
def started (k : CheckIdentity) (db : Db) : Option Int :=
  let checks := checksUnder env k db
  earliestSince 0
    ((checks.filter (fun p => !p.verdict.isProblem)).map CheckRow.collectedAt)
    ((checks.filter (fun c => c.verdict.isProblem)).map CheckRow.collectedAt)

/-- `SELECT DISTINCT c.source, c.collector, c.label` of what is failing now. -/
def failingNow (db : Db) : List CheckRow :=
  (latestProblems env db).pwFilter (fun c c2 => c.identity env ≠ c2.identity env)

/-- The row for an identity, where it has a start. -/
def startedRow (db : Db) (c2 : CheckRow) : Option ProblemSinceRow :=
  (started env (c2.identity env) db).map (fun started =>
    { source := c2.source, collector := c2.collector, label := c2.label, firstSeen := started })

/-- One row of `INSERT … ON DUPLICATE KEY UPDATE first_seen = LEAST(…)`. -/
def insertStarted (table : List ProblemSinceRow) (row : ProblemSinceRow) : List ProblemSinceRow :=
  upsert (ProblemSinceRow.key env) row
    (fun old => { old with firstSeen := min old.firstSeen row.firstSeen }) table

/-- The backfill of migration 0006. -/
def backfillProblemSince (db : Db) : Db :=
  { db with
    problemSince := ((failingNow env db).filterMap (startedRow env db)).foldl (insertStarted env)
      db.problemSince }

/-- Both backfills, in their order. -/
def backfill (db : Db) : Db := backfillProblemSince env (rebuildLatestReport env db)

end

end Fleetwatch
