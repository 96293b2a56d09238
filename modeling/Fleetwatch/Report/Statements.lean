import Fleetwatch.Service

/-!
# The page, one statement at a time

`problems` of `src/report/repo.rs` asks the database four times and reads the clock at each of
them, and nothing holds the store still in between: whatever other requests commit meanwhile is
there for the next statement.
-/

namespace Fleetwatch

open Query Run

/-- `overview`: the mutes are chosen by the instant that is bound, the ages taken from a later
one. -/
def overviewAt (env : Env) (boundAt judgedAt : Int) (db : Db) : List OverviewEntry :=
  let rows := (latestReports env db).map (latestRow env boundAt db)
  (orderBy (fun r => toLex (env.weight r.source, env.weight r.collector)) rows).map
    (overviewEntry judgedAt)

/-- One run of `problems`: the store its first statement finds, the writes that come before each
of the others, and the four readings of the clock. -/
structure PageRead where
  start : Db
  beforeMutes : List Op
  beforeRetirements : List Op
  beforeTiles : List Op
  mutesAt : Int
  tilesAt : Int
  judgedAt : Int
  closedAt : Int

namespace PageRead

variable (env : Env) (r : PageRead)

/-- The store `list_mutes` finds. -/
def mutesDb : Db := run (step env) r.start r.beforeMutes

/-- The store `list_retirements` finds. -/
def retirementsDb : Db := run (step env) (r.mutesDb env) r.beforeRetirements

/-- The store `overview` finds. -/
def tilesDb : Db := run (step env) (r.retirementsDb env) r.beforeTiles

/-- `problems`. -/
def page : Problems :=
  let rows := problemRows env r.start
  let mutes := listMutes r.mutesAt (r.mutesDb env)
  let retirements := listRetirements (r.retirementsDb env)
  let tiles := overviewAt env r.tilesAt r.judgedAt (r.tilesDb env)
  { checks := (rows.filter (fun row => (row.mute r.mutesAt (r.mutesDb env)).isNone)).map
      problemCheck
    muted := rows.filterMap (fun row => (row.mute r.mutesAt (r.mutesDb env)).map (mutedCheck row))
    stale := tiles.filter (isStale retirements)
    lapsing := mutes.filter (fun m => isLapsing m r.closedAt)
    returned := tiles.filter (hasReturned retirements) }

/-- The same readings of the clock, of a store that holds still. -/
def still (db : Db) : PageRead :=
  { r with start := db, beforeMutes := [], beforeRetirements := [], beforeTiles := [] }

/-- All at one instant and without a write in between, it is the page. -/
theorem page_still (now : Int) (db : Db) :
    page env ⟨db, [], [], [], now, now, now, now⟩ = problems env now db :=
  rfl

end PageRead

/-! ## Whom a write is about -/

/-- The parts of the store that say something of a producer. -/
inductive Part where
  | reports
  | mutes
  | retirement
  deriving DecidableEq, Repr

/-- The part a write is to. -/
def Op.part : Op → Part
  | .ingest _ | .rebuildLatestReport | .sweep .. => .reports
  | .createMute _ | .deleteMute _ => .mutes
  | .createRetirement _ | .deleteRetirement _ _ => .retirement

/-- May the write say something of the producer? A sweep and a rebuild go over every producer's
reports. -/
def Op.concerns (env : Env) (producer : ProducerKey) (db : Db) : Op → Bool
  | .ingest call => producerKey env call.source call.upload.collector = producer
  | .createMute call => producerKey env (newMute call).source (newMute call).collector = producer
  | .deleteMute id => db.mute.any (fun row =>
      decide (row.key env = env.weight id) &&
        decide (producerKey env row.source row.collector = producer))
  | .createRetirement call => (retirementRow call).key env = producer
  | .deleteRetirement source collector => producerKey env source collector = producer
  | .rebuildLatestReport | .sweep .. => true

/-- The parts the writes of a run may change, as far as they are about the producer. -/
def partsTouched (env : Env) (producer : ProducerKey) : Db → List Op → List Part
  | _, [] => []
  | db, op :: rest =>
    (if op.concerns env producer db then [op.part] else []) ++
      partsTouched env producer (step env db op) rest

/-- The writes between the first statement of a page and its last. -/
def PageRead.writes (r : PageRead) : List Op :=
  r.beforeMutes ++ r.beforeRetirements ++ r.beforeTiles

end Fleetwatch
