import Fleetwatch.Lib.Query
import Fleetwatch.Lib.Text
import Fleetwatch.Schema

/-!
# Mutes and retirements

The two read-time overlays of `src/report/repo.rs`. Both normalise the names they
are given before they write them. `ORDER BY` leaves ties in table order here; the
statements about these lists are about membership.
-/

namespace Fleetwatch

open Query Sql Table Text

/-! ## Mutes -/

/-- `MUTE_TTL_HOURS`: an hour to 365 days. -/
def MUTE_TTL_HOURS_MIN : UInt32 := 1
def MUTE_TTL_HOURS_MAX : UInt32 := 24 * 365

/-- The most notice a lapsing mute gets: 48 hours. -/
def LAPSE_WARNING : Int := 48 * 3600 * second

/-- One call of `create_mute`: the body, the session's user, the ULID it mints and
the server's clock. -/
structure MuteCall where
  new : NewMute
  createdBy : String
  mintedId : String
  now : Int
  deriving DecidableEq, Repr

/-- `u32::clamp` to `MUTE_TTL_HOURS`. -/
def clampTtl (ttlHours : UInt32) : UInt32 :=
  if ttlHours < MUTE_TTL_HOURS_MIN then MUTE_TTL_HOURS_MIN
  else if MUTE_TTL_HOURS_MAX < ttlHours then MUTE_TTL_HOURS_MAX
  else ttlHours

/-- The mute a call describes, as it is returned. -/
def newMute (call : MuteCall) : Mute :=
  { id := call.mintedId
    source := trim call.new.source
    collector := trim call.new.collector
    label := trim call.new.label
    reason := trim call.new.reason
    createdBy := call.createdBy
    createdAt := call.now
    expiresAt := call.now + (clampTtl call.new.ttlHours).toNat * 3600 * second }

/-- A mute as the table stores it. -/
def Mute.toRow (m : Mute) : MuteRow :=
  { id := m.id
    source := m.source
    collector := m.collector
    label := m.label
    reason := m.reason
    createdBy := m.createdBy
    createdAt := datetime3 m.createdAt
    expiresAt := datetime3 m.expiresAt }

/-- A mute as it is read back. -/
def MuteRow.toMute (row : MuteRow) : Mute :=
  { id := row.id
    source := row.source
    collector := row.collector
    label := row.label
    reason := row.reason
    createdBy := row.createdBy
    createdAt := row.createdAt
    expiresAt := row.expiresAt }

/-- The plain `INSERT INTO mute`. -/
def insertMute (env : Env) (row : MuteRow) (table : List MuteRow) :
    Except AppError (List MuteRow) := do
  requireFit "id" (fitsChars ID_WIDTH row.id)
  requireFit "source" (fitsChars SOURCE_WIDTH row.source)
  requireFit "collector" (fitsChars COLLECTOR_WIDTH row.collector)
  requireFit "label" (fitsChars LABEL_WIDTH row.label)
  requireFit "reason" (fitsText row.reason)
  requireFit "created_by" (fitsChars CREATED_BY_WIDTH row.createdBy)
  if clashes (MuteRow.key env) row table then
    .error (.other (.duplicateEntry "mute"))
  return table ++ [row]

def createMuteTx (env : Env) (call : MuteCall) (db : Db) : Except AppError (Mute × Db) := do
  let m := newMute call
  if m.source = "" ∨ m.collector = "" ∨ m.label = "" then
    .error (.badRequest "source, collector and label are required")
  if m.reason = "" then
    .error (.badRequest "a reason is required")
  let mute ← insertMute env m.toRow db.mute
  return (m, { db with mute := mute })

/-- `create_mute`. -/
def createMute (env : Env) (call : MuteCall) (db : Db) : Except AppError Mute × Db :=
  match createMuteTx env call db with
  | .ok (m, committed) => (.ok m, committed)
  | .error err => (.error err, db)

/-- Is the stored mute unexpired at `now`? The bound instant keeps its microseconds. -/
def MuteRow.live (now : Int) (row : MuteRow) : Bool := bindDatetime now < row.expiresAt

/-- `list_mutes`: every live mute, newest first. -/
def listMutes (now : Int) (db : Db) : List Mute :=
  (orderBy (fun row => -row.createdAt) (db.mute.filter (MuteRow.live now))).map MuteRow.toMute

/-- `delete_mute`: returns whether a row existed. -/
def deleteMute (env : Env) (id : String) (db : Db) : Bool × Db :=
  let hit := fun row : MuteRow => decide (row.key env = env.weight id)
  (db.mute.any hit, { db with mute := deleteWhere hit db.mute })

/-- `is_lapsing`: the last quarter of the mute's life, capped at `LAPSE_WARNING`. -/
def isLapsing (m : Mute) (now : Int) : Bool :=
  let ttl := m.expiresAt - m.createdAt
  let notice := min (ttl / 4) LAPSE_WARNING
  m.expiresAt - now ≤ notice

/-! ## Retirements -/

/-- One call of `create_retirement`. -/
structure RetirementCall where
  new : NewRetirement
  createdBy : String
  now : Int
  deriving DecidableEq, Repr

/-- The `VALUES` of the `retirement` upsert. -/
def retirementRow (call : RetirementCall) : RetirementRow :=
  { source := trim call.new.source
    collector := trim call.new.collector
    reason := trim call.new.reason
    createdBy := call.createdBy
    retiredAt := datetime3 call.now }

/-- The `ON DUPLICATE KEY UPDATE`: the reason and the author are restated, the key's
spelling and `retired_at` stay. -/
def restate (new : RetirementRow) (row : RetirementRow) : RetirementRow :=
  { row with reason := new.reason, createdBy := new.createdBy }

def upsertRetirement (env : Env) (row : RetirementRow) (table : List RetirementRow) :
    Except AppError (List RetirementRow) := do
  requireFit "source" (fitsChars SOURCE_WIDTH row.source)
  requireFit "collector" (fitsChars COLLECTOR_WIDTH row.collector)
  requireFit "reason" (fitsText row.reason)
  requireFit "created_by" (fitsChars CREATED_BY_WIDTH row.createdBy)
  return upsert (RetirementRow.key env) row (restate row) table

def RetirementRow.toRetirement (row : RetirementRow) : Retirement :=
  { source := row.source
    collector := row.collector
    reason := row.reason
    createdBy := row.createdBy
    retiredAt := row.retiredAt }

/-- `list_retirements`: every retirement, newest first. -/
def listRetirements (db : Db) : List Retirement :=
  (orderBy (fun row => -row.retiredAt) db.retirement).map RetirementRow.toRetirement

/-- `create_retirement`. The upsert is committed before the row is read back, so the
last error leaves it in place. -/
def createRetirement (env : Env) (call : RetirementCall) (db : Db) :
    Except AppError Retirement × Db :=
  let row := retirementRow call
  if row.source = "" ∨ row.collector = "" then
    (.error (.badRequest "source and collector are required"), db)
  else if row.reason = "" then
    (.error (.badRequest "a reason is required"), db)
  else
    match upsertRetirement env row db.retirement with
    | .error err => (.error err, db)
    | .ok retirement =>
      let committed := { db with retirement := retirement }
      match (listRetirements committed).find?
          (fun r => r.source = row.source ∧ r.collector = row.collector) with
      | some existing => (.ok existing, committed)
      | none => (.error (.badRequest "retirement vanished after write"), committed)

/-- `delete_retirement`: returns whether the producer was retired. -/
def deleteRetirement (env : Env) (source collector : String) (db : Db) : Bool × Db :=
  let hit := fun row : RetirementRow => decide (row.key env = producerKey env source collector)
  (db.retirement.any hit, { db with retirement := deleteWhere hit db.retirement })

end Fleetwatch
