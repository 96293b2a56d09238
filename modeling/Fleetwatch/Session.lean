import Fleetwatch.Lib.Bytes
import Fleetwatch.Lib.Hex
import Fleetwatch.Lib.Run
import Fleetwatch.Lib.Split
import Fleetwatch.Schema

/-!
# Human sessions

`src/session.rs`: a session is a row of `sessions` (migration 0002) and a cookie that
signs its id. HMAC-SHA256 is a parameter, a function of key and message to 32 bytes.
-/

namespace Fleetwatch

open Bytes Sql Table Text

/-- A keyed hash: key, message, tag. -/
abbrev Hmac := List UInt8 → List UInt8 → Vector UInt8 32

/-! ## Signed values -/

section Signing

variable (mac : Hmac) (secret : String)

/-- The tag of a value under the secret. -/
def tag (value : List Char) : List UInt8 := (mac (utf8 secret.toList) (utf8 value)).toList

/-- `sign_value`: the value, a dot, and its tag in hexadecimal. -/
def signValue (value : String) : String :=
  String.ofList (value.toList ++ '.' :: Hex.encode (tag mac secret value.toList))

/-- `verify_value`: the value before the last dot, when what follows is its tag. -/
def verifyValue (signed : String) : Option String := do
  let (value, sig) ← splitLast '.' signed.toList
  let sig ← Hex.decode sig
  if sig = tag mac secret value then some (String.ofList value) else none

end Signing

/-! ## The table -/

def SESSION_TTL_DAYS : Int := 7

def USER_ID_WIDTH : Nat := 255
def DISPLAY_NAME_WIDTH : Nat := 255

structure UserSession where
  userId : String
  displayName : String
  deriving DecidableEq, Repr

/-- A row of `sessions`. -/
structure SessionRow where
  id : String
  userId : String
  displayName : String
  expiresAt : Int
  deriving DecidableEq, Repr

def SessionRow.key (env : Env) (row : SessionRow) : List Nat := env.weight row.id

def SessionRow.user (row : SessionRow) : UserSession :=
  { userId := row.userId, displayName := row.displayName }

/-- One call of `create_session`: the random bytes it draws, the user and the clock. -/
structure CreateCall where
  idBytes : Vector UInt8 32
  user : UserSession
  now : Int

/-- The id a call mints. -/
def CreateCall.id (call : CreateCall) : String := String.ofList (Hex.encode call.idBytes.toList)

/-- The row a call inserts; `expires_at` is a `DATETIME`. -/
def CreateCall.row (call : CreateCall) : SessionRow :=
  { id := call.id
    userId := call.user.userId
    displayName := call.user.displayName
    expiresAt := datetime0 (call.now + SESSION_TTL_DAYS * 86400 * second) }

section Calls

variable (env : Env) (mac : Hmac) (secret : String)

/-- The plain `INSERT INTO sessions`; an id of 64 characters fits its column. -/
def insertSession (row : SessionRow) (table : List SessionRow) :
    Except AppError (List SessionRow) := do
  requireFit "user_id" (fitsChars USER_ID_WIDTH row.userId)
  requireFit "display_name" (fitsChars DISPLAY_NAME_WIDTH row.displayName)
  requireDatetime "expires_at" row.expiresAt
  if clashes (SessionRow.key env) row table then
    .error (.other (.duplicateEntry "sessions"))
  return table ++ [row]

/-- `create_session`: the cookie, or the error. -/
def createSession (call : CreateCall) (table : List SessionRow) :
    Except AppError String × List SessionRow :=
  match insertSession env call.row table with
  | .error err => (.error err, table)
  | .ok table => (.ok (signValue mac secret call.id), table)

/-- `DELETE FROM sessions WHERE id = ?`. -/
def deleteSession (id : String) (table : List SessionRow) : List SessionRow :=
  deleteWhere (fun row => decide (row.key env = env.weight id)) table

/-- `get_session`: an expired row is deleted on the way. -/
def getSession (signed : String) (now : Int) (table : List SessionRow) :
    Option UserSession × List SessionRow :=
  match verifyValue mac secret signed with
  | none => (none, table)
  | some id =>
    match table.find? (fun row => row.key env = env.weight id) with
    | none => (none, table)
    | some row =>
      if row.expiresAt < now then (none, deleteSession env id table)
      else (some row.user, table)

/-- `destroy_session`. -/
def destroySession (signed : String) (table : List SessionRow) : List SessionRow :=
  match verifyValue mac secret signed with
  | none => table
  | some id => deleteSession env id table

/-- `sweep_expired`: returns `rows_affected`. -/
def sweepExpired (now : Int) (table : List SessionRow) : Nat × List SessionRow :=
  let expired := fun row : SessionRow => decide (row.expiresAt < datetime0 now)
  ((table.filter expired).length, deleteWhere expired table)

/-! ## The store as a transition system -/

/-- A call on the table, by any client. -/
inductive SessionOp where
  | create (call : CreateCall)
  | get (signed : String) (now : Int)
  | destroy (signed : String) (now : Int)
  | sweep (now : Int)

/-- When a call is made. -/
def SessionOp.now : SessionOp → Int
  | .create call => call.now
  | .get _ now | .destroy _ now | .sweep now => now

def sessionStep (table : List SessionRow) : SessionOp → List SessionRow
  | .create call => (createSession env mac secret call table).2
  | .get signed now => (getSession env mac secret signed now table).2
  | .destroy signed _ => destroySession env mac secret signed table
  | .sweep now => (sweepExpired now table).2

/-- The table after a run. -/
def sessionsAfter (ops : List SessionOp) : List SessionRow :=
  Run.run (sessionStep env mac secret) [] ops

end Calls

end Fleetwatch
