import Fleetwatch.Lib.Chrono
import Fleetwatch.Lib.Decimal
import Fleetwatch.Session

/-!
# A login in progress

`src/pending_login.rs`: the login a browser has started is a signed cookie it carries, and
nothing else. Random bytes and the clock are arguments.
-/

namespace Fleetwatch

open Bytes Chrono Sql Text

/-- `ttl`. -/
def TTL : Int := 600 * second

structure PendingLogin where
  nonce : String
  returnTo : Option String
  expiresAt : DateTime
  retried : Bool
  deriving DecidableEq

/-- `StateMatched` (`src/nextcloud/identity.rs`): `check` alone makes one. -/
structure StateMatched where
  private mk ::
  deriving DecidableEq

/-- `StateMatched::check`: the proof, when the state is present and equals the nonce. -/
def StateMatched.check (urlState stored : String) : Option StateMatched :=
  let equal := decide (utf8 urlState.toList = utf8 stored.toList)
  if urlState ≠ "" ∧ equal = true then some StateMatched.mk else none

/-- What a callback may do with the pending login it carries. -/
inductive Callback where
  | accept (pending : PendingLogin) (proof : StateMatched)
  | retry (pending : PendingLogin)
  deriving DecidableEq

/-- A text that is there and not empty. -/
def nonEmpty (text : Option String) : Option String := text.filter (· ≠ "")

/-! ## The cookie's text -/

/-- `encode`: `return_to` stands last, as it may hold the separator. -/
def PendingLogin.encode (p : PendingLogin) : String :=
  let expiresAt := p.expiresAt.timestamp
  let retried := if p.retried then 1 else 0
  let returnTo := p.returnTo.getD ""
  s!"{expiresAt}|{p.nonce}|{retried}|{returnTo}"

/-- The `"0"` or `"1"` of a field. -/
def readBit : List Char → Option Bool
  | ['0'] => some false
  | ['1'] => some true
  | _ => none

/-- `decode`: an empty destination reads as none. -/
def PendingLogin.decode (raw : String) : Option PendingLogin :=
  match splitn '|' 4 raw.toList with
  | [expiresAt, nonce, retried, returnTo] => do
    let seconds ← parseI64 expiresAt
    let expiresAt ← DateTime.fromTimestamp seconds
    let retried ← readBit retried
    return {
      nonce := String.ofList nonce
      returnTo := nonEmpty (some (String.ofList returnTo))
      expiresAt := expiresAt
      retried := retried }
  | _ => none

/-! ## The calls -/

section Calls

variable (mac : Hmac) (secret : String)

/-- `fresh`: the nonce and the cookie, or nothing where the expiry is past the last instant
and the addition panics. -/
def fresh (bytes : Vector UInt8 24) (returnTo : Option String) (retried : Bool) (now : DateTime) :
    Option (String × String) := do
  let expiresAt ← now.add TTL
  let pending : PendingLogin :=
    { nonce := String.ofList (Hex.encode bytes.toList), returnTo, expiresAt, retried }
  return (pending.nonce, signValue mac secret pending.encode)

/-- `issue`: a fresh nonce and the signed cookie that remembers it. -/
def issue (bytes : Vector UInt8 24) (returnTo : Option String) (now : DateTime) :
    Option (String × String) :=
  fresh mac secret bytes returnTo false now

/-- `retry`: a new nonce, the same destination. -/
def retry (bytes : Vector UInt8 24) (pending : PendingLogin) (now : DateTime) :
    Option (String × String) :=
  fresh mac secret bytes pending.returnTo true now

/-- `accept`. -/
def accept (cookie state : Option String) (now : DateTime) : Option Callback := do
  let cookie ← cookie
  let raw ← verifyValue mac secret cookie
  let pending ← PendingLogin.decode raw
  if pending.expiresAt.nanos < now.nanos then none
  else
    match nonEmpty state with
    | some s => (StateMatched.check s pending.nonce).map (Callback.accept pending)
    | none => if pending.retried then none else some (.retry pending)

/-! ## A sign-in -/

/-- A request to `/auth/callback` (`src/routes/auth.rs`): the `state` it carries, the instant
`accept` reads, and the bytes and the instant a retry would draw. -/
structure CallbackCall where
  state : Option String
  now : DateTime
  bytes : Vector UInt8 24
  later : DateTime

/-- The cookie the server last set, its nonce, and when it was set. -/
structure SignIn where
  nonce : String
  cookie : String
  setAt : DateTime

/-- How `finish_sign_in` goes on from `accept`. -/
inductive Answer where
  | exchange (pending : PendingLogin) (proof : StateMatched)
  | authorizeAgain (nonce cookie : String)
  | unauthorized
  | panicked

/-- The answer to a callback that presents the cookie. -/
def answer (held : SignIn) (call : CallbackCall) : Answer :=
  match accept mac secret (some held.cookie) call.state call.now with
  | some (.accept pending proof) => .exchange pending proof
  | some (.retry pending) =>
    match retry mac secret call.bytes pending call.later with
    | some (nonce, cookie) => .authorizeAgain nonce cookie
    | none => .panicked
  | none => .unauthorized

/-- What the browser holds afterwards: only a retry sets the cookie anew. -/
def signInStep (held : SignIn) (call : CallbackCall) : SignIn :=
  match answer mac secret held call with
  | .authorizeAgain nonce cookie => { nonce, cookie, setAt := call.later }
  | _ => held

/-- What it holds after a chain of callbacks. -/
def signInAfter (start : SignIn) (calls : List CallbackCall) : SignIn :=
  Run.run (signInStep mac secret) start calls

/-- The answers to a chain of callbacks. -/
def answers : SignIn → List CallbackCall → List Answer
  | _, [] => []
  | held, call :: calls =>
    answer mac secret held call :: answers (signInStep mac secret held call) calls

/-- Was the browser sent to authorize again? -/
def Answer.isRetry : Answer → Bool
  | .authorizeAgain _ _ => true
  | _ => false

end Calls

end Fleetwatch
