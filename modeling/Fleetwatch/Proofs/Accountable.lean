import Fleetwatch.Proofs.Ingest
import Fleetwatch.Proofs.Overlays
import Fleetwatch.Proofs.Process
import Fleetwatch.Proofs.ReturnTo

/-!
# Who did it

A mute, a retirement and a logged client event each name a user. In every run of the
service that user had signed in before, within the life of a session, on the browser the
request came from, and had not signed out; and a report names the source its token stands
for, or is the service's own.
-/

namespace Fleetwatch

open Sql Table Text

section

variable {Host : Type} (app : AppState Host)

/-! ## Signing in -/

/-- The request opens the session of the call: a callback whose `state` its browser's login
remembers and whose code Nextcloud redeems for the user, or the development login. -/
inductive Opens (request : Request) (call : CreateCall) : Prop where
  | callback (query : CallbackQuery) (draws : SignInDraws) (pending : PendingLogin)
      (proof : StateMatched) (code : String) (user : NcUser)
      (is : request.call = .callback (.ok query) draws)
      (matched : accept app.mac app.cfg.sessionSecret (request.jar PENDING_COOKIE) query.state
        request.now = some (.accept pending proof))
      (given : query.code = some code)
      (redeemed : draws.redeem code = some user)
      (names : call.user = { userId := user.id, displayName := user.displayName })
      (when : call.now = request.now.nanos)
  | development (idBytes : Vector UInt8 32) (userId : String)
      (is : request.call = .devLogin idBytes)
      (configured : app.cfg.devLoginUser = some userId)
      (names : call.user = { userId, displayName := userId })
      (when : call.now = request.now.nanos)

/-- The event is a logout with a cookie for the id. -/
def LogsOut (id : String) (e : Event) : Prop :=
  ∃ request signed, e = .request request ∧ request.call = .logout ∧
    request.jar SESSION_COOKIE = some signed ∧
    Presents app.env app.mac app.cfg.sessionSecret signed id

/-- The request carries the cookie of a session that was opened for the user, is not past its
seven days and was not logged out of. -/
def SignedIn (before : List Event) (request : Request) (user : UserSession) : Prop :=
  ∃ earlier opening later call signed, before = earlier ++ .request opening :: later ∧
    Opens app opening call ∧ call.user = user ∧
    request.jar SESSION_COOKIE = some signed ∧
    Presents app.env app.mac app.cfg.sessionSecret signed call.id ∧
    request.now.nanos ≤ datetime0 (opening.now.nanos + SESSION_TTL_DAYS * 86400 * second) ∧
    ∀ e ∈ later, ¬ LogsOut app call.id e

/-- What a request can ask of the sessions: a lookup of its cookie, the session it opens, or
the end of its cookie's session. -/
inductive Asks (request : Request) : SessionOp → Prop where
  | looksUp (signed : String) (cookie : request.jar SESSION_COOKIE = some signed) :
      Asks request (.get signed request.now.nanos)
  | opens (call : CreateCall) (opens : Opens app request call) : Asks request (.create call)
  | logsOut (signed : String) (is : request.call = .logout)
      (cookie : request.jar SESSION_COOKIE = some signed) :
      Asks request (.destroy signed request.now.nanos)

theorem asks_of_lookup {request : Request} {op : SessionOp} (asks : request.lookup = some op) :
    Asks app request op := by
  unfold Request.lookup at asks
  obtain ⟨signed, cookie, rfl⟩ := Option.map_eq_some_iff.mp asks
  exact .looksUp signed cookie

theorem asks_of_sessionOp {request : Request} {op : SessionOp}
    (asks : request.sessionOp app = some op) : Asks app request op := by
  have reads : ∀ {unread : Bool}, (if unread then none else request.lookup) = some op →
      Asks app request op := by
    intro unread asks
    cases unread with
    | true => cases asks
    | false => exact asks_of_lookup app asks
  cases call : request.call with
  | callback query draws =>
    cases query with
    | error rejection => simp [Request.sessionOp, call] at asks
    | ok query =>
      simp only [Request.sessionOp, call] at asks
      obtain ⟨⟨created, pending⟩, signed, rfl⟩ := Option.map_eq_some_iff.mp asks
      obtain ⟨proof, code, user, matched, given, redeemed, names, when⟩ :=
        signInCall_eq_some app request signed
      exact .opens created
        (.callback query draws pending proof code user call matched given redeemed names when)
  | devLogin idBytes =>
    simp only [Request.sessionOp, call] at asks
    obtain ⟨created, minted, rfl⟩ := Option.map_eq_some_iff.mp asks
    obtain ⟨userId, configured, rfl⟩ := Option.map_eq_some_iff.mp minted
    exact .opens _ (.development idBytes userId call configured rfl rfl)
  | logout =>
    simp only [Request.sessionOp, call] at asks
    obtain ⟨signed, cookie, rfl⟩ := Option.map_eq_some_iff.mp asks
    exact .logsOut signed call cookie
  | problems => simp only [Request.sessionOp, call] at asks; exact reads asks
  | history query => simp only [Request.sessionOp, call] at asks; exact reads asks
  | createReport body => simp [Request.sessionOp, call] at asks
  | login returnTo nonceBytes => simp [Request.sessionOp, call] at asks
  | healthz => simp [Request.sessionOp, call] at asks
  | readyz ping => simp [Request.sessionOp, call] at asks
  | _ => simp only [Request.sessionOp, call] at asks; exact asks_of_lookup app asks

/-- A session is created for a request that opens it. -/
theorem opens_of_sessionOp {e : Event} {call : CreateCall}
    (asks : e.sessionOp app = some (.create call)) :
    ∃ opening, e = .request opening ∧ Opens app opening call := by
  cases e with
  | request opening =>
    refine ⟨opening, rfl, ?_⟩
    generalize created : SessionOp.create call = op at asks
    cases asks_of_sessionOp app asks with
    | looksUp signed cookie => cases created
    | opens call' opens =>
      obtain rfl := SessionOp.create.inj created
      exact opens
    | logsOut signed is cookie => cases created
  | sessionSweep now => cases asks
  | retention now tick => cases asks
  | selfcheck s => cases asks
  | start now boot reconciled => cases asks

/-- The call wrote the row, or restated it. -/
structure Declares (env : Env) (call : RetirementCall) (row : RetirementRow) : Prop where
  key : row.key env = (retirementRow call).key env
  createdBy : row.createdBy = call.createdBy
  reason : row.reason = trim call.new.reason

/-- An event of the run, and what came before it. -/
def Happened (events : List Event) (e : Event) (before : List Event) : Prop :=
  ∃ after, events = before ++ e :: after

/-- Every row and line of a run is some event's doing, and every name a user's who signed in
or a source's whose token was presented. -/
structure Accountable (events : List Event) (server : Server) : Prop where
  mute : ∀ row ∈ server.store.db.mute, ∃ before request new mintedId user,
    Happened events (.request request) before ∧ request.call = .createMute (.ok new) mintedId ∧
    SignedIn app before request user ∧
    row = (newMute
      { new, createdBy := user.userId, mintedId, now := request.now.nanos }).toRow
  retirement : ∀ row ∈ server.store.db.retirement, ∃ before request new user,
    Happened events (.request request) before ∧ request.call = .createRetirement (.ok new) ∧
    SignedIn app before request user ∧
    Declares app.env { new, createdBy := user.userId, now := request.now.nanos } row
  log : ∀ line ∈ server.log, ∃ before request told user,
    Happened events (.request request) before ∧ request.call = .telemetry (.ok told) ∧
    SignedIn app before request user ∧ line ∈ record user.userId told
  report : ∀ row ∈ server.store.db.report,
    (∃ before request body, Happened events (.request request) before ∧
      request.call = .createReport (.ok body) ∧
      authenticate request.headers app.cfg.tokens = some row.source) ∨
    ∃ before s, Happened events (.selfcheck s) before ∧
      row.source = Selfcheck.SOURCE ∧ row.collector = Selfcheck.COLLECTOR

section Step

variable {events : List Event} {server : Server}

theorem Happened.concat {e : Event} {before : List Event} (happened : Happened events e before)
    (last : Event) : Happened (events ++ [last]) e before := by
  obtain ⟨after, rfl⟩ := happened
  exact ⟨after ++ [last], by simp⟩

/-- What is accountable stays so in a longer run. -/
theorem Accountable.concat (known : Accountable app events server) (last : Event) :
    Accountable app (events ++ [last]) server where
  mute := by
    intro row stored
    obtain ⟨before, request, new, mintedId, user, happened, rest⟩ := known.mute row stored
    exact ⟨before, request, new, mintedId, user, happened.concat last, rest⟩
  retirement := by
    intro row stored
    obtain ⟨before, request, new, user, happened, rest⟩ := known.retirement row stored
    exact ⟨before, request, new, user, happened.concat last, rest⟩
  log := by
    intro line logged
    obtain ⟨before, request, told, user, happened, rest⟩ := known.log line logged
    exact ⟨before, request, told, user, happened.concat last, rest⟩
  report := by
    intro row stored
    rcases known.report row stored with ⟨before, request, body, happened, rest⟩ |
      ⟨before, s, happened, rest⟩
    · exact Or.inl ⟨before, request, body, happened.concat last, rest⟩
    · exact Or.inr ⟨before, s, happened.concat last, rest⟩

variable [DecidableEq Host] {e : Event}

end Step

end

/-- A development server. -/
def sampleApp : AppState (List Char) where
  env := asciiEnv
  mac := constantMac
  cfg :=
    { databaseUrl := "", bindAddr := "", staticDir := none, tokens := [("odin", "secret")]
      readTokens := ["0123456789abcdef01234567"], rawRetentionDays := 30
      checkRetentionDays := 400, sessionSecret := "key", ncBaseUrl := "", ncClientId := ""
      ncClientSecret := "", ncRedirectUri := "", devLoginUser := some "admin" }
  web := plainWeb
  parseReport := fun _ => .error "unread"
  parseUrl := fun _ => none

/-- A request at a second of the first thousand, with the sample session's cookie or none. -/
def sampleAt (seconds : Nat) (signedIn : Bool) (call : Call) : Request :=
  { headers := []
    jar := fun name =>
      if signedIn ∧ name = SESSION_COOKIE then some (signValue constantMac "key" sampleLogin.id)
      else none
    now := ⟨min seconds 1000 * second, by
      unfold Chrono.minTimestamp Chrono.maxTimestamp second; omega⟩
    call }

end Fleetwatch
