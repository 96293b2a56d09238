import Fleetwatch.Nextcloud
import Fleetwatch.Report.Overlays
import Fleetwatch.Report.Views
import Fleetwatch.Routes.Auth
import Fleetwatch.Routes.Ingest
import Fleetwatch.Routes.Telemetry

/-!
# Requests and replies

What the handlers of `src/routes/` share: the error replies of `src/error.rs`, the cookies
of `src/routes/auth.rs` and the two extractors of `src/session.rs` that stand between a
request and a handler. A request is what axum's own extractors make of it; where one of
them fails, its rejection is the reply. One instant stands for every reading of the clock
while a request is served.
-/

namespace Fleetwatch

open Chrono

/-! ## Replies -/

/-- A cookie a reply sets; `maxAge` is in seconds. -/
structure Cookie where
  name : String
  value : String
  path : String
  httpOnly : Bool
  secure : Bool
  sameSiteLax : Bool
  maxAge : Int
  deriving DecidableEq, Repr

/-- The bodies of the handlers, each the value that is written as JSON; `error` is
`{"error": message}`. -/
inductive Body where
  | empty
  | text (said : String)
  | error (message : String)
  | signInProblem (said : String)
  | ack (ack : IngestAck)
  | reports (reports : List ReportSummary)
  | report (report : ReportDetail)
  | overview (tiles : List OverviewEntry)
  | problems (problems : Problems)
  | history (history : History)
  | mutes (mutes : List Mute)
  | mute (mute : Mute)
  | retirements (retirements : List Retirement)
  | retirement (retirement : Retirement)

structure Reply where
  status : Nat
  body : Body
  setCookie : List Cookie
  location : Option String

/-- A status and a body, and nothing else. -/
def Reply.plain (status : Nat) (body : Body) : Reply :=
  { status, body, setCookie := [], location := none }

/-- `Redirect::to` with the cookies of a jar. -/
def Reply.redirect (location : String) (setCookie : List Cookie) : Reply :=
  { status := 303, body := .empty, setCookie, location := some location }

/-- The status of `AppError::into_response`. -/
def AppError.status : AppError → Nat
  | .unauthorized => 401
  | .notFound => 404
  | .badRequest _ => 400
  | .unprocessable _ => 422
  | .other _ => 500

/-- Its message: what the database said is logged and not sent. -/
def AppError.message : AppError → String
  | .unauthorized => "not authenticated"
  | .notFound => "not found"
  | .badRequest message => message
  | .unprocessable message => message
  | .other _ => "internal error"

/-- `into_response`. -/
def AppError.intoResponse (err : AppError) : Reply := .plain err.status (.error err.message)

/-- What a failed extractor of axum replies. -/
structure Rejection where
  status : Nat
  text : String
  deriving DecidableEq, Repr

def Rejection.intoResponse (rejection : Rejection) : Reply :=
  .plain rejection.status (.text rejection.text)

/-! ## Cookies -/

def SESSION_COOKIE : String := "session"
def PENDING_COOKIE : String := "oauth_pending"

/-- `session_cookie`. -/
def sessionCookie (value : String) : Cookie :=
  { name := SESSION_COOKIE, value, path := "/", httpOnly := true, secure := true,
    sameSiteLax := true, maxAge := 7 * 86400 }

/-- `pending_cookie`: it lives as long as the login it remembers. -/
def pendingCookie (value : String) : Cookie :=
  { name := PENDING_COOKIE, value, path := "/", httpOnly := true, secure := true,
    sameSiteLax := true, maxAge := TTL / Sql.second }

/-- `removal`, as the jar sends it. -/
def removal (name : String) : Cookie :=
  { name, value := "", path := "/", httpOnly := false, secure := false, sameSiteLax := false,
    maxAge := 0 }

/-! ## Requests -/

/-- What an extractor of axum makes of its part of a request. -/
abbrev Extracted (α : Type) := Except Rejection α

/-- `ReportsQuery`. -/
structure ReportsQuery where
  source : Option String
  collector : Option String
  limit : Option UInt32
  deriving DecidableEq

/-- `HistoryQuery`; the source calls the bounds `from` and `to`. -/
structure HistoryQuery where
  source : String
  collector : String
  sect : String
  label : String
  lower : Option DateTime
  upper : Option DateTime
  deriving DecidableEq

/-- `CallbackQuery`. -/
structure CallbackQuery where
  code : Option String
  state : Option String
  deriving DecidableEq

/-- What a callback may draw and be told: the bytes of a session id and of a nonce, and whose
code Nextcloud says it is. -/
structure SignInDraws where
  idBytes : Vector UInt8 32
  nonceBytes : Vector UInt8 24
  redeem : String → Option NcUser

/-- How the readiness probe's `SELECT 1` went. -/
inductive Ping where
  | answered
  | failed
  | late
  deriving DecidableEq, Repr

/-- The routes of `router`, each with what its extractors found and what its handler draws. -/
inductive Call where
  | createReport (body : Extracted ByteArray)
  | reports (query : Extracted ReportsQuery)
  | report (id : Extracted String)
  | overview
  | problems
  | history (query : Extracted HistoryQuery)
  | listMutes
  | createMute (new : Extracted NewMute) (mintedId : String)
  | deleteMute (id : Extracted String)
  | listRetirements
  | createRetirement (new : Extracted NewRetirement)
  | deleteRetirement (producer : Extracted (String × String))
  | telemetry (events : Extracted (List TelemetryEvent))
  | login (returnTo : Extracted (Option String)) (nonceBytes : Vector UInt8 24)
  | callback (query : Extracted CallbackQuery) (draws : SignInDraws)
  | logout
  | devLogin (idBytes : Vector UInt8 32)
  | healthz
  | readyz (ping : Ping)

/-- A request: `jar` is its cookies, read through `CookieJar`. -/
structure Request where
  headers : HeaderMap
  jar : String → Option String
  now : DateTime
  call : Call

/-! ## The server -/

/-- `AppState` (`src/state.rs`) without the pool, and what the code takes from outside the
repository. -/
structure AppState (Host : Type) where
  env : Env
  mac : Hmac
  cfg : Config
  web : Web Host
  parseReport : String → Except String ReportUpload
  parseUrl : String → Option ParsedUrl

/-- What is stored, and the client events logged so far. -/
structure Server where
  store : Store
  log : List LogRecord

def Server.empty : Server := { store := { db := Db.empty, sessions := [] }, log := [] }

def Server.withDb (server : Server) (db : Db) : Server :=
  { server with store := { server.store with db := db } }

def Server.withSessions (server : Server) (sessions : List SessionRow) : Server :=
  { server with store := { server.store with sessions := sessions } }

def Server.withLog (server : Server) (lines : List LogRecord) : Server :=
  { server with log := server.log ++ lines }

section

@[simp] theorem withDb_db (server : Server) (db : Db) : (server.withDb db).store.db = db := rfl
@[simp] theorem withDb_sessions (server : Server) (db : Db) :
    (server.withDb db).store.sessions = server.store.sessions := rfl
@[simp] theorem withDb_log (server : Server) (db : Db) : (server.withDb db).log = server.log := rfl
@[simp] theorem withSessions_db (server : Server) (sessions : List SessionRow) :
    (server.withSessions sessions).store.db = server.store.db := rfl
@[simp] theorem withSessions_sessions (server : Server) (sessions : List SessionRow) :
    (server.withSessions sessions).store.sessions = sessions := rfl
@[simp] theorem withSessions_log (server : Server) (sessions : List SessionRow) :
    (server.withSessions sessions).log = server.log := rfl
@[simp] theorem withLog_store (server : Server) (lines : List LogRecord) :
    (server.withLog lines).store = server.store := rfl
@[simp] theorem withLog_log (server : Server) (lines : List LogRecord) :
    (server.withLog lines).log = server.log ++ lines := rfl

end

/-- A reply, or nothing where the handler panics and the connection is dropped; and the server
afterwards. -/
abbrev Served := Option Reply × Server

/-! ## Extractors -/

section

variable {Host : Type} (app : AppState Host)

/-- `AuthUser`: the user of the session cookie. -/
def authUser (request : Request) (sessions : List SessionRow) :
    Except AppError UserSession × List SessionRow :=
  match request.jar SESSION_COOKIE with
  | none => (.error .unauthorized, sessions)
  | some signed =>
    match getSession app.env app.mac app.cfg.sessionSecret signed request.now.nanos sessions with
    | (some user, sessions) => (.ok user, sessions)
    | (none, sessions) => (.error .unauthorized, sessions)

/-- A handler behind `AuthUser`. -/
def forUser (request : Request) (server : Server) (handler : UserSession → Server → Served) :
    Served :=
  match authUser app request server.store.sessions with
  | (.ok user, sessions) => handler user (server.withSessions sessions)
  | (.error err, sessions) => (some err.intoResponse, server.withSessions sessions)

/-- A handler behind `Reader`: a read token, or the session of a user. -/
def forReader (request : Request) (server : Server) (handler : Server → Served) : Served :=
  if authenticateRead request.headers app.cfg.readTokens then handler server
  else forUser app request server (fun _ => handler)

/-- A handler that takes what one of axum's extractors found. -/
def extract {α : Type} (input : Extracted α) (server : Server) (handler : α → Served) : Served :=
  match input with
  | .ok value => handler value
  | .error rejection => (some rejection.intoResponse, server)

/-- The reply to a call of the repository that writes the database. -/
def written {α : Type} (status : Nat) (body : α → Body) (server : Server) :
    Except AppError α × Db → Served
  | (.ok value, db) => (some (.plain status (body value)), server.withDb db)
  | (.error err, db) => (some err.intoResponse, server.withDb db)

/-- The reply to a `DELETE`: 204 where a row was there, 404 where none was. -/
def removed (server : Server) : Bool × Db → Served
  | (true, db) => (some (.plain 204 .empty), server.withDb db)
  | (false, db) => (some AppError.notFound.intoResponse, server.withDb db)

end

end Fleetwatch
