import Fleetwatch.Routes.Http

/-!
# The routes

`router` of `src/routes/mod.rs` and the handlers it names, in `views.rs`, `mutes.rs`,
`retirements.rs`, `telemetry.rs`, `ingest.rs`, `auth.rs` and `health.rs`. Serving a request
is a step of the server.
-/

namespace Fleetwatch

open Chrono Sql

section

variable {Host : Type} (app : AppState Host) (request : Request) (server : Server)

/-! ## Ingest -/

def StatusCode.code : StatusCode → Nat
  | .ok => 200
  | .created => 201

/-- The reply to an upload. -/
def acknowledged : Except AppError (StatusCode × IngestAck) × Store → Served
  | (.ok (status, ack), store) =>
    (some (.plain status.code (.ack ack)), { server with store := store })
  | (.error err, store) => (some err.intoResponse, { server with store := store })

/-- `ingest::create`. -/
def Ingest.create (body : Extracted ByteArray) : Served :=
  extract body server fun body =>
    acknowledged server (Fleetwatch.create app.env app.parseReport app.cfg.tokens
      { headers := request.headers, body, now := request.now.nanos } server.store)

/-! ## Views -/

/-- `views::overview`. -/
def Views.overview : Served :=
  forUser app request server fun _ server =>
    (some (.plain 200 (.overview (Fleetwatch.overview app.env request.now.nanos server.store.db))),
      server)

/-- `views::problems`. -/
def Views.problems : Served :=
  forReader app request server fun server =>
    (some (.plain 200 (.problems (Fleetwatch.problems app.env request.now.nanos server.store.db))),
      server)

/-- `q.limit.unwrap_or(100).clamp(1, 500)`. -/
def pageSize (limit : Option UInt32) : UInt32 :=
  let limit := limit.getD 100
  if limit < 1 then 1 else if 500 < limit then 500 else limit

/-- `views::reports`. -/
def Views.reports (query : Extracted ReportsQuery) : Served :=
  forUser app request server fun _ server => extract query server fun q =>
    (some (.plain 200
      (.reports (listReports app.env q.source q.collector (pageSize q.limit) server.store.db))),
      server)

/-- `views::report`. -/
def Views.report (id : Extracted String) : Served :=
  forUser app request server fun _ server => extract id server fun id =>
    match reportDetail app.env id server.store.db with
    | some detail => (some (.plain 200 (.report detail)), server)
    | none => (some AppError.notFound.intoResponse, server)

/-- The bounds `views::history` reads: the last 30 days, unless the query says otherwise.
Nothing where the subtraction panics. -/
def historyBounds (now : DateTime) (q : HistoryQuery) : Option (DateTime × DateTime) :=
  let upper := q.upper.getD now
  match q.lower with
  | some lower => some (lower, upper)
  | none => (upper.add (-(30 * 86400 * second))).map (fun lower => (lower, upper))

/-- `views::history`. -/
def Views.history (query : Extracted HistoryQuery) : Served :=
  forReader app request server fun server => extract query server fun q =>
    match historyBounds request.now q with
    | none => (none, server)
    | some (lower, upper) =>
      if upper.nanos < lower.nanos then
        (some (AppError.badRequest "from must be <= to").intoResponse, server)
      else
        let key : CheckKey :=
          { source := q.source, collector := q.collector, sect := q.sect, label := q.label }
        (some (.plain 200
          (.history (Fleetwatch.history app.env key lower.nanos upper.nanos server.store.db))),
          server)

/-! ## Mutes -/

/-- `mutes::list`. -/
def Mutes.list : Served :=
  forUser app request server fun _ server =>
    (some (.plain 200 (.mutes (listMutes request.now.nanos server.store.db))), server)

/-- `mutes::create`: attributed to the session's user. -/
def Mutes.create (new : Extracted NewMute) (mintedId : String) : Served :=
  forUser app request server fun user server => extract new server fun new =>
    written 201 .mute server (createMute app.env
      { new, createdBy := user.userId, mintedId, now := request.now.nanos } server.store.db)

/-- `mutes::delete`. -/
def Mutes.delete (id : Extracted String) : Served :=
  forUser app request server fun _ server => extract id server fun id =>
    removed server (deleteMute app.env id server.store.db)

/-! ## Retirements -/

/-- `retirements::list`. -/
def Retirements.list : Served :=
  forUser app request server fun _ server =>
    (some (.plain 200 (.retirements (listRetirements server.store.db))), server)

/-- `retirements::create`: attributed to the session's user. -/
def Retirements.create (new : Extracted NewRetirement) : Served :=
  forUser app request server fun user server => extract new server fun new =>
    written 201 .retirement server (createRetirement app.env
      { new, createdBy := user.userId, now := request.now.nanos } server.store.db)

/-- `retirements::delete`. -/
def Retirements.delete (producer : Extracted (String × String)) : Served :=
  forUser app request server fun _ server => extract producer server fun (source, collector) =>
    removed server (deleteRetirement app.env source collector server.store.db)

/-! ## Telemetry -/

/-- `telemetry::record`: always 204. -/
def Telemetry.record (events : Extracted (List TelemetryEvent)) : Served :=
  forUser app request server fun user server => extract events server fun events =>
    (some (.plain 204 .empty), server.withLog (Fleetwatch.record user.userId events))

/-! ## Signing in and out -/

/-- The redirect to Nextcloud that remembers the login in a cookie, or nothing where issuing it
or building the URL panics. -/
def authorize (issued : Option (String × String)) : Option Reply := do
  let (nonce, cookie) ← issued
  let url ← authorizeUrl app.parseUrl app.cfg nonce
  return .redirect url [pendingCookie cookie]

/-- `auth::login`. -/
def Auth.login (returnTo : Extracted (Option String)) (nonceBytes : Vector UInt8 24) : Served :=
  extract returnTo server fun returnTo =>
    (authorize app (issue app.mac app.cfg.sessionSecret nonceBytes returnTo request.now), server)

/-- How a sign-in fails: `AppError::Unauthorized`, or an error that is logged as 500. -/
inductive SignInError where
  | unauthorized
  | internal
  deriving DecidableEq, Repr

def SignInError.status : SignInError → Nat
  | .unauthorized => 401
  | .internal => 500

/-- `sign_in_problem`: the page says why, and nothing of what failed inside. No error of a
sign-in is 403. -/
def signInProblem (err : SignInError) : Reply :=
  .plain err.status (.signInProblem (match err with
    | .unauthorized => "This sign-in did not start here, or it took too long."
    | .internal => "The sign-in could not be finished."))

/-- The session a callback asks for: its `state` matched, its code was redeemed. -/
def signInCall (query : CallbackQuery) (draws : SignInDraws) : Option (CreateCall × PendingLogin) :=
  match accept app.mac app.cfg.sessionSecret (request.jar PENDING_COOKIE) query.state
      request.now with
  | some (.accept pending proof) => do
    let code ← query.code
    let user ← identify draws.redeem code proof
    return ({ idBytes := draws.idBytes
              user := { userId := user.id, displayName := user.displayName }
              now := request.now.nanos }, pending)
  | _ => none

/-- `finish_sign_in`, with the reply `callback` makes of its error. -/
def finishSignIn [DecidableEq Host] (query : CallbackQuery) (draws : SignInDraws) : Served :=
  match accept app.mac app.cfg.sessionSecret (request.jar PENDING_COOKIE) query.state
      request.now with
  | none => (some (signInProblem .unauthorized), server)
  | some (.retry pending) =>
    (authorize app (retry app.mac app.cfg.sessionSecret draws.nonceBytes pending request.now),
      server)
  | some (.accept _ _) =>
    match signInCall app request query draws with
    | none => (some (signInProblem .internal), server)
    | some (call, pending) =>
      match createSession app.env app.mac app.cfg.sessionSecret call server.store.sessions with
      | (.error _, sessions) => (some (signInProblem .internal), server.withSessions sessions)
      | (.ok signed, sessions) =>
        -- the browser presented the pending cookie, so the jar sends its removal
        (some (.redirect (validateReturnTo app.web pending.returnTo)
          [removal PENDING_COOKIE, sessionCookie signed]), server.withSessions sessions)

/-- `auth::callback`. -/
def Auth.callback [DecidableEq Host] (query : Extracted CallbackQuery) (draws : SignInDraws) :
    Served :=
  extract query server fun query => finishSignIn app request server query draws

/-- `auth::logout`. -/
def Auth.logout : Served :=
  match request.jar SESSION_COOKIE with
  | none => (some (.redirect "/" []), server)
  | some signed =>
    (some (.redirect "/" [removal SESSION_COOKIE]), server.withSessions
      (destroySession app.env app.mac app.cfg.sessionSecret signed server.store.sessions))

/-- The session `/dev-login` mints, where it is mounted. -/
def devLoginCall (idBytes : Vector UInt8 32) : Option CreateCall :=
  app.cfg.devLoginUser.map (fun userId =>
    { idBytes, user := { userId, displayName := userId }, now := request.now.nanos })

/-- `auth::dev_login`. Where it is not mounted the fallback answers: the app's page, or 404
without a bundle. -/
def Auth.devLogin (idBytes : Vector UInt8 32) : Served :=
  match devLoginCall app request idBytes with
  | none => (some (.plain (if app.cfg.staticDir.isSome then 200 else 404) .empty), server)
  | some call =>
    match createSession app.env app.mac app.cfg.sessionSecret call server.store.sessions with
    | (.error err, sessions) => (some err.intoResponse, server.withSessions sessions)
    | (.ok signed, sessions) =>
      (some (.redirect "/" [sessionCookie signed]), server.withSessions sessions)

/-! ## Health -/

/-- `readyz`. -/
def Health.readyz : Ping → Reply
  | .answered => .plain 200 (.text "ready")
  | .failed => .plain 503 (.text "database unreachable")
  | .late => .plain 503 (.text "database did not answer")

/-! ## The table -/

/-- The reply of the route a request is for, and the server afterwards. -/
def serve [DecidableEq Host] : Served :=
  match request.call with
  | .createReport body => Ingest.create app request server body
  | .reports query => Views.reports app request server query
  | .report id => Views.report app request server id
  | .overview => Views.overview app request server
  | .problems => Views.problems app request server
  | .history query => Views.history app request server query
  | .listMutes => Mutes.list app request server
  | .createMute new mintedId => Mutes.create app request server new mintedId
  | .deleteMute id => Mutes.delete app request server id
  | .listRetirements => Retirements.list app request server
  | .createRetirement new => Retirements.create app request server new
  | .deleteRetirement producer => Retirements.delete app request server producer
  | .telemetry events => Telemetry.record app request server events
  | .login returnTo nonceBytes => Auth.login app request server returnTo nonceBytes
  | .callback query draws => Auth.callback app request server query draws
  | .logout => Auth.logout app request server
  | .devLogin idBytes => Auth.devLogin app request server idBytes
  | .healthz => (some (.plain 200 (.text "ok")), server)
  | .readyz ping => (some (Health.readyz ping), server)

end

end Fleetwatch
