import Fleetwatch.Main
import Fleetwatch.Proofs.Session

/-!
# What an event does to the store

A request makes at most one call on the sessions, at most one write to the database, and
may add lines to the log. Each is read off the request, the last two with the user its
cookie stands for. So the store under any run of events is the one the two transition
systems of the repository and of the sessions lead to.
-/

namespace Fleetwatch

open Sql Table

section

variable {Host : Type} (app : AppState Host)

/-! ## What a request asks for -/

/-- The lookup `AuthUser` makes. -/
def Request.lookup (request : Request) : Option SessionOp :=
  (request.jar SESSION_COOKIE).map (fun signed => SessionOp.get signed request.now.nanos)

/-- The call a request makes on the sessions. -/
def Request.sessionOp (request : Request) : Option SessionOp :=
  match request.call with
  | .createReport _ | .login _ _ | .healthz | .readyz _ | .callback (.error _) _ => none
  | .problems | .history _ =>
    if authenticateRead request.headers app.cfg.readTokens then none else request.lookup
  | .callback (.ok query) draws =>
    (signInCall app request query draws).map (fun (call, _) => SessionOp.create call)
  | .logout =>
    (request.jar SESSION_COOKIE).map (fun signed => SessionOp.destroy signed request.now.nanos)
  | .devLogin idBytes => (devLoginCall app request idBytes).map SessionOp.create
  | _ => request.lookup

/-- The user the session cookie stands for. -/
def Request.user (request : Request) (sessions : List SessionRow) : Option UserSession :=
  (request.jar SESSION_COOKIE).bind (fun signed =>
    (getSession app.env app.mac app.cfg.sessionSecret signed request.now.nanos sessions).1)

/-- The call of `ingest` an authenticated upload makes. -/
def Request.ingestCall (request : Request) (body : ByteArray) : Option IngestCall := do
  let source ← authenticate request.headers app.cfg.tokens
  let raw ← String.fromUTF8? body
  let upload ← (app.parseReport raw).toOption
  return { source, upload, raw, now := request.now.nanos }

/-- The write a request makes to the database. -/
def Request.op (request : Request) (sessions : List SessionRow) : Option Op :=
  match request.call with
  | .createReport (.ok body) => (request.ingestCall app body).map Op.ingest
  | .createMute (.ok new) mintedId =>
    (request.user app sessions).map (fun user =>
      Op.createMute { new, createdBy := user.userId, mintedId, now := request.now.nanos })
  | .deleteMute (.ok id) => (request.user app sessions).map (fun _ => Op.deleteMute id)
  | .createRetirement (.ok new) =>
    (request.user app sessions).map (fun user =>
      Op.createRetirement { new, createdBy := user.userId, now := request.now.nanos })
  | .deleteRetirement (.ok (source, collector)) =>
    (request.user app sessions).map (fun _ => Op.deleteRetirement source collector)
  | _ => none

/-- The lines a request adds to the log. -/
def Request.lines (request : Request) (sessions : List SessionRow) : List LogRecord :=
  match request.call, request.user app sessions with
  | .telemetry (.ok events), some user => record user.userId events
  | _, _ => []

/-- The sessions after a call on them, if there is one. -/
def sessionsThen (op : Option SessionOp) (sessions : List SessionRow) : List SessionRow :=
  op.elim sessions (sessionStep app.env app.mac app.cfg.sessionSecret sessions)

/-- The database after a write, if there is one. -/
def dbThen (op : Option Op) (db : Db) : Db := op.elim db (step app.env db)

/-- The server after a request. -/
def Request.after (request : Request) (server : Server) : Server :=
  { store :=
      { db := dbThen app (request.op app server.store.sessions) server.store.db
        sessions := sessionsThen app (request.sessionOp app) server.store.sessions }
    log := server.log ++ request.lines app server.store.sessions }

/-! ## The extractors -/

theorem authUser_eq (request : Request) (sessions : List SessionRow) :
    authUser app request sessions =
      (match request.user app sessions with
        | some user => .ok user
        | none => .error .unauthorized,
      sessionsThen app request.lookup sessions) := by
  unfold authUser Request.user Request.lookup sessionsThen
  cases request.jar SESSION_COOKIE with
  | none => rfl
  | some signed =>
    simp only [Option.bind_some, Option.map_some, Option.elim_some, sessionStep]
    obtain ⟨found, after⟩ := getSession app.env app.mac app.cfg.sessionSecret signed
      request.now.nanos sessions
    cases found <;> rfl

/-- A handler behind `AuthUser` runs for the user of the cookie, if there is one. -/
theorem forUser_eq (request : Request) (server : Server)
    (handler : UserSession → Server → Served) :
    forUser app request server handler =
      match request.user app server.store.sessions with
      | some user =>
        handler user (server.withSessions (sessionsThen app request.lookup server.store.sessions))
      | none =>
        (some AppError.unauthorized.intoResponse,
          server.withSessions (sessionsThen app request.lookup server.store.sessions)) := by
  unfold forUser
  rw [authUser_eq]
  cases request.user app server.store.sessions <;> rfl

theorem forReader_eq (request : Request) (server : Server) (handler : Server → Served) :
    forReader app request server handler =
      if authenticateRead request.headers app.cfg.readTokens then handler server
      else forUser app request server (fun _ => handler) := rfl

theorem written_server {α : Type} (status : Nat) (body : α → Body) (server : Server)
    (outcome : Except AppError α × Db) :
    (written status body server outcome).2 = server.withDb outcome.2 := by
  obtain ⟨result, db⟩ := outcome
  cases result <;> rfl

theorem removed_server (server : Server) (outcome : Bool × Db) :
    (removed server outcome).2 = server.withDb outcome.2 := by
  obtain ⟨result, db⟩ := outcome
  cases result <;> rfl

/-- A handler behind `AuthUser` that changes nothing leaves what the lookup leaves. -/
theorem forUser_server_of_reads (request : Request) (server : Server)
    (handler : UserSession → Server → Served) (reads : ∀ user server, (handler user server).2 = server) :
    (forUser app request server handler).2 =
      server.withSessions (sessionsThen app request.lookup server.store.sessions) := by
  rw [forUser_eq]
  cases request.user app server.store.sessions with
  | none => rfl
  | some user => exact reads user _

theorem forReader_server_of_reads (request : Request) (server : Server) (handler : Server → Served)
    (reads : ∀ server, (handler server).2 = server) :
    (forReader app request server handler).2 =
      server.withSessions (sessionsThen app
        (if authenticateRead request.headers app.cfg.readTokens then none else request.lookup)
        server.store.sessions) := by
  rw [forReader_eq]
  split
  · exact reads server
  · exact forUser_server_of_reads app request server _ (fun _ => reads)

theorem extract_server_of_reads {α : Type} (input : Extracted α) (server : Server)
    (handler : α → Served) (reads : ∀ value, (handler value).2 = server) :
    (extract input server handler).2 = server := by
  cases input with
  | ok value => exact reads value
  | error rejection => rfl

/-! ## One request -/

/-- A request that writes no table and no line, and makes the call on the sessions. -/
theorem after_of_reads {request : Request} {server : Server}
    (writes : request.op app server.store.sessions = none)
    (logs : request.lines app server.store.sessions = []) :
    request.after app server =
      server.withSessions (sessionsThen app (request.sessionOp app) server.store.sessions) := by
  unfold Request.after
  rw [writes, logs, List.append_nil]
  rfl

theorem lines_of_not_telemetry {request : Request} {sessions : List SessionRow}
    (other : ∀ events, request.call ≠ .telemetry (.ok events)) :
    request.lines app sessions = [] := by
  unfold Request.lines
  split
  · rename_i events _ same _
    exact absurd same (other events)
  · rfl

variable (request : Request) (server : Server)

theorem acknowledged_server (outcome : Except AppError (StatusCode × IngestAck) × Store) :
    (acknowledged server outcome).2 = { server with store := outcome.2 } := by
  obtain ⟨result, store⟩ := outcome
  cases result <;> rfl

theorem create_store (body : ByteArray) :
    (create app.env app.parseReport app.cfg.tokens
      { headers := request.headers, body, now := request.now.nanos } server.store).2 =
      { server.store with
        db := dbThen app ((request.ingestCall app body).map Op.ingest) server.store.db } := by
  unfold create Request.ingestCall
  cases authenticate request.headers app.cfg.tokens with
  | none => rfl
  | some source =>
    cases String.fromUTF8? body with
    | none => rfl
    | some raw =>
      simp only [Option.bind_eq_bind, Option.bind_some]
      cases app.parseReport raw with
      | error e => rfl
      | ok upload => exact respond_store _ _

/-- A sign-in has an accepted callback and a redeemed code behind it. -/
theorem signInCall_eq_some {query : CallbackQuery} {draws : SignInDraws}
    {call : CreateCall} {pending : PendingLogin}
    (signed : signInCall app request query draws = some (call, pending)) :
    ∃ proof code user, accept app.mac app.cfg.sessionSecret (request.jar PENDING_COOKIE)
        query.state request.now = some (.accept pending proof) ∧
      query.code = some code ∧ draws.redeem code = some user ∧
      call.user = { userId := user.id, displayName := user.displayName } ∧
      call.now = request.now.nanos := by
  unfold signInCall at signed
  split at signed
  · rename_i pending' proof matched
    simp only [Option.bind_eq_bind, Option.bind_eq_some_iff, pure, Option.some.injEq,
      Prod.mk.injEq] at signed
    obtain ⟨code, given, user, redeemed, rfl, rfl⟩ := signed
    exact ⟨proof, code, user, matched, given, redeemed, rfl, rfl⟩
  · cases signed

theorem finishSignIn_server [DecidableEq Host] (query : CallbackQuery) (draws : SignInDraws) :
    (finishSignIn app request server query draws).2 =
      server.withSessions (sessionsThen app
        ((signInCall app request query draws).map (fun (call, _) => SessionOp.create call))
        server.store.sessions) := by
  unfold finishSignIn
  cases callback : accept app.mac app.cfg.sessionSecret (request.jar PENDING_COOKIE) query.state
      request.now with
  | none =>
    have unsigned : signInCall app request query draws = none := by
      unfold signInCall
      rw [callback]
    rw [unsigned]
    rfl
  | some answer =>
    cases answer with
    | retry pending =>
      have unsigned : signInCall app request query draws = none := by
        unfold signInCall
        rw [callback]
      rw [unsigned]
      rfl
    | accept pending proof =>
      cases signed : signInCall app request query draws with
      | none => rfl
      | some minted =>
        obtain ⟨call, pending⟩ := minted
        simp only [Option.map_some, sessionsThen, Option.elim_some, sessionStep]
        obtain ⟨result, sessions⟩ := createSession app.env app.mac app.cfg.sessionSecret call
          server.store.sessions
        cases result <;> rfl

theorem devLogin_server (idBytes : Vector UInt8 32) :
    (Auth.devLogin app request server idBytes).2 =
      server.withSessions (sessionsThen app
        ((devLoginCall app request idBytes).map SessionOp.create) server.store.sessions) := by
  unfold Auth.devLogin
  cases devLoginCall app request idBytes with
  | none => rfl
  | some call =>
    simp only [Option.map_some, sessionsThen, Option.elim_some, sessionStep]
    obtain ⟨result, sessions⟩ := createSession app.env app.mac app.cfg.sessionSecret call
      server.store.sessions
    cases result <;> rfl

theorem logout_server :
    (Auth.logout app request server).2 =
      server.withSessions (sessionsThen app
        ((request.jar SESSION_COOKIE).map
          (fun signed => SessionOp.destroy signed request.now.nanos)) server.store.sessions) := by
  unfold Auth.logout
  cases request.jar SESSION_COOKIE <;> rfl

/-- A handler behind `AuthUser` that writes the database for the user. -/
theorem forUser_server_of_writes (op : UserSession → Option Op)
    (handler : UserSession → Server → Served)
    (writes : ∀ user server,
      (handler user server).2 = server.withDb (dbThen app (op user) server.store.db)) :
    (forUser app request server handler).2 =
      (server.withSessions (sessionsThen app request.lookup server.store.sessions)).withDb
        (dbThen app ((request.user app server.store.sessions).bind op) server.store.db) := by
  rw [forUser_eq]
  cases request.user app server.store.sessions with
  | none => rfl
  | some user => exact writes user _

/-- A request behind `AuthUser` that changes nothing. -/
theorem forUser_after_of_reads {handler : UserSession → Server → Served}
    (reads : ∀ user server, (handler user server).2 = server)
    (asks : request.sessionOp app = request.lookup)
    (writes : request.op app server.store.sessions = none)
    (logs : request.lines app server.store.sessions = []) :
    (forUser app request server handler).2 = request.after app server := by
  rw [forUser_server_of_reads app request server handler reads, after_of_reads app writes logs,
    asks]

/-- A request behind `Reader` changes nothing. -/
theorem forReader_after {handler : Server → Served} (reads : ∀ server, (handler server).2 = server)
    (asks : request.sessionOp app =
      if authenticateRead request.headers app.cfg.readTokens then none else request.lookup)
    (writes : request.op app server.store.sessions = none)
    (logs : request.lines app server.store.sessions = []) :
    (forReader app request server handler).2 = request.after app server := by
  rw [forReader_server_of_reads app request server handler reads, after_of_reads app writes logs,
    asks]

/-- A request behind `AuthUser` that writes the database for the user. -/
theorem forUser_after_of_writes (op : UserSession → Option Op)
    {handler : UserSession → Server → Served}
    (writes : ∀ user server,
      (handler user server).2 = server.withDb (dbThen app (op user) server.store.db))
    (asks : request.sessionOp app = request.lookup)
    (is : request.op app server.store.sessions = (request.user app server.store.sessions).bind op)
    (logs : request.lines app server.store.sessions = []) :
    (forUser app request server handler).2 = request.after app server := by
  rw [forUser_server_of_writes app request server op handler writes]
  unfold Request.after
  rw [asks, is, logs, List.append_nil]
  rfl

/-- What serving a request leaves. -/
theorem serve_server [DecidableEq Host] :
    (serve app request server).2 = request.after app server := by
  have logs : (∀ events, request.call ≠ .telemetry (.ok events)) →
      request.lines app server.store.sessions = [] := fun other => lines_of_not_telemetry app other
  unfold serve
  cases call : request.call with
  | createReport body =>
    have quiet : request.sessionOp app = none := by simp only [Request.sessionOp, call]
    have unlogged := logs (by simp [call])
    unfold Request.after
    rw [quiet, unlogged, List.append_nil]
    cases body with
    | error rejection =>
      have writes : request.op app server.store.sessions = none := by
        simp only [Request.op, call]
      rw [writes]
      rfl
    | ok body =>
      have writes : request.op app server.store.sessions =
          (request.ingestCall app body).map Op.ingest := by simp only [Request.op, call]
      rw [writes]
      exact (acknowledged_server server _).trans (by rw [create_store]; rfl)
  | reports query =>
    refine forUser_after_of_reads app request server ?_ (by simp only [Request.sessionOp, call])
      (by simp only [Request.op, call]) (logs (by simp [call]))
    intro user server
    exact extract_server_of_reads query server _ (fun _ => rfl)
  | report id =>
    refine forUser_after_of_reads app request server ?_ (by simp only [Request.sessionOp, call])
      (by simp only [Request.op, call]) (logs (by simp [call]))
    intro user server
    refine extract_server_of_reads id server _ ?_
    intro id
    split <;> rfl
  | overview =>
    exact forUser_after_of_reads app request server (fun _ _ => rfl)
      (by simp only [Request.sessionOp, call]) (by simp only [Request.op, call])
      (logs (by simp [call]))
  | problems =>
    exact forReader_after app request server (fun _ => rfl)
      (by simp only [Request.sessionOp, call]) (by simp only [Request.op, call])
      (logs (by simp [call]))
  | history query =>
    refine forReader_after app request server ?_ (by simp only [Request.sessionOp, call])
      (by simp only [Request.op, call]) (logs (by simp [call]))
    intro server
    refine extract_server_of_reads query server _ ?_
    intro q
    split
    · rfl
    · split <;> rfl
  | listMutes =>
    exact forUser_after_of_reads app request server (fun _ _ => rfl)
      (by simp only [Request.sessionOp, call]) (by simp only [Request.op, call])
      (logs (by simp [call]))
  | createMute new mintedId =>
    cases new with
    | error rejection =>
      exact forUser_after_of_reads app request server (fun _ _ => rfl)
        (by simp only [Request.sessionOp, call]) (by simp only [Request.op, call])
        (logs (by simp [call]))
    | ok new =>
      refine forUser_after_of_writes app request server (fun user => some (.createMute
        { new, createdBy := user.userId, mintedId, now := request.now.nanos })) ?_
        (by simp only [Request.sessionOp, call])
        (by simp only [Request.op, call, Option.map_eq_bind, Function.comp_def])
        (logs (by simp [call]))
      intro user server
      exact written_server 201 _ server _
  | deleteMute id =>
    cases id with
    | error rejection =>
      exact forUser_after_of_reads app request server (fun _ _ => rfl)
        (by simp only [Request.sessionOp, call]) (by simp only [Request.op, call])
        (logs (by simp [call]))
    | ok id =>
      refine forUser_after_of_writes app request server (fun _ => some (.deleteMute id)) ?_
        (by simp only [Request.sessionOp, call])
        (by simp only [Request.op, call, Option.map_eq_bind, Function.comp_def])
        (logs (by simp [call]))
      intro user server
      exact removed_server server _
  | listRetirements =>
    exact forUser_after_of_reads app request server (fun _ _ => rfl)
      (by simp only [Request.sessionOp, call]) (by simp only [Request.op, call])
      (logs (by simp [call]))
  | createRetirement new =>
    cases new with
    | error rejection =>
      exact forUser_after_of_reads app request server (fun _ _ => rfl)
        (by simp only [Request.sessionOp, call]) (by simp only [Request.op, call])
        (logs (by simp [call]))
    | ok new =>
      refine forUser_after_of_writes app request server (fun user => some (.createRetirement
        { new, createdBy := user.userId, now := request.now.nanos })) ?_
        (by simp only [Request.sessionOp, call])
        (by simp only [Request.op, call, Option.map_eq_bind, Function.comp_def])
        (logs (by simp [call]))
      intro user server
      exact written_server 201 _ server _
  | deleteRetirement producer =>
    cases producer with
    | error rejection =>
      exact forUser_after_of_reads app request server (fun _ _ => rfl)
        (by simp only [Request.sessionOp, call]) (by simp only [Request.op, call])
        (logs (by simp [call]))
    | ok producer =>
      obtain ⟨source, collector⟩ := producer
      refine forUser_after_of_writes app request server
        (fun _ => some (.deleteRetirement source collector)) ?_
        (by simp only [Request.sessionOp, call])
        (by simp only [Request.op, call, Option.map_eq_bind, Function.comp_def])
        (logs (by simp [call]))
      intro user server
      exact removed_server server _
  | telemetry events =>
    cases events with
    | error rejection =>
      exact forUser_after_of_reads app request server (fun _ _ => rfl)
        (by simp only [Request.sessionOp, call]) (by simp only [Request.op, call])
        (logs (by simp [call]))
    | ok events =>
      have asks : request.sessionOp app = request.lookup := by simp only [Request.sessionOp, call]
      have writes : request.op app server.store.sessions = none := by simp only [Request.op, call]
      refine (congrArg Prod.snd (forUser_eq app request server _)).trans ?_
      unfold Request.after
      rw [asks, writes]
      cases user : request.user app server.store.sessions with
      | none => simp [Request.lines, call, user, dbThen, Server.withSessions]
      | some user' =>
        simp [Request.lines, call, user, dbThen, Server.withSessions, Server.withLog, extract]
  | login returnTo nonceBytes =>
    have quiet : request.sessionOp app = none := by simp only [Request.sessionOp, call]
    rw [after_of_reads app (by simp only [Request.op, call]) (logs (by simp [call])), quiet]
    exact extract_server_of_reads returnTo server _ (fun _ => rfl)
  | callback query draws =>
    rw [after_of_reads app (by simp only [Request.op, call]) (logs (by simp [call]))]
    cases query with
    | error rejection =>
      have quiet : request.sessionOp app = none := by simp only [Request.sessionOp, call]
      rw [quiet]
      rfl
    | ok query =>
      refine (finishSignIn_server app request server query draws).trans ?_
      simp only [Request.sessionOp, call]
  | logout =>
    rw [after_of_reads app (by simp only [Request.op, call]) (logs (by simp [call]))]
    refine (logout_server app request server).trans ?_
    simp only [Request.sessionOp, call]
  | devLogin idBytes =>
    rw [after_of_reads app (by simp only [Request.op, call]) (logs (by simp [call]))]
    refine (devLogin_server app request server idBytes).trans ?_
    simp only [Request.sessionOp, call]
  | healthz =>
    have quiet : request.sessionOp app = none := by simp only [Request.sessionOp, call]
    rw [after_of_reads app (by simp only [Request.op, call]) (logs (by simp [call])), quiet]
    rfl
  | readyz ping =>
    have quiet : request.sessionOp app = none := by simp only [Request.sessionOp, call]
    rw [after_of_reads app (by simp only [Request.op, call]) (logs (by simp [call])), quiet]
    rfl

end

end Fleetwatch
