import Fleetwatch.Proofs.Api

/-!
# What a reply can be

The handlers differ in what they write and draw; what a reply says of the store is one of a
few things. `answers_of_serve` lists them, and a property of every reply is a case of that
list each.
-/

namespace Fleetwatch

section

variable {Host : Type} (app : AppState Host) (request : Request) (db : Db)

/-- A reply of the API, by what its body is made of. -/
inductive Answers : Reply → Prop where
  | refused (err : AppError) : Answers err.intoResponse
  | rejected (rejection : Rejection) : Answers rejection.intoResponse
  | acknowledged (status : Nat) (ack : IngestAck) : Answers (.plain status (.ack ack))
  | overview : Answers (.plain 200 (.overview (overview app.env request.now.nanos db)))
  | problems : Answers (.plain 200 (.problems (problems app.env request.now.nanos db)))
  | reports (source collector : Option String) (limit : UInt32) :
      Answers (.plain 200 (.reports (listReports app.env source collector limit db)))
  | report (id : String) (detail : ReportDetail) (found : reportDetail app.env id db = some detail) :
      Answers (.plain 200 (.report detail))
  | history (key : CheckKey) (lower upper : Int) :
      Answers (.plain 200 (.history (history app.env key lower upper db)))
  | mutes : Answers (.plain 200 (.mutes (listMutes request.now.nanos db)))
  | mute (status : Nat) (mute : Mute) : Answers (.plain status (.mute mute))
  | retirements : Answers (.plain 200 (.retirements (listRetirements db)))
  | retirement (status : Nat) (retirement : Retirement) :
      Answers (.plain status (.retirement retirement))
  | empty (status : Nat) : Answers (.plain status .empty)
  | said (status : Nat) (text : String) : Answers (.plain status (.text text))
  | signInFailed (err : SignInError) : Answers (signInProblem err)
  | redirect (location : String) (cookies : List Cookie) : Answers (.redirect location cookies)

/-- Every reply there may be is one of these. -/
def Answering (served : Served) : Prop := ∀ reply, served.1 = some reply → Answers app request db reply

variable {app request db} {server : Server}

theorem Answers.answering {reply : Reply} (answers : Answers app request db reply)
    (server : Server) : Answering app request db (some reply, server) := by
  intro other same
  obtain rfl := Option.some.inj same
  exact answers

theorem answering_panic (server : Server) : Answering app request db (none, server) :=
  fun _ absent => nomatch absent

theorem answering_written {α : Type} {status : Nat} {body : α → Body}
    (answers : ∀ value, Answers app request db (.plain status (body value)))
    (result : Except AppError α × Db) :
    Answering app request db (written status body server result) := by
  obtain ⟨answer, after⟩ := result
  cases answer with
  | ok value => exact (answers value).answering _
  | error err => exact (Answers.refused err).answering _

theorem answering_removed (result : Bool × Db) :
    Answering app request db (removed server result) := by
  obtain ⟨found, after⟩ := result
  cases found with
  | true => exact (Answers.empty 204).answering _
  | false => exact (Answers.refused .notFound).answering _

theorem answering_acknowledged (result : Except AppError (StatusCode × IngestAck) × Store) :
    Answering app request db (acknowledged server result) := by
  obtain ⟨answer, store⟩ := result
  cases answer with
  | ok accepted => exact (Answers.acknowledged _ _).answering _
  | error err => exact (Answers.refused err).answering _

theorem answering_extract {α : Type} (input : Extracted α) {handler : α → Served}
    (answering : ∀ value, Answering app request db (handler value)) :
    Answering app request db (extract input server handler) := by
  cases input with
  | ok value => exact answering value
  | error rejection => exact (Answers.rejected rejection).answering _

/-- Behind an extractor a handler finds the store as it was, but for the sessions. -/
theorem answering_forUser {handler : UserSession → Server → Served}
    (answering : ∀ user after, after.store.db = server.store.db →
      Answering app request db (handler user after)) :
    Answering app request db (forUser app request server handler) := by
  rw [forUser_eq]
  cases request.user app server.store.sessions with
  | none => exact (Answers.refused .unauthorized).answering _
  | some user => exact answering user _ rfl

theorem answering_forReader {handler : Server → Served}
    (answering : ∀ after, after.store.db = server.store.db →
      Answering app request db (handler after)) :
    Answering app request db (forReader app request server handler) := by
  rw [forReader_eq]
  split
  · exact answering server rfl
  · exact answering_forUser (fun _ after same => answering after same)

theorem answering_authorize (issued : Option (String × String)) (server : Server) :
    Answering app request db (authorize app issued, server) := by
  intro reply replied
  obtain ⟨pair, -, replied⟩ := Option.bind_eq_some_iff.mp replied
  obtain ⟨url, -, replied⟩ := Option.bind_eq_some_iff.mp replied
  obtain rfl := Option.some.inj replied
  exact .redirect _ _

theorem answering_finishSignIn [DecidableEq Host] (query : CallbackQuery) (draws : SignInDraws) :
    Answering app request db (finishSignIn app request server query draws) := by
  unfold finishSignIn
  split
  · exact (Answers.signInFailed _).answering _
  · exact answering_authorize _ _
  · split
    · exact (Answers.signInFailed _).answering _
    · split
      · exact (Answers.signInFailed _).answering _
      · exact (Answers.redirect _ _).answering _

theorem answering_devLogin (idBytes : Vector UInt8 32) :
    Answering app request db (Auth.devLogin app request server idBytes) := by
  unfold Auth.devLogin
  split
  · exact (Answers.empty _).answering _
  · split
    · exact (Answers.refused _).answering _
    · exact (Answers.redirect _ _).answering _

/-- Every reply of the service to a request is one of these. -/
theorem answers_of_serve [DecidableEq Host] (request : Request) (server : Server) :
    Answering app request server.store.db (serve app request server) := by
  obtain ⟨headers, jar, now, call⟩ := request
  cases call with
  | createReport body => exact answering_extract _ (fun _ => answering_acknowledged _)
  | reports query =>
    exact answering_forUser (fun _ after same => answering_extract _ (fun q =>
      same ▸ (Answers.reports _ _ _).answering _))
  | report id =>
    refine answering_forUser (fun _ after same => answering_extract _ (fun id => ?_))
    rw [same]
    split
    · rename_i detail found
      exact (Answers.report id detail found).answering _
    · exact (Answers.refused .notFound).answering _
  | overview => exact answering_forUser (fun _ after same => same ▸ Answers.overview.answering _)
  | problems => exact answering_forReader (fun after same => same ▸ Answers.problems.answering _)
  | history query =>
    refine answering_forReader (fun after same => answering_extract _ (fun q => ?_))
    dsimp only
    rw [same]
    split
    · exact answering_panic _
    · split
      · exact (Answers.refused _).answering _
      · exact (Answers.history _ _ _).answering _
  | listMutes => exact answering_forUser (fun _ after same => same ▸ Answers.mutes.answering _)
  | createMute new mintedId =>
    exact answering_forUser (fun _ _ _ => answering_extract _ (fun _ =>
      answering_written (fun mute => .mute 201 mute) _))
  | deleteMute id =>
    exact answering_forUser (fun _ _ _ => answering_extract _ (fun _ => answering_removed _))
  | listRetirements =>
    exact answering_forUser (fun _ after same => same ▸ Answers.retirements.answering _)
  | createRetirement new =>
    exact answering_forUser (fun _ _ _ => answering_extract _ (fun _ =>
      answering_written (fun retirement => .retirement 201 retirement) _))
  | deleteRetirement producer =>
    exact answering_forUser (fun _ _ _ => answering_extract _ (fun _ => answering_removed _))
  | telemetry events =>
    exact answering_forUser (fun _ _ _ => answering_extract _ (fun _ =>
      (Answers.empty 204).answering _))
  | login returnTo nonceBytes =>
    exact answering_extract _ (fun _ => answering_authorize _ _)
  | callback query draws => exact answering_extract _ (fun _ => answering_finishSignIn _ _)
  | logout =>
    show Answering app _ _ (Auth.logout app _ server)
    unfold Auth.logout
    split
    · exact (Answers.redirect _ _).answering _
    · exact (Answers.redirect _ _).answering _
  | devLogin idBytes => exact answering_devLogin _
  | healthz => exact (Answers.said 200 "ok").answering _
  | readyz ping =>
    cases ping with
    | answered => exact (Answers.said 200 _).answering _
    | failed => exact (Answers.said 503 _).answering _
    | late => exact (Answers.said 503 _).answering _

end

end Fleetwatch
