import Fleetwatch.Auth
import Fleetwatch.Report.Ingest
import Fleetwatch.Session

/-!
# POST /api/reports

`create` of `src/routes/ingest.rs`, the one authenticated endpoint: the source is the one
the token stands for, never one the body names.
-/

namespace Fleetwatch

/-- Everything the service stores. -/
structure Store where
  db : Db
  sessions : List SessionRow

/-- A request, and the server's clock when it is served. -/
structure IngestRequest where
  headers : HeaderMap
  body : ByteArray
  now : Int

/-- `StatusCode::OK` for a replay, `StatusCode::CREATED` for a report that was stored. -/
inductive StatusCode where
  | ok
  | created
  deriving DecidableEq, Repr

/-- What `create` makes of the outcome of `ingest`. -/
def respond (store : Store) :
    Except AppError IngestAck × Db → Except AppError (StatusCode × IngestAck) × Store
  | (.error err, db) => (.error err, { store with db := db })
  | (.ok ack, db) =>
    let status := if ack.duplicate then StatusCode.ok else StatusCode.created
    (.ok (status, ack), { store with db := db })

/-- `create`: the answer, and the store afterwards. `parse` is `serde_json::from_str`, which
fails with the text of its error. The body is read after the token was accepted. -/
def create (env : Env) (parse : String → Except String ReportUpload)
    (tokens : List (String × String)) (request : IngestRequest) (store : Store) :
    Except AppError (StatusCode × IngestAck) × Store :=
  match authenticate request.headers tokens with
  | none => (.error .unauthorized, store)
  | some source =>
    match String.fromUTF8? request.body with
    | none => (.error (.unprocessable "body is not valid UTF-8"), store)
    | some raw =>
      match parse raw with
      | .error e => (.error (.unprocessable s!"invalid report JSON: {e}"), store)
      | .ok upload =>
        respond store (ingest env
          { source := source, upload := upload, raw := raw, now := request.now } store.db)

theorem respond_store (store : Store) (outcome : Except AppError IngestAck × Db) :
    (respond store outcome).2 = { store with db := outcome.2 } := by
  obtain ⟨result, db⟩ := outcome
  cases result <;> rfl

theorem respond_error {store : Store} {outcome : Except AppError IngestAck × Db} {err : AppError}
    (refused : (respond store outcome).1 = .error err) : outcome.1 = .error err := by
  obtain ⟨result, db⟩ := outcome
  cases result with
  | error cause =>
    obtain rfl := Except.error.inj refused
    rfl
  | ok ack => cases refused

end Fleetwatch
