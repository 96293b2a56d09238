import Fleetwatch.Lib.Decimal
import Fleetwatch.Lib.Urlencoded
import Fleetwatch.Routes.Api

/-!
# From a request line to a handler

`router` of `src/routes/mod.rs` and what axum makes of a request on the way to a handler:
the path is cut at its slashes and matched, a parameter is one segment that is not empty,
and the query is read as a form. Reading an instant is chrono's.
-/

namespace Fleetwatch

open Chrono Text

/-! ## Request lines -/

inductive Method where
  | get
  | head
  | post
  | delete
  | other
  deriving DecidableEq, Repr

/-- A method, and a path and a query as they are written. -/
structure Target where
  method : Method
  path : List Char
  query : Option (List Char)

/-! ## Queries -/

/-- A field of a query: its name, and why its type refuses a value. -/
structure QueryField where
  name : String
  refuses : String → Option String

def anyText (name : String) : QueryField := { name, refuses := fun _ => none }

/-- A derived `visit_map`: the fields' values as they come. The first one that is there twice,
or that its type refuses, is the error; a name of no field is passed over. -/
def visitMap (fields : List QueryField) :
    List (String × String) → List (String × String) → Except String (List (String × String))
  | found, [] => .ok found
  | found, (name, value) :: rest =>
    match fields.find? (·.name = name) with
    | none => visitMap fields found rest
    | some field =>
      if found.any (·.1 = name) then .error s!"duplicate field `{name}`"
      else
        match field.refuses value with
        | some why => .error s!"{name}: {why}"
        | none => visitMap fields (found ++ [(name, value)]) rest

/-- The value of a field that was found. -/
def given (found : List (String × String)) (name : String) : Option String :=
  (found.find? (·.1 = name)).map Prod.snd

/-- The value of a field that has no default. -/
def required (found : List (String × String)) (name : String) : Except String String :=
  match given found name with
  | some value => .ok value
  | none => .error s!"missing field `{name}`"

/-- What `Query` replies. -/
def queryRejection (why : String) : Rejection :=
  { status := 400, text := s!"Failed to deserialize query string: {why}" }

/-- `Query`: the pairs of a form, and no query is an empty one. -/
def readQuery {α : Type} (fields : List QueryField)
    (build : List (String × String) → Except String α) (query : Option (List Char)) :
    Extracted α :=
  let pairs := (Urlencoded.parse (query.getD [])).map
    (fun pair => (String.ofList pair.1, String.ofList pair.2))
  (visitMap fields [] pairs >>= build).mapError queryRejection

/-- The loop of `u32::from_str`. -/
def parseU32Digits : Nat → List Char → Except String UInt32
  | n, [] => .ok (UInt32.ofNat n)
  | n, c :: rest =>
    if ¬ c.isDigit then .error "invalid digit found in string"
    else
      let next := 10 * n + (c.toNat - 48)
      if 2 ^ 32 ≤ next then .error "number too large to fit in target type"
      else parseU32Digits next rest

/-- `u32::from_str`: a plus sign is allowed. -/
def parseU32 : List Char → Except String UInt32
  | [] => .error "cannot parse integer from empty string"
  | ['+'] => .error "invalid digit found in string"
  | '+' :: digits => parseU32Digits 0 digits
  | digits => parseU32Digits 0 digits

/-- Why a reader refuses a value. -/
def refusal {α : Type} (read : String → Except String α) (value : String) : Option String :=
  match read value with
  | .ok _ => none
  | .error why => some why

/-- What a reader that refuses nothing found makes of a field. -/
def givenAs {α : Type} (read : String → Except String α) (found : List (String × String))
    (name : String) : Option α :=
  (given found name).bind (fun value => (read value).toOption)

/-- The reader of a limit. -/
def readLimit (value : String) : Except String UInt32 := parseU32 value.toList

def ReportsQuery.read : Option (List Char) → Extracted ReportsQuery :=
  readQuery [anyText "source", anyText "collector", ⟨"limit", refusal readLimit⟩] fun found =>
    .ok
      { source := given found "source"
        collector := given found "collector"
        limit := givenAs readLimit found "limit" }

def HistoryQuery.read (readInstant : String → Except String DateTime) :
    Option (List Char) → Extracted HistoryQuery :=
  readQuery [anyText "source", anyText "collector", anyText "section", anyText "label",
      ⟨"from", refusal readInstant⟩, ⟨"to", refusal readInstant⟩] fun found => do
    return {
      source := ← required found "source"
      collector := ← required found "collector"
      sect := ← required found "section"
      label := ← required found "label"
      lower := givenAs readInstant found "from"
      upper := givenAs readInstant found "to" }

/-- `LoginQuery`. -/
def readLoginQuery : Option (List Char) → Extracted (Option String) :=
  readQuery [anyText "return_to"] fun found => .ok (given found "return_to")

def CallbackQuery.read : Option (List Char) → Extracted CallbackQuery :=
  readQuery [anyText "code", anyText "state"] fun found =>
    .ok { code := given found "code", state := given found "state" }

/-! ## Paths -/

/-- What `Path` makes of a parameter. -/
def readParam (key : String) (raw : List Char) : Extracted String :=
  match Urlencoded.decodeSegment raw with
  | some text => .ok (String.ofList text)
  | none => .error { status := 400, text := s!"Invalid URL: Invalid UTF-8 in `{key}`" }

/-- The paths of `router`. -/
inductive Endpoint where
  | healthz
  | readyz
  | login
  | callback
  | logout
  | devLogin
  | reports
  | report (id : Extracted String)
  | overview
  | problems
  | history
  | mutes
  | mute (id : Extracted String)
  | retirements
  | retirement (producer : Extracted (String × String))
  | telemetry

/-- Below `/api`. A parameter matches no empty segment. -/
def apiEndpoint : List (List Char) → Option Endpoint
  | [name] =>
    match String.ofList name with
    | "reports" => some .reports
    | "overview" => some .overview
    | "problems" => some .problems
    | "history" => some .history
    | "mutes" => some .mutes
    | "retirements" => some .retirements
    | "telemetry" => some .telemetry
    | _ => none
  | [name, id] =>
    if id = [] then none
    else
      match String.ofList name with
      | "reports" => some (.report (readParam "id" id))
      | "mutes" => some (.mute (readParam "id" id))
      | _ => none
  | [name, source, collector] =>
    if source = [] ∨ collector = [] then none
    else
      match String.ofList name with
      | "retirements" => some (.retirement (do
          return (← readParam "source" source, ← readParam "collector" collector)))
      | _ => none
  | _ => none

/-- Which of them a path is; `/dev-login` is mounted only for a development user. -/
def endpoint (cfg : Config) (path : List Char) : Option Endpoint :=
  match split '/' path with
  | [root, name] =>
    if root ≠ [] then none
    else
      match String.ofList name with
      | "healthz" => some .healthz
      | "readyz" => some .readyz
      | "login" => some .login
      | "logout" => some .logout
      | "dev-login" => if cfg.devLoginUser.isSome then some .devLogin else none
      | _ => none
  | root :: first :: rest =>
    if root ≠ [] then none
    else
      match String.ofList first with
      | "auth" => if rest = ["callback".toList] then some .callback else none
      | "api" => apiEndpoint rest
      | _ => none
  | _ => none

/-! ## Methods -/

/-- What else a request brings to its handler: its body as the extractors read it, and what
the handler draws and is told. -/
structure Carried where
  report : Extracted ByteArray
  newMute : Extracted NewMute
  newRetirement : Extracted NewRetirement
  events : Extracted (List TelemetryEvent)
  mintedId : String
  idBytes : Vector UInt8 32
  nonceBytes : Vector UInt8 24
  draws : SignInDraws
  ping : Ping

section

variable (readInstant : String → Except String DateTime) (carried : Carried)

/-- The handler of a path for a method, if there is one; `HEAD` is answered as `GET`. -/
def Endpoint.call (query : Option (List Char)) : Endpoint → Method → Option Call
  | .healthz, .get | .healthz, .head => some .healthz
  | .readyz, .get | .readyz, .head => some (.readyz carried.ping)
  | .login, .get | .login, .head => some (.login (readLoginQuery query) carried.nonceBytes)
  | .callback, .get | .callback, .head => some (.callback (CallbackQuery.read query) carried.draws)
  | .logout, .post => some .logout
  | .devLogin, .get | .devLogin, .head => some (.devLogin carried.idBytes)
  | .reports, .post => some (.createReport carried.report)
  | .reports, .get | .reports, .head => some (.reports (ReportsQuery.read query))
  | .report id, .get | .report id, .head => some (.report id)
  | .overview, .get | .overview, .head => some .overview
  | .problems, .get | .problems, .head => some .problems
  | .history, .get | .history, .head => some (.history (HistoryQuery.read readInstant query))
  | .mutes, .get | .mutes, .head => some .listMutes
  | .mutes, .post => some (.createMute carried.newMute carried.mintedId)
  | .mute id, .delete => some (.deleteMute id)
  | .retirements, .get | .retirements, .head => some .listRetirements
  | .retirements, .post => some (.createRetirement carried.newRetirement)
  | .retirement producer, .delete => some (.deleteRetirement producer)
  | .telemetry, .post => some (.telemetry carried.events)
  | _, _ => none

/-- Where a request goes. -/
inductive Routed where
  | call (call : Call)
  /-- A route's path, and none of its methods: 405. -/
  | methodNotAllowed
  /-- No route's path: the static service, or 404 without one. -/
  | fallback

/-- Where a path's handlers send a request. -/
def dispatch (query : Option (List Char)) (method : Method) : Option Endpoint → Routed
  | none => .fallback
  | some found =>
    match found.call readInstant carried query method with
    | some call => .call call
    | none => .methodNotAllowed

/-- `router`. -/
def router (cfg : Config) (target : Target) : Routed :=
  dispatch readInstant carried target.query target.method (endpoint cfg target.path)

end

end Fleetwatch
