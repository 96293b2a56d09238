import Fleetwatch.Lib.Decimal
import Fleetwatch.Lib.Split
import Fleetwatch.Schema

/-!
# Runtime configuration

`src/config.rs`: the environment is read once, at boot, and what is wrong with it is an
error there. `FLEETWATCH_TOKENS` is a comma-separated list of `source:token` pairs,
`FLEETWATCH_READ_TOKENS` one of tokens. Reading a URL is the `url` crate's.
-/

namespace Fleetwatch

open Text

/-- The loop over the entries; an empty one is skipped. -/
def parseEntries (env : Env) : List String → Except String (List (String × String))
  | [] => .ok []
  | entry :: rest =>
    let entry := trim entry
    if entry = "" then parseEntries env rest
    else
      match splitOnce ':' entry.toList with
      | none => .error s!"FLEETWATCH_TOKENS entry {env.debugStr entry} is not source:token"
      | some (source, token) =>
        let source := trim (String.ofList source)
        let token := trim (String.ofList token)
        if source = "" ∨ token = "" then
          .error s!"FLEETWATCH_TOKENS entry {env.debugStr entry} has an empty source or token"
        else do
          let out ← parseEntries env rest
          return (source, token) :: out

/-- `parse_tokens`: the `(source, token)` pairs, in order. -/
def parseTokens (env : Env) (raw : String) : Except String (List (String × String)) :=
  parseEntries env ((split ',' raw.toList).map String.ofList)

/-! ## Read tokens -/

/-- The shortest read token accepted, in bytes. -/
def MIN_READ_TOKEN_LEN : Nat := 24

/-- The loop of `parse_read_tokens`. -/
def parseReadEntries : List String → Except String (List String)
  | [] => .ok []
  | entry :: rest =>
    let token := trim entry
    if token = "" then parseReadEntries rest
    else if token.utf8ByteSize < MIN_READ_TOKEN_LEN then
      .error s!"a FLEETWATCH_READ_TOKENS entry is too short ({token.utf8ByteSize} chars) — use at least {MIN_READ_TOKEN_LEN} (e.g. `openssl rand -hex 32`)"
    else do
      let out ← parseReadEntries rest
      return token :: out

/-- `parse_read_tokens`. -/
def parseReadTokens (raw : String) : Except String (List String) :=
  parseReadEntries ((split ',' raw.toList).map String.ofList)

/-! ## Checks -/

/-- The shortest `SESSION_SECRET` accepted, in bytes. -/
def MIN_SESSION_SECRET_LEN : Nat := 32

/-- `check_session_secret`. -/
def checkSessionSecret (secret : String) : Except String Unit :=
  if secret.utf8ByteSize < MIN_SESSION_SECRET_LEN then
    .error s!"SESSION_SECRET is too short ({secret.utf8ByteSize} chars) — use at least {MIN_SESSION_SECRET_LEN} (e.g. `openssl rand -hex 32`)"
  else .ok ()

/-- `check_dev_login_safe`: the bypass is refused beside a static bundle. -/
def checkDevLoginSafe (devLoginUser staticDir : Option String) : Except String Unit :=
  if devLoginUser.isSome && staticDir.isSome then
    .error "DEV_LOGIN_USER is set while serving a static bundle (STATIC_DIR) — the /dev-login auth bypass must never be enabled in a production deployment"
  else .ok ()

/-! ## The configuration -/

structure Config where
  databaseUrl : String
  bindAddr : String
  staticDir : Option String
  tokens : List (String × String)
  readTokens : List String
  rawRetentionDays : Int
  checkRetentionDays : Int
  sessionSecret : String
  ncBaseUrl : String
  ncClientId : String
  ncClientSecret : String
  ncRedirectUri : String
  devLoginUser : Option String

/-- A URL as far as the code reads it: its scheme, its host, and its text, cut where a query
and a fragment begin. -/
structure ParsedUrl where
  scheme : String
  host : Option String
  beforeQuery : String
  query : Option String
  fragment : Option String

/-- The environment's variables. -/
abbrev Vars := String → Option String

/-- `env`. -/
def requireVar (vars : Vars) (key : String) : Except String String :=
  match vars key with
  | some value => .ok value
  | none => .error s!"missing required env var {key}"

/-- `env_or`. -/
def varOr (vars : Vars) (key fallback : String) : String := (vars key).getD fallback

/-- `env_i64`. -/
def varI64 (env : Env) (vars : Vars) (key : String) (fallback : Int) : Except String Int :=
  match vars key with
  | some value =>
    match parseI64 value.toList with
    | some n => .ok n
    | none => .error s!"{key} must be an integer, got {env.debugStr value}"
  | none => .ok fallback

/-- Refuse to boot unless the condition holds. -/
def requireBoot (condition : Bool) (message : String) : Except String Unit :=
  if condition then .ok () else .error message

/-- `Config::from_env`. -/
def fromEnv (env : Env) (parseUrl : String → Option ParsedUrl) (vars : Vars) :
    Except String Config := do
  let rawTokens ← requireVar vars "FLEETWATCH_TOKENS"
  let tokens ← parseTokens env rawTokens
  requireBoot (!tokens.isEmpty) "FLEETWATCH_TOKENS is empty — no producer could ever authenticate"
  let rawBaseUrl ← requireVar vars "NC_BASE_URL"
  let ncBaseUrl := String.ofList (rawBaseUrl.toList.rdropWhile (· == '/'))
  requireBoot (parseUrl ncBaseUrl).isSome s!"NC_BASE_URL is not a valid URL: {env.debugStr ncBaseUrl}"
  requireBoot ((parseUrl ncBaseUrl).any (fun parsed =>
      (parsed.scheme = "http" || parsed.scheme = "https") && parsed.host.isSome))
    s!"NC_BASE_URL must be an http(s) URL with a host: {env.debugStr ncBaseUrl}"
  let sessionSecret ← requireVar vars "SESSION_SECRET"
  checkSessionSecret sessionSecret
  let staticDir := vars "STATIC_DIR"
  let devLoginUser := vars "DEV_LOGIN_USER"
  checkDevLoginSafe devLoginUser staticDir
  let databaseUrl ← requireVar vars "DATABASE_URL"
  let readTokens ← parseReadTokens (varOr vars "FLEETWATCH_READ_TOKENS" "")
  let rawRetentionDays ← varI64 env vars "FLEETWATCH_RAW_RETENTION_DAYS" 30
  let checkRetentionDays ← varI64 env vars "FLEETWATCH_CHECK_RETENTION_DAYS" 400
  let ncClientId ← requireVar vars "NC_CLIENT_ID"
  let ncClientSecret ← requireVar vars "NC_CLIENT_SECRET"
  let ncRedirectUri ← requireVar vars "NC_REDIRECT_URI"
  return {
    databaseUrl, bindAddr := varOr vars "BIND_ADDR" "0.0.0.0:8080", staticDir, tokens, readTokens,
    rawRetentionDays, checkRetentionDays, sessionSecret, ncBaseUrl, ncClientId, ncClientSecret,
    ncRedirectUri, devLoginUser }

end Fleetwatch
