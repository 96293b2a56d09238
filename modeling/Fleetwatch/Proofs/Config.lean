import Fleetwatch.Proofs.Accountable
import Fleetwatch.Proofs.Auth
import Fleetwatch.Proofs.PendingLogin

/-!
# What a server that boots promises

What is wrong with the environment is an error at boot, so a process that serves holds none
of it: no short key, no short read token, and no way to sign in but Nextcloud's beside the
app it serves.
-/

namespace Fleetwatch

open Bytes Chrono Table Text

/-! ## Read tokens -/

theorem parseReadEntries_token {entries : List String} {tokens : List String}
    (accepted : parseReadEntries entries = .ok tokens) :
    ∀ token ∈ tokens, MIN_READ_TOKEN_LEN ≤ token.utf8ByteSize ∧ trim token = token := by
  induction entries generalizing tokens with
  | nil =>
    obtain rfl : [] = tokens := Except.ok.inj accepted
    simp
  | cons entry rest ih =>
    rw [parseReadEntries] at accepted
    by_cases blank : trim entry = ""
    · simp only [blank, if_true] at accepted
      exact ih accepted
    · simp only [blank, if_false] at accepted
      by_cases short : (trim entry).utf8ByteSize < MIN_READ_TOKEN_LEN
      · simp only [short, if_true] at accepted
        cases accepted
      · simp only [short, if_false] at accepted
        obtain ⟨out, tail, result⟩ := bind_eq_ok.mp accepted
        obtain rfl := Except.ok.inj result
        intro token member
        rcases List.mem_cons.mp member with rfl | later
        · exact ⟨not_lt.mp short, trim_trim _⟩
        · exact ih tail token later

/-- A request reads as one without an identity exactly when it presents a read token. -/
theorem authenticateRead_iff {headers : HeaderMap} {tokens : List String} :
    authenticateRead headers tokens = true ↔
      ∃ presented, bearer headers = some presented ∧ presented ∈ tokens := by
  have compares : ∀ presented token : String,
      (ctEq (utf8 presented.toList) (utf8 token.toList) = true) = (presented = token) := by
    intro presented token
    rw [ctEq_iff, utf8_injective.eq_iff, String.toList_inj]
  have found : ∀ (presented : String) (tokens : List String) (start : Bool),
      tokens.foldl (fun ok token => if presented = token then true else ok) start = true ↔
        start = true ∨ presented ∈ tokens := by
    intro presented tokens
    induction tokens with
    | nil => simp
    | cons token rest ih =>
      intro start
      rw [List.foldl_cons, ih, List.mem_cons]
      by_cases same : presented = token
      · simp [same]
      · simp [same]
  unfold authenticateRead
  cases bearer headers with
  | none => simp
  | some presented =>
    simp only [compares]
    rw [found]
    simp

/-! ## The checks at boot -/

/-- What holds of the configuration of a process that serves. -/
structure Checked (parseUrl : String → Option ParsedUrl) (cfg : Config) : Prop where
  producers : cfg.tokens ≠ []
  tokens : ∀ pair ∈ cfg.tokens, pair.2 ≠ "" ∧ trim pair.2 = pair.2
  readers : ∀ token ∈ cfg.readTokens, MIN_READ_TOKEN_LEN ≤ token.utf8ByteSize ∧ trim token = token
  secret : MIN_SESSION_SECRET_LEN ≤ cfg.sessionSecret.utf8ByteSize
  bypass : cfg.staticDir.isSome = true → cfg.devLoginUser = none
  nextcloud : ∃ url, parseUrl cfg.ncBaseUrl = some url ∧ (url.scheme = "http" ∨ url.scheme = "https") ∧
    url.host.isSome = true

theorem requireBoot_eq_ok {condition : Bool} {message : String} {u : Unit} :
    requireBoot condition message = .ok u ↔ condition = true := by
  unfold requireBoot
  cases condition <;> simp

theorem checked_of_fromEnv {env : Env} {parseUrl : String → Option ParsedUrl} {vars : Vars}
    {cfg : Config} (booted : fromEnv env parseUrl vars = .ok cfg) : Checked parseUrl cfg := by
  unfold fromEnv at booted
  simp only [bind_eq_ok, requireBoot_eq_ok, exists_const] at booted
  obtain ⟨rawTokens, _, tokens, accepted, filled, rawBaseUrl, _, _, web, secret, _, _, long, _, safe,
    _, _, readTokens, read, _, _, _, _, _, _, _, _, _, _, made⟩ := booted
  obtain rfl := Except.ok.inj made
  constructor
  · rintro empty
    obtain rfl : tokens = [] := empty
    cases filled
  · exact parseEntries_token accepted
  · exact parseReadEntries_token read
  · unfold checkSessionSecret at long
    split at long
    · cases long
    · rename_i enough
      exact not_lt.mp enough
  · intro static
    unfold checkDevLoginSafe at safe
    split at safe
    · cases safe
    · rename_i apart
      cases user : vars "DEV_LOGIN_USER" with
      | none => rfl
      | some name => exact absurd (by simp [user, show (vars "STATIC_DIR").isSome = true from static]) apart
  · obtain ⟨url, parsed, fine⟩ := (Option.any_eq_true _ _).mp web
    simp only [Bool.and_eq_true, Bool.or_eq_true, decide_eq_true_eq] at fine
    exact ⟨url, parsed, fine⟩

/-! ## A process that booted -/

/-- Under every configuration that boots, a read token opens the read API to whoever presents
it, unless it holds a character no header can carry; and nothing shorter than 24 bytes does. -/
theorem readers_of_boot {env : Env} {parseUrl : String → Option ParsedUrl} {vars : Vars}
    {cfg : Config} (booted : fromEnv env parseUrl vars = .ok cfg) :
    (∀ token ∈ cfg.readTokens, ∀ headers : HeaderMap,
      headers.get AUTHORIZATION = some (bearing token) →
        (authenticateRead headers cfg.readTokens = true ↔ Presentable token)) ∧
    ∀ headers, authenticateRead headers cfg.readTokens = true →
      ∃ token ∈ cfg.readTokens, bearer headers = some token ∧
        MIN_READ_TOKEN_LEN ≤ token.utf8ByteSize := by
  have checked := checked_of_fromEnv booted
  refine ⟨?_, ?_⟩
  · intro token member headers header
    obtain ⟨long, trimmed⟩ := checked.readers token member
    have filled : token ≠ "" := by
      rintro rfl
      exact absurd long (by decide)
    rw [authenticateRead_iff, bearer_bearing header trimmed filled]
    by_cases presentable : Presentable token
    · rw [if_pos presentable]
      exact iff_of_true ⟨token, rfl, member⟩ presentable
    · rw [if_neg presentable]
      exact iff_of_false (by simp) presentable
  · intro headers opened
    obtain ⟨token, presented, member⟩ := authenticateRead_iff.mp opened
    exact ⟨token, member, presented, (checked.readers token member).1⟩

section

variable {Host : Type} [DecidableEq Host] {app : AppState Host} {vars : Vars}

/-- Every session in the table was opened by a request of the run. -/
theorem opening_of_stored {events : List Event} {row : SessionRow}
    (stored : row ∈ (processAfter app events).server.store.sessions) :
    ∃ opening call, Event.request opening ∈ events ∧ Opens app opening call ∧ call.row = row := by
  have sessions : (processAfter app events).server.store.sessions =
      sessionsAfter app.env app.mac app.cfg.sessionSecret
        (events.filterMap (Event.sessionOp app)) := run_sessions app events Process.initial
  rw [sessions] at stored
  obtain ⟨call, created, rfl⟩ := created_of_mem stored
  obtain ⟨e, member, asks⟩ := List.mem_filterMap.mp created
  obtain ⟨opening, rfl, opens⟩ := opens_of_sessionOp app asks
  exact ⟨opening, call, member, opens, rfl⟩

/-- Beside the app it serves, a process that booted signs in only whom Nextcloud names: whoever
a request speaks for, an earlier callback presented the state its browser's login remembers,
and Nextcloud redeemed its code for that user. -/
theorem named_by_nextcloud (booted : fromEnv app.env app.parseUrl vars = .ok app.cfg)
    (static : app.cfg.staticDir.isSome = true) {before : List Event} {request : Request}
    {user : UserSession}
    (speaks : request.user app (processAfter app before).server.store.sessions = some user) :
    ∃ callback query draws pending proof code named,
      Event.request callback ∈ before ∧ callback.call = .callback (.ok query) draws ∧
      accept app.mac app.cfg.sessionSecret (callback.jar PENDING_COOKIE) query.state callback.now =
        some (.accept pending proof) ∧
      query.code = some code ∧ draws.redeem code = some named ∧
      user = { userId := named.id, displayName := named.displayName } := by
  obtain ⟨signed, _, answered⟩ := Option.bind_eq_some_iff.mp speaks
  have keyed : Keyed (SessionRow.key app.env)
      (processAfter app before).server.store.sessions := by
    rw [processAfter, run_sessions]
    exact keyed_sessionsAfter _
  obtain ⟨row, stored, _, _, names⟩ := (getSession_eq_some_iff keyed).mp answered
  obtain ⟨opening, call, member, opens, rfl⟩ := opening_of_stored stored
  cases opens with
  | callback query draws pending proof code named is matched given redeemed who when =>
    refine ⟨opening, query, draws, pending, proof, code, named, member, is, matched, given,
      redeemed, ?_⟩
    rw [← names, ← who]
    rfl
  | development idBytes userId is configured who when =>
    rw [(checked_of_fromEnv booted).bypass static] at configured
    cases configured

end

/-- A deployment's environment. -/
def sampleVars : Vars := fun key =>
  if key = "FLEETWATCH_TOKENS" then some "odin:secret"
  else if key = "FLEETWATCH_READ_TOKENS" then some "0123456789abcdef01234567"
  else if key = "NC_BASE_URL" then some "https://cloud.example/"
  else if key = "SESSION_SECRET" then some "0123456789abcdef0123456789abcdef"
  else if key = "STATIC_DIR" then some "/app/static"
  else if key = "DATABASE_URL" then some "mysql://fleetwatch"
  else if key = "NC_CLIENT_ID" then some "fleetwatch"
  else if key = "NC_CLIENT_SECRET" then some "hidden"
  else if key = "NC_REDIRECT_URI" then some "https://fleetwatch.example/auth/callback"
  else none

def sampleConfig : Config :=
  { databaseUrl := "mysql://fleetwatch", bindAddr := "0.0.0.0:8080"
    staticDir := some "/app/static", tokens := [("odin", "secret")]
    readTokens := ["0123456789abcdef01234567"], rawRetentionDays := 30
    checkRetentionDays := 400, sessionSecret := "0123456789abcdef0123456789abcdef"
    ncBaseUrl := "https://cloud.example", ncClientId := "fleetwatch", ncClientSecret := "hidden"
    ncRedirectUri := "https://fleetwatch.example/auth/callback", devLoginUser := none }

def sampleUrls (text : String) : Option ParsedUrl :=
  if text = "https://cloud.example" then
    some { scheme := "https", host := some "cloud.example", beforeQuery := "https://cloud.example/"
           query := none, fragment := none }
  else none

theorem fromEnv_sample : fromEnv asciiEnv sampleUrls sampleVars = .ok sampleConfig := by
  rfl

theorem readers_of_boot_sample :
    authenticateRead [(AUTHORIZATION, bearing "0123456789abcdef01234567")]
      sampleConfig.readTokens = true := by
  have presentable : Presentable "0123456789abcdef01234567" := by
    simp [Presentable, VisibleChar]
  exact ((readers_of_boot fromEnv_sample).1 _ List.mem_cons_self _ rfl).mpr presentable

/-- The deployment, a callback Nextcloud redeems, and a request with the session it opened. -/
def sampleDeployment : AppState (List Char) :=
  { sampleApp with cfg := sampleConfig, parseUrl := sampleUrls }

def sampleCallback : Request :=
  let pending : PendingLogin :=
    { nonce := "00", returnTo := none, expiresAt := justInside, retried := false }
  { headers := []
    jar := fun name =>
      if name = PENDING_COOKIE then
        some (signValue constantMac sampleConfig.sessionSecret pending.encode)
      else none
    now := epoch
    call := .callback (.ok { code := some "code", state := some "00" })
      { idBytes := Vector.replicate 32 0, nonceBytes := Vector.replicate 24 0
        redeem := fun _ => some { id := "ada", displayName := "Ada" } } }

def sampleVisit : Request :=
  { headers := []
    jar := fun name =>
      if name = SESSION_COOKIE then
        some (signValue constantMac sampleConfig.sessionSecret
          (String.ofList (Hex.encode (List.replicate 32 0))))
      else none
    now := justInside
    call := .overview }

theorem named_by_nextcloud_sample :
    ∃ callback query draws pending proof code named,
      Event.request callback ∈ [Event.request sampleCallback] ∧
      callback.call = .callback (.ok query) draws ∧
      accept constantMac sampleConfig.sessionSecret (callback.jar PENDING_COOKIE) query.state
        callback.now = some (.accept pending proof) ∧
      query.code = some code ∧ draws.redeem code = some named ∧
      (⟨"ada", "Ada"⟩ : UserSession) = { userId := named.id, displayName := named.displayName } := by
  have speaks : sampleVisit.user sampleDeployment
      (processAfter sampleDeployment [Event.request sampleCallback]).server.store.sessions =
        some ⟨"ada", "Ada"⟩ := by decide +kernel
  exact @named_by_nextcloud _ _ sampleDeployment sampleVars fromEnv_sample rfl _ _ _ speaks

end Fleetwatch
