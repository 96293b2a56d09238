import Fleetwatch.Proofs.Cookies
import Fleetwatch.Proofs.PendingLogin
import Fleetwatch.Proofs.Requests
import Fleetwatch.Proofs.ReturnTo

/-!
# A signed-out page is found again

A page whose request is answered 401 goes to `/login` and names itself; the login remembers
it through Nextcloud and back, and the callback that signs in sends the browser to it. Path
and query pass through two encodings, a form, a signed cookie and two URL parsers.
-/

namespace Fleetwatch

open Frontend Text Urlencoded Whatwg

variable {Host : Type}

/-- A page as it is found again: an empty query and the fragment are lost. -/
def landed (page : Url Host) : Url Host :=
  { page with query := page.query.filter (· ≠ []), fragment := none }

theorem pathname_search (page : Url Host) :
    pathname page ++ search page = fromPath (landed page) := by
  unfold pathname search fromPath landed
  cases page.query with
  | none => simp
  | some q =>
    cases q with
    | nil => simp [Option.filter_some]
    | cons c rest => simp [Option.filter_some]

/-- Where a page is, as the script reads it. -/
def here (page : Url Host) : String := String.ofList (pathname page ++ search page)

theorem normal_landed {page : Url Host} (normal : Normal page) : Normal (landed page) :=
  ⟨normal.filled, normal.plain, normal.free⟩

theorem head_here {page : Url Host} (normal : Normal page) :
    (here page).toList.head? = some '/' := by
  obtain ⟨s, rest, path⟩ := List.exists_cons_of_ne_nil normal.filled
  unfold here pathname
  rw [String.toList_ofList, path]
  rfl

/-- The page's own text names it at every site. -/
theorem join_here {page : Url Host} (normal : Normal page)
    (closed : ¬ ∃ t rest, page.path = [] :: t :: rest) (authority : Authority Host)
    (site : Origin Host) :
    join authority site (here page).toList = some (encodedAt site (landed page)) := by
  unfold here
  rw [String.toList_ofList, pathname_search]
  exact join_fromPath (normal_landed normal) closed authority site

/-- What `validate_return_to` makes of it is that text again. -/
theorem validateReturnTo_here [DecidableEq Host] {page : Url Host} (normal : Normal page)
    (closed : ¬ ∃ t rest, page.path = [] :: t :: rest) (web : Web Host) :
    validateReturnTo web (some (here page)) = here page := by
  unfold validateReturnTo
  rw [Option.filter_some, if_pos (decide_eq_true (head_here normal))]
  dsimp only [Option.bind_some]
  rw [join_here normal closed]
  have own : (encodedAt web.site (landed page)).origin = web.site := rfl
  dsimp only
  rw [if_pos own, fromPath_encodedAt, ← pathname_search]
  rfl

/-! ## To the login -/

/-- The query that names a page, as the reader of `/login` finds it. -/
theorem readLoginQuery_here (page : Url Host) :
    readLoginQuery (some (encode inSpecialQuerySet
      ("return_to=".toList ++ encodeComponent (pathname page ++ search page)))) =
      .ok (some (here page)) := by
  let both : Char → Bool := fun c => inComponentSet c || inSpecialQuerySet c
  let value := encode both (pathname page ++ search page)
  have written : encode inSpecialQuerySet
      ("return_to=".toList ++ encodeComponent (pathname page ++ search page)) =
      "return_to".toList ++ '=' :: value := by
    have name : encode inSpecialQuerySet "return_to=".toList = "return_to=".toList := by decide
    show List.flatMap _ ("return_to=".toList ++ _) = _
    rw [List.flatMap_append]
    show encode inSpecialQuerySet "return_to=".toList ++ encode inSpecialQuerySet _ = _
    rw [name, encodeComponent, encode_after stable_inSpecialQuerySet]
    rfl
  have free : '&' ∉ "return_to".toList ++ '=' :: value := by
    intro member
    rcases List.mem_append.mp member with inName | later
    · exact absurd inName (by decide)
    · rcases List.mem_cons.mp later with sign | inValue
      · cases sign
      · have digits : ∀ n < 16, '&' ≠ hexDigit n := by decide
        rcases mem_encode inValue with ⟨_, plain⟩ | percent | ⟨n, small, digit⟩
        · exact absurd plain (by decide)
        · cases percent
        · exact digits n small digit
  have one : split '&' ("return_to".toList ++ '=' :: value) =
      ["return_to".toList ++ '=' :: value] := by
    refine List.splitOnP_eq_singleton ?_
    intro c member
    exact beq_eq_false_iff_ne.mpr (fun same => free (same ▸ member))
  have name : deserialize "return_to".toList = "return_to".toList := by decide +kernel
  have text : deserialize value = pathname page ++ search page := by
    refine deserialize_encode (by decide) (by decide) ?_ _
    intro c past
    show (inComponentSet c || _) = true
    rw [inComponentSet_of_not_ascii past, Bool.true_or]
  have pairs : parse ("return_to".toList ++ '=' :: value) =
      [("return_to".toList, pathname page ++ search page)] := by
    unfold parse
    rw [one, List.filter_cons_of_pos (by simp), List.filter_nil, List.map_singleton]
    unfold readPair
    rw [splitOnce_append value (by decide)]
    dsimp only
    rw [name, text]
  unfold readLoginQuery readQuery
  rw [written, Option.getD_some, pairs]
  simp [visitMap, anyText, given, here]
  rfl

section

variable [DecidableEq Host] (app : AppState Host)
  (readInstant : String → Except String Chrono.DateTime) (carried : Carried)

/-- The 401 sends the page to the login, which is told where it comes from. -/
theorem login_asked (page : Url Host) :
    (ask app.web.authority page.origin .get (signInReference page)).map
        (router readInstant carried app.cfg) =
      some (.call (.login (.ok (some (here page))) carried.nonceBytes)) := by
  let value := "return_to=".toList ++ encodeComponent (pathname page ++ search page)
  have written : Written ["login".toList] :=
    ⟨by simp, by simp, by
      intro s member
      rw [List.mem_singleton.mp member]
      exact bare_literal (by decide)⟩
  have asked : WrittenQuery (some value) := by
    intro q given c member
    obtain rfl := Option.some.inj given
    rcases List.mem_append.mp member with inName | inValue
    · have bare := bare_literal (s := "return_to=".toList) (by decide) c inName
      exact ⟨bare.hash, bare.printed⟩
    · have bare := bare_of_mem_encodeComponent inValue
      exact ⟨bare.hash, bare.printed⟩
  have sent := ask_reference app.web.authority page.origin .get written asked
  have path : removeDots ["login".toList] = ["login".toList] := by decide
  have found : endpoint app.cfg (pathOf ["login".toList]) = some .login := by
    unfold endpoint
    rw [split_pathOf (by simp) (by decide)]
    rfl
  have same : signInReference page = reference ["login".toList] (some value) none := by
    unfold signInReference
    show _ = reference _ (some ("return_to=".toList ++ encodeComponent _)) _
    unfold reference afterPath
    generalize encodeComponent (pathname page ++ search page) = encoded
    simp
  rw [same, sent, path, Option.map_some]
  unfold router
  rw [found]
  show some (Routed.call (.login (readLoginQuery (some _)) _)) = _
  rw [readLoginQuery_here]

/-! ## And back -/

/-- However many callbacks the cookie of a login has seen, one that signs in with it sends the
browser to the page. -/
def FindsAgain (page : Url Host) (start : SignIn) : Prop :=
  ∀ (calls : List CallbackCall) (callback : Request) (query : CallbackQuery)
    (draws : SignInDraws) (server : Server),
    callback.call = .callback (.ok query) draws →
    callback.jar PENDING_COOKIE =
      some (signInAfter app.mac app.cfg.sessionSecret start calls).cookie →
    ∀ reply, (serve app callback server).1 = some reply →
      (∃ cookie ∈ reply.setCookie, cookie.name = SESSION_COOKIE) →
      reply.location = some (here page)

/-- A callback that sets a session's cookie goes where its login asked. -/
theorem location_of_session {callback : Request} {query : CallbackQuery} {draws : SignInDraws}
    {server : Server} {reply : Reply}
    (served : (finishSignIn app callback server query draws).1 = some reply)
    (session : ∃ cookie ∈ reply.setCookie, cookie.name = SESSION_COOKIE) :
    ∃ pending proof, accept app.mac app.cfg.sessionSecret (callback.jar PENDING_COOKIE)
        query.state callback.now = some (.accept pending proof) ∧
      reply.location = some (validateReturnTo app.web pending.returnTo) := by
  obtain ⟨cookie, sets, name⟩ := session
  unfold finishSignIn at served
  split at served
  · obtain rfl := Option.some.inj served
    cases sets
  · unfold authorize at served
    obtain ⟨⟨nonce, value⟩, _, served⟩ := Option.bind_eq_some_iff.mp served
    obtain ⟨url, _, served⟩ := Option.bind_eq_some_iff.mp served
    obtain rfl := Option.some.inj served
    rw [List.mem_singleton.mp sets] at name
    exact absurd (show PENDING_COOKIE = SESSION_COOKIE from name) (by decide)
  · split at served
    · obtain rfl := Option.some.inj served
      cases sets
    · rename_i call pending signed
      obtain ⟨proof, code, user, matched, _⟩ := signInCall_eq_some app callback signed
      split at served
      · obtain rfl := Option.some.inj served
        cases sets
      · obtain rfl := Option.some.inj served
        exact ⟨pending, proof, matched, rfl⟩

theorem findsAgain_of_issued {page : Url Host} (normal : Normal page)
    (closed : ¬ ∃ t rest, page.path = [] :: t :: rest) {bytes : Vector UInt8 24}
    {setAt : Chrono.DateTime} {nonce cookie : String}
    (issued : issue app.mac app.cfg.sessionSecret bytes (some (here page)) setAt =
      some (nonce, cookie)) : FindsAgain app page { nonce, cookie, setAt } := by
  intro calls callback query draws server is carries reply served session
  obtain ⟨pending, remembers, _⟩ := remembers_fresh issued (rfl : nonEmpty _ = _)
  obtain ⟨last, remembers', _⟩ := remembers_after remembers calls
  simp only [serve, is] at served
  obtain ⟨login, proof, accepted, location⟩ := location_of_session app served session
  rw [carries] at accepted
  have same := login_of_accept remembers' (Or.inl ⟨proof, accepted⟩)
  have filled : here page ≠ "" := by
    intro empty
    have slash := head_here normal
    rw [empty] at slash
    cases slash
  rw [location, same]
  show some (validateReturnTo app.web (nonEmpty last.returnTo)) = _
  rw [remembers'.destination, nonEmpty_eq_some_iff.mpr ⟨rfl, filled⟩,
    validateReturnTo_here normal closed]

/-- A page whose request is answered 401 is found again: the browser asks for a login that
knows the page, and whatever callbacks follow, one that signs in with its cookie sends the
browser to the page's own path and query. -/
theorem returns_to_page {page : Url Host} (normal : Normal page)
    (closed : ¬ ∃ t rest, page.path = [] :: t :: rest) :
    (ask app.web.authority page.origin .get (signInReference page)).map
        (router readInstant carried app.cfg) =
      some (.call (.login (.ok (some (here page))) carried.nonceBytes)) ∧
    (∀ (login : Request) (server : Server) (reply : Reply),
      login.call = .login (.ok (some (here page))) carried.nonceBytes →
      (serve app login server).1 = some reply →
      ∃ start : SignIn, reply.setCookie = [pendingCookie start.cookie] ∧
        FindsAgain app page start) ∧
    join app.web.authority page.origin (here page).toList =
      some (encodedAt page.origin (landed page)) := by
  refine ⟨login_asked app readInstant carried page, ?_,
    join_here normal closed app.web.authority page.origin⟩
  intro login server reply is served
  simp only [serve, is, Auth.login, extract, authorize] at served
  obtain ⟨⟨nonce, cookie⟩, issued, served⟩ := Option.bind_eq_some_iff.mp served
  obtain ⟨url, _, served⟩ := Option.bind_eq_some_iff.mp served
  obtain rfl := Option.some.inj served
  exact ⟨{ nonce, cookie, setAt := login.now }, rfl,
    findsAgain_of_issued app normal closed issued⟩

end

/-- A history page with a fragment. -/
def samplePage : Url (List Char) :=
  { origin := ⟨"fleetwatch.example".toList, 443⟩, path := ["history".toList]
    query := some "label=it's%20up".toList, fragment := some "top".toList }

/-- A request that brings nothing but its target. -/
def sampleCarried : Carried :=
  { report := .error ⟨400, ""⟩, newMute := .error ⟨400, ""⟩, newRetirement := .error ⟨400, ""⟩
    events := .error ⟨400, ""⟩, mintedId := "", idBytes := Vector.replicate 32 0
    nonceBytes := Vector.replicate 24 0
    draws :=
      { idBytes := Vector.replicate 32 0, nonceBytes := Vector.replicate 24 0
        redeem := fun _ => none }
    ping := .answered }

theorem returns_to_page_sample :
    here samplePage = "/history?label=it%27s%20up" ∧
      ∃ start, FindsAgain sampleWithNextcloud samplePage start := by
  have parsed : samplePage = ofPath samplePage.origin "history?label=it's%20up#top".toList := rfl
  have normal : Normal samplePage := by
    rw [parsed]
    exact normal_ofPath _ _
  have closed : ¬ ∃ t rest, samplePage.path = [] :: t :: rest := by
    rintro ⟨t, rest, opens⟩
    cases (List.cons.inj opens).2
  obtain ⟨_, logins, _⟩ := returns_to_page sampleWithNextcloud (fun _ => .error "") sampleCarried
    normal closed
  have replied : (serve sampleWithNextcloud (sampleAt 0 false
      (.login (.ok (some (here samplePage))) sampleCarried.nonceBytes)) Server.empty).1.isSome := by
    decide +kernel
  obtain ⟨reply, served⟩ := Option.isSome_iff_exists.mp replied
  obtain ⟨start, _, finds⟩ := logins _ _ reply rfl served
  exact ⟨by decide +kernel, start, finds⟩

end Fleetwatch
