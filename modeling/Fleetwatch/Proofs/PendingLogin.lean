import Fleetwatch.PendingLogin
import Fleetwatch.Proofs.Session

/-!
# A login completes with its own state

The cookie carries all there is of a login. What it holds comes apart as it was put
together, whatever the destination holds; so a callback that presents the cookie the server
last set is answered by that cookie's nonce, expiry and retry bit, through every chain of
callbacks.
-/

namespace Fleetwatch

open Bytes Chrono Sql Text

/-! ## The cookie's text -/

theorem fitsI64_timestamp (t : DateTime) : fitsI64 t.timestamp = true := by
  have range := t.inRange
  unfold fitsI64 DateTime.timestamp
  unfold minTimestamp maxTimestamp at range
  rw [Bool.and_eq_true, decide_eq_true_eq, decide_eq_true_eq]
  omega

/-- The separator stands in no number. -/
theorem bar_not_mem_toString (n : Int) : '|' ∉ (toString n).toList := by
  intro member
  rcases isDigit_or_minus member with digit | minus
  · exact absurd digit (by decide)
  · exact absurd minus (by decide)

/-- A bit as it is written. -/
def writeBit (bit : Bool) : List Char := if bit then ['1'] else ['0']

theorem toList_encode (p : PendingLogin) :
    p.encode.toList = (toString p.expiresAt.timestamp).toList ++ '|' :: (p.nonce.toList ++
      '|' :: (writeBit p.retried ++ '|' :: (p.returnTo.getD "").toList)) := by
  have zero : Nat.toDigits 10 0 = ['0'] := by decide
  have one : Nat.toDigits 10 1 = ['1'] := by decide
  unfold PendingLogin.encode writeBit
  cases p.retried <;> simp [toString, zero, one]

theorem readBit_writeBit (bit : Bool) : readBit (writeBit bit) = some bit := by
  cases bit <;> rfl

theorem nonEmpty_eq_some_iff {text : Option String} {s : String} :
    nonEmpty text = some s ↔ text = some s ∧ s ≠ "" := by
  unfold nonEmpty
  rw [Option.filter_eq_some_iff, decide_eq_true_eq]

theorem nonEmpty_of_getD (text : Option String) :
    nonEmpty (some (text.getD "")) = nonEmpty text := by
  cases text with
  | none => rfl
  | some s => rfl

theorem nonEmpty_nonEmpty (text : Option String) : nonEmpty (nonEmpty text) = nonEmpty text := by
  unfold nonEmpty
  rw [Option.filter_filter]
  simp only [Bool.and_self]

/-- What is left of a login in its cookie: the expiry loses the rest of its second, and an
empty destination is none. -/
def PendingLogin.readBack (p : PendingLogin) : PendingLogin :=
  { p with
    expiresAt := p.expiresAt.wholeSecond
    returnTo := nonEmpty p.returnTo }

theorem decode_encode {p : PendingLogin} (free : '|' ∉ p.nonce.toList) :
    PendingLogin.decode p.encode = some p.readBack := by
  have bit : '|' ∉ writeBit p.retried := by
    cases p.retried <;> decide
  have pieces : splitn '|' 4 p.encode.toList = [(toString p.expiresAt.timestamp).toList,
      p.nonce.toList, writeBit p.retried, (p.returnTo.getD "").toList] := by
    rw [toList_encode, splitn_append _ _ (bar_not_mem_toString _), splitn_append _ _ free,
      splitn_append _ _ bit]
    rfl
  unfold PendingLogin.decode
  rw [pieces]
  simp only [parseI64_toString (fitsI64_timestamp _), DateTime.fromTimestamp_timestamp,
    readBit_writeBit, Option.bind_eq_bind, Option.bind_some, String.ofList_toList,
    nonEmpty_of_getD]
  rfl

/-- A login whose text loses nothing is read back as it was. -/
theorem decode_encode_eq_self {p : PendingLogin} (free : '|' ∉ p.nonce.toList)
    (whole : p.expiresAt.nanos % second = 0) (destination : p.returnTo ≠ some "") :
    PendingLogin.decode p.encode = some p := by
  have kept : nonEmpty p.returnTo = p.returnTo := by
    cases found : p.returnTo with
    | none => rfl
    | some path =>
      have filled : path ≠ "" := fun empty => destination (by rw [found, empty])
      exact nonEmpty_eq_some_iff.mpr ⟨rfl, filled⟩
  rw [decode_encode free, PendingLogin.readBack, DateTime.wholeSecond_eq_self whole, kept]

/-! ## One callback -/

theorem check_eq_some_iff {urlState stored : String} :
    (∃ proof, StateMatched.check urlState stored = some proof) ↔
      urlState ≠ "" ∧ urlState = stored := by
  unfold StateMatched.check
  have same : utf8 urlState.toList = utf8 stored.toList ↔ urlState = stored := by
    constructor
    · intro bytes
      exact String.toList_inj.mp (utf8_injective bytes)
    · intro equal
      rw [equal]
  simp only [decide_eq_true_eq, same]
  by_cases matched : urlState ≠ "" ∧ urlState = stored
  · rw [if_pos matched]
    exact iff_of_true ⟨_, rfl⟩ matched
  · rw [if_neg matched]
    exact iff_of_false (by simp) matched

section Calls

variable {mac : Hmac} {secret : String} {returnTo : Option String}

/-- The cookie in hand remembers the login: its nonce, its destination, and an expiry set
when the cookie was. -/
structure Remembers (mac : Hmac) (secret : String) (returnTo : Option String) (held : SignIn)
    (pending : PendingLogin) : Prop where
  cookie : held.cookie = signValue mac secret pending.encode
  nonce : held.nonce = pending.nonce
  free : '|' ∉ pending.nonce.toList
  destination : nonEmpty pending.returnTo = nonEmpty returnTo
  expiry : held.setAt.add TTL = some pending.expiresAt

theorem bar_not_mem_hex (bytes : List UInt8) : '|' ∉ Hex.encode bytes := by
  intro member
  exact absurd (Hex.isAlphanum_of_mem_encode member) (by decide)

/-- What `fresh` returns remembers the login it is given. -/
theorem remembers_fresh {bytes : Vector UInt8 24} {destination : Option String} {retried : Bool}
    {now : DateTime} {nonce cookie : String}
    (made : fresh mac secret bytes destination retried now = some (nonce, cookie))
    (same : nonEmpty destination = nonEmpty returnTo) :
    ∃ pending, Remembers mac secret returnTo { nonce, cookie, setAt := now } pending ∧
      pending.retried = retried := by
  unfold fresh at made
  obtain ⟨expiresAt, added, result⟩ := Option.bind_eq_some_iff.mp made
  obtain ⟨rfl, rfl⟩ := Prod.mk.inj (Option.some.inj result)
  refine ⟨_, ⟨rfl, rfl, ?_, same, added⟩, rfl⟩
  rw [String.toList_ofList]
  exact bar_not_mem_hex _

/-- When a cookie set at the instant expires. -/
def expiry (setAt : DateTime) : Int := (setAt.nanos + TTL) / second * second

variable {held : SignIn} {pending : PendingLogin}
  (remembers : Remembers mac secret returnTo held pending)

include remembers

/-- What `accept` makes of the cookie in hand. -/
theorem accept_held (state : Option String) (now : DateTime) :
    accept mac secret (some held.cookie) state now =
      if expiry held.setAt < now.nanos then none
      else
        match nonEmpty state with
        | some s => (StateMatched.check s held.nonce).map (Callback.accept pending.readBack)
        | none => if pending.retried then none else some (.retry pending.readBack) := by
  have expires : pending.readBack.expiresAt.nanos = expiry held.setAt := by
    show pending.expiresAt.nanos / second * second = _
    rw [DateTime.nanos_of_add remembers.expiry]
    rfl
  unfold accept
  rw [remembers.cookie, remembers.nonce]
  simp only [Option.bind_eq_bind, Option.bind_some, verifyValue_signValue,
    decode_encode remembers.free, expires]
  rfl

/-- Past its expiry the cookie opens nothing. -/
theorem accept_of_late {state : Option String} {now : DateTime}
    (late : expiry held.setAt < now.nanos) :
    accept mac secret (some held.cookie) state now = none := by
  rw [accept_held remembers, if_pos late]

/-- A state is compared with the cookie's own nonce. -/
theorem accept_of_state {state : Option String} {s : String} {now : DateTime}
    (inTime : ¬ expiry held.setAt < now.nanos) (present : nonEmpty state = some s) :
    accept mac secret (some held.cookie) state now =
      (StateMatched.check s held.nonce).map (Callback.accept pending.readBack) := by
  rw [accept_held remembers, if_neg inTime, present]

/-- A missing state is no proof of anything. -/
theorem accept_of_missing {state : Option String} {now : DateTime}
    (inTime : ¬ expiry held.setAt < now.nanos) (missing : nonEmpty state = none) :
    accept mac secret (some held.cookie) state now =
      if pending.retried then none else some (.retry pending.readBack) := by
  rw [accept_held remembers, if_neg inTime, missing]

/-- A callback is accepted exactly with the cookie's own nonce, in time. -/
theorem accept_iff (state : Option String) (now : DateTime) :
    (∃ login proof, accept mac secret (some held.cookie) state now = some (.accept login proof)) ↔
      (∃ s, state = some s ∧ s ≠ "" ∧ s = held.nonce) ∧ now.nanos ≤ expiry held.setAt := by
  by_cases late : expiry held.setAt < now.nanos
  · rw [accept_of_late remembers late]
    exact iff_of_false (by simp) (fun both => absurd both.2 (not_le.mpr late))
  · rw [and_iff_left (not_lt.mp late)]
    cases present : nonEmpty state with
    | none =>
      rw [accept_of_missing remembers late present]
      constructor
      · rintro ⟨login, proof, found⟩
        split at found <;> cases found
      · rintro ⟨s, rfl, filled, _⟩
        rw [nonEmpty_eq_some_iff.mpr ⟨rfl, filled⟩] at present
        cases present
    | some s =>
      obtain ⟨rfl, filled⟩ := nonEmpty_eq_some_iff.mp present
      rw [accept_of_state remembers late present]
      constructor
      · rintro ⟨login, proof, found⟩
        obtain ⟨matched, checked, _⟩ := Option.map_eq_some_iff.mp found
        exact ⟨s, rfl, check_eq_some_iff.mp ⟨matched, checked⟩⟩
      · rintro ⟨s', same, _, own⟩
        obtain rfl := Option.some.inj same
        obtain ⟨matched, checked⟩ := check_eq_some_iff.mpr ⟨filled, own⟩
        exact ⟨pending.readBack, matched, by rw [checked, Option.map_some]⟩

/-- Either way what it carries on with is the login the cookie remembers. -/
theorem login_of_accept {state : Option String} {now : DateTime} {login : PendingLogin}
    (found : (∃ proof, accept mac secret (some held.cookie) state now =
        some (.accept login proof)) ∨
      accept mac secret (some held.cookie) state now = some (.retry login)) :
    login = pending.readBack := by
  rw [accept_held remembers] at found
  split at found
  · rcases found with ⟨_, found⟩ | found <;> cases found
  · split at found
    · rcases found with ⟨_, found⟩ | found
      · obtain ⟨_, _, same⟩ := Option.map_eq_some_iff.mp found
        cases same
        rfl
      · obtain ⟨_, _, same⟩ := Option.map_eq_some_iff.mp found
        cases same
    · split at found
      · rcases found with ⟨_, found⟩ | found <;> cases found
      · rcases found with ⟨_, found⟩ | found
        · cases found
        · cases found
          rfl

/-- A login that was retried is not retried again. -/
theorem retry_once {state : Option String} {now : DateTime} {login : PendingLogin}
    (found : accept mac secret (some held.cookie) state now = some (.retry login)) :
    pending.retried = false ∧ nonEmpty state = none := by
  by_cases late : expiry held.setAt < now.nanos
  · rw [accept_of_late remembers late] at found
    cases found
  · cases present : nonEmpty state with
    | some s =>
      rw [accept_of_state remembers late present] at found
      obtain ⟨_, _, same⟩ := Option.map_eq_some_iff.mp found
      cases same
    | none =>
      rw [accept_of_missing remembers late present] at found
      cases bit : pending.retried with
      | false => exact ⟨rfl, rfl⟩
      | true =>
        rw [bit] at found
        cases found

/-! ## A chain of callbacks -/

/-- One callback leaves the browser with a cookie that remembers the login; it is sent to
authorize again only if it was not before. -/
theorem remembers_step (call : CallbackCall) :
    ∃ pending', Remembers mac secret returnTo (signInStep mac secret held call) pending' ∧
      ((answer mac secret held call).isRetry = true ∧ pending.retried = false ∧
          pending'.retried = true ∨
        (answer mac secret held call).isRetry = false ∧ pending'.retried = pending.retried) := by
  unfold signInStep answer
  cases answered : accept mac secret (some held.cookie) call.state call.now with
  | none => exact ⟨pending, remembers, Or.inr ⟨rfl, rfl⟩⟩
  | some outcome =>
    cases outcome with
    | accept login proof => exact ⟨pending, remembers, Or.inr ⟨rfl, rfl⟩⟩
    | retry login =>
      obtain ⟨first, _⟩ := retry_once remembers answered
      have login_eq := login_of_accept remembers (Or.inr answered)
      cases made : retry mac secret call.bytes login call.later with
      | none => exact ⟨pending, by simpa [made] using remembers, by simp [made, Answer.isRetry]⟩
      | some set =>
        obtain ⟨nonce, cookie⟩ := set
        have same : nonEmpty login.returnTo = nonEmpty returnTo := by
          rw [login_eq, PendingLogin.readBack, nonEmpty_nonEmpty, remembers.destination]
        obtain ⟨pending', remembers', bit⟩ := remembers_fresh made same
        exact ⟨pending', by simpa [made] using remembers', by simp [made, Answer.isRetry, first, bit]⟩

/-- So does a chain of them; the cookie's bit counts the retries. -/
theorem remembers_after (calls : List CallbackCall) :
    ∃ pending', Remembers mac secret returnTo (signInAfter mac secret held calls) pending' ∧
      ((answers mac secret held calls).filter Answer.isRetry).length + pending.retried.toNat =
        pending'.retried.toNat := by
  induction calls generalizing held pending with
  | nil => exact ⟨pending, remembers, by simp [answers]⟩
  | cons call calls ih =>
    obtain ⟨middle, remembers', bit⟩ := remembers_step remembers call
    obtain ⟨last, remembers'', counted⟩ := ih remembers'
    refine ⟨last, remembers'', ?_⟩
    rw [answers]
    rcases bit with ⟨again, first, second⟩ | ⟨other, same⟩
    · rw [List.filter_cons_of_pos again, List.length_cons, first, ← counted, second]
      simp
    · rw [List.filter_cons_of_neg (by simp [other]), ← counted, same]

end Calls

/-! ## The law -/

/-- What the server does with the cookie it last set. -/
structure LoginLaw (mac : Hmac) (secret : String) (returnTo : Option String) (held : SignIn) :
    Prop where
  accepted : ∀ state now,
    (∃ login proof, accept mac secret (some held.cookie) state now = some (.accept login proof)) ↔
      (∃ s, state = some s ∧ s ≠ "" ∧ s = held.nonce) ∧ now.nanos ≤ expiry held.setAt
  unproven : ∀ state now, nonEmpty state = none → ∀ login proof,
    accept mac secret (some held.cookie) state now ≠ some (.accept login proof)
  missed : ∀ state now login,
    accept mac secret (some held.cookie) state now = some (.retry login) → nonEmpty state = none
  delivered : ∀ state now login proof,
    accept mac secret (some held.cookie) state now = some (.accept login proof) →
      login.returnTo = nonEmpty returnTo

theorem loginLaw_of_remembers {mac : Hmac} {secret : String} {returnTo : Option String}
    {held : SignIn} {pending : PendingLogin}
    (remembers : Remembers mac secret returnTo held pending) :
    LoginLaw mac secret returnTo held where
  accepted := accept_iff remembers
  unproven := by
    intro state now missing login proof found
    obtain ⟨⟨s, given, filled, _⟩, _⟩ := (accept_iff remembers state now).mp ⟨login, proof, found⟩
    rw [nonEmpty_eq_some_iff.mpr ⟨given, filled⟩] at missing
    cases missing
  missed := by
    intro state now login found
    exact (retry_once remembers found).2
  delivered := by
    intro state now login proof found
    rw [login_of_accept remembers (Or.inl ⟨proof, found⟩)]
    exact remembers.destination

/-- A login's text loses nothing that it should keep; and through every chain of callbacks
that present the cookie last set, a callback is accepted exactly with that cookie's nonce
and in time, a missing state is at most once sent to authorize again, and the destination
is the one the login started with. -/
theorem login_law (mac : Hmac) (secret : String) :
    (∀ p : PendingLogin, '|' ∉ p.nonce.toList → p.expiresAt.nanos % second = 0 →
      p.returnTo ≠ some "" → PendingLogin.decode p.encode = some p) ∧
    ∀ bytes returnTo setAt nonce cookie,
      issue mac secret bytes returnTo setAt = some (nonce, cookie) → ∀ calls,
        LoginLaw mac secret returnTo (signInAfter mac secret { nonce, cookie, setAt } calls) ∧
        ((answers mac secret { nonce, cookie, setAt } calls).filter Answer.isRetry).length ≤ 1 := by
  refine ⟨fun p free whole destination => decode_encode_eq_self free whole destination, ?_⟩
  intro bytes returnTo setAt nonce cookie issued calls
  obtain ⟨pending, remembers, bit⟩ := remembers_fresh issued (rfl : nonEmpty returnTo = _)
  obtain ⟨pending', remembers', counted⟩ := remembers_after remembers calls
  refine ⟨loginLaw_of_remembers remembers', ?_⟩
  rw [bit] at counted
  have atMostOne : pending'.retried.toNat ≤ 1 := Bool.toNat_le _
  simpa [← counted] using atMostOne

/-- The epoch, and the last instant of a login that starts then. -/
def epoch : DateTime := { nanos := 0, inRange := by decide }
def justInside : DateTime := { nanos := 600 * second, inRange := by decide }

/-- A login whose destination holds the separator. -/
def sampleSignIn : SignIn :=
  let pending : PendingLogin :=
    { nonce := String.ofList (Hex.encode (List.replicate 24 0))
      returnTo := some "/x?q=a|b"
      expiresAt := justInside
      retried := false }
  { nonce := pending.nonce
    cookie := signValue constantMac "secret" pending.encode
    setAt := epoch }

theorem login_law_justInside :
    ∃ login proof, accept constantMac "secret" (some sampleSignIn.cookie)
      (some sampleSignIn.nonce) justInside = some (.accept login proof) := by
  have issued : issue constantMac "secret" (Vector.replicate 24 0) (some "/x?q=a|b") epoch =
      some (sampleSignIn.nonce, sampleSignIn.cookie) := rfl
  have law := ((login_law constantMac "secret").2 _ _ _ _ _ issued []).1
  exact (law.accepted (some sampleSignIn.nonce) justInside).mpr
    ⟨⟨sampleSignIn.nonce, rfl, by decide, rfl⟩, by decide⟩

end Fleetwatch
