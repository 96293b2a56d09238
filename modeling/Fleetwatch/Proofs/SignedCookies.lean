import Fleetwatch.Proofs.PendingLogin

/-!
# Two cookies under one key

A session cookie signs an id of 64 hexadecimal digits, a login in progress a text with
bars in it. Verifying cuts at the last dot, and a signature holds none, so what a cookie
verifies to is what was signed; and neither text is ever one of the other kind.
-/

namespace Fleetwatch

open Bytes Sql Table Text

section

variable {env : Env} {mac : Hmac} {secret : String}

/-- Two hexadecimal digits for each byte, in either letter case. -/
def Spells (sig : List Char) (bytes : List UInt8) : Prop := sig.map Char.toLower = Hex.encode bytes

/-- A session id: 64 hexadecimal digits. -/
def IsSessionId (value : String) : Prop :=
  value.length = 64 ∧ ∀ c ∈ value.toList, (Hex.value c).isSome = true

/-- What verifies to a value is the value, a dot, and a spelling of its tag. -/
theorem verifyValue_eq_some_iff {signed value : String} :
    verifyValue mac secret signed = some value ↔
      ∃ sig, signed.toList = value.toList ++ '.' :: sig ∧ Spells sig (tag mac secret value.toList) := by
  unfold verifyValue Spells
  simp only [Option.bind_eq_bind, Option.bind_eq_some_iff]
  constructor
  · rintro ⟨⟨text, sig⟩, cut, bytes, read, tagged⟩
    obtain ⟨whole, _⟩ := splitLast_eq_some_iff.mp cut
    dsimp only at read tagged
    split at tagged
    · rename_i own
      obtain rfl := Option.some.inj tagged
      rw [String.toList_ofList]
      exact ⟨sig, whole, own ▸ Hex.decode_eq_some_iff.mp read⟩
    · cases tagged
  · rintro ⟨sig, whole, spelled⟩
    have read := Hex.decode_eq_some_iff.mpr spelled
    have free : '.' ∉ sig := by
      intro member
      have lower : '.' ∈ sig.map Char.toLower := List.mem_map.mpr ⟨'.', member, by decide⟩
      rw [spelled] at lower
      exact dot_not_mem_encode _ lower
    refine ⟨(value.toList, sig), splitLast_eq_some_iff.mpr ⟨whole, free⟩, _, read, ?_⟩
    simp only [if_true, String.ofList_toList]

theorem length_of_spells {sig : List Char} {value : List Char}
    (spelled : Spells sig (tag mac secret value)) : sig.length = 64 := by
  have same := congrArg List.length spelled
  rw [List.length_map, Hex.length_encode] at same
  rw [same]
  unfold tag
  rw [Vector.length_toList]

/-! ## The two texts -/

/-- The id of a session is one. -/
theorem isSessionId_id (call : CreateCall) : IsSessionId call.id := by
  unfold CreateCall.id
  constructor
  · rw [String.length_ofList, Hex.length_encode, Vector.length_toList]
  · intro c member
    rw [String.toList_ofList] at member
    have read := Hex.decode_encode call.idBytes.toList
    obtain ⟨b, _, inByte⟩ := List.mem_flatMap.mp member
    have small := b.toNat_lt
    rcases List.mem_cons.mp inByte with rfl | later
    · rw [Hex.value_digit (by omega)]
      rfl
    · rw [List.mem_singleton.mp later, Hex.value_digit (by omega)]
      rfl

/-- The text of a login in progress is no session id. -/
theorem not_isSessionId_encode (p : PendingLogin) : ¬ IsSessionId p.encode := by
  rintro ⟨_, digits⟩
  have bar : '|' ∈ p.encode.toList := by
    rw [toList_encode]
    exact List.mem_append_right _ List.mem_cons_self
  exact absurd (digits '|' bar) (by decide)

/-- The id of a session is not the text of a login. -/
theorem decode_id (call : CreateCall) : PendingLogin.decode call.id = none := by
  have whole : splitn '|' 4 call.id.toList = [call.id.toList] := by
    unfold CreateCall.id
    rw [String.toList_ofList, splitn, splitOnce_eq_none (bar_not_mem_hex _)]
  unfold PendingLogin.decode
  rw [whole]

/-! ## The two cookies -/

/-- A cookie `create_session` returns signs the id it minted. -/
theorem createSession_eq_ok {call : CreateCall} {table : List SessionRow} {cookie : String}
    (created : (createSession env mac secret call table).1 = .ok cookie) :
    cookie = signValue mac secret call.id := by
  unfold createSession at created
  split at created
  · cases created
  · exact (Except.ok.inj created).symm

/-- A cookie `fresh` returns signs the text of a login. -/
theorem fresh_eq_some {bytes : Vector UInt8 24} {returnTo : Option String} {retried : Bool}
    {now : Chrono.DateTime} {nonce cookie : String}
    (made : fresh mac secret bytes returnTo retried now = some (nonce, cookie)) :
    ∃ pending : PendingLogin, cookie = signValue mac secret pending.encode := by
  obtain ⟨expiresAt, _, result⟩ := Option.bind_eq_some_iff.mp made
  obtain ⟨_, rfl⟩ := Prod.mk.inj (Option.some.inj result)
  exact ⟨_, rfl⟩

/-- What a cookie of `fresh` verifies to is no session id. -/
theorem not_isSessionId_of_fresh {bytes : Vector UInt8 24} {returnTo : Option String}
    {retried : Bool} {now : Chrono.DateTime} {nonce cookie value : String}
    (made : fresh mac secret bytes returnTo retried now = some (nonce, cookie))
    (verified : verifyValue mac secret cookie = some value) : ¬ IsSessionId value := by
  obtain ⟨pending, rfl⟩ := fresh_eq_some made
  rw [verifyValue_signValue] at verified
  obtain rfl := Option.some.inj verified
  exact not_isSessionId_encode pending

end

/-- Signing and verifying under one secret, and the two kinds of cookie it signs. -/
structure SignedInRole (env : Env) (mac : Hmac) (secret : String) : Prop where
  roundTrip : ∀ value, verifyValue mac secret (signValue mac secret value) = some value
  exactly : ∀ signed value, verifyValue mac secret signed = some value ↔
    ∃ sig, signed = value ++ "." ++ String.ofList sig ∧ sig.length = 64 ∧
      Spells sig (tag mac secret value.toList)
  sessionId : ∀ call table cookie, (createSession env mac secret call table).1 = .ok cookie →
    ∃ id, verifyValue mac secret cookie = some id ∧ IsSessionId id
  sessionRefused : ∀ call table cookie, (createSession env mac secret call table).1 = .ok cookie →
    ∀ state now, accept mac secret (some cookie) state now = none
  issueRefused : ∀ bytes returnTo now nonce cookie,
    issue mac secret bytes returnTo now = some (nonce, cookie) →
      ∀ value, verifyValue mac secret cookie = some value → ¬ IsSessionId value
  retryRefused : ∀ bytes pending now nonce cookie,
    retry mac secret bytes pending now = some (nonce, cookie) →
      ∀ value, verifyValue mac secret cookie = some value → ¬ IsSessionId value

/-- Whatever the hash and the secret, a signed value verifies to itself and nothing else
to it, and no cookie of one kind passes for the other. -/
theorem signed_in_role (env : Env) (mac : Hmac) (secret : String) :
    SignedInRole env mac secret where
  roundTrip := verifyValue_signValue mac secret
  exactly := by
    intro signed value
    have joined : ∀ sig : List Char, signed = value ++ "." ++ String.ofList sig ↔
        signed.toList = value.toList ++ '.' :: sig := by
      intro sig
      rw [← String.toList_inj]
      simp
    rw [verifyValue_eq_some_iff]
    refine exists_congr fun sig => ?_
    rw [joined]
    exact and_congr_right fun _ => ⟨fun spelled => ⟨length_of_spells spelled, spelled⟩, And.right⟩
  sessionId := by
    intro call table cookie created
    obtain rfl := createSession_eq_ok created
    exact ⟨call.id, verifyValue_signValue mac secret _, isSessionId_id call⟩
  sessionRefused := by
    intro call table cookie created state now
    obtain rfl := createSession_eq_ok created
    unfold accept
    simp only [Option.bind_eq_bind, Option.bind_some, verifyValue_signValue, decode_id,
      Option.bind_none]
  issueRefused := by
    intro bytes returnTo now nonce cookie made value verified
    exact not_isSessionId_of_fresh made verified
  retryRefused := by
    intro bytes pending now nonce cookie made value verified
    exact not_isSessionId_of_fresh made verified

end Fleetwatch
