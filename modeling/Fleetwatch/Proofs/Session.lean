import Fleetwatch.Session

/-!
# How long a session lives

Three paths delete rows of `sessions`: a sweep by the database's clock, a lookup by the
server's, and a logout. Both clocks only take rows that are past their expiry already, so
under a clock that does not run backwards a session ends when its expiry passes or its
cookie logs out, and in no other way.
-/

namespace Fleetwatch

open Bytes Sql Table Text

/-! ## Signed values -/

theorem dot_not_mem_encode (bytes : List UInt8) : '.' ∉ Hex.encode bytes := by
  intro member
  exact absurd (Hex.isAlphanum_of_mem_encode member) (by decide)

/-- A signed value verifies to itself. -/
theorem verifyValue_signValue (mac : Hmac) (secret value : String) :
    verifyValue mac secret (signValue mac secret value) = some value := by
  unfold verifyValue signValue
  rw [String.toList_ofList, splitLast_append _ (dot_not_mem_encode _)]
  simp only [Option.bind_eq_bind, Option.bind_some, Hex.decode_encode, if_true,
    String.ofList_toList]

section

variable {env : Env} {mac : Hmac} {secret : String}

/-! ## One call -/

/-- What `create_session` asks of a call. -/
structure Creatable (env : Env) (call : CreateCall) (table : List SessionRow) : Prop where
  userId : fitsChars USER_ID_WIDTH call.user.userId = true
  displayName : fitsChars DISPLAY_NAME_WIDTH call.user.displayName = true
  expiresAt : isDatetime call.row.expiresAt = true
  fresh : clashes (SessionRow.key env) call.row table = false

theorem insertSession_eq_ok {call : CreateCall} {table out : List SessionRow} :
    insertSession env call.row table = .ok out ↔
      Creatable env call table ∧ out = table ++ [call.row] := by
  unfold insertSession
  cases clash : clashes (SessionRow.key env) call.row table with
  | true =>
    simp only [bind_eq_ok, requireFit_eq_ok, requireDatetime_eq_ok, if_true, exists_const]
    refine iff_of_false ?_ (fun both => Bool.true_eq_false ▸ (clash.symm.trans both.1.fresh))
    rintro ⟨_, _, _, _, failed, _⟩
    cases failed
  | false =>
    simp only [bind_eq_ok, requireFit_eq_ok, requireDatetime_eq_ok, Bool.false_eq_true, if_false,
      exists_const, pure, Except.pure, Except.ok.injEq]
    constructor
    · rintro ⟨userId, displayName, expiresAt, _, _, rfl⟩
      exact ⟨⟨userId, displayName, expiresAt, clash⟩, rfl⟩
    · rintro ⟨creatable, rfl⟩
      exact ⟨creatable.userId, creatable.displayName, creatable.expiresAt, rfl⟩

theorem createSession_of_creatable {call : CreateCall} {table : List SessionRow}
    (creatable : Creatable env call table) :
    createSession env mac secret call table =
      (.ok (signValue mac secret call.id), table ++ [call.row]) := by
  unfold createSession
  rw [insertSession_eq_ok.mpr ⟨creatable, rfl⟩]

theorem createSession_of_not_creatable {call : CreateCall} {table : List SessionRow}
    (refused : ¬ Creatable env call table) :
    ∃ err, createSession env mac secret call table = (.error err, table) := by
  unfold createSession
  cases inserted : insertSession env call.row table with
  | error err => exact ⟨err, rfl⟩
  | ok out => exact absurd (insertSession_eq_ok.mp inserted).1 refused

/-- The call returned a cookie. -/
def Created (env : Env) (mac : Hmac) (secret : String) (call : CreateCall)
    (table : List SessionRow) : Prop :=
  (createSession env mac secret call table).1 = .ok (signValue mac secret call.id)

theorem created_iff {call : CreateCall} {table : List SessionRow} :
    Created env mac secret call table ↔ Creatable env call table := by
  unfold Created
  by_cases creatable : Creatable env call table
  · rw [createSession_of_creatable creatable]
    exact iff_of_true rfl creatable
  · obtain ⟨err, failed⟩ : ∃ err, createSession env mac secret call table = (.error err, table) :=
      createSession_of_not_creatable creatable
    rw [failed]
    exact iff_of_false (by simp) creatable

/-- The cookie verifies to a string the id column takes for the id. -/
def Presents (env : Env) (mac : Hmac) (secret signed id : String) : Prop :=
  ∃ value, verifyValue mac secret signed = some value ∧ env.weight value = env.weight id

section Lookup

variable {signed : String} {now : Int} {table : List SessionRow}

theorem getSession_of_unverified (unverified : verifyValue mac secret signed = none) :
    getSession env mac secret signed now table = (none, table) := by
  unfold getSession
  rw [unverified]

variable {value : String} (verified : verifyValue mac secret signed = some value)

include verified

theorem getSession_of_absent
    (absent : table.find? (fun row => row.key env = env.weight value) = none) :
    getSession env mac secret signed now table = (none, table) := by
  unfold getSession
  simp only [verified, absent]

variable {row : SessionRow}
  (found : table.find? (fun row => row.key env = env.weight value) = some row)

include found

theorem getSession_of_expired (expired : row.expiresAt < now) :
    getSession env mac secret signed now table = (none, deleteSession env value table) := by
  unfold getSession
  simp only [verified, found, expired, if_true]

theorem getSession_of_live (live : ¬ row.expiresAt < now) :
    getSession env mac secret signed now table = (some row.user, table) := by
  unfold getSession
  simp only [verified, found, live, if_false]

end Lookup

/-- A lookup deletes only rows under its cookie's id, and only when one of them is
expired. -/
theorem getSession_after (signed : String) (now : Int) (table : List SessionRow) :
    (getSession env mac secret signed now table).2 = table ∨
      ∃ value, ∃ row ∈ table, row.key env = env.weight value ∧ row.expiresAt < now ∧
        (getSession env mac secret signed now table).2 = deleteSession env value table := by
  cases verified : verifyValue mac secret signed with
  | none => exact Or.inl (by rw [getSession_of_unverified verified])
  | some value =>
    cases found : table.find? (fun row => row.key env = env.weight value) with
    | none => exact Or.inl (by rw [getSession_of_absent verified found])
    | some row =>
      have same : row.key env = env.weight value := by simpa using List.find?_some found
      by_cases expired : row.expiresAt < now
      · refine Or.inr ⟨value, row, List.mem_of_find?_eq_some found, same, expired, ?_⟩
        rw [getSession_of_expired verified found expired]
      · exact Or.inl (by rw [getSession_of_live verified found expired])

theorem mem_deleteSession {value : String} {table : List SessionRow} {row : SessionRow} :
    row ∈ deleteSession env value table ↔ row ∈ table ∧ row.key env ≠ env.weight value := by
  unfold deleteSession deleteWhere
  rw [List.mem_filter, Bool.not_eq_true', decide_eq_false_iff_not]

/-- What a lookup answers: the user of the unexpired row under its cookie's id. -/
theorem getSession_eq_some_iff {table : List SessionRow}
    (keyed : Keyed (SessionRow.key env) table) {signed : String} {now : Int} {user : UserSession} :
    (getSession env mac secret signed now table).1 = some user ↔
      ∃ row ∈ table, Presents env mac secret signed row.id ∧ now ≤ row.expiresAt ∧
        row.user = user := by
  unfold Presents
  cases verified : verifyValue mac secret signed with
  | none =>
    rw [getSession_of_unverified verified]
    simp
  | some value =>
    cases found : table.find? (fun row => row.key env = env.weight value) with
    | none =>
      rw [getSession_of_absent verified found]
      refine iff_of_false (by simp) ?_
      rintro ⟨row, stored, ⟨value', same, key⟩, _, _⟩
      obtain rfl := Option.some.inj same
      have absent := List.find?_eq_none.mp found row stored
      exact absent (decide_eq_true key.symm)
    | some row =>
      have same : row.key env = env.weight value := by simpa using List.find?_some found
      have stored := List.mem_of_find?_eq_some found
      have only : ∀ other ∈ table, env.weight value = env.weight other.id → other = row := by
        intro other member key
        exact keyed.eq_of_key_eq member stored (key.symm.trans same.symm)
      by_cases expired : row.expiresAt < now
      · rw [getSession_of_expired verified found expired]
        refine iff_of_false (by simp) ?_
        rintro ⟨other, member, ⟨value', verified', key⟩, unexpired, _⟩
        obtain rfl := Option.some.inj verified'
        rw [only other member key] at unexpired
        exact absurd expired (not_lt.mpr unexpired)
      · rw [getSession_of_live verified found expired, Option.some.injEq]
        constructor
        · intro user
          exact ⟨row, stored, ⟨value, rfl, same.symm⟩, not_lt.mp expired, user⟩
        · rintro ⟨other, member, ⟨value', verified', key⟩, _, user⟩
          obtain rfl := Option.some.inj verified'
          rw [← only other member key]
          exact user

/-! ## A run of calls -/

theorem keyed_sessionStep {table : List SessionRow} (keyed : Keyed (SessionRow.key env) table)
    (op : SessionOp) : Keyed (SessionRow.key env) (sessionStep env mac secret table op) := by
  cases op with
  | create call =>
    by_cases creatable : Creatable env call table
    · rw [sessionStep, createSession_of_creatable creatable]
      exact keyed.append creatable.fresh
    · obtain ⟨err, failed⟩ : ∃ err, createSession env mac secret call table = (.error err, table) :=
        createSession_of_not_creatable creatable
      rw [sessionStep, failed]
      exact keyed
  | get signed now =>
    rw [sessionStep]
    rcases getSession_after signed now table with same | ⟨_, _, _, _, _, after⟩
    · rw [same]
      exact keyed
    · rw [after]
      exact keyed.deleteWhere _
  | destroy signed now =>
    rw [sessionStep, destroySession]
    split
    · exact keyed
    · exact keyed.deleteWhere _
  | sweep now => exact keyed.deleteWhere _

theorem keyed_sessionsAfter (ops : List SessionOp) :
    Keyed (SessionRow.key env) (sessionsAfter env mac secret ops) :=
  Run.run_invariant (Keyed (SessionRow.key env)) (fun _ op _ keyed => keyed_sessionStep keyed op)
    ops [] (fun _ _ => trivial) List.nodup_nil

/-- The call is a logout with a cookie for the id. -/
def SessionOp.destroys (env : Env) (mac : Hmac) (secret id : String) : SessionOp → Prop
  | .destroy signed _ => Presents env mac secret signed id
  | _ => False

/-- The run created the call's session, and nobody logged out of it since. -/
def Kept (env : Env) (mac : Hmac) (secret : String) (ops : List SessionOp) (call : CreateCall) :
    Prop :=
  ∃ before after, ops = before ++ .create call :: after ∧
    Created env mac secret call (sessionsAfter env mac secret before) ∧
    ∀ op ∈ after, ¬ op.destroys env mac secret call.id

/-- One more call keeps a session unless it logs out of it, and may be the one that
created it. -/
theorem kept_append_singleton {ops : List SessionOp} {op : SessionOp} {call : CreateCall} :
    Kept env mac secret (ops ++ [op]) call ↔
      (Kept env mac secret ops call ∧ ¬ op.destroys env mac secret call.id) ∨
        (op = .create call ∧ Created env mac secret call (sessionsAfter env mac secret ops)) := by
  constructor
  · rintro ⟨before, after, split, created, kept⟩
    rcases List.eq_nil_or_concat after with rfl | ⟨after', last, rfl⟩
    · obtain ⟨rfl, lastIs⟩ := List.append_inj' split rfl
      exact Or.inr ⟨List.head_eq_of_cons_eq lastIs, created⟩
    · rw [List.concat_eq_append] at split kept
      rw [← List.cons_append, ← List.append_assoc] at split
      obtain ⟨rfl, lastIs⟩ := List.append_inj' split rfl
      obtain rfl := List.head_eq_of_cons_eq lastIs
      refine Or.inl ⟨⟨before, after', rfl, created, ?_⟩, kept op (by simp)⟩
      intro other member
      exact kept other (List.mem_append_left _ member)
  · rintro (⟨⟨before, after, rfl, created, kept⟩, keeps⟩ | ⟨rfl, created⟩)
    · refine ⟨before, after ++ [op], by simp, created, ?_⟩
      intro other member
      rcases List.mem_append.mp member with earlier | last
      · exact kept other earlier
      · rw [List.mem_singleton.mp last]
        exact keeps
    · exact ⟨ops, [], rfl, created, by simp⟩

theorem sessionsAfter_append_singleton (ops : List SessionOp) (op : SessionOp) :
    sessionsAfter env mac secret (ops ++ [op]) =
      sessionStep env mac secret (sessionsAfter env mac secret ops) op :=
  Run.run_append _ _ _ _

/-- A lookup or a sweep takes no row that is unexpired later on. -/
theorem stays_of_unexpired {table : List SessionRow} (keyed : Keyed (SessionRow.key env) table)
    {row : SessionRow} {t : Int} (unexpired : t ≤ row.expiresAt) {op : SessionOp}
    (earlier : op.now ≤ t) (lookup : ∀ call, op ≠ .create call)
    (keeps : ¬ op.destroys env mac secret row.id) :
    row ∈ sessionStep env mac secret table op ↔ row ∈ table := by
  cases op with
  | create call => exact absurd rfl (lookup call)
  | get signed now =>
    rw [sessionStep]
    have after : (getSession env mac secret signed now table).2 = table ∨ _ :=
      getSession_after signed now table
    rcases after with same | ⟨value, found, stored, key, expired, after⟩
    · rw [same]
    · rw [after, mem_deleteSession]
      refine and_iff_left_of_imp ?_
      intro member same
      obtain rfl := keyed.eq_of_key_eq member stored (same.trans key.symm)
      exact absurd (lt_of_lt_of_le expired earlier) (not_lt.mpr unexpired)
  | destroy signed now =>
    rw [sessionStep, destroySession]
    cases verified : verifyValue mac secret signed with
    | none => exact Iff.rfl
    | some value =>
      refine mem_deleteSession.trans (and_iff_left_of_imp ?_)
      intro _ same
      exact keeps ⟨value, verified, same.symm⟩
  | sweep now =>
    rw [sessionStep, sweepExpired, deleteWhere, List.mem_filter, Bool.not_eq_true',
      decide_eq_false_iff_not]
    refine and_iff_left_of_imp ?_
    intro _ expired
    have past := lt_of_lt_of_le expired ((datetime0_le now).trans earlier)
    exact absurd past (not_lt.mpr unexpired)

theorem mem_create {table : List SessionRow} {row : SessionRow} (call : CreateCall) :
    row ∈ sessionStep env mac secret table (.create call) ↔
      row ∈ table ∨ Creatable env call table ∧ call.row = row := by
  rw [sessionStep]
  by_cases creatable : Creatable env call table
  · rw [createSession_of_creatable creatable, List.mem_append, List.mem_singleton,
      and_iff_right creatable, eq_comm]
  · obtain ⟨err, failed⟩ : ∃ err, createSession env mac secret call table = (.error err, table) :=
      createSession_of_not_creatable creatable
    rw [failed]
    exact (or_iff_left (fun both => creatable both.1)).symm

/-- Every call but a creation only takes rows away. -/
theorem mem_of_mem_sessionStep {table : List SessionRow} {row : SessionRow} {op : SessionOp}
    (stored : row ∈ sessionStep env mac secret table op) :
    row ∈ table ∨ ∃ call, op = .create call ∧ call.row = row := by
  cases op with
  | create call =>
    rcases (mem_create call).mp stored with before | ⟨_, made⟩
    · exact Or.inl before
    · exact Or.inr ⟨call, rfl, made⟩
  | get signed now =>
    rw [sessionStep] at stored
    rcases getSession_after signed now table with same | ⟨_, _, _, _, _, after⟩
    · rw [same] at stored
      exact Or.inl stored
    · rw [after] at stored
      exact Or.inl (mem_deleteSession.mp stored).1
  | destroy signed now =>
    rw [sessionStep, destroySession] at stored
    split at stored
    · exact Or.inl stored
    · exact Or.inl (mem_deleteSession.mp stored).1
  | sweep now => exact Or.inl (List.mem_of_mem_filter stored)

/-- Every row of the table is that of a call that created it. -/
theorem created_of_mem {ops : List SessionOp} {row : SessionRow}
    (stored : row ∈ sessionsAfter env mac secret ops) :
    ∃ call, .create call ∈ ops ∧ call.row = row := by
  refine Run.run_invariant
    (fun table => ∀ row ∈ table, ∃ call, SessionOp.create call ∈ ops ∧ call.row = row) ?_ ops []
    (fun op member => member) (fun row member => absurd member List.not_mem_nil) row stored
  intro table op member before row stored
  rcases mem_of_mem_sessionStep stored with old | ⟨call, rfl, made⟩
  · exact before row old
  · exact ⟨call, member, made⟩

/-- A logout leaves no row under its cookie's id. -/
theorem not_mem_of_destroys {table : List SessionRow} {row : SessionRow} {op : SessionOp}
    (destroys : op.destroys env mac secret row.id) :
    row ∉ sessionStep env mac secret table op := by
  cases op with
  | destroy signed now =>
    obtain ⟨value, verified, same⟩ := destroys
    rw [sessionStep, destroySession, verified]
    intro member
    exact (mem_deleteSession.mp member).2 same.symm
  | create _ => exact absurd destroys id
  | get _ _ => exact absurd destroys id
  | sweep _ => exact absurd destroys id

/-- After one call the unexpired rows are those it did not log out of, and the one it
created. -/
theorem mem_sessionStep_iff {table : List SessionRow} (keyed : Keyed (SessionRow.key env) table)
    {row : SessionRow} {t : Int} (unexpired : t ≤ row.expiresAt) {op : SessionOp}
    (earlier : op.now ≤ t) :
    row ∈ sessionStep env mac secret table op ↔
      (row ∈ table ∧ ¬ op.destroys env mac secret row.id) ∨
        ∃ call, op = .create call ∧ Creatable env call table ∧ call.row = row := by
  by_cases creates : ∃ call, op = .create call
  · obtain ⟨call, rfl⟩ := creates
    rw [mem_create]
    constructor
    · rintro (stays | ⟨creatable, rowIs⟩)
      · exact Or.inl ⟨stays, fun impossible => impossible⟩
      · exact Or.inr ⟨call, rfl, creatable, rowIs⟩
    · rintro (⟨stays, _⟩ | ⟨call', same, creatable, rowIs⟩)
      · exact Or.inl stays
      · obtain rfl := SessionOp.create.inj same
        exact Or.inr ⟨creatable, rowIs⟩
  · have notCreate : ∀ call, op ≠ .create call := fun call same => creates ⟨call, same⟩
    rw [or_iff_left (fun created => notCreate _ created.choose_spec.1)]
    by_cases destroys : op.destroys env mac secret row.id
    · exact iff_of_false (not_mem_of_destroys destroys) (fun both => both.2 destroys)
    · rw [stays_of_unexpired keyed unexpired earlier notCreate destroys, and_iff_left destroys]

/-- The unexpired rows of the table are those of the sessions kept. -/
theorem mem_sessionsAfter_iff {ops : List SessionOp} {t : Int}
    (since : ∀ op ∈ ops, op.now ≤ t) {row : SessionRow} (unexpired : t ≤ row.expiresAt) :
    row ∈ sessionsAfter env mac secret ops ↔
      ∃ call, Kept env mac secret ops call ∧ call.row = row := by
  induction ops using List.reverseRecOn with
  | nil =>
    refine iff_of_false List.not_mem_nil ?_
    rintro ⟨call, ⟨before, after, split, _⟩, _⟩
    exact absurd split (by simp)
  | append_singleton earlier op ih =>
    have before := ih (fun other member => since other (List.mem_append_left _ member))
    have keyed : Keyed (SessionRow.key env) (sessionsAfter env mac secret earlier) :=
      keyed_sessionsAfter earlier
    rw [sessionsAfter_append_singleton, mem_sessionStep_iff keyed unexpired (since op (by simp)),
      before]
    simp only [kept_append_singleton]
    constructor
    · rintro (⟨⟨call, kept, rfl⟩, keeps⟩ | ⟨call, rfl, creatable, rfl⟩)
      · exact ⟨call, Or.inl ⟨kept, keeps⟩, rfl⟩
      · exact ⟨call, Or.inr ⟨rfl, created_iff.mpr creatable⟩, rfl⟩
    · rintro ⟨call, ⟨kept, keeps⟩ | ⟨rfl, created⟩, rfl⟩
      · exact Or.inl ⟨⟨call, kept, rfl⟩, keeps⟩
      · exact Or.inr ⟨call, rfl, created_iff.mp created, rfl⟩

/-! ## The law -/

/-- What a lookup answers after a run, when no call of the run was made later. -/
theorem getSession_answer_iff {ops : List SessionOp} {t : Int} (since : ∀ op ∈ ops, op.now ≤ t)
    (signed : String) (user : UserSession) :
    (getSession env mac secret signed t (sessionsAfter env mac secret ops)).1 = some user ↔
      ∃ call, Kept env mac secret ops call ∧ call.user = user ∧
        Presents env mac secret signed call.id ∧ t ≤ call.row.expiresAt := by
  rw [getSession_eq_some_iff (keyed_sessionsAfter ops)]
  constructor
  · rintro ⟨row, stored, presents, unexpired, rfl⟩
    obtain ⟨call, kept, rfl⟩ := (mem_sessionsAfter_iff since unexpired).mp stored
    exact ⟨call, kept, rfl, presents, unexpired⟩
  · rintro ⟨call, kept, rfl, presents, unexpired⟩
    exact ⟨call.row, (mem_sessionsAfter_iff since unexpired).mpr ⟨call, kept, rfl⟩, presents,
      unexpired, rfl⟩

/-- How long sessions live, at an instant after a run. -/
structure SessionLaw (env : Env) (mac : Hmac) (secret : String) (ops : List SessionOp) (t : Int) :
    Prop where
  answer : ∀ signed user,
    (getSession env mac secret signed t (sessionsAfter env mac secret ops)).1 = some user ↔
      ∃ call, Kept env mac secret ops call ∧ call.user = user ∧
        Presents env mac secret signed call.id ∧
        t ≤ datetime0 (call.now + SESSION_TTL_DAYS * 86400 * second)
  swept : ∀ signed now, now ≤ t →
    (getSession env mac secret signed t
        (sweepExpired now (sessionsAfter env mac secret ops)).2).1 =
      (getSession env mac secret signed t (sessionsAfter env mac secret ops)).1
  looked : ∀ signed other now, now ≤ t →
    (getSession env mac secret signed t
        (getSession env mac secret other now (sessionsAfter env mac secret ops)).2).1 =
      (getSession env mac secret signed t (sessionsAfter env mac secret ops)).1
  gone : ∀ signed,
    (getSession env mac secret signed t (sessionsAfter env mac secret ops)).1 = none →
    ∀ more later, (∀ op ∈ more, op.now ≤ later) → t ≤ later →
      (∀ call, .create call ∈ more → ¬ Presents env mac secret signed call.id) →
        (getSession env mac secret signed later (sessionsAfter env mac secret (ops ++ more))).1 = none

/-- A call that is no creation and no logout changes no later answer. -/
theorem getSession_after_other {ops : List SessionOp} {t : Int} (since : ∀ op ∈ ops, op.now ≤ t)
    (op : SessionOp) (earlier : op.now ≤ t) (notCreate : ∀ call, op ≠ .create call)
    (keeps : ∀ id, ¬ op.destroys env mac secret id) (signed : String) :
    (getSession env mac secret signed t
        (sessionStep env mac secret (sessionsAfter env mac secret ops) op)).1 =
      (getSession env mac secret signed t (sessionsAfter env mac secret ops)).1 := by
  have since' : ∀ other ∈ ops ++ [op], other.now ≤ t := by
    intro other member
    rcases List.mem_append.mp member with before | last
    · exact since other before
    · rw [List.mem_singleton.mp last]
      exact earlier
  rw [← sessionsAfter_append_singleton]
  refine Option.ext fun user => ?_
  rw [getSession_answer_iff since', getSession_answer_iff since]
  refine exists_congr fun call => and_congr_left fun _ => ?_
  rw [kept_append_singleton]
  constructor
  · rintro (⟨kept, _⟩ | ⟨same, _⟩)
    · exact kept
    · exact absurd same (notCreate call)
  · intro kept
    exact Or.inl ⟨kept, keeps call.id⟩

/-- What was kept through the longer run was kept through the shorter one, unless it was
created since. -/
theorem kept_of_append {ops more : List SessionOp} {call : CreateCall}
    (kept : Kept env mac secret (ops ++ more) call) :
    Kept env mac secret ops call ∨ .create call ∈ more := by
  induction more using List.reverseRecOn with
  | nil => exact Or.inl (by simpa using kept)
  | append_singleton more op ih =>
    rw [← List.append_assoc, kept_append_singleton] at kept
    rcases kept with ⟨kept, _⟩ | ⟨rfl, _⟩
    · rcases ih kept with before | since
      · exact Or.inl before
      · exact Or.inr (List.mem_append_left _ since)
    · exact Or.inr (by simp)

/-- After every run, at every instant no call of it was later than, a lookup answers with
the user of a session exactly when its cookie presents the id of one that was created and
not logged out of since, up to and with its stored expiry; sweeps and lookups end no
session a lookup would still accept, and a session that has ended stays so. -/
theorem session_law {ops : List SessionOp} {t : Int} (since : ∀ op ∈ ops, op.now ≤ t) :
    SessionLaw env mac secret ops t where
  answer := getSession_answer_iff since
  swept := by
    intro signed now earlier
    exact getSession_after_other since (.sweep now) earlier (fun _ same => by cases same)
      (fun _ destroys => destroys) signed
  looked := by
    intro signed other now earlier
    exact getSession_after_other since (.get other now) earlier (fun _ same => by cases same)
      (fun _ destroys => destroys) signed
  gone := by
    intro signed ended more later since' le unminted
    have all : ∀ op ∈ ops ++ more, op.now ≤ later := by
      intro op member
      rcases List.mem_append.mp member with before | after
      · exact (since op before).trans le
      · exact since' op after
    rw [Option.eq_none_iff_forall_ne_some]
    intro user answered
    obtain ⟨call, kept, userIs, presents, unexpired⟩ :=
      (getSession_answer_iff all signed user).mp answered
    rcases kept_of_append kept with before | minted
    · have earlier := (getSession_answer_iff since signed user).mpr
        ⟨call, before, userIs, presents, le.trans unexpired⟩
      rw [ended] at earlier
      cases earlier
    · exact unminted call minted presents

end

/-- A hash that gives every message one tag; it stands in for HMAC in runs on given
inputs. -/
def constantMac : Hmac := fun _ _ => Vector.replicate 32 0

/-- A login of the sample user. -/
def sampleLogin : CreateCall :=
  { idBytes := Vector.replicate 32 0xAB
    user := { userId := "admin", displayName := "Admin" }
    now := 0 }

theorem sampleLogin_created :
    Created asciiEnv constantMac "key" sampleLogin (sessionsAfter asciiEnv constantMac "key" []) := by
  refine created_iff.mpr ⟨?_, ?_, ?_, ?_⟩ <;> decide

/-- A session is still there at the second it expires. -/
theorem session_law_at_expiry :
    (getSession asciiEnv constantMac "key" (signValue constantMac "key" sampleLogin.id)
      (604800 * second) (sessionsAfter asciiEnv constantMac "key" [.create sampleLogin])).1 =
        some sampleLogin.user := by
  have since : ∀ op ∈ [SessionOp.create sampleLogin], op.now ≤ 604800 * second := by
    intro op member
    rw [List.mem_singleton.mp member]
    decide
  refine ((session_law since).answer _ _).mpr ⟨sampleLogin, ?_, rfl, ?_, by decide⟩
  · exact ⟨[], [], rfl, sampleLogin_created, by simp⟩
  · exact ⟨_, verifyValue_signValue _ _ _, rfl⟩

/-- The id a call mints, if it mints one. -/
def SessionOp.minted : SessionOp → Option String
  | .create call => some call.id
  | _ => none

/-- The sample id in capitals. -/
def capitalId : String := String.ofList (sampleLogin.id.toList.map Char.toUpper)

/-- The id column ignores case, so a cookie for the id in capitals, which no call minted,
finds the session too. -/
theorem session_found_in_capitals :
    ¬ ∀ env mac secret ops t, ops.Pairwise (fun first later => first.now ≤ later.now) →
      (ops.filterMap SessionOp.minted).Nodup → (∀ op ∈ ops, op.now ≤ t) → ∀ signed user,
      ((getSession env mac secret signed t (sessionsAfter env mac secret ops)).1 = some user ↔
        ∃ before call after, ops = before ++ .create call :: after ∧
          Created env mac secret call (sessionsAfter env mac secret before) ∧ call.user = user ∧
          verifyValue mac secret signed = some call.id ∧
          t ≤ datetime0 (call.now + SESSION_TTL_DAYS * 86400 * second) ∧
          ∀ op ∈ after, ∀ cookie now, op = .destroy cookie now →
            verifyValue mac secret cookie ≠ some call.id) := by
  intro claimed
  have law := claimed asciiEnv constantMac "key" [.create sampleLogin] 0 (List.pairwise_singleton _ _)
    (List.nodup_singleton _) (by simp [SessionOp.now, sampleLogin])
    (signValue constantMac "key" capitalId) sampleLogin.user
  have since : ∀ op ∈ [SessionOp.create sampleLogin], op.now ≤ 0 := by
    simp [SessionOp.now, sampleLogin]
  have found := (getSession_answer_iff since (signValue constantMac "key" capitalId)
    sampleLogin.user).mpr ⟨sampleLogin, ⟨[], [], rfl, sampleLogin_created, by simp⟩, rfl,
      ⟨capitalId, verifyValue_signValue _ _ _, by decide⟩, by decide⟩
  obtain ⟨before, call, after, split, _, _, verified, _⟩ := law.mp found
  have only : call ∈ [sampleLogin] := by
    have member : SessionOp.create call ∈ [SessionOp.create sampleLogin] := by
      rw [split]
      simp
    exact List.mem_singleton.mpr (SessionOp.create.inj (List.mem_singleton.mp member))
  rw [verifyValue_signValue, List.mem_singleton.mp only] at verified
  exact absurd (Option.some.inj verified) (by decide)

end Fleetwatch
