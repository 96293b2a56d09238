import Fleetwatch.Proofs.Silencing

/-!
# The phases of a mute

A mute is stored with both its instants cut to whole milliseconds. Its life, from the
stored creation to the stored expiry, is a whole number of hours, so its quarter is
exact and the two comparisons a reader makes, `list_mutes` against the bound clock and
`is_lapsing` against the notice, cut the life at two instants: it is live, then live
and lapsing, then gone.
-/

namespace Fleetwatch

open Query Sql Table

variable {env : Env} {db : Db}

/-- A mute as `list_mutes` reads it back. -/
def Mute.stored (m : Mute) : Mute := m.toRow.toMute

/-- How long a mute is lapsing: a quarter of its life, at most `LAPSE_WARNING`. -/
def Mute.notice (m : Mute) : Int := min ((m.expiresAt - m.createdAt) / 4) LAPSE_WARNING

/-- The phases of the stored mute `m`, created at `created` in a state that led to `db`,
whatever is written later short of deleting it. -/
structure LivesThroughPhases (env : Env) (created : Int) (db : Db) (m : Mute) : Prop where
  shortest : m.createdAt + 3600 * second ≤ m.expiresAt
  longest : m.expiresAt ≤ m.createdAt + 365 * 86400 * second
  startsLive : m ∈ listMutes created db
  startsQuiet : m ∉ (problems env created db).lapsing
  live : ∀ ops, (∀ op ∈ ops, op.keepsMute env m.id) → ∀ t,
    m ∈ listMutes t (Run.run (step env) db ops) ↔ t < m.expiresAt
  lapsing : ∀ ops, (∀ op ∈ ops, op.keepsMute env m.id) → ∀ t,
    m ∈ (problems env t (Run.run (step env) db ops)).lapsing ↔
      m.expiresAt - m.notice ≤ t ∧ t < m.expiresAt
  keepsLapsing : ∀ ops ops', (∀ op ∈ ops ++ ops', op.keepsMute env m.id) → ∀ t t', t ≤ t' →
    m ∈ (problems env t (Run.run (step env) db ops)).lapsing → t' < m.expiresAt →
    m ∈ (problems env t' (Run.run (step env) db (ops ++ ops'))).lapsing
  gone : ∀ db' t, m.expiresAt ≤ t →
    m ∉ listMutes t db' ∧ m ∉ (problems env t db').lapsing
  lapsesLater : created < m.expiresAt - m.notice
  lapsesFirst : m.expiresAt - m.notice < m.expiresAt
  quarter : 4 * ((m.expiresAt - m.createdAt) / 4) = m.expiresAt - m.createdAt

/-! ## The instants of a stored mute -/

theorem clampTtl_le (ttlHours : UInt32) : (clampTtl ttlHours).toNat ≤ 8760 := by
  unfold clampTtl
  split
  · decide
  · split
    · decide
    · rename_i notGreater
      exact UInt32.le_iff_toNat_le.mp (UInt32.not_lt.mp notGreater)

/-- The stored life is the clamped number of hours, to the nanosecond. -/
theorem stored_life (call : MuteCall) :
    (newMute call).stored.expiresAt =
      (newMute call).stored.createdAt + (clampTtl call.new.ttlHours).toNat * 3600 * second := by
  change datetime3 (call.now + (clampTtl call.new.ttlHours).toNat * 3600 * second) =
    datetime3 call.now + (clampTtl call.new.ttlHours).toNat * 3600 * second
  unfold datetime3 second
  omega

/-- The stored creation is the instant of the call, cut to the millisecond. -/
theorem stored_createdAt (call : MuteCall) :
    (newMute call).stored.createdAt ≤ call.now ∧
      call.now < (newMute call).stored.createdAt + 1000000 :=
  ⟨datetime3_le call.now, lt_datetime3_add call.now⟩

/-- A stored expiry is later than a bound instant exactly when it is later than the
instant. -/
theorem bind_lt_datetime3_iff (t expiry : Int) : bindDatetime t < datetime3 expiry ↔
    t < datetime3 expiry := by
  unfold bindDatetime datetime3
  omega

/-! ## Reading it back -/

/-- A row that expires at a whole millisecond is read back until then. -/
theorem row_listed_iff {row : MuteRow} (stored : row ∈ db.mute) (whole : ∃ t, row.expiresAt =
    datetime3 t) (t : Int) : row.toMute ∈ listMutes t db ↔ t < row.expiresAt := by
  obtain ⟨expiry, ends⟩ := whole
  rw [mem_listMutes]
  constructor
  · rintro ⟨other, _, live, same⟩
    have expires : other.expiresAt = row.expiresAt := congrArg Mute.expiresAt same
    rw [expires, ends, bind_lt_datetime3_iff] at live
    rw [ends]
    exact live
  · intro before
    refine ⟨row, stored, ?_, rfl⟩
    rw [ends] at before ⊢
    exact (bind_lt_datetime3_iff t expiry).mpr before

theorem mem_lapsing {now : Int} {m : Mute} : m ∈ (problems env now db).lapsing ↔
    m ∈ listMutes now db ∧ m.expiresAt - m.notice ≤ now := by
  change m ∈ (listMutes now db).filter (fun m => isLapsing m now) ↔ _
  rw [List.mem_filter]
  refine and_congr_right fun _ => ?_
  unfold isLapsing Mute.notice
  rw [decide_eq_true_iff]
  omega

/-- A mute that is created lives through its phases. -/
theorem mute_phases {call : MuteCall} {m : Mute}
    (created : (createMute env call db).1 = .ok m) :
    LivesThroughPhases env call.now (createMute env call db).2 m.stored := by
  have allowed := mutable_of_ok created
  have after := createMute_of_mutable allowed
  obtain rfl : newMute call = m := Except.ok.inj ((congrArg Prod.fst after).symm.trans created)
  rw [after]
  have life := stored_life call
  obtain ⟨notEarlier, within⟩ := stored_createdAt call
  have atLeast := one_le_clampTtl call.new.ttlHours
  have atMost := clampTtl_le call.new.ttlHours
  have stored : (newMute call).toRow ∈ (muted call db).mute :=
    List.mem_append_right _ (List.mem_singleton.mpr rfl)
  have live : ∀ ops, (∀ op ∈ ops, op.keepsMute env (newMute call).stored.id) → ∀ t,
      (newMute call).stored ∈ listMutes t (Run.run (step env) (muted call db) ops) ↔
        t < (newMute call).stored.expiresAt := by
    intro ops keeps t
    exact row_listed_iff (mute_stays stored keeps) ⟨_, rfl⟩ t
  have lapsing : ∀ ops, (∀ op ∈ ops, op.keepsMute env (newMute call).stored.id) → ∀ t,
      (newMute call).stored ∈ (problems env t (Run.run (step env) (muted call db) ops)).lapsing ↔
        (newMute call).stored.expiresAt - (newMute call).stored.notice ≤ t ∧
          t < (newMute call).stored.expiresAt := by
    intro ops keeps t
    rw [mem_lapsing, live ops keeps t, and_comm]
  -- the notice is positive, and shorter than the life by more than a millisecond
  have noticePos : 0 < (newMute call).stored.notice := by
    unfold Mute.notice LAPSE_WARNING
    rw [life]
    unfold second
    omega
  have noticeShort : (newMute call).stored.createdAt + 1000000 ≤
      (newMute call).stored.expiresAt - (newMute call).stored.notice := by
    unfold Mute.notice LAPSE_WARNING
    rw [life]
    unfold second
    omega
  refine
    { shortest := by rw [life]; unfold second; omega
      longest := by rw [life]; unfold second; omega
      startsLive := (live [] (by simp) call.now).mpr (by omega)
      startsQuiet := fun lapses => ?_
      live := live
      lapsing := lapsing
      keepsLapsing := ?_
      gone := ?_
      lapsesLater := by omega
      lapsesFirst := by omega
      quarter := by rw [life]; unfold second; omega }
  · have starts := ((lapsing [] (by simp) call.now).mp lapses).1
    omega
  · intro ops ops' keeps t t' later lapses before
    have keeps₁ : ∀ op ∈ ops, op.keepsMute env (newMute call).stored.id :=
      fun op member => keeps op (List.mem_append_left _ member)
    have starts := ((lapsing ops keeps₁ t).mp lapses).1
    exact (lapsing (ops ++ ops') keeps t').mpr ⟨by omega, before⟩
  · intro db' t past
    have unlisted : (newMute call).stored ∉ listMutes t db' := by
      intro listed
      obtain ⟨row, _, alive, same⟩ := mem_listMutes.mp listed
      have expires : row.expiresAt = (newMute call).stored.expiresAt :=
        congrArg Mute.expiresAt same
      rw [expires] at alive
      exact absurd ((bind_lt_datetime3_iff t _).mp alive) (not_lt.mpr past)
    exact ⟨unlisted, fun lapses => unlisted (mem_lapsing.mp lapses).1⟩

/-- A day's mute of a failing check. -/
theorem mute_phases_sample :
    LivesThroughPhases asciiEnv 0
      (createMute asciiEnv (sampleMute "01ARZ3NDEKTSV4RRFFQ69G5FB0")
        (stateAfter asciiEnv [.ingest sampleReport])).2
      (newMute (sampleMute "01ARZ3NDEKTSV4RRFFQ69G5FB0")).stored := by
  have created : (createMute asciiEnv (sampleMute "01ARZ3NDEKTSV4RRFFQ69G5FB0")
      (stateAfter asciiEnv [.ingest sampleReport])).1 =
        .ok (newMute (sampleMute "01ARZ3NDEKTSV4RRFFQ69G5FB0")) := by
    decide
  exact mute_phases created

end Fleetwatch
