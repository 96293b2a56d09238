import Fleetwatch.Report.Overlays

/-!
# What one overlay write does

`create_mute` either fails and writes nothing or adds the one row it returns;
`create_retirement` fails before its upsert and writes nothing, or runs it. Each
has its condition as a structure, so later proofs never unfold the statements.
-/

namespace Fleetwatch

open Query Sql Table Text

/-! ## Mutes -/

structure FitsMute (row : MuteRow) : Prop where
  id : fitsChars ID_WIDTH row.id = true
  source : fitsChars SOURCE_WIDTH row.source = true
  collector : fitsChars COLLECTOR_WIDTH row.collector = true
  label : fitsChars LABEL_WIDTH row.label = true
  reason : fitsText row.reason = true
  createdBy : fitsChars CREATED_BY_WIDTH row.createdBy = true

theorem insertMute_eq_ok {env : Env} {row : MuteRow} {table out : List MuteRow} :
    insertMute env row table = .ok out ↔
      FitsMute row ∧ clashes (MuteRow.key env) row table = false ∧ out = table ++ [row] := by
  unfold insertMute
  cases clash : clashes (MuteRow.key env) row table with
  | true =>
    simp only [bind_eq_ok, requireFit_eq_ok, if_true, exists_const, Bool.true_eq_false, false_and,
      and_false, iff_false]
    rintro ⟨_, _, _, _, _, _, _, failed, _⟩
    cases failed
  | false =>
    simp only [bind_eq_ok, requireFit_eq_ok, Bool.false_eq_true, if_false, exists_const, true_and,
      pure, Except.pure, Except.ok.injEq]
    constructor
    · rintro ⟨id, source, collector, label, reason, createdBy, rfl⟩
      exact ⟨⟨id, source, collector, label, reason, createdBy⟩, rfl⟩
    · rintro ⟨fits, rfl⟩
      exact ⟨fits.id, fits.source, fits.collector, fits.label, fits.reason, fits.createdBy, rfl⟩

/-- What `create_mute` asks of a call. -/
structure Mutable (env : Env) (call : MuteCall) (db : Db) : Prop where
  source : trim call.new.source ≠ ""
  collector : trim call.new.collector ≠ ""
  label : trim call.new.label ≠ ""
  reason : trim call.new.reason ≠ ""
  fits : FitsMute (newMute call).toRow
  fresh : clashes (MuteRow.key env) (newMute call).toRow db.mute = false

/-- The database after a mute is created. -/
def muted (call : MuteCall) (db : Db) : Db :=
  { db with mute := db.mute ++ [(newMute call).toRow] }

theorem createMuteTx_eq_ok {env : Env} {call : MuteCall} {db : Db} {out : Mute × Db} :
    createMuteTx env call db = .ok out ↔
      Mutable env call db ∧ out = (newMute call, muted call db) := by
  unfold createMuteTx
  by_cases unnamed : (newMute call).source = "" ∨ (newMute call).collector = "" ∨
      (newMute call).label = ""
  · rw [if_pos unnamed]
    refine iff_of_false (fun failed => by cases failed) ?_
    rintro ⟨allowed, _⟩
    rcases unnamed with source | collector | label
    · exact allowed.source source
    · exact allowed.collector collector
    · exact allowed.label label
  · rw [if_neg unnamed]
    by_cases unreasoned : (newMute call).reason = ""
    · rw [if_pos unreasoned]
      refine iff_of_false (fun failed => by cases failed) ?_
      rintro ⟨allowed, _⟩
      exact allowed.reason unreasoned
    · simp only [if_neg unreasoned, bind_eq_ok, insertMute_eq_ok, pure, Except.pure, Except.ok.injEq]
      simp only [not_or] at unnamed
      constructor
      · rintro ⟨_, ⟨fits, fresh, rfl⟩, rfl⟩
        exact ⟨⟨unnamed.1, unnamed.2.1, unnamed.2.2, unreasoned, fits, fresh⟩, rfl⟩
      · rintro ⟨allowed, rfl⟩
        exact ⟨_, ⟨allowed.fits, allowed.fresh, rfl⟩, rfl⟩

theorem createMute_of_mutable {env : Env} {call : MuteCall} {db : Db}
    (allowed : Mutable env call db) :
    createMute env call db = (.ok (newMute call), muted call db) := by
  unfold createMute
  rw [createMuteTx_eq_ok.mpr ⟨allowed, rfl⟩]

/-- A mute that is not created leaves every table alone. -/
theorem createMute_of_not_mutable {env : Env} {call : MuteCall} {db : Db}
    (refused : ¬ Mutable env call db) : ∃ err, createMute env call db = (.error err, db) := by
  unfold createMute
  cases tx : createMuteTx env call db with
  | error err => exact ⟨err, rfl⟩
  | ok out => exact absurd (createMuteTx_eq_ok.mp tx).1 refused

theorem mutable_of_ok {env : Env} {call : MuteCall} {db : Db} {m : Mute}
    (created : (createMute env call db).1 = .ok m) : Mutable env call db := by
  by_contra refused
  obtain ⟨err, failed⟩ := createMute_of_not_mutable refused
  rw [failed] at created
  cases created

theorem createMute_after (env : Env) (call : MuteCall) (db : Db) :
    (createMute env call db).2 = db ∨
      (Mutable env call db ∧ (createMute env call db).2 = muted call db) := by
  by_cases allowed : Mutable env call db
  · exact Or.inr ⟨allowed, by rw [createMute_of_mutable allowed]⟩
  · obtain ⟨err, failed⟩ := createMute_of_not_mutable allowed
    exact Or.inl (by rw [failed])

theorem createMute_retirement (env : Env) (call : MuteCall) (db : Db) :
    (createMute env call db).2.retirement = db.retirement := by
  rcases createMute_after env call db with same | ⟨_, after⟩
  · rw [same]
  · rw [after]
    rfl

/-- The live mutes are those whose stored expiry is later than the bound instant. -/
theorem mem_listMutes {now : Int} {db : Db} {m : Mute} :
    m ∈ listMutes now db ↔
      ∃ row ∈ db.mute, bindDatetime now < row.expiresAt ∧ row.toMute = m := by
  unfold listMutes MuteRow.live
  constructor
  · intro member
    obtain ⟨row, found, rfl⟩ := List.mem_map.mp member
    rw [mem_orderBy] at found
    obtain ⟨inTable, live⟩ := List.mem_filter.mp found
    exact ⟨row, inTable, of_decide_eq_true live, rfl⟩
  · rintro ⟨row, inTable, live, rfl⟩
    refine List.mem_map.mpr ⟨row, ?_, rfl⟩
    rw [mem_orderBy]
    exact List.mem_filter.mpr ⟨inTable, decide_eq_true live⟩

/-! ## Retirements -/

structure FitsRetirement (row : RetirementRow) : Prop where
  source : fitsChars SOURCE_WIDTH row.source = true
  collector : fitsChars COLLECTOR_WIDTH row.collector = true
  reason : fitsText row.reason = true
  createdBy : fitsChars CREATED_BY_WIDTH row.createdBy = true

theorem upsertRetirement_eq_ok {env : Env} {row : RetirementRow} {table out : List RetirementRow} :
    upsertRetirement env row table = .ok out ↔
      FitsRetirement row ∧ out = upsert (RetirementRow.key env) row (restate row) table := by
  simp only [upsertRetirement, bind_eq_ok, requireFit_eq_ok, exists_const, pure, Except.pure,
    Except.ok.injEq]
  constructor
  · rintro ⟨source, collector, reason, createdBy, rfl⟩
    exact ⟨⟨source, collector, reason, createdBy⟩, rfl⟩
  · rintro ⟨fits, rfl⟩
    exact ⟨fits.source, fits.collector, fits.reason, fits.createdBy, rfl⟩

/-- What `create_retirement` asks of a call before it writes. -/
structure Retirable (call : RetirementCall) : Prop where
  source : trim call.new.source ≠ ""
  collector : trim call.new.collector ≠ ""
  reason : trim call.new.reason ≠ ""
  fits : FitsRetirement (retirementRow call)

/-- The database after the upsert of a retirement. -/
def retiredIn (env : Env) (call : RetirementCall) (db : Db) : Db :=
  let row := retirementRow call
  { db with retirement := upsert (RetirementRow.key env) row (restate row) db.retirement }

/-- The row `create_retirement` reads back, byte for byte. -/
def readBack (call : RetirementCall) (db : Db) : Option Retirement :=
  (listRetirements db).find? (fun r =>
    r.source = (retirementRow call).source ∧ r.collector = (retirementRow call).collector)

theorem createRetirement_of_retirable {env : Env} {call : RetirementCall} {db : Db}
    (allowed : Retirable call) :
    createRetirement env call db =
      (match readBack call (retiredIn env call db) with
        | some existing => .ok existing
        | none => .error (.badRequest "retirement vanished after write"),
      retiredIn env call db) := by
  unfold createRetirement
  have named : ¬ ((retirementRow call).source = "" ∨ (retirementRow call).collector = "") :=
    not_or.mpr ⟨allowed.source, allowed.collector⟩
  have reasoned : ¬ (retirementRow call).reason = "" := allowed.reason
  simp only [named, reasoned, if_false, upsertRetirement_eq_ok.mpr ⟨allowed.fits, rfl⟩]
  unfold readBack retiredIn
  split <;> rename_i found <;> simp only [found]

theorem createRetirement_of_not_retirable {env : Env} {call : RetirementCall} {db : Db}
    (refused : ¬ Retirable call) : ∃ err, createRetirement env call db = (.error err, db) := by
  unfold createRetirement
  by_cases unnamed : (retirementRow call).source = "" ∨ (retirementRow call).collector = ""
  · simp only [unnamed, if_true]
    exact ⟨_, rfl⟩
  · by_cases unreasoned : (retirementRow call).reason = ""
    · simp only [unnamed, unreasoned, if_false, if_true]
      exact ⟨_, rfl⟩
    · cases tx : upsertRetirement env (retirementRow call) db.retirement with
      | error err => exact ⟨err, by simp only [unnamed, unreasoned, if_false, tx]⟩
      | ok out =>
        rw [not_or] at unnamed
        have fits := (upsertRetirement_eq_ok.mp tx).1
        exact absurd ⟨unnamed.1, unnamed.2, unreasoned, fits⟩ refused

theorem retirable_of_ok {env : Env} {call : RetirementCall} {db : Db} {r : Retirement}
    (created : (createRetirement env call db).1 = .ok r) : Retirable call := by
  by_contra refused
  obtain ⟨err, failed⟩ := createRetirement_of_not_retirable refused
  rw [failed] at created
  cases created

theorem createRetirement_after (env : Env) (call : RetirementCall) (db : Db) :
    (createRetirement env call db).2 = db ∨
      (Retirable call ∧ (createRetirement env call db).2 = retiredIn env call db) := by
  by_cases allowed : Retirable call
  · exact Or.inr ⟨allowed, by rw [createRetirement_of_retirable allowed]⟩
  · obtain ⟨err, failed⟩ := createRetirement_of_not_retirable allowed
    exact Or.inl (by rw [failed])

@[simp] theorem restate_source (new row : RetirementRow) :
    (restate new row).source = row.source := rfl

@[simp] theorem restate_collector (new row : RetirementRow) :
    (restate new row).collector = row.collector := rfl

@[simp] theorem restate_key (env : Env) (new row : RetirementRow) :
    (restate new row).key env = row.key env := rfl

theorem keyed_retiredIn {env : Env} {call : RetirementCall} {db : Db}
    (keyed : Keyed (RetirementRow.key env) db.retirement) :
    Keyed (RetirementRow.key env) (retiredIn env call db).retirement :=
  keyed.upsert _ (restate_key env _)

/-- After the upsert every stored spelling still stands. -/
theorem spelling_stays {env : Env} (call : RetirementCall) {db : Db} {row : RetirementRow}
    (stored : row ∈ db.retirement) :
    ∃ row' ∈ (retiredIn env call db).retirement,
      row'.source = row.source ∧ row'.collector = row.collector := by
  refine ⟨_, mem_upsert.mpr (Or.inr ⟨row, stored, rfl⟩), ?_⟩
  split <;> simp

/-- The upsert brings a new spelling only under a free key. -/
theorem spelling_of_retiredIn {env : Env} {call : RetirementCall} {db : Db} {row : RetirementRow}
    (stored : row ∈ (retiredIn env call db).retirement) :
    (clashes (RetirementRow.key env) (retirementRow call) db.retirement = false ∧
        row = retirementRow call) ∨
      ∃ row' ∈ db.retirement, row.source = row'.source ∧ row.collector = row'.collector := by
  rcases mem_upsert.mp stored with new | ⟨row', stored', rfl⟩
  · exact Or.inl new
  · refine Or.inr ⟨row', stored', ?_⟩
    split <;> simp

theorem createRetirement_mute (env : Env) (call : RetirementCall) (db : Db) :
    (createRetirement env call db).2.mute = db.mute := by
  rcases createRetirement_after env call db with same | ⟨_, after⟩
  · rw [same]
  · rw [after]
    rfl

theorem mem_listRetirements {db : Db} {r : Retirement} :
    r ∈ listRetirements db ↔ ∃ row ∈ db.retirement, row.toRetirement = r := by
  simp [listRetirements]

end Fleetwatch
