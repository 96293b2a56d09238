import Fleetwatch.Proofs.RetirementMachine

/-!
# Retiring a producer again

`create_retirement` writes under the key the collation makes of the trimmed names and
looks its row up byte for byte. The table holds each producer's standing whatever
names are used: the upsert brings a row only under a free key, and keeps the instant of
a taken one. What the caller is told is right exactly when the stored row carries the
very names of the call; under another spelling the reason and the author have been
restated by the time the call answers that the retirement has vanished.
-/

namespace Fleetwatch

open Sql Table Text

variable {env : Env} {db : Db}

/-! ## What a call is to do -/

/-- A call `create_retirement` refuses before it writes. -/
def RetirementCall.blank (call : RetirementCall) : Prop :=
  trim call.new.source = "" ∨ trim call.new.collector = "" ∨ trim call.new.reason = ""

/-- The row under the call's key after it, as the caller is told. -/
structure Restated (env : Env) (since : Standing) (call : RetirementCall) (after : Db)
    (r : Retirement) : Prop where
  stored : ∃ row, rowsAt (RetirementRow.key env) ((retirementRow call).key env) after.retirement =
    [row] ∧ row.toRetirement = r
  reason : r.reason = trim call.new.reason
  createdBy : r.createdBy = call.createdBy
  retiredAt : since.retire (datetime3 call.now) = .retired r.retiredAt

/-- One call after a run: an error leaves the table alone, and a call that says who and
why is answered with the row now stored. -/
structure RetiresIdempotently (env : Env) (ops : List Op) (call : RetirementCall) : Prop where
  allOrNothing : ∀ err, (createRetirement env call (stateAfter env ops)).1 = .error err →
    (createRetirement env call (stateAfter env ops)).2.retirement =
      (stateAfter env ops).retirement
  idempotent : ¬ call.blank → ∃ r, (createRetirement env call (stateAfter env ops)).1 = .ok r ∧
    Restated env (storedStanding env ops ((retirementRow call).key env)) call
      (createRetirement env call (stateAfter env ops)).2 r

/-- The row stored under the call's key, if there is one, carries the call's own trimmed
names. -/
def SpelledAsStored (env : Env) (call : RetirementCall) (db : Db) : Prop :=
  ∀ row ∈ db.retirement, row.key env = (retirementRow call).key env →
    row.source = trim call.new.source ∧ row.collector = trim call.new.collector

/-! ## The answer -/

theorem retirable_iff {call : RetirementCall} :
    Retirable call ↔ ¬ call.blank ∧ FitsRetirement (retirementRow call) := by
  unfold RetirementCall.blank
  constructor
  · intro allowed
    refine ⟨?_, allowed.fits⟩
    rintro (source | collector | reason)
    · exact allowed.source source
    · exact allowed.collector collector
    · exact allowed.reason reason
  · rintro ⟨said, fits⟩
    rw [not_or, not_or] at said
    exact ⟨said.1, said.2.1, said.2.2, fits⟩

/-- The row under the call's key after the upsert. -/
theorem rowsAt_retiredIn (keyed : Keyed (RetirementRow.key env) db.retirement)
    (call : RetirementCall) : ∃ row,
      rowsAt (RetirementRow.key env) ((retirementRow call).key env)
        (retiredIn env call db).retirement = [row] ∧
      row.reason = trim call.new.reason ∧ row.createdBy = call.createdBy := by
  have table : rowsAt (RetirementRow.key env) ((retirementRow call).key env)
      (retiredIn env call db).retirement = _ :=
    rowsAt_upsert (RetirementRow.key env) (retirementRow call) db.retirement
      (restate_key env (retirementRow call)) _
  rw [if_pos rfl] at table
  rw [table]
  cases before : rowsAt (RetirementRow.key env) ((retirementRow call).key env) db.retirement with
  | nil => exact ⟨retirementRow call, rfl, rfl, rfl⟩
  | cons row others =>
    obtain ⟨inTable, same⟩ := mem_rowsAt.mp (before ▸ List.mem_cons_self :
      row ∈ rowsAt (RetirementRow.key env) ((retirementRow call).key env) db.retirement)
    have single := keyed.rowsAt_eq inTable
    rw [same, before] at single
    obtain rfl : others = [] := (List.cons.inj single).2
    exact ⟨restate (retirementRow call) row, rfl, rfl, rfl⟩

/-- A row read back byte for byte is the one under the call's key. -/
theorem rowsAt_of_readBack {call : RetirementCall} {r : Retirement}
    (keyed : Keyed (RetirementRow.key env) db.retirement)
    (found : readBack call (retiredIn env call db) = some r) : ∃ row,
      rowsAt (RetirementRow.key env) ((retirementRow call).key env)
        (retiredIn env call db).retirement = [row] ∧ row.toRetirement = r ∧
      row.source = trim call.new.source ∧ row.collector = trim call.new.collector := by
  unfold readBack at found
  obtain ⟨row, stored, rfl⟩ := mem_listRetirements.mp (List.mem_of_find?_eq_some found)
  have matched := List.find?_some found
  obtain ⟨source, collector⟩ : row.source = (retirementRow call).source ∧
      row.collector = (retirementRow call).collector := of_decide_eq_true matched
  have key : row.key env = (retirementRow call).key env := by
    unfold RetirementRow.key
    rw [source, collector]
  have single := (keyed_retiredIn keyed).rowsAt_eq stored
  rw [key] at single
  exact ⟨row, single, rfl, source, collector⟩

/-- A call that passes its checks is answered with a row exactly when the key's row
carries its names. -/
theorem createRetirement_isOk_iff (keyed : Keyed (RetirementRow.key env) db.retirement)
    {call : RetirementCall} (allowed : Retirable call) :
    (∃ r, (createRetirement env call db).1 = .ok r) ↔ SpelledAsStored env call db := by
  constructor
  · rintro ⟨r, created⟩ row stored key
    rw [createRetirement_of_retirable allowed] at created
    cases found : readBack call (retiredIn env call db) with
    | none =>
      rw [found] at created
      cases created
    | some existing =>
      obtain ⟨row', single, _, source, collector⟩ := rowsAt_of_readBack keyed found
      -- the stored row is still there, restated, and it is the only one under the key
      obtain ⟨kept, stays, source', collector'⟩ := spelling_stays call stored
      have key' : kept.key env = (retirementRow call).key env := by
        rw [← key]
        unfold RetirementRow.key
        rw [source', collector']
      have member : kept ∈ rowsAt (RetirementRow.key env) ((retirementRow call).key env)
          (retiredIn env call db).retirement := mem_rowsAt.mpr ⟨stays, key'⟩
      rw [single, List.mem_singleton] at member
      rw [← source', ← collector', member]
      exact ⟨source, collector⟩
  · intro spelled
    have retired : RetiredAs (retirementRow call).source (retirementRow call).collector
        (retiredIn env call db) := by
      cases clash : clashes (RetirementRow.key env) (retirementRow call) db.retirement with
      | false => exact ⟨_, mem_upsert.mpr (Or.inl ⟨clash, rfl⟩), rfl, rfl⟩
      | true =>
        obtain ⟨row, stored, key⟩ := clashes_iff.mp clash
        obtain ⟨source, collector⟩ := spelled row stored key
        obtain ⟨kept, stays, source', collector'⟩ := spelling_stays call stored
        exact ⟨kept, stays, source'.trans source, collector'.trans collector⟩
    obtain ⟨r, found⟩ := Option.isSome_iff_exists.mp ((readBack_isSome_iff call).mpr retired)
    rw [createRetirement_of_retirable allowed, found]
    exact ⟨r, rfl⟩

/-- An answer after a run is the row now stored, restated, with the instant of the first
retirement since the key was last un-retired. -/
theorem restated_of_ok (ops : List Op) {call : RetirementCall} {r : Retirement}
    (created : (createRetirement env call (stateAfter env ops)).1 = .ok r) :
    Restated env (storedStanding env ops ((retirementRow call).key env)) call
      (createRetirement env call (stateAfter env ops)).2 r := by
  have allowed := retirable_of_ok created
  have keyed : Keyed (RetirementRow.key env) (stateAfter env ops).retirement :=
    (represents_run env ops).retirement
  have ran : stateAfter env (ops ++ [.createRetirement call]) =
      (createRetirement env call (stateAfter env ops)).2 := by
    unfold stateAfter
    rw [Run.run_append, Run.run_cons, Run.run_nil, Fleetwatch.step]
  have stands : storedStanding env (ops ++ [.createRetirement call]) ((retirementRow call).key env) =
      (storedStanding env ops ((retirementRow call).key env)).retire (datetime3 call.now) := by
    unfold storedStanding
    rw [Run.run_append]
    refine if_pos ⟨rfl, ?_⟩
    rw [standing_fst, created]
    rfl
  have instants := storedStanding_instants env (ops ++ [.createRetirement call])
    ((retirementRow call).key env)
  rw [ran, stands] at instants
  have after : (createRetirement env call (stateAfter env ops)).2 =
      retiredIn env call (stateAfter env ops) := by
    rw [createRetirement_of_retirable allowed]
  obtain ⟨row, single, reason, createdBy⟩ := rowsAt_retiredIn keyed call
  rw [createRetirement_of_retirable allowed] at created
  cases found : readBack call (retiredIn env call (stateAfter env ops)) with
  | none =>
    rw [found] at created
    cases created
  | some existing =>
    rw [found] at created
    obtain rfl : existing = r := Except.ok.inj created
    obtain ⟨row', single', rfl, _⟩ := rowsAt_of_readBack keyed found
    obtain rfl : row' = row := List.singleton_inj.mp (single'.symm.trans single)
    rw [after]
    refine ⟨⟨row', single, rfl⟩, reason, createdBy, ?_⟩
    obtain ⟨since, retired⟩ := Standing.retire_eq_retired (datetime3 call.now)
      (storedStanding env ops ((retirementRow call).key env))
    rw [after, single, retired] at instants
    rw [retired]
    exact congrArg Standing.retired (List.singleton_inj.mp instants).symm

/-- A blank call is refused, and asked for nothing more. -/
theorem retiresIdempotently_of_blank (ops : List Op) {call : RetirementCall} (blank : call.blank) :
    RetiresIdempotently env ops call := by
  have refused : ¬ Retirable call := fun allowed => (retirable_iff.mp allowed).1 blank
  obtain ⟨err, failed⟩ : ∃ err, createRetirement env call (stateAfter env ops) =
      (.error err, stateAfter env ops) := createRetirement_of_not_retirable refused
  exact ⟨fun _ _ => by rw [failed], fun said => absurd blank said⟩

/-- After every run: a call does what it is to do exactly when it is blank, or fits its
columns and names its key as the key's row is spelled; and un-retiring answers whether
the key was retired. -/
theorem create_retirement_idempotent_iff (env : Env) (ops : List Op) :
    (∀ call, RetiresIdempotently env ops call ↔
      call.blank ∨
        (FitsRetirement (retirementRow call) ∧ SpelledAsStored env call (stateAfter env ops))) ∧
    ∀ source collector, ((deleteRetirement env source collector (stateAfter env ops)).1 = true ↔
        ∃ row ∈ (stateAfter env ops).retirement, row.key env = producerKey env source collector) ∧
      ((deleteRetirement env source collector (stateAfter env ops)).1 = true ↔
        storedStanding env ops (producerKey env source collector) ≠ .active) := by
  have keyed : Keyed (RetirementRow.key env) (stateAfter env ops).retirement :=
    (represents_run env ops).retirement
  constructor
  · intro call
    constructor
    · intro holds
      refine or_iff_not_imp_left.mpr fun said => ?_
      obtain ⟨r, created, _⟩ := holds.idempotent said
      have allowed := retirable_of_ok created
      exact ⟨allowed.fits, (createRetirement_isOk_iff keyed allowed).mp ⟨r, created⟩⟩
    · rintro (blank | ⟨fits, spelled⟩)
      · exact retiresIdempotently_of_blank ops blank
      · by_cases said : call.blank
        · exact retiresIdempotently_of_blank ops said
        · obtain ⟨r, created⟩ := (createRetirement_isOk_iff keyed
            (retirable_iff.mpr ⟨said, fits⟩)).mpr spelled
          refine ⟨fun err failed => ?_, fun _ => ⟨r, created, restated_of_ok ops created⟩⟩
          rw [created] at failed
          cases failed
  · intro source collector
    have existed : (deleteRetirement env source collector (stateAfter env ops)).1 = true ↔
        ∃ row ∈ (stateAfter env ops).retirement,
          row.key env = producerKey env source collector := by
      unfold deleteRetirement
      simp [List.any_eq_true]
    refine ⟨existed, ?_⟩
    rw [existed]
    have instants := storedStanding_instants env ops (producerKey env source collector)
    constructor
    · rintro ⟨row, stored, key⟩ active
      rw [active] at instants
      have none : rowsAt (RetirementRow.key env) (producerKey env source collector)
          (stateAfter env ops).retirement = [] := List.map_eq_nil_iff.mp instants
      have member := mem_rowsAt.mpr ⟨stored, key⟩
      rw [none] at member
      cases member
    · intro retired
      cases stands : storedStanding env ops (producerKey env source collector) with
      | active => exact absurd stands retired
      | retired since =>
        rw [stands] at instants
        have single : since ∈ (rowsAt (RetirementRow.key env) (producerKey env source collector)
            (stateAfter env ops).retirement).map (·.retiredAt) := by
          rw [instants]
          exact List.mem_singleton.mpr rfl
        obtain ⟨row, member, _⟩ := List.mem_map.mp single
        exact ⟨row, mem_rowsAt.mp member⟩

/-- A producer retired as "amun", then again as "AMUN" with another reason. -/
def retiredOtherwise : RetirementCall :=
  { new := { source := "AMUN", collector := "disk", reason := "gone for good" }
    createdBy := "admin"
    now := 2 * 86400 * second }

/-- The second call restates the reason and answers that the retirement has vanished. -/
theorem retirement_restated_by_error :
    (createRetirement asciiEnv retiredOtherwise (stateAfter asciiEnv
        [.createRetirement sampleRetirement])).1 =
      .error (.badRequest "retirement vanished after write") ∧
    (createRetirement asciiEnv retiredOtherwise (stateAfter asciiEnv
        [.createRetirement sampleRetirement])).2.retirement ≠
      (stateAfter asciiEnv [.createRetirement sampleRetirement]).retirement ∧
    ¬ ∀ env ops call, RetiresIdempotently env ops call := by
  have vanished : (createRetirement asciiEnv retiredOtherwise (stateAfter asciiEnv
      [.createRetirement sampleRetirement])).1 =
        .error (.badRequest "retirement vanished after write") := by
    decide
  have changed : (createRetirement asciiEnv retiredOtherwise (stateAfter asciiEnv
      [.createRetirement sampleRetirement])).2.retirement ≠
        (stateAfter asciiEnv [.createRetirement sampleRetirement]).retirement := by
    decide
  exact ⟨vanished, changed, fun claimed => changed ((claimed asciiEnv _ _).allOrNothing _ vanished)⟩

end Fleetwatch
