import Fleetwatch.Proofs.Accountable
import Fleetwatch.Proofs.Staleness

/-!
# What the retention row means

The self-report says when the last sweep of this process completed. It is green only while
that is no more than a day and an hour ago, and then nothing of the store is older than
the sweep's cutoffs, what has arrived since aside. A tick that fails, or clears the payloads
alone, leaves the row to age; a restart leaves it unsaid.
-/

namespace Fleetwatch

open Selfcheck Sql

/-! ## The last sweep -/

/-- A process that starts remembers no sweep. -/
def Event.starts : Event → Prop
  | .start _ _ _ => True
  | _ => False

/-- A sweep that completes is remembered in place of the one before. -/
def Event.sweeps : Event → Prop
  | .retention _ .swept => True
  | _ => False

section

variable {Host : Type} [DecidableEq Host] (app : AppState Host)

theorem processAfter_concat (events : List Event) (e : Event) :
    processAfter app (events ++ [e]) = processStep app (processAfter app events) e :=
  Run.run_append _ _ _ _

/-- The sweep remembered after a run: the last that completed, of the rows it says, and no start
since. -/
structure Remembered (events : List Event) (s : Sweep) (earlier later : List Event) : Prop where
  run : events = earlier ++ .retention s.sweptAt .swept :: later
  since : ∀ e ∈ later, ¬ e.starts ∧ ¬ e.sweeps
  counted : ∃ raw checks, (sweep s.sweptAt app.cfg.rawRetentionDays app.cfg.checkRetentionDays
      (processAfter app earlier).server.store.db).1 = (raw, checks) ∧
    s.rawCleared = UInt64.ofNat raw ∧ s.checksDeleted = UInt64.ofNat checks

/-- Every sweep that completed was followed by a start. -/
def Unremembered (events : List Event) : Prop :=
  ∀ earlier t later, events = earlier ++ .retention t .swept :: later → ∃ e ∈ later, e.starts

theorem lastSweep_step (p : Process) {e : Event} (quiet : ¬ e.starts ∧ ¬ e.sweeps) :
    (processStep app p e).lastSweep = p.lastSweep := by
  cases e with
  | retention now tick =>
    cases tick with
    | swept => exact absurd trivial quiet.2
    | clearedOnly => rfl
    | failed => rfl
  | start now boot reconciled => exact absurd trivial quiet.1
  | request r => rfl
  | sessionSweep now => rfl
  | selfcheck s => rfl

theorem Unremembered.concat {events : List Event} (unremembered : Unremembered events)
    {e : Event} (other : ¬ e.sweeps) : Unremembered (events ++ [e]) := by
  intro earlier t later split
  rcases List.eq_nil_or_concat later with rfl | ⟨front, last, rfl⟩
  · obtain ⟨_, same⟩ := List.append_inj' split rfl
    rw [(List.cons.inj same).1] at other
    exact absurd trivial other
  · rw [List.concat_eq_append, ← List.cons_append, ← List.append_assoc] at split
    obtain ⟨before, same⟩ := List.append_inj' split rfl
    obtain ⟨start, member, starts⟩ := unremembered earlier t front before
    exact ⟨start, by simp [member], starts⟩

theorem unremembered_start {events : List Event} {e : Event} (starts : e.starts) :
    Unremembered (events ++ [e]) := by
  intro earlier t later split
  rcases List.eq_nil_or_concat later with rfl | ⟨front, last, rfl⟩
  · obtain ⟨_, same⟩ := List.append_inj' split rfl
    rw [(List.cons.inj same).1] at starts
    exact starts.elim
  · rw [List.concat_eq_append, ← List.cons_append, ← List.append_assoc] at split
    obtain ⟨_, same⟩ := List.append_inj' split rfl
    exact ⟨last, by simp, (List.cons.inj same).1 ▸ starts⟩

/-- What a process remembers after a run. -/
theorem lastSweep_cases (events : List Event) :
    ((processAfter app events).lastSweep = none ∧ Unremembered events) ∨
      ∃ s earlier later, (processAfter app events).lastSweep = some s ∧
        Remembered app events s earlier later := by
  induction events using List.reverseRecOn with
  | nil => exact Or.inl ⟨rfl, fun earlier t later split => by simp at split⟩
  | append_singleton events e ih =>
    rw [processAfter_concat]
    by_cases starts : e.starts
    · refine Or.inl ⟨?_, unremembered_start starts⟩
      cases e with
      | start now boot reconciled => rfl
      | request _ => exact starts.elim
      | retention _ _ => exact starts.elim
      | sessionSweep _ => exact starts.elim
      | selfcheck _ => exact starts.elim
    · by_cases sweeps : e.sweeps
      · cases e with
        | retention now tick =>
          cases tick with
          | swept =>
            exact Or.inr ⟨_, events, [], rfl, rfl, by simp, _, _, rfl, rfl, rfl⟩
          | clearedOnly => exact sweeps.elim
          | failed => exact sweeps.elim
        | request _ => exact sweeps.elim
        | start _ _ _ => exact sweeps.elim
        | sessionSweep _ => exact sweeps.elim
        | selfcheck _ => exact sweeps.elim
      · rw [lastSweep_step app _ ⟨starts, sweeps⟩]
        rcases ih with ⟨none, unremembered⟩ | ⟨s, earlier, later, found, remembered⟩
        · exact Or.inl ⟨none, unremembered.concat sweeps⟩
        · refine Or.inr ⟨s, earlier, later ++ [e], found, ?_, ?_, remembered.counted⟩
          · rw [remembered.run, List.append_assoc]
            rfl
          · intro other member
            rcases List.mem_append.mp member with before | last
            · exact remembered.since other before
            · rw [List.mem_singleton.mp last]
              exact ⟨starts, sweeps⟩

/-! ## What a sweep leaves -/

/-- Nothing is stored from before the cutoffs of a sweep at the instant, but what was received
since. -/
structure SweptSince (t : Int) (db : Db) : Prop where
  checks : ∀ c ∈ db.checkResult, c.collectedAt < cutoff t app.cfg.checkRetentionDays →
    ∃ r ∈ db.report, r.id = c.reportId ∧ datetime3 t ≤ r.receivedAt
  payloads : ∀ r ∈ db.report, r.raw.isSome = true →
    r.receivedAt < cutoff t app.cfg.rawRetentionDays → datetime3 t ≤ r.receivedAt

/-- The same of a ledger. -/
def SweptLedger (t : Int) (ledger : List Entry) : Prop :=
  ∀ e ∈ ledger, t ≤ e.call.now ∨
    ((e.storedAt < cutoff t app.cfg.checkRetentionDays → e.checksSwept = true) ∧
      (datetime3 e.call.now < cutoff t app.cfg.rawRetentionDays → e.rawCleared = true))

omit [DecidableEq Host] in
theorem sweptLedger_sweep (t : Int) (ledger : List Entry) :
    SweptLedger app t
      (ledgerStep app.env ledger (.sweep t app.cfg.rawRetentionDays app.cfg.checkRetentionDays)) := by
  intro e member
  obtain ⟨old, _, rfl⟩ := List.mem_map.mp member
  refine Or.inr ⟨fun before => ?_, fun before => ?_⟩
  · exact (Bool.or_eq_true _ _).mpr (Or.inr (decide_eq_true before))
  · exact (Bool.or_eq_true _ _).mpr (Or.inr (decide_eq_true before))

omit [DecidableEq Host] in
theorem sweptLedger_step {t : Int} {ledger : List Entry} (swept : SweptLedger app t ledger)
    {op : Op} (later : ∀ call, op = .ingest call → t ≤ call.now) :
    SweptLedger app t (ledgerStep app.env ledger op) := by
  intro e member
  rcases mem_ledgerStep member with old | ⟨call, rfl, _, rfl⟩ | ⟨now, raw, checks, rfl, old, stored, rfl⟩
  · exact swept e old
  · exact Or.inl (later call rfl)
  · rcases swept old stored with since | ⟨cut, cleared⟩
    · exact Or.inl since
    · refine Or.inr ⟨fun before => ?_, fun before => ?_⟩
      · show (old.checksSwept || _) = true
        rw [cut before, Bool.true_or]
      · show (old.rawCleared || _) = true
        rw [cleared before, Bool.true_or]

omit [DecidableEq Host] in
theorem sweptSince_of_ledger {t : Int} {ledger : List Entry} {db : Db}
    (rep : Represents app.env ledger db) (swept : SweptLedger app t ledger) :
    SweptSince app t db where
  checks := by
    intro c inTable before
    rw [rep.checkResult] at inTable
    obtain ⟨e, member, own⟩ := List.mem_flatMap.mp inTable
    refine ⟨e.reportRow, ?_, (checkRows_reportId own).symm, ?_⟩
    · rw [rep.report]
      exact List.mem_map_of_mem member
    · rcases swept e member with since | ⟨cut, _⟩
      · exact datetime3_mono since
      · rw [checkRows_collectedAt own] at before
        unfold Entry.checkRows at own
        rw [cut before] at own
        cases own
  payloads := by
    intro r inTable kept before
    rw [rep.report] at inTable
    obtain ⟨e, member, rfl⟩ := List.mem_map.mp inTable
    rcases swept e member with since | ⟨_, cleared⟩
    · exact datetime3_mono since
    · have gone : e.reportRow.raw = none := if_pos (cleared before)
      rw [gone] at kept
      cases kept

omit [DecidableEq Host] in
/-- An upload is stored as of its event's instant. -/
theorem now_of_ingest {e : Event} {p : Process} {call : IngestCall}
    (writes : e.op app p = some (.ingest call)) : call.now = e.now := by
  cases e with
  | request r =>
    change r.op app p.server.store.sessions = _ at writes
    unfold Request.op at writes
    split at writes
    · obtain ⟨call', asked, same⟩ := Option.map_eq_some_iff.mp writes
      obtain rfl := Op.ingest.inj same
      unfold Request.ingestCall at asked
      simp only [Option.bind_eq_bind, Option.bind_eq_some_iff, pure, Option.some.injEq] at asked
      obtain ⟨_, _, _, _, _, _, rfl⟩ := asked
      rfl
    · obtain ⟨_, _, other⟩ := Option.map_eq_some_iff.mp writes
      cases other
    · obtain ⟨_, _, other⟩ := Option.map_eq_some_iff.mp writes
      cases other
    · obtain ⟨_, _, other⟩ := Option.map_eq_some_iff.mp writes
      cases other
    · obtain ⟨_, _, other⟩ := Option.map_eq_some_iff.mp writes
      cases other
    · cases writes
  | retention now tick => cases tick <;> cases writes
  | sessionSweep now => cases writes
  | selfcheck s =>
    obtain rfl := Op.ingest.inj (Option.some.inj writes)
    rfl
  | start now boot reconciled => cases reconciled <;> cases writes

/-- The events after a sweep keep what it left. -/
theorem sweptLedger_run {t : Int} (later : List Event) :
    ∀ (p : Process) (ledger : List Entry), (∀ e ∈ later, t ≤ e.now) → SweptLedger app t ledger →
      SweptLedger app t (Run.run (ledgerStep app.env) ledger (opsAlong app p later)) := by
  induction later with
  | nil => exact fun _ _ _ swept => swept
  | cons e rest ih =>
    intro p ledger after swept
    rw [opsAlong, Run.run_append]
    refine ih _ _ (fun other member => after other (List.mem_cons_of_mem _ member)) ?_
    cases op : e.op app p with
    | none => exact swept
    | some op' =>
      refine sweptLedger_step app swept ?_
      rintro call rfl
      rw [now_of_ingest app op]
      exact after e List.mem_cons_self

theorem opsAlong_append (first second : List Event) (p : Process) :
    opsAlong app p (first ++ second) =
      opsAlong app p first ++ opsAlong app (Run.run (processStep app) p first) second := by
  induction first generalizing p with
  | nil => rfl
  | cons e rest ih =>
    rw [List.cons_append, opsAlong, opsAlong, ih, List.append_assoc]
    rfl

/-- Whatever happened after a sweep that completed, its cutoffs hold of the store. -/
theorem sweptSince_after {events earlier later : List Event} {t : Int}
    (run : events = earlier ++ .retention t .swept :: later) (since : ∀ e ∈ later, t ≤ e.now) :
    SweptSince app t (processAfter app events).server.store.db := by
  have rep : Represents app.env
      (Run.run (ledgerStep app.env) [] (opsAlong app Process.initial events))
      (processAfter app events).server.store.db := by
    unfold processAfter
    rw [run_db]
    exact represents_run app.env _
  refine sweptSince_of_ledger app rep ?_
  rw [run, opsAlong_append, Run.run_append]
  exact sweptLedger_run app later _ _ since (sweptLedger_sweep app t _)

/-! ## The row -/

/-- What the row's verdict says of the run and of the store. -/
inductive RetentionTold (events : List Event) (now : Int) : Verdict → Prop where
  /-- No sweep completed in this process. -/
  | unremembered (none : Unremembered events) : RetentionTold events now .skip
  | overdue (s : Sweep) (earlier later : List Event)
      (remembered : Remembered app events s earlier later)
      (late : (25 * 3600 + 1) * second ≤ now - s.sweptAt) : RetentionTold events now .fail
  | inTime (s : Sweep) (earlier later : List Event)
      (remembered : Remembered app events s earlier later)
      (recent : now - s.sweptAt < (25 * 3600 + 1) * second)
      (kept : SweptSince app s.sweptAt (processAfter app events).server.store.db) :
      RetentionTold events now .pass

/-- The row is red from the first second past twenty-five hours on. -/
theorem retentionCheck_verdict {s : Sweep} {now : Int} (instant : isInstant now = true)
    (instant' : isInstant s.sweptAt = true) (after : s.sweptAt ≤ now) :
    (retentionCheck (some s) now).verdict =
      if (25 * 3600 + 1) * second ≤ now - s.sweptAt then .fail else .pass := by
  obtain ⟨_, upper⟩ := isInstant_iff.mp instant
  obtain ⟨lower, _⟩ := isInstant_iff.mp instant'
  have nonneg : 0 ≤ now - s.sweptAt := by omega
  have whole : (now - s.sweptAt).tdiv second = (now - s.sweptAt) / second :=
    Int.tdiv_eq_ediv_of_nonneg nonneg
  have age : (numSeconds (now - s.sweptAt)).toInt = (now - s.sweptAt) / second := by
    rw [← whole]
    refine toInt_numSeconds ?_ ?_
    · rw [whole]
      unfold second
      omega
    · rw [whole]
      unfold second at *
      omega
  have compared : numSeconds (now - s.sweptAt) > 25 * 3600 ↔
      (25 * 3600 + 1) * second ≤ now - s.sweptAt := by
    rw [gt_iff_lt, Int64.lt_iff_toInt_lt, age]
    have limit : (25 * 3600 : Int64).toInt = 25 * 3600 := by decide
    rw [limit]
    unfold second
    omega
  show (if numSeconds (now - s.sweptAt) > 25 * 3600 then Verdict.fail else .pass) = _
  exact if_congr compared rfl rfl

/-- A self-report at an instant, after any run whose clock did not go back: its retention row
tells whether a sweep of this process completed within twenty-five hours; and when it is green,
nothing of the store is older than that sweep's cutoffs but what was received since. -/
theorem retention_row {events : List Event} {s : Surroundings}
    (ordered : (events ++ [Event.selfcheck s]).Pairwise (fun a b => a.now ≤ b.now))
    (instants : ∀ e ∈ events ++ [Event.selfcheck s], isInstant e.now = true) :
    ∃ call, (Event.selfcheck s).op app (processAfter app events) = some (.ingest call) ∧
      ∃ row ∈ call.upload.checks, (row.sect, row.label) = ("retention", "last sweep") ∧
        RetentionTold app events s.now row.verdict := by
  refine ⟨_, rfl, retentionCheck (processAfter app events).lastSweep s.now, ?_, ?_, ?_⟩
  · show _ ∈ [poolCheck s.size s.numIdle] ++ lagChecks _ ++ [churnCheck _, _] ++ bootChecks _
    simp
  · unfold retentionCheck
    split <;> rfl
  · rcases lastSweep_cases app events with ⟨none, unremembered⟩ | ⟨sweep, earlier, later, found, remembered⟩
    · rw [none]
      exact .unremembered unremembered
    · have inRun : Event.retention sweep.sweptAt .swept ∈ events := by
        rw [remembered.run]
        simp
      have order : ∀ e ∈ later, sweep.sweptAt ≤ e.now := by
        have pairs := (List.pairwise_append.mp ordered).1
        rw [remembered.run] at pairs
        exact (List.pairwise_cons.mp (List.pairwise_append.mp pairs).2.1).1
      have before : sweep.sweptAt ≤ s.now :=
        (List.pairwise_append.mp ordered).2.2 _ inRun _ List.mem_cons_self
      have own : isInstant s.now = true := instants (Event.selfcheck s) (by simp)
      have swept : isInstant sweep.sweptAt = true :=
        instants (.retention sweep.sweptAt .swept) (List.mem_append_left _ inRun)
      rw [found, retentionCheck_verdict own swept before]
      split
      · rename_i late
        exact .overdue sweep earlier later remembered late
      · rename_i recent
        exact .inTime sweep earlier later remembered (not_le.mp recent)
          (sweptSince_after app remembered.run order)

end

/-- A sweep at boot, and the self-report an hour later. -/
def sampleBoot : List Event := [.start 0 ⟨12, 3⟩ true, .retention 0 .swept]

def sampleSurroundings : Surroundings :=
  { size := 1, numIdle := 1, boot := ⟨0, 0⟩, sweep := none, now := 3600 * second
    serverNow := 3600 * second, id := "01ARZ3NDEKTSV4RRFFQ69G5FAV", elapsedMs := 1 }

theorem retention_row_sample :
    (∃ call, (Event.selfcheck sampleSurroundings).op sampleApp (processAfter sampleApp sampleBoot) =
        some (.ingest call) ∧
      ∃ row ∈ call.upload.checks, (row.sect, row.label) = ("retention", "last sweep") ∧
        RetentionTold sampleApp sampleBoot sampleSurroundings.now row.verdict) ∧
      (retentionCheck (processAfter sampleApp sampleBoot).lastSweep (3600 * second)).verdict = .pass :=
  ⟨retention_row sampleApp (by decide) (by decide), by decide +kernel⟩

end Fleetwatch
