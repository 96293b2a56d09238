import Fleetwatch.Lib.Streak
import Fleetwatch.Proofs.LatestReport

/-!
# The failing-run table and the reports that led

`problem_since` is written by an `INSERT IGNORE` for each failing check and one
`DELETE … NOT IN`, and only by a report that becomes its producer's latest. Seen
over those reports, the leaders, it is the start of the current streak of each
label: `problemSince_exact` follows the table through any run of ingest calls.
Labels and producers are compared as the database compares them.
-/

namespace Fleetwatch

open Query Sql Streak Table

variable {env : Env} {db : Db}

/-! ## What one report does to the table -/

/-- The stored `collected_at` of a call. -/
def IngestCall.storedAt (call : IngestCall) : Int := datetime3 call.upload.collectedAt

/-- The producer a call reports for. -/
def IngestCall.producer (env : Env) (call : IngestCall) : ProducerKey :=
  producerKey env call.source call.upload.collector

theorem problemSinceRow_eq {call : IngestCall} (fits : Fits call) {c : CheckUpload}
    (member : c ∈ call.upload.checks) :
    problemSinceRow call c =
      { source := call.source
        collector := call.upload.collector
        label := c.label
        firstSeen := call.storedAt } := by
  have source := cut_eq_self (of_decide_eq_true fits.source)
  have collector := cut_eq_self (of_decide_eq_true fits.collector)
  have label := cut_eq_self (of_decide_eq_true (fits.checks c member).label)
  simp [problemSinceRow, source, collector, label, datetime3Ignore_eq fits.collectedAt,
    IngestCall.storedAt]

theorem eq_problemSinceRow_key_iff {call : IngestCall} (fits : Fits call) {c : CheckUpload}
    (member : c ∈ call.upload.checks) (k : CheckIdentity) :
    k = (problemSinceRow call c).key env ↔
      k.1 = call.producer env ∧ env.weight c.label = k.2 := by
  rw [problemSinceRow_eq fits member]
  refine Prod.ext_iff.trans (and_congr Iff.rfl ?_)
  exact eq_comm

/-- Is some check of the list failing or warning under the label? -/
def anyFails (env : Env) (label : List Nat) (checks : List CheckUpload) : Bool :=
  checks.any (fun c => c.verdict.isProblem && decide (env.weight c.label = label))

/-- The loop of `openRuns`, over checks of the call it has still to see: one run for
each identity they show failing, begun now unless it was open already. -/
theorem firstSeen_openRuns_loop {call : IngestCall} (fits : Fits call) (k : CheckIdentity)
    (checks : List CheckUpload) (members : ∀ c ∈ checks, c ∈ call.upload.checks)
    (table : List ProblemSinceRow) :
    (rowsAt (ProblemSinceRow.key env) k (checks.foldl (fun table c =>
      if c.verdict.isProblem then
        (insertIgnore (ProblemSinceRow.key env) (problemSinceRow call c) table).1
      else table) table)).map (·.firstSeen) =
    if k.1 = call.producer env ∧ anyFails env k.2 checks = true ∧
        rowsAt (ProblemSinceRow.key env) k table = [] then [call.storedAt]
    else (rowsAt (ProblemSinceRow.key env) k table).map (·.firstSeen) := by
  induction checks generalizing table with
  | nil => simp [anyFails]
  | cons c rest ih =>
    have here := members c List.mem_cons_self
    rw [List.foldl_cons, ih (fun other member => members other (List.mem_cons_of_mem _ member))]
    cases problem : c.verdict.isProblem with
    | false => simp [anyFails, problem]
    | true =>
      simp only [if_true, rowsAt_insertIgnore, eq_problemSinceRow_key_iff fits here]
      by_cases producer : k.1 = call.producer env
      · by_cases label : env.weight c.label = k.2
        · by_cases free : rowsAt (ProblemSinceRow.key env) k table = []
          · simp [anyFails, producer, label, free, problem, problemSinceRow_eq fits here]
          · simp [producer, label, free]
        · simp [anyFails, producer, label, problem]
      · simp [producer]

/-- Does the report have a failing or warning check with the label, in any section? -/
def failsLabel (env : Env) (label : List Nat) (call : IngestCall) : Bool :=
  anyFails env label call.upload.checks

theorem firstSeen_openRuns {call : IngestCall} (fits : Fits call) (k : CheckIdentity)
    (table : List ProblemSinceRow) :
    (rowsAt (ProblemSinceRow.key env) k (openRuns env call table)).map (·.firstSeen) =
      if k.1 = call.producer env ∧ failsLabel env k.2 call = true ∧
          rowsAt (ProblemSinceRow.key env) k table = [] then [call.storedAt]
      else (rowsAt (ProblemSinceRow.key env) k table).map (·.firstSeen) :=
  firstSeen_openRuns_loop fits k call.upload.checks (fun _ member => member) table

/-- The `NOT IN` list names the label exactly when the report shows it failing. -/
theorem failing_names_iff (call : IngestCall) (label : List Nat) :
    ((failing call.upload).isEmpty ||
        (failing call.upload).all (fun l => decide (label ≠ env.weight l))) = true ↔
      failsLabel env label call = false := by
  have named : failsLabel env label call = (failing call.upload).any
      (fun l => decide (label = env.weight l)) := by
    unfold failsLabel anyFails failing
    rw [List.any_map, List.any_filter]
    congr 1
    funext c
    simp [eq_comm]
  rw [named]
  cases labels : failing call.upload with
  | nil => simp
  | cons first rest => simp

/-- Ending runs deletes the producer's that the report does not show failing. -/
theorem rowsAt_endRuns (call : IngestCall) (k : CheckIdentity) (table : List ProblemSinceRow) :
    rowsAt (ProblemSinceRow.key env) k (endRuns env call table) =
      if k.1 = call.producer env ∧ failsLabel env k.2 call = false then []
      else rowsAt (ProblemSinceRow.key env) k table := by
  unfold endRuns
  rw [rowsAt_deleteWhere_of_const
    (decide (k.1 = call.producer env ∧ failsLabel env k.2 call = false))]
  · simp only [decide_eq_true_eq]
  · rintro row _ rfl
    rw [Bool.eq_iff_iff, Bool.and_eq_true, decide_eq_true_iff, decide_eq_true_iff,
      failing_names_iff]
    exact Iff.rfl

/-- A leader continues or opens the runs it shows failing and ends the producer's
others. -/
theorem firstSeen_leader {call : IngestCall} (fits : Fits call) (k : CheckIdentity)
    (table : List ProblemSinceRow) :
    (rowsAt (ProblemSinceRow.key env) k (endRuns env call (openRuns env call table))).map
        (·.firstSeen) =
      if k.1 = call.producer env then
        if failsLabel env k.2 call = true then
          if rowsAt (ProblemSinceRow.key env) k table = [] then [call.storedAt]
          else (rowsAt (ProblemSinceRow.key env) k table).map (·.firstSeen)
        else []
      else (rowsAt (ProblemSinceRow.key env) k table).map (·.firstSeen) := by
  rw [rowsAt_endRuns]
  by_cases own : k.1 = call.producer env
  · cases fails : failsLabel env k.2 call with
    | true => simp [own, firstSeen_openRuns fits, fails]
    | false => simp [own]
  · simp [own, firstSeen_openRuns fits]

/-! ## The leaders of a run -/

/-- The call stored its report and became its producer's latest. -/
def led (env : Env) (call : IngestCall) (db : Db) : Bool :=
  decide ((ingest env call db).1 = .ok (storedAck call)) &&
    (ingest env call db).2.latestReport.any (fun l =>
      l.key env = call.producer env ∧ l.reportId = call.upload.id)

/-- A run of ingest calls beside the list of those that led, newest first. -/
def leaderStep (env : Env) (state : Db × List IngestCall) (call : IngestCall) :
    Db × List IngestCall :=
  ((ingest env call state.1).2, if led env call state.1 then call :: state.2 else state.2)

/-- The calls of a run that led when they were ingested, newest first. -/
def leadersAfter (env : Env) (calls : List IngestCall) : List IngestCall :=
  (Run.run (leaderStep env) (Db.empty, []) calls).2

/-- Those of one producer. -/
def ofProducer (env : Env) (producer : ProducerKey) (history : List IngestCall) :
    List IngestCall :=
  history.filter (fun call => call.producer env = producer)

/-- The leader the current failing run of an identity began with. -/
def runStart (env : Env) (k : CheckIdentity) (history : List IngestCall) : Option IngestCall :=
  streakStart (failsLabel env k.2) (ofProducer env k.1 history)

/-- What the tables say about the leaders so far: a pointer names its producer's last
one, and a failing run is open exactly as long as its streak. -/
structure FollowsLeaders (env : Env) (ledger : List Entry) (history : List IngestCall) (db : Db) :
    Prop where
  rep : Represents env ledger db
  newest : ∀ l ∈ db.latestReport, ∀ e, PointsTo env ledger l e →
    (ofProducer env (l.key env) history).head? = some e.call
  runs : ∀ k, (rowsAt (ProblemSinceRow.key env) k db.problemSince).map (·.firstSeen) =
    ((runStart env k history).map IngestCall.storedAt).toList

/-! ## One call -/

variable {ledger : List Entry} {history : List IngestCall}

theorem isLatest_iff {table : List LatestReportRow} (keyed : Keyed (LatestReportRow.key env) table)
    (call : IngestCall) :
    isLatest env call table = true ↔
      ∃ l ∈ table, l.key env = call.producer env ∧ l.reportId = call.upload.id := by
  unfold isLatest
  rw [decide_eq_true_iff, Option.map_eq_some_iff]
  constructor
  · rintro ⟨l, found, named⟩
    have own := List.find?_some found
    exact ⟨l, List.mem_of_find?_eq_some found, of_decide_eq_true own, named⟩
  · rintro ⟨l, member, own, named⟩
    cases found : table.find? (fun row => row.key env = producerKey env call.source
        call.upload.collector) with
    | none =>
      have other := List.find?_eq_none.mp found l member
      exact absurd (decide_eq_true own) other
    | some first =>
      have hit := List.find?_some found
      have same := keyed.eq_of_key_eq (List.mem_of_find?_eq_some found) member
        ((of_decide_eq_true hit).trans own.symm)
      exact ⟨first, rfl, same ▸ named⟩

theorem led_of_accepts (rep : Represents env ledger db) {call : IngestCall}
    (accepts : Accepts env ledger call) : led env call db = leads env call db := by
  unfold led leads
  rw [ingest_of_accepts rep accepts, decide_eq_true rfl, Bool.true_and, Bool.eq_iff_iff,
    isLatest_iff (rep.latest.advanced call).keyed, List.any_eq_true]
  simp only [decide_eq_true_eq]
  exact Iff.rfl

theorem led_of_not_accepts (rep : Represents env ledger db) {call : IngestCall}
    (refuses : ¬ Accepts env ledger call) : led env call db = false := by
  unfold led
  rw [Bool.and_eq_false_iff]
  refine Or.inl (decide_eq_false ?_)
  intro result
  cases outcome : ingest env call db with
  | mk answer after =>
    rw [outcome] at result
    cases outcome ▸ ingest_outcome env call db with
    | rejected err why => cases result
    | replayed admitted taken => cases Except.ok.inj result
    | stored admitted free fits => exact refuses (accepts_of_stored rep admitted free fits)

/-- After the upsert a pointer names the new report of its producer or is as it was. -/
theorem mem_advanced (rep : Represents env ledger db) {call : IngestCall} {l : LatestReportRow}
    (member : l ∈ advanced env call db.latestReport) :
    (l.key env = call.producer env ∧ l.reportId = call.upload.id) ∨ l ∈ db.latestReport := by
  rcases mem_upsert.mp member with ⟨_, rfl⟩ | ⟨row, stored, rfl⟩
  · exact Or.inl ⟨rfl, rfl⟩
  · obtain ⟨e, points⟩ := rep.latest.sound row stored
    by_cases hit : row.key env = (pointerRow call).key env
    · rw [if_pos hit]
      by_cases takes : Takes env call.upload.id call.upload.collectedAt row
      · rw [advancePointer_of_takes points.whole takes]
        exact Or.inl ⟨hit, rfl⟩
      · rw [advancePointer_of_not_takes takes]
        exact Or.inr stored
    · rw [if_neg hit]
      exact Or.inr stored

theorem ofProducer_cons (producer : ProducerKey) (call : IngestCall) (history : List IngestCall) :
    ofProducer env producer (call :: history) =
      if call.producer env = producer then call :: ofProducer env producer history
      else ofProducer env producer history := by
  unfold ofProducer
  by_cases own : call.producer env = producer <;> simp [own]

theorem runStart_cons (k : CheckIdentity) (call : IngestCall) (history : List IngestCall) :
    runStart env k (call :: history) =
      if k.1 = call.producer env then
        if failsLabel env k.2 call = true then some ((runStart env k history).getD call) else none
      else runStart env k history := by
  unfold runStart
  rw [ofProducer_cons]
  by_cases own : k.1 = call.producer env
  · rw [if_pos own.symm, if_pos own, streakStart_cons]
  · rw [if_neg (Ne.symm own), if_neg own]

/-- A pointer that was there before goes on following its producer's leaders when the
call did not lead it. -/
theorem FollowsLeaders.newest_of_old (follows : FollowsLeaders env ledger history db)
    {call : IngestCall} (accepts : Accepts env ledger call) {l : LatestReportRow} {e : Entry}
    (old : l ∈ db.latestReport) (points : PointsTo env (ledger ++ [Entry.new call]) l e) :
    (ofProducer env (l.key env) history).head? = some e.call := by
  obtain ⟨e', points'⟩ := follows.rep.latest.sound l old
  obtain rfl : e = e' := (follows.rep.stored accepts).pointee_eq points
    (List.mem_append_left _ points'.member) points'.reportId
  exact follows.newest l old e points'

theorem FollowsLeaders.stored (follows : FollowsLeaders env ledger history db)
    {call : IngestCall} (accepts : Accepts env ledger call) :
    FollowsLeaders env (ledger ++ [Entry.new call])
      (if leads env call db then call :: history else history) (stored env call db) := by
  have rep' := follows.rep.stored accepts
  have keyed := (follows.rep.latest.advanced call).keyed
  refine ⟨rep', ?_, ?_⟩
  · intro l inTable e points
    cases leading : leads env call db with
    | true =>
      obtain ⟨l', inTable', own, named⟩ := (isLatest_iff keyed call).mp leading
      rw [if_pos rfl, ofProducer_cons]
      by_cases same : l.key env = call.producer env
      · obtain rfl : l = l' := keyed.eq_of_key_eq inTable inTable' (same.trans own.symm)
        obtain rfl : e = Entry.new call := rep'.pointee_eq points (by simp) named
        rw [if_pos same.symm]
        rfl
      · rw [if_neg (Ne.symm same)]
        rcases mem_advanced follows.rep inTable with ⟨own', _⟩ | old
        · exact absurd own' same
        · exact follows.newest_of_old accepts old points
    | false =>
      rw [if_neg Bool.false_ne_true]
      rcases mem_advanced follows.rep inTable with taken | old
      · have leading' := (isLatest_iff keyed call).mpr ⟨l, inTable, taken⟩
        exact absurd (leading.symm.trans leading') Bool.false_ne_true
      · exact follows.newest_of_old accepts old points
  · intro k
    have before := follows.runs k
    cases leading : leads env call db with
    | false =>
      simp only [Fleetwatch.stored, leading, Bool.false_eq_true, if_false]
      exact before
    | true =>
      simp only [Fleetwatch.stored, leading, if_true, firstSeen_leader accepts.fits, runStart_cons]
      by_cases own : k.1 = call.producer env
      · by_cases fails : failsLabel env k.2 call = true
        · cases start : runStart env k history with
          | none =>
            have closed : rowsAt (ProblemSinceRow.key env) k db.problemSince = [] := by
              simpa [start] using before
            simp [own, fails, closed]
          | some first =>
            have opened : rowsAt (ProblemSinceRow.key env) k db.problemSince ≠ [] := by
              intro closed
              simp [start, closed] at before
            simp [own, fails, opened, before, start]
        · simp [own, fails]
      · simpa [own] using before

/-- The step lemma: whatever the call, the tables go on following the leaders. -/
theorem FollowsLeaders.step (follows : FollowsLeaders env ledger history db) (call : IngestCall) :
    ∃ ledger', FollowsLeaders env ledger' (leaderStep env (db, history) call).2
      (leaderStep env (db, history) call).1 := by
  unfold leaderStep
  by_cases accepts : Accepts env ledger call
  · refine ⟨ledger ++ [Entry.new call], ?_⟩
    simp only [led_of_accepts follows.rep accepts, ingest_of_accepts follows.rep accepts]
    exact follows.stored accepts
  · refine ⟨ledger, ?_⟩
    simp only [led_of_not_accepts follows.rep accepts, ingest_of_not_accepts follows.rep accepts]
    exact follows

/-! ## Runs -/

theorem leaders_run_fst (env : Env) (calls : List IngestCall) :
    (Run.run (leaderStep env) (Db.empty, []) calls).1 = ingestAll env Db.empty calls :=
  Run.run_simulation (fun (state : Db × List IngestCall) (db : Db) => state.1 = db)
    (fun _ _ call same => congrArg (fun db => (ingest env call db).2) same) calls (Db.empty, [])
    Db.empty rfl

/-- The leaders after one more call. -/
theorem leadersAfter_append_singleton (env : Env) (calls : List IngestCall) (call : IngestCall) :
    leadersAfter env (calls ++ [call]) =
      if led env call (ingestAll env Db.empty calls) then call :: leadersAfter env calls
      else leadersAfter env calls := by
  unfold leadersAfter
  rw [Run.run_append, Run.run_cons, Run.run_nil, ← leaders_run_fst]
  rfl

theorem followsLeaders_run (env : Env) (calls : List IngestCall) :
    ∃ ledger, FollowsLeaders env ledger (leadersAfter env calls)
      (ingestAll env Db.empty calls) := by
  induction calls using List.reverseRecOn with
  | nil =>
    refine ⟨[], represents_empty env, ?_, fun _ => rfl⟩
    intro l inTable
    cases inTable
  | append_singleton earlier call ih =>
    obtain ⟨ledger, follows⟩ := ih
    rw [leadersAfter_append_singleton, ingestAll_append_singleton]
    exact follows.step call

/-- What the failing-run table and the problems view owe the leaders of a run. -/
structure RunsExact (env : Env) (history : List IngestCall) (db : Db) : Prop where
  /-- At most one row for an identity. -/
  keyed : Keyed (ProblemSinceRow.key env) db.problemSince
  /-- A run is open exactly when the producer's last leader shows the label failing. -/
  opened_iff : ∀ source collector label,
    (∃ row ∈ db.problemSince, row.key env = checkIdentity env source collector label) ↔
      ∃ last ∈ (ofProducer env (producerKey env source collector) history).head?,
        failsLabel env (env.weight label) last = true
  /-- It began with the first leader of the unbroken run. -/
  firstSeen : ∀ row ∈ db.problemSince,
    ∃ first, runStart env (row.key env) history = some first ∧ row.firstSeen = first.storedAt
  /-- The view shows that start, and confirms a run older than the latest report. -/
  shown : ∀ now, ∀ c ∈ (problems env now db).checks,
    ∃ first, runStart env (checkIdentity env c.source c.collector c.label) history = some first ∧
      c.firstSeen = some first.storedAt ∧
      ∃ l ∈ db.latestReport, l.key env = producerKey env c.source c.collector ∧
        (c.confirmed = true ↔ first.storedAt < l.collectedAt)

theorem runStart_isSome_iff (k : CheckIdentity) :
    (runStart env k history).isSome = true ↔
      ∃ last ∈ (ofProducer env k.1 history).head?, failsLabel env k.2 last = true :=
  streakStart_isSome _ _

/-- A failing check of an entry makes its report fail the label. -/
theorem failsLabel_of_mem {e : Entry} {c : CheckRow} (member : c ∈ e.checkRows)
    (problem : c.verdict.isProblem = true) : failsLabel env (env.weight c.label) e.call = true := by
  obtain ⟨i, upload, inUpload, rfl⟩ := mem_entry_checkRows member
  unfold failsLabel anyFails
  rw [List.any_eq_true]
  refine ⟨upload, inUpload, ?_⟩
  rw [Bool.and_eq_true]
  exact ⟨problem, decide_eq_true rfl⟩

/-- Every row of the problems query carries the start of its run. -/
theorem FollowsLeaders.problemRow (follows : FollowsLeaders env ledger history db)
    {r : ProblemRow} (member : r ∈ problemRows env db) :
    ∃ first, runStart env (r.check.identity env) history = some first ∧
      r.firstSeen = some first.storedAt ∧
      ∃ l ∈ db.latestReport, l.key env = (r.check.identity env).1 ∧
        l.collectedAt = r.check.collectedAt := by
  obtain ⟨inLatest, since⟩ := (mem_problemRows follows.rep).mp member
  obtain ⟨l, inTable, e, points, own, problem⟩ := (mem_latestProblems follows.rep).mp inLatest
  have producer : l.key env = (r.check.identity env).1 :=
    points.producer.trans (checkRows_producer own).symm
  have last := follows.newest l inTable e points
  rw [producer] at last
  have started := (runStart_isSome_iff (r.check.identity env)).mpr
    ⟨e.call, last, failsLabel_of_mem own problem⟩
  obtain ⟨first, start⟩ := Option.isSome_iff_exists.mp started
  refine ⟨first, start, ?_, l, inTable, producer, ?_⟩
  · rw [since, follows.runs, start]
    rfl
  · rw [points.collectedAt, checkRows_collectedAt own]

theorem FollowsLeaders.runsExact (follows : FollowsLeaders env ledger history db) :
    RunsExact env history db where
  keyed := follows.rep.problemSince
  opened_iff := by
    intro source collector label
    refine Iff.trans ?_ (runStart_isSome_iff (checkIdentity env source collector label))
    have runs := follows.runs (checkIdentity env source collector label)
    constructor
    · rintro ⟨row, stored, same⟩
      have occupied := follows.rep.problemSince.rowsAt_eq stored
      rw [same] at occupied
      rw [occupied] at runs
      cases start : runStart env (checkIdentity env source collector label) history with
      | none => simp [start] at runs
      | some first => rfl
    · intro started
      obtain ⟨first, start⟩ := Option.isSome_iff_exists.mp started
      rw [start] at runs
      obtain ⟨row, rows, _⟩ := List.map_eq_singleton_iff.mp runs
      have member := mem_rowsAt.mp (rows ▸ List.mem_cons_self)
      exact ⟨row, member.1, member.2⟩
  firstSeen := by
    intro row stored
    have runs := follows.runs (row.key env)
    rw [follows.rep.problemSince.rowsAt_eq stored] at runs
    cases start : runStart env (row.key env) history with
    | none => simp [start] at runs
    | some first => exact ⟨first, rfl, by simpa [start] using runs⟩
  shown := by
    intro now c member
    obtain ⟨r, found, rfl⟩ := List.mem_map.mp member
    obtain ⟨first, start, since, l, inTable, producer, collectedAt⟩ :=
      follows.problemRow (List.mem_filter.mp found).1
    refine ⟨first, start, since, l, inTable, producer, ?_⟩
    rw [collectedAt]
    show confirmed r = true ↔ _
    unfold confirmed
    rw [since]
    exact decide_eq_true_iff

/-- After every run of ingest calls, in any arrival order, the failing-run table is exact
over the reports that led. -/
theorem problemSince_exact (env : Env) (calls : List IngestCall) :
    RunsExact env (leadersAfter env calls) (ingestAll env Db.empty calls) := by
  obtain ⟨ledger, follows⟩ := followsLeaders_run env calls
  exact follows.runsExact

end Fleetwatch
