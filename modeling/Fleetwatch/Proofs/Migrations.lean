import Fleetwatch.Migrations
import Fleetwatch.Proofs.ArrivalOrder

/-!
# Where the backfills agree with ingest

A database that has its history but not yet its two derived tables is backfilled, and compared
with a service that kept them all along and was sent each producer's reports oldest first. In
whatever order the reports had really arrived the tiles are the same. The age of a fault is
read off the passes of its check, where ingest goes by the reports: a report that leaves the
check out ends the fault for ingest and not for the backfill, and one that shows it both failing
and passing ends it for the backfill and not for ingest. The problems are the same exactly where
neither moves the start of a fault that is there now.
-/

namespace Fleetwatch

open Query Sql Streak Table

variable {env : Env} {ledger : List Entry} {db : Db} {calls : List IngestCall}

/-! ## The rows of the backfill -/

/-- `DISTINCT` keeps one row of each identity. -/
theorem exists_failingNow {c : CheckRow} (member : c ∈ latestProblems env db) :
    ∃ kept ∈ failingNow env db, kept.identity env = c.identity env := by
  by_contra none
  have apart : ∀ kept ∈ failingNow env db, c.identity env ≠ kept.identity env :=
    fun kept found same => none ⟨kept, found, same.symm⟩
  refine (List.forall_mem_pwFilter ?_ c _).mp apart c member rfl
  intro x y z differ
  by_contra both
  rw [not_or, not_not, not_not] at both
  exact differ (both.1.trans both.2)

theorem startedRow_key {row : ProblemSinceRow} {c : CheckRow}
    (made : startedRow env db c = some row) :
    row.key env = c.identity env ∧ started env (c.identity env) db = some row.firstSeen := by
  obtain ⟨t, start, rfl⟩ := Option.map_eq_some_iff.mp made
  exact ⟨rfl, start⟩

theorem keyed_startedRows :
    Keyed (ProblemSinceRow.key env) ((failingNow env db).filterMap (startedRow env db)) := by
  unfold Keyed
  rw [List.Nodup, List.pairwise_map, List.pairwise_filterMap]
  refine (List.pairwise_pwFilter _).imp ?_
  intro c c' apart row made row' made' same
  rw [(startedRow_key made).1, (startedRow_key made').1] at same
  exact apart same

/-- Rows with keys of their own are appended. -/
theorem foldl_insertStarted {rows table : List ProblemSinceRow}
    (keyed : Keyed (ProblemSinceRow.key env) (table ++ rows)) :
    rows.foldl (insertStarted env) table = table ++ rows := by
  induction rows generalizing table with
  | nil => rw [List.foldl_nil, List.append_nil]
  | cons row rest ih =>
    have fresh : clashes (ProblemSinceRow.key env) row table = false := by
      rw [not_clashes_iff]
      unfold Keyed at keyed
      rw [List.map_append] at keyed
      intro stored inTable same
      exact (List.nodup_append.mp keyed).2.2 _ (List.mem_map_of_mem inTable) _
        List.mem_cons_self same
    have appended : insertStarted env table row = table ++ [row] := by
      unfold insertStarted upsert
      rw [fresh]
      rfl
    rw [List.foldl_cons, appended, ih (by simpa using keyed), List.append_assoc]
    rfl

/-- On an empty table the backfill leaves exactly its rows. -/
theorem backfillProblemSince_empty (empty : db.problemSince = []) :
    (backfillProblemSince env db).problemSince =
      (failingNow env db).filterMap (startedRow env db) := by
  unfold backfillProblemSince
  rw [empty]
  have keyed : Keyed (ProblemSinceRow.key env)
      ([] ++ (failingNow env db).filterMap (startedRow env db)) := keyed_startedRows
  rw [foldl_insertStarted keyed, List.nil_append]

/-- What they say of an identity that fails now. -/
theorem firstSeen_backfilled {c : CheckRow} (member : c ∈ latestProblems env db) :
    (rowsAt (ProblemSinceRow.key env) (c.identity env)
        ((failingNow env db).filterMap (startedRow env db))).map (·.firstSeen) =
      (started env (c.identity env) db).toList := by
  obtain ⟨kept, found, same⟩ := exists_failingNow member
  cases start : started env (c.identity env) db with
  | none =>
    rw [Option.toList_none, List.map_eq_nil_iff, List.eq_nil_iff_forall_not_mem]
    intro row inRows
    obtain ⟨inTable, own⟩ := mem_rowsAt.mp inRows
    obtain ⟨c', -, made⟩ := List.mem_filterMap.mp inTable
    obtain ⟨key, begun⟩ := startedRow_key made
    rw [← key, own, start] at begun
    cases begun
  | some t =>
    have made : startedRow env db kept = some
        { source := kept.source, collector := kept.collector, label := kept.label,
          firstSeen := t } := by
      unfold startedRow
      rw [same, start]
      rfl
    have row := keyed_startedRows.rowsAt_eq (List.mem_filterMap.mpr ⟨kept, found, made⟩)
    rw [(startedRow_key made).1, same] at row
    rw [row]
    rfl

/-! ## The start of a run -/

/-- Does the report show the label passing or skipped, in some section? -/
def passesLabel (env : Env) (label : List Nat) (call : IngestCall) : Bool :=
  call.upload.checks.any (fun c => !c.verdict.isProblem && decide (env.weight c.label = label))

/-- A fault that began at an instant is told apart by the passes of its check: each of them comes
before it, and an earlier failure is no later than one of them. -/
structure ToldByPasses (env : Env) (calls : List IngestCall) (k : CheckIdentity) (begun : Int) :
    Prop where
  passes : ∀ call ∈ calls, call.producer env = k.1 → passesLabel env k.2 call = true →
    call.storedAt < begun
  failures : ∀ call ∈ calls, call.producer env = k.1 → failsLabel env k.2 call = true →
    call.storedAt < begun → ∃ pass ∈ calls, pass.producer env = k.1 ∧
      passesLabel env k.2 pass = true ∧ call.storedAt ≤ pass.storedAt

/-- So is every fault of a producer's newest report, dated from the report its current run of
failures began with. -/
def ToldApart (env : Env) (calls : List IngestCall) : Prop :=
  ∀ latest, NewestOf env calls latest → ∀ label, failsLabel env label latest = true →
    ∀ first, runStart env (latest.producer env, label) (newestFirst calls) = some first →
      ToldByPasses env calls (latest.producer env, label) first.storedAt

/-- The stored checks of some reports under an identity. -/
theorem mem_checksUnder {calls : List IngestCall}
    (stored : db.checkResult = (calls.map Entry.new).flatMap Entry.checkRows) {k : CheckIdentity}
    {row : CheckRow} :
    row ∈ checksUnder env k db ↔
      ∃ call ∈ calls, row ∈ (Entry.new call).checkRows ∧ call.producer env = k.1 ∧
        env.weight row.label = k.2 := by
  unfold checksUnder
  rw [List.mem_filter, stored, List.flatMap_map, List.mem_flatMap, decide_eq_true_iff]
  constructor
  · rintro ⟨⟨call, member, own⟩, identity⟩
    refine ⟨call, member, own, ?_, congrArg Prod.snd identity⟩
    rw [← identity]
    exact (checkRows_producer own).symm
  · rintro ⟨call, member, own, producer, label⟩
    refine ⟨⟨call, member, own⟩, Prod.ext ?_ label⟩
    exact (checkRows_producer own).trans producer

/-- The instants of those whose verdict is of a kind: the reports that show the label so. -/
theorem mem_instants {calls : List IngestCall}
    (stored : db.checkResult = (calls.map Entry.new).flatMap Entry.checkRows) {k : CheckIdentity}
    (kind : Verdict → Bool) (t : Int) :
    t ∈ ((checksUnder env k db).filter (fun c => kind c.verdict)).map CheckRow.collectedAt ↔
      ∃ call ∈ calls, call.producer env = k.1 ∧
        call.upload.checks.any (fun c => kind c.verdict && decide (env.weight c.label = k.2)) =
            true ∧
          call.storedAt = t := by
  rw [List.mem_map]
  constructor
  · rintro ⟨row, found, rfl⟩
    obtain ⟨under, verdict⟩ := List.mem_filter.mp found
    obtain ⟨call, member, own, producer, label⟩ := (mem_checksUnder stored).mp under
    obtain ⟨i, c, uploaded, rfl⟩ := mem_entry_checkRows own
    refine ⟨call, member, producer, ?_, rfl⟩
    rw [List.any_eq_true]
    exact ⟨c, uploaded, (Bool.and_eq_true _ _).mpr ⟨verdict, decide_eq_true label⟩⟩
  · rintro ⟨call, member, own, shown, rfl⟩
    obtain ⟨c, uploaded, both⟩ := List.any_eq_true.mp shown
    obtain ⟨verdict, label⟩ := (Bool.and_eq_true _ _).mp both
    obtain ⟨i, row⟩ := exists_checkRow uploaded
    refine ⟨checkRow call i c, List.mem_filter.mpr ⟨?_, verdict⟩, rfl⟩
    exact (mem_checksUnder stored).mpr ⟨call, member, row, own, of_decide_eq_true label⟩

theorem perm_newestFirst (calls : List IngestCall) : calls.Perm (newestFirst calls) :=
  (orderBy_perm calls).symm

/-- Newest first, a producer's reports are each older than the one before. -/
theorem pairwise_newestFirst (storable : Storable env calls) (producer : ProducerKey) :
    (ofProducer env producer (newestFirst calls)).Pairwise
      (fun a b => b.storedAt < a.storedAt) := by
  have apart := (storable.perm (perm_newestFirst calls)).instants
  have sorted : (newestFirst calls).Pairwise (fun a b => -a.storedAt ≤ -b.storedAt) :=
    pairwise_orderBy calls
  refine ((sorted.and apart).filter _).imp_of_mem ?_
  rintro a b inA inB ⟨older, differ⟩
  have producerA := of_decide_eq_true (List.mem_filter.mp inA).2
  have producerB := of_decide_eq_true (List.mem_filter.mp inB).2
  have other := differ (producerA.trans producerB.symm)
  omega

/-- The report a run began with is one of the producer's that shows the label failing. -/
theorem mem_of_runStart {k : CheckIdentity} {first : IngestCall}
    (began : runStart env k (newestFirst calls) = some first) :
    first ∈ calls ∧ first.producer env = k.1 ∧ failsLabel env k.2 first = true := by
  obtain ⟨inHistory, fails⟩ := mem_of_streakStart began
  obtain ⟨member, own⟩ := List.mem_filter.mp inHistory
  exact ⟨mem_orderBy.mp member, of_decide_eq_true own, fails⟩

/-- A label that fails in its producer's newest report has a run. -/
theorem exists_runStart (storable : Storable env calls) {latest : IngestCall}
    (newest : NewestOf env calls latest) {label : List Nat}
    (fails : failsLabel env label latest = true) :
    ∃ first, runStart env (latest.producer env, label) (newestFirst calls) = some first := by
  have own : latest ∈ ofProducer env (latest.producer env) (newestFirst calls) :=
    List.mem_filter.mpr ⟨mem_orderBy.mpr newest.1, decide_eq_true rfl⟩
  have ordered := pairwise_newestFirst storable (latest.producer env)
  refine Option.isSome_iff_exists.mp ((streakStart_isSome _ _).mpr ⟨latest, ?_, fails⟩)
  cases history : ofProducer env (latest.producer env) (newestFirst calls) with
  | nil =>
    rw [history] at own
    cases own
  | cons head rest =>
    rw [history] at own ordered
    rcases List.mem_cons.mp own with rfl | later
    · rfl
    · have inHistory : head ∈ ofProducer env (latest.producer env) (newestFirst calls) := by
        rw [history]
        exact List.mem_cons_self
      obtain ⟨member, producer⟩ := List.mem_filter.mp inHistory
      have older := (List.pairwise_cons.mp ordered).1 latest later
      have atMost := newest.2 head (mem_orderBy.mp member) (of_decide_eq_true producer)
      exact absurd older (not_lt.mpr atMost)

/-- The earliest failure since the last pass is where the run began exactly where its check's
passes tell the fault apart. -/
theorem started_eq_runStart_iff (dated : ∀ call ∈ calls, 0 < call.storedAt)
    (stored : db.checkResult = (calls.map Entry.new).flatMap Entry.checkRows) {k : CheckIdentity}
    {first : IngestCall} (began : runStart env k (newestFirst calls) = some first) :
    started env k db = some first.storedAt ↔ ToldByPasses env calls k first.storedAt := by
  have passed : ∀ t, t ∈ ((checksUnder env k db).filter (fun c => !c.verdict.isProblem)).map
      CheckRow.collectedAt ↔ _ := mem_instants stored (fun v => !v.isProblem)
  have failed : ∀ t, t ∈ ((checksUnder env k db).filter (fun c => c.verdict.isProblem)).map
      CheckRow.collectedAt ↔ _ := mem_instants stored Verdict.isProblem
  obtain ⟨inCalls, producer, fails⟩ := mem_of_runStart began
  have above : ∀ t ∈ ((checksUnder env k db).filter (fun c => c.verdict.isProblem)).map
      CheckRow.collectedAt, 0 < t := by
    intro t inFailures
    obtain ⟨call, member, -, -, rfl⟩ := (failed t).mp inFailures
    exact dated call member
  unfold started
  rw [earliestSince_eq_some_iff above ((failed _).mpr ⟨first, inCalls, producer, fails, rfl⟩)]
  constructor
  · rintro ⟨before, followed⟩
    constructor
    case passes =>
      intro call member own passes
      exact before _ ((passed _).mpr ⟨call, member, own, passes, rfl⟩)
    case failures =>
      intro call member own fails' earlier
      obtain ⟨t, inPasses, later⟩ :=
        followed _ ((failed _).mpr ⟨call, member, own, fails', rfl⟩) earlier
      obtain ⟨pass, inCalls', own', passes, rfl⟩ := (passed t).mp inPasses
      exact ⟨pass, inCalls', own', passes, later⟩
  · intro told
    refine ⟨?_, ?_⟩
    · intro t inPasses
      obtain ⟨call, member, own, passes, rfl⟩ := (passed t).mp inPasses
      exact told.passes call member own passes
    · intro t inFailures earlier
      obtain ⟨call, member, own, fails', rfl⟩ := (failed t).mp inFailures
      obtain ⟨pass, inCalls', own', passes, later⟩ := told.failures call member own fails' earlier
      exact ⟨_, (passed _).mpr ⟨pass, inCalls', own', passes, rfl⟩, later⟩

/-! ## The two databases -/

/-- The uploads in the order they were collected in. -/
def oldestFirst (calls : List IngestCall) : List IngestCall := (newestFirst calls).reverse

theorem perm_oldestFirst (calls : List IngestCall) : calls.Perm (oldestFirst calls) :=
  (perm_newestFirst calls).trans (List.reverse_perm _).symm

theorem oldestFirst_oldestFirst (storable : Storable env calls) :
    OldestFirst env (oldestFirst calls) := by
  have apart := (storable.perm (perm_newestFirst calls)).instants
  have sorted : (newestFirst calls).Pairwise (fun a b => -a.storedAt ≤ -b.storedAt) :=
    pairwise_orderBy calls
  refine List.pairwise_reverse.mpr ((sorted.and apart).imp ?_)
  rintro a b ⟨older, differ⟩ producer
  have other := differ producer.symm
  omega

/-- The ages a service keeps that is sent the reports oldest first. -/
theorem firstSeen_kept (storable : Storable env calls) (k : CheckIdentity) :
    (rowsAt (ProblemSinceRow.key env) k
        (ingestAll env Db.empty (oldestFirst calls)).problemSince).map (·.firstSeen) =
      ((runStart env k (newestFirst calls)).map IngestCall.storedAt).toList := by
  obtain ⟨_, follows⟩ := followsLeaders_run env (oldestFirst calls)
  have leaders : leadersAfter env (oldestFirst calls) = newestFirst calls := by
    rw [leadersAfter_eq_records (storable.perm (perm_oldestFirst calls)),
      records_of_oldestFirst (oldestFirst_oldestFirst storable), oldestFirst, List.reverse_reverse]
  rw [leaders] at follows
  exact follows.runs k

/-- The database of the uploads, however they arrived, with its two tables new and backfilled. -/
def backfilled (env : Env) (calls : List IngestCall) : Db :=
  backfill env (ingestAll env Db.empty calls).unfilled

theorem problemSince_backfilled (env : Env) (calls : List IngestCall) :
    (backfilled env calls).problemSince =
      (failingNow env (backfilled env calls)).filterMap (startedRow env (backfilled env calls)) :=
  backfillProblemSince_empty rfl

theorem represents_backfilled (storable : Storable env calls) :
    Represents env (calls.map Entry.new) (backfilled env calls) := by
  have rep := storable.represents
  have built : Rebuildable env (calls.map Entry.new) (ingestAll env Db.empty calls).unfilled :=
    { report := rep.report
      ids := rep.ids
      keyed := List.nodup_nil
      sound := fun l none => by cases none }
  exact
    { report := rep.report
      checkResult := rep.checkResult
      ids := rep.ids
      admitted := rep.admitted
      fits := rep.fits
      latest := built.tracks
      problemSince := by
        rw [problemSince_backfilled]
        exact keyed_startedRows
      mute := rep.mute
      retirement := rep.retirement }

/-- Where no two reports of a producer tie, the pointers of any picture of the uploads name
its newest. -/
theorem mem_pointees_iff_newest (storable : Storable env calls)
    (rep : Represents env (calls.map Entry.new) db) {e : Entry} :
    e ∈ pointees env (calls.map Entry.new) db ↔
      ∃ call, NewestOf env calls call ∧ e = Entry.new call := by
  rw [mem_pointees rep]
  constructor
  · rintro ⟨l, -, points⟩
    obtain ⟨call, member, rfl⟩ := List.mem_map.mp points.member
    refine ⟨call, ⟨member, ?_⟩, rfl⟩
    intro other inCalls producer
    exact points.newest (Entry.new other) (List.mem_map_of_mem inCalls) producer
  · rintro ⟨call, newest, rfl⟩
    have inLedger : Entry.new call ∈ calls.map Entry.new := List.mem_map_of_mem newest.1
    obtain ⟨l, inTable, own⟩ := rep.latest.complete _ inLedger
    obtain ⟨e, points⟩ := rep.latest.sound l inTable
    obtain ⟨other, inCalls, rfl⟩ := List.mem_map.mp points.member
    have producer : other.producer env = call.producer env := points.producer.symm.trans own
    have same : other = call := storable.eq_of_instant inCalls newest.1 producer
      (le_antisymm (newest.2 other inCalls producer) (points.newest _ inLedger producer.symm))
    exact ⟨l, inTable, same ▸ points⟩

/-- A row of the problems query is its check with what the failing-run table says of it. -/
theorem problemRows_eq_map (rep : Represents env ledger db) :
    problemRows env db = ((problemRows env db).map ProblemRow.check).map (fun c =>
      { check := c
        firstSeen := ((rowsAt (ProblemSinceRow.key env) (c.identity env) db.problemSince).map
          (·.firstSeen)).head? }) := by
  rw [List.map_map]
  conv_lhs => rw [← List.map_id (problemRows env db)]
  refine List.map_congr_left fun r member => ?_
  obtain ⟨-, since⟩ := (mem_problemRows rep).mp member
  rcases r with ⟨c, firstSeen⟩
  exact congrArg (ProblemRow.mk c) since

theorem pointees_backfilled (storable : Storable env calls) :
    (pointees env (calls.map Entry.new) (backfilled env calls)).Perm
      (pointees env ((oldestFirst calls).map Entry.new)
        (ingestAll env Db.empty (oldestFirst calls))) := by
  have storable' := storable.perm (perm_oldestFirst calls)
  have rep := represents_backfilled storable
  have nodup := (nodup_producer_pointees rep).of_map
  have nodup' := (nodup_producer_pointees storable'.represents).of_map
  refine (List.perm_ext_iff_of_nodup nodup nodup').mpr fun e => ?_
  rw [mem_pointees_iff_newest storable rep, mem_pointees_iff_newest storable' storable'.represents]
  refine exists_congr fun call => and_congr_left fun _ => ?_
  exact ⟨fun newest => newest.perm (perm_oldestFirst calls),
    fun newest => newest.perm (perm_oldestFirst calls).symm⟩

/-- What the failing-run table says of a check. -/
def sinceIn (env : Env) (db : Db) (c : CheckRow) : Option Int :=
  ((rowsAt (ProblemSinceRow.key env) (c.identity env) db.problemSince).map (·.firstSeen)).head?

/-- The two tables say the same of a check that fails now exactly where the passes tell its fault
apart. -/
theorem sinceIn_agrees_iff (storable : Storable env calls)
    (dated : ∀ call ∈ calls, 0 < call.storedAt) {c : CheckRow}
    (member : c ∈ latestProblems env (backfilled env calls)) {first : IngestCall}
    (began : runStart env (c.identity env) (newestFirst calls) = some first) :
    sinceIn env (backfilled env calls) c =
        sinceIn env (ingestAll env Db.empty (oldestFirst calls)) c ↔
      ToldByPasses env calls (c.identity env) first.storedAt := by
  have rep := represents_backfilled storable
  unfold sinceIn
  rw [problemSince_backfilled, firstSeen_backfilled member, firstSeen_kept storable, began,
    ← started_eq_runStart_iff dated rep.checkResult began]
  cases started env (c.identity env) (backfilled env calls) <;> simp

/-- A label that fails in a producer's newest report is that of a check that fails now, and the
other way round. -/
theorem mem_latestProblems_backfilled (storable : Storable env calls) {k : CheckIdentity} :
    (∃ c ∈ latestProblems env (backfilled env calls), c.identity env = k) ↔
      ∃ latest, NewestOf env calls latest ∧ latest.producer env = k.1 ∧
        failsLabel env k.2 latest = true := by
  have rep := represents_backfilled storable
  constructor
  · rintro ⟨c, member, rfl⟩
    obtain ⟨l, inTable, e, points, own, problem⟩ := (mem_latestProblems rep).mp member
    obtain ⟨latest, newest, rfl⟩ :=
      (mem_pointees_iff_newest storable rep).mp ((mem_pointees rep).mpr ⟨l, inTable, points⟩)
    exact ⟨latest, newest, (checkRows_producer own).symm, failsLabel_of_mem own problem⟩
  · rintro ⟨latest, newest, producer, fails⟩
    obtain ⟨l, inTable, points⟩ := (mem_pointees rep).mp
      ((mem_pointees_iff_newest storable rep).mpr ⟨latest, newest, rfl⟩)
    obtain ⟨c, uploaded, both⟩ := List.any_eq_true.mp fails
    obtain ⟨problem, label⟩ := (Bool.and_eq_true _ _).mp both
    obtain ⟨i, own⟩ := exists_checkRow uploaded
    refine ⟨checkRow latest i c,
      (mem_latestProblems rep).mpr ⟨l, inTable, _, points, own, problem⟩, ?_⟩
    exact Prod.ext ((checkRows_producer own).trans producer) (of_decide_eq_true label)

/-- The ages agree on every check that fails now exactly where the faults are told apart. -/
theorem sinceIn_agree_iff (storable : Storable env calls)
    (dated : ∀ call ∈ calls, 0 < call.storedAt) :
    (∀ c ∈ latestProblems env (backfilled env calls),
      sinceIn env (backfilled env calls) c =
        sinceIn env (ingestAll env Db.empty (oldestFirst calls)) c) ↔ ToldApart env calls := by
  constructor
  · intro agree latest newest label fails first began
    obtain ⟨c, member, identity⟩ :=
      (mem_latestProblems_backfilled storable (k := (latest.producer env, label))).mpr
        ⟨latest, newest, rfl, fails⟩
    rw [← identity] at began ⊢
    exact (sinceIn_agrees_iff storable dated member began).mp (agree c member)
  · intro told c member
    obtain ⟨latest, newest, producer, fails⟩ :=
      (mem_latestProblems_backfilled storable).mp ⟨c, member, rfl⟩
    obtain ⟨first, began⟩ := exists_runStart storable newest fails
    have apart := told latest newest _ fails first began
    rw [producer] at began apart
    exact (sinceIn_agrees_iff storable dated member began).mpr apart

/-- Backfilled from a history without mutes or retirements, of reports that arrived in any
order, no two of a producer collected at one instant and all after the first of 1970, the tiles
are those of a service that kept its tables all along and was sent each producer's reports
oldest first; and the problems are exactly where the passes of each check that fails now tell
its fault apart from the ones before. -/
theorem backfill_agrees_iff (storable : Storable env calls)
    (dated : ∀ call ∈ calls, 0 < call.storedAt) (now : Int) :
    overview env now (backfilled env calls) =
        overview env now (ingestAll env Db.empty (oldestFirst calls)) ∧
      (problems env now (backfilled env calls) =
          problems env now (ingestAll env Db.empty (oldestFirst calls)) ↔
        ToldApart env calls) := by
  have rep := represents_backfilled storable
  have rep' := (storable.perm (perm_oldestFirst calls)).represents
  have shown := pointees_backfilled storable
  obtain ⟨empty, unretired⟩ : (backfilled env calls).mute = [] ∧
      (backfilled env calls).retirement = [] := overlays_ingestAll env calls
  obtain ⟨empty', unretired'⟩ := overlays_ingestAll env (oldestFirst calls)
  have tiles := overview_eq_of_pointees rep rep' shown empty empty' now
  refine ⟨tiles, ?_⟩
  -- both pages list the same checks, each with what its table says of it
  have rows : problemRows env (backfilled env calls) =
      (orderBy (checkOrder env) (latestProblems env (backfilled env calls))).map
        (fun c => { check := c, firstSeen := sinceIn env (backfilled env calls) c }) := by
    rw [← map_check_problemRows rep]
    exact problemRows_eq_map rep
  have rows' : problemRows env (ingestAll env Db.empty (oldestFirst calls)) =
      (orderBy (checkOrder env) (latestProblems env (backfilled env calls))).map (fun c =>
        { check := c
          firstSeen := sinceIn env (ingestAll env Db.empty (oldestFirst calls)) c }) := by
    rw [← map_check_problemRows rep, map_check_eq_of_pointees rep rep' shown]
    exact problemRows_eq_map rep'
  rw [problems_of_no_overlay empty unretired, problems_of_no_overlay empty' unretired', tiles,
    rows, rows', ← sinceIn_agree_iff storable dated]
  constructor
  · intro same c member
    have listed := congrArg Problems.checks same
    rw [List.map_map, List.map_map, List.map_inj_left] at listed
    exact congrArg ProblemCheck.firstSeen (listed c (mem_orderBy.mpr member))
  · intro agree
    have same : problemRows env (backfilled env calls) =
        problemRows env (ingestAll env Db.empty (oldestFirst calls)) := by
      rw [rows, rows']
      exact List.map_congr_left fun c member =>
        congrArg (ProblemRow.mk c) (agree c (mem_orderBy.mp member))
    rw [← rows, ← rows', same]

/-- A fault that began with the second of three reports; the last of them arrives first. -/
def spooled : List IngestCall :=
  [sampleCall "amun" "disk" "01ARZ3NDEKTSV4RRFFQ69G5FAX" (3 * second)
      [sampleCheck "root" "usage" .fail],
    sampleCall "amun" "disk" "01ARZ3NDEKTSV4RRFFQ69G5FAV" second
      [sampleCheck "root" "usage" .pass],
    sampleCall "amun" "disk" "01ARZ3NDEKTSV4RRFFQ69G5FAW" (2 * second)
      [sampleCheck "root" "usage" .fail]]

theorem storable_spooled : Storable asciiEnv spooled := by
  have validated : ∀ call ∈ spooled, validate asciiEnv call.upload = .ok () := by decide
  have admitted : ∀ call ∈ spooled, Admitted asciiEnv call.upload :=
    fun call member => validate_eq_ok.mp (validated call member)
  have named : ∀ call ∈ spooled, fitsChars COLLECTOR_WIDTH call.upload.collector = true ∧
      ∀ c ∈ call.upload.checks, fitsChars SECTION_WIDTH c.sect = true := by decide
  refine ⟨admitted, ?_, by decide, by decide⟩
  intro call member
  refine (fits_iff_of_admitted (admitted call member) ?_).mpr (named call member)
  simp only [spooled, List.mem_cons, List.not_mem_nil, or_false] at member
  rcases member with rfl | rfl | rfl
  · exact ⟨by decide, by decide, by decide⟩
  · exact ⟨by decide, by decide, by decide⟩
  · exact ⟨by decide, by decide, by decide⟩

/-- The pass of the first report tells the fault of the others apart. -/
theorem toldApart_spooled : ToldApart asciiEnv spooled := by
  have labels : ∀ call ∈ spooled, ∀ c ∈ call.upload.checks, c.label = "usage" := by decide
  have one : ∀ call ∈ spooled, call.producer asciiEnv = producerKey asciiEnv "amun" "disk" := by
    decide
  have began : (runStart asciiEnv (producerKey asciiEnv "amun" "disk", asciiEnv.weight "usage")
      (newestFirst spooled)).map IngestCall.storedAt = some (2 * second) := by
    decide +kernel
  have passes : ∀ call ∈ spooled, passesLabel asciiEnv (asciiEnv.weight "usage") call = true →
      call.storedAt < 2 * second := by decide
  have failures : ∀ call ∈ spooled, failsLabel asciiEnv (asciiEnv.weight "usage") call = true →
      ¬ call.storedAt < 2 * second := by decide
  intro latest newest label fails first found
  obtain ⟨c, uploaded, both⟩ := List.any_eq_true.mp fails
  have named := of_decide_eq_true ((Bool.and_eq_true _ _).mp both).2
  rw [labels latest newest.1 c uploaded] at named
  rw [one latest newest.1, ← named] at found ⊢
  rw [found] at began
  rw [Option.some.inj began]
  exact ⟨fun call member _ => passes call member,
    fun call member _ fails' earlier => absurd earlier (failures call member fails')⟩

/-- The backfilled page dates the fault from the second report. -/
theorem backfill_agrees_spooled :
    problems asciiEnv 0 (backfilled asciiEnv spooled) =
        problems asciiEnv 0 (ingestAll asciiEnv Db.empty (oldestFirst spooled)) ∧
      (problems asciiEnv 0 (backfilled asciiEnv spooled)).checks.map ProblemCheck.firstSeen =
        [some (2 * second)] :=
  ⟨(backfill_agrees_iff storable_spooled (by decide) 0).2.mpr toldApart_spooled,
    by decide +kernel⟩

/-- The same fault, left out of the second report: ingest dates it anew, the backfill from the
first failure. -/
example :
    let calls : List IngestCall :=
      [sampleCall "amun" "disk" "01ARZ3NDEKTSV4RRFFQ69G5FAV" second
          [sampleCheck "root" "usage" .fail],
        sampleCall "amun" "disk" "01ARZ3NDEKTSV4RRFFQ69G5FAW" (2 * second) [],
        sampleCall "amun" "disk" "01ARZ3NDEKTSV4RRFFQ69G5FAX" (3 * second)
          [sampleCheck "root" "usage" .fail]]
    (problems asciiEnv 0 (backfilled asciiEnv calls)).checks.map ProblemCheck.firstSeen =
        [some second] ∧
      (problems asciiEnv 0 (ingestAll asciiEnv Db.empty calls)).checks.map
        ProblemCheck.firstSeen = [some (3 * second)] := by
  decide +kernel

end Fleetwatch
