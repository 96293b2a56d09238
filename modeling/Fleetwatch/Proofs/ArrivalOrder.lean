import Fleetwatch.Proofs.Pointees
import Fleetwatch.Proofs.ProblemSince

/-!
# The order of arrival

A spool may drain in any order. What the views show of a set of uploads does not
depend on it, but for the age of a fault: the failing-run table follows the reports
that led, and a report that arrives after a later one of its producer never does. So
`first_seen` and `confirmed` are those of the runs in collection order when each
producer's reports arrive oldest first; `ages_ignore_order_iff` says which sets of
uploads show them in every order.
-/

namespace Fleetwatch

open Query Sql Streak Table

variable {env : Env} {ledger : List Entry} {db : Db} {calls calls' : List IngestCall}

/-! ## Uploads that are all stored -/

/-- Valid uploads under ids of their own, no two of one producer stored at one instant. -/
structure Storable (env : Env) (calls : List IngestCall) : Prop where
  admitted : ∀ call ∈ calls, Admitted env call.upload
  fits : ∀ call ∈ calls, Fits call
  ids : (calls.map (fun call => env.weight call.upload.id)).Nodup
  instants : calls.Pairwise (fun a b => a.producer env = b.producer env → a.storedAt ≠ b.storedAt)

theorem Storable.perm (storable : Storable env calls) (perm : calls.Perm calls') :
    Storable env calls' where
  admitted := fun call member => storable.admitted call (perm.mem_iff.mpr member)
  fits := fun call member => storable.fits call (perm.mem_iff.mpr member)
  ids := (perm.map _).nodup_iff.mp storable.ids
  instants := (perm.pairwise_iff (fun apart same => (apart same.symm).symm)).mp storable.instants

theorem Storable.eq_of_instant (storable : Storable env calls) {a b : IngestCall} (inA : a ∈ calls)
    (inB : b ∈ calls) (producer : a.producer env = b.producer env)
    (instant : a.storedAt = b.storedAt) : a = b := by
  by_contra different
  have : Std.Symm (fun a b : IngestCall => a.producer env = b.producer env →
      a.storedAt ≠ b.storedAt) := ⟨fun _ _ apart same => (apart same.symm).symm⟩
  exact storable.instants.forall inA inB different producer instant

/-- What is left when the last upload has not arrived yet. -/
theorem Storable.init {earlier : List IngestCall} {call : IngestCall}
    (storable : Storable env (earlier ++ [call])) : Storable env earlier where
  admitted := fun other member => storable.admitted other (List.mem_append_left _ member)
  fits := fun other member => storable.fits other (List.mem_append_left _ member)
  ids := by
    have ids := storable.ids
    rw [List.map_append] at ids
    exact ids.of_append_left
  instants := (List.pairwise_append.mp storable.instants).1

theorem Storable.accepts {earlier : List IngestCall} {call : IngestCall}
    (storable : Storable env (earlier ++ [call])) :
    Accepts env (earlier.map Entry.new) call where
  admitted := storable.admitted call (by simp)
  fits := storable.fits call (by simp)
  fresh := by
    intro e member same
    obtain ⟨other, inEarlier, rfl⟩ := List.mem_map.mp member
    have ids := storable.ids
    rw [List.map_append, List.nodup_append] at ids
    exact ids.2.2 _ (List.mem_map.mpr ⟨other, inEarlier, rfl⟩) _ (by simp) same

/-- Whatever the order, every upload is stored. -/
theorem Storable.represents (storable : Storable env calls) :
    Represents env (calls.map Entry.new) (ingestAll env Db.empty calls) := by
  induction calls using List.reverseRecOn with
  | nil => exact represents_empty env
  | append_singleton earlier call ih =>
    have rep := ih storable.init
    have accepts := storable.accepts
    rw [ingestAll_append_singleton, ingest_of_accepts rep accepts, List.map_append]
    exact rep.stored accepts

/-! ## The reports that lead -/

/-- Is the call later than every earlier arrival of its producer? -/
def arrivesNewest (env : Env) (earlier : List IngestCall) (call : IngestCall) : Bool :=
  earlier.all (fun other =>
    decide (other.producer env = call.producer env → other.storedAt < call.storedAt))

theorem arrivesNewest_iff {earlier : List IngestCall} {call : IngestCall} :
    arrivesNewest env earlier call = true ↔
      ∀ other ∈ earlier, other.producer env = call.producer env →
        other.storedAt < call.storedAt := by
  unfold arrivesNewest
  rw [List.all_eq_true]
  simp only [decide_eq_true_eq]

theorem arrivesNewest_reverse (earlier : List IngestCall) (call : IngestCall) :
    arrivesNewest env earlier.reverse call = arrivesNewest env earlier call :=
  List.all_reverse

/-- The reports that were their producer's latest when they arrived. Both lists have the
last arrival first. -/
def records (env : Env) : List IngestCall → List IngestCall
  | [] => []
  | call :: earlier =>
    if arrivesNewest env earlier call then call :: records env earlier else records env earlier

theorem leads_eq_arrivesNewest {earlier : List IngestCall} {call : IngestCall}
    (rep : Represents env (earlier.map Entry.new) db)
    (storable : Storable env (earlier ++ [call])) :
    leads env call db = arrivesNewest env earlier call := by
  have rep' := rep.stored storable.accepts
  have keyed := (rep.latest.advanced call).keyed
  rw [Bool.eq_iff_iff, arrivesNewest_iff]
  constructor
  · intro leading other member producer
    obtain ⟨l, inTable, _, named⟩ := (isLatest_iff keyed call).mp leading
    obtain ⟨e, points⟩ := rep'.latest.sound l inTable
    obtain rfl : e = Entry.new call := rep'.pointee_eq points (by simp) named
    have inLedger : Entry.new other ∈ earlier.map Entry.new ++ [Entry.new call] :=
      List.mem_append_left _ (List.mem_map.mpr ⟨other, member, rfl⟩)
    have older : other.storedAt ≤ call.storedAt := points.newest _ inLedger producer
    have apart := (List.pairwise_append.mp storable.instants).2.2 other member call (by simp)
    exact lt_of_le_of_ne older (apart producer)
  · intro newest
    obtain ⟨l, inTable, own⟩ := rep'.latest.complete (Entry.new call) (by simp)
    obtain ⟨e, points⟩ := rep'.latest.sound l inTable
    have producer : call.producer env = e.producer env := own.symm.trans points.producer
    have older : call.storedAt ≤ e.storedAt := points.newest (Entry.new call) (by simp) producer
    refine (isLatest_iff keyed call).mpr ⟨l, inTable, own, ?_⟩
    rcases List.mem_append.mp points.member with earlier' | new
    · obtain ⟨other, member, rfl⟩ := List.mem_map.mp earlier'
      exact absurd (newest other member producer.symm) (not_lt.mpr older)
    · rw [points.reportId, List.mem_singleton.mp new]
      rfl

/-- The leaders of a run of storable uploads are its records. -/
theorem leadersAfter_eq_records (storable : Storable env calls) :
    leadersAfter env calls = records env calls.reverse := by
  induction calls using List.reverseRecOn with
  | nil => rfl
  | append_singleton earlier call ih =>
    have rep := storable.init.represents
    rw [leadersAfter_append_singleton, led_of_accepts rep storable.accepts,
      leads_eq_arrivesNewest rep storable, ih storable.init, List.reverse_append,
      List.reverse_singleton, List.singleton_append, records, arrivesNewest_reverse]

/-! ## What every order shows -/

/-- Where no two reports of a producer tie, the pointers name its newest. -/
theorem mem_pointees_storable (storable : Storable env calls) {e : Entry} :
    e ∈ pointees env (calls.map Entry.new) (ingestAll env Db.empty calls) ↔
      ∃ call ∈ calls, e = Entry.new call ∧
        ∀ other ∈ calls, other.producer env = call.producer env →
          other.storedAt ≤ call.storedAt := by
  have rep := storable.represents
  rw [mem_pointees rep]
  constructor
  · intro pointed
    obtain ⟨l, _, points⟩ := pointed
    obtain ⟨call, member, rfl⟩ := List.mem_map.mp points.member
    refine ⟨call, member, rfl, ?_⟩
    intro other inCalls producer
    exact points.newest (Entry.new other) (List.mem_map.mpr ⟨other, inCalls, rfl⟩) producer
  · intro newest
    obtain ⟨call, member, rfl, newest⟩ := newest
    have inLedger : Entry.new call ∈ calls.map Entry.new := List.mem_map.mpr ⟨call, member, rfl⟩
    obtain ⟨l, inTable, own⟩ := rep.latest.complete _ inLedger
    obtain ⟨e, points⟩ := rep.latest.sound l inTable
    obtain ⟨other, inCalls, rfl⟩ := List.mem_map.mp points.member
    have producer : other.producer env = call.producer env := points.producer.symm.trans own
    have same : other = call := storable.eq_of_instant inCalls member producer
      (le_antisymm (newest other inCalls producer) (points.newest _ inLedger producer.symm))
    exact ⟨l, inTable, same ▸ points⟩

/-- The reports shown are the same in every order. -/
theorem pointees_perm (storable : Storable env calls) (perm : calls.Perm calls') :
    (pointees env (calls.map Entry.new) (ingestAll env Db.empty calls)).Perm
      (pointees env (calls'.map Entry.new) (ingestAll env Db.empty calls')) := by
  have storable' := storable.perm perm
  have nodup := (nodup_producer_pointees storable.represents).of_map
  have nodup' := (nodup_producer_pointees storable'.represents).of_map
  refine (List.perm_ext_iff_of_nodup nodup nodup').mpr fun e => ?_
  rw [mem_pointees_storable storable, mem_pointees_storable storable']
  simp only [perm.mem_iff]

/-- A run of ingest calls leaves both overlays empty. -/
theorem overlays_ingestAll (env : Env) (calls : List IngestCall) :
    (ingestAll env Db.empty calls).mute = [] ∧ (ingestAll env Db.empty calls).retirement = [] := by
  refine Run.run_invariant (fun db : Db => db.mute = [] ∧ db.retirement = []) ?_ calls Db.empty
    (fun _ _ => trivial) ⟨rfl, rfl⟩
  intro db call _ empty
  obtain ⟨mute, retirement⟩ := ingest_overlays env call db
  exact ⟨mute.trans empty.1, retirement.trans empty.2⟩

theorem problems_ageless_eq (storable : Storable env calls) (perm : calls.Perm calls') (now : Int) :
    (problems env now (ingestAll env Db.empty calls)).ageless =
      (problems env now (ingestAll env Db.empty calls')).ageless := by
  have rep := storable.represents
  have rep' := (storable.perm perm).represents
  have shown := pointees_perm storable perm
  obtain ⟨empty, unretired⟩ := overlays_ingestAll env calls
  obtain ⟨empty', unretired'⟩ := overlays_ingestAll env calls'
  have tiles := overview_eq_of_pointees rep rep' shown empty empty' now
  -- without its age a row of the page is made from the check alone
  have made : ProblemCheck.ageless ∘ problemCheck =
      (fun c => (problemCheck { check := c, firstSeen := none }).ageless) ∘ ProblemRow.check := rfl
  have checks : ((problemRows env (ingestAll env Db.empty calls)).map problemCheck).map
        ProblemCheck.ageless =
      ((problemRows env (ingestAll env Db.empty calls')).map problemCheck).map
        ProblemCheck.ageless := by
    rw [List.map_map, List.map_map, made, ← List.map_map, ← List.map_map,
      map_check_eq_of_pointees rep rep' shown]
  rw [problems_of_no_overlay empty unretired, problems_of_no_overlay empty' unretired', tiles]
  unfold Problems.ageless
  rw [checks]

/-! ## The ages of the faults -/

/-- Every row of the page is as old as the failing run of its label in the history, and
confirmed when that run began before the latest report. -/
def AgesFollow (env : Env) (history : List IngestCall) (p : Problems) : Prop :=
  ∀ c ∈ p.checks, ∃ first,
    runStart env (checkIdentity env c.source c.collector c.label) history = some first ∧
      c.firstSeen = some first.storedAt ∧ (c.confirmed = true ↔ first.storedAt < c.collectedAt)

theorem FollowsLeaders.ages {history : List IngestCall}
    (follows : FollowsLeaders env ledger history db) (now : Int) :
    AgesFollow env history (problems env now db) := by
  intro c member
  obtain ⟨r, row, _, rfl⟩ := mem_checks.mp member
  obtain ⟨first, start, since, _⟩ := follows.problemRow row
  refine ⟨first, start, since, ?_⟩
  show confirmed r = true ↔ _
  unfold confirmed
  rw [since]
  exact decide_eq_true_iff

/-- In any order the ages follow the reports that led. -/
theorem ages_records (storable : Storable env calls) (now : Int) :
    AgesFollow env (records env calls.reverse) (problems env now (ingestAll env Db.empty calls)) := by
  obtain ⟨_, follows⟩ := followsLeaders_run env calls
  rw [leadersAfter_eq_records storable] at follows
  exact follows.ages now

/-- The uploads in the order they were collected in, the newest first. -/
def newestFirst (calls : List IngestCall) : List IngestCall :=
  orderBy (fun call => -call.storedAt) calls

/-- Each producer's reports arrive in the order they were collected in. -/
def OldestFirst (env : Env) (calls : List IngestCall) : Prop :=
  calls.Pairwise (fun a b => a.producer env = b.producer env → a.storedAt < b.storedAt)

/-- Then every report leads. -/
theorem records_of_oldestFirst (oldestFirst : OldestFirst env calls) :
    records env calls.reverse = calls.reverse := by
  induction calls using List.reverseRecOn with
  | nil => rfl
  | append_singleton earlier call ih =>
    obtain ⟨before, _, last⟩ := List.pairwise_append.mp oldestFirst
    have newest : arrivesNewest env earlier call = true := arrivesNewest_iff.mpr
      (fun other member producer => last other member call (by simp) producer)
    rw [List.reverse_append, List.reverse_singleton, List.singleton_append, records,
      arrivesNewest_reverse, newest, if_pos rfl, ih before]

/-- And last to first is newest to oldest. -/
theorem ofProducer_newestFirst (storable : Storable env calls)
    (oldestFirst : OldestFirst env calls) (producer : ProducerKey) :
    ofProducer env producer calls.reverse = ofProducer env producer (newestFirst calls) := by
  have own : ∀ history call, call ∈ ofProducer env producer history →
      call ∈ history ∧ call.producer env = producer := by
    intro history call member
    obtain ⟨inHistory, same⟩ := List.mem_filter.mp member
    exact ⟨inHistory, of_decide_eq_true same⟩
  have reversed : (ofProducer env producer calls.reverse).Pairwise
      (fun a b => -a.storedAt ≤ -b.storedAt) := by
    refine List.Pairwise.imp_of_mem ?_ ((List.pairwise_reverse.mpr oldestFirst).filter _)
    intro a b inA inB older
    have producerA := (own calls.reverse a inA).2
    have producerB := (own calls.reverse b inB).2
    have apart := older (producerB.trans producerA.symm)
    omega
  have sorted : (ofProducer env producer (newestFirst calls)).Pairwise
      (fun a b => -a.storedAt ≤ -b.storedAt) := (pairwise_orderBy calls).filter _
  have perm : (ofProducer env producer calls.reverse).Perm
      (ofProducer env producer (newestFirst calls)) :=
    ((List.reverse_perm calls).trans (orderBy_perm calls).symm).filter _
  refine List.Perm.eq_of_pairwise ?_ reversed sorted perm
  intro a b inA inB le ge
  obtain ⟨inA, producerA⟩ := own _ a inA
  obtain ⟨inB, producerB⟩ := own _ b inB
  refine storable.eq_of_instant (List.mem_reverse.mp inA) (mem_orderBy.mp inB)
    (producerA.trans producerB.symm) ?_
  omega

/-- Oldest first, the ages are those of the runs in collection order. -/
theorem ages_oldestFirst (storable : Storable env calls) (oldestFirst : OldestFirst env calls)
    (now : Int) :
    AgesFollow env (newestFirst calls) (problems env now (ingestAll env Db.empty calls)) := by
  have ages := ages_records storable now
  rw [records_of_oldestFirst oldestFirst] at ages
  intro c member
  obtain ⟨first, start, age⟩ := ages c member
  refine ⟨first, ?_, age⟩
  unfold runStart at start ⊢
  rw [← ofProducer_newestFirst storable oldestFirst]
  exact start

/-! ## Sets of uploads whose ages no order changes -/

/-- None of its producer's reports was collected later. -/
def NewestOf (env : Env) (calls : List IngestCall) (latest : IngestCall) : Prop :=
  latest ∈ calls ∧ ∀ other ∈ calls, other.producer env = latest.producer env →
    other.storedAt ≤ latest.storedAt

/-- No label that fails in a producer's newest report fails in another of its reports. -/
def FailsOnce (env : Env) (calls : List IngestCall) : Prop :=
  ∀ latest, NewestOf env calls latest → ∀ other ∈ calls,
    other.producer env = latest.producer env → other ≠ latest →
    ∀ label, failsLabel env label latest = true → failsLabel env label other = false

theorem records_sublist (arrived : List IngestCall) : (records env arrived).Sublist arrived := by
  induction arrived with
  | nil => exact List.Sublist.refl _
  | cons call earlier ih =>
    unfold records
    split
    · exact ih.cons_cons call
    · exact ih.cons call

/-- Once a producer's newest report has arrived none of its others leads. -/
theorem ofProducer_records_after {latest : IngestCall} {base : List IngestCall}
    (arrived : latest ∈ base) (later : List IngestCall)
    (older : ∀ call ∈ later, call.producer env = latest.producer env →
      call.storedAt ≤ latest.storedAt) :
    ofProducer env (latest.producer env) (records env (later ++ base)) =
      ofProducer env (latest.producer env) (records env base) := by
  induction later with
  | nil => rfl
  | cons call rest ih =>
    have tail := ih (fun other member => older other (List.mem_cons_of_mem _ member))
    rw [List.cons_append, records]
    split
    · rename_i newest
      have other : ¬ call.producer env = latest.producer env := by
        intro same
        have before := arrivesNewest_iff.mp newest latest (List.mem_append_right _ arrived) same.symm
        exact absurd before (not_lt.mpr (older call List.mem_cons_self same))
      rw [ofProducer_cons, if_neg other]
      exact tail
    · exact tail

theorem runStart_records_after {latest : IngestCall} {base : List IngestCall}
    (arrived : latest ∈ base) (later : List IngestCall)
    (older : ∀ call ∈ later, call.producer env = latest.producer env →
      call.storedAt ≤ latest.storedAt) (label : List Nat) :
    runStart env (latest.producer env, label) (records env (later ++ base)) =
      runStart env (latest.producer env, label) (records env base) :=
  congrArg (streakStart (failsLabel env label)) (ofProducer_records_after arrived later older)

theorem NewestOf.perm {latest : IngestCall} (newest : NewestOf env calls latest)
    (perm : calls.Perm calls') : NewestOf env calls' latest :=
  ⟨perm.mem_iff.mp newest.1, fun other member => newest.2 other (perm.mem_iff.mpr member)⟩

/-- A label that fails in a producer's newest report has its row. -/
theorem exists_row (storable : Storable env calls) {latest : IngestCall}
    (newest : NewestOf env calls latest) {label : List Nat}
    (fails : failsLabel env label latest = true) (now : Int) :
    ∃ c ∈ (problems env now (ingestAll env Db.empty calls)).checks,
      checkIdentity env c.source c.collector c.label = (latest.producer env, label) := by
  have rep := storable.represents
  obtain ⟨empty, unretired⟩ := overlays_ingestAll env calls
  obtain ⟨l, inTable, points⟩ := (mem_pointees rep).mp
    ((mem_pointees_storable storable).mpr ⟨latest, newest.1, rfl, newest.2⟩)
  obtain ⟨c, uploaded, failing⟩ := List.any_eq_true.mp fails
  obtain ⟨problem, named⟩ := (Bool.and_eq_true _ _).mp failing
  obtain ⟨i, own⟩ := exists_checkRow uploaded
  have inLatest := (mem_latestProblems rep).mpr ⟨l, inTable, _, points, own, problem⟩
  obtain ⟨r, row, same⟩ := exists_problemRow rep inLatest
  rw [problems_of_no_overlay empty unretired]
  refine ⟨problemCheck r, List.mem_map.mpr ⟨r, row, rfl⟩, ?_⟩
  show r.check.identity env = _
  rw [same]
  exact Prod.ext rfl (of_decide_eq_true named)

/-- Every row comes from a producer's newest report, which fails its label. -/
theorem newest_of_row (storable : Storable env calls) {now : Int} {c : ProblemCheck}
    (member : c ∈ (problems env now (ingestAll env Db.empty calls)).checks) :
    ∃ latest label, NewestOf env calls latest ∧ failsLabel env label latest = true ∧
      checkIdentity env c.source c.collector c.label = (latest.producer env, label) := by
  have rep := storable.represents
  obtain ⟨r, row, _, rfl⟩ := mem_checks.mp member
  obtain ⟨inLatest, _⟩ := (mem_problemRows rep).mp row
  obtain ⟨l, inTable, e, points, own, problem⟩ := (mem_latestProblems rep).mp inLatest
  obtain ⟨latest, inCalls, rfl, newest⟩ :=
    (mem_pointees_storable storable).mp ((mem_pointees rep).mpr ⟨l, inTable, points⟩)
  exact ⟨latest, env.weight r.check.label, ⟨inCalls, newest⟩, failsLabel_of_mem own problem,
    Prod.ext (checkRows_producer own) rfl⟩

/-- In collection order a producer's newest report comes first. -/
theorem head_newestFirst (storable : Storable env calls) {latest : IngestCall}
    (newest : NewestOf env calls latest) :
    (ofProducer env (latest.producer env) (newestFirst calls)).head? = some latest := by
  have sorted : (ofProducer env (latest.producer env) (newestFirst calls)).Pairwise
      (fun a b => -a.storedAt ≤ -b.storedAt) := (pairwise_orderBy calls).filter _
  have listed : latest ∈ ofProducer env (latest.producer env) (newestFirst calls) :=
    List.mem_filter.mpr ⟨mem_orderBy.mpr newest.1, decide_eq_true rfl⟩
  cases order : ofProducer env (latest.producer env) (newestFirst calls) with
  | nil =>
    rw [order] at listed
    cases listed
  | cons first rest =>
    have first' : first ∈ ofProducer env (latest.producer env) (newestFirst calls) := by
      rw [order]
      exact List.mem_cons_self
    obtain ⟨inCalls, own⟩ := List.mem_filter.mp first'
    have producer := of_decide_eq_true own
    rw [order] at sorted listed
    have notYounger : latest.storedAt ≤ first.storedAt := by
      rcases List.mem_cons.mp listed with rfl | later
      · exact le_rfl
      · have le := (List.pairwise_cons.mp sorted).1 latest later
        omega
    have inCalls' := mem_orderBy.mp inCalls
    have instant := le_antisymm (newest.2 first inCalls' producer) notYounger
    rw [List.head?_cons, storable.eq_of_instant inCalls' newest.1 producer instant]

/-- Where labels fail once, every failing run is one report long. -/
theorem FailsOnce.runStart_eq (failsOnce : FailsOnce env calls) {latest : IngestCall}
    (newest : NewestOf env calls latest) {label : List Nat}
    (fails : failsLabel env label latest = true) {history : List IngestCall}
    (within : ∀ call ∈ history, call ∈ calls) {first : IngestCall}
    (start : runStart env (latest.producer env, label) history = some first) : first = latest := by
  obtain ⟨own, failing⟩ := mem_of_streakStart start
  obtain ⟨inHistory, producer⟩ := List.mem_filter.mp own
  by_contra different
  have passes := failsOnce latest newest first (within first inHistory)
    (of_decide_eq_true producer) different label fails
  exact absurd (passes.symm.trans failing) Bool.false_ne_true

/-- What an order shows of a label pins where its run in collection order began. -/
theorem storedAt_start (storable : Storable env calls) (perm : calls.Perm calls') {now : Int}
    (ages : AgesFollow env (newestFirst calls) (problems env now (ingestAll env Db.empty calls')))
    {latest : IngestCall} (newest : NewestOf env calls latest) {label : List Nat}
    (fails : failsLabel env label latest = true) {first : IngestCall}
    (start : runStart env (latest.producer env, label) (records env calls'.reverse) = some first) :
    ((runStart env (latest.producer env, label) (newestFirst calls)).map IngestCall.storedAt) =
      some first.storedAt := by
  obtain ⟨c, member, identity⟩ := exists_row (storable.perm perm) (newest.perm perm) fails now
  obtain ⟨begun, collected, since, _⟩ := ages c member
  obtain ⟨led, leading, since', _⟩ := ages_records (storable.perm perm) now c member
  rw [identity] at collected leading
  obtain rfl : led = first := Option.some.inj (leading.symm.trans start)
  rw [collected, Option.map_some, ← since, since']

/-- Every order of the uploads shows the ages of the runs in collection order exactly when
no label that fails in a producer's newest report fails in another of its reports. -/
theorem ages_ignore_order_iff (storable : Storable env calls) (now : Int) :
    (∀ calls', calls.Perm calls' → AgesFollow env (newestFirst calls)
      (problems env now (ingestAll env Db.empty calls'))) ↔ FailsOnce env calls := by
  constructor
  · intro always latest newest other inCalls producer different label fails
    by_contra passes
    have failing : failsLabel env label other = true := by simpa using passes
    have apart : other.storedAt < latest.storedAt := by
      refine lt_of_le_of_ne (newest.2 other inCalls producer) ?_
      intro instant
      exact different (storable.eq_of_instant inCalls newest.1 producer instant)
    have older : ∀ call ∈ calls.erase latest, call.producer env = latest.producer env →
        call.storedAt ≤ latest.storedAt :=
      fun call member => newest.2 call (List.mem_of_mem_erase member)
    -- the newest report first: it alone leads
    have perm := List.perm_cons_erase newest.1
    have alone : runStart env (latest.producer env, label)
        (records env (latest :: calls.erase latest).reverse) = some latest := by
      have records' : records env [latest] = [latest] := by simp [records, arrivesNewest]
      rw [List.reverse_cons, runStart_records_after List.mem_cons_self _
        (fun call member => older call (List.mem_reverse.mp member)), records', runStart_cons]
      simp [fails, runStart, ofProducer]
    -- the other one before it: both lead
    have inRest : other ∈ calls.erase latest := (List.mem_erase_of_ne different).mpr inCalls
    have perm' := perm.trans (((List.perm_cons_erase inRest).cons latest).trans
      (List.Perm.swap other latest _))
    have both : runStart env (latest.producer env, label)
        (records env (other :: latest :: (calls.erase latest).erase other).reverse) =
          some other := by
      have records' : records env [latest, other] = [latest, other] := by
        simp [records, arrivesNewest, apart]
      rw [List.reverse_cons, List.reverse_cons, List.append_assoc, List.singleton_append,
        runStart_records_after List.mem_cons_self _ (fun call member =>
          older call (List.mem_of_mem_erase (List.mem_reverse.mp member))), records',
        runStart_cons, runStart_cons]
      simp [fails, failing, producer, runStart, ofProducer]
    have since := storedAt_start storable perm (always _ perm) newest fails alone
    have since' := storedAt_start storable perm' (always _ perm') newest fails both
    exact absurd (Option.some.inj (since'.symm.trans since)) (ne_of_lt apart)
  · intro failsOnce order perm c member
    have storable' := storable.perm perm
    obtain ⟨latest, label, newest', fails, identity⟩ := newest_of_row storable' member
    have newest := newest'.perm perm.symm
    obtain ⟨first, leading, age⟩ := ages_records storable' now c member
    rw [identity] at leading ⊢
    have within : ∀ call ∈ records env order.reverse, call ∈ calls := by
      intro call led
      have arrived := List.mem_reverse.mp ((records_sublist _).subset led)
      exact perm.mem_iff.mpr arrived
    obtain rfl := failsOnce.runStart_eq newest fails within leading
    have started := (runStart_isSome_iff (first.producer env, label)).mpr
      ⟨first, head_newestFirst storable newest, fails⟩
    obtain ⟨begun, collected⟩ := Option.isSome_iff_exists.mp started
    obtain rfl := failsOnce.runStart_eq newest fails (fun call => mem_orderBy.mp) collected
    exact ⟨begun, collected, age⟩

/-! ## The instant of receipt -/

/-- A call as its producer sent it, whenever it is received. -/
def IngestCall.sent (call : IngestCall) : IngestCall := { call with now := 0 }

def ReportRow.sent (r : ReportRow) : ReportRow := { r with receivedAt := 0 }

/-- The database without the instants of receipt. -/
def Db.sent (db : Db) : Db := { db with report := db.report.map ReportRow.sent }

/-- The same uploads, in some order and received at some instants. -/
def SameUploads (calls calls' : List IngestCall) : Prop :=
  (calls.map IngestCall.sent).Perm (calls'.map IngestCall.sent)

theorem fits_sent_iff {call : IngestCall} : Fits call.sent ↔ Fits call :=
  ⟨fun fits => ⟨fits.id, fits.source, fits.collector, fits.collectedAt, fits.checks⟩,
    fun fits => ⟨fits.id, fits.source, fits.collector, fits.collectedAt, fits.checks⟩⟩

theorem taken_sent_iff {call : IngestCall} : Taken env call.sent db.sent ↔ Taken env call db := by
  unfold Taken Db.sent
  simp only [List.mem_map, exists_exists_and_eq_and]
  exact Iff.rfl

/-- Nothing but the report's own column depends on the instant of receipt. -/
theorem ingest_sent (call : IngestCall) (db : Db) :
    (ingest env call.sent db.sent).2 = (ingest env call db).2.sent := by
  by_cases storable : Admitted env call.upload ∧ ¬ Taken env call db ∧ Fits call
  · obtain ⟨admitted, free, fits⟩ := storable
    have free' : ¬ Taken env call.sent db.sent := fun taken => free (taken_sent_iff.mp taken)
    have admitted' : Admitted env call.sent.upload := admitted
    rw [ingest_eq_stored admitted free fits,
      ingest_eq_stored admitted' free' (fits_sent_iff.mpr fits)]
    show stored env call.sent db.sent = (stored env call db).sent
    unfold stored Db.sent
    rw [List.map_append]
    rfl
  · rcases ingest_eq_self_or_stored env call db with same | ⟨admitted, free, fits, _⟩
    · rcases ingest_eq_self_or_stored env call.sent db.sent with same' | ⟨admitted, free, fits, _⟩
      · rw [same, same']
      · refine absurd ⟨admitted, ?_, fits_sent_iff.mp fits⟩ storable
        exact fun taken => free (taken_sent_iff.mpr taken)
    · exact absurd ⟨admitted, free, fits⟩ storable

theorem ingestAll_sent (calls : List IngestCall) (db : Db) :
    ingestAll env db.sent (calls.map IngestCall.sent) = (ingestAll env db calls).sent := by
  induction calls generalizing db with
  | nil => rfl
  | cons call rest ih =>
    show ingestAll env (ingest env call.sent db.sent).2 (rest.map IngestCall.sent) = _
    rw [ingest_sent, ih]
    rfl

theorem latestReports_sent (db : Db) :
    latestReports env db.sent = (latestReports env db).map ReportRow.sent := by
  unfold latestReports innerJoin Db.sent
  rw [List.map_flatMap, List.map_flatMap, List.map_flatMap]
  refine List.flatMap_congr fun l _ => ?_
  rw [List.filter_map, List.map_map, List.map_map, List.map_map, List.map_map]
  rfl

theorem overview_sent (now : Int) (db : Db) : overview env now db.sent = overview env now db := by
  have rows : (latestReports env db.sent).map (latestRow env now db.sent) =
      (latestReports env db).map (latestRow env now db) := by
    rw [latestReports_sent, List.map_map]
    rfl
  unfold overview
  rw [rows]

theorem problems_sent (now : Int) (db : Db) : problems env now db.sent = problems env now db := by
  unfold problems
  rw [overview_sent]
  rfl

/-- What the page shows of a run does not depend on when its reports were received. -/
theorem problems_ingestAll_sent (now : Int) (calls : List IngestCall) :
    problems env now (ingestAll env Db.empty (calls.map IngestCall.sent)) =
      problems env now (ingestAll env Db.empty calls) := by
  rw [← problems_sent now (ingestAll env Db.empty calls), ← ingestAll_sent]
  rfl

theorem Storable.sent (storable : Storable env calls) :
    Storable env (calls.map IngestCall.sent) where
  admitted := by
    intro call member
    obtain ⟨original, inCalls, rfl⟩ := List.mem_map.mp member
    exact storable.admitted original inCalls
  fits := by
    intro call member
    obtain ⟨original, inCalls, rfl⟩ := List.mem_map.mp member
    exact fits_sent_iff.mpr (storable.fits original inCalls)
  ids := by
    rw [List.map_map]
    exact storable.ids
  instants := List.pairwise_map.mpr storable.instants

theorem FailsOnce.sent (failsOnce : FailsOnce env calls) :
    FailsOnce env (calls.map IngestCall.sent) := by
  intro latest newest other member producer different label fails
  obtain ⟨listed, newest⟩ := newest
  obtain ⟨latest, inCalls, rfl⟩ := List.mem_map.mp listed
  obtain ⟨other, inCalls', rfl⟩ := List.mem_map.mp member
  refine failsOnce latest ⟨inCalls, ?_⟩ other inCalls' producer ?_ label fails
  · intro another inCalls'' same
    exact newest another.sent (List.mem_map.mpr ⟨another, inCalls'', rfl⟩) same
  · intro same
    exact different (congrArg IngestCall.sent same)

theorem runStart_sent (k : CheckIdentity) (history : List IngestCall) :
    runStart env k (history.map IngestCall.sent) =
      (runStart env k history).map IngestCall.sent := by
  unfold runStart ofProducer
  rw [List.filter_map, streakStart_map]
  rfl

theorem AgesFollow.of_sent {history : List IngestCall} {p : Problems}
    (ages : AgesFollow env (history.map IngestCall.sent) p) : AgesFollow env history p := by
  intro c member
  obtain ⟨first, start, age⟩ := ages c member
  rw [runStart_sent, Option.map_eq_some_iff] at start
  obtain ⟨original, start, rfl⟩ := start
  exact ⟨original, start, age⟩

theorem newestFirst_sent (calls : List IngestCall) :
    newestFirst (calls.map IngestCall.sent) = (newestFirst calls).map IngestCall.sent :=
  (map_orderBy IngestCall.sent _ calls (fun _ => rfl)).symm

/-! ## Any two orders -/

/-- Storable uploads ingested in any two orders, at any instants, show the same page but for
the ages of its faults. The ages follow the reports that led. They are those of the runs in
collection order when each producer's reports arrive oldest first, and in every order
exactly when labels fail once. -/
theorem arrivalOrder_page (storable : Storable env calls) (same : SameUploads calls calls')
    (now : Int) :
    (problems env now (ingestAll env Db.empty calls)).ageless =
        (problems env now (ingestAll env Db.empty calls')).ageless ∧
      AgesFollow env (records env calls.reverse)
        (problems env now (ingestAll env Db.empty calls)) ∧
      (OldestFirst env calls → AgesFollow env (newestFirst calls)
        (problems env now (ingestAll env Db.empty calls))) ∧
      ((∀ order, SameUploads calls order → AgesFollow env (newestFirst calls)
        (problems env now (ingestAll env Db.empty order))) ↔ FailsOnce env calls) := by
  refine ⟨?_, ages_records storable now, ?_, ?_, ?_⟩
  · rw [← problems_ingestAll_sent now calls, ← problems_ingestAll_sent now calls']
    exact problems_ageless_eq storable.sent same now
  · intro oldestFirst
    exact ages_oldestFirst storable oldestFirst now
  · intro always
    refine (ages_ignore_order_iff storable now).mp ?_
    intro order perm
    exact always order (perm.map _)
  · intro failsOnce order same'
    have ages := (ages_ignore_order_iff storable.sent now).mpr failsOnce.sent _ same'
    rw [problems_ingestAll_sent, newestFirst_sent] at ages
    exact ages.of_sent

/-- Two failing reports of one producer, an hour apart. -/
def anHourApart : List IngestCall :=
  [sampleCall "amun" "disk" "01ARZ3NDEKTSV4RRFFQ69G5FAV" 0 [sampleCheck "root" "usage" .fail],
    sampleCall "amun" "disk" "01ARZ3NDEKTSV4RRFFQ69G5FAW" (3600 * second)
      [sampleCheck "root" "usage" .fail]]

theorem storable_anHourApart : Storable asciiEnv anHourApart := by
  have validated : ∀ call ∈ anHourApart, validate asciiEnv call.upload = .ok () := by decide
  have admitted : ∀ call ∈ anHourApart, Admitted asciiEnv call.upload :=
    fun call member => validate_eq_ok.mp (validated call member)
  have named : ∀ call ∈ anHourApart, fitsChars COLLECTOR_WIDTH call.upload.collector = true ∧
      ∀ c ∈ call.upload.checks, fitsChars SECTION_WIDTH c.sect = true := by decide
  refine ⟨admitted, ?_, by decide, by decide⟩
  intro call member
  refine (fits_iff_of_admitted (admitted call member) ?_).mpr (named call member)
  rcases List.mem_pair.mp member with rfl | rfl
  · exact ⟨by decide, by decide, by decide⟩
  · exact ⟨by decide, by decide, by decide⟩

theorem arrivalOrder_page_anHourApart :
    (problems asciiEnv 0 (ingestAll asciiEnv Db.empty anHourApart)).ageless =
        (problems asciiEnv 0 (ingestAll asciiEnv Db.empty anHourApart.reverse)).ageless ∧
      AgesFollow asciiEnv (newestFirst anHourApart)
        (problems asciiEnv 0 (ingestAll asciiEnv Db.empty anHourApart)) := by
  have reversed : SameUploads anHourApart anHourApart.reverse :=
    (List.reverse_perm anHourApart).symm.map _
  obtain ⟨same, _, collected, _⟩ := arrivalOrder_page storable_anHourApart reversed 0
  refine ⟨same, collected ?_⟩
  unfold OldestFirst
  decide

/-- The later of them first: the earlier one never leads, so the fault is as young as the
later report and not confirmed. -/
theorem arrivalOrder_ages_differ :
    ¬ ∀ env calls calls' now, Storable env calls → SameUploads calls calls' →
      (problems env now (ingestAll env Db.empty calls)).checks =
          (problems env now (ingestAll env Db.empty calls')).checks ∧
        AgesFollow env (newestFirst calls) (problems env now (ingestAll env Db.empty calls)) := by
  intro claimed
  have same := (claimed asciiEnv anHourApart anHourApart.reverse 0 storable_anHourApart
    ((List.reverse_perm _).symm.map _)).1
  exact absurd same (by decide)

end Fleetwatch
