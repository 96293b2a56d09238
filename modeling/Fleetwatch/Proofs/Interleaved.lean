import Fleetwatch.Proofs.Confined
import Fleetwatch.Proofs.Retired
import Fleetwatch.Report.Statements

/-!
# A page read while the store is written

What a page says of a producer it reads off three parts of the store: the producer's reports, the
mutes of its checks and its retirement. While the page is being read other requests may change
all three. As long as they change only one of them, each list of the page says of the producer
what it said at one moment of the request: the checks, open and muted, and the mutes about to
lapse what they said at one, the stale and the returned tiles what they said at another.
-/

namespace Fleetwatch

open Query Ranking Sql Table

/-! ## The parts of the store -/

/-- The rows of one producer, in their order. -/
def ownRows {α : Type} (env : Env) (producer : ProducerKey) (names : α → String × String)
    (rows : List α) : List α :=
  rows.filter (fun row => decide (producerKey env (names row).1 (names row).2 = producer))

/-- Two stores hold the same reports of a producer. -/
structure SameReports (env : Env) (producer : ProducerKey) (db db' : Db) : Prop where
  report : ownRows env producer (fun r => (r.source, r.collector)) db.report =
    ownRows env producer (fun r => (r.source, r.collector)) db'.report
  checkResult : ownRows env producer (fun c => (c.source, c.collector)) db.checkResult =
    ownRows env producer (fun c => (c.source, c.collector)) db'.checkResult
  latestReport : ownRows env producer (fun l => (l.source, l.collector)) db.latestReport =
    ownRows env producer (fun l => (l.source, l.collector)) db'.latestReport
  problemSince : ownRows env producer (fun p => (p.source, p.collector)) db.problemSince =
    ownRows env producer (fun p => (p.source, p.collector)) db'.problemSince

/-- Two stores hold the same of a part, as far as it is about the producer. -/
def Part.Same (env : Env) (producer : ProducerKey) (db db' : Db) : Part → Prop
  | .reports => SameReports env producer db db'
  | .mutes => ownRows env producer (fun m => (m.source, m.collector)) db.mute =
      ownRows env producer (fun m => (m.source, m.collector)) db'.mute
  | .retirement => ownRows env producer (fun r => (r.source, r.collector)) db.retirement =
      ownRows env producer (fun r => (r.source, r.collector)) db'.retirement

section

variable {env : Env} {producer : ProducerKey} {ledger ledger' : List Entry} {db db' db'' : Db}

theorem Part.Same.refl (part : Part) : part.Same env producer db db := by
  cases part with
  | reports => exact ⟨rfl, rfl, rfl, rfl⟩
  | mutes => rfl
  | retirement => rfl

theorem Part.Same.trans {part : Part} (first : part.Same env producer db db')
    (second : part.Same env producer db' db'') : part.Same env producer db db'' := by
  cases part with
  | reports =>
    exact ⟨first.report.trans second.report, first.checkResult.trans second.checkResult,
      first.latestReport.trans second.latestReport, first.problemSince.trans second.problemSince⟩
  | mutes => exact Eq.trans first second
  | retirement => exact Eq.trans first second

theorem Part.Same.of_eq (same : db' = db) (part : Part) : part.Same env producer db db' :=
  same ▸ Part.Same.refl part

/-- Rows of other producers only may have changed. -/
theorem ownRows_of_others {α : Type} {names : α → String × String} {rows rows' : List α}
    {other : ProducerKey} (same : others env other names rows' = others env other names rows)
    (different : other ≠ producer) :
    ownRows env producer names rows = ownRows env producer names rows' := by
  refine (filter_eq_of_others_eq same ?_).symm
  intro row own
  rw [of_decide_eq_true own]
  exact different.symm

theorem sameReports_ingest {call : IngestCall}
    (other : producerKey env call.source call.upload.collector ≠ producer) :
    SameReports env producer db (ingest env call db).2 := by
  have confined := confined_ingest env call { db := db, sessions := [] }
  exact
    { report := ownRows_of_others confined.report other
      checkResult := ownRows_of_others confined.checkResult other
      latestReport := ownRows_of_others confined.latestReport other
      problemSince := ownRows_of_others confined.problemSince other }

theorem sameMutes_create {call : MuteCall}
    (other : producerKey env (newMute call).source (newMute call).collector ≠ producer) :
    Part.mutes.Same env producer db (createMute env call db).2 := by
  rcases createMute_after env call db with same | ⟨-, after⟩
  · exact Part.Same.of_eq same _
  · rw [after]
    have none : ownRows env producer (fun m => (m.source, m.collector))
        [(newMute call).toRow] = [] :=
      List.filter_cons_of_neg (fun own => other (of_decide_eq_true own))
    show ownRows env producer _ db.mute =
      ownRows env producer _ (db.mute ++ [(newMute call).toRow])
    unfold ownRows at none ⊢
    rw [List.filter_append, none, List.append_nil]

theorem sameMutes_delete {id : String}
    (spared : db.mute.any (fun row => decide (row.key env = env.weight id) &&
      decide (producerKey env row.source row.collector = producer)) = false) :
    Part.mutes.Same env producer db (deleteMute env id db).2 := by
  refine (filter_deleteWhere ?_).symm
  intro row member own
  have hit := List.any_eq_false.mp spared row member
  rw [own, Bool.and_true] at hit
  exact Bool.not_eq_true _ |>.mp hit

theorem sameRetirement_create {call : RetirementCall}
    (other : (retirementRow call).key env ≠ producer) :
    Part.retirement.Same env producer db (createRetirement env call db).2 := by
  rcases createRetirement_after env call db with same | ⟨-, after⟩
  · exact Part.Same.of_eq same _
  · rw [after]
    show ownRows env producer _ db.retirement = ownRows env producer _
      (upsert (RetirementRow.key env) (retirementRow call) (restate (retirementRow call))
        db.retirement)
    unfold ownRows
    symm
    refine filter_upsert (fun _ => rfl) ?_
    intro stored hit
    exact decide_eq_false (fun own => other (hit.symm.trans own))

theorem sameRetirement_delete {source collector : String}
    (other : producerKey env source collector ≠ producer) :
    Part.retirement.Same env producer db (deleteRetirement env source collector db).2 := by
  refine (filter_deleteWhere ?_).symm
  intro row _ own
  refine decide_eq_false fun hit => other ?_
  exact hit.symm.trans (of_decide_eq_true own)

/-- A write leaves the other parts alone, and its own where it is about another producer. -/
theorem same_step {op : Op} {part : Part}
    (spared : op.concerns env producer db = true → op.part ≠ part) :
    part.Same env producer db (step env db op) := by
  cases op with
  | ingest call =>
    cases part with
    | reports =>
      exact sameReports_ingest fun own => spared (decide_eq_true own) rfl
    | mutes => exact congrArg _ (ingest_overlays env call db).1.symm
    | retirement => exact congrArg _ (ingest_overlays env call db).2.symm
  | createMute call =>
    cases part with
    | reports =>
      rcases createMute_after env call db with same | ⟨-, after⟩
      · exact Part.Same.of_eq same _
      · show SameReports env producer db (createMute env call db).2
        rw [after]
        exact ⟨rfl, rfl, rfl, rfl⟩
    | mutes => exact sameMutes_create fun own => spared (decide_eq_true own) rfl
    | retirement => exact congrArg _ (createMute_retirement env call db).symm
  | deleteMute id =>
    cases part with
    | reports => exact ⟨rfl, rfl, rfl, rfl⟩
    | mutes => exact sameMutes_delete ((Bool.not_eq_true _).mp fun own => spared own rfl)
    | retirement => rfl
  | createRetirement call =>
    cases part with
    | reports =>
      rcases createRetirement_after env call db with same | ⟨-, after⟩
      · exact Part.Same.of_eq same _
      · show SameReports env producer db (createRetirement env call db).2
        rw [after]
        exact ⟨rfl, rfl, rfl, rfl⟩
    | mutes => exact congrArg _ (createRetirement_mute env call db).symm
    | retirement => exact sameRetirement_create fun own => spared (decide_eq_true own) rfl
  | deleteRetirement source collector =>
    cases part with
    | reports => exact ⟨rfl, rfl, rfl, rfl⟩
    | mutes => rfl
    | retirement => exact sameRetirement_delete fun own => spared (decide_eq_true own) rfl
  | rebuildLatestReport =>
    cases part with
    | reports => exact absurd rfl (spared rfl)
    | mutes => rfl
    | retirement => rfl
  | sweep now rawDays checkDays =>
    cases part with
    | reports => exact absurd rfl (spared rfl)
    | mutes => rfl
    | retirement => rfl

/-- A run leaves every part alone that none of its writes touches. -/
theorem same_run {part : Part} (ops : List Op) (db : Db)
    (spared : part ∉ partsTouched env producer db ops) :
    part.Same env producer db (Run.run (step env) db ops) := by
  induction ops generalizing db with
  | nil => exact Part.Same.refl part
  | cons op rest ih =>
    rw [partsTouched, List.mem_append, not_or] at spared
    have first : part.Same env producer db (step env db op) := by
      refine same_step fun concerned same => spared.1 ?_
      rw [if_pos concerned]
      exact List.mem_singleton.mpr same.symm
    exact first.trans (ih (step env db op) spared.2)

theorem partsTouched_append (first second : List Op) (db : Db) :
    partsTouched env producer db (first ++ second) =
      partsTouched env producer db first ++
        partsTouched env producer (Run.run (step env) db first) second := by
  induction first generalizing db with
  | nil => rfl
  | cons op rest ih => rw [List.cons_append, partsTouched, ih, partsTouched, List.append_assoc,
      Run.run_cons]

/-! ## What is read off the parts -/

variable (rep : Represents env ledger db) (rep' : Represents env ledger' db')

include rep in
/-- A producer's latest reports, off its own pointers and reports. -/
theorem ownRows_latestReports :
    ownRows env producer (fun r => (r.source, r.collector)) (latestReports env db) =
      (innerJoin (fun (l : LatestReportRow) (r : ReportRow) =>
          decide (r.key env = env.weight l.reportId))
        (ownRows env producer (fun l => (l.source, l.collector)) db.latestReport)
        (ownRows env producer (fun r => (r.source, r.collector)) db.report)).map Prod.snd := by
  unfold ownRows latestReports
  rw [List.filter_map]
  refine congrArg (List.map Prod.snd) (filter_innerJoin ?_)
  intro pair joined
  obtain ⟨inTable, stored, matched⟩ := mem_innerJoin.mp joined
  obtain ⟨e, points⟩ := rep.latest.sound pair.1 inTable
  have row := rep.row_of_pointer points stored (of_decide_eq_true matched)
  have named : producerKey env pair.1.source pair.1.collector = e.producer env := points.producer
  rw [row, named]
  rfl

include rep in
/-- A producer's failing checks, off its own pointers and checks. -/
theorem ownRows_latestProblems :
    ownRows env producer (fun c => (c.source, c.collector)) (latestProblems env db) =
      ((innerJoin (pointsAt env)
        (ownRows env producer (fun l => (l.source, l.collector)) db.latestReport)
        (ownRows env producer (fun c => (c.source, c.collector)) db.checkResult)).map
          Prod.snd).filter (fun c => c.verdict.isProblem) := by
  unfold ownRows latestProblems
  rw [List.filter_comm, List.filter_map]
  refine congrArg (fun pairs => (List.map Prod.snd pairs).filter _) (filter_innerJoin ?_)
  intro pair joined
  obtain ⟨inTable, stored, matched⟩ := mem_innerJoin.mp joined
  obtain ⟨e, points⟩ := rep.latest.sound pair.1 inTable
  have own : pair.2 ∈ e.checkRows := by
    rw [← filter_pointsAt rep points]
    exact List.mem_filter.mpr ⟨stored, matched⟩
  have named : producerKey env pair.1.source pair.1.collector = e.producer env := points.producer
  rw [checkRows_producer own, named]

section

variable (reports : SameReports env producer db db')

include rep rep' reports

theorem ownRows_latestReports_eq :
    ownRows env producer (fun r => (r.source, r.collector)) (latestReports env db) =
      ownRows env producer (fun r => (r.source, r.collector)) (latestReports env db') := by
  rw [ownRows_latestReports rep, ownRows_latestReports rep', reports.latestReport, reports.report]

theorem ownRows_latestProblems_eq :
    ownRows env producer (fun c => (c.source, c.collector)) (latestProblems env db) =
      ownRows env producer (fun c => (c.source, c.collector)) (latestProblems env db') := by
  rw [ownRows_latestProblems rep, ownRows_latestProblems rep', reports.latestReport,
    reports.checkResult]

/-- The problem rows of a producer, each with the run of its own check. -/
theorem ownRows_problemRows_eq :
    ownRows env producer (fun r => (r.check.source, r.check.collector)) (problemRows env db) =
      ownRows env producer (fun r => (r.check.source, r.check.collector))
        (problemRows env db') := by
  have joined : leftJoin (sinceOf env)
      (ownRows env producer (fun c => (c.source, c.collector)) (latestProblems env db))
        db.problemSince =
      leftJoin (sinceOf env)
        (ownRows env producer (fun c => (c.source, c.collector)) (latestProblems env db))
          db'.problemSince := by
    refine leftJoin_congr fun c kept => ?_
    refine filter_eq_of_filter_eq reports.problemSince fun row matched => ?_
    have same : row.key env = c.identity env := of_decide_eq_true matched
    have own : producerKey env row.source row.collector = producerKey env c.source c.collector :=
      congrArg Prod.fst same
    exact decide_eq_true (own.trans (of_decide_eq_true (List.mem_filter.mp kept).2))
  have rows : ∀ db : Db,
      ownRows env producer (fun r => (r.check.source, r.check.collector)) (problemRows env db) =
        orderBy (problemOrder env) ((leftJoin (sinceOf env)
          (ownRows env producer (fun c => (c.source, c.collector)) (latestProblems env db))
            db.problemSince).map fun row =>
              { check := row.1, firstSeen := row.2.map (·.firstSeen) }) := by
    intro db
    unfold problemRows ownRows
    rw [filter_orderBy, List.filter_map, ← filter_leftJoin]
    rfl
  rw [rows, rows, joined, ownRows_latestProblems_eq rep rep' reports]

end

/-- The muted counts of a producer's tile, off its own failing checks and mutes. -/
theorem mutedCount_own {now : Int} {r : ReportRow} (rep : Represents env ledger db)
    (latest : r ∈ ownRows env producer (fun r => (r.source, r.collector)) (latestReports env db))
    (verdict : Verdict) :
    mutedCount env now db r.id verdict =
      ((innerJoin (mutedBy env now)
        (ownRows env producer (fun c => (c.source, c.collector)) (latestProblems env db))
        (ownRows env producer (fun m => (m.source, m.collector)) db.mute)).filter
          (fun (c, _) => env.weight c.reportId = env.weight r.id ∧ c.verdict = verdict)).length := by
  obtain ⟨member, own⟩ := List.mem_filter.mp latest
  obtain ⟨l, inTable, e, points, rfl⟩ := (mem_latestReports rep).mp member
  -- a check covered by a mute is of the mute's producer
  have split : (mutedPairs env now db).filter (fun pair =>
        decide (producerKey env pair.2.source pair.2.collector = producer)) =
      innerJoin (mutedBy env now)
        (ownRows env producer (fun c => (c.source, c.collector)) (latestProblems env db))
        (ownRows env producer (fun m => (m.source, m.collector)) db.mute) := by
    refine filter_innerJoin (q := fun m : MuteRow =>
      decide (producerKey env m.source m.collector = producer)) ?_
    intro pair joined
    have matched := (mem_innerJoin.mp joined).2.2
    unfold mutedBy at matched
    have same : pair.2.identity env = pair.1.identity env :=
      of_decide_eq_true ((Bool.and_eq_true _ _).mp matched).1
    have named : producerKey env pair.2.source pair.2.collector =
        producerKey env pair.1.source pair.1.collector := congrArg Prod.fst same
    rw [named]
  rw [← split, List.filter_filter]
  unfold mutedCount
  refine congrArg List.length (List.filter_congr fun pair joined => ?_)
  obtain ⟨failing, -, matched⟩ := mem_innerJoin.mp joined
  by_cases counted : env.weight pair.1.reportId = env.weight e.reportRow.id ∧
      pair.1.verdict = verdict
  · -- the check is of the report, so of its producer
    have named : producerKey env pair.2.source pair.2.collector = producer := by
      obtain ⟨l', inTable', e', points', ownCheck, -⟩ := (mem_latestProblems rep).mp failing
      have report : e' = e := by
        refine rep.eq_of_key points'.member points.member ?_
        have id := checkRows_reportId ownCheck
        exact (congrArg env.weight id).symm.trans counted.1
      rw [report] at ownCheck
      unfold mutedBy at matched
      have same : pair.2.identity env = pair.1.identity env :=
        of_decide_eq_true ((Bool.and_eq_true _ _).mp matched).1
      have pairNames : producerKey env pair.2.source pair.2.collector =
          producerKey env pair.1.source pair.1.collector := congrArg Prod.fst same
      rw [pairNames, checkRows_producer ownCheck]
      exact of_decide_eq_true own
    simp [counted, named]
  · simp [counted]

section

variable (reports : SameReports env producer db db')
  (mutes : Part.mutes.Same env producer db db')

include rep rep' reports mutes

/-- A producer's tile, off its reports and mutes. -/
theorem ownRows_overviewAt_eq (boundAt judgedAt : Int) :
    ownRows env producer (fun e => (e.source, e.collector)) (overviewAt env boundAt judgedAt db) =
      ownRows env producer (fun e => (e.source, e.collector))
        (overviewAt env boundAt judgedAt db') := by
  have tiles : ∀ db : Db,
      ownRows env producer (fun e => (e.source, e.collector))
          (overviewAt env boundAt judgedAt db) =
        (orderBy (fun r : LatestRow => toLex (env.weight r.source, env.weight r.collector))
          ((ownRows env producer (fun r => (r.source, r.collector)) (latestReports env db)).map
            (latestRow env boundAt db))).map (overviewEntry judgedAt) := by
    intro db
    unfold ownRows overviewAt
    rw [List.filter_map, filter_orderBy, List.filter_map]
    rfl
  have latest := ownRows_latestReports_eq rep rep' reports
  rw [tiles, tiles, ← latest]
  congr 2
  apply List.map_congr_left
  intro r own
  have counts : ∀ verdict, mutedCount env boundAt db r.id verdict =
      mutedCount env boundAt db' r.id verdict := by
    intro verdict
    have covering : ownRows env producer (fun m => (m.source, m.collector)) db.mute =
        ownRows env producer (fun m => (m.source, m.collector)) db'.mute := mutes
    rw [mutedCount_own rep own, mutedCount_own rep' (latest ▸ own),
      ownRows_latestProblems_eq rep rep' reports, covering]
  unfold latestRow
  rw [counts, counts]

end

/-- The live mutes of a producer, off its own rows. -/
theorem ownRows_listMutes_eq (mutes : Part.mutes.Same env producer db db') (now : Int) :
    ownRows env producer (fun m => (m.source, m.collector)) (listMutes now db) =
      ownRows env producer (fun m => (m.source, m.collector)) (listMutes now db') := by
  have listed : ∀ db : Db,
      ownRows env producer (fun m => (m.source, m.collector)) (listMutes now db) =
        (orderBy (fun row => -row.createdAt) ((ownRows env producer
          (fun m => (m.source, m.collector)) db.mute).filter (MuteRow.live now))).map
            MuteRow.toMute := by
    intro db
    unfold listMutes ownRows
    rw [List.filter_map, filter_orderBy, List.filter_comm]
    rfl
  have covering : ownRows env producer (fun m => (m.source, m.collector)) db.mute =
      ownRows env producer (fun m => (m.source, m.collector)) db'.mute := mutes
  rw [listed, listed, covering]

/-- The mute of a producer's check, off the producer's mutes. -/
theorem mute_own_eq (mutes : Part.mutes.Same env producer db db') (now : Int) {r : ProblemRow}
    (own : producerKey env r.check.source r.check.collector = producer) :
    r.mute now db = r.mute now db' := by
  have kept : ∀ db : Db, r.mute now db = byId
      (ownRows env producer (fun m => (m.source, m.collector)) (listMutes now db))
      (r.check.source, r.check.collector, r.check.label) := by
    intro db
    refine (keepGreatest_filter _ _ ?_).symm
    intro m _ same
    obtain ⟨source, rest⟩ := Prod.mk.inj same
    obtain ⟨collector, -⟩ := Prod.mk.inj rest
    refine decide_eq_true ?_
    rw [← own, ← source, ← collector]
  rw [kept, kept, ownRows_listMutes_eq mutes]

/-- The retirement of a producer, off its own rows. -/
theorem retired_own_eq (retirement : Part.retirement.Same env producer db db')
    {source collector : String} (own : producerKey env source collector = producer) :
    retired (listRetirements db) source collector =
      retired (listRetirements db') source collector := by
  have kept : ∀ db : Db, retired (listRetirements db) source collector =
      ((((orderBy (fun row => -row.retiredAt) (ownRows env producer
        (fun r => (r.source, r.collector)) db.retirement)).map RetirementRow.toRetirement).filter
          (fun r => r.source = source ∧ r.collector = collector))).getLast? := by
    intro db
    unfold retired listRetirements ownRows
    rw [← filter_orderBy, List.filter_map, List.filter_map, List.filter_filter]
    refine congrArg (fun rows => (List.map RetirementRow.toRetirement rows).getLast?) ?_
    refine List.filter_congr fun row _ => ?_
    by_cases named : row.source = source ∧ row.collector = collector
    · simp [RetirementRow.toRetirement, named, own]
    · have other : ¬ (row.toRetirement.source = source ∧ row.toRetirement.collector = collector) :=
        named
      simp [other]
  have stored : ownRows env producer (fun r => (r.source, r.collector)) db.retirement =
      ownRows env producer (fun r => (r.source, r.collector)) db'.retirement := retirement
  rw [kept, kept, stored]

/-! ## What a page says of a producer -/

/-- The checks a page shows of a producer, open and muted, and its mutes that are about to
lapse. -/
def checksAbout (env : Env) (producer : ProducerKey) (p : Problems) :
    List ProblemCheck × List MutedCheck × List Mute :=
  (ownRows env producer (fun c => (c.source, c.collector)) p.checks,
    ownRows env producer (fun c => (c.source, c.collector)) p.muted,
    ownRows env producer (fun m => (m.source, m.collector)) p.lapsing)

/-- The tiles a page shows of a producer, as stale and as returned. -/
def collectorsAbout (env : Env) (producer : ProducerKey) (p : Problems) :
    List OverviewEntry × List OverviewEntry :=
  (ownRows env producer (fun e => (e.source, e.collector)) p.stale,
    ownRows env producer (fun e => (e.source, e.collector)) p.returned)

/-- The checks of a page, once its rows and their mutes are found. -/
theorem ownRows_checks_eq {rows rows' : List ProblemRow} {mute mute' : ProblemRow → Option Mute}
    (same : ownRows env producer (fun r => (r.check.source, r.check.collector)) rows =
      ownRows env producer (fun r => (r.check.source, r.check.collector)) rows')
    (covering : ∀ r : ProblemRow,
      producerKey env r.check.source r.check.collector = producer → mute r = mute' r) :
    ownRows env producer (fun c => (c.source, c.collector))
        ((rows.filter (fun r => (mute r).isNone)).map problemCheck) =
      ownRows env producer (fun c => (c.source, c.collector))
        ((rows'.filter (fun r => (mute' r).isNone)).map problemCheck) := by
  have own : ∀ (rows : List ProblemRow) (mute : ProblemRow → Option Mute),
      ownRows env producer (fun c => (c.source, c.collector))
          ((rows.filter (fun r => (mute r).isNone)).map problemCheck) =
        ((ownRows env producer (fun r => (r.check.source, r.check.collector)) rows).filter
          (fun r => (mute r).isNone)).map problemCheck := by
    intro rows mute
    unfold ownRows
    rw [List.filter_map, List.filter_comm]
    rfl
  rw [own, own, ← same]
  refine congrArg (List.map problemCheck) (List.filter_congr fun r member => ?_)
  rw [covering r (of_decide_eq_true (List.mem_filter.mp member).2)]

theorem ownRows_muted_eq {rows rows' : List ProblemRow} {mute mute' : ProblemRow → Option Mute}
    (same : ownRows env producer (fun r => (r.check.source, r.check.collector)) rows =
      ownRows env producer (fun r => (r.check.source, r.check.collector)) rows')
    (covering : ∀ r : ProblemRow,
      producerKey env r.check.source r.check.collector = producer → mute r = mute' r) :
    ownRows env producer (fun c => (c.source, c.collector))
        (rows.filterMap (fun r => (mute r).map (mutedCheck r))) =
      ownRows env producer (fun c => (c.source, c.collector))
        (rows'.filterMap (fun r => (mute' r).map (mutedCheck r))) := by
  have own : ∀ (rows : List ProblemRow) (mute : ProblemRow → Option Mute),
      ownRows env producer (fun c => (c.source, c.collector))
          (rows.filterMap (fun r => (mute r).map (mutedCheck r))) =
        (ownRows env producer (fun r => (r.check.source, r.check.collector)) rows).filterMap
          (fun r => (mute r).map (mutedCheck r)) := by
    intro rows mute
    unfold ownRows
    rw [List.filter_filterMap, List.filterMap_filter]
    refine List.filterMap_congr fun r _ => ?_
    cases mute r with
    | none => simp
    | some m =>
      by_cases named : producerKey env r.check.source r.check.collector = producer
      · simp [named, mutedCheck]
      · simp [named, mutedCheck]
  rw [own, own, ← same]
  refine List.filterMap_congr fun r member => ?_
  rw [covering r (of_decide_eq_true (List.mem_filter.mp member).2)]

/-- What a page sorts out of a producer's rows. -/
theorem ownRows_filter_eq {α : Type} {names : α → String × String} {rows rows' : List α}
    {sorts sorts' : α → Bool}
    (same : ownRows env producer names rows = ownRows env producer names rows')
    (sorting : ∀ row : α, producerKey env (names row).1 (names row).2 = producer →
      sorts row = sorts' row) :
    ownRows env producer names (rows.filter sorts) =
      ownRows env producer names (rows'.filter sorts') := by
  unfold ownRows at same ⊢
  rw [List.filter_comm, List.filter_comm (q := sorts'), ← same]
  refine List.filter_congr fun row member => ?_
  exact sorting row (of_decide_eq_true (List.mem_filter.mp member).2)

/-- The checks of a page and its lapsing mutes are those of a still store that has the producer's
reports as the first statement found them, and its mutes as the second did. -/
theorem checksAbout_still {r : PageRead} {state : Db} (start : Represents env ledger r.start)
    (rep : Represents env ledger' state) (reports : SameReports env producer r.start state)
    (mutes : Part.mutes.Same env producer (r.mutesDb env) state) :
    checksAbout env producer (r.page env) =
      checksAbout env producer ((r.still state).page env) := by
  have rows := ownRows_problemRows_eq start rep reports
  have covering : ∀ row : ProblemRow,
      producerKey env row.check.source row.check.collector = producer →
        row.mute r.mutesAt (r.mutesDb env) = row.mute r.mutesAt state :=
    fun row own => mute_own_eq mutes r.mutesAt own
  have lapsing : ownRows env producer (fun m => (m.source, m.collector))
        ((listMutes r.mutesAt (r.mutesDb env)).filter (fun m => isLapsing m r.closedAt)) =
      ownRows env producer (fun m => (m.source, m.collector))
        ((listMutes r.mutesAt state).filter (fun m => isLapsing m r.closedAt)) :=
    ownRows_filter_eq (ownRows_listMutes_eq mutes r.mutesAt) (fun _ _ => rfl)
  exact Prod.ext (ownRows_checks_eq rows covering)
    (Prod.ext (ownRows_muted_eq rows covering) lapsing)

/-- The tiles of a page are those of a still store that has the producer's retirement as the third
statement found it, and its reports and mutes as the fourth did. -/
theorem collectorsAbout_still {r : PageRead} {state : Db}
    (found : Represents env ledger (r.tilesDb env)) (rep : Represents env ledger' state)
    (retirement : Part.retirement.Same env producer (r.retirementsDb env) state)
    (reports : SameReports env producer (r.tilesDb env) state)
    (mutes : Part.mutes.Same env producer (r.tilesDb env) state) :
    collectorsAbout env producer (r.page env) =
      collectorsAbout env producer ((r.still state).page env) := by
  have tiles := ownRows_overviewAt_eq found rep reports mutes r.tilesAt r.judgedAt
  refine Prod.ext (ownRows_filter_eq tiles ?_) (ownRows_filter_eq tiles ?_)
  · intro e own
    unfold isStale
    rw [retired_own_eq retirement own]
    rfl
  · intro e own
    unfold hasReturned
    rw [retired_own_eq retirement own]
    rfl

/-! ## The moments of a page -/

/-- The stores the statements of a page find. -/
def PageRead.states (env : Env) (r : PageRead) : List Db :=
  [r.start, r.mutesDb env, r.retirementsDb env, r.tilesDb env]

/-- What a page says of a producer is what pages of still stores say of it: of the first one, where
no write in between is about the producer; and where all that are go to one part, each half of
what it says is that of a store some statement found. -/
structure Serialized (env : Env) (r : PageRead) (producer : ProducerKey) : Prop where
  untouched : partsTouched env producer r.start r.writes = [] →
    checksAbout env producer (r.page env) =
        checksAbout env producer ((r.still r.start).page env) ∧
      collectorsAbout env producer (r.page env) =
        collectorsAbout env producer ((r.still r.start).page env)
  onePart : ∀ part, (∀ touched ∈ partsTouched env producer r.start r.writes, touched = part) →
    ∃ first ∈ r.states env, ∃ second ∈ r.states env,
      checksAbout env producer (r.page env) =
          checksAbout env producer ((r.still first).page env) ∧
        collectorsAbout env producer (r.page env) =
          collectorsAbout env producer ((r.still second).page env)

theorem Represents.after (rep : Represents env ledger db) (ops : List Op) :
    Represents env (Run.run (ledgerStep env) ledger ops) (Run.run (step env) db ops) :=
  Run.run_simulation (Represents env) (fun _ _ op rep => represents_step rep op) ops ledger db rep

/-- A part no write touches is the same all through the request. -/
theorem same_states {r : PageRead} {part : Part}
    (spared : part ∉ partsTouched env producer r.start r.writes) :
    part.Same env producer r.start (r.mutesDb env) ∧
      part.Same env producer (r.mutesDb env) (r.retirementsDb env) ∧
      part.Same env producer (r.retirementsDb env) (r.tilesDb env) := by
  unfold PageRead.writes at spared
  rw [partsTouched_append, partsTouched_append, Run.run_append, List.mem_append, List.mem_append,
    not_or, not_or] at spared
  obtain ⟨⟨first, second⟩, third⟩ := spared
  exact ⟨same_run _ _ first, same_run _ _ second, same_run _ _ third⟩

theorem Part.Same.symm {part : Part} (same : part.Same env producer db db') :
    part.Same env producer db' db := by
  cases part with
  | reports =>
    exact ⟨same.report.symm, same.checkResult.symm, same.latestReport.symm,
      same.problemSince.symm⟩
  | mutes => exact Eq.symm same
  | retirement => exact Eq.symm same

/-- However the page's statements are interleaved with other requests, what it says of a producer
is serialized unless these write to two parts of what the store holds about that producer. -/
theorem page_serialized {permitted : Op → Prop} {r : PageRead}
    (reached : Reachable env permitted r.start) (producer : ProducerKey) :
    Serialized env r producer := by
  obtain ⟨_, start⟩ := reached.represents
  have mutesRep : Represents env _ (r.mutesDb env) := start.after r.beforeMutes
  have retirementsRep : Represents env _ (r.retirementsDb env) := mutesRep.after r.beforeRetirements
  have tilesRep : Represents env _ (r.tilesDb env) := retirementsRep.after r.beforeTiles
  constructor
  case untouched =>
    intro none
    have spared : ∀ part : Part, part ∉ partsTouched env producer r.start r.writes := by
      intro part
      rw [none]
      exact List.not_mem_nil
    have same : ∀ part : Part, part.Same env producer r.start (r.mutesDb env) ∧
        part.Same env producer (r.mutesDb env) (r.retirementsDb env) ∧
        part.Same env producer (r.retirementsDb env) (r.tilesDb env) :=
      fun part => same_states (spared part)
    have back : ∀ part : Part, part.Same env producer (r.tilesDb env) r.start := fun part =>
      ((same part).1.trans ((same part).2.1.trans (same part).2.2)).symm
    have retirement : Part.retirement.Same env producer (r.retirementsDb env) r.start :=
      ((same .retirement).1.trans (same .retirement).2.1).symm
    exact ⟨checksAbout_still start start (Part.Same.refl .reports) (same .mutes).1.symm,
      collectorsAbout_still tilesRep start retirement (back .reports) (back .mutes)⟩
  case onePart =>
    intro part one
    have spared : ∀ other : Part, other ≠ part →
        other ∉ partsTouched env producer r.start r.writes :=
      fun other different touched => different (one other touched)
    cases part with
    | reports =>
      -- the mutes and the retirement hold still
      have mutes := same_states (spared .mutes (by decide))
      have retirement := same_states (spared .retirement (by decide))
      exact ⟨r.start, by simp [PageRead.states], r.tilesDb env, by simp [PageRead.states],
        checksAbout_still start start (Part.Same.refl .reports) mutes.1.symm,
        collectorsAbout_still tilesRep tilesRep retirement.2.2 (Part.Same.refl .reports)
          (Part.Same.refl .mutes)⟩
    | mutes =>
      -- the reports and the retirement hold still
      have reports := same_states (spared .reports (by decide))
      have retirement := same_states (spared .retirement (by decide))
      exact ⟨r.mutesDb env, by simp [PageRead.states], r.tilesDb env, by simp [PageRead.states],
        checksAbout_still start mutesRep reports.1 (Part.Same.refl .mutes),
        collectorsAbout_still tilesRep tilesRep retirement.2.2 (Part.Same.refl .reports)
          (Part.Same.refl .mutes)⟩
    | retirement =>
      -- the reports and the mutes hold still
      have reports := same_states (spared .reports (by decide))
      have mutes := same_states (spared .mutes (by decide))
      exact ⟨r.start, by simp [PageRead.states], r.retirementsDb env, by simp [PageRead.states],
        checksAbout_still start start (Part.Same.refl .reports) mutes.1.symm,
        collectorsAbout_still tilesRep retirementsRep (Part.Same.refl .retirement)
          reports.2.2.symm mutes.2.2.symm⟩

end

/-- The page of a retired producer, asked ten days later. -/
def readWhile (beforeTiles : List Op) : PageRead :=
  { start := stateAfter asciiEnv retiredPassing
    beforeMutes := []
    beforeRetirements := []
    beforeTiles := beforeTiles
    mutesAt := 10 * 86400 * second
    tilesAt := 10 * 86400 * second
    judgedAt := 10 * 86400 * second
    closedAt := 10 * 86400 * second }

/-- The producer reports again, nine days in. -/
def reportAgain : Op :=
  .ingest (sampleCall "amun" "disk" "01ARZ3NDEKTSV4RRFFQ69G5FAW" (9 * 86400 * second)
    [sampleCheck "root" "mounted" .pass])

theorem page_serialized_sample :
    ∃ first ∈ (readWhile [reportAgain]).states asciiEnv,
      ∃ second ∈ (readWhile [reportAgain]).states asciiEnv,
        checksAbout asciiEnv (producerKey asciiEnv "amun" "disk")
            ((readWhile [reportAgain]).page asciiEnv) =
          checksAbout asciiEnv (producerKey asciiEnv "amun" "disk")
            (((readWhile [reportAgain]).still first).page asciiEnv) ∧
        collectorsAbout asciiEnv (producerKey asciiEnv "amun" "disk")
            ((readWhile [reportAgain]).page asciiEnv) =
          collectorsAbout asciiEnv (producerKey asciiEnv "amun" "disk")
            (((readWhile [reportAgain]).still second).page asciiEnv) := by
  have reached : Reachable asciiEnv (fun _ => True) (readWhile [reportAgain]).start :=
    ⟨retiredPassing, fun _ _ => trivial, rfl⟩
  exact (page_serialized reached (producerKey asciiEnv "amun" "disk")).onePart .reports
    (by decide +kernel)

/-- Taken off the retired list and heard from again within one request, it is listed as returned,
though at no moment of the request a retirement stood against its report. -/
example :
    ((readWhile [.deleteRetirement "amun" "disk", reportAgain]).page asciiEnv).returned.length = 1 ∧
      ∀ state ∈ (readWhile [.deleteRetirement "amun" "disk", reportAgain]).states asciiEnv,
        (((readWhile [.deleteRetirement "amun" "disk", reportAgain]).still state).page
          asciiEnv).returned = [] := by
  decide +kernel

end Fleetwatch
