import Fleetwatch.Board
import Fleetwatch.Proofs.MuteOverlay

/-!
# A retired producer that stopped

Retirement is an overlay over the overview: it takes a producer out of `stale` and,
once it reports again, puts it into `returned`. The failing checks of its last report
are not looked at. So a producer that stopped says nothing exactly when a mute covers
each of them and the retirement is found under the very names the report carries.
-/

namespace Fleetwatch

open Query Sql Table

variable {env : Env} {ledger : List Entry} {db : Db}

/-- The board without one producer's rows. -/
def Problems.without (env : Env) (producer : ProducerKey) (p : Problems) : Problems :=
  { p with
    checks := p.checks.filter (fun c => producerKey env c.source c.collector ≠ producer)
    stale := p.stale.filter (fun e => producerKey env e.source e.collector ≠ producer)
    returned := p.returned.filter (fun e => producerKey env e.source e.collector ≠ producer) }

/-- The producer has no row on the board and adds nothing to its counts. -/
structure SaysNothing (env : Env) (producer : ProducerKey) (p : Problems) : Prop where
  checks : ∀ c ∈ p.checks, producerKey env c.source c.collector ≠ producer
  stale : ∀ e ∈ p.stale, producerKey env e.source e.collector ≠ producer
  returned : ∀ e ∈ p.returned, producerKey env e.source e.collector ≠ producer
  count : count p = count (p.without env producer)
  notifiable : notifiableCount p = notifiableCount (p.without env producer)

/-- Having no row is all there is to it. -/
theorem saysNothing_of_rows {producer : ProducerKey} {p : Problems}
    (checks : ∀ c ∈ p.checks, producerKey env c.source c.collector ≠ producer)
    (stale : ∀ e ∈ p.stale, producerKey env e.source e.collector ≠ producer)
    (returned : ∀ e ∈ p.returned, producerKey env e.source e.collector ≠ producer) :
    SaysNothing env producer p := by
  have same : p.without env producer = p := by
    unfold Problems.without
    rw [List.filter_eq_self.mpr (fun c member => decide_eq_true (checks c member)),
      List.filter_eq_self.mpr (fun e member => decide_eq_true (stale e member)),
      List.filter_eq_self.mpr (fun e member => decide_eq_true (returned e member))]
  refine ⟨checks, stale, returned, ?_, ?_⟩ <;> rw [same]

/-- The page shows a check of the producer exactly when its latest report has a failing
one no mute covers. -/
theorem shows_check_iff (rep : Represents env ledger db) {l : LatestReportRow} {e : Entry}
    (inTable : l ∈ db.latestReport) (points : PointsTo env ledger l e) (now : Int) :
    (∀ p ∈ (problems env now db).checks, producerKey env p.source p.collector ≠ l.key env) ↔
      ∀ c ∈ e.checkRows, c.verdict.isProblem = true → covered now db c = true := by
  constructor
  · intro silent c own problem
    by_contra bare
    have inLatest := (mem_latestProblems rep).mpr ⟨l, inTable, e, points, own, problem⟩
    obtain ⟨r, row, rfl⟩ := exists_problemRow rep inLatest
    refine silent _ (mem_checks.mpr ⟨r, row, by simpa using bare, rfl⟩) ?_
    exact (checkRows_producer own).trans points.producer.symm
  · intro allCovered p shown same
    obtain ⟨r, row, bare, rfl⟩ := mem_checks.mp shown
    obtain ⟨inLatest, _⟩ := (mem_problemRows rep).mp row
    obtain ⟨l', inTable', e', points', own, problem⟩ := (mem_latestProblems rep).mp inLatest
    have producer : l'.key env = l.key env :=
      points'.producer.trans ((checkRows_producer own).symm.trans same)
    obtain rfl := rep.latest.keyed.eq_of_key_eq inTable' inTable producer
    obtain rfl := rep.pointee_eq points' points.member points.reportId
    exact absurd (bare.symm.trans (allCovered r.check own problem)) Bool.false_ne_true

/-! ## Silence -/

/-- A retirement is found under the names the latest report carries, or the report is
fresh. -/
def FoundOrFresh (env : Env) (now : Int) (db : Db) (l : LatestReportRow) : Prop :=
  ∀ r ∈ db.report, r.key env = env.weight l.reportId →
    (∃ row ∈ db.retirement, row.source = r.source ∧ row.collector = r.collector) ∨
      freshness (numSeconds (now - r.collectedAt)) r.intervalS = .fresh

theorem foundOrFresh_iff (rep : Represents env ledger db) {l : LatestReportRow} {e : Entry}
    (points : PointsTo env ledger l e) (now : Int) :
    FoundOrFresh env now db l ↔ isStale (listRetirements db) (tileOf env now db e) = false := by
  rw [isStale_eq_false_iff]
  constructor
  · intro found
    refine found e.reportRow ?_ ?_
    · rw [rep.report]
      exact List.mem_map.mpr ⟨e, points.member, rfl⟩
    · rw [points.reportId]
      rfl
  · intro found r stored same
    obtain rfl := rep.row_of_pointer points stored same
    exact found

/-- In every reachable state, at every instant, a retired producer whose latest report is
not later than its retirement says nothing exactly when a live mute covers each failing
check of that report and its retirement is found under the report's names. -/
theorem retired_saysNothing_iff {permitted : Op → Prop} (reached : Reachable env permitted db)
    (now : Int) {l : LatestReportRow} (inTable : l ∈ db.latestReport) {row : RetirementRow}
    (stored : row ∈ db.retirement) (same : row.key env = l.key env)
    (stopped : l.collectedAt ≤ row.retiredAt) :
    SaysNothing env (l.key env) (problems env now db) ↔
      (∀ c ∈ checksOf env db l.reportId, c.verdict.isProblem = true →
        covered now db c = true) ∧ FoundOrFresh env now db l := by
  obtain ⟨ledger, rep⟩ := reached.represents
  obtain ⟨e, points⟩ := rep.latest.sound l inTable
  have checks : checksOf env db l.reportId = e.checkRows := by
    rw [points.reportId]
    exact checksOf_eq rep points.member
  -- the producer cannot have returned: the one retirement it has is not older
  have notReturned : hasReturned (listRetirements db) (tileOf env now db e) = false := by
    unfold hasReturned
    cases found : retired (listRetirements db) (tileOf env now db e).source
        (tileOf env now db e).collector with
    | none => rfl
    | some r =>
      obtain ⟨row', stored', rfl, source, collector⟩ := retired_eq_some found
      have key : row'.key env = row.key env := by
        rw [same, points.producer]
        unfold RetirementRow.key
        rw [source, collector]
        rfl
      obtain rfl := rep.retirement.eq_of_key_eq stored' stored key
      rw [points.collectedAt] at stopped
      exact decide_eq_false (not_lt.mpr stopped)
  rw [checks, ← shows_check_iff rep inTable points now, foundOrFresh_iff rep points now,
    ← silent_iff rep inTable points now]
  constructor
  · intro silent
    exact ⟨silent.checks, silent.stale⟩
  · rintro ⟨silentChecks, silentStale⟩
    exact saysNothing_of_rows silentChecks silentStale
      ((silent_iff rep inTable points now _).mpr notReturned)

/-- The sample producer retired a day after its report. -/
def sampleRetirement : RetirementCall :=
  { new := { source := "amun", collector := "disk", reason := "moved" }
    createdBy := "admin"
    now := 86400 * second }

/-- Nothing failing in the last report. -/
def retiredPassing : List Op :=
  [.ingest (sampleCall "amun" "disk" "01ARZ3NDEKTSV4RRFFQ69G5FAV" 0
    [sampleCheck "root" "mounted" .pass]), .createRetirement sampleRetirement]

def retiredFailing : List Op := [.ingest sampleReport, .createRetirement sampleRetirement]

theorem retired_saysNothing_passing :
    SaysNothing asciiEnv (producerKey asciiEnv "amun" "disk")
      (problems asciiEnv (172800 * second) (stateAfter asciiEnv retiredPassing)) := by
  have reached : Reachable asciiEnv Op.isCall (stateAfter asciiEnv retiredPassing) :=
    ⟨retiredPassing, by simp [retiredPassing, Op.isCall], rfl⟩
  have pointer : pointerRow sampleReport ∈ (stateAfter asciiEnv retiredPassing).latestReport := by
    decide
  have retirement : retirementRow sampleRetirement ∈
      (stateAfter asciiEnv retiredPassing).retirement := by decide
  refine (retired_saysNothing_iff reached (172800 * second) pointer retirement rfl (by decide)).mpr
    ⟨by decide, ?_⟩
  unfold FoundOrFresh
  decide

/-- A finished producer whose last report failed stays on the board. -/
theorem retired_failing_shows :
    ¬ ∀ env db now, Reachable env Op.isCall db → ∀ l ∈ db.latestReport, ∀ row ∈ db.retirement,
      row.key env = l.key env → l.collectedAt ≤ row.retiredAt →
      SaysNothing env (l.key env) (problems env now db) := by
  intro claimed
  have reached : Reachable asciiEnv Op.isCall (stateAfter asciiEnv retiredFailing) :=
    ⟨retiredFailing, by simp [retiredFailing, Op.isCall], rfl⟩
  have silent := claimed asciiEnv _ (172800 * second) reached (pointerRow sampleReport) (by decide)
    (retirementRow sampleRetirement) (by decide) rfl (by decide)
  exact absurd silent.count (by decide)

end Fleetwatch
