import Fleetwatch.Proofs.Acknowledged
import Fleetwatch.Proofs.Tiles

/-!
# The tile and the page

The mute overlay is implemented twice: the overview's query joins the mutes through
the collation and sums, the problems page looks each check up byte for byte. Over
the failing checks of one report the sum weighs a check by the mutes it meets and
the page by whether one names it, so the tile tells the page's numbers exactly when
every check meets at most one live mute and that one by its own name.
-/

namespace Fleetwatch

open Query Sql Table

variable {env : Env} {ledger : List Entry} {db : Db}

/-! ## States whose checks are all there -/

/-- Retention has taken no checks. -/
def Unswept (ledger : List Entry) : Prop := ∀ e ∈ ledger, e.checksSwept = false

theorem unswept_run (env : Env) {ops : List Op} (allowed : ∀ op ∈ ops, op.keepsChecks) :
    Unswept (Run.run (ledgerStep env) [] ops) := by
  refine Run.run_invariant Unswept ?_ ops [] allowed (by intro e member; cases member)
  intro ledger op keeps unswept e member
  rcases mem_ledgerStep member with old | ⟨call, -, -, rfl⟩ | ⟨_, _, _, rfl, -⟩
  · exact unswept e old
  · rfl
  · exact absurd keeps id

theorem Reachable.unswept (reached : Reachable env Op.keepsChecks db) :
    ∃ ledger, Represents env ledger db ∧ Unswept ledger := by
  obtain ⟨ops, allowed, rfl⟩ := reached
  exact ⟨_, represents_run env ops, unswept_run env allowed⟩

/-! ## Agreement -/

/-- The checks stored under a report's id. -/
def checksOf (env : Env) (db : Db) (reportId : String) : List CheckRow :=
  db.checkResult.filter (fun c => env.weight c.reportId = env.weight reportId)

/-- The worst verdict of a list of checks, `Skip` when there is none. -/
def worstVerdict (checks : List CheckRow) : Verdict :=
  if checks.any (fun c => c.verdict = .fail) then .fail
  else if checks.any (fun c => c.verdict = .warn) then .warn
  else if checks.any (fun c => c.verdict = .pass) then .pass
  else .skip

/-- The tile of a producer tells the page's numbers. -/
structure TileAgrees (env : Env) (now : Int) (db : Db) (tile : OverviewEntry) : Prop where
  fail : tile.fail = ((problems env now db).checks.filter (fun c =>
    decide (c.source = tile.source ∧ c.collector = tile.collector) && decide (c.verdict = .fail))).length
  warn : tile.warn = ((problems env now db).checks.filter (fun c =>
    decide (c.source = tile.source ∧ c.collector = tile.collector) && decide (c.verdict = .warn))).length
  muted : tile.muted = ((problems env now db).muted.filter (fun c =>
    decide (c.source = tile.source ∧ c.collector = tile.collector))).length
  total : tile.total = tile.pass + tile.warn + tile.fail + tile.skip + tile.muted
  worst : tile.worst =
    worstVerdict ((checksOf env db tile.reportId).filter (fun c => !covered now db c))

/-- Every failing check of the report meets at most one live mute, by its own name. -/
def MutedByName (env : Env) (now : Int) (db : Db) (checks : List CheckRow) : Prop :=
  ∀ c ∈ checks, c.verdict.isProblem = true →
    (db.mute.filter (mutedBy env now c)).length ≤ 1 ∧
      ∀ mu ∈ db.mute, mutedBy env now c mu = true →
        mu.source = c.source ∧ mu.collector = c.collector ∧ mu.label = c.label

/-- Where every failing check is covered, some passing check is not, if there is one. -/
def PassUncovered (now : Int) (db : Db) (checks : List CheckRow) : Prop :=
  (∀ c ∈ checks, c.verdict.isProblem = true → covered now db c = true) →
    (∃ c ∈ checks, c.verdict = .pass) → ∃ c ∈ checks, c.verdict = .pass ∧ covered now db c = false

/-! ## One report -/

/-- How many live mutes the join pairs a check with. -/
def muteWeight (env : Env) (now : Int) (db : Db) (c : CheckRow) : Nat :=
  (db.mute.filter (mutedBy env now c)).length

theorem mutedBy_iff {now : Int} {c : CheckRow} {mu : MuteRow} :
    mutedBy env now c mu = true ↔
      mu.identity env = c.identity env ∧ bindDatetime now < mu.expiresAt := by
  unfold mutedBy MuteRow.live
  simp only [Bool.and_eq_true, decide_eq_true_eq]

/-- A mute that names a check is one the join finds for it. -/
theorem one_le_muteWeight {now : Int} {c : CheckRow} (covers : covered now db c = true) :
    1 ≤ muteWeight env now db c := by
  obtain ⟨mu, stored, live, source, collector, label⟩ := covered_iff.mp covers
  refine List.length_pos_of_mem (a := mu) (List.mem_filter.mpr ⟨stored, mutedBy_iff.mpr ⟨?_, live⟩⟩)
  unfold MuteRow.identity CheckRow.identity
  rw [source, collector, label]

/-- The two ways of weighing a check agree exactly when it meets at most one live mute,
by its own name. -/
theorem muteWeight_eq_iff {now : Int} {c : CheckRow} :
    muteWeight env now db c = (if covered now db c = true then 1 else 0) ↔
      (db.mute.filter (mutedBy env now c)).length ≤ 1 ∧
        ∀ mu ∈ db.mute, mutedBy env now c mu = true →
          mu.source = c.source ∧ mu.collector = c.collector ∧ mu.label = c.label := by
  unfold muteWeight
  constructor
  · intro same
    have atMostOne : (db.mute.filter (mutedBy env now c)).length ≤ 1 := by
      rw [same]
      split <;> omega
    refine ⟨atMostOne, ?_⟩
    intro mu stored matched
    have found : mu ∈ db.mute.filter (mutedBy env now c) := List.mem_filter.mpr ⟨stored, matched⟩
    have some := List.length_pos_of_mem found
    cases covers : covered now db c with
    | false =>
      rw [same, covers] at some
      exact absurd some (by decide)
    | true =>
      -- the mute that names the check is the only one the join finds
      obtain ⟨named, stored', live, source, collector, label⟩ := covered_iff.mp covers
      have found' : named ∈ db.mute.filter (mutedBy env now c) := by
        refine List.mem_filter.mpr ⟨stored', mutedBy_iff.mpr ⟨?_, live⟩⟩
        unfold MuteRow.identity CheckRow.identity
        rw [source, collector, label]
      obtain ⟨only, rows⟩ := List.length_eq_one_iff.mp (Nat.le_antisymm atMostOne some)
      rw [rows, List.mem_singleton] at found found'
      rw [found, ← found']
      exact ⟨source, collector, label⟩
  · rintro ⟨atMostOne, byName⟩
    cases covers : covered now db c with
    | true => exact Nat.le_antisymm atMostOne (one_le_muteWeight covers)
    | false =>
      rw [if_neg Bool.false_ne_true, List.length_eq_zero_iff, List.filter_eq_nil_iff]
      intro mu stored matched
      obtain ⟨source, collector, label⟩ := byName mu stored matched
      have covers' := covered_iff.mpr
        ⟨mu, stored, (mutedBy_iff.mp matched).2, source, collector, label⟩
      exact absurd (covers.symm.trans covers') Bool.false_ne_true

/-- The aggregate of one report sums the weights of its checks with the verdict. -/
theorem mutedCount_eq (rep : Represents env ledger db) {l : LatestReportRow} {e : Entry}
    (inTable : l ∈ db.latestReport) (points : PointsTo env ledger l e) (now : Int) {v : Verdict}
    (problem : v.isProblem = true) :
    mutedCount env now db e.id v =
      ((e.checkRows.filter (fun c => c.verdict = v)).map (muteWeight env now db)).sum := by
  have join : mutedCount env now db e.id v = (((latestProblems env db).filter (fun c =>
      decide (env.weight c.reportId = env.weight e.id ∧ c.verdict = v))).map
        (muteWeight env now db)).sum :=
    length_filter_innerJoin (mutedBy env now) (fun c =>
      decide (env.weight c.reportId = env.weight e.id ∧ c.verdict = v)) (latestProblems env db)
      db.mute
  rw [join, filter_latestProblems rep inTable points, List.filter_filter]
  · congr 2
    apply List.filter_congr
    intro c own
    rw [checkRows_reportId own]
    by_cases same : c.verdict = v <;> simp [same, problem]
  · -- a problem stored under the entry's id is a check of its report
    intro c found matched
    obtain ⟨l', inTable', e', points', own, _⟩ := (mem_latestProblems rep).mp found
    rw [checkRows_reportId own] at matched
    obtain rfl : e' = e := rep.eq_of_key points'.member points.member (of_decide_eq_true matched).1
    exact checkRows_producer own

/-! ## The tile -/

theorem length_filter_checkRows (call : IngestCall) (v : Verdict) :
    ((checkRows call).filter (fun c => c.verdict = v)).length =
      countVerdict v call.upload.checks := by
  unfold checkRows checkRowsFrom countVerdict
  rw [List.filter_map, List.length_map]
  conv_rhs => rw [← List.zipIdx_map_fst 0 call.upload.checks, List.filter_map, List.length_map]
  rfl

/-- The checks of a report with one verdict, and those of them no mute covers. -/
def withVerdict (v : Verdict) (checks : List CheckRow) : List CheckRow :=
  checks.filter (fun c => c.verdict = v)

/-- What a tile shows, in terms of the checks of the report it is about. -/
structure TileOf (env : Env) (now : Int) (db : Db) (e : Entry) (tile : OverviewEntry) : Prop where
  source : tile.source = e.call.source
  collector : tile.collector = e.call.upload.collector
  reportId : tile.reportId = e.id
  fail : tile.fail = (withVerdict .fail e.checkRows).length -
    ((withVerdict .fail e.checkRows).map (muteWeight env now db)).sum
  warn : tile.warn = (withVerdict .warn e.checkRows).length -
    ((withVerdict .warn e.checkRows).map (muteWeight env now db)).sum
  muted : tile.muted = ((withVerdict .fail e.checkRows).map (muteWeight env now db)).sum +
    ((withVerdict .warn e.checkRows).map (muteWeight env now db)).sum
  pass : tile.pass = (withVerdict .pass e.checkRows).length
  total : tile.total = tile.pass + (withVerdict .warn e.checkRows).length +
    (withVerdict .fail e.checkRows).length + tile.skip
  worst : tile.worst = worstOf tile.fail tile.warn tile.pass

theorem tileOf_overviewEntry (rep : Represents env ledger db) (unswept : Unswept ledger)
    {l : LatestReportRow} {e : Entry} (inTable : l ∈ db.latestReport)
    (points : PointsTo env ledger l e) (now : Int) :
    TileOf env now db e (overviewEntry now (latestRow env now db e.reportRow)) := by
  have counts : ∀ v, (withVerdict v e.checkRows).length = countVerdict v e.call.upload.checks := by
    intro v
    unfold withVerdict Entry.checkRows
    rw [unswept e points.member]
    exact length_filter_checkRows e.call v
  have fails := mutedCount_eq rep inTable points now (v := .fail) rfl
  have warns := mutedCount_eq rep inTable points now (v := .warn) rfl
  have stored := tally_eq e.call.upload.checks
  have nFail : e.reportRow.nFail = (withVerdict .fail e.checkRows).length := by
    rw [counts]
    exact congrArg Counts.fail stored
  have nWarn : e.reportRow.nWarn = (withVerdict .warn e.checkRows).length := by
    rw [counts]
    exact congrArg Counts.warn stored
  have nPass : e.reportRow.nPass = (withVerdict .pass e.checkRows).length := by
    rw [counts]
    exact congrArg Counts.pass stored
  refine ⟨rfl, rfl, rfl, ?_, ?_, ?_, nPass, ?_, rfl⟩
  · exact congrArg₂ (· - ·) nFail fails
  · exact congrArg₂ (· - ·) nWarn warns
  · exact congrArg₂ (· + ·) fails warns
  · show e.reportRow.nPass + e.reportRow.nWarn + e.reportRow.nFail + e.reportRow.nSkip = _
    rw [nWarn, nFail]
    rfl

/-! ## The page -/

theorem length_filter_isProblem (checks : List CheckRow) (cond : CheckRow → Bool) :
    ((checks.filter (fun c => c.verdict.isProblem)).filter cond).length =
      ((withVerdict .fail checks).filter cond).length +
        ((withVerdict .warn checks).filter cond).length := by
  unfold withVerdict
  induction checks with
  | nil => rfl
  | cons c rest ih =>
    cases verdict : c.verdict <;> cases kept : cond c <;>
      simp [-List.filter_filter, verdict, kept, ih] <;> omega

theorem length_filter_not (checks : List CheckRow) (cond : CheckRow → Bool) :
    checks.length = (checks.filter cond).length + (checks.filter (fun c => !cond c)).length := by
  rw [← List.countP_eq_length_filter, ← List.countP_eq_length_filter,
    List.length_eq_countP_add_countP cond]
  simp

section Page

variable (rep : Represents env ledger db) {l : LatestReportRow} {e : Entry}
  (inTable : l ∈ db.latestReport) (points : PointsTo env ledger l e)

include rep inTable points

/-- The checks the page takes from one producer, by its name. -/
theorem filter_latestProblems_named (cond : CheckRow → Bool) :
    (latestProblems env db).filter (fun c => cond c && decide (c.source = e.call.source ∧
        c.collector = e.call.upload.collector)) =
      (e.checkRows.filter (fun c => c.verdict.isProblem)).filter cond := by
  rw [filter_latestProblems rep inTable points]
  · apply List.filter_congr
    intro c member
    obtain ⟨i, upload, _, rfl⟩ := mem_entry_checkRows (List.mem_filter.mp member).1
    simp [checkRow]
  · intro c _ matched
    rw [Bool.and_eq_true, decide_eq_true_iff] at matched
    unfold Entry.producer
    rw [matched.2.1, matched.2.2]

theorem page_checks (now : Int) (v : Verdict) (problem : v.isProblem = true) :
    ((problems env now db).checks.filter (fun c => decide (c.source = e.call.source ∧
        c.collector = e.call.upload.collector) && decide (c.verdict = v))).length =
      ((withVerdict v e.checkRows).filter (fun c => !covered now db c)).length := by
  rw [length_filter_checks rep now (fun c => decide (c.source = e.call.source ∧
    c.collector = e.call.upload.collector) && decide (c.verdict = v)) (fun _ => rfl)]
  have regroup : (fun c : CheckRow => !covered now db c && (decide (c.source = e.call.source ∧
      c.collector = e.call.upload.collector) && decide (c.verdict = v))) =
      (fun c => (!covered now db c && decide (c.verdict = v)) && decide (c.source = e.call.source ∧
        c.collector = e.call.upload.collector)) := by
    funext c
    rw [Bool.and_assoc, Bool.and_comm (decide (c.verdict = v))]
  rw [regroup, filter_latestProblems_named rep inTable points, withVerdict, List.filter_filter,
    List.filter_filter]
  congr 1
  apply List.filter_congr
  intro c _
  by_cases same : c.verdict = v <;> simp [same, problem]

theorem page_muted (now : Int) :
    ((problems env now db).muted.filter (fun c => decide (c.source = e.call.source ∧
        c.collector = e.call.upload.collector))).length =
      ((withVerdict .fail e.checkRows).filter (covered now db)).length +
        ((withVerdict .warn e.checkRows).filter (covered now db)).length := by
  rw [length_filter_muted rep now (fun c => decide (c.source = e.call.source ∧
    c.collector = e.call.upload.collector)) (fun _ _ => rfl),
    filter_latestProblems_named rep inTable points, length_filter_isProblem]

end Page

/-! ## The worst verdict -/

/-- Does an unmuted check have the verdict? -/
def Uncovered (now : Int) (db : Db) (checks : List CheckRow) (v : Verdict) : Prop :=
  ∃ c ∈ checks, c.verdict = v ∧ covered now db c = false

theorem any_uncovered_iff (now : Int) (db : Db) (checks : List CheckRow) (v : Verdict) :
    ((checks.filter (fun c => !covered now db c)).any (fun c => c.verdict = v)) = true ↔
      Uncovered now db checks v := by
  simp only [Uncovered, List.any_eq_true, List.mem_filter, Bool.not_eq_true', decide_eq_true_eq,
    and_assoc]
  exact exists_congr fun c => and_congr_right fun _ => and_comm

theorem length_uncovered_pos_iff (now : Int) (db : Db) (checks : List CheckRow) (v : Verdict) :
    0 < ((withVerdict v checks).filter (fun c => !covered now db c)).length ↔
      Uncovered now db checks v := by
  unfold withVerdict
  rw [← any_uncovered_iff, List.filter_filter, List.length_pos_iff_exists_mem, List.any_eq_true]
  simp only [List.mem_filter, Bool.and_eq_true, and_assoc]

theorem length_withVerdict_pos_iff (checks : List CheckRow) (v : Verdict) :
    0 < (withVerdict v checks).length ↔ ∃ c ∈ checks, c.verdict = v := by
  unfold withVerdict
  rw [List.length_pos_iff_exists_mem]
  simp only [List.mem_filter, decide_eq_true_eq]

/-- With no unmuted fault, every fault is muted. -/
theorem covered_of_not_uncovered {now : Int} {db : Db} {checks : List CheckRow}
    (fails : ¬ Uncovered now db checks .fail) (warns : ¬ Uncovered now db checks .warn) :
    ∀ c ∈ checks, c.verdict.isProblem = true → covered now db c = true := by
  intro c member problem
  by_contra bare
  rw [Bool.not_eq_true] at bare
  cases verdict : c.verdict with
  | fail => exact fails ⟨c, member, verdict, bare⟩
  | warn => exact warns ⟨c, member, verdict, bare⟩
  | pass => rw [verdict] at problem; cases problem
  | skip => rw [verdict] at problem; cases problem

/-- The tile's colour is the worst uncovered verdict exactly when a passing check it
falls back on is itself uncovered. -/
theorem worstOf_eq_iff (now : Int) (db : Db) (checks : List CheckRow) :
    worstOf ((withVerdict .fail checks).filter (fun c => !covered now db c)).length
        ((withVerdict .warn checks).filter (fun c => !covered now db c)).length
        (withVerdict .pass checks).length =
      worstVerdict (checks.filter (fun c => !covered now db c)) ↔ PassUncovered now db checks := by
  have shows := length_uncovered_pos_iff now db checks
  have uncovered := any_uncovered_iff now db checks
  -- an uncovered fault decides both sides and breaks the premise
  have decided : ∀ v : Verdict, v.isProblem = true → Uncovered now db checks v →
      PassUncovered now db checks := by
    rintro v problem ⟨c, member, rfl, bare⟩ allCovered _
    exact absurd (bare.symm.trans (allCovered c member problem)) Bool.false_ne_true
  unfold worstOf worstVerdict
  by_cases fails : Uncovered now db checks .fail
  · rw [if_pos ((shows .fail).mpr fails), if_pos ((uncovered .fail).mpr fails)]
    exact iff_of_true rfl (decided .fail rfl fails)
  rw [if_neg (mt (shows .fail).mp fails), if_neg (mt (uncovered .fail).mp fails)]
  by_cases warns : Uncovered now db checks .warn
  · rw [if_pos ((shows .warn).mpr warns), if_pos ((uncovered .warn).mpr warns)]
    exact iff_of_true rfl (decided .warn rfl warns)
  rw [if_neg (mt (shows .warn).mp warns), if_neg (mt (uncovered .warn).mp warns)]
  by_cases passes : ∃ c ∈ checks, c.verdict = .pass
  · rw [if_pos ((length_withVerdict_pos_iff checks .pass).mpr passes)]
    by_cases bare : Uncovered now db checks .pass
    · rw [if_pos ((uncovered .pass).mpr bare)]
      exact iff_of_true rfl (fun _ _ => bare)
    · rw [if_neg (mt (uncovered .pass).mp bare)]
      refine iff_of_false (by decide) ?_
      intro shown
      exact bare (shown (covered_of_not_uncovered fails warns) passes)
  · have bare : ¬ Uncovered now db checks .pass := by
      rintro ⟨c, member, verdict, _⟩
      exact passes ⟨c, member, verdict⟩
    rw [if_neg (mt (length_withVerdict_pos_iff checks .pass).mp passes),
      if_neg (mt (uncovered .pass).mp bare)]
    exact iff_of_true rfl (fun _ some => absurd some passes)

/-! ## Agreement -/

theorem checksOf_eq (rep : Represents env ledger db) {e : Entry} (member : e ∈ ledger) :
    checksOf env db e.id = e.checkRows :=
  rep.checks_of member

/-- The weights are right exactly when every failing check is muted by its own name. -/
theorem mutedByName_iff (now : Int) (checks : List CheckRow) :
    MutedByName env now db checks ↔
      ((withVerdict .fail checks).map (muteWeight env now db)).sum =
          ((withVerdict .fail checks).filter (covered now db)).length ∧
        ((withVerdict .warn checks).map (muteWeight env now db)).sum =
          ((withVerdict .warn checks).filter (covered now db)).length := by
  rw [sum_map_eq_length_filter_iff _ (fun _ _ => one_le_muteWeight),
    sum_map_eq_length_filter_iff _ (fun _ _ => one_le_muteWeight)]
  simp only [muteWeight_eq_iff, withVerdict, List.mem_filter, decide_eq_true_eq]
  constructor
  · intro named
    refine ⟨?_, ?_⟩
    · rintro c ⟨member, verdict⟩
      exact named c member (by rw [verdict]; rfl)
    · rintro c ⟨member, verdict⟩
      exact named c member (by rw [verdict]; rfl)
  · rintro ⟨fails, warns⟩ c member problem
    cases verdict : c.verdict with
    | fail => exact fails c ⟨member, verdict⟩
    | warn => exact warns c ⟨member, verdict⟩
    | pass => rw [verdict] at problem; cases problem
    | skip => rw [verdict] at problem; cases problem

/-- In every reachable state, at every instant, a tile tells the page's numbers exactly
when each failing check of its report meets at most one live mute, by its own name, and
a passing check the colour falls back on is uncovered. -/
theorem tile_agrees_iff (reached : Reachable env Op.keepsChecks db) (now : Int)
    {tile : OverviewEntry} (member : tile ∈ overview env now db) :
    TileAgrees env now db tile ↔
      MutedByName env now db (checksOf env db tile.reportId) ∧
        PassUncovered now db (checksOf env db tile.reportId) := by
  obtain ⟨ledger, rep, unswept⟩ := reached.unswept
  obtain ⟨l, inTable, e, points, rfl⟩ := (mem_overview rep).mp member
  have shows := tileOf_overviewEntry rep unswept inTable points now
  generalize overviewEntry now (latestRow env now db e.reportRow) = tile at shows ⊢
  have checks : checksOf env db tile.reportId = e.checkRows := by
    rw [shows.reportId]
    exact checksOf_eq rep points.member
  have pageFail := page_checks rep inTable points now .fail rfl
  have pageWarn := page_checks rep inTable points now .warn rfl
  have pageMuted := page_muted rep inTable points now
  rw [checks, mutedByName_iff, ← worstOf_eq_iff]
  -- the join counts at least the covered checks, and the two ways of splitting add up
  have atLeastFail : ((withVerdict .fail e.checkRows).filter (covered now db)).length ≤
      ((withVerdict .fail e.checkRows).map (muteWeight env now db)).sum :=
    length_filter_le_sum_map _ (fun _ _ => one_le_muteWeight)
  have atLeastWarn : ((withVerdict .warn e.checkRows).filter (covered now db)).length ≤
      ((withVerdict .warn e.checkRows).map (muteWeight env now db)).sum :=
    length_filter_le_sum_map _ (fun _ _ => one_le_muteWeight)
  have splitFail := length_filter_not (withVerdict .fail e.checkRows) (covered now db)
  have splitWarn := length_filter_not (withVerdict .warn e.checkRows) (covered now db)
  -- what the tile's live counts come to once the weights are right
  have live : ((withVerdict .fail e.checkRows).map (muteWeight env now db)).sum =
        ((withVerdict .fail e.checkRows).filter (covered now db)).length →
      ((withVerdict .warn e.checkRows).map (muteWeight env now db)).sum =
        ((withVerdict .warn e.checkRows).filter (covered now db)).length →
      tile.fail = ((withVerdict .fail e.checkRows).filter (fun c => !covered now db c)).length ∧
        tile.warn = ((withVerdict .warn e.checkRows).filter (fun c => !covered now db c)).length := by
    intro sumFail sumWarn
    rw [shows.fail, shows.warn]
    omega
  constructor
  · rintro ⟨_, _, muted, _, worst⟩
    rw [shows.source, shows.collector, pageMuted, shows.muted] at muted
    have sums : ((withVerdict .fail e.checkRows).map (muteWeight env now db)).sum =
          ((withVerdict .fail e.checkRows).filter (covered now db)).length ∧
        ((withVerdict .warn e.checkRows).map (muteWeight env now db)).sum =
          ((withVerdict .warn e.checkRows).filter (covered now db)).length := by
      omega
    obtain ⟨fail, warn⟩ := live sums.1 sums.2
    refine ⟨sums, ?_⟩
    rw [checks, shows.worst, fail, warn, shows.pass] at worst
    exact worst
  · rintro ⟨⟨sumFail, sumWarn⟩, worst⟩
    obtain ⟨fail, warn⟩ := live sumFail sumWarn
    refine ⟨?_, ?_, ?_, ?_, ?_⟩
    · rw [shows.source, shows.collector, pageFail, fail]
    · rw [shows.source, shows.collector, pageWarn, warn]
    · rw [shows.source, shows.collector, pageMuted, shows.muted, sumFail, sumWarn]
    · rw [shows.total, fail, warn, shows.muted]
      omega
    · rw [checks, shows.worst, fail, warn, shows.pass]
      exact worst

/-- A report with two failing checks and a passing one. -/
def sampleReport : IngestCall :=
  sampleCall "amun" "disk" "01ARZ3NDEKTSV4RRFFQ69G5FAV" 0
    [sampleCheck "root" "usage" .fail, sampleCheck "root" "inodes" .fail,
      sampleCheck "root" "mounted" .pass]

/-- A mute of the first of them. -/
def sampleMute (id : String) : MuteCall :=
  { new :=
      { source := "amun"
        collector := "disk"
        label := "usage"
        reason := "known"
        ttlHours := 24 }
    createdBy := "admin"
    mintedId := id
    now := 0 }

def mutedOnce : List Op :=
  [.ingest sampleReport, .createMute (sampleMute "01ARZ3NDEKTSV4RRFFQ69G5FB0")]

def mutedTwice : List Op :=
  [.ingest sampleReport, .createMute (sampleMute "01ARZ3NDEKTSV4RRFFQ69G5FB0"),
    .createMute (sampleMute "01ARZ3NDEKTSV4RRFFQ69G5FB1")]

/-- The sample producer's tile in a state. -/
def sampleTile (db : Db) : OverviewEntry :=
  overviewEntry second (latestRow asciiEnv second db (reportRow sampleReport))

theorem tile_agrees_mutedOnce :
    TileAgrees asciiEnv second (stateAfter asciiEnv mutedOnce)
      (sampleTile (stateAfter asciiEnv mutedOnce)) := by
  have reached : Reachable asciiEnv Op.keepsChecks (stateAfter asciiEnv mutedOnce) :=
    ⟨mutedOnce, by simp [mutedOnce, Op.keepsChecks], rfl⟩
  refine (tile_agrees_iff reached second (by decide)).mpr ⟨?_, ?_⟩
  · unfold MutedByName
    decide
  · unfold PassUncovered
    decide

/-- Two mutes of one check: the join counts the check twice, so the tile takes the other
failure for muted and shows none. -/
theorem tile_hides_failure :
    ¬ ∀ env db now, Reachable env Op.ingestOrMute db → ∀ tile ∈ overview env now db,
      TileAgrees env now db tile := by
  intro claimed
  have reached : Reachable asciiEnv Op.ingestOrMute (stateAfter asciiEnv mutedTwice) :=
    ⟨mutedTwice, by simp [mutedTwice, Op.ingestOrMute], rfl⟩
  have agrees := claimed asciiEnv _ second reached (sampleTile (stateAfter asciiEnv mutedTwice))
    (by decide)
  exact absurd agrees.fail (by decide)

end Fleetwatch
