import Fleetwatch.Frontend.Views
import Fleetwatch.Proofs.Retired

/-!
# Green is verified green

The problems page says that all is clear when none of its lists has a row. That is so exactly
when the latest report of every producer has no failing check, muted or not, every producer is
on time or was retired and has been silent since, and no mute is about to lapse; and then no
tile of the overview asks for attention but those of retired producers.
-/

namespace Fleetwatch

open Frontend Query Sql Table

/-! ## What is clear -/

/-- A retirement under the tile's very names. -/
def RetirementOf (db : Db) (tile : OverviewEntry) (row : RetirementRow) : Prop :=
  row ∈ db.retirement ∧ row.source = tile.source ∧ row.collector = tile.collector

/-- The producer was retired, and nothing it sent is later than that. -/
def Quiet (db : Db) (tile : OverviewEntry) : Prop :=
  ∃ row, RetirementOf db tile row ∧ tile.collectedAt ≤ row.retiredAt

/-- The producer is not retired, and on time. -/
def OnTime (db : Db) (tile : OverviewEntry) : Prop :=
  (∀ row, ¬ RetirementOf db tile row) ∧ tile.freshness = .fresh

/-- There is nothing the page would have to say. -/
structure AllClear (env : Env) (now : Int) (db : Db) : Prop where
  faultless : ∀ l ∈ db.latestReport, ∀ c ∈ checksOf env db l.reportId, c.verdict.isProblem = false
  accounted : ∀ tile ∈ overview env now db, Quiet db tile ∨ OnTime db tile
  settled : ∀ m ∈ listMutes now db, isLapsing m now = false

section

variable {env : Env} {ledger : List Entry} {db : Db}

/-- Two retirements under one name are one. -/
theorem RetirementOf.unique (rep : Represents env ledger db) {tile : OverviewEntry}
    {row row' : RetirementRow} (retired : RetirementOf db tile row) (retired' : RetirementOf db tile row') :
    row = row' := by
  refine rep.retirement.eq_of_key_eq retired.1 retired'.1 ?_
  unfold RetirementRow.key
  rw [retired.2.1, retired.2.2, retired'.2.1, retired'.2.2]

/-- A tile is in neither list of collectors exactly when its producer is accounted for. -/
theorem accounted_iff (rep : Represents env ledger db) (tile : OverviewEntry) :
    isStale (listRetirements db) tile = false ∧ hasReturned (listRetirements db) tile = false ↔
      Quiet db tile ∨ OnTime db tile := by
  unfold isStale hasReturned
  cases found : retired (listRetirements db) tile.source tile.collector with
  | none =>
    have absent : ∀ row, ¬ RetirementOf db tile row :=
      fun row held => retired_eq_none_iff.mp found row held.1 held.2
    constructor
    · rintro ⟨fresh, -⟩
      exact Or.inr ⟨absent, by simpa using fresh⟩
    · rintro (⟨row, held, -⟩ | ⟨-, fresh⟩)
      · exact absurd held (absent row)
      · exact ⟨by simp [fresh], rfl⟩
  | some r =>
    obtain ⟨row, stored, rfl, source, collector⟩ := retired_eq_some found
    have held : RetirementOf db tile row := ⟨stored, source, collector⟩
    constructor
    · rintro ⟨-, silent⟩
      exact Or.inl ⟨row, held, not_lt.mp (of_decide_eq_false silent)⟩
    · rintro (⟨row', held', silent⟩ | ⟨none, -⟩)
      · obtain rfl := held.unique rep held'
        exact ⟨rfl, decide_eq_false (not_lt.mpr silent)⟩
      · exact absurd held (none row)

/-- There is no row, muted or not, exactly when no latest report has a failing check. -/
theorem faultless_iff (rep : Represents env ledger db) (now : Int) :
    ((problems env now db).checks = [] ∧ (problems env now db).muted = []) ↔
      ∀ l ∈ db.latestReport, ∀ c ∈ checksOf env db l.reportId, c.verdict.isProblem = false := by
  constructor
  · rintro ⟨opened, hidden⟩ l inTable c own
    by_contra fault
    rw [Bool.not_eq_false] at fault
    obtain ⟨e, points⟩ := rep.latest.sound l inTable
    rw [points.reportId, checksOf_eq rep points.member] at own
    obtain ⟨r, row, rfl⟩ :=
      exists_problemRow rep ((mem_latestProblems rep).mpr ⟨l, inTable, e, points, own, fault⟩)
    -- the row is in one list or the other, as a mute covers it or not
    cases mute : r.mute now db with
    | none =>
      have bare : covered now db r.check = false := by
        rw [← mute_isSome, mute]
        rfl
      have shown : problemCheck r ∈ (problems env now db).checks :=
        mem_checks.mpr ⟨r, row, bare, rfl⟩
      rw [opened] at shown
      cases shown
    | some m =>
      have shown : mutedCheck r m ∈ (problems env now db).muted :=
        List.mem_filterMap.mpr ⟨r, row, by rw [mute]; rfl⟩
      rw [hidden] at shown
      cases shown
  · intro faultless
    have none : problemRows env db = [] := by
      refine List.eq_nil_iff_forall_not_mem.mpr fun r row => ?_
      obtain ⟨inLatest, -⟩ := (mem_problemRows rep).mp row
      obtain ⟨l, inTable, e, points, own, fault⟩ := (mem_latestProblems rep).mp inLatest
      rw [← checksOf_eq rep points.member, ← points.reportId] at own
      exact Bool.false_ne_true ((faultless l inTable r.check own).symm.trans fault)
    unfold problems
    rw [none]
    exact ⟨rfl, rfl⟩

/-- The page says that all is clear exactly when it is. -/
theorem nothingWrong_iff (rep : Represents env ledger db) (now : Int) :
    nothingWrong false (problems env now db) = true ↔ AllClear env now db := by
  have accounted : ((problems env now db).stale = [] ∧ (problems env now db).returned = []) ↔
      ∀ tile ∈ overview env now db, Quiet db tile ∨ OnTime db tile := by
    show ((overview env now db).filter _ = [] ∧ (overview env now db).filter _ = []) ↔ _
    simp only [List.filter_eq_nil_iff, Bool.not_eq_true, ← forall_and, ← accounted_iff rep]
  have settled : (problems env now db).lapsing = [] ↔
      ∀ m ∈ listMutes now db, isLapsing m now = false := by
    show (listMutes now db).filter _ = [] ↔ _
    simp only [List.filter_eq_nil_iff, Bool.not_eq_true]
  unfold nothingWrong
  simp only [Bool.not_false, Bool.true_and, Bool.and_eq_true, List.isEmpty_iff]
  constructor
  · rintro ⟨⟨⟨⟨checks, muted⟩, stale⟩, lapsing⟩, returned⟩
    exact ⟨(faultless_iff rep now).mp ⟨checks, muted⟩, accounted.mp ⟨stale, returned⟩,
      settled.mp lapsing⟩
  · rintro ⟨clear, heard, calm⟩
    obtain ⟨checks, muted⟩ := (faultless_iff rep now).mpr clear
    obtain ⟨stale, returned⟩ := accounted.mpr heard
    exact ⟨⟨⟨⟨checks, muted⟩, stale⟩, settled.mpr calm⟩, returned⟩

/-! ## What the overview shows then -/

/-- A report whose stored checks are all its checks, none of them failing, counts no fault. -/
theorem no_faults_of_whole {e : Entry} (whole : e.checkRows.length = e.reportRow.nPass +
      e.reportRow.nWarn + e.reportRow.nFail + e.reportRow.nSkip)
    (faultless : ∀ c ∈ e.checkRows, c.verdict.isProblem = false) :
    e.reportRow.nFail = 0 ∧ e.reportRow.nWarn = 0 := by
  cases swept : e.checksSwept with
  | true =>
    have none : e.checkRows = [] := by
      unfold Entry.checkRows
      rw [swept]
      rfl
    rw [none, List.length_nil] at whole
    omega
  | false =>
    have own : e.checkRows = checkRows e.call := by
      unfold Entry.checkRows
      rw [swept]
      rfl
    have counted : ∀ v : Verdict, v.isProblem = true → countVerdict v e.call.upload.checks = 0 := by
      intro v problem
      rw [← length_filter_checkRows, ← own, List.length_eq_zero_iff, List.filter_eq_nil_iff]
      intro c member same
      have clear := faultless c member
      rw [of_decide_eq_true same, problem] at clear
      cases clear
    have tallied := tally_eq e.call.upload.checks
    have fails : e.reportRow.nFail = countVerdict .fail e.call.upload.checks :=
      congrArg Counts.fail tallied
    have warns : e.reportRow.nWarn = countVerdict .warn e.call.upload.checks :=
      congrArg Counts.warn tallied
    exact ⟨fails.trans (counted .fail rfl), warns.trans (counted .warn rfl)⟩

/-- The tile asks for nothing, and its colour is that of passing or skipped checks. -/
def Green (tile : OverviewEntry) : Prop :=
  needsAttention tile = false ∧
    (tileClass tile.worst tile.freshness = .pass ∨ tileClass tile.worst tile.freshness = .skip)

theorem green_of_clear (rep : Represents env ledger db) {now : Int} (clear : AllClear env now db)
    {tile : OverviewEntry} (member : tile ∈ overview env now db)
    (held : (checksOf env db tile.reportId).length = tile.total) :
    Green tile ∨ Quiet db tile := by
  rcases clear.accounted tile member with quiet | ⟨-, fresh⟩
  · exact Or.inr quiet
  · refine Or.inl ?_
    obtain ⟨l, inTable, e, points, rfl⟩ := (mem_overview rep).mp member
    have own : checksOf env db e.id = e.checkRows := checksOf_eq rep points.member
    have faultless : ∀ c ∈ e.checkRows, c.verdict.isProblem = false := by
      rw [← own, ← points.reportId]
      exact clear.faultless l inTable
    have whole : e.checkRows.length = e.reportRow.nPass + e.reportRow.nWarn + e.reportRow.nFail +
        e.reportRow.nSkip := own ▸ held
    obtain ⟨noFail, noWarn⟩ := no_faults_of_whole whole faultless
    generalize tileIs : overviewEntry now (latestRow env now db e.reportRow) = tile at fresh
    have fail : tile.fail = 0 := by
      rw [← tileIs]
      show e.reportRow.nFail - _ = 0
      rw [noFail, Nat.zero_sub]
    have warn : tile.warn = 0 := by
      rw [← tileIs]
      show e.reportRow.nWarn - _ = 0
      rw [noWarn, Nat.zero_sub]
    have worst : tile.worst = worstOf tile.fail tile.warn tile.pass := by
      rw [← tileIs]
      rfl
    rw [fail, warn] at worst
    have coloured : tileClass tile.worst tile.freshness = worstOf 0 0 tile.pass := by
      rw [worst, fresh]
      rfl
    refine ⟨by simp [needsAttention, fresh, fail, warn], ?_⟩
    rw [coloured]
    unfold worstOf
    rw [if_neg (lt_irrefl 0), if_neg (lt_irrefl 0)]
    split
    · exact Or.inl rfl
    · exact Or.inr rfl

/-- In every reachable state, at every instant, the problems page shows its green tick exactly
when all is clear; and then every tile whose report still has its checks is green, or is that of
a retired producer that has been silent since. -/
theorem all_clear {permitted : Op → Prop} (reached : Reachable env permitted db) (now : Int) :
    (nothingWrong false (problems env now db) = true ↔ AllClear env now db) ∧
      (nothingWrong false (problems env now db) = true →
        ∀ tile ∈ overview env now db, (checksOf env db tile.reportId).length = tile.total →
          Green tile ∨ Quiet db tile) := by
  obtain ⟨ledger, rep⟩ := reached.represents
  refine ⟨nothingWrong_iff rep now, ?_⟩
  intro nothing tile member held
  exact green_of_clear rep ((nothingWrong_iff rep now).mp nothing) member held

end

/-- A passing report retired a day later, ten days on. -/
theorem all_clear_retired :
    AllClear asciiEnv (10 * 86400 * second) (stateAfter asciiEnv retiredPassing) ∧
      nothingWrong false (problems asciiEnv (10 * 86400 * second)
        (stateAfter asciiEnv retiredPassing)) = true ∧
      (overview asciiEnv (10 * 86400 * second) (stateAfter asciiEnv retiredPassing)).map
        OverviewEntry.freshness = [.silent] := by
  have reached : Reachable asciiEnv (fun _ => True) (stateAfter asciiEnv retiredPassing) :=
    ⟨retiredPassing, fun _ _ => trivial, rfl⟩
  have nothing : nothingWrong false (problems asciiEnv (10 * 86400 * second)
      (stateAfter asciiEnv retiredPassing)) = true := by
    decide +kernel
  exact ⟨(all_clear reached (10 * 86400 * second)).1.mp nothing, nothing, by decide +kernel⟩

end Fleetwatch
