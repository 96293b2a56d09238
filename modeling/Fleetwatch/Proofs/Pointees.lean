import Fleetwatch.Proofs.Tiles

/-!
# What the page is made of

The reports the pointers name. The overview and the rows of the problems query are
functions of them, whatever order the pointers stand in, as no two of their rows tie;
of the rest the page reads the overlays and, for the ages of its faults, the
failing-run table.
-/

namespace Fleetwatch

open Query Sql Table

variable {env : Env} {ledger ledger' : List Entry} {db db' : Db}

/-! ## The reports the pointers name -/

/-- The entries the pointers name, in the order of the pointers. -/
def pointees (env : Env) (ledger : List Entry) (db : Db) : List Entry :=
  db.latestReport.flatMap (fun l => rowsAt (Entry.key env) (env.weight l.reportId) ledger)

theorem rowsAt_pointee (rep : Represents env ledger db) {l : LatestReportRow} {e : Entry}
    (points : PointsTo env ledger l e) :
    rowsAt (Entry.key env) (env.weight l.reportId) ledger = [e] := by
  rw [points.reportId]
  exact Keyed.rowsAt_eq rep.ids points.member

theorem mem_pointees (rep : Represents env ledger db) {e : Entry} :
    e ∈ pointees env ledger db ↔ ∃ l ∈ db.latestReport, PointsTo env ledger l e := by
  unfold pointees
  rw [List.mem_flatMap]
  refine exists_congr fun l => and_congr_right fun inTable => ?_
  obtain ⟨e', points⟩ := rep.latest.sound l inTable
  rw [rowsAt_pointee rep points, List.mem_singleton]
  constructor
  · intro same
    rw [same]
    exact points
  · intro points'
    exact rep.pointee_eq points' points.member points.reportId

/-- One entry for each producer. -/
theorem map_producer_pointees (rep : Represents env ledger db) :
    (pointees env ledger db).map (Entry.producer env) =
      db.latestReport.map (LatestReportRow.key env) := by
  unfold pointees
  rw [List.map_flatMap, List.map_eq_flatMap]
  refine List.flatMap_congr fun l inTable => ?_
  obtain ⟨e, points⟩ := rep.latest.sound l inTable
  rw [rowsAt_pointee rep points, points.producer]
  rfl

theorem nodup_producer_pointees (rep : Represents env ledger db) :
    ((pointees env ledger db).map (Entry.producer env)).Nodup := by
  rw [map_producer_pointees rep]
  exact rep.latest.keyed

theorem latestReports_eq_pointees (rep : Represents env ledger db) :
    latestReports env db = (pointees env ledger db).map Entry.reportRow := by
  unfold latestReports innerJoin pointees
  rw [List.map_flatMap, List.map_flatMap, rep.report]
  refine List.flatMap_congr fun l _ => ?_
  rw [List.map_map, List.filter_map, List.map_map]
  rfl

theorem latestProblems_eq_pointees (rep : Represents env ledger db) :
    latestProblems env db =
      (pointees env ledger db).flatMap
        (fun e => e.checkRows.filter (fun c => c.verdict.isProblem)) := by
  unfold pointees
  rw [latestProblems_eq, List.flatMap_assoc]
  refine List.flatMap_congr fun l inTable => ?_
  obtain ⟨e, points⟩ := rep.latest.sound l inTable
  rw [rowsAt_pointee rep points, filter_pointsAt rep points]
  simp

/-! ## The views of them -/

/-- Nothing is counted as muted where there is no mute. -/
theorem latestRow_of_no_mute (none : db.mute = []) (none' : db'.mute = []) (now : Int)
    (r : ReportRow) : latestRow env now db r = latestRow env now db' r := by
  unfold latestRow mutedCount mutedPairs
  rw [none, none', innerJoin_nil_right, innerJoin_nil_right]

/-- The overview is a function of the reports the pointers name. -/
theorem overview_eq_of_pointees (rep : Represents env ledger db) (rep' : Represents env ledger' db')
    (shown : (pointees env ledger db).Perm (pointees env ledger' db')) (none : db.mute = [])
    (none' : db'.mute = []) (now : Int) : overview env now db = overview env now db' := by
  have rows : ((latestReports env db).map (latestRow env now db)).Perm
      ((latestReports env db').map (latestRow env now db')) := by
    have same : latestRow env now db' = latestRow env now db :=
      funext fun r => latestRow_of_no_mute none' none now r
    rw [same, latestReports_eq_pointees rep, latestReports_eq_pointees rep']
    exact (shown.map _).map _
  refine congrArg (List.map (overviewEntry now)) (orderBy_eq_of_perm rows ?_)
  have producers := nodup_producer_pointees rep
  rw [latestReports_eq_pointees rep, List.map_map, List.map_map]
  have keys := producers.map (f := (toLex : ProducerKey → List Nat ×ₗ List Nat)) toLex.injective
  rw [List.map_map] at keys
  exact keys

theorem checkOrder_inj {c c' : CheckRow} (tie : checkOrder env c = checkOrder env c') :
    producerKey env c.source c.collector = producerKey env c'.source c'.collector ∧
      c.seq = c'.seq := by
  unfold checkOrder problemOrder at tie
  simp only [EmbeddingLike.apply_eq_iff_eq, Prod.mk.injEq] at tie
  obtain ⟨_, source, collector, _, seq⟩ := tie
  exact ⟨Prod.ext source collector, seq⟩

/-- No two rows of the problems query tie: two producers have two names, and one report
numbers its checks. -/
theorem nodup_checkOrder (rep : Represents env ledger db) :
    ((latestProblems env db).map (checkOrder env)).Nodup := by
  rw [latestProblems_eq_pointees rep, List.map_flatMap, List.nodup_flatMap]
  refine ⟨?_, ?_⟩
  · intro e _
    refine List.pairwise_map.mpr (((pairwise_seq_checkRows e).filter _).imp ?_)
    intro c c' earlier tie
    exact absurd (checkOrder_inj tie).2 (ne_of_lt earlier)
  · refine (List.pairwise_map.mp (nodup_producer_pointees rep)).imp ?_
    intro e e' different k inFirst inSecond
    obtain ⟨c, member, rfl⟩ := List.mem_map.mp inFirst
    obtain ⟨c', member', tie⟩ := List.mem_map.mp inSecond
    have producer : producerKey env c.source c.collector = e.producer env :=
      checkRows_producer (List.mem_filter.mp member).1
    have producer' : producerKey env c'.source c'.collector = e'.producer env :=
      checkRows_producer (List.mem_filter.mp member').1
    exact different (producer.symm.trans ((checkOrder_inj tie).1.symm.trans producer'))

/-- So are the rows of the problems query, but for the starts of their runs. -/
theorem map_check_eq_of_pointees (rep : Represents env ledger db)
    (rep' : Represents env ledger' db')
    (shown : (pointees env ledger db).Perm (pointees env ledger' db')) :
    (problemRows env db).map ProblemRow.check = (problemRows env db').map ProblemRow.check := by
  rw [map_check_problemRows rep, map_check_problemRows rep']
  refine orderBy_eq_of_perm ?_ (nodup_checkOrder rep)
  rw [latestProblems_eq_pointees rep, latestProblems_eq_pointees rep']
  exact shown.flatMap_right _

/-- A row of the page without the age of its fault. -/
def ProblemCheck.ageless (p : ProblemCheck) : ProblemCheck :=
  { p with firstSeen := none, confirmed := true }

/-- The page without the ages of the faults on it. -/
def Problems.ageless (p : Problems) : Problems :=
  { p with checks := p.checks.map ProblemCheck.ageless }

/-- Without mutes the page lists every row. -/
theorem problems_of_no_overlay (none : db.mute = []) (unretired : db.retirement = []) (now : Int) :
    problems env now db =
      { checks := (problemRows env db).map problemCheck
        muted := []
        stale := (overview env now db).filter (isStale [])
        lapsing := []
        returned := (overview env now db).filter (hasReturned []) } := by
  have uncovered : ∀ r : ProblemRow, r.mute now db = Option.none := by
    intro r
    rw [← Option.not_isSome_iff_eq_none, mute_isSome]
    simp [covered, none]
  have mutes : listMutes now db = [] := by simp [listMutes, none]
  have retirements : listRetirements db = [] := by simp [listRetirements, unretired]
  unfold problems
  simp [uncovered, mutes, retirements]

end Fleetwatch
