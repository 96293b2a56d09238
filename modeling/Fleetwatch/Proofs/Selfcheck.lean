import Fleetwatch.Proofs.Acknowledged
import Fleetwatch.Proofs.Pointees
import Fleetwatch.Selfcheck

/-!
# What the self-report says of the producers

A lag row names its producer by source, separator and collector in one label. The label
is four bytes longer than the two names, which may hold the separator themselves; so a
self-report is stored, and names each producer once, exactly when the names leave room
for it and no two of them run together.
-/

namespace Fleetwatch.Selfcheck

open Query Sql Table Text

variable {env : Env} {ledger : List Entry} {db : Db}

/-- Is the report another producer's than the service's? -/
def isForeign (env : Env) (r : ReportRow) : Bool :=
  r.producer env ≠ producerKey env SOURCE COLLECTOR

/-- The newest reports of all producers but the service itself. -/
def reported (env : Env) (db : Db) : List ReportRow := (latestReports env db).filter (isForeign env)

def isLag (c : CheckUpload) : Bool := c.sect = "ingest lag"

/-- The labels of the lag rows. -/
def lagLabels (upload : ReportUpload) : List String :=
  (upload.checks.filter isLag).map (·.label)

/-- The upload passes every check of ingest, and its lag rows are the producers of the board
but the service itself, one to one by label. -/
structure CoversOnce (env : Env) (db : Db) (upload : ReportUpload) : Prop where
  storable : validate env upload = .ok ()
  covers : (lagLabels upload).Perm
    ((reported env db).map (fun r => lagLabel r.source r.collector))
  once : (lagLabels upload).Nodup

/-- Joined by the separator, the first name and the second read as other names do. -/
def RunInto (source collector source' collector' : String) : Prop :=
  (∃ between, source' = source ++ " · " ++ between ∧ collector = between ++ " · " ++ collector') ∨
    (source' = source ++ " ·" ∧ collector = "· " ++ collector')

/-- The names the board's producers have can be told apart in a label. -/
structure Nameable (env : Env) (db : Db) : Prop where
  own : ∀ r ∈ latestReports env db, r.producer env = producerKey env SOURCE COLLECTOR →
    r.source = SOURCE ∧ r.collector = COLLECTOR
  short : ∀ r ∈ reported env db, r.source.utf8ByteSize + r.collector.utf8ByteSize ≤ 251
  apart : ∀ r ∈ reported env db, ∀ r' ∈ reported env db,
    ¬ RunInto r.source r.collector r'.source r'.collector

/-! ## Labels -/

theorem toList_lagLabel (source collector : String) :
    (lagLabel source collector).toList =
      source.toList ++ ([' ', '·', ' '] ++ collector.toList) := by
  show (source ++ " · " ++ collector).toList = _
  rw [String.toList_append, String.toList_append, List.append_assoc]
  rfl

theorem utf8ByteSize_lagLabel (source collector : String) :
    (lagLabel source collector).utf8ByteSize =
      source.utf8ByteSize + collector.utf8ByteSize + 4 := by
  show (source ++ " · " ++ collector).utf8ByteSize = _
  rw [String.utf8ByteSize_append, String.utf8ByteSize_append,
    show (" · ").utf8ByteSize = 4 from by decide]
  omega

theorem trim_lagLabel (source collector : String) : trim (lagLabel source collector) ≠ "" := by
  have member : '·' ∈ (lagLabel source collector).toList := by
    rw [toList_lagLabel]
    simp
  exact trim_ne_empty member (by decide)

theorem lagLabel_of_runInto {source collector source' collector' : String}
    (run : RunInto source collector source' collector') :
    lagLabel source collector = lagLabel source' collector' := by
  apply String.toList_inj.mp
  rw [toList_lagLabel, toList_lagLabel]
  rcases run with ⟨between, rfl, rfl⟩ | ⟨rfl, rfl⟩
  · simp [String.toList_append]
  · simp [String.toList_append]

/-- A name that goes on after the other's end takes the separator in, whole or in part. -/
theorem runInto_of_longer {source collector source' collector' : String} {more : List Char}
    (longer : source'.toList = source.toList ++ more)
    (rest : [' ', '·', ' '] ++ collector.toList = more ++ ([' ', '·', ' '] ++ collector'.toList)) :
    (source = source' ∧ collector = collector') ∨ RunInto source collector source' collector' := by
  match more with
  | [] =>
    left
    rw [List.append_nil] at longer
    rw [List.nil_append, List.append_cancel_left_eq] at rest
    exact ⟨String.toList_inj.mp longer.symm, String.toList_inj.mp rest⟩
  | [c] =>
    -- the second character of the separator would be its first
    simp at rest
  | [c, d] =>
    right; right
    simp only [List.cons_append, List.nil_append, List.cons.injEq] at rest
    obtain ⟨rfl, rfl, -, same⟩ := rest
    refine ⟨String.toList_inj.mp ?_, String.toList_inj.mp ?_⟩
    · rw [longer, String.toList_append]
      rfl
    · rw [same, String.toList_append]
      rfl
  | c :: d :: e :: between =>
    right; left
    simp only [List.cons_append, List.nil_append, List.cons.injEq] at rest
    obtain ⟨rfl, rfl, rfl, same⟩ := rest
    refine ⟨String.ofList between, String.toList_inj.mp ?_, String.toList_inj.mp ?_⟩
    · rw [longer]
      simp [String.toList_append]
    · rw [same]
      simp [String.toList_append]

theorem runInto_of_lagLabel_eq {source collector source' collector' : String}
    (same : lagLabel source collector = lagLabel source' collector') :
    (source = source' ∧ collector = collector') ∨
      RunInto source collector source' collector' ∨
      RunInto source' collector' source collector := by
  have texts := congrArg String.toList same
  rw [toList_lagLabel, toList_lagLabel] at texts
  rcases List.append_eq_append_iff.mp texts with ⟨more, longer, rest⟩ | ⟨more, longer, rest⟩
  · exact (runInto_of_longer longer rest).imp_right .inl
  · rcases runInto_of_longer longer rest with ⟨rfl, rfl⟩ | run
    · exact .inl ⟨rfl, rfl⟩
    · exact .inr (.inr run)

theorem not_runInto_self (source collector : String) :
    ¬ RunInto source collector source collector := by
  rintro (⟨between, longer, -⟩ | ⟨longer, -⟩)
  · have sizes := congrArg String.utf8ByteSize longer
    rw [String.utf8ByteSize_append, String.utf8ByteSize_append,
      show (" · ").utf8ByteSize = 4 from by decide] at sizes
    omega
  · have sizes := congrArg String.utf8ByteSize longer
    rw [String.utf8ByteSize_append, show (" ·").utf8ByteSize = 3 from by decide] at sizes
    omega

/-! ## The rows -/

/-- Section and label of the checks that are not about a producer. -/
def ownNames : List (String × String) :=
  [("pool", "connections in use"), ("labels", "labels hold still"), ("retention", "last sweep"),
    ("boot", "migrations"), ("boot", "latest_report reconcile")]

theorem ownNames_plain : ∀ n ∈ ownNames, n.1 ≠ "ingest lag" ∧ trim n.2 ≠ "" ∧
    n.1.utf8ByteSize ≤ MAX_IDENTITY_BYTES ∧ n.2.utf8ByteSize ≤ MAX_IDENTITY_BYTES := by
  decide

/-- The checks of an upload that are not lag rows. -/
def ownChecks (env : Env) (s : Surroundings) (db : Db) : List CheckUpload :=
  [churnCheck (churns env s.serverNow db), retentionCheck s.sweep s.now] ++ bootChecks s.boot

theorem checks_build (env : Env) (s : Surroundings) (db : Db) :
    (build env s db).checks =
      poolCheck s.size s.numIdle :: (lagChecks (lags env db) ++ ownChecks env s db) := by
  simp [build, ownChecks]

theorem names_ownChecks {s : Surroundings} {c : CheckUpload}
    (member : c ∈ poolCheck s.size s.numIdle :: ownChecks env s db) :
    (c.sect, c.label) ∈ ownNames := by
  have swept : ((retentionCheck s.sweep s.now).sect, (retentionCheck s.sweep s.now).label) =
      ("retention", "last sweep") := by
    unfold retentionCheck
    cases s.sweep <;> rfl
  simp only [ownChecks, bootChecks, List.cons_append, List.nil_append, List.mem_cons,
    List.not_mem_nil, or_false] at member
  rcases member with rfl | rfl | rfl | rfl | rfl
  · exact List.mem_cons_self
  · exact List.mem_cons_of_mem _ List.mem_cons_self
  · rw [swept]
    decide
  · exact List.mem_of_getElem? (i := 3) rfl
  · exact List.mem_of_getElem? (i := 4) rfl

theorem lagLabels_build (env : Env) (s : Surroundings) (db : Db) :
    lagLabels (build env s db) =
      ((lags env db).filter (fun row => !row.own)).map
        (fun row => lagLabel row.source row.collector) := by
  have others : ∀ c ∈ poolCheck s.size s.numIdle :: ownChecks env s db, ¬ isLag c = true := by
    intro c member lag
    exact (ownNames_plain _ (names_ownChecks member)).1 (of_decide_eq_true lag)
  have lagging : ∀ c ∈ lagChecks (lags env db), isLag c = true := by
    intro c member
    obtain ⟨row, -, rfl⟩ := List.mem_map.mp member
    rfl
  have after : (ownChecks env s db).filter isLag = [] :=
    List.filter_eq_nil_iff.mpr (fun c member => others c (List.mem_cons_of_mem _ member))
  unfold lagLabels
  rw [checks_build, List.filter_cons_of_neg (others _ List.mem_cons_self), List.filter_append,
    List.filter_eq_self.mpr lagging, after, List.append_nil]
  unfold lagChecks
  rw [List.map_map]
  rfl

/-- The newest reports of the producers the service does not take for itself. -/
def named (env : Env) (db : Db) : List ReportRow :=
  (latestReports env db).filter (fun r => !decide (r.source = SOURCE ∧ r.collector = COLLECTOR))

theorem lagLabels_perm (env : Env) (s : Surroundings) (db : Db) :
    (lagLabels (build env s db)).Perm
      ((named env db).map (fun r => lagLabel r.source r.collector)) := by
  rw [lagLabels_build]
  unfold lags
  rw [List.filter_map, List.map_map]
  exact ((orderBy_perm (latestReports env db)).filter _).map _

/-- Validation asks of the upload that its lag labels are short enough. -/
theorem validate_build_iff {s : Surroundings} (ulid : env.ulidFromString s.id = true) :
    validate env (build env s db) = .ok () ↔
      ∀ r ∈ named env db, r.source.utf8ByteSize + r.collector.utf8ByteSize ≤ 251 := by
  have labels := fun label => (lagLabels_perm env s db).mem_iff (a := label)
  rw [validate_eq_ok]
  constructor
  · intro admitted r member
    have label := (labels _).mpr (List.mem_map.mpr ⟨r, member, rfl⟩)
    obtain ⟨c, found, same⟩ := List.mem_map.mp label
    have bytes := (admitted.checks c (List.mem_of_mem_filter found)).label_bytes
    rw [same, utf8ByteSize_lagLabel] at bytes
    unfold MAX_IDENTITY_BYTES at bytes
    omega
  · intro short
    have visible : trim COLLECTOR ≠ "" := by decide
    refine ⟨rfl, ulid, visible, ?_⟩
    intro c member
    by_cases lag : c.sect = "ingest lag"
    · obtain ⟨r, known, same⟩ := List.mem_map.mp ((labels c.label).mp
        (List.mem_map.mpr ⟨c, List.mem_filter.mpr ⟨member, decide_eq_true lag⟩, rfl⟩))
      have bytes := short r known
      refine ⟨?_, ?_, ?_⟩
      · rw [← same]
        exact trim_lagLabel _ _
      · rw [lag]
        decide
      · rw [← same, utf8ByteSize_lagLabel]
        unfold MAX_IDENTITY_BYTES
        omega
    · have own : c ∈ poolCheck s.size s.numIdle :: ownChecks env s db := by
        rw [checks_build] at member
        rcases List.mem_cons.mp member with rfl | later
        · exact List.mem_cons_self
        · rcases List.mem_append.mp later with row | other
          · obtain ⟨_, -, rfl⟩ := List.mem_map.mp row
            exact absurd rfl lag
          · exact List.mem_cons_of_mem _ other
      obtain ⟨-, visible, sect, label⟩ := ownNames_plain _ (names_ownChecks own)
      exact ⟨visible, sect, label⟩

/-! ## One row for each producer -/

/-- The service takes for itself no producer but its own. -/
theorem reported_eq_filter_named :
    reported env db = (named env db).filter (isForeign env) := by
  unfold reported named isForeign
  rw [List.filter_filter]
  refine List.filter_congr fun r _ => ?_
  by_cases own : r.source = SOURCE ∧ r.collector = COLLECTOR
  · have same : r.producer env = producerKey env SOURCE COLLECTOR := by
      unfold ReportRow.producer
      rw [own.1, own.2]
    simp [same]
  · simp [own]

/-- One report for each producer. -/
theorem nodup_producer_latestReports (rep : Represents env ledger db) :
    ((latestReports env db).map (ReportRow.producer env)).Nodup := by
  rw [latestReports_eq_pointees rep, List.map_map]
  exact nodup_producer_pointees rep

theorem reported_sublist : (reported env db).Sublist (latestReports env db) := List.filter_sublist

theorem CoversOnce.nameable {s : Surroundings} (ulid : env.ulidFromString s.id = true)
    (covers : CoversOnce env db (build env s db)) : Nameable env db := by
  have perm := (lagLabels_perm env s db).symm.trans covers.covers
  have lengths := perm.length_eq
  rw [List.length_map, List.length_map, reported_eq_filter_named] at lengths
  have all := List.length_filter_eq_length_iff.mp lengths.symm
  have same : named env db = reported env db := by
    rw [reported_eq_filter_named, List.filter_eq_self.mpr all]
  refine ⟨?_, ?_, ?_⟩
  · intro r latest own
    by_contra other
    have mine := all r (List.mem_filter.mpr ⟨latest, by rw [decide_eq_false other]; rfl⟩)
    exact of_decide_eq_true mine own
  · rw [← same]
    exact (validate_build_iff ulid).mp covers.storable
  · intro r member r' member' run
    have distinct := covers.covers.nodup_iff.mp covers.once
    obtain rfl := List.inj_on_of_nodup_map distinct member member' (lagLabel_of_runInto run)
    exact not_runInto_self _ _ run

theorem Nameable.coversOnce (rep : Represents env ledger db) {s : Surroundings}
    (ulid : env.ulidFromString s.id = true) (nameable : Nameable env db) :
    CoversOnce env db (build env s db) := by
  have same : named env db = reported env db := by
    rw [reported_eq_filter_named, List.filter_eq_self.mpr]
    intro r member
    refine decide_eq_true fun own => ?_
    obtain ⟨latest, other⟩ := List.mem_filter.mp member
    simp [nameable.own r latest own] at other
  have covers := lagLabels_perm env s db
  rw [same] at covers
  have keyed := nodup_producer_latestReports rep
  have apart : ((reported env db).map (fun r => lagLabel r.source r.collector)).Nodup := by
    refine List.Nodup.map_on ?_ ((List.Nodup.of_map _ keyed).sublist reported_sublist)
    intro r member r' member' labels
    rcases runInto_of_lagLabel_eq labels with ⟨source, collector⟩ | run | run
    · refine List.inj_on_of_nodup_map keyed (reported_sublist.mem member)
        (reported_sublist.mem member') ?_
      unfold ReportRow.producer
      rw [source, collector]
    · exact absurd run (nameable.apart r member r' member')
    · exact absurd run (nameable.apart r' member' r member)
  refine ⟨(validate_build_iff ulid).mpr ?_, covers, covers.nodup_iff.mpr apart⟩
  rw [same]
  exact nameable.short

/-- The self-report of a reachable state is stored and names each producer once exactly when
the producers' names leave room for a label and can be told apart in it. -/
theorem build_coversOnce_iff (reached : Reachable env (fun _ => True) db) (s : Surroundings)
    (ulid : env.ulidFromString s.id = true) :
    CoversOnce env db (build env s db) ↔ Nameable env db := by
  obtain ⟨ledger, rep⟩ := reached.represents
  exact ⟨CoversOnce.nameable ulid, Nameable.coversOnce rep ulid⟩

/-- A service nobody asks anything of. -/
def quiet : Surroundings where
  size := 1
  numIdle := 1
  boot := ⟨0, 0⟩
  sweep := none
  now := 0
  serverNow := 0
  id := "01ARZ3NDEKTSV4RRFFQ69G5FB9"
  elapsedMs := 0

def twoProducers : List IngestCall :=
  [sampleCall "amun" "disk" "01ARZ3NDEKTSV4RRFFQ69G5FAV" 0 [],
    sampleCall "fleetwatch" "internals" "01ARZ3NDEKTSV4RRFFQ69G5FAW" 0 [],
    sampleCall "thoth" "disk" "01ARZ3NDEKTSV4RRFFQ69G5FAX" 0 []]

theorem build_coversOnce_twoProducers :
    CoversOnce asciiEnv (stateAfter asciiEnv (twoProducers.map .ingest))
      (build asciiEnv quiet (stateAfter asciiEnv (twoProducers.map .ingest))) := by
  have reached : Reachable asciiEnv (fun _ => True)
      (stateAfter asciiEnv (twoProducers.map .ingest)) := ⟨_, fun _ _ => trivial, rfl⟩
  have rows : latestReports asciiEnv (stateAfter asciiEnv (twoProducers.map .ingest)) =
      twoProducers.map reportRow := by decide +kernel
  have labels : ∀ r ∈ reported asciiEnv (stateAfter asciiEnv (twoProducers.map .ingest)),
      ∀ r' ∈ reported asciiEnv (stateAfter asciiEnv (twoProducers.map .ingest)),
      lagLabel r.source r.collector = lagLabel r'.source r'.collector → r = r' := by
    unfold reported
    rw [rows]
    decide +kernel
  refine (build_coversOnce_iff reached quiet (by decide)).mpr ⟨?_, ?_, ?_⟩
  · rw [rows]
    decide +kernel
  · unfold reported
    rw [rows]
    decide +kernel
  · intro r member r' member' run
    obtain rfl := labels r member r' member' (lagLabel_of_runInto run)
    exact not_runInto_self _ _ run

/-- The first report of all is its producer's newest. -/
theorem latestReports_first {call : IngestCall} (admitted : Admitted env call.upload)
    (fits : Fits call) : reportRow call ∈ latestReports env (stateAfter env [.ingest call]) := by
  have accepts : Accepts env [] call := ⟨admitted, fits, by simp⟩
  have rep : Represents env [Entry.new call] (stateAfter env [.ingest call]) := by
    have run := represents_run env [.ingest call]
    rwa [Run.run_cons, Run.run_nil, ledgerStep_ingest_of_accepts accepts] at run
  obtain ⟨l, inTable, -⟩ := rep.latest.complete (Entry.new call) List.mem_cons_self
  obtain ⟨e, points⟩ := rep.latest.sound l inTable
  obtain rfl := List.mem_singleton.mp points.member
  exact (mem_latestReports rep).mpr ⟨l, inTable, _, points, rfl⟩

/-- 64 characters of four bytes each. -/
def wideName : String := String.ofList (List.replicate 64 (Char.ofNat 0x1F4A9))

theorem trim_wideName : trim wideName ≠ "" := by
  refine @trim_ne_empty _ (Char.ofNat 0x1F4A9) ?_ (by decide)
  unfold wideName
  rw [String.toList_ofList]
  exact List.mem_replicate.mpr ⟨by decide, rfl⟩

theorem length_wideName : wideName.length = COLLECTOR_WIDTH := by
  unfold wideName
  rw [String.length_ofList, List.length_replicate]
  rfl

/-- A report ingest stores, of a producer whose names take 260 bytes. -/
def wideReport : IngestCall := sampleCall "amun" wideName "01ARZ3NDEKTSV4RRFFQ69G5FAV" 0 []

/-- With one such producer no self-report is stored. -/
theorem build_refused_wideReport :
    ¬ ∀ env db s, Reachable env (fun _ => True) db → env.ulidFromString s.id = true →
      CoversOnce env db (build env s db) := by
  intro claimed
  have reached : Reachable asciiEnv (fun _ => True) (stateAfter asciiEnv [.ingest wideReport]) :=
    ⟨_, fun _ _ => trivial, rfl⟩
  have covers := claimed asciiEnv _ quiet reached (by decide)
  have checkless : ∀ c ∈ wideReport.upload.checks, False := fun c member => by cases member
  have latest : reportRow wideReport ∈ latestReports asciiEnv _ :=
    latestReports_first ⟨rfl, by decide, trim_wideName, fun c member => (checkless c member).elim⟩
      ⟨by decide, by decide, decide_eq_true length_wideName.le, by decide,
        fun c member => (checkless c member).elim⟩
  have other : reportRow wideReport ∈
      named asciiEnv (stateAfter asciiEnv [.ingest wideReport]) := by
    refine List.mem_filter.mpr ⟨latest, ?_⟩
    have foreign : (reportRow wideReport).source ≠ SOURCE := by decide
    rw [decide_eq_false (fun own => foreign own.1)]
    rfl
  have short := (validate_build_iff (by decide)).mp covers.storable _ other
  have bytes : wideName.utf8ByteSize = 256 := by decide +kernel
  have collector : (reportRow wideReport).collector.utf8ByteSize = 256 := bytes
  rw [collector] at short
  omega

end Fleetwatch.Selfcheck
