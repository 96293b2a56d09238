import Fleetwatch.Proofs.Retired

/-!
# Silencing what the board shows

A row of the board is silenced through its own names: a mute for a check, a
retirement for a stale producer. Ingest stores the names as they were sent, the two
overlays trim what they are given and look it up byte for byte. So the names silence
their row exactly when trimming leaves them alone, and a producer's also when no
retirement of another spelling holds its key.
-/

namespace Fleetwatch

open Query Sql Table Text

variable {env : Env} {ledger : List Entry} {db : Db}

/-! ## An overlay row stays until it is deleted -/

/-- Every write but the deletion of one mute. -/
def Op.keepsMute (env : Env) (id : String) : Op → Prop
  | .deleteMute other => env.weight other ≠ env.weight id
  | _ => True

/-- Every write but the un-retiring of one producer. -/
def Op.keepsRetirement (env : Env) (producer : ProducerKey) : Op → Prop
  | .deleteRetirement source collector => producerKey env source collector ≠ producer
  | _ => True

theorem mute_stays_step {row : MuteRow} (stored : row ∈ db.mute) {op : Op}
    (keeps : op.keepsMute env row.id) : row ∈ (step env db op).mute := by
  cases op with
  | ingest call =>
    rw [step, (ingest_overlays env call db).1]
    exact stored
  | createMute call =>
    rcases createMute_after env call db with same | ⟨_, after⟩
    · rw [step, same]
      exact stored
    · rw [step, after]
      exact List.mem_append_left _ stored
  | deleteMute id =>
    have other : ¬ row.key env = env.weight id := fun same => keeps same.symm
    rw [step, deleteMute]
    refine List.mem_filter.mpr ⟨stored, ?_⟩
    simp [other]
  | createRetirement call =>
    rw [step, createRetirement_mute]
    exact stored
  | deleteRetirement _ _ =>
    rw [step, deleteRetirement]
    exact stored
  | rebuildLatestReport =>
    rw [step, rebuildLatestReport]
    exact stored
  | sweep _ _ _ =>
    rw [step, sweep]
    exact stored

theorem mute_stays {row : MuteRow} (stored : row ∈ db.mute) {ops : List Op}
    (keeps : ∀ op ∈ ops, op.keepsMute env row.id) : row ∈ (Run.run (step env) db ops).mute := by
  refine Run.run_invariant (fun db : Db => row ∈ db.mute) ?_ ops db keeps stored
  intro db op allowed stored
  exact mute_stays_step stored allowed

/-- A retirement stands under exactly these names. -/
def RetiredAs (source collector : String) (db : Db) : Prop :=
  ∃ row ∈ db.retirement, row.source = source ∧ row.collector = collector

theorem retired_stays_step {source collector : String} (retired : RetiredAs source collector db)
    {op : Op} (keeps : op.keepsRetirement env (producerKey env source collector)) :
    RetiredAs source collector (step env db op) := by
  obtain ⟨row, stored, named⟩ := retired
  cases op with
  | ingest call =>
    rw [step, RetiredAs, (ingest_overlays env call db).2]
    exact ⟨row, stored, named⟩
  | createMute call =>
    rw [step, RetiredAs, createMute_retirement]
    exact ⟨row, stored, named⟩
  | deleteMute _ =>
    rw [step, deleteMute]
    exact ⟨row, stored, named⟩
  | createRetirement call =>
    rcases createRetirement_after env call db with same | ⟨_, after⟩
    · rw [step, same]
      exact ⟨row, stored, named⟩
    · rw [step, after]
      obtain ⟨row', stored', source', collector'⟩ := spelling_stays call stored
      exact ⟨row', stored', source'.trans named.1, collector'.trans named.2⟩
  | deleteRetirement source' collector' =>
    obtain ⟨rfl, rfl⟩ := named
    have other : ¬ row.key env = producerKey env source' collector' := fun same => keeps same.symm
    rw [step, deleteRetirement]
    refine ⟨row, List.mem_filter.mpr ⟨stored, ?_⟩, rfl, rfl⟩
    simp [other]
  | rebuildLatestReport =>
    rw [step, rebuildLatestReport]
    exact ⟨row, stored, named⟩
  | sweep _ _ _ =>
    rw [step, sweep]
    exact ⟨row, stored, named⟩

theorem retired_stays {source collector : String} (retired : RetiredAs source collector db)
    {ops : List Op}
    (keeps : ∀ op ∈ ops, op.keepsRetirement env (producerKey env source collector)) :
    RetiredAs source collector (Run.run (step env) db ops) := by
  refine Run.run_invariant (RetiredAs source collector) ?_ ops db keeps retired
  intro db op allowed retired
  exact retired_stays_step retired allowed

/-! ## Muting a check -/

/-- A mute asked for in the words of a row the page showed at `now`, with a reason and an
id no stored mute has. -/
structure MuteAsked (env : Env) (now : Int) (db : Db) (p : ProblemCheck) (call : MuteCall) :
    Prop where
  source : call.new.source = p.source
  collector : call.new.collector = p.collector
  label : call.new.label = p.label
  reason : trim call.new.reason ≠ ""
  reasonFits : fitsText (trim call.new.reason) = true
  minted : env.ulidFromString call.mintedId = true
  fresh : ∀ row ∈ db.mute, row.key env ≠ env.weight call.mintedId
  later : now ≤ call.now

/-- No row of the page's open list has the names, and every failing check that has them is
on its muted list. -/
structure Silenced (env : Env) (now : Int) (db : Db) (source collector label : String) : Prop where
  unlisted : ∀ q ∈ (problems env now db).checks,
    ¬ (q.source = source ∧ q.collector = collector ∧ q.label = label)
  muted : ∀ r ∈ problemRows env db, r.check.source = source → r.check.collector = collector →
    r.check.label = label → ∃ m, mutedCheck r m ∈ (problems env now db).muted

/-- The call succeeds, and until the mute expires or is deleted the row is silenced,
whatever else is written. -/
structure MuteWorks (env : Env) (db : Db) (p : ProblemCheck) (call : MuteCall) : Prop where
  created : (createMute env call db).1 = .ok (newMute call)
  silences : ∀ ops, (∀ op ∈ ops, op.keepsMute env call.mintedId) → ∀ t, call.now ≤ t →
    t < (newMute call).toRow.expiresAt →
    Silenced env t (Run.run (step env) (createMute env call db).2 ops) p.source p.collector p.label

/-- The row's names are those the mute is stored under, and its author fits the column. -/
structure MutableByName (p : ProblemCheck) (call : MuteCall) : Prop where
  source : trim p.source = p.source
  named : p.source ≠ ""
  collector : trim p.collector = p.collector
  label : trim p.label = p.label
  createdBy : fitsChars CREATED_BY_WIDTH call.createdBy = true

theorem silenced_of_mute {now : Int} {mu : MuteRow} (stored : mu ∈ db.mute)
    (live : now < mu.expiresAt) : Silenced env now db mu.source mu.collector mu.label where
  unlisted := by
    intro q shown named
    obtain ⟨r, _, bare, rfl⟩ := mem_checks.mp shown
    obtain ⟨source, collector, label⟩ := named
    have covering : covered now db r.check = true := covered_iff.mpr
      ⟨mu, stored, lt_of_le_of_lt (bind_le now) live, source.symm, collector.symm, label.symm⟩
    exact absurd (bare.symm.trans covering) Bool.false_ne_true
  muted := by
    intro r row source collector label
    have covering : covered now db r.check = true := covered_iff.mpr
      ⟨mu, stored, lt_of_le_of_lt (bind_le now) live, source.symm, collector.symm, label.symm⟩
    rw [← mute_isSome] at covering
    obtain ⟨m, found⟩ := Option.isSome_iff_exists.mp covering
    refine ⟨m, List.mem_filterMap.mpr ⟨r, row, ?_⟩⟩
    rw [found]
    rfl

theorem one_le_clampTtl (ttlHours : UInt32) : 1 ≤ (clampTtl ttlHours).toNat := by
  unfold clampTtl
  split
  · decide
  · rename_i notLess
    split
    · decide
    · exact UInt32.le_iff_toNat_le.mp (UInt32.not_lt.mp notLess)

/-- A mute outlives the instant it is created at. -/
theorem newMute_live (call : MuteCall) : call.now < (newMute call).toRow.expiresAt := by
  have ttl := one_le_clampTtl call.new.ttlHours
  have digits := lt_datetime3_add (newMute call).expiresAt
  have ends : (newMute call).expiresAt =
      call.now + (clampTtl call.new.ttlHours).toNat * 3600 * second := rfl
  show call.now < datetime3 (newMute call).expiresAt
  unfold second at ends
  omega

/-- What a stored check's names are known to fit. -/
theorem problem_fits (rep : Represents env ledger db) {r : ProblemRow} (row : r ∈ problemRows env db) :
    fitsChars SOURCE_WIDTH r.check.source = true ∧
      fitsChars COLLECTOR_WIDTH r.check.collector = true ∧
      fitsChars LABEL_WIDTH r.check.label = true ∧ trim r.check.collector ≠ "" ∧
      trim r.check.label ≠ "" := by
  obtain ⟨inLatest, _⟩ := (mem_problemRows rep).mp row
  obtain ⟨_, _, e, points, own, _⟩ := (mem_latestProblems rep).mp inLatest
  have fits := rep.fits e points.member
  have admitted := rep.admitted e points.member
  obtain ⟨i, c, uploaded, same⟩ := mem_entry_checkRows own
  rw [same]
  exact ⟨fits.source, fits.collector, (fits.checks c uploaded).label, admitted.collector_visible,
    (admitted.checks c uploaded).label_visible⟩

section Words

variable {now : Int} {r : ProblemRow} {call : MuteCall}

/-- A mute that silences the row it names is stored under the row's own words. -/
theorem mutableByName_of_works (row : r ∈ problemRows env db) (bare : covered now db r.check = false)
    (asked : MuteAsked env now db (problemCheck r) call)
    (works : MuteWorks env db (problemCheck r) call) : MutableByName (problemCheck r) call := by
  have allowed : Mutable env call db := mutable_of_ok works.created
  have silenced := works.silences [] (by simp) call.now le_rfl (newMute_live call)
  rw [Run.run_nil, createMute_of_mutable allowed] at silenced
  have covering : covered call.now (muted call db) r.check = true := by
    by_contra uncovered
    rw [Bool.not_eq_true] at uncovered
    have listed : problemCheck r ∈ (problems env call.now (muted call db)).checks :=
      mem_checks.mpr ⟨r, row, uncovered, rfl⟩
    exact silenced.unlisted _ listed ⟨rfl, rfl, rfl⟩
  obtain ⟨mu, stored, live, source, collector, label⟩ := covered_iff.mp covering
  rcases List.mem_append.mp stored with earlier | new
  · -- a mute that was there would have covered the row when it was read
    have covering' : covered now db r.check = true := covered_iff.mpr
      ⟨mu, earlier, lt_of_le_of_lt (bind_mono asked.later) live, source, collector, label⟩
    exact absurd (bare.symm.trans covering') Bool.false_ne_true
  · rw [List.mem_singleton.mp new] at source collector label
    change trim call.new.source = _ at source
    change trim call.new.collector = _ at collector
    change trim call.new.label = _ at label
    rw [asked.source] at source
    rw [asked.collector] at collector
    rw [asked.label] at label
    refine ⟨source, ?_, collector, label, allowed.fits.createdBy⟩
    intro unnamed
    refine allowed.source ?_
    rw [asked.source, source]
    exact unnamed

/-- And stored under the row's own words it silences the row. -/
theorem works_of_mutableByName (rep : Represents env ledger db) (row : r ∈ problemRows env db)
    (asked : MuteAsked env now db (problemCheck r) call)
    (byName : MutableByName (problemCheck r) call) : MuteWorks env db (problemCheck r) call := by
  obtain ⟨sourceFits, collectorFits, labelFits, collectorVisible, labelVisible⟩ :=
    problem_fits rep row
  have source : (newMute call).toRow.source = r.check.source :=
    (congrArg trim asked.source).trans byName.source
  have collector : (newMute call).toRow.collector = r.check.collector :=
    (congrArg trim asked.collector).trans byName.collector
  have label : (newMute call).toRow.label = r.check.label :=
    (congrArg trim asked.label).trans byName.label
  have fits : FitsMute (newMute call).toRow :=
    { id := decide_eq_true (le_of_eq (env.ulid_length _ asked.minted))
      source := source ▸ sourceFits
      collector := collector ▸ collectorFits
      label := label ▸ labelFits
      reason := asked.reasonFits
      createdBy := byName.createdBy }
  have allowed : Mutable env call db :=
    { source := fun unnamed => byName.named (source.symm.trans unnamed)
      collector := by
        rw [asked.collector]
        exact collectorVisible
      label := by
        rw [asked.label]
        exact labelVisible
      reason := asked.reason
      fits := fits
      fresh := not_clashes_iff.mpr asked.fresh }
  refine ⟨by rw [createMute_of_mutable allowed], ?_⟩
  intro ops keeps t _ live
  rw [createMute_of_mutable allowed]
  have stored : (newMute call).toRow ∈ (muted call db).mute := List.mem_append_right _ (by simp)
  have silenced : Silenced env t (Run.run (step env) (muted call db) ops) _ _ _ :=
    silenced_of_mute (mute_stays stored keeps) live
  rw [source, collector, label] at silenced
  exact silenced

end Words

/-- A mute asked for in a row's own words works exactly when trimming keeps the words. -/
theorem mute_works_iff (rep : Represents env ledger db) {now : Int} {p : ProblemCheck}
    (shown : p ∈ (problems env now db).checks) {call : MuteCall}
    (asked : MuteAsked env now db p call) : MuteWorks env db p call ↔ MutableByName p call := by
  obtain ⟨r, row, bare, rfl⟩ := mem_checks.mp shown
  exact ⟨mutableByName_of_works row bare asked, works_of_mutableByName rep row asked⟩

/-! ## Retiring a producer -/

/-- A retirement asked for in the words of a row `stale` showed at `now`, with a reason. -/
structure RetirementAsked (now : Int) (e : OverviewEntry) (call : RetirementCall) : Prop where
  source : call.new.source = e.source
  collector : call.new.collector = e.collector
  reason : trim call.new.reason ≠ ""
  reasonFits : fitsText (trim call.new.reason) = true
  read : isInstant now = true
  asked : isInstant call.now = true
  later : now ≤ call.now

/-- The call succeeds, and from the next read on the producer is not stale under its names,
whatever else is written, until it is un-retired. -/
structure RetirementWorks (env : Env) (db : Db) (e : OverviewEntry) (call : RetirementCall) :
    Prop where
  created : ∃ r, (createRetirement env call db).1 = .ok r
  silences : ∀ ops,
    (∀ op ∈ ops, op.keepsRetirement env (producerKey env e.source e.collector)) →
    ∀ t, call.now ≤ t →
    ∀ tile ∈ (problems env t (Run.run (step env) (createRetirement env call db).2 ops)).stale,
      ¬ (tile.source = e.source ∧ tile.collector = e.collector)

/-- The row's names are those the retirement is stored under, no retirement of another
spelling holds their key, and the author fits the column. -/
structure RetirableByName (env : Env) (db : Db) (e : OverviewEntry) (call : RetirementCall) :
    Prop where
  source : trim e.source = e.source
  named : e.source ≠ ""
  collector : trim e.collector = e.collector
  unretired : ∀ row ∈ db.retirement, row.key env ≠ producerKey env e.source e.collector
  createdBy : fitsChars CREATED_BY_WIDTH call.createdBy = true

/-- A tile of a retired producer is not in `stale`. -/
theorem not_stale_of_retiredAs {source collector : String}
    (retired : RetiredAs source collector db) {now : Int} {tile : OverviewEntry}
    (stale : tile ∈ (problems env now db).stale) :
    ¬ (tile.source = source ∧ tile.collector = collector) := by
  intro named
  obtain ⟨_, kept⟩ := List.mem_filter.mp stale
  obtain ⟨row, stored, source', collector'⟩ := retired
  have dropped : isStale (listRetirements db) tile = false :=
    (isStale_eq_false_iff tile).mpr (Or.inl ⟨row, stored, source'.trans named.1.symm,
      collector'.trans named.2.symm⟩)
  exact absurd (dropped.symm.trans kept) Bool.false_ne_true

/-- The read-back finds a retirement exactly when one stands under the names just
written. -/
theorem readBack_isSome_iff (call : RetirementCall) :
    (readBack call db).isSome = true ↔
      RetiredAs (retirementRow call).source (retirementRow call).collector db := by
  unfold readBack
  rw [List.find?_isSome]
  constructor
  · intro found
    obtain ⟨r, listed, named⟩ := found
    obtain ⟨row, stored, rfl⟩ := mem_listRetirements.mp listed
    exact ⟨row, stored, of_decide_eq_true named⟩
  · intro retired
    obtain ⟨row, stored, named⟩ := retired
    exact ⟨row.toRetirement, mem_listRetirements.mpr ⟨row, stored, rfl⟩, decide_eq_true named⟩

section Words

variable {now : Int} {l : LatestReportRow} {e : Entry} {call : RetirementCall}

/-- A retirement that takes its row off the list is stored under the row's own words. -/
theorem retirableByName_of_works (rep : Represents env ledger db) (inTable : l ∈ db.latestReport)
    (points : PointsTo env ledger l e)
    (listed : isStale (listRetirements db) (tileOf env now db e) = true)
    (asked : RetirementAsked now (tileOf env now db e) call)
    (works : RetirementWorks env db (tileOf env now db e) call) :
    RetirableByName env db (tileOf env now db e) call := by
  have notDropped : ¬ isStale (listRetirements db) (tileOf env now db e) = false := by
    intro dropped
    exact Bool.false_ne_true (dropped.symm.trans listed)
  rw [isStale_eq_false_iff] at notDropped
  obtain ⟨notRetired, notFresh⟩ := not_or.mp notDropped
  obtain ⟨r, created⟩ := works.created
  have allowed : Retirable call := retirable_of_ok created
  have silent := works.silences [] (by simp) call.now le_rfl
  rw [Run.run_nil, createRetirement_of_retirable allowed] at silent
  have rep' : Represents env ledger (retiredIn env call db) :=
    { rep with retirement := keyed_retiredIn rep.retirement }
  have member : tileOf env call.now (retiredIn env call db) e ∈
      overview env call.now (retiredIn env call db) :=
    (mem_overview rep').mpr ⟨l, inTable, e, points, rfl⟩
  have dropped : isStale (listRetirements (retiredIn env call db))
      (tileOf env call.now (retiredIn env call db) e) = false := by
    by_contra kept
    rw [Bool.not_eq_false] at kept
    exact silent _ (List.mem_filter.mpr ⟨member, kept⟩) ⟨rfl, rfl⟩
  rcases (isStale_eq_false_iff _).mp dropped with ⟨row, stored, source, collector⟩ | fresh
  · rcases spelling_of_retiredIn stored with ⟨free, rfl⟩ | ⟨earlier, stored', source', collector'⟩
    · have source' : trim e.call.source = e.call.source :=
        (congrArg trim asked.source).symm.trans source
      have collector' : trim e.call.upload.collector = e.call.upload.collector :=
        (congrArg trim asked.collector).symm.trans collector
      refine ⟨source', ?_, collector', ?_, allowed.fits.createdBy⟩
      · intro unnamed
        exact allowed.source (source.trans unnamed)
      · intro row stored'
        have other := not_clashes_iff.mp free row stored'
        unfold RetirementRow.key at other
        rw [source, collector] at other
        exact other
    · exact absurd ⟨earlier, stored', source'.symm.trans source,
        collector'.symm.trans collector⟩ notRetired
  · exact absurd (tileOf_fresh_of_later (rep.fits e points.member) asked.read asked.asked
      asked.later fresh) notFresh

/-- And stored under the row's own words it takes the row off the list. -/
theorem works_of_retirableByName (rep : Represents env ledger db)
    (points : PointsTo env ledger l e)
    (asked : RetirementAsked now (tileOf env now db e) call)
    (byName : RetirableByName env db (tileOf env now db e) call) :
    RetirementWorks env db (tileOf env now db e) call := by
  have fits := rep.fits e points.member
  have admitted := rep.admitted e points.member
  have source : (retirementRow call).source = e.call.source :=
    (congrArg trim asked.source).trans byName.source
  have collector : (retirementRow call).collector = e.call.upload.collector :=
    (congrArg trim asked.collector).trans byName.collector
  have fitsRow : FitsRetirement (retirementRow call) :=
    { source := source ▸ fits.source
      collector := collector ▸ fits.collector
      reason := asked.reasonFits
      createdBy := byName.createdBy }
  have allowed : Retirable call :=
    { source := fun unnamed => byName.named (source.symm.trans unnamed)
      collector := by
        rw [asked.collector]
        exact admitted.collector_visible
      reason := asked.reason
      fits := fitsRow }
  have free : clashes (RetirementRow.key env) (retirementRow call) db.retirement = false := by
    refine not_clashes_iff.mpr ?_
    intro row stored
    unfold RetirementRow.key
    rw [source, collector]
    exact byName.unretired row stored
  have retired : RetiredAs (retirementRow call).source (retirementRow call).collector
      (retiredIn env call db) := ⟨_, mem_upsert.mpr (Or.inl ⟨free, rfl⟩), rfl, rfl⟩
  refine ⟨?_, ?_⟩
  · obtain ⟨r, found⟩ := Option.isSome_iff_exists.mp ((readBack_isSome_iff call).mpr retired)
    rw [createRetirement_of_retirable allowed, found]
    exact ⟨r, rfl⟩
  · intro ops keeps t _ other staleThen
    rw [createRetirement_of_retirable allowed] at staleThen
    rw [source, collector] at retired
    exact not_stale_of_retiredAs (retired_stays retired keeps) staleThen

end Words

/-- A retirement asked for in a stale row's own words works exactly when trimming keeps the
words and their key is free. -/
theorem retirement_works_iff (rep : Represents env ledger db) {now : Int} {tile : OverviewEntry}
    (shown : tile ∈ (problems env now db).stale) {call : RetirementCall}
    (asked : RetirementAsked now tile call) :
    RetirementWorks env db tile call ↔ RetirableByName env db tile call := by
  obtain ⟨inOverview, listed⟩ := List.mem_filter.mp shown
  obtain ⟨l, inTable, e, points, rfl⟩ := (mem_overview rep).mp inOverview
  exact ⟨retirableByName_of_works rep inTable points listed asked,
    works_of_retirableByName rep points asked⟩

/-! ## The board -/

/-- In every reachable state, at every instant, each row of the board is silenced by its own
names exactly when the code stores and finds them as they are. -/
theorem board_silenced_iff {permitted : Op → Prop} (reached : Reachable env permitted db)
    (now : Int) :
    (∀ p ∈ (problems env now db).checks, ∀ call, MuteAsked env now db p call →
      (MuteWorks env db p call ↔ MutableByName p call)) ∧
    (∀ tile ∈ (problems env now db).stale, ∀ call, RetirementAsked now tile call →
      (RetirementWorks env db tile call ↔ RetirableByName env db tile call)) := by
  obtain ⟨ledger, rep⟩ := reached.represents
  refine ⟨?_, ?_⟩
  · intro p shown call asked
    exact mute_works_iff rep shown asked
  · intro tile shown call asked
    exact retirement_works_iff rep shown asked

/-- What the page shows of the first check of a report. -/
def sampleProblem (label : String) : ProblemCheck :=
  problemCheck
    { check := checkRow sampleReport 0 (sampleCheck "root" label .fail)
      firstSeen := some 0 }

theorem board_silenced_sample :
    MuteWorks asciiEnv (stateAfter asciiEnv [.ingest sampleReport]) (sampleProblem "usage")
        (sampleMute "01ARZ3NDEKTSV4RRFFQ69G5FB0") ∧
      RetirementWorks asciiEnv (stateAfter asciiEnv [.ingest sampleReport])
        (tileOf asciiEnv (86400 * second) (stateAfter asciiEnv [.ingest sampleReport])
          (Entry.new sampleReport)) sampleRetirement := by
  have reached : Reachable asciiEnv Op.isCall (stateAfter asciiEnv [.ingest sampleReport]) :=
    ⟨[.ingest sampleReport], by simp [Op.isCall], rfl⟩
  refine ⟨?_, ?_⟩
  · refine ((board_silenced_iff reached 0).1 _ (by decide) _ ?_).mpr ?_
    · exact ⟨rfl, rfl, rfl, by decide, by decide, by decide, by decide, le_rfl⟩
    · exact ⟨by decide, by decide, by decide, by decide, by decide⟩
  · refine ((board_silenced_iff reached (86400 * second)).2 _ (by decide) _ ?_).mpr ?_
    · exact ⟨rfl, rfl, by decide, by decide, by decide, by decide, le_rfl⟩
    · exact ⟨by decide, by decide, by decide, by decide, by decide⟩

/-- A label that begins with a space is muted under another name and stays on the board. -/
theorem board_not_silenced :
    ¬ ∀ env db now, Reachable env Op.isCall db →
      (∀ p ∈ (problems env now db).checks, ∀ call, MuteAsked env now db p call →
        fitsChars CREATED_BY_WIDTH call.createdBy = true → MuteWorks env db p call) ∧
      (∀ tile ∈ (problems env now db).stale, ∀ call, RetirementAsked now tile call →
        fitsChars CREATED_BY_WIDTH call.createdBy = true →
          RetirementWorks env db tile call) := by
  intro claimed
  let spaced := sampleCall "amun" "disk" "01ARZ3NDEKTSV4RRFFQ69G5FAV" 0
    [sampleCheck "root" " usage" .fail]
  let mute := sampleMute "01ARZ3NDEKTSV4RRFFQ69G5FB0"
  let call : MuteCall := { mute with new := { mute.new with label := " usage" } }
  have reached : Reachable asciiEnv Op.isCall (stateAfter asciiEnv [.ingest spaced]) :=
    ⟨[.ingest spaced], by simp [Op.isCall], rfl⟩
  have shown : sampleProblem " usage" ∈
      (problems asciiEnv 0 (stateAfter asciiEnv [.ingest spaced])).checks := by decide
  have asked : MuteAsked asciiEnv 0 (stateAfter asciiEnv [.ingest spaced])
      (sampleProblem " usage") call :=
    ⟨rfl, rfl, rfl, by decide, by decide, by decide, by decide, le_rfl⟩
  have works := (claimed asciiEnv _ 0 reached).1 _ shown call asked (by decide)
  obtain ⟨ledger, rep⟩ := reached.represents
  have byName := (mute_works_iff rep shown asked).mp works
  exact absurd byName.label (by decide)

end Fleetwatch
