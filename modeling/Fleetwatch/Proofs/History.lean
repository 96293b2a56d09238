import Fleetwatch.Proofs.MuteOverlay

/-!
# Where a history ends

The board shows a check of its producer's newest report, by instant and then by id. The
history of the check is ordered by instant alone, so its last point may be any check of
the same name stored at that instant: of another report of one millisecond, or of the
same report, which may name a check twice.
-/

namespace Fleetwatch

open Query Sql Table

variable {env : Env} {ledger : List Entry} {db : Db}

/-- What a row of the problems page says of a check. -/
structure BoardRow where
  key : CheckKey
  collectedAt : Int
  verdict : Verdict
  deriving DecidableEq

/-- What a row about the check says. -/
def CheckRow.boardRow (c : CheckRow) : BoardRow :=
  { key := { source := c.source, collector := c.collector, sect := c.sect, label := c.label }
    collectedAt := c.collectedAt
    verdict := c.verdict }

def ProblemCheck.boardRow (p : ProblemCheck) : BoardRow :=
  { key := { source := p.source, collector := p.collector, sect := p.sect, label := p.label }
    collectedAt := p.collectedAt
    verdict := p.verdict }

def MutedCheck.boardRow (m : MutedCheck) : BoardRow :=
  { key := { source := m.source, collector := m.collector, sect := m.sect, label := m.label }
    collectedAt := m.collectedAt
    verdict := m.verdict }

/-- The checks of the page, muted or not. -/
def Problems.boardRows (p : Problems) : List BoardRow :=
  p.checks.map ProblemCheck.boardRow ++ p.muted.map MutedCheck.boardRow

/-- `History.latest` of the history page. -/
def History.latest (h : History) : Option HistoryPoint := h.points.getLast?

/-- In every order of its query, the check's history is sorted and ends at what the page
says of it. -/
def EndsAt (env : Env) (db : Db) (lower upper : Int) (row : BoardRow) : Prop :=
  ∀ rows, Permits CheckRow.collectedAt (historyRows env row.key lower upper db) rows →
    (historyOf row.key rows).points.Pairwise (fun p q => p.collectedAt ≤ q.collectedAt) ∧
      ∃ value, (historyOf row.key rows).latest =
        some { collectedAt := row.collectedAt, verdict := row.verdict, value := value }

/-- Is the check named by the key, as the database compares names? -/
def CheckRow.named (env : Env) (key : CheckKey) (c : CheckRow) : Prop :=
  producerKey env c.source c.collector = producerKey env key.source key.collector ∧
    env.weight c.sect = env.weight key.sect ∧ env.weight c.label = env.weight key.label

/-- All checks of the name stored at the instant have the verdict. -/
def OneVerdict (env : Env) (db : Db) (row : BoardRow) : Prop :=
  ∀ c ∈ db.checkResult, c.named env row.key → c.collectedAt = row.collectedAt →
    c.verdict = row.verdict

/-- The check a row of the page shows, of a report its pointer names. -/
theorem mem_boardRows (rep : Represents env ledger db) {now : Int} {row : BoardRow}
    (member : row ∈ (problems env now db).boardRows) :
    ∃ l ∈ db.latestReport, ∃ e, PointsTo env ledger l e ∧ ∃ c ∈ e.checkRows,
      row = c.boardRow := by
  have found : ∃ r ∈ problemRows env db, row = r.check.boardRow := by
    rcases List.mem_append.mp member with open' | muted
    · obtain ⟨p, listed, rfl⟩ := List.mem_map.mp open'
      obtain ⟨r, known, -, rfl⟩ := mem_checks.mp listed
      exact ⟨r, known, rfl⟩
    · obtain ⟨m, listed, rfl⟩ := List.mem_map.mp muted
      obtain ⟨r, known, covers⟩ := List.mem_filterMap.mp listed
      obtain ⟨mute, -, rfl⟩ := Option.map_eq_some_iff.mp covers
      exact ⟨r, known, rfl⟩
  obtain ⟨r, known, rfl⟩ := found
  obtain ⟨l, inTable, e, points, own, -⟩ :=
    (mem_latestProblems rep).mp ((mem_problemRows rep).mp known).1
  exact ⟨l, inTable, e, points, r.check, own, rfl⟩

theorem mem_historyRows {key : CheckKey} {lower upper : Int} {c : CheckRow} :
    c ∈ historyRows env key lower upper db ↔
      c ∈ db.checkResult ∧ c.named env key ∧ bindDatetime lower ≤ c.collectedAt ∧
        c.collectedAt ≤ bindDatetime upper := by
  unfold historyRows CheckRow.named producerKey
  simp only [List.mem_filter, Bool.and_eq_true, decide_eq_true_eq, Prod.mk.injEq, and_assoc]

/-- No check of a producer is stored later than those of the report its pointer names. -/
theorem collectedAt_le_pointee (rep : Represents env ledger db) {l : LatestReportRow} {e : Entry}
    (points : PointsTo env ledger l e) {c : CheckRow} (stored : c ∈ db.checkResult)
    (producer : producerKey env c.source c.collector = e.producer env) :
    c.collectedAt ≤ e.storedAt := by
  rw [rep.checkResult] at stored
  obtain ⟨other, inLedger, own⟩ := List.mem_flatMap.mp stored
  rw [checkRows_collectedAt own]
  exact points.newest other inLedger ((checkRows_producer own).symm.trans producer)

theorem latest_historyOf (key : CheckKey) {rows : List CheckRow} {last : CheckRow}
    (ends : rows.getLast? = some last) :
    (historyOf key rows).latest =
      some { collectedAt := last.collectedAt, verdict := last.verdict, value := last.value } := by
  unfold History.latest historyOf
  rw [List.getLast?_map, ends]
  rfl

theorem pairwise_historyOf (key : CheckKey) {rows : List CheckRow}
    (sorted : rows.Pairwise (fun left right => left.collectedAt ≤ right.collectedAt)) :
    (historyOf key rows).points.Pairwise (fun p q => p.collectedAt ≤ q.collectedAt) :=
  List.pairwise_map.mpr sorted

/-- The history of a check the page shows ends where the page is, over every window around it
and in every order, exactly when no check of its name stored at that instant has another
verdict. -/
theorem history_endsAt_iff (reached : Reachable env (fun _ => True) db) (now : Int) :
    ∀ row ∈ (problems env now db).boardRows, ∀ lower upper, lower ≤ row.collectedAt →
      row.collectedAt ≤ upper → (EndsAt env db lower upper row ↔ OneVerdict env db row) := by
  intro row member lower upper after before
  obtain ⟨ledger, rep⟩ := reached.represents
  obtain ⟨l, inTable, e, points, c, own, rfl⟩ := mem_boardRows rep member
  have producer : producerKey env c.source c.collector = e.producer env := checkRows_producer own
  have instant := checkRows_collectedAt own
  have whole : bindDatetime c.collectedAt = c.collectedAt := by
    rw [instant]
    exact bind_datetime3 _
  have opens : bindDatetime lower ≤ c.collectedAt := le_trans (bind_le lower) after
  have closes : c.collectedAt ≤ bindDatetime upper := whole ▸ bind_mono before
  have stored : c ∈ db.checkResult := by
    rw [rep.checkResult]
    exact List.mem_flatMap.mpr ⟨e, points.member, own⟩
  have shown : c ∈ historyRows env c.boardRow.key lower upper db :=
    mem_historyRows.mpr ⟨stored, ⟨rfl, rfl, rfl⟩, opens, closes⟩
  have greatest : ∀ other ∈ historyRows env c.boardRow.key lower upper db,
      other.collectedAt ≤ c.collectedAt := by
    intro other listed
    obtain ⟨inTable', ⟨same, -⟩, -⟩ := mem_historyRows.mp listed
    rw [instant]
    exact collectedAt_le_pointee rep points inTable' (same.trans producer)
  constructor
  · intro ends other inTable' named tied
    -- some order ends with this very check
    have listed : other ∈ historyRows env c.boardRow.key lower upper db :=
      mem_historyRows.mpr ⟨inTable', named, le_of_le_of_eq opens tied.symm,
        le_of_eq_of_le tied closes⟩
    obtain ⟨rows, permits, last⟩ := @exists_permits_ending _ _ _ CheckRow.collectedAt _ _ _ listed
      (fun other' listed' => le_of_le_of_eq (greatest other' listed') tied.symm)
    obtain ⟨-, value, latest⟩ := ends rows permits
    rw [latest_historyOf _ last] at latest
    exact congrArg HistoryPoint.verdict (Option.some.inj latest)
  · intro one rows permits
    refine ⟨pairwise_historyOf _ permits.2, ?_⟩
    obtain ⟨last, listed, ends⟩ := permits.exists_last shown
    obtain ⟨inTable', named, -⟩ := mem_historyRows.mp listed
    have tied := le_antisymm (greatest last listed) (permits.le_last ends c shown)
    refine ⟨last.value, ?_⟩
    rw [latest_historyOf _ ends, one last inTable' named tied, tied]
    rfl

theorem history_endsAt_inodes :
    EndsAt asciiEnv (stateAfter asciiEnv mutedOnce) 0 0
      (checkRow sampleReport 1 (sampleCheck "root" "inodes" .fail)).boardRow := by
  have reached : Reachable asciiEnv (fun _ => True) (stateAfter asciiEnv mutedOnce) :=
    ⟨mutedOnce, fun _ _ => trivial, rfl⟩
  refine (history_endsAt_iff reached 0 _ (by decide +kernel) 0 0 (le_refl 0) (le_refl 0)).mpr ?_
  unfold OneVerdict CheckRow.named
  decide +kernel

/-- Two reports of one millisecond, the first under the larger id. -/
def tiedReports : List IngestCall :=
  [sampleCall "amun" "disk" "01ARZ3NDEKTSV4RRFFQ69G5FAW" 0 [sampleCheck "root" "usage" .fail],
    sampleCall "amun" "disk" "01ARZ3NDEKTSV4RRFFQ69G5FAV" 0 [sampleCheck "root" "usage" .pass]]

/-- The board shows the check failing; its history, read in the order of the table, ends with
a pass. -/
theorem history_ends_elsewhere :
    ⟨⟨"amun", "disk", "root", "usage"⟩, 0, .fail⟩ ∈
        (problems asciiEnv 0 (ingestAll asciiEnv Db.empty tiedReports)).boardRows ∧
      (history asciiEnv ⟨"amun", "disk", "root", "usage"⟩ 0 0
        (ingestAll asciiEnv Db.empty tiedReports)).latest = some ⟨0, .pass, none⟩ ∧
      ¬ EndsAt asciiEnv (ingestAll asciiEnv Db.empty tiedReports) 0 0
        ⟨⟨"amun", "disk", "root", "usage"⟩, 0, .fail⟩ := by
  have ends : (history asciiEnv ⟨"amun", "disk", "root", "usage"⟩ 0 0
      (ingestAll asciiEnv Db.empty tiedReports)).latest = some ⟨0, .pass, none⟩ := by
    decide +kernel
  refine ⟨by decide +kernel, ends, fun claimed => ?_⟩
  obtain ⟨-, value, latest⟩ := claimed _ (permits_orderBy _)
  have other := congrArg HistoryPoint.verdict (Option.some.inj (ends.symm.trans latest))
  cases other

end Fleetwatch
