import Fleetwatch.Readers

/-!
# Three readers, one count

What the service writes of a problems view, the command line reads back whole, and the
phone and the page read in part: the same rows in the same order. So the three counts are
one, and the exit code says whether the phone has something to notify.
-/

namespace Fleetwatch

open Utf16

/-! ## What the phone keeps of a row -/

def ProblemCheck.received (c : ProblemCheck) : Android.Problem where
  source := utf16 c.source
  collector := utf16 c.collector
  sect := utf16 c.sect
  label := utf16 c.label
  verdict := utf16 c.verdict.name
  observed := c.observed.map utf16
  confirmed := c.confirmed

def OverviewEntry.received (e : OverviewEntry) : Android.Stale where
  source := utf16 e.source
  collector := utf16 e.collector

def Problems.received (p : Problems) : Android.Problems where
  checks := p.checks.map ProblemCheck.received
  stale := p.stale.map OverviewEntry.received
  returned := p.returned.map OverviewEntry.received

/-- A verdict is spelled as the phone's warning exactly when it is one. -/
theorem utf16_name_eq_WARN (verdict : Verdict) :
    utf16 verdict.name = Android.WARN ↔ verdict = .warn := by
  constructor
  · intro same
    have name : verdict.name = "warn" := utf16_injective same
    cases verdict with
    | warn => rfl
    | _ => exact absurd name (by decide)
  · rintro rfl
    rfl

theorem count_received (p : Problems) : p.received.count = count p := by
  simp only [Problems.received, Android.Problems.count, count, List.length_map]

/-- The filter of the phone keeps the rows that the filter of the board does. -/
theorem notifiable_checks (checks : List ProblemCheck) :
    (checks.map ProblemCheck.received).filter (fun it => it.verdict ≠ Android.WARN && it.confirmed) =
      (checks.filter (fun c => c.verdict ≠ .warn && c.confirmed)).map ProblemCheck.received := by
  rw [List.filter_map]
  congr 1
  apply List.filter_congr
  intro c _
  have warns := utf16_name_eq_WARN c.verdict
  simp only [Function.comp_apply, ProblemCheck.received, ne_eq, warns]

theorem notifiable_count_received (p : Problems) :
    p.received.notifiable.count = notifiableCount p := by
  unfold Android.Problems.notifiable Android.Problems.count notifiableCount
  simp only [Problems.received]
  rw [notifiable_checks, List.length_map, List.length_map, List.length_map]

/-- Nothing to notify is a count of none. -/
theorem isEmpty_iff_count (p : Android.Problems) : p.isEmpty = true ↔ p.count = 0 := by
  unfold Android.Problems.isEmpty Android.Problems.count
  rw [Bool.and_eq_true, Bool.and_eq_true, List.isEmpty_iff_length_eq_zero,
    List.isEmpty_iff_length_eq_zero, List.isEmpty_iff_length_eq_zero]
  omega

/-! ## Reading what was written -/

section

variable (instant : InstantCodec)

/-- The document of a problems view. -/
def Problems.wire (p : Problems) : Json := (problemsCodec instant).write p

theorem parseProblem_toFields (org : OrgJson) (round : Int → Int) (c : ProblemCheck) :
    Android.Problems.parseProblem org (toFields round ((problemCheckFields instant).write c)) =
      c.received := by
  have distinct :=
    (problemCheckFields instant).write_distinct (problemCheckFields_distinct instant) c
  rw [problemCheckFields_write] at distinct ⊢
  have text := @JsonObject.optString_toFields _ distinct org round
  have observed := JsonObject.optString_toFields_option distinct org round
    (List.mem_of_getElem? (i := 7) rfl)
  have confirmed := JsonObject.optBoolean_toFields distinct org round true
    (List.mem_of_getElem? (i := 13) rfl)
  unfold Android.Problems.parseProblem
  rw [text (List.mem_of_getElem? (i := 0) rfl), text (List.mem_of_getElem? (i := 1) rfl),
    text (List.mem_of_getElem? (i := 3) rfl), text (List.mem_of_getElem? (i := 4) rfl),
    text (List.mem_of_getElem? (i := 6) rfl), observed, confirmed]
  rfl

theorem parseStale_toFields (org : OrgJson) (round : Int → Int) (e : OverviewEntry) :
    Android.Problems.parseStale org (toFields round ((overviewEntryFields instant).write e)) =
      e.received := by
  have distinct :=
    (overviewEntryFields instant).write_distinct (overviewEntryFields_distinct instant) e
  rw [overviewEntryFields_write] at distinct ⊢
  unfold Android.Problems.parseStale
  rw [JsonObject.optString_toFields distinct org round (List.mem_of_getElem? (i := 0) rfl),
    JsonObject.optString_toFields distinct org round (List.mem_of_getElem? (i := 1) rfl)]
  rfl

/-- The phone receives the rows of the view, in its order. -/
theorem parse_wire (org : OrgJson) (round : Int → Int) (p : Problems) (json : List CodeUnit)
    (reads : org.read json = some ((p.wire instant).toTree round)) :
    Android.Problems.parse org json = some p.received := by
  have distinct := (problemsFields instant).write_distinct (problemsFields_distinct instant) p
  have root : (p.wire instant).toTree round =
      .object (toFields round ((problemsFields instant).write p)) := rfl
  rw [root] at reads
  rw [problemsFields_write] at distinct reads
  have rows := @JsonObject.objects_toFields _ distinct round
  unfold Android.Problems.parse
  rw [reads]
  dsimp only
  rw [rows (List.mem_of_getElem? (i := 0) rfl), rows (List.mem_of_getElem? (i := 2) rfl),
    rows (List.mem_of_getElem? (i := 4) rfl)]
  simp only [List.map_map, Function.comp_def, parseProblem_toFields, parseStale_toFields]
  rfl

theorem lengthOf_toFields {fields : List (String × Json)} (distinct : (fields.map Prod.fst).Nodup)
    (round : Int → Int) {name : String} {items : List Json} (member : (name, .arr items) ∈ fields) :
    ProblemsStore.lengthOf name (toFields round fields) = some items.length := by
  unfold ProblemsStore.lengthOf
  rw [opt_toFields distinct member]
  show some (toTrees round items).length = _
  rw [toTrees_eq_map, List.length_map]

/-- The page counts the same rows. -/
theorem badge_wire (round : Int → Int) (p : Problems) :
    ProblemsStore.count ((p.wire instant).toTree round) = some (count p) := by
  have distinct := (problemsFields instant).write_distinct (problemsFields_distinct instant) p
  have root : (p.wire instant).toTree round =
      .object (toFields round ((problemsFields instant).write p)) := rfl
  rw [root]
  rw [problemsFields_write] at distinct ⊢
  have length := @lengthOf_toFields _ distinct round
  unfold ProblemsStore.count
  dsimp only
  rw [length (List.mem_of_getElem? (i := 0) rfl), length (List.mem_of_getElem? (i := 2) rfl),
    length (List.mem_of_getElem? (i := 4) rfl)]
  simp only [List.length_map, Option.bind_eq_bind, Option.bind_some]
  rfl

/-- The body of the answer to `GET /api/problems`. -/
def Problems.body (p : Problems) : String := String.ofList (p.wire instant).text

/-- The command line reads the view back whole. -/
theorem fromStr_body {p : Problems} (fits : p.Fits instant) {parse : String → Option Json}
    (serde : parse (p.body instant) = some (p.wire instant)) :
    fromStr instant parse (p.body instant) = some p := by
  unfold fromStr
  rw [serde, Option.bind_some]
  exact (problemsCodec instant).reads p (canonical_problems instant p fits)

theorem exitCode_body {p : Problems} (fits : p.Fits instant) {parse : String → Option Json}
    (serde : parse (p.body instant) = some (p.wire instant)) :
    exitCode instant parse (some ⟨200, p.body instant⟩) = 0 ↔ notifiableCount p = 0 := by
  have ok : ¬ (200 < 200 ∨ 300 ≤ 200) := by decide
  unfold exitCode
  dsimp only
  rw [if_neg ok, fromStr_body instant fits serde]
  dsimp only
  split
  · rename_i none
    exact iff_of_true rfl none
  · rename_i some
    exact iff_of_false (by decide) some

/-- Every view is read back whole by the command line, row by row by the phone, and counted
alike by all three, whatever reads the text as the document it spells; the command exits
with 0 exactly when the phone has nothing to notify. -/
theorem readers_agree {p : Problems} (fits : p.Fits instant)
    {parse : String → Option Json} (serde : parse (p.body instant) = some (p.wire instant))
    {org : OrgJson} {roundOrg : Int → Int}
    (phone : org.read (utf16 (p.body instant)) = some ((p.wire instant).toTree roundOrg))
    {jsonParse : List CodeUnit → Option Tree} {roundPage : Int → Int}
    (page : jsonParse (utf16 (p.body instant)) = some ((p.wire instant).toTree roundPage)) :
    fromStr instant parse (p.body instant) = some p ∧
      Android.Problems.parse org (utf16 (p.body instant)) = some p.received ∧
      p.received.count = count p ∧
      (jsonParse (utf16 (p.body instant))).bind ProblemsStore.count = some (count p) ∧
      p.received.notifiable.count = notifiableCount p ∧
      (exitCode instant parse (some ⟨200, p.body instant⟩) = 0 ↔
        p.received.notifiable.isEmpty = true) := by
  refine ⟨fromStr_body instant fits serde, parse_wire instant org roundOrg p _ phone,
    count_received p, ?_, notifiable_count_received p, ?_⟩
  · rw [page, Option.bind_some]
    exact badge_wire instant roundPage p
  · rw [exitCode_body instant fits serde, isEmpty_iff_count, notifiable_count_received]

end

/-! ## A board with a row of every kind -/

/-- Some instants and their RFC 3339 spelling. -/
def spelledInstants : List (Int × String) :=
  [(1783044000000000000, "2026-07-03T02:00:00Z"), (1783087200000000000, "2026-07-03T14:00:00Z"),
    (1783088100000000000, "2026-07-03T14:15:00Z")]

def spelledInstant : InstantCodec where
  write t := .str (((spelledInstants.find? (fun spelled => spelled.1 = t)).map Prod.snd).getD "")
  read
    | .str s => (spelledInstants.find? (fun spelled => spelled.2 = s)).map Prod.fst
    | _ => none
  canonical t := t ∈ spelledInstants.map Prod.fst
  reads := by decide
  filled _ null := by cases null

/-- A failure with all its fields, one in its first report, a warning and a silent producer. -/
def sampleBoard : Problems where
  checks :=
    [{ source := "mac-mini", collector := "home-receivers", reportId := "01JZFIXTURE0000000000000A",
       sect := "receivers", label := "pixel5", subject := some "pixel5", verdict := .fail,
       observed := some "last push 414 min ago", expected := some "< 30 min",
       docRef := some "receivers.md:12", detail := some "memview gate — 15 checks\n  x eslint",
       collectedAt := 1783087200000000000, firstSeen := some 1783044000000000000,
       confirmed := true },
      { source := "mac-mini", collector := "ci-status", reportId := "01JZFIXTURE0000000000000H",
        sect := "builds", label := "messages", subject := none, verdict := .fail,
        observed := some "RuntimeError: TLS handshake timeout", expected := none, docRef := none,
        detail := none, collectedAt := 1783088100000000000,
        firstSeen := some 1783088100000000000, confirmed := false },
      { source := "mac-mini", collector := "fleet-health", reportId := "01JZFIXTURE0000000000000B",
        sect := "NIXOS RELEASE PARITY", label := "release parity", subject := none,
        verdict := .warn, observed := none, expected := none, docRef := none, detail := none,
        collectedAt := 1783087200000000000, firstSeen := none, confirmed := true }]
  muted := []
  stale :=
    [{ source := "isis", collector := "backup-verify", reportId := "01JZFIXTURE0000000000000E",
       collectedAt := 1783044000000000000, ageS := 43200, intervalS := some 21600,
       freshness := .silent, worst := .pass, pass := 12, warn := 0, fail := 0, skip := 1,
       muted := 0, total := 13 }]
  lapsing := []
  returned := []

theorem sampleBoard_fits : sampleBoard.Fits spelledInstant where
  checks := by simp [sampleBoard, spelledInstant, spelledInstants]
  muted := by simp [sampleBoard]
  stale := by simp [sampleBoard, spelledInstant, spelledInstants, OverviewEntry.Fits]
  lapsing := by simp [sampleBoard]
  returned := by simp [sampleBoard]

/-- A reader that knows one text. -/
def readsOnly {α β : Type} [DecidableEq α] (text : α) (value : β) (s : α) : Option β :=
  if s = text then some value else none

theorem readsOnly_eq {α β : Type} [DecidableEq α] (text : α) (value : β) :
    readsOnly text value text = some value := if_pos rfl

/-- An `org.json` that spells `null` and knows one text. -/
def orgReads (text : List CodeUnit) (value : Tree) : OrgJson where
  read := readsOnly text value
  valueOf
    | .null => utf16 "null"
    | _ => []
  toBoolean
    | s => if s = utf16 "true" then some true else if s = utf16 "false" then some false else none

theorem orgReads_eq (text : List CodeUnit) (value : Tree) :
    (orgReads text value).read text = some value := readsOnly_eq text value

theorem readers_agree_sampleBoard :
    let body := sampleBoard.body spelledInstant
    let wire := sampleBoard.wire spelledInstant
    fromStr spelledInstant (readsOnly body wire) body = some sampleBoard ∧
      Android.Problems.parse (orgReads (utf16 body) (wire.toTree id)) (utf16 body) =
        some sampleBoard.received ∧
      exitCode spelledInstant (readsOnly body wire) (some ⟨200, body⟩) ≠ 0 := by
  intro body wire
  have phone := orgReads_eq (utf16 body) (wire.toTree id)
  have page := readsOnly_eq (utf16 body) (wire.toTree id)
  obtain ⟨cli, parsed, -, -, -, exits⟩ :=
    readers_agree spelledInstant sampleBoard_fits (readsOnly_eq body wire) phone page
  refine ⟨cli, parsed, ?_⟩
  rw [ne_eq, exits, isEmpty_iff_count, notifiable_count_received]
  decide

end Fleetwatch
