import Fleetwatch.Board
import Fleetwatch.Lib.Decimal
import Fleetwatch.Lib.Lines
import Fleetwatch.Proofs.MuteOverlay

/-!
# One line for each row

The terminal board writes a heading, then its rows in five sections, and ends each with
a line feed. What it writes around a row's texts holds none, so the rows are the lines
exactly when the texts hold none either; nothing on the way to the board refuses one.
-/

namespace Fleetwatch

open Chrono Sql Text

/-! ## Texts of one line -/

/-- A text with no line feed. -/
def OneLine (s : String) : Prop := '\n' ∉ s.toList

instance (s : String) : Decidable (OneLine s) := inferInstanceAs (Decidable ('\n' ∉ s.toList))

@[simp] theorem oneLine_append {s t : String} : OneLine (s ++ t) ↔ OneLine s ∧ OneLine t := by
  unfold OneLine
  rw [String.toList_append, List.mem_append, not_or]

@[simp] theorem oneLine_toString {s : String} : OneLine (toString s) ↔ OneLine s := Iff.rfl

@[simp] theorem oneLine_nat (n : Nat) : OneLine (toString n) := by
  intro member
  have digit : ('\n').isDigit = true :=
    Nat.isDigit_of_mem_toDigits (by decide) (by decide) (Nat.toList_repr ▸ member)
  exact absurd digit (by decide)

@[simp] theorem oneLine_repr (n : Nat) : OneLine n.repr := oneLine_nat n

@[simp] theorem oneLine_int64 (i : Int64) : OneLine (toString i) := by
  intro member
  have written : '\n' ∈ (toString i.toInt).toList := member
  rcases isDigit_or_minus written with digit | minus
  · exact absurd digit (by decide)
  · exact absurd minus (by decide)

@[simp] theorem oneLine_formatMinute (t : Int) : OneLine (formatMinute t) := by
  intro member
  rcases mem_formatMinute member with digit | mark
  · exact absurd digit (by decide)
  · exact absurd mark (by decide)

@[simp] theorem oneLine_age (seconds : Int64) : OneLine (age seconds) := by
  have marks : OneLine "" ∧ OneLine "s" ∧ OneLine "m" ∧ OneLine "h" ∧ OneLine "d" := by decide
  unfold age
  split
  · simp [marks]
  · split
    · simp [marks]
    · split <;> simp [marks]

@[simp] theorem oneLine_verdict (v : Verdict) : OneLine v.fmt := by
  cases v <;> decide

@[simp] theorem oneLine_freshness (f : Freshness) : OneLine f.lowercase := by
  cases f <;> decide

/-! ## The texts of a row -/

/-- What a row prints of a producer's or a user's words. -/
def ProblemCheck.words (c : ProblemCheck) : List String :=
  [c.source, c.collector, c.sect, c.label] ++ c.observed.toList ++ c.expected.toList

def OverviewEntry.words (e : OverviewEntry) : List String := [e.source, e.collector]

def MutedCheck.words (m : MutedCheck) : List String :=
  [m.source, m.collector, m.sect, m.label, m.reason]

def Mute.words (m : Mute) : List String := [m.source, m.collector, m.label, m.reason]

/-- No word on the board holds a line feed. -/
structure Problems.Unbroken (p : Problems) : Prop where
  checks : ∀ c ∈ p.checks, ∀ s ∈ c.words, OneLine s
  stale : ∀ e ∈ p.stale, ∀ s ∈ e.words, OneLine s
  returned : ∀ e ∈ p.returned, ∀ s ∈ e.words, OneLine s
  muted : ∀ m ∈ p.muted, ∀ s ∈ m.words, OneLine s
  lapsing : ∀ m ∈ p.lapsing, ∀ s ∈ m.words, OneLine s

section Rows

variable (c : ProblemCheck) (e : OverviewEntry) (m : MutedCheck) (l : Mute)

theorem oneLine_runMark : OneLine (runMark c) := by
  have marks : OneLine "  [first report]" ∧ OneLine "  [since " ∧ OneLine "]" ∧ OneLine "" := by
    decide
  unfold runMark
  split
  · exact marks.1
  · split <;> simp [marks]

theorem oneLine_checkLine : OneLine (checkLine c) ↔ ∀ s ∈ c.words, OneLine s := by
  have marks : OneLine "  " ∧ OneLine "/" ∧ OneLine " — " ∧ OneLine " (expected " ∧
      OneLine ")" ∧ OneLine "" := by
    decide
  unfold checkLine ProblemCheck.words
  cases c.observed <;> cases c.expected <;>
    simp only [oneLine_append, oneLine_toString, oneLine_verdict, marks, oneLine_runMark, true_and,
      and_true, and_assoc, List.forall_mem_append, List.forall_mem_cons, List.not_mem_nil, false_imp_iff, implies_true,
      Option.toList_none, Option.toList_some]

theorem oneLine_staleLine : OneLine (staleLine e) ↔ ∀ s ∈ e.words, OneLine s := by
  have marks : OneLine "  stale  " ∧ OneLine "/" ∧ OneLine " — " ∧ OneLine ", last report " ∧
      OneLine " ago" := by
    decide
  unfold staleLine OverviewEntry.words
  simp only [oneLine_append, oneLine_toString, oneLine_freshness, oneLine_age, marks, true_and,
    and_true, List.forall_mem_cons, List.not_mem_nil, false_imp_iff, implies_true]

theorem oneLine_returnedLine : OneLine (returnedLine e) ↔ ∀ s ∈ e.words, OneLine s := by
  have marks : OneLine "  returned  " ∧ OneLine "/" ∧
      OneLine " — retired, but a report arrived " ∧ OneLine " ago" := by
    decide
  unfold returnedLine OverviewEntry.words
  simp only [oneLine_append, oneLine_toString, oneLine_age, marks, true_and, and_true,
    List.forall_mem_cons, List.not_mem_nil, false_imp_iff, implies_true]

theorem oneLine_mutedLine : OneLine (mutedLine m) ↔ ∀ s ∈ m.words, OneLine s := by
  have marks : OneLine "  " ∧ OneLine "/" ∧ OneLine " — " ∧ OneLine " (expires " ∧
      OneLine ")" := by
    decide
  unfold mutedLine MutedCheck.words
  simp only [oneLine_append, oneLine_toString, oneLine_verdict, oneLine_formatMinute, marks,
    true_and, and_true, and_assoc, List.forall_mem_cons, List.not_mem_nil, false_imp_iff, implies_true]

theorem oneLine_lapsingLine : OneLine (lapsingLine l) ↔ ∀ s ∈ l.words, OneLine s := by
  have marks : OneLine "  " ∧ OneLine "/" ∧ OneLine " — " ∧ OneLine " (expires " ∧
      OneLine ")" := by
    decide
  unfold lapsingLine Mute.words
  simp only [oneLine_append, oneLine_toString, oneLine_formatMinute, marks, true_and, and_true,
    and_assoc, List.forall_mem_cons, List.not_mem_nil, false_imp_iff, implies_true]

end Rows

theorem oneLine_headLine (p : Problems) : OneLine (headLine p) := by
  have marks : OneLine " problem(s) on the board; the phone notifies on " ∧
      OneLine " — warnings and first-report failures stay on the dashboard" ∧ OneLine "" := by
    decide
  unfold headLine
  split
  · decide
  · simp only [oneLine_append, oneLine_toString, oneLine_nat, marks, and_self]

/-! ## The page -/

/-- The lines the page should have: the heading, then each section's rows in order. -/
def boardLines (p : Problems) : List String :=
  let sectionLines := fun (heading : String) (rows : List String) =>
    if rows.isEmpty then [] else heading :: rows
  headLine p :: (p.checks.map checkLine ++ p.stale.map staleLine ++ p.returned.map returnedLine ++
    sectionLines s!"muted ({p.muted.length}, not counted):" (p.muted.map mutedLine) ++
    sectionLines s!"lapsing mutes ({p.lapsing.length}):" (p.lapsing.map lapsingLine))

/-- How many lines that is. -/
def boardHeight (p : Problems) : Nat :=
  1 + p.checks.length + p.stale.length + p.returned.length +
    (if p.muted = [] then 0 else 1 + p.muted.length) +
    (if p.lapsing = [] then 0 else 1 + p.lapsing.length)

theorem length_boardLines (p : Problems) : (boardLines p).length = boardHeight p := by
  unfold boardLines boardHeight
  cases p.muted <;> cases p.lapsing <;> simp <;> omega

theorem toList_writeRows {α : Type} (line : α → String) (rows : List α) :
    (writeRows line rows).toList = ended ((rows.map line).map String.toList) := by
  unfold writeRows ended
  rw [String.toList_join, List.flatMap_map, List.flatMap_map, List.flatMap_map]
  simp only [String.toList_append]
  rfl

theorem ended_append (left right : List (List Char)) :
    ended (left ++ right) = ended left ++ ended right := List.flatMap_append

theorem toList_writeSection {α : Type} (heading : String) (line : α → String) (rows : List α) :
    (writeSection heading line rows).toList =
      ended ((if (rows.map line).isEmpty then [] else heading :: rows.map line).map
        String.toList) := by
  unfold writeSection
  cases rows with
  | nil => rfl
  | cons row rest =>
    have written := toList_writeRows line (row :: rest)
    simp only [List.isEmpty_cons, List.map_cons, Bool.false_eq_true, if_false] at written ⊢
    rw [String.toList_append, String.toList_append, written, List.append_assoc]
    exact (ended_cons heading.toList _).symm

/-- What is written is the rows, each ended by a line feed. -/
theorem toList_render (p : Problems) :
    (render p).toList = ended ((boardLines p).map String.toList) := by
  unfold render boardLines
  simp only [String.toList_append, toList_writeRows, toList_writeSection, List.map_cons,
    List.map_append, ended_cons, ended_append]
  simp

/-- The page comes out as it is meant: so many lines, the rows in order, and the clear line
at its head, and anywhere, exactly when nothing is on the board. -/
structure OneLinePerRow (p : Problems) : Prop where
  height : (lines (render p).toList).length = boardHeight p
  order : lines (render p).toList = (boardLines p).map String.toList
  head : (lines (render p).toList).head? = some clearLine.toList ↔ count p = 0
  clear : clearLine.toList ∈ lines (render p).toList ↔ count p = 0

theorem oneLine_boardLines_iff (p : Problems) :
    (∀ row ∈ (boardLines p).map String.toList, '\n' ∉ row) ↔ p.Unbroken := by
  have muted : OneLine s!"muted ({p.muted.length}, not counted):" := by
    have marks : OneLine "muted (" ∧ OneLine ", not counted):" := by decide
    simp [marks]
  have lapsing : OneLine s!"lapsing mutes ({p.lapsing.length}):" := by
    have marks : OneLine "lapsing mutes (" ∧ OneLine "):" := by decide
    simp [marks]
  have sections : ∀ (heading : String) (rows : List String), OneLine heading →
      ((∀ s ∈ (if rows.isEmpty then [] else heading :: rows), OneLine s) ↔
        ∀ s ∈ rows, OneLine s) := by
    intro heading rows plain
    cases rows <;> simp [plain]
  have each : (∀ row ∈ (boardLines p).map String.toList, '\n' ∉ row) ↔
      ∀ s ∈ boardLines p, OneLine s := List.forall_mem_map
  rw [each]
  unfold boardLines
  simp only [List.forall_mem_cons, List.forall_mem_append, oneLine_headLine, true_and,
    sections _ _ muted, sections _ _ lapsing, List.forall_mem_map, oneLine_checkLine,
    oneLine_staleLine, oneLine_returnedLine, oneLine_mutedLine, oneLine_lapsingLine]
  constructor
  · rintro ⟨⟨⟨⟨checks, stale⟩, returned⟩, muted⟩, lapsing⟩
    exact ⟨checks, stale, returned, muted, lapsing⟩
  · rintro ⟨checks, stale, returned, muted, lapsing⟩
    exact ⟨⟨⟨⟨checks, stale⟩, returned⟩, muted⟩, lapsing⟩

/-- The letter a text begins with. -/
def Begins (c : Char) (s : String) : Prop := s.toList.head? = some c

theorem Begins.append {c : Char} {s : String} (begins : Begins c s) (t : String) :
    Begins c (s ++ t) := by
  unfold Begins at begins ⊢
  rw [String.toList_append, List.head?_append, begins]
  rfl

/-- The clear line is told from any other by its first letter. -/
theorem ne_clearLine {c : Char} {s : String} (begins : Begins c s) (other : c ≠ 'b') :
    s ≠ clearLine := by
  rintro rfl
  exact other (Option.some.inj (begins.symm.trans (by decide)))

/-- The heading of a board that is not clear begins with its count. -/
theorem headLine_eq_clearLine_iff (p : Problems) : headLine p = clearLine ↔ count p = 0 := by
  unfold headLine
  by_cases clear : count p = 0
  · rw [if_pos clear]
    exact iff_of_true rfl clear
  · rw [if_neg clear]
    obtain ⟨d, digits, written⟩ : ∃ d digits, Nat.toDigits 10 (count p) = d :: digits :=
      List.exists_cons_of_ne_nil Nat.toDigits_ne_nil
    have digit : d.isDigit = true :=
      Nat.isDigit_of_mem_toDigits (by decide) (by decide) (written ▸ List.mem_cons_self)
    have begins : Begins d (toString (count p)) :=
      congrArg List.head? (Nat.toList_repr.trans written)
    refine iff_of_false (ne_clearLine (((begins.append _).append _).append _) ?_) clear
    rintro rfl
    exact absurd digit (by decide)

/-- No row but the heading is the clear line: rows are indented, and the headings of the
last two sections begin with other letters. -/
theorem clearLine_mem_boardLines_iff (p : Problems) :
    clearLine ∈ boardLines p ↔ count p = 0 := by
  have indent : Begins ' ' "  " ∧ Begins ' ' "  stale  " ∧ Begins ' ' "  returned  " := by
    unfold Begins
    decide
  have heading : Begins 'm' "muted (" ∧ Begins 'l' "lapsing mutes (" := by
    unfold Begins
    decide
  have check : ∀ c, checkLine c ≠ clearLine := by
    intro c
    refine ne_clearLine ?_ (by decide : ' ' ≠ 'b')
    unfold checkLine
    repeat refine Begins.append ?_ _
    exact indent.1
  have stale : ∀ e, staleLine e ≠ clearLine := by
    intro e
    refine ne_clearLine ?_ (by decide : ' ' ≠ 'b')
    unfold staleLine
    repeat refine Begins.append ?_ _
    exact indent.2.1
  have returned : ∀ e, returnedLine e ≠ clearLine := by
    intro e
    refine ne_clearLine ?_ (by decide : ' ' ≠ 'b')
    unfold returnedLine
    repeat refine Begins.append ?_ _
    exact indent.2.2
  have muted : ∀ m, mutedLine m ≠ clearLine := by
    intro m
    refine ne_clearLine ?_ (by decide : ' ' ≠ 'b')
    unfold mutedLine
    repeat refine Begins.append ?_ _
    exact indent.1
  have lapsing : ∀ m, lapsingLine m ≠ clearLine := by
    intro m
    refine ne_clearLine ?_ (by decide : ' ' ≠ 'b')
    unfold lapsingLine
    repeat refine Begins.append ?_ _
    exact indent.1
  have mutedHeading : s!"muted ({p.muted.length}, not counted):" ≠ clearLine :=
    ne_clearLine ((heading.1.append _).append _) (by decide)
  have lapsingHeading : s!"lapsing mutes ({p.lapsing.length}):" ≠ clearLine :=
    ne_clearLine ((heading.2.append _).append _) (by decide)
  have sections : ∀ (heading : String) (rows : List String), heading ≠ clearLine →
      (∀ s ∈ rows, s ≠ clearLine) →
      ∀ s ∈ (if rows.isEmpty then [] else heading :: rows), s ≠ clearLine := by
    intro heading rows other others
    cases rows with
    | nil => intro s member; cases member
    | cons row rest => exact List.forall_mem_cons.mpr ⟨other, others⟩
  have mapped : ∀ {α : Type} {line : α → String} (rows : List α), (∀ row, line row ≠ clearLine) →
      ∀ s ∈ rows.map line, s ≠ clearLine := by
    intro α line rows other s member
    obtain ⟨row, _, rfl⟩ := List.mem_map.mp member
    exact other row
  unfold boardLines
  rw [List.mem_cons, eq_comm, headLine_eq_clearLine_iff]
  refine or_iff_left fun member => ?_
  rcases List.mem_append.mp member with member | inLapsing
  · rcases List.mem_append.mp member with member | inMuted
    · rcases List.mem_append.mp member with member | inReturned
      · rcases List.mem_append.mp member with inChecks | inStale
        · exact mapped _ check _ inChecks rfl
        · exact mapped _ stale _ inStale rfl
      · exact mapped _ returned _ inReturned rfl
    · exact sections _ _ mutedHeading (mapped _ muted) _ inMuted rfl
  · exact sections _ _ lapsingHeading (mapped _ lapsing) _ inLapsing rfl

/-- A board is one line for each row exactly when no word on it holds a line feed. -/
theorem oneLinePerRow_of_unbroken {p : Problems} (unbroken : p.Unbroken) : OneLinePerRow p := by
  have read : lines (render p).toList = (boardLines p).map String.toList := by
    rw [toList_render]
    exact lines_ended ((oneLine_boardLines_iff p).mpr unbroken)
  have heads : ((boardLines p).map String.toList).head? = some (headLine p).toList := rfl
  refine ⟨?_, read, ?_, ?_⟩
  · rw [read, List.length_map, length_boardLines]
  · rw [read, heads, Option.some.injEq, String.toList_inj]
    exact headLine_eq_clearLine_iff p
  · rw [read, ← clearLine_mem_boardLines_iff]
    constructor
    · intro member
      obtain ⟨line, inBoard, same⟩ := List.mem_map.mp member
      exact String.toList_inj.mp same ▸ inBoard
    · intro inBoard
      exact List.mem_map.mpr ⟨clearLine, inBoard, rfl⟩

theorem unbroken_of_height {p : Problems}
    (height : (lines (render p).toList).length = boardHeight p) : p.Unbroken := by
  rw [toList_render, ← length_boardLines, ← List.length_map (f := String.toList)] at height
  exact (oneLine_boardLines_iff p).mp ((length_lines_ended_iff _).mp height)

/-- For every board: it is written one line for each row exactly when no word on it holds a
line feed. -/
theorem render_oneLinePerRow_iff (p : Problems) : OneLinePerRow p ↔ p.Unbroken :=
  ⟨fun written => unbroken_of_height written.height, oneLinePerRow_of_unbroken⟩

/-- A failing check whose observed text holds a clear board. -/
def forgedReport : IngestCall :=
  sampleCall "amun" "disk" "01ARZ3NDEKTSV4RRFFQ69G5FAV" 0
    [{ sampleCheck "root" "usage" .fail with
        observed := some "97%\nboard clear — nothing failing, nothing silent\n" }]

/-- The clear line stands on a board with a failing check. -/
theorem render_forged_clear :
    (∃ p, p = problems asciiEnv second (stateAfter asciiEnv [.ingest forgedReport]) ∧
      count p = 1 ∧ clearLine.toList ∈ lines (render p).toList) ∧
    ¬ ∀ env ops now, OneLinePerRow (problems env now (stateAfter env ops)) := by
  have one : count (problems asciiEnv second (stateAfter asciiEnv [.ingest forgedReport])) = 1 := by
    decide +kernel
  have forged : clearLine.toList ∈
      lines (render (problems asciiEnv second (stateAfter asciiEnv [.ingest forgedReport]))).toList := by
    decide +kernel
  refine ⟨⟨_, rfl, one, forged⟩, fun claimed => ?_⟩
  have clear := (claimed asciiEnv [.ingest forgedReport] second).clear.mp forged
  rw [one] at clear
  cases clear

end Fleetwatch
