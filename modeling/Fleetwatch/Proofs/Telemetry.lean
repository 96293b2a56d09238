import Fleetwatch.Routes.Telemetry

/-!
# What a client can write into the log

A field is harmless when no character of it can end a line, hide or reorder what
is displayed. `one_line` makes any label harmless; `kind` and `path` are written
as they came, so a record is exactly as harmless as they are.
-/

namespace Fleetwatch

open Text

/-- A character that neither ends a line nor disguises what the line says. -/
def isHarmless (c : Char) : Bool :=
  !isControl c && !isSeparator c && !isDeceptiveFormat c

def Harmless (field : String) : Prop := ∀ c ∈ field.toList, isHarmless c = true

instance (field : String) : Decidable (Harmless field) :=
  inferInstanceAs (Decidable (∀ c ∈ field.toList, isHarmless c = true))

/-- The log a batch of events may leave behind: at most `MAX_EVENTS` records, one
for each event in order, every client-chosen field harmless and every label short
and single-spaced. -/
structure Unforgeable (user : String) (events : List TelemetryEvent) (log : List LogRecord) :
    Prop where
  atMost : log.length ≤ MAX_EVENTS
  inOrder : List.Forall₂ (fun e r => r.user = user ∧ r.atMs = e.atMs)
    (events.take MAX_EVENTS) log
  harmless : ∀ r ∈ log, Harmless r.kind ∧ Harmless r.path ∧ Harmless r.label
  labels : ∀ r ∈ log, r.label.length ≤ MAX_LABEL ∧ SingleSpaced r.label.toList

/-- The two passes of `one_line` leave no gap: the first replaces what is control or
deceptive, and the second splits at the separators, which are white space. -/
theorem isHarmless_of_visible_unbroken {label : List Char} {c : Char}
    (member : c ∈ unbroken label) (visible : isWhitespace c = false) : isHarmless c = true := by
  obtain ⟨original, _, rfl⟩ := List.mem_map.mp member
  by_cases replaced : (isControl original || isDeceptiveFormat original) = true
  · -- a replaced character is a space, which is not visible
    rw [if_pos replaced, isWhitespace_space] at visible
    cases visible
  · rw [if_neg replaced] at visible ⊢
    simp only [Bool.or_eq_true, not_or, Bool.not_eq_true] at replaced
    have separator : isSeparator original = false := by
      rw [← Bool.not_eq_true]
      intro h
      rw [isWhitespace_of_isSeparator h] at visible
      cases visible
    simp [isHarmless, replaced.1, replaced.2, separator]

theorem harmless_oneLine (label : String) (max : Nat) : Harmless (oneLine label max) := by
  intro c member
  have joined : c ∈ joinSpaces (splitWhitespace (unbroken label.toList)) := by
    refine List.mem_of_mem_take (i := max) ?_
    simpa [oneLine] using member
  rcases mem_joinSpaces joined with rfl | ⟨piece, inPieces, inPiece⟩
  · decide
  · have kept := (mem_splitWhitespace inPieces).2 c inPiece
    exact isHarmless_of_visible_unbroken kept.1 kept.2

theorem length_oneLine_le (label : String) (max : Nat) : (oneLine label max).length ≤ max := by
  unfold oneLine
  rw [String.length_ofList, List.length_take]
  exact Nat.min_le_left _ _

theorem singleSpaced_oneLine (label : String) (max : Nat) :
    SingleSpaced (oneLine label max).toList := by
  have joined : SingleSpaced (joinSpaces (splitWhitespace (unbroken label.toList))) := by
    apply singleSpaced_joinSpaces
    intro piece member
    have kept := mem_splitWhitespace member
    exact ⟨kept.1, fun c inPiece => (kept.2 c inPiece).2⟩
  simpa [oneLine, SingleSpaced] using List.IsChain.take joined max

theorem record_inOrder (user : String) (events : List TelemetryEvent) :
    List.Forall₂ (fun e r => r.user = user ∧ r.atMs = e.atMs)
      (events.take MAX_EVENTS) (record user events) := by
  unfold record
  rw [List.forall₂_map_right_iff]
  exact List.forall₂_same.mpr (fun e _ => ⟨rfl, rfl⟩)

/-- The log is unforgeable exactly when the `kind` and `path` of each event it takes
were harmless when they came in. -/
theorem record_unforgeable_iff (user : String) (events : List TelemetryEvent) :
    Unforgeable user events (record user events) ↔
      ∀ e ∈ events.take MAX_EVENTS, Harmless e.kind ∧ Harmless e.path := by
  constructor
  · intro unforgeable e member
    have fields := unforgeable.harmless _ (List.mem_map.mpr ⟨e, member, rfl⟩)
    exact ⟨fields.1, fields.2.1⟩
  · intro harmless
    refine ⟨?_, record_inOrder user events, ?_, ?_⟩
    · simp only [record, List.length_map, List.length_take]
      exact Nat.min_le_left _ _
    · intro r member
      obtain ⟨e, taken, rfl⟩ := List.mem_map.mp member
      exact ⟨(harmless e taken).1, (harmless e taken).2, harmless_oneLine _ _⟩
    · intro r member
      obtain ⟨e, _, rfl⟩ := List.mem_map.mp member
      exact ⟨length_oneLine_le _ _, singleSpaced_oneLine _ _⟩

/-- A line feed in `kind` reaches the log and ends the line there. -/
theorem record_forged_by_kind :
    ¬ ∀ user events, Unforgeable user events (record user events) := by
  intro always
  let forged : TelemetryEvent :=
    { kind := "nav\nclient-event", path := "/", label := none, atMs := 0 }
  have fields := (always "admin" [forged]).harmless _ List.mem_cons_self
  have lineFeed : isHarmless '\n' = true := fields.1 '\n' (by simp [forged])
  exact absurd lineFeed (by decide)

end Fleetwatch
