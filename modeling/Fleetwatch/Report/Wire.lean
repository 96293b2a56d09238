import Fleetwatch.Lib.Json
import Fleetwatch.Report.Types

/-!
# The wire shape of the problems view

What `Serialize` and `Deserialize` derive for the types of `src/report/types.rs` that
`GET /api/problems` is made of: a `struct` is an object of its fields, `doc_ref` goes by
`ref`, an enum is the name of its variant in snake case, and an absent value is `null`.
A field the type does not have is skipped, an `Option` may be missing. The other spellings
`serde` would read (a struct as an array of its values) are left out: nothing writes them.
How a `DateTime<Utc>` is spelled is `chrono`'s; its codec is a parameter.
-/

namespace Fleetwatch

open Codec

/-! ## Enums -/

def Verdict.name : Verdict → String
  | .pass => "pass"
  | .warn => "warn"
  | .fail => "fail"
  | .skip => "skip"

def Freshness.name : Freshness → String
  | .fresh => "fresh"
  | .overdue => "overdue"
  | .silent => "silent"

def verdictCodec : Codec Verdict :=
  variant Verdict.name [.pass, .warn, .fail, .skip] (by rintro (_ | _ | _ | _) <;> decide)

def freshnessCodec : Codec Freshness :=
  variant Freshness.name [.fresh, .overdue, .silent] (by rintro (_ | _ | _) <;> decide)

/-! ## Structs -/

def optionString : Codec (Option String) := option string (fun _ null => by cases null)

def optionU64 : Codec (Option UInt64) := option u64 (fun _ null => by cases null)

/-- The codec of the instants, whose spelling is never `null`. Canonical are those a
`DateTime<Utc>` holds. -/
structure InstantCodec extends Codec Int where
  filled : ∀ t, write t ≠ .null

section Structs

variable (instant : InstantCodec)

def optionInstant : Codec (Option Int) := option instant.toCodec instant.filled

def overviewEntryFields : Fields OverviewEntry OverviewEntry :=
  Fields.start OverviewEntry.mk
    |>.required "source" string (·.source)
    |>.required "collector" string (·.collector)
    |>.required "report_id" string (·.reportId)
    |>.required "collected_at" instant.toCodec (·.collectedAt)
    |>.required "age_s" i64 (·.ageS)
    |>.optional "interval_s" optionU64 (·.intervalS)
    |>.required "freshness" freshnessCodec (·.freshness)
    |>.required "worst" verdictCodec (·.worst)
    |>.required "pass" u32 (·.pass)
    |>.required "warn" u32 (·.warn)
    |>.required "fail" u32 (·.fail)
    |>.required "skip" u32 (·.skip)
    |>.required "muted" u32 (·.muted)
    |>.required "total" u32 (·.total)

def problemCheckFields : Fields ProblemCheck ProblemCheck :=
  Fields.start ProblemCheck.mk
    |>.required "source" string (·.source)
    |>.required "collector" string (·.collector)
    |>.required "report_id" string (·.reportId)
    |>.required "section" string (·.sect)
    |>.required "label" string (·.label)
    |>.optional "subject" optionString (·.subject)
    |>.required "verdict" verdictCodec (·.verdict)
    |>.optional "observed" optionString (·.observed)
    |>.optional "expected" optionString (·.expected)
    |>.optional "ref" optionString (·.docRef)
    |>.optional "detail" optionString (·.detail)
    |>.required "collected_at" instant.toCodec (·.collectedAt)
    |>.optional "first_seen" (optionInstant instant) (·.firstSeen)
    |>.required "confirmed" bool (·.confirmed)

def mutedCheckFields : Fields MutedCheck MutedCheck :=
  Fields.start MutedCheck.mk
    |>.required "source" string (·.source)
    |>.required "collector" string (·.collector)
    |>.required "report_id" string (·.reportId)
    |>.required "section" string (·.sect)
    |>.required "label" string (·.label)
    |>.optional "subject" optionString (·.subject)
    |>.required "verdict" verdictCodec (·.verdict)
    |>.optional "observed" optionString (·.observed)
    |>.optional "ref" optionString (·.docRef)
    |>.optional "detail" optionString (·.detail)
    |>.required "collected_at" instant.toCodec (·.collectedAt)
    |>.required "mute_id" string (·.muteId)
    |>.required "reason" string (·.reason)
    |>.required "expires_at" instant.toCodec (·.expiresAt)

def muteFields : Fields Mute Mute :=
  Fields.start Mute.mk
    |>.required "id" string (·.id)
    |>.required "source" string (·.source)
    |>.required "collector" string (·.collector)
    |>.required "label" string (·.label)
    |>.required "reason" string (·.reason)
    |>.required "created_by" string (·.createdBy)
    |>.required "created_at" instant.toCodec (·.createdAt)
    |>.required "expires_at" instant.toCodec (·.expiresAt)

/-! ## What is written -/

theorem overviewEntryFields_write (e : OverviewEntry) : (overviewEntryFields instant).write e =
    [("source", .str e.source),
      ("collector", .str e.collector),
      ("report_id", .str e.reportId),
      ("collected_at", instant.write e.collectedAt),
      ("age_s", i64.write e.ageS),
      ("interval_s", optionU64.write e.intervalS),
      ("freshness", .str e.freshness.name),
      ("worst", .str e.worst.name),
      ("pass", u32.write e.pass),
      ("warn", u32.write e.warn),
      ("fail", u32.write e.fail),
      ("skip", u32.write e.skip),
      ("muted", u32.write e.muted),
      ("total", u32.write e.total)] := rfl

theorem problemCheckFields_write (c : ProblemCheck) : (problemCheckFields instant).write c =
    [("source", .str c.source),
      ("collector", .str c.collector),
      ("report_id", .str c.reportId),
      ("section", .str c.sect),
      ("label", .str c.label),
      ("subject", optionString.write c.subject),
      ("verdict", .str c.verdict.name),
      ("observed", optionString.write c.observed),
      ("expected", optionString.write c.expected),
      ("ref", optionString.write c.docRef),
      ("detail", optionString.write c.detail),
      ("collected_at", instant.write c.collectedAt),
      ("first_seen", (optionInstant instant).write c.firstSeen),
      ("confirmed", .bool c.confirmed)] := rfl

theorem overviewEntryFields_distinct : (overviewEntryFields instant).names.Nodup := by
  show List.Nodup ["source", "collector", "report_id", "collected_at", "age_s", "interval_s",
    "freshness", "worst", "pass", "warn", "fail", "skip", "muted", "total"]
  decide

theorem problemCheckFields_distinct : (problemCheckFields instant).names.Nodup := by
  show List.Nodup ["source", "collector", "report_id", "section", "label", "subject", "verdict",
    "observed", "expected", "ref", "detail", "collected_at", "first_seen", "confirmed"]
  decide

theorem mutedCheckFields_distinct : (mutedCheckFields instant).names.Nodup := by
  show List.Nodup ["source", "collector", "report_id", "section", "label", "subject", "verdict",
    "observed", "ref", "detail", "collected_at", "mute_id", "reason", "expires_at"]
  decide

theorem muteFields_distinct : (muteFields instant).names.Nodup := by
  show List.Nodup ["id", "source", "collector", "label", "reason", "created_by", "created_at",
    "expires_at"]
  decide

def overviewEntryCodec : Codec OverviewEntry :=
  (overviewEntryFields instant).object (overviewEntryFields_distinct instant) (fun _ => rfl)

def problemCheckCodec : Codec ProblemCheck :=
  (problemCheckFields instant).object (problemCheckFields_distinct instant) (fun _ => rfl)

def mutedCheckCodec : Codec MutedCheck :=
  (mutedCheckFields instant).object (mutedCheckFields_distinct instant) (fun _ => rfl)

def muteCodec : Codec Mute :=
  (muteFields instant).object (muteFields_distinct instant) (fun _ => rfl)

def problemsFields : Fields Problems Problems :=
  Fields.start Problems.mk
    |>.required "checks" (list (problemCheckCodec instant)) (·.checks)
    |>.required "muted" (list (mutedCheckCodec instant)) (·.muted)
    |>.required "stale" (list (overviewEntryCodec instant)) (·.stale)
    |>.required "lapsing" (list (muteCodec instant)) (·.lapsing)
    |>.required "returned" (list (overviewEntryCodec instant)) (·.returned)

theorem problemsFields_write (p : Problems) : (problemsFields instant).write p =
    [("checks", .arr ((p.checks.map (problemCheckFields instant).write).map .obj)),
      ("muted", .arr ((p.muted.map (mutedCheckFields instant).write).map .obj)),
      ("stale", .arr ((p.stale.map (overviewEntryFields instant).write).map .obj)),
      ("lapsing", .arr ((p.lapsing.map (muteFields instant).write).map .obj)),
      ("returned", .arr ((p.returned.map (overviewEntryFields instant).write).map .obj))] := by
  simp only [List.map_map]
  rfl

theorem problemsFields_distinct : (problemsFields instant).names.Nodup := by
  show List.Nodup ["checks", "muted", "stale", "lapsing", "returned"]
  decide

def problemsCodec : Codec Problems :=
  (problemsFields instant).object (problemsFields_distinct instant) (fun _ => rfl)

/-! ## What can be written -/

/-- The counters of an entry fit a `u32`, its instant a `DateTime<Utc>`. -/
def OverviewEntry.Fits (e : OverviewEntry) : Prop :=
  instant.canonical e.collectedAt ∧ e.pass < 2 ^ 32 ∧ e.warn < 2 ^ 32 ∧ e.fail < 2 ^ 32 ∧
    e.skip < 2 ^ 32 ∧ e.muted < 2 ^ 32 ∧ e.total < 2 ^ 32

/-- The view is a value of the source's `Problems`, whose numbers have bounds. -/
structure Problems.Fits (p : Problems) : Prop where
  checks : ∀ c ∈ p.checks, instant.canonical c.collectedAt ∧
    ∀ t, c.firstSeen = some t → instant.canonical t
  muted : ∀ c ∈ p.muted, instant.canonical c.collectedAt ∧ instant.canonical c.expiresAt
  stale : ∀ e ∈ p.stale, e.Fits instant
  lapsing : ∀ m ∈ p.lapsing, instant.canonical m.createdAt ∧ instant.canonical m.expiresAt
  returned : ∀ e ∈ p.returned, e.Fits instant

theorem canonical_overviewEntry (e : OverviewEntry) :
    (overviewEntryCodec instant).canonical e ↔ e.Fits instant := by
  simp [overviewEntryCodec, overviewEntryFields, optionU64, freshnessCodec, verdictCodec,
    OverviewEntry.Fits, and_assoc]

theorem canonical_problemCheck (c : ProblemCheck) :
    (problemCheckCodec instant).canonical c ↔ instant.canonical c.collectedAt ∧
      ∀ t, c.firstSeen = some t → instant.canonical t := by
  simp [problemCheckCodec, problemCheckFields, optionString, optionInstant, verdictCodec]

theorem canonical_mutedCheck (c : MutedCheck) :
    (mutedCheckCodec instant).canonical c ↔
      instant.canonical c.collectedAt ∧ instant.canonical c.expiresAt := by
  simp [mutedCheckCodec, mutedCheckFields, optionString, verdictCodec]

theorem canonical_mute (m : Mute) :
    (muteCodec instant).canonical m ↔
      instant.canonical m.createdAt ∧ instant.canonical m.expiresAt := by
  simp [muteCodec, muteFields]

/-- The codec reads back every value of the type. -/
theorem canonical_problems (p : Problems) (fits : p.Fits instant) :
    (problemsCodec instant).canonical p := by
  simp only [problemsCodec, problemsFields, Fields.canonical_object, Fields.canonical_required,
    Fields.canonical_start, canonical_list, canonical_overviewEntry, canonical_problemCheck,
    canonical_mutedCheck, canonical_mute]
  exact ⟨⟨⟨⟨⟨trivial, fits.checks⟩, fits.muted⟩, fits.stale⟩, fits.lapsing⟩, fits.returned⟩

end Structs

end Fleetwatch
