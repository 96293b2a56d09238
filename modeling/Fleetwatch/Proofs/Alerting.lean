import Fleetwatch.Android.Alerting
import Fleetwatch.Lib.JsonArray
import Mathlib.Data.Multiset.Basic

/-!
# The phone neither misses nor nags

A fingerprint stands for the multiset of the entries it was made of, whatever their fields
hold: the text of one entry can be split off whatever follows it. So the one string the
phone keeps says what it was last told, and a poll is quiet exactly about that.
-/

namespace Fleetwatch.Android

open Code Utf16

/-! ## Fingerprints -/

/-- An entry of a problem set. -/
inductive Entry where
  | check (source collector sect label verdict : KString)
  | stale (source collector : KString)
  | returned (source collector : KString)
  deriving DecidableEq

/-- The strings an entry is written as. -/
def Entry.fields : Entry → List KString
  | .check source collector sect label verdict => [source, collector, sect, label, verdict]
  | .stale source collector => [source, collector, utf16 "stale"]
  | .returned source collector => [source, collector, utf16 "returned"]

theorem fields_injective : Function.Injective Entry.fields := by
  have kinds : utf16 "stale" ≠ utf16 "returned" := by decide
  intro e e' same
  cases e <;> cases e' <;> simp only [Entry.fields, List.cons.injEq, and_true, and_false,
    List.nil_eq, List.cons_ne_nil] at same
  case check.check =>
    obtain ⟨rfl, rfl, rfl, rfl, rfl⟩ := same
    rfl
  case stale.stale | returned.returned =>
    obtain ⟨rfl, rfl⟩ := same
    rfl
  case stale.returned => exact absurd same.2.2 kinds
  case returned.stale => exact absurd same.2.2.symm kinds

instance : Nontrivial Entry := ⟨.stale [] [], .returned [] [], by simp⟩

namespace Problems

def entryList (p : Problems) : List Entry :=
  p.checks.map (fun it => .check it.source it.collector it.sect it.label it.verdict) ++
    p.stale.map (fun it => .stale it.source it.collector) ++
    p.returned.map (fun it => .returned it.source it.collector)

/-- The entries, in no order. -/
def entries (p : Problems) : Multiset Entry := p.entryList

theorem isEmpty_iff (p : Problems) : p.isEmpty = true ↔ p.entryList = [] := by
  unfold isEmpty entryList
  simp only [Bool.and_eq_true, List.isEmpty_iff, List.append_eq_nil_iff, List.map_eq_nil_iff]

end Problems

section

variable {jsonArray : List KString → KString} (self : SelfDelimiting jsonArray)

theorem fingerprint_eq (p : Problems) :
    p.fingerprint jsonArray =
      join (utf16 "|") (sorted (p.entryList.map (fun e => jsonArray e.fields))) := by
  unfold Problems.fingerprint Problems.entryList
  rw [List.map_append, List.map_append, List.map_map, List.map_map, List.map_map]
  rfl

include self

theorem selfDelimiting_entry : SelfDelimiting (fun e : Entry => jsonArray e.fields) :=
  self.comp fields_injective

/-- Two sets have one fingerprint exactly when they have the same entries. -/
theorem fingerprint_eq_iff (p q : Problems) :
    p.fingerprint jsonArray = q.fingerprint jsonArray ↔ p.entries = q.entries := by
  rw [fingerprint_eq, fingerprint_eq, (selfDelimiting_entry self).join_sorted_eq_iff]
  exact Multiset.coe_eq_coe.symm

/-- The empty mark is no set's but the empty one's. -/
theorem fingerprint_eq_nil_iff (p : Problems) :
    p.fingerprint jsonArray = [] ↔ p.isEmpty = true := by
  have nothing : (⟨[], [], []⟩ : Problems).fingerprint jsonArray = [] := rfl
  rw [← nothing, fingerprint_eq_iff self, Problems.isEmpty_iff]
  exact Multiset.coe_eq_zero _

/-! ## What the phone was told -/

omit self

/-- A delivery of a set of problems, or a clear. -/
inductive Told where
  | cleared
  | delivered (entries : Multiset Entry)

/-- What a poll tells, if it tells anything. -/
def toldBy (jsonArray : List KString → KString) (last : KString) (p : Poll) : Option Told :=
  match step jsonArray p.problems.notifiable last with
  | .clear => some .cleared
  | .quiet => none
  | .fire => if p.act .fire then some (.delivered p.problems.notifiable.entries) else none

/-- The deliveries and clears of a run, in order. -/
def tellings (jsonArray : List KString → KString) : KString → List Poll → List Told
  | _, [] => []
  | last, p :: polls =>
    (toldBy jsonArray last p).toList ++ tellings jsonArray (doWork jsonArray last p) polls

/-- The most recent of them in a run from the empty mark. -/
def lastTold (jsonArray : List KString → KString) (polls : List Poll) : Option Told :=
  (tellings jsonArray [] polls).getLast?

/-- The mark is the fingerprint of exactly the problem sets the phone was last told of. -/
def Shows (jsonArray : List KString → KString) (mark : KString) (told : Option Told) : Prop :=
  ∀ p : Problems, p.isEmpty = false →
    (p.fingerprint jsonArray = mark ↔ told = some (.delivered p.entries))

include self

theorem shows_nothing {told : Option Told}
    (untold : ∀ entries, told ≠ some (.delivered entries)) : Shows jsonArray [] told := by
  intro p problems
  rw [fingerprint_eq_nil_iff self, problems]
  exact iff_of_false Bool.false_ne_true (untold p.entries)

/-- One poll keeps the mark in step with what was told. -/
theorem shows_doWork {last : KString} {told : Option Told} (shows : Shows jsonArray last told)
    (p : Poll) :
    Shows jsonArray (doWork jsonArray last p) ((toldBy jsonArray last p).or told) := by
  unfold doWork poll toldBy
  cases taken : step jsonArray p.problems.notifiable last with
  | clear =>
    have empty : p.problems.notifiable.isEmpty = true := by
      unfold step at taken
      split at taken
      · assumption
      · split at taken <;> cases taken
    have nothing := (fingerprint_eq_nil_iff self _).mpr empty
    simp only [remembered, nothing, Option.some_or]
    exact shows_nothing self (by simp)
  | quiet => exact shows
  | fire =>
    cases delivered : p.act .fire with
    | false => simpa [remembered, delivered] using shows
    | true =>
      intro q problems
      simp only [remembered, delivered, if_true, Option.some_or, Option.some.injEq,
        Told.delivered.injEq]
      rw [fingerprint_eq_iff self]
      exact eq_comm

/-- So does a run of polls. -/
theorem shows_run {last : KString} {told : Option Told} (shows : Shows jsonArray last told)
    (polls : List Poll) :
    Shows jsonArray (Run.run (doWork jsonArray) last polls)
      ((tellings jsonArray last polls).getLast?.or told) := by
  induction polls generalizing last told with
  | nil => exact shows
  | cons p polls ih =>
    have later := ih (shows_doWork self shows p)
    rw [tellings, List.getLast?_append, Option.or_assoc]
    have one : (toldBy jsonArray last p).toList.getLast? = toldBy jsonArray last p := by
      cases toldBy jsonArray last p <;> rfl
    rw [one]
    exact later

end

/-! ## The law -/

/-- What a poll does, by what the phone was last told. -/
structure Announces (jsonArray : List KString → KString) (polls : List Poll) (alerting : Problems) :
    Prop where
  clear : alerting.isEmpty = true → step jsonArray alerting (markAfter jsonArray polls) = .clear
  quiet : alerting.isEmpty = false →
    (step jsonArray alerting (markAfter jsonArray polls) = .quiet ↔
      lastTold jsonArray polls = some (.delivered alerting.entries))
  fire : alerting.isEmpty = false →
    (step jsonArray alerting (markAfter jsonArray polls) = .fire ↔
      lastTold jsonArray polls ≠ some (.delivered alerting.entries))

/-- Fingerprints tell problem sets apart by their entries alone; and in every run of polls,
each told or not, the next one is quiet exactly when the last thing the phone was told is
the set it would tell. -/
theorem alerting_law {jsonArray : List KString → KString} (self : SelfDelimiting jsonArray) :
    (∀ p q : Problems, p.fingerprint jsonArray = q.fingerprint jsonArray ↔ p.entries = q.entries) ∧
    ∀ (polls : List Poll) (problems : Problems), Announces jsonArray polls problems.notifiable := by
  refine ⟨fingerprint_eq_iff self, ?_⟩
  intro polls problems
  have shows : Shows jsonArray (markAfter jsonArray polls) (lastTold jsonArray polls) := by
    have run := shows_run self (shows_nothing self (fun _ => by simp) : Shows jsonArray [] none) polls
    rwa [Option.or_none] at run
  constructor
  case clear =>
    intro empty
    unfold step
    rw [if_pos empty]
  case quiet =>
    intro filled
    unfold step
    rw [if_neg (by simp [filled]), ← shows problems.notifiable filled]
    split <;> simp_all
  case fire =>
    intro filled
    unfold step
    rw [if_neg (by simp [filled]), ne_eq, ← shows problems.notifiable filled]
    split <;> simp_all

/-- One failing build. -/
def failingBuild : Problems where
  checks :=
    [{ source := utf16 "mac-mini", collector := utf16 "ci-status", sect := utf16 "builds",
       label := utf16 "mem|view\"", verdict := utf16 "fail", observed := none, confirmed := true }]
  stale := []
  returned := []

/-- Three polls that cannot post, and one that can. -/
def deniedThrice : List Poll :=
  [⟨failingBuild, fun _ => false⟩, ⟨failingBuild, fun _ => false⟩, ⟨failingBuild, fun _ => false⟩,
    ⟨failingBuild, fun _ => true⟩]

theorem alerting_law_deniedThrice :
    step JsonArray.jsonArray failingBuild.notifiable (markAfter JsonArray.jsonArray deniedThrice) =
      .quiet := by
  have told : lastTold JsonArray.jsonArray deniedThrice =
      some (.delivered failingBuild.notifiable.entries) := rfl
  exact (((alerting_law JsonArray.selfDelimiting_jsonArray).2 deniedThrice failingBuild).quiet
    rfl).mpr told

end Fleetwatch.Android
