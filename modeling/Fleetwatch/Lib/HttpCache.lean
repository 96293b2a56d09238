import Fleetwatch.Lib.Run

/-!
# A cache that asks again

A client looks keys up at an origin that is replaced from time to time. An answer may say
that it can be kept; its copy is then shown without a question. Any other copy is asked for
again under its tag, and the origin says that it has not changed or sends it anew. A copy can
be lost, and a client may ask where it need not.
-/

namespace Fleetwatch.HttpCache

open Run

variable {K V T : Type}

/-- What an origin has for a key. -/
structure Resource (V T : Type) where
  value : V
  keep : Bool
  tag : Option T

abbrev Origin (K V T : Type) := K → Resource V T

/-- What is sent for a question. -/
inductive Sent (V T : Type) where
  | full (resource : Resource V T)
  | notModified (keep : Bool)

abbrev Copies (K V T : Type) := K → Option (Resource V T)

section

variable [DecidableEq K] [DecidableEq T]

/-- The reply to a question under a tag, or under none. -/
def sends (origin : Origin K V T) (k : K) : Option T → Sent V T
  | none => .full (origin k)
  | some t => if (origin k).tag = some t then .notModified (origin k).keep else .full (origin k)

/-- What a client shows, and the copy it has then. -/
def received (copy : Option (Resource V T)) : Sent V T → Option (Resource V T)
  | .full resource => some resource
  | .notModified keep => copy.map (fun a => { a with keep })

/-- The copy a client has after a look at a key: its own where that can be kept, unless it asks
`again`. -/
def look (ask : Option T → Sent V T) (again : Bool) (copy : Option (Resource V T)) :
    Option (Resource V T) :=
  match copy with
  | some a => if a.keep ∧ again = false then some a else received (some a) (ask a.tag)
  | none => received none (ask none)

/-- A client and the origin it asks. -/
structure Client (K V T : Type) where
  origin : Origin K V T
  copies : Copies K V T

inductive Event (K V T : Type) where
  | replace (origin : Origin K V T)
  | load (k : K) (again : Bool)
  | lose (k : K)

def step (c : Client K V T) : Event K V T → Client K V T
  | .replace origin => { c with origin }
  | .load k again =>
    { c with copies := Function.update c.copies k (look (sends c.origin k) again (c.copies k)) }
  | .lose k => { c with copies := Function.update c.copies k none }

/-- What a load shows. -/
def shown (c : Client K V T) (k : K) (again : Bool) : Option V :=
  (look (sends c.origin k) again (c.copies k)).map Resource.value

end

/-! ## Where a copy comes from -/

/-- A tag stands for one value of its key, whichever of the origins gives it. -/
def Honest (origins : Origin K V T → Prop) : Prop :=
  ∀ o, origins o → ∀ o', origins o' → ∀ k t, (o k).tag = some t → (o' k).tag = some t →
    (o k).value = (o' k).value

/-- A copy is some origin's answer, and one that can be kept is one an origin let be kept. -/
structure Traced (origins : Origin K V T → Prop) (k : K) (a : Resource V T) : Prop where
  sent : ∃ o, origins o ∧ (o k).value = a.value ∧ (o k).tag = a.tag
  kept : a.keep = true → ∃ o, origins o ∧ (o k).value = a.value ∧ (o k).keep = true

theorem traced_resource {origins : Origin K V T → Prop} {o : Origin K V T} (is : origins o) (k : K) :
    Traced origins k (o k) :=
  ⟨⟨o, is, rfl, rfl⟩, fun keep => ⟨o, is, rfl, keep⟩⟩

section

variable [DecidableEq T] {origins : Origin K V T → Prop}

/-- A look shows what the origin has now, or a copy that an origin let be kept. -/
theorem look_cases (honest : Honest origins) {origin : Origin K V T} (is : origins origin)
    {k : K} {copy : Option (Resource V T)} (traced : ∀ a, copy = some a → Traced origins k a)
    (again : Bool) :
    ∃ a, look (sends origin k) again copy = some a ∧ Traced origins k a ∧
      (a.value = (origin k).value ∨ ∃ o, origins o ∧ (o k).value = a.value ∧ (o k).keep = true) := by
  cases copy with
  | none => exact ⟨origin k, rfl, traced_resource is k, Or.inl rfl⟩
  | some a =>
    have known := traced a rfl
    unfold look
    dsimp only
    split
    · rename_i kept
      exact ⟨a, rfl, known, Or.inr (known.kept kept.1)⟩
    · cases tag : a.tag with
      | none => exact ⟨origin k, rfl, traced_resource is k, Or.inl rfl⟩
      | some t =>
        unfold sends
        dsimp only
        split
        · rename_i unchanged
          -- the origin names the copy's own tag, so the copy is what it would have sent
          obtain ⟨o, earlier, value, named⟩ := known.sent
          have same : a.value = (origin k).value := by
            rw [← value]
            exact honest o earlier origin is k t (named.trans tag) unchanged
          refine ⟨{ a with keep := (origin k).keep }, rfl, ?_, Or.inl same⟩
          exact ⟨⟨o, earlier, value, named⟩, fun keep => ⟨origin, is, same.symm, keep⟩⟩
        · exact ⟨origin k, rfl, traced_resource is k, Or.inl rfl⟩

variable [DecidableEq K]

/-- What a client may have. -/
structure Sound (origins : Origin K V T → Prop) (c : Client K V T) : Prop where
  origin : origins c.origin
  copies : ∀ k a, c.copies k = some a → Traced origins k a

theorem sound_step (honest : Honest origins) {c : Client K V T} (sound : Sound origins c)
    {e : Event K V T} (permitted : ∀ o, e = .replace o → origins o) : Sound origins (step c e) := by
  cases e with
  | replace origin => exact ⟨permitted origin rfl, sound.copies⟩
  | load k again =>
    refine ⟨sound.origin, ?_⟩
    intro k' a copy
    obtain ⟨b, looked, known, -⟩ := look_cases honest sound.origin (sound.copies k) again
    unfold step at copy
    dsimp only at copy
    rw [looked] at copy
    by_cases same : k' = k
    · subst same
      rw [Function.update_self] at copy
      obtain rfl := Option.some.inj copy
      exact known
    · rw [Function.update_of_ne same] at copy
      exact sound.copies k' a copy
  | lose k =>
    refine ⟨sound.origin, ?_⟩
    intro k' a copy
    unfold step at copy
    dsimp only at copy
    by_cases same : k' = k
    · subst same
      rw [Function.update_self] at copy
      cases copy
    · rw [Function.update_of_ne same] at copy
      exact sound.copies k' a copy

theorem sound_run (honest : Honest origins) {start : Origin K V T} (is : origins start)
    {events : List (Event K V T)} (permitted : ∀ e ∈ events, ∀ o, e = .replace o → origins o) :
    Sound origins (run step ⟨start, fun _ => none⟩ events) :=
  @run_invariant _ _ _ (fun e => ∀ o, e = .replace o → origins o) (Sound origins)
    (fun _ _ allowed sound => sound_step honest sound allowed) events _ permitted
    ⟨is, fun _ _ absent => nomatch absent⟩

/-- After any run, a load shows what the origin of that moment has for the key, or what one of
the origins had for it and let be kept. -/
theorem shown_run (honest : Honest origins) {start : Origin K V T} (is : origins start)
    {events : List (Event K V T)} (permitted : ∀ e ∈ events, ∀ o, e = .replace o → origins o)
    (k : K) (again : Bool) :
    ∃ value, shown (run step ⟨start, fun _ => none⟩ events) k again = some value ∧
      (value = ((run step ⟨start, fun _ => none⟩ events).origin k).value ∨
        ∃ o, origins o ∧ value = (o k).value ∧ (o k).keep = true) := by
  have sound := sound_run honest is permitted
  obtain ⟨a, looked, -, from'⟩ := look_cases honest sound.origin (sound.copies k) again
  refine ⟨a.value, by rw [shown, looked]; rfl, ?_⟩
  rcases from' with now | ⟨o, origin, value, keep⟩
  · exact Or.inl now
  · exact Or.inr ⟨o, origin, value.symm, keep⟩

end

end Fleetwatch.HttpCache
