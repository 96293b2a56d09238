import Mathlib.Tactic.Common

/-!
# Runs of a transition system

A system is a total step function over its operations. A run is a list of them,
and a state is reachable when some run of permitted operations ends in it. The
invariant rule is proved here once; a safety property of a system is then one
lemma about the initial state and one about a single step.
-/

namespace Fleetwatch.Run

variable {σ ι : Type}

/-- The state a run ends in. -/
def run (step : σ → ι → σ) (start : σ) (ops : List ι) : σ :=
  ops.foldl step start

/-- The states some run of permitted operations ends in. -/
def Reachable (step : σ → ι → σ) (permitted : ι → Prop) (start state : σ) : Prop :=
  ∃ ops, (∀ op ∈ ops, permitted op) ∧ run step start ops = state

@[simp] theorem run_nil (step : σ → ι → σ) (start : σ) : run step start [] = start := rfl

@[simp] theorem run_cons (step : σ → ι → σ) (start : σ) (op : ι) (ops : List ι) :
    run step start (op :: ops) = run step (step start op) ops := rfl

theorem run_append (step : σ → ι → σ) (start : σ) (first second : List ι) :
    run step start (first ++ second) = run step (run step start first) second :=
  List.foldl_append

/-- The invariant rule over a run: what each permitted step preserves, the run
preserves. -/
theorem run_invariant {step : σ → ι → σ} {permitted : ι → Prop} (inv : σ → Prop)
    (preserved : ∀ state op, permitted op → inv state → inv (step state op)) :
    ∀ (ops : List ι) (start : σ), (∀ op ∈ ops, permitted op) → inv start →
      inv (run step start ops) := by
  intro ops
  induction ops with
  | nil => intro start _ holds; exact holds
  | cons op ops ih =>
    intro start allowed holds
    apply ih
    · intro other member
      exact allowed other (List.mem_cons_of_mem _ member)
    · exact preserved start op (allowed op List.mem_cons_self) holds

/-- The simulation rule: a relation two systems keep under each permitted operation holds
between the states one run leads them to. -/
theorem run_simulation_permitted {τ : Type} {step : σ → ι → σ} {step' : τ → ι → τ}
    {permitted : ι → Prop} (related : σ → τ → Prop)
    (preserved : ∀ state state' op, permitted op → related state state' →
      related (step state op) (step' state' op)) :
    ∀ (ops : List ι) (start : σ) (start' : τ), (∀ op ∈ ops, permitted op) →
      related start start' → related (run step start ops) (run step' start' ops) := by
  intro ops
  induction ops with
  | nil => intro start start' _ initially; exact initially
  | cons op ops ih =>
    intro start start' allowed initially
    apply ih
    · intro other member
      exact allowed other (List.mem_cons_of_mem _ member)
    · exact preserved start start' op (allowed op List.mem_cons_self) initially

/-- The rule where every operation is permitted. -/
theorem run_simulation {τ : Type} {step : σ → ι → σ} {step' : τ → ι → τ} (related : σ → τ → Prop)
    (preserved : ∀ state state' op, related state state' →
      related (step state op) (step' state' op))
    (ops : List ι) (start : σ) (start' : τ) (initially : related start start') :
    related (run step start ops) (run step' start' ops) :=
  run_simulation_permitted related (fun state state' op (_ : True) => preserved state state' op)
    ops start start' (fun _ _ => trivial) initially

theorem Reachable.refl {step : σ → ι → σ} {permitted : ι → Prop} {start : σ} :
    Reachable step permitted start start :=
  ⟨[], by simp, rfl⟩

end Fleetwatch.Run
