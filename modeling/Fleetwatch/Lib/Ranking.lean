import Mathlib.Data.List.Induction
import Mathlib.Data.List.Nodup
import Mathlib.Logic.Function.Basic
import Mathlib.Order.Lattice
import Mathlib.Tactic.Common

/-!
# The greatest item of each group

Items are grouped by `part` and compared by `rank` in a linear order. `leaders` is
the window function of SQL, the rows a `ROW_NUMBER() OVER (PARTITION BY part ORDER
BY rank DESC)` numbers 1; `keepGreatest` is the map one pass over the items builds.
-/

namespace Fleetwatch.Ranking

variable {α κ ρ : Type} [DecidableEq κ] [LinearOrder ρ]

/-- The items no other item of their group outranks. Items that tie for the first
place are all kept; a rank that ends in a unique id has none. -/
def leaders (part : α → κ) (rank : α → ρ) (items : List α) : List α :=
  items.filter (fun item => items.all (fun other => part other ≠ part item ∨ rank other ≤ rank item))

/-- One step of the pass: an item replaces the kept one of its group when it ranks
strictly higher. -/
def keep (part : α → κ) (rank : α → ρ) (kept : κ → Option α) (item : α) : κ → Option α :=
  Function.update kept (part item) <|
    match kept (part item) with
    | none => some item
    | some current => if rank current < rank item then some item else some current

/-- The map from each group to its greatest item, the first one met. -/
def keepGreatest (part : α → κ) (rank : α → ρ) (items : List α) : κ → Option α :=
  items.foldl (keep part rank) (fun _ => none)

section

variable {part : α → κ} {rank : α → ρ} {items : List α}

theorem mem_leaders {item : α} :
    item ∈ leaders part rank items ↔
      item ∈ items ∧ ∀ other ∈ items, part other = part item → rank other ≤ rank item := by
  unfold leaders
  rw [List.mem_filter, List.all_eq_true]
  refine and_congr_right (fun _ => ?_)
  refine forall_congr' fun other => forall_congr' fun _ => ?_
  rw [decide_eq_true_iff, ne_eq, ← imp_iff_not_or]

/-- What changes neither group nor rank changes no leader. -/
theorem map_leaders {f : α → α} (sameGroup : ∀ item, part (f item) = part item)
    (sameRank : ∀ item, rank (f item) = rank item) (items : List α) :
    (leaders part rank items).map f = leaders part rank (items.map f) := by
  unfold leaders
  rw [List.filter_map]
  congr 1
  apply List.filter_congr
  intro item _
  rw [Function.comp_apply, List.all_map]
  simp only [Function.comp_def, sameGroup, sameRank]

theorem keepGreatest_append_singleton (items : List α) (last : α) :
    keepGreatest part rank (items ++ [last]) = keep part rank (keepGreatest part rank items) last := by
  simp [keepGreatest]

theorem keep_of_ne {kept : κ → Option α} {item : α} {k : κ} (other : k ≠ part item) :
    keep part rank kept item k = kept k :=
  Function.update_of_ne other _ _

/-- In its own group the item meets nothing, or one of the two is kept and
outranks or ties the other. -/
theorem keep_self (part : α → κ) (rank : α → ρ) (kept : κ → Option α) (item : α) :
    (kept (part item) = none ∧ keep part rank kept item (part item) = some item) ∨
    (∃ current, kept (part item) = some current ∧ rank current < rank item ∧
      keep part rank kept item (part item) = some item) ∨
    (∃ current, kept (part item) = some current ∧ rank item ≤ rank current ∧
      keep part rank kept item (part item) = some current) := by
  unfold keep
  rw [Function.update_self]
  cases before : kept (part item) with
  | none => exact Or.inl ⟨rfl, rfl⟩
  | some current =>
    by_cases higher : rank current < rank item
    · exact Or.inr (Or.inl ⟨current, rfl, higher, by simp [higher]⟩)
    · exact Or.inr (Or.inr ⟨current, rfl, not_lt.mp higher, by simp [higher]⟩)

/-- The pass keeps something exactly for the groups that have an item. -/
theorem keepGreatest_eq_none_iff {k : κ} :
    keepGreatest part rank items k = none ↔ ∀ item ∈ items, part item ≠ k := by
  induction items using List.reverseRecOn with
  | nil => simp [keepGreatest]
  | append_singleton earlier last ih =>
    rw [keepGreatest_append_singleton]
    by_cases here : k = part last
    · subst here
      have kept : keep part rank (keepGreatest part rank earlier) last (part last) ≠ none := by
        rcases keep_self part rank (keepGreatest part rank earlier) last with
          ⟨_, now⟩ | ⟨_, _, _, now⟩ | ⟨_, _, _, now⟩ <;> simp [now]
      refine iff_of_false kept ?_
      intro absent
      exact absent last (by simp) rfl
    · rw [keep_of_ne here, ih]
      constructor
      · intro absent item member
        rcases List.mem_append.mp member with early | isLast
        · exact absent item early
        · rw [List.mem_singleton.mp isLast]
          exact Ne.symm here
      · intro absent item early
        exact absent item (List.mem_append_left _ early)

/-- What the pass keeps under `k`: an item of the group that none of it outranks. -/
theorem keepGreatest_eq_some {k : κ} {item : α}
    (kept : keepGreatest part rank items k = some item) :
    item ∈ items ∧ part item = k ∧
      ∀ other ∈ items, part other = k → rank other ≤ rank item := by
  induction items using List.reverseRecOn generalizing item with
  | nil => cases kept
  | append_singleton earlier last ih =>
    rw [keepGreatest_append_singleton] at kept
    by_cases here : k = part last
    · subst here
      rcases keep_self part rank (keepGreatest part rank earlier) last with
        ⟨before, now⟩ | ⟨current, before, higher, now⟩ | ⟨current, before, lower, now⟩
      · obtain rfl : last = item := by simpa [now] using kept
        have alone := keepGreatest_eq_none_iff.mp before
        refine ⟨by simp, rfl, ?_⟩
        intro other member same
        rcases List.mem_append.mp member with early | isLast
        · exact absurd same (alone other early)
        · rw [List.mem_singleton.mp isLast]
      · obtain rfl : last = item := by simpa [now] using kept
        refine ⟨by simp, rfl, ?_⟩
        intro other member same
        rcases List.mem_append.mp member with early | isLast
        · exact le_trans ((ih before).2.2 other early same) (le_of_lt higher)
        · rw [List.mem_singleton.mp isLast]
      · obtain rfl : current = item := by simpa [now] using kept
        obtain ⟨member, group, greatest⟩ := ih before
        refine ⟨List.mem_append_left _ member, group, ?_⟩
        intro other inItems same
        rcases List.mem_append.mp inItems with early | isLast
        · exact greatest other early same
        · rw [List.mem_singleton.mp isLast]
          exact lower
    · rw [keep_of_ne here] at kept
      obtain ⟨member, group, greatest⟩ := ih kept
      refine ⟨List.mem_append_left _ member, group, ?_⟩
      intro other inItems same
      rcases List.mem_append.mp inItems with early | isLast
      · exact greatest other early same
      · rw [List.mem_singleton.mp isLast] at same
        exact absurd same.symm here

/-- Every group that has an item has a leader. -/
theorem exists_mem_leaders {item : α} (member : item ∈ items) :
    ∃ leader ∈ leaders part rank items, part leader = part item := by
  cases kept : keepGreatest part rank items (part item) with
  | none => exact absurd rfl (keepGreatest_eq_none_iff.mp kept item member)
  | some leader =>
    obtain ⟨inItems, group, greatest⟩ := keepGreatest_eq_some kept
    refine ⟨leader, mem_leaders.mpr ⟨inItems, ?_⟩, group⟩
    intro other inItems' same
    exact greatest other inItems' (same.trans group)

/-- Items of other groups do not matter to what the pass keeps under `k`. -/
theorem keepGreatest_filter {k : κ} (cond : α → Bool) (items : List α)
    (group : ∀ item ∈ items, part item = k → cond item = true) :
    keepGreatest part rank (items.filter cond) k = keepGreatest part rank items k := by
  induction items using List.reverseRecOn with
  | nil => rfl
  | append_singleton earlier last ih =>
    have same := ih (fun item member => group item (List.mem_append_left _ member))
    rw [List.filter_append, keepGreatest_append_singleton]
    by_cases here : k = part last
    · have kept : cond last = true := group last (by simp) here.symm
      rw [List.filter_cons_of_pos kept, List.filter_nil, keepGreatest_append_singleton]
      subst here
      unfold keep
      rw [Function.update_self, Function.update_self, same]
    · rw [keep_of_ne here, ← same]
      by_cases kept : cond last = true
      · rw [List.filter_cons_of_pos kept, List.filter_nil, keepGreatest_append_singleton,
          keep_of_ne here]
      · rw [List.filter_cons_of_neg kept, List.filter_nil, List.append_nil]

end

end Fleetwatch.Ranking
