import Mathlib.Algebra.GroupWithZero.Nat
import Mathlib.Data.List.Nodup
import Mathlib.Data.List.Sort
import Mathlib.Tactic.Common

/-!
# Queries over lists of rows

`SELECT` as list operations: joins pair each left row with the right rows its
`ON` clause admits, and `ORDER BY` is a stable sort by a key in a linear order.
What a reader of the result cares about is which rows it holds and how often, so
the lemmas are about membership, permutation and the rows of one group.
-/

namespace Fleetwatch.Query

variable {α β γ κ : Type}

/-- `ORDER BY key`: stable, so rows the clause leaves tied keep the table's order. -/
def orderBy [LinearOrder κ] (key : α → κ) (rows : List α) : List α :=
  rows.insertionSort (fun left right => key left ≤ key right)

/-- `LEFT JOIN ... ON`: a left row no right row matches is kept once, paired with
nothing. -/
def leftJoin (on : α → β → Bool) (left : List α) (right : List β) : List (α × Option β) :=
  left.flatMap fun row =>
    match right.filter (on row) with
    | [] => [(row, none)]
    | first :: rest => (first :: rest).map (fun other => (row, some other))

/-- `JOIN ... ON`: one row for each matching pair. -/
def innerJoin (on : α → β → Bool) (left : List α) (right : List β) : List (α × β) :=
  left.flatMap fun row => (right.filter (on row)).map (fun other => (row, other))

section OrderBy

variable [LinearOrder κ] {key : α → κ}

theorem orderBy_perm (rows : List α) : (orderBy key rows).Perm rows :=
  List.perm_insertionSort _ _

@[simp] theorem mem_orderBy {rows : List α} {row : α} : row ∈ orderBy key rows ↔ row ∈ rows :=
  (orderBy_perm rows).mem_iff

@[simp] theorem orderBy_nil : orderBy key [] = [] := rfl

theorem pairwise_orderBy (rows : List α) :
    (orderBy key rows).Pairwise (fun left right => key left ≤ key right) := by
  have : Std.Total (fun left right : α => key left ≤ key right) := ⟨fun a b => le_total _ _⟩
  have : IsTrans α (fun left right : α => key left ≤ key right) := ⟨fun _ _ _ => le_trans⟩
  exact List.pairwise_insertionSort _ _

/-- What `ORDER BY key` may return: the rows by key, tied ones in any order. -/
def Permits (key : α → κ) (rows ordered : List α) : Prop :=
  ordered.Perm rows ∧ ordered.Pairwise (fun left right => key left ≤ key right)

theorem permits_orderBy (rows : List α) : Permits key rows (orderBy key rows) :=
  ⟨orderBy_perm rows, pairwise_orderBy rows⟩

/-- No row stands above the last of an order. -/
theorem Permits.le_last {rows ordered : List α} (permits : Permits key rows ordered) {last : α}
    (ends : ordered.getLast? = some last) : ∀ row ∈ rows, key row ≤ key last := by
  intro row member
  obtain ⟨front, rfl⟩ := List.getLast?_eq_some_iff.mp ends
  rcases List.mem_append.mp (permits.1.mem_iff.mpr member) with earlier | same
  · exact (List.pairwise_append.mp permits.2).2.2 row earlier last List.mem_cons_self
  · rw [List.mem_singleton.mp same]

theorem Permits.exists_last {rows ordered : List α} (permits : Permits key rows ordered) {row : α}
    (member : row ∈ rows) : ∃ last ∈ rows, ordered.getLast? = some last := by
  have filled : ordered ≠ [] := List.ne_nil_of_mem (permits.1.mem_iff.mpr member)
  exact ⟨ordered.getLast filled, permits.1.mem_iff.mp (List.getLast_mem filled),
    List.getLast?_eq_some_getLast filled⟩

/-- Every row none stands above ends some order. -/
theorem exists_permits_ending [DecidableEq α] {rows : List α} {row : α} (member : row ∈ rows)
    (greatest : ∀ other ∈ rows, key other ≤ key row) :
    ∃ ordered, Permits key rows ordered ∧ ordered.getLast? = some row := by
  refine ⟨orderBy key (rows.erase row) ++ [row], ⟨?_, ?_⟩, List.getLast?_concat⟩
  · refine ((orderBy_perm (rows.erase row)).append_right [row]).trans ?_
    exact (List.perm_append_singleton row _).trans (List.perm_cons_erase member).symm
  · refine List.pairwise_append.mpr ⟨pairwise_orderBy _, List.pairwise_singleton _ _, ?_⟩
    intro other earlier last same
    rw [List.mem_singleton.mp same]
    exact greatest other (List.mem_of_mem_erase (mem_orderBy.mp earlier))

/-- Counting the rows that satisfy a condition does not see the order. -/
theorem length_filter_orderBy (cond : α → Bool) (rows : List α) :
    ((orderBy key rows).filter cond).length = (rows.filter cond).length :=
  ((orderBy_perm rows).filter cond).length_eq

/-- A projection that keeps the sort key commutes with the sort. -/
theorem map_orderBy (f : α → β) (key' : β → κ) (rows : List α)
    (same : ∀ row, key' (f row) = key row) :
    (orderBy key rows).map f = orderBy key' (rows.map f) := by
  unfold orderBy
  apply List.map_insertionSort
  intro left _ right _
  simp [same]

/-- When no two rows tie, the result is the same for every order the rows were
found in. -/
theorem orderBy_eq_of_perm {rows rows' : List α} (perm : rows.Perm rows')
    (noTies : (rows.map key).Nodup) : orderBy key rows = orderBy key rows' := by
  apply List.Perm.eq_of_pairwise _ (pairwise_orderBy rows) (pairwise_orderBy rows')
  · exact (orderBy_perm rows).trans (perm.trans (orderBy_perm rows').symm)
  · intro left right hl hr le ge
    have hl' := (orderBy_perm rows).mem_iff.mp hl
    have hr' := perm.mem_iff.mpr ((orderBy_perm rows').mem_iff.mp hr)
    exact List.inj_on_of_nodup_map noTies hl' hr' (le_antisymm le ge)

/-- A row inserted into a sorted list stands where it would among the rows kept. -/
theorem filter_orderedInsert (cond : α → Bool) (row : α) (rows : List α)
    (sorted : rows.Pairwise (fun left right => key left ≤ key right)) :
    (rows.orderedInsert (fun left right => key left ≤ key right) row).filter cond =
      if cond row then (rows.filter cond).orderedInsert (fun left right => key left ≤ key right) row
      else rows.filter cond := by
  induction rows with
  | nil => by_cases kept : cond row = true <;> simp [kept]
  | cons first rest ih =>
    obtain ⟨least, sorted'⟩ := List.pairwise_cons.mp sorted
    rw [List.orderedInsert_cons]
    by_cases before : key row ≤ key first
    · -- every kept row is behind the new one
      rw [if_pos before]
      have stays : (((first :: rest).filter cond).orderedInsert
          (fun left right => key left ≤ key right) row) = row :: (first :: rest).filter cond := by
        cases kept : (first :: rest).filter cond with
        | nil => rfl
        | cons next others =>
          have member : next ∈ (first :: rest).filter cond := by rw [kept]; exact List.mem_cons_self
          have behind : key row ≤ key next := by
            rcases List.mem_cons.mp (List.mem_filter.mp member).1 with rfl | later
            · exact before
            · exact le_trans before (least next later)
          rw [List.orderedInsert_cons, if_pos behind]
      rw [stays, List.filter_cons]
    · rw [if_neg before, List.filter_cons, ih sorted', List.filter_cons]
      by_cases kept : cond first = true
      · by_cases keptRow : cond row = true
        · simp only [kept, keptRow, if_true, List.orderedInsert_cons, if_neg before]
        · simp only [kept, if_true, if_neg keptRow]
      · simp only [if_neg kept]

/-- Dropping rows and sorting commute. -/
theorem filter_orderBy (cond : α → Bool) (rows : List α) :
    (orderBy key rows).filter cond = orderBy key (rows.filter cond) := by
  induction rows with
  | nil => rfl
  | cons row rest ih =>
    have inserted := filter_orderedInsert cond row (orderBy key rest) (pairwise_orderBy rest)
    rw [ih] at inserted
    unfold orderBy at inserted ⊢
    rw [List.insertionSort_cons, inserted, List.filter_cons]
    split
    · rw [List.insertionSort_cons]
    · rfl

end OrderBy

theorem mem_innerJoin {on : α → β → Bool} {left : List α} {right : List β} {pair : α × β} :
    pair ∈ innerJoin on left right ↔
      pair.1 ∈ left ∧ pair.2 ∈ right ∧ on pair.1 pair.2 = true := by
  rcases pair with ⟨row, other⟩
  simp only [innerJoin, List.mem_flatMap, List.mem_map, List.mem_filter, Prod.mk.injEq]
  constructor
  · rintro ⟨row', member, other', ⟨member', matched⟩, rfl, rfl⟩
    exact ⟨member, member', matched⟩
  · rintro ⟨member, member', matched⟩
    exact ⟨row, member, other, ⟨member', matched⟩, rfl, rfl⟩

@[simp] theorem innerJoin_nil_right (on : α → β → Bool) (left : List α) :
    innerJoin on left [] = [] := by
  simp [innerJoin]

/-- A left join loses no left row, and where at most one right row can match it
doubles none either. -/
theorem map_fst_leftJoin {on : α → β → Bool} {left : List α} {right : List β}
    (single : ∀ row ∈ left, (right.filter (on row)).length ≤ 1) :
    (leftJoin on left right).map Prod.fst = left := by
  induction left with
  | nil => rfl
  | cons row rest ih =>
    have tail := ih (fun other member => single other (List.mem_cons_of_mem _ member))
    have atMostOne := single row List.mem_cons_self
    simp only [leftJoin, List.flatMap_cons, List.map_append] at tail ⊢
    rw [tail]
    cases matches' : right.filter (on row) with
    | nil => simp
    | cons first others =>
      have none : others = [] := by
        rw [matches'] at atMostOne
        simpa using atMostOne
      simp [none]

/-- What a left join pairs a row with, where at most one right row can match. -/
theorem leftJoin_eq_map {on : α → β → Bool} {left : List α} {right : List β}
    (single : ∀ row ∈ left, (right.filter (on row)).length ≤ 1) :
    leftJoin on left right = left.map (fun row => (row, (right.filter (on row)).head?)) := by
  induction left with
  | nil => rfl
  | cons row rest ih =>
    have tail := ih (fun other member => single other (List.mem_cons_of_mem _ member))
    have atMostOne := single row List.mem_cons_self
    simp only [leftJoin, List.flatMap_cons, List.map_cons] at tail ⊢
    rw [tail]
    cases matches' : right.filter (on row) with
    | nil => simp
    | cons first others =>
      have none : others = [] := by
        rw [matches'] at atMostOne
        simpa using atMostOne
      simp [none]

theorem flatMap_filter (cond : α → Bool) (f : α → List β) (rows : List α) :
    (rows.filter cond).flatMap f = rows.flatMap (fun row => if cond row then f row else []) := by
  induction rows with
  | nil => rfl
  | cons row rest ih =>
    by_cases kept : cond row = true
    · rw [List.filter_cons_of_pos kept, List.flatMap_cons, List.flatMap_cons, if_pos kept, ih]
    · rw [List.filter_cons_of_neg kept, List.flatMap_cons, if_neg kept, ih, List.nil_append]

/-- What a left join makes of some of the left rows is what it would make of them
alone. -/
theorem filter_leftJoin (on : α → β → Bool) (cond : α → Bool) (left : List α) (right : List β) :
    (leftJoin on left right).filter (fun pair => cond pair.1) =
      leftJoin on (left.filter cond) right := by
  unfold leftJoin
  rw [List.filter_flatMap, flatMap_filter]
  refine List.flatMap_congr fun row _ => ?_
  have own : ∀ pair ∈ (match right.filter (on row) with
      | [] => [(row, none)]
      | first :: rest => (first :: rest).map (fun other => (row, some other)) :
        List (α × Option β)), pair.1 = row := by
    intro pair joined
    cases matches' : right.filter (on row) with
    | nil =>
      rw [matches', List.mem_singleton] at joined
      rw [joined]
    | cons first rest =>
      rw [matches'] at joined
      obtain ⟨other, _, rfl⟩ := List.mem_map.mp joined
      rfl
  by_cases kept : cond row = true
  · rw [if_pos kept, List.filter_eq_self]
    intro pair joined
    rw [own pair joined]
    exact kept
  · rw [if_neg kept, List.filter_eq_nil_iff]
    intro pair joined
    rw [own pair joined]
    exact kept

/-- A left join only sees the right rows its clause admits. -/
theorem leftJoin_congr {on : α → β → Bool} {left : List α} {right right' : List β}
    (same : ∀ row ∈ left, right.filter (on row) = right'.filter (on row)) :
    leftJoin on left right = leftJoin on left right' := by
  unfold leftJoin
  refine List.flatMap_congr fun row member => ?_
  rw [same row member]

/-- Where a join pairs the rows of one part with each other only, that part of the join is the
join of the parts. -/
theorem filter_innerJoin {on : α → β → Bool} {left : List α} {right : List β} {p : α → Bool}
    {q : β → Bool} (agree : ∀ pair ∈ innerJoin on left right, q pair.2 = p pair.1) :
    (innerJoin on left right).filter (q ∘ Prod.snd) =
      innerJoin on (left.filter p) (right.filter q) := by
  unfold innerJoin at agree ⊢
  rw [List.filter_flatMap, flatMap_filter]
  refine List.flatMap_congr fun row member => ?_
  have own : ∀ other ∈ right.filter (on row), q other = p row := by
    intro other matched
    exact agree (row, other)
      (List.mem_flatMap.mpr ⟨row, member, List.mem_map.mpr ⟨other, matched, rfl⟩⟩)
  rw [List.filter_map]
  by_cases kept : p row = true
  · rw [if_pos kept, List.filter_comm (p := on row)]
    rfl
  · rw [if_neg kept, List.map_eq_nil_iff, List.filter_eq_nil_iff]
    intro other matched hit
    exact kept ((own other matched).symm.trans hit)

/-- Where a condition holds of all of a row's results or of none, filtering them is filtering
the rows. -/
theorem filter_flatMap_of_const {rows : List α} {f : α → List β} {cond : β → Bool}
    {keep : α → Bool} (const : ∀ row ∈ rows, ∀ out ∈ f row, cond out = keep row) :
    (rows.flatMap f).filter cond = (rows.filter keep).flatMap f := by
  rw [List.filter_flatMap, flatMap_filter]
  refine List.flatMap_congr fun row member => ?_
  have here := const row member
  by_cases kept : keep row = true
  · rw [if_pos kept, List.filter_eq_self]
    exact fun out inner => (here out inner).trans kept
  · rw [if_neg kept, List.filter_eq_nil_iff]
    intro out inner
    rw [here out inner]
    exact kept

/-- The rows of one group: when only `row` of a duplicate-free list contributes
rows satisfying `cond`, filtering the whole product leaves `row`'s share. -/
theorem filter_flatMap_of_single {rows : List α} {f : α → List β} {cond : β → Bool} {row : α}
    (nodup : rows.Nodup) (member : row ∈ rows)
    (others : ∀ other ∈ rows, other ≠ row → ∀ out ∈ f other, cond out = false) :
    (rows.flatMap f).filter cond = (f row).filter cond := by
  induction rows with
  | nil => simp at member
  | cons first rest ih =>
    have distinct := List.nodup_cons.mp nodup
    rw [List.flatMap_cons, List.filter_append]
    rcases List.mem_cons.mp member with rfl | later
    · have none : (rest.flatMap f).filter cond = [] := by
        rw [List.filter_eq_nil_iff]
        intro out found
        obtain ⟨other, inRest, inOther⟩ := List.mem_flatMap.mp found
        have different : other ≠ row := fun same => distinct.1 (same ▸ inRest)
        simp [others other (List.mem_cons_of_mem _ inRest) different out inOther]
      rw [none, List.append_nil]
    · have different : first ≠ row := fun same => distinct.1 (same ▸ later)
      have none : (f first).filter cond = [] := by
        rw [List.filter_eq_nil_iff]
        intro out found
        simp [others first List.mem_cons_self different out found]
      rw [none, List.nil_append]
      exact ih distinct.2 later (fun other inRest => others other (List.mem_cons_of_mem _ inRest))

/-! ## Counting

An aggregate over a join counts a left row once for each right row it meets. It
counts rows, as a reader means it to, exactly when every row meets one or none. -/

theorem length_filter_innerJoin (on : α → β → Bool) (cond : α → Bool) (left : List α)
    (right : List β) :
    ((innerJoin on left right).filter (fun pair => cond pair.1)).length =
      ((left.filter cond).map (fun row => (right.filter (on row)).length)).sum := by
  induction left with
  | nil => rfl
  | cons row rest ih =>
    simp only [innerJoin, List.flatMap_cons, List.filter_append, List.length_append] at ih ⊢
    rw [ih]
    by_cases kept : cond row = true
    · simp [kept, List.filter_map, Function.comp_def]
    · simp [kept, List.filter_map, Function.comp_def]

section Counting

variable {weight : α → Nat} {hit : α → Bool}

theorem length_filter_le_sum_map (rows : List α)
    (covers : ∀ row ∈ rows, hit row = true → 1 ≤ weight row) :
    (rows.filter hit).length ≤ (rows.map weight).sum := by
  induction rows with
  | nil => simp
  | cons row rest ih =>
    have tail := ih (fun other member => covers other (List.mem_cons_of_mem _ member))
    have here := covers row List.mem_cons_self
    cases h : hit row with
    | true =>
      have atLeast := here h
      simp only [h, List.filter_cons_of_pos, List.length_cons, List.map_cons, List.sum_cons]
      omega
    | false =>
      simp only [h, Bool.false_eq_true, not_false_iff, List.filter_cons_of_neg, List.map_cons,
        List.sum_cons]
      omega

/-- The weights add up to the number of hits exactly when each hit weighs one and
nothing else weighs anything. -/
theorem sum_map_eq_length_filter_iff (rows : List α)
    (covers : ∀ row ∈ rows, hit row = true → 1 ≤ weight row) :
    (rows.map weight).sum = (rows.filter hit).length ↔
      ∀ row ∈ rows, weight row = if hit row = true then 1 else 0 := by
  induction rows with
  | nil => simp
  | cons row rest ih =>
    have covers' : ∀ other ∈ rest, hit other = true → 1 ≤ weight other :=
      fun other member => covers other (List.mem_cons_of_mem _ member)
    have atLeast := length_filter_le_sum_map rest covers'
    have here := covers row List.mem_cons_self
    rw [List.forall_mem_cons, ← ih covers']
    cases h : hit row with
    | true =>
      have one := here h
      simp only [h, List.filter_cons_of_pos, List.length_cons, List.map_cons, List.sum_cons,
        if_true]
      omega
    | false =>
      simp only [h, Bool.false_eq_true, not_false_iff, List.filter_cons_of_neg, List.map_cons,
        List.sum_cons, if_false]
      omega

end Counting

end Fleetwatch.Query
