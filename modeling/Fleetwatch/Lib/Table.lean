import Mathlib.Data.List.Nodup
import Mathlib.Tactic.Common

/-!
# Keyed tables

A table is the list of its rows in insertion order, and `key` reads the columns
of its primary key the way the database compares them. The statements below are
the keyed writes of SQL: `INSERT IGNORE`, `INSERT ... ON DUPLICATE KEY UPDATE`
and `DELETE ... WHERE`. Each is described by what it does to `rowsAt key k`, the
rows stored under one key, so a proof about a run of statements never unfolds
them.
-/

namespace Fleetwatch.Table

variable {α β κ : Type} [DecidableEq κ]

/-- The rows stored under the key `k`. -/
def rowsAt (key : α → κ) (k : κ) (table : List α) : List α :=
  table.filter (fun row => key row = k)

/-- A primary key: no two rows of the table share one. -/
def Keyed (key : α → κ) (table : List α) : Prop :=
  (table.map key).Nodup

/-- Is some row already stored under this row's key? -/
def clashes (key : α → κ) (row : α) (table : List α) : Bool :=
  table.any (fun stored => key stored = key row)

/-- `INSERT IGNORE`: a row whose key is taken is dropped. Returns the table and
`rows_affected`. -/
def insertIgnore (key : α → κ) (row : α) (table : List α) : List α × Nat :=
  if clashes key row table then (table, 0) else (table ++ [row], 1)

/-- `INSERT ... ON DUPLICATE KEY UPDATE`: a row whose key is taken updates the
stored row instead. -/
def upsert (key : α → κ) (row : α) (update : α → α) (table : List α) : List α :=
  if clashes key row table then
    table.map (fun stored => if key stored = key row then update stored else stored)
  else table ++ [row]

/-- `DELETE ... WHERE`. -/
def deleteWhere (cond : α → Bool) (table : List α) : List α :=
  table.filter (fun row => !cond row)

theorem mem_rowsAt {key : α → κ} {k : κ} {table : List α} {row : α} :
    row ∈ rowsAt key k table ↔ row ∈ table ∧ key row = k := by
  simp [rowsAt]

theorem clashes_iff {key : α → κ} {row : α} {table : List α} :
    clashes key row table = true ↔ ∃ stored ∈ table, key stored = key row := by
  simp [clashes]

theorem not_clashes_iff {key : α → κ} {row : α} {table : List α} :
    clashes key row table = false ↔ ∀ stored ∈ table, key stored ≠ key row := by
  simp [clashes]

/-- The rows after an upsert: each stored one, updated where it holds the key, and
the new one where none did. -/
theorem mem_upsert {key : α → κ} {new row : α} {update : α → α} {table : List α} :
    row ∈ upsert key new update table ↔
      (clashes key new table = false ∧ row = new) ∨
        ∃ stored ∈ table, row = if key stored = key new then update stored else stored := by
  unfold upsert
  cases clash : clashes key new table with
  | true =>
    simp only [if_true, List.mem_map, Bool.true_eq_false, false_and, false_or]
    refine exists_congr fun stored => and_congr_right fun _ => eq_comm
  | false =>
    have free := not_clashes_iff.mp clash
    simp only [Bool.false_eq_true, if_false, List.mem_append, List.mem_singleton, true_and]
    constructor
    · rintro (member | rfl)
      · exact Or.inr ⟨row, member, by rw [if_neg (free row member)]⟩
      · exact Or.inl rfl
    · rintro (rfl | ⟨stored, member, rfl⟩)
      · exact Or.inr rfl
      · rw [if_neg (free stored member)]
        exact Or.inl member

/-- An upsert that keeps the key loses no key. -/
theorem exists_mem_upsert_of_mem {key : α → κ} (new : α) {row : α} {update : α → α}
    {table : List α} (keeps : ∀ row, key (update row) = key row) (member : row ∈ table) :
    ∃ row' ∈ upsert key new update table, key row' = key row := by
  refine ⟨_, mem_upsert.mpr (Or.inr ⟨row, member, rfl⟩), ?_⟩
  split
  · exact keeps row
  · rfl

/-- The new row's key is there afterwards. -/
theorem exists_mem_upsert_new {key : α → κ} (new : α) {update : α → α} (table : List α)
    (keeps : ∀ row, key (update row) = key row) :
    ∃ row ∈ upsert key new update table, key row = key new := by
  cases free : clashes key new table with
  | false => exact ⟨new, mem_upsert.mpr (Or.inl ⟨free, rfl⟩), rfl⟩
  | true =>
    obtain ⟨row, stored, same⟩ := clashes_iff.mp free
    obtain ⟨row', member, kept⟩ := exists_mem_upsert_of_mem new keeps stored
    exact ⟨row', member, kept.trans same⟩

/-- A row clashes exactly when its key is occupied. -/
theorem clashes_eq_false_iff_rowsAt {key : α → κ} {row : α} {table : List α} :
    clashes key row table = false ↔ rowsAt key (key row) table = [] := by
  simp [clashes, rowsAt]

theorem rowsAt_append (key : α → κ) (k : κ) (left right : List α) :
    rowsAt key k (left ++ right) = rowsAt key k left ++ rowsAt key k right := by
  simp [rowsAt]

omit [DecidableEq κ] in
/-- Two rows of a keyed table with the same key are the same row. -/
theorem Keyed.eq_of_key_eq {key : α → κ} {table : List α} (keyed : Keyed key table)
    {left right : α} (hl : left ∈ table) (hr : right ∈ table) (same : key left = key right) :
    left = right :=
  List.inj_on_of_nodup_map keyed hl hr same

omit [DecidableEq κ] in
theorem Keyed.nodup {key : α → κ} {table : List α} (keyed : Keyed key table) : table.Nodup :=
  keyed.of_map

/-- Under a taken key a keyed table stores exactly the one row. -/
theorem Keyed.rowsAt_eq {key : α → κ} {table : List α} (keyed : Keyed key table)
    {row : α} (stored : row ∈ table) : rowsAt key (key row) table = [row] := by
  induction table with
  | nil => simp at stored
  | cons first rest ih =>
    have distinct := List.nodup_cons.mp keyed
    rcases List.mem_cons.mp stored with rfl | later
    · have none : rest.filter (fun other => key other = key row) = [] := by
        rw [List.filter_eq_nil_iff]
        intro other member same
        exact distinct.1 (List.mem_map.mpr ⟨other, member, by simpa using same⟩)
      simp [rowsAt, none]
    · have different : key first ≠ key row := by
        intro same
        exact distinct.1 (same ▸ List.mem_map.mpr ⟨row, later, rfl⟩)
      have tail := ih distinct.2 later
      simpa [rowsAt, different] using tail

theorem Keyed.length_rowsAt_le {key : α → κ} {table : List α} (keyed : Keyed key table) (k : κ) :
    (rowsAt key k table).length ≤ 1 := by
  cases h : rowsAt key k table with
  | nil => simp
  | cons row rest =>
    have stored := mem_rowsAt.mp (h ▸ List.mem_cons_self : row ∈ rowsAt key k table)
    rw [← stored.2, keyed.rowsAt_eq stored.1] at h
    simp [← h]

omit [DecidableEq κ] in
theorem Keyed.deleteWhere {key : α → κ} {table : List α} (keyed : Keyed key table)
    (cond : α → Bool) : Keyed key (deleteWhere cond table) :=
  (List.filter_sublist.map key).nodup keyed

theorem Keyed.append {key : α → κ} {table : List α} (keyed : Keyed key table) {row : α}
    (free : clashes key row table = false) : Keyed key (table ++ [row]) := by
  rw [not_clashes_iff] at free
  unfold Keyed
  rw [List.map_append, List.nodup_append]
  refine ⟨keyed, by simp, ?_⟩
  intro k stored k' new
  obtain ⟨other, member, rfl⟩ := List.mem_map.mp stored
  simp only [List.map_cons, List.map_nil, List.mem_singleton] at new
  exact new ▸ free other member

theorem Keyed.insertIgnore {key : α → κ} {table : List α} (keyed : Keyed key table) (row : α) :
    Keyed key (insertIgnore key row table).1 := by
  unfold Table.insertIgnore
  split
  · exact keyed
  · rename_i free
    exact keyed.append (by simpa using free)

/-- An update that leaves the key columns alone keeps the primary key. -/
theorem Keyed.upsert {key : α → κ} {table : List α} (keyed : Keyed key table) (row : α)
    {update : α → α} (keeps : ∀ stored, key (update stored) = key stored) :
    Keyed key (upsert key row update table) := by
  unfold Table.upsert
  split
  · have keys : (table.map (fun stored => if key stored = key row then update stored
        else stored)).map key = table.map key := by
      rw [List.map_map]
      apply List.map_congr_left
      intro stored _
      by_cases same : key stored = key row <;> simp [same, keeps]
    unfold Keyed
    rw [keys]
    exact keyed
  · rename_i free
    exact keyed.append (by simpa using free)

/-- What `INSERT IGNORE` leaves under each key: the new row exactly where
nothing was stored. -/
theorem rowsAt_insertIgnore (key : α → κ) (row : α) (table : List α) (k : κ) :
    rowsAt key k (insertIgnore key row table).1 =
      if k = key row ∧ rowsAt key k table = [] then [row] else rowsAt key k table := by
  unfold insertIgnore
  by_cases same : k = key row
  · subst same
    by_cases free : rowsAt key (key row) table = []
    · have open' := clashes_eq_false_iff_rowsAt.mpr free
      simp only [open', Bool.false_eq_true, if_false, rowsAt_append, free]
      simp [rowsAt]
    · have taken : clashes key row table = true := by
        rw [← Bool.not_eq_false, clashes_eq_false_iff_rowsAt]
        exact free
      simp [taken, free]
  · split
    · simp [same]
    · simp [same, rowsAt, Ne.symm same]

/-- What an upsert leaves under each key: the updated rows where some were
stored, the new row where none was, everything else untouched. -/
theorem rowsAt_upsert (key : α → κ) (row : α) {update : α → α} (table : List α)
    (keeps : ∀ stored, key (update stored) = key stored) (k : κ) :
    rowsAt key k (upsert key row update table) =
      if k = key row then
        if rowsAt key k table = [] then [row] else (rowsAt key k table).map update
      else rowsAt key k table := by
  unfold upsert
  by_cases free : clashes key row table = false
  · have none := clashes_eq_false_iff_rowsAt.mp free
    simp only [free, Bool.false_eq_true, if_false, rowsAt_append]
    by_cases same : k = key row
    · subst same
      simp only [none, if_true, List.nil_append]
      simp [rowsAt]
    · simp [same, rowsAt, Ne.symm same]
  · have taken : clashes key row table = true := by simpa using free
    simp only [taken, if_true]
    have commute : rowsAt key k (table.map (fun stored =>
        if key stored = key row then update stored else stored)) =
        (rowsAt key k table).map (fun stored =>
          if key stored = key row then update stored else stored) := by
      unfold rowsAt
      rw [List.filter_map]
      congr 1
      apply List.filter_congr
      intro stored _
      by_cases same : key stored = key row <;> simp [same, keeps]
    rw [commute]
    by_cases same : k = key row
    · subst same
      have some : rowsAt key (key row) table ≠ [] := by
        intro none
        rw [clashes_eq_false_iff_rowsAt.mpr none] at taken
        exact Bool.false_ne_true taken
      simp only [if_true, some, if_false]
      apply List.map_congr_left
      intro stored member
      simp [(mem_rowsAt.mp member).2]
    · simp only [same, if_false]
      conv_rhs => rw [← List.map_id (rowsAt key k table)]
      apply List.map_congr_left
      intro stored member
      have other : key stored ≠ key row := (mem_rowsAt.mp member).2 ▸ same
      simp [other]

theorem rowsAt_deleteWhere (key : α → κ) (k : κ) (cond : α → Bool) (table : List α) :
    rowsAt key k (deleteWhere cond table) = deleteWhere cond (rowsAt key k table) := by
  simp only [rowsAt, deleteWhere, List.filter_filter, Bool.and_comm]

/-- A delete that treats the rows of one key alike takes all of them or none. -/
theorem rowsAt_deleteWhere_of_const {key : α → κ} {k : κ} {cond : α → Bool} {table : List α}
    (hit : Bool) (alike : ∀ row ∈ table, key row = k → cond row = hit) :
    rowsAt key k (deleteWhere cond table) = if hit then [] else rowsAt key k table := by
  rw [rowsAt_deleteWhere]
  unfold deleteWhere
  cases hit with
  | true =>
    rw [if_pos rfl, List.filter_eq_nil_iff]
    intro row member
    obtain ⟨stored, same⟩ := mem_rowsAt.mp member
    simp [alike row stored same]
  | false =>
    rw [if_neg Bool.false_ne_true, List.filter_eq_self]
    intro row member
    obtain ⟨stored, same⟩ := mem_rowsAt.mp member
    simp [alike row stored same]

/-! ## The rows a statement leaves alone -/

omit [DecidableEq κ] in
/-- Tables that agree on some rows agree on any part of them. -/
theorem filter_eq_of_filter_eq {cond part : α → Bool} {table table' : List α}
    (same : table.filter cond = table'.filter cond)
    (within : ∀ row, part row = true → cond row = true) :
    table.filter part = table'.filter part := by
  have narrow : ∀ rows : List α, rows.filter part = (rows.filter cond).filter part := by
    intro rows
    rw [List.filter_filter]
    apply List.filter_congr
    intro row _
    cases kept : part row with
    | false => rfl
    | true => rw [within row kept, Bool.and_self]
  rw [narrow table, narrow table', same]

theorem filter_insertIgnore {key : α → κ} {row : α} {table : List α} {cond : α → Bool}
    (own : cond row = false) : (insertIgnore key row table).1.filter cond = table.filter cond := by
  unfold insertIgnore
  split
  · rfl
  · simp [own]

/-- An upsert leaves the rows of other keys as they are. -/
theorem filter_upsert {key : α → κ} {row : α} {update : α → α} {table : List α} {cond : α → Bool}
    (keeps : ∀ stored, key (update stored) = key stored)
    (own : ∀ stored, key stored = key row → cond stored = false) :
    (upsert key row update table).filter cond = table.filter cond := by
  unfold upsert
  split
  · rw [List.filter_map]
    have alike : ∀ stored ∈ table, (cond ∘ fun stored =>
        if key stored = key row then update stored else stored) stored = cond stored := by
      intro stored _
      by_cases hit : key stored = key row
      · simp only [Function.comp_apply, hit, if_true, own stored hit,
          own (update stored) ((keeps stored).trans hit)]
      · simp only [Function.comp_apply, hit, if_false]
    rw [List.filter_congr alike]
    conv_rhs => rw [← List.map_id (table.filter cond)]
    apply List.map_congr_left
    intro stored member
    have other : key stored ≠ key row := by
      intro hit
      have kept := (List.mem_filter.mp member).2
      rw [own stored hit] at kept
      cases kept
    simp [other]
  · simp [own row rfl]

omit [DecidableEq κ] in
/-- A delete leaves alone the rows it does not hit. -/
theorem filter_deleteWhere {hit cond : α → Bool} {table : List α}
    (spares : ∀ row ∈ table, cond row = true → hit row = false) :
    (deleteWhere hit table).filter cond = table.filter cond := by
  unfold deleteWhere
  rw [List.filter_filter]
  apply List.filter_congr
  intro row member
  cases kept : cond row with
  | false => rfl
  | true => simp [spares row member kept]

/-- An upsert whose update changes no row of a taken key is no change at all. -/
theorem upsert_eq_self {key : α → κ} {row : α} {update : α → α} {table : List α}
    (taken : ∃ stored ∈ table, key stored = key row)
    (same : ∀ stored ∈ table, key stored = key row → update stored = stored) :
    upsert key row update table = table := by
  unfold upsert
  rw [clashes_iff.mpr taken, if_pos rfl]
  conv_rhs => rw [← List.map_id table]
  apply List.map_congr_left
  intro stored member
  by_cases hit : key stored = key row
  · simp [hit, same stored member hit]
  · simp [hit]

end Fleetwatch.Table
