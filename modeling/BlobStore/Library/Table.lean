import Mathlib.Algebra.BigOperators.Group.List.Basic
import Mathlib.Data.List.Nodup
import Mathlib.Tactic.Abel

set_option autoImplicit false

-- A finite set of rows with a primary key. The order of the rows is not part of
-- its meaning: every fact below is about lookups, membership or totals.
structure Table (κ ρ : Type) (key : ρ → κ) where
  rows : List ρ
  keyed : (rows.map key).Nodup

namespace Table

variable {κ ρ : Type} {key : ρ → κ} {M : Type}

def empty : Table κ ρ key := ⟨[], List.nodup_nil⟩

def delete (table : Table κ ρ key) (doomed : ρ → Bool) : Table κ ρ key :=
  ⟨table.rows.filter (fun row => !doomed row), table.keyed.sublist (List.filter_sublist.map key)⟩

theorem mem_delete (table : Table κ ρ key) (doomed : ρ → Bool) (row : ρ) :
    row ∈ (table.delete doomed).rows ↔ row ∈ table.rows ∧ doomed row = false := by
  simp [delete]

theorem delete_twice (table : Table κ ρ key) (doomed : ρ → Bool) :
    (table.delete doomed).delete doomed = table.delete doomed := by
  simp [delete]

theorem unique_row (table : Table κ ρ key) (one two : ρ) (first : one ∈ table.rows)
    (second : two ∈ table.rows) (same : key one = key two) : one = two :=
  List.inj_on_of_nodup_map table.keyed first second same

def total [AddCommMonoid M] (table : Table κ ρ key) (weight : ρ → M) : M := (table.rows.map weight).sum

theorem total_congr [AddCommMonoid M] (table : Table κ ρ key) (one two : ρ → M)
    (same : ∀ row ∈ table.rows, one row = two row) : table.total one = table.total two :=
  congrArg List.sum (List.map_congr_left same)

theorem total_zero [AddCommMonoid M] (table : Table κ ρ key) (weight : ρ → M)
    (zero : ∀ row ∈ table.rows, weight row = 0) : table.total weight = 0 := by
  rw [table.total_congr weight (fun _ => 0) zero]
  exact List.sum_eq_zero (by simp)

theorem total_delete [AddCommMonoid M] (table : Table κ ρ key) (doomed : ρ → Bool) (weight : ρ → M) :
    (table.delete doomed).total weight = table.total (fun row => if doomed row then 0 else weight row) := by
  simp only [total, delete]
  generalize table.rows = rows
  induction rows with
  | nil => rfl
  | cons row rest ih =>
      cases gone : doomed row
      · simp [gone, ih]
      · simp [gone, ih]

theorem total_add [AddCommMonoid M] (table : Table κ ρ key) (one two : ρ → M) :
    table.total (fun row => one row + two row) = table.total one + table.total two :=
  List.sum_map_add

variable [DecidableEq κ]

def find? (table : Table κ ρ key) (wanted : κ) : Option ρ := table.rows.find? (fun row => key row = wanted)

def insert (table : Table κ ρ key) (row : ρ) : Option (Table κ ρ key) :=
  if fresh : key row ∈ table.rows.map key then none
  else some ⟨row :: table.rows, List.nodup_cons.mpr ⟨fresh, table.keyed⟩⟩

private def replace (key : ρ → κ) (row old : ρ) : ρ := if key old = key row then row else old

private theorem replace_key (row old : ρ) : key (replace key row old) = key old := by
  unfold replace
  split
  · rename_i same
    exact same.symm
  · rfl

def update (table : Table κ ρ key) (row : ρ) : Option (Table κ ρ key) :=
  if key row ∈ table.rows.map key then
    some ⟨table.rows.map (replace key row), by
      have same : key ∘ replace key row = key := funext (replace_key row)
      rw [List.map_map, same]
      exact table.keyed⟩
  else none

theorem find_some_iff (table : Table κ ρ key) (wanted : κ) (row : ρ) :
    table.find? wanted = some row ↔ row ∈ table.rows ∧ key row = wanted := by
  constructor
  · intro found
    exact ⟨List.mem_of_find?_eq_some found, by simpa using List.find?_some found⟩
  · rintro ⟨member, rfl⟩
    cases found : table.find? (key row) with
    | none =>
        have different := List.find?_eq_none.mp found row member
        simp at different
    | some other =>
        have same : key other = key row := by simpa using List.find?_some found
        rw [table.unique_row other row (List.mem_of_find?_eq_some found) member same]

theorem find_self (table : Table κ ρ key) (row : ρ) (member : row ∈ table.rows) :
    table.find? (key row) = some row := (table.find_some_iff _ _).mpr ⟨member, rfl⟩

theorem find_none_iff (table : Table κ ρ key) (wanted : κ) :
    table.find? wanted = none ↔ wanted ∉ table.rows.map key := by
  simp only [find?, List.find?_eq_none, decide_eq_true_eq, List.mem_map, not_exists, not_and]

theorem filter_key (table : Table κ ρ key) (wanted : κ) :
    table.rows.filter (fun row => key row = wanted) = (table.find? wanted).toList := by
  obtain ⟨rows, keyed⟩ := table
  simp only [find?]
  induction rows with
  | nil => rfl
  | cons row rest ih =>
      obtain ⟨fresh, restKeyed⟩ := List.nodup_cons.mp keyed
      by_cases same : key row = wanted
      · have others : rest.filter (fun other => key other = wanted) = [] := by
          rw [List.filter_eq_nil_iff]
          intro other member matching
          exact fresh (List.mem_map.mpr ⟨other, member, (of_decide_eq_true matching).trans same.symm⟩)
        simp [same, others]
      · simpa [same] using ih restKeyed

theorem total_at_key [AddCommMonoid M] (table : Table κ ρ key) (wanted : κ) (weight : ρ → M) :
    table.total (fun row => if key row = wanted then weight row else 0) =
      ((table.find? wanted).map weight).getD 0 := by
  have selected : table.total (fun row => if key row = wanted then weight row else 0) =
      ((table.rows.filter (fun row => key row = wanted)).map weight).sum := by
    simp only [total]
    generalize table.rows = rows
    induction rows with
    | nil => rfl
    | cons row rest ih => by_cases same : key row = wanted <;> simp [same, ih]
  rw [selected, filter_key]
  cases table.find? wanted <;> simp

theorem insert_some_iff (table after : Table κ ρ key) (row : ρ) :
    table.insert row = some after ↔ table.find? (key row) = none ∧ after.rows = row :: table.rows := by
  rw [find_none_iff]
  unfold insert
  split
  · rename_i taken
    simp [taken]
  · rename_i fresh
    obtain ⟨rows, keyed⟩ := after
    simp [fresh, eq_comm]

theorem insert_none_iff (table : Table κ ρ key) (row : ρ) :
    table.insert row = none ↔ table.find? (key row) ≠ none := by
  rw [Ne, find_none_iff, not_not]
  unfold insert
  split <;> simp_all

theorem find_insert {table after : Table κ ρ key} {row : ρ}
    (inserted : table.insert row = some after) (wanted : κ) :
    after.find? wanted = if key row = wanted then some row else table.find? wanted := by
  obtain ⟨-, rows⟩ := (table.insert_some_iff after row).mp inserted
  simp only [find?, rows, List.find?_cons]
  by_cases same : key row = wanted <;> simp [same]

theorem delete_insert {table after : Table κ ρ key} {row : ρ}
    (inserted : table.insert row = some after) (doomed : ρ → Bool) (dies : doomed row = true) :
    after.delete doomed = table.delete doomed := by
  simp [delete, ((table.insert_some_iff after row).mp inserted).2, dies]

theorem mem_insert {table after : Table κ ρ key} {row : ρ}
    (inserted : table.insert row = some after) (other : ρ) :
    other ∈ after.rows ↔ other = row ∨ other ∈ table.rows := by
  rw [((table.insert_some_iff after row).mp inserted).2, List.mem_cons]

theorem total_insert [AddCommMonoid M] {table after : Table κ ρ key} {row : ρ}
    (inserted : table.insert row = some after) (weight : ρ → M) :
    after.total weight = weight row + table.total weight := by
  rw [total, ((table.insert_some_iff after row).mp inserted).2, List.map_cons, List.sum_cons, total]

theorem update_none_iff (table : Table κ ρ key) (row : ρ) :
    table.update row = none ↔ table.find? (key row) = none := by
  rw [find_none_iff]
  unfold update
  split <;> simp_all

private theorem update_rows {table after : Table κ ρ key} {row : ρ}
    (updated : table.update row = some after) :
    after.rows = table.rows.map (replace key row) := by
  unfold update at updated
  split at updated
  · exact (congrArg Table.rows (Option.some.inj updated)).symm
  · cases updated

theorem rows_of_update {table after : Table κ ρ key} {row : ρ} (updated : table.update row = some after) :
    after.rows = table.rows.map (fun old => if key old = key row then row else old) := update_rows updated

-- Writing a row back as it is.
theorem update_self (table : Table κ ρ key) (row : ρ) (member : row ∈ table.rows) :
    table.update row = some table := by
  cases updated : table.update row with
  | none =>
      have absent := (table.update_none_iff row).mp updated
      rw [table.find_self row member] at absent
      cases absent
  | some after =>
      have unchanged : ∀ old ∈ table.rows, (if key old = key row then row else old) = old := by
        intro old stored
        by_cases same : key old = key row
        · rw [if_pos same, table.unique_row old row stored member same]
        · exact if_neg same
      have rows : after.rows = table.rows :=
        (rows_of_update updated).trans ((List.map_congr_left unchanged).trans (List.map_id _))
      obtain ⟨stored, keyed⟩ := after
      obtain rfl := rows
      rfl

theorem find_update {table after : Table κ ρ key} {row : ρ}
    (updated : table.update row = some after) (wanted : κ) :
    after.find? wanted = if key row = wanted then some row else table.find? wanted := by
  have present : key row ∈ table.rows.map key := by
    by_contra absent
    simp [update, absent] at updated
  have rows := update_rows updated
  by_cases same : key row = wanted
  · subst same
    obtain ⟨old, member, oldKey⟩ := List.mem_map.mp present
    rw [if_pos rfl, find_some_iff, rows]
    exact ⟨List.mem_map.mpr ⟨old, member, by simp [replace, oldKey]⟩, rfl⟩
  · rw [if_neg same, find?, find?, rows, List.find?_map]
    have unchanged : ∀ old ∈ table.rows, key old = wanted → replace key row old = old := by
      intro old _ oldKey
      exact if_neg (fun equal => same (equal.symm.trans oldKey))
    have matching : ((fun other => decide (key other = wanted)) ∘ replace key row) =
        (fun old => decide (key old = wanted)) := by
      funext old
      simp only [Function.comp, replace_key]
    rw [matching]
    cases found : table.rows.find? (fun old => decide (key old = wanted)) with
    | none => rfl
    | some old =>
        have oldKey : key old = wanted := by simpa using List.find?_some found
        exact congrArg some (unchanged old (List.mem_of_find?_eq_some found) oldKey)

private theorem sum_replace [AddCommGroup M] (weight : ρ → M) (row old : ρ) (sameKey : key old = key row)
    (rows : List ρ) (keyed : (rows.map key).Nodup) (member : old ∈ rows) :
    ((rows.map (replace key row)).map weight).sum = (rows.map weight).sum - weight old + weight row := by
  induction rows with
  | nil => cases member
  | cons head tail ih =>
      obtain ⟨headFresh, tailKeyed⟩ := List.nodup_cons.mp keyed
      simp only [List.map_cons, List.sum_cons]
      rcases List.mem_cons.mp member with rfl | later
      · have untouched : tail.map (replace key row) = tail := by
          refine (List.map_congr_left ?_).trans (List.map_id tail)
          intro other later
          exact if_neg (fun equal => headFresh (List.mem_map.mpr ⟨other, later, equal.trans sameKey.symm⟩))
        rw [untouched, replace, if_pos sameKey]
        abel
      · have different : key head ≠ key row := by
          intro equal
          exact headFresh (List.mem_map.mpr ⟨old, later, sameKey.trans equal.symm⟩)
        rw [ih tailKeyed later, replace, if_neg different]
        abel

theorem total_update [AddCommGroup M] {table after : Table κ ρ key} {row old : ρ}
    (updated : table.update row = some after) (found : table.find? (key row) = some old) (weight : ρ → M) :
    after.total weight = table.total weight - weight old + weight row := by
  obtain ⟨member, sameKey⟩ := (table.find_some_iff _ _).mp found
  rw [total, update_rows updated]
  exact sum_replace weight row old sameKey table.rows table.keyed member

theorem find_delete (table : Table κ ρ key) (doomed : ρ → Bool) (wanted : κ) :
    (table.delete doomed).find? wanted = (table.find? wanted).filter (fun row => !doomed row) := by
  ext row
  rw [find_some_iff, mem_delete, Option.filter_eq_some_iff, find_some_iff]
  simp only [Bool.not_eq_true']
  tauto

theorem find_spared (table : Table κ ρ key) (doomed : ρ → Bool) (wanted : κ)
    (spared : ∀ row, key row = wanted → doomed row = false) :
    (table.delete doomed).find? wanted = table.find? wanted := by
  rw [find_delete]
  cases found : table.find? wanted with
  | none => rfl
  | some row => simp [spared row ((table.find_some_iff _ _).mp found).2]

omit [DecidableEq κ] in
theorem delete_spared (table : Table κ ρ key) (doomed : ρ → Bool)
    (spared : ∀ row ∈ table.rows, doomed row = false) :
    table.delete doomed = table := by
  have all : table.rows.filter (fun row => !doomed row) = table.rows :=
    List.filter_eq_self.mpr (fun row member => by rw [spared row member]; rfl)
  obtain ⟨rows, keyed⟩ := table
  simp only [delete, all]

end Table
