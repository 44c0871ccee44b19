/-
# Empyrean.Theory.GroupBy — a grouped upsert into a keyed table

`INSERT INTO table SELECT … FROM rows GROUP BY key ON CONFLICT (key) DO UPDATE`: the
rows are split by key, each group is folded to one row of the table, and that row takes
the place of the one with the same key.  A table is a list of rows whose order means
nothing.

* `group key k rows` — the rows of one key.
* `groupBy`, `upsertAll` — the two halves of the statement.
* `group_refresh` — what the table holds for each key afterwards: the fold of the group
  where there is one, what was there before elsewhere.
* `group_filter` — selecting rows by a condition on their key keeps or drops whole groups.
-/
import Mathlib.Data.List.Dedup

namespace Empyrean.Theory.GroupBy

set_option autoImplicit false

universe u v w

variable {ρ : Type u} {κ : Type v} {ν : Type w} [DecidableEq κ]

/-- The rows whose key is `k`. -/
def group (key : ρ → κ) (k : κ) (rows : List ρ) : List ρ := rows.filter fun r => decide (key r = k)

/-- `SELECT agg … GROUP BY key`: one row for each key there is. -/
def groupBy (key : ρ → κ) (agg : κ → List ρ → ν) (rows : List ρ) : List ν :=
  (rows.map key).dedup.map fun k => agg k (group key k rows)

/-- `ON CONFLICT (key) DO UPDATE`: a new row replaces the one with its key. -/
def upsertAll (key : ν → κ) (table new : List ν) : List ν :=
  table.filter (fun r => decide (key r ∉ new.map key)) ++ new

section Rules

variable {key : ρ → κ} {k : κ} {rows : List ρ}

theorem mem_group {r : ρ} : r ∈ group key k rows ↔ r ∈ rows ∧ key r = k := by
  simp [group]

theorem group_eq_nil : group key k rows = [] ↔ k ∉ rows.map key := by
  simp only [group, List.filter_eq_nil_iff, decide_eq_true_eq, List.mem_map, not_exists, not_and]

theorem group_nil_of (others : ∀ r ∈ rows, key r ≠ k) : group key k rows = [] :=
  List.eq_nil_iff_forall_not_mem.mpr fun r member =>
    others r (mem_group.mp member).1 (mem_group.mp member).2

theorem group_append (rows rows' : List ρ) :
    group key k (rows ++ rows') = group key k rows ++ group key k rows' :=
  List.filter_append ..

/-- A condition that holds throughout a group keeps all of it. -/
theorem group_filter {p : ρ → Bool} (whole : ∀ r ∈ rows, key r = k → p r = true) :
    group key k (rows.filter p) = group key k rows := by
  rw [group, group, List.filter_filter]
  apply List.filter_congr
  intro r member
  by_cases here : key r = k
  · simp [here, whole r member here]
  · simp [here]

/-- A condition that fails throughout a group drops all of it. -/
theorem group_filter_nil {p : ρ → Bool} (none_left : ∀ r ∈ rows, key r = k → p r = false) :
    group key k (rows.filter p) = [] := by
  apply List.filter_eq_nil_iff.mpr
  intro r member
  obtain ⟨member, kept⟩ := List.mem_filter.mp member
  rw [decide_eq_true_eq]
  intro here
  rw [none_left r member here] at kept
  cases kept

theorem group_group (key : ρ → κ) (k : κ) (rows : List ρ) :
    group key k (group key k rows) = group key k rows :=
  group_filter fun _ _ here => decide_eq_true here

/-- A condition can be put to the group alone. -/
theorem group_filter_group (p : ρ → Bool) :
    group key k ((group key k rows).filter p) = group key k (rows.filter p) := by
  have swap : (group key k rows).filter p = group key k (rows.filter p) := List.filter_comm _ _ _
  rw [swap, group_group]

/-- A row is in its own group as often as it is in the table. -/
theorem count_group [DecidableEq ρ] (key : ρ → κ) (r : ρ) (rows : List ρ) :
    (group key (key r) rows).count r = rows.count r :=
  List.count_filter (decide_eq_true rfl)

/-- Tables with the same groups hold the same rows. -/
theorem perm_of_group {rows' : List ρ} (same : ∀ k, group key k rows = group key k rows') :
    rows.Perm rows' := by
  classical
  apply List.perm_iff_count.mpr
  intro r
  rw [← count_group key r rows, ← count_group key r rows', same]

end Rules

section Refresh

variable {key : ρ → κ} {tableKey : ν → κ} {agg : κ → List ρ → ν} {k : κ} {rows : List ρ}
    {table new : List ν}

theorem map_key_groupBy (keyed : ∀ k rows, tableKey (agg k rows) = k) :
    (groupBy key agg rows).map tableKey = (rows.map key).dedup := by
  rw [groupBy, List.map_map]
  exact (List.map_congr_left fun k _ => keyed k _).trans (List.map_id _)

theorem group_groupBy (keyed : ∀ k rows, tableKey (agg k rows) = k)
    (present : group key k rows ≠ []) :
    group tableKey k (groupBy key agg rows) = [agg k (group key k rows)] := by
  have member : k ∈ (rows.map key).dedup := by
    rw [List.mem_dedup]
    by_contra missing
    exact present (group_eq_nil.mpr missing)
  have once : (rows.map key).dedup.filter (fun k' => decide (k' = k)) = [k] := by
    have counted := List.filter_eq (l := (rows.map key).dedup) k
    simp only [List.count_eq_one_of_mem (List.nodup_dedup _) member, List.replicate_one] at counted
    simpa [eq_comm] using counted
  rw [group, groupBy, List.filter_map]
  have same : ((fun r => decide (tableKey r = k)) ∘ fun k' => agg k' (group key k' rows)) =
      fun k' => decide (k' = k) := by
    funext k'
    simp [keyed]
  rw [same, once, List.map_singleton]

theorem group_upsertAll : group tableKey k (upsertAll tableKey table new) =
    if k ∈ new.map tableKey then group tableKey k new else group tableKey k table := by
  rw [upsertAll, group_append]
  split
  · rename_i replaced
    rw [group_filter_nil, List.nil_append]
    intro r _ here
    rw [here]
    exact decide_eq_false (not_not.mpr replaced)
  · rename_i untouched
    rw [group_eq_nil.mpr untouched, List.append_nil]
    apply group_filter
    intro r _ here
    rw [here]
    exact decide_eq_true untouched

/-- **The table after a grouped upsert**, key by key. -/
theorem group_refresh (keyed : ∀ k rows, tableKey (agg k rows) = k) :
    group tableKey k (upsertAll tableKey table (groupBy key agg rows)) =
      if group key k rows = [] then group tableKey k table else [agg k (group key k rows)] := by
  rw [group_upsertAll, map_key_groupBy keyed]
  simp only [List.mem_dedup]
  by_cases empty : group key k rows = []
  · rw [if_neg (group_eq_nil.mp empty), if_pos empty]
  · rw [if_neg empty, if_pos, group_groupBy keyed empty]
    by_contra missing
    exact empty (group_eq_nil.mpr missing)

end Refresh

end Empyrean.Theory.GroupBy
