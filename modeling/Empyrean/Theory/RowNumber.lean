/-
# Empyrean.Theory.RowNumber — the rows of each partition, numbered

`ROW_NUMBER() OVER (PARTITION BY key ORDER BY time DESC)` counts the rows of each key from
the latest on.  Rows of one time are numbered as they come: a `Window` is any way to put
rows into descending order, and may break ties one way today and another way tomorrow.

* `rowNumber` — every row of every partition, with its number.
* `row_number_gt`, `row_number_le` — a row's number exceeds the count of the rows that are
  later, and does not exceed the count of those that are no earlier, itself among them.
* `numbered_upto_length` — at most `limit` rows of a partition have a number up to `limit`.
-/
import Empyrean.Theory.DistinctOn
import Mathlib.Data.List.Perm.Subperm

namespace Empyrean.Theory.RowNumber

set_option autoImplicit false

open Empyrean.Theory.GroupBy Empyrean.Theory.DistinctOn

universe u v w

variable {ρ : Type u} {κ : Type v} {τ : Type w} [LinearOrder τ]

/-- `ORDER BY time DESC` of a window, ties as the database likes. -/
structure Window (time : ρ → τ) where
  sort : List ρ → List ρ
  perm : ∀ rows, (sort rows).Perm rows
  descending : ∀ rows, (sort rows).Pairwise (Latest time)

/-- Ties in the order of the table. -/
def Window.stable (time : ρ → τ) : Window time where
  sort := fun rows => rows.insertionSort (Latest time)
  perm := fun rows => List.perm_insertionSort _ rows
  descending := fun rows => List.pairwise_insertionSort _ rows

/-- `ROW_NUMBER() OVER (PARTITION BY key ORDER BY time DESC)` -/
def rowNumber [DecidableEq κ] {time : ρ → τ} (key : ρ → κ) (window : Window time) (rows : List ρ) :
    List (ρ × Nat) :=
  (rows.map key).dedup.flatMap fun k => (window.sort (group key k rows)).zipIdx 1

/-! ## Places in a descending list -/

section Descending

variable {time : ρ → τ} {rows : List ρ} {r : ρ} {i : Nat}

theorem countP_later_le (descending : rows.Pairwise (Latest time)) (here : rows[i]? = some r) :
    rows.countP (fun r' => decide (time r < time r')) ≤ i := by
  induction rows generalizing i with
  | nil => simp at here
  | cons first rows ih =>
      cases i with
      | zero =>
          obtain rfl : first = r := by simpa using here
          refine Nat.le_of_eq (List.countP_eq_zero.mpr fun r' member => ?_)
          rcases List.mem_cons.mp member with rfl | behind
          · simp
          · have earlier : time r' ≤ time first := List.rel_of_pairwise_cons descending behind
            simpa using earlier
      | succ i =>
          have rest := ih descending.of_cons (by simpa using here)
          rw [List.countP_cons]
          split <;> omega

theorem lt_countP_no_earlier (descending : rows.Pairwise (Latest time)) (here : rows[i]? = some r) :
    i < rows.countP (fun r' => decide (time r ≤ time r')) := by
  induction rows generalizing i with
  | nil => simp at here
  | cons first rows ih =>
      cases i with
      | zero =>
          obtain rfl : first = r := by simpa using here
          simp
      | succ i =>
          have placed : rows[i]? = some r := by simpa using here
          have ahead : time r ≤ time first :=
            List.rel_of_pairwise_cons descending (List.mem_of_getElem? placed)
          have rest := ih descending.of_cons placed
          rw [List.countP_cons, if_pos (decide_eq_true ahead)]
          omega

/-- Where `r` alone has its time, the rows that are no earlier are the later ones and `r`. -/
theorem countP_no_earlier_le (nodup : rows.Nodup)
    (unique : ∀ r' ∈ rows, time r' = time r → r' = r) :
    rows.countP (fun r' => decide (time r ≤ time r')) ≤
      rows.countP (fun r' => decide (time r < time r')) + 1 := by
  induction rows with
  | nil => simp
  | cons first rows ih =>
      obtain ⟨fresh, nodup⟩ := List.nodup_cons.mp nodup
      have rest := ih nodup fun r' member => unique r' (List.mem_cons_of_mem first member)
      simp only [List.countP_cons, decide_eq_true_eq]
      rcases lt_trichotomy (time r) (time first) with later | same | earlier
      · simp only [later, later.le, if_true]
        omega
      · obtain rfl := unique first List.mem_cons_self same.symm
        have others : rows.countP (fun r' => decide (time first ≤ time r')) =
            rows.countP fun r' => decide (time first < time r') := by
          refine List.countP_congr fun r' member => ?_
          have apart : time first ≠ time r' := fun together =>
            fresh (unique r' (List.mem_cons_of_mem first member) together.symm ▸ member)
          simp [apart.le_iff_lt]
        simp only [others, le_refl, lt_irrefl, if_true, if_false]
      · simp only [not_le.mpr earlier, not_lt.mpr earlier.le, if_false]
        omega

end Descending

/-! ## Numbers -/

section Numbers

variable [DecidableEq κ] {time : ρ → τ} {key : ρ → κ} {window : Window time} {rows : List ρ}
    {r : ρ} {n : Nat}

/-- A row's number is its place in its own partition, counted from one. -/
theorem mem_rowNumber :
    (r, n) ∈ rowNumber key window rows ↔
      1 ≤ n ∧ (window.sort (group key (key r) rows))[n - 1]? = some r := by
  simp only [rowNumber, List.mem_flatMap, List.mem_dedup, List.mem_zipIdx_iff_le_and_getElem?_sub]
  constructor
  · rintro ⟨k, _, counted, placed⟩
    obtain ⟨_, rfl⟩ := mem_group.mp ((window.perm _).mem_iff.mp (List.mem_of_getElem? placed))
    exact ⟨counted, placed⟩
  · rintro ⟨counted, placed⟩
    have member := (mem_group.mp ((window.perm _).mem_iff.mp (List.mem_of_getElem? placed))).1
    exact ⟨key r, List.mem_map_of_mem member, counted, placed⟩

theorem mem_of_numbered (numbered : (r, n) ∈ rowNumber key window rows) : r ∈ rows :=
  (mem_group.mp ((window.perm _).mem_iff.mp (List.mem_of_getElem? (mem_rowNumber.mp numbered).2))).1

/-- Every row has a number. -/
theorem exists_row_number (member : r ∈ rows) : ∃ n, (r, n) ∈ rowNumber key window rows := by
  have among : r ∈ window.sort (group key (key r) rows) :=
    (window.perm _).mem_iff.mpr (mem_group.mpr ⟨member, rfl⟩)
  obtain ⟨i, placed⟩ := List.mem_iff_getElem?.mp among
  exact ⟨i + 1, mem_rowNumber.mpr ⟨Nat.le_add_left 1 i, placed⟩⟩

/-- The rows that are strictly later come first. -/
theorem row_number_gt (numbered : (r, n) ∈ rowNumber key window rows) :
    (group key (key r) rows).countP (fun r' => decide (time r < time r')) < n := by
  obtain ⟨counted, placed⟩ := mem_rowNumber.mp numbered
  have ahead := countP_later_le (window.descending _) placed
  rw [(window.perm _).countP_eq] at ahead
  omega

/-- Only rows that are no earlier come first. -/
theorem row_number_le (numbered : (r, n) ∈ rowNumber key window rows) :
    n ≤ (group key (key r) rows).countP (fun r' => decide (time r ≤ time r')) := by
  obtain ⟨counted, placed⟩ := mem_rowNumber.mp numbered
  have ahead := lt_countP_no_earlier (window.descending _) placed
  rw [(window.perm _).countP_eq] at ahead
  omega

theorem row_number_le_length (numbered : (r, n) ∈ rowNumber key window rows) :
    n ≤ (group key (key r) rows).length :=
  (row_number_le numbered).trans List.countP_le_length

/-- **A bound on numbers is a bound on rows**: however ties fall. -/
theorem numbered_upto_length {k : κ} {limit : Nat} {kept : List ρ} (nodup : kept.Nodup)
    (low : ∀ r ∈ kept, key r = k ∧ ∃ n ≤ limit, (r, n) ∈ rowNumber key window rows) :
    kept.length ≤ limit := by
  have first : kept ⊆ (window.sort (group key k rows)).take limit := by
    intro r member
    obtain ⟨rfl, n, within, numbered⟩ := low r member
    obtain ⟨counted, placed⟩ := mem_rowNumber.mp numbered
    have early : n - 1 < limit := by omega
    exact List.mem_of_getElem? ((List.getElem?_take_of_lt early).trans placed)
  exact (nodup.subperm first).length_le.trans (List.length_take_le _ _)

end Numbers

end Empyrean.Theory.RowNumber
