/-
# Empyrean.Theory.DistinctOn — the latest row of each key, in one query

`SELECT DISTINCT ON (key) … ORDER BY key, time DESC` keeps the first row of each key.
Where no two rows of one key have one time, that row is the latest of its key, and so is
the answer of `WHERE key = k ORDER BY time DESC LIMIT 1`: neither depends on how the
database breaks ties.

* `distinctOn` — the first row of each key, in any list.
* `KeyThenLatest`, `Latest` — the two orders.
* `mem_distinctOn_sort`, `head?_sort` — both queries read the latest row of a key.
-/
import Empyrean.Theory.GroupBy
import Mathlib.Data.List.Sort

namespace Empyrean.Theory.DistinctOn

set_option autoImplicit false

open Empyrean.Theory.GroupBy

universe u v w

variable {ρ : Type u} {κ : Type v} {τ : Type w}

/-- `DISTINCT ON (key)`: of the rows of one key only the first stays. -/
def distinctOn [DecidableEq κ] (key : ρ → κ) : List ρ → List ρ
  | [] => []
  | r :: rows => r :: (distinctOn key rows).filter fun r' => decide (key r' ≠ key r)

section First

variable [DecidableEq κ] {key : ρ → κ}

/-- The rows kept are the heads of the groups. -/
theorem mem_distinctOn {r : ρ} {rows : List ρ} :
    r ∈ distinctOn key rows ↔ (group key (key r) rows).head? = some r := by
  induction rows with
  | nil => simp [distinctOn, group]
  | cons first rows ih =>
      rw [distinctOn, List.mem_cons, List.mem_filter, ih, decide_eq_true_eq]
      simp only [group, List.filter_cons]
      by_cases same : key first = key r
      · rw [if_pos (decide_eq_true same), List.head?_cons, Option.some.injEq]
        constructor
        · rintro (here | ⟨_, different⟩)
          · exact here.symm
          · exact absurd same.symm different
        · exact fun here => Or.inl here.symm
      · rw [if_neg (by simpa using same)]
        constructor
        · rintro (here | ⟨head, _⟩)
          · exact absurd (congrArg key here.symm) same
          · exact head
        · exact fun head => Or.inr ⟨head, fun here => same here.symm⟩

theorem keys_distinctOn_nodup (rows : List ρ) : ((distinctOn key rows).map key).Nodup := by
  induction rows with
  | nil => exact List.nodup_nil
  | cons first rows ih =>
      rw [distinctOn, List.map_cons, List.nodup_cons]
      constructor
      · intro member
        obtain ⟨r, kept, same⟩ := List.mem_map.mp member
        exact of_decide_eq_true (List.mem_filter.mp kept).2 same
      · exact ih.sublist (List.Sublist.map _ List.filter_sublist)

end First

/-! ## The two orders -/

/-- `ORDER BY time DESC` -/
def Latest [LE τ] (time : ρ → τ) (a b : ρ) : Prop := time b ≤ time a

/-- `ORDER BY key, time DESC` -/
def KeyThenLatest [LT κ] [LE τ] (key : ρ → κ) (time : ρ → τ) (a b : ρ) : Prop :=
  key a < key b ∨ key a = key b ∧ time b ≤ time a

variable [LinearOrder κ] [LinearOrder τ] (key : ρ → κ) (time : ρ → τ)

instance : DecidableRel (Latest time) := fun a b => inferInstanceAs (Decidable (time b ≤ time a))

instance : DecidableRel (KeyThenLatest key time) := fun a b =>
  inferInstanceAs (Decidable (key a < key b ∨ key a = key b ∧ time b ≤ time a))

instance : Std.Total (Latest time) := ⟨fun a b => le_total (time b) (time a)⟩

instance : IsTrans ρ (Latest time) := ⟨fun _ _ _ first second => le_trans second first⟩

instance : Std.Total (KeyThenLatest key time) := ⟨fun a b => by
  rcases lt_trichotomy (key a) (key b) with before | same | after
  · exact Or.inl (Or.inl before)
  · rcases le_total (time b) (time a) with later | earlier
    · exact Or.inl (Or.inr ⟨same, later⟩)
    · exact Or.inr (Or.inr ⟨same.symm, earlier⟩)
  · exact Or.inr (Or.inl after)⟩

instance : IsTrans ρ (KeyThenLatest key time) := ⟨fun a b c first second => by
  rcases first with before | ⟨same, later⟩ <;> rcases second with before' | ⟨same', later'⟩
  · exact Or.inl (before.trans before')
  · exact Or.inl (same' ▸ before)
  · exact Or.inl (same ▸ before')
  · exact Or.inr ⟨same.trans same', later'.trans later⟩⟩

variable {key time}

/-- The head of rows in descending order of time is the latest of them. -/
theorem head?_of_latest {rows : List ρ} (descending : rows.Pairwise (Latest time))
    (unique : ∀ r ∈ rows, ∀ r' ∈ rows, time r = time r' → r = r') {r : ρ} :
    rows.head? = some r ↔ r ∈ rows ∧ ∀ r' ∈ rows, time r' ≤ time r := by
  cases rows with
  | nil => simp
  | cons first rows =>
      have latest : ∀ r' ∈ first :: rows, time r' ≤ time first := by
        intro r' member
        rcases List.mem_cons.mp member with rfl | later
        · exact le_refl _
        · exact List.rel_of_pairwise_cons descending later
      rw [List.head?_cons, Option.some.injEq]
      constructor
      · rintro rfl
        exact ⟨List.mem_cons_self, latest⟩
      · rintro ⟨member, above⟩
        exact unique _ List.mem_cons_self _ member
          (le_antisymm (above first List.mem_cons_self) (latest r member))

/-- `WHERE key = k ORDER BY time DESC LIMIT 1` -/
theorem head?_sort {rows : List ρ}
    (unique : ∀ r ∈ rows, ∀ r' ∈ rows, time r = time r' → r = r') {r : ρ} :
    (rows.insertionSort (Latest time)).head? = some r ↔
      r ∈ rows ∧ ∀ r' ∈ rows, time r' ≤ time r := by
  rw [head?_of_latest (List.pairwise_insertionSort _ _)]
  · simp only [List.mem_insertionSort]
  · intro r member r' member'
    exact unique r ((List.mem_insertionSort _).mp member) r' ((List.mem_insertionSort _).mp member')

/-- **`DISTINCT ON (key) … ORDER BY key, time DESC`** keeps the latest row of each key. -/
theorem mem_distinctOn_sort {rows : List ρ}
    (unique : ∀ r ∈ rows, ∀ r' ∈ rows, key r = key r' → time r = time r' → r = r') {r : ρ} :
    r ∈ distinctOn key (rows.insertionSort (KeyThenLatest key time)) ↔
      r ∈ rows ∧ ∀ r' ∈ rows, key r' = key r → time r' ≤ time r := by
  have member : ∀ r', r' ∈ group key (key r) (rows.insertionSort (KeyThenLatest key time)) ↔
      r' ∈ rows ∧ key r' = key r := fun r' => by rw [mem_group, List.mem_insertionSort]
  have descending :
      (group key (key r) (rows.insertionSort (KeyThenLatest key time))).Pairwise (Latest time) := by
    have sorted := (List.pairwise_insertionSort (KeyThenLatest key time) rows).sublist
      (List.filter_sublist (p := fun r' => decide (key r' = key r)))
    refine sorted.imp_of_mem ?_
    intro a b inGroup inGroup' ordered
    have same := ((member a).mp inGroup).2.trans ((member b).mp inGroup').2.symm
    rcases ordered with before | ⟨_, later⟩
    · exact absurd same before.ne
    · exact later
  rw [mem_distinctOn, head?_of_latest descending]
  · simp only [member]
    constructor
    · rintro ⟨⟨here, _⟩, latest⟩
      exact ⟨here, fun r' member' same => latest r' ⟨member', same⟩⟩
    · rintro ⟨here, latest⟩
      exact ⟨⟨here, trivial⟩, fun r' inGroup => latest r' inGroup.1 inGroup.2⟩
  · intro a inGroup b inGroup' together
    obtain ⟨here, same⟩ := (member a).mp inGroup
    obtain ⟨here', same'⟩ := (member b).mp inGroup'
    exact unique a here b here' (same.trans same'.symm) together

end Empyrean.Theory.DistinctOn
