/-
# Empyrean.Theory.Strengths — strengths that share one unit

A family of strengths over finitely many labels is a partition when they are non-negative
and add up to one.  Labels of several partitions are combined by the minimum of their
strengths.

* `Partition.one_le_sum_min` — all combinations of three partitions together have
  strength one at the least: the minimum of numbers in [0, 1] is at least their product.
* `Supported.sum_eq` — where two labels share the whole unit, a sum over the labels is
  the sum over these two.
-/
import Mathlib.Algebra.BigOperators.Ring.Finset
import Mathlib.Algebra.Order.BigOperators.Group.Finset
import Mathlib.Data.Fintype.BigOperators
import Mathlib.Tactic.Linarith

namespace Empyrean.Theory.Strengths

set_option autoImplicit false

section

variable {K ι κ μ : Type} [Field K] [LinearOrder K] [IsStrictOrderedRing K] [Fintype ι]
    [Fintype κ] [Fintype μ]

structure Partition (strength : ι → K) : Prop where
  nonneg : ∀ i, 0 ≤ strength i
  total : ∑ i, strength i = 1

variable {u : ι → K} {v : κ → K} {w : μ → K}

theorem Partition.le_one (part : Partition u) (i : ι) : u i ≤ 1 :=
  part.total ▸ Finset.single_le_sum (fun j _ => part.nonneg j) (Finset.mem_univ i)

/-- The product of two numbers of the unit interval is below both. -/
theorem unit_mul_le_min {a b : K} (a_nonneg : 0 ≤ a) (b_nonneg : 0 ≤ b) (a_le : a ≤ 1)
    (b_le : b ≤ 1) : a * b ≤ min a b :=
  le_min (mul_le_of_le_one_right a_nonneg b_le) (mul_le_of_le_one_left b_nonneg a_le)

theorem Partition.mul_le_min (partU : Partition u) (partV : Partition v) (partW : Partition w) (i : ι) (j : κ) (k : μ) :
    u i * (v j * w k) ≤ min (u i) (min (v j) (w k)) := by
  have inner := unit_mul_le_min (partV.nonneg j) (partW.nonneg k) (partV.le_one j) (partW.le_one k)
  have low : 0 ≤ min (v j) (w k) := le_min (partV.nonneg j) (partW.nonneg k)
  have high : min (v j) (w k) ≤ 1 := (min_le_left _ _).trans (partV.le_one j)
  calc u i * (v j * w k) ≤ u i * min (v j) (w k) := mul_le_mul_of_nonneg_left inner (partU.nonneg i)
    _ ≤ min (u i) (min (v j) (w k)) := unit_mul_le_min (partU.nonneg i) low (partU.le_one i) high

/-- **All combinations** together have strength one at the least. -/
theorem Partition.one_le_sum_min (partU : Partition u) (partV : Partition v) (partW : Partition w) :
    1 ≤ ∑ i, ∑ j, ∑ k, min (u i) (min (v j) (w k)) :=
  calc (1 : K) = (∑ i, u i) * ((∑ j, v j) * ∑ k, w k) := by rw [partU.total, partV.total, partW.total, one_mul, one_mul]
    _ = ∑ i, ∑ j, ∑ k, u i * (v j * w k) := by
      rw [Finset.sum_mul_sum Finset.univ Finset.univ v w, Finset.sum_mul]
      simp only [Finset.mul_sum]
    _ ≤ ∑ i, ∑ j, ∑ k, min (u i) (min (v j) (w k)) :=
      Finset.sum_le_sum fun i _ => Finset.sum_le_sum fun j _ => Finset.sum_le_sum fun k _ =>
        partU.mul_le_min partV partW i j k

end

/-! ## Two labels at the most -/

section

variable {K ι M : Type} [Zero K] [Fintype ι] [AddCommMonoid M] {u : ι → K} {a b : ι}

/-- No label but `a` and `b` has any strength. -/
structure Supported (u : ι → K) (a b : ι) : Prop where
  distinct : a ≠ b
  zero : ∀ i, i ≠ a → i ≠ b → u i = 0

theorem Supported.sum_eq (supported : Supported u a b) {f : ι → M}
    (vanishes : ∀ i, u i = 0 → f i = 0) : ∑ i, f i = f a + f b := by
  classical
  rw [← Finset.sum_pair supported.distinct]
  refine (Finset.sum_subset (Finset.subset_univ _) fun i _ outside => ?_).symm
  simp only [Finset.mem_insert, Finset.mem_singleton, not_or] at outside
  exact vanishes i (supported.zero i outside.1 outside.2)

variable {κ : Type} [Fintype κ] {v : κ → K} {c d : κ}

/-- Two families, each with two labels at the most: four combinations. -/
theorem Supported.sum_sum_eq (left : Supported u a b) (right : Supported v c d) {f : ι → κ → M}
    (vanishes : ∀ i j, u i = 0 ∨ v j = 0 → f i j = 0) :
    ∑ i, ∑ j, f i j = f a c + f a d + (f b c + f b d) := by
  rw [left.sum_eq fun i zero => Finset.sum_eq_zero fun j _ => vanishes i j (Or.inl zero),
    right.sum_eq fun j zero => vanishes a j (Or.inr zero), right.sum_eq fun j zero =>
      vanishes b j (Or.inr zero)]

omit [Fintype ι] in
/-- Strength is found at the two labels only. -/
theorem Supported.eq_or_eq (supported : Supported u a b) {i : ι} (strong : u i ≠ 0) :
    i = a ∨ i = b := by
  by_contra other
  obtain ⟨not_a, not_b⟩ := not_or.mp other
  exact strong (supported.zero i not_a not_b)

end

end Empyrean.Theory.Strengths
