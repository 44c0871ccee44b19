/-
# Empyrean.Theory.Spread — mean and variance of a list of samples

* `far_countP_lt` — Chebyshev's inequality: fewer than one in `k` of the samples have a
  squared distance from the mean of more than `k` variances.
* `far_affine` — the distance in variances does not change when every sample is scaled and
  shifted alike.
-/
import Mathlib.Algebra.BigOperators.Ring.List
import Mathlib.Algebra.Order.BigOperators.Group.List
import Mathlib.Algebra.Order.Field.Basic
import Mathlib.Tactic.FieldSimp
import Mathlib.Tactic.Linarith
import Mathlib.Tactic.Positivity
import Mathlib.Tactic.Ring

namespace Empyrean.Theory.Spread

set_option autoImplicit false

variable {K : Type*} [Field K]

def mean (samples : List K) : K := samples.sum / samples.length

/-- The population variance. -/
def variance (samples : List K) : K :=
  (samples.map fun x => (x - mean samples) ^ 2).sum / samples.length

section Affine

variable [CharZero K] {samples : List K}

omit [CharZero K] in
theorem sum_affine (a b : K) (samples : List K) :
    (samples.map fun x => a * x + b).sum = a * samples.sum + samples.length * b := by
  induction samples with
  | nil => simp
  | cons x rest ih =>
      simp only [List.map_cons, List.sum_cons, List.length_cons, Nat.cast_add, Nat.cast_one, ih]
      ring

theorem mean_affine (a b : K) (some_sample : samples ≠ []) :
    mean (samples.map fun x => a * x + b) = a * mean samples + b := by
  have size : (samples.length : K) ≠ 0 :=
    Nat.cast_ne_zero.mpr (List.length_pos_iff.mpr some_sample).ne'
  unfold mean
  rw [sum_affine, List.length_map]
  field_simp

theorem variance_affine (a b : K) :
    variance (samples.map fun x => a * x + b) = a ^ 2 * variance samples := by
  by_cases empty : samples = []
  · simp [empty, variance]
  have deviation : ∀ x, (a * x + b - mean (samples.map fun x => a * x + b)) ^ 2 =
      a ^ 2 * (x - mean samples) ^ 2 := by
    intro x
    rw [mean_affine a b empty]
    ring
  unfold variance
  rw [List.map_map, List.length_map]
  show (samples.map fun x => (a * x + b - mean (samples.map fun x => a * x + b)) ^ 2).sum / _ = _
  simp only [deviation]
  rw [List.sum_map_mul_left, mul_div_assoc]

end Affine

section Ordered

variable [LinearOrder K] [IsStrictOrderedRing K] {samples : List K}

/-- The squared distance of `x` from the mean is more than `k` variances. -/
def Far (k : K) (samples : List K) (x : K) : Prop := k * variance samples < (x - mean samples) ^ 2

instance (k : K) (samples : List K) (x : K) : Decidable (Far k samples x) :=
  inferInstanceAs (Decidable (_ < _))

theorem far_affine {a : K} (scales : a ≠ 0) (b k : K) (some_sample : samples ≠ []) (x : K) :
    Far k (samples.map fun x => a * x + b) (a * x + b) ↔ Far k samples x := by
  have positive : 0 < a ^ 2 := by positivity
  have left : k * (a ^ 2 * variance samples) = a ^ 2 * (k * variance samples) := by ring
  have right : (a * x + b - (a * mean samples + b)) ^ 2 = a ^ 2 * (x - mean samples) ^ 2 := by ring
  unfold Far
  rw [variance_affine, mean_affine a b some_sample, left, right]
  exact mul_lt_mul_iff_of_pos_left positive

/-- What exceeds a bound adds up to more than the bound, as often as it does. -/
theorem countP_mul_lt_sum {α : Type*} (f : α → K) (least : ∀ x, 0 ≤ f x) (bound : K) (xs : List α) :
    xs.countP (fun x => decide (bound < f x)) = 0 ∨
      bound * xs.countP (fun x => decide (bound < f x)) < (xs.map f).sum := by
  induction xs with
  | nil => exact Or.inl rfl
  | cons x rest ih =>
      have others : 0 ≤ (rest.map f).sum := List.sum_nonneg (by simpa using fun y _ => least y)
      rw [List.map_cons, List.sum_cons, List.countP_cons]
      by_cases beyond : bound < f x
      · right
        rw [if_pos (decide_eq_true beyond)]
        push_cast
        rcases ih with zero | more
        · rw [zero]
          simp only [Nat.cast_zero]
          linarith
        · linarith
      · rw [if_neg (by simpa using beyond), Nat.add_zero]
        rcases ih with zero | more
        · exact Or.inl zero
        · right
          linarith [least x]

theorem variance_nonneg : 0 ≤ variance samples := by
  apply div_nonneg
  · exact List.sum_nonneg (by simpa using fun x _ => sq_nonneg (x - mean samples))
  · exact Nat.cast_nonneg _

/-- **Chebyshev's inequality.** -/
theorem far_countP_lt {k : K} (spread : variance samples ≠ 0) :
    samples.countP (fun x => decide (Far k samples x)) = 0 ∨
      k * samples.countP (fun x => decide (Far k samples x)) < samples.length := by
  have positive : 0 < variance samples := lt_of_le_of_ne variance_nonneg spread.symm
  have total : (samples.map fun x => (x - mean samples) ^ 2).sum =
      samples.length * variance samples := by
    have size : (samples.length : K) ≠ 0 := by
      intro zero
      exact spread (by rw [variance, zero, div_zero])
    unfold variance
    field_simp
  rcases countP_mul_lt_sum (fun x => (x - mean samples) ^ 2) (fun x => sq_nonneg _)
    (k * variance samples) samples with
    zero | more
  · exact Or.inl zero
  · right
    rw [total] at more
    have scaled : k * samples.countP (fun x => decide (Far k samples x)) * variance samples <
        samples.length * variance samples := by
      calc k * samples.countP (fun x => decide (Far k samples x)) * variance samples
          = k * variance samples * samples.countP (fun x => decide (Far k samples x)) := by ring
        _ < samples.length * variance samples := more
    exact lt_of_mul_lt_mul_right scaled positive.le

end Ordered

end Empyrean.Theory.Spread
