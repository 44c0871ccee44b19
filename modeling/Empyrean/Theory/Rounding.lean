/-
# Empyrean.Theory.Rounding — to the nearest integer, and into single precision

* `roundHalfEven` — to the nearest integer, a tie to the even one; it stays between the
  integers its argument is between (`le_roundHalfEven`, `roundHalfEven_le`), and within a
  half of it.
* `roundDouble` — to the nearest IEEE double, without an upper bound on the exponent; an
  integer stays one, and itself below `2 ^ 53`.
* `roundSingle` — to the nearest IEEE single; `FitsReal` are the values that a conversion
  neither overflows nor flushes to zero.
* `weightedAverage_mem` — an average with non-negative weights stays in the interval of
  its values; `average_le_average` compares two averages around a level.
-/
import Mathlib.Algebra.Order.Floor.Ring
import Mathlib.Data.Int.Log
import Mathlib.Data.Rat.Floor
import Mathlib.Tactic.Linarith

namespace Empyrean.Theory.Rounding

set_option autoImplicit false

/-! ## To the nearest integer -/

def roundHalfEven (q : Rat) : Int :=
  if 2 * (q - ⌊q⌋) < 1 then ⌊q⌋
  else if 1 < 2 * (q - ⌊q⌋) then ⌊q⌋ + 1
  else if ⌊q⌋ % 2 = 0 then ⌊q⌋ else ⌊q⌋ + 1

theorem le_roundHalfEven {q : Rat} {m : Int} (le : (m : Rat) ≤ q) : m ≤ roundHalfEven q := by
  have floor : m ≤ ⌊q⌋ := Int.le_floor.mpr le
  unfold roundHalfEven
  split
  · exact floor
  · split
    · omega
    · split <;> omega

theorem roundHalfEven_le {q : Rat} {n : Int} (le : q ≤ n) : roundHalfEven q ≤ n := by
  have floor : ⌊q⌋ ≤ n := Int.floor_le_iff.mpr (lt_of_le_of_lt le (lt_add_one _))
  -- above the floor only where the argument is
  have above : ¬ 2 * (q - ⌊q⌋) < 1 → ⌊q⌋ + 1 ≤ n := by
    intro far
    by_contra short
    have same : ⌊q⌋ = n := by omega
    rw [same] at far
    exact far (by linarith)
  unfold roundHalfEven
  split
  · exact floor
  · rename_i far
    split
    · exact above far
    · split
      · exact floor
      · exact above far

theorem roundHalfEven_mono {q q' : Rat} (le : q ≤ q') : roundHalfEven q ≤ roundHalfEven q' := by
  have floors : ⌊q⌋ ≤ ⌊q'⌋ := Int.floor_le_floor le
  rcases floors.lt_or_eq with apart | same
  · have above : q ≤ (⌊q⌋ + 1 : Int) := by
      push_cast
      exact (Int.lt_floor_add_one q).le
    calc roundHalfEven q ≤ ⌊q⌋ + 1 := roundHalfEven_le above
      _ ≤ ⌊q'⌋ := apart
      _ ≤ roundHalfEven q' := le_roundHalfEven (Int.floor_le q')
  · unfold roundHalfEven
    rw [← same]
    rcases lt_or_ge (2 * (q' - ⌊q⌋)) 1 with near | far
    · rw [if_pos near, if_pos (by linarith)]
    · rw [if_neg (not_lt.mpr far)]
      -- not rounded down, so at least as the tie is
      rcases lt_or_ge 1 (2 * (q - ⌊q⌋)) with beyond | under
      · rw [if_neg (by linarith), if_pos beyond, if_pos (by linarith)]
      · rw [if_neg (not_lt.mpr under)]
        split_ifs <;> omega

/-- At most half a unit is lost. -/
theorem abs_roundHalfEven_sub_le (q : Rat) : |(roundHalfEven q : Rat) - q| ≤ 1 / 2 := by
  have floor := Int.floor_le q
  have next := Int.lt_floor_add_one q
  rw [abs_le]
  unfold roundHalfEven
  split
  · constructor <;> linarith
  · rename_i far
    rw [not_lt] at far
    split
    · push_cast
      constructor <;> linarith
    · rename_i tie
      rw [not_lt] at tie
      split
      · constructor <;> linarith
      · push_cast
        constructor <;> linarith

theorem roundHalfEven_intCast (n : Int) : roundHalfEven n = n :=
  le_antisymm (roundHalfEven_le le_rfl) (le_roundHalfEven le_rfl)

/-! ## Double precision -/

/-- The exponent of the last of the 53 bits of a double near `q`, or of the least subnormal. -/
def doubleExponent (q : Rat) : Int := max (Int.log 2 |q| - 52) (-1074)

/-- The nearest double, a tie to the even one. -/
def roundDouble (q : Rat) : Rat := roundHalfEven (q / 2 ^ doubleExponent q) * 2 ^ doubleExponent q

/-- The nearest double is beyond the largest finite one. -/
def OverflowsDouble (q : Rat) : Prop := 2 ^ 1024 ≤ |roundDouble q|

instance (q : Rat) : Decidable (OverflowsDouble q) := inferInstanceAs (Decidable (_ ≤ _))

/-- With no bit after the point to lose, an integer is a double. -/
theorem roundDouble_of_exponent {n : Int} (low : doubleExponent n ≤ 0) : roundDouble n = n := by
  obtain ⟨k, same⟩ := Int.eq_ofNat_of_zero_le (Int.neg_nonneg.mpr low)
  have exponent : doubleExponent n = -(k : Int) := by omega
  have scaled : (n : Rat) / 2 ^ (-(k : Int)) = ((n * 2 ^ k : Int) : Rat) := by
    rw [zpow_neg, zpow_natCast, div_inv_eq_mul]
    push_cast
    rfl
  rw [roundDouble, exponent, scaled, roundHalfEven_intCast, ← scaled]
  exact div_mul_cancel₀ _ (zpow_ne_zero _ (by norm_num))

theorem exists_roundDouble_intCast (n : Int) : ∃ k : Int, roundDouble n = k := by
  rcases le_total (doubleExponent n) 0 with low | high
  · exact ⟨n, roundDouble_of_exponent low⟩
  · obtain ⟨k, exponent⟩ := Int.eq_ofNat_of_zero_le high
    refine ⟨roundHalfEven (n / 2 ^ doubleExponent n) * 2 ^ k, ?_⟩
    rw [roundDouble, exponent]
    push_cast
    rfl

/-- Below `2 ^ 53` every integer is a double. -/
theorem roundDouble_of_lt {n : Int} (small : |n| < 2 ^ 53) : roundDouble n = n := by
  apply roundDouble_of_exponent
  have bits : Int.log 2 |(n : Rat)| ≤ 52 := by
    rcases eq_or_ne n 0 with rfl | nonzero
    · simp
    · have positive : 0 < |(n : Rat)| := abs_pos.mpr (by exact_mod_cast nonzero)
      have below : |(n : Rat)| < ((2 : Nat) : Rat) ^ (53 : Int) := by exact_mod_cast small
      have log := (Int.lt_zpow_iff_log_lt (by norm_num) positive).mp below
      omega
  unfold doubleExponent
  omega

/-! ## Single precision -/

/-- The exponent of the last of the 24 bits of a single near `q`, or of the least subnormal. -/
def singleExponent (q : Rat) : Int := max (Int.log 2 |q| - 23) (-149)

/-- The nearest single, a tie to the even one, without an upper bound on the exponent. -/
def roundSingle (q : Rat) : Rat := roundHalfEven (q / 2 ^ singleExponent q) * 2 ^ singleExponent q

/-- A double converts to single precision: it is zero, or it becomes neither zero nor an
infinity.  It travels as the shortest decimal that reads back as itself.  For the double half
way between the largest single and `2 ^ 128` that decimal is a little below it, so it becomes the
largest single; for the one half way between zero and the least single it is below it too, so
that one becomes zero. -/
def FitsReal (v : Rat) : Prop := v = 0 ∨ 1 / 2 ^ 150 < |v| ∧ |v| ≤ (2 - 1 / 2 ^ 24) * 2 ^ 127

instance (v : Rat) : Decidable (FitsReal v) := inferInstanceAs (Decidable (_ ∨ _))

/-- Hundredths up to a hundred. -/
theorem fitsReal_hundredths {n : Int} (nonneg : 0 ≤ n) (small : n ≤ 10000) :
    FitsReal ((n : Rat) / 100) := by
  rcases eq_or_lt_of_le nonneg with rfl | pos
  · exact Or.inl (by norm_num)
  · right
    have one : (1 : Rat) ≤ n := by exact_mod_cast pos
    have top : (n : Rat) ≤ 10000 := by exact_mod_cast small
    rw [abs_of_nonneg (by linarith)]
    constructor
    · calc (1 : Rat) / 2 ^ 150 < 1 / 100 := by norm_num
        _ ≤ n / 100 := by linarith
    · calc (n : Rat) / 100 ≤ 100 := by linarith
        _ ≤ (2 - 1 / 2 ^ 24) * 2 ^ 127 := by norm_num

/-! ## Weighted averages -/

theorem sum_bounds {lo hi : Rat} : ∀ {pairs : List (Rat × Rat)},
    (∀ p ∈ pairs, 0 ≤ p.1 ∧ lo ≤ p.2 ∧ p.2 ≤ hi) →
      0 ≤ (pairs.map Prod.fst).sum ∧
        lo * (pairs.map Prod.fst).sum ≤ (pairs.map fun p => p.1 * p.2).sum ∧
          (pairs.map fun p => p.1 * p.2).sum ≤ hi * (pairs.map Prod.fst).sum := by
  intro pairs
  induction pairs with
  | nil => intro _; simp
  | cons p rest ih =>
      intro bounds
      obtain ⟨weight, low, high⟩ := bounds p List.mem_cons_self
      obtain ⟨total, below, above⟩ := ih fun q member => bounds q (List.mem_cons_of_mem _ member)
      simp only [List.map_cons, List.sum_cons]
      have first := mul_le_mul_of_nonneg_left low weight
      have last := mul_le_mul_of_nonneg_left high weight
      refine ⟨by linarith, ?_, ?_⟩
      · rw [mul_add]
        linarith [mul_comm lo p.1]
      · rw [mul_add]
        linarith [mul_comm hi p.1]

/-- An average with non-negative weights lies between the bounds of its values. -/
theorem weightedAverage_mem {lo hi : Rat} {pairs : List (Rat × Rat)}
    (bounds : ∀ p ∈ pairs, 0 ≤ p.1 ∧ lo ≤ p.2 ∧ p.2 ≤ hi)
    (weighted : (pairs.map Prod.fst).sum ≠ 0) :
    lo ≤ (pairs.map fun p => p.1 * p.2).sum / (pairs.map Prod.fst).sum ∧
      (pairs.map fun p => p.1 * p.2).sum / (pairs.map Prod.fst).sum ≤ hi := by
  obtain ⟨total, below, above⟩ := sum_bounds bounds
  have positive := lt_of_le_of_ne total weighted.symm
  exact ⟨(le_div_iff₀ positive).mpr below, (div_le_iff₀ positive).mpr above⟩

/-- Two averages around one level: the first falls short of it by a deficit that, at the
lighter weight, the second one does not reach. -/
theorem average_le_average {level sum sum' weight weight' deficit deficit' : Rat}
    (positive : 0 < weight) (heavier : weight ≤ weight') (below : sum ≤ level * weight - deficit)
    (above : level * weight' - deficit' ≤ sum') (nonneg : 0 ≤ deficit')
    (smaller : deficit' ≤ deficit) : sum / weight ≤ sum' / weight' := by
  have positive' : 0 < weight' := lt_of_lt_of_le positive heavier
  rw [div_le_div_iff₀ positive positive']
  have missing : deficit' * weight ≤ deficit * weight' :=
    mul_le_mul smaller heavier positive.le (nonneg.trans smaller)
  calc sum * weight' ≤ (level * weight - deficit) * weight' :=
        mul_le_mul_of_nonneg_right below positive'.le
    _ = level * weight * weight' - deficit * weight' := by ring
    _ ≤ level * weight * weight' - deficit' * weight := by linarith
    _ = (level * weight' - deficit') * weight := by ring
    _ ≤ sum' * weight := mul_le_mul_of_nonneg_right above positive.le

end Empyrean.Theory.Rounding
