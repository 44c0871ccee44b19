/-
# Empyrean.Ingest.Fuzzy — the Tsukamoto score

`fuzzy/membership.py`, `fuzzy/rules.py` and `fuzzy/tsukamoto.py` over exact rationals.
Each of temperature, humidity and PM2.5 has three terms; every combination that fires
inverts the ramp of its consequent, and the score is the average of the results,
weighted by the firing strengths and rounded to two decimals.

* `trap_mem` — a membership lies in [0, 1].
* `exists_score` — the score is a number of hundredths in [0, 100], whatever the inputs.
-/
import Empyrean.Theory.Rounding

namespace Empyrean.Ingest.Fuzzy

set_option autoImplicit false

open Empyrean.Theory.Rounding

/-! ## Memberships -/

/-- `_clamp` -/
def clamp (x : Rat) (domain : Rat × Rat) : Rat := max domain.1 (min domain.2 x)

def trap (x a b c d : Rat) : Rat :=
  if b ≤ x ∧ x ≤ c then 1
  else if x < b then
    if b = a then 1
    else if x ≤ a then 0
    else (x - a) / (b - a)
  else if c = d then 1
  else if x ≥ d then 0
  else (d - x) / (d - c)

def tDomain : Rat × Rat := (0, 50)

def hDomain : Rat × Rat := (0, 100)

def pDomain : Rat × Rat := (0, 500)

inductive TempTerm
  | low
  | medium
  | high
deriving DecidableEq, Repr

inductive HumTerm
  | dry
  | humid
  | wet
deriving DecidableEq, Repr

inductive PmTerm
  | low
  | medium
  | high
deriving DecidableEq, Repr

def tempTerms : TempTerm → Rat → Rat
  | .low, t => trap (clamp t tDomain) 0 0 15 35
  | .medium, t => trap (clamp t tDomain) 15 35 40 50
  | .high, t => trap (clamp t tDomain) 40 50 50 50

def humTerms : HumTerm → Rat → Rat
  | .dry, h => trap (clamp h hDomain) 0 0 30 70
  | .humid, h => trap (clamp h hDomain) 30 70 80 100
  | .wet, h => trap (clamp h hDomain) 80 100 100 100

def pmTerms : PmTerm → Rat → Rat
  | .low, p => trap (clamp p pDomain) 0 0 50 100
  | .medium, p => trap (clamp p pDomain) 50 100 200 300
  | .high, p => trap (clamp p pDomain) 200 300 500 500

/-! ## Rules -/

inductive Consequent
  | good
  | moderate
  | usg
  | unhealthy
  | veryUnhealthy
deriving DecidableEq, Repr

/-- The output ramp: where membership 0 and membership 1 lie. -/
def consequents : Consequent → Rat × Rat
  | .good => (0, 40)
  | .moderate => (30, 60)
  | .usg => (50, 75)
  | .unhealthy => (65, 90)
  | .veryUnhealthy => (85, 100)

def ruleTable : TempTerm → HumTerm → PmTerm → Consequent
  | .low, .dry, .low => .moderate
  | .low, .humid, .low => .good
  | .low, .wet, .low => .good
  | .medium, .dry, .low => .moderate
  | .medium, .humid, .low => .good
  | .medium, .wet, .low => .good
  | .high, .dry, .low => .moderate
  | .high, .humid, .low => .moderate
  | .high, .wet, .low => .moderate
  | .low, .dry, .medium => .usg
  | .low, .humid, .medium => .moderate
  | .low, .wet, .medium => .moderate
  | .medium, .dry, .medium => .usg
  | .medium, .humid, .medium => .moderate
  | .medium, .wet, .medium => .moderate
  | .high, .dry, .medium => .usg
  | .high, .humid, .medium => .usg
  | .high, .wet, .medium => .usg
  | .low, .dry, .high => .unhealthy
  | .low, .humid, .high => .unhealthy
  | .low, .wet, .high => .unhealthy
  | .medium, .dry, .high => .unhealthy
  | .medium, .humid, .high => .unhealthy
  | .medium, .wet, .high => .unhealthy
  | .high, .dry, .high => .veryUnhealthy
  | .high, .humid, .high => .unhealthy
  | .high, .wet, .high => .unhealthy

/-! ## Inference -/

/-- `_inverse` -/
def inverse (alpha lo hi : Rat) : Rat := lo + alpha * (hi - lo)

def defaultScore : Rat := 20

/-- `_weighted_average` of the fired pairs `(alpha, z)`. -/
def weightedAverage (fired : List (Rat × Rat)) : Rat :=
  if (fired.map Prod.fst).sum = 0 then defaultScore
  else (fired.map fun p => p.1 * p.2).sum / (fired.map Prod.fst).sum

/-- The fired rules, in the order of the three loops. -/
def fired (temperature humidity pm25 : Rat) : List (Rat × Rat) :=
  [TempTerm.low, .medium, .high].flatMap fun t =>
    if tempTerms t temperature = 0 then []
    else [HumTerm.dry, .humid, .wet].flatMap fun h =>
      if humTerms h humidity = 0 then []
      else [PmTerm.low, .medium, .high].flatMap fun p =>
        if pmTerms p pm25 = 0 then []
        else
          let alpha := min (tempTerms t temperature) (min (humTerms h humidity) (pmTerms p pm25))
          if alpha = 0 then []
          else [(alpha, inverse alpha (consequents (ruleTable t h p)).1 (consequents (ruleTable t h p)).2)]

/-- `round(score, 2)` -/
def round2 (score : Rat) : Rat := roundHalfEven (100 * score) / 100

def fuzzyScore (temperature humidity pm25 : Rat) : Rat :=
  round2 (weightedAverage (fired temperature humidity pm25))

/-! ## The range of the score -/

theorem trap_mem {x a b c d : Rat} (ab : a ≤ b) (cd : c ≤ d) :
    0 ≤ trap x a b c d ∧ trap x a b c d ≤ 1 := by
  unfold trap
  split
  · norm_num
  · rename_i plateau
    split
    · split
      · norm_num
      · rename_i rises
        have positive : 0 < b - a := sub_pos.mpr (lt_of_le_of_ne ab (Ne.symm rises))
        split
        · norm_num
        · rw [div_le_one positive]
          refine ⟨div_nonneg ?_ positive.le, ?_⟩ <;> linarith
    · rename_i past
      have beyond : c < x := not_le.mp fun le => plateau ⟨not_lt.mp past, le⟩
      split
      · norm_num
      · rename_i falls
        have positive : 0 < d - c := sub_pos.mpr (lt_of_le_of_ne cd falls)
        split
        · norm_num
        · rw [div_le_one positive]
          refine ⟨div_nonneg ?_ positive.le, ?_⟩ <;> linarith

theorem tempTerms_mem (t : TempTerm) (x : Rat) : 0 ≤ tempTerms t x ∧ tempTerms t x ≤ 1 := by
  cases t <;> exact trap_mem (by norm_num) (by norm_num)

theorem humTerms_mem (h : HumTerm) (x : Rat) : 0 ≤ humTerms h x ∧ humTerms h x ≤ 1 := by
  cases h <;> exact trap_mem (by norm_num) (by norm_num)

theorem pmTerms_mem (p : PmTerm) (x : Rat) : 0 ≤ pmTerms p x ∧ pmTerms p x ≤ 1 := by
  cases p <;> exact trap_mem (by norm_num) (by norm_num)

/-- Every ramp rises, inside [0, 100]. -/
theorem consequents_mem (c : Consequent) :
    0 ≤ (consequents c).1 ∧ (consequents c).1 ≤ (consequents c).2 ∧ (consequents c).2 ≤ 100 := by
  cases c <;> simp only [consequents] <;> norm_num

theorem inverse_mem {alpha : Rat} (nonneg : 0 ≤ alpha) (le_one : alpha ≤ 1) (c : Consequent) :
    0 ≤ inverse alpha (consequents c).1 (consequents c).2 ∧
      inverse alpha (consequents c).1 (consequents c).2 ≤ 100 := by
  obtain ⟨low, rises, high⟩ := consequents_mem c
  have step : alpha * ((consequents c).2 - (consequents c).1) ≤
      1 * ((consequents c).2 - (consequents c).1) :=
    mul_le_mul_of_nonneg_right le_one (sub_nonneg.mpr rises)
  have up : 0 ≤ alpha * ((consequents c).2 - (consequents c).1) :=
    mul_nonneg nonneg (sub_nonneg.mpr rises)
  unfold inverse
  exact ⟨by linarith, by linarith⟩

theorem fired_mem (temperature humidity pm25 : Rat) :
    ∀ p ∈ fired temperature humidity pm25, 0 ≤ p.1 ∧ 0 ≤ p.2 ∧ p.2 ≤ 100 := by
  intro pair member
  simp only [fired, List.mem_flatMap] at member
  obtain ⟨t, _, member⟩ := member
  split at member
  · cases member
  obtain ⟨h, _, member⟩ := List.mem_flatMap.mp member
  split at member
  · cases member
  obtain ⟨p, _, member⟩ := List.mem_flatMap.mp member
  split at member
  · cases member
  split at member
  · cases member
  cases List.mem_singleton.mp member
  have nonneg := le_min (tempTerms_mem t temperature).1
    (le_min (humTerms_mem h humidity).1 (pmTerms_mem p pm25).1)
  have le_one := le_trans (min_le_left _ (min (humTerms h humidity) (pmTerms p pm25)))
    (tempTerms_mem t temperature).2
  exact ⟨nonneg, inverse_mem nonneg le_one _⟩

theorem weightedAverage_range (temperature humidity pm25 : Rat) :
    0 ≤ weightedAverage (fired temperature humidity pm25) ∧
      weightedAverage (fired temperature humidity pm25) ≤ 100 := by
  unfold weightedAverage
  split
  · norm_num [defaultScore]
  · rename_i weighted
    exact weightedAverage_mem (fired_mem temperature humidity pm25) weighted

/-- **The score** is a number of hundredths in [0, 100]. -/
theorem exists_score (temperature humidity pm25 : Rat) :
    ∃ n : Int, 0 ≤ n ∧ n ≤ 10000 ∧ fuzzyScore temperature humidity pm25 = n / 100 := by
  obtain ⟨low, high⟩ := weightedAverage_range temperature humidity pm25
  refine ⟨roundHalfEven (100 * weightedAverage (fired temperature humidity pm25)), ?_, ?_, rfl⟩
  · exact le_roundHalfEven (by push_cast; linarith)
  · exact roundHalfEven_le (by push_cast; linarith)

end Empyrean.Ingest.Fuzzy
