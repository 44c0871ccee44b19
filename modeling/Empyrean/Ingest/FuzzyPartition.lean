/-
# Empyrean.Ingest.FuzzyPartition — the rules that fire

The three terms of a variable share one unit of membership wherever the reading lies, and
at most two of them have any.  So one to eight rules fire, with a total strength of one
at the least, and the fallback of `_weighted_average` is never taken.

* `threeTerms` — the common shape of the nine terms of `fuzzy/membership.py`.
* `fired_eq` — the loops of `infer` as the list of the rules that fire.
* `infer_wellFounded` — the memberships, the rules, their strength and the score.
-/
import Empyrean.Theory.Strengths
import Empyrean.Ingest.Fuzzy

namespace Empyrean.Ingest.Fuzzy

set_option autoImplicit false

open Empyrean.Theory.Rounding Empyrean.Theory.Strengths

/-! ## Three terms of one variable -/

/-- A left shoulder falls from `a` to `b`. -/
theorem trap_left {x lo a b : Rat} (inside : lo ≤ x) (falls : a < b) :
    trap x lo lo a b = if x ≤ a then 1 else if b ≤ x then 0 else (b - x) / (b - a) := by
  unfold trap
  by_cases flat : x ≤ a
  · rw [if_pos ⟨inside, flat⟩, if_pos flat]
  · rw [if_neg fun both => flat both.2, if_neg (not_lt.mpr inside), if_neg falls.ne, if_neg flat]

/-- A right shoulder rises from `c` to `d` and stays. -/
theorem trap_right {x c d top : Rat} (inside : x ≤ top) (rises : c < d) :
    trap x c d top top = if d ≤ x then 1 else if x ≤ c then 0 else (x - c) / (d - c) := by
  unfold trap
  by_cases flat : d ≤ x
  · rw [if_pos ⟨flat, inside⟩, if_pos flat]
  · rw [if_neg fun both => flat both.1, if_pos (not_le.mp flat), if_neg rises.ne', if_neg flat]

/-- Where one term falls the next one rises: the three add up to one, and the outer two
never meet. -/
theorem threeTerms {x lo a b c d top : Rat} (low : lo ≤ x) (high : x ≤ top) (falls : a < b)
    (flat : b ≤ c) (rises : c < d) :
    trap x lo lo a b + trap x a b c d + trap x c d top top = 1 ∧
      (trap x lo lo a b = 0 ∨ trap x c d top top = 0) := by
  rw [trap_left low falls, trap_right high rises]
  unfold trap
  have left : b - a ≠ 0 := (sub_pos.mpr falls).ne'
  have right : d - c ≠ 0 := (sub_pos.mpr rises).ne'
  rcases le_or_gt x a with before | after
  · -- the first plateau
    rw [if_pos before, if_neg fun both : b ≤ x ∧ x ≤ c => by linarith [both.1],
      if_pos (by linarith), if_neg falls.ne', if_pos before, if_neg (by linarith), if_pos (by linarith)]
    exact ⟨by norm_num, Or.inr rfl⟩
  rcases lt_or_ge x b with falling | fallen
  · -- between the first two plateaus
    rw [if_neg (not_le.mpr after), if_neg (not_le.mpr falling), if_neg fun both : b ≤ x ∧
      x ≤ c => by linarith [both.1],
      if_pos falling, if_neg falls.ne', if_neg (not_le.mpr after), if_neg (by linarith),
        if_pos (by linarith)]
    refine ⟨?_, Or.inr rfl⟩
    field_simp
    ring
  rw [if_neg (not_le.mpr after), if_pos fallen]
  refine ⟨?_, Or.inl rfl⟩
  rcases le_or_gt x c with middle | past
  · -- the second plateau
    rw [if_pos ⟨fallen, middle⟩, if_neg (by linarith), if_pos middle]
    norm_num
  rw [if_neg fun both : b ≤ x ∧ x ≤ c => by
    linarith [both.2], if_neg (not_lt.mpr fallen), if_neg rises.ne]
  rcases lt_or_ge x d with rising | risen
  · -- between the last two plateaus
    rw [if_neg (not_le.mpr rising), if_neg (not_le.mpr rising), if_neg (not_le.mpr past)]
    field_simp
    ring
  · rw [if_pos risen, if_pos risen]
    norm_num

theorem clamp_mem {x : Rat} {domain : Rat × Rat} (order : domain.1 ≤ domain.2) :
    domain.1 ≤ clamp x domain ∧ clamp x domain ≤ domain.2 :=
  ⟨le_max_left _ _, max_le order (min_le_left _ _)⟩

/-- A clamped value stays where it is. -/
theorem clamp_clamp {x : Rat} {domain : Rat × Rat} (order : domain.1 ≤ domain.2) :
    clamp (clamp x domain) domain = clamp x domain := by
  obtain ⟨low, high⟩ := clamp_mem (x := x) order
  rw [clamp, min_eq_right high, max_eq_right low]

theorem tempTerms_three (t : Rat) :
    tempTerms .low t + tempTerms .medium t + tempTerms .high t = 1 ∧
      (tempTerms .low t = 0 ∨ tempTerms .high t = 0) := by
  obtain ⟨low, high⟩ := clamp_mem (x := t) (by norm_num [tDomain] : tDomain.1 ≤ tDomain.2)
  exact threeTerms low high (by norm_num) (by norm_num) (by norm_num)

theorem humTerms_three (h : Rat) :
    humTerms .dry h + humTerms .humid h + humTerms .wet h = 1 ∧
      (humTerms .dry h = 0 ∨ humTerms .wet h = 0) := by
  obtain ⟨low, high⟩ := clamp_mem (x := h) (by norm_num [hDomain] : hDomain.1 ≤ hDomain.2)
  exact threeTerms low high (by norm_num) (by norm_num) (by norm_num)

theorem pmTerms_three (p : Rat) :
    pmTerms .low p + pmTerms .medium p + pmTerms .high p = 1 ∧
      (pmTerms .low p = 0 ∨ pmTerms .high p = 0) := by
  obtain ⟨low, high⟩ := clamp_mem (x := p) (by norm_num [pDomain] : pDomain.1 ≤ pDomain.2)
  exact threeTerms low high (by norm_num) (by norm_num) (by norm_num)

/-! ## As partitions -/

instance : Fintype TempTerm := ⟨{.low, .medium, .high}, fun t => by cases t <;> decide⟩

instance : Fintype HumTerm := ⟨{.dry, .humid, .wet}, fun h => by cases h <;> decide⟩

instance : Fintype PmTerm := ⟨{.low, .medium, .high}, fun p => by cases p <;> decide⟩

section

variable {M : Type} [AddCommMonoid M]

theorem sum_tempTerm (f : TempTerm → M) : ∑ t, f t = f .low + (f .medium + f .high) := by
  rw [← add_zero (f .high)]
  rfl

theorem sum_humTerm (f : HumTerm → M) : ∑ h, f h = f .dry + (f .humid + f .wet) := by
  rw [← add_zero (f .wet)]
  rfl

theorem sum_pmTerm (f : PmTerm → M) : ∑ p, f p = f .low + (f .medium + f .high) := by
  rw [← add_zero (f .high)]
  rfl

end

theorem tempTerms_partition (t : Rat) : Partition fun i => tempTerms i t :=
  ⟨fun i => (tempTerms_mem i t).1, by rw [sum_tempTerm, ← add_assoc, (tempTerms_three t).1]⟩

theorem humTerms_partition (h : Rat) : Partition fun j => humTerms j h :=
  ⟨fun j => (humTerms_mem j h).1, by rw [sum_humTerm, ← add_assoc, (humTerms_three h).1]⟩

theorem pmTerms_partition (p : Rat) : Partition fun k => pmTerms k p :=
  ⟨fun k => (pmTerms_mem k p).1, by rw [sum_pmTerm, ← add_assoc, (pmTerms_three p).1]⟩

/-- Two neighbouring terms share the unit. -/
theorem exists_tempTerms_supported (t : Rat) : ∃ a b, Supported (fun i => tempTerms i t) a b := by
  rcases (tempTerms_three t).2 with low | high
  · exact ⟨.medium, .high, by decide, fun i not_a not_b => by cases i <;> trivial⟩
  · exact ⟨.low, .medium, by decide, fun i not_a not_b => by cases i <;> trivial⟩

theorem exists_humTerms_supported (h : Rat) : ∃ a b, Supported (fun j => humTerms j h) a b := by
  rcases (humTerms_three h).2 with dry | wet
  · exact ⟨.humid, .wet, by decide, fun j not_a not_b => by cases j <;> trivial⟩
  · exact ⟨.dry, .humid, by decide, fun j not_a not_b => by cases j <;> trivial⟩

theorem exists_pmTerms_supported (p : Rat) : ∃ a b, Supported (fun k => pmTerms k p) a b := by
  rcases (pmTerms_three p).2 with low | high
  · exact ⟨.medium, .high, by decide, fun k not_a not_b => by cases k <;> trivial⟩
  · exact ⟨.low, .medium, by decide, fun k not_a not_b => by cases k <;> trivial⟩

/-! ## The rules that fire -/

abbrev Rule := TempTerm × HumTerm × PmTerm

/-- The firing strength of a rule. -/
def alpha (t h p : Rat) (rule : Rule) : Rat :=
  min (tempTerms rule.1 t) (min (humTerms rule.2.1 h) (pmTerms rule.2.2 p))

/-- The output ramp of a rule. -/
def ramp (rule : Rule) : Rat × Rat := consequents (ruleTable rule.1 rule.2.1 rule.2.2)

/-- The rules with a positive strength, in the order of the three loops. -/
def firedRules (t h p : Rat) : List Rule :=
  [TempTerm.low, .medium, .high].flatMap fun i =>
    [HumTerm.dry, .humid, .wet].flatMap fun j =>
      [PmTerm.low, .medium, .high].flatMap fun k =>
        if alpha t h p (i, j, k) = 0 then [] else [(i, j, k)]

/-- What `infer` returns. -/
structure Inference where
  score : Rat
  rulesFired : Nat
deriving DecidableEq, Repr

def infer (temperature humidity pm25 : Rat) : Inference where
  score := round2 (weightedAverage (fired temperature humidity pm25))
  rulesFired := (fired temperature humidity pm25).length

/-- The worker's score is the score of the inference. -/
theorem fuzzyScore_eq (t h p : Rat) : fuzzyScore t h p = (infer t h p).score := rfl

theorem alpha_mem (t h p : Rat) (rule : Rule) : 0 ≤ alpha t h p rule ∧ alpha t h p rule ≤ 1 :=
  ⟨le_min (tempTerms_mem _ t).1 (le_min (humTerms_mem _ h).1 (pmTerms_mem _ p).1),
    (min_le_left _ _).trans (tempTerms_mem _ t).2⟩

/-- A rule without one of its terms does not fire. -/
theorem alpha_eq_zero_iff (t h p : Rat) (rule : Rule) :
    alpha t h p rule = 0 ↔
      tempTerms rule.1 t = 0 ∨ humTerms rule.2.1 h = 0 ∨ pmTerms rule.2.2 p = 0 := by
  have temp := (tempTerms_mem rule.1 t).1
  have hum := (humTerms_mem rule.2.1 h).1
  have pm := (pmTerms_mem rule.2.2 p).1
  unfold alpha
  rw [min_eq_iff, min_eq_iff]
  constructor
  · rintro (⟨zero, _⟩ | ⟨⟨zero, _⟩ | ⟨zero, _⟩, _⟩)
    · exact Or.inl zero
    · exact Or.inr (Or.inl zero)
    · exact Or.inr (Or.inr zero)
  · rintro (zero | zero | zero)
    · exact Or.inl ⟨zero, zero ▸ le_min hum pm⟩
    · exact Or.inr ⟨Or.inl ⟨zero, zero ▸ pm⟩, (min_le_left _ _).trans (zero ▸ temp)⟩
    · exact Or.inr ⟨Or.inr ⟨zero, zero ▸ hum⟩, (min_le_right _ _).trans (zero ▸ temp)⟩

theorem mem_firedRules (t h p : Rat) (rule : Rule) : rule ∈ firedRules t h p ↔
    alpha t h p rule ≠ 0 := by
  obtain ⟨i, j, k⟩ := rule
  simp only [firedRules, List.mem_flatMap, List.mem_ite_nil_left, List.mem_singleton]
  constructor
  · rintro ⟨i', _, j', _, k', _, fires, same⟩
    cases same
    exact fires
  · intro fires
    exact ⟨i, by cases i <;> simp, j, by cases j <;> simp, k, by cases k <;> simp, fires, rfl⟩

/-- The skipped iterations of the loops are those of rules without strength. -/
theorem fired_eq (t h p : Rat) :
    fired t h p = (firedRules t h p).map fun rule =>
      (alpha t h p rule, inverse (alpha t h p rule) (ramp rule).1 (ramp rule).2) := by
  unfold fired firedRules
  rw [List.map_flatMap]
  refine List.flatMap_congr fun i _ => ?_
  split
  · rename_i zero
    have silent : ∀ j k, alpha t h p (i, j, k) = 0 :=
      fun j k => (alpha_eq_zero_iff t h p (i, j, k)).mpr (Or.inl zero)
    simp [silent]
  rw [List.map_flatMap]
  refine List.flatMap_congr fun j _ => ?_
  split
  · rename_i zero
    have silent : ∀ k, alpha t h p (i, j, k) = 0 :=
      fun k => (alpha_eq_zero_iff t h p (i, j, k)).mpr (Or.inr (Or.inl zero))
    simp [silent]
  rw [List.map_flatMap]
  refine List.flatMap_congr fun k _ => ?_
  split
  · rename_i zero
    rw [if_pos ((alpha_eq_zero_iff t h p (i, j, k)).mpr (Or.inr (Or.inr zero))), List.map_nil]
  · rw [apply_ite (List.map _), List.map_nil, List.map_singleton]
    rfl

/-- A sum over the fired rules, over all rules. -/
theorem firedRules_sum {M : Type} [AddCommMonoid M] (t h p : Rat) (f : Rule → M) :
    ((firedRules t h p).map f).sum =
      ∑ i, ∑ j, ∑ k, if alpha t h p (i, j, k) = 0 then 0 else f (i, j, k) := by
  have cell (rule : Rule) : ((if alpha t h p rule = 0 then [] else [rule]).map f).sum =
      if alpha t h p rule = 0 then 0 else f rule := by
    split <;> simp
  simp only [firedRules, List.flatMap_cons, List.flatMap_nil, List.append_nil, List.map_append,
    List.sum_append, cell, sum_tempTerm, sum_humTerm, sum_pmTerm]

/-! ## Number and strength -/

theorem rulesFired_eq (t h p : Rat) :
    (infer t h p).rulesFired = ∑ i, ∑ j, ∑ k, if alpha t h p (i, j, k) = 0 then 0 else 1 := by
  rw [← firedRules_sum t h p fun _ => 1, List.map_const', List.sum_replicate_nat, mul_one,
    infer, fired_eq, List.length_map]

theorem rulesFired_le (t h p : Rat) : (infer t h p).rulesFired ≤ 8 := by
  obtain ⟨i, i', temps⟩ := exists_tempTerms_supported t
  obtain ⟨j, j', hums⟩ := exists_humTerms_supported h
  obtain ⟨k, k', pms⟩ := exists_pmTerms_supported p
  have each (rule : Rule) : (if alpha t h p rule = 0 then 0 else 1) ≤ 1 := by split <;> omega
  have silent (rule : Rule) (zero : alpha t h p rule = 0) :
      (if alpha t h p rule = 0 then 0 else 1) = 0 := if_pos zero
  have line (i : TempTerm) (j : HumTerm) :
      ∑ k, (if alpha t h p (i, j, k) = 0 then 0 else 1) ≤ 2 := by
    rw [pms.sum_eq fun k zero => silent (i, j, k) ((alpha_eq_zero_iff ..).mpr (Or.inr (Or.inr zero)))]
    exact add_le_add (each _) (each _)
  have plane (i : TempTerm) : ∑ j, ∑ k, (if alpha t h p (i, j, k) = 0 then 0 else 1) ≤ 4 := by
    rw [hums.sum_eq fun j zero => Finset.sum_eq_zero fun k _ =>
      silent (i, j, k) ((alpha_eq_zero_iff ..).mpr (Or.inr (Or.inl zero)))]
    exact add_le_add (line _ _) (line _ _)
  rw [rulesFired_eq, temps.sum_eq fun i zero => Finset.sum_eq_zero fun j _ => Finset.sum_eq_zero fun k _ =>
    silent (i, j, k) ((alpha_eq_zero_iff ..).mpr (Or.inl zero))]
  exact add_le_add (plane _) (plane _)

/-- The total strength, the denominator of the average. -/
theorem total_eq (t h p : Rat) :
    ((fired t h p).map Prod.fst).sum = ∑ i, ∑ j, ∑ k, alpha t h p (i, j, k) := by
  rw [fired_eq, List.map_map, firedRules_sum]
  refine Finset.sum_congr rfl fun i _ => Finset.sum_congr rfl fun j _ =>
    Finset.sum_congr rfl fun k _ => ?_
  split
  · rename_i zero
    exact zero.symm
  · rfl

theorem one_le_total (t h p : Rat) : 1 ≤ ((fired t h p).map Prod.fst).sum := by
  have combined :=
    (tempTerms_partition t).one_le_sum_min (humTerms_partition h) (pmTerms_partition p)
  rw [total_eq]
  simp only [alpha]
  exact combined

theorem firedRules_ne_nil (t h p : Rat) : firedRules t h p ≠ [] := by
  intro none
  have total := one_le_total t h p
  rw [fired_eq, none] at total
  norm_num at total

theorem one_le_rulesFired (t h p : Rat) : 1 ≤ (infer t h p).rulesFired := by
  rw [infer, fired_eq, List.length_map]
  exact List.length_pos_of_ne_nil (firedRules_ne_nil t h p)

/-! ## The score -/

/-- The default is not reached. -/
theorem weightedAverage_eq (t h p : Rat) :
    weightedAverage (fired t h p) =
      ((fired t h p).map fun pair => pair.1 * pair.2).sum / ((fired t h p).map Prod.fst).sum := by
  rw [weightedAverage, if_neg (lt_of_lt_of_le zero_lt_one (one_le_total t h p)).ne']

theorem inverse_between {a lo hi : Rat} (nonneg : 0 ≤ a) (le_one : a ≤ 1) (rises : lo ≤ hi) :
    lo ≤ inverse a lo hi ∧ inverse a lo hi ≤ hi := by
  have up := mul_nonneg nonneg (sub_nonneg.mpr rises)
  have down := mul_le_mul_of_nonneg_right le_one (sub_nonneg.mpr rises)
  unfold inverse
  exact ⟨by linarith, by linarith⟩

theorem score_between {t h p lo hi : Rat}
    (bounds : ∀ rule ∈ firedRules t h p, lo ≤ (ramp rule).1 ∧ (ramp rule).2 ≤ hi) :
    lo ≤ weightedAverage (fired t h p) ∧ weightedAverage (fired t h p) ≤ hi := by
  rw [weightedAverage_eq]
  refine weightedAverage_mem (fun pair member => ?_)
    (lt_of_lt_of_le zero_lt_one (one_le_total t h p)).ne'
  rw [fired_eq] at member
  obtain ⟨rule, fires, rfl⟩ := List.mem_map.mp member
  obtain ⟨nonneg, le_one⟩ := alpha_mem t h p rule
  obtain ⟨low, high⟩ := inverse_between nonneg le_one (consequents_mem _).2.1
  obtain ⟨bound, bound'⟩ := bounds rule fires
  exact ⟨nonneg, bound.trans low, high.trans bound'⟩

/-- The ramps end at whole numbers. -/
theorem consequents_eq_intCast (c : Consequent) : ∃ lo hi : Int, consequents c = (↑lo, ↑hi) := by
  cases c
  · exact ⟨0, 40, rfl⟩
  · exact ⟨30, 60, rfl⟩
  · exact ⟨50, 75, rfl⟩
  · exact ⟨65, 90, rfl⟩
  · exact ⟨85, 100, rfl⟩

/-- Rounding to hundredths stays between the ends of ramps. -/
theorem round2_between {x : Rat} {c c' : Consequent} (above : (consequents c).1 ≤ x)
    (below : x ≤ (consequents c').2) :
    (consequents c).1 ≤ round2 x ∧ round2 x ≤ (consequents c').2 := by
  obtain ⟨lo, _, ends⟩ := consequents_eq_intCast c
  obtain ⟨_, hi, ends'⟩ := consequents_eq_intCast c'
  rw [ends] at above ⊢
  rw [ends'] at below ⊢
  have low : 100 * lo ≤ roundHalfEven (100 * x) := le_roundHalfEven (by push_cast; linarith)
  have high : roundHalfEven (100 * x) ≤ 100 * hi := roundHalfEven_le (by push_cast; linarith)
  have low : (100 * lo : Rat) ≤ roundHalfEven (100 * x) := by exact_mod_cast low
  have high : (roundHalfEven (100 * x) : Rat) ≤ 100 * hi := by exact_mod_cast high
  unfold round2
  constructor
  · rw [le_div_iff₀ (by norm_num)]
    linarith
  · rw [div_le_iff₀ (by norm_num)]
    linarith

/-- The rounding moves the score by half a hundredth at most. -/
theorem abs_round2_sub_le (x : Rat) : |round2 x - x| ≤ 1 / 200 := by
  have near := abs_roundHalfEven_sub_le (100 * x)
  rw [abs_le] at near ⊢
  unfold round2
  constructor <;> linarith [near.1, near.2]

/-- Two of the fired rules have the lowest and the highest ramp. -/
theorem exists_extremes (t h p : Rat) :
    ∃ low ∈ firedRules t h p, ∃ high ∈ firedRules t h p,
      ∀ rule ∈ firedRules t h p, (ramp low).1 ≤ (ramp rule).1 ∧ (ramp rule).2 ≤ (ramp high).2 := by
  obtain ⟨first, member⟩ := List.exists_mem_of_ne_nil _ (firedRules_ne_nil t h p)
  have nonempty : (firedRules t h p).toFinset.Nonempty := ⟨first, List.mem_toFinset.mpr member⟩
  obtain ⟨low, low_mem, lowest⟩ := Finset.exists_min_image _ (fun rule => (ramp rule).1) nonempty
  obtain ⟨high, high_mem, highest⟩ := Finset.exists_max_image _ (fun rule => (ramp rule).2) nonempty
  exact ⟨low, List.mem_toFinset.mp low_mem, high, List.mem_toFinset.mp high_mem, fun rule fires =>
    ⟨lowest rule (List.mem_toFinset.mpr fires), highest rule (List.mem_toFinset.mpr fires)⟩⟩

theorem fired_congr {t t' h h' p p' : Rat} (temps : ∀ i, tempTerms i t = tempTerms i t')
    (hums : ∀ j, humTerms j h = humTerms j h') (pms : ∀ k, pmTerms k p = pmTerms k p') :
    fired t h p = fired t' h' p' := by
  simp only [fired, temps, hums, pms]

/-- Only the clamped readings are looked at. -/
theorem infer_clamp (t h p : Rat) :
    infer (clamp t tDomain) (clamp h hDomain) (clamp p pDomain) = infer t h p := by
  have same : fired (clamp t tDomain) (clamp h hDomain) (clamp p pDomain) = fired t h p := by
    refine fired_congr (fun i => ?_) (fun j => ?_) fun k => ?_
    · cases i <;> rw [tempTerms, tempTerms, clamp_clamp (by norm_num [tDomain])]
    · cases j <;> rw [humTerms, humTerms, clamp_clamp (by norm_num [hDomain])]
    · cases k <;> rw [pmTerms, pmTerms, clamp_clamp (by norm_num [pDomain])]
  rw [infer, infer, same]

/-- **Every inference**: memberships in [0, 1] that add up to one, one to eight rules, a
total strength of one at the least, a score between the lowest and the highest ramp that
fired before and after it is rounded, and nothing depends on what the clamping removes. -/
theorem infer_wellFounded (t h p : Rat) :
    ((∀ i, 0 ≤ tempTerms i t ∧ tempTerms i t ≤ 1) ∧
        tempTerms .low t + tempTerms .medium t + tempTerms .high t = 1) ∧
      ((∀ j, 0 ≤ humTerms j h ∧ humTerms j h ≤ 1) ∧
        humTerms .dry h + humTerms .humid h + humTerms .wet h = 1) ∧
      ((∀ k, 0 ≤ pmTerms k p ∧ pmTerms k p ≤ 1) ∧
        pmTerms .low p + pmTerms .medium p + pmTerms .high p = 1) ∧
      (1 ≤ (infer t h p).rulesFired ∧ (infer t h p).rulesFired ≤ 8) ∧
      1 ≤ ((fired t h p).map Prod.fst).sum ∧
      (∃ low ∈ firedRules t h p, ∃ high ∈ firedRules t h p,
        (∀ rule ∈ firedRules t h p, (ramp low).1 ≤ (ramp rule).1 ∧ (ramp rule).2 ≤ (ramp high).2) ∧
          ((ramp low).1 ≤ weightedAverage (fired t h p) ∧
            weightedAverage (fired t h p) ≤ (ramp high).2) ∧
          (ramp low).1 ≤ (infer t h p).score ∧ (infer t h p).score ≤ (ramp high).2) ∧
      |(infer t h p).score - weightedAverage (fired t h p)| ≤ 1 / 200 ∧
      (0 ≤ weightedAverage (fired t h p) ∧ weightedAverage (fired t h p) ≤ 100) ∧
      infer (clamp t tDomain) (clamp h hDomain) (clamp p pDomain) = infer t h p := by
  obtain ⟨low, low_mem, high, high_mem, extremes⟩ := exists_extremes t h p
  obtain ⟨above, below⟩ := score_between extremes
  exact ⟨⟨fun i => tempTerms_mem i t, (tempTerms_three t).1⟩,
    ⟨fun j => humTerms_mem j h, (humTerms_three h).1⟩,
    ⟨fun k => pmTerms_mem k p, (pmTerms_three p).1⟩, ⟨one_le_rulesFired t h p, rulesFired_le t h p⟩,
      one_le_total t h p,
    ⟨low, low_mem, high, high_mem, extremes, ⟨above, below⟩, round2_between above below⟩,
      abs_round2_sub_le _,
    weightedAverage_range t h p, infer_clamp t h p⟩

end Empyrean.Ingest.Fuzzy
