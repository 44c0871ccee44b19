/-
# Empyrean.Ingest.FuzzyOrder — a whole PM2.5 level more

The score is not monotone in PM2.5: inside a transition zone it can fall.  From a level
that holds alone to anywhere above the next transition zone it does not, whatever the
temperature and the humidity.

In a context (a temperature term and a humidity term, with the smaller of their two
memberships) the level low fires `good` or `moderate`, the level medium the consequent
above that, the level high `unhealthy` at the least.  `relief` is 1 in the contexts of
`good`: their ramps lie below those of the others, at medium by less than at low.

* `low_le_upper` — the level low against any mixture of the two upper levels.
* `high_ge` — the level high against the ramps of the lower levels.
* `fuzzyScore_le_of_level` — both, for the rounded score.
-/
import Empyrean.Ingest.FuzzyPartition

namespace Empyrean.Ingest.Fuzzy

set_option autoImplicit false

open Empyrean.Theory.Rounding Empyrean.Theory.Strengths

/-! ## Contexts -/

abbrev Context := TempTerm × HumTerm

/-- The strength of a temperature term and a humidity term together. -/
def strength (t h : Rat) (c : Context) : Rat := min (tempTerms c.1 t) (humTerms c.2 h)

def relief (c : Context) : Rat := if ruleTable c.1 c.2 .low = .good then 1 else 0

theorem relief_mem (c : Context) : 0 ≤ relief c ∧ relief c ≤ 1 := by
  unfold relief
  split <;> norm_num

theorem inverse_low (c : Context) (a : Rat) :
    inverse a (ramp (c.1, c.2, .low)).1 (ramp (c.1, c.2, .low)).2 =
      30 + 30 * a - relief c * (30 - 10 * a) := by
  obtain ⟨i, j⟩ := c
  cases i <;> cases j <;>
    simp only [ramp, ruleTable, consequents, inverse, relief, reduceCtorEq, if_true, if_false] <;>
    ring

theorem inverse_medium (c : Context) (a : Rat) :
    inverse a (ramp (c.1, c.2, .medium)).1 (ramp (c.1, c.2, .medium)).2 =
      50 + 25 * a - relief c * (20 - 5 * a) := by
  obtain ⟨i, j⟩ := c
  cases i <;> cases j <;>
    simp only [ramp, ruleTable, consequents, inverse, relief, reduceCtorEq, if_true, if_false] <;>
    ring

theorem inverse_high (c : Context) {a : Rat} (le_one : a ≤ 1) :
    65 + 25 * a ≤ inverse a (ramp (c.1, c.2, .high)).1 (ramp (c.1, c.2, .high)).2 := by
  obtain ⟨i, j⟩ := c
  cases i <;> cases j <;> simp only [ramp, ruleTable, consequents, inverse] <;> linarith

theorem strength_mem (t h : Rat) (c : Context) : 0 ≤ strength t h c ∧ strength t h c ≤ 1 :=
  ⟨le_min (tempTerms_mem c.1 t).1 (humTerms_mem c.2 h).1,
    (min_le_left _ _).trans (tempTerms_mem c.1 t).2⟩

theorem alpha_context (t h p : Rat) (c : Context) (k : PmTerm) :
    alpha t h p (c.1, c.2, k) = min (strength t h c) (pmTerms k p) := (min_assoc _ _ _).symm

/-- The numerator and the denominator of the average, by context. -/
theorem weighted_eq (t h p : Rat) :
    ((fired t h p).map fun pair => pair.1 * pair.2).sum =
      ∑ c : Context, ∑ k, alpha t h p (c.1, c.2, k) *
        inverse (alpha t h p (c.1, c.2, k)) (ramp (c.1, c.2, k)).1 (ramp (c.1, c.2, k)).2 := by
  rw [fired_eq, List.map_map, firedRules_sum, Fintype.sum_prod_type]
  refine Finset.sum_congr rfl fun i _ => Finset.sum_congr rfl fun j _ =>
    Finset.sum_congr rfl fun k _ => ?_
  split
  · rename_i zero
    rw [zero, zero_mul]
  · rfl

theorem total_contexts (t h p : Rat) :
    ((fired t h p).map Prod.fst).sum = ∑ c : Context, ∑ k, alpha t h p (c.1, c.2, k) := by
  rw [total_eq, Fintype.sum_prod_type]

/-! ## Where one level holds alone -/

theorem clamp_le {x bound : Rat} {domain : Rat × Rat} (le : x ≤ bound) (low : domain.1 ≤ bound) :
    clamp x domain ≤ bound := max_le low ((min_le_right _ _).trans le)

theorem le_clamp {x bound : Rat} {domain : Rat × Rat} (le : bound ≤ x) (high : bound ≤ domain.2) :
    bound ≤ clamp x domain := (le_min high le).trans (le_max_right _ _)

theorem pm_clamped (p : Rat) : 0 ≤ clamp p pDomain ∧ clamp p pDomain ≤ 500 :=
  clamp_mem (by norm_num [pDomain] : pDomain.1 ≤ pDomain.2)

theorem pmTerms_low_of_le {p : Rat} (le : p ≤ 50) : pmTerms .low p = 1 := by
  have inside := pm_clamped p
  rw [pmTerms, trap_left inside.1 (by norm_num), if_pos (clamp_le le (by norm_num [pDomain]))]

theorem pmTerms_low_of_ge {p : Rat} (ge : 100 ≤ p) : pmTerms .low p = 0 := by
  have inside := pm_clamped p
  have far : 100 ≤ clamp p pDomain := le_clamp ge (by norm_num [pDomain])
  rw [pmTerms, trap_left inside.1 (by norm_num), if_neg (by linarith), if_pos far]

theorem pmTerms_high_of_le {p : Rat} (le : p ≤ 200) : pmTerms .high p = 0 := by
  have inside := pm_clamped p
  have near : clamp p pDomain ≤ 200 := clamp_le le (by norm_num [pDomain])
  rw [pmTerms, trap_right inside.2 (by norm_num), if_neg (by linarith), if_pos near]

theorem pmTerms_high_of_ge {p : Rat} (ge : 300 ≤ p) : pmTerms .high p = 1 := by
  have inside := pm_clamped p
  rw [pmTerms, trap_right inside.2 (by norm_num), if_pos (le_clamp ge (by norm_num [pDomain]))]

/-- A level that holds the whole unit leaves none to the others. -/
theorem pmTerms_alone {p : Rat} {k k' : PmTerm} (whole : pmTerms k p = 1) (other : k' ≠ k) :
    pmTerms k' p = 0 := by
  have total := (pmTerms_three p).1
  have low := (pmTerms_mem .low p).1
  have medium := (pmTerms_mem .medium p).1
  have high := (pmTerms_mem .high p).1
  cases k <;> cases k' <;> first | exact absurd rfl other | linarith

/-- With one level alone the contexts fire with their own strength. -/
theorem sum_alone {p : Rat} {k : PmTerm} (whole : pmTerms k p = 1) (t h : Rat) (c : Context)
    (f : Rat → PmTerm → Rat) (vanishes : ∀ k, f 0 k = 0) :
    ∑ k', f (alpha t h p (c.1, c.2, k')) k' = f (strength t h c) k := by
  rw [Finset.sum_eq_single k]
  · rw [alpha_context, whole, min_eq_left (strength_mem t h c).2]
  · intro k' _ other
    rw [alpha_context, pmTerms_alone whole other, min_eq_right (strength_mem t h c).1, vanishes]
  · intro outside
    exact absurd (Finset.mem_univ k) outside

/-- Without the level low the other two fire. -/
theorem sum_upper {p : Rat} (none : pmTerms .low p = 0) (t h : Rat) (c : Context)
    (f : Rat → PmTerm → Rat) (vanishes : f 0 .low = 0) :
    ∑ k, f (alpha t h p (c.1, c.2, k)) k =
      f (min (strength t h c) (pmTerms .medium p)) .medium +
        f (min (strength t h c) (pmTerms .high p)) .high := by
  rw [sum_pmTerm, alpha_context, alpha_context, alpha_context, none,
    min_eq_right (strength_mem t h c).1, vanishes, zero_add]

/-! ## Four contexts -/

/-- At most four contexts have any strength; theirs are the minima of `x` or `1 - x` and
`y` or `1 - y`. -/
theorem exists_corners (t h : Rat) :
    ∃ (a b c d : Context) (x y : Rat),
      (strength t h a = min x y ∧ strength t h b = min x (1 - y) ∧ strength t h c = min (1 - x) y ∧
        strength t h d = min (1 - x) (1 - y)) ∧
      (∀ e, strength t h e ≠ 0 → e = a ∨ e = b ∨ e = c ∨ e = d) ∧
      ∀ f : Context → Rat, (∀ e, strength t h e = 0 → f e = 0) →
        ∑ e, f e = f a + f b + (f c + f d) := by
  obtain ⟨i, i', temps⟩ := exists_tempTerms_supported t
  obtain ⟨j, j', hums⟩ := exists_humTerms_supported h
  have temp_total : tempTerms i t + tempTerms i' t = 1 :=
    (temps.sum_eq fun _ zero => zero).symm.trans (tempTerms_partition t).total
  have hum_total : humTerms j h + humTerms j' h = 1 :=
    (hums.sum_eq fun _ zero => zero).symm.trans (humTerms_partition h).total
  have temp_rest : tempTerms i' t = 1 - tempTerms i t := by linarith
  have hum_rest : humTerms j' h = 1 - humTerms j h := by linarith
  have silent (e : Context) (zero : tempTerms e.1 t = 0 ∨ humTerms e.2 h = 0) :
      strength t h e = 0 := by
    refine le_antisymm ?_ (strength_mem t h e).1
    rcases zero with zero | zero
    · exact zero ▸ min_le_left _ _
    · exact zero ▸ min_le_right _ _
  refine ⟨(i, j), (i, j'), (i', j), (i', j'), tempTerms i t, humTerms j h,
    ⟨rfl, by rw [strength, hum_rest], by rw [strength, temp_rest], by rw [strength, temp_rest, hum_rest]⟩, ?_, ?_⟩
  · intro e strong
    obtain ⟨left, right⟩ := not_or.mp (mt (silent e) strong)
    rcases temps.eq_or_eq left with first |
      second <;> rcases hums.eq_or_eq right with third | fourth
    · exact Or.inl (Prod.ext first third)
    · exact Or.inr (Or.inl (Prod.ext first fourth))
    · exact Or.inr (Or.inr (Or.inl (Prod.ext second third)))
    · exact Or.inr (Or.inr (Or.inr (Prod.ext second fourth)))
  · intro f vanishes
    rw [Fintype.sum_prod_type]
    exact temps.sum_sum_eq hums fun i j zero => vanishes (i, j) (silent (i, j) zero)

/-- The strengths of the four are large on the average of their own. -/
theorem corners_strong (x y : Rat) :
    0 ≤ min x y * (25 * min x y - 10) + min x (1 - y) * (25 * min x (1 - y) - 10) +
      (min (1 - x) y * (25 * min (1 - x) y - 10) + min (1 - x) (1 - y) * (25 * min (1 - x) (1 - y) - 10)) := by
  have first := sq_nonneg (x - 1 / 5)
  have second := sq_nonneg (y - 1 / 2)
  have third := sq_nonneg (x - 1 / 2)
  have fourth := sq_nonneg (y - 1 / 5)
  have fifth := sq_nonneg (x - 4 / 5)
  have sixth := sq_nonneg (y - 4 / 5)
  rcases le_total x y with xy | yx <;> rcases le_total x (1 - y) with small | large
  · rw [min_eq_left xy, min_eq_left small, min_eq_right (by linarith : y ≤ 1 - x),
      min_eq_right (by linarith : 1 - y ≤ 1 - x)]
    linarith
  · rw [min_eq_left xy, min_eq_right large, min_eq_left (by linarith : 1 - x ≤ y),
      min_eq_right (by linarith : 1 - y ≤ 1 - x)]
    linarith
  · rw [min_eq_right yx, min_eq_left small, min_eq_right (by linarith : y ≤ 1 - x),
      min_eq_left (by linarith : 1 - x ≤ 1 - y)]
    linarith
  · rw [min_eq_right yx, min_eq_right large, min_eq_left (by linarith : 1 - x ≤ y),
      min_eq_left (by linarith : 1 - x ≤ 1 - y)]
    linarith

/-! ## The level high against the lower ramps -/

theorem high_ge {p : Rat} (whole : pmTerms .high p = 1) (t h : Rat) :
    75 ≤ weightedAverage (fired t h p) := by
  have positive := lt_of_lt_of_le zero_lt_one (one_le_total t h p)
  rw [weightedAverage_eq, le_div_iff₀ positive, weighted_eq, total_contexts, Finset.mul_sum]
  obtain ⟨a, b, c, d, x, y, ⟨at_a, at_b, at_c, at_d⟩, _, sum_eq⟩ := exists_corners t h
  have strong : 0 ≤ ∑ e, strength t h e * (25 * strength t h e - 10) := by
    rw [sum_eq _ fun e zero => by rw [zero, zero_mul], at_a, at_b, at_c, at_d]
    exact corners_strong x y
  rw [← sub_nonneg, ← Finset.sum_sub_distrib]
  refine strong.trans (Finset.sum_le_sum fun e _ => ?_)
  obtain ⟨nonneg, le_one⟩ := strength_mem t h e
  rw [sum_alone whole t h e (fun m k => m * inverse m (ramp (e.1, e.2, k)).1 (ramp (e.1, e.2, k)).2) fun k => zero_mul _,
    sum_alone whole t h e (fun m _ => m) fun _ => rfl]
  have value := mul_le_mul_of_nonneg_left (inverse_high e le_one) nonneg
  linarith

/-- Without the level high no ramp ends above 75. -/
theorem lower_le {p : Rat} (none : pmTerms .high p = 0) (t h : Rat) : weightedAverage (fired t h p) ≤ 75 := by
  have bounds : ∀ rule ∈ firedRules t h p, (0 : Rat) ≤ (ramp rule).1 ∧ (ramp rule).2 ≤ 75 := ?_
  · exact (score_between bounds).2
  intro rule fires
  refine ⟨(consequents_mem _).1, ?_⟩
  obtain ⟨i, j, k⟩ := rule
  cases k with
  | high => exact absurd ((alpha_eq_zero_iff ..).mpr (Or.inr (Or.inr none))) ((mem_firedRules ..).mp fires)
  | low => cases i <;> cases j <;> simp only [ramp, ruleTable, consequents] <;> norm_num
  | medium => cases i <;> cases j <;> simp only [ramp, ruleTable, consequents] <;> norm_num

/-! ## The mixture of the upper levels against the level low -/

/-- What a context of strength `m` adds above a level when the levels medium and high hold
`q` and `r`. -/
def surplus (level q r m : Rat) : Rat :=
  min m q * (50 + 25 * min m q - level) + min m r * (65 + 25 * min m r - level)

section

variable {q r m : Rat}

theorem surplus_fifty (q_nonneg : 0 ≤ q) (r_nonneg : 0 ≤ r) (nonneg : 0 ≤ m) :
    0 ≤ surplus 50 q r m := by
  have medium := le_min nonneg q_nonneg
  have high := le_min nonneg r_nonneg
  exact add_nonneg (mul_nonneg medium (by linarith)) (mul_nonneg high (by linarith))

theorem neg_one_le_surplus (r_nonneg : 0 ≤ r) (nonneg : 0 ≤ m) : -1 ≤ surplus 60 q r m := by
  have square := sq_nonneg (5 * min m q - 1)
  have share := le_min nonneg r_nonneg
  have high : 0 ≤ min m r * (65 + 25 * min m r - 60) := mul_nonneg share (by linarith)
  unfold surplus
  linarith

/-- A strong context has enough for three others. -/
theorem three_le_surplus (q_nonneg : 0 ≤ q) (r_nonneg : 0 ≤ r) (unit : q + r = 1)
    (strong : 2 / 3 ≤ m) : 3 ≤ surplus 60 q r m := by
  have q_low := le_min (by linarith : 0 ≤ m) q_nonneg
  have r_low := le_min (by linarith : 0 ≤ m) r_nonneg
  unfold surplus
  rcases le_total (2 / 3) q with much | little
  · have large : 2 / 3 ≤ min m q := le_min strong much
    nlinarith [mul_nonneg r_low r_low]
  · have large : 1 / 3 ≤ min m r := le_min (by linarith) (by linarith)
    nlinarith [sq_nonneg (5 * min m q - 1)]

theorem surplus_zero (level : Rat) (q_nonneg : 0 ≤ q) (r_nonneg : 0 ≤ r) :
    surplus level q r 0 = 0 := by
  rw [surplus, min_eq_left q_nonneg, min_eq_left r_nonneg, zero_mul, zero_mul, add_zero]

end

/-- With one strong context the surplus of all is not negative. -/
theorem surplus_nonneg {t h q r : Rat} (q_nonneg : 0 ≤ q) (r_nonneg : 0 ≤ r) (unit : q + r = 1)
    {e : Context} (strong : 2 / 3 ≤ strength t h e) : 0 ≤ ∑ c, surplus 60 q r (strength t h c) := by
  obtain ⟨a, b, c, d, x, y, _, corner, sum_eq⟩ := exists_corners t h
  rw [sum_eq _ fun c zero => by rw [zero, surplus_zero 60 q_nonneg r_nonneg]]
  have low (c : Context) : -1 ≤ surplus 60 q r (strength t h c) :=
    neg_one_le_surplus r_nonneg (strength_mem t h c).1
  have high := three_le_surplus q_nonneg r_nonneg unit strong
  have at_a := low a
  have at_b := low b
  have at_c := low c
  have at_d := low d
  rcases corner e (by linarith : (0 : Rat) < strength t h e).ne' with rfl | rfl | rfl |
    rfl <;> linarith

/-- What the relief of the contexts takes from the average at low, and at medium. -/
def deficitLow (t h : Rat) : Rat := ∑ c, relief c * (strength t h c * (30 - 10 * strength t h c))

def deficitMedium (t h q : Rat) : Rat :=
  ∑ c, relief c * (min (strength t h c) q * (20 - 5 * min (strength t h c) q))

theorem deficitMedium_nonneg {t h q : Rat} (nonneg : 0 ≤ q) : 0 ≤ deficitMedium t h q := by
  refine Finset.sum_nonneg fun c _ =>
    mul_nonneg (relief_mem c).1 (mul_nonneg (le_min (strength_mem t h c).1 nonneg) ?_)
  have := (min_le_left (strength t h c) q).trans (strength_mem t h c).2
  linarith

theorem deficitMedium_le {t h q : Rat} (nonneg : 0 ≤ q) : deficitMedium t h q ≤ deficitLow t h := by
  refine Finset.sum_le_sum fun c _ => mul_le_mul_of_nonneg_left ?_ (relief_mem c).1
  obtain ⟨m_nonneg, m_le⟩ := strength_mem t h c
  have smaller := min_le_left (strength t h c) q
  have a_nonneg := le_min m_nonneg nonneg
  exact mul_le_mul smaller (by linarith) (by linarith) m_nonneg

/-- The level low stays below a level the strengths of all contexts allow. -/
theorem low_le {p level : Rat} (whole : pmTerms .low p = 1) {t h : Rat}
    (allowed : ∀ c, 30 + 30 * strength t h c ≤ level) :
    ((fired t h p).map fun pair => pair.1 * pair.2).sum ≤
      level * ((fired t h p).map Prod.fst).sum - deficitLow t h := by
  rw [weighted_eq, total_contexts, deficitLow, Finset.mul_sum, ← Finset.sum_sub_distrib]
  refine Finset.sum_le_sum fun c _ => ?_
  obtain ⟨nonneg, le_one⟩ := strength_mem t h c
  rw [sum_alone whole t h c (fun m k => m * inverse m (ramp (c.1, c.2, k)).1 (ramp (c.1, c.2, k)).2) fun k => zero_mul _,
    sum_alone whole t h c (fun m _ => m) fun _ => rfl, inverse_low]
  have bounded := mul_le_mul_of_nonneg_right (allowed c) nonneg
  linarith

/-- The mixture of the upper levels stays above a level the contexts together allow. -/
theorem upper_ge {p level : Rat} (none : pmTerms .low p = 0) {t h : Rat}
    (allowed : 0 ≤ ∑ c, surplus level (pmTerms .medium p) (pmTerms .high p) (strength t h c)) :
    level * ((fired t h p).map Prod.fst).sum - deficitMedium t h (pmTerms .medium p) ≤
      ((fired t h p).map fun pair => pair.1 * pair.2).sum := by
  rw [weighted_eq, total_contexts, deficitMedium, Finset.mul_sum, ← sub_nonneg,
    ← Finset.sum_sub_distrib, ← Finset.sum_sub_distrib]
  refine allowed.trans (Finset.sum_le_sum fun c _ => ?_)
  obtain ⟨nonneg, le_one⟩ := strength_mem t h c
  rw [sum_upper none t h c (fun m k => m * inverse m (ramp (c.1, c.2, k)).1 (ramp (c.1, c.2, k)).2) (zero_mul _),
    sum_upper none t h c (fun m _ => m) rfl, inverse_medium]
  have share := le_min nonneg (pmTerms_mem .high p).1
  have value := mul_le_mul_of_nonneg_left
    (inverse_high c ((min_le_left _ (pmTerms .high p)).trans le_one)) share
  unfold surplus
  linarith

theorem total_le_of_upper {p p' : Rat} (whole : pmTerms .low p = 1) (none : pmTerms .low p' = 0)
    (t h : Rat) : ((fired t h p).map Prod.fst).sum ≤ ((fired t h p').map Prod.fst).sum := by
  rw [total_contexts, total_contexts]
  refine Finset.sum_le_sum fun c _ => ?_
  rw [sum_alone whole t h c (fun m _ => m) fun _ => rfl, sum_upper none t h c (fun m _ => m) rfl]
  have unit := (pmTerms_three p').1
  obtain ⟨nonneg, le_one⟩ := strength_mem t h c
  have q_nonneg := (pmTerms_mem .medium p').1
  have r_nonneg := (pmTerms_mem .high p').1
  rcases min_choice (strength t h c) (pmTerms .medium p') with here | here <;>
    rcases min_choice (strength t h c) (pmTerms .high p') with there |
      there <;> rw [here, there] <;> linarith

/-- The level low never scores above the upper two, in whatever mixture. -/
theorem low_le_upper {p p' : Rat} (whole : pmTerms .low p = 1) (none : pmTerms .low p' = 0)
    (t h : Rat) : weightedAverage (fired t h p) ≤ weightedAverage (fired t h p') := by
  have q_nonneg := (pmTerms_mem .medium p').1
  have r_nonneg := (pmTerms_mem .high p').1
  have unit : pmTerms .medium p' + pmTerms .high p' = 1 := by
    have := (pmTerms_three p').1
    rw [none] at this
    linarith
  -- around 60 where some context is strong, around 50 where none is
  obtain ⟨level, low_allowed, upper_allowed⟩ :
      ∃ level : Rat, (∀ c, 30 + 30 * strength t h c ≤ level) ∧
      0 ≤ ∑ c, surplus level (pmTerms .medium p') (pmTerms .high p') (strength t h c) := by
    by_cases weak : ∀ c, strength t h c ≤ 2 / 3
    · exact ⟨50, fun c => by linarith [weak c],
        Finset.sum_nonneg fun c _ => surplus_fifty q_nonneg r_nonneg (strength_mem t h c).1⟩
    · obtain ⟨e, strong⟩ := not_forall.mp weak
      exact ⟨60, fun c => by linarith [(strength_mem t h c).2],
        surplus_nonneg q_nonneg r_nonneg unit (not_le.mp strong).le⟩
  rw [weightedAverage_eq, weightedAverage_eq]
  exact average_le_average (lt_of_lt_of_le zero_lt_one (one_le_total t h p))
    (total_le_of_upper whole none t h)
    (low_le whole low_allowed) (upper_ge none upper_allowed) (deficitMedium_nonneg q_nonneg)
      (deficitMedium_le q_nonneg)

/-! ## The rounded score -/

theorem round2_mono : Monotone round2 := by
  intro score score' le
  have rounded : roundHalfEven (100 * score) ≤ roundHalfEven (100 * score') :=
    roundHalfEven_mono (by linarith)
  have cast : (roundHalfEven (100 * score) : Rat) ≤ roundHalfEven (100 * score') := by
    exact_mod_cast rounded
  unfold round2
  linarith

/-- **A whole level up** never scores better: from the low plateau to anywhere past its
transition, and from anywhere before the high transition to the high plateau. -/
theorem fuzzyScore_le_of_level (t h : Rat) {p p' : Rat}
    (level : (p ≤ 50 ∧ 100 ≤ p') ∨ (p ≤ 200 ∧ 300 ≤ p')) :
    fuzzyScore t h p ≤ fuzzyScore t h p' := by
  refine round2_mono ?_
  rcases level with ⟨low, past⟩ | ⟨before, high⟩
  · exact low_le_upper (pmTerms_low_of_le low) (pmTerms_low_of_ge past) t h
  · exact (lower_le (pmTerms_high_of_le before) t h).trans (high_ge (pmTerms_high_of_ge high) t h)

/-- From clean air into the second transition, in a context with four rules. -/
theorem fuzzyScore_level_up : fuzzyScore 25 50 40 ≤ fuzzyScore 25 50 235 :=
  fuzzyScore_le_of_level 25 50 (Or.inl ⟨by norm_num, by norm_num⟩)

end Empyrean.Ingest.Fuzzy
