/-
# Empyrean.Ingest.FuzzyMix — two neighbouring levels in four contexts

In a transition zone two levels of PM2.5 share the unit, and up to four contexts have any
strength.  A context of strength `s` fires the ramp of the lower level with the smaller of
`s` and that level's share, and the ramp of the upper level likewise.  The four strengths
are `1 - m`, `m` and twice `n`, with `n ≤ m ≤ 1 / 2`.

* `Pair` — the two ramps of a context; `Pair.numer`, `mass` — what it adds to the numerator
  and to the denominator.
* `Profile` — four contexts and their ramps; `Profile.score` — their average.
* `exists_lower_profile`, `exists_upper_profile` — the score of the inference in either zone is the
  score of a profile.
-/
import Empyrean.Ingest.FuzzyOrder

namespace Empyrean.Ingest.Fuzzy

set_option autoImplicit false

open Empyrean.Theory.Strengths

/-! ## Two ramps -/

/-- The consequents of a context at two neighbouring levels. -/
inductive Pair
  | goodModerate
  | moderateUsg
  | moderateUnhealthy
  | usgUnhealthy
  | usgVeryUnhealthy
deriving DecidableEq, Repr

inductive Zone
  | lower
  | upper
deriving DecidableEq, Repr

namespace Pair

def zone : Pair → Zone
  | goodModerate => .lower
  | moderateUsg => .lower
  | moderateUnhealthy => .upper
  | usgUnhealthy => .upper
  | usgVeryUnhealthy => .upper

theorem lower_cases {k : Pair} (lower : k.zone = .lower) : k = goodModerate ∨ k = moderateUsg := by
  cases k with
  | goodModerate => exact .inl rfl
  | moderateUsg => exact .inr rfl
  | _ => cases lower

theorem upper_cases {k : Pair} (upper : k.zone = .upper) :
    k = moderateUnhealthy ∨ k = usgUnhealthy ∨ k = usgVeryUnhealthy := by
  cases k with
  | moderateUnhealthy => exact .inl rfl
  | usgUnhealthy => exact .inr (.inl rfl)
  | usgVeryUnhealthy => exact .inr (.inr rfl)
  | _ => cases upper

def below : Pair → Consequent
  | goodModerate => .good
  | moderateUsg => .moderate
  | moderateUnhealthy => .moderate
  | usgUnhealthy => .usg
  | usgVeryUnhealthy => .usg

def above : Pair → Consequent
  | goodModerate => .moderate
  | moderateUsg => .usg
  | moderateUnhealthy => .unhealthy
  | usgUnhealthy => .unhealthy
  | usgVeryUnhealthy => .veryUnhealthy

/-- What the lower ramp adds to the numerator at the strength `a` and the upper one at `b`. -/
def value (k : Pair) (a b : Rat) : Rat :=
  a * inverse a (consequents k.below).1 (consequents k.below).2 +
    b * inverse b (consequents k.above).1 (consequents k.above).2

/-- The same for a context of strength `s`, where the upper level holds `q`. -/
def numer (k : Pair) (s q : Rat) : Rat := k.value (min s (1 - q)) (min s q)

theorem numer_zero (k : Pair) {q : Rat} (nonneg : 0 ≤ q) (le_one : q ≤ 1) : k.numer 0 q = 0 := by
  rw [numer, min_eq_left nonneg, min_eq_left (by linarith : 0 ≤ 1 - q), value, zero_mul,
    zero_mul, add_zero]

end Pair

def mass (s q : Rat) : Rat := min s (1 - q) + min s q

theorem mass_zero {q : Rat} (nonneg : 0 ≤ q) (le_one : q ≤ 1) : mass 0 q = 0 := by
  rw [mass, min_eq_left nonneg, min_eq_left (by linarith : 0 ≤ 1 - q), add_zero]

/-- The strengths of a context make up its own at the least. -/
theorem le_mass {s q : Rat} (nonneg : 0 ≤ q) (le_one : q ≤ 1) (s_nonneg : 0 ≤ s) (s_le : s ≤ 1) :
    s ≤ mass s q := by
  unfold mass
  rcases min_choice s (1 - q) with here | here <;> rcases min_choice s q with there |
    there <;> rw [here, there] <;> linarith

/-! ## Profiles -/

/-- Four contexts: the strengths are `1 - large`, `large` and twice `small`. -/
structure Profile (zone : Zone) where
  top : Pair
  second : Pair
  third : Pair
  fourth : Pair
  large : Rat
  small : Rat
  top_zone : top.zone = zone
  second_zone : second.zone = zone
  third_zone : third.zone = zone
  fourth_zone : fourth.zone = zone
  small_nonneg : 0 ≤ small
  small_le : small ≤ large
  large_le : large ≤ 1 / 2

namespace Profile

variable {zone : Zone} (P : Profile zone)

def sum (f : Pair → Rat → Rat) : Rat :=
  f P.top (1 - P.large) + f P.second P.large + (f P.third P.small + f P.fourth P.small)

def score (q : Rat) : Rat := (P.sum fun k s => k.numer s q) / P.sum fun _ s => mass s q

theorem one_le_mass {q : Rat} (nonneg : 0 ≤ q) (le_one : q ≤ 1) :
    1 ≤ P.sum fun _ s => mass s q := by
  have small := P.small_nonneg
  have le := P.small_le
  have half := P.large_le
  have first : 1 - P.large ≤ mass (1 - P.large) q :=
    le_mass nonneg le_one (by linarith) (by linarith)
  have second : P.large ≤ mass P.large q := le_mass nonneg le_one (by linarith) (by linarith)
  have third : P.small ≤ mass P.small q := le_mass nonneg le_one small (by linarith)
  unfold sum
  linarith

end Profile

/-! ## The corners in order -/

/-- The four contexts of `exists_corners`. -/
structure Corners (t h : Rat) (a b c d : Context) (x y : Rat) : Prop where
  strengths : strength t h a = min x y ∧ strength t h b = min x (1 - y) ∧
    strength t h c = min (1 - x) y ∧
    strength t h d = min (1 - x) (1 - y)
  sum_eq : ∀ f : Context → Rat, (∀ e, strength t h e = 0 → f e = 0) →
    ∑ e, f e = f a + f b + (f c + f d)

namespace Corners

variable {t h x y : Rat} {a b c d : Context}

theorem mirror (corners : Corners t h a b c d x y) : Corners t h b a d c x (1 - y) where
  strengths := by
    obtain ⟨at_a, at_b, at_c, at_d⟩ := corners.strengths
    rw [sub_sub_cancel]
    exact ⟨at_b, at_a, at_d, at_c⟩
  sum_eq := by
    intro f vanishes
    rw [corners.sum_eq f vanishes]
    ring

theorem transpose (corners : Corners t h a b c d x y) : Corners t h a c b d y x where
  strengths := by
    obtain ⟨at_a, at_b, at_c, at_d⟩ := corners.strengths
    exact ⟨at_a.trans (min_comm _ _), at_c.trans (min_comm _ _), at_b.trans (min_comm _ _),
      at_d.trans (min_comm _ _)⟩
  sum_eq := by
    intro f vanishes
    rw [corners.sum_eq f vanishes]
    ring

/-- The second number can be taken to be a half at the least. -/
theorem exists_half (corners : Corners t h a b c d x y) :
    ∃ a b c d y', Corners t h a b c d x y' ∧ 1 / 2 ≤ y' := by
  rcases le_total (1 / 2) y with large | small
  · exact ⟨a, b, c, d, y, corners, large⟩
  · exact ⟨b, a, d, c, 1 - y, corners.mirror, by linarith⟩

/-- Both can, and the second is not the larger one. -/
theorem exists_halves (corners : Corners t h a b c d x y) :
    ∃ a b c d x' y', Corners t h a b c d x' y' ∧ 1 / 2 ≤ y' ∧ y' ≤ x' := by
  obtain ⟨a₁, b₁, c₁, d₁, y', first, y_half⟩ := corners.exists_half
  obtain ⟨a₂, b₂, c₂, d₂, x', second, x_half⟩ := first.transpose.exists_half
  rcases le_total x' y' with below | above
  · exact ⟨a₂, b₂, c₂, d₂, y', x', second, x_half, below⟩
  · exact ⟨a₂, c₂, b₂, d₂, x', y', second.transpose, y_half, above⟩

end Corners

/-- The strengths in order: `1 - m`, `m` and twice `n`. -/
theorem exists_ordered (t h : Rat) : ∃ (a b c d : Context) (m n : Rat), 0 ≤ n ∧ n ≤ m ∧ m ≤ 1 / 2 ∧
    (strength t h a = 1 - m ∧ strength t h b = m ∧ strength t h c = n ∧ strength t h d = n) ∧
    ∀ f : Context → Rat, (∀ e, strength t h e = 0 → f e = 0) →
      ∑ e, f e = f a + f b + (f c + f d) := by
  obtain ⟨_, _, _, _, _, _, strengths, _, sum_eq⟩ := exists_corners t h
  obtain ⟨a, b, c, d, x, y, corners, half, below⟩ := Corners.exists_halves ⟨strengths, sum_eq⟩
  obtain ⟨at_a, at_b, at_c, at_d⟩ := corners.strengths
  have le_one : 0 ≤ 1 - x := ((strength_mem t h c).1.trans_eq at_c).trans (min_le_left _ _)
  refine ⟨a, b, c, d, 1 - y, 1 - x, le_one,
    by linarith, by linarith, ⟨?_, ?_, ?_, ?_⟩, corners.sum_eq⟩
  · rw [at_a, min_eq_right below, sub_sub_cancel]
  · rw [at_b, min_eq_right (by linarith)]
  · rw [at_c, min_eq_left (by linarith)]
  · rw [at_d, min_eq_left (by linarith)]

/-! ## The two transition zones -/

/-- The pair of a context where the levels low and medium share the unit. -/
def lowerPair (c : Context) : Pair :=
  match ruleTable c.1 c.2 .low with
  | .good => .goodModerate
  | _ => .moderateUsg

/-- The pair of a context where the levels medium and high do. -/
def upperPair (c : Context) : Pair :=
  match ruleTable c.1 c.2 .medium, ruleTable c.1 c.2 .high with
  | .moderate, _ => .moderateUnhealthy
  | _, .unhealthy => .usgUnhealthy
  | _, _ => .usgVeryUnhealthy

theorem lowerPair_spec (c : Context) :
    (lowerPair c).zone = .lower ∧ (lowerPair c).below = ruleTable c.1 c.2 .low ∧
    (lowerPair c).above = ruleTable c.1 c.2 .medium := by
  obtain ⟨i, j⟩ := c
  cases i <;> cases j <;> exact ⟨rfl, rfl, rfl⟩

theorem upperPair_spec (c : Context) :
    (upperPair c).zone = .upper ∧ (upperPair c).below = ruleTable c.1 c.2 .medium ∧
    (upperPair c).above = ruleTable c.1 c.2 .high := by
  obtain ⟨i, j⟩ := c
  cases i <;> cases j <;> exact ⟨rfl, rfl, rfl⟩

/-- A profile with the pairs of its contexts. -/
theorem exists_profile {zone : Zone} {pair : Context → Pair} (among : ∀ c, (pair c).zone = zone)
    (t h : Rat) : ∃ P : Profile zone, ∀ f : Pair → Rat → Rat, (∀ k, f k 0 = 0) →
      ∑ c, f (pair c) (strength t h c) = P.sum f := by
  obtain ⟨a, b, c, d, m, n, nonneg, le, half, ⟨at_a, at_b, at_c, at_d⟩, sum_eq⟩ :=
    exists_ordered t h
  refine ⟨⟨pair a, pair b, pair c, pair d, m, n, among a, among b, among c, among d, nonneg, le, half⟩, ?_⟩
  intro f vanishes
  rw [sum_eq _ fun e zero => by rw [zero, vanishes], at_a, at_b, at_c, at_d]
  rfl

/-- Where two levels share the unit, the score is that of the profile. -/
theorem score_eq {zone : Zone} {pair : Context → Pair} {P : Profile zone} {t h p q : Rat}
    (sums : ∀ f : Pair → Rat → Rat, (∀ k, f k 0 = 0) → ∑ c, f (pair c) (strength t h c) = P.sum f)
    (nonneg : 0 ≤ q) (le_one : q ≤ 1)
    (weighted : ∀ c, ∑ k, alpha t h p (c.1, c.2, k) *
      inverse (alpha t h p (c.1, c.2, k)) (ramp (c.1, c.2, k)).1 (ramp (c.1, c.2, k)).2 =
        (pair c).numer (strength t h c) q)
    (total : ∀ c : Context, ∑ k, alpha t h p (c.1, c.2, k) = mass (strength t h c) q) :
    weightedAverage (fired t h p) = P.score q := by
  rw [weightedAverage_eq, weighted_eq, total_contexts, Finset.sum_congr rfl fun c _ => weighted c,
    Finset.sum_congr rfl fun c _ => total c, sums (fun k s => k.numer s q) fun k =>
      k.numer_zero nonneg le_one,
    sums (fun _ s => mass s q) fun _ => mass_zero nonneg le_one]
  rfl

/-- Without the level high the other two fire. -/
theorem sum_lower {p : Rat} (none : pmTerms .high p = 0) (t h : Rat) (c : Context)
    (f : Rat → PmTerm → Rat) (vanishes : f 0 .high = 0) :
    ∑ k, f (alpha t h p (c.1, c.2, k)) k =
      f (min (strength t h c) (pmTerms .low p)) .low +
        f (min (strength t h c) (pmTerms .medium p)) .medium := by
  rw [sum_pmTerm, alpha_context, alpha_context, alpha_context, none,
    min_eq_right (strength_mem t h c).1, vanishes, add_zero]

theorem exists_lower_profile (t h : Rat) : ∃ P : Profile .lower, ∀ p, pmTerms .high p = 0 →
    weightedAverage (fired t h p) = P.score (pmTerms .medium p) := by
  obtain ⟨P, sums⟩ := exists_profile (fun c => (lowerPair_spec c).1) t h
  refine ⟨P, fun p none => score_eq sums (pmTerms_mem .medium p).1 (pmTerms_mem .medium p).2 ?_ ?_⟩
  all_goals
    intro c
    have rest : pmTerms .low p = 1 - pmTerms .medium p := by
      have := (pmTerms_three p).1
      linarith
  · rw [sum_lower none t h c (fun a k => a * inverse a (ramp (c.1, c.2, k)).1 (ramp (c.1, c.2, k)).2) (zero_mul _), rest,
      Pair.numer, Pair.value, (lowerPair_spec c).2.1, (lowerPair_spec c).2.2]
    rfl
  · rw [sum_lower none t h c (fun a _ => a) rfl, rest]
    rfl

theorem exists_upper_profile (t h : Rat) : ∃ P : Profile .upper, ∀ p, pmTerms .low p = 0 →
    weightedAverage (fired t h p) = P.score (pmTerms .high p) := by
  obtain ⟨P, sums⟩ := exists_profile (fun c => (upperPair_spec c).1) t h
  refine ⟨P, fun p none => score_eq sums (pmTerms_mem .high p).1 (pmTerms_mem .high p).2 ?_ ?_⟩
  all_goals
    intro c
    have rest : pmTerms .medium p = 1 - pmTerms .high p := by
      have := (pmTerms_three p).1
      linarith
  · rw [sum_upper none t h c (fun a k => a * inverse a (ramp (c.1, c.2, k)).1 (ramp (c.1, c.2, k)).2) (zero_mul _), rest,
      Pair.numer, Pair.value, (upperPair_spec c).2.1, (upperPair_spec c).2.2]
    rfl
  · rw [sum_upper none t h c (fun a _ => a) rfl, rest]
    rfl

end Empyrean.Ingest.Fuzzy
