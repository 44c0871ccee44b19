/-
# Empyrean.Ingest.FuzzyDip — how far the score can fall

Inside a transition zone the score can fall while PM2.5 rises: a rule of the higher level
begins at the foot of its ramp, below what the lower level still gives.  Before rounding it
never falls by more than 9, from any PM2.5 to any larger one.

* `Profile.dip_of_slack` — the average falls by 9 at the most where the slack of the contexts is
  not negative in sum.
* `Profile.upper_dip`, `Profile.lower_dip` — so it is in either zone: the slack of every context
  alone, or the reserve of the strong one against what the weak ones take.
* `Profile.score_le_alone` — in the lower zone no mixture scores above the level medium alone,
  so a fall across both zones is a fall in the upper one.
* `dip_le` — all of it.
-/
import Empyrean.Ingest.FuzzyMoves

namespace Empyrean.Ingest.Fuzzy

set_option autoImplicit false

namespace Profile

/-! ## Averages -/

section Averages

variable {zone : Zone} (P : Profile zone) {q q' level : Rat}

theorem sum_nonneg {f : Pair → Rat → Rat} (top : 0 ≤ f P.top (1 - P.large))
    (second : 0 ≤ f P.second P.large) (third : 0 ≤ f P.third P.small)
    (fourth : 0 ≤ f P.fourth P.small) : 0 ≤ P.sum f :=
  add_nonneg (add_nonneg top second) (add_nonneg third fourth)

/-- Every context has its strength between nothing and `1 - large`. -/
theorem sum_nonneg_of {f : Pair → Rat → Rat}
    (each : ∀ k : Pair, k.zone = zone → ∀ s, 0 ≤ s → s ≤ 1 - P.large → 0 ≤ f k s) :
    0 ≤ P.sum f := by
  have small := P.small_le
  have small_nonneg := P.small_nonneg
  have half := P.large_le
  refine P.sum_nonneg ?_ ?_ ?_ ?_
  · exact each _ P.top_zone _ (by linarith) le_rfl
  · exact each _ P.second_zone _ (by linarith) (by linarith)
  · exact each _ P.third_zone _ small_nonneg (by linarith)
  · exact each _ P.fourth_zone _ small_nonneg (by linarith)

/-- The numerator and the level times the denominator. -/
theorem sum_sub_mass (level q : Rat) : (P.sum fun k s => k.numer s q - level * mass s q) =
    (P.sum fun k s => k.numer s q) - level * P.sum fun _ s => mass s q := by
  unfold sum
  ring

theorem score_le_iff (nonneg : 0 ≤ q) (le_one : q ≤ 1) :
    P.score q ≤ level ↔ 0 ≤ P.sum fun k s => level * mass s q - k.numer s q := by
  have positive : 0 < P.sum fun _ s => mass s q :=
    zero_lt_one.trans_le (P.one_le_mass nonneg le_one)
  have flipped : (P.sum fun k s => level * mass s q - k.numer s q) =
      -(P.sum fun k s => k.numer s q - level * mass s q) := by
    unfold sum
    ring
  rw [score, div_le_iff₀ positive, flipped, sum_sub_mass]
  constructor <;> intro h <;> linarith

theorem le_score_iff (nonneg : 0 ≤ q) (le_one : q ≤ 1) :
    level ≤ P.score q ↔ 0 ≤ P.sum fun k s => k.numer s q - level * mass s q := by
  have positive : 0 < P.sum fun _ s => mass s q :=
    zero_lt_one.trans_le (P.one_le_mass nonneg le_one)
  rw [score, le_div_iff₀ positive, sum_sub_mass]
  constructor <;> intro h <;> linarith

theorem score_mul_mass (nonneg : 0 ≤ q) (le_one : q ≤ 1) :
    (P.score q * P.sum fun _ s => mass s q) = P.sum fun k s => k.numer s q :=
  div_mul_cancel₀ _ (zero_lt_one.trans_le (P.one_le_mass nonneg le_one)).ne'

/-- **The slack rule.** -/
theorem dip_of_slack (nonneg : 0 ≤ q) (up : q ≤ q') (le_one : q' ≤ 1)
    (enough : 0 ≤ P.sum fun k s => k.slackAt (P.score q) q q' s) : P.score q - 9 ≤ P.score q' := by
  rw [P.le_score_iff (nonneg.trans up) le_one, sum_sub_mass]
  have same := P.score_mul_mass nonneg (up.trans le_one)
  have expand : (P.sum fun k s => k.slackAt (P.score q) q q' s) =
      (P.sum fun k s => k.numer s q') - (P.sum fun k s => k.numer s q) -
        P.score q * ((P.sum fun _ s => mass s q') - P.sum fun _ s => mass s q) +
          9 * P.sum fun _ s => mass s q' := by
    simp only [sum, Pair.slackAt, Pair.slack, Pair.numer, mass]
    ring
  rw [expand] at enough
  linarith

end Averages

/-- Where every slack is, no context needs another one. -/
theorem dip_of_bounds {zone : Zone} (P : Profile zone) {q q' : Rat} (nonneg : 0 ≤ q) (up : q ≤ q')
    (le_one : q' ≤ 1) (ceiling : q < P.large → ∀ k : Pair, k.zone = zone → P.score q ≤ k.ceil)
    (floored : 1 - P.large < q' → ∀ k : Pair, k.zone = zone → k.floor ≤ P.score q) :
    P.score q - 9 ≤ P.score q' := by
  have small := P.small_le
  have half := P.large_le
  have large_nonneg := P.small_nonneg.trans small
  have weak (k : Pair) (here : k.zone = zone) (s : Rat) (s_nonneg : 0 ≤ s) (le : s ≤ P.large) :
      0 ≤ k.slackAt (P.score q) q q' s :=
    k.slackAt_small s_nonneg (le.trans half) nonneg up le_one
      (fun inside => ceiling (by linarith) k here)
      fun beyond => floored (by linarith) k here
  refine P.dip_of_slack nonneg up le_one (P.sum_nonneg ?_ ?_ ?_ ?_)
  · exact Pair.slackAt_top half nonneg up le_one
      (fun inside => ceiling inside _ P.top_zone) fun beyond => floored beyond _ P.top_zone
  · exact weak _ P.second_zone _ large_nonneg le_rfl
  · exact weak _ P.third_zone _ P.small_nonneg small
  · exact weak _ P.fourth_zone _ P.small_nonneg small

/-! ## Where the score can stand -/

/-- While a context fires its lower ramp with its own strength. -/
theorem numer_le {k : Pair} {s q : Rat} (s_nonneg : 0 ≤ s) (nonneg : 0 ≤ q) (below : q ≤ 1 - s) :
    (k.zone = .lower → 0 ≤ 60 * mass s q - k.numer s q) ∧
      (k.zone = .upper → 0 ≤ 80 * mass s q - k.numer s q) := by
  have b_nonneg : 0 ≤ min s q := le_min s_nonneg nonneg
  have b_le : min s q ≤ s := min_le_left _ _
  have b_le' : min s q ≤ 1 - s := (min_le_right _ _).trans below
  have corner := mul_nonneg (sub_nonneg.mpr b_le) (sub_nonneg.mpr b_le')
  have half := mul_nonneg b_nonneg (by linarith : 0 ≤ 1 / 2 - min s q)
  rw [Pair.numer, mass, min_eq_left (by linarith : s ≤ 1 - q), Pair.value_eq]
  constructor
  · intro lower
    rcases Pair.lower_cases lower with rfl |
      rfl <;> simp only [Pair.lo, Pair.rise, Pair.lo', Pair.rise'] <;> linarith
  · intro upper
    rcases Pair.upper_cases upper with rfl | rfl |
      rfl <;> simp only [Pair.lo, Pair.rise, Pair.lo', Pair.rise'] <;> linarith

/-- The strong context with the lowest ramps stays far below 50. -/
theorem strong_good_le {m q : Rat} (nonneg : 0 ≤ q) (le : q ≤ m) (half : m ≤ 1 / 2) :
    10 + 10 * m ≤ 50 * mass (1 - m) q - Pair.goodModerate.numer (1 - m) q := by
  obtain ⟨here, here'⟩ :=
    Pair.shares_below (by linarith : q ≤ 1 - m) (by linarith : q ≤ 1 - (1 - m))
  have share := mul_nonneg nonneg (by linarith : 0 ≤ 1 / 2 - q)
  have square := mul_nonneg (nonneg.trans le) (sub_nonneg.mpr half)
  rw [Pair.numer, mass, here, here', Pair.value_eq]
  simp only [Pair.lo, Pair.rise, Pair.lo', Pair.rise']
  linarith

/-- And no weak one is far above. -/
theorem weak_le {k : Pair} (lower : k.zone = .lower) {s q : Rat} (s_nonneg : 0 ≤ s)
    (half : s ≤ 1 / 2) (nonneg : 0 ≤ q) (below : q ≤ 1 / 2) :
    -(15 / 2 * s) ≤ 50 * mass s q - k.numer s q := by
  have b_nonneg : 0 ≤ min s q := le_min s_nonneg nonneg
  have b_le : min s q ≤ s := min_le_left _ _
  have share := mul_nonneg b_nonneg (by linarith : 0 ≤ 1 / 2 - min s q)
  have square := mul_nonneg s_nonneg (sub_nonneg.mpr half)
  rw [Pair.numer, mass, min_eq_left (by linarith : s ≤ 1 - q), Pair.value_eq]
  rcases Pair.lower_cases lower with rfl |
    rfl <;> simp only [Pair.lo, Pair.rise, Pair.lo', Pair.rise'] <;> linarith

section Lower

variable (P : Profile .lower) {q q' : Rat}

theorem score_le_sixty (nonneg : 0 ≤ q) (le : q ≤ P.large) : P.score q ≤ 60 := by
  have half := P.large_le
  rw [P.score_le_iff nonneg (by linarith)]
  exact P.sum_nonneg_of fun k lower s s_nonneg s_le =>
    (numer_le s_nonneg nonneg (by linarith)).1 lower

theorem score_le_limit (nonneg : 0 ≤ q) (le : q ≤ P.large) : P.score q ≤ P.top.limit := by
  have small := P.small_le
  have small_nonneg := P.small_nonneg
  have half := P.large_le
  have lower := P.top_zone
  have sixty := P.score_le_sixty nonneg le
  cases top : P.top with
  | goodModerate =>
      change P.score q ≤ 50
      rw [P.score_le_iff nonneg (by linarith), sum, top]
      have first := strong_good_le nonneg le half
      have second := weak_le P.second_zone (by linarith) half nonneg (by linarith : q ≤ 1 / 2)
      have third := weak_le P.third_zone small_nonneg (by linarith) nonneg (by linarith : q ≤ 1 / 2)
      have fourth :=
        weak_le P.fourth_zone small_nonneg (by linarith) nonneg (by linarith : q ≤ 1 / 2)
      linarith
  | moderateUsg => exact sixty
  | _ => rw [top] at lower; cases lower

end Lower

theorem score_le_eighty (P : Profile .upper) {q : Rat} (nonneg : 0 ≤ q) (le : q ≤ P.large) :
    P.score q ≤ 80 := by
  have half := P.large_le
  rw [P.score_le_iff nonneg (by linarith)]
  exact P.sum_nonneg_of fun k upper s s_nonneg s_le =>
    (numer_le s_nonneg nonneg (by linarith)).2 upper

/-- While a context fires its upper ramp with its own strength. -/
theorem le_numer {k : Pair} {s q : Rat} (s_nonneg : 0 ≤ s) (s_le : s ≤ 1) (above : s ≤ q)
    (le_one : q ≤ 1) : (k.zone = .lower → -(5 / 2) ≤ k.numer s q - 28 * mass s q ∧
      2 * s + 30 * (s * s) - 49 / 10 ≤ k.numer s q - 28 * mass s q) ∧
    (k.zone = .upper → 0 ≤ k.numer s q - 47 * mass s q) := by
  have a_nonneg : 0 ≤ min s (1 - q) := le_min s_nonneg (by linarith)
  have a_le : min s (1 - q) ≤ s := min_le_left _ _
  have below := mul_nonneg (sub_nonneg.mpr a_le) (add_nonneg a_nonneg s_nonneg)
  have square := mul_nonneg a_nonneg a_nonneg
  have square' := mul_nonneg s_nonneg (sub_nonneg.mpr s_le)
  have dip := sq_nonneg (min s (1 - q) - 13 / 70)
  have dip' := sq_nonneg (min s (1 - q) - 7 / 20)
  have dip'' := sq_nonneg (min s (1 - q) - 3 / 10)
  rw [Pair.numer, mass, min_eq_left above, Pair.value_eq]
  constructor
  · intro lower
    rcases Pair.lower_cases lower with rfl |
      rfl <;> simp only [Pair.lo, Pair.rise, Pair.lo', Pair.rise'] <;>
      constructor <;> linarith
  · intro upper
    rcases Pair.upper_cases upper with rfl | rfl |
      rfl <;> simp only [Pair.lo, Pair.rise, Pair.lo', Pair.rise'] <;> linarith

theorem twentyEight_le_score (P : Profile .lower) {q : Rat} (large : 1 - P.large ≤ q)
    (le_one : q ≤ 1) : 28 ≤ P.score q := by
  have small := P.small_le
  have small_nonneg := P.small_nonneg
  have half := P.large_le
  rw [P.le_score_iff (by linarith) le_one]
  have first := ((le_numer (by linarith) (by linarith) large le_one).1 P.top_zone).2
  have second :=
    ((le_numer (by linarith) (by linarith) (by linarith : P.large ≤ q) le_one).1 P.second_zone).2
  have third :=
    ((le_numer small_nonneg (by linarith) (by linarith : P.small ≤ q) le_one).1 P.third_zone).1
  have fourth :=
    ((le_numer small_nonneg (by linarith) (by linarith : P.small ≤ q) le_one).1 P.fourth_zone).1
  have square := sq_nonneg (P.large - 1 / 2)
  unfold sum
  linarith

theorem fortySeven_le_score (P : Profile .upper) {q : Rat} (large : 1 - P.large ≤ q)
    (le_one : q ≤ 1) : 47 ≤ P.score q := by
  have half := P.large_le
  have positive := P.small_nonneg.trans P.small_le
  rw [P.le_score_iff (by linarith) le_one]
  exact P.sum_nonneg_of fun k upper s s_nonneg s_le =>
    (le_numer s_nonneg (by linarith) (by linarith) le_one).2 upper

/-! ## Inside a zone -/

theorem upper_dip (P : Profile .upper) {q q' : Rat} (nonneg : 0 ≤ q) (up : q ≤ q')
    (le_one : q' ≤ 1) : P.score q - 9 ≤ P.score q' := by
  by_cases low : 1 - P.large < q' ∧ P.score q < 56
  · have enough := P.fortySeven_le_score low.1.le le_one
    linarith [low.2]
  · refine P.dip_of_bounds nonneg up le_one ?_ ?_
    · intro inside k upper
      have eighty := P.score_le_eighty nonneg inside.le
      cases k <;> first | exact eighty | cases upper
    · intro beyond k upper
      have floored : 56 ≤ P.score q := not_lt.mp fun less => low ⟨beyond, less⟩
      simpa only [Pair.floor, upper] using floored

theorem lower_dip (P : Profile .lower) {q q' : Rat} (nonneg : 0 ≤ q) (up : q ≤ q')
    (le_one : q' ≤ 1) : P.score q - 9 ≤ P.score q' := by
  by_cases low : 1 - P.large < q' ∧ P.score q < 37
  · have enough := P.twentyEight_le_score low.1.le le_one
    linarith [low.2]
  by_cases high : q < P.large ∧ 48 < P.score q
  · -- the reserve of the strong context against the three weak ones
    obtain ⟨inside, above⟩ := high
    have small := P.small_le
    have half := P.large_le
    have limited := P.score_le_limit nonneg inside.le
    have weak (k : Pair) (lower : k.zone = .lower) (s : Rat) (s_nonneg : 0 ≤ s) (le : s ≤ P.large) :
        -(P.top.reserve P.large / 3) ≤ k.slackAt (P.score q) q q' s :=
      k.neg_reserve_le P.top_zone lower s_nonneg le half nonneg up le_one above.le limited
    have first := Pair.reserve_le P.top_zone half nonneg inside up le_one above.le limited
    have second := weak _ P.second_zone _ (P.small_nonneg.trans small) le_rfl
    have third := weak _ P.third_zone _ P.small_nonneg small
    have fourth := weak _ P.fourth_zone _ P.small_nonneg small
    refine P.dip_of_slack nonneg up le_one ?_
    unfold sum
    linarith
  · refine P.dip_of_bounds nonneg up le_one ?_ ?_
    · intro inside k lower
      have below : P.score q ≤ 48 := not_lt.mp fun more => high ⟨inside, more⟩
      cases k with
      | goodModerate => exact below
      | moderateUsg => exact below.trans (by norm_num [Pair.ceil])
      | _ => cases lower
    · intro beyond k lower
      have floored : 37 ≤ P.score q := not_lt.mp fun less => low ⟨beyond, less⟩
      simpa only [Pair.floor, lower] using floored

/-! ## The level medium alone -/

/-- What a context adds to the score at medium alone, `A`, over a mixture. -/
def lead (k : Pair) (A q s : Rat) : Rat := A * (mass s q - mass s 1) - (k.numer s q - k.numer s 1)

theorem alone {k : Pair} {s : Rat} (nonneg : 0 ≤ s) (le_one : s ≤ 1) :
    mass s 1 = s ∧ k.numer s 1 = s * (k.lo' + k.rise' * s) := by
  rw [mass, Pair.numer, Pair.value_eq, sub_self, min_eq_right nonneg, min_eq_left le_one]
  exact ⟨by ring, by ring⟩

section Lead

variable {k : Pair} {A s m q : Rat}

theorem lead_eq (nonneg : 0 ≤ s) (le_one : s ≤ 1) :
    lead k A q s = A * (mass s q - s) - (k.numer s q - s * (k.lo' + k.rise' * s)) := by
  obtain ⟨mass_one, numer_one⟩ := alone (k := k) nonneg le_one
  rw [lead, mass_one, numer_one]

theorem lead_weak (lower : k.zone = .lower) (nonneg : 0 ≤ s) (half : s ≤ 1 / 2) (q_nonneg : 0 ≤ q)
    (le_one : q ≤ 1) :
    (40 ≤ A → -(5 * min s (1 - q)) ≤ lead k A q s) ∧ (45 ≤ A → 0 ≤ lead k A q s) := by
  rw [lead_eq nonneg (by linarith)]
  rcases le_total q s with inside | past
  · obtain ⟨here, here'⟩ := Pair.shares_below inside (by linarith : q ≤ 1 - s)
    have square := mul_nonneg nonneg (sub_nonneg.mpr half)
    have more := mul_nonneg (sub_nonneg.mpr inside) (add_nonneg nonneg q_nonneg)
    rw [Pair.numer, mass, here, here', Pair.value_eq]
    refine ⟨fun ge => ?_, fun ge => ?_⟩
    · have level := mul_nonneg q_nonneg (sub_nonneg.mpr ge)
      rcases Pair.lower_cases lower with rfl |
        rfl <;> simp only [Pair.lo, Pair.rise, Pair.lo', Pair.rise'] <;> linarith
    · have level := mul_nonneg q_nonneg (sub_nonneg.mpr ge)
      rcases Pair.lower_cases lower with rfl |
        rfl <;> simp only [Pair.lo, Pair.rise, Pair.lo', Pair.rise'] <;> linarith
  · have a_nonneg : 0 ≤ min s (1 - q) := le_min nonneg (by linarith)
    have a_le : min s (1 - q) ≤ s := min_le_left _ _
    have square := mul_nonneg a_nonneg (by linarith : 0 ≤ 1 / 2 - min s (1 - q))
    rw [Pair.numer, mass, min_eq_left past, Pair.value_eq]
    refine ⟨fun ge => ?_, fun ge => ?_⟩
    · have level := mul_nonneg a_nonneg (sub_nonneg.mpr ge)
      rcases Pair.lower_cases lower with rfl |
        rfl <;> simp only [Pair.lo, Pair.rise, Pair.lo', Pair.rise'] <;> linarith
    · have level := mul_nonneg a_nonneg (sub_nonneg.mpr ge)
      rcases Pair.lower_cases lower with rfl |
        rfl <;> simp only [Pair.lo, Pair.rise, Pair.lo', Pair.rise'] <;> linarith

theorem lead_strong (nonneg : 0 ≤ m) (half : m ≤ 1 / 2) (q_nonneg : 0 ≤ q) (le_one : q ≤ 1) :
    (40 ≤ A → 20 * min m (1 - q) ≤ lead .goodModerate A q (1 - m)) ∧
      (45 ≤ A → 0 ≤ lead .moderateUsg A q (1 - m)) := by
  have first : min m (1 - q) ≤ m := min_le_left _ _
  have second : min m (1 - q) ≤ 1 - q := min_le_right _ _
  have square := mul_nonneg nonneg (sub_nonneg.mpr half)
  rw [lead_eq (by linarith) (by linarith), lead_eq (by linarith) (by linarith)]
  rcases le_total q m with small | more
  · obtain ⟨here, here'⟩ :=
      Pair.shares_below (by linarith : q ≤ 1 - m) (by linarith : q ≤ 1 - (1 - m))
    have inside := mul_nonneg q_nonneg (sub_nonneg.mpr small)
    have steep := mul_nonneg (by linarith : 0 ≤ 1 - m - q) (by linarith : 0 ≤ 1 / 2 - m + q)
    simp only [Pair.numer, mass, here, here', Pair.value_eq, Pair.lo, Pair.rise,
      Pair.lo', Pair.rise']
    refine ⟨fun ge => ?_, fun ge => ?_⟩
    · have level := mul_nonneg q_nonneg (sub_nonneg.mpr ge)
      linarith
    · have level := mul_nonneg q_nonneg (sub_nonneg.mpr ge)
      linarith
  · rcases le_total q (1 - m) with before | beyond
    · obtain ⟨here, here'⟩ := Pair.shares_both before (by linarith : 1 - (1 - m) ≤ q)
      have inside := mul_nonneg (sub_nonneg.mpr more) (sub_nonneg.mpr before)
      have rest := mul_nonneg nonneg (sub_nonneg.mpr before)
      simp only [Pair.numer, mass, here, here', Pair.value_eq, Pair.lo, Pair.rise,
        Pair.lo', Pair.rise']
      refine ⟨fun ge => ?_, fun ge => ?_⟩
      · have level := mul_nonneg nonneg (sub_nonneg.mpr ge)
        linarith
      · have level := mul_nonneg nonneg (sub_nonneg.mpr ge)
        linarith
    · obtain ⟨here, here'⟩ := Pair.shares_above beyond (by linarith : 1 - (1 - m) ≤ q)
      have share := mul_nonneg (sub_nonneg.mpr le_one) (by linarith : 0 ≤ 1 / 2 - (1 - q))
      simp only [Pair.numer, mass, here, here', Pair.value_eq, Pair.lo, Pair.rise,
        Pair.lo', Pair.rise']
      refine ⟨fun ge => ?_, fun ge => ?_⟩
      · have level := mul_nonneg (sub_nonneg.mpr le_one) (sub_nonneg.mpr ge)
        linarith
      · have level := mul_nonneg (sub_nonneg.mpr le_one) (sub_nonneg.mpr ge)
        linarith

end Lead

/-- The score at medium alone. -/
theorem forty_le_alone (P : Profile .lower) :
    40 ≤ P.score 1 ∧ (P.top = .moderateUsg → 45 ≤ P.score 1) := by
  have small := P.small_le
  have small_nonneg := P.small_nonneg
  have half := P.large_le
  have each (k : Pair) (lower : k.zone = .lower) (s : Rat) (nonneg : 0 ≤ s) (le_one : s ≤ 1) :
      s * (30 * s - 10) ≤ k.numer s 1 - 40 * mass s 1 ∧
        s * (30 * s - 15) ≤ k.numer s 1 - 45 * mass s 1 := by
    obtain ⟨mass_one, numer_one⟩ := alone (k := k) nonneg le_one
    have square := mul_nonneg nonneg (sub_nonneg.mpr le_one)
    rw [mass_one, numer_one]
    rcases Pair.lower_cases lower with rfl |
      rfl <;> simp only [Pair.lo', Pair.rise'] <;> constructor <;> linarith
  have top := each P.top P.top_zone (1 - P.large) (by linarith) (by linarith)
  have second := each P.second P.second_zone P.large (by linarith) (by linarith)
  have third := each P.third P.third_zone P.small small_nonneg (by linarith)
  have fourth := each P.fourth P.fourth_zone P.small small_nonneg (by linarith)
  have corner := mul_nonneg (small_nonneg.trans small) (sub_nonneg.mpr half)
  have square := sq_nonneg (P.large - 1 / 2)
  constructor
  · have dip := sq_nonneg (P.small - 1 / 6)
    rw [P.le_score_iff zero_le_one le_rfl, sum]
    linarith
  · intro moderate
    have dip := sq_nonneg (P.small - 1 / 4)
    obtain ⟨mass_one, numer_one⟩ := alone (k := P.top) (by linarith : 0 ≤ 1 - P.large) (by linarith)
    rw [P.le_score_iff zero_le_one le_rfl, sum, mass_one, numer_one, moderate]
    simp only [Pair.lo', Pair.rise']
    linarith

/-- **No mixture with the level low** scores above medium alone. -/
theorem score_le_alone (P : Profile .lower) {q : Rat} (nonneg : 0 ≤ q) (le_one : q ≤ 1) :
    P.score q ≤ P.score 1 := by
  have small := P.small_le
  have small_nonneg := P.small_nonneg
  have half := P.large_le
  obtain ⟨forty, moderate⟩ := P.forty_le_alone
  have same := P.score_mul_mass zero_le_one le_rfl
  rw [P.score_le_iff nonneg le_one]
  have leads : (P.sum fun k s => P.score 1 * mass s q - k.numer s q) =
      P.sum fun k s => lead k (P.score 1) q s := by
    have balanced : P.score 1 * (P.sum fun _ s => mass s 1) - (P.sum fun k s => k.numer s 1) = 0 :=
      sub_eq_zero.mpr same
    simp only [sum, lead] at balanced ⊢
    linarith
  rw [leads]
  have strong := lead_strong (A := P.score 1) (small_nonneg.trans small) half nonneg le_one
  have second :=
    lead_weak (A := P.score 1) P.second_zone (small_nonneg.trans small) half nonneg le_one
  have third :=
    lead_weak (A := P.score 1) P.third_zone small_nonneg (small.trans half) nonneg le_one
  have fourth :=
    lead_weak (A := P.score 1) P.fourth_zone small_nonneg (small.trans half) nonneg le_one
  have lower := P.top_zone
  cases top : P.top with
  | goodModerate =>
      -- what the strong context is ahead covers the three others
      have share : min P.small (1 - q) ≤ min P.large (1 - q) := min_le_min_right _ small
      have positive : 0 ≤ min P.large (1 - q) := le_min (small_nonneg.trans small) (by linarith)
      have ahead := strong.1 forty
      rw [sum, top]
      linarith [second.1 forty, third.1 forty, fourth.1 forty]
  | moderateUsg =>
      have enough := moderate top
      rw [sum, top]
      linarith [strong.2 enough, second.2 enough, third.2 enough, fourth.2 enough]
  | _ => rw [top] at lower; cases lower

end Profile

/-! ## PM2.5 and its levels -/

theorem clamp_mono {x y : Rat} (le : x ≤ y) (domain : Rat × Rat) :
    clamp x domain ≤ clamp y domain :=
  max_le_max_left _ (min_le_min_left _ le)

/-- A left shoulder falls. -/
theorem trap_left_anti {x y lo a b : Rat} (inside : lo ≤ x) (le : x ≤ y) (falls : a < b) :
    trap y lo lo a b ≤ trap x lo lo a b := by
  have width : 0 < b - a := sub_pos.mpr falls
  have range := trap_mem (x := y) (le_refl lo) falls.le
  rw [trap_left inside falls]
  split
  · exact range.2
  · rw [trap_left (inside.trans le) falls, if_neg (by linarith : ¬ y ≤ a)]
    split
    · split
      · exact le_rfl
      · exact div_nonneg (by linarith) width.le
    · rw [if_neg (by linarith : ¬ b ≤ x)]
      exact div_le_div_of_nonneg_right (by linarith) width.le

/-- A right shoulder rises. -/
theorem trap_right_mono {x y c d top : Rat} (inside : y ≤ top) (le : x ≤ y) (rises : c < d) :
    trap x c d top top ≤ trap y c d top top := by
  have width : 0 < d - c := sub_pos.mpr rises
  have range := trap_mem (x := x) rises.le (le_refl top)
  rw [trap_right inside rises]
  split
  · exact range.2
  · rw [trap_right (le.trans inside) rises, if_neg (by linarith : ¬ d ≤ x)]
    split
    · split
      · exact le_rfl
      · exact div_nonneg (by linarith) width.le
    · rw [if_neg (by linarith : ¬ y ≤ c)]
      exact div_le_div_of_nonneg_right (by linarith) width.le

theorem pmTerms_low_anti {p p' : Rat} (up : p ≤ p') : pmTerms .low p' ≤ pmTerms .low p :=
  trap_left_anti (pm_clamped p).1 (clamp_mono up pDomain) (by norm_num)

theorem pmTerms_high_mono {p p' : Rat} (up : p ≤ p') : pmTerms .high p ≤ pmTerms .high p' :=
  trap_right_mono (pm_clamped p').2 (clamp_mono up pDomain) (by norm_num)

/-! ## The bound -/

/-- Between the zones the level medium holds alone. -/
theorem plateau : pmTerms .low 150 = 0 ∧ pmTerms .medium 150 = 1 ∧ pmTerms .high 150 = 0 := by
  have low := pmTerms_low_of_ge (by norm_num : (100 : Rat) ≤ 150)
  have high := pmTerms_high_of_le (by norm_num : (150 : Rat) ≤ 200)
  have total := (pmTerms_three 150).1
  exact ⟨low, by linarith, high⟩

/-- **The fall of the score is bounded**: it is never more than 9 below the score at a smaller
PM2.5, whatever the temperature and the humidity. -/
theorem dip_le (t h : Rat) {p p' : Rat} (up : p ≤ p') :
    weightedAverage (fired t h p) - 9 ≤ weightedAverage (fired t h p') := by
  obtain ⟨lower, lower_score⟩ := exists_lower_profile t h
  obtain ⟨upper, upper_score⟩ := exists_upper_profile t h
  have low := pmTerms_low_anti up
  have high := pmTerms_high_mono up
  have total := (pmTerms_three p).1
  have total' := (pmTerms_three p').1
  obtain ⟨nonneg, le_one⟩ := pmTerms_mem .medium p
  rcases (pmTerms_three p').2 with no_low' | no_high'
  · rw [upper_score p' no_low']
    obtain ⟨high_nonneg', high_le_one'⟩ := pmTerms_mem .high p'
    rcases (pmTerms_three p).2 with no_low | no_high
    · rw [upper_score p no_low]
      exact upper.upper_dip (pmTerms_mem .high p).1 high high_le_one'
    · -- from the lower zone over medium alone into the upper one
      have alone : lower.score 1 = upper.score 0 := by
        have below := lower_score 150 plateau.2.2
        have above := upper_score 150 plateau.1
        rw [plateau.2.1] at below
        rw [plateau.2.2] at above
        exact below.symm.trans above
      have top := lower.score_le_alone nonneg le_one
      have dip := upper.upper_dip le_rfl high_nonneg' high_le_one'
      rw [lower_score p no_high]
      linarith
  · have no_high : pmTerms .high p = 0 :=
      le_antisymm (high.trans_eq no_high') (pmTerms_mem .high p).1
    rw [lower_score p no_high, lower_score p' no_high']
    exact lower.lower_dip nonneg (by linarith) (pmTerms_mem .medium p').2

/-- From the edge of clean air to the trough of the first zone, where one context fires alone. -/
theorem dip_le_trough :
    weightedAverage (fired 10 75 50) - weightedAverage (fired 10 75 (475 / 7)) = 125 / 14 ∧
    weightedAverage (fired 10 75 50) - 9 ≤ weightedAverage (fired 10 75 (475 / 7)) :=
  ⟨by decide +kernel, dip_le 10 75 (by norm_num)⟩

end Empyrean.Ingest.Fuzzy
