/-
# Empyrean.Ingest.FuzzyMoves — what a context adds when PM2.5 rises

The average of a profile is `F` and PM2.5 rises inside a transition zone.  The average falls
by no more than 9 where the contexts together add enough above the level `F - 9`; `slack` is
what one context adds.  Its two strengths `(a, b)` change in one of six ways:

* `rise_nonneg` — `(s, b)` to `(s, b')`, as far as the upper share is below the strength;
* `fall_nonneg` — `(a, s)` to `(a', s)`, where the lower share is;
* `swap_nonneg` — `(s, b)` to `(a', s)`, all the way;
* `leave_nonneg`, `cross_nonneg`, `arrive_nonneg` — into, inside and out of the stretch where a
  context stronger than both shares fires with these alone.

The slack is not negative as long as `F` lies between `floor` and `ceil`.  `cross_nonneg` is where
the 9 comes from: a strong context alone falls by the discriminant of its quadratic.  Where `F` is
above the ceiling of a weak context, the slack of the strong one is a `reserve` for it.

* `slackAt_small`, `slackAt_top` — the slack from share to share.
* `neg_reserve_le`, `reserve_le` — and above the ceiling.
-/
import Empyrean.Ingest.FuzzyMix

namespace Empyrean.Ingest.Fuzzy

set_option autoImplicit false

namespace Pair

/-! ## The numbers of the ramps -/

def lo : Pair → Rat
  | goodModerate => 0
  | moderateUsg => 30
  | moderateUnhealthy => 30
  | usgUnhealthy => 50
  | usgVeryUnhealthy => 50

def rise : Pair → Rat
  | goodModerate => 40
  | moderateUsg => 30
  | moderateUnhealthy => 30
  | usgUnhealthy => 25
  | usgVeryUnhealthy => 25

def lo' : Pair → Rat
  | goodModerate => 30
  | moderateUsg => 50
  | moderateUnhealthy => 65
  | usgUnhealthy => 65
  | usgVeryUnhealthy => 85

def rise' : Pair → Rat
  | goodModerate => 30
  | moderateUsg => 25
  | moderateUnhealthy => 25
  | usgUnhealthy => 25
  | usgVeryUnhealthy => 15

theorem value_eq (k : Pair) (a b : Rat) :
    k.value a b = a * (k.lo + k.rise * a) + b * (k.lo' + k.rise' * b) := by
  cases k <;> simp only [value, inverse, below, above, consequents, lo, rise, lo', rise'] <;> ring

/-! ## Slack -/

/-- What a context adds above the level `F - 9` when its strengths go from `(a, b)` to
`(a', b')`. -/
def slack (k : Pair) (F a b a' b' : Rat) : Rat :=
  k.value a' b' - k.value a b - F * (a' + b' - (a + b)) + 9 * (a' + b')

theorem slack_eq (k : Pair) (F a b a' b' : Rat) : k.slack F a b a' b' =
    9 * (a + b) + (b' - b) * (k.lo' + 9 - F + k.rise' * (b + b')) -
      (a - a') * (k.lo + 9 - F + k.rise * (a + a')) := by
  rw [slack, value_eq, value_eq]
  ring

/-- Below this level the score has fallen by no more than 9 anyway. -/
def floor (k : Pair) : Rat :=
  match k.zone with
  | .lower => 37
  | .upper => 56

/-- Up to this level no context needs another one. -/
def ceil : Pair → Rat
  | goodModerate => 48
  | moderateUsg => 60
  | moderateUnhealthy => 80
  | usgUnhealthy => 80
  | usgVeryUnhealthy => 80

/-- The share at which a context that fires with both shares is lowest. -/
def trough (k : Pair) : Rat := (2 * k.rise + k.lo - k.lo') / (2 * (k.rise + k.rise'))

section Moves

variable {k : Pair} {F s m q q' a b a' b' : Rat}

theorem rise_nonneg (ceiling : F ≤ k.lo' + 18) (nonneg : 0 ≤ b) (up : b ≤ b') (below : b' ≤ s) :
    0 ≤ k.slack F s b s b' := by
  have steep : 0 ≤ k.rise' := by cases k <;> norm_num [rise']
  have more : 0 ≤ b' - b := sub_nonneg.mpr up
  have gained : 0 ≤ (b' - b) * (k.rise' * (b + b')) :=
    mul_nonneg more (mul_nonneg steep (by linarith))
  have lost : (b' - b) * -9 ≤ (b' - b) * (k.lo' + 9 - F) :=
    mul_le_mul_of_nonneg_left (by linarith) more
  rw [slack_eq]
  linarith

theorem fall_nonneg (floored : k.floor ≤ F) (nonneg : 0 ≤ a') (down : a' ≤ a) (below : a ≤ s)
    (half : a ≤ 1 / 2) : 0 ≤ k.slack F a s a' s := by
  have level := mul_nonneg (sub_nonneg.mpr down) (sub_nonneg.mpr floored)
  have corner := mul_nonneg (sub_nonneg.mpr down) (by linarith : 0 ≤ 1 - a - a')
  have square := mul_nonneg (nonneg.trans down) (sub_nonneg.mpr half)
  have square' := mul_nonneg nonneg nonneg
  rw [slack_eq]
  cases k <;> simp only [floor, zone, lo, rise, lo', rise'] at level ⊢ <;> linarith

/-- The slack is linear in `F`: where `b` is the larger one it is least at the floor, else at the
ceiling. -/
theorem swap_nonneg (floored : k.floor ≤ F) (ceiling : F ≤ k.ceil) (b_nonneg : 0 ≤ b) (b_le : b ≤ s)
    (b_le' : b ≤ 1 - s) (a_nonneg : 0 ≤ a') (a_le : a' ≤ s) (a_le' : a' ≤ 1 - s) :
    0 ≤ k.slack F s b a' s := by
  have b_half := mul_nonneg b_nonneg (by linarith : 0 ≤ 1 / 2 - b)
  have a_half := mul_nonneg a_nonneg (by linarith : 0 ≤ 1 / 2 - a')
  have b_corner := mul_nonneg (sub_nonneg.mpr b_le) (sub_nonneg.mpr b_le')
  have a_corner := mul_nonneg (sub_nonneg.mpr a_le) (sub_nonneg.mpr a_le')
  have square := mul_nonneg a_nonneg a_nonneg
  rw [slack_eq]
  rcases le_total a' b with larger | smaller
  · have level := mul_nonneg (sub_nonneg.mpr larger) (sub_nonneg.mpr floored)
    cases k <;> simp only [floor, zone, lo, rise, lo', rise'] at level ⊢ <;> linarith
  · have level := mul_nonneg (sub_nonneg.mpr smaller) (sub_nonneg.mpr ceiling)
    cases k <;> simp only [ceil, lo, rise, lo', rise'] at level ⊢ <;> linarith

/-- The coefficients of `cross_nonneg`. -/
theorem discriminant_le (k : Pair) :
    (2 * k.rise + k.lo - k.lo') ^ 2 ≤ 4 * 9 * (k.rise + k.rise') := by
  cases k <;> norm_num [lo, rise, lo', rise']

/-- **A context that fires with both shares** loses 9 at the most. -/
theorem cross_nonneg (nonneg : 0 ≤ q) (up : q ≤ q') : 0 ≤ k.slack F (1 - q) q (1 - q') q' := by
  have steep : 0 < k.rise + k.rise' := by cases k <;> norm_num [rise, rise']
  have square := sq_nonneg (2 * (k.rise + k.rise') * (q' - q) - (2 * k.rise + k.lo - k.lo'))
  have start : 0 ≤ 2 * (k.rise + k.rise') * (q * (q' - q)) :=
    mul_nonneg (by linarith) (mul_nonneg nonneg (by linarith))
  have closed : k.slack F (1 - q) q (1 - q') q' =
      9 + (q' - q) * ((k.rise + k.rise') * (q' - q) - (2 * k.rise + k.lo - k.lo')) +
        2 * (k.rise + k.rise') * (q * (q' - q)) := by
    rw [slack_eq]
    ring
  rw [closed]
  refine add_nonneg (nonneg_of_mul_nonneg_right ?_ (mul_pos four_pos steep)) start
  have bounded := discriminant_le k
  linarith

theorem leave_nonneg (ceiling : F ≤ k.ceil) (nonneg : 0 ≤ q) (below : q ≤ m) (half : m ≤ 1 / 2) :
    0 ≤ k.slack F (1 - m) q (1 - q') q' := by
  have level := mul_nonneg (sub_nonneg.mpr below) (sub_nonneg.mpr ceiling)
  have inside := mul_nonneg nonneg (sub_nonneg.mpr below)
  have square := mul_nonneg (nonneg.trans below) (sub_nonneg.mpr half)
  have share := mul_nonneg nonneg (sub_nonneg.mpr half)
  have dip := sq_nonneg (q' - k.trough)
  rw [slack_eq]
  cases k <;> simp only [ceil, trough, lo, rise, lo', rise'] at level dip ⊢ <;>
    norm_num at level dip ⊢ <;> linarith

theorem arrive_nonneg (floored : k.floor ≤ F) (nonneg : 0 ≤ a') (down : a' ≤ m) (half : m ≤ 1 / 2)
    (low : m ≤ q) (high : q ≤ 1 - m) : 0 ≤ k.slack F (1 - q) q a' (1 - m) := by
  have level := mul_nonneg (sub_nonneg.mpr down) (sub_nonneg.mpr floored)
  have inside := mul_nonneg (sub_nonneg.mpr low) (sub_nonneg.mpr high)
  have share := mul_nonneg (nonneg.trans down) (sub_nonneg.mpr high)
  have corner := mul_nonneg (sub_nonneg.mpr down) (by linarith : 0 ≤ 1 - m - a')
  have square := mul_nonneg (nonneg.trans down) (sub_nonneg.mpr half)
  have square' := mul_nonneg nonneg nonneg
  have dip := sq_nonneg (1 - m - q + 7 / 10 * m - k.trough)
  rw [slack_eq]
  cases k <;> simp only [floor, zone, trough, lo, rise, lo', rise'] at level dip ⊢ <;>
    norm_num at level dip ⊢ <;> linarith

/-! ## Above the ceiling -/

theorem rise_reserve_good (limited : F ≤ 50) (nonneg : 0 ≤ b) (up : b ≤ b') (below : b' ≤ m)
    (half : m ≤ 1 / 2) : 6 * m ≤ goodModerate.slack F (1 - m) b (1 - m) b' := by
  have level := mul_nonneg (sub_nonneg.mpr up) (sub_nonneg.mpr limited)
  have share := mul_nonneg nonneg (by linarith : 0 ≤ 1 / 2 - b)
  have dip := sq_nonneg (b' - 11 / 60)
  rw [slack_eq]
  simp only [lo, rise, lo', rise']
  linarith

theorem leave_reserve_good (limited : F ≤ 50) (nonneg : 0 ≤ q) (below : q ≤ m) (half : m ≤ 1 / 2) :
    6 * m ≤ goodModerate.slack F (1 - m) q (1 - q') q' := by
  have level := mul_nonneg (sub_nonneg.mpr below) (sub_nonneg.mpr limited)
  have share := mul_nonneg nonneg (by linarith : 0 ≤ 1 / 2 - q)
  have square := mul_nonneg (nonneg.trans below) (sub_nonneg.mpr half)
  have dip := sq_nonneg (q' - 5 / 14)
  rw [slack_eq]
  simp only [lo, rise, lo', rise']
  linarith

theorem swap_reserve_good (above : 48 ≤ F) (limited : F ≤ 50) (b_nonneg : 0 ≤ b) (b_le : b ≤ m)
    (a_nonneg : 0 ≤ a') (a_le : a' ≤ m) (half : m ≤ 1 / 2) :
    6 * m ≤ goodModerate.slack F (1 - m) b a' (1 - m) := by
  have b_level := mul_nonneg b_nonneg (sub_nonneg.mpr above)
  have a_level := mul_nonneg a_nonneg (sub_nonneg.mpr limited)
  have b_half := mul_nonneg b_nonneg (by linarith : 0 ≤ 1 / 2 - b)
  have corner := mul_nonneg (sub_nonneg.mpr a_le) (by linarith : 0 ≤ 1 - m - a')
  have square := sq_nonneg (m - 1 / 2)
  rw [slack_eq]
  simp only [lo, rise, lo', rise']
  linarith

theorem rise_reserve_moderate (limited : F ≤ 60) (nonneg : 0 ≤ b) (up : b ≤ b') (below : b' ≤ m)
    (half : m ≤ 1 / 2) : 18 / 5 ≤ moderateUsg.slack F (1 - m) b (1 - m) b' := by
  have level := mul_nonneg (sub_nonneg.mpr up) (sub_nonneg.mpr limited)
  have gained := mul_nonneg (sub_nonneg.mpr up) (by linarith : 0 ≤ b + b')
  rw [slack_eq]
  simp only [lo, rise, lo', rise']
  linarith

theorem leave_reserve_moderate (limited : F ≤ 60) (nonneg : 0 ≤ q) (below : q ≤ m)
    (half : m ≤ 1 / 2) : min (36 * m) (18 / 5) ≤ moderateUsg.slack F (1 - m) q (1 - q') q' := by
  have level := mul_nonneg (sub_nonneg.mpr below) (sub_nonneg.mpr limited)
  have share := mul_nonneg nonneg (by linarith : 0 ≤ 1 / 2 - q)
  have dip := sq_nonneg (q' - 4 / 11)
  rw [slack_eq]
  simp only [lo, rise, lo', rise']
  rcases le_total m (1 / 10) with small | large
  · have square := mul_nonneg (nonneg.trans below) (sub_nonneg.mpr small)
    refine (min_le_left _ _).trans ?_
    linarith
  · have square := mul_nonneg (sub_nonneg.mpr large) (sub_nonneg.mpr half)
    refine (min_le_right _ _).trans ?_
    linarith

theorem swap_reserve_moderate (above : 48 ≤ F) (limited : F ≤ 60) (b_nonneg : 0 ≤ b) (b_le : b ≤ m)
    (half : m ≤ 1 / 2) : 18 / 5 ≤ moderateUsg.slack F (1 - m) b a' (1 - m) := by
  have b_half := mul_nonneg b_nonneg (by linarith : 0 ≤ 1 / 2 - b)
  have square := mul_nonneg (b_nonneg.trans b_le) (sub_nonneg.mpr half)
  rw [slack_eq]
  simp only [lo, rise, lo', rise']
  rcases le_total a' b with larger | smaller
  · have level := mul_nonneg (sub_nonneg.mpr larger) (sub_nonneg.mpr above)
    have dip := sq_nonneg (a' - 3 / 20)
    linarith
  · have level := mul_nonneg (sub_nonneg.mpr smaller) (sub_nonneg.mpr limited)
    have dip := sq_nonneg (a' - 7 / 20)
    linarith

/-- What a weak context takes. -/
theorem rise_good_ge (nonneg : 0 ≤ b) (up : b ≤ b') (below : b' ≤ s) (half : s ≤ 1 / 2) :
    (F ≤ 50 → -(2 * s) ≤ goodModerate.slack F s b s b') ∧
      (F ≤ 60 → -(12 * s) ≤ goodModerate.slack F s b s b' ∧
        -(6 / 5) ≤ goodModerate.slack F s b s b') := by
  have share := mul_nonneg nonneg (by linarith : 0 ≤ 1 / 2 - b)
  have square := mul_nonneg (nonneg.trans up) (nonneg.trans up)
  have dip := sq_nonneg (b' - 1 / 5)
  rw [slack_eq]
  simp only [lo, rise, lo', rise']
  refine ⟨fun limited => ?_, fun limited => ?_⟩
  all_goals have level := mul_nonneg (sub_nonneg.mpr up) (sub_nonneg.mpr limited)
  · linarith
  · constructor <;> linarith

theorem swap_good_ge (above : 48 ≤ F) (b_nonneg : 0 ≤ b) (b_le : b ≤ s) (a_nonneg : 0 ≤ a')
    (a_le : a' ≤ s) (half : s ≤ 1 / 2) : (F ≤ 50 → -(2 * s) ≤ goodModerate.slack F s b a' s) ∧
      (F ≤ 60 → -(12 * s) ≤ goodModerate.slack F s b a' s ∧
        -(6 / 5) ≤ goodModerate.slack F s b a' s) := by
  have b_level := mul_nonneg b_nonneg (sub_nonneg.mpr above)
  have b_half := mul_nonneg b_nonneg (by linarith : 0 ≤ 1 / 2 - b)
  have square := mul_nonneg (b_nonneg.trans b_le) (sub_nonneg.mpr half)
  have corner := mul_nonneg (sub_nonneg.mpr a_le) (by linarith : 0 ≤ 1 - s - a')
  have square' := mul_nonneg a_nonneg a_nonneg
  have dip := sq_nonneg (s - 1 / 5)
  rw [slack_eq]
  simp only [lo, rise, lo', rise']
  refine ⟨fun limited => ?_, fun limited => ?_⟩
  all_goals have a_level := mul_nonneg a_nonneg (sub_nonneg.mpr limited)
  · linarith
  · constructor <;> linarith

end Moves

/-- How far `F` can be above the ceilings where the strong context has these ramps. -/
def limit : Pair → Rat
  | goodModerate => 50
  | moderateUsg => 60
  | _ => 80

/-- What the strong context then has for the three weak ones. -/
def reserve (k : Pair) (m : Rat) : Rat :=
  match k with
  | goodModerate => 6 * m
  | _ => min (36 * m) (18 / 5)

/-! ## From share to share -/

/-- The slack of a context of strength `s` when the upper share goes from `q` to `q'`. -/
def slackAt (k : Pair) (F q q' s : Rat) : Rat :=
  k.slack F (min s (1 - q)) (min s q) (min s (1 - q')) (min s q')

section Shares

variable {k : Pair} {F s m q q' : Rat}

/-- Below its strength a share fires as it is, and leaves the rest the whole strength. -/
theorem shares_below (below : q ≤ s) (rest : q ≤ 1 - s) : min s (1 - q) = s ∧ min s q = q :=
  ⟨min_eq_left (by linarith), min_eq_right below⟩

theorem shares_above (above : s ≤ q) (rest : 1 - s ≤ q) : min s (1 - q) = 1 - q ∧ min s q = s :=
  ⟨min_eq_right (by linarith), min_eq_left above⟩

theorem shares_both (below : q ≤ s) (rest : 1 - s ≤ q) : min s (1 - q) = 1 - q ∧ min s q = q :=
  ⟨min_eq_right (by linarith), min_eq_right below⟩

/-- A weak context. -/
theorem slackAt_small (nonneg : 0 ≤ s) (half : s ≤ 1 / 2) (q_nonneg : 0 ≤ q) (up : q ≤ q')
    (le_one : q' ≤ 1) (ceiling : q < s → F ≤ k.ceil) (floored : 1 - s < q' → k.floor ≤ F) :
    0 ≤ k.slackAt F q q' s := by
  have entry : k.ceil ≤ k.lo' + 18 := by cases k <;> norm_num [ceil, lo']
  unfold slackAt
  rcases lt_or_ge q s with inside | past
  · obtain ⟨here, here'⟩ := shares_below inside.le (by linarith : q ≤ 1 - s)
    rw [here, here']
    rcases le_or_gt q' (1 - s) with before | beyond
    · rw [min_eq_left (by linarith : s ≤ 1 - q')]
      exact rise_nonneg ((ceiling inside).trans entry) q_nonneg (le_min inside.le up)
        (min_le_left _ _)
    · obtain ⟨there, there'⟩ := shares_above (by linarith : s ≤ q') beyond.le
      rw [there, there']
      exact swap_nonneg (floored beyond) (ceiling inside) q_nonneg inside.le (by linarith)
        (by linarith) (by linarith)
        (by linarith)
  · rw [min_eq_left past, min_eq_left (past.trans up)]
    rcases le_or_gt q' (1 - s) with before | beyond
    · rw [min_eq_left (by linarith : s ≤ 1 - q), min_eq_left (by linarith : s ≤ 1 - q'), slack_eq]
      linarith
    · exact fall_nonneg (floored beyond) (le_min nonneg (by linarith))
        (min_le_min_left _ (by linarith)) (min_le_left _ _)
        ((min_le_left _ _).trans half)

/-- The strong context. -/
theorem slackAt_top (half : m ≤ 1 / 2) (q_nonneg : 0 ≤ q) (up : q ≤ q') (le_one : q' ≤ 1)
    (ceiling : q < m → F ≤ k.ceil) (floored : 1 - m < q' → k.floor ≤ F) :
    0 ≤ k.slackAt F q q' (1 - m) := by
  have entry : k.ceil ≤ k.lo' + 18 := by cases k <;> norm_num [ceil, lo']
  unfold slackAt
  rcases lt_or_ge q m with inside | past
  · obtain ⟨here, here'⟩ := shares_below (by linarith : q ≤ 1 - m) (by linarith : q ≤ 1 - (1 - m))
    rw [here, here']
    rcases le_or_gt q' m with small | large
    · obtain ⟨there, there'⟩ :=
        shares_below (by linarith : q' ≤ 1 - m) (by linarith : q' ≤ 1 - (1 - m))
      rw [there, there']
      exact rise_nonneg ((ceiling inside).trans entry) q_nonneg up (by linarith)
    · rcases le_or_gt q' (1 - m) with before | beyond
      · obtain ⟨there, there'⟩ := shares_both before (by linarith : 1 - (1 - m) ≤ q')
        rw [there, there']
        exact leave_nonneg (ceiling inside) q_nonneg inside.le half
      · obtain ⟨there, there'⟩ := shares_above beyond.le (by linarith : 1 - (1 - m) ≤ q')
        rw [there, there']
        exact swap_nonneg (floored beyond) (ceiling inside) q_nonneg (by linarith) (by linarith)
          (by linarith)
          (by linarith) (by linarith)
  · rcases le_or_gt q' (1 - m) with before | beyond
    · obtain ⟨here, here'⟩ := shares_both (up.trans before) (by linarith : 1 - (1 - m) ≤ q)
      obtain ⟨there, there'⟩ := shares_both before (by linarith : 1 - (1 - m) ≤ q')
      rw [here, here', there, there']
      exact cross_nonneg q_nonneg up
    · obtain ⟨there, there'⟩ := shares_above beyond.le (by linarith : 1 - (1 - m) ≤ q')
      rw [there, there']
      rcases le_or_gt q (1 - m) with early | late
      · obtain ⟨here, here'⟩ := shares_both early (by linarith : 1 - (1 - m) ≤ q)
        rw [here, here']
        exact arrive_nonneg (floored beyond) (by linarith) (by linarith) half past early
      · obtain ⟨here, here'⟩ := shares_above late.le (by linarith : 1 - (1 - m) ≤ q)
        rw [here, here']
        exact fall_nonneg (floored beyond) (by linarith) (by linarith) (by linarith) (by linarith)

/-- Above the ceiling the strong context has its reserve. -/
theorem reserve_le (lower : k.zone = .lower) (half : m ≤ 1 / 2) (q_nonneg : 0 ≤ q) (inside : q < m)
    (up : q ≤ q') (le_one : q' ≤ 1) (above : 48 ≤ F) (limited : F ≤ k.limit) :
    k.reserve m ≤ k.slackAt F q q' (1 - m) := by
  unfold slackAt
  obtain ⟨here, here'⟩ := shares_below (by linarith : q ≤ 1 - m) (by linarith : q ≤ 1 - (1 - m))
  rw [here, here']
  rcases le_or_gt q' m with small | large
  · obtain ⟨there, there'⟩ :=
      shares_below (by linarith : q' ≤ 1 - m) (by linarith : q' ≤ 1 - (1 - m))
    rw [there, there']
    cases k with
    | goodModerate => exact rise_reserve_good limited q_nonneg up small half
    | moderateUsg =>
        exact (min_le_right _ _).trans (rise_reserve_moderate limited q_nonneg up small half)
    | _ => cases lower
  · rcases le_or_gt q' (1 - m) with before | beyond
    · obtain ⟨there, there'⟩ := shares_both before (by linarith : 1 - (1 - m) ≤ q')
      rw [there, there']
      cases k with
      | goodModerate => exact leave_reserve_good limited q_nonneg inside.le half
      | moderateUsg => exact leave_reserve_moderate limited q_nonneg inside.le half
      | _ => cases lower
    · obtain ⟨there, there'⟩ := shares_above beyond.le (by linarith : 1 - (1 - m) ≤ q')
      rw [there, there']
      cases k with
      | goodModerate => exact swap_reserve_good above limited q_nonneg inside.le (by linarith) (by linarith) half
      | moderateUsg =>
          exact (min_le_right _ _).trans (swap_reserve_moderate above limited q_nonneg inside.le half)
      | _ => cases lower

/-- What a weak context with the lowest ramps takes. -/
theorem slackAt_good_ge (nonneg : 0 ≤ s) (half : s ≤ 1 / 2) (q_nonneg : 0 ≤ q) (up : q ≤ q')
    (le_one : q' ≤ 1) (above : 48 ≤ F) : (F ≤ 50 → -(2 * s) ≤ goodModerate.slackAt F q q' s) ∧
      (F ≤ 60 → -(12 * s) ≤ goodModerate.slackAt F q q' s ∧
        -(6 / 5) ≤ goodModerate.slackAt F q q' s) := by
  rcases lt_or_ge q s with inside | past
  · unfold slackAt
    obtain ⟨here, here'⟩ := shares_below inside.le (by linarith : q ≤ 1 - s)
    rw [here, here']
    rcases le_or_gt q' (1 - s) with before | beyond
    · rw [min_eq_left (by linarith : s ≤ 1 - q')]
      exact rise_good_ge q_nonneg (le_min inside.le up) (min_le_left _ _) half
    · obtain ⟨there, there'⟩ := shares_above (by linarith : s ≤ q') beyond.le
      rw [there, there']
      exact swap_good_ge above q_nonneg inside.le (by linarith) (by linarith) half
  · have kept : 0 ≤ goodModerate.slackAt F q q' s := slackAt_small nonneg half q_nonneg up le_one
      (fun inside => absurd past (not_le.mpr inside)) fun _ => by simp only [floor, zone]; linarith
    exact ⟨fun _ => by linarith, fun _ => ⟨by linarith, by linarith⟩⟩

/-- A weak context takes a third of the reserve at the most. -/
theorem neg_reserve_le {top : Pair} (top_lower : top.zone = .lower) (lower : k.zone = .lower)
    (nonneg : 0 ≤ s) (le : s ≤ m) (half : m ≤ 1 / 2) (q_nonneg : 0 ≤ q) (up : q ≤ q')
    (le_one : q' ≤ 1) (above : 48 ≤ F) (limited : F ≤ top.limit) :
    -(top.reserve m / 3) ≤ k.slackAt F q q' s := by
  have sixty : F ≤ 60 := by
    rcases lower_cases top_lower with rfl | rfl <;> simp only [limit] at limited <;> linarith
  have taken : (F ≤ 50 → -(2 * s) ≤ k.slackAt F q q' s) ∧ -(12 * s) ≤ k.slackAt F q q' s ∧
      -(6 / 5) ≤ k.slackAt F q q' s := by
    cases k with
    | goodModerate =>
        obtain ⟨fifty, more⟩ := slackAt_good_ge nonneg (le.trans half) q_nonneg up le_one above
        exact ⟨fifty, more sixty⟩
    | moderateUsg =>
        have kept : 0 ≤ moderateUsg.slackAt F q q' s :=
          slackAt_small nonneg (le.trans half) q_nonneg up le_one
            (fun _ => sixty) fun _ => by simp only [floor, zone]; linarith
        exact ⟨fun _ => by linarith, by linarith, by linarith⟩
    | _ => cases lower
  cases top with
  | goodModerate =>
      have fifty := taken.1 limited
      simp only [reserve]
      linarith
  | moderateUsg =>
      have enough : -(3 * k.slackAt F q q' s) ≤ min (36 * m) (18 / 5) :=
        le_min (by linarith) (by linarith)
      simp only [reserve]
      linarith
  | _ => cases top_lower

end Shares

end Pair

end Empyrean.Ingest.Fuzzy
