/-
# Empyrean.Theory.Buckets — buckets of one width, and of a multiple of it

`time_bucket(width, t)` rounds a time down to a multiple of a width, counted from a fixed
origin.  A query that groups by it answers with one row for each bucket that is not empty.

* `timeBucket_timeBucket` — the buckets of a multiple of the width are unions of buckets.
* `length_le_of_span` — how many buckets a stretch of time can touch.
* `sum_length_groups` — grouping loses no row and counts none twice.
* `sum_length_coarsen`, `max?_coarsen`, `min?_coarsen` — what a coarser grouping says follows from the finer one.
-/
import Empyrean.Theory.GroupBy
import Mathlib.Data.Int.Interval
import Mathlib.Data.List.Count
import Mathlib.Order.Lattice

namespace Empyrean.Theory.Buckets

set_option autoImplicit false

open Empyrean.Theory.GroupBy

/-! ## One width -/

/-- The start of the bucket of `t`. -/
def timeBucket (origin width t : Int) : Int := origin + (t - origin) / width * width

section Width

variable {origin width t : Int}

theorem timeBucket_le (origin t : Int) (positive : 0 < width) : timeBucket origin width t ≤ t := by
  have below := Int.ediv_mul_le (t - origin) (ne_of_gt positive)
  simp only [timeBucket]
  omega

theorem lt_timeBucket_add (origin t : Int) (positive : 0 < width) :
    t < timeBucket origin width t + width := by
  have above := Int.lt_ediv_add_one_mul_self (t - origin) positive
  rw [Int.add_mul, Int.one_mul] at above
  simp only [timeBucket]
  omega

/-- Where the origin is on the grid, it does not matter which point of it it is. -/
theorem timeBucket_eq_sub_emod (positive : 0 < width) (aligned : width ∣ origin) :
    timeBucket origin width t = t - t % width := by
  obtain ⟨n, rfl⟩ := aligned
  have split : (t - width * n) / width = t / width - n :=
    Int.sub_mul_ediv_left t n (ne_of_gt positive)
  have whole := Int.mul_ediv_add_emod t width
  simp only [timeBucket, split, Int.sub_mul, Int.mul_comm n width, Int.mul_comm (t / width) width]
  omega

/-- **Buckets nest.** -/
theorem timeBucket_timeBucket {m : Int} (positive : 0 < width) :
    timeBucket origin (width * m) (timeBucket origin width t) =
      timeBucket origin (width * m) t := by
  have fine : (timeBucket origin width t - origin) / (width * m) = (t - origin) / (width * m) := by
    simp only [timeBucket, add_sub_cancel_left]
    rw [← Int.ediv_ediv_of_nonneg (le_of_lt positive),
      ← Int.ediv_ediv_of_nonneg (le_of_lt positive), Int.mul_ediv_cancel _ (ne_of_gt positive)]
  unfold timeBucket at fine ⊢
  rw [fine]

/-- **How many buckets a stretch of time touches.** -/
theorem length_le_of_span (positive : 0 < width) {first last : Int} (ordered : first ≤ last)
    {buckets : List Int} (distinct : buckets.Nodup)
    (touched : ∀ b ∈ buckets, ∃ t, first ≤ t ∧ t ≤ last ∧ b = timeBucket origin width t) :
    (buckets.length : Int) ≤ (last - first) / width + 2 := by
  have indices : (buckets.map fun b => (b - origin) / width).Nodup := by
    refine distinct.map_on fun b member b' member' same => ?_
    obtain ⟨t, _, _, rfl⟩ := touched b member
    obtain ⟨t', _, _, rfl⟩ := touched b' member'
    simp only [timeBucket, add_sub_cancel_left, Int.mul_ediv_cancel _ (ne_of_gt positive)] at same
    simp only [timeBucket, same]
  have inside : (buckets.map fun b => (b - origin) / width).toFinset ⊆
      Finset.Icc ((first - origin) / width) ((last - origin) / width) := by
    intro i member
    obtain ⟨b, among, rfl⟩ := List.mem_map.mp (List.mem_toFinset.mp member)
    obtain ⟨t, after, before, rfl⟩ := touched b among
    simp only [timeBucket, add_sub_cancel_left, Int.mul_ediv_cancel _ (ne_of_gt positive),
      Finset.mem_Icc]
    exact ⟨Int.ediv_le_ediv positive (by omega), Int.ediv_le_ediv positive (by omega)⟩
  have few := Finset.card_le_card inside
  rw [List.toFinset_card_of_nodup indices, List.length_map, Int.card_Icc] at few
  have apart : (last - origin) / width ≤ (first - origin) / width + (last - first) / width + 1 := by
    have last_lt := Int.lt_ediv_add_one_mul_self (last - first) positive
    have first_lt := Int.lt_ediv_add_one_mul_self (first - origin) positive
    refine Int.le_of_lt_add_one (Int.ediv_lt_of_lt_mul positive ?_)
    rw [Int.add_mul, Int.one_mul] at last_lt first_lt
    simp only [Int.add_mul, Int.one_mul]
    omega
  have nonneg : 0 ≤ (last - first) / width := Int.ediv_nonneg (by omega) (le_of_lt positive)
  omega

end Width

/-! ## Groups -/

section Groups

universe u v w

variable {ρ : Type u} {κ : Type v} {μ : Type w} [DecidableEq κ] [DecidableEq μ] {key : ρ → κ}

theorem length_group (k : κ) (rows : List ρ) :
    (group key k rows).length = (rows.map key).count k := by
  rw [group, List.count, List.countP_map, List.countP_eq_length_filter]
  exact congrArg List.length (List.filter_congr fun r _ => by simp [beq_eq_decide])

/-- **Grouping counts every row once.** -/
theorem sum_length_groups (key : ρ → κ) (rows : List ρ) :
    ((rows.map key).dedup.map fun k => (group key k rows).length).sum = rows.length := by
  simp only [length_group]
  rw [List.sum_map_count_dedup_eq_length, List.length_map]

/-- The finer groups within a coarser one. -/
theorem group_within {coarse : κ → μ} {K : μ} {k : κ} (rows : List ρ) (within : coarse k = K) :
    group key k (group (coarse ∘ key) K rows) = group key k rows := by
  refine group_filter fun r _ here => ?_
  simp only [Function.comp, here, within, decide_true]

theorem keys_within {coarse : κ → μ} {K : μ} (rows : List ρ) :
    ((group (coarse ∘ key) K rows).map key).dedup.Perm
      ((rows.map key).dedup.filter fun k => decide (coarse k = K)) := by
  refine (List.perm_ext_iff_of_nodup (List.nodup_dedup _) ((List.nodup_dedup _).filter _)).mpr fun k => ?_
  simp only [List.mem_dedup, List.mem_map, mem_group, List.mem_filter, decide_eq_true_eq,
    Function.comp]
  constructor
  · rintro ⟨r, ⟨member, here⟩, rfl⟩
    exact ⟨⟨r, member, rfl⟩, here⟩
  · rintro ⟨⟨r, member, rfl⟩, here⟩
    exact ⟨r, ⟨member, here⟩, rfl⟩

/-- **Counts add up.** -/
theorem sum_length_coarsen (coarse : κ → μ) (K : μ) (rows : List ρ) :
    (((rows.map key).dedup.filter fun k => decide (coarse k = K)).map fun k => (group key k rows).length).sum =
      (group (coarse ∘ key) K rows).length := by
  rw [← sum_length_groups key (group (coarse ∘ key) K rows)]
  refine (((keys_within rows).map _).sum_eq.symm.trans (congrArg List.sum ?_))
  refine List.map_congr_left fun k member => ?_
  obtain ⟨r, among, rfl⟩ := List.mem_map.mp (List.mem_dedup.mp member)
  have within : coarse (key r) = K := (mem_group.mp among).2
  exact congrArg List.length (group_within rows within).symm

/-- **So do extremes**: the largest value of a coarser group is the largest of the finer ones. -/
theorem max?_coarsen {α : Type*} [LinearOrder α] (value : ρ → Option α) (coarse : κ → μ) (K : μ)
    (rows : List ρ) :
    (((rows.map key).dedup.filter fun k => decide (coarse k = K)).filterMap fun k =>
      ((group key k rows).filterMap value).max?).max? =
        ((group (coarse ∘ key) K rows).filterMap value).max? := by
  ext m
  simp only [List.max?_eq_some_iff, List.mem_filterMap, List.mem_filter, List.mem_dedup,
    List.mem_map, decide_eq_true_eq, mem_group, Function.comp]
  constructor
  · rintro ⟨⟨k, ⟨_, within⟩, ⟨r, ⟨member, rfl⟩, here⟩, _⟩, largest⟩
    refine ⟨⟨r, ⟨member, within⟩, here⟩, ?_⟩
    rintro b ⟨r', ⟨member', within'⟩, here'⟩
    -- the largest of the group of `r'` is not below `b`
    obtain ⟨top, isTop⟩ : ∃ top, ((group key (key r') rows).filterMap value).max? = some top := by
      refine Option.ne_none_iff_exists'.mp fun empty => ?_
      have none_left := List.max?_eq_none_iff.mp empty
      have among : b ∈ (group key (key r') rows).filterMap value :=
        List.mem_filterMap.mpr ⟨r', mem_group.mpr ⟨member', rfl⟩, here'⟩
      rw [none_left] at among
      cases among
    have facts := List.max?_eq_some_iff.mp isTop
    have below := facts.2 b (List.mem_filterMap.mpr ⟨r', mem_group.mpr ⟨member', rfl⟩, here'⟩)
    have bounded := largest top ⟨key r', ⟨⟨r', member', rfl⟩, within'⟩, by
      simpa only [List.mem_filterMap, mem_group] using facts⟩
    exact le_trans below bounded
  · rintro ⟨⟨r, ⟨member, within⟩, here⟩, largest⟩
    refine ⟨⟨key r, ⟨⟨r, member, rfl⟩, within⟩, ⟨r, ⟨member, rfl⟩, here⟩, ?_⟩, ?_⟩
    · rintro b ⟨r', ⟨member', same⟩, here'⟩
      exact largest b ⟨r', ⟨member', same ▸ within⟩, here'⟩
    · rintro b ⟨k, ⟨_, within'⟩, ⟨r', ⟨member', rfl⟩, here'⟩, _⟩
      exact largest b ⟨r', ⟨member', within'⟩, here'⟩

theorem min?_coarsen {α : Type*} [LinearOrder α] (value : ρ → Option α) (coarse : κ → μ) (K : μ)
    (rows : List ρ) :
    (((rows.map key).dedup.filter fun k => decide (coarse k = K)).filterMap fun k =>
      ((group key k rows).filterMap value).min?).min? =
        ((group (coarse ∘ key) K rows).filterMap value).min? :=
  max?_coarsen (α := αᵒᵈ) value coarse K rows

end Groups

end Empyrean.Theory.Buckets
