/-
# Empyrean.Theory.SlidingWindow — a pruned log answers for the whole history

A sliding-window counter keeps a log of stamps and throws old ones away.  The history
it stands for is never thrown away.  The log is as good as the history for every
window that starts at `bound` or later:

* `Covers bound kept history` — above every cut-off `c ≥ bound`, both have equally many
  stamps.

Time only raises the bound (`Covers.mono`).  Pruning below a cut-off the bound has
reached (`Covers.pruned`), recording in both (`Covers.push`) and forgetting what lies
below the bound (`Covers.forget`) keep it; a log that was lost altogether still covers
the history iff nothing of the history lies above the bound (`covers_nil`).
-/
import Mathlib.Order.Lattice
import Mathlib.Data.List.Basic

namespace Empyrean.Theory.SlidingWindow

set_option autoImplicit false

universe u v

variable {τ : Type u} [LinearOrder τ]

/-- Drop every stamp up to and including `cutoff`. -/
def prune (cutoff : τ) (stamps : List τ) : List τ := stamps.filter (cutoff < ·)

/-- The number of stamps above `cutoff`. -/
def above (cutoff : τ) (stamps : List τ) : Nat := stamps.countP (cutoff < ·)

/-- The log answers for the history in every window that starts at `bound` or later. -/
def Covers (bound : τ) (kept history : List τ) : Prop :=
  ∀ cutoff, bound ≤ cutoff → above cutoff kept = above cutoff history

variable {bound cutoff : τ} {kept history : List τ}

theorem length_prune (stamps : List τ) : (prune cutoff stamps).length = above cutoff stamps :=
  (List.countP_eq_length_filter ..).symm

theorem above_prune {cutoff' : τ} (later : cutoff ≤ cutoff') (stamps : List τ) :
    above cutoff' (prune cutoff stamps) = above cutoff' stamps := by
  rw [above, prune, List.countP_filter]
  apply List.countP_congr
  intro stamp _
  simp only [decide_eq_true_eq, Bool.and_eq_true, and_iff_left_iff_imp]
  intro late
  exact lt_of_le_of_lt later late

theorem above_eq_zero {stamps : List τ} : above cutoff stamps = 0 ↔
    ∀ stamp ∈ stamps, stamp ≤ cutoff := by
  simp [above, List.countP_eq_zero]

theorem mem_prune {stamps : List τ} {stamp : τ} :
    stamp ∈ prune cutoff stamps ↔ stamp ∈ stamps ∧ cutoff < stamp := by
  simp [prune]

/-! ## What keeps a log good enough -/

theorem Covers.refl (bound : τ) (history : List τ) : Covers bound history history :=
  fun _ _ => rfl

theorem Covers.mono {later : τ} (covers : Covers bound kept history) (raised : bound ≤ later) :
    Covers later kept history :=
  fun _ reached => covers _ (le_trans raised reached)

/-- Pruning at the bound loses nothing that a later window could count. -/
theorem Covers.pruned (covers : Covers cutoff kept history) :
    Covers cutoff (prune cutoff kept) history := by
  intro cutoff' reached
  rw [above_prune reached]
  exact covers _ reached

theorem Covers.push (covers : Covers bound kept history) (stamp : τ) :
    Covers bound (kept ++ [stamp]) (history ++ [stamp]) := by
  intro cutoff reached
  have before := covers _ reached
  simp only [above, List.countP_append] at before ⊢
  rw [before]

/-- An empty log covers a history that has nothing left to count, and no other. -/
theorem covers_nil : Covers bound [] history ↔ ∀ stamp ∈ history, stamp ≤ bound := by
  constructor
  · intro covers
    exact above_eq_zero.mp (covers bound le_rfl).symm
  · intro old cutoff reached
    exact (above_eq_zero.mpr fun stamp member => le_trans (old stamp member) reached).symm

theorem Covers.lost (covers : Covers bound kept history) (old : ∀ stamp ∈ kept, stamp ≤ bound) :
    Covers bound [] history := by
  intro cutoff reached
  rw [← covers _ reached]
  exact (above_eq_zero.mpr fun stamp member => le_trans (old stamp member) reached).symm

/-- What the log lacks, the history has no longer in its window. -/
theorem Covers.old (covers : Covers bound kept history) (empty : prune bound kept = []) :
    ∀ stamp ∈ history, stamp ≤ bound := by
  have none_kept : above bound kept = 0 := by rw [← length_prune, empty, List.length_nil]
  rw [covers bound le_rfl] at none_kept
  exact above_eq_zero.mp none_kept

/-- Nothing in the history above `top`, nothing in the log above it. -/
theorem Covers.kept_le {top : τ} (covers : Covers bound kept history) (reached : bound ≤ top)
    (past : ∀ stamp ∈ history, stamp ≤ top) : ∀ stamp ∈ kept, stamp ≤ top := by
  rw [← above_eq_zero, covers top reached, above_eq_zero]
  exact past

/-- The history may forget records whose stamps lie below the bound. -/
theorem Covers.forget {ρ : Type v} {stamp : ρ → τ} {records : List ρ} (p : ρ → Bool)
    (covers : Covers bound kept (records.map stamp))
    (old : ∀ r ∈ records, p r = false → stamp r ≤ bound) :
    Covers bound kept ((records.filter p).map stamp) := by
  intro cutoff reached
  rw [covers _ reached, above, above, List.countP_map, List.countP_map, List.countP_filter]
  apply List.countP_congr
  intro r member
  simp only [Function.comp_apply, decide_eq_true_eq, Bool.and_eq_true, iff_self_and]
  intro late
  cases remembered : p r with
  | true => rfl
  | false => exact absurd (le_trans (old r member remembered) reached) (not_le.mpr late)

end Empyrean.Theory.SlidingWindow
