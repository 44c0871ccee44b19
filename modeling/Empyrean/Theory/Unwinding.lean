/-
# Empyrean.Theory.Unwinding — what one observer has of a run

A system takes actions one after the other and answers each.  An observer sees a part of the
state, and hears the answers to the actions that are theirs.

* `Unwinds` — an action of somebody else leaves what the observer sees as it was; what one of
  their own does to it, and how it is answered, rests on nothing but what they see.
* `Unwinds.purge` — the actions of everybody else can be struck from a run.
* `Unwinds.same` — runs with the same actions of the observer, in the same order, end alike.
-/
import Mathlib.Data.List.Basic

namespace Empyrean.Theory.Unwinding

set_option autoImplicit false

variable {σ α ρ υ : Type*}

/-- The state that a list of actions leads to. -/
def after (step : σ → α → ρ × σ) : σ → List α → σ
  | s, [] => s
  | s, a :: rest => after step (step s a).2 rest

/-- The answers to the observer's actions. -/
def heard (step : σ → α → ρ × σ) (mine : α → Bool) : σ → List α → List ρ
  | _, [] => []
  | s, a :: rest =>
      if mine a then (step s a).1 :: heard step mine (step s a).2 rest
      else heard step mine (step s a).2 rest

/-- The conditions on one step, in the states that satisfy `inv`. -/
structure Unwinds (step : σ → α → ρ × σ) (inv : σ → Prop) (view : σ → υ)
    (mine : α → Bool) : Prop where
  keeps : ∀ {s a}, inv s → inv (step s a).2
  frame : ∀ {s a}, inv s → mine a = false → view (step s a).2 = view s
  moves : ∀ {s s' a}, inv s → inv s' → mine a = true → view s = view s' →
    view (step s a).2 = view (step s' a).2
  answers : ∀ {s s' a}, inv s → inv s' → mine a = true → view s = view s' →
    (step s a).1 = (step s' a).1

section Rules

variable {step : σ → α → ρ × σ} {inv : σ → Prop} {view : σ → υ} {mine : α → Bool}

/-- **The others can be struck.** -/
theorem Unwinds.purge (unwinds : Unwinds step inv view mine) {s s' : σ} (holds : inv s)
    (holds' : inv s') (same : view s = view s') (actions : List α) :
    view (after step s actions) = view (after step s' (actions.filter mine)) ∧
      heard step mine s actions = heard step mine s' (actions.filter mine) := by
  induction actions generalizing s s' with
  | nil => exact ⟨same, rfl⟩
  | cons a rest ih =>
      cases own : mine a with
      | false =>
          rw [List.filter_cons_of_neg (by rw [own]; exact Bool.false_ne_true)]
          have unseen : view (step s a).2 = view s' := (unwinds.frame holds own).trans same
          have ⟨ends, told⟩ := ih (unwinds.keeps holds) holds' unseen
          refine ⟨ends, ?_⟩
          show (if mine a then _ else _) = _
          rw [own]
          exact told
      | true =>
          rw [List.filter_cons_of_pos own]
          have seen := unwinds.moves holds holds' own same
          have ⟨ends, told⟩ := ih (unwinds.keeps holds) (unwinds.keeps holds') seen
          refine ⟨ends, ?_⟩
          show (if mine a then _ else _) = if mine a then _ else _
          rw [own, if_pos rfl, if_pos rfl, unwinds.answers holds holds' own same, told]

theorem Unwinds.same (unwinds : Unwinds step inv view mine) {s s' : σ} (holds : inv s)
    (holds' : inv s') (same : view s = view s') {actions actions' : List α}
    (agree : actions.filter mine = actions'.filter mine) :
    view (after step s actions) = view (after step s' actions') ∧
      heard step mine s actions = heard step mine s' actions' := by
  have struck := unwinds.purge holds holds' same actions
  have struck' := unwinds.purge holds' holds' rfl actions'
  rw [agree] at struck
  exact ⟨struck.1.trans struck'.1.symm, struck.2.trans struck'.2.symm⟩

end Rules

end Empyrean.Theory.Unwinding
