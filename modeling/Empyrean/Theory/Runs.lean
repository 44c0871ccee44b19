/-
# Empyrean.Theory.Runs — runs of a partial step function

A system is a function `step : σ → α → Option σ`: in state `s` the scheduler picks
an action `a`, and `step s a` is the next state, or `none` where `a` is not enabled
(a statement that must wait for a row lock, a request that is not at that point).
Interleavings are not modelled separately: they are the lists of actions.

* `Reach step ok start s` — some run from a `start` state ends in `s`, and every
  step of it was taken in a state and with an action that meet `ok`.
* `Reach.invariant` — the induction rule every safety result here goes through.
* `all_good_iff` — for a total `step`, when the states of a whole run are good.
* `run` / `exists_reach_of_run` — the executable side: a concrete list of actions,
  evaluated, is a run.
-/
import Mathlib.Logic.Relation

namespace Empyrean.Theory.Runs

set_option autoImplicit false

universe u v

variable {σ : Type u} {α : Type v}

/-- `s` ends a run from a `start` state in which every step meets `ok`. -/
inductive Reach (step : σ → α → Option σ) (ok : σ → α → Prop) (start : σ → Prop) : σ → Prop
  | init {s : σ} (starts : start s) : Reach step ok start s
  | next {s s' : σ} (a : α) (reached : Reach step ok start s) (meets : ok s a)
      (stepped : step s a = some s') : Reach step ok start s'

/-- The condition every step meets. -/
def Always : σ → α → Prop := fun _ _ => True

section Rules

variable {step : σ → α → Option σ} {ok ok' : σ → α → Prop} {start start' : σ → Prop}

/-- **The run rule.**  What every start state has and every step that meets `ok`
keeps, every reached state has. -/
theorem Reach.invariant {I : σ → Prop} (base : ∀ s, start s → I s)
    (keep : ∀ s a s', I s → ok s a → step s a = some s' → I s') {s : σ}
    (reached : Reach step ok start s) : I s := by
  induction reached with
  | init starts => exact base _ starts
  | next a _ meets stepped ih => exact keep _ a _ ih meets stepped

/-- The run rule for an invariant proved on top of another one. -/
theorem Reach.invariant_of {J I : σ → Prop} (first : ∀ s, Reach step ok start s → J s)
    (base : ∀ s, start s → I s)
    (keep : ∀ s a s', J s → I s → ok s a → step s a = some s' → I s') {s : σ}
    (reached : Reach step ok start s) : I s := by
  induction reached with
  | init starts => exact base _ starts
  | next a earlier meets stepped ih => exact keep _ a _ (first _ earlier) ih meets stepped

/-- A run under a stronger condition, from fewer states, is a run. -/
theorem Reach.mono (weaker : ∀ s a, ok s a → ok' s a) (fewer : ∀ s, start s → start' s) {s : σ}
    (reached : Reach step ok start s) : Reach step ok' start' s := by
  induction reached with
  | init starts => exact .init (fewer _ starts)
  | next a _ meets stepped ih => exact .next a ih (weaker _ _ meets) stepped

/-- Where every step of one system is a step of another with the same action, the runs of the
first are runs of the second: here `f` forgets what was recorded beside the state. -/
theorem Reach.image {σ' : Type*} {step' : σ' → α → Option σ'} {ok' : σ' → α → Prop}
    {start' : σ' → Prop} (f : σ → σ') (starts : ∀ s, start s → start' (f s))
    (meets : ∀ s a, ok s a → ok' (f s) a) (steps : ∀ s a s', step s a = some s' →
      step' (f s) a = some (f s')) {s : σ} (reached : Reach step ok start s) :
    Reach step' ok' start' (f s) := by
  induction reached with
  | init begins => exact .init (starts _ begins)
  | next a _ met stepped ih => exact .next a ih (meets _ a met) (steps _ a _ stepped)

end Rules

/-! ## Runs of a function -/

/-- **The exact rule.**  Where a step from a good state ends in a good state exactly when it
meets `ok`, the states of a run are all good exactly when its steps all meet `ok`. -/
theorem all_good_iff {step : σ → α → σ} {I good : σ → Prop} {ok : σ → α → Prop}
    (inv : ∀ s a, I s → I (step s a)) (exact : ∀ s a, I s → good s → (good (step s a) ↔ ok s a)) :
    ∀ (actions : List α) (s : σ), I s → good s →
      ((∀ taken, taken <+: actions → good (taken.foldl step s)) ↔
        ∀ taken a, taken ++ [a] <+: actions → ok (taken.foldl step s) a)
  | [], s, _, starts => by
      constructor
      · intro _ taken a before
        simp at before
      · intro _ taken before
        rw [List.prefix_nil.mp before]
        exact starts
  | a :: rest, s, holds, starts => by
      have rule := all_good_iff inv exact rest (step s a) (inv s a holds)
      have first := exact s a holds starts
      constructor
      · intro all taken b before
        have next : good (step s a) := all [a] (by simp)
        cases taken with
        | nil =>
            obtain rfl : b = a := by simpa using before
            exact first.mp next
        | cons head taken =>
            obtain ⟨rfl, later⟩ := List.cons_prefix_cons.mp before
            refine (rule next).mp ?_ taken b later
            intro other before
            exact all (head :: other) (List.cons_prefix_cons.mpr ⟨rfl, before⟩)
      · intro meets taken before
        have next : good (step s a) := first.mpr (meets [] a (by simp))
        cases taken with
        | nil => exact starts
        | cons head taken =>
            obtain ⟨rfl, later⟩ := List.cons_prefix_cons.mp before
            refine (rule next).mpr ?_ taken later
            intro other b before
            exact meets (head :: other) b (List.cons_prefix_cons.mpr ⟨rfl, before⟩)

/-! ## Evaluated runs -/

/-- Take the actions of a list in order; `none` if one of them is not enabled. -/
def run (step : σ → α → Option σ) : σ → List α → Option σ
  | s, [] => some s
  | s, a :: rest => (step s a).bind fun s' => run step s' rest

/-- `step`, refusing an action that does not meet `ok`. -/
def guard (step : σ → α → Option σ) (ok : σ → α → Prop) [∀ s a, Decidable (ok s a)] :
    σ → α → Option σ :=
  fun s a => if ok s a then step s a else none

section Evaluated

variable {step : σ → α → Option σ} {start : σ → Prop}

theorem reach_of_run (ok : σ → α → Prop) [∀ s a, Decidable (ok s a)] :
    ∀ (actions : List α) (s s' : σ), Reach step ok start s →
      run (guard step ok) s actions = some s' → Reach step ok start s'
  | [], s, s', reached, ran => by
      simp only [run, Option.some.injEq] at ran
      exact ran ▸ reached
  | a :: rest, s, s', reached, ran => by
      simp only [run, guard] at ran
      split at ran
      · rename_i meets
        cases stepped : step s a with
        | none => simp [stepped] at ran
        | some mid =>
            simp only [stepped, Option.bind_some] at ran
            exact reach_of_run ok rest mid s' (.next a reached meets stepped) ran
      · simp at ran

/-- A list of actions that evaluates to a state where `p` holds reaches such a state. -/
theorem exists_reach_of_run (step : σ → α → Option σ) (ok : σ → α → Prop)
    [∀ s a, Decidable (ok s a)] {s : σ} (starts : start s) (actions : List α) (p : σ → Bool)
    (evaluated : (run (guard step ok) s actions).map p = some true) :
    ∃ s', Reach step ok start s' ∧ p s' = true := by
  obtain ⟨s', ran, holds⟩ := Option.map_eq_some_iff.mp evaluated
  exact ⟨s', reach_of_run ok actions s s' (.init starts) ran, holds⟩

/-- The same for a state on the way and a later one. -/
theorem exists_reach_later (step : σ → α → Option σ) (ok : σ → α → Prop)
    [∀ s a, Decidable (ok s a)] {s : σ} (starts : start s) (first later : List α) (p q : σ → Bool)
    (evaluated : ((run (guard step ok) s first).bind fun mid =>
      if p mid then (run (guard step ok) mid later).map q else none) = some true) :
    ∃ mid s', Reach step ok start mid ∧ p mid = true ∧ Reach step ok (fun x => x = mid) s' ∧
      q s' = true := by
  obtain ⟨mid, ran, rest⟩ := Option.bind_eq_some_iff.mp evaluated
  split at rest
  · rename_i holds
    obtain ⟨s', ran', holds'⟩ := Option.map_eq_some_iff.mp rest
    exact ⟨mid, s', reach_of_run ok first s mid (.init starts) ran, holds,
      reach_of_run ok later mid s' (.init rfl) ran', holds'⟩
  · cases rest

end Evaluated

instance (s : σ) (a : α) : Decidable (Always s a) := inferInstanceAs (Decidable True)

end Empyrean.Theory.Runs
