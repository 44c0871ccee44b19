/-
# Empyrean.Theory.Losses — which steps of a run lose something

A step moves entries between places; some it takes in, some it drops.  What is anywhere at
all is on the books.  An entry that is dropped never comes back, so a run keeps all of a
set of entries exactly when none of its steps drops one.

* `Accounts` — the books of one step balance, and what comes in is new.
* `kept_iff` — the rule for whole runs.
-/
import Mathlib.Data.List.Nodup
import Mathlib.Data.List.Perm.Basic
import Empyrean.Theory.Runs

namespace Empyrean.Theory.Losses

set_option autoImplicit false

open Empyrean.Theory.Runs

universe u v w

variable {σ : Type u} {α : Type v} {ι : Type w}

/-- Every step balances: what is on the books afterwards, with what it lost, is what was on
them, with what came in.  `I` is an invariant under which nothing comes in twice, and none
of `origin` again. -/
structure Accounts (step : σ → α → σ) (books : σ → List ι) (arrives lost : σ → α → List ι)
    (origin : List ι) (I : σ → Prop) : Prop where
  inv : ∀ s a, I s → I (step s a)
  balance : ∀ s a, (books (step s a) ++ lost s a).Perm (books s ++ arrives s a)
  fresh : ∀ s a, I s → (books s ++ arrives s a).Nodup
  foreign : ∀ s a, I s → ∀ i ∈ arrives s a, i ∉ origin

section Rules

variable {step : σ → α → σ} {books : σ → List ι} {arrives lost : σ → α → List ι} {origin : List ι}
    {I : σ → Prop}

/-- A step keeps all of `origin` iff it drops none of it. -/
theorem Accounts.step_iff (accounts : Accounts step books arrives lost origin I) {s : σ}
    (holds : I s) (kept : origin ⊆ books s) (a : α) : origin ⊆ books (step s a) ↔
      ∀ i ∈ lost s a, i ∉ origin := by
  have balance := accounts.balance s a
  constructor
  · intro still i dropped among
    have nodup := balance.nodup_iff.mpr (accounts.fresh s a holds)
    exact (List.nodup_append'.mp nodup).2.2 (still among) dropped
  · intro spared i among
    have before : i ∈ books s ++ arrives s a := List.mem_append_left _ (kept among)
    rcases List.mem_append.mp (balance.mem_iff.mpr before) with stays | dropped
    · exact stays
    · exact absurd among (spared i dropped)

/-- What is kept to the end was kept all the way. -/
theorem Accounts.kept_before (accounts : Accounts step books arrives lost origin I) {s : σ}
    (holds : I s) {a : α} (kept : origin ⊆ books (step s a)) : origin ⊆ books s := by
  intro i among
  have after : i ∈ books (step s a) ++ lost s a := List.mem_append_left _ (kept among)
  rcases List.mem_append.mp ((accounts.balance s a).mem_iff.mp after) with before | came
  · exact before
  · exact absurd among (accounts.foreign s a holds i came)

theorem Accounts.kept_earlier (accounts : Accounts step books arrives lost origin I) :
    ∀ (actions : List α) (s : σ), I s → origin ⊆ books (actions.foldl step s) → origin ⊆ books s
  | [], _, _, kept => kept
  | a :: rest, s, holds, kept =>
      accounts.kept_before holds
        (accounts.kept_earlier rest (step s a) (accounts.inv s a holds) kept)

theorem Accounts.inv_of_run (accounts : Accounts step books arrives lost origin I) :
    ∀ (actions : List α) (s : σ), I s → I (actions.foldl step s)
  | [], _, holds => holds
  | a :: rest, s, holds => accounts.inv_of_run rest (step s a) (accounts.inv s a holds)

/-- **A run keeps all of `origin`** iff no step of it drops any of it. -/
theorem Accounts.kept_iff (accounts : Accounts step books arrives lost origin I) {s : σ}
    (holds : I s) (starts : origin ⊆ books s) (actions : List α) :
    origin ⊆ books (actions.foldl step s) ↔
      ∀ taken a, taken ++ [a] <+: actions → ∀ i ∈ lost (taken.foldl step s) a, i ∉ origin := by
  rw [← all_good_iff accounts.inv (fun s a holds kept => accounts.step_iff holds kept a) actions s holds starts]
  constructor
  · rintro kept taken ⟨rest, rfl⟩
    rw [List.foldl_append] at kept
    exact accounts.kept_earlier rest _ (accounts.inv_of_run taken s holds) kept
  · exact fun all => all actions (List.prefix_refl _)

end Rules

end Empyrean.Theory.Losses
