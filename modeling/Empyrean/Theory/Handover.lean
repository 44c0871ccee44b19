/-
# Empyrean.Theory.Handover — every item is handed over once

Workers queue items and hand over what they have queued.  An item is fresh when it is queued:
nobody has queued it or handed it over.  Then nobody does so twice, whoever moves next.

* `Once` — nothing is handed over twice, and nothing that is queued is anywhere else.
* `Once.enqueue`, `Once.settle`, `Once.drop` — a worker queues fresh items, hands all of its
  items over, or forgets them.
-/
import Mathlib.Data.List.Nodup
import Mathlib.Logic.Function.Basic

namespace Empyrean.Theory.Handover

set_option autoImplicit false

universe u v

variable {ι : Type u} {β : Type v}

structure Once (handed : List β) (queue : ι → List β) : Prop where
  told : handed.Nodup
  queued : ∀ t, (queue t).Nodup
  ahead : ∀ t, ∀ b ∈ queue t, b ∉ handed
  apart : ∀ t t', t ≠ t' → ∀ b ∈ queue t, b ∉ queue t'

theorem once_empty : Once ([] : List β) (fun _ : ι => []) where
  told := List.nodup_nil
  queued := fun _ => List.nodup_nil
  ahead := fun _ b member => by cases member
  apart := fun _ _ _ b member => by cases member

section Moves

variable [DecidableEq ι] {handed items : List β} {queue : ι → List β}

theorem Once.enqueue (once : Once handed queue) (t : ι) (distinct : items.Nodup)
    (fresh : ∀ b ∈ items, b ∉ handed ∧ ∀ t', b ∉ queue t') :
    Once handed (Function.update queue t items) where
  told := once.told
  queued := fun t' => by
    by_cases same : t' = t
    · rw [same, Function.update_self]
      exact distinct
    · rw [Function.update_of_ne same]
      exact once.queued t'
  ahead := fun t' b member => by
    by_cases same : t' = t
    · rw [same, Function.update_self] at member
      exact (fresh b member).1
    · rw [Function.update_of_ne same] at member
      exact once.ahead t' b member
  apart := fun t₁ t₂ different b member => by
    by_cases first : t₁ = t
    · rw [first, Function.update_self] at member
      rw [Function.update_of_ne (first ▸ different.symm)]
      exact (fresh b member).2 t₂
    · rw [Function.update_of_ne first] at member
      by_cases second : t₂ = t
      · rw [second, Function.update_self]
        exact fun inside => (fresh b inside).2 t₁ member
      · rw [Function.update_of_ne second]
        exact once.apart t₁ t₂ different b member

theorem Once.drop (once : Once handed queue) (t : ι) : Once handed (Function.update queue t []) :=
  once.enqueue t List.nodup_nil fun _ member => by cases member

theorem Once.settle (once : Once handed queue) (t : ι) :
    Once (handed ++ queue t) (Function.update queue t []) where
  told := List.nodup_append'.mpr
    ⟨once.told, once.queued t, fun _ before waiting => once.ahead t _ waiting before⟩
  queued := (once.drop t).queued
  ahead := fun t' b member => by
    by_cases same : t' = t
    · rw [same, Function.update_self] at member
      cases member
    · rw [Function.update_of_ne same] at member
      intro inside
      rcases List.mem_append.mp inside with earlier | now
      · exact once.ahead t' b member earlier
      · exact once.apart t' t same b member now
  apart := (once.drop t).apart

end Moves

end Empyrean.Theory.Handover
