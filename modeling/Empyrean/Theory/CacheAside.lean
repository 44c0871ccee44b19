/-
# Empyrean.Theory.CacheAside — what the entries of a cache are promised to be

A cache beside a store is filled by readers with what they read a moment ago and emptied
by writers.  No statement makes the two agree; what holds is a *demand* that every entry
meets, and each operation has a rule for it.

* `Meets demand cache` — every entry meets the demand on its key.
* `meets_fill_iff` — a fill keeps it exactly where the new entry meets the demand.
* `meets_drop`, `meets_replace` — the demand on one key may rise when its entry is deleted,
  or overwritten by one that meets the new demand.
* `versionAt` — the versions that a store has gone through, for a demand on how old an
  entry may be.
-/
import Mathlib.Logic.Function.Basic

namespace Empyrean.Theory.CacheAside

set_option autoImplicit false

universe u v

/-! ## Demands -/

section Demands

variable {κ : Type u} {ε : Type v}

def Meets (demand : κ → ε → Prop) (cache : κ → Option ε) : Prop :=
  ∀ k entry, cache k = some entry → demand k entry

variable {demand demand' : κ → ε → Prop} {cache : κ → Option ε} {k : κ}

theorem Meets.mono (meets : Meets demand cache)
    (weaker : ∀ k entry, demand k entry → demand' k entry) : Meets demand' cache :=
  fun k entry stored => weaker k entry (meets k entry stored)

variable [DecidableEq κ]

/-- The demand on a key may change with its entry. -/
theorem meets_update {stored : Option ε} (meets : Meets demand cache)
    (others : ∀ k', k' ≠ k → ∀ entry, demand k' entry → demand' k' entry)
    (here : ∀ entry, stored = some entry → demand' k entry) :
    Meets demand' (Function.update cache k stored) := by
  refine (Function.forall_update_iff cache fun k' held => ∀ entry, held = some entry →
    demand' k' entry).mpr ⟨here, ?_⟩
  intro k' different entry present
  exact others k' different entry (meets k' entry present)

theorem meets_replace {entry : ε} (meets : Meets demand cache)
    (others : ∀ k', k' ≠ k → ∀ old, demand k' old → demand' k' old) (filled : demand' k entry) :
    Meets demand' (Function.update cache k (some entry)) :=
  meets_update meets others fun _ same => Option.some.inj same ▸ filled

/-- **The fill rule.** -/
theorem meets_fill_iff {entry : ε} (meets : Meets demand cache) :
    Meets demand (Function.update cache k (some entry)) ↔ demand k entry := by
  constructor
  · intro filled
    exact filled k entry (Function.update_self k _ _)
  · exact meets_replace meets fun _ _ _ held => held

/-- **The deletion rule.** -/
theorem meets_drop (meets : Meets demand cache)
    (others : ∀ k', k' ≠ k → ∀ old, demand k' old → demand' k' old) :
    Meets demand' (Function.update cache k none) :=
  meets_update meets others fun _ absent => by cases absent

/-- An entry that expires. -/
theorem meets_expire (meets : Meets demand cache) : Meets demand (Function.update cache k none) :=
  meets_drop meets fun _ _ _ held => held

end Demands

/-! ## Versions -/

section Versions

variable {σ : Type u}

/-- The version after `n` commits: `earlier` are the ones that were replaced, oldest first. -/
def versionAt (earlier : List σ) (current : σ) (n : Nat) : σ := earlier[n]?.getD current

@[simp] theorem versionAt_length (earlier : List σ) (current : σ) :
    versionAt earlier current earlier.length = current := by
  simp [versionAt]

/-- A commit does not rewrite history. -/
theorem versionAt_append {earlier : List σ} {current next : σ} {n : Nat}
    (past : n ≤ earlier.length) :
    versionAt (earlier ++ [current]) next n = versionAt earlier current n := by
  unfold versionAt
  rcases Nat.lt_or_eq_of_le past with older | rfl
  · rw [List.getElem?_append_left older, List.getElem?_eq_getElem older]
    rfl
  · simp

end Versions

end Empyrean.Theory.CacheAside
