/-
# Empyrean.Theory.PrefixCode — several stores in one, told apart by the start of the key

Where no code word is the start of another, a text that starts with one says which it is, and
what follows it is determined.

* `PrefixFree` — no code word is the start of another.
* `PrefixFree.append_inj`, `PrefixFree.eq_of_prefix` — a text is read in one way only.
-/
import Mathlib.Data.List.Basic

namespace Empyrean.Theory.PrefixCode

set_option autoImplicit false

universe u v

variable {τ : Type u} {α : Type v} {word : τ → List α}

def PrefixFree (word : τ → List α) : Prop := ∀ a b, word a <+: word b → a = b

/-- A text starts with one code word at most. -/
theorem PrefixFree.eq_of_prefix (free : PrefixFree word) {a b : τ} {rest : List α}
    (starts : word a <+: word b ++ rest) : a = b := by
  rcases List.prefix_or_prefix_of_prefix starts (List.prefix_append (word b) rest) with shorter |
    longer
  · exact free a b shorter
  · exact (free b a longer).symm

theorem PrefixFree.append_inj (free : PrefixFree word) {a b : τ} {rest rest' : List α}
    (same : word a ++ rest = word b ++ rest') : a = b ∧ rest = rest' := by
  have starts : word a <+: word b ++ rest' := ⟨rest, same⟩
  obtain rfl := free.eq_of_prefix starts
  exact ⟨rfl, List.append_cancel_left same⟩

end Empyrean.Theory.PrefixCode
