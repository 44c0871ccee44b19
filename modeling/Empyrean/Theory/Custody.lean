/-
# Empyrean.Theory.Custody — who holds an item that was put on a queue

Items enter a queue; workers take them off, hold them for a while, and finish them.  The
books list what entered, what is queued, what is in some worker's hands, and what was taken
and finished.  Only the items that a predicate `tracked` picks are kept track of; the
others may be discarded.

* `Moves` — the entries a step can make in the books.
* `Balanced` — nothing is lost and nothing is taken twice.  `balanced_moves` keeps it.
* `Balanced.settled_iff` — everything that entered was taken once and is finished exactly
  when nothing tracked is queued and nobody holds anything.
-/
import Mathlib.Data.List.Nodup

namespace Empyrean.Theory.Custody

set_option autoImplicit false

universe u v

structure Books (ι : Type u) (ε : Type v) where
  entered : List ι
  queue : List ι
  hands : List ι
  taken : List ι
  finished : List (ι × ε)

section Rules

variable {ι : Type u} {ε : Type v}

/-- One entry; `hands` is a list up to the order of the workers. -/
inductive Moves (tracked : ι → Prop) : Books ι ε → Books ι ε → Prop
  | still (b : Books ι ε) : Moves tracked b b
  | enters (b : Books ι ε) (i : ι) (fresh : i ∉ b.entered) :
      Moves tracked b { b with entered := i :: b.entered, queue := b.queue ++ [i] }
  | takes (b : Books ι ε) (i : ι) (rest hands : List ι) (first : b.queue = i :: rest)
  (counts : tracked i)
      (held : hands.Perm (i :: b.hands)) :
      Moves tracked b { b with queue := rest, hands := hands, taken := i :: b.taken }
  | discards (b : Books ι ε) (i : ι) (rest : List ι) (first : b.queue = i :: rest)
  (other : ¬ tracked i) :
      Moves tracked b { b with queue := rest }
  | finishes (b : Books ι ε) (i : ι) (result : ε) (hands : List ι)
  (held : b.hands.Perm (i :: hands)) :
      Moves tracked b { b with hands := hands, finished := (i, result) :: b.finished }

/-- The items that are finished, once for each time. -/
def Books.done (b : Books ι ε) : List ι := b.finished.map Prod.fst

variable [DecidableEq ι]

structure Balanced (tracked : ι → Prop) (b : Books ι ε) : Prop where
  once : b.entered.Nodup
  hands : ∀ i ∈ b.hands, tracked i
  entered : ∀ i, tracked i → b.entered.count i = b.done.count i + b.hands.count i + b.queue.count i
  taken : ∀ i, b.taken.count i = b.done.count i + b.hands.count i

/-- The item was taken exactly once, and is finished. -/
def Books.Settled (b : Books ι ε) (i : ι) : Prop := b.taken.count i = 1 ∧ i ∈ b.done

variable {tracked : ι → Prop} {b b' : Books ι ε}

theorem balanced_empty : Balanced tracked (⟨[], [], [], [], []⟩ : Books ι ε) where
  once := List.nodup_nil
  hands := by simp
  entered := by simp [Books.done]
  taken := by simp [Books.done]

/-- **Every entry keeps the books balanced.** -/
theorem balanced_moves (balanced : Balanced tracked b) (moves : Moves tracked b b') :
    Balanced tracked b' := by
  cases moves with
  | still => exact balanced
  | enters i fresh =>
      refine ⟨List.nodup_cons.mpr ⟨fresh, balanced.once⟩, balanced.hands, ?_, balanced.taken⟩
      intro j counts
      have before := balanced.entered j counts
      simp only [Books.done, List.count_cons, List.count_append, List.count_nil] at before ⊢
      omega
  | takes i rest hands first counts held =>
      have held_count : ∀ j, hands.count j =
          b.hands.count j + if (i == j) = true then 1 else 0 := by
        intro j
        rw [held.count_eq, List.count_cons]
      refine ⟨balanced.once, ?_, ?_, ?_⟩
      · intro j holds
        rcases List.mem_cons.mp (held.mem_iff.mp holds) with rfl | before
        · exact counts
        · exact balanced.hands j before
      · intro j tracks
        have before := balanced.entered j tracks
        rw [first, List.count_cons] at before
        have now := held_count j
        simp only [Books.done] at before ⊢
        omega
      · intro j
        have before := balanced.taken j
        have now := held_count j
        simp only [Books.done, List.count_cons] at before ⊢
        omega
  | discards i rest first other =>
      refine ⟨balanced.once, balanced.hands, ?_, balanced.taken⟩
      intro j counts
      have before := balanced.entered j counts
      have apart : (i == j) = false := by
        rw [beq_eq_false_iff_ne]
        rintro rfl
        exact other counts
      rw [first, List.count_cons, apart] at before
      simpa [Books.done] using before
  | finishes i result hands held =>
      have held_count : ∀ j, b.hands.count j =
          hands.count j + if (i == j) = true then 1 else 0 := by
        intro j
        rw [held.count_eq, List.count_cons]
      refine ⟨balanced.once, ?_, ?_, ?_⟩
      · intro j holds
        exact balanced.hands j (held.mem_iff.mpr (List.mem_cons_of_mem i holds))
      · intro j tracks
        have before := balanced.entered j tracks
        have now := held_count j
        simp only [Books.done, List.map_cons, List.count_cons] at before ⊢
        omega
      · intro j
        have before := balanced.taken j
        have now := held_count j
        simp only [Books.done, List.map_cons, List.count_cons] at before ⊢
        omega

/-- What is still queued or held was not finished. -/
theorem Balanced.not_done (balanced : Balanced tracked b) {i : ι} (counts : tracked i)
    (open_ : i ∈ b.queue ∨ i ∈ b.hands) : i ∈ b.entered ∧ i ∉ b.done := by
  have once := List.nodup_iff_count_le_one.mp balanced.once i
  have entered := balanced.entered i counts
  have present : 0 < b.queue.count i ∨ 0 < b.hands.count i :=
    open_.imp List.count_pos_iff.mpr List.count_pos_iff.mpr
  constructor
  · apply List.count_pos_iff.mp
    omega
  · intro done
    have finished := List.count_pos_iff.mpr done
    omega

/-- An item that entered is settled exactly when nobody has it any more. -/
theorem Balanced.settled_iff_gone (balanced : Balanced tracked b) {i : ι} (counts : tracked i)
    (enters : i ∈ b.entered) : b.Settled i ↔ i ∉ b.queue ∧ i ∉ b.hands := by
  constructor
  · rintro ⟨_, done⟩
    constructor
    · intro queued
      exact (balanced.not_done counts (Or.inl queued)).2 done
    · intro held
      exact (balanced.not_done counts (Or.inr held)).2 done
  · rintro ⟨unqueued, unheld⟩
    have once := List.count_eq_one_of_mem balanced.once enters
    have entered := balanced.entered i counts
    have taken := balanced.taken i
    rw [List.count_eq_zero_of_not_mem unqueued, List.count_eq_zero_of_not_mem unheld] at entered
    rw [List.count_eq_zero_of_not_mem unheld] at taken
    refine ⟨by omega, List.count_pos_iff.mp (by omega)⟩

/-- **Everything is settled** exactly when the queue and the hands are empty of it. -/
theorem Balanced.settled_iff (balanced : Balanced tracked b) :
    (∀ i ∈ b.entered, tracked i → b.Settled i) ↔ (∀ i ∈ b.queue, ¬ tracked i) ∧ b.hands = [] := by
  constructor
  · intro settled
    have gone : ∀ i, tracked i → i ∈ b.queue ∨ i ∈ b.hands → False := by
      intro i counts open_
      obtain ⟨enters, unfinished⟩ := balanced.not_done counts open_
      exact unfinished (settled i enters counts).2
    refine ⟨fun i queued counts => gone i counts (Or.inl queued), ?_⟩
    apply List.eq_nil_iff_forall_not_mem.mpr
    intro i held
    exact gone i (balanced.hands i held) (Or.inr held)
  · rintro ⟨unqueued, empty⟩ i enters counts
    refine (balanced.settled_iff_gone counts enters).mpr
      ⟨fun queued => unqueued i queued counts, ?_⟩
    simp [empty]

end Rules

end Empyrean.Theory.Custody
