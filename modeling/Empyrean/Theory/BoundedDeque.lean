/-
# Empyrean.Theory.BoundedDeque — `collections.deque(maxlen=…)`

A deque with a maximal length never raises on a push: it lets go of an entry at the other
end, without a word.  The left end is the head of the list.

* `append_of_room`, `extendleft_of_room` — with room for what is pushed nothing is let go.
* `append_perm`, `extendleft_perm` — in general, what stays and what is let go.
-/
import Mathlib.Data.List.Basic

namespace Empyrean.Theory.BoundedDeque

set_option autoImplicit false

universe u

variable {α : Type u}

/-- `append`: a full deque lets go of its leftmost entry. -/
def append (maxlen : Nat) (q : List α) (x : α) : List α := (q ++ [x]).drop (q.length + 1 - maxlen)

/-- `appendleft`: a full deque lets go of its rightmost entry. -/
def appendleft (maxlen : Nat) (q : List α) (x : α) : List α := (x :: q).take maxlen

/-- `extendleft`: one after the other, so that the last one ends up leftmost. -/
def extendleft (maxlen : Nat) (q : List α) (xs : List α) : List α := xs.foldl (appendleft maxlen) q

theorem append_of_room {maxlen : Nat} {q : List α} (room : q.length < maxlen) (x : α) :
    append maxlen q x = q ++ [x] := by
  have none : q.length + 1 - maxlen = 0 := by omega
  rw [append, none, List.drop_zero]

theorem appendleft_of_room {maxlen : Nat} {q : List α} (room : q.length < maxlen) (x : α) :
    appendleft maxlen q x = x :: q := by
  rw [appendleft, List.take_of_length_le]
  rw [List.length_cons]
  omega

theorem extendleft_append_single (maxlen : Nat) (q xs : List α) (x : α) :
    extendleft maxlen q (xs ++ [x]) = appendleft maxlen (extendleft maxlen q xs) x := by
  rw [extendleft, List.foldl_append]
  rfl

/-- Put back in reverse, entries stand in their old order again. -/
theorem extendleft_of_room {maxlen : Nat} (xs : List α) :
    ∀ {q : List α}, xs.length + q.length ≤ maxlen →
    extendleft maxlen q xs.reverse = xs ++ q := by
  induction xs with
  | nil => intro q _; rfl
  | cons x xs ih =>
      intro q room
      rw [List.length_cons] at room
      have inner : extendleft maxlen q xs.reverse = xs ++ q := ih (by omega)
      have space : (xs ++ q).length < maxlen := by
        rw [List.length_append]
        omega
      rw [List.reverse_cons, extendleft_append_single, inner, appendleft_of_room space,
        List.cons_append]

/-- What `append` lets go of. -/
def droppedLeft (maxlen : Nat) (q : List α) (x : α) : List α :=
  (q ++ [x]).take (q.length + 1 - maxlen)

theorem append_perm (maxlen : Nat) (q : List α) (x : α) :
    (append maxlen q x ++ droppedLeft maxlen q x).Perm (q ++ [x]) := by
  rw [append, droppedLeft]
  exact List.perm_append_comm.trans (List.Perm.of_eq (List.take_append_drop _ _))

/-- What `extendleft` lets go of, of the deque and of what was pushed before the rest. -/
def droppedRight (maxlen : Nat) (q : List α) : List α → List α
  | [] => []
  | x :: xs => (x :: xs ++ q).drop maxlen

theorem extendleft_cons (maxlen : Nat) (q : List α) (x : α) (xs : List α) :
    extendleft maxlen q (x :: xs).reverse = (x :: xs ++ q).take maxlen := by
  induction xs generalizing x with
  | nil => rfl
  | cons y ys ih =>
      rw [List.reverse_cons, extendleft_append_single, ih, appendleft]
      cases maxlen with
      | zero => rfl
      | succ n =>
          show x :: ((y :: ys ++ q).take (n + 1)).take n = x :: (y :: ys ++ q).take n
          rw [List.take_take, Nat.min_eq_left (Nat.le_succ n)]

theorem extendleft_perm (maxlen : Nat) (q xs : List α) :
    (extendleft maxlen q xs.reverse ++ droppedRight maxlen q xs).Perm (xs ++ q) := by
  cases xs with
  | nil => exact List.Perm.of_eq (List.append_nil q)
  | cons x xs =>
      rw [extendleft_cons, droppedRight]
      exact List.Perm.of_eq (List.take_append_drop _ _)

end Empyrean.Theory.BoundedDeque
