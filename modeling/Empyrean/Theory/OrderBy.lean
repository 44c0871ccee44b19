/-
# Empyrean.Theory.OrderBy — one sorted scan, and the scan of each key

`SELECT … ORDER BY time` returns its rows in ascending order, ties as the database likes.
Where no two rows tie there is only one such list, so a scan of all keys, `ORDER BY key,
time`, holds for each key the very list that a scan of that key alone returns.

* `orderBy` — a list by ascending key.
* `orderBy_unique` — rows in ascending order without ties are the sorted rows.
* `group_orderBy` — a sorted scan, split by key, is the sorted scans of the keys.
-/
import Empyrean.Theory.GroupBy
import Mathlib.Data.List.Sort
import Mathlib.Data.Prod.Lex

namespace Empyrean.Theory.OrderBy

set_option autoImplicit false

open Empyrean.Theory.GroupBy

universe u v w

variable {ρ : Type u} {κ : Type v} {τ : Type w}

/-- No two of the rows tie. -/
def Untied (time : ρ → τ) (rows : List ρ) : Prop :=
  ∀ r ∈ rows, ∀ r' ∈ rows, time r = time r' → r = r'

theorem Untied.filter {time : ρ → τ} {rows : List ρ} (untied : Untied time rows) (p : ρ → Bool) :
    Untied time (rows.filter p) :=
  fun r member r' member' =>
    untied r (List.mem_of_mem_filter member) r' (List.mem_of_mem_filter member')

variable [LinearOrder τ]

/-- `ORDER BY time` -/
def orderBy (time : ρ → τ) (rows : List ρ) : List ρ :=
  rows.insertionSort fun r r' => time r ≤ time r'

variable {time : ρ → τ} {rows : List ρ}

theorem orderBy_perm : (orderBy time rows).Perm rows := List.perm_insertionSort _ _

@[simp] theorem mem_orderBy {r : ρ} : r ∈ orderBy time rows ↔ r ∈ rows := orderBy_perm.mem_iff

theorem orderBy_ascending : (orderBy time rows).Pairwise fun r r' => time r ≤ time r' :=
  haveI : Std.Total fun r r' : ρ => time r ≤ time r' := ⟨fun r r' => le_total (time r) (time r')⟩
  haveI : IsTrans ρ fun r r' => time r ≤ time r' := ⟨fun _ _ _ => le_trans⟩
  List.pairwise_insertionSort _ _

/-- **Without ties there is one ascending order.** -/
theorem orderBy_unique {sorted : List ρ} (untied : Untied time rows) (perm : sorted.Perm rows)
    (ascending : sorted.Pairwise fun r r' => time r ≤ time r') : sorted = orderBy time rows := by
  refine List.Perm.eq_of_pairwise ?_ ascending orderBy_ascending (perm.trans orderBy_perm.symm)
  intro r r' member member' before after
  exact untied r (perm.mem_iff.mp member) r' (mem_orderBy.mp member') (le_antisymm before after)

/-- `WHERE` before `ORDER BY` or after it. -/
theorem filter_orderBy (untied : Untied time rows) (p : ρ → Bool) :
    (orderBy time rows).filter p = orderBy time (rows.filter p) :=
  orderBy_unique (untied.filter p) (orderBy_perm.filter p) (orderBy_ascending.filter p)

/-- **One scan for all keys**: `ORDER BY key, time` holds the scan of each key. -/
theorem group_orderBy [LinearOrder κ] {key : ρ → κ} {k : κ}
    (untied : Untied time (group key k rows)) :
    group key k (orderBy (fun r => toLex (key r, time r)) rows) =
      orderBy time (group key k rows) := by
  refine orderBy_unique untied (orderBy_perm.filter _) ?_
  have scanned : (group key k (orderBy (fun r => toLex (key r, time r)) rows)).Pairwise
      fun r r' => toLex (key r, time r) ≤ toLex (key r', time r') := orderBy_ascending.filter _
  refine scanned.imp_of_mem fun {r r'} member member' ordered => ?_
  have same : key r = key r' := (mem_group.mp member).2.trans (mem_group.mp member').2.symm
  rcases Prod.Lex.toLex_le_toLex.mp ordered with before | ⟨_, earlier⟩
  · exact absurd same before.ne
  · exact earlier

end Empyrean.Theory.OrderBy
