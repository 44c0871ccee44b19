/-
# Empyrean.Theory.PyDict — an insertion-ordered dict, and eviction by age

A `dict` keeps the order in which its keys came; an assignment to a key that is there
leaves the key in its place.  `evictOldest` drops the entries with the smallest values, as
many as it takes to reach a size, ties in the order of the dict.

* `Dict` — the entries in order, one for each key.
* `get?_set`, `get?_delAll` — what is read after a write.
* `size_evictOldest`, `get?_evictOldest` — what an eviction leaves.
* `evictOldest_le` — no entry it drops is newer than one it keeps.
* `foldlM_append` — rows appended to the lists of their keys, one after the other.
-/
import Empyrean.Theory.GroupBy
import Mathlib.Data.List.Sort
import Mathlib.Data.List.Nodup

namespace Empyrean.Theory.PyDict

set_option autoImplicit false

universe u v

structure Dict (κ : Type u) (ν : Type v) where
  entries : List (κ × ν)
  nodup : (entries.map Prod.fst).Nodup

namespace Dict

variable {κ : Type u} {ν : Type v}

/-- `{}` -/
def empty : Dict κ ν := ⟨[], List.nodup_nil⟩

def keys (d : Dict κ ν) : List κ := d.entries.map Prod.fst

/-- `len(d)` -/
def size (d : Dict κ ν) : Nat := d.entries.length

theorem entry_unique {d : Dict κ ν} {k : κ} {v v' : ν} (member : (k, v) ∈ d.entries)
    (member' : (k, v') ∈ d.entries) : v = v' :=
  congrArg Prod.snd (List.inj_on_of_nodup_map d.nodup member member' rfl)

theorem keys_length (d : Dict κ ν) : d.keys.length = d.size := List.length_map _

section Sorted

variable [LinearOrder ν]

/-- `sorted(d, key=d.get)`: the order is stable. -/
def oldestFirst (d : Dict κ ν) : List (κ × ν) := d.entries.insertionSort fun e e' => e.2 ≤ e'.2

theorem oldestFirst_perm (d : Dict κ ν) : d.oldestFirst.Perm d.entries :=
  List.perm_insertionSort _ _

theorem sorted_oldestFirst (d : Dict κ ν) : d.oldestFirst.Pairwise fun e e' => e.2 ≤ e'.2 :=
  haveI : Std.Total fun e e' : κ × ν => e.2 ≤ e'.2 := ⟨fun e e' => le_total e.2 e'.2⟩
  haveI : IsTrans (κ × ν) fun e e' => e.2 ≤ e'.2 := ⟨fun _ _ _ => le_trans⟩
  List.pairwise_insertionSort _ _

end Sorted

variable [DecidableEq κ]

/-- `d.get(k)` -/
def get? (d : Dict κ ν) (k : κ) : Option ν :=
  (d.entries.find? fun e => decide (e.1 = k)).map Prod.snd

theorem get?_eq_some {d : Dict κ ν} {k : κ} {v : ν} : d.get? k = some v ↔ (k, v) ∈ d.entries := by
  rw [get?, Option.map_eq_some_iff]
  constructor
  · rintro ⟨⟨k', v'⟩, found, rfl⟩
    have here : k' = k := of_decide_eq_true (List.find?_some (p := fun e : κ × ν => decide (e.1 = k)) found)
    exact here ▸ List.mem_of_find?_eq_some found
  · intro member
    cases found : d.entries.find? fun e => decide (e.1 = k) with
    | none => exact absurd rfl (of_decide_eq_false (Bool.eq_false_iff.mpr (List.find?_eq_none.mp found (k, v) member)))
    | some e =>
        have here : e.1 = k := of_decide_eq_true (List.find?_some (p := fun e : κ × ν => decide (e.1 = k)) found)
        have among : (k, e.2) ∈ d.entries := here ▸ List.mem_of_find?_eq_some found
        exact ⟨e, rfl, entry_unique among member⟩

theorem get?_eq_none {d : Dict κ ν} {k : κ} : d.get? k = none ↔ ∀ v, (k, v) ∉ d.entries := by
  rw [Option.eq_none_iff_forall_ne_some]
  exact forall_congr' fun v => not_congr get?_eq_some

/-! ## Writes -/

/-- The entries after `d[k] = v`. -/
def setEntries (k : κ) (v : ν) : List (κ × ν) → List (κ × ν)
  | [] => [(k, v)]
  | e :: entries => if e.1 = k then (k, v) :: entries else e :: setEntries k v entries

theorem keys_setEntries (k : κ) (v : ν) (entries : List (κ × ν)) :
    (setEntries k v entries).map Prod.fst =
      if k ∈ entries.map Prod.fst then entries.map Prod.fst else entries.map Prod.fst ++ [k] := by
  induction entries with
  | nil => rfl
  | cons e entries ih =>
      rw [setEntries]
      by_cases here : e.1 = k
      · simp [here]
      · have elsewhere : k ≠ e.1 := fun same => here same.symm
        rw [if_neg here, List.map_cons, ih]
        simp only [List.map_cons, List.mem_cons, elsewhere, false_or]
        split <;> rfl

/-- `d[k] = v` -/
def set (d : Dict κ ν) (k : κ) (v : ν) : Dict κ ν where
  entries := setEntries k v d.entries
  nodup := by
    rw [keys_setEntries]
    split
    · exact d.nodup
    · rename_i fresh
      exact d.nodup.append (List.nodup_singleton k) (List.disjoint_singleton.mpr fresh)

theorem mem_setEntries {k k' : κ} {v v' : ν} {entries : List (κ × ν)}
    (nodup : (entries.map Prod.fst).Nodup) :
    (k', v') ∈ setEntries k v entries ↔ if k' = k then v' = v else (k', v') ∈ entries := by
  induction entries with
  | nil =>
      simp only [setEntries, List.mem_singleton, Prod.mk.injEq, List.not_mem_nil]
      split
      · rename_i here
        exact and_iff_right here
      · rename_i elsewhere
        exact iff_of_false (fun same => elsewhere same.1) id
  | cons e entries ih =>
      obtain ⟨fresh, nodup⟩ := List.nodup_cons.mp nodup
      rw [setEntries]
      by_cases here : e.1 = k
      · rw [if_pos here, List.mem_cons, Prod.mk.injEq, List.mem_cons]
        by_cases asked : k' = k
        · simp only [asked, true_and, if_true, or_iff_left_iff_imp]
          intro again
          exact absurd (List.mem_map.mpr ⟨_, again, here.symm⟩) fresh
        · have other : (k', v') ≠ e := fun same => asked ((congrArg Prod.fst same).trans here)
          simp only [asked, false_and, false_or, if_false, other]
      · rw [if_neg here, List.mem_cons, ih nodup, List.mem_cons]
        by_cases asked : k' = k
        · have other : (k', v') ≠ e := fun same => here ((congrArg Prod.fst same).symm.trans asked)
          simp only [asked, if_true, or_iff_right_iff_imp]
          intro same
          exact absurd (asked ▸ same) other
        · simp only [asked, if_false]

theorem get?_set (d : Dict κ ν) (k k' : κ) (v : ν) :
    (d.set k v).get? k' = if k' = k then some v else d.get? k' := by
  apply Option.ext
  intro v'
  rw [get?_eq_some, set, mem_setEntries d.nodup]
  split
  · exact ⟨fun same => same ▸ rfl, fun same => (Option.some.inj same).symm⟩
  · exact get?_eq_some.symm

/-- `del d[k]`, for each of the keys. -/
def delAll (d : Dict κ ν) (gone : List κ) : Dict κ ν where
  entries := d.entries.filter fun e => decide (e.1 ∉ gone)
  nodup := d.nodup.sublist (List.filter_sublist.map _)

theorem get?_delAll (d : Dict κ ν) (gone : List κ) (k : κ) :
    (d.delAll gone).get? k = if k ∈ gone then none else d.get? k := by
  apply Option.ext
  intro v
  rw [get?_eq_some, delAll, List.mem_filter, decide_eq_true_eq]
  split
  · rename_i gone
    exact iff_of_false (fun kept => kept.2 gone) nofun
  · rename_i kept
    rw [get?_eq_some]
    exact and_iff_left kept

theorem mem_keys {d : Dict κ ν} {k : κ} : k ∈ d.keys ↔ (d.get? k).isSome = true := by
  rw [Option.isSome_iff_exists, keys, List.mem_map]
  constructor
  · rintro ⟨⟨_, v⟩, member, rfl⟩
    exact ⟨v, get?_eq_some.mpr member⟩
  · rintro ⟨v, found⟩
    exact ⟨(k, v), get?_eq_some.mp found, rfl⟩

/-- A key that is not there is one more entry. -/
theorem size_set_of_fresh {d : Dict κ ν} {k : κ} (fresh : d.get? k = none) (v : ν) :
    (d.set k v).size = d.size + 1 := by
  have absent : k ∉ d.keys := by
    rw [mem_keys, fresh]
    exact Bool.false_ne_true
  rw [← keys_length, ← keys_length, keys, set, keys_setEntries]
  exact (congrArg List.length (if_neg absent)).trans List.length_append

/-- `{k: v for k in ks}` -/
def ofKeys (ks : List κ) (v : ν) : Dict κ ν := ks.foldl (fun d k => d.set k v) empty

theorem get?_ofKeys (ks : List κ) (v : ν) (k : κ) :
    (ofKeys ks v).get? k = if k ∈ ks then some v else none := by
  have assigned : ∀ d : Dict κ ν, (ks.foldl (fun d k => d.set k v) d).get? k =
      if k ∈ ks then some v else d.get? k := by
    induction ks with
    | nil => simp
    | cons first ks ih =>
        intro d
        rw [List.foldl_cons, ih, get?_set]
        by_cases later : k ∈ ks <;> by_cases here : k = first <;> simp [later, here]
  exact assigned empty

/-! ## Lists as values -/

section Lists

open Empyrean.Theory.GroupBy

variable {ω : Type v}

/-- `d[k].append(x)`; `none` is the `KeyError`. -/
def append (d : Dict κ (List ω)) (k : κ) (x : ω) : Option (Dict κ (List ω)) :=
  (d.get? k).map fun xs => d.set k (xs ++ [x])

theorem get?_append {d d' : Dict κ (List ω)} {k k' : κ} {x : ω}
    (appended : d.append k x = some d') :
    d'.get? k' = (d.get? k').map fun xs => if k' = k then xs ++ [x] else xs := by
  obtain ⟨xs, found, rfl⟩ := Option.map_eq_some_iff.mp appended
  rw [get?_set]
  split
  · rename_i here
    rw [here, found]
    rfl
  · simp

/-- **One scan into the lists of a dict**: with all keys there, each list grows by the values
of its own key, in the order of the scan. -/
theorem foldlM_append (scan : List (κ × ω)) (d : Dict κ (List ω))
    (present : ∀ e ∈ scan, e.1 ∈ d.keys) :
    ∃ d', scan.foldlM (fun d e => d.append e.1 e.2) d = some d' ∧
      ∀ k, d'.get? k = (d.get? k).map fun xs => xs ++ (group Prod.fst k scan).map Prod.snd := by
  induction scan generalizing d with
  | nil => exact ⟨d, rfl, fun k => by simp [group]⟩
  | cons e scan ih =>
      obtain ⟨xs, found⟩ := Option.isSome_iff_exists.mp (mem_keys.mp (present e List.mem_cons_self))
      have appended : d.append e.1 e.2 = some (d.set e.1 (xs ++ [e.2])) := by simp [append, found]
      have still : ∀ e' ∈ scan, e'.1 ∈ (d.set e.1 (xs ++ [e.2])).keys := by
        intro e' member
        rw [mem_keys, get?_append appended, Option.isSome_map]
        exact mem_keys.mp (present e' (List.mem_cons_of_mem e member))
      obtain ⟨d', run, lists⟩ := ih (d.set e.1 (xs ++ [e.2])) still
      refine ⟨d', by rw [List.foldlM_cons, appended]; exact run, fun k => ?_⟩
      rw [lists, get?_append appended, Option.map_map]
      congr 1
      funext old
      by_cases here : e.1 = k
      · simp [group, here]
      · have elsewhere : ¬ k = e.1 := fun same => here same.symm
        simp [group, here, elsewhere]

end Lists

/-! ## Eviction -/

section Eviction

variable [LinearOrder ν]

/-- `for key in oldest_first[: len(d) - keep]: del d[key]` -/
def evictOldest (d : Dict κ ν) (keep : Nat) : Dict κ ν :=
  d.delAll ((d.oldestFirst.take (d.size - keep)).map Prod.fst)

variable {d : Dict κ ν} {keep : Nat}

/-- What an eviction leaves is the tail of the sorted entries, in the order of the dict. -/
theorem entries_evictOldest_perm (d : Dict κ ν) (keep : Nat) :
    (d.evictOldest keep).entries.Perm (d.oldestFirst.drop (d.size - keep)) := by
  have nodup : (d.oldestFirst.map Prod.fst).Nodup :=
    ((oldestFirst_perm d).map Prod.fst).nodup_iff.mpr d.nodup
  rw [evictOldest, delAll]
  generalize d.size - keep = gone
  rw [← List.take_append_drop gone d.oldestFirst, List.map_append] at nodup
  obtain ⟨_, _, apart⟩ := List.nodup_append'.mp nodup
  refine ((oldestFirst_perm d).symm.filter _).trans (List.Perm.of_eq ?_)
  conv_lhs =>
    rw [← List.take_append_drop gone d.oldestFirst, List.filter_append, List.take_append_drop]
  have dropped : (d.oldestFirst.take gone).filter
      (fun e => decide (e.1 ∉ (d.oldestFirst.take gone).map Prod.fst)) = [] := by
    refine List.filter_eq_nil_iff.mpr fun e member kept => ?_
    exact of_decide_eq_true kept (List.mem_map_of_mem member)
  have kept : (d.oldestFirst.drop gone).filter
      (fun e => decide (e.1 ∉ (d.oldestFirst.take gone).map Prod.fst)) =
        d.oldestFirst.drop gone := by
    refine List.filter_eq_self.mpr fun e member => decide_eq_true fun among => ?_
    exact List.disjoint_right.mp apart (List.mem_map_of_mem member) among
  rw [dropped, kept, List.nil_append]

theorem size_evictOldest (enough : keep ≤ d.size) : (d.evictOldest keep).size = keep := by
  rw [size, (entries_evictOldest_perm d keep).length_eq, List.length_drop,
    (oldestFirst_perm d).length_eq]
  exact Nat.sub_sub_self enough

theorem get?_evictOldest {k : κ} {v : ν} (kept : (d.evictOldest keep).get? k = some v) :
    d.get? k = some v := by
  rw [evictOldest, get?_delAll] at kept
  split at kept
  · cases kept
  · exact kept

/-- **An eviction is by age**: what it drops is no newer than what it keeps. -/
theorem evictOldest_le {k k' : κ} {v v' : ν} (held : d.get? k = some v)
    (dropped : (d.evictOldest keep).get? k = none) (kept : (d.evictOldest keep).get? k' = some v') :
    v ≤ v' := by
  have sorted : d.oldestFirst.Pairwise fun e e' => e.2 ≤ e'.2 := sorted_oldestFirst d
  rw [← List.take_append_drop (d.size - keep) d.oldestFirst] at sorted
  obtain ⟨_, _, across⟩ := List.pairwise_append.mp sorted
  have later : (k', v') ∈ d.oldestFirst.drop (d.size - keep) :=
    (entries_evictOldest_perm d keep).mem_iff.mp (get?_eq_some.mp kept)
  have among : (k, v) ∈ d.oldestFirst := (oldestFirst_perm d).mem_iff.mpr (get?_eq_some.mp held)
  rw [← List.take_append_drop (d.size - keep) d.oldestFirst] at among
  rcases List.mem_append.mp among with earlier | survives
  · exact across _ earlier _ later
  · have still := (entries_evictOldest_perm d keep).mem_iff.mpr survives
    exact absurd still (get?_eq_none.mp dropped v)

end Eviction

end Dict

end Empyrean.Theory.PyDict
