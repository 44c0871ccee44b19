/-
# Empyrean.Mqtt.NodeRateLimit — the per-node bound on inbound messages

`_node_rate_limited` (`mqtt/client.py`) remembers when a message of each node was last let
through.  The table is bounded: past 10 000 nodes the ones seen longest ago are forgotten,
down to 9 000.  Times are seconds of the monotonic clock, as exact numbers.

* `nodeRateLimited` — one call; `unbounded` — the same without the bound.
* `Tracks` — what the table forgot, it forgot for 9 000 nodes seen no earlier.
* `answers_eq_unbounded` — under the load the bound was made for, nothing is forgotten that
  a later call would have needed.
-/
import Empyrean.Theory.PyDict
import Mathlib.Algebra.Order.Ring.Rat
import Mathlib.Data.List.Dedup
import Mathlib.Data.Rat.Floor
import Mathlib.Tactic.Linarith
import Mathlib.Tactic.NormNum

namespace Empyrean.Mqtt.NodeRateLimit

set_option autoImplicit false

open Empyrean.Theory.PyDict

/-! ## The function -/

def nodeMsgMinInterval : Rat := 1 / 2

def nodeLastSeenMax : Nat := 10000

def nodeLastSeenPruneTo : Nat := 9000

/-- `last is not None and now - last < _NODE_MSG_MIN_INTERVAL_S` -/
def tooSoon (last : Option Rat) (now : Rat) : Bool :=
  last.any fun last => decide (now - last < nodeMsgMinInterval)

structure Call (Node : Type) where
  nodeId : Node
  now : Rat
  deriving DecidableEq

section Limiter

variable {Node : Type} [DecidableEq Node]

/-- `_node_last_seen[node_id] = now`, and the eviction that may follow. -/
def record (lastSeen : Dict Node Rat) (call : Call Node) : Dict Node Rat :=
  let lastSeen := lastSeen.set call.nodeId call.now
  if lastSeen.size > nodeLastSeenMax then lastSeen.evictOldest nodeLastSeenPruneTo else lastSeen

/-- `_node_rate_limited` -/
def nodeRateLimited (lastSeen : Dict Node Rat) (call : Call Node) : Dict Node Rat × Bool :=
  if tooSoon (lastSeen.get? call.nodeId) call.now then (lastSeen, true)
  else (record lastSeen call, false)

/-- A limiter that forgets no node. -/
def unbounded (lastSeen : Node → Option Rat) (call : Call Node) : (Node → Option Rat) × Bool :=
  if tooSoon (lastSeen call.nodeId) call.now then (lastSeen, true)
  else (Function.update lastSeen call.nodeId (some call.now), false)

end Limiter

/-! ## Sequences of calls -/

section Runs

variable {Node σ : Type} (limiter : σ → Call Node → σ × Bool)

def after (s : σ) (calls : List (Call Node)) : σ := calls.foldl (fun s call => (limiter s call).1) s

def answers (s : σ) : List (Call Node) → List Bool
  | [] => []
  | call :: calls => (limiter s call).2 :: answers (limiter s call).1 calls

/-- The calls that were answered `False`. -/
def admitted (s : σ) : List (Call Node) → List (Call Node)
  | [] => []
  | call :: calls =>
      if (limiter s call).2 then admitted (limiter s call).1 calls
      else call :: admitted (limiter s call).1 calls

theorem after_concat (s : σ) (calls : List (Call Node)) (call : Call Node) :
    after limiter s (calls ++ [call]) = (limiter (after limiter s calls) call).1 :=
  List.foldl_concat _ _ _ _

theorem admitted_append (s : σ) (calls calls' : List (Call Node)) :
    admitted limiter s (calls ++ calls') =
      admitted limiter s calls ++ admitted limiter (after limiter s calls) calls' := by
  induction calls generalizing s with
  | nil => rfl
  | cons call calls ih =>
      simp only [List.cons_append, admitted, after, List.foldl_cons]
      split
      · exact ih _
      · exact congrArg (call :: ·) (ih _)

theorem admitted_subset (s : σ) (calls : List (Call Node)) : admitted limiter s calls ⊆ calls := by
  induction calls generalizing s with
  | nil => exact List.Subset.refl _
  | cons call calls ih =>
      rw [admitted]
      split
      · exact List.subset_cons_of_subset _ (ih _)
      · exact List.cons_subset_cons _ (ih _)

theorem mem_admitted {s : σ} {calls : List (Call Node)} {call : Call Node} :
    call ∈ admitted limiter s calls ↔
      ∃ earlier later, calls = earlier ++ call :: later ∧
        (limiter (after limiter s earlier) call).2 = false := by
  constructor
  · intro member
    induction calls generalizing s with
    | nil => cases member
    | cons first calls ih =>
        have deeper : call ∈ admitted limiter (limiter s first).1 calls →
            ∃ earlier later, first :: calls = earlier ++ call :: later ∧
              (limiter (after limiter s earlier) call).2 = false := by
          intro among
          obtain ⟨earlier, later, rfl, passed⟩ := ih among
          exact ⟨first :: earlier, later, rfl, passed⟩
        rw [admitted] at member
        split at member
        · exact deeper member
        · rename_i passed
          rcases List.mem_cons.mp member with rfl | among
          · exact ⟨[], calls, rfl, Bool.eq_false_iff.mpr passed⟩
          · exact deeper among
  · rintro ⟨earlier, later, rfl, passed⟩
    rw [admitted_append, admitted, passed]
    exact List.mem_append_right _ List.mem_cons_self

/-- What each call keeps, a sequence of calls keeps. -/
theorem after_of_step {p : σ → Prop} (step : ∀ s call, p s → p (limiter s call).1) {s : σ}
    (first : p s) (calls : List (Call Node)) : p (after limiter s calls) := by
  induction calls generalizing s with
  | nil => exact first
  | cons call calls ih => exact ih (step s call first)

end Runs

/-- Time does not run backwards. -/
def Ordered {Node : Type} (calls : List (Call Node)) : Prop :=
  calls.Pairwise fun call call' => call.now ≤ call'.now

section Load

variable {Node : Type} [DecidableEq Node]

/-- The nodes with a call in the half second from `t`. -/
def nodesFrom (t : Rat) (calls : List (Call Node)) : List Node :=
  ((calls.filter fun call => decide (t ≤ call.now ∧ call.now < t + nodeMsgMinInterval)).map Call.nodeId).dedup

/-- At most `_NODE_LAST_SEEN_PRUNE_TO` nodes in any half second. -/
def Load (calls : List (Call Node)) : Prop := ∀ t, (nodesFrom t calls).length ≤ nodeLastSeenPruneTo

theorem mem_nodesFrom {t : Rat} {calls : List (Call Node)} {nodeId : Node} :
    nodeId ∈ nodesFrom t calls ↔
      ∃ call ∈ calls, (t ≤ call.now ∧ call.now < t + nodeMsgMinInterval) ∧
        call.nodeId = nodeId := by
  simp only [nodesFrom, List.mem_dedup, List.mem_map, List.mem_filter, decide_eq_true_eq, and_assoc]

theorem Load.subset {calls calls' : List (Call Node)} (load : Load calls')
    (fewer : calls ⊆ calls') : Load calls := by
  intro t
  refine Nat.le_trans (List.subperm_of_subset (List.nodup_dedup _) fun nodeId member => ?_).length_le (load t)
  obtain ⟨call, among, window⟩ := mem_nodesFrom.mp member
  exact mem_nodesFrom.mpr ⟨call, fewer among, window⟩

theorem load_of_nodes {calls : List (Call Node)} {nodes : List Node}
    (known : ∀ call ∈ calls, call.nodeId ∈ nodes) (few : nodes.length ≤ nodeLastSeenPruneTo) :
    Load calls := by
  intro t
  refine Nat.le_trans (List.subperm_of_subset (List.nodup_dedup _) fun nodeId member => ?_).length_le few
  obtain ⟨call, among, _, rfl⟩ := mem_nodesFrom.mp member
  exact known call among

end Load

/-! ## The bound on the table -/

section Bounded

variable {Node : Type} [DecidableEq Node] {lastSeen : Dict Node Rat} {call : Call Node}

theorem size_record (lastSeen : Dict Node Rat) (call : Call Node) :
    (record lastSeen call).size ≤ nodeLastSeenMax := by
  rw [record]
  split
  · rename_i full
    rw [Dict.size_evictOldest (Nat.le_trans (by decide) (Nat.le_of_lt full))]
    decide
  · rename_i room
    exact Nat.le_of_not_lt room

theorem size_nodeRateLimited (bounded : lastSeen.size ≤ nodeLastSeenMax) :
    (nodeRateLimited lastSeen call).1.size ≤ nodeLastSeenMax := by
  rw [nodeRateLimited]
  split
  · exact bounded
  · exact size_record lastSeen call

/-- A node that the table does not know is let through. -/
theorem nodeRateLimited_of_fresh (fresh : lastSeen.get? call.nodeId = none) :
    nodeRateLimited lastSeen call = (record lastSeen call, false) := by
  rw [nodeRateLimited, fresh]
  rfl

/-- What is in the table was there, or is the call. -/
theorem get?_record {nodeId : Node} {t : Rat} (held : (record lastSeen call).get? nodeId = some t) :
    (lastSeen.set call.nodeId call.now).get? nodeId = some t := by
  rw [record] at held
  split at held
  · exact Dict.get?_evictOldest held
  · exact held

/-- A node that is forgotten is older than the 9 000 that stay. -/
theorem record_forgets {nodeId : Node} {t : Rat}
    (known : (lastSeen.set call.nodeId call.now).get? nodeId = some t)
    (gone : (record lastSeen call).get? nodeId = none) :
    (record lastSeen call).size = nodeLastSeenPruneTo ∧
      ∀ nodeId' t', (record lastSeen call).get? nodeId' = some t' → t ≤ t' := by
  rw [record] at gone ⊢
  split at gone
  · rename_i full
    rw [if_pos full]
    refine ⟨Dict.size_evictOldest (Nat.le_trans (by decide) (Nat.le_of_lt full)),
      fun nodeId' t' kept => ?_⟩
    exact Dict.evictOldest_le known gone kept
  · rw [known] at gone
    cases gone

end Bounded

/-! ## The bounded limiter against the unbounded one -/

section Refinement

variable {Node : Type} [DecidableEq Node]

/-- The table after the calls `passed` were admitted, beside the table that forgets nothing. -/
structure Tracks (lastSeen : Dict Node Rat) (remembered : Node → Option Rat)
    (passed : List (Call Node)) : Prop where
  held : ∀ nodeId t, lastSeen.get? nodeId = some t → remembered nodeId = some t
  among : ∀ nodeId t, remembered nodeId = some t → ⟨nodeId, t⟩ ∈ passed
  newest : ∀ call ∈ passed, ∃ t, remembered call.nodeId = some t ∧ call.now ≤ t
  forgotten : ∀ nodeId t, remembered nodeId = some t → lastSeen.get? nodeId = none →
    ∃ nodes : List Node, nodes.Nodup ∧ nodeLastSeenPruneTo < nodes.length ∧
      ∀ nodeId' ∈ nodes, ∃ call ∈ passed, call.nodeId = nodeId' ∧ t ≤ call.now

theorem tracks_empty : Tracks (Dict.empty : Dict Node Rat) (fun _ => none) [] :=
  ⟨nofun, nofun, nofun, nofun⟩

section Step

variable {lastSeen : Dict Node Rat} {remembered : Node → Option Rat} {passed : List (Call Node)}
    {call : Call Node}

/-- The two limiters answer a call alike. -/
theorem Tracks.tooSoon_eq (tracks : Tracks lastSeen remembered passed) (load : Load passed)
    (before : ∀ call' ∈ passed, call'.now ≤ call.now) :
    tooSoon (lastSeen.get? call.nodeId) call.now = tooSoon (remembered call.nodeId) call.now := by
  cases there : lastSeen.get? call.nodeId with
  | some t => rw [tracks.held _ _ there]
  | none =>
      cases known : remembered call.nodeId with
      | none => rfl
      | some t =>
          -- had it been asked for within half a second, too many nodes were admitted in it
          obtain ⟨nodes, nodup, many, later⟩ := tracks.forgotten _ _ known there
          simp only [tooSoon, Option.any_none, Option.any_some]
          refine (decide_eq_false fun soon => ?_).symm
          have window : nodes ⊆ nodesFrom t passed := by
            intro nodeId member
            obtain ⟨call', among, rfl, after⟩ := later nodeId member
            have earlier := before call' among
            exact mem_nodesFrom.mpr ⟨call', among, ⟨after, by linarith⟩, rfl⟩
          have few := (List.subperm_of_subset nodup window).length_le
          exact absurd (load t) (by omega)

/-- A call comes too soon iff one for its node passed less than half a second before. -/
theorem Tracks.tooSoon_iff (tracks : Tracks lastSeen remembered passed) (load : Load passed)
    (before : ∀ call' ∈ passed, call'.now ≤ call.now) :
    tooSoon (lastSeen.get? call.nodeId) call.now = true ↔
      ∃ call' ∈ passed, call'.nodeId = call.nodeId ∧ call.now - call'.now < nodeMsgMinInterval := by
  rw [tracks.tooSoon_eq load before]
  constructor
  · intro soon
    cases known : remembered call.nodeId with
    | none =>
        rw [known] at soon
        cases soon
    | some t =>
        rw [known] at soon
        exact ⟨⟨call.nodeId, t⟩, tracks.among _ _ known, rfl, of_decide_eq_true soon⟩
  · rintro ⟨call', member, same, soon⟩
    obtain ⟨t, known, later⟩ := tracks.newest call' member
    rw [← same, known]
    exact decide_eq_true (by linarith)

/-- A call that passes is remembered by both. -/
theorem Tracks.recorded (tracks : Tracks lastSeen remembered passed)
    (before : ∀ call' ∈ passed, call'.now ≤ call.now) :
    Tracks (record lastSeen call) (Function.update remembered call.nodeId (some call.now))
      (passed ++ [call]) := by
  have known : ∀ nodeId t, (lastSeen.set call.nodeId call.now).get? nodeId = some t →
      Function.update remembered call.nodeId (some call.now) nodeId = some t := by
    intro nodeId t held
    rw [Dict.get?_set] at held
    rw [Function.update_apply]
    split at held
    · rename_i here
      rw [if_pos here, held]
    · rename_i elsewhere
      rw [if_neg elsewhere]
      exact tracks.held nodeId t held
  have among : ∀ nodeId t, Function.update remembered call.nodeId (some call.now) nodeId = some t →
      ⟨nodeId, t⟩ ∈ passed ++ [call] := by
    intro nodeId t remembers
    rw [Function.update_apply] at remembers
    split at remembers
    · rename_i here
      cases remembers
      exact List.mem_append_right _ (here ▸ List.mem_singleton_self _)
    · exact List.mem_append_left _ (tracks.among nodeId t remembers)
  refine ⟨fun nodeId t held => known nodeId t (get?_record held), among, fun call' member => ?_,
    fun nodeId t remembers gone => ?_⟩
  · rw [Function.update_apply]
    rcases List.mem_append.mp member with earlier | here
    · split
      · exact ⟨call.now, rfl, before call' earlier⟩
      · exact tracks.newest call' earlier
    · obtain rfl := List.mem_singleton.mp here
      exact ⟨call'.now, if_pos rfl, le_refl _⟩
  cases there : (lastSeen.set call.nodeId call.now).get? nodeId with
  | none =>
      -- it was forgotten before
      rw [Dict.get?_set] at there
      split at there
      · cases there
      · rename_i elsewhere
        rw [Function.update_apply, if_neg elsewhere] at remembers
        obtain ⟨nodes, nodup, many, later⟩ := tracks.forgotten nodeId t remembers there
        refine ⟨nodes, nodup, many, fun nodeId' member => ?_⟩
        obtain ⟨call', earlier, same, after⟩ := later nodeId' member
        exact ⟨call', List.mem_append_left _ earlier, same, after⟩
  | some t' =>
      -- this call evicted it: the nodes that stay were all seen later
      obtain rfl : t' = t := Option.some.inj ((known nodeId t' there).symm.trans remembers)
      obtain ⟨size, later⟩ := record_forgets there gone
      refine ⟨nodeId :: (record lastSeen call).keys, ?_, ?_, ?_⟩
      · refine List.nodup_cons.mpr ⟨fun stays => ?_, (record lastSeen call).nodup⟩
        obtain ⟨e, entry, here⟩ := List.mem_map.mp stays
        exact Dict.get?_eq_none.mp gone e.2 (here ▸ entry)
      · rw [List.length_cons, Dict.keys_length, size]
        exact Nat.lt_succ_self _
      · intro nodeId' member
        rcases List.mem_cons.mp member with rfl | stays
        · exact ⟨⟨nodeId', t'⟩, among nodeId' t' remembers, rfl, le_refl _⟩
        · obtain ⟨⟨k, seen⟩, entry, rfl⟩ := List.mem_map.mp stays
          have held : (record lastSeen call).get? k = some seen := Dict.get?_eq_some.mpr entry
          exact ⟨⟨k, seen⟩, among k seen (known k seen (get?_record held)), rfl, later k seen held⟩

end Step

/-- From tables that agree, both limiters answer every later call alike. -/
theorem Tracks.answers_eq {lastSeen : Dict Node Rat} {remembered : Node → Option Rat}
    {passed : List (Call Node)} (tracks : Tracks lastSeen remembered passed)
    {calls : List (Call Node)} (ordered : Ordered (passed ++ calls))
    (load : Load (passed ++ admitted nodeRateLimited lastSeen calls)) :
    answers nodeRateLimited lastSeen calls = answers unbounded remembered calls ∧
      Tracks (after nodeRateLimited lastSeen calls) (after unbounded remembered calls)
        (passed ++ admitted nodeRateLimited lastSeen calls) := by
  induction calls generalizing lastSeen remembered passed with
  | nil => exact ⟨rfl, (List.append_nil passed).symm ▸ tracks⟩
  | cons call calls ih =>
      have before : ∀ call' ∈ passed, call'.now ≤ call.now := fun call' member =>
        (List.pairwise_append.mp ordered).2.2 call' member call List.mem_cons_self
      have same := tracks.tooSoon_eq (load.subset (List.subset_append_left _ _)) before
      simp only [answers, admitted, after, List.foldl_cons] at load ⊢
      by_cases soon : tooSoon (lastSeen.get? call.nodeId) call.now = true
      · have limited : nodeRateLimited lastSeen call = (lastSeen, true) := if_pos soon
        have limited' : unbounded remembered call = (remembered, true) := if_pos (same ▸ soon)
        rw [limited, if_pos rfl] at load
        rw [limited, limited', if_pos rfl]
        have fewer : Ordered (passed ++ calls) :=
          ordered.sublist ((List.sublist_cons_self _ _).append_left _)
        obtain ⟨equal, later⟩ := ih tracks fewer load
        exact ⟨congrArg (true :: ·) equal, later⟩
      · have passes : nodeRateLimited lastSeen call = (record lastSeen call, false) := if_neg soon
        have passes' : unbounded remembered call =
            (Function.update remembered call.nodeId (some call.now), false) := if_neg (same ▸ soon)
        rw [passes, if_neg Bool.false_ne_true] at load
        rw [passes, passes', if_neg Bool.false_ne_true]
        rw [List.append_cons] at load ordered ⊢
        obtain ⟨equal, later⟩ := ih (tracks.recorded before) ordered load
        exact ⟨congrArg (false :: ·) equal, later⟩

/-- **The bounded limiter is the unbounded one**, as long as no half second admits more nodes
than an eviction leaves; and whatever the load, the table stays under its cap. -/
theorem answers_eq_unbounded (calls : List (Call Node)) (ordered : Ordered calls)
    (load : Load (admitted nodeRateLimited Dict.empty calls)) :
    answers nodeRateLimited Dict.empty calls = answers unbounded (fun _ => none) calls ∧
      ∀ earlier, earlier <+: calls →
        (after nodeRateLimited Dict.empty earlier).size ≤ nodeLastSeenMax := by
  refine ⟨(tracks_empty.answers_eq ordered load).1, fun earlier _ => ?_⟩
  exact after_of_step nodeRateLimited (p := fun lastSeen => lastSeen.size ≤ nodeLastSeenMax)
    (fun _ _ => size_nodeRateLimited) (Nat.zero_le _) earlier

/-- Node 0 twice in a quarter of a second, with node 1 between, and once more later. -/
example :
    answers nodeRateLimited (Dict.empty : Dict Nat Rat)
      [⟨0, 0⟩, ⟨1, 1 / 8⟩, ⟨0, 1 / 4⟩, ⟨0, 3 / 4⟩] =
      [false, false, true, false] := by
  decide +kernel

end Refinement

/-! ## One node too many -/

/-- One of 10 001 nodes in each second, all of them in turn. -/
def rota (second : Int) : Nat := second.toNat % 10001

def rounds (seconds : Nat) : List (Call Nat) :=
  (List.range seconds).map fun second : Nat => ⟨rota second, second⟩

theorem rounds_succ (seconds : Nat) :
    rounds (seconds + 1) = rounds seconds ++ [⟨rota seconds, seconds⟩] := by
  rw [rounds, List.range_succ, List.map_append]
  rfl

theorem ordered_rounds (seconds : Nat) : Ordered (rounds seconds) :=
  List.pairwise_map.mpr (List.pairwise_lt_range.imp fun earlier => Nat.cast_le.mpr earlier.le)

theorem rota_of_mem_rounds {seconds : Nat} {call : Call Nat} (member : call ∈ rounds seconds) :
    call.nodeId = rota ⌊call.now⌋ ∧ call.now < seconds := by
  obtain ⟨second, below, rfl⟩ := List.mem_map.mp member
  refine ⟨?_, Nat.cast_lt.mpr (List.mem_range.mp below)⟩
  rw [Int.floor_natCast]

/-- Half a second touches two seconds at most. -/
theorem load_of_rota {calls : List (Call Nat)}
    (known : ∀ call ∈ calls, call.nodeId = rota ⌊call.now⌋) : Load calls := by
  intro t
  suffices two : nodesFrom t calls ⊆ [rota ⌊t⌋, rota (⌊t⌋ + 1)] by
    exact (List.subperm_of_subset (List.nodup_dedup _) two).length_le.trans
      (Nat.le_of_ble_eq_true rfl)
  intro nodeId member
  obtain ⟨call, among, ⟨start, stop⟩, rfl⟩ := mem_nodesFrom.mp member
  rw [known call among]
  have low : ⌊t⌋ ≤ ⌊call.now⌋ := Int.floor_le_floor start
  have high : ⌊call.now⌋ < ⌊t⌋ + 2 := by
    rw [Int.floor_lt]
    have next := Int.lt_floor_add_one t
    have half : nodeMsgMinInterval = 1 / 2 := rfl
    push_cast
    linarith
  rcases (show ⌊call.now⌋ = ⌊t⌋ ∨ ⌊call.now⌋ = ⌊t⌋ + 1 by omega) with here | next
  · rw [here]
    exact List.mem_cons_self
  · rw [next]
    exact List.mem_cons_of_mem _ List.mem_cons_self

/-- The first round fills the table, node by node. -/
theorem table_rounds {seconds : Nat} (room : seconds ≤ nodeLastSeenMax) :
    (after nodeRateLimited Dict.empty (rounds seconds)).size = seconds ∧
      ∀ nodeId, seconds ≤ nodeId →
        (after nodeRateLimited Dict.empty (rounds seconds)).get? nodeId = none := by
  induction seconds with
  | zero => exact ⟨rfl, fun _ _ => rfl⟩
  | succ seconds ih =>
      obtain ⟨size, absent⟩ := ih (Nat.le_of_succ_le room)
      have turn : rota seconds = seconds := Nat.mod_eq_of_lt (Nat.lt_succ_of_lt room)
      have grown : after nodeRateLimited Dict.empty (rounds (seconds + 1)) =
          (after nodeRateLimited Dict.empty (rounds seconds)).set seconds seconds := by
        rw [rounds_succ, after_concat, nodeRateLimited_of_fresh (absent _ turn.ge), turn,
          record, if_neg]
        rw [Dict.size_set_of_fresh (absent _ le_rfl), size]
        exact not_lt.mpr room
      rw [grown, Dict.size_set_of_fresh (absent _ le_rfl), size]
      refine ⟨rfl, fun nodeId later => ?_⟩
      rw [Dict.get?_set, if_neg (Nat.ne_of_gt later)]
      exact absent nodeId (Nat.le_of_succ_le later)

/-- The last node of the first round is one too many. -/
theorem evicted_rounds :
    (after nodeRateLimited Dict.empty (rounds 10001)).size = nodeLastSeenPruneTo := by
  obtain ⟨size, absent⟩ := table_rounds (le_refl nodeLastSeenMax)
  have turn : rota nodeLastSeenMax = nodeLastSeenMax := Nat.mod_eq_of_lt (Nat.lt_succ_self _)
  have fresh := absent (rota nodeLastSeenMax) turn.ge
  have grown (now : Rat) : ((after nodeRateLimited Dict.empty (rounds nodeLastSeenMax)).set
      (rota nodeLastSeenMax) now).size = nodeLastSeenMax + 1 := by
        rw [Dict.size_set_of_fresh fresh, size]
  rw [show rounds 10001 = rounds (nodeLastSeenMax + 1) from rfl, rounds_succ, after_concat,
    nodeRateLimited_of_fresh (absent _ turn.ge), record,
      if_pos ((grown _).symm ▸ Nat.lt_succ_self nodeLastSeenMax)]
  refine Dict.size_evictOldest ?_
  rw [grown]
  decide

/-- 10 001 nodes twice, a second apart, so that the second round asks for the nodes that the
first one evicted; and a call that comes too soon. -/
theorem answers_eq_unbounded_rounds :
    let calls := rounds 20002 ++ [⟨rota 20001, 20001 + 1 / 4⟩]
    (after nodeRateLimited Dict.empty (rounds 10001)).size = nodeLastSeenPruneTo ∧
      answers nodeRateLimited Dict.empty calls = answers unbounded (fun _ => none) calls := by
  intro calls
  have last : ⌊(20001 + 1 / 4 : Rat)⌋ = 20001 := by norm_num [Int.floor_eq_iff]
  have known : ∀ call ∈ calls, call.nodeId = rota ⌊call.now⌋ := by
    intro call member
    rcases List.mem_append.mp member with turn | extra
    · exact (rota_of_mem_rounds turn).1
    · obtain rfl := List.mem_singleton.mp extra
      rw [last]
  have ordered : Ordered calls := by
    refine List.pairwise_append.mpr
      ⟨ordered_rounds _, List.pairwise_singleton _ _, fun call turn call' extra => ?_⟩
    obtain rfl := List.mem_singleton.mp extra
    obtain ⟨second, below, rfl⟩ := List.mem_map.mp turn
    have below := List.mem_range.mp below
    have whole : (second : Rat) ≤ 20001 := by exact_mod_cast (show second ≤ 20001 by omega)
    linarith
  have load : Load (admitted nodeRateLimited Dict.empty calls) :=
    load_of_rota fun call member => known call (admitted_subset _ _ _ member)
  exact ⟨evicted_rounds, (answers_eq_unbounded calls ordered load).1⟩

end Empyrean.Mqtt.NodeRateLimit
