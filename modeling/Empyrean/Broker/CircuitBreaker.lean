/-
# Empyrean.Broker.CircuitBreaker — the failure windows kept in Redis

Each task has one key, a sorted set with one entry per failed attempt, scored by the
clock of the worker that recorded it.  `_record_task_failure` and `_circuit_for_task`
each run one script against it.  A key that still holds the hash of the former
implementation makes a script answer WRONGTYPE; the worker then deletes the key and runs
the script again, as two further commands.

* `zremrangebyscore`, `recordFailureLua`, `checkCircuitLua` — the two scripts.
* `step` — one Redis command of one worker, a reset, a tick of the clock, or the end of
  a key's time to live.
* `Failure`, `Decision` — the history: the failures recorded since the last reset of a
  task, and what each check answered next to the failures there were.

The entries of a sorted set are kept in the order they were added: only removal by score
and the cardinality are ever asked for, and the member names are unique.
-/
import Empyrean.Theory.Runs
import Empyrean.Theory.SlidingWindow
import Mathlib.Logic.Function.Basic
import Mathlib.Data.Int.Order.Basic
import Mathlib.Data.Nat.Basic
import Mathlib.Order.Basic

namespace Empyrean.Broker

set_option autoImplicit false

open Empyrean.Theory.SlidingWindow

/-! ## The keys and the scripts -/

def maxFailedAttempts : Nat := 10

def rollingWindowSize : Int := 300

/-- `ttl_ms` in seconds: the key outlives the window slightly. -/
def ttl : Int := rollingWindowSize + 60

/-- A sorted set of scores with the time it expires at, or a `hash` left by the former
implementation. -/
inductive Key
  | absent
  | zset (scores : List Int) (expireAt : Int)
  | hash
deriving DecidableEq, Repr

/-- `ZREMRANGEBYSCORE key -inf cutoff`: what is left of the set, `none` for WRONGTYPE. -/
def zremrangebyscore (cutoff : Int) : Key → Option (List Int)
  | .absent => some []
  | .zset scores _ => some (prune cutoff scores)
  | .hash => none

/-- `_RECORD_FAILURE_LUA` at the clock `now`, after the pruning: `ZADD`, `PEXPIRE`. -/
def recordFailureLua (now : Int) (kept : List Int) : Key :=
  .zset (kept ++ [now]) (now + ttl)

/-- `_CHECK_CIRCUIT_LUA` after the pruning: an empty set is deleted, a pruned one keeps
the expiry it had. -/
def checkCircuitLua (kept : List Int) : Key → Key
  | .zset _ expireAt => if kept = [] then .absent else .zset kept expireAt
  | key => key

/-! ## Workers and the whole system -/

/-- One call of `_record_task_failure` or `_circuit_for_task`, with the clock it read. -/
inductive Op (Name : Type)
  | record (task : Name) (now : Int)
  | check (task : Name) (now : Int)
deriving DecidableEq, Repr

variable {Name : Type}

def Op.task : Op Name → Name
  | .record task _ => task
  | .check task _ => task

def Op.now : Op Name → Int
  | .record _ now => now
  | .check _ now => now

/-- Where a worker is.  `delete`: its script answered WRONGTYPE and `client.delete` is
the next command; `retry`: the script again.  `resetAll`: between the first `SCAN` and
the last `DELETE` of `reset_circuit_breaker()`, with the serial number the history had
reached when it began and the keys the scan owes. -/
inductive Pc (Name : Type)
  | idle
  | delete (op : Op Name)
  | retry (op : Op Name)
  | resetAll (start : Nat) (owed : List (Name × Nat))
deriving DecidableEq, Repr

/-- A recorded failure; `serial` counts the recordings of the run. -/
structure Failure where
  stamp : Int
  serial : Nat
deriving DecidableEq, Repr

def stamps (failures : List Failure) : List Int := failures.map (·.stamp)

/-- A return of `_circuit_for_task`, with the stamps recorded since the last reset. -/
structure Decision (Name : Type) where
  task : Name
  now : Int
  refused : Bool
  recorded : List Int
deriving DecidableEq, Repr

/-- `gone` counts, for each key, the times it has not existed: `SCAN` returns every key
that exists from its first to its last call, and may miss the others. -/
structure State (Name : Type) where
  clock : Int
  keys : Name → Key
  gone : Name → Nat
  pcs : Nat → Pc Name
  failures : Name → List Failure
  serial : Nat
  decisions : List (Decision Name)

namespace State

variable [DecidableEq Name]

/-- The scripts start with the same pruning, which may leave the key empty. -/
def vacate (s : State Name) (task : Name) (empty : Bool) : Name → Nat :=
  if empty then Function.update s.gone task (s.gone task + 1) else s.gone

/-- `DEL` of one key. -/
def del (s : State Name) (task : Name) : State Name :=
  { s with keys := Function.update s.keys task .absent, gone := s.vacate task true }

/-- `DEL` by a reset: the failures of the task are forgotten. -/
def reset (s : State Name) (task : Name) : State Name :=
  { s.del task with failures := Function.update s.failures task [] }

/-- `_RECORD_FAILURE_LUA` has been run for worker `w`. -/
def recorded (s : State Name) (w : Nat) (task : Name) (now : Int) (kept : List Int) : State Name :=
  { s with
    clock := now
    keys := Function.update s.keys task (recordFailureLua now kept)
    gone := s.vacate task kept.isEmpty
    pcs := Function.update s.pcs w .idle
    failures := Function.update s.failures task (s.failures task ++ [⟨now, s.serial⟩])
    serial := s.serial + 1 }

/-- `_circuit_for_task` returns to worker `w`. -/
def decided (s : State Name) (w : Nat) (task : Name) (now : Int) (refused : Bool) : State Name :=
  { s with
    clock := now
    pcs := Function.update s.pcs w .idle
    decisions := s.decisions ++ [⟨task, now, refused, stamps (s.failures task)⟩] }

/-- `_CHECK_CIRCUIT_LUA` has been run for worker `w`. -/
def checked (s : State Name) (w : Nat) (task : Name) (now : Int) (kept : List Int) : State Name :=
  { s.decided w task now (decide (maxFailedAttempts ≤ kept.length)) with
    keys := Function.update s.keys task (checkCircuitLua kept (s.keys task))
    gone := s.vacate task kept.isEmpty }

/-- One `client.eval` of the script of `op`. -/
def eval (s : State Name) (w : Nat) (op : Op Name) (again : Bool) : State Name :=
  match op, zremrangebyscore (op.now - rollingWindowSize) (s.keys op.task) with
  | .record task now, some kept => s.recorded w task now kept
  | .check task now, some kept => s.checked w task now kept
  | op, none =>
      if again then
        match op with
        -- "Redis error recording task failure (ignored)"
        | .record _ now => { s with clock := now, pcs := Function.update s.pcs w .idle }
        -- "Redis error checking circuit breaker (fail-open)"
        | .check task now => s.decided w task now false
      else { s with clock := op.now, pcs := Function.update s.pcs w (.delete op) }

/-- The failures recorded before serial number `start` are forgotten. -/
def forget (s : State Name) (start : Nat) : Name → List Failure :=
  fun task => (s.failures task).filter fun f => decide (start ≤ f.serial)

end State

/-! ## Steps -/

/-- How far the clock of Redis may be ahead of the clock values of the scripts. -/
def lag : Int := 60

inductive Act (Name : Type)
  | begin (w : Nat) (op : Op Name)
  | advance (w : Nat)
  | reset (task : Name)
  | resetAll (w : Nat)
  | batch (w : Nat) (tasks : List Name)
  | finish (w : Nat)
  | tick (now : Int)
  | expire (task : Name) (server : Int)
deriving DecidableEq, Repr

section Step

variable [DecidableEq Name]

/-- The keys a full `SCAN` has to return if they stay: `names` are the names of all
registered tasks. -/
def owedKeys (names : List Name) (s : State Name) : List (Name × Nat) :=
  (names.filter fun task => decide (s.keys task ≠ .absent)).map fun task => (task, s.gone task)

def step (names : List Name) (s : State Name) : Act Name → Option (State Name)
  | .begin w op =>
      if s.pcs w = .idle ∧ op.task ∈ names ∧ s.clock ≤ op.now then some (s.eval w op false)
      else none
  | .advance w =>
      match s.pcs w with
      | .delete op => some { s.del op.task with pcs := Function.update s.pcs w (.retry op) }
      | .retry op => if s.clock ≤ op.now then some (s.eval w op true) else none
      | _ => none
  | .reset task => some (s.reset task)
  | .resetAll w =>
      if s.pcs w = .idle then
        some { s with pcs := Function.update s.pcs w (.resetAll s.serial (owedKeys names s)) }
      else none
  | .batch w tasks =>
      match s.pcs w with
      | .resetAll _ _ => some (tasks.foldl State.reset s)
      | _ => none
  | .finish w =>
      match s.pcs w with
      | .resetAll start owed =>
          if owed.all fun entry => decide (entry.2 < s.gone entry.1) then
            some { s with failures := s.forget start, pcs := Function.update s.pcs w .idle }
          else none
      | _ => none
  | .tick now => if s.clock ≤ now then some { s with clock := now } else none
  | .expire task server =>
      match s.keys task with
      | .absent => none
      | .zset _ expireAt =>
          if expireAt ≤ server ∧ server ≤ s.clock + lag then some (s.del task) else none
      | .hash => some (s.del task)

end Step

end Empyrean.Broker
