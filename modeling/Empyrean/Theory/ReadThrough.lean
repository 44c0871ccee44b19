/-
# Empyrean.Theory.ReadThrough — how old an answer from a read-through cache can be

Readers answer from a cache, or query the store, put what they found into the cache for a
fixed time, and answer with it.  Writers change the store, and delete keys when they like; a
deletion may be lost, come late, or not be made at all, and the cache may fail on any call.
So nothing depends on the writers: only the time to live bounds the age of an answer, with
the time a reader takes between its query and its write to the cache.

* `step` — one statement of a reader, a commit, a deleted or evicted key, the clock.
* `Recent w t s` — version `s` of the store was still current at the instant `t`.
* `Prompt hold` — no reader writes to the cache later than `hold` after its query.
* `answer_recent` — every answer is the query of a version that was still current `ttl + hold`
  before it, whatever the writers and the cache do.
-/
import Empyrean.Theory.CacheAside
import Empyrean.Theory.Expiry
import Empyrean.Theory.Runs
import Mathlib.Data.Int.Order.Basic

namespace Empyrean.Theory.ReadThrough

set_option autoImplicit false
set_option linter.unusedSectionVars false

open Empyrean.Theory.CacheAside Empyrean.Theory.Runs
open Empyrean.Theory.Expiry (Expiring get_eq_some_iff)

/-- What readers ask, and for how long they keep it; nothing found is not kept. -/
structure Source (σ κ ν : Type) where
  query : κ → σ → Option ν
  ttl : κ → Int
  ttl_pos : ∀ k, 0 < ttl k

inductive Pc (κ ν : Type)
  | idle
  | missed (k : κ)
  | loaded (k : κ) (value : Option ν) (since : Int)

/-- `earlier` holds the versions that were replaced, and when; it is read by the statements
alone. -/
structure World (σ κ ν π : Type) where
  clock : Int
  store : σ
  cache : κ → Option (Expiring Int ν)
  readers : π → Pc κ ν
  earlier : List (Int × σ)

inductive Act (σ κ π : Type)
  | tick (elapsed : Nat)
  | commit (next : σ)
  | drop (k : κ)
  -- `up`: the cache answers this call
  | get (p : π) (k : κ) (up : Bool)
  | load (p : π)
  | set (p : π) (up : Bool)

section System

variable {σ κ ν π : Type} [DecidableEq κ] [DecidableEq π]

namespace World

def hit (w : World σ κ ν π) (k : κ) : Option ν := Expiry.get (w.cache k) w.clock

def moveTo (w : World σ κ ν π) (p : π) (pc : Pc κ ν) : World σ κ ν π :=
  { w with readers := Function.update w.readers p pc }

def put (w : World σ κ ν π) (k : κ) (entry : Option (Expiring Int ν)) : World σ κ ν π :=
  { w with cache := Function.update w.cache k entry }

/-- The store, or a version that was replaced at `t` or later. -/
def Recent (w : World σ κ ν π) (t : Int) (s : σ) : Prop :=
  s = w.store ∨ ∃ replaced, (replaced, s) ∈ w.earlier ∧ t ≤ replaced

structure Cold (w : World σ κ ν π) : Prop where
  cache : ∀ k, w.cache k = none
  readers : ∀ p, w.readers p = .idle

end World

variable (src : Source σ κ ν)

/-- The entry of a reader that found `value`. -/
def filled (w : World σ κ ν π) (k : κ) (value : Option ν) (up : Bool) : World σ κ ν π :=
  match value with
  | some value => if up then w.put k (some ⟨value, w.clock + src.ttl k⟩) else w
  | none => w

def step (w : World σ κ ν π) : Act σ κ π → Option (World σ κ ν π)
  | .tick elapsed => some { w with clock := w.clock + elapsed }
  | .commit next => some { w with store := next, earlier := (w.clock, w.store) :: w.earlier }
  | .drop k => some (w.put k none)
  | .get p k up =>
      match w.readers p with
      | .idle => if up ∧ (w.hit k).isSome then some w else some (w.moveTo p (.missed k))
      | _ => none
  | .load p =>
      match w.readers p with
      | .missed k => some (w.moveTo p (.loaded k (src.query k w.store) w.clock))
      | _ => none
  | .set p up =>
      match w.readers p with
      | .loaded k value _ => some ((filled src w k value up).moveTo p .idle)
      | _ => none

/-- What a step answers. -/
def answer (w : World σ κ ν π) : Act σ κ π → Option (κ × Option ν)
  | .get p k true =>
      match w.readers p, w.hit k with
      | .idle, some value => some (k, some value)
      | _, _ => none
  | .set p _ =>
      match w.readers p with
      | .loaded k value _ => some (k, value)
      | _ => none
  | _ => none

/-- A reader writes to the cache soon after its query. -/
def Prompt (hold : Int) (w : World σ κ ν π) : Act σ κ π → Prop
  | .set p _ =>
      match w.readers p with
      | .loaded _ _ since => w.clock ≤ since + hold
      | _ => True
  | _ => True

instance (hold : Int) (w : World σ κ ν π) (a : Act σ κ π) : Decidable (Prompt hold w a) := by
  unfold Prompt
  split
  · split <;> infer_instance
  · infer_instance

/-! ## Recent versions -/

section Recent

variable {w : World σ κ ν π} {s : σ} {t : Int}

theorem World.Recent.weaken {t' : Int} (recent : w.Recent t s) (earlier : t' ≤ t) : w.Recent t' s :=
  recent.imp id fun ⟨replaced, listed, later⟩ => ⟨replaced, listed, by omega⟩

/-- A commit replaces the store now. -/
theorem World.Recent.commit (recent : w.Recent t s) (past : t ≤ w.clock) (next : σ) :
    World.Recent { w with store := next, earlier := (w.clock, w.store) :: w.earlier } t s := by
  rcases recent with rfl | ⟨replaced, listed, later⟩
  · exact Or.inr ⟨w.clock, List.mem_cons_self, past⟩
  · exact Or.inr ⟨replaced, List.mem_cons_of_mem _ listed, later⟩

end Recent

/-! ## The invariant -/

/-- A value that was found at `t`, now past. -/
def Found (w : World σ κ ν π) (t : Int) (k : κ) (value : Option ν) : Prop :=
  t ≤ w.clock ∧ ∃ s, w.Recent t s ∧ src.query k s = value

/-- What is cached, and what readers hold, was found in a version current since. -/
structure Inv (hold : Int) (w : World σ κ ν π) : Prop where
  cached :
    Meets (fun k entry => Found src w (entry.expiresAt - src.ttl k - hold) k (some entry.value)) w.cache
  loaded : ∀ p k value since, w.readers p = .loaded k value since → Found src w since k value

variable {src} {hold : Int} {w w' : World σ κ ν π}

theorem inv_cold (cold : w.Cold) : Inv src hold w where
  cached := fun k entry present => by simp [cold.cache k] at present
  loaded := fun p k value since holds => by simp [cold.readers p] at holds

/-- Whatever keeps what was found keeps the invariant. -/
theorem Inv.frame (inv : Inv src hold w) (cache : w'.cache = w.cache)
    (readers : w'.readers = w.readers)
    (keeps : ∀ t k value, Found src w t k value → Found src w' t k value) : Inv src hold w' where
  cached := fun k entry present => keeps _ _ _ (inv.cached k entry (cache ▸ present))
  loaded := fun p k value since holds => keeps _ _ _ (inv.loaded p k value since (readers ▸ holds))

theorem Inv.moveTo (inv : Inv src hold w) (p : π) (pc : Pc κ ν)
    (found : ∀ k value since, pc = .loaded k value since → Found src w since k value) :
    Inv src hold (w.moveTo p pc) where
  cached := inv.cached
  loaded := by
    refine (Function.forall_update_iff w.readers
      fun _ reader => ∀ k value since, reader = .loaded k value since →
        Found src w since k value).mpr ⟨found, ?_⟩
    exact fun p' _ => inv.loaded p'

theorem Inv.put (inv : Inv src hold w) (k : κ) (entry : Option (Expiring Int ν))
    (found : ∀ e, entry = some e → Found src w (e.expiresAt - src.ttl k - hold) k (some e.value)) :
    Inv src hold (w.put k entry) where
  cached := meets_update inv.cached (fun _ _ _ held => held) found
  loaded := inv.loaded

theorem Inv.fill (inv : Inv src hold w) {p : π} {k : κ} {value : Option ν} {since : Int}
    (holds : w.readers p = .loaded k value since) (prompt : w.clock ≤ since + hold) (up : Bool) :
    Inv src hold (filled src w k value up) := by
  unfold filled
  split
  · rename_i value
    split
    · refine inv.put k _ fun e same => ?_
      obtain rfl := Option.some.inj same
      obtain ⟨past, s, recent, queried⟩ := inv.loaded p k _ since holds
      -- The entry expires a time to live from now, and now is not long after the query.
      exact ⟨by dsimp only; omega, s, recent.weaken (by dsimp only; omega), queried⟩
    · exact inv
  · exact inv

theorem Inv.step {a : Act σ κ π} (inv : Inv src hold w) (prompt : Prompt hold w a)
    (ran : step src w a = some w') : Inv src hold w' := by
  cases a with
  | tick elapsed =>
      obtain rfl := Option.some.inj ran
      refine inv.frame rfl rfl fun t k value found => ⟨?_, found.2⟩
      have past := found.1
      show t ≤ w.clock + elapsed
      omega
  | commit next =>
      obtain rfl := Option.some.inj ran
      refine inv.frame rfl rfl fun t k value found => ⟨found.1, ?_⟩
      obtain ⟨s, recent, queried⟩ := found.2
      exact ⟨s, recent.commit found.1 next, queried⟩
  | drop k =>
      obtain rfl := Option.some.inj ran
      exact inv.put k none fun e none => by cases none
  | get p k up =>
      simp only [ReadThrough.step] at ran
      split at ran
      · split at ran
        · exact Option.some.inj ran ▸ inv
        · exact Option.some.inj ran ▸ inv.moveTo p _ fun _ _ _ other => by cases other
      · cases ran
  | load p =>
      simp only [ReadThrough.step] at ran
      split at ran
      · rename_i k missed
        refine Option.some.inj ran ▸ inv.moveTo p _ fun k' value since same => ?_
        cases same
        exact ⟨Int.le_refl _, w.store, Or.inl rfl, rfl⟩
      · cases ran
  | set p up =>
      simp only [ReadThrough.step] at ran
      split at ran
      · rename_i k value since holds
        simp only [Prompt, holds] at prompt
        exact Option.some.inj ran ▸
          (inv.fill holds prompt up).moveTo p _ fun _ _ _ other => by cases other
      · cases ran

theorem inv_of_reach (reached : Reach (step src) (Prompt hold) World.Cold w) : Inv src hold w :=
  reached.invariant (fun _ cold => inv_cold cold) fun _ _ _ inv prompt ran => inv.step prompt ran

/-! ## The answers -/

theorem hit_eq_some_iff {k : κ} {value : ν} : w.hit k = some value ↔
    ∃ entry, w.cache k = some entry ∧ w.clock ≤ entry.expiresAt ∧ entry.value = value :=
  get_eq_some_iff

/-- **The age of an answer.** -/
theorem answer_recent (reached : Reach (step src) (Prompt hold) World.Cold w) {a : Act σ κ π}
    (prompt : Prompt hold w a) {k : κ} {value : Option ν}
    (answered : answer w a = some (k, value)) :
    ∃ s, w.Recent (w.clock - (src.ttl k + hold)) s ∧ src.query k s = value := by
  have inv := inv_of_reach reached
  cases a with
  | get p key up =>
      cases up with
      | false => cases answered
      | true =>
          simp only [answer] at answered
          split at answered
          · rename_i held _ here
            cases answered
            obtain ⟨entry, present, alive, rfl⟩ := hit_eq_some_iff.mp here
            obtain ⟨_, s, recent, queried⟩ := inv.cached _ entry present
            exact ⟨s, recent.weaken (by omega), queried⟩
          · cases answered
  | set p up =>
      simp only [answer] at answered
      split at answered
      · rename_i key held since holds
        cases answered
        simp only [Prompt, holds] at prompt
        obtain ⟨_, s, recent, queried⟩ := inv.loaded p _ _ since holds
        have lives := src.ttl_pos k
        exact ⟨s, recent.weaken (by omega), queried⟩
      · cases answered
  | tick elapsed => cases answered
  | commit next => cases answered
  | drop key => cases answered
  | load p => cases answered

end System

end Empyrean.Theory.ReadThrough
