/-
# Empyrean.Mqtt.DrainDeadline — the five-second window of the drain

The drain loop of `stop` compares the clock with its deadline at the end of an iteration,
but an iteration whose handler raises goes back to the queue by `continue`: it passes
neither the comparison nor the count.

* `Watched` — the system beside the number of iterations that were completed after the
  deadline and did not end the loop.
* `overruns_step` — one more for each handler that raises after the deadline, and for
  nothing else.
* `drain_ends_iff` — the window is kept in a whole run iff no handler raises after it.
* `drain_never_ends` — as many late iterations as there are messages that make a handler
  raise.
-/
import Empyrean.Mqtt.Drain

namespace Empyrean.Mqtt.Drain

set_option autoImplicit false

open Empyrean.Theory.Runs
open Empyrean.Theory.PyNumeral (Text)

section Watch

variable {P : Type}

/-- Inside an iteration of the drain loop, past `Queue.get`. -/
def StopPc.iterating : StopPc P → Bool
  | .handling _ _ _ _ | .checking _ _ => true
  | _ => false

/-- The loop goes on. -/
def StopPc.goesOn : StopPc P → Bool
  | .looking _ _ => true
  | _ => false

/-- The clock is past the deadline of the drain. -/
def StopPc.late (now : Int) : StopPc P → Bool
  | .looking _ deadline | .handling _ _ _ deadline | .checking _ deadline => decide (deadline < now)
  | _ => false

/-- The step from `s` to `s'` completes an iteration after the deadline, and the loop goes on. -/
def overruns (s s' : State P) : Act → Bool
  | .stop now _ => s.stop.iterating && s'.stop.goesOn && s.stop.late now
  | _ => false

structure Watched (P : Type) where
  state : State P
  overrun : Nat

/-- Every iteration completed after the deadline has ended the loop. -/
def Watched.InWindow (w : Watched P) : Prop := w.overrun = 0

/-- One step of the system; an action that is not enabled changes nothing. -/
def watch (cfg : Config) (validate : Text → Text → Option P) (w : Watched P) (a : Act) :
    Watched P :=
  match step cfg validate w.state a with
  | none => w
  | some s' => ⟨s', if overruns w.state s' a then w.overrun + 1 else w.overrun⟩

/-- The handler that `stop` is in raises. -/
def StopPc.raises (fails : Bool) : StopPc P → Bool
  | .handling _ (.reading .parse) _ _ => fails
  | .handling _ .other _ _ => fails
  | _ => false

/-- No handler raises at a time after the deadline. -/
def Punctual (w : Watched P) : Act → Prop
  | .stop now fails => w.state.stop.raises fails = true → w.state.stop.late now = false
  | _ => True

variable {cfg : Config} {validate : Text → Text → Option P} {s s' : State P}

/-- Only `_json_loads` and `validate_reading` can raise out of `_handle_reading`. -/
theorem handleReading_raised {item : Item} {call : Call P} {fails : Bool} :
    handleReading validate item fails call = .inr .raised ↔ call = .parse ∧ fails = true := by
  cases call with
  | parse =>
      cases fails with
      | true => simp [handleReading]
      | false =>
          simp only [handleReading, Bool.false_eq_true, if_false, and_false, iff_false]
          split <;> simp
  | attempt payload n =>
      simp only [handleReading, dispatchReading]
      split
      · simp
      · split <;> simp

/-- A handler that does not end with an exception is silent. -/
theorem raises_eq_false {item : Item} {call : Call P} {drained : Nat} {deadline : Int}
    {fails : Bool} (returns : handleReading validate item fails call ≠ .inr .raised) :
    (StopPc.handling item (.reading call) drained deadline).raises fails = false := by
  cases call with
  | parse =>
      cases fails with
      | true => exact absurd (handleReading_raised.mpr ⟨rfl, rfl⟩) returns
      | false => rfl
  | attempt payload n => rfl

/-- **A step overruns** iff a handler raises in it after the deadline. -/
theorem overruns_step {now : Int} {fails : Bool} (stops : Stops cfg validate s now fails s') :
    overruns s s' (.stop now fails) = (s.stop.raises fails && s.stop.late now) := by
  cases stops with
  | sets called => rw [overruns, called]; rfl
  | empties drained deadline looking under empty => rw [overruns, looking]; rfl
  | takes item rest drained deadline looking under queue reading => rw [overruns, looking]; rfl
  | passes item rest drained deadline looking under queue alert => rw [overruns, looking]; rfl
  | skips item rest drained deadline looking under queue status => rw [overruns, looking]; rfl
  | caps drained deadline looking capped => rw [overruns, looking]; rfl
  | goes item call call' drained deadline handling running =>
      have silent : s.stop.raises fails = false := by
        rw [handling]
        exact raises_eq_false (running.trans_ne (by simp))
      rw [overruns, silent, Bool.false_and]
      simp only [StopPc.goesOn, Bool.and_false, Bool.false_and]
  | raises item call drained deadline handling ended =>
      obtain ⟨rfl, rfl⟩ := handleReading_raised.mp ended
      rw [overruns, handling]
      rfl
  | finishes item call ending drained deadline handling ended returns =>
      have silent : s.stop.raises fails = false := by
        rw [handling]
        exact raises_eq_false (ended.trans_ne (by simpa using returns))
      rw [overruns, silent, Bool.false_and]
      simp only [StopPc.goesOn, Bool.and_false, Bool.false_and]
  | handles item drained deadline handling =>
      rw [overruns, handling]
      cases fails <;> simp [StopPc.iterating, StopPc.goesOn, StopPc.raises]
  | expires drained deadline checking late =>
      rw [overruns, checking]
      simp [StopPc.goesOn, StopPc.raises]
  | loops drained deadline checking inTime =>
      rw [overruns, checking]
      simp [StopPc.iterating, StopPc.goesOn, StopPc.raises, StopPc.late, inTime]
  | disconnects disconnecting => rw [overruns, disconnecting]; rfl
  | joins stopping waiting => rw [overruns, stopping]; rfl

/-- A handler only raises where `stop` can take a step. -/
theorem stopStep_of_raises {fails : Bool} (raises : s.stop.raises fails = true) (now : Int) :
    ∃ s', stopStep cfg validate s now fails = some s' := by
  cases here : s.stop with
  | handling item work drained deadline =>
      cases work with
      | reading call =>
          simp only [stopStep, here]
          split <;> exact ⟨_, rfl⟩
      | other =>
          simp only [stopStep, here]
          exact ⟨_, rfl⟩
  | _ =>
      rw [here] at raises
      cases raises

/-- A step keeps the window iff no handler raises in it after the deadline. -/
theorem watch_inWindow_iff {w : Watched P} (kept : w.InWindow) (a : Act) :
    (watch cfg validate w a).InWindow ↔ Punctual w a := by
  cases ran : step cfg validate w.state a with
  | none =>
      have same : watch cfg validate w a = w := by rw [watch, ran]
      rw [same]
      refine iff_of_true kept ?_
      cases a with
      | stop now fails =>
          intro raises
          obtain ⟨s', stepped⟩ : ∃ s', stopStep cfg validate w.state now fails = some s' :=
            stopStep_of_raises raises now
          rw [step, stepped] at ran
          cases ran
      | _ => trivial
  | some s' =>
      have next : (watch cfg validate w a).overrun =
          if overruns w.state s' a then w.overrun + 1 else w.overrun := by
        rw [watch, ran]
      rw [Watched.InWindow, next, show w.overrun = 0 from kept]
      cases taken_of_step ran with
      | stops now fails stops =>
          rw [overruns_step stops]
          simp only [Punctual]
          cases w.state.stop.raises fails <;> cases w.state.stop.late now <;> simp
      | _ => exact iff_of_true rfl trivial

/-- **The window is kept**: in a run, whatever arrives, every iteration completed after the
deadline ends the loop, iff no handler raises after the deadline. -/
theorem drain_ends_iff (cfg : Config) (validate : Text → Text → Option P) (s : State P)
    (actions : List Act) :
    (∀ taken, taken <+: actions → (taken.foldl (watch cfg validate) ⟨s, 0⟩).InWindow) ↔
      ∀ taken a, taken ++ [a] <+: actions →
        Punctual (taken.foldl (watch cfg validate) ⟨s, 0⟩) a := by
  have starts : (⟨s, 0⟩ : Watched P).InWindow := rfl
  refine all_good_iff (I := fun _ => True) (fun _ _ _ => trivial)
    (fun w a _ kept => ?_) actions _ trivial starts
  exact watch_inWindow_iff kept a

end Watch

/-! ## A drain that does not end -/

/-- A message that comes in, and its iteration at a time six seconds after `stop` was called. -/
def raisingIteration : List Act := readingPut ++ [.stop 6000 false, .stop 6000 true]

/-- The system with `stop` at the head of its loop, and nothing queued. -/
structure AtHead (w : Watched Text) : Prop where
  stop : w.state.stop = .looking 0 5000
  paho : w.state.paho = .waiting
  queue : w.state.queue = []

theorem raisingIteration_overruns {w : Watched Text} (head : AtHead w) :
    AtHead (raisingIteration.foldl (watch oneThousand rawPayload) w) ∧
      (raisingIteration.foldl (watch oneThousand rawPayload) w).overrun = w.overrun + 1 := by
  obtain ⟨⟨queue, stopEvent, worker, paho, stop, dropped, overflow, arrived, put, overflowed, handed, finished⟩, n⟩ := w
  obtain ⟨rfl, rfl, rfl⟩ := head
  exact ⟨⟨rfl, rfl, rfl⟩, rfl⟩

/-- **The drain need not end**: for every number there is a run from the start of the client
in which that many iterations are completed after the deadline, and the loop goes on. -/
theorem drain_never_ends (n : Nat) :
    ∃ actions : List Act, AtHead (actions.foldl (watch oneThousand rawPayload) ⟨started, 0⟩) ∧
      (actions.foldl (watch oneThousand rawPayload) ⟨started, 0⟩).overrun = n := by
  induction n with
  | zero => exact ⟨[.stop 0 false], ⟨rfl, rfl, rfl⟩, rfl⟩
  | succ n ih =>
      obtain ⟨actions, head, count⟩ := ih
      obtain ⟨head', count'⟩ := raisingIteration_overruns head
      refine ⟨actions ++ raisingIteration, ?_, ?_⟩
      · rwa [List.foldl_append]
      · rw [List.foldl_append, count', count]

/-- Two readings whose handler raises: two iterations are completed a second after the
deadline, and the loop is at its head again. -/
theorem drain_overruns_twice :
    let final := ([Act.stop 0 false] ++ raisingIteration ++ raisingIteration).foldl
      (watch oneThousand rawPayload) ⟨started, 0⟩
    final.overrun = 2 ∧ final.state.stop = .looking 0 5000 := by
  decide +kernel

end Empyrean.Mqtt.Drain
