/-
# Empyrean.Api.Broadcast — the connection manager between two threads

An alert from the broker reaches the browsers through `ConnectionManager`: the MQTT worker
calls `broadcast`, which takes a snapshot of the sockets and of the captured event loop under
the lock, and schedules `_send_all` on that loop outside of it.  Sockets come and go on the
loop's own thread, loops stop and are closed, and a broadcast that finds its loop closed
clears the captured one, if it is still the same.

* `step` — the loop's life, `connect`, `disconnect`, and one statement of a broadcast or of
  a scheduled `_send_all`, in any order.
* `sent_once` — a broadcast reaches the sockets of its snapshot, each at most once, and once
  where its sweep is over; one that answered `False` reaches nobody.
* `not_dropped` — once a client has connected on the running loop no broadcast is dropped,
  whatever older broadcasts clear, until that loop is closed.
* `receives` — a client that does not leave, and that every send reaches, is sent every broadcast.

One loop runs at a time.  `set` enumerates the sockets in the order they came.
-/
import Empyrean.Theory.Runs
import Mathlib.Data.List.Nodup
import Mathlib.Logic.Function.Basic

namespace Empyrean.Api.Broadcast

set_option autoImplicit false

open Empyrean.Theory.Runs

/-! ## The manager and its callers -/

/-- A call of `broadcast`. -/
inductive Call (M : Type)
  | idle
  /-- The lock is released; what it has seen. -/
  | snapshot (message : M) (connections : List Nat) (loop : Nat)
  /-- In the `except RuntimeError`. -/
  | raised (connections : List Nat) (loop : Nat)
  | returned (success : Bool) (count : Nat)
  deriving DecidableEq

/-- A scheduled `_send_all`. -/
structure SendAll (P : Type) where
  loop : Nat
  payload : P
  connections : List Nat
  /-- The sends of the `gather` that are not over. -/
  sending : List Nat
  dead : List Nat
  swept : Bool

/-- A `ws.send` that is over. -/
structure Sent (P : Type) where
  call : Nat
  sock : Nat
  payload : P
  ok : Bool
  deriving DecidableEq

structure State (M P : Type) where
  /-- The loop that runs. -/
  running : Option Nat
  closed : Nat → Bool
  -- `_connections`, `_loop`
  connections : List Nat
  loop : Option Nat
  calls : Nat → Call M
  tasks : Nat → Option (SendAll P)
  /-- The message and the sockets of each call. -/
  asked : Nat → Option (M × List Nat)
  sent : List (Sent P)
  /-- A client has connected since the loop started to run. -/
  captured : Bool

inductive Act (M : Type)
  | startLoop (loop : Nat)
  | stopLoop
  | closeLoop (loop : Nat)
  | connect (sock : Nat)
  | disconnect (sock : Nat)
  | broadcast (call : Nat) (message : M)
  | advance (call : Nat)
  /-- One send of a `gather` ends, with or without an exception. -/
  | finish (call sock : Nat) (ok : Bool)
  | sweep (call : Nat)
  deriving DecidableEq

section Manager

variable {M P : Type}

/-- `connect`, on the loop that runs. -/
def State.connect (s : State M P) (running sock : Nat) : State M P :=
  { s with
    loop := if s.loop.any fun loop => decide (s.running = some loop) then s.loop else some running
    connections := if sock ∈ s.connections then s.connections else s.connections ++ [sock]
    captured := true }

/-- `broadcast` until it releases the lock. -/
def State.broadcast (s : State M P) (call : Nat) (message : M) : State M P :=
  { s with
    asked := Function.update s.asked call (some (message, s.connections))
    calls := Function.update s.calls call
      (match s.loop with
        | none => .returned false 0
        | some loop =>
            if s.connections = [] then .returned false 0
            else .snapshot message s.connections loop) }

def State.answer (s : State M P) (call : Nat) (success : Bool) (count : Nat) : State M P :=
  { s with calls := Function.update s.calls call (.returned success count) }

/-- `run_coroutine_threadsafe` on a loop that is not closed. -/
def State.schedule (s : State M P) (call : Nat) (payload : P) (connections : List Nat)
    (loop : Nat) : State M P :=
  { s.answer call true connections.length with
    tasks :=
      Function.update s.tasks call (some ⟨loop, payload, connections, connections, [], false⟩) }

/-- The identity check of the `except`. -/
def State.release (s : State M P) (loop : Nat) : State M P :=
  { s with loop := if s.loop = some loop then none else s.loop }

/-- The rest of `broadcast`, statement by statement. -/
def State.advance (dumps : M → Option P) (s : State M P) (call : Nat) : Option (State M P) :=
  match s.calls call with
  | .snapshot message connections loop =>
      match dumps message with
      | none => some (s.answer call false connections.length)
      | some payload =>
          if s.closed loop then some { s with calls := Function.update s.calls call (.raised connections loop) }
          else some (s.schedule call payload connections loop)
  | .raised connections loop => some ((s.release loop).answer call false connections.length)
  | .idle | .returned _ _ => none

def SendAll.finish (task : SendAll P) (sock : Nat) (ok : Bool) : SendAll P :=
  { task with
    sending := task.sending.erase sock, dead := if ok then task.dead else sock :: task.dead }

def step (dumps : M → Option P) (s : State M P) : Act M → Option (State M P)
  | .startLoop loop =>
      if s.running = none ∧ s.closed loop = false then some { s with running := some loop, captured := false } else none
  | .stopLoop => s.running.map fun _ => { s with running := none, captured := false }
  | .closeLoop loop =>
      if s.running = some loop then none
      else some { s with closed := Function.update s.closed loop true }
  | .connect sock => s.running.map fun running => s.connect running sock
  | .disconnect sock => s.running.map fun _ => { s with connections := s.connections.erase sock }
  | .broadcast call message =>
      match s.calls call with
      | .idle => some (s.broadcast call message)
      | _ => none
  | .advance call => s.advance dumps call
  | .finish call sock ok =>
      match s.tasks call with
      | none => none
      | some task =>
          if s.running = some task.loop ∧ sock ∈ task.sending then
            some { s with
              tasks := Function.update s.tasks call (some (task.finish sock ok))
              sent := s.sent ++ [⟨call, sock, task.payload, ok⟩] }
          else none
  | .sweep call =>
      match s.tasks call with
      | none => none
      | some task =>
          if s.running = some task.loop ∧ task.sending = [] ∧ task.swept = false then
            some { s with
              tasks := Function.update s.tasks call (some { task with swept := true })
              connections := s.connections.filter fun sock => decide (sock ∉ task.dead) }
          else none

/-- Nobody has connected, and nothing was broadcast. -/
structure Start (s : State M P) : Prop where
  running : s.running = none
  connections : s.connections = []
  loop : s.loop = none
  calls : ∀ call, s.calls call = .idle
  tasks : ∀ call, s.tasks call = none
  asked : ∀ call, s.asked call = none
  sent : s.sent = []
  captured : s.captured = false

end Manager

/-! ## What a call has come to -/

section Calls

variable {M P : Type} {dumps : M → Option P}

/-- The sends of one call. -/
def State.sentBy (s : State M P) (call : Nat) : List (Sent P) :=
  s.sent.filter fun e => decide (e.call = call)

/-- A call, its task, what it asked for, and its sends. -/
inductive Told (dumps : M → Option P) :
    Call M → Option (SendAll P) → Option (M × List Nat) → List (Sent P) → Prop
  | idle : Told dumps .idle none none []
  | snapshot (message : M) (connections : List Nat) (loop : Nat) (distinct : connections.Nodup) :
      Told dumps (.snapshot message connections loop) none (some (message, connections)) []
  | raised (message : M) (connections : List Nat) (loop : Nat) :
      Told dumps (.raised connections loop) none (some (message, connections)) []
  | dropped (message : M) (connections : List Nat) (count : Nat) :
      Told dumps (.returned false count) none (some (message, connections)) []
  | scheduled (message : M) (task : SendAll P) (sent : List (Sent P))
  (distinct : task.connections.Nodup)
      (dumped : dumps message = some task.payload)
      (perm : (sent.map (·.sock) ++ task.sending).Perm task.connections)
      (payloads : ∀ e ∈ sent, e.payload = task.payload)
      (dead : ∀ sock ∈ task.dead, ∃ e ∈ sent, e.sock = sock ∧ e.ok = false)
      (ended : task.swept = true → task.sending = []) :
      Told dumps (.returned true task.connections.length) (some task)
        (some (message, task.connections)) sent

section Told

variable {task : Option (SendAll P)} {asked : Option (M × List Nat)} {sent : List (Sent P)}

theorem Told.of_idle (told : Told dumps .idle task asked sent) : task = none ∧ sent = [] := by
  cases told
  exact ⟨rfl, rfl⟩

theorem Told.of_snapshot {message : M} {connections : List Nat} {loop : Nat}
    (told : Told dumps (.snapshot message connections loop) task asked sent) :
    connections.Nodup ∧ task = none ∧ asked = some (message, connections) ∧ sent = [] := by
  cases told with
  | snapshot _ _ _ distinct => exact ⟨distinct, rfl, rfl, rfl⟩

theorem Told.of_raised {connections : List Nat} {loop : Nat}
    (told : Told dumps (.raised connections loop) task asked sent) :
    ∃ message, task = none ∧ asked = some (message, connections) ∧ sent = [] := by
  cases told with
  | raised message => exact ⟨message, rfl, rfl, rfl⟩

/-- What has become of a task. -/
structure Task (dumps : M → Option P) (call : Call M) (task : SendAll P)
    (asked : Option (M × List Nat)) (sent : List (Sent P)) : Prop where
  returned : call = .returned true task.connections.length
  asked : ∃ message, asked = some (message, task.connections) ∧ dumps message = some task.payload
  distinct : task.connections.Nodup
  perm : (sent.map (·.sock) ++ task.sending).Perm task.connections
  payloads : ∀ e ∈ sent, e.payload = task.payload
  dead : ∀ sock ∈ task.dead, ∃ e ∈ sent, e.sock = sock ∧ e.ok = false
  ended : task.swept = true → task.sending = []

theorem Told.of_task {call : Call M} {task : SendAll P}
    (told : Told dumps call (some task) asked sent) : Task dumps call task asked sent := by
  cases told with
  | scheduled message _ _ distinct dumped perm payloads dead ended =>
      exact ⟨rfl, ⟨message, rfl, dumped⟩, distinct, perm, payloads, dead, ended⟩

theorem Task.told {call : Call M} {task : SendAll P} (facts : Task dumps call task asked sent) :
    Told dumps call (some task) asked sent := by
  obtain ⟨rfl, ⟨message, rfl, dumped⟩, distinct, perm, payloads, dead, ended⟩ := facts
  exact .scheduled message task sent distinct dumped perm payloads dead ended

end Told

structure Inv (dumps : M → Option P) (s : State M P) : Prop where
  distinct : s.connections.Nodup
  open_ : ∀ loop, s.running = some loop → s.closed loop = false
  captured : s.captured = true → ∃ loop, s.running = some loop ∧ s.loop = some loop
  raised : ∀ call connections loop, s.calls call = .raised connections loop → s.closed loop = true
  told : ∀ call, Told dumps (s.calls call) (s.tasks call) (s.asked call) (s.sentBy call)

theorem inv_start {s : State M P} (starts : Start s) : Inv dumps s where
  distinct := by simp [starts.connections]
  open_ := by simp [starts.running]
  captured := by simp [starts.captured]
  raised := by simp [starts.calls]
  told := fun call => by
    rw [starts.calls call, starts.tasks call, starts.asked call, State.sentBy, starts.sent]
    exact .idle

/-- A step that moves one call. -/
theorem told_update {s : State M P} (s' : State M P) (call : Nat)
    (told : ∀ call, Told dumps (s.calls call) (s.tasks call) (s.asked call) (s.sentBy call))
    (others : ∀ other, other ≠ call →
      s'.calls other = s.calls other ∧ s'.tasks other = s.tasks other ∧
      s'.asked other = s.asked other ∧ s'.sentBy other = s.sentBy other)
    (here : Told dumps (s'.calls call) (s'.tasks call) (s'.asked call) (s'.sentBy call))
    (call' : Nat) :
    Told dumps (s'.calls call') (s'.tasks call') (s'.asked call') (s'.sentBy call') := by
  by_cases same : call' = call
  · subst same
    exact here
  · obtain ⟨calls, tasks, asked, sent⟩ := others call' same
    rw [calls, tasks, asked, sent]
    exact told call'

theorem Inv.broadcast {s : State M P} (inv : Inv dumps s) {call : Nat} {message : M}
    (here : s.calls call = .idle) : Inv dumps (s.broadcast call message) := by
  have told := inv.told call
  rw [here] at told
  refine ⟨inv.distinct, inv.open_, inv.captured, ?_, told_update _ call inv.told ?_ ?_⟩
  · intro call' connections loop raised
    by_cases same : call' = call
    · subst same
      simp only [State.broadcast, Function.update_self] at raised
      split at raised
      · cases raised
      · split at raised <;> cases raised
    · simp only [State.broadcast, Function.update_of_ne same] at raised
      exact inv.raised call' connections loop raised
  · intro other different
    simp [State.broadcast, State.sentBy, different]
  · obtain ⟨tasks, sent⟩ := told.of_idle
    have sent' : (s.broadcast call message).sentBy call = [] := sent
    have tasks' : (s.broadcast call message).tasks call = none := tasks
    rw [sent', tasks']
    simp only [State.broadcast, Function.update_self]
    split
    · exact .dropped message s.connections 0
    · split
      · exact .dropped message s.connections 0
      · exact .snapshot message s.connections _ inv.distinct

/-- A call that is answered `False`. -/
theorem told_answer {s : State M P} {call : Nat} {message : M} {connections : List Nat}
    (count : Nat)
    (told : ∀ call, Told dumps (s.calls call) (s.tasks call) (s.asked call) (s.sentBy call))
    (asked : s.asked call = some (message, connections)) (tasks : s.tasks call = none)
    (sent : s.sentBy call = []) (call' : Nat) :
    Told dumps ((s.answer call false count).calls call') (s.tasks call') (s.asked call')
      (s.sentBy call') := by
  refine told_update (s.answer call false count) call told ?_ ?_ call'
  · intro other different
    simp [State.answer, State.sentBy, different]
  · have here : (s.answer call false count).calls call = .returned false count :=
      Function.update_self ..
    have same : (s.answer call false count).sentBy call = [] := sent
    rw [here, same]
    show Told dumps _ (s.tasks call) (s.asked call) _
    rw [tasks, asked]
    exact .dropped message connections count

theorem answer_raised {s : State M P} {call : Nat} {success : Bool} {count : Nat}
    (raised : ∀ call connections loop, s.calls call = .raised connections loop →
      s.closed loop = true) (call' : Nat)
    (connections : List Nat) (loop : Nat)
    (after : (s.answer call success count).calls call' = .raised connections loop) :
    s.closed loop = true := by
  by_cases same : call' = call
  · subst same
    simp only [State.answer, Function.update_self] at after
    cases after
  · simp only [State.answer, Function.update_of_ne same] at after
    exact raised call' connections loop after

theorem Inv.advance {s s' : State M P} (inv : Inv dumps s) {call : Nat}
    (ran : s.advance dumps call = some s') : Inv dumps s' := by
  have told := inv.told call
  unfold State.advance at ran
  split at ran
  · rename_i message connections loop here
    rw [here] at told
    obtain ⟨distinct, tasks, asked, sent⟩ := told.of_snapshot
    split at ran
    · cases ran
      exact ⟨inv.distinct, inv.open_, inv.captured, answer_raised inv.raised,
        told_answer _ inv.told asked tasks sent⟩
    · rename_i payload dumped
      split at ran
      · rename_i closed
        cases ran
        refine ⟨inv.distinct, inv.open_, inv.captured, ?_, told_update _ call inv.told ?_ ?_⟩
        · intro call' connections' loop' raised
          by_cases same : call' = call
          · subst same
            simp only [Function.update_self] at raised
            cases raised
            exact closed
          · simp only [Function.update_of_ne same] at raised
            exact inv.raised call' connections' loop' raised
        · intro other different
          simp [State.sentBy, different]
        · show Told dumps (Function.update s.calls call _ call) (s.tasks call) (s.asked call)
              (s.sentBy call)
          rw [Function.update_self, tasks, asked, sent]
          exact .raised message connections loop
      · cases ran
        refine ⟨inv.distinct, inv.open_, inv.captured, answer_raised inv.raised,
          told_update _ call inv.told ?_ ?_⟩
        · intro other different
          simp [State.schedule, State.answer, State.sentBy, different]
        · have none_sent : (s.schedule call payload connections loop).sentBy call = [] := sent
          have same : (s.schedule call payload connections loop).asked call =
              some (message, connections) := asked
          rw [none_sent, same]
          simp only [State.schedule, State.answer, Function.update_self]
          exact .scheduled message ⟨loop, payload, connections, connections, [], false⟩
            [] distinct dumped (.refl _)
            (by simp) (by simp) (by simp)
  · rename_i connections loop here
    rw [here] at told
    obtain ⟨message, tasks, asked, sent⟩ := told.of_raised
    cases ran
    refine ⟨inv.distinct, inv.open_, ?_, answer_raised inv.raised,
      told_answer (s := s.release loop) _ inv.told asked tasks sent⟩
    -- the loop that is cleared is closed, so it is not the one that runs
    intro captured
    obtain ⟨live, running, same⟩ := inv.captured captured
    refine ⟨live, running, ?_⟩
    have closed := inv.raised call connections loop here
    have different : s.loop ≠ some loop := by
      intro captured'
      obtain rfl : live = loop := Option.some.inj (same.symm.trans captured')
      rw [inv.open_ live running] at closed
      cases closed
    show (if s.loop = some loop then none else s.loop) = some live
    rw [if_neg different, same]
  · cases ran
  · cases ran

theorem sentBy_append {s : State M P} {e : Sent P} (call : Nat) :
    (s.sent ++ [e]).filter (fun e => decide (e.call = call)) =
      s.sentBy call ++ if e.call = call then [e] else [] := by
  rw [List.filter_append, State.sentBy, List.filter_cons, List.filter_nil]
  simp

/-- A send of the `gather` ends. -/
theorem Task.finish {call : Call M} {task : SendAll P} {asked : Option (M × List Nat)}
    {sent : List (Sent P)} {c sock : Nat} {ok : Bool} (facts : Task dumps call task asked sent)
    (waits : sock ∈ task.sending) :
    Task dumps call (task.finish sock ok) asked (sent ++ [⟨c, sock, task.payload, ok⟩]) where
  returned := facts.returned
  asked := facts.asked
  distinct := facts.distinct
  perm := by
    rw [List.map_append, List.append_assoc]
    exact (List.Perm.append_left _ (List.perm_cons_erase waits).symm).trans facts.perm
  payloads := by
    intro e member
    rcases List.mem_append.mp member with before | new
    · exact facts.payloads e before
    · cases List.mem_singleton.mp new
      rfl
  dead := by
    intro other member
    have kept : other ∈ task.dead →
        ∃ e ∈ sent ++ [⟨c, sock, task.payload, ok⟩], e.sock = other ∧ e.ok = false := by
      intro among
      obtain ⟨e, before, facts⟩ := facts.dead other among
      exact ⟨e, List.mem_append_left _ before, facts⟩
    cases ok with
    | true => exact kept member
    | false =>
        rcases List.mem_cons.mp member with rfl | among
        · exact ⟨⟨c, other, task.payload, false⟩, by simp, rfl, rfl⟩
        · exact kept among
  ended := by
    intro swept
    have empty := facts.ended swept
    rw [empty] at waits
    cases waits

theorem Inv.step {s s' : State M P} (inv : Inv dumps s) {act : Act M}
    (ran : step dumps s act = some s') : Inv dumps s' := by
  cases act with
  | startLoop loop =>
      simp only [Broadcast.step] at ran
      split at ran
      · rename_i fresh
        cases ran
        refine ⟨inv.distinct, ?_, by simp, inv.raised, inv.told⟩
        rintro _ ⟨⟩
        exact fresh.2
      · cases ran
  | stopLoop =>
      obtain ⟨loop, running, rfl⟩ := Option.map_eq_some_iff.mp ran
      exact ⟨inv.distinct, by simp, by simp, inv.raised, inv.told⟩
  | closeLoop loop =>
      simp only [Broadcast.step] at ran
      split at ran
      · cases ran
      · rename_i other
        cases ran
        refine ⟨inv.distinct, ?_, inv.captured, ?_, inv.told⟩
        · intro loop' running
          have different : loop' ≠ loop := fun same => other (same ▸ running)
          show Function.update s.closed loop true loop' = false
          rw [Function.update_of_ne different]
          exact inv.open_ loop' running
        · intro call connections loop' raised
          show Function.update s.closed loop true loop' = true
          by_cases same : loop' = loop
          · rw [same, Function.update_self]
          · rw [Function.update_of_ne same]
            exact inv.raised call connections loop' raised
  | connect sock =>
      obtain ⟨running, here, rfl⟩ := Option.map_eq_some_iff.mp ran
      refine ⟨?_, inv.open_, fun _ => ⟨running, here, ?_⟩, inv.raised, inv.told⟩
      · show (if sock ∈ s.connections then s.connections else s.connections ++ [sock]).Nodup
        split
        · exact inv.distinct
        · rename_i new
          exact List.nodup_append_comm.mp (List.nodup_cons.mpr ⟨new, inv.distinct⟩)
      · show (if s.loop.any fun loop => decide (s.running = some loop) then s.loop else some running) = some running
        split
        · rename_i live
          obtain ⟨loop, captured, runs⟩ := (Option.any_eq_true ..).mp live
          rw [captured, ← of_decide_eq_true runs, here]
        · rfl
  | disconnect sock =>
      obtain ⟨running, here, rfl⟩ := Option.map_eq_some_iff.mp ran
      exact ⟨inv.distinct.erase sock, inv.open_, inv.captured, inv.raised, inv.told⟩
  | broadcast call message =>
      simp only [Broadcast.step] at ran
      split at ran
      · rename_i here
        cases ran
        exact inv.broadcast here
      · cases ran
  | advance call => exact inv.advance ran
  | finish call sock ok =>
      simp only [Broadcast.step] at ran
      split at ran
      · cases ran
      rename_i task here
      have facts := inv.told call
      rw [here] at facts
      split at ran
      · rename_i waits
        cases ran
        refine ⟨inv.distinct, inv.open_, inv.captured, inv.raised,
          told_update _ call inv.told ?_ ?_⟩
        · intro other different
          refine ⟨rfl, Function.update_of_ne different .., rfl, ?_⟩
          exact (sentBy_append other).trans (by simp [Ne.symm different])
        · have mine : (s.sent ++ [Sent.mk call sock task.payload ok]).filter
              (fun e => decide (e.call = call)) =
              s.sentBy call ++ [Sent.mk call sock task.payload ok] :=
                (sentBy_append call).trans (by simp)
          show Told dumps (s.calls call) (Function.update s.tasks call _ call) (s.asked call)
            ((s.sent ++ [Sent.mk call sock task.payload ok]).filter fun e => decide (e.call = call))
          rw [Function.update_self, mine]
          exact (facts.of_task.finish waits.2).told
      · cases ran
  | sweep call =>
      simp only [Broadcast.step] at ran
      split at ran
      · cases ran
      rename_i task here
      have facts := inv.told call
      rw [here] at facts
      have facts := facts.of_task
      split at ran
      · rename_i ended
        cases ran
        refine ⟨inv.distinct.filter _, inv.open_, inv.captured, inv.raised,
          told_update _ call inv.told ?_ ?_⟩
        · intro other different
          exact ⟨rfl, Function.update_of_ne different .., rfl, rfl⟩
        · show Told dumps (s.calls call) (Function.update s.tasks call _ call) (s.asked call)
              (s.sentBy call)
          rw [Function.update_self]
          exact Task.told { facts with ended := fun _ => ended.2.1 }
      · cases ran

theorem inv_of_reach {s : State M P} (reached : Reach (step dumps) Always Start s) : Inv dumps s :=
  reached.invariant (fun _ => inv_start) fun _ _ _ inv _ ran => inv.step ran

end Calls

/-! ## Runs -/

section Run

variable {M P : Type} {dumps : M → Option P} {s s' : State M P} {act : Act M} {call : Nat}

/-- What no step takes back. -/
structure Later (s s' : State M P) : Prop where
  closed : ∀ loop, s.closed loop = true → s'.closed loop = true
  sent : s.sent <+: s'.sent
  asked : ∀ call, s.calls call ≠ .idle → s'.calls call ≠ .idle ∧ s'.asked call = s.asked call

theorem Later.refl (s : State M P) : Later s s :=
  ⟨fun _ => id, List.prefix_rfl, fun _ busy => ⟨busy, rfl⟩⟩

theorem Later.trans {s₁ s₂ s₃ : State M P} (first : Later s₁ s₂) (second : Later s₂ s₃) :
    Later s₁ s₃ where
  closed := fun loop closed => second.closed loop (first.closed loop closed)
  sent := first.sent.trans second.sent
  asked := fun call busy => by
    obtain ⟨busy', same⟩ := first.asked call busy
    obtain ⟨busy'', same'⟩ := second.asked call busy'
    exact ⟨busy'', same'.trans same⟩

/-- What a step leaves as it is. -/
structure Frame (s s' : State M P) (act : Act M) : Prop extends Later s s' where
  calls : ∀ call, s.calls call ≠ .idle → s'.calls call = s.calls call ∨ act = .advance call
  connections : ∀ sock ∈ s.connections, sock ∈ s'.connections ∨ act = .disconnect sock ∨
    ∃ call task, s.tasks call = some task ∧ sock ∈ task.dead

/-- A step that neither calls nor sends anything. -/
theorem frame_quiet (closed : ∀ loop, s.closed loop = true → s'.closed loop = true)
    (sent : s'.sent = s.sent) (calls : s'.calls = s.calls) (asked : s'.asked = s.asked)
    (connections : ∀ sock ∈ s.connections, sock ∈ s'.connections ∨ act = .disconnect sock ∨
      ∃ call task, s.tasks call = some task ∧ sock ∈ task.dead) : Frame s s' act where
  closed := closed
  sent := sent ▸ List.prefix_rfl
  asked := fun call busy => by
    rw [calls, asked]
    exact ⟨busy, rfl⟩
  calls := fun call _ => Or.inl (congrFun calls call)
  connections := connections

/-- A step that moves one call. -/
theorem frame_call (call : Nat) (after : Call M)
    (moves : act = .advance call ∨ s.calls call = .idle)
    (busy' : after ≠ .idle ∨ s.calls call = .idle) (closed : s'.closed = s.closed)
    (sent : s'.sent = s.sent) (calls : s'.calls = Function.update s.calls call after)
    (asked : ∀ other, other ≠ call ∨ s.calls call ≠ .idle → s'.asked other = s.asked other)
    (connections : s'.connections = s.connections) : Frame s s' act where
  closed := fun loop => by rw [closed]; exact id
  sent := sent ▸ List.prefix_rfl
  asked := fun other busy => by
    by_cases same : other = call
    · subst same
      rw [calls, Function.update_self]
      exact ⟨busy'.resolve_right busy, asked other (Or.inr busy)⟩
    · rw [calls, Function.update_of_ne same]
      exact ⟨busy, asked other (Or.inl same)⟩
  calls := fun other busy => by
    by_cases same : other = call
    · subst same
      exact Or.inr (moves.resolve_right busy)
    · rw [calls, Function.update_of_ne same]
      exact Or.inl rfl
  connections := fun sock member => by
    rw [connections]
    exact Or.inl member

theorem frame_of_advance (ran : s.advance dumps call = some s') : Frame s s' (.advance call) := by
  unfold State.advance at ran
  split at ran
  · split at ran
    · cases ran
      exact frame_call call (.returned _ _) (.inl rfl) (.inl nofun) rfl rfl rfl (fun _ _ => rfl) rfl
    · split at ran
      · cases ran
        exact frame_call call (.raised _ _) (.inl rfl) (.inl nofun) rfl rfl rfl (fun _ _ => rfl) rfl
      · cases ran
        exact frame_call call (.returned _ _) (.inl rfl) (.inl nofun) rfl rfl rfl
          (fun _ _ => rfl) rfl
  · cases ran
    exact frame_call call (.returned _ _) (.inl rfl) (.inl nofun) rfl rfl rfl (fun _ _ => rfl) rfl
  · cases ran
  · cases ran

theorem frame_of_step (ran : step dumps s act = some s') : Frame s s' act := by
  cases act with
  | startLoop loop =>
      simp only [step] at ran
      split at ran
      · cases ran
        exact frame_quiet (fun _ => id) rfl rfl rfl fun _ => .inl
      · cases ran
  | stopLoop =>
      obtain ⟨_, _, rfl⟩ := Option.map_eq_some_iff.mp ran
      exact frame_quiet (fun _ => id) rfl rfl rfl fun _ => .inl
  | closeLoop loop =>
      simp only [step] at ran
      split at ran
      · cases ran
      · cases ran
        refine frame_quiet (fun loop' closed => ?_) rfl rfl rfl fun _ => .inl
        show Function.update s.closed loop true loop' = true
        by_cases same : loop' = loop
        · rw [same, Function.update_self]
        · rwa [Function.update_of_ne same]
  | connect sock =>
      obtain ⟨running, _, rfl⟩ := Option.map_eq_some_iff.mp ran
      refine frame_quiet (fun _ => id) rfl rfl rfl fun sock' member => .inl ?_
      show sock' ∈ if sock ∈ s.connections then s.connections else s.connections ++ [sock]
      split
      · exact member
      · exact List.mem_append_left _ member
  | disconnect sock =>
      obtain ⟨_, _, rfl⟩ := Option.map_eq_some_iff.mp ran
      refine frame_quiet (fun _ => id) rfl rfl rfl fun sock' member => ?_
      by_cases same : sock' = sock
      · exact .inr (.inl (by rw [same]))
      · exact .inl ((List.mem_erase_of_ne same).mpr member)
  | broadcast call message =>
      simp only [step] at ran
      split at ran
      · rename_i here
        cases ran
        refine frame_call call _ (.inr here) (.inr here) rfl rfl rfl (fun other apart => ?_) rfl
        exact Function.update_of_ne (apart.resolve_right (not_not_intro here)) ..
      · cases ran
  | advance call => exact frame_of_advance ran
  | finish call sock ok =>
      simp only [step] at ran
      split at ran
      · cases ran
      split at ran
      · cases ran
        exact ⟨⟨fun _ => id, List.prefix_append _ _, fun _ busy => ⟨busy, rfl⟩⟩,
          fun _ _ => .inl rfl, fun _ => .inl⟩
      · cases ran
  | sweep call =>
      simp only [step] at ran
      split at ran
      · cases ran
      rename_i task here
      split at ran
      · cases ran
        refine frame_quiet (fun _ => id) rfl rfl rfl fun sock member => ?_
        by_cases dead : sock ∈ task.dead
        · exact .inr (.inr ⟨call, task, here, dead⟩)
        · exact .inl (List.mem_filter.mpr ⟨member, decide_eq_true dead⟩)
      · cases ran

theorem later_of_reach {ok : State M P → Act M → Prop}
    (reached : Reach (step dumps) ok (fun x => x = s) s') : Later s s' :=
  reached.invariant (fun _ same => same ▸ Later.refl s) fun _ _ _ before _ ran =>
    before.trans (frame_of_step ran).toLater

/-! ## The broadcasts -/

/-- **A broadcast is sent once.**  What a call has asked for is the message and the sockets that
were registered then.  Each of them is sent that message at most once, and nobody else is; where
the call was answered `False` nobody is, and where its sweep is over everybody was. -/
theorem sent_once (reached : Reach (step dumps) Always Start s) {message : M}
    {connections : List Nat} (asked : s.asked call = some (message, connections)) :
    ((s.sentBy call).map (·.sock)).Nodup ∧
      (∀ e ∈ s.sentBy call, e.sock ∈ connections ∧ dumps message = some e.payload) ∧
      (∀ count, s.calls call = .returned false count → s.sentBy call = []) ∧
      (∀ count, s.calls call = .returned true count → count = connections.length ∧
        ∃ task, s.tasks call = some task ∧
          (task.swept = true → ((s.sentBy call).map (·.sock)).Perm connections)) := by
  have told := (inv_of_reach reached).told call
  rw [asked] at told
  generalize calls : s.calls call = state at told
  generalize tasks : s.tasks call = task at told
  generalize sent : s.sentBy call = mine at told
  cases told with
  | snapshot _ _ loop => exact ⟨by simp, by simp, nofun, nofun⟩
  | raised _ _ loop => exact ⟨by simp, by simp, nofun, nofun⟩
  | dropped _ _ count => exact ⟨by simp, by simp, fun _ _ => rfl, nofun⟩
  | scheduled _ task _ distinct dumped perm payloads dead ended =>
      have once := perm.nodup_iff.mpr distinct
      refine ⟨(List.nodup_append.mp once).1, ?_, nofun, ?_⟩
      · intro e member
        have among := perm.subset (List.mem_append_left _ (List.mem_map_of_mem member))
        exact ⟨among, by rw [payloads e member, dumped]⟩
      · rintro _ ⟨⟩
        refine ⟨rfl, task, rfl, fun swept => ?_⟩
        rwa [ended swept, List.append_nil] at perm

/-- One step of a call that is under way, on a loop that is not closed. -/
theorem under_way_of_step {message : M} {payload : P} {connections : List Nat} {loop : Nat}
    (dumped : dumps message = some payload) (ran : step dumps s act = some s')
    (alive : s.closed loop = false) (before : s.calls call = .snapshot message connections loop ∨
      s.calls call = .returned true connections.length) :
    s'.calls call = .snapshot message connections loop ∨
      s'.calls call = .returned true connections.length := by
  have busy : s.calls call ≠ .idle := by rcases before with here | here <;> rw [here] <;> nofun
  rcases (frame_of_step ran).calls call busy with same | rfl
  · rwa [same]
  · simp only [step, State.advance] at ran
    rcases before with here | here
    · rw [here] at ran
      simp only [dumped, alive, Bool.false_eq_true, if_false] at ran
      cases ran
      exact Or.inr (Function.update_self ..)
    · rw [here] at ran
      cases ran

/-- **No broadcast is dropped while its loop lives.**  Once a client has connected on the running
loop, a message that can be serialized goes to every socket that is registered then, whatever
stops, connects and clears in between, unless that loop is closed first. -/
theorem not_dropped (reached : Reach (step dumps) Always Start s) (captured : s.captured = true)
    (connected : s.connections ≠ []) {message : M} {payload : P}
    (dumped : dumps message = some payload) {s₁ s₂ : State M P}
    (asks : step dumps s (.broadcast call message) = some s₁)
    (later : Reach (step dumps) Always (fun x => x = s₁) s₂)
    (alive : ∀ loop, s.running = some loop → s₂.closed loop = false) :
    (∃ loop, s₂.calls call = .snapshot message s.connections loop) ∨
      s₂.calls call = .returned true s.connections.length := by
  obtain ⟨loop, running, same⟩ := (inv_of_reach reached).captured captured
  have began : s₁.calls call = .snapshot message s.connections loop := by
    simp only [step] at asks
    split at asks
    · cases asks
      show Function.update s.calls call _ call = _
      rw [Function.update_self, same]
      exact if_neg connected
    · cases asks
  have kept := later.invariant (I := fun x => x.closed loop = false →
    x.calls call = .snapshot message s.connections loop ∨
    x.calls call = .returned true s.connections.length) (fun _ here _ => here ▸ Or.inl began) ?_
  · exact (kept (alive loop running)).imp_left fun here => ⟨loop, here⟩
  · intro x a x' before _ ran alive'
    have alive : x.closed loop = false := by
      by_contra closed
      have closed' := (frame_of_step ran).closed loop (by simpa using closed)
      rw [alive'] at closed'
      cases closed'
    exact under_way_of_step dumped ran alive (before alive)

/-- A socket that stays is in no task's list of dead ones. -/
theorem Inv.registered {sock : Nat} (inv : Inv dumps s) (member : sock ∈ s.connections)
    (stays : act ≠ .disconnect sock) (healthy : ∀ e ∈ s'.sent, e.sock = sock → e.ok = true)
    (ran : Broadcast.step dumps s act = some s') : sock ∈ s'.connections := by
  have frame := frame_of_step ran
  rcases frame.connections sock member with still | left | ⟨call, task, here, dead⟩
  · exact still
  · exact absurd left stays
  · have told := inv.told call
    rw [here] at told
    obtain ⟨e, among, same, failed⟩ := told.of_task.dead sock dead
    have ok := healthy e (frame.sent.subset (List.mem_of_mem_filter among)) same
    rw [failed] at ok
    cases ok

theorem filter_eq_singleton {α β : Type} [DecidableEq β] {f : α → β} {a : α} :
    ∀ {l : List α}, (l.map f).Nodup → a ∈ l → l.filter (fun x => decide (f x = f a)) = [a]
  | [], _, member => by cases member
  | x :: rest, distinct, member => by
      obtain ⟨fresh, distinct⟩ := List.nodup_cons.mp distinct
      rcases List.mem_cons.mp member with rfl | among
      · have none_left : rest.filter (fun x => decide (f x = f a)) = [] :=
          List.filter_eq_nil_iff.mpr fun x inside same =>
            fresh (List.mem_map.mpr ⟨x, inside, of_decide_eq_true same⟩)
        rw [List.filter_cons_of_pos (by simp), none_left]
      · have different : f x ≠ f a := fun same => fresh (same ▸ List.mem_map_of_mem among)
        rw [List.filter_cons_of_neg (by simpa using different)]
        exact filter_eq_singleton distinct among

/-- **A client that stays is sent every broadcast.**  From the moment its socket is registered
until a call, it has not disconnected; and no send to it has failed.  When the sweep of the call
is over, the socket has been sent the message, once. -/
theorem receives {sock : Nat} (reached : Reach (step dumps) Always Start s)
    (registered : sock ∈ s.connections) {s₁ s₂ s₃ : State M P}
    (stays : Reach (step dumps) (fun _ a => a ≠ .disconnect sock) (fun x => x = s) s₁) {message : M}
    (asks : step dumps s₁ (.broadcast call message) = some s₂)
    (rest : Reach (step dumps) Always (fun x => x = s₂) s₃) {task : SendAll P}
    (scheduled : s₃.tasks call = some task) (ended : task.swept = true)
    (healthy : ∀ e ∈ s₃.sent, e.sock = sock → e.ok = true) :
    ∃ payload, dumps message = some payload ∧
      s₃.sent.filter (fun e => decide (e.call = call ∧ e.sock = sock)) =
        [⟨call, sock, payload, true⟩] := by
  have inv := inv_of_reach reached
  have later : Later s₁ s₃ := (frame_of_step asks).toLater.trans (later_of_reach rest)
  -- up to the call
  have there : Inv dumps s₁ ∧ (s₁.sent <+: s₃.sent → sock ∈ s₁.connections) :=
    stays.invariant (I := fun x => Inv dumps x ∧ (x.sent <+: s₃.sent → sock ∈ x.connections))
      (by rintro _ rfl; exact ⟨inv, fun _ => registered⟩) fun x a x' before stays ran =>
        ⟨before.1.step ran, fun early =>
          before.1.registered (before.2 ((frame_of_step ran).sent.trans early)) stays
            (fun e among => healthy e (early.subset among)) ran⟩
  have member : sock ∈ s₁.connections := there.2 later.sent
  -- what the call has asked for
  have inv₂ : Inv dumps s₂ := there.1.step asks
  have inv₃ : Inv dumps s₃ :=
    rest.invariant (fun _ same => same ▸ inv₂) fun _ _ _ inv _ ran => inv.step ran
  have began : s₂.calls call ≠ .idle ∧ s₂.asked call = some (message, s₁.connections) := by
    simp only [step] at asks
    split at asks
    · cases asks
      refine ⟨?_, Function.update_self ..⟩
      show Function.update s₁.calls call _ call ≠ _
      rw [Function.update_self]
      split
      · nofun
      · split <;> nofun
    · cases asks
  have asked := ((later_of_reach rest).asked call began.1).2.trans began.2
  have told := inv₃.told call
  rw [scheduled] at told
  have facts := told.of_task
  obtain ⟨message', same, dumped⟩ := facts.asked
  obtain ⟨rfl, snapshot⟩ := Prod.mk.inj (Option.some.inj (asked.symm.trans same))
  refine ⟨task.payload, dumped, ?_⟩
  have perm := facts.perm
  rw [facts.ended ended, List.append_nil, ← snapshot] at perm
  obtain ⟨e, among, rfl⟩ := List.mem_map.mp (perm.mem_iff.mpr member)
  have alone := filter_eq_singleton (perm.nodup_iff.mpr (snapshot ▸ facts.distinct)) among
  have mine : s₃.sent.filter (fun e' => decide (e'.call = call ∧ e'.sock = e.sock)) =
      (s₃.sentBy call).filter fun e' => decide (e'.sock = e.sock) := by
    rw [State.sentBy, List.filter_filter]
    exact List.filter_congr fun e' _ => by rw [Bool.and_comm]; simp
  obtain ⟨inside, called⟩ := List.mem_filter.mp among
  have ok := healthy e inside rfl
  have payload := facts.payloads e among
  rw [mine, alone]
  cases e
  cases of_decide_eq_true called
  cases ok
  cases payload
  rfl

end Run

/-! ## Two loops -/

def fresh : State Nat Nat where
  running := none
  closed := fun _ => false
  connections := []
  loop := none
  calls := fun _ => .idle
  tasks := fun _ => none
  asked := fun _ => none
  sent := []
  captured := false

theorem start_fresh : Start fresh :=
  ⟨rfl, rfl, rfl, fun _ => rfl, fun _ => rfl, fun _ => rfl, rfl, rfl⟩

/-- Two clients connect, and one of them does not take what is sent. -/
def twoClients : List (Act Nat) := [.startLoop 0, .connect 7, .connect 8]

def delivery : List (Act Nat) := [.advance 0, .finish 0 8 false, .finish 0 7 true, .sweep 0]

theorem sent_once_two :
    ∃ s : State Nat Nat, Reach (step some) Always Start s ∧ s.asked 0 = some (5, [7, 8]) ∧
    s.connections = [7] ∧ ((s.sentBy 0).map (·.sock)).Nodup := by
  obtain ⟨s, reached, final⟩ :=
    exists_reach_of_run (step some) Always start_fresh (twoClients ++ [.broadcast 0 5] ++ delivery)
      (fun s => decide (s.asked 0 = some (5, [7, 8]) ∧ s.connections = [7])) (by decide +kernel)
  obtain ⟨asked, left⟩ := of_decide_eq_true final
  exact ⟨s, reached, asked, left, (sent_once reached asked).1⟩

/-- Call 0 has found its loop closed, but has not cleared it yet; the next loop has its first
client. -/
def turnover : List (Act Nat) :=
  [.startLoop 0, .connect 7, .broadcast 0 5, .stopLoop, .closeLoop 0, .advance 0,
    .startLoop 1, .connect 8]

theorem not_dropped_turnover : ∃ s s₁ s₂ : State Nat Nat, Reach (step some) Always Start s ∧
    step some s (.broadcast 1 6) = some s₁ ∧ Reach (step some) Always (fun x => x = s₁) s₂ ∧
    s₂.calls 0 = .returned false 1 ∧
    ((∃ loop, s₂.calls 1 = .snapshot 6 s.connections loop) ∨
      s₂.calls 1 = .returned true s.connections.length) := by
  obtain ⟨s, reached, final⟩ := exists_reach_of_run (step some) Always start_fresh turnover
    (fun s => decide (s.captured = true ∧ s.connections = [7, 8] ∧ s.running = some 1 ∧ s.calls 1 = .idle ∧
      (run (guard (step some) Always) (s.broadcast 1 6) [.advance 0, .advance 1]).map
        (fun x => decide (x.closed 1 = false ∧ x.calls 0 = .returned false 1)) = some true))
          (by decide +kernel)
  obtain ⟨captured, connections, running, idle, ran⟩ := of_decide_eq_true final
  obtain ⟨s₂, ran, open_⟩ := Option.map_eq_some_iff.mp ran
  have later : Reach (step some) Always (fun x => x = s.broadcast 1 6) s₂ :=
    reach_of_run Always [.advance 0, .advance 1] _ s₂ (.init rfl) ran
  obtain ⟨alive, cleared⟩ := of_decide_eq_true open_
  have asks : step some s (.broadcast 1 6) = some (s.broadcast 1 6) := by simp only [step, idle]
  refine ⟨s, s.broadcast 1 6, s₂, reached, asks, later, cleared, ?_⟩
  refine not_dropped reached captured (by simp [connections]) rfl asks later fun loop here => ?_
  cases running.symm.trans here
  exact alive

theorem receives_two : ∃ s s₁ s₃ : State Nat Nat, Reach (step some) Always Start s ∧
    step some s (.broadcast 0 5) = some s₁ ∧ Reach (step some) Always (fun x => x = s₁) s₃ ∧
    ∃ payload, some 5 = some payload ∧
      s₃.sent.filter (fun e => decide (e.call = 0 ∧ e.sock = 7)) = [⟨0, 7, payload, true⟩] := by
  obtain ⟨s, reached, final⟩ := exists_reach_of_run (step some) Always start_fresh twoClients
    (fun s => decide (s.connections = [7, 8] ∧ s.calls 0 = .idle ∧
      (run (guard (step some) Always) (s.broadcast 0 5) delivery).map
        (fun x => decide ((x.tasks 0).any (·.swept) = true ∧
        ∀ e ∈ x.sent, e.sock = 7 → e.ok = true)) = some true)) (by decide +kernel)
  obtain ⟨connections, idle, ran⟩ := of_decide_eq_true final
  obtain ⟨s₃, ran, checked⟩ := Option.map_eq_some_iff.mp ran
  have later : Reach (step some) Always (fun x => x = s.broadcast 0 5) s₃ :=
    reach_of_run Always delivery _ s₃ (.init rfl) ran
  obtain ⟨swept, healthy⟩ := of_decide_eq_true checked
  obtain ⟨task, scheduled, ended⟩ := (Option.any_eq_true ..).mp swept
  have asks : step some s (.broadcast 0 5) = some (s.broadcast 0 5) := by simp only [step, idle]
  refine ⟨s, s.broadcast 0 5, s₃, reached, asks, later, ?_⟩
  exact receives reached (by simp [connections]) (.init rfl) asks later scheduled ended healthy

end Empyrean.Api.Broadcast
