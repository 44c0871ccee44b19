/-
# Empyrean.Mqtt.Drain — the ingestion queue and what `stop` leaves of it

Three actors share the bounded queue: the paho loop puts messages on it, the worker thread
takes them off, and `stop` takes off what is left before it disconnects.  `stop` sets the
stop event, drains until the queue is empty (or a cap or a deadline is reached), and waits
for the paho loop; it never waits for the worker, and the stop event does not stop the paho
loop from putting.

* `step` — one blocking operation of one actor; `taken_of_step` says once what each can do.
* `moves_step` — each of them is one entry in the books of `Empyrean.Theory.Custody`, with
  the calls of `_handle_reading` as the hands.
* `Accounted` — every reading that was put was handed over once, in a call that has
  finished, or is counted.
* `accounted_at_return` — when `stop` returns with every reading accounted for.

`_json_loads` and `validate_reading` are the parameter `validate`.
-/
import Empyrean.Theory.Custody
import Empyrean.Theory.PyNumeral
import Empyrean.Theory.Runs

namespace Empyrean.Mqtt.Drain

set_option autoImplicit false

open Empyrean.Theory.Runs Empyrean.Theory.Custody
open Empyrean.Theory.PyNumeral (Text)

/-! ## The data -/

inductive Kind
  | reading
  | status
  | alert
  deriving DecidableEq

/-- A message for the worker; `ticket` counts the messages that reached `_enqueue`. -/
structure Item where
  ticket : Nat
  nodeId : Text
  kind : Kind
  raw : Text
  deriving DecidableEq

/-- The two settings of the queue; `MQTT_QUEUE_MAX` is validated when the config is loaded. -/
structure Config where
  queueMax : Nat
  enqueueMaxAttempts : Int
  positive : 0 < queueMax

def dispatchMaxAttempts : Nat := 3

/-- The clean-up window of `stop`, in milliseconds. -/
def drainWindow : Int := 5000

section Model

variable {P : Type}

/-- Where a call of `_handle_reading` stands: it has not dispatched yet, or makes its `n`th
attempt. -/
inductive Call (P : Type)
  | parse
  | attempt (payload : P) (n : Nat)
  deriving DecidableEq

/-- How a call of `_handle_reading` ended. -/
inductive Ending (P : Type)
  | rejected
  | sent (payload : P)
  /-- Given up, and counted as dropped. -/
  | dropped
  | raised
  deriving DecidableEq

/-- One attempt of `_dispatch_reading`; `fails` says that `task.delay` raises. -/
def dispatchReading (payload : P) (n : Nat) (fails : Bool) : Call P ⊕ Ending P :=
  if !fails then .inr (.sent payload)
  else if n = dispatchMaxAttempts then .inr .dropped
  else .inl (.attempt payload (n + 1))

/-- `_handle_reading`, up to its next blocking operation. -/
def handleReading (validate : Text → Text → Option P) (item : Item) (fails : Bool) :
    Call P → Call P ⊕ Ending P
  | .parse =>
      if fails then .inr .raised
      else match validate item.nodeId item.raw with
        | none => .inr .rejected
        | some payload => .inl (.attempt payload 1)
  | .attempt payload n => dispatchReading payload n fails

/-- What an actor does with the message it took: `_handle_reading`, or another handler. -/
inductive Work (P : Type)
  | reading (call : Call P)
  | other
  deriving DecidableEq

/-- `_run_worker` -/
inductive WorkerPc (P : Type)
  | checking
  | getting
  | handling (item : Item) (work : Work P)
  | exited

/-- `stop` -/
inductive StopPc (P : Type)
  | notCalled
  | looking (drained : Nat) (deadline : Int)
  | handling (item : Item) (work : Work P) (drained : Nat) (deadline : Int)
  | checking (drained : Nat) (deadline : Int)
  | disconnecting
  | loopStopping
  | returned
  deriving DecidableEq

/-- The paho loop, inside `_enqueue` or outside. -/
inductive PahoPc
  | waiting
  | enqueueing (item : Item) (attempt : Nat)
  | ended

structure State (P : Type) where
  queue : List Item
  stopEvent : Bool
  worker : WorkerPc P
  paho : PahoPc
  stop : StopPc P
  droppedReadings : Nat
  queueOverflow : Nat
  /-- The ledger: what reached `_enqueue`, was put, overflowed, and was handed over. -/
  arrived : Nat
  put : List Item
  overflowed : List Item
  handed : List Item
  finished : List (Item × Ending P)

/-- A call of `_handle_reading` ends. -/
def State.finish (s : State P) (item : Item) (ending : Ending P) : State P :=
  { s with
    finished := (item, ending) :: s.finished
    droppedReadings :=
      match ending with
      | .dropped => s.droppedReadings + 1
      | _ => s.droppedReadings }

inductive Act
  /-- `_on_message` lets a message through. -/
  | message (nodeId : Text) (kind : Kind) (raw : Text)
  /-- One `Queue.put`, which succeeds or times out. -/
  | put
  | work (fails : Bool)
  | stop (now : Int) (fails : Bool)

/-- `_enqueue`, one attempt. -/
def putStep (cfg : Config) (s : State P) : Option (State P) :=
  match s.paho with
  | .enqueueing item attempt =>
      if (attempt : Int) < cfg.enqueueMaxAttempts then
        if s.queue.length < cfg.queueMax then
          some { s with paho := .waiting, queue := s.queue ++ [item], put := item :: s.put }
        else some { s with paho := .enqueueing item (attempt + 1) }
      else some { s with
        paho := .waiting
        queueOverflow := s.queueOverflow + 1
        overflowed := item :: s.overflowed }
  | _ => none

/-- `_run_worker`; an empty queue is waited for and then reported as `queue.Empty`. -/
def workStep (validate : Text → Text → Option P) (s : State P) (fails : Bool) : Option (State P) :=
  match s.worker with
  | .checking => some { s with worker := if s.stopEvent then .exited else .getting }
  | .getting =>
      match s.queue with
      | [] => some { s with worker := .checking }
      | item :: rest =>
          match item.kind with
          | .reading => some { s with
              queue := rest
              worker := .handling item (.reading .parse)
              handed := item :: s.handed }
          | _ => some { s with queue := rest, worker := .handling item .other }
  | .handling item (.reading call) =>
      match handleReading validate item fails call with
      | .inl call => some { s with worker := .handling item (.reading call) }
      | .inr ending => some { s.finish item ending with worker := .checking }
  | .handling _ .other => some { s with worker := .checking }
  | .exited => none

/-- `stop`; an exception in a handler skips the count and the deadline. -/
def stopStep (cfg : Config) (validate : Text → Text → Option P) (s : State P) (now : Int)
    (fails : Bool) : Option (State P) :=
  match s.stop with
  | .notCalled => some { s with stopEvent := true, stop := .looking 0 (now + drainWindow) }
  | .looking drained deadline =>
      if drained < cfg.queueMax * 2 then
        match s.queue with
        | [] => some { s with stop := .disconnecting }
        | item :: rest =>
            match item.kind with
            | .reading => some { s with
                queue := rest
                stop := .handling item (.reading .parse) drained deadline
                handed := item :: s.handed }
            | .alert =>
                some { s with queue := rest, stop := .handling item .other drained deadline }
            | .status => some { s with queue := rest, stop := .checking drained deadline }
      else some { s with stop := .disconnecting }
  | .handling item (.reading call) drained deadline =>
      match handleReading validate item fails call with
      | .inl call => some { s with stop := .handling item (.reading call) drained deadline }
      | .inr ending =>
          some { s.finish item ending with
            stop :=
              match ending with
              | .raised => .looking drained deadline
              | _ => .checking (drained + 1) deadline }
  | .handling _ .other drained deadline =>
      some { s with
        stop := if fails then .looking drained deadline else .checking (drained + 1) deadline }
  | .checking drained deadline =>
      some { s with stop := if deadline < now then .disconnecting else .looking drained deadline }
  | .disconnecting => some { s with stop := .loopStopping }
  | .loopStopping =>
      -- `loop_stop` joins the paho thread, which first leaves `_enqueue`
      match s.paho with
      | .waiting => some { s with paho := .ended, stop := .returned }
      | _ => none
  | .returned => none

def step (cfg : Config) (validate : Text → Text → Option P) (s : State P) : Act → Option (State P)
  | .message nodeId kind raw =>
      match s.paho with
      | .waiting => some { s with
          paho := .enqueueing ⟨s.arrived, nodeId, kind, raw⟩ 0, arrived := s.arrived + 1 }
      | _ => none
  | .put => putStep cfg s
  | .work fails => workStep validate s fails
  | .stop now fails => stopStep cfg validate s now fails

/-- `start` has returned and no message has come yet. -/
structure Start (s : State P) : Prop where
  queue : s.queue = []
  stopEvent : s.stopEvent = false
  worker : s.worker = .checking
  paho : s.paho = .waiting
  stop : s.stop = .notCalled
  arrived : s.arrived = 0
  put : s.put = []
  overflowed : s.overflowed = []
  handed : s.handed = []
  finished : s.finished = []

abbrev IsReading (item : Item) : Prop := item.kind = .reading

/-! ## One step -/

/-- What one `Queue.put` does. -/
inductive Puts (cfg : Config) (s : State P) : State P → Prop
  | enters (item : Item) (attempt : Nat) (entering : s.paho = .enqueueing item attempt)
      (left : (attempt : Int) < cfg.enqueueMaxAttempts) (room : s.queue.length < cfg.queueMax) :
      Puts cfg s { s with paho := .waiting, queue := s.queue ++ [item], put := item :: s.put }
  | retries (item : Item) (attempt : Nat) (entering : s.paho = .enqueueing item attempt)
      (left : (attempt : Int) < cfg.enqueueMaxAttempts) (full : cfg.queueMax ≤ s.queue.length) :
      Puts cfg s { s with paho := .enqueueing item (attempt + 1) }
  | overflows (item : Item) (attempt : Nat) (entering : s.paho = .enqueueing item attempt)
      (spent : cfg.enqueueMaxAttempts ≤ attempt) :
      Puts cfg s { s with
        paho := .waiting
        queueOverflow := s.queueOverflow + 1
        overflowed := item :: s.overflowed }

/-- What the worker does next. -/
inductive Works (validate : Text → Text → Option P) (s : State P) (fails : Bool) : State P → Prop
  | checks (checking : s.worker = .checking) :
      Works validate s fails { s with worker := if s.stopEvent then .exited else .getting }
  | waits (getting : s.worker = .getting) (empty : s.queue = []) :
      Works validate s fails { s with worker := .checking }
  | takes (item : Item) (rest : List Item) (getting : s.worker = .getting)
  (queue : s.queue = item :: rest)
      (reading : IsReading item) :
      Works validate s fails
        { s with
          queue := rest, worker := .handling item (.reading .parse), handed := item :: s.handed }
  | passes (item : Item) (rest : List Item) (getting : s.worker = .getting)
  (queue : s.queue = item :: rest)
      (other : ¬ IsReading item) :
        Works validate s fails { s with queue := rest, worker := .handling item .other }
  | goes (item : Item) (call call' : Call P) (handling : s.worker = .handling item (.reading call))
      (running : handleReading validate item fails call = .inl call') :
      Works validate s fails { s with worker := .handling item (.reading call') }
  | finishes (item : Item) (call : Call P) (ending : Ending P)
  (handling : s.worker = .handling item (.reading call))
      (ended : handleReading validate item fails call = .inr ending) :
      Works validate s fails { s.finish item ending with worker := .checking }
  | handles (item : Item) (handling : s.worker = .handling item .other) :
      Works validate s fails { s with worker := .checking }

/-- What `stop` does next. -/
inductive Stops (cfg : Config) (validate : Text → Text → Option P) (s : State P) (now : Int)
    (fails : Bool) : State P → Prop
  | sets (called : s.stop = .notCalled) :
      Stops cfg validate s now fails { s with
        stopEvent := true, stop := .looking 0 (now + drainWindow) }
  | empties (drained : Nat) (deadline : Int) (looking : s.stop = .looking drained deadline)
      (under : drained < cfg.queueMax * 2) (empty : s.queue = []) :
      Stops cfg validate s now fails { s with stop := .disconnecting }
  | takes (item : Item) (rest : List Item) (drained : Nat) (deadline : Int)
  (looking : s.stop = .looking drained deadline)
      (under : drained < cfg.queueMax * 2) (queue : s.queue = item :: rest)
      (reading : IsReading item) : Stops cfg validate s now fails
        { s with
          queue := rest
          stop := .handling item (.reading .parse) drained deadline
          handed := item :: s.handed }
  | passes (item : Item) (rest : List Item) (drained : Nat) (deadline : Int)
  (looking : s.stop = .looking drained deadline)
      (under : drained < cfg.queueMax * 2) (queue : s.queue = item :: rest)
      (alert : item.kind = .alert) : Stops cfg validate s now fails { s with
        queue := rest, stop := .handling item .other drained deadline }
  | skips (item : Item) (rest : List Item) (drained : Nat) (deadline : Int)
  (looking : s.stop = .looking drained deadline)
      (under : drained < cfg.queueMax * 2) (queue : s.queue = item :: rest)
      (status : item.kind = .status) :
      Stops cfg validate s now fails { s with queue := rest, stop := .checking drained deadline }
  | caps (drained : Nat) (deadline : Int) (looking : s.stop = .looking drained deadline)
      (capped : cfg.queueMax * 2 ≤ drained) :
        Stops cfg validate s now fails { s with stop := .disconnecting }
  | goes (item : Item) (call call' : Call P) (drained : Nat) (deadline : Int)
      (handling : s.stop = .handling item (.reading call) drained deadline)
      (running : handleReading validate item fails call = .inl call') :
      Stops cfg validate s now fails { s with
        stop := .handling item (.reading call') drained deadline }
  | raises (item : Item) (call : Call P) (drained : Nat) (deadline : Int)
      (handling : s.stop = .handling item (.reading call) drained deadline)
      (ended : handleReading validate item fails call = .inr .raised) :
      Stops cfg validate s now fails { s.finish item .raised with
        stop := .looking drained deadline }
  | finishes (item : Item) (call : Call P) (ending : Ending P) (drained : Nat) (deadline : Int)
      (handling : s.stop = .handling item (.reading call) drained deadline)
      (ended : handleReading validate item fails call = .inr ending) (returns : ending ≠ .raised) :
      Stops cfg validate s now fails { s.finish item ending with
        stop := .checking (drained + 1) deadline }
  | handles (item : Item) (drained : Nat) (deadline : Int)
  (handling : s.stop = .handling item .other drained deadline) :
      Stops cfg validate s now fails
        { s with
          stop := if fails then .looking drained deadline else .checking (drained + 1) deadline }
  | expires (drained : Nat) (deadline : Int) (checking : s.stop = .checking drained deadline)
  (late : deadline < now) :
      Stops cfg validate s now fails { s with stop := .disconnecting }
  | loops (drained : Nat) (deadline : Int) (checking : s.stop = .checking drained deadline)
  (inTime : ¬ deadline < now) :
      Stops cfg validate s now fails { s with stop := .looking drained deadline }
  | disconnects (disconnecting : s.stop = .disconnecting) :
      Stops cfg validate s now fails { s with stop := .loopStopping }
  | joins (stopping : s.stop = .loopStopping) (waiting : s.paho = .waiting) :
      Stops cfg validate s now fails { s with paho := .ended, stop := .returned }

/-- One step of the system. -/
inductive Taken (cfg : Config) (validate : Text → Text → Option P) (s : State P) :
    Act → State P → Prop
  | arrives (nodeId : Text) (kind : Kind) (raw : Text) (waiting : s.paho = .waiting) :
      Taken cfg validate s (.message nodeId kind raw)
        { s with paho := .enqueueing ⟨s.arrived, nodeId, kind, raw⟩ 0, arrived := s.arrived + 1 }
  | puts {s' : State P} (puts : Puts cfg s s') : Taken cfg validate s .put s'
  | works {s' : State P} (fails : Bool) (works : Works validate s fails s') :
      Taken cfg validate s (.work fails) s'
  | stops {s' : State P} (now : Int) (fails : Bool) (stops : Stops cfg validate s now fails s') :
      Taken cfg validate s (.stop now fails) s'

section Inversion

variable {cfg : Config} {validate : Text → Text → Option P} {s s' : State P}

theorem puts_of_putStep (ran : putStep cfg s = some s') : Puts cfg s s' := by
  unfold putStep at ran
  split at ran
  · rename_i item attempt entering
    split at ran
    · rename_i left
      split at ran <;> cases ran
      · rename_i room
        exact .enters item attempt entering left room
      · rename_i full
        exact .retries item attempt entering left (Nat.le_of_not_lt full)
    · rename_i spent
      cases ran
      exact .overflows item attempt entering (Int.not_lt.mp spent)
  · cases ran

theorem works_of_workStep {fails : Bool} (ran : workStep validate s fails = some s') :
    Works validate s fails s' := by
  unfold workStep at ran
  split at ran
  · rename_i checking
    cases ran
    exact .checks checking
  · rename_i getting
    split at ran
    · rename_i empty
      cases ran
      exact .waits getting empty
    · rename_i item rest queue
      split at ran <;> cases ran
      · rename_i reading
        exact .takes item rest getting queue reading
      · rename_i other
        exact .passes item rest getting queue other
  · rename_i item call handling
    split at ran <;> cases ran
    · rename_i call' running
      exact .goes item call call' handling running
    · rename_i ending ended
      exact .finishes item call ending handling ended
  · rename_i item handling
    cases ran
    exact .handles item handling
  · cases ran

theorem stops_of_stopStep {now : Int} {fails : Bool}
    (ran : stopStep cfg validate s now fails = some s') : Stops cfg validate s now fails s' := by
  unfold stopStep at ran
  split at ran
  · rename_i called
    cases ran
    exact .sets called
  · rename_i drained deadline looking
    split at ran
    · rename_i under
      split at ran
      · rename_i empty
        cases ran
        exact .empties drained deadline looking under empty
      · rename_i item rest queue
        split at ran <;> cases ran
        · rename_i reading
          exact .takes item rest drained deadline looking under queue reading
        · rename_i alert
          exact .passes item rest drained deadline looking under queue alert
        · rename_i status
          exact .skips item rest drained deadline looking under queue status
    · rename_i above
      cases ran
      exact .caps drained deadline looking (Nat.le_of_not_lt above)
  · rename_i item call drained deadline handling
    split at ran <;> cases ran
    · rename_i call' running
      exact .goes item call call' drained deadline handling running
    · rename_i ending ended
      cases ending with
      | raised => exact .raises item call drained deadline handling ended
      | rejected => exact .finishes item call _ drained deadline handling ended nofun
      | sent payload => exact .finishes item call _ drained deadline handling ended nofun
      | dropped => exact .finishes item call _ drained deadline handling ended nofun
  · rename_i item drained deadline handling
    cases ran
    exact .handles item drained deadline handling
  · rename_i drained deadline checking
    cases ran
    split
    · rename_i late
      exact .expires drained deadline checking late
    · rename_i inTime
      exact .loops drained deadline checking inTime
  · rename_i disconnecting
    cases ran
    exact .disconnects disconnecting
  · rename_i stopping
    split at ran <;> cases ran
    rename_i waiting
    exact .joins stopping waiting
  · cases ran

theorem taken_of_step {a : Act} (ran : step cfg validate s a = some s') :
    Taken cfg validate s a s' := by
  cases a with
  | message nodeId kind raw =>
      simp only [step] at ran
      split at ran <;> cases ran
      rename_i waiting
      exact .arrives nodeId kind raw waiting
  | put => exact .puts (puts_of_putStep ran)
  | work fails => exact .works fails (works_of_workStep ran)
  | stop now fails => exact .stops now fails (stops_of_stopStep ran)

end Inversion

/-! ## The books of a state -/

/-- The reading whose call of `_handle_reading` is under way. -/
def WorkerPc.reading : WorkerPc P → List Item
  | .handling item (.reading _) => [item]
  | _ => []

def StopPc.reading : StopPc P → List Item
  | .handling item (.reading _) _ _ => [item]
  | _ => []

def State.hands (s : State P) : List Item := s.worker.reading ++ s.stop.reading

def State.books (s : State P) : Books Item (Ending P) :=
  ⟨s.put, s.queue, s.hands, s.handed, s.finished⟩

/-- The tickets tell the messages apart. -/
structure Numbered (s : State P) : Prop where
  older : ∀ item ∈ s.put ++ s.overflowed, item.ticket < s.arrived
  entering : ∀ item attempt, s.paho = .enqueueing item attempt →
    item.ticket < s.arrived ∧ ∀ other ∈ s.put ++ s.overflowed, other.ticket < item.ticket
  apart : ∀ item ∈ s.put, item ∉ s.overflowed

section Steps

variable {cfg : Config} {validate : Text → Text → Option P} {s s' : State P}

theorem moves_of_eq (same : s'.books = s.books) : Moves IsReading s.books s'.books := by
  rw [same]
  exact .still _

theorem moves_discards {item : Item} {rest : List Item} (first : s.queue = item :: rest)
    (other : ¬ IsReading item) (same : s'.books = { s.books with queue := rest }) :
    Moves IsReading s.books s'.books := by
  rw [same]
  exact .discards s.books item rest first other

theorem moves_put (numbered : Numbered s) (puts : Puts cfg s s') :
    Moves IsReading s.books s'.books := by
  cases puts with
  | enters item attempt entering =>
      refine .enters s.books item ?_
      intro present
      have older :=
        (numbered.entering item attempt entering).2 item (List.mem_append_left _ present)
      omega
  | retries => exact .still s.books
  | overflows => exact .still s.books

theorem moves_work {fails : Bool} (works : Works validate s fails s') :
    Moves IsReading s.books s'.books := by
  cases works with
  | checks checking =>
      apply moves_of_eq
      cases s.stopEvent <;> simp [State.books, State.hands, checking, WorkerPc.reading]
  | waits getting =>
      apply moves_of_eq
      simp [State.books, State.hands, getting, WorkerPc.reading]
  | takes item rest getting queue reading =>
      refine .takes s.books item rest _ queue reading ?_
      simp [State.books, State.hands, getting, WorkerPc.reading]
  | passes item rest getting queue other =>
      apply moves_discards queue other
      simp [State.books, State.hands, getting, WorkerPc.reading]
  | goes item call call' handling =>
      apply moves_of_eq
      simp [State.books, State.hands, handling, WorkerPc.reading]
  | finishes item call ending handling =>
      refine .finishes s.books item ending _ ?_
      simp [State.books, State.hands, State.finish, handling, WorkerPc.reading]
  | handles item handling =>
      apply moves_of_eq
      simp [State.books, State.hands, handling, WorkerPc.reading]

/-- `stop` has moved on, with no reading in hand before or after. -/
theorem moves_of_stop {stop : StopPc P} {stopEvent : Bool} {paho : PahoPc}
    (before : s.stop.reading = []) (after : stop.reading = []) :
    Moves IsReading s.books { s with
      stop := stop, stopEvent := stopEvent, paho := paho }.books := by
  apply moves_of_eq
  simp [State.books, State.hands, before, after]

theorem moves_stop {now : Int} {fails : Bool} (stops : Stops cfg validate s now fails s') :
    Moves IsReading s.books s'.books := by
  cases stops with
  | sets called => exact moves_of_stop (by rw [called]; rfl) rfl
  | empties drained deadline looking => exact moves_of_stop (by rw [looking]; rfl) rfl
  | takes item rest drained deadline looking under queue reading =>
      refine .takes s.books item rest _ queue reading ?_
      simp only [State.books, State.hands, looking, StopPc.reading, List.append_nil]
      exact List.perm_append_comm
  | passes item rest drained deadline looking under queue alert =>
      apply moves_discards queue (by simp [IsReading, alert])
      simp [State.books, State.hands, looking, StopPc.reading]
  | skips item rest drained deadline looking under queue status =>
      apply moves_discards queue (by simp [IsReading, status])
      simp [State.books, State.hands, looking, StopPc.reading]
  | caps drained deadline looking => exact moves_of_stop (by rw [looking]; rfl) rfl
  | goes item call call' drained deadline handling =>
      apply moves_of_eq
      simp [State.books, State.hands, handling, StopPc.reading]
  | raises item call drained deadline handling =>
      refine .finishes s.books item .raised _ ?_
      simp [State.books, State.hands, State.finish, handling, StopPc.reading]
  | finishes item call ending drained deadline handling =>
      refine .finishes s.books item ending _ ?_
      simp [State.books, State.hands, State.finish, handling, StopPc.reading]
  | handles item drained deadline handling =>
      refine moves_of_stop (by rw [handling]; rfl) ?_
      cases fails <;> rfl
  | expires drained deadline checking => exact moves_of_stop (by rw [checking]; rfl) rfl
  | loops drained deadline checking => exact moves_of_stop (by rw [checking]; rfl) rfl
  | disconnects disconnecting => exact moves_of_stop (by rw [disconnecting]; rfl) rfl
  | joins stopping => exact moves_of_stop (by rw [stopping]; rfl) rfl

/-- **Every operation is one entry in the books.** -/
theorem moves_step {a : Act} (numbered : Numbered s) (ran : step cfg validate s a = some s') :
    Moves IsReading s.books s'.books := by
  cases taken_of_step ran with
  | arrives => exact .still s.books
  | puts puts => exact moves_put numbered puts
  | works fails works => exact moves_work works
  | stops now fails stops => exact moves_stop stops

/-- What the worker and `stop` leave as it is. -/
structure SameArrivals (s s' : State P) : Prop where
  put : s'.put = s.put
  overflowed : s'.overflowed = s.overflowed
  arrived : s'.arrived = s.arrived
  paho : ∀ item attempt, s'.paho = .enqueueing item attempt → s.paho = .enqueueing item attempt

theorem sameArrivals_work {fails : Bool} (works : Works validate s fails s') :
    SameArrivals s s' := by
  cases works <;> exact ⟨rfl, rfl, rfl, fun _ _ => id⟩

theorem sameArrivals_stop {now : Int} {fails : Bool} (stops : Stops cfg validate s now fails s') :
    SameArrivals s s' := by
  cases stops with
  | joins => exact ⟨rfl, rfl, rfl, fun _ _ entering => by cases entering⟩
  | _ => exact ⟨rfl, rfl, rfl, fun _ _ => id⟩

theorem Numbered.same (numbered : Numbered s) (same : SameArrivals s s') : Numbered s' where
  older := by
    rw [same.put, same.overflowed, same.arrived]
    exact numbered.older
  entering := fun item attempt entering => by
    rw [same.put, same.overflowed, same.arrived]
    exact numbered.entering item attempt (same.paho item attempt entering)
  apart := by
    rw [same.put, same.overflowed]
    exact numbered.apart

/-- The message inside `_enqueue` is on neither list yet. -/
theorem Numbered.fresh (numbered : Numbered s) {item : Item} {attempt : Nat}
    (entering : s.paho = .enqueueing item attempt) : item ∉ s.put ∧ item ∉ s.overflowed := by
  rw [← not_or, ← List.mem_append]
  intro present
  exact absurd ((numbered.entering item attempt entering).2 item present) (Nat.lt_irrefl _)

theorem numbered_put (numbered : Numbered s) (puts : Puts cfg s s') : Numbered s' := by
  cases puts with
  | enters item attempt entering =>
      refine ⟨?_, (fun _ _ entering => by cases entering), ?_⟩
      · intro other member
        rcases List.mem_cons.mp member with rfl | before
        · exact (numbered.entering other attempt entering).1
        · exact numbered.older other before
      · intro other member
        rcases List.mem_cons.mp member with rfl | before
        · exact (numbered.fresh entering).2
        · exact numbered.apart other before
  | retries item attempt entering =>
      refine ⟨numbered.older, ?_, numbered.apart⟩
      rintro _ _ ⟨⟩
      exact numbered.entering item attempt entering
  | overflows item attempt entering =>
      refine ⟨?_, (fun _ _ entering => by cases entering), ?_⟩
      · intro other member
        rcases List.mem_append.mp member with before | overflow
        · exact numbered.older other (List.mem_append_left _ before)
        · rcases List.mem_cons.mp overflow with rfl | before
          · exact (numbered.entering other attempt entering).1
          · exact numbered.older other (List.mem_append_right _ before)
      · intro other member overflow
        rcases List.mem_cons.mp overflow with rfl | before
        · exact (numbered.fresh entering).1 member
        · exact numbered.apart other member before

theorem numbered_step {a : Act} (numbered : Numbered s) (ran : step cfg validate s a = some s') :
    Numbered s' := by
  cases taken_of_step ran with
  | arrives nodeId kind raw =>
      refine ⟨?_, ?_, numbered.apart⟩
      · intro other member
        have older := numbered.older other member
        show other.ticket < s.arrived + 1
        omega
      · rintro _ _ ⟨⟩
        exact ⟨Nat.lt_succ_self _, numbered.older⟩
  | puts puts => exact numbered_put numbered puts
  | works fails works => exact numbered.same (sameArrivals_work works)
  | stops now fails stops => exact numbered.same (sameArrivals_stop stops)

end Steps

/-! ## What is accounted for -/

/-- Every reading that was put was handed to `_handle_reading` exactly once, in a call that
has finished, or is counted as dropped or overflowed. -/
def Accounted (s : State P) : Prop :=
  ∀ item ∈ s.put, IsReading item →
    s.books.Settled item ∨ (item, Ending.dropped) ∈ s.finished ∨ item ∈ s.overflowed

section Runs

variable {cfg : Config} {validate : Text → Text → Option P} {s s' : State P}
    {ok : State P → Act → Prop}

structure Kept (s : State P) : Prop where
  numbered : Numbered s
  balanced : Balanced IsReading s.books

theorem kept_start (starts : Start s) : Kept s where
  numbered :=
    { older := by simp [starts.put, starts.overflowed]
      entering := fun item attempt entering => by
        rw [starts.paho] at entering
        cases entering
      apart := by simp [starts.put] }
  balanced := by
    have empty : s.books = ⟨[], [], [], [], []⟩ := by
      simp [State.books, State.hands, starts.put, starts.queue, starts.worker, starts.stop,
        starts.handed, starts.finished, WorkerPc.reading, StopPc.reading]
    rw [empty]
    exact balanced_empty

theorem kept_of_reach (reached : Reach (step cfg validate) ok Start s) : Kept s :=
  reached.invariant (fun _ starts => kept_start starts) fun _ _ _ kept _ ran =>
    ⟨numbered_step kept.numbered ran, balanced_moves kept.balanced (moves_step kept.numbered ran)⟩

/-- Being counted adds nothing: a reading that was put has not overflowed, and one that was
given up is finished. -/
theorem accounted_iff_settled (kept : Kept s) :
    Accounted s ↔ ∀ item ∈ s.put, IsReading item → s.books.Settled item := by
  constructor
  · intro accounted item put reading
    rcases accounted item put reading with settled | dropped | overflowed
    · exact settled
    · have done : item ∈ s.books.done := List.mem_map.mpr ⟨_, dropped, rfl⟩
      refine (kept.balanced.settled_iff_gone reading put).mpr ⟨fun queued => ?_, fun held => ?_⟩
      · exact (kept.balanced.not_done reading (Or.inl queued)).2 done
      · exact (kept.balanced.not_done reading (Or.inr held)).2 done
    · exact absurd overflowed (kept.numbered.apart item put)
  · intro settled item put reading
    exact Or.inl (settled item put reading)

/-- **What `stop` leaves.**  When it has returned, everything is accounted for exactly when
no reading is queued and the worker is not inside `_handle_reading`. -/
theorem accounted_iff (kept : Kept s) (returned : s.stop = .returned) :
    Accounted s ↔ (∀ item ∈ s.queue, ¬ IsReading item) ∧ s.worker.reading = [] := by
  have hands : s.books.hands = s.worker.reading := by
    simp [State.books, State.hands, returned, StopPc.reading]
  rw [accounted_iff_settled kept, ← hands]
  exact kept.balanced.settled_iff

/-! ## The runs in which nothing is left -/

/-- The drain loop of `stop` is over. -/
def StopPc.drained : StopPc P → Bool
  | .disconnecting | .loopStopping | .returned => true
  | _ => false

/-- The three ways around a loss: the cap or the deadline ends the drain only with no
reading queued, no reading is put after the drain, and `loop_stop` returns while the worker
is not inside `_handle_reading`. -/
def Clean (cfg : Config) (s : State P) : Act → Prop
  | .put =>
      match s.paho with
      | .enqueueing item _ => s.stop.drained = true → IsReading item → cfg.queueMax ≤ s.queue.length
      | _ => True
  | .stop now _ =>
      match s.stop with
      | .looking drained _ => cfg.queueMax * 2 ≤ drained → ∀ item ∈ s.queue, ¬ IsReading item
      | .checking _ deadline => deadline < now → ∀ item ∈ s.queue, ¬ IsReading item
      | .loopStopping => s.worker.reading = []
      | _ => True
  | _ => True

structure Emptied (s : State P) : Prop where
  queue : s.stop.drained = true → ∀ item ∈ s.queue, ¬ IsReading item
  worker : s.stop = .returned → s.worker.reading = []

theorem emptied_put (emptied : Emptied s) (clean : Clean cfg s .put) (puts : Puts cfg s s') :
    Emptied s' := by
  cases puts with
  | enters item attempt entering left room =>
      simp only [Clean, entering] at clean
      refine ⟨?_, emptied.worker⟩
      intro drained other member
      rcases List.mem_append.mp member with before | new
      · exact emptied.queue drained other before
      · rw [List.mem_singleton] at new
        subst new
        intro reading
        have full := clean drained reading
        omega
  | retries => exact ⟨emptied.queue, emptied.worker⟩
  | overflows => exact ⟨emptied.queue, emptied.worker⟩

theorem emptied_work {fails : Bool} (emptied : Emptied s) (works : Works validate s fails s') :
    Emptied s' := by
  cases works with
  | checks =>
      refine ⟨emptied.queue, fun _ => ?_⟩
      cases s.stopEvent <;> rfl
  | waits => exact ⟨emptied.queue, fun _ => rfl⟩
  | takes item rest getting queue reading =>
      have before := emptied.queue
      rw [queue] at before
      refine ⟨fun drained other member => before drained other (List.mem_cons_of_mem item member), ?_⟩
      intro returned
      have drained : s.stop.drained = true := by rw [show s.stop = .returned from returned]; rfl
      exact absurd reading (before drained item List.mem_cons_self)
  | passes item rest getting queue =>
      have before := emptied.queue
      rw [queue] at before
      exact ⟨fun drained other member => before drained other (List.mem_cons_of_mem item member),
        fun _ => rfl⟩
  | goes item call call' handling =>
      refine ⟨emptied.queue, fun returned => ?_⟩
      have idle := emptied.worker returned
      rw [handling] at idle
      cases idle
  | finishes => exact ⟨emptied.queue, fun _ => rfl⟩
  | handles => exact ⟨emptied.queue, fun _ => rfl⟩

/-- While the drain goes on nothing is asked. -/
theorem emptied_of_running (running : s.stop.drained = false) : Emptied s := by
  refine ⟨fun drained => ?_, fun returned => ?_⟩
  · rw [running] at drained
    cases drained
  · rw [returned] at running
    cases running

theorem emptied_stop {now : Int} {fails : Bool} (emptied : Emptied s)
    (clean : Clean cfg s (.stop now fails)) (stops : Stops cfg validate s now fails s') :
    Emptied s' := by
  cases stops with
  | empties drained deadline looking under empty =>
      refine ⟨fun _ item member => ?_, fun returned => by cases returned⟩
      rw [show s.queue = [] from empty] at member
      cases member
  | caps drained deadline looking capped =>
      simp only [Clean, looking] at clean
      exact ⟨fun _ => clean capped, fun returned => by cases returned⟩
  | expires drained deadline checking late =>
      simp only [Clean, checking] at clean
      exact ⟨fun _ => clean late, fun returned => by cases returned⟩
  | disconnects disconnecting =>
      refine ⟨fun _ => emptied.queue ?_, fun returned => by cases returned⟩
      rw [disconnecting]
      rfl
  | joins stopping =>
      simp only [Clean, stopping] at clean
      refine ⟨fun _ => emptied.queue ?_, fun _ => clean⟩
      rw [stopping]
      rfl
  | handles => cases fails <;> exact emptied_of_running rfl
  | _ => exact emptied_of_running rfl

theorem emptied_step {a : Act} (emptied : Emptied s) (clean : Clean cfg s a)
    (ran : step cfg validate s a = some s') : Emptied s' := by
  cases taken_of_step ran with
  | arrives => exact ⟨emptied.queue, emptied.worker⟩
  | puts puts => exact emptied_put emptied clean puts
  | works fails works => exact emptied_work emptied works
  | stops now fails stops => exact emptied_stop emptied clean stops

theorem emptied_of_reach (reached : Reach (step cfg validate) (Clean cfg) Start s) : Emptied s := by
  refine reached.invariant (fun s starts => ?_) fun _ _ _ emptied clean ran =>
    emptied_step emptied clean ran
  refine ⟨fun drained => ?_, fun returned => ?_⟩
  · rw [starts.stop] at drained
    cases drained
  · rw [starts.stop] at returned
    cases returned

/-- **When nothing is lost.**  In every run, once `stop` has returned, every reading that was
put is accounted for exactly when none is queued and the worker is not inside
`_handle_reading`; and that is so in every run whose steps are clean. -/
theorem accounted_at_return (cfg : Config) (validate : Text → Text → Option P) :
    (∀ s, Reach (step cfg validate) Always Start s → s.stop = .returned →
        (Accounted s ↔ (∀ item ∈ s.queue, ¬ IsReading item) ∧ s.worker.reading = [])) ∧
      ∀ s, Reach (step cfg validate) (Clean cfg) Start s → s.stop = .returned → Accounted s := by
  constructor
  · intro s reached returned
    exact accounted_iff (kept_of_reach reached) returned
  · intro s reached returned
    have emptied := emptied_of_reach reached
    refine (accounted_iff (kept_of_reach reached) returned).mpr
      ⟨emptied.queue ?_, emptied.worker returned⟩
    rw [returned]
    rfl

/-! ## The counters and the endings -/

def Ending.isDropped : Ending P → Bool
  | .dropped => true
  | _ => false

/-- The counters of `/admin/health` count what the ledger lists. -/
theorem counters_step {a : Act} (ran : step cfg validate s a = some s') :
    s'.droppedReadings + s.finished.countP (·.2.isDropped) =
      s.droppedReadings + s'.finished.countP (·.2.isDropped) ∧
      s'.queueOverflow + s.overflowed.length = s.queueOverflow + s'.overflowed.length := by
  have finish : ∀ item (ending : Ending P),
      (s.finish item ending).droppedReadings + s.finished.countP (·.2.isDropped) =
      s.droppedReadings + (s.finish item ending).finished.countP (·.2.isDropped) := by
    intro item ending
    cases ending with
    | dropped =>
        simp [State.finish, Ending.isDropped]
        omega
    | _ => simp [State.finish, Ending.isDropped]
  cases taken_of_step ran with
  | arrives => exact ⟨rfl, rfl⟩
  | puts puts =>
      cases puts with
      | enters => exact ⟨rfl, rfl⟩
      | retries => exact ⟨rfl, rfl⟩
      | overflows => exact ⟨rfl, by simp; omega⟩
  | works fails works =>
      cases works with
      | finishes item call ending => exact ⟨finish item ending, rfl⟩
      | _ => exact ⟨rfl, rfl⟩
  | stops now fails stops =>
      cases stops with
      | raises item => exact ⟨finish item .raised, rfl⟩
      | finishes item call ending => exact ⟨finish item ending, rfl⟩
      | _ => exact ⟨rfl, rfl⟩

theorem counters_of_reach {first : State P} (starts : Start first)
    (reached : Reach (step cfg validate) ok (fun s => s = first) s) :
    s.droppedReadings = first.droppedReadings + s.finished.countP (·.2.isDropped) ∧
      s.queueOverflow = first.queueOverflow + s.overflowed.length := by
  induction reached with
  | init same =>
      subst same
      simp [starts.finished, starts.overflowed]
  | next a _ _ ran counts =>
      obtain ⟨dropped, overflow⟩ := counters_step ran
      omega

/-- The ending fits what `validate` says of the message. -/
def Ending.Of (validate : Text → Text → Option P) (item : Item) : Ending P → Prop
  | .rejected => validate item.nodeId item.raw = none
  | .sent payload => validate item.nodeId item.raw = some payload
  | .dropped => (validate item.nodeId item.raw).isSome
  | .raised => True

/-- What is dispatched is the validated payload of the message. -/
def Work.Of (validate : Text → Text → Option P) (item : Item) : Work P → Prop
  | .reading (.attempt payload _) => validate item.nodeId item.raw = some payload
  | _ => True

theorem handleReading_inl {item : Item} {call call' : Call P} {fails : Bool}
    (valid : (Work.reading call).Of validate item)
    (running : handleReading validate item fails call = .inl call') :
    (Work.reading call').Of validate item := by
  cases call with
  | parse =>
      simp only [handleReading] at running
      split at running
      · cases running
      · split at running
        · cases running
        · rename_i payload validated
          cases running
          exact validated
  | attempt payload n =>
      simp only [handleReading, dispatchReading] at running
      split at running
      · cases running
      · split at running <;> cases running
        exact valid

theorem handleReading_inr {item : Item} {call : Call P} {fails : Bool} {ending : Ending P}
    (valid : (Work.reading call).Of validate item)
    (ended : handleReading validate item fails call = .inr ending) : ending.Of validate item := by
  cases call with
  | parse =>
      simp only [handleReading] at ended
      split at ended
      · cases ended
        trivial
      · split at ended <;> cases ended
        rename_i rejected
        exact rejected
  | attempt payload n =>
      simp only [handleReading, dispatchReading] at ended
      have validated : validate item.nodeId item.raw = some payload := valid
      split at ended
      · cases ended
        exact validated
      · split at ended <;> cases ended
        simp [Ending.Of, validated]

structure Truthful (validate : Text → Text → Option P) (s : State P) : Prop where
  worker : ∀ item work, s.worker = .handling item work → work.Of validate item
  stop : ∀ item work drained deadline, s.stop = .handling item work drained deadline →
    work.Of validate item
  finished : ∀ entry ∈ s.finished, entry.2.Of validate entry.1

theorem Truthful.ends (truthful : Truthful validate s) {item : Item} {ending : Ending P}
    (of : ending.Of validate item) :
    ∀ entry ∈ (item, ending) :: s.finished, entry.2.Of validate entry.1 := by
  intro entry member
  rcases List.mem_cons.mp member with rfl | before
  · exact of
  · exact truthful.finished entry before

theorem truthful_work {fails : Bool} (truthful : Truthful validate s)
    (works : Works validate s fails s') : Truthful validate s' := by
  cases works with
  | checks =>
      refine ⟨fun item work handling => ?_, truthful.stop, truthful.finished⟩
      cases running : s.stopEvent <;> simp [running] at handling
  | waits => exact ⟨(fun _ _ handling => by cases handling), truthful.stop, truthful.finished⟩
  | takes =>
      refine ⟨?_, truthful.stop, truthful.finished⟩
      rintro _ _ ⟨⟩
      trivial
  | passes =>
      refine ⟨?_, truthful.stop, truthful.finished⟩
      rintro _ _ ⟨⟩
      trivial
  | goes item call call' handling running =>
      refine ⟨?_, truthful.stop, truthful.finished⟩
      rintro _ _ ⟨⟩
      exact handleReading_inl (truthful.worker item _ handling) running
  | finishes item call ending handling ended =>
      have of := handleReading_inr (truthful.worker item _ handling) ended
      exact ⟨(fun _ _ handling => by cases handling), truthful.stop, truthful.ends of⟩
  | handles => exact ⟨(fun _ _ handling => by cases handling), truthful.stop, truthful.finished⟩

theorem truthful_stop {now : Int} {fails : Bool} (truthful : Truthful validate s)
    (stops : Stops cfg validate s now fails s') : Truthful validate s' := by
  cases stops with
  | takes =>
      refine ⟨truthful.worker, ?_, truthful.finished⟩
      rintro _ _ _ _ ⟨⟩
      trivial
  | passes =>
      refine ⟨truthful.worker, ?_, truthful.finished⟩
      rintro _ _ _ _ ⟨⟩
      trivial
  | goes item call call' drained deadline handling running =>
      refine ⟨truthful.worker, ?_, truthful.finished⟩
      rintro _ _ _ _ ⟨⟩
      exact handleReading_inl (truthful.stop item _ drained deadline handling) running
  | raises item call drained deadline handling ended =>
      have of := handleReading_inr (truthful.stop item _ drained deadline handling) ended
      exact ⟨truthful.worker, (fun _ _ _ _ handling => by cases handling), truthful.ends of⟩
  | finishes item call ending drained deadline handling ended =>
      have of := handleReading_inr (truthful.stop item _ drained deadline handling) ended
      exact ⟨truthful.worker, (fun _ _ _ _ handling => by cases handling), truthful.ends of⟩
  | handles =>
      refine ⟨truthful.worker, fun _ _ _ _ handling => ?_, truthful.finished⟩
      cases fails <;> cases handling
  | _ => exact ⟨truthful.worker, (fun _ _ _ _ handling => by cases handling), truthful.finished⟩

theorem truthful_step {a : Act} (truthful : Truthful validate s)
    (ran : step cfg validate s a = some s') : Truthful validate s' := by
  cases taken_of_step ran with
  | arrives => exact ⟨truthful.worker, truthful.stop, truthful.finished⟩
  | puts puts => cases puts <;> exact ⟨truthful.worker, truthful.stop, truthful.finished⟩
  | works fails works => exact truthful_work truthful works
  | stops now fails stops => exact truthful_stop truthful stops

/-- **A finished reading was sent as validated**, or `validate` refused it, or all attempts
failed and it was counted; only a call that raised leaves no trace. -/
theorem truthful_of_reach (reached : Reach (step cfg validate) ok Start s) :
    Truthful validate s := by
  refine reached.invariant (fun s starts => ⟨?_, ?_, ?_⟩) fun _ _ _ truthful _ ran =>
    truthful_step truthful ran
  · intro item work handling
    rw [starts.worker] at handling
    cases handling
  · intro item work drained deadline handling
    rw [starts.stop] at handling
    cases handling
  · simp [starts.finished]

end Runs

end Model

/-! ## Two runs -/

instance {P : Type} (cfg : Config) (s : State P) (a : Act) : Decidable (Clean cfg s a) := by
  unfold Clean
  split
  · split <;> infer_instance
  · split <;> infer_instance
  · infer_instance

def oneThousand : Config := ⟨1000, 5, by decide⟩

/-- Every message is a valid reading. -/
def rawPayload : Text → Text → Option Text := fun _ raw => some raw

def started : State Text :=
  { queue := []
    stopEvent := false
    worker := .checking
    paho := .waiting
    stop := .notCalled
    droppedReadings := 0
    queueOverflow := 0
    arrived := 0
    put := []
    overflowed := []
    handed := []
    finished := [] }

theorem start_started : Start started := ⟨rfl, rfl, rfl, rfl, rfl, rfl, rfl, rfl, rfl, rfl⟩

/-- A reading comes in and is put on the queue. -/
def readingPut : List Act := [.message "esp32-01".toList .reading "{}".toList, .put]

/-- The worker handles one reading, `stop` the other, at its second attempt. -/
theorem accounted_at_return_clean :
    ∃ s, Reach (step oneThousand rawPayload) (Clean oneThousand) Start s ∧ s.stop = .returned ∧
      s.put.length = 2 ∧
      Accounted s := by
  obtain ⟨s, reached, final⟩ :=
    exists_reach_of_run (step oneThousand rawPayload) (Clean oneThousand) start_started
      (readingPut ++ List.replicate 4 (.work false) ++ readingPut ++
        [.stop 0 false, .stop 0 false, .stop 0 false, .stop 0 true] ++
          List.replicate 5 (.stop 500 false))
      (fun s => decide (s.stop = .returned ∧ s.put.length = 2)) (by decide)
  obtain ⟨returned, both⟩ := of_decide_eq_true final
  exact ⟨s, reached, returned, both,
    (accounted_at_return oneThousand rawPayload).2 s reached returned⟩

/-- **Two readings are lost**: the worker has taken the first and is not waited for, and the
second is put after the drain. -/
theorem lost_readings :
    ∃ s, Reach (step oneThousand rawPayload) Always Start s ∧ s.stop = .returned ∧
      s.droppedReadings = 0 ∧
      s.queueOverflow = 0 ∧ ¬ Accounted s := by
  obtain ⟨s, reached, final⟩ :=
    exists_reach_of_run (step oneThousand rawPayload) Always start_started
      (readingPut ++ [.work false, .work false, .stop 0 false, .stop 0 false] ++ readingPut ++
        [.stop 0 false, .stop 0 false])
      (fun s => decide (s.stop = .returned ∧ s.droppedReadings = 0 ∧ s.queueOverflow = 0 ∧
        s.queue.length = 1 ∧ s.worker.reading ≠ [])) (by decide)
  obtain ⟨returned, dropped, overflow, _, working⟩ := of_decide_eq_true final
  refine ⟨s, reached, returned, dropped, overflow, ?_⟩
  intro accounted
  exact working ((accounted_iff (kept_of_reach reached) returned).mp accounted).2

end Empyrean.Mqtt.Drain
