/-
# Empyrean.Mqtt.RetryInterrupted — an exception between two steps of the retry

`_retry_failed_messages` pops a batch off the queue, publishes what it can, and puts the
rest back in a `finally`.  Celery's soft time limit raises between any two steps, and other
calls of `publish_alert` may queue their failures between any two that do not hold the lock.

* `step` — one step of the function, an exception, or a failure queued by another call.
* `lost` — what a step drops, by where it finds the function: a batch outside the `try`, a
  message outside the batch, or what a full deque lets go of.
* `kept_at_exit_iff` — every message that was queued is published, exhausted, unencodable
  or queued at the exit iff no step drops one.
* `interrupted_batch_lost` — ten messages that an exception before the `try` takes along.
-/
import Empyrean.Theory.Losses
import Empyrean.Mqtt.PublishErrors

namespace Empyrean.Mqtt.RetryInterrupted

set_option autoImplicit false

open Empyrean.Theory.BoundedDeque Empyrean.Theory.Losses
open Empyrean.Mqtt.Publisher
  (Payload Alert Failed queueFailedMessage maxRetryAttempts retryBatchSize
  maxFailedQueueSize)
open Empyrean.Mqtt.PublishErrors (Raised Sent)

/-! ## The function, step by step -/

/-- Why a message is not queued again. -/
inductive Fate
  | published
  | exhausted
  | unencodable
  deriving DecidableEq

/-- Where the function is, and what it has in hand. -/
inductive Pc (V : Type)
  /-- `if not _failed_queue` -/
  | entering
  /-- `_get_client()` -/
  | connecting
  /-- The loop over `popleft`, under the lock. -/
  | popping (batch : List (Failed V))
  /-- Between a `popleft` and the `append` to the batch. -/
  | popped (entry : Failed V) (batch : List (Failed V))
  /-- The lock is free again, the `try` not entered yet. -/
  | filled (batch : List (Failed V))
  /-- `while batch` -/
  | looping (batch : List (Failed V))
  /-- After `batch.pop(0)`, up to the inner `try`. -/
  | inHand (entry : Failed V) (batch : List (Failed V))
  /-- Inside the inner `try`. -/
  | publishing (entry : Failed V) (batch : List (Failed V))
  /-- In its `except Exception`, before the `append`. -/
  | failed (entry : Failed V) (batch : List (Failed V))
  /-- After a publish with `rc != 0`, before the `append`. -/
  | refused (entry : Failed V) (batch : List (Failed V))
  /-- The `finally`, before the `extendleft`. -/
  | cleanup (batch : List (Failed V)) (raised : Option Raised)
  | exited (raised : Option Raised)
  deriving DecidableEq

/-- What the function has in hand. -/
def Pc.outstanding {V : Type} : Pc V → List (Failed V)
  | .popping batch | .filled batch | .looping batch | .cleanup batch _ => batch
  | .popped entry batch | .inHand entry batch | .publishing entry batch | .failed entry batch
  | .refused entry batch => entry :: batch
  | .entering | .connecting | .exited _ => []

/-- Other calls of `publish_alert` can queue a failure now. -/
def Pc.unlocked {V : Type} : Pc V → Bool
  | .popping _ | .popped _ _ | .exited _ => false
  | _ => true

structure State (V : Type) where
  queue : List (Failed V)
  pc : Pc V
  settled : List (Alert V × Fate)
  /-- The calls of `publish_alert` so far. -/
  calls : Nat

inductive Act (V : Type)
  /-- The next step; `client` and `sent` are what the client answers to it. -/
  | proceed (client : Bool) (sent : Sent)
  /-- An exception is delivered. -/
  | interrupt (kind : Raised)
  /-- Another call of `publish_alert` queues its failure. -/
  | queueFailure (payload : Payload V)

section Model

variable {V : Type} (encode : Payload V → Option String)

def State.go (s : State V) (pc : Pc V) : State V := { s with pc := pc }

def State.settle (s : State V) (entry : Failed V) (fate : Fate)
    (batch : List (Failed V)) : State V :=
  { s with settled := (entry.alert, fate) :: s.settled, pc := .looping batch }

/-- The entry with one more attempt, as it is queued again. -/
def again (entry : Failed V) : Failed V := ⟨entry.alert, entry.attempt + 1⟩

/-- `_retry_failed_messages`, one step. -/
def proceed (s : State V) (client : Bool) (sent : Sent) : State V :=
  match s.pc with
  | .entering => s.go (if s.queue.isEmpty then .exited none else .connecting)
  | .connecting => s.go (if client then .popping [] else .exited none)
  | .popping batch =>
      match s.queue with
      | [] => s.go (.filled batch)
      | entry :: rest =>
          if batch.length < retryBatchSize then { s with queue := rest, pc := .popped entry batch }
          else s.go (.filled batch)
  | .popped entry batch => s.go (.popping (batch ++ [entry]))
  | .filled batch => s.go (.looping batch)
  | .looping [] => s.go (.cleanup [] none)
  | .looping (entry :: batch) => s.go (.inHand entry batch)
  | .inHand entry batch =>
      if entry.attempt ≥ maxRetryAttempts then s.settle entry .exhausted batch
      else match encode entry.alert.payload with
        | none => s.settle entry .unencodable batch
        | some _ => s.go (.publishing entry batch)
  | .publishing entry batch =>
      match sent with
      | .raises .exception => s.go (.failed entry batch)
      | .raises .baseException => s.go (.cleanup batch (some .baseException))
      | .rc code =>
          if code = 0 then s.settle entry .published batch else s.go (.refused entry batch)
  | .failed entry batch =>
      { s with queue := append maxFailedQueueSize s.queue (again entry), pc := .cleanup batch (some .exception) }
  | .refused entry batch =>
      { s with queue := append maxFailedQueueSize s.queue (again entry), pc := .looping batch }
  | .cleanup batch raised =>
      { s with queue := extendleft maxFailedQueueSize s.queue batch.reverse, pc := .exited raised }
  | .exited _ => s

/-- An exception between two steps: inside the `try` the `finally` comes next, inside the
inner `try` its `except` if it is an `Exception`. -/
def interrupt (s : State V) (kind : Raised) : State V :=
  match s.pc with
  | .looping batch | .inHand _ batch | .failed _ batch | .refused _ batch =>
      s.go (.cleanup batch (some kind))
  | .publishing entry batch =>
      match kind with
      | .exception => s.go (.failed entry batch)
      | .baseException => s.go (.cleanup batch (some .baseException))
  | .exited _ => s
  | _ => s.go (.exited (some kind))

/-- An act that has to wait for the lock, or comes after the exit, does nothing. -/
def step (s : State V) : Act V → State V
  | .proceed client sent => proceed encode s client sent
  | .interrupt kind => interrupt s kind
  | .queueFailure payload =>
      if s.pc.unlocked then
        { s with queue := (queueFailedMessage s.queue ⟨s.calls, payload⟩).1, calls := s.calls + 1 }
      else s

/-! ## What a step drops -/

/-- The entries that an exception leaves in nobody's hands. -/
def droppedBy (kind : Raised) : Pc V → List (Failed V)
  | .popping batch | .filled batch | .cleanup batch _ => batch
  | .popped entry batch => entry :: batch
  | .inHand entry _ | .failed entry _ | .refused entry _ => [entry]
  | .publishing entry _ =>
      match kind with
      | .exception => []
      | .baseException => [entry]
  | .entering | .connecting | .looping _ | .exited _ => []

/-- What a step drops, by the state it finds. -/
def lost (s : State V) : Act V → List (Alert V)
  | .proceed _ sent =>
      match s.pc with
      | .publishing entry _ => if sent = .raises .baseException then [entry.alert] else []
      | .failed entry _ | .refused entry _ =>
          (droppedLeft maxFailedQueueSize s.queue (again entry)).map Failed.alert
      | .cleanup batch _ => (droppedRight maxFailedQueueSize s.queue batch).map Failed.alert
      | _ => []
  | .interrupt kind => (droppedBy kind s.pc).map Failed.alert
  | .queueFailure payload =>
      if s.pc.unlocked then (droppedLeft maxFailedQueueSize s.queue ⟨⟨s.calls, payload⟩, 0⟩).map Failed.alert else []

end Model

/-! ## The books -/

section Books

variable {V : Type} {encode : Payload V → Option String}

def State.books (s : State V) : List (Alert V) :=
  s.settled.map Prod.fst ++ (s.queue.map Failed.alert ++ s.pc.outstanding.map Failed.alert)

/-- What a step takes in. -/
def arrives (s : State V) : Act V → List (Alert V)
  | .queueFailure payload => if s.pc.unlocked then [⟨s.calls, payload⟩] else []
  | _ => []

/-- To drop the oldest entry by hand and then to append is to append. -/
theorem queueFailedMessage_eq (queue : List (Failed V)) (alert : Alert V) :
    (queueFailedMessage queue alert).1 = append maxFailedQueueSize queue ⟨alert, 0⟩ := by
  unfold queueFailedMessage
  split
  · rename_i full
    cases queue with
    | nil => rfl
    | cons dropped rest =>
        rw [List.length_cons] at full
        have more : rest.length + 1 + 1 - maxFailedQueueSize =
            rest.length + 1 - maxFailedQueueSize + 1 := by omega
        simp only [append, List.length_cons, List.cons_append, more, List.drop_succ_cons]
  · rfl

theorem append_alerts (queue : List (Failed V)) (entry : Failed V) :
    ((append maxFailedQueueSize queue entry).map Failed.alert ++
      (droppedLeft maxFailedQueueSize queue entry).map Failed.alert).Perm
        (queue.map Failed.alert ++ [entry.alert]) := by
  have moved := (append_perm maxFailedQueueSize queue entry).map Failed.alert
  simpa only [List.map_append, List.map_singleton] using moved

theorem extendleft_alerts (queue batch : List (Failed V)) :
    ((extendleft maxFailedQueueSize queue batch.reverse).map Failed.alert ++
      (droppedRight maxFailedQueueSize queue batch).map Failed.alert).Perm
        (batch.map Failed.alert ++ queue.map Failed.alert) := by
  have moved := (extendleft_perm maxFailedQueueSize queue batch).map Failed.alert
  simpa only [List.map_append] using moved

section Balance

@[simp] theorem outstanding_looping (batch : List (Failed V)) :
    (Pc.looping batch).outstanding = batch := rfl

@[simp] theorem outstanding_exited (raised : Option Raised) :
    (Pc.exited raised : Pc V).outstanding = [] := rfl

theorem count_books [DecidableEq (Alert V)] (s : State V) (x : Alert V) : s.books.count x =
    (s.settled.map Prod.fst).count x +
      ((s.queue.map Failed.alert).count x + (s.pc.outstanding.map Failed.alert).count x) := by
  rw [State.books, List.count_append, List.count_append]

/-- A step that only moves on. -/
theorem books_go (s : State V) {pc : Pc V}
    (same : pc.outstanding.map Failed.alert = s.pc.outstanding.map Failed.alert) :
    (s.go pc).books.Perm s.books := by
  rw [State.books, State.books, State.go, same]

/-- A message that is settled. -/
theorem books_settle {s : State V} {entry : Failed V} {batch : List (Failed V)}
    (held : s.pc.outstanding = entry :: batch) (fate : Fate) :
    (s.settle entry fate batch).books.Perm s.books := by
  classical
  rw [List.perm_iff_count]
  intro x
  simp only [count_books, State.settle, held, outstanding_looping, List.map_cons, List.count_cons]
  omega

/-- A message that is queued again. -/
theorem books_requeue {s : State V} {entry : Failed V} {pc : Pc V}
    (held : s.pc.outstanding = entry :: pc.outstanding) :
    (({ s with queue := append maxFailedQueueSize s.queue (again entry), pc := pc } : State V).books ++
      (droppedLeft maxFailedQueueSize s.queue (again entry)).map Failed.alert).Perm s.books := by
  classical
  rw [List.perm_iff_count]
  intro x
  have moved := (append_alerts s.queue (again entry)).count_eq x
  simp only [List.count_append, count_books, held, List.map_cons, List.count_cons, List.count_nil,
    again] at moved ⊢
  omega

/-- The `extendleft` of the `finally`. -/
theorem books_cleanup {s : State V} {batch : List (Failed V)} (held : s.pc.outstanding = batch)
    (raised : Option Raised) :
    (({ s with queue := extendleft maxFailedQueueSize s.queue batch.reverse, pc := .exited raised } : State V).books ++
      (droppedRight maxFailedQueueSize s.queue batch).map Failed.alert).Perm s.books := by
  classical
  rw [List.perm_iff_count]
  intro x
  have moved := (extendleft_alerts s.queue batch).count_eq x
  simp only [List.count_append, count_books, held, outstanding_exited, List.map_nil,
    List.count_nil] at moved ⊢
  omega

/-- The message in hand is dropped. -/
theorem books_drop {s : State V} {entry : Failed V} {pc : Pc V}
    (held : s.pc.outstanding = entry :: pc.outstanding) :
    ((s.go pc).books ++ [entry.alert]).Perm s.books := by
  classical
  rw [List.perm_iff_count]
  intro x
  simp only [List.count_append, count_books, State.go, held, List.map_cons, List.count_cons,
    List.count_nil]
  omega

variable (queue : List (Failed V)) (pc : Pc V) (settled : List (Alert V × Fate)) (calls : Nat)

theorem balance_queueFailure (payload : Payload V) :
    ((step encode ⟨queue, pc, settled, calls⟩ (.queueFailure payload)).books ++
      lost ⟨queue, pc, settled, calls⟩ (.queueFailure payload)).Perm
        ((⟨queue, pc, settled, calls⟩ : State V).books ++ arrives ⟨queue, pc, settled, calls⟩ (.queueFailure payload)) := by
  classical
  rw [List.perm_iff_count]
  intro x
  by_cases free : pc.unlocked = true
  · have moved := (append_alerts queue ⟨⟨calls, payload⟩, 0⟩).count_eq x
    simp only [step, lost, arrives, free, if_true, count_books, queueFailedMessage_eq,
      List.count_append] at moved ⊢
    omega
  · simp [step, lost, arrives, free]

theorem balance_interrupt (kind : Raised) :
    ((interrupt ⟨queue, pc, settled, calls⟩ kind).books ++ (droppedBy kind pc).map Failed.alert).Perm
      (⟨queue, pc, settled, calls⟩ : State V).books := by
  classical
  rw [List.perm_iff_count]
  intro x
  cases pc <;> cases kind <;>
    simp only [interrupt, droppedBy, State.go, count_books, Pc.outstanding, List.map_cons,
      List.map_nil, List.count_append, List.count_cons, List.count_nil] <;> omega

theorem balance_proceed (client : Bool) (sent : Sent) :
    ((proceed encode ⟨queue, pc, settled, calls⟩ client sent).books ++
      lost ⟨queue, pc, settled, calls⟩ (.proceed client sent)).Perm (⟨queue, pc, settled, calls⟩ :
        State V).books := by
  have spared {after : List (Alert V)}
      (none : lost ⟨queue, pc, settled, calls⟩ (.proceed client sent) = [])
      (moved : after.Perm (⟨queue, pc, settled, calls⟩ : State V).books) :
      (after ++ lost ⟨queue, pc, settled, calls⟩ (.proceed client sent)).Perm
        (⟨queue, pc, settled, calls⟩ : State V).books := by
    rw [none, List.append_nil]
    exact moved
  cases pc with
  | entering =>
      refine spared rfl (books_go _ ?_)
      split <;> rfl
  | connecting =>
      refine spared rfl (books_go _ ?_)
      split <;> rfl
  | popping batch =>
      cases queue with
      | nil => exact spared rfl (books_go _ rfl)
      | cons entry rest =>
          simp only [proceed]
          split
          · refine spared rfl ?_
            rw [State.books, State.books]
            exact List.Perm.append_left _ List.perm_middle
          · exact spared rfl (books_go _ rfl)
  | popped entry batch =>
      refine spared rfl (List.Perm.append_left _ (List.Perm.append_left _ ?_))
      exact List.Perm.map _ (List.perm_append_singleton entry batch)
  | filled batch => exact spared rfl (books_go _ rfl)
  | looping batch =>
      cases batch with
      | nil => exact spared rfl (books_go _ rfl)
      | cons entry batch => exact spared rfl (books_go _ rfl)
  | inHand entry batch =>
      simp only [proceed]
      split
      · exact spared rfl (books_settle rfl .exhausted)
      · split
        · exact spared rfl (books_settle rfl .unencodable)
        · exact spared rfl (books_go _ rfl)
  | publishing entry batch =>
      cases sent with
      | rc code =>
          simp only [proceed]
          split
          · exact spared rfl (books_settle rfl .published)
          · exact spared rfl (books_go _ rfl)
      | raises kind =>
          cases kind with
          | exception => exact spared rfl (books_go _ rfl)
          | baseException => exact books_drop rfl
  | failed entry batch => exact books_requeue rfl
  | refused entry batch => exact books_requeue rfl
  | cleanup batch raised => exact books_cleanup rfl raised
  | exited raised => exact spared rfl (List.Perm.refl _)

end Balance

/-- **Every step balances.** -/
theorem balance (s : State V) (a : Act V) :
    ((step encode s a).books ++ lost s a).Perm (s.books ++ arrives s a) := by
  obtain ⟨queue, pc, settled, calls⟩ := s
  cases a with
  | proceed client sent =>
      exact (balance_proceed queue pc settled calls client sent).trans
        (List.Perm.of_eq (List.append_nil _).symm)
  | interrupt kind =>
      exact (balance_interrupt queue pc settled calls kind).trans
        (List.Perm.of_eq (List.append_nil _).symm)
  | queueFailure payload => exact balance_queueFailure queue pc settled calls payload

theorem calls_proceed (s : State V) (client : Bool) (sent : Sent) :
    (proceed encode s client sent).calls = s.calls := by
  simp only [proceed]
  repeat' split
  all_goals rfl

theorem calls_interrupt (s : State V) (kind : Raised) : (interrupt s kind).calls = s.calls := by
  simp only [interrupt]
  repeat' split
  all_goals rfl

theorem calls_step (s : State V) (a : Act V) :
    (step encode s a).calls = s.calls + (arrives s a).length := by
  cases a with
  | proceed client sent => exact calls_proceed s client sent
  | interrupt kind => exact calls_interrupt s kind
  | queueFailure payload =>
      simp only [step, arrives]
      split <;> rfl

theorem ticket_of_arrives {s : State V} {a : Act V} {alert : Alert V} (came : alert ∈ arrives s a) :
    alert.ticket = s.calls := by
  cases a with
  | proceed client sent => cases came
  | interrupt kind => cases came
  | queueFailure payload =>
      simp only [arrives] at came
      split at came
      · rw [List.mem_singleton.mp came]
      · cases came

theorem arrives_nodup (s : State V) (a : Act V) : (arrives s a).Nodup := by
  cases a with
  | proceed client sent => exact List.nodup_nil
  | interrupt kind => exact List.nodup_nil
  | queueFailure payload =>
      simp only [arrives]
      split
      · exact List.nodup_singleton _
      · exact List.nodup_nil

/-- Each message is in one place, and has the ticket of a call. -/
structure Sound (origin : List (Alert V)) (s : State V) : Prop where
  once : s.books.Nodup
  known : ∀ alert ∈ s.books, alert.ticket < s.calls
  origin : ∀ alert ∈ origin, alert.ticket < s.calls

theorem Sound.fresh {origin : List (Alert V)} {s : State V} (sound : Sound origin s) (a : Act V) :
    (s.books ++ arrives s a).Nodup := by
  refine sound.once.append (arrives_nodup s a) fun alert here came => ?_
  have before := sound.known alert here
  rw [ticket_of_arrives came] at before
  exact Nat.lt_irrefl _ before

/-- The books of `_retry_failed_messages`. -/
theorem accounts (encode : Payload V → Option String) (origin : List (Alert V)) :
    Accounts (step encode) State.books arrives lost origin (Sound origin) where
  inv s a sound := by
    have moved : ((step encode s a).books ++ lost s a).Perm (s.books ++ arrives s a) := balance s a
    have calls : (step encode s a).calls = s.calls + (arrives s a).length := calls_step s a
    refine ⟨(List.nodup_append'.mp (moved.nodup_iff.mpr (sound.fresh a))).1, fun alert here => ?_,
      fun alert among => ?_⟩
    · rcases List.mem_append.mp (moved.mem_iff.mp (List.mem_append_left _ here)) with before | came
      · have := sound.known alert before
        omega
      · have := ticket_of_arrives came
        have := List.length_pos_of_mem came
        omega
    · have := sound.origin alert among
      omega
  balance := balance
  fresh _ a sound := sound.fresh a
  foreign s a sound alert came among := by
    have before := sound.origin alert among
    rw [ticket_of_arrives came] at before
    exact Nat.lt_irrefl _ before

end Books

/-! ## Whole calls -/

section Calls

variable {V : Type} {encode : Payload V → Option String}

/-- `_retry_failed_messages` is called; the messages on the queue are of different calls of
`publish_alert`. -/
structure Start (s : State V) : Prop where
  pc : s.pc = .entering
  settled : s.settled = []
  distinct : (s.queue.map Failed.alert).Nodup
  known : ∀ e ∈ s.queue, e.alert.ticket < s.calls

/-- Every message that was queued is settled or still queued. -/
def Kept (s final : State V) : Prop :=
  ∀ e ∈ s.queue, e.alert ∈ final.settled.map Prod.fst ∨ e.alert ∈ final.queue.map Failed.alert

instance [DecidableEq V] (s final : State V) : Decidable (Kept s final) :=
  inferInstanceAs (Decidable (∀ e ∈ s.queue, _ ∨ _))

/-- The step drops none of the messages that were queued in `s`. -/
def Careful (s now : State V) (a : Act V) : Prop :=
  ∀ alert ∈ lost now a, alert ∉ s.queue.map Failed.alert

/-- **No message is lost** over a call iff no step of the call drops one: whatever is queued
meanwhile, and wherever exceptions are delivered. -/
theorem kept_at_exit_iff {s : State V} (starts : Start s) (actions : List (Act V))
    {raised : Option Raised} (exits : (actions.foldl (step encode) s).pc = .exited raised) :
    Kept s (actions.foldl (step encode) s) ↔
      ∀ taken a, taken ++ [a] <+: actions → Careful s (taken.foldl (step encode) s) a := by
  have books : s.books = s.queue.map Failed.alert := by
    rw [State.books, starts.settled, starts.pc]
    exact List.append_nil _
  have sound : Sound (s.queue.map Failed.alert) s := by
    have known : ∀ alert ∈ s.queue.map Failed.alert, alert.ticket < s.calls := by
      intro alert member
      obtain ⟨e, queued, rfl⟩ := List.mem_map.mp member
      exact starts.known e queued
    exact ⟨books ▸ starts.distinct, books ▸ known, known⟩
  have rule := (accounts encode (s.queue.map Failed.alert)).kept_iff sound
    (fun alert member => books.symm ▸ member) actions
  refine Iff.trans ?_ rule
  have atExit : ∀ alert, alert ∈ (actions.foldl (step encode) s).books ↔
      alert ∈ (actions.foldl (step encode) s).settled.map Prod.fst ∨
        alert ∈ (actions.foldl (step encode) s).queue.map Failed.alert := by
    intro alert
    rw [State.books, exits, List.mem_append]
    exact or_congr_right (by rw [Pc.outstanding, List.map_nil, List.append_nil])
  constructor
  · intro kept alert member
    obtain ⟨e, queued, rfl⟩ := List.mem_map.mp member
    exact (atExit _).mpr (kept e queued)
  · intro kept e queued
    exact (atExit _).mp (kept (List.mem_map_of_mem queued))

/-- The queue with these entries, as the function is called. -/
def calledOn (queue : List (Failed V)) (calls : Nat) : State V := ⟨queue, .entering, [], calls⟩

/-- Ten failed alerts. -/
def ten : State Nat := calledOn ((List.range 10).map fun n => ⟨⟨n, ⟨n, 160, 3, 2, 0⟩⟩, 0⟩) 10

theorem start_ten : Start ten where
  pc := rfl
  settled := rfl
  distinct := by decide
  known := by decide

def next : Act Nat := .proceed true (.rc 0)

/-- The soft time limit strikes after the batch was popped and before the `try`: all ten
alerts are gone, none of them published. -/
theorem interrupted_batch_lost :
    let final :=
  (List.replicate 23 next ++ [Act.interrupt .exception]).foldl (step fun _ => some "") ten
    final.pc = .exited (some .exception) ∧ final.queue = [] ∧ final.settled = [] ∧
      ¬ Kept ten final := by
  decide +kernel

/-- Three alerts are published, the fourth publish raises: the other seven are queued. -/
theorem kept_at_exit_turns :
    let actions := List.replicate 35 next ++ [.proceed true (.raises .exception), next, next]
    let final := actions.foldl (step fun _ => some "") ten
    final.queue.length = 7 ∧ Kept ten final ∧
      ∀ taken a, taken ++ [a] <+: actions →
        Careful ten (taken.foldl (step fun _ => some "") ten) a := by
  intro actions final
  have kept : Kept ten final := by decide +kernel
  have exits : final.pc = .exited (some .exception) := by decide +kernel
  exact ⟨by decide +kernel, kept, (kept_at_exit_iff start_ten actions exits).mp kept⟩

end Calls

end Empyrean.Mqtt.RetryInterrupted
