/-
# Empyrean.Mqtt.Publisher — the alert publisher and its retry queue

`publish_alert` of `mqtt/publisher.py` publishes an alert or puts it on a bounded queue;
a call that published retries a batch of queued alerts afterwards.  A run is a sequence of
calls, each in a world of its own: whether there is a client, whether it is connected, and
what its publishes return.

* `publishAlert` — one call: the queue it leaves and the events it logs.
* `Ledger` — the log and the entries in hand: each alert is in one of them, once, with as
  many failed retries behind it as its entry says.  One rule for each thing that can
  happen to an entry.
* `accounted_of_reach` — bounds and custody of the alerts, for every run.

`json.dumps` is the parameter `encode`.
-/
import Mathlib.Data.List.Nodup
import Mathlib.Data.List.Perm.Basic
import Empyrean.Theory.BoundedDeque
import Empyrean.Theory.Runs

namespace Empyrean.Mqtt.Publisher

set_option autoImplicit false

open Empyrean.Theory.Runs Empyrean.Theory.BoundedDeque

/-! ## The data -/

structure Payload (V : Type) where
  nodeId : V
  aqi : V
  category : V
  severity : V
  timestamp : V
deriving DecidableEq

/-- A call's payload; `ticket` counts the calls. -/
structure Alert (V : Type) where
  ticket : Nat
  payload : Payload V
deriving DecidableEq

/-- An entry of `_failed_queue`. -/
structure Failed (V : Type) where
  alert : Alert V
  attempt : Nat
deriving DecidableEq

/-- What `client.publish` does. -/
inductive Outcome
  | rc (code : Int)
  | raises
deriving DecidableEq

def maxRetryAttempts : Nat := 5

def retryBatchSize : Nat := 10

def maxFailedQueueSize : Nat := 100

/-- What a call meets: `_get_client()` with `is_connected()`, the direct publish, the
client of the retry, and its publishes in order. -/
structure World where
  client : Option Bool
  publishRc : Int
  retryClient : Bool
  retryPublish : Nat → Outcome

inductive Event (V : Type)
  /-- A publish of the call's own alert. -/
  | direct (alert : Alert V) (encoded : String) (rc : Int)
  /-- A publish of a queued alert. -/
  | retry (alert : Alert V) (encoded : String) (outcome : Outcome)
  /-- "Alert payload not JSON-serializable — dropped" -/
  | unencodable (alert : Alert V)
  /-- "Max retry attempts reached" -/
  | exhausted (alert : Alert V)
  /-- "Failed message queue full — dropping oldest alert" -/
  | evicted (alert : Alert V)
deriving DecidableEq

/-! ## The functions -/

section Model

variable {V : Type} (encode : Payload V → Option String)

/-- `_queue_failed_message` -/
def queueFailedMessage (queue : List (Failed V)) (alert : Alert V) :
    List (Failed V) × List (Event V) :=
  if queue.length ≥ maxFailedQueueSize then
    match queue with
    | dropped :: rest => (append maxFailedQueueSize rest ⟨alert, 0⟩, [.evicted dropped.alert])
    | [] => (append maxFailedQueueSize [] ⟨alert, 0⟩, [])
  else (append maxFailedQueueSize queue ⟨alert, 0⟩, [])

/-- The loop of `_retry_failed_messages` over the popped batch; `n` publishes were made.
Where a publish raises, the `finally` puts the rest of the batch back. -/
def retryBatch (outcomes : Nat → Outcome) : Nat → List (Failed V) → List (Failed V) →
    List (Failed V) × List (Event V)
  | _, [], queue => (queue, [])
  | n, entry :: batch, queue =>
      if entry.attempt ≥ maxRetryAttempts then
        let (left, events) := retryBatch outcomes n batch queue
        (left, .exhausted entry.alert :: events)
      else
        match encode entry.alert.payload with
        | none =>
            let (left, events) := retryBatch outcomes n batch queue
            (left, .unencodable entry.alert :: events)
        | some encoded =>
            match outcomes n with
            | .raises =>
                (extendleft maxFailedQueueSize
                    (append maxFailedQueueSize queue ⟨entry.alert, entry.attempt + 1⟩) batch.reverse,
                  [.retry entry.alert encoded .raises])
            | .rc code =>
                let requeued :=
                  if code = 0 then queue
                  else append maxFailedQueueSize queue ⟨entry.alert, entry.attempt + 1⟩
                let (left, events) := retryBatch outcomes (n + 1) batch requeued
                (left, .retry entry.alert encoded (.rc code) :: events)

/-- `_retry_failed_messages` -/
def retryFailedMessages (world : World) (queue : List (Failed V)) :
    List (Failed V) × List (Event V) :=
  if queue.isEmpty then (queue, [])
  else if !world.retryClient then (queue, [])
  else retryBatch encode world.retryPublish 0 (queue.take retryBatchSize)
    (queue.drop retryBatchSize)

/-- `publish_alert` -/
def publishAlert (world : World) (queue : List (Failed V)) (alert : Alert V) :
    List (Failed V) × List (Event V) :=
  match world.client with
  | none => queueFailedMessage queue alert
  | some false => queueFailedMessage queue alert
  | some true =>
      match encode alert.payload with
      | none => (queue, [.unencodable alert])
      | some encoded =>
          if world.publishRc ≠ 0 then
            let (left, events) := queueFailedMessage queue alert
            (left, .direct alert encoded world.publishRc :: events)
          else
            let (left, events) := retryFailedMessages encode world queue
            (left, .direct alert encoded 0 :: events)

/-! ## Runs -/

/-- The process: its queue, the number of calls so far, and what each call logged, the
newest call first. -/
structure State (V : Type) where
  failedQueue : List (Failed V)
  calls : Nat
  log : List (List (Event V))
deriving DecidableEq

def start (V : Type) : State V := ⟨[], 0, []⟩

def Started (s : State V) : Prop := s = start V

/-- One call of `publish_alert`. -/
def step (s : State V) (call : Payload V × World) : Option (State V) :=
  let (left, events) := publishAlert encode call.2 s.failedQueue ⟨s.calls, call.1⟩
  some ⟨left, s.calls + 1, events :: s.log⟩

end Model

/-! ## Where an alert is -/

inductive Place
  | published
  | queued
  | unencodable
  | exhausted
  | evicted
deriving DecidableEq

section Ledger

variable {V : Type}

def Event.publishes : Event V → Bool
  | .direct _ _ rc => rc = 0
  | .retry _ _ outcome => outcome = .rc 0
  | _ => false

def Event.ticket : Event V → Nat
  | .direct alert _ _ | .retry alert _ _ | .unencodable alert | .exhausted alert | .evicted alert =>
    alert.ticket

/-- The event is a publish attempt. -/
def Event.attempts : Event V → Bool
  | .direct _ _ _ | .retry _ _ _ => true
  | _ => false

/-- The place an event leaves its alert at for good. -/
def Event.fate (event : Event V) : Option (Nat × Place) :=
  match event with
  | .unencodable alert => some (alert.ticket, .unencodable)
  | .exhausted alert => some (alert.ticket, .exhausted)
  | .evicted alert => some (alert.ticket, .evicted)
  | _ => if event.publishes then some (event.ticket, .published) else none

/-- A retry that did not publish. -/
def Event.failure : Event V → Option Nat
  | .retry alert _ outcome => if outcome = .rc 0 then none else some alert.ticket
  | _ => none

/-- The failed retries of an alert. -/
def failures (history : List (Event V)) (ticket : Nat) : Nat :=
  (history.filterMap Event.failure).count ticket

/-- The books of a process after `calls` calls: what its log and the entries in hand say of
each alert. -/
structure Ledger (history : List (Event V)) (entries : List (Failed V)) (calls : Nat) : Prop where
  custody :
    ((history.filterMap Event.fate).map Prod.fst ++ entries.map fun e => e.alert.ticket).Perm
      (List.range calls)
  attempts : ∀ e ∈ entries, e.attempt ≤ maxRetryAttempts ∧
    failures history e.alert.ticket = e.attempt
  exhausted : ∀ alert, .exhausted alert ∈ history → failures history alert.ticket = maxRetryAttempts
  fresh : ∀ ticket, calls ≤ ticket → failures history ticket = 0

variable {history history' : List (Event V)} {entries entries' rest : List (Failed V)} {calls : Nat}
    {entry : Failed V}
  {event : Event V}

theorem Ledger.congr (ledger : Ledger history entries calls) (same : history.Perm history')
    (same' : entries.Perm entries') : Ledger history' entries' calls := by
  have failed : ∀ ticket, failures history' ticket = failures history ticket :=
    fun ticket => ((same.filterMap _).count_eq ticket).symm
  refine ⟨?_, ?_, ?_, ?_⟩
  · exact (((same.filterMap _).map _).append (same'.map _)).symm.trans ledger.custody
  · intro e member
    rw [failed]
    exact ledger.attempts e (same'.mem_iff.mpr member)
  · intro alert member
    rw [failed]
    exact ledger.exhausted alert (same.mem_iff.mpr member)
  · intro ticket later
    rw [failed]
    exact ledger.fresh ticket later

theorem Ledger.nodup (ledger : Ledger history entries calls) :
    ((history.filterMap Event.fate).map Prod.fst ++ entries.map fun e => e.alert.ticket).Nodup :=
  ledger.custody.nodup_iff.mpr List.nodup_range

/-- The alert of a new call. -/
theorem Ledger.enters (ledger : Ledger history entries calls) (payload : Payload V) :
    Ledger history (⟨⟨calls, payload⟩, 0⟩ :: entries) (calls + 1) := by
  refine ⟨?_, ?_, ledger.exhausted, fun ticket later => ledger.fresh ticket (by omega)⟩
  · rw [List.range_succ, List.map_cons]
    exact (List.perm_middle.trans (ledger.custody.cons calls)).trans
      (List.perm_append_singleton _ _).symm
  · intro e member
    rcases List.mem_cons.mp member with rfl | earlier
    · exact ⟨Nat.zero_le _, ledger.fresh calls (Nat.le_refl _)⟩
    · exact ledger.attempts e earlier

/-- An event that neither decides nor counts. -/
theorem Ledger.notes (ledger : Ledger history entries calls) (open_ : event.fate = none)
    (counts : event.failure = none) : Ledger (event :: history) entries calls := by
  have failed : ∀ ticket, failures (event :: history) ticket = failures history ticket := by
    intro ticket
    rw [failures, List.filterMap_cons_none counts, failures]
  refine ⟨?_, ?_, ?_, ?_⟩
  · rw [List.filterMap_cons_none open_]
    exact ledger.custody
  · intro e member
    rw [failed]
    exact ledger.attempts e member
  · intro alert member
    rw [failed]
    rcases List.mem_cons.mp member with rfl | earlier
    · cases open_
    · exact ledger.exhausted alert earlier
  · intro ticket later
    rw [failed]
    exact ledger.fresh ticket later

/-- An entry leaves for the place its event names. -/
theorem Ledger.leaves {place : Place} (ledger : Ledger history (entry :: rest) calls)
    (decided : event.fate = some (entry.alert.ticket, place)) (counts : event.failure = none)
    (spent : ∀ alert, event = .exhausted alert → entry.attempt = maxRetryAttempts) :
    Ledger (event :: history) rest calls := by
  have failed : ∀ ticket, failures (event :: history) ticket = failures history ticket := by
    intro ticket
    rw [failures, List.filterMap_cons_none counts, failures]
  refine ⟨?_, ?_, ?_, ?_⟩
  · rw [List.filterMap_cons_some decided, List.map_cons, List.cons_append]
    exact (List.perm_middle.symm.trans (by rw [List.map_cons])).trans ledger.custody
  · intro e member
    rw [failed]
    exact ledger.attempts e (List.mem_cons_of_mem _ member)
  · intro alert member
    rw [failed]
    rcases List.mem_cons.mp member with rfl | earlier
    · have same : alert.ticket = entry.alert.ticket := congrArg Prod.fst (Option.some.inj decided)
      rw [same, (ledger.attempts entry List.mem_cons_self).2]
      exact spent alert rfl
    · exact ledger.exhausted alert earlier
  · intro ticket later
    rw [failed]
    exact ledger.fresh ticket later

/-- A retry of an entry fails. -/
theorem Ledger.fails (ledger : Ledger history (entry :: rest) calls) (open_ : event.fate = none)
    (counts : event.failure = some entry.alert.ticket) (left : entry.attempt < maxRetryAttempts) :
    Ledger (event :: history) (⟨entry.alert, entry.attempt + 1⟩ :: rest) calls := by
  have failed : ∀ ticket, failures (event :: history) ticket =
      failures history ticket + if entry.alert.ticket = ticket then 1 else 0 := by
    intro ticket
    rw [failures, List.filterMap_cons_some counts, List.count_cons, failures]
    simp only [beq_iff_eq]
  have unique := ledger.nodup
  rw [List.map_cons, List.nodup_middle, List.nodup_cons, List.mem_append, not_or] at unique
  obtain ⟨⟨undecided, single⟩, _⟩ := unique
  refine ⟨?_, ?_, ?_, ?_⟩
  · rw [List.filterMap_cons_none open_]
    exact ledger.custody
  · intro e member
    rw [failed]
    rcases List.mem_cons.mp member with rfl | other
    · have before := (ledger.attempts entry List.mem_cons_self).2
      rw [if_pos rfl, before]
      exact ⟨left, rfl⟩
    · have apart : entry.alert.ticket ≠ e.alert.ticket :=
        fun same => single (same ▸ List.mem_map_of_mem other)
      rw [if_neg apart]
      exact ledger.attempts e (List.mem_cons_of_mem _ other)
  · intro alert member
    rcases List.mem_cons.mp member with rfl | earlier
    · cases open_
    · have apart : entry.alert.ticket ≠ alert.ticket := by
        intro same
        refine undecided (List.mem_map.mpr ⟨(alert.ticket, .exhausted), ?_, same.symm⟩)
        exact List.mem_filterMap.mpr ⟨_, earlier, rfl⟩
      rw [failed, if_neg apart]
      exact ledger.exhausted alert earlier
  · intro ticket later
    have known : entry.alert.ticket < calls :=
      List.mem_range.mp (ledger.custody.mem_iff.mp (by simp))
    rw [failed, if_neg (by omega)]
    exact ledger.fresh ticket later

end Ledger

/-! ## The functions keep the books -/

section Specs

variable {V : Type} (encode : Payload V → Option String) {history : List (Event V)} {calls : Nat}

/-- The publish attempts among some events. -/
def attempted (events : List (Event V)) : Nat := events.countP Event.attempts

theorem queueFailedMessage_spec {queue : List (Failed V)} {alert : Alert V}
    (bounded : queue.length ≤ maxFailedQueueSize)
    (ledger : Ledger history (⟨alert, 0⟩ :: queue) calls) :
    Ledger ((queueFailedMessage queue alert).2 ++ history)
      (queueFailedMessage queue alert).1 calls ∧
      (queueFailedMessage queue alert).1.length ≤ maxFailedQueueSize ∧
      attempted (queueFailedMessage queue alert).2 = 0 ∧
      ∀ lost, .evicted lost ∈ (queueFailedMessage queue alert).2 →
        queue.length = maxFailedQueueSize ∧ queue.head?.map Failed.alert = some lost := by
  unfold queueFailedMessage
  split
  · rename_i full
    cases queue with
    | nil => cases full
    | cons dropped rest =>
        rw [List.length_cons] at full bounded
        have room : rest.length < maxFailedQueueSize := by omega
        simp only [append_of_room room]
        refine ⟨?_, by simp; omega, rfl, ?_⟩
        · have front : Ledger history (dropped :: (rest ++ [⟨alert, 0⟩])) calls :=
            ledger.congr (List.Perm.refl _)
              ((List.Perm.swap dropped _ rest).trans ((List.perm_append_singleton _ rest).symm.cons dropped))
          exact front.leaves rfl rfl fun _ other => by cases other
        · intro lost member
          cases List.mem_singleton.mp member
          exact ⟨by rw [List.length_cons]; omega, rfl⟩
  · rename_i space
    have room : queue.length < maxFailedQueueSize := by omega
    simp only [append_of_room room]
    refine ⟨ledger.congr (List.Perm.refl _) (List.perm_append_singleton _ queue).symm,
      by simp; omega, rfl, ?_⟩
    intro lost member
    cases member

/-- The batch in hand and the queue together: what is popped is published, dropped, or
queued again, at whichever end. -/
theorem retryBatch_spec (outcomes : Nat → Outcome) : ∀ (batch queue : List (Failed V)) (n : Nat)
    (history : List (Event V)), batch.length + queue.length ≤ maxFailedQueueSize →
    Ledger history (batch ++ queue) calls →
    Ledger ((retryBatch encode outcomes n batch queue).2 ++ history)
      (retryBatch encode outcomes n batch queue).1 calls ∧
      (retryBatch encode outcomes n batch queue).1.length ≤ batch.length + queue.length ∧
      attempted (retryBatch encode outcomes n batch queue).2 ≤ batch.length ∧
      ∀ lost, .evicted lost ∉ (retryBatch encode outcomes n batch queue).2 := by
  intro batch
  induction batch with
  | nil =>
      intro queue n history _ ledger
      exact ⟨ledger, by simp [retryBatch], Nat.le_refl _, fun lost member => by cases member⟩
  | cons entry batch ih =>
      intro queue n history bounded ledger
      rw [List.length_cons] at bounded ⊢
      have room : queue.length < maxFailedQueueSize := by omega
      -- the rest of the batch, after an event for the entry in hand
      have later (m : Nat) (event : Event V) (queue' : List (Failed V))
          (fits : queue'.length ≤
            queue.length + 1) (after : Ledger (event :: history) (batch ++ queue') calls)
          (kept : ∀ lost, event ≠ .evicted lost) :
          Ledger ((event :: (retryBatch encode outcomes m batch queue').2) ++ history)
              (retryBatch encode outcomes m batch queue').1 calls ∧
            (retryBatch encode outcomes m batch queue').1.length ≤ batch.length + 1 + queue.length ∧
            attempted (event :: (retryBatch encode outcomes m batch queue').2) ≤ batch.length + 1 ∧
            ∀ lost, .evicted lost ∉ event :: (retryBatch encode outcomes m batch queue').2 := by
        obtain ⟨keeps, length, tries, calm⟩ := ih queue' m (event :: history) (by omega) after
        refine ⟨keeps.congr List.perm_middle (List.Perm.refl _), by omega, ?_, ?_⟩
        · have one : attempted (event :: (retryBatch encode outcomes m batch queue').2) ≤
              attempted (retryBatch encode outcomes m batch queue').2 + 1 := by
            unfold attempted
            rw [List.countP_cons]
            split <;> omega
          omega
        · intro lost member
          rcases List.mem_cons.mp member with here | there
          · exact kept lost here.symm
          · exact calm lost there
      have again : (⟨entry.alert, entry.attempt + 1⟩ :: (batch ++ queue)).Perm
          (batch ++ (queue ++ [⟨entry.alert, entry.attempt + 1⟩])) := by
        rw [← List.append_assoc]
        exact (List.perm_append_singleton _ _).symm
      rw [retryBatch]
      split
      · rename_i spent
        have last : entry.attempt = maxRetryAttempts :=
          Nat.le_antisymm (ledger.attempts entry (by simp)).1 spent
        exact later n (.exhausted entry.alert) queue (by omega)
          (ledger.leaves rfl rfl fun _ _ => last) (fun _ other => by cases other)
      · rename_i unspent
        split
        · exact later n (.unencodable entry.alert) queue (by omega)
            (ledger.leaves rfl rfl fun _ other => by cases other) (fun _ other => by cases other)
        · rename_i encoded _
          split
          · -- the publish raises: the entry goes to the right end, the rest of the batch to the left
            have space : batch.length +
                (queue ++ [⟨entry.alert, entry.attempt + 1⟩] : List (Failed V)).length ≤
                maxFailedQueueSize := by
              rw [List.length_append, List.length_singleton]
              omega
            rw [append_of_room room, extendleft_of_room batch space]
            refine ⟨(ledger.fails rfl rfl (by omega)).congr (List.Perm.refl _) again,
              by simp; omega, ?_, ?_⟩
            · show 1 ≤ batch.length + 1
              omega
            · intro lost member
              cases List.mem_singleton.mp member
          · rename_i code _
            by_cases sent : code = 0
            · subst sent
              exact later (n + 1) (.retry entry.alert encoded (.rc 0)) queue (by omega)
                (ledger.leaves rfl rfl fun _ other => by cases other) (fun _ other => by
                  cases other)
            · have open_ : (Event.retry entry.alert encoded (.rc code)).fate = none := by
                simp [Event.fate, Event.publishes, sent]
              have counts : (Event.retry entry.alert encoded (.rc code)).failure =
                  some entry.alert.ticket := by
                simp [Event.failure, sent]
              simp only [if_neg sent, append_of_room room]
              exact later (n + 1) (.retry entry.alert encoded (.rc code)) _ (by simp)
                ((ledger.fails open_ counts (by omega)).congr (List.Perm.refl _) again)
                  (fun _ other => by cases other)

theorem retryFailedMessages_spec (world : World) {queue : List (Failed V)}
    (bounded : queue.length ≤ maxFailedQueueSize) (ledger : Ledger history queue calls) :
    Ledger ((retryFailedMessages encode world queue).2 ++ history)
      (retryFailedMessages encode world queue).1 calls ∧
      (retryFailedMessages encode world queue).1.length ≤ maxFailedQueueSize ∧
      attempted (retryFailedMessages encode world queue).2 ≤ retryBatchSize ∧
      ∀ lost, .evicted lost ∉ (retryFailedMessages encode world queue).2 := by
  unfold retryFailedMessages
  split
  · exact ⟨ledger, bounded, Nat.zero_le _, fun lost member => by cases member⟩
  split
  · exact ⟨ledger, bounded, Nat.zero_le _, fun lost member => by cases member⟩
  · have whole : (queue.take retryBatchSize).length + (queue.drop retryBatchSize).length =
        queue.length := by
      rw [← List.length_append, List.take_append_drop]
    have split_ledger :
        Ledger history (queue.take retryBatchSize ++ queue.drop retryBatchSize) calls :=
      (List.take_append_drop retryBatchSize queue).symm ▸ ledger
    obtain ⟨keeps, length, tries, calm⟩ :=
      retryBatch_spec encode world.retryPublish _ _ 0 history (by omega) split_ledger
    exact ⟨keeps, by omega, Nat.le_trans tries (List.length_take_le _ _), calm⟩

/-- One call: its own alert enters, and is then where its events say. -/
theorem publishAlert_spec (world : World) (payload : Payload V) {queue : List (Failed V)}
    (bounded : queue.length ≤ maxFailedQueueSize) (ledger : Ledger history queue calls) :
    Ledger ((publishAlert encode world queue ⟨calls, payload⟩).2 ++ history)
        (publishAlert encode world queue ⟨calls, payload⟩).1 (calls + 1) ∧
      (publishAlert encode world queue ⟨calls, payload⟩).1.length ≤ maxFailedQueueSize ∧
      attempted (publishAlert encode world queue ⟨calls, payload⟩).2 ≤ 1 + retryBatchSize ∧
      ∀ lost, .evicted lost ∈ (publishAlert encode world queue ⟨calls, payload⟩).2 →
        queue.length = maxFailedQueueSize ∧ queue.head?.map Failed.alert = some lost := by
  have entered := ledger.enters payload
  have queued := queueFailedMessage_spec bounded entered
  unfold publishAlert
  split
  · exact ⟨queued.1, queued.2.1, by rw [queued.2.2.1]; omega, queued.2.2.2⟩
  · exact ⟨queued.1, queued.2.1, by rw [queued.2.2.1]; omega, queued.2.2.2⟩
  · split
    · refine ⟨entered.leaves rfl rfl (fun _ other => by cases other), bounded,
        by simp [attempted, Event.attempts], ?_⟩
      intro lost member
      cases List.mem_singleton.mp member
    · rename_i encoded _
      split
      · rename_i refused
        -- the failed direct publish is noted, then the alert is queued
        have noted :
            Ledger (.direct ⟨calls, payload⟩ encoded world.publishRc :: history) _ (calls + 1) :=
          entered.notes (by simp [Event.fate, Event.publishes, refused]) rfl
        obtain ⟨keeps, length, tries, evicts⟩ := queueFailedMessage_spec bounded noted
        refine ⟨keeps.congr List.perm_middle (List.Perm.refl _), length, ?_, ?_⟩
        · show attempted (_ :: _) ≤ _
          rw [attempted, List.countP_cons_of_pos rfl, ← attempted, tries]
          omega
        · intro lost member
          rcases List.mem_cons.mp member with other | here
          · cases other
          · exact evicts lost here
      · have sent : Ledger (.direct ⟨calls, payload⟩ encoded 0 :: history) queue (calls + 1) :=
          entered.leaves rfl rfl fun _ other => by cases other
        obtain ⟨keeps, length, tries, calm⟩ := retryFailedMessages_spec encode world bounded sent
        refine ⟨keeps.congr List.perm_middle (List.Perm.refl _), length, ?_, ?_⟩
        · show attempted (_ :: _) ≤ _
          rw [attempted, List.countP_cons_of_pos rfl, ← attempted]
          omega
        · intro lost member
          rcases List.mem_cons.mp member with other | here
          · cases other
          · exact absurd here (calm lost)

end Specs

/-! ## Every run -/

section Runs

variable {V : Type} {encode : Payload V → Option String} {s : State V}

def State.history (s : State V) : List (Event V) := s.log.flatten

/-- What the log and the queue say of an alert. -/
def State.places (s : State V) (ticket : Nat) : List Place :=
  ((s.history.filterMap Event.fate ++ s.failedQueue.map fun e => (e.alert.ticket, Place.queued)).filter
    fun entry => decide (entry.1 = ticket)).map Prod.snd

/-- How often an alert was published. -/
def State.published (s : State V) (ticket : Nat) : Nat :=
  s.history.countP fun event => event.publishes && decide (event.ticket = ticket)

structure Inv (s : State V) : Prop where
  ledger : Ledger s.history s.failedQueue s.calls
  bounded : s.failedQueue.length ≤ maxFailedQueueSize
  calls : ∀ events ∈ s.log, attempted events ≤ 1 + retryBatchSize

theorem inv_start : Inv (start V) :=
  ⟨⟨List.Perm.refl _, by simp [start], by simp [start, State.history], fun _ _ => rfl⟩,
    Nat.zero_le _, by simp [start]⟩

theorem inv_step {s' : State V} {call : Payload V × World} (inv : Inv s)
    (stepped : step encode s call = some s') : Inv s' := by
  obtain ⟨keeps, length, tries, _⟩ := publishAlert_spec encode call.2 call.1 inv.bounded inv.ledger
  cases Option.some.inj stepped
  refine ⟨keeps, length, ?_⟩
  intro events member
  rcases List.mem_cons.mp member with rfl | earlier
  · exact tries
  · exact inv.calls events earlier

theorem inv_of_reach (reached : Reach (step encode) Always Started s) : Inv s :=
  reached.invariant (fun _ (starts : _ = _) => starts ▸ inv_start) fun _ _ _ inv _ stepped =>
    inv_step inv stepped

/-- Each alert passed in is at one place. -/
theorem Inv.one_place (inv : Inv s) {ticket : Nat} (passed : ticket < s.calls) :
    ∃ place, s.places ticket = [place] := by
  have once :=
    List.count_eq_one_of_mem (List.nodup_range (n := s.calls)) (List.mem_range.mpr passed)
  rw [← inv.ledger.custody.count_eq] at once
  apply List.length_eq_one_iff.mp
  rw [State.places, List.length_map, ← List.countP_eq_length_filter, ← once, List.count,
    List.countP_append, List.countP_append, List.countP_map, List.countP_map, List.countP_map]
  rfl

theorem Inv.published_le_one (inv : Inv s) (ticket : Nat) : s.published ticket ≤ 1 := by
  have once := List.nodup_iff_count_le_one.mp inv.ledger.nodup ticket
  rw [List.count_append] at once
  refine Nat.le_trans ?_ (Nat.le_trans (Nat.le_add_right _ _) once)
  rw [State.published, List.count, List.countP_map, List.countP_filterMap]
  refine List.countP_mono_left fun event _ holds => ?_
  obtain ⟨publishes, same⟩ := Bool.and_eq_true_iff.mp holds
  have fate : event.fate = some (event.ticket, .published) := by
    cases event <;> simp_all [Event.fate, Event.publishes]
  simpa [fate] using same

/-- **Every run**: the queue is bounded and its attempt counts are those of the failed
retries; a call makes at most 1 + 10 publish attempts; an alert is published at most once,
and is at exactly one place.  Dropped for good are alerts with five failed retries, and
the oldest entries of full queues. -/
theorem accounted_of_reach (reached : Reach (step encode) Always Started s) :
    (s.failedQueue.length ≤ 100 ∧
        ∀ e ∈ s.failedQueue, e.attempt ≤ 5 ∧ failures s.history e.alert.ticket = e.attempt) ∧
      (∀ events ∈ s.log, attempted events ≤ 1 + 10) ∧
      (∀ ticket, s.published ticket ≤ 1) ∧
      (∀ ticket, ticket < s.calls → ∃ place, s.places ticket = [place]) ∧
      (∀ alert, .exhausted alert ∈ s.history → failures s.history alert.ticket = 5) ∧
      ∀ (world : World) (payload : Payload V) (lost : Alert V),
        .evicted lost ∈ (publishAlert encode world s.failedQueue ⟨s.calls, payload⟩).2 →
          s.failedQueue.length = 100 ∧ s.failedQueue.head?.map Failed.alert = some lost := by
  have inv := inv_of_reach reached
  exact ⟨⟨inv.bounded, inv.ledger.attempts⟩, inv.calls, inv.published_le_one,
    fun _ passed => inv.one_place passed, inv.ledger.exhausted, fun world payload =>
      (publishAlert_spec encode world payload inv.bounded inv.ledger).2.2.2⟩

/-- Two calls without a connection, then one that publishes; of its two retries the first
is refused. -/
theorem accounted_of_reach_outage :
    ∃ s : State Nat, Reach (step fun _ => some "") Always Started s ∧
      s.failedQueue.map (fun e => (e.alert.ticket, e.attempt)) = [(0, 1)] ∧
        s.places 1 = [.published] ∧
      ∀ ticket, ticket < 3 → ∃ place, s.places ticket = [place] := by
  let down : World := ⟨some false, 0, false, fun _ => .raises⟩
  let up : World := ⟨some true, 0, true, fun n => .rc (if n = 0 then 4 else 0)⟩
  let alert : Payload Nat := ⟨7, 160, 3, 2, 0⟩
  have begins : Started (start Nat) := rfl
  obtain ⟨s, reached, holds⟩ := exists_reach_of_run (step fun _ => some "") Always begins
    [(alert, down), (alert, down), (alert, up)]
    (fun s => s.calls = 3 ∧ s.failedQueue.map (fun e => (e.alert.ticket, e.attempt)) = [(0, 1)] ∧
      s.places 1 = [.published]) (by decide)
  obtain ⟨calls, queue, sent⟩ := of_decide_eq_true holds
  exact ⟨s, reached, queue, sent, calls ▸ (accounted_of_reach reached).2.2.2.1⟩

end Runs

end Empyrean.Mqtt.Publisher
