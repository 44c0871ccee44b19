/-
# Empyrean.Mqtt.PublishErrors — what escapes `publish_alert`

`Empyrean.Mqtt.Publisher` follows the calls that return.  Here a publish may raise, and a
call ends with what it raises: the retries stand inside `except Exception`, twice, the
direct publish stands inside nothing.

* `publishAlert` — one call, with the exception that leaves it.
* `publishAlert_eq` — where nothing is raised past the guards, it is the call of
  `Empyrean.Mqtt.Publisher`.
* `Kept` — "never raises", and the alert is published or queued.
* `publishAlert_kept_iff` — a call keeps its alert iff the direct publish returns and no retry raises
  past `Exception`; `raising_publish_loses` is one that does not.
-/
import Empyrean.Mqtt.Publisher

namespace Empyrean.Mqtt.PublishErrors

set_option autoImplicit false

open Empyrean.Theory.BoundedDeque
open Empyrean.Mqtt.Publisher
  (Payload Alert Failed Event queueFailedMessage maxRetryAttempts retryBatchSize
  maxFailedQueueSize)

/-! ## The functions -/

inductive Raised
  | exception
  /-- A `BaseException` that is not an `Exception`. -/
  | baseException
  deriving DecidableEq

/-- What `client.publish` does. -/
inductive Sent
  | rc (code : Int)
  | raises (kind : Raised)
  deriving DecidableEq

/-- What a call meets: `_get_client()` with `is_connected()`, the direct publish, the
client of the retry, and its publishes in order. -/
structure World where
  client : Option Bool
  publish : Sent
  retryClient : Bool
  retryPublish : Nat → Sent

/-- How a call ends: the queue it leaves, what it logs, and what it raises. -/
structure Exit (V : Type) where
  queue : List (Failed V)
  events : List (Event V)
  raised : Option Raised
  deriving DecidableEq

section Model

variable {V : Type} (encode : Payload V → Option String)

def Exit.log (event : Event V) (exit : Exit V) : Exit V :=
  { exit with events := event :: exit.events }

/-- The loop of `_retry_failed_messages` over the popped batch; `n` publishes were made. -/
def retryBatch (outcomes : Nat → Sent) : Nat → List (Failed V) → List (Failed V) → Exit V
  | _, [], queue => ⟨queue, [], none⟩
  | n, entry :: batch, queue =>
      if entry.attempt ≥ maxRetryAttempts then
        (retryBatch outcomes n batch queue).log (.exhausted entry.alert)
      else
        match encode entry.alert.payload with
        | none => (retryBatch outcomes n batch queue).log (.unencodable entry.alert)
        | some encoded =>
            match outcomes n with
            | .raises .exception =>
                ⟨extendleft maxFailedQueueSize
                    (append maxFailedQueueSize queue ⟨entry.alert, entry.attempt + 1⟩) batch.reverse,
                  [.retry entry.alert encoded .raises], some .exception⟩
            | .raises .baseException =>
                -- past `except Exception`: only the `finally` runs
                ⟨extendleft maxFailedQueueSize queue batch.reverse,
                  [.retry entry.alert encoded .raises], some .baseException⟩
            | .rc code =>
                (retryBatch outcomes (n + 1) batch
                    (if code = 0 then queue else append maxFailedQueueSize queue ⟨entry.alert, entry.attempt + 1⟩)).log
                  (.retry entry.alert encoded (.rc code))

/-- `_retry_failed_messages` -/
def retryFailedMessages (world : World) (queue : List (Failed V)) : Exit V :=
  if queue.isEmpty then ⟨queue, [], none⟩
  else if !world.retryClient then ⟨queue, [], none⟩
  else retryBatch encode world.retryPublish 0 (queue.take retryBatchSize)
    (queue.drop retryBatchSize)

/-- `publish_alert` -/
def publishAlert (world : World) (queue : List (Failed V)) (alert : Alert V) : Exit V :=
  let queued := queueFailedMessage queue alert
  match world.client with
  | none => ⟨queued.1, queued.2, none⟩
  | some false => ⟨queued.1, queued.2, none⟩
  | some true =>
      match encode alert.payload with
      | none => ⟨queue, [.unencodable alert], none⟩
      | some encoded =>
          match world.publish with
          | .raises kind => ⟨queue, [], some kind⟩
          | .rc code =>
              if code ≠ 0 then ⟨queued.1, .direct alert encoded code :: queued.2, none⟩
              else
                let exit := (retryFailedMessages encode world queue).log (.direct alert encoded 0)
                -- `except Exception` around the retry
                if exit.raised = some .exception then { exit with raised := none } else exit

/-- The call returns, and an alert that can be encoded is published or in the queue. -/
structure Kept (alert : Alert V) (exit : Exit V) : Prop where
  returns : exit.raised = none
  kept : (encode alert.payload).isSome = true →
    (∃ encoded, .direct alert encoded 0 ∈ exit.events) ∨ ∃ e ∈ exit.queue, e.alert = alert

/-- The entries of a batch that a publish is made for, as long as none raises. -/
def publishable (batch : List (Failed V)) : Nat :=
  batch.countP fun e => decide (e.attempt < maxRetryAttempts) && (encode e.alert.payload).isSome

/-- No publish of a batch raises past `Exception`, up to the first one that raises. -/
def Guarded (outcomes : Nat → Sent) (n count : Nat) : Prop :=
  ∀ i < count, (∀ j < i, ∀ kind, outcomes (n + j) ≠ .raises kind) →
    outcomes (n + i) ≠ .raises .baseException

/-- What the direct publish and the retries of a call may do. -/
structure Behaves (world : World) (queue : List (Failed V)) (alert : Alert V) : Prop where
  direct : world.client = some true → (encode alert.payload).isSome = true →
    ∀ kind, world.publish ≠ .raises kind
  retries : world.client = some true → (encode alert.payload).isSome = true →
    world.publish = .rc 0 →
    world.retryClient = true →
      Guarded world.retryPublish 0 (publishable encode (queue.take retryBatchSize))

end Model

/-! ## The calls that return -/

def Sent.outcome : Sent → Publisher.Outcome
  | .rc code => .rc code
  | .raises _ => .raises

/-- The world as `Empyrean.Mqtt.Publisher` has it, where the direct publish returns `code`. -/
def World.returning (world : World) (code : Int) : Publisher.World where
  client := world.client
  publishRc := code
  retryClient := world.retryClient
  retryPublish n := (world.retryPublish n).outcome

section Specs

variable {V : Type} {encode : Payload V → Option String} {queue : List (Failed V)} {alert : Alert V}
    {world : World}

/-- A batch that raises nothing past `Exception` does what it does there. -/
theorem retryBatch_eq {outcomes : Nat → Sent} {batch : List (Failed V)} {n : Nat}
    {queue : List (Failed V)}
    (calm : (retryBatch encode outcomes n batch queue).raised ≠ some .baseException) :
    Publisher.retryBatch encode (fun n => (outcomes n).outcome) n batch queue =
      ((retryBatch encode outcomes n batch queue).queue,
        (retryBatch encode outcomes n batch queue).events) := by
  induction batch generalizing n queue with
  | nil => rfl
  | cons entry batch ih =>
      rw [retryBatch] at calm ⊢
      rw [Publisher.retryBatch]
      by_cases spent : entry.attempt ≥ maxRetryAttempts
      · rw [if_pos spent] at calm ⊢
        rw [if_pos spent, ih calm, Exit.log]
      rw [if_neg spent] at calm ⊢
      rw [if_neg spent]
      cases coded : encode entry.alert.payload with
      | none =>
          rw [coded] at calm
          simp only [ih calm, Exit.log]
      | some encoded =>
          rw [coded] at calm
          cases sent : outcomes n with
          | rc code =>
              rw [sent] at calm
              have later := ih calm
              simp only [Sent.outcome] at later ⊢
              rw [later]
              rfl
          | raises kind =>
              rw [sent] at calm
              cases kind with
              | exception => rfl
              | baseException => exact absurd rfl calm

theorem retryFailedMessages_eq {code : Int}
    (calm : (retryFailedMessages encode world queue).raised ≠ some .baseException) :
    Publisher.retryFailedMessages encode (world.returning code) queue =
      ((retryFailedMessages encode world queue).queue,
        (retryFailedMessages encode world queue).events) := by
  rw [retryFailedMessages] at calm ⊢
  rw [Publisher.retryFailedMessages]
  split
  · rfl
  · rename_i full
    rw [if_neg full] at calm
    by_cases up : world.retryClient = true
    · simp only [World.returning, up] at calm ⊢
      exact retryBatch_eq calm
    · have down : world.retryClient = false := Bool.eq_false_iff.mpr up
      simp only [World.returning, down]
      rfl

/-- A call that returns is a call of `Empyrean.Mqtt.Publisher`. -/
theorem publishAlert_eq {code : Int} (returned : world.publish = .rc code)
    (calm : (publishAlert encode world queue alert).raised = none) :
    Publisher.publishAlert encode (world.returning code) queue alert =
      ((publishAlert encode world queue alert).queue,
        (publishAlert encode world queue alert).events) := by
  have client : (world.returning code).client = world.client := rfl
  have direct : (world.returning code).publishRc = code := rfl
  rw [publishAlert] at calm ⊢
  rw [Publisher.publishAlert, client, direct]
  cases up : world.client with
  | none => rfl
  | some connected =>
      cases connected with
      | false => rfl
      | true =>
          rw [up] at calm
          cases coded : encode alert.payload with
          | none => rfl
          | some encoded =>
              rw [returned] at calm ⊢
              by_cases refused : code ≠ 0
              · simp only [if_pos refused]
              · simp only [coded, if_neg refused] at calm ⊢
                rw [retryFailedMessages_eq]
                · split <;> rfl
                · intro raised
                  rw [Exit.log, raised] at calm
                  cases calm

theorem Guarded.tail {outcomes : Nat → Sent} {n count : Nat} {code : Int}
    (guarded : Guarded outcomes n (count + 1)) (returned : outcomes n = .rc code) :
    Guarded outcomes (n + 1) count := by
  intro i below before
  have shift : n + 1 + i = n + (i + 1) := by omega
  rw [shift]
  refine guarded (i + 1) (by omega) fun j earlier kind raised => ?_
  cases j with
  | zero =>
      rw [Nat.add_zero, returned] at raised
      cases raised
  | succ j =>
      have shift' : n + (j + 1) = n + 1 + j := by omega
      rw [shift'] at raised
      exact before j (by omega) kind raised

theorem Guarded.cons {outcomes : Nat → Sent} {n count : Nat}
    (first : outcomes n ≠ .raises .baseException) (rest : (∀ kind, outcomes n ≠ .raises kind) →
      Guarded outcomes (n + 1) count) : Guarded outcomes n (count + 1) := by
  intro i below before
  cases i with
  | zero => exact first
  | succ i =>
      have shift : n + (i + 1) = n + 1 + i := by omega
      rw [shift]
      refine rest (before 0 (by omega)) i (by omega) fun j earlier => ?_
      have shift' : n + 1 + j = n + (j + 1) := by omega
      rw [shift']
      exact before (j + 1) (by omega)

/-- A batch raises past `Exception` iff one of its publishes does, none before it having
raised. -/
theorem retryBatch_guarded (outcomes : Nat → Sent) (batch : List (Failed V)) (n : Nat)
    (queue : List (Failed V)) :
    (retryBatch encode outcomes n batch queue).raised ≠ some .baseException ↔
      Guarded outcomes n (publishable encode batch) := by
  induction batch generalizing n queue with
  | nil => exact iff_of_true nofun nofun
  | cons entry batch ih =>
      rw [retryBatch]
      by_cases spent : entry.attempt ≥ maxRetryAttempts
      · have skipped : publishable encode (entry :: batch) = publishable encode batch :=
          List.countP_cons_of_neg (by simp [Nat.not_lt.mpr spent])
        rw [if_pos spent, skipped]
        exact ih n queue
      rw [if_neg spent]
      cases coded : encode entry.alert.payload with
      | none =>
          have skipped : publishable encode (entry :: batch) = publishable encode batch :=
            List.countP_cons_of_neg (by simp [coded])
          rw [skipped]
          exact ih n queue
      | some encoded =>
          have counted : publishable encode (entry :: batch) = publishable encode batch + 1 :=
            List.countP_cons_of_pos (by simp [coded, Nat.lt_of_not_le spent])
          rw [counted]
          cases sent : outcomes n with
          | rc code =>
              have later := ih (n + 1) (if code = 0 then queue
                else append maxFailedQueueSize queue ⟨entry.alert, entry.attempt + 1⟩)
              refine Iff.trans later
                ⟨fun rest => Guarded.cons ?_ fun _ => rest, fun guarded => guarded.tail sent⟩
              rw [sent]
              exact nofun
          | raises kind =>
              cases kind with
              | exception =>
                  refine iff_of_true nofun (Guarded.cons ?_ fun silent => absurd sent (silent _))
                  rw [sent]
                  exact nofun
              | baseException =>
                  exact iff_of_false (fun calm => calm rfl) fun guarded =>
                    guarded 0 (Nat.succ_pos _) nofun sent

theorem retryFailedMessages_guarded :
    (retryFailedMessages encode world queue).raised ≠ some .baseException ↔
      (world.retryClient = true →
        Guarded world.retryPublish 0 (publishable encode (queue.take retryBatchSize))) := by
  rw [retryFailedMessages]
  by_cases empty : queue.isEmpty = true
  · rw [if_pos empty, List.isEmpty_iff.mp empty]
    exact iff_of_true nofun fun _ => nofun
  rw [if_neg empty]
  by_cases up : world.retryClient = true
  · rw [up, if_neg (by decide)]
    exact (retryBatch_guarded _ _ _ _).trans ⟨fun guarded _ => guarded, fun guarded => guarded rfl⟩
  · rw [if_pos (by simp [up])]
    exact iff_of_true nofun fun other => absurd other up

/-- A failed alert is queued, whatever the queue held. -/
theorem mem_queueFailedMessage : ∃ e ∈ (queueFailedMessage queue alert).1, e.alert = alert := by
  have last : ∀ rest : List (Failed V),
      ⟨alert, 0⟩ ∈ append maxFailedQueueSize rest (⟨alert, 0⟩ : Failed V) := by
    intro rest
    have within : rest.length + 1 - maxFailedQueueSize ≤ rest.length := by
      simp only [maxFailedQueueSize]
      omega
    rw [append, List.drop_append_of_le_length within]
    exact List.mem_append_right _ (List.mem_singleton_self _)
  refine ⟨⟨alert, 0⟩, ?_, rfl⟩
  unfold queueFailedMessage
  split
  · split
    · exact last _
    · exact last _
  · exact last _

theorem kept_queued (events : List (Event V)) :
    Kept encode alert ⟨(queueFailedMessage queue alert).1, events, none⟩ :=
  ⟨rfl, fun _ => Or.inr mem_queueFailedMessage⟩

theorem behaves_offline (offline : world.client ≠ some true) : Behaves encode world queue alert :=
  ⟨fun up => absurd up offline, fun up => absurd up offline⟩

theorem behaves_unencodable (coded : encode alert.payload = none) :
    Behaves encode world queue alert := by
  have bad : ¬ (encode alert.payload).isSome = true := by simp [coded]
  exact ⟨fun _ good => absurd good bad, fun _ good => absurd good bad⟩

section Online

variable {encoded : String} (up : world.client = some true)
    (coded : encode alert.payload = some encoded)

include up coded

theorem behaves_returned {code : Int} (returned : world.publish = .rc code) :
    Behaves encode world queue alert ↔
      (code = 0 → (retryFailedMessages encode world queue).raised ≠ some .baseException) := by
  have good : (encode alert.payload).isSome = true := by simp [coded]
  have silent : ∀ kind, world.publish ≠ .raises kind := by
    rw [returned]
    exact fun kind => nofun
  rw [retryFailedMessages_guarded]
  constructor
  · intro behaves accepted
    exact behaves.retries up good (accepted ▸ returned)
  · intro guarded
    refine ⟨fun _ _ => silent, fun _ _ zero => guarded ?_⟩
    rw [returned, Sent.rc.injEq] at zero
    exact zero

/-- The alert was published: what is left to go wrong is the retry. -/
theorem kept_accepted (returned : world.publish = .rc 0) :
    Kept encode alert (publishAlert encode world queue alert) ↔
      (retryFailedMessages encode world queue).raised ≠ some .baseException := by
  simp only [publishAlert, up, coded, returned, ne_eq, not_true_eq_false, if_false, Exit.log]
  cases retryFailedMessages encode world queue with
  | mk left events raised =>
      rcases raised with _ | _ | _
      · exact iff_of_true ⟨rfl, fun _ => Or.inl ⟨encoded, List.mem_cons_self⟩⟩ nofun
      · exact iff_of_true ⟨rfl, fun _ => Or.inl ⟨encoded, List.mem_cons_self⟩⟩ nofun
      · exact iff_of_false (fun kept => nomatch kept.returns) fun calm => calm rfl

end Online

/-- **A call keeps its alert** iff the direct publish, where it comes to it, returns, and no
retry raises past `Exception`. -/
theorem publishAlert_kept_iff (encode : Payload V → Option String) (world : World)
    (queue : List (Failed V)) (alert : Alert V) :
    Kept encode alert (publishAlert encode world queue alert) ↔
      Behaves encode world queue alert := by
  by_cases up : world.client = some true
  · cases coded : encode alert.payload with
    | none =>
        refine iff_of_true ?_ (behaves_unencodable coded)
        simp only [publishAlert, up, coded]
        exact ⟨rfl, fun good => by simp [coded] at good⟩
    | some encoded =>
        cases sent : world.publish with
        | raises kind =>
            refine iff_of_false ?_ fun behaves => behaves.direct up (by simp [coded]) kind sent
            simp only [publishAlert, up, coded, sent]
            exact fun kept => nomatch kept.returns
        | rc code =>
            rw [behaves_returned up coded sent]
            by_cases accepted : code = 0
            · subst accepted
              rw [kept_accepted up coded sent]
              exact ⟨fun calm _ => calm, fun calm => calm rfl⟩
            · refine iff_of_true ?_ fun zero => absurd zero accepted
              simp only [publishAlert, up, coded, sent, ne_eq, accepted, not_false_eq_true, if_true]
              exact kept_queued _
  · refine iff_of_true ?_ (behaves_offline up)
    cases client : world.client with
    | none =>
        simp only [publishAlert, client]
        exact kept_queued _
    | some connected =>
        have down : connected = false :=
          Bool.eq_false_iff.mpr fun connected => up (by rw [client, connected])
        simp only [publishAlert, client, down]
        exact kept_queued _

/-- A connected client whose publish raises: the alert is neither published nor queued, and
the caller gets the exception. -/
theorem raising_publish_loses :
    let encode : Payload Nat → Option String := fun _ => some ""
    let alert : Alert Nat := ⟨0, ⟨7, 160, 3, 2, 0⟩⟩
    let world : World := ⟨some true, .raises .exception, true, fun _ => .rc 0⟩
    publishAlert encode world [] alert = ⟨[], [], some .exception⟩ ∧
      ¬ Kept encode alert (publishAlert encode world [] alert) := by
  intro encode alert world
  exact ⟨by decide, fun kept => nomatch kept.returns⟩

end Specs

end Empyrean.Mqtt.PublishErrors
