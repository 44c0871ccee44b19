/-
# Empyrean.Mqtt.Subscriptions — which topics are subscribed, and what is retried

The paho loop runs the callbacks `_on_connect`, `_on_subscribe` and `_on_disconnect`, one
after the other; the worker thread runs `_maybe_retry_subscribes` beside them.  Both call
`subscribe`, which answers with the mid of the packet, and register that mid with the topic
in a second statement, so a SUBACK can arrive for a mid that the worker has not registered.

* `step` — one statement of one thread, or the start of a callback.
* `maybeRetrySubscribes` — a tick that nothing interrupts, and the topics it subscribes;
  `run_tick` takes it as steps of the worker.
* `Ready`, `Covered` — the two invariants, with what holds inside a callback.
* `subscriptions_of_reach` — readiness is the two granted topics; no topic is forgotten.
-/
import Empyrean.Theory.Runs
import Mathlib.Logic.Function.Basic

namespace Empyrean.Mqtt.Subscriptions

set_option autoImplicit false

open Empyrean.Theory.Runs

/-! ## The client -/

inductive Topic
  | reading
  | status
  | alerts
  deriving DecidableEq

def topics : List Topic := [.reading, .status, .alerts]

theorem mem_topics (topic : Topic) : topic ∈ topics := by
  cases topic <;> decide

/-- `_SUBSCRIBE_RETRY_INTERVAL_S`, in milliseconds. -/
def subscribeRetryInterval : Int := 5000

/-- The callback the paho loop is in, before its next statement. -/
inductive PahoPc
  | idle
  /-- `_on_connect`: the topics to subscribe, and whether one has failed. -/
  | connecting (rest : List Topic) (failed : Bool)
  | registering (mid : Nat) (topic : Topic) (rest : List Topic) (failed : Bool)
  /-- `_on_subscribe`, after the `pop`. -/
  | acked (topic : Option Topic) (granted : Option Nat)
  | added
  | readying
  /-- `_on_disconnect`. -/
  | unready
  | ungranted
  | cleared
  deriving DecidableEq

/-- `_maybe_retry_subscribes` -/
inductive WorkerPc
  | idle
  | throttling
  | connecting
  | visiting (rest : List Topic)
  | registering (mid : Nat) (topic : Topic) (rest : List Topic)
  deriving DecidableEq

structure State where
  pendingSubs : Nat → Option Topic
  ready : Bool
  grantedTopics : Topic → Bool
  subscribeFailed : Bool
  nextSubscribeRetry : Int
  paho : PahoPc
  worker : WorkerPc
  /-- The mids of SUBSCRIBE packets on the connection that were not acknowledged yet. -/
  outstanding : List Nat
  /-- A successful `_on_connect` has returned, and no disconnect was reported since. -/
  session : Bool

/-- A mid that `subscribe` has returned and the caller has not registered yet. -/
def PahoPc.unregistered : PahoPc → Option Nat
  | .registering mid _ _ _ => some mid
  | _ => none

def WorkerPc.unregistered : WorkerPc → Option Nat
  | .registering mid _ _ => some mid
  | _ => none

/-- The mids in use; `subscribe` draws another one. -/
def State.Used (s : State) (mid : Nat) : Prop :=
  mid ∈ s.outstanding ∨ s.paho.unregistered = some mid ∨ s.worker.unregistered = some mid

instance (s : State) (mid : Nat) : Decidable (s.Used mid) := by
  unfold State.Used
  infer_instance

/-- `granted_qos[0] if granted_qos else None` -/
def grantedQos (qos : List Nat) : Option Nat := qos.head?

/-- The broker did not grant the subscription. -/
def denied : Option Nat → Bool
  | none => true
  | some qos => decide (0x80 ≤ qos)

def State.bothGranted (s : State) : Bool := s.grantedTopics .reading && s.grantedTopics .status

/-- The answer of `subscribe` for the topic that is visited; `none` is an error code. -/
def pahoStep (s : State) (answer : Option Nat) : Option State :=
  match s.paho with
  | .idle => none
  | .connecting [] failed =>
      some { s with subscribeFailed := failed, paho := .idle, session := true }
  | .connecting (topic :: rest) failed =>
      match answer with
      | none => some { s with paho := .connecting rest true }
      | some mid =>
          if s.Used mid then none
          else some { s with
            outstanding := mid :: s.outstanding, paho := .registering mid topic rest failed }
  | .registering mid topic rest failed =>
      some { s with pendingSubs := Function.update s.pendingSubs mid (some topic), paho := .connecting rest failed }
  | .acked none _ => some { s with paho := .idle }
  | .acked (some topic) granted =>
      if denied granted then some { s with subscribeFailed := true, paho := .idle }
      else some { s with
        grantedTopics := Function.update s.grantedTopics topic true, paho := .added }
  | .added =>
      some { s with
        subscribeFailed := if topics.all s.grantedTopics then false else s.subscribeFailed
        paho := .readying }
  | .readying => some { s with ready := if s.bothGranted then true else s.ready, paho := .idle }
  | .unready => some { s with grantedTopics := fun _ => false, paho := .ungranted }
  | .ungranted => some { s with pendingSubs := fun _ => none, paho := .cleared }
  | .cleared => some { s with subscribeFailed := false, paho := .idle }

/-- The next statement of the worker; `connected` is what `is_connected` answers. -/
def workerStep (s : State) (now : Int) (connected : Bool) (answer : Option Nat) : Option State :=
  match s.worker with
  | .idle => some { s with worker := if s.subscribeFailed then .throttling else .idle }
  | .throttling =>
      if now < s.nextSubscribeRetry then some { s with worker := .idle }
      else some { s with nextSubscribeRetry := now + subscribeRetryInterval, worker := .connecting }
  | .connecting => some { s with worker := if connected then .visiting topics else .idle }
  | .visiting [] => some { s with worker := .idle }
  | .visiting (topic :: rest) =>
      if s.grantedTopics topic then some { s with worker := .visiting rest }
      else match answer with
        | none => some { s with worker := .visiting rest }
        | some mid =>
            if s.Used mid then none
            else some { s with
              outstanding := mid :: s.outstanding, worker := .registering mid topic rest }
  | .registering mid topic rest =>
      some { s with
        pendingSubs := Function.update s.pendingSubs mid (some topic), worker := .visiting rest }

inductive Act
  | connect (rc : Int)
  | suback (mid : Nat) (qos : List Nat)
  | disconnect
  | paho (answer : Option Nat)
  | worker (now : Int) (connected : Bool) (answer : Option Nat)

def step (s : State) : Act → Option State
  | .connect rc =>
      match s.paho with
      | .idle => some (if rc = 0 then { s with paho := .connecting topics false } else s)
      | _ => none
  | .suback mid qos =>
      match s.paho with
      | .idle => some { s with
          pendingSubs := Function.update s.pendingSubs mid none
          outstanding := s.outstanding.filter (· ≠ mid)
          paho := .acked (s.pendingSubs mid) (grantedQos qos) }
      | _ => none
  | .disconnect =>
      match s.paho with
      | .idle =>
          some { s with ready := false, outstanding := [], session := false, paho := .unready }
      | _ => none
  | .paho answer => pahoStep s answer
  | .worker now connected answer => workerStep s now connected answer

/-- `__init__` -/
structure Start (s : State) : Prop where
  pendingSubs : ∀ mid, s.pendingSubs mid = none
  ready : s.ready = false
  grantedTopics : ∀ topic, s.grantedTopics topic = false
  subscribeFailed : s.subscribeFailed = false
  paho : s.paho = .idle
  worker : s.worker = .idle
  outstanding : s.outstanding = []
  session : s.session = false

/-! ## A tick of the worker -/

/-- The visit of one topic, and the topics for which `subscribe` was called so far. -/
def retryTopic (answers : Topic → Option Nat) (tick : State × List Topic) (topic : Topic) :
    State × List Topic :=
  if tick.1.grantedTopics topic then tick
  else match answers topic with
    | none => (tick.1, tick.2 ++ [topic])
    | some mid =>
        ({ tick.1 with
          pendingSubs := Function.update tick.1.pendingSubs mid (some topic)
          outstanding := mid :: tick.1.outstanding }, tick.2 ++ [topic])

/-- `_maybe_retry_subscribes`, uninterrupted. -/
def maybeRetrySubscribes (now : Int) (connected : Bool) (answers : Topic → Option Nat) (s : State) :
    State × List Topic :=
  if !s.subscribeFailed then (s, [])
  else if now < s.nextSubscribeRetry then (s, [])
  else
    let s := { s with nextSubscribeRetry := now + subscribeRetryInterval }
    if !connected then (s, [])
    else topics.foldl (retryTopic answers) (s, [])

theorem retryTopic_granted (answers : Topic → Option Nat) (tick : State × List Topic)
    (topic : Topic) : (retryTopic answers tick topic).1.grantedTopics = tick.1.grantedTopics := by
  unfold retryTopic
  split
  · rfl
  · split <;> rfl

theorem mem_retryTopic (answers : Topic → Option Nat) (tick : State × List Topic)
    (topic other : Topic) : other ∈ (retryTopic answers tick topic).2 ↔
      other ∈ tick.2 ∨ (other = topic ∧ tick.1.grantedTopics topic = false) := by
  unfold retryTopic
  split
  · rename_i granted
    simp [granted]
  · rename_i ungranted
    split <;> simp [ungranted]

theorem mem_foldl_retryTopic (answers : Topic → Option Nat) (other : Topic) :
    ∀ (rest : List Topic) (tick : State × List Topic),
      other ∈ (rest.foldl (retryTopic answers) tick).2 ↔
      other ∈ tick.2 ∨ (other ∈ rest ∧ tick.1.grantedTopics other = false)
  | [], tick => by simp
  | topic :: rest, tick => by
      rw [List.foldl_cons, mem_foldl_retryTopic answers other rest, mem_retryTopic,
        retryTopic_granted]
      constructor
      · rintro ((before | ⟨rfl, ungranted⟩) | ⟨later, ungranted⟩)
        · exact Or.inl before
        · exact Or.inr ⟨List.mem_cons_self, ungranted⟩
        · exact Or.inr ⟨List.mem_cons_of_mem topic later, ungranted⟩
      · rintro (before | ⟨member, ungranted⟩)
        · exact Or.inl (Or.inl before)
        · rcases List.mem_cons.mp member with rfl | later
          · exact Or.inl (Or.inr ⟨rfl, ungranted⟩)
          · exact Or.inr ⟨later, ungranted⟩

/-- **An unthrottled tick of a connected client** subscribes exactly the topics that are not
granted, if the flag is set. -/
theorem mem_maybeRetrySubscribes {now : Int} {s : State} (flagged : s.subscribeFailed = true)
    (unthrottled : s.nextSubscribeRetry ≤ now) (answers : Topic → Option Nat) (topic : Topic) :
    topic ∈ (maybeRetrySubscribes now true answers s).2 ↔ s.grantedTopics topic = false := by
  have late : ¬ now < s.nextSubscribeRetry := by omega
  simp [maybeRetrySubscribes, flagged, late, mem_foldl_retryTopic, mem_topics]

/-- A tick does not look at where the worker stands. -/
theorem foldl_retryTopic_worker (answers : Topic → Option Nat) (pc : WorkerPc) :
    ∀ (rest : List Topic) (s : State) (asked : List Topic),
      (rest.foldl (retryTopic answers) ({ s with worker := pc }, asked)).1 =
        { (rest.foldl (retryTopic answers) (s, asked)).1 with worker := pc }
  | [], s, asked => rfl
  | topic :: rest, s, asked => by
      simp only [List.foldl_cons, retryTopic]
      cases granted : s.grantedTopics topic
      · cases answers topic with
        | none => exact foldl_retryTopic_worker answers pc rest s _
        | some mid => exact foldl_retryTopic_worker answers pc rest { s with
            pendingSubs := Function.update s.pendingSubs mid (some topic), outstanding :=
              mid :: s.outstanding } _
      · exact foldl_retryTopic_worker answers pc rest s asked

/-- The mids that `subscribe` will answer are not in use, and no two of them are the same. -/
structure Fresh (answers : Topic → Option Nat) (s : State) (rest : List Topic) : Prop where
  unused : ∀ topic ∈ rest, ∀ mid, answers topic = some mid →
    mid ∉ s.outstanding ∧ s.paho.unregistered ≠ some mid
  distinct : ∀ topic other mid, answers topic = some mid → answers other = some mid → other = topic

theorem run_visiting (answers : Topic → Option Nat) (now : Int) (connected : Bool) :
    ∀ (rest : List Topic) (s : State) (asked : List Topic), s.worker = .visiting rest → rest.Nodup →
      Fresh answers s rest → ∃ acts :
        List Act, (∀ a ∈ acts, ∃ answer, a = .worker now connected answer) ∧
        run step s acts =
          some { (rest.foldl (retryTopic answers) (s, asked)).1 with worker := .idle }
  | [], s, asked, visiting, _, _ => by
      refine ⟨[.worker now connected none], by simp, ?_⟩
      simp [run, step, workerStep, visiting]
  | topic :: rest, s, asked, visiting, once, fresh => by
      obtain ⟨absent, once⟩ := List.nodup_cons.mp once
      have later : ∀ other ∈ rest, other ∈ topic :: rest := fun other => List.mem_cons_of_mem topic
      rw [List.foldl_cons, retryTopic]
      cases granted : s.grantedTopics topic
      · cases answered : answers topic with
        | none =>
            obtain ⟨acts, workers, ran⟩ :=
              run_visiting answers now connected rest { s with worker := .visiting rest }
              (asked ++ [topic]) rfl once
                ⟨fun other member => fresh.unused other (later other member), fresh.distinct⟩
            refine ⟨.worker now connected none :: acts, by simpa using workers, ?_⟩
            rw [foldl_retryTopic_worker] at ran
            simpa [run, step, workerStep, visiting, granted] using ran
        | some mid =>
            obtain ⟨undrawn, apart⟩ := fresh.unused topic List.mem_cons_self mid answered
            obtain ⟨acts, workers, ran⟩ := run_visiting answers now connected rest { s with
                pendingSubs := Function.update s.pendingSubs mid (some topic)
                outstanding := mid :: s.outstanding
                worker := .visiting rest } (asked ++ [topic]) rfl once ⟨by
              intro other member mid' answer
              obtain ⟨undrawn', apart'⟩ := fresh.unused other (later other member) mid' answer
              refine ⟨?_, apart'⟩
              intro drawn
              rcases List.mem_cons.mp drawn with rfl | before
              · exact absent (fresh.distinct topic other mid' answered answer ▸ member)
              · exact undrawn' before, fresh.distinct⟩
            refine ⟨.worker now connected (some mid) :: .worker now connected none :: acts,
              by simpa using workers, ?_⟩
            have unused : ¬ s.Used mid := by
              simp [State.Used, undrawn, apart, visiting, WorkerPc.unregistered]
            rw [foldl_retryTopic_worker answers (.visiting rest) rest { s with
              pendingSubs := Function.update s.pendingSubs mid (some topic)
              outstanding := mid :: s.outstanding } (asked ++ [topic])] at ran
            simpa [run, step, workerStep, visiting, granted, unused] using ran
      · obtain ⟨acts, workers, ran⟩ :=
          run_visiting answers now connected rest { s with worker := .visiting rest }
          asked rfl once ⟨fun other member => fresh.unused other (later other member),
            fresh.distinct⟩
        refine ⟨.worker now connected none :: acts, by simpa using workers, ?_⟩
        rw [foldl_retryTopic_worker] at ran
        simpa [run, step, workerStep, visiting, granted] using ran

/-- **A tick is a run of the worker.**  When nothing comes between its statements, the
worker ends where `maybeRetrySubscribes` says. -/
theorem run_tick {s : State} {answers : Topic → Option Nat} (idle : s.worker = .idle)
    (fresh : Fresh answers s topics) (now : Int) (connected : Bool) :
    ∃ acts : List Act, (∀ a ∈ acts, ∃ answer, a = .worker now connected answer) ∧
      run step s acts = some (maybeRetrySubscribes now connected answers s).1 := by
  obtain ⟨pending, ready, granted, flagged, retryAt, paho, worker, outstanding, session⟩ := s
  obtain rfl : worker = .idle := idle
  cases flagged
  · exact ⟨[], by simp, rfl⟩
  · by_cases early : now < retryAt
    · refine ⟨[.worker now connected none, .worker now connected none], by simp, ?_⟩
      simp [run, step, workerStep, maybeRetrySubscribes, early]
    · cases connected
      · refine ⟨List.replicate 3 (.worker now false none), by simp, ?_⟩
        simp [run, step, workerStep, maybeRetrySubscribes, early, List.replicate]
      · obtain ⟨acts, workers, ran⟩ := run_visiting answers now true topics
          ⟨pending, ready, granted, true, now + subscribeRetryInterval, paho, .visiting topics,
            outstanding, session⟩
          [] rfl (by decide) ⟨fresh.unused, fresh.distinct⟩
        refine ⟨List.replicate 3 (.worker now true none) ++ acts, ?_, ?_⟩
        · intro a member
          rcases List.mem_append.mp member with first | rest
          · exact ⟨none, List.eq_of_mem_replicate first⟩
          · exact workers a rest
        · rw [← foldl_retryTopic_worker] at ran
          simpa [run, step, workerStep, maybeRetrySubscribes, early, List.replicate] using ran

/-! ## The invariants -/

/-- A SUBACK that is still to come will find the topic. -/
def Live (s : State) (topic : Topic) : Prop :=
  ∃ mid ∈ s.outstanding, s.pendingSubs mid = some topic ∧ s.paho.unregistered ≠ some mid ∧
    s.worker.unregistered ≠ some mid

def Covered (s : State) (topic : Topic) : Prop :=
  s.grantedTopics topic = true ∨ Live s topic ∨ s.subscribeFailed = true

/-- The topic that `_on_subscribe` has taken from `_pending_subs`. -/
def PahoPc.popped : PahoPc → Option Topic
  | .acked topic _ => topic
  | _ => none

/-- `_ready` against the two required topics; inside a callback it may lag behind them. -/
def Ready (s : State) : Prop :=
  match s.paho with
  | .added | .readying => s.ready = true → s.bothGranted = true
  | .unready => s.ready = false
  | .ungranted | .cleared => s.ready = false ∧ s.bothGranted = false
  | _ => s.ready = s.bothGranted

/-- What `_on_connect` has subscribed so far. -/
def Subscribed (s : State) : Prop :=
  match s.paho with
  | .connecting rest failed => ∀ topic, topic ∉ rest → Live s topic ∨ failed = true
  | .registering mid topic rest failed =>
      mid ∈ s.outstanding ∧ s.worker.unregistered ≠ some mid ∧
        ∀ other, other ∉ topic :: rest → Live s other ∨ failed = true
  | _ => True

/-- Inside `_on_disconnect`. -/
def PahoPc.disconnecting : PahoPc → Bool
  | .unready | .ungranted | .cleared => true
  | _ => false

structure Sound (s : State) : Prop where
  ready : Ready s
  gone : s.paho.disconnecting = true → s.session = false
  subscribed : Subscribed s
  covered : s.session = true → ∀ topic, s.paho.popped ≠ some topic → Covered s topic

section Steps

variable {s s' : State}

/-- A statement of the worker changes nothing that a callback relies on. -/
structure Beside (s s' : State) : Prop where
  paho : s'.paho = s.paho
  ready : s'.ready = s.ready
  granted : s'.grantedTopics = s.grantedTopics
  flag : s'.subscribeFailed = s.subscribeFailed
  session : s'.session = s.session
  outstanding : ∀ mid ∈ s.outstanding, mid ∈ s'.outstanding
  live : ∀ topic, Live s topic → Live s' topic
  fresh : ∀ mid, s.paho.unregistered = some mid → s.worker.unregistered ≠ some mid →
    s'.worker.unregistered ≠ some mid

theorem beside_worker {now : Int} {connected : Bool} {answer : Option Nat}
    (ran : workerStep s now connected answer = some s') : Beside s s' := by
  have quiet : ∀ {s' : State}, s'.paho = s.paho → s'.ready = s.ready →
      s'.grantedTopics = s.grantedTopics →
      s'.subscribeFailed = s.subscribeFailed → s'.session = s.session →
        s'.outstanding = s.outstanding →
      s'.pendingSubs = s.pendingSubs → s'.worker.unregistered = none → Beside s s' := by
    intro s' paho ready granted flag session outstanding pending none
    refine ⟨paho, ready, granted, flag, session, by simp [outstanding], ?_, by simp [none]⟩
    rintro topic ⟨mid, member, registered, apart, _⟩
    exact ⟨mid, by rwa [outstanding], by rwa [pending], by rwa [paho], by simp [none]⟩
  unfold workerStep at ran
  split at ran
  · cases ran
    refine quiet rfl rfl rfl rfl rfl rfl rfl ?_
    cases s.subscribeFailed <;> rfl
  · split at ran <;> cases ran <;> exact quiet rfl rfl rfl rfl rfl rfl rfl rfl
  · cases ran
    cases connected <;> exact quiet rfl rfl rfl rfl rfl rfl rfl rfl
  · cases ran
    exact quiet rfl rfl rfl rfl rfl rfl rfl rfl
  · split at ran
    · cases ran
      exact quiet rfl rfl rfl rfl rfl rfl rfl rfl
    · split at ran
      · cases ran
        exact quiet rfl rfl rfl rfl rfl rfl rfl rfl
      · rename_i mid
        split at ran
        · cases ran
        · rename_i unused
          cases ran
          simp only [State.Used, not_or] at unused
          refine ⟨rfl, rfl, rfl, rfl, rfl, fun other => List.mem_cons_of_mem mid, ?_, ?_⟩
          · rintro topic ⟨other, member, registered, apart, _⟩
            refine ⟨other, List.mem_cons_of_mem mid member, registered, apart, ?_⟩
            rintro ⟨⟩
            exact unused.1 member
          · rintro other registering _ ⟨⟩
            exact unused.2.1 registering
  · rename_i mid topic rest registering
    cases ran
    refine ⟨rfl, rfl, rfl, rfl, rfl, fun _ => id, ?_, fun _ _ _ => by simp [WorkerPc.unregistered]⟩
    rintro other ⟨mid', member, registered, apart, away⟩
    have different : mid' ≠ mid := by
      rintro rfl
      exact away (by rw [registering]; rfl)
    exact ⟨mid', member, by simp [different, registered], apart, by simp [WorkerPc.unregistered]⟩

theorem sound_beside (sound : Sound s) (beside : Beside s s') : Sound s' where
  ready := by
    have same : s'.bothGranted = s.bothGranted := by simp [State.bothGranted, beside.granted]
    simpa only [Ready, beside.paho, beside.ready, same] using sound.ready
  gone := by
    rw [beside.paho, beside.session]
    exact sound.gone
  subscribed := by
    have subscribed := sound.subscribed
    unfold Subscribed at subscribed ⊢
    rw [beside.paho]
    split
    · rename_i rest failed at_
      rw [at_] at subscribed
      intro topic other
      exact (subscribed topic other).imp_left (beside.live topic)
    · rename_i mid topic rest failed at_
      rw [at_] at subscribed
      obtain ⟨member, apart, others⟩ := subscribed
      refine ⟨beside.outstanding mid member, beside.fresh mid (by rw [at_]; rfl) apart, ?_⟩
      intro other away
      exact (others other away).imp_left (beside.live other)
    · trivial
  covered := fun session topic popped => by
    rw [beside.session] at session
    rw [beside.paho] at popped
    rcases sound.covered session topic popped with granted | live | flagged
    · exact Or.inl (by rw [beside.granted, granted])
    · exact Or.inr (Or.inl (beside.live topic live))
    · exact Or.inr (Or.inr (by rw [beside.flag, flagged]))

/-- A statement of a callback that leaves the mids alone leaves the live topics. -/
theorem Live.same {topic : Topic} (live : Live s topic)
    (outstanding : s'.outstanding = s.outstanding) (pending : s'.pendingSubs = s.pendingSubs)
    (worker : s'.worker = s.worker) (paho : s'.paho.unregistered = none) : Live s' topic := by
  obtain ⟨mid, member, registered, _, away⟩ := live
  exact ⟨mid, by rwa [outstanding], by rwa [pending], by simp [paho], by rwa [worker]⟩

theorem Covered.imp {topic : Topic} (covered : Covered s topic)
    (granted : s.grantedTopics topic = true → s'.grantedTopics topic = true)
    (live : Live s topic → Live s' topic)
    (flag : s.subscribeFailed = true → s'.subscribeFailed = true) : Covered s' topic :=
  Or.imp granted (Or.imp live flag) covered

/-- A statement of `_on_connect` that comes after its last topic. -/
theorem sound_connected {failed : Bool} (sound : Sound s) (at_ : s.paho = .connecting [] failed) :
    Sound { s with subscribeFailed := failed, paho := .idle, session := true } := by
  have ready := sound.ready
  have subscribed := sound.subscribed
  simp only [Ready, Subscribed, at_] at ready subscribed
  refine ⟨ready, Bool.noConfusion, trivial, ?_⟩
  intro _ topic _
  rcases subscribed topic List.not_mem_nil with live | failed
  · exact Or.inr (Or.inl (live.same rfl rfl rfl rfl))
  · exact Or.inr (Or.inr failed)

/-- `subscribe` answers an error. -/
theorem sound_unsubscribed {topic : Topic} {rest : List Topic} {failed : Bool} (sound : Sound s)
    (at_ : s.paho = .connecting (topic :: rest) failed) :
    Sound { s with paho := .connecting rest true } := by
  have ready := sound.ready
  have covered := sound.covered
  simp only [Ready, at_, PahoPc.popped] at ready covered
  refine ⟨ready, Bool.noConfusion, fun _ _ => Or.inr rfl, fun session other _ => ?_⟩
  exact (covered session other (by simp)).imp id (fun live => live.same rfl rfl rfl rfl) id

/-- `subscribe` answers a mid. -/
theorem sound_drawn {topic : Topic} {rest : List Topic} {failed : Bool} {mid : Nat}
    (sound : Sound s) (at_ : s.paho = .connecting (topic :: rest) failed) (unused : ¬ s.Used mid) :
    Sound { s with
      outstanding := mid :: s.outstanding, paho := .registering mid topic rest failed } := by
  have ready := sound.ready
  have subscribed := sound.subscribed
  have covered := sound.covered
  simp only [Ready, Subscribed, at_, PahoPc.popped] at ready subscribed covered
  simp only [State.Used, not_or] at unused
  have lives : ∀ other, Live s other → Live { s with
      outstanding := mid :: s.outstanding, paho := .registering mid topic rest failed } other := by
    rintro other ⟨mid', member, registered, _, away⟩
    refine ⟨mid', List.mem_cons_of_mem mid member, registered, ?_, away⟩
    rintro ⟨⟩
    exact unused.1 member
  refine ⟨ready, Bool.noConfusion, ⟨List.mem_cons_self, unused.2.2, ?_⟩, ?_⟩
  · intro other away
    have later : other ∉ topic :: rest := away
    exact (subscribed other later).imp_left (lives other)
  · intro session other _
    exact (covered session other (by simp)).imp id (lives other) id

/-- The mid is registered. -/
theorem sound_registered {mid : Nat} {topic : Topic} {rest : List Topic} {failed : Bool}
    (sound : Sound s) (at_ : s.paho = .registering mid topic rest failed) :
    Sound { s with
      pendingSubs := Function.update s.pendingSubs mid (some topic), paho :=
  .connecting rest failed } := by
  have ready := sound.ready
  have subscribed := sound.subscribed
  have covered := sound.covered
  simp only [Ready, Subscribed, at_, PahoPc.popped] at ready subscribed covered
  obtain ⟨member, apart, others⟩ := subscribed
  have lives : ∀ other, Live s other → Live { s with
      pendingSubs := Function.update s.pendingSubs mid (some topic), paho :=
        .connecting rest failed } other := by
    rintro other ⟨mid', member, registered, unregistered, away⟩
    have different : mid' ≠ mid := by
      rintro rfl
      exact unregistered (by rw [at_]; rfl)
    exact ⟨mid', member, by simp [different, registered], by simp [PahoPc.unregistered], away⟩
  refine ⟨ready, Bool.noConfusion, ?_, ?_⟩
  · intro other away
    by_cases same : other = topic
    · subst same
      exact Or.inl ⟨mid, member, by simp, by simp [PahoPc.unregistered], apart⟩
    · have later : other ∉ topic :: rest := by
        simp only [List.mem_cons, not_or]
        exact ⟨same, away⟩
      exact (others other later).imp_left (lives other)
  · intro session other _
    exact (covered session other (by simp)).imp id (lives other) id

/-- `_on_subscribe` has a granted topic. -/
theorem sound_granted {topic : Topic} {granted : Option Nat} (sound : Sound s)
    (at_ : s.paho = .acked (some topic) granted) : Sound { s with
      grantedTopics := Function.update s.grantedTopics topic true, paho := .added } := by
  have ready := sound.ready
  have covered := sound.covered
  simp only [Ready, at_, PahoPc.popped] at ready covered
  refine ⟨?_, Bool.noConfusion, trivial, fun session other _ => ?_⟩
  · show s.ready = true → _
    intro up
    rw [ready, State.bothGranted, Bool.and_eq_true] at up
    simp only [State.bothGranted, Bool.and_eq_true]
    constructor
    · by_cases same : Topic.reading = topic
      · simp [same]
      · simp [Function.update_of_ne same, up.1]
    · by_cases same : Topic.status = topic
      · simp [same]
      · simp [Function.update_of_ne same, up.2]
  · by_cases same : other = topic
    · subst same
      exact Or.inl (by simp)
    · refine (covered session other ?_).imp ?_ (fun live => live.same rfl rfl rfl rfl) id
      · simpa [eq_comm] using same
      · intro done
        simp [same, done]

/-- It clears the flag only when every topic is granted. -/
theorem sound_unflagged (sound : Sound s) (at_ : s.paho = .added) :
    Sound { s with
      subscribeFailed := if topics.all s.grantedTopics then false else s.subscribeFailed
      paho := .readying } := by
  have ready := sound.ready
  have covered := sound.covered
  simp only [Ready, at_, PahoPc.popped] at ready covered
  refine ⟨ready, Bool.noConfusion, trivial, fun session topic _ => ?_⟩
  rcases covered session topic (by simp) with done | live | flagged
  · exact Or.inl done
  · exact Or.inr (Or.inl (live.same rfl rfl rfl rfl))
  · by_cases all : topics.all s.grantedTopics = true
    · exact Or.inl (List.all_eq_true.mp all topic (mem_topics topic))
    · exact Or.inr (Or.inr (by simp [all, flagged]))

theorem sound_readied (sound : Sound s) (at_ : s.paho = .readying) :
    Sound { s with ready := if s.bothGranted then true else s.ready, paho := .idle } := by
  have ready := sound.ready
  have covered := sound.covered
  simp only [Ready, at_, PahoPc.popped] at ready covered
  refine ⟨?_, Bool.noConfusion, trivial, fun session topic _ => ?_⟩
  · show (if s.bothGranted = true then true else s.ready) = s.bothGranted
    cases both : s.bothGranted
    · cases up : s.ready
      · rfl
      · have granted := ready up
        rw [both] at granted
        cases granted
    · rfl
  · exact (covered session topic (by simp)).imp id (fun live => live.same rfl rfl rfl rfl) id

/-- The statements of `_on_disconnect` have no session to cover. -/
theorem sound_disconnecting (sound : Sound s) (inside : s.paho.disconnecting = true)
    (ready : Ready s') (session : s'.session = s.session) (subscribed : Subscribed s') :
    Sound s' := by
  have gone := session.trans (sound.gone inside)
  refine ⟨ready, fun _ => gone, subscribed, fun held => ?_⟩
  rw [gone] at held
  cases held

theorem sound_paho {answer : Option Nat} (sound : Sound s) (ran : pahoStep s answer = some s') :
    Sound s' := by
  have ready := sound.ready
  cases at_ : s.paho with
  | idle => simp [pahoStep, at_] at ran
  | connecting rest failed =>
      cases rest with
      | nil =>
          simp only [pahoStep, at_, Option.some.injEq] at ran
          exact ran ▸ sound_connected sound at_
      | cons topic rest =>
          simp only [pahoStep, at_] at ran
          split at ran
          · cases ran
            exact sound_unsubscribed sound at_
          · split at ran
            · cases ran
            · rename_i unused
              cases ran
              exact sound_drawn sound at_ unused
  | registering mid topic rest failed =>
      simp only [pahoStep, at_, Option.some.injEq] at ran
      exact ran ▸ sound_registered sound at_
  | acked popped granted =>
      have covered := sound.covered
      simp only [Ready, at_, PahoPc.popped] at ready covered
      cases popped with
      | none =>
          simp only [pahoStep, at_, Option.some.injEq] at ran
          subst ran
          refine ⟨ready, Bool.noConfusion, trivial, fun session topic _ => ?_⟩
          exact (covered session topic (by simp)).imp id (fun live => live.same rfl rfl rfl rfl) id
      | some topic =>
          simp only [pahoStep, at_] at ran
          split at ran <;> cases ran
          · exact ⟨ready, Bool.noConfusion, trivial, fun _ _ _ => Or.inr (Or.inr rfl)⟩
          · exact sound_granted sound at_
  | added =>
      simp only [pahoStep, at_, Option.some.injEq] at ran
      exact ran ▸ sound_unflagged sound at_
  | readying =>
      simp only [pahoStep, at_, Option.some.injEq] at ran
      exact ran ▸ sound_readied sound at_
  | unready =>
      simp only [Ready, at_] at ready
      simp only [pahoStep, at_, Option.some.injEq] at ran
      subst ran
      exact sound_disconnecting sound (by rw [at_]; rfl) ⟨ready, rfl⟩ rfl trivial
  | ungranted =>
      simp only [Ready, at_] at ready
      simp only [pahoStep, at_, Option.some.injEq] at ran
      subst ran
      exact sound_disconnecting sound (by rw [at_]; rfl) ready rfl trivial
  | cleared =>
      simp only [Ready, at_] at ready
      simp only [pahoStep, at_, Option.some.injEq] at ran
      subst ran
      exact sound_disconnecting sound (by rw [at_]; rfl) (ready.1.trans ready.2.symm) rfl trivial

theorem sound_step {a : Act} (sound : Sound s) (ran : step s a = some s') : Sound s' := by
  cases a with
  | connect rc =>
      simp only [step] at ran
      split at ran
      · rename_i idle
        have ready := sound.ready
        simp only [Ready, idle] at ready
        cases ran
        by_cases accepted : rc = 0
        · rw [if_pos accepted]
          refine ⟨ready, Bool.noConfusion, ?_, fun session topic _ => ?_⟩
          · intro topic absent
            exact absurd (mem_topics topic) absent
          · have covered := sound.covered session topic (by simp [idle, PahoPc.popped])
            exact covered.imp id (fun live => live.same rfl rfl rfl rfl) id
        · rw [if_neg accepted]
          exact sound
      · cases ran
  | suback mid qos =>
      simp only [step] at ran
      split at ran
      · rename_i idle
        have ready := sound.ready
        simp only [Ready, idle] at ready
        cases ran
        refine ⟨ready, Bool.noConfusion, trivial, fun session topic popped => ?_⟩
        have covered := sound.covered session topic (by simp [idle, PahoPc.popped])
        refine covered.imp id ?_ id
        rintro ⟨mid', member, registered, _, away⟩
        have different : mid' ≠ mid := by
          rintro rfl
          exact popped registered
        refine ⟨mid', ?_, by simp [different, registered], by simp [PahoPc.unregistered], away⟩
        exact List.mem_filter.mpr ⟨member, by simpa using different⟩
      · cases ran
  | disconnect =>
      simp only [step] at ran
      split at ran
      · cases ran
        exact ⟨rfl, fun _ => rfl, trivial, fun session => by cases session⟩
      · cases ran
  | paho answer => exact sound_paho sound ran
  | worker now connected answer => exact sound_beside sound (beside_worker ran)

end Steps

theorem sound_start {s : State} (starts : Start s) : Sound s where
  ready := by simp [Ready, starts.paho, starts.ready, State.bothGranted, starts.grantedTopics]
  gone := fun _ => starts.session
  subscribed := by simp [Subscribed, starts.paho]
  covered := fun session => by
    rw [starts.session] at session
    cases session

theorem sound_of_reach {ok : State → Act → Prop} {s : State}
    (reached : Reach step ok Start s) : Sound s :=
  reached.invariant (fun _ starts => sound_start starts) fun _ _ _ sound _ ran =>
    sound_step sound ran

/-- Readiness is never claimed too early, at any instant. -/
theorem bothGranted_of_ready {s : State} (sound : Sound s) (up : s.ready = true) :
    s.bothGranted = true := by
  have ready := sound.ready
  unfold Ready at ready
  split at ready
  · exact ready up
  · exact ready up
  · rw [up] at ready
    cases ready
  · rw [up] at ready
    cases ready.1
  · rw [up] at ready
    cases ready.1
  · exact ready.symm.trans up

/-- **The subscription state of every run**, between two callbacks: (a) `_ready` holds
exactly when both required topics are granted; (b) after a successful `_on_connect` and
until the next disconnect each topic is granted, or has a pending mid whose SUBACK is still
to come, or the flag is set, and then the next unthrottled tick subscribes it. -/
theorem subscriptions_of_reach {s : State} (reached : Reach step Always Start s)
    (between : s.paho = .idle) :
    (s.ready = true ↔ s.grantedTopics .reading = true ∧ s.grantedTopics .status = true) ∧
      (s.session = true → ∀ topic, s.grantedTopics topic = true ∨
        (∃ mid ∈ s.outstanding, s.pendingSubs mid = some topic) ∨
          (s.subscribeFailed = true ∧ ∀ now answers, s.nextSubscribeRetry ≤ now →
            (topic ∈ (maybeRetrySubscribes now true answers s).2 ↔
              s.grantedTopics topic = false))) := by
  have sound := sound_of_reach reached
  have ready := sound.ready
  simp only [Ready, between] at ready
  refine ⟨by simp [ready, State.bothGranted], ?_⟩
  intro session topic
  rcases sound.covered session topic (by simp [between, PahoPc.popped]) with
    granted | ⟨mid, member, registered, _⟩ | flagged
  · exact Or.inl granted
  · exact Or.inr (Or.inl ⟨mid, member, registered⟩)
  · refine Or.inr (Or.inr ⟨flagged, ?_⟩)
    intro now answers unthrottled
    exact mem_maybeRetrySubscribes flagged unthrottled answers topic

/-! ## A run with a denied subscription -/

def initial : State :=
  { pendingSubs := fun _ => none
    ready := false
    grantedTopics := fun _ => false
    subscribeFailed := false
    nextSubscribeRetry := 0
    paho := .idle
    worker := .idle
    outstanding := []
    session := false }

theorem start_initial : Start initial := ⟨fun _ => rfl, rfl, fun _ => rfl, rfl, rfl, rfl, rfl, rfl⟩

/-- Subscribing the status topic fails; the worker retries it, and its SUBACK comes before
the mid is registered.  The reading topic is granted, the alerts topic denied. -/
def unregisteredAck : List Act :=
  [.connect 0, .paho (some 1), .paho none, .paho none, .paho (some 2), .paho none, .paho none,
    .suback 1 [1], .paho none, .paho none, .paho none,
    .worker 0 true none, .worker 0 true none, .worker 0 true none, .worker 0 true none,
      .worker 0 true (some 3),
    .suback 3 [1], .paho none, .worker 0 true none, .suback 2 [128], .paho none]

/-- The status topic is neither granted nor waited for, and the next tick subscribes it. -/
theorem subscriptions_of_reach_retry :
    ∃ s, Reach step Always Start s ∧ s.session = true ∧ s.ready = false ∧ s.outstanding = [] ∧
      .status ∈ (maybeRetrySubscribes 5000 true (fun _ => none) s).2 := by
  obtain ⟨s, reached, final⟩ :=
    exists_reach_of_run step Always start_initial unregisteredAck
      (fun s => decide (s.paho = .idle ∧ s.session = true ∧ s.outstanding = [] ∧ s.grantedTopics .reading = true ∧
        s.grantedTopics .status = false ∧ s.nextSubscribeRetry ≤ 5000)) (by decide)
  obtain ⟨between, session, none, reading, status, throttle⟩ := of_decide_eq_true final
  obtain ⟨ready, covered⟩ := subscriptions_of_reach reached between
  refine ⟨s, reached, session, ?_, none, ?_⟩
  · cases up : s.ready
    · rfl
    · rw [(ready.mp up).2] at status
      cases status
  · rcases covered session .status with granted | ⟨mid, member, _⟩ | ⟨_, retried⟩
    · rw [status] at granted
      cases granted
    · rw [none] at member
      cases member
    · exact (retried 5000 (fun _ => Option.none) throttle).mpr status

end Empyrean.Mqtt.Subscriptions
