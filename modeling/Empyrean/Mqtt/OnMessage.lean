/-
# Empyrean.Mqtt.OnMessage — what `_on_message` drops for the rate

`_on_message` (`mqtt/client.py`) runs on the paho loop: it checks the size, the encoding and
the topic of a message, asks the per-node limiter, and puts what is left on the worker
queue.  A reading whose device time is a minute old is backlog and passes even where the
limiter refuses it.

Readings and heartbeats of a node share one entry of the limiter's table, so a heartbeat
can cost a reading:

* `onMessage` — one message.
* `reading_dropped_iff` — of a node that keeps its readings half a second apart, and its
  heartbeats too, a fresh reading is dropped exactly after a recorded heartbeat.
* `reading_after_status_dropped` — such a sequence.

`bytes.decode`, `json.loads` and `datetime.fromisoformat` are parameters.
-/
import Empyrean.Mqtt.NodeRateLimit
import Empyrean.Mqtt.Drain
import Empyrean.Fleet.Nodes
import Empyrean.Ingest.ParseTime

namespace Empyrean.Mqtt.OnMessage

set_option autoImplicit false

open Empyrean.Theory.PyDict Empyrean.Mqtt.NodeRateLimit
open Empyrean.Theory.PyNumeral (Text)
open Empyrean.Mqtt.Drain (Kind)
open Empyrean.Ingest (Datetime)

/-! ## The message -/

/-- `_MAX_PAYLOAD_BYTES` -/
def maxPayloadBytes : Nat := 64 * 1024

/-- `_BACKLOG_FRESHNESS_S`, in microseconds. -/
def backlogFreshness : Int := 60 * 1000000

structure Message where
  topic : Text
  payload : List UInt8

/-- The value under `"time"` of a JSON object. -/
inductive TimeField
  | missing
  | notText
  | text (value : Text)

/-- What `json.loads` does with a text. -/
inductive Loaded
  | valueError
  /-- An exception other than `TypeError` and `ValueError`. -/
  | raised
  | notDict
  | dict (time : TimeField)

/-- The parts of the standard library that a message goes through. -/
structure Library where
  decode : List UInt8 → Option Text
  jsonLoads : Text → Loaded
  fromisoformat : Text → Option Datetime

/-- What becomes of a message. -/
inductive Outcome
  | oversized
  | undecodable
  | unknownTopic
  | invalidNodeId
  | rateLimited
  /-- `except Exception` -/
  | raised
  | enqueued (nodeId : Text) (kind : Kind) (raw : Text)
  deriving DecidableEq

def alertsTopic : Text := "air/alerts".toList

/-- `_TOPIC_RE.fullmatch` -/
def topicMatch (topic : Text) : Option (Text × Kind) :=
  match List.isPrefixOf? "air/node/".toList topic with
  | none => none
  | some rest =>
      let nodeId := rest.takeWhile (· ≠ '/')
      if nodeId = [] then none
      else if rest.dropWhile (· ≠ '/') = "/reading".toList then some (nodeId, .reading)
      else if rest.dropWhile (· ≠ '/') = "/status".toList then some (nodeId, .status)
      else none

section Handler

variable (lib : Library)

/-- `_device_time_is_stale`; `none` is an exception that it does not catch. -/
def deviceTimeIsStale (raw : Text) (now : Int) : Option Bool :=
  match lib.jsonLoads raw with
  | .valueError => some false
  | .raised => none
  | .notDict => some false
  | .dict .missing => some false
  | .dict .notText => some false
  | .dict (.text value) =>
      match lib.fromisoformat value with
      | none => some false
      | some deviceTime => some (decide (now - deviceTime.instant ≥ backlogFreshness))

/-- A message on its way to the limiter: what the checks before it end with, or its node,
kind and text. -/
def route (msg : Message) : Outcome ⊕ (Text × Kind × Text) :=
  if msg.payload.length > maxPayloadBytes then .inl .oversized
  else match lib.decode msg.payload with
    | none => .inl .undecodable
    | some raw =>
        if msg.topic = alertsTopic then .inl (.enqueued alertsTopic .alert raw)
        else match topicMatch msg.topic with
          | none => .inl .unknownTopic
          | some (nodeId, kind) =>
              if Fleet.nodeIdSafe nodeId then .inr (nodeId, kind, raw) else .inl .invalidNodeId

/-- A message, and what the two clocks read when it arrives. -/
structure Arrival where
  msg : Message
  mono : Rat
  now : Int

/-- `_on_message` -/
def onMessage (lastSeen : Dict Text Rat) (a : Arrival) : Dict Text Rat × Outcome :=
  match route lib a.msg with
  | .inl outcome => (lastSeen, outcome)
  | .inr (nodeId, kind, raw) =>
      -- the limiter is asked first: a message that passes it is recorded, backlog or not
      match nodeRateLimited lastSeen ⟨nodeId, a.mono⟩ with
      | (lastSeen, false) => (lastSeen, .enqueued nodeId kind raw)
      | (lastSeen, true) =>
          match deviceTimeIsStale lib raw a.now with
          | none => (lastSeen, .raised)
          | some true => (lastSeen, .enqueued nodeId kind raw)
          | some false => (lastSeen, .rateLimited)

/-- `_node_last_seen` after a sequence of messages. -/
def lastSeenAfter (arrivals : List Arrival) : Dict Text Rat :=
  arrivals.foldl (fun lastSeen a => (onMessage lib lastSeen a).1) Dict.empty

/-- The call of the limiter that a message makes. -/
def limiterCall (a : Arrival) : Option (Call Text) :=
  match route lib a.msg with
  | .inl _ => none
  | .inr (nodeId, _, _) => some ⟨nodeId, a.mono⟩

/-- The message is one of the node and kind, and reaches the limiter. -/
def Sends (a : Arrival) (nodeId : Text) (kind : Kind) : Prop :=
  ∃ raw, route lib a.msg = .inr (nodeId, kind, raw)

/-- The limiter lets the message through, and records it. -/
def Recorded (earlier : List Arrival) (a : Arrival) (nodeId : Text) : Prop :=
  (nodeRateLimited (lastSeenAfter lib earlier) ⟨nodeId, a.mono⟩).2 = false

/-- A sequence of messages in which no node sends two of one kind within half a second. -/
structure Compliant (arrivals : List Arrival) : Prop where
  ordered : arrivals.Pairwise fun a b => a.mono ≤ b.mono
  spaced : arrivals.Pairwise fun a b =>
    ∀ nodeId kind, Sends lib a nodeId kind → Sends lib b nodeId kind →
      nodeMsgMinInterval ≤ b.mono - a.mono
  few : ∃ nodes : List Text, nodes.length < nodeLastSeenPruneTo ∧
    ∀ a ∈ arrivals, ∀ nodeId kind, Sends lib a nodeId kind → nodeId ∈ nodes

end Handler

/-! ## The limiter's calls -/

section Calls

variable {lib : Library} {a : Arrival} {nodeId : Text} {kind : Kind} {raw : Text}

theorem limiterCall_eq_some {call : Call Text} :
    limiterCall lib a = some call ↔ (∃ kind, Sends lib a call.nodeId kind) ∧ call.now = a.mono := by
  obtain ⟨nodeId, now⟩ := call
  simp only [limiterCall, Sends]
  cases route lib a.msg with
  | inl outcome => simp
  | inr sent =>
      obtain ⟨nodeId', kind, raw⟩ := sent
      simp only [Option.some.injEq, Call.mk.injEq, Sum.inr.injEq, Prod.mk.injEq]
      constructor
      · rintro ⟨rfl, rfl⟩
        exact ⟨⟨kind, raw, rfl, rfl, rfl⟩, rfl⟩
      · rintro ⟨⟨_, _, rfl, _, _⟩, rfl⟩
        exact ⟨rfl, rfl⟩

theorem topicMatch_kind {topic : Text} (found : topicMatch topic = some (nodeId, kind)) :
    kind = .reading ∨ kind = .status := by
  simp only [topicMatch] at found
  split at found
  · cases found
  · split at found
    · cases found
    · split at found
      · cases found
        exact Or.inl rfl
      · split at found
        · cases found
          exact Or.inr rfl
        · cases found

theorem Sends.kind_cases (sends : Sends lib a nodeId kind) : kind = .reading ∨ kind = .status := by
  obtain ⟨raw, routed⟩ := sends
  simp only [route] at routed
  split at routed
  · cases routed
  · split at routed
    · cases routed
    · split at routed
      · cases routed
      · split at routed
        · cases routed
        · rename_i found
          split at routed
          · cases routed
            exact topicMatch_kind found
          · cases routed

/-- The table changes as the limiter changes it. -/
theorem onMessage_lastSeen (lastSeen : Dict Text Rat) :
    (onMessage lib lastSeen a).1 =
      match limiterCall lib a with
      | none => lastSeen
      | some call => (nodeRateLimited lastSeen call).1 := by
  simp only [onMessage, limiterCall]
  cases route lib a.msg with
  | inl outcome => rfl
  | inr sent =>
      obtain ⟨nodeId, kind, raw⟩ := sent
      simp only
      cases asked : nodeRateLimited lastSeen ⟨nodeId, a.mono⟩ with
      | mk lastSeen' limited =>
          cases limited with
          | false => rfl
          | true =>
              simp only
              cases deviceTimeIsStale lib raw a.now with
              | none => rfl
              | some stale => cases stale <;> rfl

theorem lastSeenAfter_eq (arrivals : List Arrival) :
    lastSeenAfter lib arrivals =
      after nodeRateLimited Dict.empty (arrivals.filterMap (limiterCall lib)) := by
  have general : ∀ (arrivals : List Arrival) (lastSeen : Dict Text Rat),
      arrivals.foldl (fun lastSeen a => (onMessage lib lastSeen a).1) lastSeen =
        after nodeRateLimited lastSeen (arrivals.filterMap (limiterCall lib)) := by
    intro arrivals
    induction arrivals with
    | nil => exact fun _ => rfl
    | cons a arrivals ih =>
        intro lastSeen
        rw [List.foldl_cons, ih, onMessage_lastSeen, List.filterMap_cons]
        cases limiterCall lib a with
        | none => rfl
        | some call => rfl
  exact general arrivals Dict.empty

/-- A message that reaches the limiter is lost iff it is refused and is not backlog. -/
theorem onMessage_dropped_iff (lastSeen : Dict Text Rat)
    (routed : route lib a.msg = .inr (nodeId, kind, raw)) :
    (onMessage lib lastSeen a).2 ≠ .enqueued nodeId kind raw ↔
      tooSoon (lastSeen.get? nodeId) a.mono = true ∧
        deviceTimeIsStale lib raw a.now ≠ some true := by
  simp only [onMessage, routed, nodeRateLimited]
  by_cases soon : tooSoon (lastSeen.get? nodeId) a.mono = true
  · simp only [soon, if_true, true_and]
    cases deviceTimeIsStale lib raw a.now with
    | none => simp
    | some stale => cases stale <;> simp
  · simp [soon]

end Calls

/-! ## Readings and the rate -/

section Compliance

variable {lib : Library} {arrivals earlier later : List Arrival} {a : Arrival} {nodeId : Text}
    {raw : Text}

/-- The calls that passed are those of the messages recorded. -/
theorem mem_admitted_filterMap {call : Call Text} :
    call ∈ admitted nodeRateLimited Dict.empty (earlier.filterMap (limiterCall lib)) ↔
      ∃ before b between, earlier = before ++ b :: between ∧ limiterCall lib b = some call ∧
        Recorded lib before b call.nodeId := by
  have recorded : ∀ (before : List Arrival) (b : Arrival), limiterCall lib b = some call →
      (Recorded lib before b call.nodeId ↔
        (nodeRateLimited (after nodeRateLimited Dict.empty (before.filterMap (limiterCall lib))) call).2 = false) := by
    intro before b asked
    rw [Recorded, lastSeenAfter_eq, ← (limiterCall_eq_some.mp asked).2]
  rw [mem_admitted]
  constructor
  · rintro ⟨calls, calls', split, passed⟩
    obtain ⟨first, rest, rfl, rfl, here⟩ := List.filterMap_eq_append_iff.mp split
    obtain ⟨silent, b, between, rfl, quiet, asked, _⟩ := List.filterMap_eq_cons_iff.mp here
    refine ⟨first ++ silent, b, between, (List.append_assoc ..).symm, asked,
      (recorded _ b asked).mpr ?_⟩
    rwa [List.filterMap_append, List.filterMap_eq_nil_iff.mpr quiet, List.append_nil]
  · rintro ⟨before, b, between, rfl, asked, passed⟩
    refine ⟨before.filterMap (limiterCall lib), between.filterMap (limiterCall lib), ?_,
      (recorded before b asked).mp passed⟩
    rw [List.filterMap_append, List.filterMap_cons, asked]

theorem Compliant.ordered_calls (compliant : Compliant lib arrivals) :
    Ordered (arrivals.filterMap (limiterCall lib)) := by
  rw [Ordered, List.pairwise_filterMap]
  refine compliant.ordered.imp fun inOrder call asked call' asked' => ?_
  rw [(limiterCall_eq_some.mp asked).2, (limiterCall_eq_some.mp asked').2]
  exact inOrder

theorem Compliant.load (compliant : Compliant lib arrivals) :
    Load (admitted nodeRateLimited Dict.empty (arrivals.filterMap (limiterCall lib))) := by
  obtain ⟨nodes, few, known⟩ := compliant.few
  refine load_of_nodes (fun call member => ?_) (Nat.le_of_lt few)
  obtain ⟨b, among, asked⟩ := List.mem_filterMap.mp (admitted_subset _ _ _ member)
  obtain ⟨⟨kind, sends⟩, _⟩ := limiterCall_eq_some.mp asked
  exact known b among _ kind sends

theorem Compliant.before (compliant : Compliant lib (earlier ++ a :: later)) :
    Compliant lib earlier where
  ordered := (List.pairwise_append.mp compliant.ordered).1
  spaced := (List.pairwise_append.mp compliant.spaced).1
  few := by
    obtain ⟨nodes, few, known⟩ := compliant.few
    exact ⟨nodes, few, fun b member => known b (List.mem_append_left _ member)⟩

/-- **A reading is lost to the rate exactly after a heartbeat**: in a sequence in which no node
sends two readings, or two heartbeats, within half a second, a reading that is not backlog
is dropped iff a heartbeat of its node was recorded less than half a second before. -/
theorem reading_dropped_iff (compliant : Compliant lib (earlier ++ a :: later))
    (routed : route lib a.msg = .inr (nodeId, .reading, raw)) :
    (onMessage lib (lastSeenAfter lib earlier) a).2 ≠ .enqueued nodeId .reading raw ↔
      deviceTimeIsStale lib raw a.now ≠ some true ∧
        ∃ before b between, earlier = before ++ b :: between ∧ Sends lib b nodeId .status ∧
          Recorded lib before b nodeId ∧ a.mono - b.mono < nodeMsgMinInterval := by
  have previous : ∀ b ∈ earlier, b.mono ≤ a.mono := fun b member =>
    (List.pairwise_append.mp compliant.ordered).2.2 b member a List.mem_cons_self
  have tracks := (tracks_empty.answers_eq compliant.before.ordered_calls compliant.before.load).2
  rw [List.nil_append] at tracks
  have passedBefore :
      ∀ call ∈ admitted nodeRateLimited Dict.empty (earlier.filterMap (limiterCall lib)),
      call.now ≤ (⟨nodeId, a.mono⟩ : Call Text).now := by
    intro call member
    obtain ⟨b, among, asked⟩ := List.mem_filterMap.mp (admitted_subset _ _ _ member)
    rw [(limiterCall_eq_some.mp asked).2]
    exact previous b among
  rw [onMessage_dropped_iff _ routed, lastSeenAfter_eq,
    tracks.tooSoon_iff compliant.before.load passedBefore, and_comm]
  refine and_congr_right fun _ => ⟨?_, ?_⟩
  · rintro ⟨call, member, rfl, near⟩
    obtain ⟨before, b, between, rfl, asked, passed⟩ := mem_admitted_filterMap.mp member
    obtain ⟨⟨kind, sends⟩, time⟩ := limiterCall_eq_some.mp asked
    rw [time] at near
    refine ⟨before, b, between, rfl, ?_, passed, near⟩
    rcases sends.kind_cases with rfl | rfl
    · -- the readings of the node are half a second apart
      have apart := (List.pairwise_append.mp compliant.spaced).2.2 b
        (List.mem_append_right _ List.mem_cons_self) a List.mem_cons_self _ _ sends ⟨raw, routed⟩
      exact absurd near (not_lt.mpr apart)
    · exact sends
  · rintro ⟨before, b, between, rfl, sends, passed, near⟩
    have asked : limiterCall lib b = some ⟨nodeId, b.mono⟩ :=
      limiterCall_eq_some.mpr ⟨⟨_, sends⟩, rfl⟩
    exact ⟨⟨nodeId, b.mono⟩,
      mem_admitted_filterMap.mpr ⟨before, b, between, rfl, asked, passed⟩, rfl, near⟩

end Compliance

/-! ## A heartbeat and a reading -/

/-- `lib` on ASCII texts that are JSON objects without a time. -/
def timeless : Library where
  decode payload := some (payload.map fun byte => Char.ofNat byte.toNat)
  jsonLoads _ := .dict .missing
  fromisoformat _ := none

def heartbeat : Arrival where
  msg := ⟨"air/node/n1/status".toList,
    "\x7b\"online\": true\x7d".toList.map fun c => c.toNat.toUInt8⟩
  mono := 0
  now := 0

/-- A reading of the same node, 0.3 s after its heartbeat. -/
def reading : Arrival where
  msg := ⟨"air/node/n1/reading".toList,
    "\x7b\"pm25\": 10.0\x7d".toList.map fun c => c.toNat.toUInt8⟩
  mono := 3 / 10
  now := 300000

theorem route_heartbeat : route timeless heartbeat.msg =
    .inr ("n1".toList, .status, "\x7b\"online\": true\x7d".toList) := by decide +kernel

theorem route_reading : route timeless reading.msg =
    .inr ("n1".toList, .reading, "\x7b\"pm25\": 10.0\x7d".toList) := by decide +kernel

theorem compliant_heartbeat_reading : Compliant timeless [heartbeat, reading] where
  ordered := by
    rw [List.pairwise_pair]
    decide +kernel
  spaced := by
    rw [List.pairwise_pair]
    rintro nodeId kind ⟨raw, first⟩ ⟨raw', second⟩
    rw [route_heartbeat] at first
    rw [route_reading] at second
    cases first
    cases second
  few := by
    refine ⟨["n1".toList], by decide, fun a member nodeId kind ⟨raw, routed⟩ => ?_⟩
    rcases List.mem_pair.mp member with rfl | rfl
    · rw [route_heartbeat] at routed
      cases routed
      exact List.mem_singleton_self _
    · rw [route_reading] at routed
      cases routed
      exact List.mem_singleton_self _

/-- A node that sends one reading and one heartbeat loses the reading. -/
theorem reading_after_status_dropped :
    Compliant timeless [heartbeat, reading] ∧ Sends timeless reading "n1".toList .reading ∧
      (onMessage timeless (lastSeenAfter timeless [heartbeat]) reading).2 = .rateLimited :=
  ⟨compliant_heartbeat_reading, ⟨_, route_reading⟩, by decide +kernel⟩

theorem reading_dropped_iff_turns :
    ∃ before b between, [heartbeat] = before ++ b :: between ∧
      Sends timeless b "n1".toList .status ∧
      Recorded timeless before b "n1".toList ∧ reading.mono - b.mono < nodeMsgMinInterval :=
  have compliant : Compliant timeless ([heartbeat] ++ reading :: []) := compliant_heartbeat_reading
  ((reading_dropped_iff compliant route_reading).mp (by decide +kernel)).2

end Empyrean.Mqtt.OnMessage
