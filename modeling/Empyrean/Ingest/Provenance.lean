/-
# Empyrean.Ingest.Provenance — where a stored reading and a heartbeat come from

From the broker to the table: `_on_message` puts a message on the worker queue, a handler
parses and validates it, `_dispatch_reading` hands it to Celery (up to three times, and a
call that raises may have handed it over), and Celery delivers each task as often as it
likes, to any clock.  The node id of the topic is written over the one in the body before
anything looks at it.

* `step` — one operation of one of these parties.
* `Traced` — what is on the way can be traced to a message; `traced_step` keeps it.
* `stored_origin` — every row is from a message on its own node's topic, with the values
  the gate let through, whatever the body said about the node.
* `lastSeen_origin` — every `last_seen` is the time at which a heartbeat from the node's
  own topic was handled, and never moves back.
-/
import Empyrean.Ingest.Delivery
import Empyrean.Mqtt.OnMessage
import Empyrean.Theory.Runs

namespace Empyrean.Ingest.Provenance

set_option autoImplicit false

open Empyrean.Theory.Runs Empyrean.Theory.PyDict Empyrean.Mqtt.OnMessage
open Empyrean.Theory.PyNumeral (Text PyFloat)
open Empyrean.Theory.Rounding (roundSingle)
open Empyrean.Mqtt.Drain (Kind dispatchMaxAttempts)

/-! ## Handlers -/

/-- A field of a heartbeat, as pydantic reads it. -/
inductive Field (α : Type)
  | absent
  | value (v : α)
  | invalid

structure RawStatus where
  online : Field Bool
  batteryV : Field PyFloat
  firmware : Field Text

/-- `ge=0, le=5` -/
def batteryInRange : PyFloat → Bool
  | .fin v => decide (0 ≤ v ∧ v ≤ 5)
  -- neither `nan < 0` nor `nan > 5`
  | .nan => true
  | .inf _ => false

structure StatusPayload where
  online : Bool
  batteryV : Option { v : PyFloat // batteryInRange v = true }
  firmware : Option { t : Text // t.length ≤ 64 }

/-- `validate_status` -/
def validateStatus (data : RawStatus) : Option StatusPayload := do
  let online ← match data.online with
    | .value online => some online
    | _ => none
  let batteryV ← match data.batteryV with
    | .absent => some none
    | .value v => if inRange : batteryInRange v = true then some (some ⟨v, inRange⟩) else none
    | .invalid => none
  let firmware ← match data.firmware with
    | .absent => some none
    | .value t => if short : t.length ≤ 64 then some (some ⟨t, short⟩) else none
    | .invalid => none
  return { online := online, batteryV := batteryV, firmware := firmware }

/-- `_json_loads` for the two kinds of message: `none` is a text that is not a JSON object. -/
structure Json extends Library where
  reading : Text → Option (RawReading Text)
  status : Text → Option RawStatus

section Handlers

variable (json : Json)

/-- `_handle_reading`, up to the dispatch.  `node_id` has a pattern of its own in the schema. -/
def handleReading (nodeId raw : Text) : Option (ReadingPayload Text) :=
  match json.reading raw with
  | none => none
  | some data =>
      if Fleet.nodeIdSafe nodeId then validateReading { data with nodeId := some nodeId } else none

/-- `_handle_status`, up to the `UPDATE`. -/
def handleStatus (raw : Text) : Bool :=
  match json.status raw with
  | none => false
  | some data =>
      match validateStatus data with
      | none => false
      | some payload => payload.online

/-- What the body says about its node does not matter. -/
theorem handleReading_body {nodeId raw : Text} {data : RawReading Text} (said : Option Text)
    (json' : Json) (here : json.reading raw = some data)
    (there : json'.reading raw = some { data with nodeId := said }) :
    handleReading json' nodeId raw = handleReading json nodeId raw := by
  simp only [handleReading, here, there]

theorem handleReading_nodeId {nodeId raw : Text} {payload : ReadingPayload Text}
    (handled : handleReading json nodeId raw = some payload) : payload.nodeId = some nodeId := by
  unfold handleReading at handled
  split at handled
  · cases handled
  split at handled
  · unfold validateReading at handled
    split at handled
    · split at handled
      · cases handled
        rfl
      · cases handled
        rfl
      · cases handled
    · cases handled
  · cases handled

end Handlers

/-! ## The system -/

structure State where
  clock : Int
  received : List Arrival
  nodeLastSeen : Dict Text Rat
  queue : List (Text × Kind × Text)
  /-- The messages that a handler took, and when. -/
  handled : List ((Text × Kind × Text) × Int)
  tasks : List (TaskPayload Text)
  /-- The tasks that a worker ran, and its clock when it stamped the row. -/
  runs : List (TaskPayload Text × Int)
  db : Db Text
  /-- `nodes.last_seen` -/
  lastSeen : Text → Option Int

inductive Act
  /-- A message arrives; `room` says that the queue takes it. -/
  | message (a : Arrival) (room : Bool)
  /-- The worker or `stop` takes the next message.  `copies` of a reading reach Celery.
  `handled` is false where the handler raises, or `stop` drops a heartbeat. -/
  | take (copies : Nat) (handled : Bool) (now : Int)
  /-- The process starts again; the messages in its queue are gone. -/
  | restart
  /-- A worker runs a task; `again` says that it stays to be delivered again. -/
  | deliver (i : Nat) (again : Bool) (now later : Int)
  /-- The API registers a node, or changes `is_active`. -/
  | setNode (nodeId : Text) (active : Bool)
  /-- Retention deletes readings. -/
  | purge (kept : SensorReading Text → Bool)

section System

variable (json : Json)

/-- A handler is done with a message. -/
def handle (s : State) (item : Text × Kind × Text) (copies : Nat) (now : Int) : State :=
  match item with
  | (nodeId, .reading, raw) =>
      match handleReading json nodeId raw with
      | none => s
      | some payload => { s with
          tasks := s.tasks ++ List.replicate (min copies dispatchMaxAttempts) payload.dump }
  | (nodeId, .status, raw) =>
      -- "Heartbeat for unknown node ignored"
      if handleStatus json raw ∧ s.db.nodes nodeId ≠ none then
        { s with lastSeen := Function.update s.lastSeen nodeId (some now) }
      else s
  | (_, .alert, _) => s

/-- The task runs; a run that raises is rolled back. -/
def runTask (db : Db Text) (task : TaskPayload Text) (now later : Int) : Db Text :=
  match processReading db task now later with
  | .ok (_, db') => db'
  | .error _ => db

def step (s : State) : Act → Option State
  | .message a room =>
      if s.clock ≤ a.now then
        let (nodeLastSeen, outcome) := onMessage json.toLibrary s.nodeLastSeen a
        let s :=
          { s with clock := a.now, received := s.received ++ [a], nodeLastSeen := nodeLastSeen }
        match outcome with
        | .enqueued nodeId kind raw =>
            some (if room then { s with queue := s.queue ++ [(nodeId, kind, raw)] } else s)
        | _ => some s
      else none
  | .take copies handled now =>
      match s.queue with
      | [] => none
      | item :: rest =>
          if s.clock ≤ now then
            let s := { s with clock := now, queue := rest }
            some (if handled then handle json { s with handled := s.handled ++ [(item, now)] } item copies now else s)
          else none
  | .restart => some { s with nodeLastSeen := Dict.empty, queue := [] }
  | .deliver i again now later =>
      match s.tasks[i]? with
      | none => none
      | some task => some { s with
          tasks := if again then s.tasks else s.tasks.eraseIdx i
          runs := s.runs ++ [(task, now)]
          db := runTask s.db task now later }
  | .setNode nodeId active =>
      some { s with db := { s.db with nodes := Function.update s.db.nodes nodeId (some active) } }
  | .purge kept => some { s with db := { s.db with readings := s.db.readings.filter kept } }

structure Start (s : State) : Prop where
  received : s.received = []
  queue : s.queue = []
  handled : s.handled = []
  tasks : s.tasks = []
  runs : s.runs = []
  readings : s.db.readings = []
  lastSeen : ∀ nodeId, s.lastSeen nodeId = none

end System

/-! ## The columns -/

/-- The columns hold what the payload makes: its values, and score and index of these, each as
`real` leaves it. -/
structure Columns (real : Rat → Rat) (payload : ReadingPayload Text)
    (r : SensorReading Text) : Prop where
  value : ∀ f, r.value f = (payload.value f).map real
  fuzzyScore : r.fuzzyScore =
    some (real (Fuzzy.fuzzyScore ((payload.value .temperature).getD 25) ((payload.value .humidity).getD 0)
      ((payload.value .pm25).getD 0)))
  aqi : r.aqi = (Aqi.computeAqi (payload.value .pm25) (payload.value .pm10)).map Prod.fst
  aqiCategory : r.aqiCategory =
    (Aqi.computeAqi (payload.value .pm25) (payload.value .pm10)).map Prod.snd

theorem buildReading_columns {payload : ReadingPayload Text} {node : Text} {now : Int}
    {row : SensorReading Text} (built : buildReading payload.dump node now = .ok row)
    (real : Rat → Rat) (flag : Bool) :
    Columns real payload (SensorReading.stored real { row with isAnomaly := flag }) := by
  unfold buildReading at built
  cases parsed : parseTime payload.dump.time now with
  | error raised =>
      rw [parsed] at built
      cases built
  | ok t =>
      rw [parsed] at built
      simp only [validFloat_dump] at built
      cases built
      exact ⟨fun f => by cases f <;> rfl, rfl, rfl, rfl⟩

/-- The row that a run returns is the built one, with its flag. -/
theorem processReading_built {db db' : Db Text} {task : TaskPayload Text} {now later : Int}
    {row : SensorReading Text} (stored : processReading db task now later = .ok (some row, db')) :
    ∃ node built, task.nodeId = some node ∧ buildReading task node now = .ok built ∧
      row = { built with isAnomaly := detectAnomaly db.readings node built.pm25 later } := by
  unfold processReading at stored
  split at stored
  · cases stored
  rename_i node named
  split at stored
  case h_2 => cases stored
  split at stored
  · cases stored
  rename_i built eq
  simp only at stored
  split at stored
  · cases stored
    exact ⟨node, built, named, eq, rfl⟩
  · split at stored <;> cases stored
  · cases stored

/-- What a run of the task leaves in the table. -/
theorem runTask_cases (db : Db Text) {payload : ReadingPayload Text} {nodeId : Text}
    (named : payload.nodeId = some nodeId) (now later : Int) :
    runTask db payload.dump now later = db ∨
      ∃ row, row.node = nodeId ∧ row.time = payload.stampAt now ∧ Columns db.real payload row ∧
        runTask db payload.dump now later = { db with readings := db.readings ++ [row] } := by
  unfold runTask
  by_cases active : db.nodes nodeId = some true
  · obtain ⟨row, isRow, eq⟩ := processReading_eq named active now later
    split at eq
    · rw [eq]
      exact Or.inl rfl
    split at eq
    · rw [eq]
      exact Or.inl rfl
    split at eq
    · rw [eq]
      exact Or.inl rfl
    obtain ⟨node, built, _, made, same⟩ := processReading_built eq
    refine Or.inr ⟨row.stored db.real, isRow.node, isRow.time, ?_, by rw [eq]⟩
    rw [same]
    exact buildReading_columns made db.real _
  · have dumped : payload.dump.nodeId = some nodeId := named
    have dropped : processReading db payload.dump now later = .ok (none, db) := by
      simp only [processReading, dumped]
    rw [dropped]
    exact Or.inl rfl

section Traces

variable {json : Json}

/-! ## What is on the way -/

/-- A message that was received goes to this node's handler of this kind. -/
def From (json : Json) (received : List Arrival) (nodeId : Text) (kind : Kind) (raw : Text)
    (a : Arrival) : Prop :=
  a ∈ received ∧ route json.toLibrary a.msg = .inr (nodeId, kind, raw)

/-- The message passed the size, encoding, topic and node id checks. -/
theorem route_inr {msg : Message} {nodeId raw : Text} {kind : Kind}
    (routed : route json.toLibrary msg = .inr (nodeId, kind, raw)) :
    msg.payload.length ≤ maxPayloadBytes ∧ json.decode msg.payload = some raw ∧
      topicMatch msg.topic = some (nodeId, kind) ∧ Fleet.nodeIdSafe nodeId = true := by
  unfold route at routed
  split at routed
  · cases routed
  rename_i small
  split at routed
  · cases routed
  rename_i decoded
  split at routed
  · cases routed
  split at routed
  · cases routed
  rename_i matched
  split at routed
  · rename_i safe
    cases routed
    exact ⟨not_lt.mp small, decoded, matched, safe⟩
  · cases routed

theorem onMessage_enqueued {nodeLastSeen : Dict Text Rat} {a : Arrival} {nodeId raw : Text}
    {kind : Kind}
    (enqueued : (onMessage json.toLibrary nodeLastSeen a).2 = .enqueued nodeId kind raw) :
    kind = .alert ∨ route json.toLibrary a.msg = .inr (nodeId, kind, raw) := by
  unfold onMessage at enqueued
  cases routed : route json.toLibrary a.msg with
  | inl outcome =>
      rw [routed] at enqueued
      simp only at enqueued
      subst enqueued
      left
      unfold route at routed
      split at routed
      · cases routed
      split at routed
      · cases routed
      split at routed
      · cases routed
        rfl
      split at routed
      · cases routed
      split at routed <;> cases routed
  | inr sent =>
      rw [routed] at enqueued
      obtain ⟨nodeId', kind', raw'⟩ := sent
      right
      simp only at enqueued
      split at enqueued
      · cases enqueued
        rfl
      · split at enqueued
        · cases enqueued
        · cases enqueued
          rfl
        · cases enqueued

variable (json) in
/-- A row that one message was turned into, by one run of its task. -/
def Origin (received : List Arrival) (runs : List (TaskPayload Text × Int)) (real : Rat → Rat)
    (r : SensorReading Text) : Prop :=
  ∃ a raw payload now, From json received r.node .reading raw a ∧
    handleReading json r.node raw = some payload ∧
    (payload.dump, now) ∈ runs ∧ r.time = payload.stampAt now ∧ Columns real payload r

variable (json) in
/-- What is on the way, and what arrived, is from a message. -/
structure Traced (s : State) : Prop where
  received : ∀ a ∈ s.received, a.now ≤ s.clock
  queue : ∀ nodeId kind raw, (nodeId, kind, raw) ∈ s.queue →
    kind = .alert ∨ ∃ a, From json s.received nodeId kind raw a
  tasks : ∀ task ∈ s.tasks, ∃ nodeId raw payload a, From json s.received nodeId .reading raw a ∧
    handleReading json nodeId raw = some payload ∧ task = payload.dump
  handled : ∀ nodeId kind raw t, ((nodeId, kind, raw), t) ∈ s.handled →
    t ≤ s.clock ∧ (kind = .alert ∨ ∃ a, From json s.received nodeId kind raw a ∧ a.now ≤ t)
  rows : ∀ r ∈ s.db.readings, Origin json s.received s.runs s.db.real r
  seen : ∀ nodeId t, s.lastSeen nodeId = some t →
    ∃ raw, ((nodeId, .status, raw), t) ∈ s.handled ∧ handleStatus json raw = true

theorem traced_start {s : State} (starts : Start s) : Traced json s where
  received := by
    rw [starts.received]
    exact fun a member => nomatch member
  queue := by
    rw [starts.queue]
    exact fun _ _ _ member => nomatch member
  tasks := by
    rw [starts.tasks]
    exact fun _ member => nomatch member
  handled := by
    rw [starts.handled]
    exact fun _ _ _ _ member => nomatch member
  rows := by
    rw [starts.readings]
    exact fun _ member => nomatch member
  seen := fun nodeId t seen => by
    rw [starts.lastSeen nodeId] at seen
    cases seen

theorem From.mono {received received' : List Arrival} (more : ∀ a ∈ received, a ∈ received')
    {nodeId raw : Text} {kind : Kind} {a : Arrival}
    (source : From json received nodeId kind raw a) : From json received' nodeId kind raw a :=
  ⟨more a source.1, source.2⟩

theorem Origin.mono {received received' : List Arrival} (more : ∀ a ∈ received, a ∈ received')
    {runs runs' : List (TaskPayload Text × Int)} (moreRuns : ∀ run ∈ runs, run ∈ runs')
    {real : Rat → Rat} {r : SensorReading Text} (origin : Origin json received runs real r) :
    Origin json received' runs' real r := by
  obtain ⟨a, raw, payload, now, source, handled, ran, time, columns⟩ := origin
  exact ⟨a, raw, payload, now, source.mono more, handled, moreRuns _ ran, time, columns⟩

/-- A handler that is done with a message it took. -/
theorem traced_handle {s : State} (traced : Traced json s) {nodeId raw : Text} {kind : Kind}
    (copies : Nat) {now : Int} (taken : ((nodeId, kind, raw), now) ∈ s.handled) :
    Traced json (handle json s (nodeId, kind, raw) copies now) := by
  have source := (traced.handled nodeId kind raw now taken).2
  cases kind with
  | alert => exact traced
  | reading =>
      obtain ⟨a, source, _⟩ := source.resolve_left nofun
      simp only [handle]
      split
      · exact traced
      · rename_i payload handled
        refine { traced with tasks := ?_ }
        intro task member
        rcases List.mem_append.mp member with earlier | new
        · exact traced.tasks task earlier
        · exact ⟨nodeId, raw, payload, a, source, handled, (List.mem_replicate.mp new).2⟩
  | status =>
      simp only [handle]
      split
      · rename_i online
        refine { traced with seen := ?_ }
        intro nodeId' t seen
        by_cases here : nodeId' = nodeId
        · subst here
          cases (Function.update_self nodeId' (some now) s.lastSeen).symm.trans seen
          exact ⟨raw, taken, online.1⟩
        · exact traced.seen nodeId' t ((Function.update_of_ne here _ _).symm.trans seen)
      · exact traced

/-- A message arrives. -/
theorem traced_received {s : State} (traced : Traced json s) {a : Arrival} (later : s.clock ≤ a.now)
    (nodeLastSeen : Dict Text Rat) : Traced json { s with
      clock := a.now, received := s.received ++ [a], nodeLastSeen := nodeLastSeen } := by
  have more : ∀ b ∈ s.received, b ∈ s.received ++ [a] :=
    fun b member => List.mem_append_left _ member
  refine ⟨?_, ?_, ?_, ?_, fun r member => (traced.rows r member).mono more fun _ ran => ran,
    traced.seen⟩
  · intro b member
    rcases List.mem_append.mp member with earlier | new
    · exact le_trans (traced.received b earlier) later
    · rw [List.mem_singleton.mp new]
  · intro nodeId kind raw member
    exact (traced.queue nodeId kind raw member).imp_right fun ⟨b, source⟩ => ⟨b, source.mono more⟩
  · intro task member
    obtain ⟨nodeId, raw, payload, b, source, rest⟩ := traced.tasks task member
    exact ⟨nodeId, raw, payload, b, source.mono more, rest⟩
  · intro nodeId kind raw t member
    obtain ⟨past, source⟩ := traced.handled nodeId kind raw t member
    exact ⟨le_trans past later,
      source.imp_right fun ⟨b, source, before⟩ => ⟨b, source.mono more, before⟩⟩

/-- The next message is off the queue. -/
theorem traced_taken {s : State} (traced : Traced json s) {item : Text × Kind × Text}
    {rest : List (Text × Kind × Text)} (queued : s.queue = item :: rest) {now : Int}
    (later : s.clock ≤ now) : Traced json { s with clock := now, queue := rest } := by
  refine { traced with received := ?_, queue := ?_, handled := ?_ }
  · exact fun a member => le_trans (traced.received a member) later
  · intro nodeId kind raw member
    refine traced.queue nodeId kind raw ?_
    rw [queued]
    exact List.mem_cons_of_mem _ member
  · intro nodeId kind raw t member
    obtain ⟨past, source⟩ := traced.handled nodeId kind raw t member
    exact ⟨le_trans past later, source⟩

/-- A handler has taken a message that was in the queue. -/
theorem traced_noted {s : State} (traced : Traced json s) {nodeId raw : Text} {kind : Kind}
    (source : kind = .alert ∨ ∃ a, From json s.received nodeId kind raw a) :
    Traced json { s with handled := s.handled ++ [((nodeId, kind, raw), s.clock)] } := by
  refine { traced with handled := ?_, seen := ?_ }
  · intro nodeId' kind' raw' t member
    rcases List.mem_append.mp member with earlier | new
    · exact traced.handled nodeId' kind' raw' t earlier
    · cases List.mem_singleton.mp new
      exact ⟨le_refl _, source.imp_right fun ⟨a, source⟩ => ⟨a, source, traced.received a source.1⟩⟩
  · intro nodeId' t seen
    obtain ⟨raw', there, online⟩ := traced.seen nodeId' t seen
    exact ⟨raw', List.mem_append_left _ there, online⟩

/-- A worker runs a task. -/
theorem traced_delivered {s : State} (traced : Traced json s) {task : TaskPayload Text}
    (queued : task ∈ s.tasks) {tasks : List (TaskPayload Text)}
    (fewer : ∀ other ∈ tasks, other ∈ s.tasks) (now later : Int) : Traced json { s with
      tasks := tasks, runs := s.runs ++ [(task, now)], db := runTask s.db task now later } := by
  obtain ⟨nodeId, raw, payload, a, source, handled, rfl⟩ := traced.tasks task queued
  have ran : ∀ run ∈ s.runs, run ∈ s.runs ++ [(payload.dump, now)] :=
    fun run member => List.mem_append_left _ member
  have remaining := fun other member => traced.tasks other (fewer other member)
  rcases runTask_cases s.db (handleReading_nodeId json handled) now later with same |
    ⟨row, node, time, columns, more⟩
  · rw [same]
    exact { traced with
      tasks := remaining
      rows := fun r member => (traced.rows r member).mono (fun _ here => here) ran }
  · rw [more]
    refine { traced with tasks := remaining, rows := ?_ }
    intro r member
    rcases List.mem_append.mp member with earlier | new
    · exact (traced.rows r earlier).mono (fun _ here => here) ran
    · cases List.mem_singleton.mp new
      subst node
      exact ⟨a, raw, payload, now, source, handled,
        List.mem_append_right _ (List.mem_singleton_self _), time, columns⟩

theorem traced_step {s s' : State} {act : Act} (traced : Traced json s)
    (stepped : step json s act = some s') : Traced json s' := by
  cases act with
  | message a room =>
      simp only [step] at stepped
      split at stepped
      case isFalse => cases stepped
      rename_i later
      have noted := traced_received traced later (onMessage json.toLibrary s.nodeLastSeen a).1
      split at stepped
      · rename_i nodeId kind raw enqueued
        cases stepped
        split
        · refine { noted with queue := ?_ }
          intro nodeId' kind' raw' member
          rcases List.mem_append.mp member with earlier | new
          · exact noted.queue nodeId' kind' raw' earlier
          · cases List.mem_singleton.mp new
            exact (onMessage_enqueued enqueued).imp_right fun routed =>
              ⟨a, List.mem_append_right _ (List.mem_singleton_self _), routed⟩
        · exact noted
      · cases stepped
        exact noted
  | take copies handled now =>
      simp only [step] at stepped
      split at stepped
      · cases stepped
      rename_i item rest queued
      split at stepped
      case isFalse => cases stepped
      rename_i later
      cases stepped
      obtain ⟨nodeId, kind, raw⟩ := item
      have taken := traced_taken traced queued later
      split
      · have source := traced.queue nodeId kind raw (by rw [queued]; exact List.mem_cons_self)
        exact traced_handle (traced_noted taken source) copies
          (List.mem_append_right _ (List.mem_singleton_self _))
      · exact taken
  | restart =>
      cases stepped
      exact { traced with queue := fun _ _ _ member => nomatch member }
  | deliver i again now later =>
      simp only [step] at stepped
      split at stepped
      · cases stepped
      rename_i task found
      cases stepped
      refine traced_delivered traced (List.mem_of_getElem? found) ?_ now later
      intro other member
      split at member
      · exact member
      · exact List.mem_of_mem_eraseIdx member
  | setNode nodeId active =>
      cases stepped
      exact { traced with }
  | purge kept =>
      cases stepped
      exact { traced with rows := fun r member => traced.rows r (List.mem_filter.mp member).1 }

theorem traced_of_reach {s : State} (reached : Reach (step json) Always Start s) : Traced json s :=
  reached.invariant (fun _ starts => traced_start starts) fun _ _ _ traced _ stepped =>
    traced_step traced stepped

end Traces

/-! ## The origin of rows and heartbeats -/

section Results

variable {json : Json}

/-- **Every stored reading** is from a message that arrived on its own node's topic: the topic's
id is its node, whatever id the body gave.  Its columns hold, in single precision, the values the
gate let through and the score of these values, and the index of these values; its time is that of
the payload, where it is within a day of the clock of the run that stored the row, and else this
clock. -/
theorem stored_origin {s : State} (reached : Reach (step json) Always Start s)
    {r : SensorReading Text} (stored : r ∈ s.db.readings) :
    Fleet.nodeIdSafe r.node = true ∧
      ∃ a ∈ s.received, topicMatch a.msg.topic = some (r.node, .reading) ∧
        a.msg.payload.length ≤ maxPayloadBytes ∧
        ∃ raw data payload now, json.decode a.msg.payload = some raw ∧
          json.reading raw = some data ∧
          validateReading { data with nodeId := some r.node } = some payload ∧
            Columns s.db.real payload r ∧
          (payload.dump, now) ∈ s.runs ∧
          ((∃ dt ∈ payload.time, InWindow dt.instant now ∧ r.time = dt.instant) ∨
            (∀ dt ∈ payload.time, ¬ InWindow dt.instant now) ∧ r.time = now) := by
  obtain ⟨a, raw, payload, now, ⟨arrived, routed⟩, handled, ran, time, columns⟩ :=
    (traced_of_reach reached).rows r stored
  obtain ⟨small, decoded, topic, safe⟩ := route_inr routed
  unfold handleReading at handled
  split at handled
  · cases handled
  rename_i data body
  rw [if_pos safe] at handled
  refine ⟨safe, a, arrived, topic, small, raw, data, payload, now, decoded, body, handled,
    columns, ran, ?_⟩
  rw [time]
  exact payload.stampAt_cases now

theorem lastSeen_step {s s' : State} {act : Act} (traced : Traced json s)
    (stepped : step json s act = some s') {nodeId : Text} {t : Int}
    (seen : s.lastSeen nodeId = some t) : ∃ t', s'.lastSeen nodeId = some t' ∧ t ≤ t' := by
  obtain ⟨raw, handled, _⟩ := traced.seen nodeId t seen
  have past := (traced.handled nodeId .status raw t handled).1
  cases act with
  | message a room =>
      simp only [step] at stepped
      split at stepped
      case isFalse => cases stepped
      split at stepped
      · cases stepped
        split <;> exact ⟨t, seen, le_refl t⟩
      · cases stepped
        exact ⟨t, seen, le_refl t⟩
  | take copies handled now =>
      simp only [step] at stepped
      split at stepped
      · cases stepped
      rename_i item rest queued
      split at stepped
      case isFalse => cases stepped
      rename_i later
      cases stepped
      split
      · obtain ⟨nodeId', kind, raw⟩ := item
        cases kind with
        | alert => exact ⟨t, seen, le_refl t⟩
        | reading =>
            simp only [handle]
            split <;> exact ⟨t, seen, le_refl t⟩
        | status =>
            simp only [handle]
            split
            · by_cases here : nodeId = nodeId'
              · subst here
                exact ⟨now, Function.update_self _ _ _, le_trans past later⟩
              · exact ⟨t, (Function.update_of_ne here _ _).trans seen, le_refl t⟩
            · exact ⟨t, seen, le_refl t⟩
      · exact ⟨t, seen, le_refl t⟩
  | restart =>
      cases stepped
      exact ⟨t, seen, le_refl t⟩
  | deliver i again now later =>
      simp only [step] at stepped
      split at stepped
      · cases stepped
      cases stepped
      exact ⟨t, seen, le_refl t⟩
  | setNode nodeId' active =>
      cases stepped
      exact ⟨t, seen, le_refl t⟩
  | purge kept =>
      cases stepped
      exact ⟨t, seen, le_refl t⟩

theorem lastSeen_run {s s' : State} (traced : Traced json s)
    (run : Reach (step json) Always (fun x => x = s) s') {nodeId : Text} {t : Int}
    (seen : s.lastSeen nodeId = some t) : ∃ t', s'.lastSeen nodeId = some t' ∧ t ≤ t' := by
  refine (run.invariant (I := fun s' => Traced json s' ∧ ∃ t', s'.lastSeen nodeId = some t' ∧ t ≤ t') ?_ ?_).2
  · rintro _ rfl
    exact ⟨traced, t, seen, le_refl t⟩
  · rintro mid act next ⟨traced, u, seen, after⟩ _ stepped
    obtain ⟨u', seen', after'⟩ := lastSeen_step traced stepped seen
    exact ⟨traced_step traced stepped, u', seen', le_trans after after'⟩

/-- **Every `last_seen`** is the time at which an online heartbeat was handled that had arrived
before, on the node's own topic; it never moves back and is never lost. -/
theorem lastSeen_origin {s s' : State} (reached : Reach (step json) Always Start s)
    (run : Reach (step json) Always (fun x => x = s) s') {nodeId : Text} {t : Int}
    (seen : s.lastSeen nodeId = some t) :
    (∃ raw, ((nodeId, .status, raw), t) ∈ s.handled ∧ handleStatus json raw = true ∧
      ∃ a ∈ s.received, topicMatch a.msg.topic = some (nodeId, .status) ∧
        json.decode a.msg.payload = some raw ∧
        a.now ≤ t) ∧
      ∃ t', s'.lastSeen nodeId = some t' ∧ t ≤ t' := by
  have traced := traced_of_reach reached
  obtain ⟨raw, handled, online⟩ := traced.seen nodeId t seen
  obtain ⟨a, ⟨arrived, routed⟩, before⟩ :=
    (traced.handled nodeId .status raw t handled).2.resolve_left nofun
  obtain ⟨_, decoded, topic, _⟩ := route_inr routed
  exact ⟨⟨raw, handled, online, a, arrived, topic, decoded, before⟩, lastSeen_run traced run seen⟩

/-! ## A node with a reading and a heartbeat -/

/-- Every object is `{"pm25": 10.0, "node_id": "n2"}`, and an online heartbeat. -/
def spoofing : Json where
  toLibrary := timeless
  reading _ :=
    some ⟨some "n2".toList, .null, fun f => if f = .pm25 then .number (.fin 10) else .null⟩
  status _ := some ⟨.value true, .absent, .absent⟩

def empty : State where
  clock := 0
  received := []
  nodeLastSeen := Dict.empty
  queue := []
  handled := []
  tasks := []
  runs := []
  db := ⟨roundSingle, fun _ => none, []⟩
  lastSeen := fun _ => none

theorem start_empty : Start empty := ⟨rfl, rfl, rfl, rfl, rfl, rfl, fun _ => rfl⟩

theorem stored_origin_n1 :
    ∃ s : State, ∃ r ∈ s.db.readings, r.node = "n1".toList ∧ r.time = 300002 ∧
    ∃ a ∈ s.received, topicMatch a.msg.topic = some (r.node, .reading) := by
  obtain ⟨s, reached, holds⟩ := exists_reach_of_run (step spoofing) Always start_empty
    [.setNode "n1".toList true, .message reading true, .take 1 true 300001,
      .deliver 0 false 300002 300003]
    (fun s => s.db.readings.any fun r => decide (r.node = "n1".toList ∧ r.time = 300002))
      (by decide +kernel)
  obtain ⟨r, stored, here⟩ := List.any_eq_true.mp holds
  obtain ⟨named, time⟩ := of_decide_eq_true here
  obtain ⟨_, a, arrived, topic, _⟩ := stored_origin reached stored
  exact ⟨s, r, stored, named, time, a, arrived, topic⟩

theorem lastSeen_origin_n1 : ∃ s : State, s.lastSeen "n1".toList = some 5 ∧
    ∃ raw, (("n1".toList, .status, raw), 5) ∈ s.handled ∧ handleStatus spoofing raw = true := by
  obtain ⟨s, reached, holds⟩ := exists_reach_of_run (step spoofing) Always start_empty
    [.setNode "n1".toList true, .message heartbeat true, .take 1 true 5]
    (fun s => s.lastSeen "n1".toList = some 5) (by decide +kernel)
  have seen := of_decide_eq_true holds
  obtain ⟨⟨raw, handled, online, _⟩, _⟩ := lastSeen_origin reached (.init rfl) seen
  exact ⟨s, seen, raw, handled, online⟩

end Results

end Empyrean.Ingest.Provenance
