/-
# Empyrean.Fleet.DeviceConfig — what a device was last told, and what its row says

`PATCH /nodes/:node_id` pushes a config over MQTT when the body supplies `is_active` or an
interval; `POST /nodes` never does.  A device acts on the last config it was sent, so that
one should say what the row says.

* `publishConfig`, `pushConfig`, `handle` — the routes and the publisher.
* `Synced` — the last published config of a node carries its row's fields.
* `Agrees` — the requests that leave it so: an interval-only PATCH of an active node, and
  no undelete of a node that was sent a config.
* `synced_iff` — a run keeps every node synced exactly when all its requests agree.
-/
import Empyrean.Fleet.Nodes
import Empyrean.Theory.Runs

namespace Empyrean.Fleet.DeviceConfig

set_option autoImplicit false

open Empyrean.Theory.PyNumeral (Text)
open Empyrean.Theory.Runs

/-! ## Publishing a config -/

/-- The payload of a config message. -/
structure Config where
  intervalS : Int
  fuzzyEnabled : Bool
  enabled : Bool
  deriving DecidableEq

/-- `Client.publish` returns an `rc`, or raises. -/
inductive PublishResult
  | raised
  | info (rc : Int)
  deriving DecidableEq

structure Client where
  publish : Text → Config → PublishResult

inductive ConfigError
  | nodeId
  | interval
  | client

def topicOf (nodeId : Text) : Text := "air/node/".toList ++ nodeId ++ "/config".toList

/-- `config_topic` -/
def configTopic (nodeId : Text) : Except ConfigError Text :=
  if nodeIdSafe nodeId then .ok (topicOf nodeId) else .error .nodeId

/-- `publish_config`: the message the broker took, if it took one. -/
def publishConfig (client : Client) (nodeId : Text) (intervalS : Int) (enabled : Bool) :
    Except ConfigError (Option (Text × Config)) :=
  match configTopic nodeId with
  | .error error => .error error
  | .ok topic =>
      if ¬ (1 ≤ intervalS ∧ intervalS ≤ 86400) then .error .interval
      else match client.publish topic ⟨intervalS, true, enabled⟩ with
        | .raised => .error .client
        | .info rc => .ok (if rc = 0 then some (topic, ⟨intervalS, true, enabled⟩) else none)

/-- `_push_config`, with the messages published so far, newest first. -/
def pushConfig (client : Option Client) (nodeId : Text) (intervalS : Int) (enabled : Bool)
    (published : List (Text × Config)) : List (Text × Config) × Bool :=
  match client with
  | none => (published, false)
  | some client =>
      match publishConfig client nodeId intervalS enabled with
      | .error _ => (published, false)
      | .ok sent => (sent.toList ++ published, true)

/-! ## The two routes -/

structure State where
  db : Db
  published : List (Text × Config)

inductive Request
  | register (data : RegisterNodeRequest) (now : Int)
  | update (nodeId : Text) (data : UpdateNodeRequest)

inductive Reply
  | created (node : Node)
  | conflict
  | updated (node : Node) (configPushed : Bool)
  | notFound

/-- What `update_node` pushes: the row's interval if `is_active` is supplied, else a
supplied interval to a device taken for enabled. -/
def configOf (data : UpdateNodeRequest) (after : Node) : Option (Int × Bool) :=
  match data.isActive with
  | some active => some (after.readingInterval, active)
  | none => data.readingInterval.map fun interval => (interval, true)

def handle (client : Option Client) (s : State) : Request → State × Reply
  | .register data now =>
      match registerNode s.db data now with
      | (db, none) => ({ s with db := db }, .conflict)
      | (db, some node) => ({ s with db := db }, .created node)
  | .update nodeId data =>
      match updateNode s.db nodeId data with
      | (_, none) => (s, .notFound)
      | (db, some node) =>
          match configOf data node with
          | none => ({ s with db := db }, .updated node false)
          | some (interval, enabled) =>
              let pushed := pushConfig client nodeId interval enabled s.published
              ({ db := db, published := pushed.1 }, .updated node pushed.2)

def step (client : Option Client) (s : State) (request : Request) : State :=
  (handle client s request).1

/-- The last config published to a node. -/
def lastConfig (s : State) (nodeId : Text) : Option Config :=
  (s.published.find? fun message => decide (message.1 = topicOf nodeId)).map Prod.snd

/-- The MQTT client is registered, and the broker takes every message. -/
def Client.Succeeds (client : Client) : Prop :=
  ∀ topic config, client.publish topic config = .info 0

/-! ## When a device and its row agree -/

def Synced (s : State) : Prop :=
  ∀ nodeId config, lastConfig s nodeId = some config →
    ∃ node, s.db nodeId = some node ∧ config.enabled = node.isActive ∧
      config.intervalS = node.readingInterval

def Agrees (s : State) : Request → Prop
  | .register data _ => ∀ node, s.db data.nodeId = some node → node.isActive = false →
    lastConfig s data.nodeId = none
  | .update nodeId data => data.isActive = none → data.readingInterval.isSome →
      nodeIdSafe nodeId = true →
      ∀ node, s.db nodeId = some node → node.isActive = true

/-- Only registered devices with a valid id were sent a config, and only with a valid interval. -/
def Sanctioned (s : State) : Prop :=
  ∀ nodeId config, lastConfig s nodeId = some config →
    nodeIdSafe nodeId = true ∧ (s.db nodeId).isSome ∧ 1 ≤ config.intervalS ∧
      config.intervalS ≤ 86400

section Push

variable {client : Client} {s : State} {nodeId other : Text} {interval : Int} {enabled : Bool}

theorem topicOf_inj (same : topicOf nodeId = topicOf other) : nodeId = other :=
  List.append_cancel_left (List.append_cancel_right same)

/-- A push that passes the two guards is what the device was last told; another one changes
nothing. -/
theorem pushConfig_eq (succeeds : client.Succeeds) (published : List (Text × Config)) :
    (pushConfig (some client) nodeId interval enabled published).1 =
      if nodeIdSafe nodeId = true ∧ 1 ≤ interval ∧ interval ≤ 86400 then
        (topicOf nodeId, ⟨interval, true, enabled⟩) :: published
      else published := by
  by_cases safe : nodeIdSafe nodeId = true
  · by_cases sanctioned : 1 ≤ interval ∧ interval ≤ 86400
    · have took := succeeds (topicOf nodeId) ⟨interval, true, enabled⟩
      rw [if_pos ⟨safe, sanctioned⟩]
      simp [pushConfig, publishConfig, configTopic, safe, sanctioned, took]
    · rw [if_neg fun both => sanctioned both.2]
      simp only [pushConfig, publishConfig, configTopic, safe, if_true, sanctioned,
        not_false_eq_true]
  · rw [if_neg fun both => safe both.1]
    simp [pushConfig, publishConfig, configTopic, safe]

theorem lastConfig_cons_self (db : Db) (config : Config) (published : List (Text × Config)) :
    lastConfig ⟨db, (topicOf nodeId, config) :: published⟩ nodeId = some config := by
  simp [lastConfig]

theorem lastConfig_cons_of_ne (different : other ≠ nodeId) (db : Db) (config : Config)
    (published : List (Text × Config)) :
    lastConfig ⟨db, (topicOf nodeId, config) :: published⟩ other =
      lastConfig ⟨db, published⟩ other := by
  have apart : topicOf nodeId ≠ topicOf other := fun same => different (topicOf_inj same).symm
  simp [lastConfig, apart]

end Push

section Steps

variable {client : Client} {s : State}

/-- `POST /nodes` publishes nothing. -/
theorem step_register (client : Option Client) (s : State) (data : RegisterNodeRequest)
    (now : Int) :
    step client s (.register data now) = { s with db := (registerNode s.db data now).1 } := by
  simp only [step, handle]
  split <;> rename_i found <;> rw [found]

/-- `PATCH` of an unknown node changes nothing. -/
theorem step_update_none {nodeId : Text} (missing : s.db nodeId = none) (client : Option Client)
    (data : UpdateNodeRequest) : step client s (.update nodeId data) = s := by
  simp [step, handle, updateNode, missing]

theorem step_update {nodeId : Text} {node : Node} (stored : s.db nodeId = some node)
    (client : Option Client) (data : UpdateNodeRequest) :
    step client s (.update nodeId data) =
      { db := (updateNode s.db nodeId data).1
        published :=
          match configOf data (data.apply node) with
          | none => s.published
          | some (interval, enabled) =>
              (pushConfig client nodeId interval enabled s.published).1 } := by
  simp only [step, handle, updateNode, stored]
  split <;> rfl

/-- A device the request is not about keeps its row and its last config. -/
theorem lastConfig_update_of_ne (succeeds : client.Succeeds) {nodeId other : Text}
    (different : other ≠ nodeId) (data : UpdateNodeRequest) :
    lastConfig (step (some client) s (.update nodeId data)) other = lastConfig s other ∧
      (step (some client) s (.update nodeId data)).db other = s.db other := by
  cases stored : s.db nodeId with
  | none => rw [step_update_none stored]; exact ⟨rfl, rfl⟩
  | some node =>
      rw [step_update stored]
      refine ⟨?_, updateNode_of_ne data different⟩
      split
      · rfl
      · rw [pushConfig_eq succeeds]
        split
        · exact lastConfig_cons_of_ne different _ _ _
        · rfl

end Steps

/-! ## The exact condition -/

section Exact

variable {client : Client} {s : State}

theorem sanctioned_register (sanctioned : Sanctioned s) (data : RegisterNodeRequest) (now : Int) :
    Sanctioned (step (some client) s (.register data now)) := by
  rw [step_register]
  intro nodeId config told
  obtain ⟨safe, stored, bounds⟩ := sanctioned nodeId config told
  refine ⟨safe, ?_, bounds⟩
  by_cases same : nodeId = data.nodeId
  · subst same
    obtain ⟨node, stored⟩ := Option.isSome_iff_exists.mp stored
    simp [registerNode_self stored]
  · show ((registerNode s.db data now).1 nodeId).isSome
    rwa [registerNode_of_ne same]

theorem sanctioned_update (succeeds : client.Succeeds) (sanctioned : Sanctioned s) (nodeId : Text)
    (data : UpdateNodeRequest) : Sanctioned (step (some client) s (.update nodeId data)) := by
  intro other config told
  by_cases same : other = nodeId
  · subst same
    cases stored : s.db other with
    | none =>
        rw [step_update_none stored] at told ⊢
        exact sanctioned other config told
    | some node =>
        rw [step_update stored] at told ⊢
        have kept : ((updateNode s.db other data).1 other).isSome := by
          simp [updateNode_self data stored]
        have before : lastConfig s other = some config →
            nodeIdSafe other = true ∧ ((updateNode s.db other data).1 other).isSome ∧
              1 ≤ config.intervalS ∧ config.intervalS ≤ 86400 := by
          intro told
          obtain ⟨safe, _, bounds⟩ := sanctioned other config told
          exact ⟨safe, kept, bounds⟩
        split at told
        · exact before told
        · rw [pushConfig_eq succeeds] at told
          split at told
          · rename_i guards
            rw [lastConfig_cons_self] at told
            cases told
            exact ⟨guards.1, kept, guards.2⟩
          · exact before told
  · obtain ⟨last, row⟩ := lastConfig_update_of_ne succeeds same data (s := s)
    rw [last] at told
    rw [row]
    exact sanctioned other config told

/-- A registration that agrees leaves every device synced; an undelete of a device that was
told to be quiet does not. -/
theorem synced_register_iff (synced : Synced s) (data : RegisterNodeRequest) (now : Int) :
    Synced (step (some client) s (.register data now)) ↔ Agrees s (.register data now) := by
  rw [step_register]
  constructor
  · intro after node stored inactive
    by_contra told
    obtain ⟨config, told⟩ := Option.ne_none_iff_exists'.mp told
    obtain ⟨node', stored', enabled', _⟩ := after data.nodeId config told
    obtain ⟨_, stored'', enabled, _⟩ := synced data.nodeId config told
    rw [stored] at stored''
    cases stored''
    have undeleted := stored'.symm.trans (registerNode_self stored)
    cases undeleted
    simp only [inactive, RegisterNodeRequest.undelete] at enabled enabled'
    rw [enabled] at enabled'
    cases enabled'
  · intro agrees nodeId config told
    obtain ⟨node, stored, enabled, interval⟩ := synced nodeId config told
    by_cases same : nodeId = data.nodeId
    · subst same
      have active : node.isActive = true := by
        by_contra inactive
        have silent := agrees node stored (by simpa using inactive)
        have told : lastConfig s data.nodeId = some config := told
        rw [silent] at told
        cases told
      exact ⟨node, by simp [registerNode_self stored, active], enabled, interval⟩
    · exact ⟨node, (registerNode_of_ne same now).trans stored, enabled, interval⟩

/-- What a device was last told after a PATCH of it. -/
theorem lastConfig_update (succeeds : client.Succeeds) {nodeId : Text} {node : Node}
    (stored : s.db nodeId = some node) (data : UpdateNodeRequest) :
    lastConfig (step (some client) s (.update nodeId data)) nodeId =
      match configOf data (data.apply node) with
      | none => lastConfig s nodeId
      | some (interval, enabled) =>
          if nodeIdSafe nodeId = true ∧ 1 ≤ interval ∧ interval ≤ 86400 then some ⟨interval, true, enabled⟩
          else lastConfig s nodeId := by
  rw [step_update stored]
  cases configOf data (data.apply node) with
  | none => rfl
  | some pushed =>
      simp only
      rw [pushConfig_eq succeeds]
      split
      · exact lastConfig_cons_self _ _ _
      · rfl

theorem synced_update_iff_told (succeeds : client.Succeeds) (synced : Synced s) {nodeId : Text}
    {node : Node} (stored : s.db nodeId = some node) (data : UpdateNodeRequest) :
    Synced (step (some client) s (.update nodeId data)) ↔
      ∀ config, lastConfig (step (some client) s (.update nodeId data)) nodeId = some config →
        config.enabled = (data.apply node).isActive ∧
          config.intervalS = (data.apply node).readingInterval := by
  have row : (step (some client) s (.update nodeId data)).db nodeId = some (data.apply node) := by
    rw [step_update stored]
    exact updateNode_self data stored
  constructor
  · intro after config told
    obtain ⟨node', stored', agrees⟩ := after nodeId config told
    rw [row] at stored'
    cases stored'
    exact agrees
  · intro agrees other config told
    by_cases same : other = nodeId
    · subst same
      exact ⟨data.apply node, row, agrees config told⟩
    · obtain ⟨last, kept⟩ := lastConfig_update_of_ne succeeds same data (s := s)
      rw [last] at told
      rw [kept]
      exact synced other config told

/-- A PATCH keeps the device synced unless it pushes an interval to a deactivated one. -/
theorem synced_update_iff (succeeds : client.Succeeds) (sanctioned : Sanctioned s)
    (synced : Synced s) (nodeId : Text) (data : UpdateNodeRequest) :
    Synced (step (some client) s (.update nodeId data)) ↔ Agrees s (.update nodeId data) := by
  cases stored : s.db nodeId with
  | none =>
      rw [step_update_none stored]
      refine iff_of_true synced ?_
      intro _ _ _ node stored'
      rw [stored] at stored'
      cases stored'
  | some node =>
      have before : ∀ config, lastConfig s nodeId = some config →
          nodeIdSafe nodeId = true ∧ config.enabled = node.isActive ∧
            config.intervalS = node.readingInterval ∧
            1 ≤ node.readingInterval ∧ node.readingInterval ≤ 86400 := by
        intro config told
        obtain ⟨safe, _, bounds⟩ := sanctioned nodeId config told
        obtain ⟨node', stored', enabled, interval⟩ := synced nodeId config told
        rw [stored] at stored'
        cases stored'
        exact ⟨safe, enabled, interval, interval ▸ bounds⟩
      rw [synced_update_iff_told succeeds synced stored, lastConfig_update succeeds stored]
      cases active : data.isActive with
      | some enabled =>
          -- the row's own interval and flag are pushed
          refine iff_of_true ?_ fun none => ?_
          · intro config told
            simp only [configOf, active] at told
            split at told
            · cases told
              exact ⟨by simp [UpdateNodeRequest.apply, active], rfl⟩
            · rename_i refused
              obtain ⟨safe, _, _, bounds⟩ := before config told
              refine absurd ⟨safe, ?_⟩ refused
              cases supplied : data.readingInterval with
              | none => simpa [UpdateNodeRequest.apply, supplied] using bounds
              | some interval =>
                  simpa [UpdateNodeRequest.apply,
                    supplied] using data.readingInterval_bound interval supplied
          · rw [active] at none
            cases none
      | none =>
          cases supplied : data.readingInterval with
          | none =>
              refine iff_of_true ?_ fun _ some => ?_
              · intro config told
                simp only [configOf, active, supplied, Option.map_none] at told
                obtain ⟨_, enabled, interval, _⟩ := before config told
                simp [UpdateNodeRequest.apply, active, supplied, enabled, interval]
              · rw [supplied] at some
                cases some
          | some interval =>
              have bounds := data.readingInterval_bound interval supplied
              simp only [configOf, active, supplied, Option.map_some, bounds, and_true]
              constructor
              · intro agrees _ _ safe node' stored'
                rw [stored] at stored'
                cases stored'
                rw [if_pos safe] at agrees
                obtain ⟨enabled, _⟩ := agrees _ rfl
                simpa [UpdateNodeRequest.apply, active] using enabled.symm
              · intro agrees config told
                split at told
                · rename_i safe
                  cases told
                  have running := agrees active (by simp [supplied]) safe node stored
                  simp [UpdateNodeRequest.apply, active, supplied, running]
                · rename_i refused
                  exact absurd (before config told).1 refused

/-- **When the device config follows the database.**  With a client that publishes every
message, the devices stay synced through a run of requests exactly when every request
agrees: a PATCH supplies an interval without `is_active` for active nodes only, and no
deactivated node that was sent a config is registered again. -/
theorem synced_iff (succeeds : client.Succeeds) (db : Db) (requests : List Request) :
    (∀ taken, taken <+: requests → Synced (taken.foldl (step (some client)) ⟨db, []⟩)) ↔
      ∀ taken request, taken ++ [request] <+: requests →
        Agrees (taken.foldl (step (some client)) ⟨db, []⟩) request := by
  refine all_good_iff (I := Sanctioned) ?_ ?_ requests _ ?_ ?_
  · rintro s (⟨data, now⟩ | ⟨nodeId, data⟩) sanctioned
    · exact sanctioned_register sanctioned data now
    · exact sanctioned_update succeeds sanctioned nodeId data
  · rintro s (⟨data, now⟩ | ⟨nodeId, data⟩) sanctioned synced
    · exact synced_register_iff synced data now
    · exact synced_update_iff succeeds sanctioned synced nodeId data
  · intro nodeId config told
    cases told
  · intro nodeId config told
    cases told

end Exact

/-! ## One node -/

def accepting : Client := ⟨fun _ _ => .info 0⟩

theorem accepting_succeeds : accepting.Succeeds := fun _ _ => rfl

/-- A PATCH body that supplies nothing else. -/
def supplying (readingInterval : Option Int) (isActive : Option Bool)
    (bounds : ∀ interval ∈ readingInterval, 1 ≤ interval ∧ interval ≤ 86400) :
    UpdateNodeRequest where
  name := none
  locationName := none
  lat := none
  lon := none
  firmwareVersion := none
  readingInterval := readingInterval
  isActive := isActive
  name_bound := by simp [AtMost]
  locationName_bound := by simp [AtMost]
  lat_bound := by simp [Within]
  lon_bound := by simp [Within]
  firmwareVersion_bound := by simp [AtMost]
  readingInterval_bound := bounds

def everyMinute : UpdateNodeRequest := supplying (some 60) none (by simp)

def deactivate : UpdateNodeRequest := supplying none (some false) (by simp)

/-- The node `n1` registers. -/
def registration : RegisterNodeRequest where
  nodeId := "n1".toList
  name := none
  locationName := none
  lat := none
  lon := none
  firmwareVersion := none
  readingInterval := 30
  nodeId_safe := by decide
  name_bound := by simp [AtMost]
  locationName_bound := by simp [AtMost]
  lat_bound := by simp [Within]
  lon_bound := by simp [Within]
  firmwareVersion_bound := by simp [AtMost]
  readingInterval_bound := by decide

/-- `n1` is the only node, active and never told anything. -/
def fleet : Db := fun id => if id = "n1".toList then some (registration.node 0) else none

/-- An interval for the active node, then its deactivation. -/
theorem synced_everyMinute :
    Synced ([.update "n1".toList everyMinute, .update "n1".toList deactivate].foldl (step (some accepting))
      ⟨fleet, []⟩) := by
  refine (synced_iff accepting_succeeds fleet
    [.update "n1".toList everyMinute, .update "n1".toList deactivate]).mpr ?_ _ List.prefix_rfl
  intro taken request before
  match taken with
  | [] =>
      obtain rfl : request = .update "n1".toList everyMinute := by simpa using before
      intro _ _ _ node stored
      cases stored
      rfl
  | [first] =>
      obtain ⟨rfl, rfl⟩ : first = .update "n1".toList everyMinute ∧
          request = .update "n1".toList deactivate := by
        simpa using before
      intro none
      cases none
  | first :: second :: taken =>
      have long := before.length_le
      simp at long

/-- **A deactivated node is told to resume** by an interval-only PATCH; and one that is
registered again stays quiet. -/
theorem not_synced :
    ¬ Synced ([.update "n1".toList deactivate, .update "n1".toList everyMinute].foldl (step (some accepting))
        ⟨fleet, []⟩) ∧
      ¬ Synced ([.update "n1".toList deactivate, .register registration 7].foldl (step (some accepting))
        ⟨fleet, []⟩) := by
  constructor
  · intro synced
    obtain ⟨node, stored, enabled, _⟩ := synced "n1".toList ⟨60, true, true⟩ (by decide +kernel)
    cases stored
    cases enabled
  · intro synced
    obtain ⟨node, stored, enabled, _⟩ := synced "n1".toList ⟨30, true, false⟩ (by decide +kernel)
    cases stored
    cases enabled

end Empyrean.Fleet.DeviceConfig
