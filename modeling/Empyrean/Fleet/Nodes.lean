/-
# Empyrean.Fleet.Nodes — the nodes table and its two writers

`POST /nodes` registers a device, or gives a deactivated one its identity back;
`PATCH /nodes/:node_id` changes what the body supplies.  A request body is a structure that
carries what its schema has checked.

* `registerNode`, `updateNode` — the rows they commit.
* `RegisterNodeRequest.drops`, `UpdateNodeRequest.drops` — the cache keys deleted afterwards.
* `UpdateNodeRequest.write`, `RegisterNodeRequest.write` — the same, where the row may have
  changed between the read and the commit; undisturbed they agree (`write_self`).
* `updateNode_of_ne`, `registerNode_of_ne` — every other row stays.
-/
import Empyrean.Theory.PyNumeral
import Mathlib.Data.Rat.Init
import Mathlib.Logic.Function.Basic

namespace Empyrean.Fleet

set_option autoImplicit false

open Empyrean.Theory.PyNumeral (Text)

/-! ## Rows and request bodies -/

structure Node where
  nodeId : Text
  name : Option Text
  locationName : Option Text
  lat : Option Rat
  lon : Option Rat
  firmwareVersion : Option Text
  readingInterval : Int
  isActive : Bool
  registeredAt : Int
  lastSeen : Option Int
  deriving DecidableEq

/-- `nodes`, by its primary key. -/
abbrev Db := Text → Option Node

/-- A character of `_NODE_ID_RE`. -/
def nodeIdChar (c : Char) : Bool :=
  decide ('A' ≤ c ∧ c ≤ 'Z') || decide ('a' ≤ c ∧ c ≤ 'z') || decide ('0' ≤ c ∧ c ≤ '9') || c =
    '_' || c = '-'

/-- `_NODE_ID_RE.fullmatch` -/
def nodeIdSafe (id : Text) : Bool := decide (1 ≤ id.length ∧ id.length ≤ 50) && id.all nodeIdChar

def AtMost (bound : Nat) (text : Option Text) : Prop := ∀ t ∈ text, t.length ≤ bound

def Within (low high : Int) (value : Option Rat) : Prop := ∀ x ∈ value, (low : Rat) ≤ x ∧ x ≤ high

structure RegisterNodeRequest where
  nodeId : Text
  name : Option Text
  locationName : Option Text
  lat : Option Rat
  lon : Option Rat
  firmwareVersion : Option Text
  readingInterval : Int
  nodeId_safe : nodeIdSafe nodeId = true
  name_bound : AtMost 100 name
  locationName_bound : AtMost 200 locationName
  lat_bound : Within (-90) 90 lat
  lon_bound : Within (-180) 180 lon
  firmwareVersion_bound : AtMost 50 firmwareVersion
  readingInterval_bound : 1 ≤ readingInterval ∧ readingInterval ≤ 86400

structure UpdateNodeRequest where
  name : Option Text
  locationName : Option Text
  lat : Option Rat
  lon : Option Rat
  firmwareVersion : Option Text
  readingInterval : Option Int
  isActive : Option Bool
  name_bound : AtMost 100 name
  locationName_bound : AtMost 200 locationName
  lat_bound : Within (-90) 90 lat
  lon_bound : Within (-180) 180 lon
  firmwareVersion_bound : AtMost 50 firmwareVersion
  readingInterval_bound : ∀ interval ∈ readingInterval, 1 ≤ interval ∧ interval ≤ 86400

/-- The two cached queries over the table. -/
inductive CacheKey
  | nodesAll
  | readingsLatest
  deriving DecidableEq

/-! ## `POST /nodes` -/

def RegisterNodeRequest.node (data : RegisterNodeRequest) (now : Int) : Node :=
  { nodeId := data.nodeId
    name := data.name
    locationName := data.locationName
    lat := data.lat
    lon := data.lon
    firmwareVersion := data.firmwareVersion
    readingInterval := data.readingInterval
    isActive := true
    registeredAt := now
    lastSeen := none }

/-- A deactivated node comes back with the new metadata. -/
def RegisterNodeRequest.undelete (data : RegisterNodeRequest) (existing : Node) : Node :=
  { existing with
    name := data.name
    locationName := data.locationName
    lat := data.lat
    lon := data.lon
    firmwareVersion := data.firmwareVersion
    readingInterval := data.readingInterval
    isActive := true }

/-- `register_node`; no node is the 409 for an active duplicate. -/
def registerNode (db : Db) (data : RegisterNodeRequest) (now : Int) : Db × Option Node :=
  match db data.nodeId with
  | none => (Function.update db data.nodeId (some (data.node now)), some (data.node now))
  | some existing =>
      if existing.isActive then (db, none)
      else (Function.update db data.nodeId (some (data.undelete existing)),
        some (data.undelete existing))

def RegisterNodeRequest.drops (_ : RegisterNodeRequest) : List CacheKey :=
  [.nodesAll, .readingsLatest]

/-! ## `PATCH /nodes/:node_id` -/

def UpdateNodeRequest.apply (data : UpdateNodeRequest) (node : Node) : Node :=
  { node with
    name := data.name.or node.name
    locationName := data.locationName.or node.locationName
    lat := data.lat.or node.lat
    lon := data.lon.or node.lon
    firmwareVersion := data.firmwareVersion.or node.firmwareVersion
    readingInterval := data.readingInterval.getD node.readingInterval
    isActive := data.isActive.getD node.isActive }

/-- `update_node`; no node is the 404. -/
def updateNode (db : Db) (nodeId : Text) (data : UpdateNodeRequest) : Db × Option Node :=
  match db nodeId with
  | none => (db, none)
  | some node => (Function.update db nodeId (some (data.apply node)), some (data.apply node))

/-- `readings:latest` lists active nodes only, so it is dropped when `is_active` is supplied. -/
def UpdateNodeRequest.drops (data : UpdateNodeRequest) : List CacheKey :=
  .nodesAll :: if data.isActive.isSome then [.readingsLatest] else []

/-! ## The columns of an `UPDATE`

The two requests read a row and write it back later.  Only the columns whose value they
have changed are written, onto the row as it is then. -/

/-- A column is written if the value supplied for it is not the one that was loaded. -/
def written {α : Type} [DecidableEq α] (supplied : Option α) (loaded current : α) : α :=
  match supplied with
  | none => current
  | some value => if value = loaded then current else value

def UpdateNodeRequest.write (data : UpdateNodeRequest) (loaded current : Node) : Node :=
  { current with
    name := written (data.name.map some) loaded.name current.name
    locationName := written (data.locationName.map some) loaded.locationName current.locationName
    lat := written (data.lat.map some) loaded.lat current.lat
    lon := written (data.lon.map some) loaded.lon current.lon
    firmwareVersion :=
      written (data.firmwareVersion.map some) loaded.firmwareVersion current.firmwareVersion
    readingInterval := written data.readingInterval loaded.readingInterval current.readingInterval
    isActive := written data.isActive loaded.isActive current.isActive }

/-- The `UPDATE` that gives a deactivated node its identity back. -/
def RegisterNodeRequest.write (data : RegisterNodeRequest) (loaded current : Node) : Node :=
  { current with
    name := written (some data.name) loaded.name current.name
    locationName := written (some data.locationName) loaded.locationName current.locationName
    lat := written (some data.lat) loaded.lat current.lat
    lon := written (some data.lon) loaded.lon current.lon
    firmwareVersion :=
      written (some data.firmwareVersion) loaded.firmwareVersion current.firmwareVersion
    readingInterval :=
      written (some data.readingInterval) loaded.readingInterval current.readingInterval
    isActive := written (some true) loaded.isActive current.isActive }

section Columns

variable {α : Type}

theorem getD_map_some (supplied loaded : Option α) :
    (supplied.map some).getD loaded = supplied.or loaded := by
  cases supplied <;> rfl

variable [DecidableEq α]

@[simp] theorem written_none (loaded current : α) : written none loaded current = current := rfl

@[simp] theorem written_some_self (value loaded : α) :
    written (some value) loaded loaded = value := by
  by_cases same : value = loaded <;> simp [written, same]

theorem written_self (supplied : Option α) (loaded : α) :
    written supplied loaded loaded = supplied.getD loaded := by
  cases supplied <;> simp

/-- Undisturbed, a request writes what it applies to the row it has loaded. -/
theorem UpdateNodeRequest.write_self (data : UpdateNodeRequest) (node : Node) :
    data.write node node = data.apply node := by
  simp [UpdateNodeRequest.write, UpdateNodeRequest.apply, written_self, getD_map_some]

theorem RegisterNodeRequest.write_self (data : RegisterNodeRequest) (node : Node) :
    data.write node node = data.undelete node := by
  simp [RegisterNodeRequest.write, RegisterNodeRequest.undelete]

end Columns

/-! ## What a request leaves as it is -/

section Frame

variable {db : Db} {nodeId other : Text}

theorem registerNode_of_ne {data : RegisterNodeRequest} (different : other ≠ data.nodeId)
    (now : Int) : (registerNode db data now).1 other = db other := by
  unfold registerNode
  split
  · exact Function.update_of_ne different _ _
  · split
    · rfl
    · exact Function.update_of_ne different _ _

theorem updateNode_of_ne (data : UpdateNodeRequest) (different : other ≠ nodeId) :
    (updateNode db nodeId data).1 other = db other := by
  unfold updateNode
  split
  · rfl
  · exact Function.update_of_ne different _ _

/-- Registering never loses a row, and only an inactive one changes. -/
theorem registerNode_self {data : RegisterNodeRequest} {now : Int} {node : Node}
    (stored : db data.nodeId = some node) : (registerNode db data now).1 data.nodeId =
      some (if node.isActive = true then node else data.undelete node) := by
  unfold registerNode
  rw [stored]
  by_cases active : node.isActive = true
  · simp [active, stored]
  · simp [active]

theorem updateNode_self (data : UpdateNodeRequest) {node : Node} (stored : db nodeId = some node) :
    (updateNode db nodeId data).1 nodeId = some (data.apply node) := by
  simp [updateNode, stored]

end Frame

end Empyrean.Fleet
