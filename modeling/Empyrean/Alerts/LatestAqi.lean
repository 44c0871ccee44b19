/-
# Empyrean.Alerts.LatestAqi — the grouped query of `check_thresholds`

`check_thresholds` (`tasks/alerts.py`) asks once, with `DISTINCT ON (node_id)`, for the
latest fresh AQI of every active node; `_latest_aqi` asks for one node.

* `Db` — the two tables, with their primary keys.
* `latestAqi`, `latestRows` — the two queries.
* `latestRows_eq_latestAqi` — at one instant they give the same rows, one for each node.
-/
import Empyrean.Theory.DistinctOn
import Empyrean.Ingest.Tables
import Empyrean.Alerts.Upsert

namespace Empyrean.Alerts

set_option autoImplicit false

open Empyrean.Theory.DistinctOn Empyrean.Theory.PyNumeral
open Empyrean.Ingest (SensorReading)

/-- The columns of `nodes` that the query reads. -/
structure NodeRow (Node : Type) where
  nodeId : Node
  isActive : Bool
  deriving DecidableEq

structure Db (Node : Type) where
  nodes : List (NodeRow Node)
  sensorReadings : List (SensorReading Node)
  nodes_pkey : (nodes.map NodeRow.nodeId).Nodup
  readings_pkey : (sensorReadings.map fun r => (r.time, r.node)).Nodup

/-- A row of the grouped query. -/
structure LatestRow (Node : Type) where
  nodeId : Node
  aqi : Option Int
  aqiCategory : Option String
  deriving DecidableEq

/-- `_AQI_RECENCY`, in microseconds. -/
def aqiRecency : Int := 10 * 60 * 1000000

variable {Node : Type}

/-- `PRIMARY KEY (time, node_id)` -/
theorem reading_unique {db : Db Node} {r r' : SensorReading Node} (stored : r ∈ db.sensorReadings)
    (stored' : r' ∈ db.sensorReadings) (node : r.node = r'.node)
    (time : r.time = r'.time) : r = r' :=
  List.inj_on_of_nodup_map db.readings_pkey stored stored' (by rw [node, time])

variable [LinearOrder Node]

/-- `_latest_aqi` -/
def latestAqi (db : Db Node) (nodeId : Node) (now : Int) : Option Int :=
  let cutoff := now - aqiRecency
  let rows := db.sensorReadings.filter fun r =>
    decide (r.node = nodeId) && r.aqi.isSome && decide (cutoff ≤ r.time)
  (rows.insertionSort (Latest SensorReading.time)).head?.bind SensorReading.aqi

/-- `sensor_readings JOIN nodes ON nodes.node_id = sensor_readings.node_id` -/
def joined (db : Db Node) : List (SensorReading Node × NodeRow Node) :=
  db.sensorReadings.flatMap fun r =>
    (db.nodes.filter fun n => decide (n.nodeId = r.node)).map fun n => (r, n)

/-- What the `WHERE` of the grouped query leaves. -/
def selected (db : Db Node) (cutoff : Int) : List (SensorReading Node × NodeRow Node) :=
  (joined db).filter fun row => row.2.isActive && row.1.aqi.isSome && decide (cutoff ≤ row.1.time)

/-- The rows that `check_thresholds` goes through. -/
def latestRows (db : Db Node) (now : Int) : List (LatestRow Node) :=
  let cutoff := now - aqiRecency
  let rows :=
    (selected db cutoff).insertionSort (KeyThenLatest (fun row => row.1.node) fun row => row.1.time)
  (distinctOn (fun row => row.1.node) rows).map fun row =>
    ⟨row.1.node, row.1.aqi, row.1.aqiCategory⟩

/-- `nodes` has an active row for the node. -/
def Db.Active (db : Db Node) (nodeId : Node) : Prop :=
  ∃ n ∈ db.nodes, n.nodeId = nodeId ∧ n.isActive = true

section Queries

variable {db : Db Node} {now cutoff : Int}

theorem mem_selected {row : SensorReading Node × NodeRow Node} :
    row ∈ selected db cutoff ↔
      (row.1 ∈ db.sensorReadings ∧ row.2 ∈ db.nodes ∧ row.2.nodeId = row.1.node) ∧
        (row.2.isActive = true ∧ row.1.aqi.isSome = true) ∧ cutoff ≤ row.1.time := by
  obtain ⟨r, n⟩ := row
  simp only [selected, joined, List.mem_filter, List.mem_flatMap, List.mem_map, Prod.mk.injEq,
    Bool.and_eq_true, decide_eq_true_eq]
  constructor
  · rintro ⟨⟨r, stored, n, ⟨node, here⟩, rfl, rfl⟩, fresh⟩
    exact ⟨⟨stored, node, here⟩, fresh⟩
  · rintro ⟨⟨stored, node, here⟩, fresh⟩
    exact ⟨⟨r, stored, n, ⟨node, here⟩, rfl, rfl⟩, fresh⟩

theorem selected_unique {row row' : SensorReading Node × NodeRow Node}
    (member : row ∈ selected db cutoff) (member' : row' ∈ selected db cutoff)
    (node : row.1.node = row'.1.node) (time : row.1.time = row'.1.time) : row = row' := by
  obtain ⟨⟨stored, registered, here⟩, _⟩ := mem_selected.mp member
  obtain ⟨⟨stored', registered', here'⟩, _⟩ := mem_selected.mp member'
  refine Prod.ext (reading_unique stored stored' node time) ?_
  exact List.inj_on_of_nodup_map db.nodes_pkey registered registered'
    (here.trans (node.trans here'.symm))

/-- A reading that `_latest_aqi` and the grouped query consider. -/
structure Fresh (db : Db Node) (nodeId : Node) (cutoff : Int) (r : SensorReading Node) : Prop where
  stored : r ∈ db.sensorReadings
  node : r.node = nodeId
  aqi : r.aqi.isSome = true
  recent : cutoff ≤ r.time

/-- The node's latest reading among those. -/
structure LatestFresh (db : Db Node) (nodeId : Node) (cutoff : Int)
    (r : SensorReading Node) : Prop where
  fresh : Fresh db nodeId cutoff r
  latest : ∀ r', Fresh db nodeId cutoff r' → r'.time ≤ r.time

theorem latestAqi_eq_some {nodeId : Node} {aqi : Int} :
    latestAqi db nodeId now = some aqi ↔
      ∃ r, LatestFresh db nodeId (now - aqiRecency) r ∧ r.aqi = some aqi := by
  have fresh : ∀ r, r ∈ (db.sensorReadings.filter fun r =>
      decide (r.node = nodeId) && r.aqi.isSome && decide (now - aqiRecency ≤ r.time)) ↔
      Fresh db nodeId (now - aqiRecency) r := by
    intro r
    simp only [List.mem_filter, Bool.and_eq_true, decide_eq_true_eq]
    exact ⟨fun ⟨stored, ⟨node, value⟩, recent⟩ => ⟨stored, node, value, recent⟩,
      fun ⟨stored, node, value, recent⟩ => ⟨stored, ⟨node, value⟩, recent⟩⟩
  simp only [latestAqi, Option.bind_eq_some_iff]
  refine exists_congr fun r => and_congr_left fun _ => ?_
  rw [head?_sort]
  · simp only [fresh]
    exact ⟨fun ⟨here, latest⟩ => ⟨here, latest⟩, fun ⟨here, latest⟩ => ⟨here, latest⟩⟩
  · intro a member b member' together
    have here := (fresh a).mp member
    have here' := (fresh b).mp member'
    exact reading_unique here.stored here'.stored (here.node.trans here'.node.symm) together

theorem mem_latestRows {row : LatestRow Node} :
    row ∈ latestRows db now ↔
      db.Active row.nodeId ∧
        ∃ r, LatestFresh db row.nodeId (now - aqiRecency) r ∧ r.aqi = row.aqi ∧
          r.aqiCategory = row.aqiCategory := by
  obtain ⟨nodeId, aqi, category⟩ := row
  simp only [latestRows, List.mem_map, LatestRow.mk.injEq]
  constructor
  · rintro ⟨⟨r, n⟩, kept, rfl, rfl, rfl⟩
    obtain ⟨member, latest⟩ :=
      (mem_distinctOn_sort fun a here b here' => selected_unique here here').mp kept
    obtain ⟨⟨stored, registered, here⟩, ⟨active, value⟩, recent⟩ := mem_selected.mp member
    refine ⟨⟨n, registered, here, active⟩, r,
      ⟨⟨stored, rfl, value, recent⟩, fun r' fresh => ?_⟩, rfl, rfl⟩
    have also : (r', n) ∈ selected db (now - aqiRecency) :=
      mem_selected.mpr ⟨⟨fresh.stored, registered, here.trans fresh.node.symm⟩, ⟨active, fresh.aqi⟩,
        fresh.recent⟩
    exact latest (r', n) also fresh.node
  · rintro ⟨⟨n, registered, here, active⟩, r, ⟨fresh, latest⟩, rfl, rfl⟩
    refine ⟨(r, n), ?_, fresh.node, rfl, rfl⟩
    apply (mem_distinctOn_sort fun a here b here' => selected_unique here here').mpr
    constructor
    · exact mem_selected.mpr
        ⟨⟨fresh.stored, registered, here.trans fresh.node.symm⟩, ⟨active, fresh.aqi⟩, fresh.recent⟩
    · intro row member same
      obtain ⟨⟨stored, _, _⟩, ⟨_, value⟩, recent⟩ := mem_selected.mp member
      exact latest row.1 ⟨stored, same.trans fresh.node, value, recent⟩

theorem latestRows_nodup (db : Db Node) (now : Int) :
    ((latestRows db now).map LatestRow.nodeId).Nodup := by
  rw [latestRows, List.map_map]
  exact keys_distinctOn_nodup _

end Queries

/-- **The grouped query answers what `_latest_aqi` answers for each active node.** -/
theorem latestRows_eq_latestAqi (db : Db Node) (now : Int) :
    ((latestRows db now).map LatestRow.nodeId).Nodup ∧
      ∀ nodeId aqi, (nodeId, aqi) ∈ (latestRows db now).map (fun row => (row.nodeId, row.aqi)) ↔
        db.Active nodeId ∧ latestAqi db nodeId now = aqi ∧ aqi ≠ none := by
  refine ⟨latestRows_nodup db now, fun nodeId aqi => ?_⟩
  simp only [List.mem_map, Prod.mk.injEq]
  constructor
  · rintro ⟨row, member, rfl, rfl⟩
    obtain ⟨active, r, latest, value, _⟩ := mem_latestRows.mp member
    obtain ⟨measured, given⟩ := Option.isSome_iff_exists.mp latest.fresh.aqi
    rw [← value, given]
    exact ⟨active, latestAqi_eq_some.mpr ⟨r, latest, given⟩, nofun⟩
  · rintro ⟨active, rfl, present⟩
    obtain ⟨measured, given⟩ := Option.ne_none_iff_exists'.mp present
    obtain ⟨r, latest, value⟩ := latestAqi_eq_some.mp given
    exact ⟨⟨nodeId, r.aqi, r.aqiCategory⟩, mem_latestRows.mpr ⟨active, r, latest, rfl, rfl⟩, rfl,
      value.trans given.symm⟩

/-- A run of `check_thresholds` finds a node breached at most once. -/
theorem breaches_latestRows_nodup (db : Db Nat) (now : Int) (warning critical : PyFloat) :
    ((breaches warning critical ((latestRows db now).filterMap fun row => row.aqi.map fun aqi => (row.nodeId, (aqi : Rat)))).map
      Breach.nodeId).Nodup := by
  apply breaches_nodup
  have keys : ∀ rows : List (LatestRow Nat),
      ((rows.filterMap fun row => row.aqi.map fun aqi => (row.nodeId, (aqi : Rat))).map Prod.fst).Sublist
        (rows.map LatestRow.nodeId) := by
    intro rows
    induction rows with
    | nil => exact List.Sublist.slnil
    | cons row rows ih =>
        rw [List.filterMap_cons, List.map_cons]
        cases row.aqi with
        | none => exact ih.cons _
        | some aqi => exact ih.cons_cons _
  exact (latestRows_nodup db now).sublist (keys _)

end Empyrean.Alerts
