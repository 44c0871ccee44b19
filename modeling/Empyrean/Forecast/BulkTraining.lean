/-
# Empyrean.Forecast.BulkTraining — the training data of many nodes in one query

A retrain reads the last seven days of all its nodes with a single query, ordered by node
and time, and hands each row to the list of its node.  A reading has its time to itself at
its node (`PRIMARY KEY (time, node_id)`), so neither this query nor the one for a single
node leaves an order open.

* `trainingPointsBulk` — `none` would be a row whose node is not among the keys, or whose
  AQI is `NULL`.
* `training_points_bulk_eq` — there is none, and each node has what `trainingPoints` reads.
-/
import Empyrean.Forecast.Regression
import Empyrean.Theory.OrderBy
import Empyrean.Theory.PyDict

namespace Empyrean.Forecast

set_option autoImplicit false

open Empyrean.Ingest (SensorReading)
open Empyrean.Theory.GroupBy Empyrean.Theory.OrderBy Empyrean.Theory.PyDict

/-- `sensor_readings` -/
structure SensorReadings (Node : Type) where
  rows : List (SensorReading Node)
  pkey : (rows.map fun r => (r.time, r.node)).Nodup

/-- `(t.timestamp(), float(aqi))`; there is no `float(None)`. -/
def sample {Node : Type} (r : SensorReading Node) : Option Sample :=
  r.aqi.map fun aqi => ((r.time : Rat) / secondUs, (aqi : Rat))

/-- A reading without an AQI gives no point, wherever it is left out. -/
theorem filterMap_sample {Node : Type} (rows : List (SensorReading Node)) :
    (rows.filter fun r => r.aqi.isSome).filterMap sample = rows.filterMap sample := by
  induction rows with
  | nil => rfl
  | cons r rows ih =>
      cases value : r.aqi with
      | none => simp [sample, value, ih]
      | some aqi => simp [sample, value, ih]

variable {Node : Type} [LinearOrder Node]

/-- The rows of the query of `_training_points_bulk`. -/
def bulkRows (readings : List (SensorReading Node)) (nodeIds : List Node) (now : Int) :
    List (SensorReading Node) :=
  let since := now - 7 * dayUs
  orderBy (fun r => toLex (r.node, r.time))
    (readings.filter fun r => decide (r.node ∈ nodeIds ∧ since ≤ r.time) && r.aqi.isSome)

/-- `_training_points_bulk` -/
def trainingPointsBulk (table : SensorReadings Node) (nodeIds : List Node) (now : Int) :
    Option (Dict Node (List Sample)) :=
  let points := Dict.ofKeys nodeIds []
  if nodeIds.isEmpty then some points
  else (bulkRows table.rows nodeIds now).foldlM
    (fun points r => (sample r).bind (points.append r.node)) points

/-! ## The scan of one node -/

section Scan

variable {readings : List (SensorReading Node)} {nodeIds : List Node} {node : Node} {now : Int}

/-- The readings of one node that a training run looks at. -/
def window (readings : List (SensorReading Node)) (node : Node) (now : Int) :
    List (SensorReading Node) :=
  readings.filter fun r => decide (r.node = node ∧ now - 7 * dayUs ≤ r.time)

theorem SensorReadings.untied (table : SensorReadings Node) (node : Node) (now : Int) :
    Untied SensorReading.time (window table.rows node now) := by
  intro r member r' member' together
  obtain ⟨stored, here⟩ := List.mem_filter.mp member
  obtain ⟨stored', here'⟩ := List.mem_filter.mp member'
  have same : r.node = r'.node := (of_decide_eq_true here).1.trans (of_decide_eq_true here').1.symm
  exact List.inj_on_of_nodup_map table.pkey stored stored' (Prod.ext together same)

/-- The rows of a requested node, of those the query selects. -/
theorem group_selected (readings : List (SensorReading Node)) (now : Int) (asked : node ∈ nodeIds) :
    group SensorReading.node node
        (readings.filter fun r => decide (r.node ∈ nodeIds ∧ now - 7 * dayUs ≤ r.time) && r.aqi.isSome) =
      (window readings node now).filter fun r => r.aqi.isSome := by
  rw [group, window, List.filter_filter, List.filter_filter]
  refine List.filter_congr fun r _ => ?_
  by_cases here : r.node = node
  · simp [here, asked, Bool.and_comm]
  · simp [here]

/-- Split by node, the points of the scan are the points of the nodes. -/
theorem points_bulkRows (untied : Untied SensorReading.time (window readings node now))
    (asked : node ∈ nodeIds) :
    (group SensorReading.node node (bulkRows readings nodeIds now)).filterMap sample =
      trainingPoints readings node now := by
  have selected := group_selected readings now asked
  have scan : group SensorReading.node node (bulkRows readings nodeIds now) =
      orderBy SensorReading.time ((window readings node now).filter fun r => r.aqi.isSome) := by
    rw [bulkRows, group_orderBy, selected]
    rw [selected]
    exact untied.filter _
  rw [scan, ← filter_orderBy untied, filterMap_sample]
  rfl

end Scan

/-! ## The loop -/

theorem bulkRows_asked {readings : List (SensorReading Node)} {nodeIds : List Node} {now : Int}
    {r : SensorReading Node} (member : r ∈ bulkRows readings nodeIds now) :
    r.node ∈ nodeIds ∧ r.aqi.isSome = true := by
  have selected := (List.mem_filter.mp (mem_orderBy.mp member)).2
  simp only [Bool.and_eq_true, decide_eq_true_eq] at selected
  exact ⟨selected.1.1, selected.2⟩

/-- The loop appends what the rows hold, tagged by node. -/
theorem foldlM_sample {rows : List (SensorReading Node)}
    (measured : ∀ r ∈ rows, r.aqi.isSome = true) (points : Dict Node (List Sample)) :
    rows.foldlM (fun points r => (sample r).bind (points.append r.node)) points =
      (rows.filterMap fun r => (sample r).map fun x => (r.node, x)).foldlM
        (fun points e => points.append e.1 e.2) points := by
  induction rows generalizing points with
  | nil => rfl
  | cons r rows ih =>
      obtain ⟨x, sampled⟩ : ∃ x, sample r = some x := by
        obtain ⟨aqi, value⟩ := Option.isSome_iff_exists.mp (measured r List.mem_cons_self)
        exact ⟨_, by rw [sample, value]; rfl⟩
      have rest := ih fun r' member => measured r' (List.mem_cons_of_mem r member)
      simp only [List.foldlM_cons, List.filterMap_cons, sampled, Option.bind_some,
        Option.map_some, rest]

theorem group_tagged (rows : List (SensorReading Node)) (node : Node) :
    (group Prod.fst node (rows.filterMap fun r => (sample r).map fun x => (r.node, x))).map Prod.snd =
      (group SensorReading.node node rows).filterMap sample := by
  induction rows with
  | nil => rfl
  | cons r rows ih =>
      simp only [group] at ih ⊢
      cases value : sample r with
      | none => by_cases here : r.node = node <;> simp [value, here, ih]
      | some x => by_cases here : r.node = node <;> simp [value, here, ih]

/-- **Bulk training data is per-node training data.** -/
theorem training_points_bulk_eq (table : SensorReadings Node) (nodeIds : List Node) (now : Int) :
    ∃ points, trainingPointsBulk table nodeIds now = some points ∧
      (∀ id, id ∈ points.keys ↔ id ∈ nodeIds) ∧
      ∀ id ∈ nodeIds, points.get? id = some (trainingPoints table.rows id now) := by
  have asked : ∀ r ∈ bulkRows table.rows nodeIds now, r.node ∈ nodeIds :=
    fun r member => (bulkRows_asked member).1
  have present : ∀ e ∈ (bulkRows table.rows nodeIds now).filterMap
      (fun r => (sample r).map fun x => (r.node, x)),
      e.1 ∈ (Dict.ofKeys nodeIds ([] : List Sample)).keys := by
    intro e member
    obtain ⟨r, scanned, tagged⟩ := List.mem_filterMap.mp member
    obtain ⟨x, _, rfl⟩ := Option.map_eq_some_iff.mp tagged
    rw [Dict.mem_keys, Dict.get?_ofKeys, if_pos (asked r scanned)]
    rfl
  obtain ⟨points, run, lists⟩ := Dict.foldlM_append _ _ present
  have looped : trainingPointsBulk table nodeIds now = some points := by
    rw [trainingPointsBulk, foldlM_sample fun r member => (bulkRows_asked member).2]
    split
    · rename_i empty
      obtain rfl := List.isEmpty_iff.mp empty
      have none_asked : bulkRows table.rows ([] : List Node) now = [] :=
        List.eq_nil_iff_forall_not_mem.mpr fun r member => List.not_mem_nil (asked r member)
      rw [none_asked] at run
      exact run
    · exact run
  simp only [group_tagged, Dict.get?_ofKeys] at lists
  refine ⟨points, looped, fun id => ?_, fun id member => ?_⟩
  · rw [Dict.mem_keys, lists, Option.isSome_map]
    split <;> simp [*]
  · rw [lists, if_pos member, points_bulkRows (table.untied id now) member]
    rfl

end Empyrean.Forecast
