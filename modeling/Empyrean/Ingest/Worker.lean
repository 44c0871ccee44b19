/-
# Empyrean.Ingest.Worker — from a payload to a row

* `validateReading` — `ReadingPayload` of `mqtt/validator.py`; an accepted payload is the
  type of the same name, which carries its bounds.
* `ReadingPayload.dump` — the dict that is dispatched.
* `processReading` — `process_reading` of `tasks/process_reading.py`: build the row, flag
  it, insert it, and drop it where the primary key is taken.

The value of a JSON number is the double pydantic makes of it.  The clock is read twice:
for the timestamp and for the anomaly window.
-/
import Empyrean.Ingest.Aqi
import Empyrean.Ingest.Fuzzy
import Empyrean.Ingest.ParseTime
import Empyrean.Ingest.Tables
import Empyrean.Theory.PyNumeral
import Mathlib.Data.List.Sort

namespace Empyrean.Ingest

set_option autoImplicit false

open Empyrean.Theory.PyNumeral Empyrean.Theory.Rounding

variable {Node : Type}

/-! ## The gate -/

/-- A sensor field of the JSON object. -/
inductive JsonField
  | null
  | bool (value : Bool)
  | number (value : PyFloat)

/-- The `time` of the JSON object, as pydantic reads it. -/
inductive JsonTime
  | null
  | datetime (dt : Datetime)
  | invalid

/-- The JSON object, with the node id of the topic. -/
structure RawReading (Node : Type) where
  nodeId : Option Node
  time : JsonTime
  value : Sensor → JsonField

/-- `ge` and `le` of the field. -/
def InBounds (f : Sensor) (v : Rat) : Prop := f.ge ≤ v ∧ ∀ hi ∈ f.le, v ≤ hi

instance (f : Sensor) (v : Rat) : Decidable (InBounds f v) := inferInstanceAs (Decidable (_ ∧ _))

/-- What the gate lets through. -/
structure ReadingPayload (Node : Type) where
  nodeId : Option Node
  time : Option Datetime
  value : Sensor → Option Rat
  bounds : ∀ f, ∀ v ∈ value f, InBounds f v

/-- One field: no booleans, no `nan` or infinity, and the bounds.  `none` is a
`ValidationError`. -/
def validateField (f : Sensor) : JsonField → Option (Option Rat)
  | .null => some none
  | .bool _ => none
  | .number (.fin v) => if InBounds f v then some (some v) else none
  | .number _ => none

theorem validateField_bounds {f : Sensor} {field : JsonField} {value : Option Rat}
    (valid : validateField f field = some value) : ∀ v ∈ value, InBounds f v := by
  intro v member
  cases field with
  | null =>
      cases valid
      cases member
  | bool b => cases valid
  | number x =>
      cases x with
      | nan => cases valid
      | inf negative => cases valid
      | fin w =>
          simp only [validateField, Option.ite_none_right_eq_some, Option.some.injEq] at valid
          obtain ⟨bounded, rfl⟩ := valid
          cases member
          exact bounded

/-- `validate_reading` -/
def validateReading (data : RawReading Node) : Option (ReadingPayload Node) :=
  if valid : ∀ f, (validateField f (data.value f)).isSome then
    let accepted (time : Option Datetime) : ReadingPayload Node :=
      { nodeId := data.nodeId
        time := time
        value := fun f => (validateField f (data.value f)).get (valid f)
        bounds := fun _ => validateField_bounds (Option.some_get (valid _)).symm }
    match data.time with
    | .null => some (accepted none)
    | .datetime dt => some (accepted (some dt))
    | .invalid => none
  else none

/-- The object a device sends for an accepted payload. -/
def ReadingPayload.json (payload : ReadingPayload Node) : RawReading Node where
  nodeId := payload.nodeId
  time :=
    match payload.time with
    | none => .null
    | some dt => .datetime dt
  value := fun f =>
    match payload.value f with
    | none => .null
    | some v => .number (.fin v)

theorem validateField_json (payload : ReadingPayload Node) (f : Sensor) :
    validateField f (payload.json.value f) = some (payload.value f) := by
  have bounded := payload.bounds f
  unfold ReadingPayload.json
  cases stored : payload.value f with
  | none => simp [stored, validateField]
  | some v =>
      simp only [stored, validateField]
      exact if_pos (bounded v stored)

/-- **The gate** lets through every value of `ReadingPayload`. -/
theorem validateReading_json (payload : ReadingPayload Node) :
    validateReading payload.json = some payload := by
  have valid : ∀ f, (validateField f (payload.json.value f)).isSome :=
    fun f => by rw [validateField_json]; rfl
  have values : (fun f => (validateField f (payload.json.value f)).get (valid f)) = payload.value :=
    funext fun f => Option.get_of_eq_some _ (validateField_json payload f)
  rw [validateReading, dif_pos valid]
  obtain ⟨nodeId, time, value, bounds⟩ := payload
  simp only [values]
  cases time <;> rfl

/-! ## The task -/

/-- The dict the task receives. -/
structure TaskPayload (Node : Type) where
  nodeId : Option Node
  time : RawTime
  value : Sensor → Option PyFloat

/-- `model_dump(mode="json")`: the time is a text, which `fromisoformat` reads back. -/
def ReadingPayload.dump (payload : ReadingPayload Node) : TaskPayload Node where
  nodeId := payload.nodeId
  time :=
    match payload.time with
    | none => .missing
    | some dt => .text (some dt)
  value := fun f => (payload.value f).map .fin

/-- `_valid_float`: a value that is not finite is missing. -/
def validFloat : Option PyFloat → Option Rat
  | some (.fin v) => some v
  | _ => none

/-- `real` is the conversion of a double to REAL, on the way through the driver. -/
structure Db (Node : Type) where
  real : Rat → Rat
  nodes : Node → Option Bool
  readings : List (SensorReading Node)

/-- What a run of the task can fail with. -/
inductive TaskError
  | overflowError
  | numericValueOutOfRange
  | stringDataRightTruncation
  | integrityError (constraint : String)
deriving DecidableEq, Repr

/-- `_build_reading`, at the clock `now`; the anomaly flag is set by the caller.  Score and
index are computed in exact arithmetic. -/
def buildReading (payload : TaskPayload Node) (node : Node) (now : Int) :
    Except OverflowError (SensorReading Node) := do
  let value := fun f => validFloat (payload.value f)
  let aqi := Aqi.computeAqi (value .pm25) (value .pm10)
  let time ← parseTime payload.time now
  return {
    time := time
    node := node
    temperature := value .temperature
    humidity := value .humidity
    pressure := value .pressure
    vocOhm := value .vocOhm
    mq135Ppm := value .mq135Ppm
    pm1 := value .pm1
    pm25 := value .pm25
    pm10 := value .pm10
    batteryV := value .batteryV
    fuzzyScore := some (Fuzzy.fuzzyScore ((value .temperature).getD 25) ((value .humidity).getD 0)
      ((value .pm25).getD 0))
    aqi := aqi.map Prod.fst
    aqiCategory := aqi.map Prod.snd
    isAnomaly := false }

section Task

variable [DecidableEq Node]

/-- The newest samples of the node's last 24 hours. -/
def recent (readings : List (SensorReading Node)) (node : Node) (now : Int) : List Rat :=
  ((readings.filter fun r => decide (r.node = node ∧ now - 1440 * 60000000 ≤ r.time ∧ r.pm25.isSome)).insertionSort
    fun r r' => r'.time ≤ r.time).take 2880 |>.filterMap (·.pm25)

def mean (samples : List Rat) : Rat := samples.sum / samples.length

/-- `var_pop` -/
def variance (samples : List Rat) : Rat :=
  (samples.map fun x => (x - mean samples) ^ 2).sum / samples.length

/-- `detect_anomaly`; `z > 3` without the square root, and in exact arithmetic. -/
def detectAnomaly (readings : List (SensorReading Node)) (node : Node) (pm25 : Option Rat)
    (now : Int) : Bool :=
  match pm25 with
  | none => false
  | some pm25 =>
      let samples := recent readings node now
      if samples.length < 5 then false
      else if variance samples = 0 then false
      else decide (3 ^ 2 * variance samples < (pm25 - mean samples) ^ 2)

/-- The `INSERT` and its commit: conversion to the columns, then the constraints.  The worker's
own `reading` keeps its doubles. -/
def insertReading (db : Db Node) (reading : SensorReading Node) : Except TaskError (Db Node) :=
  if ¬ reading.Fits then .error .numericValueOutOfRange
  else if ¬ reading.CategoryFits then .error .stringDataRightTruncation
  else if db.readings.any fun r => decide (r.time = reading.time ∧ r.node = reading.node) then
    .error (.integrityError "sensor_readings_pkey")
  else if db.nodes reading.node = none then .error (.integrityError "sensor_readings_node_id_fkey")
  else .ok { db with readings := db.readings ++ [reading.stored db.real] }

/-- `_is_duplicate_reading` -/
def isDuplicateReading (constraint : String) : Bool := constraint = "sensor_readings_pkey"

/-- `process_reading`: the row it returns, where it stored one, and the tables after it.
`now` is the clock of `_parse_time`, `later` that of `detect_anomaly`. -/
def processReading (db : Db Node) (payload : TaskPayload Node) (now later : Int) :
    Except TaskError (Option (SensorReading Node) × Db Node) :=
  match payload.nodeId with
  | none => .ok (none, db)
  | some node =>
      match db.nodes node with
      | some true =>
          match buildReading payload node now with
          | .error _ => .error .overflowError
          | .ok built =>
              let reading :=
                { built with isAnomaly := detectAnomaly db.readings node built.pm25 later }
              match insertReading db reading with
              | .ok db' => .ok (some reading, db')
              | .error (.integrityError constraint) =>
                  if isDuplicateReading constraint then .ok (none, db)
                  else .error (.integrityError constraint)
              | .error raised => .error raised
      -- unknown or inactive node
      | _ => .ok (none, db)

/-- A stored row has the timestamp `_parse_time` gave, and a key that was free. -/
theorem processReading_stored {db db' : Db Node} {payload : TaskPayload Node} {now later : Int}
    {row : SensorReading Node}
    (stored : processReading db payload now later = .ok (some row, db')) :
    parseTime payload.time now = .ok row.time ∧
      (db.readings.any fun r => decide (r.time = row.time ∧ r.node = row.node)) = false ∧
        db' = { db with readings := db.readings ++ [row.stored db.real] } := by
  unfold processReading at stored
  split at stored
  · cases stored
  split at stored
  case h_2 => cases stored
  split at stored
  · cases stored
  rename_i built parsed
  have time : parseTime payload.time now = .ok built.time := by
    unfold buildReading at parsed
    cases clamped : parseTime payload.time now with
    | error raised =>
        rw [clamped] at parsed
        cases parsed
    | ok t =>
        rw [clamped] at parsed
        cases parsed
        rfl
  simp only [insertReading] at stored
  split at stored
  · rename_i inserted
    cases stored
    split at inserted
    · cases inserted
    split at inserted
    · cases inserted
    split at inserted
    · cases inserted
    rename_i free
    split at inserted <;> cases inserted
    exact ⟨time, Bool.not_eq_true _ ▸ free, rfl⟩
  · split at stored <;> cases stored
  · cases stored

end Task

end Empyrean.Ingest
