/-
# Empyrean.Ingest.Tables — sensor fields and rows

The nine measured fields of a payload (`mqtt/validator.py`) and the row of
`sensor_readings` that the worker makes of them (`models/reading.py`).  A value is the
exact rational that a double is; `SensorReading.Fits` says which rows the REAL, SMALLINT
and VARCHAR(40) columns take, and `SensorReading.stored` what the REAL columns hold then.
-/
import Empyrean.Theory.Rounding

namespace Empyrean.Ingest

set_option autoImplicit false

open Empyrean.Theory.Rounding

inductive Sensor
  | temperature
  | humidity
  | pressure
  | vocOhm
  | mq135Ppm
  | pm1
  | pm25
  | pm10
  | batteryV
deriving DecidableEq, Repr

namespace Sensor

def all : List Sensor :=
  [.temperature, .humidity, .pressure, .vocOhm, .mq135Ppm, .pm1, .pm25, .pm10, .batteryV]

theorem mem_all (f : Sensor) : f ∈ all := by cases f <;> decide

/-- `ge` of the payload field. -/
def ge : Sensor → Rat
  | .temperature => -40
  | .humidity => 0
  | .pressure => 300
  | .vocOhm => 0
  | .mq135Ppm => 0
  | .pm1 => 0
  | .pm25 => 0
  | .pm10 => 0
  | .batteryV => 0

/-- `le` of the payload field. -/
def le : Sensor → Option Rat
  | .temperature => some 60
  | .humidity => some 100
  | .pressure => some 1250
  | .vocOhm => none
  | .mq135Ppm => none
  | .pm1 => some 2000
  | .pm25 => some 2000
  | .pm10 => some 2000
  | .batteryV => some 5

end Sensor

/-- A property of every field, checked field by field. -/
instance decidableForallSensor (p : Sensor → Prop) [DecidablePred p] : Decidable (∀ f, p f) :=
  decidable_of_iff (∀ f ∈ Sensor.all, p f)
    ⟨fun every f => every f f.mem_all, fun every f _ => every f⟩

/-- A row of `sensor_readings`. -/
structure SensorReading (Node : Type) where
  time : Int
  node : Node
  temperature : Option Rat
  humidity : Option Rat
  pressure : Option Rat
  vocOhm : Option Rat
  mq135Ppm : Option Rat
  pm1 : Option Rat
  pm25 : Option Rat
  pm10 : Option Rat
  batteryV : Option Rat
  fuzzyScore : Option Rat
  aqi : Option Int
  aqiCategory : Option String
  isAnomaly : Bool
deriving DecidableEq

namespace SensorReading

variable {Node : Type}

def value (r : SensorReading Node) : Sensor → Option Rat
  | .temperature => r.temperature
  | .humidity => r.humidity
  | .pressure => r.pressure
  | .vocOhm => r.vocOhm
  | .mq135Ppm => r.mq135Ppm
  | .pm1 => r.pm1
  | .pm25 => r.pm25
  | .pm10 => r.pm10
  | .batteryV => r.batteryV

/-- The values convert to their numeric columns. -/
def Fits (r : SensorReading Node) : Prop :=
  (∀ f, ∀ v ∈ r.value f, FitsReal v) ∧ (∀ v ∈ r.fuzzyScore, FitsReal v) ∧
    ∀ a ∈ r.aqi, -32768 ≤ a ∧ a ≤ 32767

instance (r : SensorReading Node) : Decidable r.Fits := inferInstanceAs (Decidable (_ ∧ _ ∧ _))

/-- The category is not too long for `String(40)`. -/
def CategoryFits (r : SensorReading Node) : Prop := ∀ c ∈ r.aqiCategory, c.length ≤ 40

instance (r : SensorReading Node) : Decidable r.CategoryFits :=
  inferInstanceAs (Decidable (∀ c ∈ r.aqiCategory, c.length ≤ 40))

/-- The row in its columns; `real` is what a double becomes in a REAL column. -/
def stored (real : Rat → Rat) (r : SensorReading Node) : SensorReading Node :=
  { r with
    temperature := r.temperature.map real
    humidity := r.humidity.map real
    pressure := r.pressure.map real
    vocOhm := r.vocOhm.map real
    mq135Ppm := r.mq135Ppm.map real
    pm1 := r.pm1.map real
    pm25 := r.pm25.map real
    pm10 := r.pm10.map real
    batteryV := r.batteryV.map real
    fuzzyScore := r.fuzzyScore.map real }

@[simp] theorem stored_time (real : Rat → Rat) (r : SensorReading Node) :
    (r.stored real).time = r.time := rfl

@[simp] theorem stored_node (real : Rat → Rat) (r : SensorReading Node) :
    (r.stored real).node = r.node := rfl

@[simp] theorem stored_value (real : Rat → Rat) (r : SensorReading Node) (f : Sensor) :
    (r.stored real).value f = (r.value f).map real := by
  cases f <;> rfl

end SensorReading

end Empyrean.Ingest
