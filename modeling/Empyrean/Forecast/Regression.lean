/-
# Empyrean.Forecast.Regression — models and the points they predict

A model is a line through the AQI readings of a node's last seven days, stamped with the
clock at which it was fitted; a blob of an older version has no stamp.  The fit itself is
scikit-learn's and a parameter; `none` stands for a missing package or a line that is not
finite.  Times are microseconds, a regression runs over seconds.
-/
import Empyrean.Ingest.Tables
import Empyrean.Theory.Rounding
import Mathlib.Data.List.Sort

namespace Empyrean.Forecast

set_option autoImplicit false

open Empyrean.Ingest (SensorReading)
open Empyrean.Theory.Rounding

/-! ## Time -/

def secondUs : Int := 1000000
def minuteUs : Int := 60 * secondUs
def hourUs : Int := 3600 * secondUs
def dayUs : Int := 24 * hourUs

/-! ## Fitting -/

/-- Epoch seconds and AQI. -/
abbrev Sample := Rat × Rat

/-- `LinearRegression().fit`: slope and intercept. -/
abbrev LinearRegression := List Sample → Option (Rat × Rat)

structure Model where
  slope : Rat
  intercept : Rat
  trainedAt : Option Int
  deriving DecidableEq

section Training

variable {Node : Type} [DecidableEq Node]

/-- `_training_points`; a reading without an AQI gives no point. -/
def trainingPoints (readings : List (SensorReading Node)) (node : Node) (now : Int) : List Sample :=
  ((readings.filter fun r => decide (r.node = node ∧ now - 7 * dayUs ≤ r.time)).insertionSort
    fun r r' => r.time ≤ r'.time).filterMap fun r => r.aqi.map fun aqi =>
      ((r.time : Rat) / secondUs, (aqi : Rat))

end Training

/-- `_fit_model`; the clock is read when the line is found. -/
def fitModel (fit : LinearRegression) (points : List Sample) (now : Int) : Option Model :=
  if points.length < 30 then none
  else (fit points).map fun line => { slope := line.1, intercept := line.2, trainedAt := some now }

theorem trainedAt_fitModel {fit : LinearRegression} {points : List Sample} {now : Int}
    {model : Model} (fitted : fitModel fit points now = some model) :
    model.trainedAt = some now := by
  unfold fitModel at fitted
  split at fitted
  · cases fitted
  · obtain ⟨line, _, rfl⟩ := Option.map_eq_some_iff.mp fitted
    rfl

/-- `_valid_model`: a stamp must lie within two days of the clock. -/
def validModel (model : Model) (now : Int) : Bool :=
  model.trainedAt.all fun trainedAt => decide (|now - trainedAt| ≤ 2 * dayUs)

/-! ## Predicting -/

structure ForecastPoint where
  /-- In whole seconds. -/
  time : Int
  aqi : Rat
  deriving DecidableEq

/-- `round(x, 1)` -/
def roundTenth (x : Rat) : Rat := roundHalfEven (10 * x) / 10

/-- The point `step` minutes from `now`. -/
def predict (model : Model) (now : Int) (step : Nat) : ForecastPoint :=
  let time := (now + step * minuteUs) / secondUs
  { time := time
    aqi := roundTenth (max 0 (min 500 (model.slope * time + model.intercept))) }

/-- The 60 points of `generate_forecast`. -/
def predictions (model : Model) (now : Int) : List ForecastPoint :=
  (List.range 60).map fun i => predict model now (i + 1)

end Empyrean.Forecast
