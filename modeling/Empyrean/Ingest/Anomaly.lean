/-
# Empyrean.Ingest.Anomaly — the anomaly flag

`detect_anomaly` holds a PM2.5 value against the mean and the variance of the node's last 24
hours, and flags it where it is more than three standard deviations away.  The code does so in
doubles; here the arithmetic is exact.

* `flagged_rare` — in exact arithmetic, of the values that are in the window fewer than one in
  nine would be flagged if they came again.
* `detectAnomaly_recalibrate` — the flag does not depend on the unit or the zero of the
  sensor: where all values of a node are scaled and shifted alike, it stays.
* `detectAnomaly_perm` — nor does it depend on the order of the table.
-/
import Empyrean.Ingest.Worker
import Empyrean.Theory.OrderBy
import Empyrean.Theory.Spread

namespace Empyrean.Ingest

set_option autoImplicit false

open Empyrean.Theory

variable {Node : Type} [DecidableEq Node] {readings : List (SensorReading Node)}
    {node : Node} {now : Int}

/-! ## The check -/

/-- The check, in the terms of the window. -/
theorem detectAnomaly_iff (x : Rat) : detectAnomaly readings node (some x) now = true ↔
    5 ≤ (recent readings node now).length ∧ Spread.variance (recent readings node now) ≠ 0 ∧
      Spread.Far (3 ^ 2) (recent readings node now) x := by
  simp only [detectAnomaly]
  by_cases few : (recent readings node now).length < 5
  · rw [if_pos few]
    exact iff_of_false Bool.false_ne_true fun flagged => absurd few (not_lt.mpr flagged.1)
  rw [if_neg few]
  by_cases flat : variance (recent readings node now) = 0
  · rw [if_pos flat]
    exact iff_of_false Bool.false_ne_true fun flagged => flagged.2.1 flat
  rw [if_neg flat, decide_eq_true_iff]
  exact ⟨fun far => ⟨not_lt.mp few, flat, far⟩, fun flagged => flagged.2.2⟩

/-- **Flags are rare**, in exact arithmetic. -/
theorem flagged_rare (readings : List (SensorReading Node)) (node : Node) (now : Int) :
    9 * (recent readings node now).countP (fun x => detectAnomaly readings node (some x) now) ≤
      (recent readings node now).length - 1 := by
  generalize window : recent readings node now = samples
  by_cases checked : 5 ≤ samples.length ∧ Spread.variance samples ≠ 0
  · obtain ⟨enough, spread⟩ := checked
    have same : samples.countP (fun x => detectAnomaly readings node (some x) now) =
        samples.countP fun x => decide (Spread.Far (3 ^ 2) samples x) := by
      congr 1
      funext x
      rw [Bool.eq_iff_iff, detectAnomaly_iff, window, decide_eq_true_iff]
      exact ⟨fun flagged => flagged.2.2, fun far => ⟨enough, spread, far⟩⟩
    rw [same]
    rcases Spread.far_countP_lt (k := 3 ^ 2) spread with zero | few
    · rw [zero]
      omega
    · have few' : 9 * samples.countP (fun x => decide (Spread.Far (3 ^ 2) samples x)) <
          samples.length := by
        norm_num at few
        exact_mod_cast few
      omega
  · have never : samples.countP (fun x => detectAnomaly readings node (some x) now) = 0 := by
      rw [List.countP_eq_zero]
      intro x _ flagged
      rw [detectAnomaly_iff, window] at flagged
      exact checked ⟨flagged.1, flagged.2.1⟩
    rw [never]
    omega

/-! ## Units -/

/-- Every sensor with a scale and an offset of its own. -/
def SensorReading.recalibrate (scale offset : Node → Rat) (r : SensorReading Node) :
    SensorReading Node :=
  { r with pm25 := r.pm25.map fun x => scale r.node * x + offset r.node }

/-- The rows a window is taken from. -/
def windowed (node : Node) (now : Int) (r : SensorReading Node) : Bool :=
  decide (r.node = node ∧ now - 1440 * 60000000 ≤ r.time ∧ r.pm25.isSome)

theorem recent_eq : recent readings node now =
    (((readings.filter (windowed node now)).insertionSort fun r r' => r'.time ≤ r.time).take 2880).filterMap (·.pm25) := rfl

theorem recent_recalibrate (scale offset : Node → Rat) :
    recent (readings.map (SensorReading.recalibrate scale offset)) node now =
      (recent readings node now).map fun x => scale node * x + offset node := by
  have rows : (readings.map (SensorReading.recalibrate scale offset)).filter (windowed node now) =
      (readings.filter (windowed node now)).map (SensorReading.recalibrate scale offset) := by
    rw [List.filter_map]
    congr 2
    funext r
    simp [windowed, SensorReading.recalibrate]
  have ordered := List.map_insertionSort (r := fun r r' : SensorReading Node => r'.time ≤ r.time)
    (s := fun r r' => r'.time ≤
      r.time) (SensorReading.recalibrate scale offset) (readings.filter (windowed node now))
    fun _ _ _ _ => Iff.rfl
  rw [recent_eq, recent_eq, rows, ← ordered, ← List.map_take, List.filterMap_map,
    List.map_filterMap]
  apply List.filterMap_congr
  intro r member
  have here := List.mem_of_mem_take member
  rw [List.mem_insertionSort, List.mem_filter, windowed, decide_eq_true_iff] at here
  simp [SensorReading.recalibrate, here.2.1]

/-- **The unit does not matter.** -/
theorem detectAnomaly_recalibrate {scale : Node → Rat} (scales : scale node ≠ 0)
    (offset : Node → Rat) (pm25 : Option Rat) :
    detectAnomaly (readings.map (SensorReading.recalibrate scale offset)) node
        (pm25.map fun x => scale node * x + offset node) now =
      detectAnomaly readings node pm25 now := by
  cases pm25 with
  | none => rfl
  | some x =>
      rw [Option.map_some, Bool.eq_iff_iff, detectAnomaly_iff, detectAnomaly_iff,
        recent_recalibrate, List.length_map, Spread.variance_affine]
      apply and_congr_right
      intro enough
      have some_sample : recent readings node now ≠ [] := List.length_pos_iff.mp (by omega)
      rw [Spread.far_affine scales _ _ some_sample, mul_ne_zero_iff]
      exact and_congr_left' (and_iff_right (pow_ne_zero 2 scales))

/-! ## The order of the table -/

/-- **The order of the table does not matter**, as no two rows have the same key. -/
theorem detectAnomaly_perm {readings' : List (SensorReading Node)} (same : readings.Perm readings')
    (key : ∀ r ∈ readings, ∀ r' ∈ readings, r.time = r'.time → r.node = r'.node → r = r')
    (pm25 : Option Rat) :
    detectAnomaly readings node pm25 now = detectAnomaly readings' node pm25 now := by
  have untied :
      OrderBy.Untied (fun r => OrderDual.toDual r.time) (readings.filter (windowed node now)) := by
    intro r member r' member' tied
    obtain ⟨stored, here⟩ := List.mem_filter.mp member
    obtain ⟨stored', here'⟩ := List.mem_filter.mp member'
    exact key r stored r' stored' (OrderDual.toDual_inj.mp tied)
      ((of_decide_eq_true here).1.trans (of_decide_eq_true here').1.symm)
  have sorted :
      OrderBy.orderBy (fun r => OrderDual.toDual r.time) (readings'.filter (windowed node now)) =
      OrderBy.orderBy (fun r => OrderDual.toDual r.time) (readings.filter (windowed node now)) :=
    OrderBy.orderBy_unique untied
      (OrderBy.orderBy_perm.trans (same.symm.filter _)) OrderBy.orderBy_ascending
  have window : recent readings node now = recent readings' node now := by
    show (List.take 2880 (OrderBy.orderBy (fun r => OrderDual.toDual r.time) (readings.filter (windowed node now)))).filterMap
        (·.pm25) =
      (List.take 2880 (OrderBy.orderBy (fun r => OrderDual.toDual r.time) (readings'.filter (windowed node now)))).filterMap
        (·.pm25)
    rw [sorted]
  unfold detectAnomaly
  rw [window]

end Empyrean.Ingest
