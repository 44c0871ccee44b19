/-
# Empyrean.Rollup.Aggregation — hourly roll-ups and the retention purge

The two tasks of `tasks/aggregation.py` over the tables `sensor_readings` and
`hourly_agg`, each run as one transaction.

* `hourlyAggregate` — the boundary, the earliest hour, the watermark, and the grouped
  upsert over the window between them.
* `dataRetentionCleanup` — the two deletes, with the window `_retention_days` resolves
  from the settings.
* `step` — an insert, a run of either task, a patch of the settings, or a tick.  A
  reading is inserted with the time `_parse_time` gave it at an earlier clock.

Averages are exact rationals, as they are computed; `HourlyAgg.stored` is the row in its
REAL columns, which neither task reads back.  The history beside the tables is every reading ever
committed (`ever`), how many of them there were when a row was last written (`written`),
and the keys of the rows that retention has deleted (`deleted`).
-/
import Empyrean.Admin.Settings
import Empyrean.Ingest.Worker
import Empyrean.Theory.GroupBy
import Empyrean.Theory.Runs
import Mathlib.Algebra.Order.Field.Rat

namespace Empyrean.Rollup

set_option autoImplicit false

open Empyrean.Ingest Empyrean.Theory.GroupBy Empyrean.Theory.PyNumeral Empyrean.Admin

/-! ## The tables -/

/-- A row of `hourly_agg`. -/
structure HourlyAgg (Node : Type) where
  bucket : Int
  node : Node
  avgTemperature : Option Rat
  avgHumidity : Option Rat
  avgPm25 : Option Rat
  avgPm10 : Option Rat
  maxAqi : Option Int
  minAqi : Option Int
  avgAqi : Option Rat
  anomalyCount : Nat
  readingCount : Nat
deriving DecidableEq

/-- The row in its columns; `real` is what an average becomes in a REAL column. -/
def HourlyAgg.stored {Node : Type} (real : Rat → Rat) (row : HourlyAgg Node) : HourlyAgg Node :=
  { row with
    avgTemperature := row.avgTemperature.map real
    avgHumidity := row.avgHumidity.map real
    avgPm25 := row.avgPm25.map real
    avgPm10 := row.avgPm10.map real
    avgAqi := row.avgAqi.map real }

/-- `date_trunc('hour', t)` in UTC. -/
def dateTruncHour (t : Int) : Int := t - t % hour

variable {Node : Type}

/-- The group a reading falls into: its hour and its node. -/
def hourKey (r : SensorReading Node) : Int × Node := (dateTruncHour r.time, r.node)

def HourlyAgg.key (row : HourlyAgg Node) : Int × Node := (row.bucket, row.node)

/-! ## The aggregates -/

/-- `AVG` of the values that are not null. -/
def avg (values : List Rat) : Option Rat :=
  if values = [] then none else some (values.sum / values.length)

/-- One group of the `SELECT`. -/
def aggregate (key : Int × Node) (readings : List (SensorReading Node)) : HourlyAgg Node where
  bucket := key.1
  node := key.2
  avgTemperature := avg (readings.filterMap (·.temperature))
  avgHumidity := avg (readings.filterMap (·.humidity))
  avgPm25 := avg (readings.filterMap (·.pm25))
  avgPm10 := avg (readings.filterMap (·.pm10))
  maxAqi := (readings.filterMap (·.aqi)).max?
  minAqi := (readings.filterMap (·.aqi)).min?
  avgAqi := avg ((readings.filterMap (·.aqi)).map fun aqi => (aqi : Rat))
  anomalyCount := readings.countP (·.isAnomaly)
  readingCount := readings.length

/-- The average is the number that the values add up to when it is taken once for each. -/
theorem avg_eq_some_iff {values : List Rat} {a : Rat} :
    avg values = some a ↔ values ≠ [] ∧ a * values.length = values.sum := by
  unfold avg
  split
  · rename_i empty
    exact iff_of_false nofun fun both => both.1 empty
  · rename_i present
    have size : (values.length : Rat) ≠ 0 :=
      Nat.cast_ne_zero.mpr (List.length_pos_iff.mpr present).ne'
    rw [Option.some.injEq, div_eq_iff size, eq_comm]
    exact (and_iff_right present).symm

@[simp] theorem aggregate_key (key : Int × Node) (readings : List (SensorReading Node)) :
    (aggregate key readings).key = key := rfl

/-! ## `hourly_aggregate` -/

section Aggregate

variable [DecidableEq Node]

/-- `SELECT MIN(date_trunc('hour', time)) … WHERE time < :end` -/
def earliest (readings : List (SensorReading Node)) (end_ : Int) : Option Int :=
  ((readings.filter fun r => decide (r.time < end_)).map fun r => dateTruncHour r.time).min?

/-- `SELECT MAX(bucket) FROM hourly_agg` -/
def watermark (rows : List (HourlyAgg Node)) : Option Int := (rows.map (·.bucket)).max?

/-- Where the window begins: a day behind the watermark, but not before the data. -/
def windowStart (first : Int) : Option Int → Int
  | none => first
  | some mark => max first (mark - 24 * hour)

def inWindow (start end_ : Int) (r : SensorReading Node) : Bool :=
  decide (start ≤ r.time ∧ r.time < end_)

/-- `hourly_aggregate` at the clock `now`: the table it leaves and `buckets`. -/
def hourlyAggregate (now : Int) (readings : List (SensorReading Node))
    (rows : List (HourlyAgg Node)) : List (HourlyAgg Node) × Nat :=
  let end_ := dateTruncHour now
  match earliest readings end_ with
  | none => (rows, 0)
  | some first =>
      let start := windowStart first (watermark rows)
      if start ≥ end_ then (rows, 0)
      else
        let groups := groupBy hourKey aggregate (readings.filter (inWindow start end_))
        (upsertAll HourlyAgg.key rows groups, groups.length)

end Aggregate

/-! ## `data_retention_cleanup` -/

/-- `int(float)`: towards zero.  `nan` is a `ValueError`, an infinity an `OverflowError`. -/
def intOfFloat : PyFloat → Option (Option Int)
  | .fin value => some (some (value.num.tdiv value.den))
  | .nan => some none
  | .inf _ => none

/-- `_retention_days`: the setting wins, the configuration is what remains.  `none` is
the exception that is not caught. -/
def retentionDays (raw : Option Text) (config : Int) : Option Int :=
  match raw with
  | none => some config
  | some raw =>
      match float raw with
      | none => some config
      | some value => (intOfFloat value).map (·.getD config)

/-- The cut-off of a run of `data_retention_cleanup`, where it purges at all. -/
def retentionCutoff (config now : Int) (raw : Option Text) : Option Int :=
  if config ≤ 0 then none
  else
    match retentionDays raw config with
    | none => none
    | some days => if days ≤ 0 then none else some (now - days * day)

/-- A setting that the admin API has stored is the window the purge uses. -/
theorem retentionDays_intText (n : Nat) (config : Int) :
    retentionDays (some (intText n)) config = some n := by
  simp [retentionDays, intText, float_toDigits, intOfFloat]

/-! ## The system -/

structure State (Node : Type) where
  clock : Int
  readings : List (SensorReading Node)
  rows : List (HourlyAgg Node)
  setting : Option Text
  ever : List (SensorReading Node)
  written : Int × Node → Nat
  deleted : List (Int × Node)

inductive Act (Node : Type)
  | insert (raw : RawTime) (stampedAt : Int) (reading : SensorReading Node)
  | hourlyAggregate
  | dataRetentionCleanup
  | patchSettings (update : AdminSettingsUpdate)
  | tick (now : Int)

section Step

variable [DecidableEq Node]

/-- The commit of a new row, unless its primary key is taken. -/
def State.insert (s : State Node) (reading : SensorReading Node) : State Node :=
  if s.readings.any fun r => decide (r.time = reading.time ∧ r.node = reading.node) then s
  else { s with readings := s.readings ++ [reading], ever := s.ever ++ [reading] }

/-- The readings a run of `hourly_aggregate` scans. -/
def State.scanned (s : State Node) : List (SensorReading Node) :=
  match earliest s.readings (dateTruncHour s.clock) with
  | none => []
  | some first =>
      s.readings.filter (inWindow (windowStart first (watermark s.rows)) (dateTruncHour s.clock))

def State.aggregated (s : State Node) : State Node :=
  { s with
    rows := (Rollup.hourlyAggregate s.clock s.readings s.rows).1
    written := fun k => if group hourKey k s.scanned = [] then s.written k else s.ever.length }

/-- The two deletes. -/
def State.purged (s : State Node) (cutoff : Int) : State Node :=
  { s with
    readings := s.readings.filter fun r => decide (cutoff ≤ r.time)
    rows := s.rows.filter fun row => decide (cutoff ≤ row.bucket)
    deleted := s.deleted ++ (s.rows.filter fun row => decide (row.bucket < cutoff)).map (·.key) }

def step (config : Int) (s : State Node) : Act Node → Option (State Node)
  | .insert raw stampedAt reading =>
      if stampedAt ≤ s.clock ∧ parseTime raw stampedAt = .ok reading.time then some (s.insert reading) else none
  | .hourlyAggregate => some s.aggregated
  | .dataRetentionCleanup =>
      match retentionCutoff config s.clock s.setting with
      | none => some s
      | some cutoff => some (s.purged cutoff)
  | .patchSettings update =>
      some { s with setting := (update.dataRetentionDays.map intText).or s.setting }
  | .tick now => if s.clock ≤ now then some { s with clock := now } else none

/-- What a step does to the tables.  A purge may cut anywhere; `quiet` touches neither
table nor the history. -/
inductive Stepped (s : State Node) : Act Node → State Node → Prop
  | insert {raw : RawTime} {stampedAt : Int} {reading : SensorReading Node}
      (parsed : parseTime raw stampedAt = .ok reading.time) :
        Stepped s (.insert raw stampedAt reading) (s.insert reading)
  | aggregated : Stepped s .hourlyAggregate s.aggregated
  | purged (cutoff : Int) : Stepped s .dataRetentionCleanup (s.purged cutoff)
  | quiet {a : Act Node} {clock : Int} {setting : Option Text} (later : s.clock ≤ clock) :
      Stepped s a { s with clock := clock, setting := setting }

theorem stepped {config : Int} {s s' : State Node} {a : Act Node}
    (ran : step config s a = some s') : Stepped s a s' := by
  cases a with
  | insert raw stampedAt reading =>
      simp only [step, Option.ite_none_right_eq_some, Option.some.injEq] at ran
      obtain ⟨⟨_, parsed⟩, rfl⟩ := ran
      exact .insert parsed
  | hourlyAggregate =>
      cases ran
      exact .aggregated
  | dataRetentionCleanup =>
      simp only [step] at ran
      split at ran <;> cases ran
      · exact .quiet (le_refl _)
      · exact .purged _
  | patchSettings update =>
      cases ran
      exact .quiet (le_refl _)
  | tick now =>
      simp only [step, Option.ite_none_right_eq_some, Option.some.injEq] at ran
      obtain ⟨later, rfl⟩ := ran
      exact .quiet later

/-- A run of the worker that stores a row is an insert of this system. -/
theorem step_of_processReading {config : Int} {s : State Node} {db db' : Db Node}
    {payload : TaskPayload Node} {stampedAt later : Int} {row : SensorReading Node}
    (same : s.readings = db.readings) (past : stampedAt ≤ s.clock)
    (stored : processReading db payload stampedAt later = .ok (some row, db')) :
    step config s (.insert payload.time stampedAt (row.stored db.real)) =
      some (s.insert (row.stored db.real)) ∧
      (s.insert (row.stored db.real)).readings = db'.readings := by
  obtain ⟨parsed, free, rfl⟩ := processReading_stored stored
  rw [← same] at free
  constructor
  · simp [step, past, parsed]
  · have vacant : (s.readings.any fun r =>
        decide (r.time = (row.stored db.real).time ∧ r.node = (row.stored db.real).node)) =
          false := free
    rw [State.insert, if_neg (by rw [vacant]; exact Bool.false_ne_true)]
    exact congrArg (· ++ [row.stored db.real]) same

end Step

/-! ## Hours -/

theorem dateTruncHour_le (t : Int) : dateTruncHour t ≤ t := by
  simp only [dateTruncHour, hour]
  omega

theorem lt_dateTruncHour (t : Int) : t < dateTruncHour t + hour := by
  simp only [dateTruncHour, hour]
  omega

/-- The start of an hour. -/
def Aligned (t : Int) : Prop := t % hour = 0

theorem aligned_dateTruncHour (t : Int) : Aligned (dateTruncHour t) := by
  simp only [Aligned, dateTruncHour, hour]
  omega

/-- Nothing lies between the start of an hour and the hour's readings. -/
theorem Aligned.le_dateTruncHour_iff {a : Int} (aligned : Aligned a) (t : Int) :
    a ≤ dateTruncHour t ↔ a ≤ t := by
  simp only [Aligned, dateTruncHour, hour] at *
  omega

theorem Aligned.sub_day {a : Int} (aligned : Aligned a) : Aligned (a - 24 * hour) := by
  simp only [Aligned, hour] at *
  omega

theorem Aligned.hour_le {a b : Int} (aligned : Aligned a) (aligned' : Aligned b) (lt : a < b) :
    a + hour ≤ b := by
  simp only [Aligned, hour] at *
  omega

/-! ## The window -/

section Window

variable {readings : List (SensorReading Node)} {rows : List (HourlyAgg Node)} {end_ first : Int}

theorem earliest_spec (found : earliest readings end_ = some first) :
    Aligned first ∧ ∀ r ∈ readings, r.time < end_ → first ≤ dateTruncHour r.time := by
  obtain ⟨member, least⟩ := List.min?_eq_some_iff.mp found
  obtain ⟨r, _, rfl⟩ := List.mem_map.mp member
  refine ⟨aligned_dateTruncHour _, ?_⟩
  intro r' member' before
  exact least _ (List.mem_map.mpr ⟨r', List.mem_filter.mpr ⟨member', decide_eq_true before⟩, rfl⟩)

theorem earliest_none (missing : earliest readings end_ = none) :
    ∀ r ∈ readings, end_ ≤ r.time := by
  have empty := List.map_eq_nil_iff.mp (List.min?_eq_none_iff.mp missing)
  intro r member
  have late := List.filter_eq_nil_iff.mp empty r member
  rw [decide_eq_true_eq] at late
  exact not_lt.mp late

theorem watermark_spec {mark : Int} (found : watermark rows = some mark) :
    ∃ row ∈ rows, row.bucket = mark :=
  List.mem_map.mp (List.max?_mem found)

/-- Both ends of the window are starts of hours. -/
theorem windowStart_aligned (aligned : ∀ row ∈ rows, Aligned row.bucket) (here : Aligned first) :
    Aligned (windowStart first (watermark rows)) := by
  cases found : watermark rows with
  | none => exact here
  | some mark =>
      obtain ⟨row, member, rfl⟩ := watermark_spec found
      rcases max_choice first (row.bucket - 24 * hour) with left | right
      · simpa only [windowStart, left] using here
      · simpa only [windowStart, right] using (aligned row member).sub_day

end Window

section Scanned

variable [DecidableEq Node] {s : State Node}

/-- A run is one grouped upsert over the readings it scans, also where it returns early. -/
theorem aggregated_rows (s : State Node) :
    s.aggregated.rows = upsertAll HourlyAgg.key s.rows (groupBy hourKey aggregate s.scanned) := by
  have nothing : upsertAll HourlyAgg.key s.rows [] = s.rows := by simp [upsertAll]
  show (Rollup.hourlyAggregate s.clock s.readings s.rows).1 = _
  simp only [Rollup.hourlyAggregate, State.scanned]
  cases found : earliest s.readings (dateTruncHour s.clock) with
  | none => exact nothing.symm
  | some first =>
      simp only
      split
      · rename_i late
        have empty : s.readings.filter
            (inWindow (windowStart first (watermark s.rows)) (dateTruncHour s.clock)) = [] := by
          apply List.filter_eq_nil_iff.mpr
          intro r _
          simp only [inWindow, decide_eq_true_eq]
          omega
        rw [empty]
        exact nothing.symm
      · rfl

/-- What a run leaves for each node and hour. -/
theorem group_aggregated (s : State Node) (k : Int × Node) :
    group HourlyAgg.key k s.aggregated.rows =
      if group hourKey k s.scanned = [] then group HourlyAgg.key k s.rows
      else [aggregate k (group hourKey k s.scanned)] := by
  rw [aggregated_rows]
  exact group_refresh fun _ _ => rfl

/-- The window cuts no hour in two. -/
theorem group_scanned (aligned : ∀ row ∈ s.rows, Aligned row.bucket) {first : Int}
    (found : earliest s.readings (dateTruncHour s.clock) = some first) (k : Int × Node) :
    group hourKey k s.scanned =
      if windowStart first (watermark s.rows) ≤ k.1 ∧ k.1 < dateTruncHour s.clock then
        group hourKey k s.readings
      else [] := by
  have start := windowStart_aligned aligned (earliest_spec found).1
  have stop := aligned_dateTruncHour s.clock
  have window : ∀ r : SensorReading Node, hourKey r = k →
      inWindow (windowStart first (watermark s.rows)) (dateTruncHour s.clock) r =
        decide (windowStart first (watermark s.rows) ≤ k.1 ∧ k.1 < dateTruncHour s.clock) := by
    rintro r rfl
    apply decide_eq_decide.mpr
    rw [← start.le_dateTruncHour_iff, ← not_le (b := r.time), ← stop.le_dateTruncHour_iff, not_le]
    rfl
  simp only [State.scanned, found]
  split
  · rename_i inside
    apply group_filter
    intro r _ here
    rw [window r here]
    exact decide_eq_true inside
  · rename_i outside
    apply group_filter_nil
    intro r _ here
    rw [window r here]
    exact decide_eq_false outside

omit [DecidableEq Node] in
theorem scanned_nil (missing : earliest s.readings (dateTruncHour s.clock) = none) :
    s.scanned = [] := by
  simp only [State.scanned, missing]

omit [DecidableEq Node] in
/-- The window, as a condition on a reading: the earliest hour excludes none. -/
theorem mem_scanned {r : SensorReading Node} : r ∈ s.scanned ↔
    r ∈ s.readings ∧ r.time < dateTruncHour s.clock ∧
      ∀ mark ∈ watermark s.rows, mark - 24 * hour ≤ r.time := by
  cases found : earliest s.readings (dateTruncHour s.clock) with
  | none =>
      rw [scanned_nil found]
      refine ⟨fun member => (nomatch member), ?_⟩
      rintro ⟨member, ended, _⟩
      exact absurd (earliest_none found r member) (not_le.mpr ended)
  | some first =>
      simp only [State.scanned, found, List.mem_filter, inWindow, decide_eq_true_eq]
      refine and_congr_right fun member =>
        ⟨fun ⟨started, ended⟩ => ⟨ended, ?_⟩, fun ⟨ended, marked⟩ => ⟨?_, ended⟩⟩
      · intro mark found
        rw [Option.mem_def.mp found] at started
        exact le_trans (le_max_right _ _) started
      · have earlier := le_trans ((earliest_spec found).2 r member ended) (dateTruncHour_le r.time)
        cases mark : watermark s.rows with
        | none => exact earlier
        | some mark' => exact max_le earlier (marked mark' mark)

/-- A run scans an hour whole or not at all. -/
theorem scanned_whole (aligned : ∀ row ∈ s.rows, Aligned row.bucket) (k : Int × Node) :
    group hourKey k s.scanned = [] ∨
      group hourKey k s.scanned = group hourKey k s.readings := by
  cases found : earliest s.readings (dateTruncHour s.clock) with
  | none =>
      rw [scanned_nil found]
      exact Or.inl rfl
  | some first =>
      rw [group_scanned aligned found]
      split
      · exact Or.inr rfl
      · exact Or.inl rfl

end Scanned

end Empyrean.Rollup
