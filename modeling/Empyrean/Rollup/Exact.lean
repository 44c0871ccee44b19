/-
# Empyrean.Rollup.Exact — late readings are always folded in

Without a purge, every run of `hourly_aggregate` leaves the roll-up of every hour before
its boundary exactly as the readings committed so far make it, whatever inserts, runs
and gaps came before (`exact_of_reach`).

The run does not look at all hours: it starts a day behind the watermark.  What makes
that enough is `Inv.settled`: an hour further back is exact already and stays so,
because a reading is committed within ten minutes of its stamp, its time is within a day
of the stamp, and the watermark is the start of an hour that was over when it was
written.
-/
import Empyrean.Rollup.Aggregation

namespace Empyrean.Rollup

set_option autoImplicit false

open Empyrean.Ingest Empyrean.Theory.GroupBy Empyrean.Theory.Runs

variable {Node : Type} [DecidableEq Node]

/-- Ten minutes. -/
def commitDelay : Int := 600000000

/-- A reading is committed within ten minutes of its stamp, and nothing is purged. -/
def Prompt (s : State Node) : Act Node → Prop
  | .insert _ stampedAt _ => s.clock ≤ stampedAt + commitDelay
  | .dataRetentionCleanup => False
  | _ => True

instance (s : State Node) (a : Act Node) : Decidable (Prompt s a) :=
  match a with
  | .insert _ stampedAt _ => inferInstanceAs (Decidable (s.clock ≤ stampedAt + commitDelay))
  | .dataRetentionCleanup => inferInstanceAs (Decidable False)
  | .hourlyAggregate | .patchSettings _ | .tick _ => inferInstanceAs (Decidable True)

/-- Nothing has been rolled up or purged yet. -/
structure Start (s : State Node) : Prop where
  rows : s.rows = []
  ever : s.ever = s.readings
  written : ∀ k, s.written k = 0
  deleted : s.deleted = []

/-- The table holds exactly the roll-up of one node and hour. -/
def Exact (readings : List (SensorReading Node)) (rows : List (HourlyAgg Node))
    (k : Int × Node) : Prop :=
  group HourlyAgg.key k rows =
    if group hourKey k readings = [] then [] else [aggregate k (group hourKey k readings)]

structure Inv (s : State Node) : Prop where
  aligned : ∀ row ∈ s.rows, Aligned row.bucket
  past : ∀ row ∈ s.rows, row.bucket + hour ≤ s.clock
  sourced : ∀ row ∈ s.rows, group hourKey row.key s.readings ≠ []
  settled : ∀ mark, watermark s.rows = some mark → ∀ k : Int × Node, k.1 < mark - 24 * hour →
    Exact s.readings s.rows k

section Aggregated

variable {s : State Node}

/-- A row of a group without readings would have to come from somewhere. -/
theorem Inv.unsourced (inv : Inv s) {k : Int × Node} (empty : group hourKey k s.readings = []) :
    group HourlyAgg.key k s.rows = [] :=
  group_nil_of fun row member here => inv.sourced row member (here ▸ empty)

theorem Inv.unsourced_exact (inv : Inv s) {k : Int × Node}
    (empty : group hourKey k s.readings = []) : Exact s.readings s.rows k := by
  rw [Exact, if_pos empty]
  exact inv.unsourced empty

omit [DecidableEq Node] in
/-- A reading of an hour before the boundary is before the boundary itself. -/
theorem time_lt_of_key {r : SensorReading Node} {k : Int × Node} (here : hourKey r = k) {end_ : Int}
    (aligned : Aligned end_) : k.1 < end_ ↔ r.time < end_ := by
  have bucket : dateTruncHour r.time = k.1 := congrArg Prod.fst here
  rw [← bucket, ← not_le, aligned.le_dateTruncHour_iff, not_le]

/-- The hour of a row was over when the row was written. -/
theorem Inv.row_lt (inv : Inv s) {row : HourlyAgg Node} (member : row ∈ s.rows) :
    row.bucket < dateTruncHour s.clock := by
  have past := inv.past row member
  have clock := lt_dateTruncHour s.clock
  omega

/-- An hour that the window leaves out is exact before the run. -/
theorem Inv.exact_before (inv : Inv s) {first : Int}
    (found : earliest s.readings (dateTruncHour s.clock) = some first) {k : Int × Node}
    (before : k.1 < windowStart first (watermark s.rows)) (elapsed : k.1 < dateTruncHour s.clock) :
    Exact s.readings s.rows k := by
  have noReadings : k.1 < first → Exact s.readings s.rows k := by
    intro earlier
    refine inv.unsourced_exact (group_nil_of ?_)
    intro r member here
    have ended := (time_lt_of_key here (aligned_dateTruncHour s.clock)).mp elapsed
    have bounded : first ≤ k.1 := here ▸ (earliest_spec found).2 r member ended
    exact absurd bounded (not_le.mpr earlier)
  cases mark : watermark s.rows with
  | none =>
      rw [mark] at before
      exact noReadings before
  | some mark' =>
      rw [mark, windowStart, lt_max_iff] at before
      rcases before with earlier | behind
      · exact noReadings earlier
      · exact inv.settled mark' mark k behind

/-- Without a reading before the boundary there is no row either. -/
theorem Inv.nothing_before (inv : Inv s)
    (missing : earliest s.readings (dateTruncHour s.clock) = none) : s.rows = [] := by
  apply List.eq_nil_iff_forall_not_mem.mpr
  intro row member
  obtain ⟨r, among⟩ := List.exists_mem_of_ne_nil _ (inv.sourced row member)
  obtain ⟨among, same⟩ := mem_group.mp among
  have ended := (time_lt_of_key same (aligned_dateTruncHour s.clock)).mp (inv.row_lt member)
  exact absurd (earliest_none missing r among) (not_le.mpr ended)

/-- **One run.**  Every hour before the boundary is exact, and no other has a row. -/
theorem Inv.aggregated_exact (inv : Inv s) (k : Int × Node) :
    (k.1 < dateTruncHour s.clock → Exact s.readings s.aggregated.rows k) ∧
      (dateTruncHour s.clock ≤ k.1 → group HourlyAgg.key k s.aggregated.rows = []) := by
  have left := group_aggregated s k
  cases found : earliest s.readings (dateTruncHour s.clock) with
  | none =>
      have empty : group HourlyAgg.key k s.aggregated.rows = [] := by
        rw [left, scanned_nil found, inv.nothing_before found]
        rfl
      refine ⟨?_, fun _ => empty⟩
      intro elapsed
      have noReadings : group hourKey k s.readings = [] := by
        apply group_nil_of
        intro r member here
        have ended := (time_lt_of_key here (aligned_dateTruncHour s.clock)).mp elapsed
        exact absurd (earliest_none found r member) (not_le.mpr ended)
      exact empty.trans (if_pos noReadings).symm
  | some first =>
      have scan := group_scanned inv.aligned found k
      constructor
      · intro elapsed
        unfold Exact
        by_cases inside : windowStart first (watermark s.rows) ≤ k.1
        · rw [if_pos ⟨inside, elapsed⟩] at scan
          rw [left, scan]
          by_cases empty : group hourKey k s.readings = []
          · rw [if_pos empty, if_pos empty]
            exact inv.unsourced empty
          · rw [if_neg empty, if_neg empty]
        · rw [if_neg (fun bounds => inside bounds.1)] at scan
          rw [left, if_pos scan]
          exact inv.exact_before found (not_le.mp inside) elapsed
      · intro later
        rw [if_neg (fun bounds => not_lt.mpr later bounds.2)] at scan
        rw [left, if_pos scan]
        apply group_nil_of
        intro row member here
        have elapsed : k.1 < dateTruncHour s.clock := here ▸ inv.row_lt member
        exact absurd elapsed (not_lt.mpr later)

/-- What a row of the table after the run tells. -/
theorem Inv.aggregated_row (inv : Inv s) {row : HourlyAgg Node} (member : row ∈ s.aggregated.rows) :
    row.bucket < dateTruncHour s.clock ∧ group hourKey row.key s.readings ≠ [] := by
  have among : row ∈ group HourlyAgg.key row.key s.aggregated.rows := mem_group.mpr ⟨member, rfl⟩
  obtain ⟨exactly, none_later⟩ := inv.aggregated_exact row.key
  have elapsed : row.bucket < dateTruncHour s.clock := by
    by_contra later
    rw [none_later (not_lt.mp later)] at among
    cases among
  refine ⟨elapsed, ?_⟩
  intro empty
  rw [exactly elapsed, if_pos empty] at among
  cases among

/-- The hour of a group with readings. -/
theorem aligned_of_group {k : Int × Node} {readings : List (SensorReading Node)}
    (present : group hourKey k readings ≠ []) : Aligned k.1 := by
  obtain ⟨r, among⟩ := List.exists_mem_of_ne_nil _ present
  rw [← (mem_group.mp among).2]
  exact aligned_dateTruncHour r.time

theorem Inv.aggregated (inv : Inv s) : Inv s.aggregated where
  aligned := fun _ member => aligned_of_group (inv.aggregated_row member).2
  past := by
    intro row member
    obtain ⟨elapsed, present⟩ := inv.aggregated_row member
    have closed := (aligned_of_group present).hour_le (aligned_dateTruncHour s.clock) elapsed
    have clock := dateTruncHour_le s.clock
    show row.bucket + hour ≤ s.clock
    exact le_trans closed clock
  sourced := fun _ member => (inv.aggregated_row member).2
  settled := by
    intro mark found k behind
    obtain ⟨row, member, rfl⟩ := watermark_spec found
    have elapsed := (inv.aggregated_row member).1
    apply (inv.aggregated_exact k).1
    simp only [hour] at behind
    omega

end Aggregated

/-! ## The other steps -/

section Steps

variable {s : State Node}

/-- What is committed promptly lies within the look-back of the watermark. -/
theorem Inv.late_bound (inv : Inv s) {raw : RawTime} {stampedAt time mark : Int}
    (parsed : parseTime raw stampedAt = .ok time) (prompt : s.clock ≤ stampedAt + commitDelay)
    (found : watermark s.rows = some mark) : mark - 24 * hour ≤ dateTruncHour time := by
  obtain ⟨row, member, rfl⟩ := watermark_spec found
  have past := inv.past row member
  have window := (parseTime_window parsed).1
  apply ((inv.aligned row member).sub_day.le_dateTruncHour_iff time).mpr
  simp only [commitDelay, day, hour] at *
  omega

theorem Inv.insert (inv : Inv s) {raw : RawTime} {stampedAt : Int} {reading : SensorReading Node}
    (parsed : parseTime raw stampedAt = .ok reading.time)
    (prompt : s.clock ≤ stampedAt + commitDelay) : Inv (s.insert reading) := by
  unfold State.insert
  split
  · exact inv
  · refine ⟨inv.aligned, inv.past, ?_, ?_⟩
    · intro row member
      show group hourKey row.key (s.readings ++ [reading]) ≠ []
      rw [group_append]
      exact List.append_ne_nil_of_left_ne_nil (inv.sourced row member) _
    · intro mark found k behind
      have elsewhere : group hourKey k (s.readings ++ [reading]) = group hourKey k s.readings := by
        have other : group hourKey k [reading] = [] := by
          apply group_nil_of
          rintro r member rfl
          cases List.mem_singleton.mp member
          exact absurd (inv.late_bound parsed prompt found) (not_le.mpr behind)
        rw [group_append, other, List.append_nil]
      show group HourlyAgg.key k s.rows =
          if group hourKey k (s.readings ++ [reading]) = [] then [] else
        [aggregate k (group hourKey k (s.readings ++ [reading]))]
      rw [elsewhere]
      exact inv.settled mark found k behind

theorem Inv.step {s' : State Node} {a : Act Node} (inv : Inv s) (prompt : Prompt s a)
    (stepped : Stepped s a s') : Inv s' := by
  cases stepped with
  | insert parsed => exact inv.insert parsed prompt
  | aggregated => exact inv.aggregated
  | purged cutoff => exact absurd prompt id
  | quiet later =>
      exact ⟨inv.aligned, fun row member => le_trans (inv.past row member) later, inv.sourced,
        inv.settled⟩

theorem Start.inv (starts : Start s) : Inv s where
  aligned := by simp [starts.rows]
  past := by simp [starts.rows]
  sourced := by simp [starts.rows]
  settled := by simp [starts.rows, watermark]

/-- **Eventually exact.**  After a run with the boundary `dateTruncHour s.clock`, each
node and each hour before it has exactly the roll-up of the readings committed so far,
and nothing where there are none or the hour is not over. -/
theorem exact_of_reach {config : Int} {s' : State Node}
    (reached : Reach (Rollup.step config) Prompt Start s)
    (ran : Rollup.step config s .hourlyAggregate = some s') (bucket : Int) (node : Node) :
    s'.rows.filter (fun row => decide (row.key = (bucket, node))) =
      if bucket < dateTruncHour s.clock ∧
          s.readings.filter (fun r => decide (hourKey r = (bucket, node))) ≠ [] then
        [aggregate (bucket, node) (s.readings.filter fun r => decide (hourKey r = (bucket, node)))]
      else [] := by
  have inv : Inv s := reached.invariant (fun _ starts => starts.inv) fun _ _ _ inv prompt ran =>
    inv.step prompt (stepped ran)
  cases ran
  obtain ⟨exactly, none_later⟩ := inv.aggregated_exact (bucket, node)
  by_cases elapsed : bucket < dateTruncHour s.clock
  · apply (exactly elapsed).trans
    by_cases empty : group hourKey (bucket, node) s.readings = []
    · rw [if_pos empty, if_neg (fun both => both.2 empty)]
    · rw [if_neg empty, if_pos ⟨elapsed, empty⟩]
      rfl
  · rw [if_neg fun both => elapsed both.1]
    exact none_later (not_lt.mp elapsed)

end Steps

/-! ## A late reading -/

/-- Midnight of some day. -/
def midnight : Int := 738000 * day

def minute : Int := 60000000

def started : State Unit where
  clock := midnight + 10 * minute
  readings := []
  rows := []
  setting := none
  ever := []
  written := fun _ => 0
  deleted := []

theorem started_start : Start started := ⟨rfl, rfl, fun _ => rfl, rfl⟩

/-- A reading of `aqi` at a time. -/
def readingAt (time aqi : Int) : SensorReading Unit where
  time := time
  node := ()
  temperature := none
  humidity := none
  pressure := none
  vocOhm := none
  mq135Ppm := none
  pm1 := none
  pm25 := none
  pm10 := none
  batteryV := none
  fuzzyScore := none
  aqi := some aqi
  aqiCategory := none
  isAnomaly := false

/-- The naive timestamp 00:20 of the day. -/
def twentyPast : Datetime := ⟨midnight + 20 * minute, none, by decide, nofun⟩

/-- The hour is rolled up at 01:07; at 20:00 the device sends what it had buffered. -/
def buffered : List (Act Unit) :=
  [.insert .missing (midnight + 10 * minute) (readingAt (midnight + 10 * minute) 40),
    .tick (midnight + 67 * minute), .hourlyAggregate, .tick (midnight + 20 * hour),
    .insert (.value twentyPast) (midnight + 20 * hour) (readingAt (midnight + 20 * minute) 60),
    .tick (midnight + 20 * hour + 7 * minute)]

theorem exact_of_reach_buffered :
    ∃ s s' : State Unit, Reach (step 365) Prompt Start s ∧ step 365 s .hourlyAggregate = some s' ∧
      s'.rows.map (fun row => (row.bucket, row.maxAqi, row.readingCount)) =
        [(midnight, some 60, 2)] ∧
      ∀ bucket node, s'.rows.filter (fun row => decide (row.key = (bucket, node))) =
        if bucket < dateTruncHour s.clock ∧
            s.readings.filter (fun r => decide (hourKey r = (bucket, node))) ≠ [] then
          [aggregate (bucket, node) (s.readings.filter fun r => decide (hourKey r = (bucket, node)))]
        else [] := by
  obtain ⟨s, reached, folded⟩ := exists_reach_of_run (step 365) Prompt started_start buffered
    (fun s => decide (s.aggregated.rows.map (fun row => (row.bucket, row.maxAqi, row.readingCount)) =
      [(midnight, some 60, 2)])) (by decide +kernel)
  exact ⟨s, s.aggregated, reached, rfl, of_decide_eq_true folded, exact_of_reach reached rfl⟩

end Empyrean.Rollup
