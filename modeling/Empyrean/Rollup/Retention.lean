/-
# Empyrean.Rollup.Retention — roll-ups of hours that retention has reached

`data_retention_cleanup` cuts `sensor_readings` at an instant, mostly in the middle of
an hour, and `hourly_agg` at the start of an hour.  `hourly_aggregate` rolls up again
whatever readings it finds in its window.

* `faithful_of_reach` — in every run in which no roll-up scans an hour that the purge has
  touched (`Untouched`), each row is the roll-up of all readings ever committed for it
  when it was written, and a row that was deleted does not come back.
* `State.Faithful.aggregated_iff` — the condition is exact: a roll-up that meets a
  touched hour breaks one or the other.
* `reborn_from_half` — a run that does both, with the smallest window the admin API
  accepts.
-/
import Empyrean.Admin.Thresholds
import Empyrean.Rollup.Exact

namespace Empyrean.Rollup

set_option autoImplicit false
set_option linter.unusedSectionVars false

open Empyrean.Ingest Empyrean.Theory.GroupBy Empyrean.Theory.Runs Empyrean.Admin

variable {Node : Type} [DecidableEq Node]

/-! ## The statement -/

/-- No reading of this node and hour, and no roll-up of it, has been deleted. -/
def Whole (s : State Node) (k : Int × Node) : Prop :=
  group hourKey k s.readings = group hourKey k s.ever ∧ k ∉ s.deleted

instance (s : State Node) (k : Int × Node) : Decidable (Whole s k) :=
  inferInstanceAs (Decidable (_ ∧ _))

/-- Retention has touched no hour with a reading that a roll-up is about to fold in:
one before the boundary and not more than a day behind the watermark. -/
def Untouched (s : State Node) : Act Node → Prop
  | .hourlyAggregate =>
      ∀ r ∈ s.readings, r.time < dateTruncHour s.clock →
        (∀ mark ∈ watermark s.rows, mark - 24 * hour ≤ r.time) → Whole s (hourKey r)
  | _ => True

instance (s : State Node) (a : Act Node) : Decidable (Untouched s a) :=
  match a with
  | .hourlyAggregate =>
      inferInstanceAs (Decidable (∀ r ∈ s.readings, r.time < dateTruncHour s.clock →
        (∀ mark ∈ watermark s.rows, mark - 24 * hour ≤ r.time) → Whole s (hourKey r)))
  | .insert _ _ _ | .dataRetentionCleanup | .patchSettings _ | .tick _ =>
      inferInstanceAs (Decidable True)

/-- Every row is the roll-up of all there was when it was written, and none was deleted
before. -/
def State.Faithful (s : State Node) : Prop :=
  ∀ row ∈ s.rows,
    row = aggregate row.key (group hourKey row.key (s.ever.take (s.written row.key))) ∧
      row.key ∉ s.deleted

theorem untouched_iff {s : State Node} : Untouched s .hourlyAggregate ↔
    ∀ r ∈ s.scanned, Whole s (hourKey r) := by
  simp only [Untouched, mem_scanned]
  exact ⟨fun whole r scanned => whole r scanned.1 scanned.2.1 scanned.2.2,
    fun whole r member ended marked => whole r ⟨member, ended, marked⟩⟩

/-! ## The history and the tables -/

/-- What every run keeps, clean or not. -/
structure History (s : State Node) : Prop where
  aligned : ∀ row ∈ s.rows, Aligned row.bucket
  written : ∀ k, s.written k ≤ s.ever.length
  kept : s.readings.Sublist s.ever

section Steps

variable {config : Int} {s s' : State Node}

/-- A row after a roll-up is one from before, or the roll-up of its hour now. -/
theorem aggregated_row_cases {row : HourlyAgg Node} (member : row ∈ s.aggregated.rows) :
    (group hourKey row.key s.scanned = [] ∧ row ∈ s.rows) ∨
      (group hourKey row.key s.scanned ≠ [] ∧
        row = aggregate row.key (group hourKey row.key s.scanned)) := by
  have among : row ∈ group HourlyAgg.key row.key s.aggregated.rows := mem_group.mpr ⟨member, rfl⟩
  rw [group_aggregated] at among
  split at among
  · rename_i empty
    exact Or.inl ⟨empty, (mem_group.mp among).1⟩
  · rename_i present
    exact Or.inr ⟨present, List.mem_singleton.mp among⟩

theorem History.aggregated (history : History s) : History s.aggregated where
  aligned := by
    intro row member
    rcases aggregated_row_cases member with ⟨_, earlier⟩ | ⟨present, _⟩
    · exact history.aligned row earlier
    · exact aligned_of_group present
  written := by
    intro k
    show (if group hourKey k s.scanned = [] then s.written k else s.ever.length) ≤ s.ever.length
    split
    · exact history.written k
    · exact le_refl _
  kept := history.kept

theorem History.insert (history : History s) (reading : SensorReading Node) :
    History (s.insert reading) := by
  unfold State.insert
  split
  · exact history
  · refine ⟨history.aligned, ?_, history.kept.append (List.Sublist.refl _)⟩
    intro k
    rw [List.length_append]
    exact Nat.le_add_right_of_le (history.written k)

theorem History.purged (history : History s) (cutoff : Int) : History (s.purged cutoff) where
  aligned := fun row member => history.aligned row (List.mem_filter.mp member).1
  written := history.written
  kept := (List.filter_sublist ..).trans history.kept

theorem History.step {a : Act Node} (history : History s) (stepped : Stepped s a s') :
    History s' := by
  cases stepped with
  | insert parsed => exact history.insert _
  | aggregated => exact history.aggregated
  | purged cutoff => exact history.purged cutoff
  | quiet later => exact ⟨history.aligned, history.written, history.kept⟩

/-! ## Faithful rows -/

theorem State.Faithful.insert (faithful : s.Faithful) (history : History s)
    (reading : SensorReading Node) : (s.insert reading).Faithful := by
  unfold State.insert
  split
  · exact faithful
  · intro row member
    obtain ⟨rolled, kept⟩ := faithful row member
    refine ⟨?_, kept⟩
    show row = aggregate row.key
      (group hourKey row.key ((s.ever ++ [reading]).take (s.written row.key)))
    rw [List.take_append_of_le_length (history.written row.key)]
    exact rolled

theorem State.Faithful.purged (faithful : s.Faithful) (cutoff : Int) :
    (s.purged cutoff).Faithful := by
  intro row member
  obtain ⟨member, late⟩ := List.mem_filter.mp member
  obtain ⟨rolled, kept⟩ := faithful row member
  refine ⟨rolled, ?_⟩
  intro deleted
  rcases List.mem_append.mp deleted with before | now
  · exact kept before
  · obtain ⟨other, dropped, same⟩ := List.mem_map.mp now
    have early := of_decide_eq_true (List.mem_filter.mp dropped).2
    have bucket : other.bucket = row.bucket := congrArg Prod.fst same
    rw [bucket] at early
    exact absurd (of_decide_eq_true late) (not_le.mpr early)

/-- A roll-up that meets only whole hours writes what it should. -/
theorem State.Faithful.aggregated (faithful : s.Faithful) (history : History s)
    (untouched : Untouched s .hourlyAggregate) : s.aggregated.Faithful := by
  intro row member
  rcases aggregated_row_cases member with ⟨empty, earlier⟩ | ⟨present, rolled⟩
  · obtain ⟨rolled, kept⟩ := faithful row earlier
    refine ⟨?_, kept⟩
    show row = aggregate row.key (group hourKey row.key (s.ever.take
      (if group hourKey row.key s.scanned = [] then s.written row.key else s.ever.length)))
    rw [if_pos empty]
    exact rolled
  · obtain ⟨r, among⟩ := List.exists_mem_of_ne_nil _ present
    obtain ⟨scanned, here⟩ := mem_group.mp among
    obtain ⟨complete, kept⟩ := untouched_iff.mp untouched r scanned
    rw [here] at complete kept
    refine ⟨?_, kept⟩
    show row = aggregate row.key (group hourKey row.key (s.ever.take
      (if group hourKey row.key s.scanned = [] then s.written row.key else s.ever.length)))
    rw [if_neg present, List.take_length, ← complete]
    rcases scanned_whole history.aligned row.key with empty | whole
    · exact absurd empty present
    · rw [← whole]
      exact rolled

/-- **The condition is exact.**  A roll-up keeps the rows faithful iff it scans only
hours that retention has not touched. -/
theorem State.Faithful.aggregated_iff (faithful : s.Faithful) (history : History s) :
    s.aggregated.Faithful ↔ Untouched s .hourlyAggregate := by
  refine ⟨fun after => untouched_iff.mpr ?_, faithful.aggregated history⟩
  intro r scanned
  have among : r ∈ group hourKey (hourKey r) s.scanned := mem_group.mpr ⟨scanned, rfl⟩
  have present : group hourKey (hourKey r) s.scanned ≠ [] := List.ne_nil_of_mem among
  have written :
      aggregate (hourKey r) (group hourKey (hourKey r) s.scanned) ∈ s.aggregated.rows := by
    have left := group_aggregated s (hourKey r)
    rw [if_neg present] at left
    exact (mem_group.mp (left ▸ List.mem_singleton_self _)).1
  obtain ⟨rolled, kept⟩ := after _ written
  refine ⟨?_, kept⟩
  -- the two roll-ups count equally many readings, so none is missing
  have count := congrArg HourlyAgg.readingCount rolled
  have now : s.aggregated.written (hourKey r) = s.ever.length := if_neg present
  rw [aggregate_key, now] at count
  simp only [aggregate] at count
  rcases scanned_whole history.aligned (hourKey r) with empty | whole
  · exact absurd empty present
  · rw [whole] at count
    have all : s.ever.take s.ever.length = s.ever := List.take_length
    apply (history.kept.filter _).eq_of_length
    exact count.trans (congrArg (fun rs => (group hourKey (hourKey r) rs).length) all)

theorem State.Faithful.step {a : Act Node} (faithful : s.Faithful) (history : History s)
    (untouched : Untouched s a) (stepped : Stepped s a s') : s'.Faithful := by
  cases stepped with
  | insert parsed => exact faithful.insert history _
  | aggregated => exact faithful.aggregated history untouched
  | purged cutoff => exact faithful.purged cutoff
  | quiet later => exact faithful

theorem Start.history (starts : Start s) : History s where
  aligned := by simp [starts.rows]
  written := fun k => (starts.written k).le.trans (Nat.zero_le _)
  kept := starts.ever ▸ List.Sublist.refl _

/-- **Retention and roll-up.**  Whatever inserts, roll-ups, purges and patches of the
retention window interleave, with whatever gaps, as long as no roll-up scans an hour
that retention has touched: every row is the roll-up of all readings ever committed for
its node and hour up to its last write, and no deleted row is back. -/
theorem faithful_of_reach (reached : Reach (step config) Untouched Start s) :
    ∀ row ∈ s.rows,
      row = aggregate row.key
        ((s.ever.take (s.written row.key)).filter fun r => decide (hourKey r = row.key)) ∧
        row.key ∉ s.deleted := by
  have both : History s ∧ s.Faithful := by
    refine reached.invariant (I := fun s => History s ∧ s.Faithful) (fun s starts => ?_)
      fun s a s' inv untouched ran =>
        ⟨inv.1.step (stepped ran), inv.2.step inv.1 untouched (stepped ran)⟩
    exact ⟨starts.history, by simp [State.Faithful, starts.rows]⟩
  exact both.2

end Steps

/-! ## A window of one day -/

/-- `PATCH {"data_retention_days": n}` -/
def patchRetention (n : Nat) (bounds : 1 ≤ n ∧ n ≤ 3650) : AdminSettingsUpdate :=
  { patchNothing with
    dataRetentionDays := some n
    retention_bounds := fun _ same => by cases same; exact bounds }

/-- Two readings, at 00:10 and 00:50, are rolled up at 01:07. -/
def rolledUp : List (Act Unit) :=
  [.patchSettings (patchRetention 1 (by decide)),
    .insert .missing (midnight + 10 * minute) (readingAt (midnight + 10 * minute) 40),
    .tick (midnight + 50 * minute),
    .insert .missing (midnight + 50 * minute) (readingAt (midnight + 50 * minute) 60),
    .tick (midnight + 67 * minute), .hourlyAggregate]

/-- The purge of the next day but one, between two roll-ups. -/
def twoDaysLater : List (Act Unit) :=
  rolledUp ++
    [.tick (midnight + 47 * hour),
      .insert .missing (midnight + 47 * hour) (readingAt (midnight + 47 * hour) 80),
      .tick (midnight + 48 * hour), .dataRetentionCleanup,
      .tick (midnight + 48 * hour + 7 * minute), .hourlyAggregate]

theorem faithful_of_reach_twoDaysLater :
    ∃ s : State Unit, Reach (step 365) Untouched Start s ∧ s.rows.length = 1 ∧
      s.deleted = [(midnight, ())] ∧
      ∀ row ∈ s.rows,
        row = aggregate row.key
          ((s.ever.take (s.written row.key)).filter fun r => decide (hourKey r = row.key)) ∧
          row.key ∉ s.deleted := by
  obtain ⟨s, reached, purged⟩ := exists_reach_of_run (step 365) Untouched started_start twoDaysLater
    (fun s => decide (s.rows.length = 1 ∧ s.deleted = [(midnight, ())])) (by decide +kernel)
  obtain ⟨length, deleted⟩ := of_decide_eq_true purged
  exact ⟨s, reached, length, deleted, faithful_of_reach reached⟩

/-- The purge at 00:30 of the next day leaves the second half of the hour, and the next
roll-up finds it. -/
def halfPurged : List (Act Unit) :=
  rolledUp ++
    [.tick (midnight + 24 * hour + 30 * minute), .dataRetentionCleanup,
      .tick (midnight + 25 * hour + 7 * minute), .hourlyAggregate]

/-- The deleted row is back, and it is the roll-up of one of two readings. -/
theorem reborn_from_half :
    ∃ s : State Unit, Reach (step 365) Always Start s ∧ ∃ row ∈ s.rows, row.key ∈ s.deleted ∧
      row ≠ aggregate row.key
        ((s.ever.take (s.written row.key)).filter fun r => decide (hourKey r = row.key)) := by
  obtain ⟨s, reached, reborn⟩ := exists_reach_of_run (step 365) Always started_start halfPurged
    (fun s => s.rows.any fun row => decide (row.key ∈ s.deleted ∧
      row ≠ aggregate row.key
        ((s.ever.take (s.written row.key)).filter fun r => decide (hourKey r = row.key))))
    (by decide +kernel)
  obtain ⟨row, member, broken⟩ := List.any_eq_true.mp reborn
  exact ⟨s, reached, row, member, of_decide_eq_true broken⟩

end Empyrean.Rollup
