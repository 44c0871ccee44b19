/-
# Empyrean.Api.History — the answer of `GET /readings/history`

`history` (`api/readings.py`) groups the readings of a window by bucket and node, asks the
database for one row more than it is willing to send, and refuses where it gets it.  The
window is clamped to what the granularity can serve (`Empyrean.Api.RangeParams`).

* `history_lossless` — an answer counts every reading of the window once, in the row of its
  bucket and node, with the rows in order.
* `history_node_answered` — with `node_id` given, the cap is never reached: the clamp leaves
  at most 43 202 rows.
* `history_coarser` — the rows of a coarser granularity follow from those of a finer one.
* `history_agrees_rollup` — an hour inside the window reads as in `hourly_agg`, up to the
  REAL columns of the latter, after a roll-up, whatever the order of prompt readings and
  roll-ups before.

`time_bucket` counts from 2000-01-03.  Node ids are ordered by the database's collation,
which tells different ids apart.  A query that the database refuses (a NUL in `node_id`, a
server without `time_bucket`) is outside the model.
-/
import Empyrean.Api.RangeParams
import Empyrean.Rollup.Exact
import Empyrean.Theory.Buckets
import Empyrean.Theory.OrderBy
import Mathlib.Data.Char
import Mathlib.Data.List.Lex

namespace Empyrean.Api

set_option autoImplicit false

open Empyrean.Ingest Empyrean.Rollup Empyrean.Theory.GroupBy Empyrean.Theory.Buckets Empyrean.Theory.OrderBy
open Empyrean.Theory.PyNumeral (Text strip)
open Empyrean.Theory.Rounding (roundSingle)
open Empyrean.Theory.Runs (Reach exists_reach_of_run)

/-! ## The query -/

/-- `_BUCKET_INTERVALS` -/
def bucketIntervals : List (Text × Int) :=
  [("1m".toList, 60000000), ("5m".toList, 5 * 60000000), ("15m".toList, 15 * 60000000),
    ("1h".toList, hour), ("6h".toList, 6 * hour), ("1d".toList, day)]

/-- `_HISTORY_MAX_ROWS` -/
def historyMaxRows : Nat := 50000

/-- The Monday that `time_bucket` counts from. -/
def bucketOrigin : Int := 730121 * day

structure HistoryBucket (Node : Type) where
  bucket : Int
  node : Node
  avgTemperature : Option Rat
  avgHumidity : Option Rat
  avgPm25 : Option Rat
  avgPm10 : Option Rat
  avgAqi : Option Rat
  maxAqi : Option Int
  minAqi : Option Int
  readingCount : Nat
  deriving DecidableEq

section Query

variable {Node : Type}

def HistoryBucket.key (row : HistoryBucket Node) : Int × Node := (row.bucket, row.node)

/-- One group of the `SELECT`. -/
def historyRow (key : Int × Node) (readings : List (SensorReading Node)) : HistoryBucket Node where
  bucket := key.1
  node := key.2
  avgTemperature := avg (readings.filterMap (·.temperature))
  avgHumidity := avg (readings.filterMap (·.humidity))
  avgPm25 := avg (readings.filterMap (·.pm25))
  avgPm10 := avg (readings.filterMap (·.pm10))
  avgAqi := avg ((readings.filterMap (·.aqi)).map fun aqi => (aqi : Rat))
  maxAqi := (readings.filterMap (·.aqi)).max?
  minAqi := (readings.filterMap (·.aqi)).min?
  readingCount := readings.length

/-- `GROUP BY bucket, node_id` -/
def historyKey (width : Int) (r : SensorReading Node) : Int × Node :=
  (timeBucket bucketOrigin width r.time, r.node)

variable [DecidableEq Node]

/-- The `WHERE` clause. -/
def inRange (fromTs toTs : Int) (nodeId : Option Node) (r : SensorReading Node) : Bool :=
  decide (fromTs ≤ r.time ∧ r.time ≤ toTs) && nodeId.all fun n => decide (r.node = n)

variable {K : Type} [LinearOrder K] (collation : Node ↪ K)

/-- What a row is ordered by. -/
def HistoryBucket.rank (row : HistoryBucket Node) : Int ×ₗ K :=
  toLex (row.bucket, collation row.node)

def historyGroups (readings : List (SensorReading Node)) (width fromTs toTs : Int)
    (nodeId : Option Node) : List (HistoryBucket Node) :=
  orderBy (HistoryBucket.rank collation)
    (groupBy (historyKey width) historyRow (readings.filter (inRange fromTs toTs nodeId)))

/-- The statement, with its `LIMIT`. -/
def historyQuery (readings : List (SensorReading Node)) (width fromTs toTs : Int)
    (nodeId : Option Node) : List (HistoryBucket Node) :=
  (historyGroups collation readings width fromTs toTs nodeId).take (historyMaxRows + 1)

end Query

/-! ## The handler -/

inductive HistoryAnswer
  | problem422 (detail : Text)
  /-- `clamped` is the bound of `X-Range-Clamped`. -/
  | buckets (rows : List (HistoryBucket Text)) (clamped : Option Int)

def nodeIdBlank : Text :=
  "node_id must not be empty when provided (omit the parameter for all nodes)".toList

def tooManyRows : Text :=
  "result exceeds 50000 rows — narrow the time range and/or pass node_id".toList

section Handler

variable (fromisoformat : Text → Option Datetime) (repr : Text → Text)

/-- Where the window was clamped, its new lower bound. -/
def clampedFrom (clock : Clock) (q : RangeQuery) (fromDt : Int) : Option Int :=
  match parseBounds fromisoformat repr clock q with
  | .ok (asked, _) => if asked < fromDt then some fromDt else none
  | .error _ => none

variable {K : Type} [LinearOrder K] (collation : Text ↪ K)

/-- `history` -/
def history (clock : Clock) (q : RangeQuery) (nodeId : Option Text)
    (readings : List (SensorReading Text)) : Except Raised HistoryAnswer :=
  match bucketIntervals.lookup (q.bucket.getD "1h".toList) with
  | none =>
      .ok (.problem422 ("bucket must be one of: ".toList ++ List.intercalate ", ".toList (bucketIntervals.map Prod.fst)))
  | some width =>
      match historyWindow fromisoformat repr clock q with
      | .error raised => .error raised
      | .ok (.problem422 detail) => .ok (.problem422 detail)
      | .ok (.goOn fromDt toDt) =>
          if nodeId.any fun text => strip text = [] then .ok (.problem422 nodeIdBlank)
          else
            let rows := historyQuery collation readings width fromDt toDt nodeId
            if rows.length > historyMaxRows then .ok (.problem422 tooManyRows)
            else .ok (.buckets rows (clampedFrom fromisoformat repr clock q fromDt))

end Handler

/-! ## The rows of a query -/

section Rows

variable {Node : Type}

@[simp] theorem historyRow_key (key : Int × Node) (readings : List (SensorReading Node)) :
    (historyRow key readings).key = key := rfl

/-- The columns that `hourly_agg` and the history share. -/
def HistoryBucket.ofHourly (row : HourlyAgg Node) : HistoryBucket Node where
  bucket := row.bucket
  node := row.node
  avgTemperature := row.avgTemperature
  avgHumidity := row.avgHumidity
  avgPm25 := row.avgPm25
  avgPm10 := row.avgPm10
  avgAqi := row.avgAqi
  maxAqi := row.maxAqi
  minAqi := row.minAqi
  readingCount := row.readingCount

/-- The row with its averages in REAL. -/
def HistoryBucket.converted (real : Rat → Rat) (row : HistoryBucket Node) : HistoryBucket Node :=
  { row with
    avgTemperature := row.avgTemperature.map real
    avgHumidity := row.avgHumidity.map real
    avgPm25 := row.avgPm25.map real
    avgPm10 := row.avgPm10.map real
    avgAqi := row.avgAqi.map real }

variable [DecidableEq Node] {readings : List (SensorReading Node)} {width fromTs toTs : Int}
    {nodeId : Option Node}

theorem inRange_iff {r : SensorReading Node} :
    inRange fromTs toTs nodeId r = true ↔
      (fromTs ≤ r.time ∧ r.time ≤ toTs) ∧ ∀ n ∈ nodeId, r.node = n := by
  cases nodeId <;> simp [inRange]

variable {K : Type} [LinearOrder K] {collation : Node ↪ K}

theorem historyGroups_perm : (historyGroups collation readings width fromTs toTs nodeId).Perm
    (groupBy (historyKey width) historyRow (readings.filter (inRange fromTs toTs nodeId))) :=
  orderBy_perm

theorem historyGroups_keys :
    ((historyGroups collation readings width fromTs toTs nodeId).map HistoryBucket.key).Perm
    ((readings.filter (inRange fromTs toTs nodeId)).map (historyKey width)).dedup := by
  have keyed :
      (groupBy (historyKey width) historyRow (readings.filter (inRange fromTs toTs nodeId))).map HistoryBucket.key =
      ((readings.filter (inRange fromTs toTs nodeId)).map (historyKey width)).dedup :=
        map_key_groupBy historyRow_key
  rw [← keyed]
  exact historyGroups_perm.map _

theorem historyGroups_keys_nodup :
    ((historyGroups collation readings width fromTs toTs nodeId).map HistoryBucket.key).Nodup :=
  historyGroups_keys.nodup_iff.mpr (List.nodup_dedup _)

omit [DecidableEq Node] [LinearOrder K] in
theorem key_eq_of_rank {row row' : HistoryBucket Node}
    (same : row.rank collation = row'.rank collation) : row.key = row'.key := by
  obtain ⟨bucket, node⟩ := Prod.mk.inj (toLex_inj.mp same)
  exact Prod.ext bucket (collation.injective node)

theorem historyGroups_ascending :
    (historyGroups collation readings width fromTs toTs nodeId).Pairwise
    fun a b => a.rank collation < b.rank collation := by
  have sorted : (historyGroups collation readings width fromTs toTs nodeId).Pairwise
      fun a b => a.rank collation ≤ b.rank collation := orderBy_ascending
  have distinct : (historyGroups collation readings width fromTs toTs nodeId).Pairwise fun a b =>
      a.key ≠ b.key :=
    List.pairwise_map.mp historyGroups_keys_nodup
  refine (sorted.and distinct).imp fun both => ?_
  exact lt_of_le_of_ne both.1 fun same => both.2 (key_eq_of_rank same)

/-- A group has its row, and no other row has its key. -/
theorem group_historyGroups (k : Int × Node) :
    group HistoryBucket.key k (historyGroups collation readings width fromTs toTs nodeId) =
      if group (historyKey width) k (readings.filter (inRange fromTs toTs nodeId)) = [] then []
      else [historyRow k (group (historyKey width) k (readings.filter (inRange fromTs toTs nodeId)))] := by
  have perm :
      (group HistoryBucket.key k (historyGroups collation readings width fromTs toTs nodeId)).Perm
      (group HistoryBucket.key k (groupBy (historyKey width) historyRow (readings.filter (inRange fromTs toTs nodeId)))) :=
    historyGroups_perm.filter _
  split
  · rename_i empty
    have missing : k ∉ (groupBy (historyKey width) historyRow
        (readings.filter (inRange fromTs toTs nodeId))).map HistoryBucket.key := by
      rw [map_key_groupBy historyRow_key, List.mem_dedup]
      exact group_eq_nil.mp empty
    rw [group_eq_nil.mpr missing] at perm
    exact perm.eq_nil
  · rename_i present
    rw [group_groupBy historyRow_key present] at perm
    exact List.perm_singleton.mp perm

/-- A row is the aggregate of its group. -/
theorem historyGroups_row {row : HistoryBucket Node}
    (member : row ∈ historyGroups collation readings width fromTs toTs nodeId) :
    row = historyRow row.key
      (group (historyKey width) row.key (readings.filter (inRange fromTs toTs nodeId))) := by
  obtain ⟨k, _, rfl⟩ := List.mem_map.mp (historyGroups_perm.mem_iff.mp member)
  rfl

/-- A reading has a row. -/
theorem exists_historyGroups {r : SensorReading Node}
    (member : r ∈ readings.filter (inRange fromTs toTs nodeId)) :
    ∃ row ∈ historyGroups collation readings width fromTs toTs nodeId, row.key =
      historyKey width r :=
  List.mem_map.mp (historyGroups_keys.mem_iff.mpr (List.mem_dedup.mpr (List.mem_map_of_mem member)))

/-- Every reading of the window is counted once. -/
theorem sum_readingCount :
    ((historyGroups collation readings width fromTs toTs nodeId).map (·.readingCount)).sum =
    (readings.filter (inRange fromTs toTs nodeId)).length := by
  rw [(historyGroups_perm.map _).sum_eq, groupBy, List.map_map]
  exact sum_length_groups (historyKey width) _

/-- With a node, the number of rows is the number of buckets that the window touches. -/
theorem historyGroups_length_le {n : Node} (positive : 0 < width) (ordered : fromTs ≤ toTs) :
    ((historyGroups collation readings width fromTs toTs (some n)).length : Int) ≤
      (toTs - fromTs) / width + 2 := by
  have keys : ∀ row ∈ historyGroups collation readings width fromTs toTs (some n), row.node = n ∧
      ∃ t, fromTs ≤ t ∧ t ≤ toTs ∧ row.bucket = timeBucket bucketOrigin width t := by
    intro row member
    have key := historyGroups_keys.subset (List.mem_map_of_mem member)
    obtain ⟨r, among, same⟩ := List.mem_map.mp (List.mem_dedup.mp key)
    obtain ⟨⟨after, before⟩, here⟩ := inRange_iff.mp (List.mem_filter.mp among).2
    have bucket : timeBucket bucketOrigin width r.time = row.bucket := congrArg Prod.fst same
    have node : r.node = row.node := congrArg Prod.snd same
    exact ⟨node ▸ here n rfl, r.time, after, before, bucket.symm⟩
  have distinct :
      ((historyGroups collation readings width fromTs toTs (some n)).map (·.bucket)).Nodup := by
    refine List.Nodup.map_on (fun row member row' member' same => ?_)
      (List.Nodup.of_map _ historyGroups_keys_nodup)
    refine List.inj_on_of_nodup_map historyGroups_keys_nodup member member' ?_
    exact Prod.ext same ((keys row member).1.trans (keys row' member').1.symm)
  have few := length_le_of_span positive ordered distinct fun b member => by
    obtain ⟨row, among, rfl⟩ := List.mem_map.mp member
    exact (keys row among).2
  rwa [List.length_map] at few

/-- The bucket of a multiple of the width that a bucket lies in. -/
def coarsen (width' : Int) (k : Int × Node) : Int × Node :=
  (timeBucket bucketOrigin width' k.1, k.2)

omit [DecidableEq Node] in
theorem coarsen_historyKey {m : Int} (positive : 0 < width) :
    (coarsen (width * m) ∘ historyKey width : SensorReading Node → Int × Node) =
      historyKey (width * m) := by
  funext r
  exact Prod.ext (timeBucket_timeBucket positive) rfl

/-- The finer rows within a coarser bucket. -/
theorem within_perm (width' : Int) (K : Int × Node) :
    ((historyGroups collation readings width fromTs toTs nodeId).filter fun row => decide (coarsen width' row.key = K)).Perm
      ((((readings.filter (inRange fromTs toTs nodeId)).map (historyKey width)).dedup.filter fun k =>
        decide (coarsen width' k = K)).map fun k =>
          historyRow k (group (historyKey width) k (readings.filter (inRange fromTs toTs nodeId)))) := by
  refine (historyGroups_perm.filter _).trans (List.Perm.of_eq ?_)
  rw [groupBy, List.filter_map]
  rfl

theorem max?_perm {α : Type} [LinearOrder α] {l l' : List α} (perm : l.Perm l') :
    l.max? = l'.max? := by
  ext m
  simp only [List.max?_eq_some_iff, perm.mem_iff]

theorem min?_perm {α : Type} [LinearOrder α] {l l' : List α} (perm : l.Perm l') :
    l.min? = l'.min? := by
  ext m
  simp only [List.min?_eq_some_iff, perm.mem_iff]

/-- A row of a coarser grouping, from the finer one. -/
theorem coarser_row {m : Int} (positive : 0 < width) {row : HistoryBucket Node}
    (member : row ∈ historyGroups collation readings (width * m) fromTs toTs nodeId) :
    let within := (historyGroups collation readings width fromTs toTs nodeId).filter fun r =>
      decide (coarsen (width * m) r.key = row.key)
    row.readingCount = (within.map (·.readingCount)).sum ∧
      row.maxAqi = (within.filterMap (·.maxAqi)).max? ∧
      row.minAqi = (within.filterMap (·.minAqi)).min? := by
  intro within
  have perm : within.Perm _ := within_perm (width * m) row.key
  have made := historyGroups_row member
  rw [← coarsen_historyKey positive] at made
  have count : row.readingCount = _ := congrArg HistoryBucket.readingCount made
  have top : row.maxAqi = _ := congrArg HistoryBucket.maxAqi made
  have bottom : row.minAqi = _ := congrArg HistoryBucket.minAqi made
  refine ⟨count.trans ?_, top.trans ?_, bottom.trans ?_⟩
  · rw [(perm.map _).sum_eq, List.map_map]
    exact (sum_length_coarsen (coarsen (width * m)) row.key _).symm
  · rw [max?_perm (perm.filterMap _), List.filterMap_map]
    exact (max?_coarsen (fun r : SensorReading Node => r.aqi) (coarsen (width * m)) row.key _).symm
  · rw [min?_perm (perm.filterMap _), List.filterMap_map]
    exact (min?_coarsen (fun r : SensorReading Node => r.aqi) (coarsen (width * m)) row.key _).symm

end Rows

/-! ## Answers -/

section Answers

variable {fromisoformat : Text → Option Datetime} {repr : Text → Text} {clock : Clock}
    {q : RangeQuery}
  {nodeId : Option Text} {readings : List (SensorReading Text)} {K : Type} [LinearOrder K]
    {collation : Text ↪ K}

/-- A window goes forward, and its span is what the granularity can serve. -/
theorem historyWindow_goOn {fromDt toDt : Int}
    (window : historyWindow fromisoformat repr clock q = .ok (.goOn fromDt toDt)) :
    ∃ maxSpan, bucketMaxSpan.lookup (q.bucket.getD "1h".toList) = some maxSpan ∧ fromDt < toDt ∧
      toDt - fromDt ≤ maxSpan := by
  unfold historyWindow onValueError at window
  cases known : bucketMaxSpan.lookup (q.bucket.getD "1h".toList) with
  | none =>
      rw [known] at window
      cases window
  | some maxSpan =>
      have positive := bucketMaxSpan_pos known
      refine ⟨maxSpan, rfl, ?_⟩
      rw [known] at window
      simp only at window
      split at window
      · split at window
        · cases window
        rename_i ordered
        split at window
        · unfold minus at window
          split at window
          · cases window
            omega
          · cases window
        · cases window
          omega
      · cases window
      · cases window

/-- The widths and the spans belong together. -/
theorem intervals_serve {bucket : Text} {width maxSpan : Int}
    (interval : bucketIntervals.lookup bucket = some width)
    (span : bucketMaxSpan.lookup bucket = some maxSpan) :
    0 < width ∧ width ∣ bucketOrigin ∧ maxSpan / width + 2 ≤ 43202 := by
  have every : ∀ entry ∈ bucketIntervals, 0 < entry.2 ∧ entry.2 ∣ bucketOrigin ∧
      ∀ entry' ∈ bucketMaxSpan, entry'.1 = entry.1 → entry'.2 / entry.2 + 2 ≤ 43202 := by
        decide +kernel
  obtain ⟨_, _, split, _⟩ := List.lookup_eq_some_iff.mp interval
  obtain ⟨_, _, split', _⟩ := List.lookup_eq_some_iff.mp span
  obtain ⟨positive, aligned, few⟩ := every (bucket, width) (by simp [split])
  exact ⟨positive, aligned, few (bucket, maxSpan) (by simp [split']) rfl⟩

/-- An answer with rows, inverted: all groups of the window were sent. -/
theorem history_buckets {rows : List (HistoryBucket Text)} {clamped : Option Int}
    (answered : history fromisoformat repr collation clock q nodeId readings =
      .ok (.buckets rows clamped)) :
    ∃ width fromDt toDt, bucketIntervals.lookup (q.bucket.getD "1h".toList) = some width ∧
      historyWindow fromisoformat repr clock q = .ok (.goOn fromDt toDt) ∧
      rows = historyGroups collation readings width fromDt toDt nodeId := by
  unfold history at answered
  split at answered
  · cases answered
  rename_i width interval
  split at answered
  · cases answered
  · cases answered
  rename_i fromDt toDt window
  split at answered
  · cases answered
  simp only at answered
  split at answered
  · cases answered
  rename_i few
  cases answered
  refine ⟨width, fromDt, toDt, interval, window, ?_⟩
  unfold historyQuery at few ⊢
  rw [List.length_take] at few
  exact List.take_of_length_le (by omega)

/-- What is not too much is sent. -/
theorem history_of_few {width fromDt toDt : Int}
    (interval : bucketIntervals.lookup (q.bucket.getD "1h".toList) = some width)
    (window : historyWindow fromisoformat repr clock q = .ok (.goOn fromDt toDt))
    (named : (nodeId.any fun text => strip text = []) = false)
    (few : (historyGroups collation readings width fromDt toDt nodeId).length ≤ historyMaxRows) :
    history fromisoformat repr collation clock q nodeId readings =
      .ok (.buckets (historyGroups collation readings width fromDt toDt nodeId) (clampedFrom fromisoformat repr clock q fromDt)) := by
  have all : historyQuery collation readings width fromDt toDt nodeId =
      historyGroups collation readings width fromDt toDt nodeId :=
    List.take_of_length_le (few.trans (Nat.le_succ _))
  unfold history
  rw [interval]
  simp only [window, named, all, Bool.false_eq_true, if_false]
  rw [if_neg (not_lt.mpr few)]

/-- **An answer is lossless.**  Its rows ascend by bucket and node, each is the aggregate of all
readings of the window with its bucket and node, every such reading has its row, and the counts
add up to the number of readings in the window. -/
theorem history_lossless {rows : List (HistoryBucket Text)} {clamped : Option Int}
    (answered : history fromisoformat repr collation clock q nodeId readings =
      .ok (.buckets rows clamped)) :
    ∃ width fromDt toDt, bucketIntervals.lookup (q.bucket.getD "1h".toList) = some width ∧
      historyWindow fromisoformat repr clock q = .ok (.goOn fromDt toDt) ∧
      rows.Pairwise (fun a b => a.rank collation < b.rank collation) ∧
      (∀ row ∈ rows, row = historyRow row.key
        ((readings.filter (inRange fromDt toDt nodeId)).filter fun r => decide (historyKey width r = row.key))) ∧
      (∀ r ∈ readings, inRange fromDt toDt nodeId r = true →
        ∃ row ∈ rows, row.key = historyKey width r) ∧
      (rows.map (·.readingCount)).sum = readings.countP (inRange fromDt toDt nodeId) := by
  obtain ⟨width, fromDt, toDt, interval, window, rfl⟩ := history_buckets answered
  refine ⟨width, fromDt, toDt, interval, window, historyGroups_ascending, ?_, ?_, ?_⟩
  · intro row member
    exact historyGroups_row member
  · intro r member served
    exact exists_historyGroups (List.mem_filter.mpr ⟨member, served⟩)
  · rw [sum_readingCount, List.countP_eq_length_filter]

/-- **A single node is always answered.**  Where the window is accepted and a node is named, the
row cap is out of reach, whatever the table holds; the database is taken to answer. -/
theorem history_node_answered {fromDt toDt : Int} {n : Text} (named : strip n ≠ [])
    (window : historyWindow fromisoformat repr clock q = .ok (.goOn fromDt toDt)) :
    ∃ rows clamped, history fromisoformat repr collation clock q (some n) readings =
      .ok (.buckets rows clamped) ∧
      rows.length ≤ 43202 := by
  obtain ⟨maxSpan, span, ordered, short⟩ := historyWindow_goOn window
  obtain ⟨width, interval⟩ :
      ∃ width, bucketIntervals.lookup (q.bucket.getD "1h".toList) = some width := by
    obtain ⟨before, after, split, _⟩ := List.lookup_eq_some_iff.mp span
    have known : ∀ entry ∈ bucketMaxSpan, (bucketIntervals.lookup entry.1).isSome := by decide
    refine Option.isSome_iff_exists.mp (known (q.bucket.getD "1h".toList, maxSpan) ?_)
    rw [split]
    exact List.mem_append_right _ List.mem_cons_self
  obtain ⟨positive, _, few⟩ := intervals_serve interval span
  have bound : ((historyGroups collation readings width fromDt toDt (some n)).length : Int) ≤
      (toDt - fromDt) / width + 2 :=
    historyGroups_length_le positive (le_of_lt ordered)
  have narrow := Int.ediv_le_ediv positive short
  have small : (historyGroups collation readings width fromDt toDt (some n)).length ≤
      43202 := by omega
  refine ⟨historyGroups collation readings width fromDt toDt (some n),
    clampedFrom fromisoformat repr clock q fromDt, ?_, small⟩
  exact history_of_few interval window (by simpa using named) (small.trans (by decide))

/-- Each granularity is a multiple of the finer ones. -/
theorem intervals_nest {bucket bucket' : Text} {width width' : Int}
    (interval : bucketIntervals.lookup bucket = some width)
    (interval' : bucketIntervals.lookup bucket' = some width') (finer : width ≤ width') :
    0 < width ∧ ∃ m, width' = width * m := by
  have every : ∀ entry ∈ bucketIntervals, 0 < entry.2 ∧
      ∀ entry' ∈ bucketIntervals, entry.2 ≤ entry'.2 → entry.2 ∣ entry'.2 := by decide
  obtain ⟨_, _, split, _⟩ := List.lookup_eq_some_iff.mp interval
  obtain ⟨_, _, split', _⟩ := List.lookup_eq_some_iff.mp interval'
  obtain ⟨positive, nested⟩ := every (bucket, width) (by simp [split])
  exact ⟨positive, nested (bucket', width') (by simp [split']) finer⟩

/-- **Zooming out.**  Two answers for one window and table agree: a row of the coarser one has
the sum of the counts, and the extremes, of the finer rows in its bucket. -/
theorem history_coarser {q' : RangeQuery} {fine coarse : List (HistoryBucket Text)}
    {clamped clamped' : Option Int} {width width' : Int}
    (window : historyWindow fromisoformat repr clock q = historyWindow fromisoformat repr clock q')
    (answered : history fromisoformat repr collation clock q nodeId readings =
      .ok (.buckets fine clamped))
    (answered' : history fromisoformat repr collation clock q' nodeId readings =
      .ok (.buckets coarse clamped'))
    (interval : bucketIntervals.lookup (q.bucket.getD "1h".toList) = some width)
    (interval' : bucketIntervals.lookup (q'.bucket.getD "1h".toList) = some width')
    (finer : width ≤ width') {row : HistoryBucket Text} (member : row ∈ coarse) :
    let within := fine.filter fun r =>
      decide (timeBucket bucketOrigin width' r.bucket = row.bucket ∧ r.node = row.node)
    row.readingCount = (within.map (·.readingCount)).sum ∧
      row.maxAqi = (within.filterMap (·.maxAqi)).max? ∧
      row.minAqi = (within.filterMap (·.minAqi)).min? := by
  obtain ⟨_, fromDt, toDt, here, went, rfl⟩ := history_buckets answered
  obtain ⟨_, fromDt', toDt', here', went', rfl⟩ := history_buckets answered'
  cases interval.symm.trans here
  cases interval'.symm.trans here'
  cases went.symm.trans (window.trans went')
  obtain ⟨positive, m, rfl⟩ := intervals_nest interval interval' finer
  have within : (historyGroups collation readings width fromDt toDt nodeId).filter
      (fun r => decide (timeBucket bucketOrigin (width * m) r.bucket = row.bucket ∧ r.node = row.node)) =
      (historyGroups collation readings width fromDt toDt nodeId).filter fun r =>
        decide (coarsen (width * m) r.key = row.key) :=
    List.filter_congr fun r _ => decide_eq_decide.mpr
      ⟨fun both => Prod.ext both.1 both.2,
        fun same => ⟨congrArg Prod.fst same, congrArg Prod.snd same⟩⟩
  simp only [within]
  exact coarser_row positive member

/-- For an hour inside the window, the history groups the readings as the roll-up does. -/
theorem group_historyKey_hour {fromDt toDt b : Int} {n : Text} (after : fromDt ≤ b)
    (before : b + hour ≤ toDt) (asked : ∀ n' ∈ nodeId, n = n') :
    group (historyKey hour) (b, n) (readings.filter (inRange fromDt toDt nodeId)) =
      group hourKey (b, n) readings := by
  have positive : 0 < hour := by decide
  have same : ∀ r : SensorReading Text, historyKey hour r = hourKey r := fun r =>
    Prod.ext (timeBucket_eq_sub_emod positive (by decide)) rfl
  have keys : group (historyKey hour) (b, n) (readings.filter (inRange fromDt toDt nodeId)) =
      group hourKey (b, n) (readings.filter (inRange fromDt toDt nodeId)) :=
    List.filter_congr fun r _ => by rw [same r]
  rw [keys]
  refine group_filter fun r _ here => ?_
  have bucket : timeBucket bucketOrigin hour r.time = b := congrArg Prod.fst ((same r).trans here)
  have node : r.node = n := congrArg Prod.snd here
  have low := timeBucket_le bucketOrigin r.time positive
  have high := lt_timeBucket_add bucketOrigin r.time positive
  rw [bucket] at low high
  refine inRange_iff.mpr ⟨⟨by omega, by omega⟩, ?_⟩
  intro n' among
  rw [node]
  exact asked n' among

/-- **The history agrees with the roll-up.**  Where every reading is committed within ten minutes
and nothing is purged, after a run of `hourly_aggregate` an hour before its boundary that lies
inside the window has, for each node asked for, the same row in the answer with `bucket=1h` as in
`hourly_agg`, or none in either: the shared columns of the stored row are those of the answer, its
averages in REAL. -/
theorem history_agrees_rollup {config : Int} {s s' : Rollup.State Text}
    (reached : Reach (Rollup.step config) Rollup.Prompt Rollup.Start s)
    (ran : Rollup.step config s .hourlyAggregate = some s')
    (hourly : q.bucket.getD "1h".toList = "1h".toList) {rows : List (HistoryBucket Text)}
    {clamped : Option Int}
    (answered : history fromisoformat repr collation clock q nodeId s'.readings =
      .ok (.buckets rows clamped))
    {fromDt toDt : Int}
    (window : historyWindow fromisoformat repr clock q = .ok (.goOn fromDt toDt)) {b : Int}
    {n : Text} (after : fromDt ≤ b) (before : b + hour ≤ toDt) (elapsed : b < dateTruncHour s.clock)
    (asked : ∀ n' ∈ nodeId, n = n') (real : Rat → Rat) :
    (rows.filter fun row => decide (row.key = (b, n))).map (HistoryBucket.converted real) =
      ((s'.rows.map (HourlyAgg.stored real)).filter fun row => decide (row.key = (b, n))).map HistoryBucket.ofHourly := by
  have columns :
      ((s'.rows.map (HourlyAgg.stored real)).filter fun row => decide (row.key = (b, n))).map
      HistoryBucket.ofHourly =
        ((s'.rows.filter fun row => decide (row.key = (b, n))).map HistoryBucket.ofHourly).map
          (HistoryBucket.converted real) := by
    rw [List.filter_map, List.map_map, List.map_map]
    rfl
  rw [columns]
  congr 1
  have inv : Rollup.Inv s :=
    reached.invariant (fun _ starts => starts.inv) fun _ _ _ inv prompt ran =>
      inv.step prompt (stepped ran)
  cases ran
  have exactly : Rollup.Exact s.readings s.aggregated.rows (b, n) :=
    (inv.aggregated_exact (b, n)).1 elapsed
  obtain ⟨width, fromDt', toDt', interval, went, rfl⟩ := history_buckets answered
  cases window.symm.trans went
  have wide : width = hour := by
    rw [hourly] at interval
    exact (Option.some.inj interval).symm
  subst wide
  have shown : (historyGroups collation s.readings hour fromDt toDt nodeId).filter
      (fun row => decide (row.key = (b, n))) =
      if group hourKey (b, n) s.readings = [] then []
      else [historyRow (b, n) (group hourKey (b, n) s.readings)] := by
    rw [← group_historyKey_hour after before asked]
    exact group_historyGroups (b, n)
  have stored : s.aggregated.rows.filter (fun row => decide (row.key = (b, n))) =
      if group hourKey (b, n) s.readings = [] then []
      else [aggregate (b, n) (group hourKey (b, n) s.readings)] :=
    exactly
  have unread : s.aggregated.readings = s.readings := rfl
  rw [unread, shown, stored]
  split <;> rfl

end Answers

/-! ## Two nodes in one hour -/

def reported (node : Text) (time aqi : Int) : SensorReading Text where
  time := time
  node := node
  temperature := none
  humidity := none
  pressure := none
  vocOhm := none
  mq135Ppm := none
  pm1 := none
  pm25 := none
  pm10 := none
  batteryV := none
  fuzzyScore := none
  aqi := some aqi
  aqiCategory := none
  isAnomaly := false

def askedAt : Clock := ⟨midnight + 2 * hour, by decide, by decide⟩

/-- The day before `askedAt`. -/
def lastDay (bucket : Option Text) : RangeQuery := ⟨none, none, bucket⟩

def twoNodes : List (SensorReading Text) :=
  [reported ['a'] (midnight + 10 * minute) 40, reported ['b'] (midnight + 10 * minute) 70,
    reported ['a'] (midnight + 20 * minute) 60]

/-- No granularity clamps a day. -/
theorem lastDay_window (bucket : Option Text) {maxSpan : Int}
    (known : bucketMaxSpan.lookup (bucket.getD "1h".toList) = some maxSpan) :
    historyWindow (fun _ => none) id askedAt (lastDay bucket) =
      .ok (.goOn (midnight - 22 * hour) (midnight + 2 * hour)) := by
  have every : ∀ entry ∈ bucketMaxSpan, day ≤ entry.2 := by decide
  obtain ⟨_, _, split, _⟩ := List.lookup_eq_some_iff.mp known
  have wide : day ≤ maxSpan := every (bucket.getD "1h".toList, maxSpan) (by simp [split])
  have bounds : parseBounds (fun _ => none) id askedAt (lastDay bucket) =
      .ok (midnight - 22 * hour, midnight + 2 * hour) := rfl
  unfold historyWindow
  simp only [lastDay] at bounds ⊢
  rw [known, bounds]
  simp only [onValueError]
  rw [if_neg (by decide), if_neg]
  have span : midnight + 2 * hour - (midnight - 22 * hour) = day := by decide
  omega

theorem history_lossless_two : ∃ rows clamped,
    history (fun _ => none) id (.refl Text) askedAt (lastDay none) none twoNodes =
      .ok (.buckets rows clamped) ∧
      (rows.map (·.readingCount)).sum = 3 := by
  have sent : history (fun _ => none) id (.refl Text) askedAt (lastDay none) none twoNodes =
      .ok (.buckets
        (historyGroups (.refl Text) twoNodes hour (midnight - 22 * hour) (midnight + 2 * hour) none) _) :=
    history_of_few rfl (lastDay_window none rfl) rfl (by decide +kernel)
  refine ⟨_, _, sent, ?_⟩
  obtain ⟨_, _, _, _, window, _, _, _, counted⟩ := history_lossless sent
  cases (lastDay_window none rfl).symm.trans window
  rw [counted]
  decide +kernel

theorem history_node_answered_two : ∃ rows clamped,
    history (fun _ => none) id (.refl Text) askedAt (lastDay (some "1m".toList))
      (some ['a']) twoNodes = .ok (.buckets rows clamped) ∧
      rows.length ≤ 43202 :=
  history_node_answered (by decide +kernel) (lastDay_window _ rfl)

theorem history_coarser_two : ∃ fine coarse clamped clamped', ∃ row ∈ coarse,
    history (fun _ => none) id (.refl Text) askedAt (lastDay (some "1m".toList)) none twoNodes =
      .ok (.buckets fine clamped) ∧
      history (fun _ => none) id (.refl Text) askedAt (lastDay none) none twoNodes =
        .ok (.buckets coarse clamped') ∧
      row.maxAqi = some 60 ∧
      row.maxAqi = ((fine.filter fun r =>
        decide (timeBucket bucketOrigin hour r.bucket = row.bucket ∧ r.node = row.node)).filterMap
          (·.maxAqi)).max? := by
  have sent : history (fun _ => none) id (.refl Text) askedAt
      (lastDay (some "1m".toList)) none twoNodes = .ok (.buckets
        (historyGroups (.refl Text) twoNodes 60000000 (midnight - 22 * hour) (midnight + 2 * hour) none) _) :=
    history_of_few rfl (lastDay_window (some "1m".toList) rfl) rfl (by decide +kernel)
  have sent' : history (fun _ => none) id (.refl Text) askedAt (lastDay none) none twoNodes =
      .ok (.buckets
        (historyGroups (.refl Text) twoNodes hour (midnight - 22 * hour) (midnight + 2 * hour) none) _) :=
    history_of_few rfl (lastDay_window none rfl) rfl (by decide +kernel)
  obtain ⟨row, member, highest⟩ :
      ∃ row ∈ historyGroups (.refl Text) twoNodes hour (midnight - 22 * hour)
        (midnight + 2 * hour) none,
      row.maxAqi = some 60 := by decide +kernel
  refine ⟨_, _, _, _, row, member, sent, sent', highest, ?_⟩
  exact (history_coarser ((lastDay_window _ rfl).trans (lastDay_window _ rfl).symm) sent sent' rfl rfl (by decide) member).2.1

/-! ## An hour that is rolled up -/

def began : Rollup.State Text where
  clock := midnight + 10 * minute
  readings := []
  rows := []
  setting := none
  ever := []
  written := fun _ => 0
  deleted := []

theorem began_start : Rollup.Start began := ⟨rfl, rfl, fun _ => rfl, rfl⟩

/-- A reading of each node in the first hour, and the clock past it. -/
def firstHour : List (Rollup.Act Text) :=
  [.insert .missing (midnight + 10 * minute) (reported ['a'] (midnight + 10 * minute) 40),
    .insert .missing (midnight + 10 * minute) (reported ['b'] (midnight + 10 * minute) 70),
      .tick (midnight + 67 * minute)]

theorem history_agrees_rollup_first : ∃ s s' : Rollup.State Text, ∃ rows clamped,
    Reach (Rollup.step 365) Rollup.Prompt Rollup.Start s ∧
      Rollup.step 365 s .hourlyAggregate = some s' ∧
      history (fun _ => none) id (.refl Text) askedAt (lastDay none) none s'.readings =
        .ok (.buckets rows clamped) ∧
      (s'.rows.filter fun row => decide (row.key = (midnight, ['b']))).length = 1 ∧
      (rows.filter fun row => decide (row.key = (midnight, ['b']))).map
        (HistoryBucket.converted roundSingle) =
        ((s'.rows.map (HourlyAgg.stored roundSingle)).filter fun row => decide (row.key = (midnight, ['b']))).map
          HistoryBucket.ofHourly := by
  obtain ⟨s, reached, folded⟩ :=
    exists_reach_of_run (Rollup.step 365) Rollup.Prompt began_start firstHour
      (fun s => decide (midnight < dateTruncHour s.clock ∧
        (historyGroups (.refl Text) s.readings hour (midnight - 22 * hour) (midnight + 2 * hour) none).length ≤
          historyMaxRows ∧
        (s.aggregated.rows.filter fun row => decide (row.key = (midnight, ['b']))).length = 1))
        (by decide +kernel)
  obtain ⟨elapsed, few, single⟩ := of_decide_eq_true folded
  have sent : history (fun _ => none) id (.refl Text) askedAt (lastDay none) none s.readings =
      .ok (.buckets
        (historyGroups (.refl Text) s.readings hour (midnight - 22 * hour) (midnight + 2 * hour) none) _) :=
    history_of_few rfl (lastDay_window none rfl) rfl few
  refine ⟨s, s.aggregated, _, _, reached, rfl, sent, single, ?_⟩
  exact history_agrees_rollup reached rfl rfl sent (lastDay_window none rfl) (by decide)
    (by decide) elapsed (by simp)
    roundSingle

end Empyrean.Api
