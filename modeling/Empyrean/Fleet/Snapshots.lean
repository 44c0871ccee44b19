/-
# Empyrean.Fleet.Snapshots — `nodes:all` and `readings:latest`

`GET /nodes` and `GET /readings/latest` answer from the cache, or read the tables and then
store what they have read.  The writers commit and then delete the keys their change shows
in.  A reader that was overtaken stores the older snapshot after the deletion, and it stays
until the key expires.

* `Tables.query` — what the two queries return; a list ordered by its unique node id is
  the map from node id to row.
* `step` — one statement of one request or task; `earlier`, `drops`, `deleted`, `finished`
  and `answers` are recorded for the statements alone.
* `StoresCurrent` — when a reader stores its snapshot, no later commit has deleted the key.
* `coherent_of_reach` — under that condition no answer is older than a change whose
  invalidation was complete when the request started.
* `stale_answer` — and without it there is one.
-/
import Empyrean.Fleet.DeviceConfig
import Empyrean.Ingest.Worker
import Empyrean.Theory.CacheAside
import Empyrean.Theory.Runs

namespace Empyrean.Fleet.Snapshots

set_option autoImplicit false

open Empyrean.Ingest (SensorReading TaskPayload buildReading detectAnomaly insertReading)
open Empyrean.Theory.CacheAside Empyrean.Theory.Runs
open Empyrean.Theory.PyNumeral (Text)
open Empyrean.Theory.Rounding (roundSingle)

/-! ## The queries -/

/-- `real` is what a double becomes in a REAL column. -/
structure Tables where
  real : Rat → Rat
  nodes : Db
  readings : List (SensorReading Text)

/-- What a worker looks at. -/
def Tables.ingest (tables : Tables) : Ingest.Db Text where
  real := tables.real
  nodes := fun id => (tables.nodes id).map (·.isActive)
  readings := tables.readings

structure LatestReading where
  nodeId : Text
  time : Int
  temperature : Option Rat
  humidity : Option Rat
  pressure : Option Rat
  pm25 : Option Rat
  pm10 : Option Rat
  batteryV : Option Rat
  fuzzyScore : Option Rat
  aqi : Option Int
  aqiCategory : Option String
  isAnomaly : Bool
  deriving DecidableEq

/-- `_latest_from_reading` -/
def latestFromReading (r : SensorReading Text) : LatestReading :=
  { nodeId := r.node
    time := r.time
    temperature := r.temperature
    humidity := r.humidity
    pressure := r.pressure
    pm25 := r.pm25
    pm10 := r.pm10
    batteryV := r.batteryV
    fuzzyScore := r.fuzzyScore
    aqi := r.aqi
    aqiCategory := r.aqiCategory
    isAnomaly := r.isAnomaly }

/-- The JSON under a key. -/
inductive Payload
  | nodes (rows : Text → Option Node)
  | readings (rows : Text → Option LatestReading)

/-- `DISTINCT ON (node_id) … ORDER BY node_id, time DESC`; `(time, node_id)` is the primary key. -/
def newest (readings : List (SensorReading Text)) (id : Text) : Option (SensorReading Text) :=
  readings.foldl (fun best r => if r.node = id ∧ ∀ b ∈ best, b.time < r.time then some r else best) none

def Tables.query (tables : Tables) : CacheKey → Payload
  | .nodesAll => .nodes tables.nodes
  | .readingsLatest => .readings fun id =>
      if (tables.nodes id).any (·.isActive) then (newest tables.readings id).map latestFromReading
      else none

def Tables.insertRow (tables : Tables) (id : Text) (node : Node) : Tables :=
  { tables with nodes := Function.update tables.nodes id (some node) }

/-- One row of the nodes table changes; no row is ever deleted. -/
def Tables.updateRow (tables : Tables) (id : Text) (f : Node → Node) : Tables :=
  { tables with nodes := Function.update tables.nodes id ((tables.nodes id).map f) }

/-! ## The system -/

/-- What a cache entry or a pending answer carries, and how many commits it has seen. -/
structure Snapshot where
  commits : Nat
  payload : Payload

inductive Request
  | get (key : CacheKey)
  | register (data : RegisterNodeRequest)
  | update (nodeId : Text) (data : UpdateNodeRequest)
  | processReading (payload : TaskPayload Text)

/-- Where a request stands.  `seen` is what was finished when it started. -/
inductive Pc
  | idle
  | lookup (key : CacheKey) (seen : List Nat)
  | query (key : CacheKey) (seen : List Nat)
  | store (key : CacheKey) (seen : List Nat) (snapshot : Snapshot)
  | insertNode (data : RegisterNodeRequest)
  | getExisting (data : RegisterNodeRequest)
  | undelete (data : RegisterNodeRequest) (loaded : Node)
  | getNode (nodeId : Text) (data : UpdateNodeRequest)
  | update (nodeId : Text) (data : UpdateNodeRequest) (loaded : Node)
  | checkNode (payload : TaskPayload Text)
  | detect (reading : SensorReading Text)
  | insertReading (reading : SensorReading Text)
  | invalidate (commit : Nat) (todo : List CacheKey)

/-- An answer that was given. -/
structure Answer where
  key : CacheKey
  seen : List Nat
  snapshot : Snapshot

structure State where
  tables : Tables
  cache : CacheKey → Option Snapshot
  pcs : Nat → Pc
  earlier : List Tables
  drops : List (List CacheKey)
  deleted : CacheKey → List Nat
  finished : List Nat
  answers : List Answer

inductive Action
  | start (p : Nat) (request : Request)
  | advance (p : Nat) (now : Int)
  | expire (key : CacheKey)

namespace State

variable (s : State)

def moveTo (p : Nat) (pc : Pc) : State := { s with pcs := Function.update s.pcs p pc }

def respond (p : Nat) (answer : Answer) : State :=
  { s with answers := answer :: s.answers, pcs := Function.update s.pcs p .idle }

def setCache (key : CacheKey) (entry : Option Snapshot) : State :=
  { s with cache := Function.update s.cache key entry }

/-- `COMMIT`; the deletions follow. -/
def commit (p : Nat) (tables : Tables) (drops : List CacheKey) : State :=
  { s with
    tables := tables
    earlier := s.earlier ++ [s.tables]
    drops := s.drops ++ [drops]
    pcs := Function.update s.pcs p (.invalidate s.earlier.length drops) }

/-- `DEL key`; with the last one the writer is done. -/
def delete (p commit : Nat) (key : CacheKey) (rest : List CacheKey) : State :=
  { s with
    cache := Function.update s.cache key none
    deleted := Function.update s.deleted key (commit :: s.deleted key)
    finished := if rest = [] then commit :: s.finished else s.finished
    pcs := Function.update s.pcs p (if rest = [] then .idle else .invalidate commit rest) }

/-- The tables after `n` commits. -/
def versionAt (n : Nat) : Tables := Theory.CacheAside.versionAt s.earlier s.tables n

end State

/-- The look at the node, and the row of its reading; an unknown or inactive one is dropped. -/
def checked (tables : Tables) (payload : TaskPayload Text) (now : Int) : Pc :=
  match payload.nodeId with
  | none => .idle
  | some node =>
      match tables.ingest.nodes node, buildReading payload node now with
      | some true, .ok reading => .detect reading
      | _, _ => .idle

def Request.entry (finished : List Nat) : Request → Pc
  | .get key => .lookup key finished
  | .register data => .insertNode data
  | .update nodeId data => .getNode nodeId data
  | .processReading payload => .checkNode payload

/-- One statement of process `p`, at the clock `now`. -/
def advance (s : State) (p : Nat) (now : Int) : Option State :=
  match s.pcs p with
  | .idle => none
  -- `latest` and `list_nodes`
  | .lookup key seen =>
      match s.cache key with
      | some snapshot => some (s.respond p ⟨key, seen, snapshot⟩)
      | none => some (s.moveTo p (.query key seen))
  | .query key seen => some (s.moveTo p (.store key seen ⟨s.earlier.length, s.tables.query key⟩))
  | .store key seen snapshot =>
      some ((s.setCache key (some snapshot)).respond p ⟨key, seen, snapshot⟩)
  -- `register_node`: the insert, and after a conflict the look at the existing row
  | .insertNode data =>
      match s.tables.nodes data.nodeId with
      | none => some (s.commit p (s.tables.insertRow data.nodeId (data.node now)) data.drops)
      | some _ => some (s.moveTo p (.getExisting data))
  | .getExisting data =>
      match s.tables.nodes data.nodeId with
      | some existing =>
          some (s.moveTo p (if existing.isActive then .idle else .undelete data existing))
      | none => some (s.moveTo p .idle)
  | .undelete data loaded =>
      some (s.commit p (s.tables.updateRow data.nodeId (data.write loaded)) data.drops)
  -- `update_node`
  | .getNode nodeId data =>
      match s.tables.nodes nodeId with
      | some node => some (s.moveTo p (.update nodeId data node))
      | none => some (s.moveTo p .idle)
  | .update nodeId data loaded =>
      some (s.commit p (s.tables.updateRow nodeId (data.write loaded)) data.drops)
  -- `process_reading`; a task that fails is delivered again as a new one
  | .checkNode payload => some (s.moveTo p (checked s.tables payload now))
  | .detect reading =>
      some (s.moveTo p (.insertReading
        { reading with
          isAnomaly := detectAnomaly s.tables.readings reading.node reading.pm25 now }))
  | .insertReading reading =>
      match insertReading s.tables.ingest reading with
      | .ok db => some (s.commit p { s.tables with readings := db.readings } [.readingsLatest])
      | .error _ => some (s.moveTo p .idle)
  | .invalidate _ [] => none
  | .invalidate commit (key :: rest) => some (s.delete p commit key rest)

def step (s : State) : Action → Option State
  | .start p request =>
      match s.pcs p with
      | .idle => some (s.moveTo p (request.entry s.finished))
      | _ => none
  | .advance p now => advance s p now
  | .expire key => some (s.setCache key none)

/-- Nothing is running, and what is cached is what the tables say. -/
structure State.Start (s : State) : Prop where
  pcs : ∀ p, s.pcs p = .idle
  cache : ∀ key snapshot, s.cache key = some snapshot → snapshot = ⟨0, s.tables.query key⟩
  earlier : s.earlier = []
  drops : s.drops = []
  deleted : ∀ key, s.deleted key = []
  finished : s.finished = []
  answers : s.answers = []

/-! ## What one statement does -/

/-- Before its commit a writer owes nothing. -/
def Pc.Quiet : Pc → Prop
  | .lookup _ _ | .query _ _ | .store _ _ _ | .invalidate _ _ => False
  | _ => True

/-- The effects of a statement of process `p`, by where it stands. -/
inductive Effect (s : State) (p : Nat) : Pc → State → Prop
  | hit {key : CacheKey} {seen : List Nat} {snapshot : Snapshot}
  (cached : s.cache key = some snapshot) :
      Effect s p (.lookup key seen) (s.respond p ⟨key, seen, snapshot⟩)
  | miss {key : CacheKey} {seen : List Nat} :
      Effect s p (.lookup key seen) (s.moveTo p (.query key seen))
  | query {key : CacheKey} {seen : List Nat} :
      Effect s p (.query key seen)
        (s.moveTo p (.store key seen ⟨s.earlier.length, s.tables.query key⟩))
  | store {key : CacheKey} {seen : List Nat} {snapshot : Snapshot} :
      Effect s p (.store key seen snapshot)
        ((s.setCache key (some snapshot)).respond p ⟨key, seen, snapshot⟩)
  | quiet {pc pc' : Pc} (owes : pc'.Quiet) : Effect s p pc (s.moveTo p pc')
  -- the queries whose keys are kept return what they returned
  | commit {pc : Pc} {tables : Tables} {drops : List CacheKey}
      (kept : ∀ k, k ∉ drops → tables.query k = s.tables.query k) :
        Effect s p pc (s.commit p tables drops)
  | delete {c : Nat} {key : CacheKey} {rest : List CacheKey} :
      Effect s p (.invalidate c (key :: rest)) (s.delete p c key rest)

theorem checked_quiet (tables : Tables) (payload : TaskPayload Text) (now : Int) :
    (checked tables payload now).Quiet := by
  unfold checked
  split
  · trivial
  · split <;> trivial

/-- The two keys of a registration are all there are. -/
theorem mem_register_drops (data : RegisterNodeRequest) (k : CacheKey) : k ∈ data.drops := by
  cases k <;> simp [RegisterNodeRequest.drops]

/-- An update that leaves `is_active` alone does not show in `readings:latest`. -/
theorem query_update (tables : Tables) (nodeId : Text) (data : UpdateNodeRequest) (loaded : Node)
    {k : CacheKey} (kept : k ∉ data.drops) :
    (tables.updateRow nodeId (data.write loaded)).query k = tables.query k := by
  cases k with
  | nodesAll => exact absurd List.mem_cons_self kept
  | readingsLatest =>
      have untouched : data.isActive = none := by
        by_contra supplied
        apply kept
        simp [UpdateNodeRequest.drops, Option.isSome_iff_ne_none.mpr supplied]
      have active :
          ∀ id, ((tables.updateRow nodeId (data.write loaded)).nodes id).any (·.isActive) =
          (tables.nodes id).any (·.isActive) := by
        intro id
        by_cases same : id = nodeId
        · subst same
          cases stored : tables.nodes id <;>
            simp [Tables.updateRow, stored, UpdateNodeRequest.write, untouched]
        · simp [Tables.updateRow, same]
      simp only [Tables.query, active]
      rfl

/-- A new reading does not show in `nodes:all`. -/
theorem query_readings (tables : Tables) (readings : List (SensorReading Text)) {k : CacheKey}
    (kept : k ∉ [CacheKey.readingsLatest]) :
    ({ tables with readings := readings } : Tables).query k = tables.query k := by
  cases k with
  | nodesAll => rfl
  | readingsLatest => exact absurd List.mem_cons_self kept

/-- **What one statement does.** -/
theorem effect_of_advance {s s' : State} {p : Nat} {now : Int}
    (advanced : advance s p now = some s') : Effect s p (s.pcs p) s' := by
  unfold advance at advanced
  cases here : s.pcs p with
  | idle => simp [here] at advanced
  | lookup key seen =>
      simp only [here] at advanced
      cases cached : s.cache key with
      | some snapshot =>
          simp only [cached, Option.some.injEq] at advanced
          exact advanced ▸ .hit cached
      | none =>
          simp only [cached, Option.some.injEq] at advanced
          exact advanced ▸ .miss
  | query key seen =>
      simp only [here, Option.some.injEq] at advanced
      exact advanced ▸ .query
  | store key seen snapshot =>
      simp only [here, Option.some.injEq] at advanced
      exact advanced ▸ .store
  | insertNode data =>
      simp only [here] at advanced
      split at advanced <;> cases advanced
      · exact .commit fun k kept => absurd (mem_register_drops data k) kept
      · exact .quiet trivial
  | getExisting data =>
      simp only [here] at advanced
      split at advanced <;> cases advanced
      · apply Effect.quiet
        split <;> trivial
      · exact .quiet trivial
  | undelete data loaded =>
      simp only [here, Option.some.injEq] at advanced
      exact advanced ▸ .commit fun k kept => absurd (mem_register_drops data k) kept
  | getNode nodeId data =>
      simp only [here] at advanced
      split at advanced <;> cases advanced <;> exact .quiet trivial
  | update nodeId data loaded =>
      simp only [here, Option.some.injEq] at advanced
      exact advanced ▸ .commit fun k kept => query_update s.tables nodeId data loaded kept
  | checkNode payload =>
      simp only [here, Option.some.injEq] at advanced
      exact advanced ▸ .quiet (checked_quiet s.tables payload now)
  | detect reading =>
      simp only [here, Option.some.injEq] at advanced
      exact advanced ▸ .quiet trivial
  | insertReading reading =>
      simp only [here] at advanced
      split at advanced <;> cases advanced
      · exact .commit fun k kept => query_readings s.tables _ kept
      · exact .quiet trivial
  | invalidate c todo =>
      cases todo with
      | nil => simp [here] at advanced
      | cons key rest =>
          simp only [here, Option.some.injEq] at advanced
          exact advanced ▸ .delete

/-! ## What is recorded only grows -/

structure Grows (s s' : State) : Prop where
  commits : s.earlier.length ≤ s'.earlier.length
  versions : ∀ n ≤ s.earlier.length, s'.versionAt n = s.versionAt n
  drops : ∀ (c : Nat) (keys : List CacheKey), s.drops[c]? = some keys → s'.drops[c]? = some keys
  deleted : ∀ k, s.deleted k ⊆ s'.deleted k
  finished : s.finished ⊆ s'.finished

theorem grows_of_eq {s s' : State} (tables : s'.tables = s.tables)
    (earlier : s'.earlier = s.earlier) (drops : s'.drops = s.drops)
    (deleted : s'.deleted = s.deleted) (finished : s'.finished = s.finished) : Grows s s' where
  commits := by rw [earlier]
  versions := fun n _ => by rw [State.versionAt, State.versionAt, tables, earlier]
  drops := fun c keys logged => by rw [drops, logged]
  deleted := fun k => by rw [deleted]; exact List.Subset.refl _
  finished := by rw [finished]; exact List.Subset.refl _

theorem grows_commit (s : State) (p : Nat) (tables : Tables) (drops : List CacheKey) :
    Grows s (s.commit p tables drops) where
  commits := by simp [State.commit]
  versions := fun n past => versionAt_append past
  drops := fun c keys logged => by
    have older := (List.getElem?_eq_some_iff.mp logged).1
    simp only [State.commit]
    rw [List.getElem?_append_left older, logged]
  deleted := fun k => List.Subset.refl _
  finished := List.Subset.refl _

theorem grows_delete (s : State) (p c : Nat) (key : CacheKey) (rest : List CacheKey) :
    Grows s (s.delete p c key rest) where
  commits := le_rfl
  versions := fun _ _ => rfl
  drops := fun _ _ logged => logged
  deleted := fun k => by
    by_cases same : k = key
    · subst same
      simp [State.delete]
    · simp [State.delete, same]
  finished := by
    simp only [State.delete]
    split
    · exact List.subset_cons_self _ _
    · exact List.Subset.refl _

theorem Effect.grows {s s' : State} {p : Nat} {pc : Pc} (effect : Effect s p pc s') :
    Grows s s' := by
  cases effect with
  | commit kept => exact grows_commit s p _ _
  | delete => exact grows_delete s p _ _ _
  | _ => exact grows_of_eq rfl rfl rfl rfl rfl

/-! ## Coherence -/

/-- The snapshot is the query's result after that many commits. -/
def Taken (s : State) (key : CacheKey) (snapshot : Snapshot) : Prop :=
  snapshot.commits ≤ s.earlier.length ∧ snapshot.payload = (s.versionAt snapshot.commits).query key

/-- Every one of the commits that deletes the key is in the snapshot. -/
def Sees (s : State) (key : CacheKey) (snapshot : Snapshot) (seen : List Nat) : Prop :=
  ∀ c ∈ seen, ∃ keys, s.drops[c]? = some keys ∧ (key ∈ keys → c < snapshot.commits)

/-- The answer is no older than any change whose invalidation was complete when its request
started; a change that the key survives does not show in the query at all. -/
structure Coherent (s : State) (answer : Answer) : Prop where
  taken : Taken s answer.key answer.snapshot
  current : ∀ c ∈ answer.seen, ∃ keys, s.drops[c]? = some keys ∧
    if answer.key ∈ keys then c < answer.snapshot.commits
    else (s.versionAt (c + 1)).query answer.key = (s.versionAt c).query answer.key

/-- A commit is either unfinished or its keys have been deleted. -/
def Invalidated (s : State) (c : Nat) (todo : List CacheKey) : Prop :=
  ∃ keys, s.drops[c]? = some keys ∧ ∀ k ∈ keys, k ∈ todo ∨ c ∈ s.deleted k

/-- What a process that stands at `pc` can rely on. -/
def Pc.Owes (s : State) : Pc → Prop
  | .lookup _ seen | .query _ seen => seen ⊆ s.finished
  | .store key seen snapshot => Taken s key snapshot ∧ Sees s key snapshot seen
  | .invalidate c todo => Invalidated s c todo
  | _ => True

structure Inv (s : State) : Prop where
  logged : s.drops.length = s.earlier.length
  kept : ∀ (c : Nat) (keys : List CacheKey), s.drops[c]? = some keys → ∀ k, k ∉ keys →
    (s.versionAt (c + 1)).query k = (s.versionAt c).query k
  cached : Meets (fun key snapshot => Taken s key snapshot ∧
    ∀ c ∈ s.deleted key, c < snapshot.commits) s.cache
  owes : ∀ p, (s.pcs p).Owes s
  finished : ∀ c ∈ s.finished, Invalidated s c []
  answers : ∀ answer ∈ s.answers, Taken s answer.key answer.snapshot ∧
    Sees s answer.key answer.snapshot answer.seen

/-- **The condition**: no commit after the snapshot has deleted the key already. -/
def StoresCurrent (s : State) : Action → Prop
  | .advance p _ =>
      match s.pcs p with
      | .store key _ snapshot => ∀ c ∈ s.deleted key, c < snapshot.commits
      | _ => True
  | _ => True

instance (s : State) (a : Action) : Decidable (StoresCurrent s a) := by
  unfold StoresCurrent
  split
  · split <;> infer_instance
  · infer_instance

section Grow

variable {s s' : State} (grows : Grows s s')
include grows

theorem Taken.grow {key : CacheKey} {snapshot : Snapshot} (taken : Taken s key snapshot) :
    Taken s' key snapshot :=
  ⟨le_trans taken.1 grows.commits, by rw [grows.versions _ taken.1]; exact taken.2⟩

theorem Sees.grow {key : CacheKey} {snapshot : Snapshot} {seen : List Nat}
    (sees : Sees s key snapshot seen) : Sees s' key snapshot seen := by
  intro c member
  obtain ⟨keys, logged, current⟩ := sees c member
  exact ⟨keys, grows.drops c keys logged, current⟩

theorem Invalidated.grow {c : Nat} {todo : List CacheKey} (invalidated : Invalidated s c todo) :
    Invalidated s' c todo := by
  obtain ⟨keys, logged, gone⟩ := invalidated
  exact ⟨keys, grows.drops c keys logged,
    fun k member => (gone k member).imp_right fun h => grows.deleted k h⟩

theorem Pc.Owes.grow {pc : Pc} (owes : pc.Owes s) : pc.Owes s' := by
  cases pc with
  | lookup key seen => exact List.Subset.trans owes grows.finished
  | query key seen => exact List.Subset.trans owes grows.finished
  | store key seen snapshot => exact ⟨owes.1.grow grows, owes.2.grow grows⟩
  | invalidate c todo => exact Invalidated.grow grows owes
  | _ => trivial

end Grow

theorem Pc.Quiet.owes {pc : Pc} (quiet : pc.Quiet) (s : State) : pc.Owes s := by
  cases pc with
  | lookup | query | store | invalidate => exact quiet.elim
  | _ => trivial

/-- What was finished when a request starts is before any snapshot that it takes itself. -/
theorem Inv.sees_of_query {s : State} (inv : Inv s) {key : CacheKey} {seen : List Nat}
    (known : seen ⊆ s.finished) : Sees s key ⟨s.earlier.length, s.tables.query key⟩ seen := by
  intro c member
  obtain ⟨keys, logged, _⟩ := inv.finished c (known member)
  have past := (List.getElem?_eq_some_iff.mp logged).1
  refine ⟨keys, logged, fun _ => ?_⟩
  show c < s.earlier.length
  rw [← inv.logged]
  exact past

/-- And an entry has seen it too, or the key was not deleted for it. -/
theorem Inv.sees_of_hit {s : State} (inv : Inv s) {key : CacheKey} {snapshot : Snapshot}
    (cached : s.cache key = some snapshot) {seen : List Nat} (known : seen ⊆ s.finished) :
    Sees s key snapshot seen := by
  intro c member
  obtain ⟨keys, logged, gone⟩ := inv.finished c (known member)
  refine ⟨keys, logged, fun dropped => ?_⟩
  have deleted : c ∈ s.deleted key := (gone key dropped).resolve_left (by simp)
  exact (inv.cached key snapshot cached).2 c deleted

theorem inv_of_start {s : State} (start : s.Start) : Inv s where
  logged := by rw [start.drops, start.earlier]; rfl
  kept := fun c keys logged => by simp [start.drops] at logged
  cached := by
    intro key snapshot cached
    obtain rfl := start.cache key snapshot cached
    refine ⟨⟨Nat.zero_le _, ?_⟩, ?_⟩
    · simp [State.versionAt, start.earlier, versionAt]
    · simp [start.deleted]
  owes := fun p => by rw [start.pcs p]; trivial
  finished := by simp [start.finished]
  answers := by simp [start.answers]

/-! ## One step -/

section Step

variable {s s' : State} {p : Nat}

/-- A step that moves one process and keeps the rest of what is promised. -/
theorem Inv.next (inv : Inv s) (grows : Grows s s') {pc : Pc}
    (pcs : s'.pcs = Function.update s.pcs p pc) (owes : pc.Owes s')
    (logged : s'.drops.length = s'.earlier.length)
    (kept : ∀ (c : Nat) (keys : List CacheKey), s'.drops[c]? = some keys → ∀ k, k ∉ keys →
      (s'.versionAt (c + 1)).query k = (s'.versionAt c).query k)
    (cached : Meets (fun key snapshot => Taken s' key snapshot ∧ ∀ c ∈ s'.deleted key, c < snapshot.commits) s'.cache)
    (finished : ∀ c ∈ s'.finished, c ∈ s.finished ∨ Invalidated s' c [])
    (answers : ∀ answer ∈ s'.answers, answer ∈ s.answers ∨
      (Taken s' answer.key answer.snapshot ∧
        Sees s' answer.key answer.snapshot answer.seen)) : Inv s' where
  logged := logged
  kept := kept
  cached := cached
  owes := by
    rw [pcs]
    exact (Function.forall_update_iff s.pcs fun _ pc => pc.Owes s').mpr
      ⟨owes, fun q _ => (inv.owes q).grow grows⟩
  finished := fun c member =>
    (finished c member).elim (fun before => (inv.finished c before).grow grows) id
  answers := fun answer member => (answers answer member).elim
    (fun before => ⟨(inv.answers answer before).1.grow grows, (inv.answers answer before).2.grow grows⟩) id

theorem Inv.moveTo (inv : Inv s) {pc : Pc} (owes : pc.Owes s) : Inv (s.moveTo p pc) := by
  have grows : Grows s (s.moveTo p pc) := grows_of_eq rfl rfl rfl rfl rfl
  exact inv.next grows rfl (owes.grow grows) inv.logged inv.kept inv.cached
    (fun _ before => Or.inl before)
    fun _ before => Or.inl before

theorem Inv.respond (inv : Inv s) {answer : Answer} (taken : Taken s answer.key answer.snapshot)
    (sees : Sees s answer.key answer.snapshot answer.seen) : Inv (s.respond p answer) := by
  have grows : Grows s (s.respond p answer) := grows_of_eq rfl rfl rfl rfl rfl
  refine inv.next grows rfl trivial inv.logged inv.kept inv.cached
    (fun _ before => Or.inl before) ?_
  intro other member
  rcases List.mem_cons.mp member with rfl | before
  · exact Or.inr ⟨taken, sees⟩
  · exact Or.inl before

/-- A fill keeps the invariant where the snapshot is current for its key. -/
theorem Inv.fill (inv : Inv s) {key : CacheKey} {snapshot : Snapshot} (taken : Taken s key snapshot)
    (current : ∀ c ∈ s.deleted key, c < snapshot.commits) :
    Inv (s.setCache key (some snapshot)) where
  logged := inv.logged
  kept := inv.kept
  cached := (meets_fill_iff inv.cached).mpr ⟨taken, current⟩
  owes := inv.owes
  finished := inv.finished
  answers := inv.answers

theorem Inv.expire (inv : Inv s) (key : CacheKey) : Inv (s.setCache key none) where
  logged := inv.logged
  kept := inv.kept
  cached := meets_expire inv.cached
  owes := inv.owes
  finished := inv.finished
  answers := inv.answers

/-- A commit is numbered by the versions before it, and owes the deletion of all its keys. -/
theorem Inv.commit (inv : Inv s) {tables : Tables} {drops : List CacheKey}
    (unseen : ∀ k, k ∉ drops → tables.query k = s.tables.query k) :
    Inv (s.commit p tables drops) := by
  have grows := grows_commit s p tables drops
  have last : (s.drops ++ [drops])[s.earlier.length]? = some drops := by
    rw [← inv.logged]
    simp
  refine inv.next grows rfl ⟨drops, last, fun k member => Or.inl member⟩ ?_ ?_ ?_
    (fun _ before => Or.inl before)
    fun _ before => Or.inl before
  · simp [State.commit, inv.logged]
  · intro c keys logged k away
    rcases Nat.lt_or_ge c s.earlier.length with older | newer
    · have before : s.drops[c]? = some keys := by
        rw [← inv.logged] at older
        simpa [State.commit, List.getElem?_append_left older] using logged
      rw [grows.versions (c + 1) older, grows.versions c older.le]
      exact inv.kept c keys before k away
    · have here : c = s.earlier.length := by
        have bound := (List.getElem?_eq_some_iff.mp logged).1
        simp only [State.commit, List.length_append, List.length_singleton, inv.logged] at bound
        omega
      subst here
      obtain rfl : drops = keys := Option.some.inj (last.symm.trans logged)
      have now : (s.commit p tables drops).versionAt (s.earlier.length + 1) = tables := by
        simp [State.versionAt, State.commit, versionAt]
      have before : (s.commit p tables drops).versionAt s.earlier.length = s.tables := by
        rw [grows.versions _ le_rfl]
        exact versionAt_length _ _
      rw [now, before]
      exact unseen k away
  · intro key snapshot cached
    obtain ⟨taken, current⟩ := inv.cached key snapshot cached
    exact ⟨taken.grow grows, current⟩

/-- A deletion empties the key before it demands more of it. -/
theorem Inv.delete (inv : Inv s) {c : Nat} {key : CacheKey} {rest : List CacheKey}
    (owes : Invalidated s c (key :: rest)) : Inv (s.delete p c key rest) := by
  have grows := grows_delete s p c key rest
  have gone : Invalidated (s.delete p c key rest) c rest := by
    obtain ⟨keys, logged, pending⟩ := owes
    refine ⟨keys, logged, fun k member => ?_⟩
    by_cases same : k = key
    · subst same
      right
      simp [State.delete]
    · rcases pending k member with todo | deleted
      · exact Or.inl ((List.mem_cons.mp todo).resolve_left same)
      · exact Or.inr (grows.deleted k deleted)
  refine inv.next grows rfl ?_ inv.logged inv.kept ?_ ?_ fun _ before => Or.inl before
  · split
    · trivial
    · exact gone
  · refine meets_drop inv.cached ?_
    intro k different snapshot held
    refine ⟨held.1, ?_⟩
    simp only [State.delete, Function.update_of_ne different]
    exact held.2
  · intro c' member
    simp only [State.delete] at member
    split at member
    · rename_i done
      rcases List.mem_cons.mp member with rfl | before
      · exact Or.inr (done ▸ gone)
      · exact Or.inl before
    · exact Or.inl member

theorem Inv.effect (inv : Inv s) (effect : Effect s p (s.pcs p) s')
    (current : ∀ key seen snapshot, s.pcs p = .store key seen snapshot →
      ∀ c ∈ s.deleted key, c < snapshot.commits) :
    Inv s' := by
  have owes := inv.owes p
  generalize here : s.pcs p = pc at effect owes current
  cases effect with
  | hit cached => exact inv.respond (inv.cached _ _ cached).1 (inv.sees_of_hit cached owes)
  | miss => exact inv.moveTo owes
  | query =>
      refine inv.moveTo ⟨⟨le_rfl, ?_⟩, inv.sees_of_query owes⟩
      rw [State.versionAt, versionAt_length]
  | store =>
      have filled := inv.fill owes.1 (current _ _ _ rfl)
      exact filled.respond owes.1 owes.2
  | quiet owed => exact inv.moveTo (owed.owes s)
  | commit unseen => exact inv.commit unseen
  | delete => exact inv.delete owes

theorem inv_step {a : Action} (inv : Inv s) (current : StoresCurrent s a)
    (stepped : step s a = some s') : Inv s' := by
  cases a with
  | start p request =>
      simp only [step] at stepped
      split at stepped
      · cases stepped
        apply inv.moveTo
        cases request with
        | get key => exact List.Subset.refl _
        | _ => trivial
      · cases stepped
  | advance p now =>
      refine inv.effect (effect_of_advance stepped) ?_
      intro key seen snapshot here
      simp only [StoresCurrent, here] at current
      exact current
  | expire key =>
      cases stepped
      exact inv.expire key

end Step

/-! ## Runs -/

theorem inv_of_reach {s : State} (reached : Reach step StoresCurrent State.Start s) : Inv s :=
  reached.invariant (fun _ => inv_of_start) fun _ _ _ inv current stepped =>
    inv_step inv current stepped

/-- **Coherence.**  Where no reader stores a snapshot over a deletion that came after it, every
answer is the result of its query at some commit, and no earlier than any change whose
invalidation was complete when the request started. -/
theorem coherent_of_reach {s : State} (reached : Reach step StoresCurrent State.Start s) :
    ∀ answer ∈ s.answers, Coherent s answer := by
  intro answer given
  have inv := inv_of_reach reached
  obtain ⟨taken, sees⟩ := inv.answers answer given
  refine ⟨taken, fun c member => ?_⟩
  obtain ⟨keys, logged, current⟩ := sees c member
  refine ⟨keys, logged, ?_⟩
  split
  · rename_i dropped
    exact current dropped
  · rename_i kept
    exact inv.kept c keys logged answer.key kept

/-! ## The only node is deactivated -/

section Runs

def fresh : State where
  tables := ⟨roundSingle, DeviceConfig.fleet, []⟩
  cache := fun _ => none
  pcs := fun _ => .idle
  earlier := []
  drops := []
  deleted := fun _ => []
  finished := []
  answers := []

theorem fresh_start : fresh.Start where
  pcs := fun _ => rfl
  cache := by rintro _ _ ⟨⟩
  earlier := rfl
  drops := rfl
  deleted := fun _ => rfl
  finished := rfl
  answers := rfl

/-- Process 1 deactivates the node: it reads the row, commits and deletes both keys. -/
def deactivation : List Action :=
  .start 1 (.update "n1".toList DeviceConfig.deactivate) :: List.replicate 4 (.advance 1 0)

/-- The answers to `GET /nodes` that miss commit `0`, which was finished when they started. -/
def outdated (s : State) : List Answer :=
  s.answers.filter fun answer =>
    decide (answer.key = .nodesAll ∧ 0 ∈ answer.seen ∧ answer.snapshot.commits = 0)

def activeAt (s : State) (n : Nat) : Option Bool :=
  ((s.versionAt n).nodes "n1".toList).map (·.isActive)

theorem coherent_of_reach_deactivation : ∃ s, Reach step StoresCurrent State.Start s ∧
    (s.answers.length = 2 ∧ (outdated s).length = 0) ∧ ∀ answer ∈ s.answers, Coherent s answer := by
  obtain ⟨s, reached, facts⟩ := exists_reach_of_run step StoresCurrent fresh_start
    (deactivation ++ .start 0 (.get .nodesAll) :: List.replicate 3 (.advance 0 0) ++
      [.start 2 (.get .nodesAll), .advance 2 0])
    (fun s => decide (s.answers.length = 2 ∧ (outdated s).length = 0)) (by decide)
  exact ⟨s, reached, of_decide_eq_true facts, coherent_of_reach reached⟩

/-- A reader stores the active node after the deactivation has deleted the key. -/
theorem stale_answer :
    ∃ s, Reach step Always State.Start s ∧ ¬ ∀ answer ∈ s.answers, Coherent s answer := by
  obtain ⟨s, reached, facts⟩ := exists_reach_of_run step Always fresh_start
    ([.start 0 (.get .nodesAll), .advance 0 0, .advance 0 0] ++ deactivation ++
      [.advance 0 0, .start 2 (.get .nodesAll), .advance 2 0])
    (fun s => decide ((outdated s).length = 1 ∧ activeAt s 0 = some true ∧ activeAt s 1 = some false))
    (by decide)
  obtain ⟨one, old, new⟩ := of_decide_eq_true facts
  obtain ⟨answer, found⟩ := List.exists_mem_of_length_pos (by omega : 0 < (outdated s).length)
  obtain ⟨given, matched⟩ := List.mem_filter.mp found
  obtain ⟨key, seen, commits⟩ := of_decide_eq_true matched
  refine ⟨s, reached, fun coherent => ?_⟩
  obtain ⟨keys, _, current⟩ := (coherent answer given).current 0 seen
  split at current
  · omega
  · rw [key] at current
    have same : (s.versionAt 1).nodes = (s.versionAt 0).nodes := Payload.nodes.inj current
    rw [activeAt] at old new
    rw [same, old] at new
    cases new

end Runs

end Empyrean.Fleet.Snapshots
