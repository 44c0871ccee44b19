/-
# Empyrean.Ingest.Isolation — a node's rows are its own affair

The workers run `process_reading` side by side, each run in three steps: the node is looked
up and the row built, the anomaly flag is computed from the table as it is by then, and the
row is committed.  In between other runs of any node, the admin's changes to nodes and the
retention purge come and go, and a worker may die and its task be run again.

* `step` — one such step; `alone` says that a run with no other in between is
  `processReading`.
* `isolated` — what the table has of a node, and what the runs for it return or raise, is
  the same whatever is delivered for other nodes and however it falls in between.
* `order_irrelevant` — two orders that agree for each node leave the same rows.
-/
import Empyrean.Ingest.Provenance
import Empyrean.Theory.GroupBy
import Empyrean.Theory.Unwinding

namespace Empyrean.Ingest.Isolation

set_option autoImplicit false

open Empyrean.Theory.GroupBy Empyrean.Theory.Unwinding
open Empyrean.Theory.Rounding (roundSingle)

variable {Node : Type} [DecidableEq Node]

/-! ## The system -/

/-- Where a run is: the row it has built, before its flag is set and after. -/
inductive Run (Node : Type)
  | idle
  | detect (reading : SensorReading Node)
  | insert (reading : SensorReading Node)

structure State (Node : Type) where
  db : Db Node
  runs : Nat → Run Node

/-- The runs are numbered; `queue t` is the payload that run `t` is for. -/
inductive Act (Node : Type)
  | start (t : Nat) (now : Int)
  | detectAnomaly (t : Nat) (now : Int)
  | commit (t : Nat)
  | die (t : Nat)
  | updateNode (nodeId : Node) (isActive : Bool)
  | dataRetentionCleanup (cutoff : Int)
deriving DecidableEq

/-- What a run returns or raises. -/
abbrev Outcome (Node : Type) := Except TaskError (Option (SensorReading Node))

def State.go (s : State Node) (t : Nat) (run : Run Node) : State Node :=
  { s with runs := Function.update s.runs t run }

def State.put (s : State Node) (db : Db Node) : State Node := { s with db := db }

def start (queue : Nat → TaskPayload Node) (s : State Node) (t : Nat) (now : Int) :
    Option (Outcome Node) × State Node :=
  match (queue t).nodeId with
  | none => (some (.ok none), s)
  | some node =>
      match s.db.nodes node with
      | some true =>
          match buildReading (queue t) node now with
          | .error _ => (some (.error .overflowError), s)
          | .ok reading => (none, s.go t (.detect reading))
      | _ => (some (.ok none), s)

def commit (s : State Node) (t : Nat) (reading : SensorReading Node) :
    Option (Outcome Node) × State Node :=
  match insertReading s.db reading with
  | .ok db' => (some (.ok (some reading)), (s.go t .idle).put db')
  | .error (.integrityError constraint) =>
      (some (if isDuplicateReading constraint then .ok none else .error (.integrityError constraint)), s.go t .idle)
  | .error raised => (some (.error raised), s.go t .idle)

def step (queue : Nat → TaskPayload Node) (s : State Node) :
    Act Node → Option (Outcome Node) × State Node
  | .start t now =>
      match s.runs t with
      | .idle => start queue s t now
      | _ => (none, s)
  | .detectAnomaly t now =>
      match s.runs t with
      | .detect reading =>
          (none, s.go t (.insert
            { reading with
              isAnomaly := detectAnomaly s.db.readings reading.node reading.pm25 now }))
      | _ => (none, s)
  | .commit t =>
      match s.runs t with
      | .insert reading => commit s t reading
      | _ => (none, s)
  | .die t => (none, s.go t .idle)
  | .updateNode nodeId isActive =>
      (none, s.put { s.db with nodes := Function.update s.db.nodes nodeId (some isActive) })
  | .dataRetentionCleanup cutoff =>
      (none, s.put { s.db with readings := s.db.readings.filter fun r => decide (cutoff ≤ r.time) })

/-- Workers that have nothing to do. -/
def resting (db : Db Node) : State Node := ⟨db, fun _ => .idle⟩

/-! ## What a node sees -/

/-- The tables as far as one node goes. -/
def own (node : Node) (db : Db Node) : Db Node where
  real := db.real
  nodes := fun n => if n = node then db.nodes n else none
  readings := group (·.node) node db.readings

def seen (queue : Nat → TaskPayload Node) (node : Node) (s : State Node) : State Node where
  db := own node s.db
  runs := fun t => if (queue t).nodeId = some node then s.runs t else .idle

/-- The purge concerns every node. -/
def concerns (queue : Nat → TaskPayload Node) (node : Node) : Act Node → Bool
  | .start t _ | .detectAnomaly t _ | .commit t | .die t => decide ((queue t).nodeId = some node)
  | .updateNode nodeId _ => decide (nodeId = node)
  | .dataRetentionCleanup _ => true

def Run.reading : Run Node → Option (SensorReading Node)
  | .idle => none
  | .detect reading | .insert reading => some reading

/-- A run is about the node of its payload. -/
def Owned (queue : Nat → TaskPayload Node) (s : State Node) : Prop :=
  ∀ t, ∀ r ∈ (s.runs t).reading, (queue t).nodeId = some r.node

section Views

variable {queue : Nat → TaskPayload Node} {node : Node} {s : State Node} {db : Db Node}

theorem own_real : (own node db).real = db.real := rfl

@[simp] theorem own_nodes : (own node db).nodes node = db.nodes node := if_pos rfl

theorem own_own : own node (own node db) = own node db := by
  unfold own
  congr 1
  · funext n
    by_cases here : n = node <;> simp [here]
  · exact group_group _ _ _

theorem seen_seen : seen queue node (seen queue node s) = seen queue node s := by
  unfold seen
  congr 1
  · exact own_own
  · funext t
    by_cases mine : (queue t).nodeId = some node <;> simp [mine]

theorem seen_runs {t : Nat} (mine : (queue t).nodeId = some node) :
    (seen queue node s).runs t = s.runs t := if_pos mine

theorem seen_go {t : Nat} (mine : (queue t).nodeId = some node) (run : Run Node) :
    seen queue node (s.go t run) = (seen queue node s).go t run := by
  unfold seen State.go
  congr 1
  funext t'
  by_cases same : t' = t
  · subst same
    simp [mine]
  · simp [same]

theorem seen_go_of_ne {t : Nat} (other : (queue t).nodeId ≠ some node) (run : Run Node) :
    seen queue node (s.go t run) = seen queue node s := by
  unfold seen State.go
  congr 1
  funext t'
  by_cases same : t' = t
  · subst same
    simp [other]
  · simp [same]

theorem seen_put (db : Db Node) :
    seen queue node (s.put db) = (seen queue node s).put (own node db) := rfl

/-! ## What a run takes from the tables -/

theorem recent_own (now : Int) :
    recent (own node db).readings node now = recent db.readings node now := by
  have window : (own node db).readings.filter
      (fun r => decide (r.node = node ∧ now - 1440 * 60000000 ≤ r.time ∧ r.pm25.isSome)) =
      db.readings.filter fun r =>
        decide (r.node = node ∧ now - 1440 * 60000000 ≤ r.time ∧ r.pm25.isSome) := by
    show (group (·.node) node db.readings).filter _ = _
    rw [group, List.filter_filter]
    apply List.filter_congr
    intro r _
    by_cases here : r.node = node <;> simp [here]
  rw [recent, window, recent]

theorem detectAnomaly_own (pm25 : Option Rat) (now : Int) :
    detectAnomaly (own node db).readings node pm25 now =
      detectAnomaly db.readings node pm25 now := by
  unfold detectAnomaly
  rw [recent_own]

theorem taken_own (reading : SensorReading Node) :
    ((own reading.node db).readings.any fun r => decide (r.time = reading.time ∧ r.node = reading.node)) =
      db.readings.any fun r => decide (r.time = reading.time ∧ r.node = reading.node) := by
  rw [Bool.eq_iff_iff, List.any_eq_true, List.any_eq_true]
  constructor
  · rintro ⟨r, member, key⟩
    exact ⟨r, (mem_group.mp member).1, key⟩
  · rintro ⟨r, member, key⟩
    exact ⟨r, mem_group.mpr ⟨member, (of_decide_eq_true key).2⟩, key⟩

/-- The insert is decided by the node's own rows. -/
theorem insertReading_own (reading : SensorReading Node) : insertReading db reading =
    (insertReading (own reading.node db) reading).map fun _ =>
      { db with readings := db.readings ++ [reading.stored db.real] } := by
  unfold insertReading
  rw [taken_own, own_nodes]
  by_cases fits : reading.Fits
  · rw [if_neg (not_not.mpr fits), if_neg (not_not.mpr fits)]
    by_cases category : reading.CategoryFits
    · rw [if_neg (not_not.mpr category), if_neg (not_not.mpr category)]
      split
      · rfl
      split
      · rfl
      rfl
    · rw [if_pos category, if_pos category]
      rfl
  · rw [if_pos fits, if_pos fits]
    rfl

theorem own_append (reading : SensorReading Node) :
    own node { db with readings := db.readings ++ [reading] } =
    { own node db with readings := (own node db).readings ++ group (·.node) node [reading] } := by
  unfold own
  rw [group_append]

end Views

/-! ## One step -/

omit [DecidableEq Node] in
theorem buildReading_node {payload : TaskPayload Node} {node : Node} {now : Int}
    {row : SensorReading Node} (built : buildReading payload node now = .ok row) :
    row.node = node := by
  unfold buildReading at built
  cases parsed : parseTime payload.time now with
  | error raised =>
      rw [parsed] at built
      cases built
  | ok t =>
      rw [parsed] at built
      cases built
      rfl

theorem insertReading_ok {db db' : Db Node} {reading : SensorReading Node}
    (inserted : insertReading db reading = .ok db') :
    db' = { db with readings := db.readings ++ [reading.stored db.real] } := by
  rw [insertReading_own] at inserted
  cases attempt : insertReading (own reading.node db) reading with
  | error raised =>
      rw [attempt] at inserted
      cases inserted
  | ok _ =>
      rw [attempt] at inserted
      cases inserted
      rfl

/-- What a step does to the state. -/
inductive Stepped (queue : Nat → TaskPayload Node) (s : State Node) : Act Node → State Node → Prop
  | stays (a : Act Node) : Stepped queue s a s
  | starts (t : Nat) (now : Int) (node : Node) (reading : SensorReading Node)
  (named : (queue t).nodeId = some node)
      (built : buildReading (queue t) node now = .ok reading) :
        Stepped queue s (.start t now) (s.go t (.detect reading))
  | flags (t : Nat) (now : Int) (reading : SensorReading Node) (flag : Bool)
  (here : s.runs t = .detect reading) :
      Stepped queue s (.detectAnomaly t now) (s.go t (.insert { reading with isAnomaly := flag }))
  | commits (t : Nat) (reading : SensorReading Node) (here : s.runs t = .insert reading) :
      Stepped queue s (.commit t)
        ((s.go t .idle).put { s.db with readings := s.db.readings ++ [reading.stored s.db.real] })
  | fails (t : Nat) : Stepped queue s (.commit t) (s.go t .idle)
  | dies (t : Nat) : Stepped queue s (.die t) (s.go t .idle)
  | updates (nodeId : Node) (isActive : Bool) : Stepped queue s (.updateNode nodeId isActive)
      (s.put { s.db with nodes := Function.update s.db.nodes nodeId (some isActive) })
  | purges (cutoff : Int) : Stepped queue s (.dataRetentionCleanup cutoff)
      (s.put { s.db with readings := s.db.readings.filter fun r => decide (cutoff ≤ r.time) })

theorem stepped (queue : Nat → TaskPayload Node) (s : State Node) (a : Act Node) :
    Stepped queue s a (step queue s a).2 := by
  cases a with
  | start t now =>
      simp only [step]
      split
      · unfold start
        split
        · exact .stays _
        rename_i node named
        split
        · split
          · exact .stays _
          · rename_i reading built
            exact .starts t now node reading named built
        · exact .stays _
      · exact .stays _
  | detectAnomaly t now =>
      simp only [step]
      split
      · rename_i reading here
        exact .flags t now reading _ here
      · exact .stays _
  | commit t =>
      simp only [step]
      split
      · rename_i reading here
        unfold commit
        split
        · rename_i db' inserted
          rw [insertReading_ok inserted]
          exact .commits t reading here
        · exact .fails t
        · exact .fails t
      · exact .stays _
  | die t => exact .dies t
  | updateNode nodeId isActive => exact .updates nodeId isActive
  | dataRetentionCleanup cutoff => exact .purges cutoff

section Steps

variable {queue : Nat → TaskPayload Node} {node : Node} {s : State Node}

omit [DecidableEq Node] in
theorem Owned.go (owned : Owned queue s) {t : Nat} {run : Run Node}
    (mine : ∀ r ∈ run.reading, (queue t).nodeId = some r.node) : Owned queue (s.go t run) := by
  intro t' r there
  by_cases same : t' = t
  · subst same
    apply mine
    simpa [State.go] using there
  · apply owned t'
    simpa [State.go, same] using there

omit [DecidableEq Node] in
theorem Owned.detects (owned : Owned queue s) {t : Nat} {reading : SensorReading Node}
    (here : s.runs t = .detect reading) : (queue t).nodeId = some reading.node := by
  apply owned t
  rw [here]
  rfl

omit [DecidableEq Node] in
theorem Owned.inserts (owned : Owned queue s) {t : Nat} {reading : SensorReading Node}
    (here : s.runs t = .insert reading) : (queue t).nodeId = some reading.node := by
  apply owned t
  rw [here]
  rfl

theorem Owned.stepped {s' : State Node} {a : Act Node} (owned : Owned queue s)
    (moved : Stepped queue s a s') : Owned queue s' := by
  have rests : ∀ t, Owned queue (s.go t .idle) := fun t => owned.go (by simp [Run.reading])
  cases moved with
  | stays => exact owned
  | starts t now node reading named built =>
      apply owned.go
      rintro r ⟨⟩
      rw [buildReading_node built]
      exact named
  | flags t now reading flag here =>
      apply owned.go
      rintro r ⟨⟩
      have named := owned.detects here
      exact named
  | commits t => exact rests t
  | fails t => exact rests t
  | dies t => exact rests t
  | updates => exact owned
  | purges => exact owned

/-- A step for somebody else. -/
theorem seen_frame {a : Act Node} (owned : Owned queue s) (other : concerns queue node a = false) :
    seen queue node (step queue s a).2 = seen queue node s := by
  generalize moved : (step queue s a).2 = s'
  have move := moved ▸ stepped queue s a
  cases move with
  | stays => rfl
  | starts t => exact seen_go_of_ne (of_decide_eq_false other) _
  | flags t => exact seen_go_of_ne (of_decide_eq_false other) _
  | commits t reading here =>
      have away : (queue t).nodeId ≠ some node := of_decide_eq_false other
      have elsewhere : reading.node ≠ node := by
        rintro rfl
        exact away (owned.inserts here)
      have unseen : group (·.node) node [reading.stored s.db.real] = [] :=
        group_nil_of (by simpa using elsewhere)
      rw [seen_put, seen_go_of_ne away, own_append, unseen, List.append_nil]
      rfl
  | fails t => exact seen_go_of_ne (of_decide_eq_false other) _
  | dies t => exact seen_go_of_ne (of_decide_eq_false other) _
  | updates nodeId isActive =>
      have elsewhere : nodeId ≠ node := of_decide_eq_false other
      have same : own node { s.db with
          nodes := Function.update s.db.nodes nodeId (some isActive) } = own node s.db := by
        unfold own
        congr 1
        funext n
        by_cases here : n = node
        · simp [here, elsewhere.symm]
        · simp [here]
      rw [seen_put, same]
      rfl
  | purges => cases other

theorem start_seen {t : Nat} (mine : (queue t).nodeId = some node) (now : Int) :
    (start queue s t now).1 = (start queue (seen queue node s) t now).1 ∧
      seen queue node (start queue s t now).2 =
        seen queue node (start queue (seen queue node s) t now).2 := by
  have nodes : (seen queue node s).db.nodes node = s.db.nodes node := own_nodes
  simp only [start, mine, nodes]
  split
  · split
    · exact ⟨rfl, seen_seen.symm⟩
    · exact ⟨rfl, by rw [seen_go mine, seen_go mine, seen_seen]⟩
  · exact ⟨rfl, seen_seen.symm⟩

theorem commit_seen {t : Nat} (mine : (queue t).nodeId = some node) {reading : SensorReading Node}
    (about : reading.node = node) :
    (commit s t reading).1 = (commit (seen queue node s) t reading).1 ∧
      seen queue node (commit s t reading).2 =
        seen queue node (commit (seen queue node s) t reading).2 := by
  subst about
  have ends : seen queue reading.node (s.go t .idle) =
      seen queue reading.node ((seen queue reading.node s).go t .idle) := by
    rw [seen_go mine, seen_go mine, seen_seen]
  have tables : (seen queue reading.node s).db = own reading.node s.db := rfl
  unfold commit
  rw [insertReading_own, tables]
  cases attempt : insertReading (own reading.node s.db) reading with
  | ok db' =>
      refine ⟨rfl, ?_⟩
      simp only [Except.map, insertReading_ok attempt, seen_put, own_append, own_own]
      rw [ends, own_real]
  | error raised =>
      cases raised with
      | integrityError constraint => exact ⟨rfl, ends⟩
      | overflowError => exact ⟨rfl, ends⟩
      | numericValueOutOfRange => exact ⟨rfl, ends⟩
      | stringDataRightTruncation => exact ⟨rfl, ends⟩

/-- A step of one's own can be taken in what one sees. -/
theorem step_seen {a : Act Node} (owned : Owned queue s) (mine : concerns queue node a = true) :
    (step queue s a).1 = (step queue (seen queue node s) a).1 ∧
      seen queue node (step queue s a).2 =
        seen queue node (step queue (seen queue node s) a).2 := by
  cases a with
  | start t now =>
      have named : (queue t).nodeId = some node := of_decide_eq_true mine
      simp only [step, seen_runs named]
      split
      · exact start_seen named now
      · exact ⟨rfl, seen_seen.symm⟩
  | detectAnomaly t now =>
      have named : (queue t).nodeId = some node := of_decide_eq_true mine
      simp only [step, seen_runs named]
      split
      · rename_i reading here
        have about : some node = some reading.node := named.symm.trans (owned.detects here)
        cases about
        have flag :
            detectAnomaly (seen queue reading.node s).db.readings reading.node reading.pm25 now =
            detectAnomaly s.db.readings reading.node reading.pm25 now :=
              detectAnomaly_own reading.pm25 now
        exact ⟨rfl, by rw [flag, seen_go named, seen_go named, seen_seen]⟩
      · exact ⟨rfl, seen_seen.symm⟩
  | commit t =>
      have named : (queue t).nodeId = some node := of_decide_eq_true mine
      simp only [step, seen_runs named]
      split
      · rename_i reading here
        have about : some node = some reading.node := named.symm.trans (owned.inserts here)
        exact commit_seen named (Option.some.inj about).symm
      · exact ⟨rfl, seen_seen.symm⟩
  | die t =>
      have named : (queue t).nodeId = some node := of_decide_eq_true mine
      refine ⟨rfl, ?_⟩
      show seen queue node (s.go t .idle) = seen queue node ((seen queue node s).go t .idle)
      rw [seen_go named, seen_go named, seen_seen]
  | updateNode nodeId isActive =>
      have here : nodeId = node := of_decide_eq_true mine
      subst here
      refine ⟨rfl, ?_⟩
      show seen queue nodeId (s.put _) = seen queue nodeId ((seen queue nodeId s).put _)
      rw [seen_put, seen_put, seen_seen]
      congr 1
      unfold own
      congr 1
      · funext n
        by_cases here : n = nodeId <;> simp [here, seen]
      · exact (group_group _ _ _).symm
  | dataRetentionCleanup cutoff =>
      refine ⟨rfl, ?_⟩
      show seen queue node (s.put _) = seen queue node ((seen queue node s).put _)
      rw [seen_put, seen_put, seen_seen]
      congr 1
      unfold own
      congr 1
      · funext n
        by_cases here : n = node <;> simp [here, seen, own]
      · exact (group_filter_group _).symm

end Steps

/-! ## Runs -/

section Runs

variable (queue : Nat → TaskPayload Node)

theorem unwinds (node : Node) :
    Unwinds (step queue) (Owned queue) (seen queue node) (concerns queue node) where
  keeps := fun owned => owned.stepped (stepped queue _ _)
  frame := seen_frame
  moves := by
    intro s s' a owned owned' mine same
    rw [(step_seen owned mine).2, (step_seen owned' mine).2, same]
  answers := by
    intro s s' a owned owned' mine same
    rw [(step_seen owned mine).1, (step_seen owned' mine).1, same]

omit [DecidableEq Node] in
theorem owned_resting (db : Db Node) : Owned queue (resting db) := by
  intro t r there
  cases there

theorem seen_resting {node : Node} {db db' : Db Node} (same : own node db = own node db') :
    seen queue node (resting db) = seen queue node (resting db') := by
  show (seen queue node (resting db)).put (own node db) =
      (seen queue node (resting db)).put (own node db')
  rw [same]

/-- What the runs for a node return or raise, in their order. -/
def outcomes (node : Node) (db : Db Node) (actions : List (Act Node)) : List (Outcome Node) :=
  (heard (step queue) (concerns queue node) (resting db) actions).filterMap id

/-- The tables a list of actions leaves. -/
def tables (db : Db Node) (actions : List (Act Node)) : Db Node :=
  (after (step queue) (resting db) actions).db

/-- **A node's rows are its own affair.**  Two runs that agree in what concerns the node, from
tables that agree in its rows, leave the same rows of it and answer its tasks alike. -/
theorem isolated {node : Node} {db db' : Db Node} (same : own node db = own node db')
    {actions actions' : List (Act Node)}
    (agree : actions.filter (concerns queue node) = actions'.filter (concerns queue node)) :
    own node (tables queue db actions) = own node (tables queue db' actions') ∧
      outcomes queue node db actions = outcomes queue node db' actions' := by
  have alike := (unwinds queue node).same (owned_resting queue db) (owned_resting queue db')
    (seen_resting queue same) agree
  constructor
  · exact congrArg State.db alike.1
  · unfold outcomes
    rw [alike.2]

/-- **The order between nodes does not matter.** -/
theorem order_irrelevant (db : Db Node) {actions actions' : List (Act Node)}
    (agree : ∀ node, actions.filter (concerns queue node) = actions'.filter (concerns queue node)) :
    (tables queue db actions).nodes = (tables queue db actions').nodes ∧
      (tables queue db actions).readings.Perm (tables queue db actions').readings := by
  have alike : ∀ node, own node (tables queue db actions) = own node (tables queue db actions') :=
    fun node => (isolated queue rfl (agree node)).1
  constructor
  · funext node
    have entry := congrArg (fun view => view.nodes node) (alike node)
    simpa using entry
  · exact perm_of_group fun node => congrArg Db.readings (alike node)

end Runs

/-- **A run that is left alone** is `process_reading`. -/
theorem alone (queue : Nat → TaskPayload Node) (db : Db Node) (t : Nat) (now later : Int) :
    let actions := [Act.start t now, .detectAnomaly t later, .commit t]
    ((heard (step queue) (fun _ => true) (resting db) actions).filterMap id,
      tables queue db actions) =
      match processReading db (queue t) now later with
      | .ok (stored, db') => ([.ok stored], db')
      | .error raised => ([.error raised], db) := by
  simp only [processReading, tables, heard, after, step, resting, start]
  cases named : (queue t).nodeId with
  | none => simp
  | some node =>
      cases active : db.nodes node with
      | none => simp [active]
      | some isActive =>
          cases isActive with
          | false => simp [active]
          | true =>
              cases built : buildReading (queue t) node now with
              | error raised => simp [active, built]
              | ok reading =>
                  have about : reading.node = node := buildReading_node built
                  subst about
                  simp only [active, built, State.go, Function.update_self, commit]
                  cases inserted : insertReading db { reading with
                    isAnomaly := detectAnomaly db.readings reading.node reading.pm25 later } with
                  | ok db' => simp [State.put]
                  | error raised =>
                      cases raised with
                      | integrityError constraint =>
                          cases duplicate : isDuplicateReading constraint <;> simp [duplicate]
                      | overflowError => simp
                      | numericValueOutOfRange => simp
                      | stringDataRightTruncation => simp

/-! ## Two nodes -/

/-- The even runs are for one node, the odd ones for the other. -/
def alternating (t : Nat) : TaskPayload Bool :=
  ⟨some (t % 2 = 1), .missing, fun f => if f = .pm25 then some (.fin t) else none⟩

def bothActive : Db Bool := ⟨roundSingle, fun _ => some true, []⟩

def onlyFalse : Db Bool := ⟨roundSingle, fun node => if node then none else some true, []⟩

/-- Two runs side by side. -/
def crossing : List (Act Bool) :=
  [.start 0 noon, .start 1 noon, .detectAnomaly 1 noon, .commit 1, .detectAnomaly 0 noon, .commit 0]

def oneAfterTheOther : List (Act Bool) :=
  [.start 0 noon, .detectAnomaly 0 noon, .commit 0, .start 1 noon, .detectAnomaly 1 noon, .commit 1]

/-- The other node is not registered and sends something else. -/
theorem isolated_other : (outcomes alternating false bothActive crossing).length = 1 ∧
    own false (tables alternating bothActive crossing) =
      own false (tables alternating onlyFalse (.start 3 noon :: crossing)) ∧
      outcomes alternating false bothActive crossing =
        outcomes alternating false onlyFalse (.start 3 noon :: crossing) := by
  have same : own false bothActive = own false onlyFalse := by
    unfold own bothActive onlyFalse
    congr 1
    funext node
    cases node <;> rfl
  exact ⟨by decide +kernel, isolated alternating same (by decide)⟩

theorem order_irrelevant_two : (tables alternating bothActive crossing).readings.length = 2 ∧
    (tables alternating bothActive crossing).nodes =
      (tables alternating bothActive oneAfterTheOther).nodes ∧
      (tables alternating bothActive crossing).readings.Perm
        (tables alternating bothActive oneAfterTheOther).readings := by
  have agree : ∀ node, crossing.filter (concerns alternating node) =
      oneAfterTheOther.filter (concerns alternating node) := by
    decide
  exact ⟨by decide +kernel, order_irrelevant alternating bothActive agree⟩

end Empyrean.Ingest.Isolation
