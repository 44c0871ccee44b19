/-
# Empyrean.Alerts.Upsert — `check_thresholds` and the acknowledgement of alerts

`alerts` is a table of rows under row locks, by `alert_id`; the partial unique index on
the unacknowledged rows of a node is what `_upsert_alert` conflicts on.  A run of
`check_thresholds` upserts one row per breached node, in one transaction, and broadcasts
what it raised after the commit.

* `upsertAlert` — `INSERT … ON CONFLICT DO UPDATE … WHERE rank < new_rank`: it waits for
  any transaction that has the node's unacknowledged alert, then decides on the newest
  version.  A suppressed breach still locks the row it conflicted with.
* `step` — one statement, one publish, or a request that arrives or dies.
* `History` — which breaches were committed for an alert, which of them raised it, and
  what was broadcast, in order.
-/
import Empyrean.Theory.PyNumeral
import Empyrean.Theory.RowStore

namespace Empyrean.Alerts

set_option autoImplicit false

open Empyrean.Theory Empyrean.Theory.RowStore Empyrean.Theory.PyNumeral

inductive Severity
  | warning
  | critical
  deriving DecidableEq, Repr

/-- `CASE severity WHEN 'critical' THEN 2 WHEN 'warning' THEN 1` -/
def Severity.rank : Severity → Nat
  | .warning => 1
  | .critical => 2

/-- A row of `alerts` for the parameter `aqi`; the message repeats the other columns. -/
structure Alert where
  nodeId : Nat
  value : Rat
  threshold : PyFloat
  severity : Severity
  triggeredAt : Int
  acknowledgedAt : Option Int
  acknowledgedBy : Option Nat
  deriving DecidableEq

/-- `acknowledged_at IS NULL`, for the given node. -/
def Alert.openFor (node : Nat) (alert : Alert) : Bool :=
  decide (alert.nodeId = node) && alert.acknowledgedAt.isNone

theorem Alert.openFor_iff (node : Nat) (alert : Alert) :
    alert.openFor node = true ↔ alert.nodeId = node ∧ alert.acknowledgedAt = none := by
  simp [openFor]

/-- What `acknowledge_alert` writes. -/
def Alert.acknowledge (user : Nat) (now : Int) (alert : Alert) : Alert :=
  { alert with acknowledgedAt := some now, acknowledgedBy := some user }

/-- A node whose latest fresh reading is at or above a threshold. -/
structure Breach where
  nodeId : Nat
  aqi : Rat
  threshold : PyFloat
  severity : Severity

/-- The loop body of `check_thresholds` up to the upsert, for the rows of the grouped query. -/
def breaches (warning critical : PyFloat) (latest : List (Nat × Rat)) : List Breach :=
  latest.filterMap fun row =>
    if critical.le (.fin row.2) then some ⟨row.1, row.2, critical, .critical⟩
    else if warning.le (.fin row.2) then some ⟨row.1, row.2, warning, .warning⟩
    else none

/-- `DISTINCT ON (node_id)` leaves one row per node, so a node is breached at most once. -/
theorem breaches_nodup (warning critical : PyFloat) {latest : List (Nat × Rat)}
    (distinct : (latest.map Prod.fst).Nodup) :
    ((breaches warning critical latest).map Breach.nodeId).Nodup := by
  refine distinct.sublist ?_
  clear distinct
  induction latest with
  | nil => exact List.Sublist.slnil
  | cons row latest ih =>
      simp only [breaches, List.filterMap_cons, List.map_cons] at ih ⊢
      split
      · exact ih.cons _
      · rename_i found
        have node : ‹Breach›.nodeId = row.1 := by
          split at found
          · cases found
            rfl
          · split at found
            · cases found
              rfl
            · cases found
        rw [List.map_cons, node]
        exact ih.cons_cons _

def Breach.insert (breach : Breach) (now : Int) : Alert :=
  { nodeId := breach.nodeId
    value := breach.aqi
    threshold := breach.threshold
    severity := breach.severity
    triggeredAt := now
    acknowledgedAt := none
    acknowledgedBy := none }

/-- The `DO UPDATE SET` of a breach that outranks the row. -/
def Breach.upgrade (breach : Breach) (now : Int) (alert : Alert) : Alert :=
  { alert with
    value := breach.aqi
    threshold := breach.threshold
    severity := breach.severity
    triggeredAt := now }

/-- One upsert of a run: the row it ended at, and whether `rowcount` was 1. -/
structure Entry where
  alert : Nat
  breach : Breach
  raised : Bool

/-- Another transaction has row `a`, and the node's unacknowledged alert is, or may become,
there. -/
def blocks (alerts : Rows Nat Nat Alert) (t node a : Nat) : Bool :=
  (alerts a).held.any fun holder =>
    decide (holder.1 ≠ t) &&
      ((alerts a).committed.any (·.openFor node) || holder.2.any (·.openFor node))

/-- The row the insert conflicts with, in its newest version. -/
def conflict (alerts : Rows Nat Nat Alert) (minted t node : Nat) : Option (Nat × Alert) :=
  (List.range minted).findSome? fun a =>
    (((alerts a).read t).filter (·.openFor node)).map fun row => (a, row)

/-- `_upsert_alert`; `none` while it waits. -/
def upsertAlert (alerts : Rows Nat Nat Alert) (minted t : Nat) (now : Int) (breach : Breach) :
    Option (Rows Nat Nat Alert × Nat × Entry) :=
  if (List.range minted).any (blocks alerts t breach.nodeId) then none
  else
    match conflict alerts minted t breach.nodeId with
    | none =>
        some (put alerts t minted (some (breach.insert now)), minted + 1, ⟨minted, breach, true⟩)
    | some (a, row) =>
        if row.severity.rank < breach.severity.rank then
          some (put alerts t a (some (breach.upgrade now row)), minted, ⟨a, breach, true⟩)
        else some (put alerts t a (some row), minted, ⟨a, breach, false⟩)

/-! ## The system -/

inductive Pc
  | idle
  /-- `check_thresholds`: the loop, then the deferred publishes. -/
  | upsert (todo : List Breach) (entries : List Entry)
  | publish (todo : List Entry)
  /-- `acknowledge_alert`: load the row, write it, commit. -/
  | ackLoad (alert user : Nat)
  | ackUpdate (alert user : Nat)
  | ackCommit (alert : Nat)
  | done

structure History where
  /-- The severities of the breaches committed for an alert, suppressed ones included. -/
  breaches : Nat → List Severity
  /-- Those that created or upgraded it. -/
  raised : Nat → List Severity
  published : List Entry

structure State where
  alerts : Rows Nat Nat Alert
  minted : Nat
  pcs : Nat → Pc
  history : History

def severitiesOf (entries : List Entry) (a : Nat) : List Severity :=
  (entries.filter fun e => decide (e.alert = a)).map (·.breach.severity)

/-- The commit of a run with these upserts. -/
def History.commit (history : History) (entries : List Entry) : History :=
  { history with
    breaches := fun a => history.breaches a ++ severitiesOf entries a
    raised := fun a => history.raised a ++ severitiesOf (entries.filter (·.raised)) a }

inductive Act
  /-- A run of `check_thresholds` starts with the thresholds and the rows it has read. -/
  | check (t : Nat) (warning critical : PyFloat) (latest : List (Nat × Rat))
  | acknowledge (t alert user : Nat)
  | advance (t : Nat) (now : Int)
  /-- A failure before the commit. -/
  | abort (t : Nat)

def State.go (s : State) (t : Nat) (pc : Pc) : State := { s with pcs := Function.update s.pcs t pc }

/-- The end of the `with` block: the run's upserts are committed, and what it raised is next. -/
def State.commitRun (s : State) (t : Nat) (entries : List Entry) : State :=
  { (s.go t (.publish (entries.filter (·.raised)))) with
    alerts := commit s.alerts t
    history := s.history.commit entries }

/-- One `publish_alert`. -/
def State.publish (s : State) (t : Nat) (entry : Entry) (todo : List Entry) : State :=
  { (s.go t (.publish todo)) with
    history := { s.history with published := s.history.published ++ [entry] } }

section Ends

variable (s : State) (t : Nat) (entries : List Entry) (entry : Entry) (todo : List Entry)

@[simp] theorem commitRun_alerts : (s.commitRun t entries).alerts = commit s.alerts t := rfl

@[simp] theorem commitRun_breaches (a : Nat) :
    (s.commitRun t entries).history.breaches a =
      s.history.breaches a ++ severitiesOf entries a := rfl

@[simp] theorem commitRun_raised (a : Nat) : (s.commitRun t entries).history.raised a =
    s.history.raised a ++ severitiesOf (entries.filter (·.raised)) a := rfl

@[simp] theorem commitRun_published :
    (s.commitRun t entries).history.published = s.history.published := rfl

@[simp] theorem publish_published :
    (s.publish t entry todo).history.published = s.history.published ++ [entry] := rfl

end Ends

def step (s : State) : Act → Option State
  | .check t warning critical latest =>
      match s.pcs t with
      | .idle =>
          if (latest.map Prod.fst).Nodup then some (s.go t (.upsert (breaches warning critical latest) [])) else none
      | _ => none
  | .acknowledge t alert user =>
      match s.pcs t with
      | .idle => some (s.go t (.ackLoad alert user))
      | _ => none
  | .advance t now =>
      match s.pcs t with
      | .upsert (breach :: todo) entries =>
          (upsertAlert s.alerts s.minted t now breach).map fun result =>
            { (s.go t (.upsert todo (entries ++ [result.2.2]))) with
              alerts := result.1, minted := result.2.1 }
      | .upsert [] entries => some (s.commitRun t entries)
      | .publish (entry :: todo) => some (s.publish t entry todo)
      | .publish [] => some (s.go t .done)
      | .ackLoad alert user =>
          match (s.alerts alert).read t with
          | none => some (s.go t .done)
          | some row =>
              if row.acknowledgedAt.isNone then some (s.go t (.ackUpdate alert user))
              else some (s.go t .done)
      | .ackUpdate alert user =>
          (updateRow s.alerts t alert (fun _ => true) (Alert.acknowledge user now)).map fun updated =>
            match updated with
            | (alerts, some _) => { (s.go t (.ackCommit alert)) with alerts := alerts }
            | (alerts, none) => { (s.go t .done) with alerts := rollback alerts t }
      | .ackCommit _ => some { (s.go t .done) with alerts := commit s.alerts t }
      | .idle | .done => none
  | .abort t =>
      match s.pcs t with
      | .publish _ => none
      | _ => some { (s.go t .done) with alerts := rollback s.alerts t }

/-- Nothing is in flight and nothing was published; an alert that is there counts as the
one breach it was last raised by. -/
structure Start (s : State) : Prop where
  free : ∀ a, (s.alerts a).held = none
  undrawn : ∀ a, s.minted ≤ a → (s.alerts a).committed = none
  /-- The partial unique index. -/
  unique : ∀ node a b, (s.alerts a).committed.any (·.openFor node) = true →
    (s.alerts b).committed.any (·.openFor node) = true → a = b
  pcs : ∀ t, s.pcs t = .idle
  breaches : ∀ a, s.history.breaches a = ((s.alerts a).committed.map (·.severity)).toList
  raised : ∀ a, s.history.raised a = []
  published : s.history.published = []

end Empyrean.Alerts
