/-
# Empyrean.Alerts.OneOpen — a node has at most one unacknowledged alert

The partial unique index is not a check of its own in the model: it is what the upsert
waits for and conflicts with, and here it is shown to hold.  An upsert inserts only where
no row of the node is open or could become open by another transaction's commit
(`impossible_of_no_conflict`).

* `Sound` / `Pc.Holds` — what the rows look like, and what a request holds of them.
* `upserted` — the one spec of `upsertAlert` that the rest cites.
* `Taken` / `taken_of_step` — the steps, one by one.
* `Move` / `move_of_step` — what one step can do to the table, the history and the
  broadcasts.
-/
import Empyrean.Alerts.Upsert
import Empyrean.Theory.Runs

namespace Empyrean.Alerts

set_option autoImplicit false

open Empyrean.Theory Empyrean.Theory.RowStore Empyrean.Theory.PyNumeral Empyrean.Theory.Runs

/-! ## The rows -/

/-- The node's unacknowledged alert is, or may become, in this row. -/
def Possible (node : Nat) (row : Row Nat Alert) : Prop :=
  row.committed.any (·.openFor node) = true ∨
    ∃ t version, row.held = some (t, version) ∧ version.any (·.openFor node) = true

structure Sound (alerts : Rows Nat Nat Alert) (minted : Nat) : Prop where
  /-- A version that will replace a stored alert keeps its node, does not lower it, and
  does not take an acknowledgement back. -/
  held : ∀ a t version, (alerts a).held = some (t, version) →
    ∃ row, version = some row ∧ ∀ old, (alerts a).committed = some old →
      row.nodeId = old.nodeId ∧ old.severity.rank ≤ row.severity.rank ∧
        (row.acknowledgedAt = none → old.acknowledgedAt = none)
  undrawn : ∀ a, minted ≤ a → alerts a = .settled none
  unique : ∀ node a b, Possible node (alerts a) → Possible node (alerts b) → a = b

/-- The row that an upsert of `t` has left, and locked. -/
def Made (alerts : Rows Nat Nat Alert) (t : Nat) (e : Entry) : Prop :=
  ∃ row, (alerts e.alert).held = some (t, some row) ∧ row.nodeId = e.breach.nodeId ∧
    row.acknowledgedAt = none ∧
    ((e.raised = true ∧ row.severity = e.breach.severity ∧
        ∀ old, (alerts e.alert).committed = some old → old.severity.rank < row.severity.rank) ∨
      (e.raised = false ∧ (alerts e.alert).committed = some row ∧
        e.breach.severity.rank ≤ row.severity.rank))

def Pc.Holds (alerts : Rows Nat Nat Alert) (t : Nat) : Pc → Prop
  | .upsert todo entries =>
      (∀ a version, (alerts a).held = some (t, version) → ∃ e ∈ entries, e.alert = a) ∧
        (∀ e ∈ entries, Made alerts t e) ∧
        (entries.map (·.breach.nodeId) ++ todo.map (·.nodeId)).Nodup
  | .ackCommit _ =>
      ∀ a version, (alerts a).held = some (t, version) →
        ∃ old row, (alerts a).committed = some old ∧ version = some row ∧
          row.severity = old.severity
  | _ => ∀ a version, (alerts a).held ≠ some (t, version)

/-- A request about to broadcast these. -/
def Pc.pending : Pc → List Entry
  | .publish todo => todo
  | _ => []

section Rows

variable {alerts alerts' : Rows Nat Nat Alert} {minted minted' t : Nat} {now : Int}

theorem possible_none (node : Nat) : ¬ Possible node (.settled none) := by
  rintro (committed | ⟨t, version, held, _⟩)
  · cases committed
  · cases held

theorem Sound.drawn (sound : Sound alerts minted) {node a : Nat}
    (possible : Possible node (alerts a)) : a < minted := by
  by_contra undrawn
  rw [sound.undrawn a (by omega)] at possible
  exact possible_none node possible

theorem Made.framed {t' : Nat} {e : Entry} (made : Made alerts t' e)
    (framed : Framed t alerts alerts') (different : t' ≠ t) : Made alerts' t' e := by
  obtain ⟨row, held, rest⟩ := made
  have same := framed.keeps different held
  exact ⟨row, by rw [same, held], by rw [same]; exact rest⟩

theorem Pc.Holds.framed {t' : Nat} {pc : Pc} (holds : pc.Holds alerts t')
    (framed : Framed t alerts alerts') (different : t' ≠ t) : pc.Holds alerts' t' := by
  have before : ∀ a version, (alerts' a).held = some (t', version) →
      (alerts a).held = some (t', version) ∧ alerts' a = alerts a :=
        fun _ _ held => framed.held_before different held
  cases pc with
  | upsert todo entries =>
      obtain ⟨only, made, nodes⟩ := holds
      exact ⟨fun a version held => only a version (before a version held).1,
        fun e member => (made e member).framed framed different, nodes⟩
  | ackCommit alert =>
      intro a version held
      obtain ⟨held, same⟩ := before a version held
      rw [same]
      exact holds a version held
  | idle => exact fun a version held => holds a version (before a version held).1
  | publish todo => exact fun a version held => holds a version (before a version held).1
  | ackLoad alert user => exact fun a version held => holds a version (before a version held).1
  | ackUpdate alert user => exact fun a version held => holds a version (before a version held).1
  | done => exact fun a version held => holds a version (before a version held).1

/-- A commit opens no alert that was not possible already. -/
theorem possible_of_commit {node a : Nat} (possible : Possible node (commit alerts t a)) :
    Possible node (alerts a) := by
  rcases commit_cases alerts t a with ⟨value, held, settled⟩ | ⟨_, same⟩
  · rw [settled] at possible
    rcases possible with committed | ⟨_, _, holder, _⟩
    · exact Or.inr ⟨t, value, held, committed⟩
    · cases holder
  · rw [same] at possible
    exact possible

theorem possible_of_rollback {node a : Nat} (possible : Possible node (rollback alerts t a)) :
    Possible node (alerts a) := by
  rcases possible with committed | ⟨t', version, held, rest⟩
  · rw [committed_rollback] at committed
    exact Or.inl committed
  · exact Or.inr ⟨t', version, (held_rollback held).2, rest⟩

theorem Sound.commit (sound : Sound alerts minted) (t : Nat) :
    Sound (RowStore.commit alerts t) minted where
  held := fun a t' version held => by
    obtain ⟨_, before, same⟩ := held_commit held
    rw [same]
    exact sound.held a t' version before
  undrawn := fun a undrawn => by
    have fresh := sound.undrawn a undrawn
    rw [commit_of_not_held (by simp [fresh, Row.settled]), fresh]
  unique := fun node a b first second =>
    sound.unique node a b (possible_of_commit first) (possible_of_commit second)

theorem Sound.rollback (sound : Sound alerts minted) (t : Nat) :
    Sound (RowStore.rollback alerts t) minted where
  held := fun a t' version held => by
    rw [committed_rollback]
    exact sound.held a t' version (held_rollback held).2
  undrawn := fun a undrawn => by
    have fresh := sound.undrawn a undrawn
    rw [rollback_of_not_held (by simp [fresh, Row.settled]), fresh]
  unique := fun node a b first second =>
    sound.unique node a b (possible_of_rollback first) (possible_of_rollback second)

/-- `t` replaces its view of a stored alert by a version that is open only where it was. -/
theorem Sound.put {a : Nat} {row new : Alert} (sound : Sound alerts minted)
    (stored : (alerts a).committed = some row) (node : new.nodeId = row.nodeId)
    (rises : row.severity.rank ≤ new.severity.rank)
    (opens : new.acknowledgedAt = none → row.acknowledgedAt = none) :
    Sound (put alerts t a (some new)) minted where
  held := fun b t' version held => by
    rw [committed_put]
    rcases held_put held with ⟨rfl, _, rfl⟩ | ⟨_, before⟩
    · refine ⟨new, rfl, ?_⟩
      intro old same
      rw [stored] at same
      cases same
      exact ⟨node, rises, opens⟩
    · exact sound.held b t' version before
  undrawn := fun b undrawn => by
    have fresh := sound.undrawn b undrawn
    have away : b ≠ a := by
      rintro rfl
      rw [fresh] at stored
      cases stored
    rw [put_of_ne away, fresh]
  unique := fun n b c first second => by
    have back : ∀ d, Possible n (RowStore.put alerts t a (some new) d) → Possible n (alerts d) := by
      intro d possible
      rcases possible with committed | ⟨t', version, held, openVersion⟩
      · rw [committed_put] at committed
        exact Or.inl committed
      · rcases held_put held with ⟨rfl, _, rfl⟩ | ⟨_, before⟩
        · apply Or.inl
          rw [Option.any_some, Alert.openFor_iff] at openVersion
          rw [stored, Option.any_some, Alert.openFor_iff]
          exact ⟨node.symm.trans openVersion.1, opens openVersion.2⟩
        · exact Or.inr ⟨t', version, before, openVersion⟩
    exact sound.unique n b c (back b first) (back c second)

/-- `t` inserts the node's alert where no other is possible. -/
theorem Sound.insert {new : Alert} (sound : Sound alerts minted)
    (only : ∀ a, ¬ Possible new.nodeId (alerts a)) :
    Sound (RowStore.put alerts t minted (some new)) (minted + 1) where
  held := fun b t' version held => by
    rw [committed_put]
    rcases held_put held with ⟨rfl, _, rfl⟩ | ⟨_, before⟩
    · refine ⟨new, rfl, ?_⟩
      intro old stored
      rw [sound.undrawn _ (Nat.le_refl _)] at stored
      cases stored
    · exact sound.held b t' version before
  undrawn := fun b undrawn => by
    rw [put_of_ne (by omega)]
    exact sound.undrawn b (by omega)
  unique := fun n b c first second => by
    have back : ∀ d, Possible n (RowStore.put alerts t minted (some new) d) →
        Possible n (alerts d) ∨ (d = minted ∧ n = new.nodeId) := by
      intro d possible
      rcases possible with committed | ⟨t', version, held, openVersion⟩
      · rw [committed_put] at committed
        exact Or.inl (Or.inl committed)
      · rcases held_put held with ⟨rfl, _, rfl⟩ | ⟨_, before⟩
        · rw [Option.any_some, Alert.openFor_iff] at openVersion
          exact Or.inr ⟨rfl, openVersion.1.symm⟩
        · exact Or.inl (Or.inr ⟨t', version, before, openVersion⟩)
    rcases back b first with before | ⟨rfl, here⟩ <;> rcases back c second with before' |
      ⟨rfl, here'⟩
    · exact sound.unique n b c before before'
    · exact absurd (here' ▸ before) (only b)
    · exact absurd (here ▸ before') (only c)
    · rfl

/-! ## The upsert -/

theorem conflict_some {node a : Nat} {row : Alert}
    (found : conflict alerts minted t node = some (a, row)) :
    a < minted ∧ (alerts a).read t = some row ∧ row.openFor node = true := by
  obtain ⟨b, member, same⟩ := List.exists_of_findSome?_eq_some found
  obtain ⟨row', seen, pair⟩ := Option.map_eq_some_iff.mp same
  cases pair
  obtain ⟨seen, isOpen⟩ := Option.filter_eq_some_iff.mp seen
  exact ⟨List.mem_range.mp member, seen, isOpen⟩

theorem conflict_none {node a : Nat} {row : Alert} (none : conflict alerts minted t node = none)
    (drawn : a < minted) (seen : (alerts a).read t = some row) : row.openFor node = false := by
  have unmatched := List.findSome?_eq_none_iff.mp none a (List.mem_range.mpr drawn)
  rw [Option.map_eq_none_iff, Option.filter_eq_none_iff] at unmatched
  simpa using unmatched row seen

/-- A row that does not block the upsert is not another transaction's, as far as it matters. -/
theorem not_blocks {node a t' : Nat} {version : Option Alert}
    (free : blocks alerts t node a = false) (held : (alerts a).held = some (t', version))
    (different : t' ≠ t) :
    (alerts a).committed.any (·.openFor node) = false ∧ version.any (·.openFor node) = false := by
  simpa [blocks, held, different] using free

/-- A run holds the open version of what it holds. -/
theorem Made.open {e : Entry} (made : Made alerts t e) :
    ∃ row, (alerts e.alert).read t = some row ∧ row.openFor e.breach.nodeId = true := by
  obtain ⟨row, held, node, isOpen, _⟩ := made
  exact ⟨row, Row.read_of_held held, (Alert.openFor_iff _ _).mpr ⟨node, isOpen⟩⟩

/-- With no conflict, the node has no alert that could be open. -/
theorem impossible_of_no_conflict {breach : Breach} {todo : List Breach} {entries : List Entry}
    (sound : Sound alerts minted) (holds : Pc.Holds alerts t (.upsert (breach :: todo) entries))
    (free : ∀ a < minted, blocks alerts t breach.nodeId a = false)
    (none : conflict alerts minted t breach.nodeId = none) (a : Nat) :
    ¬ Possible breach.nodeId (alerts a) := by
  intro possible
  have drawn := sound.drawn possible
  rcases Row.read_cases t (alerts a) with held | ⟨others, same⟩
  · -- a row that the run holds is open for another node
    obtain ⟨e, member, rfl⟩ := holds.1 a _ held
    obtain ⟨row, seen, isOpen⟩ := (holds.2.1 e member).open
    have closed := conflict_none none drawn seen
    have node := ((Alert.openFor_iff _ _).mp isOpen).1
    rcases possible with committed | ⟨t', version, holder, openVersion⟩
    · obtain ⟨old, stored, openOld⟩ := (Option.any_eq_true _ _).mp committed
      obtain ⟨row', version, overwrites⟩ := sound.held _ _ _ held
      rw [seen] at version
      cases version
      have sameNode := (overwrites old stored).1.trans ((Alert.openFor_iff _ _).mp openOld).1
      rw [← sameNode, node, isOpen] at closed
      cases closed
    · rw [held] at holder
      cases holder
      rw [seen, Option.any_some, closed] at openVersion
      cases openVersion
  · rcases possible with committed | ⟨t', version, holder, openVersion⟩
    · obtain ⟨old, stored, openOld⟩ := (Option.any_eq_true _ _).mp committed
      have closed := conflict_none none drawn (same.trans stored)
      rw [closed] at openOld
      cases openOld
    · have different : t' ≠ t := fun here => others version (here ▸ holder)
      have closed := (not_blocks (free a drawn) holder different).2
      rw [closed] at openVersion
      cases openVersion

/-- What one upsert leaves behind. -/
structure Upserted (alerts : Rows Nat Nat Alert) (minted t : Nat) (breach : Breach)
    (alerts' : Rows Nat Nat Alert) (minted' : Nat) (e : Entry) : Prop where
  sound : Sound alerts' minted'
  framed : Framed t alerts alerts'
  committed : ∀ a, (alerts' a).committed = (alerts a).committed
  breach : e.breach = breach
  made : Made alerts' t e
  fresh : ∀ version, (alerts e.alert).held ≠ some (t, version)
  others : ∀ a, a ≠ e.alert → alerts' a = alerts a

theorem upserted {breach : Breach} {todo : List Breach} {entries : List Entry} {e : Entry}
    (sound : Sound alerts minted) (holds : Pc.Holds alerts t (.upsert (breach :: todo) entries))
    (ran : upsertAlert alerts minted t now breach = some (alerts', minted', e)) :
    Upserted alerts minted t breach alerts' minted' e := by
  unfold upsertAlert at ran
  split at ran
  · cases ran
  · rename_i unblocked
    have free : ∀ a < minted, blocks alerts t breach.nodeId a = false := by
      intro a drawn
      by_contra blocked
      exact unblocked (List.any_eq_true.mpr ⟨a, List.mem_range.mpr drawn, by simpa using blocked⟩)
    split at ran
    · rename_i none
      cases ran
      have fresh := sound.undrawn minted (Nat.le_refl _)
      exact
        { sound := sound.insert (impossible_of_no_conflict sound holds free none)
          framed := framed_put _ (by simp [Row.FreeFor, fresh, Row.settled])
          committed := fun a => committed_put _ _ _ _ _
          breach := rfl
          made := ⟨breach.insert now,
            by simp, rfl, rfl, Or.inl ⟨rfl, rfl, by simp [fresh, Row.settled]⟩⟩
          fresh := by simp [fresh, Row.settled]
          others := fun a away => put_of_ne away }
    · rename_i a row found
      obtain ⟨drawn, seen, isOpen⟩ := conflict_some found
      obtain ⟨node, unacknowledged⟩ := (Alert.openFor_iff _ _).mp isOpen
      -- the run does not hold the row: it has upserted only other nodes
      have notOwn : ∀ version, (alerts a).held ≠ some (t, version) := by
        intro version held
        obtain ⟨e', member, rfl⟩ := holds.1 a version held
        obtain ⟨row', seen', isOpen'⟩ := (holds.2.1 e' member).open
        rw [seen] at seen'
        cases seen'
        have sameNode : breach.nodeId = e'.breach.nodeId :=
          node.symm.trans ((Alert.openFor_iff _ _).mp isOpen').1
        have apart :=
          (List.nodup_append.mp holds.2.2).2.2 e'.breach.nodeId (List.mem_map_of_mem member)
            breach.nodeId (by simp)
        exact apart sameNode.symm
      have stored : (alerts a).committed = some row := (Row.read_of_not_held notOwn).symm.trans seen
      have unheld : (alerts a).FreeFor t := by
        intro holder held
        by_contra different
        have closed := (not_blocks (free a drawn) (by rw [held]) different).1
        rw [stored, Option.any_some, isOpen] at closed
        cases closed
      split at ran
      · rename_i outranks
        cases ran
        exact
          { sound := sound.put stored rfl (Nat.le_of_lt outranks) id
            framed := framed_put _ unheld
            committed := fun a => committed_put _ _ _ _ _
            breach := rfl
            made := ⟨breach.upgrade now row, by simp, node, unacknowledged,
              Or.inl ⟨rfl, rfl, fun old same => by
                rw [committed_put, stored] at same
                cases same
                exact outranks⟩⟩
            fresh := notOwn
            others := fun a away => put_of_ne away }
      · rename_i suppressed
        cases ran
        exact
          { sound := sound.put stored rfl (Nat.le_refl _) id
            framed := framed_put _ unheld
            committed := fun a => committed_put _ _ _ _ _
            breach := rfl
            made := ⟨row, by simp, node, unacknowledged,
              Or.inr ⟨rfl, by rw [committed_put, stored], Nat.le_of_not_lt suppressed⟩⟩
            fresh := notOwn
            others := fun a away => put_of_ne away }

/-- The loop goes on with one more entry. -/
theorem Upserted.holds {breach : Breach} {todo : List Breach} {entries : List Entry} {e : Entry}
    (upserted : Upserted alerts minted t breach alerts' minted' e)
    (holds : Pc.Holds alerts t (.upsert (breach :: todo) entries)) :
    Pc.Holds alerts' t (.upsert todo (entries ++ [e])) := by
  obtain ⟨only, made, nodes⟩ := holds
  refine ⟨?_, ?_, ?_⟩
  · intro a version held
    by_cases here : a = e.alert
    · exact ⟨e, by simp, here.symm⟩
    · rw [upserted.others a here] at held
      obtain ⟨e', member, same⟩ := only a version held
      exact ⟨e', by simp [member], same⟩
  · intro e' member
    rcases List.mem_append.mp member with earlier | now
    · obtain ⟨row, held, rest⟩ := made e' earlier
      have away : e'.alert ≠ e.alert := fun same => upserted.fresh (some row) (same ▸ held)
      exact ⟨row, by rw [upserted.others _ away, held], by rw [upserted.others _ away]; exact rest⟩
    · rw [List.mem_singleton] at now
      exact now ▸ upserted.made
  · simpa [upserted.breach] using nodes

end Rows

/-! ## One step -/

/-- The steps, one by one. -/
inductive Taken (s : State) : Act → State → Prop
  | checks (t : Nat) (warning critical : PyFloat) (latest : List (Nat × Rat))
  (here : s.pcs t = .idle)
      (distinct : (latest.map Prod.fst).Nodup) :
      Taken s (.check t warning critical latest)
        (s.go t (.upsert (breaches warning critical latest) []))
  | arrives (t alert user : Nat) (here : s.pcs t = .idle) :
      Taken s (.acknowledge t alert user) (s.go t (.ackLoad alert user))
  | upserts (t : Nat) (now : Int) (breach : Breach) (todo : List Breach) (entries : List Entry)
      (alerts' : Rows Nat Nat Alert) (minted' : Nat) (e : Entry)
      (here : s.pcs t = .upsert (breach :: todo) entries)
      (upserting : upsertAlert s.alerts s.minted t now breach = some (alerts', minted', e)) :
      Taken s (.advance t now) { (s.go t (.upsert todo (entries ++ [e]))) with
        alerts := alerts', minted := minted' }
  | commits (t : Nat) (now : Int) (entries : List Entry) (here : s.pcs t = .upsert [] entries) :
      Taken s (.advance t now) (s.commitRun t entries)
  | publishes (t : Nat) (now : Int) (entry : Entry) (todo : List Entry)
  (here : s.pcs t = .publish (entry :: todo)) :
      Taken s (.advance t now) (s.publish t entry todo)
  | ends (t : Nat) (now : Int) (here : s.pcs t = .publish []) :
      Taken s (.advance t now) (s.go t .done)
  /-- A 404, or an alert that is acknowledged already. -/
  | answers (t : Nat) (now : Int) (alert user : Nat) (here : s.pcs t = .ackLoad alert user)
      (closed : ∀ row, (s.alerts alert).read t = some row → row.acknowledgedAt ≠ none) :
      Taken s (.advance t now) (s.go t .done)
  | loads (t : Nat) (now : Int) (alert user : Nat) (row : Alert)
  (here : s.pcs t = .ackLoad alert user)
      (seen : (s.alerts alert).read t = some row) (unacknowledged : row.acknowledgedAt = none) :
      Taken s (.advance t now) (s.go t (.ackUpdate alert user))
  | writes (t : Nat) (now : Int) (alert user : Nat) (row : Alert)
  (here : s.pcs t = .ackUpdate alert user)
      (free : (s.alerts alert).FreeFor t) (seen : (s.alerts alert).read t = some row) :
      Taken s (.advance t now)
        { (s.go t (.ackCommit alert)) with
          alerts := put s.alerts t alert (some (row.acknowledge user now)) }
  | misses (t : Nat) (now : Int) (alert user : Nat) (here : s.pcs t = .ackUpdate alert user) :
      Taken s (.advance t now) { (s.go t .done) with alerts := rollback s.alerts t }
  | acknowledges (t : Nat) (now : Int) (alert : Nat) (here : s.pcs t = .ackCommit alert) :
      Taken s (.advance t now) { (s.go t .done) with alerts := commit s.alerts t }
  | aborts (t : Nat) (unpublished : ∀ todo, s.pcs t ≠ .publish todo) :
      Taken s (.abort t) { (s.go t .done) with alerts := rollback s.alerts t }

theorem taken_of_step {s s' : State} {act : Act} (ran : step s act = some s') : Taken s act s' := by
  cases act with
  | check t warning critical latest =>
      simp only [step] at ran
      split at ran
      · rename_i here
        split at ran
        · rename_i distinct
          cases ran
          exact .checks t warning critical latest here distinct
        · cases ran
      · cases ran
  | acknowledge t alert user =>
      simp only [step] at ran
      split at ran
      · rename_i here
        cases ran
        exact .arrives t alert user here
      · cases ran
  | advance t now =>
      simp only [step] at ran
      split at ran
      · rename_i breach todo entries here
        obtain ⟨⟨alerts', minted', e⟩, upserting, same⟩ := Option.map_eq_some_iff.mp ran
        cases same
        exact .upserts t now breach todo entries alerts' minted' e here upserting
      · rename_i entries here
        cases ran
        exact .commits t now entries here
      · rename_i entry todo here
        cases ran
        exact .publishes t now entry todo here
      · rename_i here
        cases ran
        exact .ends t now here
      · rename_i alert user here
        split at ran
        · rename_i missing
          cases ran
          exact .answers t now alert user here fun row seen => by rw [missing] at seen; cases seen
        · rename_i row seen
          split at ran
          · rename_i unacknowledged
            cases ran
            exact .loads t now alert user row here seen
              (Option.isNone_iff_eq_none.mp unacknowledged)
          · rename_i acknowledged
            cases ran
            refine .answers t now alert user here fun row' seen' null => acknowledged ?_
            rw [seen] at seen'
            cases seen'
            exact Option.isNone_iff_eq_none.mpr null
      · rename_i alert user here
        obtain ⟨⟨alerts', out⟩, visited, same⟩ := Option.map_eq_some_iff.mp ran
        obtain ⟨free, ⟨row, seen, _, rfl, rfl⟩ | ⟨rfl, rfl, _⟩⟩ := updateRow_cases visited
        · cases same
          exact .writes t now alert user row here free seen
        · cases same
          exact .misses t now alert user here
      · rename_i alert here
        cases ran
        exact .acknowledges t now alert here
      · cases ran
      · cases ran
  | abort t =>
      simp only [step] at ran
      split at ran
      · cases ran
      · rename_i unpublished
        cases ran
        exact .aborts t unpublished

structure Inv (s : State) : Prop where
  sound : Sound s.alerts s.minted
  holds : ∀ t, (s.pcs t).Holds s.alerts t

/-- What a step does, as far as the table, the history and the broadcasts go. -/
inductive Move (s s' : State) : Prop
  /-- Nothing is committed and nothing broadcast. -/
  | quiet (t : Nat) (pc' : Pc) (alerts' : Rows Nat Nat Alert) (minted' : Nat)
  (sound : Sound alerts' minted')
      (holds : pc'.Holds alerts' t) (framed : Framed t s.alerts alerts')
      (committed : ∀ a, (alerts' a).committed = (s.alerts a).committed)
      (before : (s.pcs t).pending = []) (after : pc'.pending = [])
      (same : s' = { (s.go t pc') with alerts := alerts', minted := minted' })
  /-- A run commits, and goes on to publish what it raised. -/
  | run (t : Nat) (entries : List Entry) (at_commit : s.pcs t = .upsert [] entries)
      (same : s' = s.commitRun t entries)
  | publish (t : Nat) (entry : Entry) (todo : List Entry)
  (at_publish : s.pcs t = .publish (entry :: todo))
      (same : s' = s.publish t entry todo)
  | acknowledge (t alert : Nat) (at_commit : s.pcs t = .ackCommit alert)
      (same : s' = { (s.go t .done) with alerts := commit s.alerts t })

/-- A request that holds nothing goes on, and holds nothing. -/
theorem Move.still {s : State} (inv : Inv s) (t : Nat) (pc' : Pc)
    (before : (s.pcs t).pending = []) (after : pc'.pending = []) (holds : pc'.Holds s.alerts t) :
    Move s (s.go t pc') :=
  .quiet t pc' s.alerts s.minted inv.sound holds (framed_refl t s.alerts)
    (fun _ => rfl) before after rfl

theorem Move.rollback {s : State} (inv : Inv s) (t : Nat) (before : (s.pcs t).pending = []) :
    Move s { (s.go t .done) with alerts := RowStore.rollback s.alerts t } :=
  .quiet t .done _ s.minted (inv.sound.rollback t) (fun _ _ held => (held_rollback held).1 rfl)
    (framed_rollback t s.alerts) (committed_rollback s.alerts t) before rfl rfl

theorem move_of_step {s s' : State} {act : Act} (inv : Inv s) (ran : step s act = some s') :
    Move s s' := by
  have still {t : Nat} {pc pc' : Pc} (here : s.pcs t = pc) (before : pc.pending =
      []) (after : pc'.pending = [])
      (holds : pc.Holds s.alerts t → pc'.Holds s.alerts t) : Move s (s.go t pc') :=
    .still inv t pc' (by rw [here]; exact before) after (holds (here ▸ inv.holds t))
  cases taken_of_step ran with
  | checks t warning critical latest here distinct =>
      refine still here rfl rfl fun free =>
        ⟨fun a version held => absurd held (free a version), ?_, ?_⟩
      · exact fun e member => by cases member
      · simpa using breaches_nodup warning critical distinct
  | arrives t alert user here => exact still here rfl rfl id
  | upserts t now breach todo entries alerts' minted' e here upserting =>
      have holds := inv.holds t
      rw [here] at holds
      have upserted := upserted inv.sound holds upserting
      exact .quiet t _ alerts' minted' upserted.sound
        (upserted.holds holds) upserted.framed upserted.committed
        (by rw [here]; rfl) rfl rfl
  | commits t now entries here => exact .run t entries here rfl
  | publishes t now entry todo here => exact .publish t entry todo here rfl
  | ends t now here => exact still here rfl rfl id
  | answers t now alert user here closed => exact still here rfl rfl id
  | loads t now alert user row here seen unacknowledged => exact still here rfl rfl id
  | writes t now alert user row here free seen =>
      have holds := inv.holds t
      rw [here] at holds
      have stored : (s.alerts alert).committed = some row :=
        (Row.read_of_not_held (holds alert)).symm.trans seen
      have notNull : (row.acknowledge user now).acknowledgedAt ≠ none := Option.some_ne_none now
      have only : Pc.Holds (put s.alerts t alert (some (row.acknowledge user now))) t
          (.ackCommit alert) := by
        intro a version held
        rw [committed_put]
        rcases held_put held with ⟨rfl, _, rfl⟩ | ⟨_, before⟩
        · exact ⟨row, _, stored, rfl, rfl⟩
        · exact absurd before (holds a version)
      have sound : Sound (put s.alerts t alert (some (row.acknowledge user now))) s.minted :=
        inv.sound.put stored rfl (Nat.le_refl _) fun null => absurd null notNull
      exact .quiet t (.ackCommit alert) _ s.minted sound only (framed_put _ free)
        (fun a => committed_put _ _ _ _ _) (by rw [here]; rfl) rfl rfl
  | misses t now alert user here => exact .rollback inv t (by rw [here]; rfl)
  | acknowledges t now alert here => exact .acknowledge t alert here rfl
  | aborts t unpublished =>
      refine .rollback inv t ?_
      cases here : s.pcs t with
      | publish todo => exact absurd here (unpublished todo)
      | _ => rfl

/-! ## What the rows keep -/

theorem go_pcs_self (s : State) (t : Nat) (pc : Pc) : (s.go t pc).pcs t = pc := by simp [State.go]

theorem go_pcs_of_ne {s : State} {t t' : Nat} (pc : Pc) (different : t' ≠ t) :
    (s.go t pc).pcs t' = s.pcs t' := by
  simp [State.go, different]

theorem Inv.move {s s' : State} (inv : Inv s) (move : Move s s') : Inv s' := by
  have frame : ∀ (t : Nat) (pc' : Pc) (alerts' : Rows Nat Nat Alert), Framed t s.alerts alerts' →
      pc'.Holds alerts' t → ∀ t', ((s.go t pc').pcs t').Holds alerts' t' := by
    intro t pc' alerts' framed holds t'
    by_cases same : t' = t
    · subst same
      rw [go_pcs_self]
      exact holds
    · rw [go_pcs_of_ne pc' same]
      exact (inv.holds t').framed framed same
  have released : ∀ t a version, (RowStore.commit s.alerts t a).held ≠ some (t, version) :=
    fun t a version held => (held_commit held).1 rfl
  cases move with
  | quiet t pc' alerts' minted' sound holds framed committed before after same =>
      subst same
      exact ⟨sound, frame t pc' alerts' framed holds⟩
  | run t entries at_commit same =>
      subst same
      exact ⟨inv.sound.commit t, frame t _ _ (framed_commit t s.alerts) (released t)⟩
  | publish t entry todo at_publish same =>
      subst same
      have holds := inv.holds t
      rw [at_publish] at holds
      exact ⟨inv.sound, frame t _ _ (framed_refl t s.alerts) holds⟩
  | acknowledge t alert at_commit same =>
      subst same
      exact ⟨inv.sound.commit t, frame t _ _ (framed_commit t s.alerts) (released t)⟩

theorem inv_start {s : State} (starts : Start s) : Inv s where
  sound :=
    { held := fun a t version held => by
        rw [starts.free a] at held
        cases held
      undrawn := fun a undrawn => by
        have free := starts.free a
        have missing := starts.undrawn a undrawn
        cases row : s.alerts a
        rw [row] at free missing
        cases free
        cases missing
        rfl
      unique := fun node a b first second => by
        have stored : ∀ c, Possible node (s.alerts c) →
            (s.alerts c).committed.any (·.openFor node) = true := by
          rintro c (committed | ⟨t, version, held, _⟩)
          · exact committed
          · rw [starts.free c] at held
            cases held
        exact starts.unique node a b (stored a first) (stored b second) }
  holds := fun t => by
    rw [starts.pcs t]
    intro a version held
    rw [starts.free a] at held
    cases held

/-- What one step leaves of a stored alert: its node, no lower severity, and its
acknowledgement. -/
theorem Move.stored {s s' : State} (move : Move s s') (inv : Inv s) {a : Nat} {old : Alert}
    (stored : (s.alerts a).committed = some old) :
    ∃ row, (s'.alerts a).committed = some row ∧ row.nodeId = old.nodeId ∧
      old.severity.rank ≤ row.severity.rank ∧
        (row.acknowledgedAt = none → old.acknowledgedAt = none) := by
  have commits : ∀ t, ∃ row, (RowStore.commit s.alerts t a).committed = some row ∧
      row.nodeId = old.nodeId ∧
      old.severity.rank ≤ row.severity.rank ∧
        (row.acknowledgedAt = none → old.acknowledgedAt = none) := by
    intro t
    rcases commit_cases s.alerts t a with ⟨value, held, settled⟩ | ⟨_, same⟩
    · obtain ⟨row, rfl, overwrites⟩ := inv.sound.held a t value held
      exact ⟨row, by rw [settled, Row.settled], overwrites old stored⟩
    · exact ⟨old, by rw [same, stored], rfl, Nat.le_refl _, id⟩
  cases move with
  | quiet t pc' alerts' minted' sound holds framed committed before after same =>
      subst same
      exact ⟨old, (committed a).trans stored, rfl, Nat.le_refl _, id⟩
  | run t entries at_commit same =>
      subst same
      exact commits t
  | publish t entry todo at_publish same =>
      subst same
      exact ⟨old, stored, rfl, Nat.le_refl _, id⟩
  | acknowledge t alert at_commit same =>
      subst same
      exact commits t

end Empyrean.Alerts
