/-
# Empyrean.Alerts.Escalation — an open alert only rises, and each rise is broadcast once

Whatever runs of `check_thresholds` and acknowledgements interleave:

* a node has at most one unacknowledged alert, and it has the highest severity of the
  breaches committed for it so far;
* the severities it was raised to are strictly increasing in the order of the commits;
* each of them is broadcast at most once, after its commit, and none is lost
  (`escalation_of_reach`).

The broadcasts come after the transactions, so those of two runs can overtake each
other: `critical_before_warning` is a run in which the upgrade is published first.

* `Recorded` — the history agrees with the rows.
* `Broadcast` — every rise is either published or on the list of one run.
-/
import Empyrean.Alerts.OneOpen
import Mathlib.Data.List.Nodup

namespace Empyrean.Alerts

set_option autoImplicit false

open Empyrean.Theory Empyrean.Theory.RowStore Empyrean.Theory.PyNumeral Empyrean.Theory.Runs

/-! ## What the history says of the rows -/

structure Recorded (s : State) : Prop where
  severity : ∀ a row, (s.alerts a).committed = some row →
    row.severity ∈ s.history.breaches a ∧ ∀ sev ∈ s.history.breaches a, sev.rank ≤ row.severity.rank
  absent : ∀ a, (s.alerts a).committed = none → s.history.breaches a = []
  rising : ∀ a, (s.history.raised a).Pairwise fun sev sev' => sev.rank < sev'.rank
  raised : ∀ a, ∀ sev ∈ s.history.raised a, sev ∈ s.history.breaches a

theorem mem_severitiesOf {entries : List Entry} {a : Nat} {sev : Severity} :
    sev ∈ severitiesOf entries a ↔ ∃ e ∈ entries, e.alert = a ∧ e.breach.severity = sev := by
  simp [severitiesOf, and_assoc]

section Commit

variable {s : State} {t : Nat} {entries : List Entry}

/-- Two upserts of a run are at different alerts. -/
theorem entry_unique (holds : Pc.Holds s.alerts t (.upsert [] entries)) {e e' : Entry}
    (member : e ∈ entries) (member' : e' ∈ entries) (same : e.alert = e'.alert) : e = e' := by
  obtain ⟨_, made, nodes⟩ := holds
  obtain ⟨row, held, node, _⟩ := made e member
  obtain ⟨row', held', node', _⟩ := made e' member'
  rw [← same, held] at held'
  cases held'
  rw [List.map_nil, List.append_nil] at nodes
  exact List.inj_on_of_nodup_map nodes member member' (node.symm.trans node')

theorem entries_nodup (holds : Pc.Holds s.alerts t (.upsert [] entries)) : entries.Nodup := by
  have nodes := holds.2.2
  rw [List.map_nil, List.append_nil] at nodes
  exact nodes.of_map

/-- A severity that a run raises an alert to is above everything committed for it. -/
theorem Recorded.below_raise (recorded : Recorded s) {e : Entry} (made : Made s.alerts t e)
    (raised : e.raised = true) :
    ∀ sev ∈ s.history.breaches e.alert, sev.rank < e.breach.severity.rank := by
  intro sev member
  obtain ⟨row, _, _, _, ⟨_, severity, above⟩ | ⟨suppressed, _⟩⟩ := made
  · cases stored : (s.alerts e.alert).committed with
    | none =>
        rw [recorded.absent _ stored] at member
        cases member
    | some old =>
        have atMost := (recorded.severity _ old stored).2 sev member
        rw [← severity]
        exact Nat.lt_of_le_of_lt atMost (above old stored)
  · rw [suppressed] at raised
    cases raised

/-- A run says nothing of the rows it does not hold. -/
theorem severitiesOf_eq_nil (holds : Pc.Holds s.alerts t (.upsert [] entries)) {a : Nat}
    (others : ∀ version, (s.alerts a).held ≠ some (t, version)) : severitiesOf entries a = [] := by
  apply List.eq_nil_iff_forall_not_mem.mpr
  intro sev member
  obtain ⟨e, among, rfl, _⟩ := mem_severitiesOf.mp member
  obtain ⟨row, held, _⟩ := holds.2.1 e among
  exact others _ held

/-- The version that a run leaves has the highest severity that was ever committed for it, the
run's own upserts included. -/
theorem Recorded.written (recorded : Recorded s) (inv : Inv s)
    (holds : Pc.Holds s.alerts t (.upsert [] entries)) {e : Entry} (member : e ∈ entries)
    {row : Alert} (held : (s.alerts e.alert).held = some (t, some row)) :
    row.severity ∈ s.history.breaches e.alert ++ severitiesOf entries e.alert ∧
      ∀ sev ∈ s.history.breaches e.alert ++ severitiesOf entries e.alert, sev.rank ≤
        row.severity.rank := by
  have version : ∀ e' ∈ entries, e'.alert = e.alert →
      (e'.raised = true ∧ row.severity = e'.breach.severity) ∨
        ((s.alerts e.alert).committed = some row ∧
          e'.breach.severity.rank ≤ row.severity.rank) := by
    intro e' member' here
    obtain ⟨row', held', _, _, left⟩ := holds.2.1 e' member'
    rw [here] at held' left
    rw [held] at held'
    cases held'
    rcases left with ⟨raised, severity, _⟩ | ⟨_, unchanged, atMost⟩
    · exact Or.inl ⟨raised, severity⟩
    · exact Or.inr ⟨unchanged, atMost⟩
  constructor
  · rcases version e member rfl with ⟨_, severity⟩ | ⟨unchanged, _⟩
    · exact List.mem_append_right _ (mem_severitiesOf.mpr ⟨e, member, rfl, severity.symm⟩)
    · exact List.mem_append_left _ (recorded.severity _ row unchanged).1
  · intro sev member'
    rcases List.mem_append.mp member' with earlier | now
    · obtain ⟨row', same, overwrites⟩ := inv.sound.held _ _ _ held
      cases same
      cases stored : (s.alerts e.alert).committed with
      | none =>
          rw [recorded.absent _ stored] at earlier
          cases earlier
      | some old =>
          have atMost := (recorded.severity _ old stored).2 sev earlier
          exact Nat.le_trans atMost (overwrites old stored).2.1
    · obtain ⟨e', among, here, rfl⟩ := mem_severitiesOf.mp now
      rcases version e' among here with ⟨_, severity⟩ | ⟨_, atMost⟩
      · rw [severity]
      · exact atMost

theorem Recorded.commit (recorded : Recorded s) (inv : Inv s)
    (at_commit : s.pcs t = .upsert [] entries) : Recorded (s.commitRun t entries) := by
  have holds := inv.holds t
  rw [at_commit] at holds
  refine ⟨?_, ?_, ?_, ?_⟩
  · intro a row stored
    rw [commitRun_alerts] at stored
    simp only [commitRun_breaches]
    rcases commit_cases s.alerts t a with ⟨value, held, settled⟩ | ⟨others, same⟩
    · obtain ⟨e, member, rfl⟩ := holds.1 a value held
      simp only [settled, Row.settled] at stored
      subst stored
      exact recorded.written inv holds member held
    · rw [severitiesOf_eq_nil holds others, List.append_nil]
      exact recorded.severity a row (by rw [← same]; exact stored)
  · intro a missing
    rw [commitRun_alerts] at missing
    rw [commitRun_breaches]
    rcases commit_cases s.alerts t a with ⟨value, held, settled⟩ | ⟨others, same⟩
    · obtain ⟨row, rfl, _⟩ := inv.sound.held a t value held
      simp only [settled, Row.settled] at missing
      cases missing
    · rw [severitiesOf_eq_nil holds others, List.append_nil]
      exact recorded.absent a (by rw [← same]; exact missing)
  · intro a
    rw [commitRun_raised]
    refine List.pairwise_append.mpr ⟨recorded.rising a, ?_, ?_⟩
    · -- the run has at most one upsert at this alert
      rw [severitiesOf, List.pairwise_map]
      have distinct : ((entries.filter (·.raised)).filter fun e => decide (e.alert = a)).Nodup :=
        ((entries_nodup holds).filter _).filter _
      refine distinct.imp_of_mem fun {e e'} member member' different => ?_
      simp only [List.mem_filter, decide_eq_true_eq] at member member'
      exact absurd (entry_unique holds member.1.1 member'.1.1 (member.2.trans member'.2.symm)) different
    · intro sev earlier sev' now
      obtain ⟨e, member, rfl, rfl⟩ := mem_severitiesOf.mp now
      obtain ⟨member, raised⟩ := List.mem_filter.mp member
      exact recorded.below_raise (holds.2.1 e member) raised sev (recorded.raised _ sev earlier)
  · intro a sev member
    rw [commitRun_raised] at member
    rw [commitRun_breaches]
    rcases List.mem_append.mp member with earlier | now
    · exact List.mem_append_left _ (recorded.raised a sev earlier)
    · obtain ⟨e, member, here, severity⟩ := mem_severitiesOf.mp now
      exact List.mem_append_right _
        (mem_severitiesOf.mpr ⟨e, (List.mem_filter.mp member).1, here, severity⟩)

end Commit

theorem recorded_start {s : State} (starts : Start s) : Recorded s where
  severity := fun a row stored => by simp [starts.breaches a, stored]
  absent := fun a missing => by simp [starts.breaches a, missing]
  rising := fun a => by rw [starts.raised a]; exact List.Pairwise.nil
  raised := fun a sev member => by
    rw [starts.raised a] at member
    cases member

theorem Recorded.move {s s' : State} (recorded : Recorded s) (inv : Inv s) (move : Move s s') :
    Recorded s' := by
  cases move with
  | quiet t pc' alerts' minted' sound holds framed committed before after same =>
      subst same
      exact ⟨fun a row stored => recorded.severity a row ((committed a).symm.trans stored),
        fun a missing => recorded.absent a ((committed a).symm.trans missing), recorded.rising,
          recorded.raised⟩
  | run t entries at_commit same =>
      subst same
      exact recorded.commit inv at_commit
  | publish t entry todo at_publish same =>
      subst same
      exact ⟨recorded.severity, recorded.absent, recorded.rising, recorded.raised⟩
  | acknowledge t alert at_commit same =>
      subst same
      have holds := inv.holds t
      rw [at_commit] at holds
      refine ⟨?_, ?_, recorded.rising, recorded.raised⟩
      · intro a row stored
        rcases commit_cases s.alerts t a with ⟨value, held, settled⟩ | ⟨_, unchanged⟩
        · obtain ⟨old, new, before, rfl, severity⟩ := holds a value held
          simp only [settled, Row.settled] at stored
          cases stored
          rw [severity]
          exact recorded.severity a old before
        · exact recorded.severity a row (by rw [← unchanged]; exact stored)
      · intro a missing
        rcases commit_cases s.alerts t a with ⟨value, held, settled⟩ | ⟨_, unchanged⟩
        · obtain ⟨old, new, before, rfl, _⟩ := holds a value held
          simp only [settled, Row.settled] at missing
          cases missing
        · exact recorded.absent a (by rw [← unchanged]; exact missing)

/-! ## What was broadcast -/

/-- The rise that an entry stands for. -/
def Entry.rise (e : Entry) : Nat × Severity := (e.alert, e.breach.severity)

/-- The rise was committed, for an alert of the node that the message names. -/
def Committed (s : State) (e : Entry) : Prop :=
  e.breach.severity ∈ s.history.raised e.alert ∧
    ∃ row, (s.alerts e.alert).committed = some row ∧ row.nodeId = e.breach.nodeId

structure Broadcast (s : State) : Prop where
  once : (s.history.published.map Entry.rise).Nodup
  pendingOnce : ∀ t, ((s.pcs t).pending.map Entry.rise).Nodup
  unpublished : ∀ t, ∀ e ∈ (s.pcs t).pending, e.rise ∉ s.history.published.map Entry.rise
  apart : ∀ t t', t ≠ t' → ∀ e ∈ (s.pcs t).pending, ∀ e' ∈ (s.pcs t').pending, e.rise ≠ e'.rise
  published : ∀ e ∈ s.history.published, Committed s e
  pending : ∀ t, ∀ e ∈ (s.pcs t).pending, Committed s e
  covered : ∀ a, ∀ sev ∈ s.history.raised a, (a, sev) ∈ s.history.published.map Entry.rise ∨
    ∃ t, (a, sev) ∈ (s.pcs t).pending.map Entry.rise

theorem broadcast_start {s : State} (starts : Start s) : Broadcast s where
  once := by rw [starts.published]; exact List.nodup_nil
  pendingOnce := fun t => by rw [starts.pcs t]; exact List.nodup_nil
  unpublished := fun t e member => by rw [starts.pcs t] at member; cases member
  apart := fun t t' _ e member => by rw [starts.pcs t] at member; cases member
  published := fun e member => by rw [starts.published] at member; cases member
  pending := fun t e member => by rw [starts.pcs t] at member; cases member
  covered := fun a sev member => by rw [starts.raised a] at member; cases member

/-- A committed rise stays committed over a move that forgets no rise. -/
theorem Committed.move {s s' : State} (move : Move s s') (inv : Inv s)
    (kept : ∀ a, ∀ sev ∈ s.history.raised a, sev ∈ s'.history.raised a) {e : Entry}
    (committed : Committed s e) : Committed s' e := by
  obtain ⟨raised, row, stored, node⟩ := committed
  obtain ⟨row', stored', node', _⟩ := move.stored inv stored
  exact ⟨kept _ _ raised, row', stored', node'.trans node⟩

/-- Nothing is published, and the same rises are pending, with the same requests. -/
theorem Broadcast.same {s s' : State} (broadcast : Broadcast s) (move : Move s s') (inv : Inv s)
    (history : s'.history = s.history) (pending : ∀ t, (s'.pcs t).pending = (s.pcs t).pending) :
    Broadcast s' := by
  have kept : ∀ a, ∀ sev ∈ s.history.raised a, sev ∈ s'.history.raised a := by
    intro a sev raised
    rw [history]
    exact raised
  have stays : ∀ e, Committed s e → Committed s' e := fun _ => Committed.move move inv kept
  exact
    { once := by rw [history]; exact broadcast.once
      pendingOnce := fun t => by rw [pending t]; exact broadcast.pendingOnce t
      unpublished := fun t e member => by
        rw [pending t] at member
        rw [history]
        exact broadcast.unpublished t e member
      apart := fun t t' different e member e' member' => by
        rw [pending t] at member
        rw [pending t'] at member'
        exact broadcast.apart t t' different e member e' member'
      published := fun e member => stays e (broadcast.published e (history ▸ member))
      pending := fun t e member => stays e (broadcast.pending t e (pending t ▸ member))
      covered := fun a sev member => by
        rw [history] at member ⊢
        rcases broadcast.covered a sev member with told | ⟨t, waiting⟩
        · exact Or.inl told
        · exact Or.inr ⟨t, by rw [pending t]; exact waiting⟩ }

theorem pending_go {s : State} {t : Nat} {pc : Pc} (same : pc.pending = (s.pcs t).pending)
    (t' : Nat) : ((s.go t pc).pcs t').pending = (s.pcs t').pending := by
  by_cases here : t' = t
  · subst here
    rw [go_pcs_self, same]
  · rw [go_pcs_of_ne pc here]

/-- A rise of a run that is about to commit was not committed before. -/
theorem raise_fresh {s : State} (inv : Inv s) (recorded : Recorded s) {t : Nat}
    {entries : List Entry} (at_commit : s.pcs t = .upsert [] entries) {e : Entry}
    (member : e ∈ entries.filter (·.raised)) : e.breach.severity ∉ s.history.raised e.alert := by
  have holds := inv.holds t
  rw [at_commit] at holds
  obtain ⟨_, made, _⟩ := holds
  intro raised
  obtain ⟨member, isRaised⟩ := List.mem_filter.mp member
  have below := recorded.below_raise (made e member) isRaised _ (recorded.raised _ _ raised)
  exact Nat.lt_irrefl _ below

/-- So it differs from every rise that is published, or pending in another run. -/
theorem raise_differs {s : State} (inv : Inv s) (recorded : Recorded s) {t : Nat}
    {entries : List Entry} (at_commit : s.pcs t = .upsert [] entries) {e : Entry}
    (member : e ∈ entries.filter (·.raised)) {e' : Entry} (committed : Committed s e') :
    e.rise ≠ e'.rise := by
  intro same
  obtain ⟨alert, severity⟩ := Prod.mk.inj same
  have fresh := raise_fresh inv recorded at_commit member
  rw [alert, severity] at fresh
  exact fresh committed.1

/-- A run commits: its rises are new, and they are pending with it. -/
theorem Broadcast.run {s : State} (broadcast : Broadcast s) (inv : Inv s)
    (recorded : Recorded s) {t : Nat} {entries : List Entry}
    (at_commit : s.pcs t = .upsert [] entries) : Broadcast (s.commitRun t entries) := by
  have holds := inv.holds t
  rw [at_commit] at holds
  have unique : ∀ {e e' : Entry}, e ∈ entries → e' ∈ entries → e.alert = e'.alert → e = e' :=
    entry_unique holds
  have distinct := entries_nodup holds
  obtain ⟨_, made, _⟩ := holds
  have move : Move s (s.commitRun t entries) := .run t entries at_commit rfl
  have kept : ∀ a, ∀ sev ∈ s.history.raised a, sev ∈ (s.commitRun t entries).history.raised a :=
    fun _ _ raised => List.mem_append_left _ raised
  have stays : ∀ e, Committed s e → Committed (s.commitRun t entries) e :=
    fun _ => Committed.move move inv kept
  have differs : ∀ e ∈ entries.filter (·.raised), ∀ e', Committed s e' → e.rise ≠ e'.rise :=
    fun _ member _ => raise_differs inv recorded at_commit member
  have pendingOf : ∀ t', t' ≠ t → ((s.commitRun t entries).pcs t').pending = (s.pcs t').pending :=
    fun t' different => congrArg Pc.pending (go_pcs_of_ne _ different)
  have pendingSelf : ((s.commitRun t entries).pcs t).pending = entries.filter (·.raised) :=
    congrArg Pc.pending (go_pcs_self s t _)
  refine
    { once := broadcast.once
      pendingOnce := fun t' => ?_
      unpublished := fun t' e member => ?_
      apart := fun t₁ t₂ different e member e' member' => ?_
      published := fun e member => stays e (broadcast.published e member)
      pending := fun t' e member => ?_
      covered := fun a sev member => ?_ }
  · by_cases here : t' = t
    · subst here
      simp only [pendingSelf]
      refine List.pairwise_map.mpr
        ((distinct.filter _).imp_of_mem fun member member' different same => ?_)
      exact different (unique (List.mem_filter.mp member).1 (List.mem_filter.mp member').1 (Prod.mk.inj same).1)
    · simp only [pendingOf t' here]
      exact broadcast.pendingOnce t'
  · by_cases here : t' = t
    · subst here
      simp only [pendingSelf] at member
      intro told
      obtain ⟨e', member', same⟩ := List.mem_map.mp told
      exact differs e member e' (broadcast.published e' member') same.symm
    · simp only [pendingOf t' here] at member
      exact broadcast.unpublished t' e member
  · by_cases here : t₁ = t <;> by_cases here' : t₂ = t
    · exact absurd (here.trans here'.symm) different
    · subst here
      simp only [pendingSelf] at member
      simp only [pendingOf t₂ here'] at member'
      exact differs e member e' (broadcast.pending t₂ e' member')
    · subst here'
      simp only [pendingOf t₁ here] at member
      simp only [pendingSelf] at member'
      exact (differs e' member' e (broadcast.pending t₁ e member)).symm
    · simp only [pendingOf t₁ here] at member
      simp only [pendingOf t₂ here'] at member'
      exact broadcast.apart t₁ t₂ different e member e' member'
  · by_cases here : t' = t
    · subst here
      simp only [pendingSelf] at member
      obtain ⟨row, held, node, _⟩ := made e (List.mem_filter.mp member).1
      refine ⟨List.mem_append_right _ (mem_severitiesOf.mpr ⟨e, member, rfl, rfl⟩), row, ?_, node⟩
      rw [commitRun_alerts, commit_of_held held, Row.settled]
    · simp only [pendingOf t' here] at member
      exact stays e (broadcast.pending t' e member)
  · rcases List.mem_append.mp member with earlier | now
    · rcases broadcast.covered a sev earlier with told | ⟨t', waiting⟩
      · exact Or.inl told
      · have away : t' ≠ t := by
          rintro rfl
          rw [at_commit] at waiting
          cases waiting
        exact Or.inr ⟨t', by simp only [pendingOf t' away]; exact waiting⟩
    · obtain ⟨e, among, rfl, rfl⟩ := mem_severitiesOf.mp now
      exact Or.inr ⟨t, by simp only [pendingSelf]; exact List.mem_map_of_mem among⟩

/-- A run publishes the next of its rises. -/
theorem Broadcast.publish {s : State} (broadcast : Broadcast s) {t : Nat} {entry : Entry}
    {todo : List Entry} (at_publish : s.pcs t = .publish (entry :: todo)) :
    Broadcast (s.publish t entry todo) := by
  have pendingOf : ∀ t', t' ≠ t → ((s.publish t entry todo).pcs t').pending = (s.pcs t').pending :=
    fun t' different => congrArg Pc.pending (go_pcs_of_ne _ different)
  have pendingSelf : ((s.publish t entry todo).pcs t).pending = todo :=
    congrArg Pc.pending (go_pcs_self s t _)
  have pendingBefore : (s.pcs t).pending = entry :: todo := by rw [at_publish]; rfl
  have subset : ∀ t', ∀ e ∈ ((s.publish t entry todo).pcs t').pending, e ∈ (s.pcs t').pending := by
    intro t' e member
    by_cases here : t' = t
    · subst here
      rw [pendingSelf] at member
      rw [pendingBefore]
      exact List.mem_cons_of_mem _ member
    · rw [pendingOf t' here] at member
      exact member
  have first : entry ∈ (s.pcs t).pending := by rw [pendingBefore]; exact List.mem_cons_self
  have once := broadcast.pendingOnce t
  rw [pendingBefore, List.map_cons, List.nodup_cons] at once
  refine
    { once := ?_
      pendingOnce := fun t' => ?_
      unpublished := fun t' e member told => ?_
      apart := fun t₁ t₂ different e member e' member' =>
        broadcast.apart t₁ t₂ different e (subset t₁ e member) e' (subset t₂ e' member')
      published := fun e member => ?_
      pending := fun t' e member => broadcast.pending t' e (subset t' e member)
      covered := fun a sev member => ?_ }
  · rw [publish_published, List.map_append, List.map_cons, List.map_nil]
    refine List.nodup_append.mpr ⟨broadcast.once, by simp, ?_⟩
    intro x earlier y now same
    rw [List.mem_singleton] at now
    exact broadcast.unpublished t entry first (now ▸ same ▸ earlier)
  · by_cases here : t' = t
    · subst here
      simp only [pendingSelf]
      exact once.2
    · simp only [pendingOf t' here]
      exact broadcast.pendingOnce t'
  · rw [publish_published, List.map_append, List.map_cons, List.map_nil] at told
    rcases List.mem_append.mp told with earlier | now
    · exact broadcast.unpublished t' e (subset t' e member) earlier
    · rw [List.mem_singleton] at now
      by_cases here : t' = t
      · subst here
        simp only [pendingSelf] at member
        exact once.1 (now ▸ List.mem_map_of_mem member)
      · exact broadcast.apart t' t here e (subset t' e member) entry first now
  · rcases List.mem_append.mp member with earlier | now
    · exact broadcast.published e earlier
    · rw [List.mem_singleton] at now
      exact now ▸ broadcast.pending t entry first
  · rw [publish_published, List.map_append, List.map_cons, List.map_nil]
    rcases broadcast.covered a sev member with told | ⟨t', waiting⟩
    · exact Or.inl (List.mem_append_left _ told)
    · by_cases here : t' = t
      · subst here
        rw [pendingBefore, List.map_cons] at waiting
        rcases List.mem_cons.mp waiting with now | later
        · exact Or.inl (List.mem_append_right _ (by rw [now]; exact List.mem_cons_self))
        · exact Or.inr ⟨t', by simp only [pendingSelf]; exact later⟩
      · exact Or.inr ⟨t', by simp only [pendingOf t' here]; exact waiting⟩

theorem Broadcast.move {s s' : State} (broadcast : Broadcast s) (inv : Inv s)
    (recorded : Recorded s) (move : Move s s') : Broadcast s' := by
  cases move with
  | quiet t pc' alerts' minted' sound holds framed committed before after same =>
      refine broadcast.same
        (.quiet t pc' alerts' minted' sound holds framed committed before after same) inv ?_ ?_
      · subst same
        rfl
      · subst same
        exact pending_go (after.trans before.symm)
  | run t entries at_commit same =>
      subst same
      exact broadcast.run inv recorded at_commit
  | publish t entry todo at_publish same =>
      subst same
      exact broadcast.publish at_publish
  | acknowledge t alert at_commit same =>
      refine broadcast.same (.acknowledge t alert at_commit same) inv ?_ ?_
      · subst same
        rfl
      · subst same
        have before : (s.pcs t).pending = [] := by rw [at_commit]; rfl
        exact pending_go before.symm

/-! ## Every run -/

/-- `a` is the unacknowledged alert of the node. -/
def OpenAt (s : State) (node a : Nat) : Prop := (s.alerts a).committed.any (·.openFor node) = true

structure Escalated (s : State) : Prop where
  oneOpen : ∀ node a b, OpenAt s node a → OpenAt s node b → a = b
  severity : ∀ a row, (s.alerts a).committed = some row →
    row.severity ∈ s.history.breaches a ∧ ∀ sev ∈ s.history.breaches a, sev.rank ≤ row.severity.rank
  rising : ∀ a, (s.history.raised a).Pairwise fun sev sev' => sev.rank < sev'.rank
  /-- Each rise is published at most once, -/
  once : (s.history.published.map Entry.rise).Nodup
  /-- after its commit, -/
  committed : ∀ e ∈ s.history.published, Committed s e
  /-- or some run still has it to publish. -/
  covered : ∀ a, ∀ sev ∈ s.history.raised a, (a, sev) ∈ s.history.published.map Entry.rise ∨
    ∃ t, (a, sev) ∈ (s.pcs t).pending.map Entry.rise

theorem invariants_of_reach {s : State} (reached : Reach step Always Start s) :
    Inv s ∧ Recorded s ∧ Broadcast s :=
  reached.invariant (I := fun s => Inv s ∧ Recorded s ∧ Broadcast s)
    (fun _ starts => ⟨inv_start starts, recorded_start starts, broadcast_start starts⟩)
    fun _ _ _ ⟨inv, recorded, broadcast⟩ _ ran => by
      have move := move_of_step inv ran
      exact ⟨inv.move move, recorded.move inv move, broadcast.move inv recorded move⟩

/-- **Escalation is monotone and each rise is broadcast once**, in every reached state;
and no step takes a stored alert away, lowers it or takes back its acknowledgement. -/
theorem escalation_of_reach {s : State} (reached : Reach step Always Start s) :
    Escalated s ∧
      ∀ act s', step s act = some s' → ∀ a old, (s.alerts a).committed = some old →
        ∃ row, (s'.alerts a).committed = some row ∧ row.nodeId = old.nodeId ∧
          old.severity.rank ≤ row.severity.rank ∧
            (row.acknowledgedAt = none → old.acknowledgedAt = none) := by
  obtain ⟨inv, recorded, broadcast⟩ := invariants_of_reach reached
  have escalated : Escalated s :=
    { oneOpen := fun node a b first second => inv.sound.unique node a b (Or.inl first) (Or.inl second)
      severity := recorded.severity
      rising := recorded.rising
      once := broadcast.once
      committed := broadcast.published
      covered := broadcast.covered }
  exact ⟨escalated, fun act s' ran a old stored => (move_of_step inv ran).stored inv stored⟩

/-! ## Two runs on one node -/

def noAlerts : State where
  alerts := fun _ => .settled none
  minted := 0
  pcs := fun _ => .idle
  history := { breaches := fun _ => [], raised := fun _ => [], published := [] }

theorem start_noAlerts : Start noAlerts where
  free := fun _ => rfl
  undrawn := fun _ _ => rfl
  unique := fun _ _ _ stored => by cases stored
  pcs := fun _ => rfl
  breaches := fun _ => rfl
  raised := fun _ => rfl
  published := rfl

/-- Run `t` sees node 7 at this AQI, with thresholds 100 and 150. -/
def checkAt (t : Nat) (aqi : Rat) : Act := .check t (.fin 100) (.fin 150) [(7, aqi)]

def advance (t n : Nat) : List Act := List.replicate n (.advance t 0)

/-- A warning, an upgrade to critical, and a warning that is suppressed. -/
theorem escalation_of_reach_upgrade :
    ∃ s, Reach step Always Start s ∧ OpenAt s 7 0 ∧
      s.history.breaches 0 = [.warning, .critical, .warning] ∧
        s.history.raised 0 = [.warning, .critical] ∧
      (∀ b, OpenAt s 7 b → b = 0) ∧ ∀ row, (s.alerts 0).committed = some row →
        row.severity.rank = 2 := by
  obtain ⟨s, reached, final⟩ :=
    exists_reach_of_run step Always start_noAlerts
      ([checkAt 0 120] ++ advance 0 3 ++ [checkAt 1 180] ++ advance 1 3 ++ [checkAt 2 130] ++ advance 2 3)
      (fun s => decide ((s.alerts 0).committed.any (·.openFor 7) = true ∧
        s.history.breaches 0 = [.warning, .critical, .warning] ∧
          s.history.raised 0 = [.warning, .critical]))
      (by decide +kernel)
  obtain ⟨isOpen, breached, raised⟩ := of_decide_eq_true final
  have escalated := (escalation_of_reach reached).1
  refine ⟨s, reached, isOpen, breached, raised,
    fun b other => escalated.oneOpen 7 b 0 other isOpen, ?_⟩
  intro row stored
  obtain ⟨_, highest⟩ := escalated.severity 0 row stored
  have above : 2 ≤ row.severity.rank := highest .critical (by rw [breached]; decide)
  cases severity : row.severity with
  | warning => rw [severity] at above; exact absurd above (by decide)
  | critical => rfl

/-- **The upgrade is published first**: run 0 commits the warning, run 1 upgrades it,
commits and publishes, and then run 0 publishes. -/
theorem critical_before_warning :
    ∃ s, Reach step Always Start s ∧ s.history.raised 0 = [.warning, .critical] ∧
      s.history.published.map Entry.rise = [(0, .critical), (0, .warning)] ∧
      ¬ (s.history.published.map (·.breach.severity.rank)).Pairwise (· < ·) := by
  obtain ⟨s, reached, final⟩ :=
    exists_reach_of_run step Always start_noAlerts
      ([checkAt 0 120] ++ advance 0 2 ++ [checkAt 1 180] ++ advance 1 3 ++ advance 0 1)
      (fun s => decide (s.history.raised 0 = [.warning, .critical] ∧
        s.history.published.map Entry.rise = [(0, .critical), (0, .warning)] ∧
        s.history.published.map (·.breach.severity.rank) = [2, 1])) (by decide +kernel)
  obtain ⟨raised, published, ranks⟩ := of_decide_eq_true final
  refine ⟨s, reached, raised, published, ?_⟩
  rw [ranks]
  decide

end Empyrean.Alerts
