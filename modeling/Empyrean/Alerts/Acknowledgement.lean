/-
# Empyrean.Alerts.Acknowledgement — an alert is acknowledged once, and what the requests answer

`acknowledge_alert` loads the alert, and where it is not acknowledged writes the time and
the user, commits and reads the row back for the response.  The test and the write are two
statements and the row is not locked between them, so a second request that loaded the
alert before the first one committed writes over it (`acknowledged_twice`).

* `Served` / `step` — the alerts with the responses of `acknowledge_alert`.
* `Unbeaten` — an acknowledgement commits only where no other one has.
* `acknowledged_once` — then the first one stays, and every response reports it.
-/
import Empyrean.Alerts.OneOpen

namespace Empyrean.Alerts.Acknowledgement

set_option autoImplicit false

open Empyrean.Theory Empyrean.Theory.RowStore Empyrean.Theory.Runs

/-! ## The responses -/

/-- `acknowledged_at` and `acknowledged_by`, once the first is set. -/
def acknowledgement (alert : Alert) : Option (Int × Option Nat) :=
  alert.acknowledgedAt.map fun time => (time, alert.acknowledgedBy)

/-- The acknowledgement stored for an alert. -/
def recorded (s : State) (a : Nat) : Option (Int × Option Nat) :=
  (s.alerts a).committed.bind acknowledgement

/-- A 404, or the row that was serialised. -/
structure Response where
  alert : Nat
  shown : Option Alert

structure Served where
  system : State
  /-- The alert that a request has committed and is to read back. -/
  refreshing : Nat → Option Nat
  responses : List Response

inductive Act
  | system (act : Alerts.Act)
  /-- `session.refresh(alert)` after the commit, and the response. -/
  | refresh (t : Nat)

/-- What is answered without a commit: no such alert, or one already acknowledged. -/
def Pc.answer (alerts : Rows Nat Nat Alert) (t : Nat) : Pc → List Response
  | .ackLoad alert _ =>
      match (alerts alert).read t with
      | none => [⟨alert, none⟩]
      | some row => if row.acknowledgedAt.isNone then [] else [⟨alert, some row⟩]
  | _ => []

def Pc.refresh : Pc → Option Nat
  | .ackCommit alert => some alert
  | _ => none

def answer (s : State) : Alerts.Act → List Response
  | .advance t _ => Pc.answer s.alerts t (s.pcs t)
  | _ => []

/-- The request that moves, and what it is to read back after this. -/
def refreshes (s : State) : Alerts.Act → Nat × Option Nat
  | .advance t _ => (t, Pc.refresh (s.pcs t))
  | .check t _ _ _ | .acknowledge t _ _ | .abort t => (t, none)

def step (s : Served) : Act → Option Served
  | .system act =>
      (Alerts.step s.system act).map fun system =>
        { system := system
          refreshing :=
            Function.update s.refreshing (refreshes s.system act).1 (refreshes s.system act).2
          responses := s.responses ++ answer s.system act }
  | .refresh t =>
      match s.refreshing t with
      | none => none
      | some alert =>
          match (s.system.alerts alert).committed with
          -- `refresh` raises: there is no such response
          | none => some { s with refreshing := Function.update s.refreshing t none }
          | some row =>
              some { s with
                refreshing := Function.update s.refreshing t none
                responses := s.responses ++ [⟨alert, some row⟩] }

/-! ## The condition -/

/-- No other acknowledgement of the alert was committed since the request loaded it. -/
def Pc.Unbeaten (alerts : Rows Nat Nat Alert) : Pc → Prop
  | .ackCommit alert => ∀ row ∈ (alerts alert).committed, row.acknowledgedAt = none
  | _ => True

def Unbeaten (s : Served) : Act → Prop
  | .system (.advance t _) => Pc.Unbeaten s.system.alerts (s.system.pcs t)
  | _ => True

instance (alerts : Rows Nat Nat Alert) (pc : Pc) : Decidable (Pc.Unbeaten alerts pc) := by
  unfold Pc.Unbeaten
  split <;> infer_instance

instance (s : Served) (a : Act) : Decidable (Unbeaten s a) := by
  unfold Unbeaten
  split <;> infer_instance

structure Start (s : Served) : Prop where
  system : Alerts.Start s.system
  refreshing : ∀ t, s.refreshing t = none
  responses : s.responses = []

/-! ## What a request is about to commit -/

/-- At its commit an acknowledgement holds the one alert it has written. -/
def Pc.Writes (alerts : Rows Nat Nat Alert) (t : Nat) : Pc → Prop
  | .ackCommit alert =>
      (∃ row, (alerts alert).held = some (t, some row) ∧ row.acknowledgedAt ≠ none) ∧
        ∀ a version, (alerts a).held = some (t, version) → a = alert
  | _ => True

section Writes

variable {alerts alerts' : Rows Nat Nat Alert} {t t' : Nat} {pc : Pc}

theorem Writes.framed (writes : Pc.Writes alerts t' pc) (framed : Framed t alerts alerts')
    (different : t' ≠ t) : Pc.Writes alerts' t' pc := by
  cases pc with
  | ackCommit alert =>
      obtain ⟨⟨row, held, acknowledged⟩, only⟩ := writes
      refine ⟨⟨row, by rw [framed.keeps different held]; exact held, acknowledged⟩, ?_⟩
      exact fun a version held => only a version (framed.held_before different held).1
  | _ => trivial

end Writes

/-! ## One step of the alerts -/

/-- What the request `t` that moves does, as far as acknowledgements go. -/
structure Acted (s s' : State) (act : Alerts.Act) (t : Nat) (pc' : Pc) : Prop where
  framed : Framed t s.alerts s'.alerts
  pcs : s'.pcs = Function.update s.pcs t pc'
  writes : Pc.Writes s'.alerts t pc'
  effect : (∀ a, (s'.alerts a).committed = (s.alerts a).committed) ∨
    ∃ now, act = .advance t now ∧ s'.alerts = commit s.alerts t ∧
      ((∃ entries, s.pcs t = .upsert [] entries) ∨ ∃ alert, s.pcs t = .ackCommit alert)

/-- Nothing is written. -/
theorem Acted.still {s : State} {act : Alerts.Act} {t : Nat} {pc' : Pc}
    (writes : Pc.Writes s.alerts t pc') : Acted s (s.go t pc') act t pc' where
  framed := framed_refl t _
  pcs := rfl
  writes := writes
  effect := Or.inl fun _ => rfl

theorem acted_of_step {s s' : State} {act : Alerts.Act} (inv : Alerts.Inv s)
    (ran : Alerts.step s act = some s') : ∃ t pc', Acted s s' act t pc' := by
  cases taken_of_step ran with
  | checks t | arrives t | ends t | answers t | loads t => exact ⟨t, _, .still trivial⟩
  | upserts t now breach todo entries alerts' minted' e here upserting =>
      have holds := inv.holds t
      rw [here] at holds
      have upserted := upserted inv.sound holds upserting
      exact ⟨t, _, upserted.framed, rfl, trivial, Or.inl upserted.committed⟩
  | commits t now entries here =>
      exact ⟨t, _, framed_commit t _, rfl, trivial, Or.inr ⟨now, rfl, rfl, Or.inl ⟨entries, here⟩⟩⟩
  | publishes t now entry todo here =>
      exact ⟨t, _, framed_refl t _, rfl, trivial, Or.inl fun _ => rfl⟩
  | writes t now alert user row here free seen =>
      have holds := inv.holds t
      rw [here] at holds
      refine ⟨t, .ackCommit alert, framed_put _ free, rfl,
        ⟨⟨row.acknowledge user now, by simp, ?_⟩, ?_⟩, Or.inl fun _ => committed_put _ _ _ _ _⟩
      · exact Option.some_ne_none now
      · intro a version held
        rcases held_put held with ⟨here, _⟩ | ⟨_, before⟩
        · exact here
        · exact absurd before (holds a version)
  | misses t | aborts t =>
      exact ⟨t, _, framed_rollback t _, rfl, trivial, Or.inl (committed_rollback _ t)⟩
  | acknowledges t now alert here =>
      exact ⟨t, _, framed_commit t _, rfl, trivial, Or.inr ⟨now, rfl, rfl, Or.inr ⟨alert, here⟩⟩⟩

section Kept

variable {s s' : State} {act : Alerts.Act} {t : Nat} {pc' : Pc}

theorem Acted.others (acted : Acted s s' act t pc') (writes : ∀ t, Pc.Writes s.alerts t (s.pcs t))
    (t' : Nat) : Pc.Writes s'.alerts t' (s'.pcs t') := by
  rw [acted.pcs]
  by_cases same : t' = t
  · subst same
    rw [Function.update_self]
    exact acted.writes
  · rw [Function.update_of_ne same]
    exact Writes.framed (writes t') acted.framed same

/-- **One step** keeps a stored acknowledgement: a run of `check_thresholds` has locked only
unacknowledged alerts, and an acknowledgement that commits is the first of its alert. -/
theorem Acted.kept (acted : Acted s s' act t pc') (inv : Alerts.Inv s)
    (writes : ∀ t, Pc.Writes s.alerts t (s.pcs t)) (unbeaten : ∀ t now, act = .advance t now →
      Pc.Unbeaten s.alerts (s.pcs t)) {a : Nat} {p : Int × Option Nat}
    (first : recorded s a = some p) : recorded s' a = some p := by
  obtain ⟨row, stored, shown⟩ := Option.bind_eq_some_iff.mp first
  have acknowledged : row.acknowledgedAt ≠ none := by
    intro null
    rw [acknowledgement, null] at shown
    cases shown
  have stays (notHeld : ∀ version, (s.alerts a).held ≠ some (t, version)) :
      ((commit s.alerts t) a).committed.bind acknowledgement = some p := by
    rw [commit_of_not_held notHeld]
    exact first
  rcases acted.effect with quiet | ⟨now, rfl, alerts, ⟨entries, at_commit⟩ | ⟨alert, at_commit⟩⟩
  · rw [recorded, quiet a]
    exact first
  · rw [recorded, alerts]
    refine stays fun version held => ?_
    have holds := inv.holds t
    rw [at_commit] at holds
    obtain ⟨e, member, rfl⟩ := holds.1 a version held
    obtain ⟨new, held', _, unacknowledged, _⟩ := holds.2.1 e member
    obtain ⟨_, same, overwrites⟩ := inv.sound.held _ t _ held'
    cases same
    exact acknowledged ((overwrites row stored).2.2 unacknowledged)
  · rw [recorded, alerts]
    refine stays fun version held => ?_
    have own := writes t
    have first := unbeaten t now rfl
    rw [at_commit] at own first
    obtain rfl := own.2 a version held
    exact acknowledged (first row stored)

end Kept

/-! ## Runs -/

structure Inv (s : Served) : Prop where
  base : Alerts.Inv s.system
  writes : ∀ t, Pc.Writes s.system.alerts t (s.system.pcs t)
  refreshing : ∀ t alert, s.refreshing t = some alert → ∃ p, recorded s.system alert = some p
  answered : ∀ r ∈ s.responses, ∀ shown ∈ r.shown,
    ∃ p, acknowledgement shown = some p ∧ recorded s.system r.alert = some p

section Runs

variable {s s' : Served} {a : Nat} {p : Int × Option Nat}

theorem inv_start (starts : Start s) : Inv s where
  base := Alerts.inv_start starts.system
  writes := fun t => by rw [starts.system.pcs t]; trivial
  refreshing := fun t alert waits => by rw [starts.refreshing t] at waits; cases waits
  answered := fun r member => by rw [starts.responses] at member; cases member

theorem acknowledgement_isSome {row : Alert} (acknowledged : row.acknowledgedAt ≠ none) :
    ∃ p, acknowledgement row = some p := by
  obtain ⟨time, at_time⟩ := Option.ne_none_iff_exists'.mp acknowledged
  exact ⟨(time, row.acknowledgedBy), by rw [acknowledgement, at_time]; rfl⟩

/-- What a request answers without a commit is what is stored: it holds no row. -/
theorem answer_cases {system : State} (inv : Alerts.Inv system) {act : Alerts.Act} {r : Response}
    (member : r ∈ answer system act) :
    (system.alerts r.alert).committed = r.shown ∧
      ∀ shown ∈ r.shown, shown.acknowledgedAt ≠ none := by
  cases act with
  | advance t now =>
      simp only [answer] at member
      have holds := inv.holds t
      cases here : system.pcs t with
      | ackLoad alert user =>
          rw [here] at member holds
          have seen : (system.alerts alert).read t = (system.alerts alert).committed :=
            Row.read_of_not_held (holds alert)
          simp only [Pc.answer, seen] at member
          cases stored : (system.alerts alert).committed with
          | none =>
              simp only [stored, List.mem_singleton] at member
              subst member
              exact ⟨stored, fun shown none => by cases none⟩
          | some row =>
              simp only [stored] at member
              split at member
              · cases member
              · rename_i acknowledged
                rw [List.mem_singleton] at member
                subst member
                refine ⟨stored, fun shown same => ?_⟩
                cases same
                simpa using acknowledged
      | _ => rw [here] at member; cases member
  | check t warning critical latest => cases member
  | acknowledge t alert user => cases member
  | abort t => cases member

/-- What a request is to read back is acknowledged: it has just committed that. -/
theorem refreshes_recorded {system system' : State}
    (writes : ∀ t, Pc.Writes system.alerts t (system.pcs t)) {act : Alerts.Act}
    (ran : Alerts.step system act = some system') {alert : Nat}
    (waits : (refreshes system act).2 = some alert) : ∃ p, recorded system' alert = some p := by
  cases act with
  | advance t now =>
      simp only [refreshes] at waits
      have own := writes t
      cases here : system.pcs t with
      | ackCommit alert' =>
          rw [here] at waits own
          cases waits
          obtain ⟨⟨row, held, acknowledged⟩, _⟩ := own
          simp only [Alerts.step, here] at ran
          cases ran
          obtain ⟨p, shown⟩ := acknowledgement_isSome acknowledged
          refine ⟨p, ?_⟩
          show ((commit system.alerts t) alert).committed.bind acknowledgement = some p
          rw [commit_of_held held]
          exact shown
      | _ => rw [here] at waits; cases waits
  | check t warning critical latest => cases waits
  | acknowledge t alert user => cases waits
  | abort t => cases waits

theorem recorded_of_step {act : Act} (inv : Inv s) (meets : Unbeaten s act)
    (ran : step s act = some s') (first : recorded s.system a = some p) :
    recorded s'.system a = some p := by
  cases act with
  | system act =>
      obtain ⟨system', stepped, same⟩ := Option.map_eq_some_iff.mp ran
      cases same
      obtain ⟨t, pc', acted⟩ := acted_of_step inv.base stepped
      refine acted.kept inv.base inv.writes (fun t now same => ?_) first
      subst same
      exact meets
  | refresh t =>
      simp only [step] at ran
      split at ran
      · cases ran
      · split at ran <;> cases ran <;> exact first

theorem inv_step {act : Act} (inv : Inv s) (meets : Unbeaten s act) (ran : step s act = some s') :
    Inv s' := by
  have keeps : ∀ {a : Nat} {p : Int × Option Nat}, recorded s.system a = some p →
      recorded s'.system a = some p :=
    fun first => recorded_of_step inv meets ran first
  have before : ∀ r ∈ s.responses, ∀ shown ∈ r.shown,
      ∃ p, acknowledgement shown = some p ∧ recorded s'.system r.alert = some p := by
    intro r member shown same
    obtain ⟨p, reported, first⟩ := inv.answered r member shown same
    exact ⟨p, reported, keeps first⟩
  cases act with
  | system act =>
      obtain ⟨system', stepped, same⟩ := Option.map_eq_some_iff.mp ran
      cases same
      obtain ⟨t, pc', acted⟩ := acted_of_step inv.base stepped
      refine ⟨inv.base.move (move_of_step inv.base stepped), acted.others inv.writes, ?_, ?_⟩
      · intro t' alert waits
        by_cases here : t' = (refreshes s.system act).1
        · subst here
          have waits : (refreshes s.system act).2 = some alert := by simpa using waits
          exact refreshes_recorded inv.writes stepped waits
        · have waits : s.refreshing t' = some alert := by simpa [here] using waits
          obtain ⟨p, first⟩ := inv.refreshing t' alert waits
          exact ⟨p, keeps first⟩
      · intro r member shown same
        rcases List.mem_append.mp member with earlier | now
        · exact before r earlier shown same
        · obtain ⟨stored, acknowledged⟩ := answer_cases inv.base now
          obtain ⟨p, reported⟩ := acknowledgement_isSome (acknowledged shown same)
          refine ⟨p, reported, keeps ?_⟩
          rw [recorded, stored, same]
          exact reported
  | refresh t =>
      simp only [step] at ran
      split at ran
      · cases ran
      · rename_i alert waiting
        have waits : ∀ t' alert, Function.update s.refreshing t none t' = some alert →
            ∃ p, recorded s.system alert = some p := by
          intro t' alert waits
          by_cases here : t' = t
          · subst here
            rw [Function.update_self] at waits
            cases waits
          · rw [Function.update_of_ne here] at waits
            exact inv.refreshing t' alert waits
        split at ran
        · cases ran
          exact ⟨inv.base, inv.writes, waits, before⟩
        · rename_i row stored
          cases ran
          refine ⟨inv.base, inv.writes, waits, ?_⟩
          intro r member shown same
          rcases List.mem_append.mp member with earlier | now
          · exact before r earlier shown same
          · rw [List.mem_singleton] at now
            subst now
            cases same
            obtain ⟨p, first⟩ := inv.refreshing t alert waiting
            refine ⟨p, ?_, first⟩
            rw [recorded, stored] at first
            exact first

/-- An alert that is acknowledged is answered with its row, not with a 404. -/
theorem responses_of_step {act : Act} (inv : Inv s) (ran : step s act = some s')
    (first : recorded s.system a = some p) :
    ∃ new, s'.responses = s.responses ++ new ∧ ∀ r ∈ new, r.alert = a → r.shown ≠ none := by
  cases act with
  | system act =>
      obtain ⟨system', stepped, same⟩ := Option.map_eq_some_iff.mp ran
      cases same
      refine ⟨answer s.system act, rfl, fun r member here missing => ?_⟩
      obtain ⟨stored, _⟩ := answer_cases inv.base member
      rw [here, missing] at stored
      rw [recorded, stored] at first
      cases first
  | refresh t =>
      simp only [step] at ran
      split at ran
      · cases ran
      · split at ran
        · cases ran
          exact ⟨[], (List.append_nil _).symm, fun r member => by cases member⟩
        · cases ran
          refine ⟨_, rfl, fun r member _ => ?_⟩
          rw [List.mem_singleton] at member
          subst member
          exact Option.some_ne_none _

theorem inv_of_reach (reached : Reach step Unbeaten Start s) : Inv s :=
  reached.invariant (fun _ => inv_start) fun _ _ _ inv meets ran => inv_step inv meets ran

/-- **The first acknowledgement stays**, whatever requests and runs of `check_thresholds` go on
from there; every response that shows the alert reports it, and from there on every
response does. -/
theorem acknowledged_once (reached : Reach step Unbeaten Start s)
    (later : Reach step Unbeaten (fun x => x = s) s') (first : recorded s.system a = some p) :
    recorded s'.system a = some p ∧
      (∀ r ∈ s'.responses, r.alert = a → ∀ shown ∈ r.shown, acknowledgement shown = some p) ∧
      ∃ new, s'.responses = s.responses ++ new ∧ ∀ r ∈ new, r.alert = a → r.shown ≠ none := by
  have kept : Inv s' ∧ recorded s'.system a = some p ∧
      ∃ new, s'.responses = s.responses ++ new ∧ ∀ r ∈ new, r.alert = a → r.shown ≠ none := by
    refine later.invariant (I := fun x => Inv x ∧ recorded x.system a = some p ∧
      ∃ new, x.responses = s.responses ++ new ∧ ∀ r ∈ new, r.alert = a → r.shown ≠ none) ?_ ?_
    · rintro x rfl
      exact ⟨inv_of_reach reached, first, [], (List.append_nil _).symm, fun r member => by
        cases member⟩
    · rintro x act x' ⟨inv, first, new, responses, found⟩ meets ran
      obtain ⟨new', responses', found'⟩ := responses_of_step inv ran first
      refine ⟨inv_step inv meets ran, recorded_of_step inv meets ran first, new ++ new', ?_, ?_⟩
      · rw [responses', responses, List.append_assoc]
      · intro r member
        rcases List.mem_append.mp member with earlier | now
        · exact found r earlier
        · exact found' r now
  obtain ⟨inv, first, new⟩ := kept
  refine ⟨first, fun r member here shown same => ?_, new⟩
  obtain ⟨p', reported, stored⟩ := inv.answered r member shown same
  rw [here, first] at stored
  cases stored
  exact reported

end Runs

/-! ## Two requests for one alert -/

/-- Alert 0 of node 7, a warning, and nobody has asked yet. -/
def oneAlert : Served where
  system :=
    { alerts := fun a => .settled (if a = 0 then some ((⟨7, 120, .fin 100, .warning⟩ : Breach).insert 0) else none)
      minted := 1
      pcs := fun _ => .idle
      history :=
        { breaches := fun a => if a = 0 then [.warning] else [], raised := fun _ => [], published := [] } }
  refreshing := fun _ => none
  responses := []

theorem start_oneAlert : Start oneAlert where
  system :=
    { free := fun a => rfl
      undrawn := fun a undrawn => if_neg (Nat.ne_of_gt undrawn)
      unique := fun node a b first second => by
        have only : ∀ c, (oneAlert.system.alerts c).committed.any (·.openFor node) =
            true → c = 0 := by
          intro c isOpen
          by_contra other
          have missing : (oneAlert.system.alerts c).committed = none := if_neg other
          rw [missing] at isOpen
          cases isOpen
        rw [only a first, only b second]
      pcs := fun t => rfl
      breaches := fun a => by
        by_cases here : a = 0
        · subst here
          rfl
        · simp [oneAlert, Row.settled, here]
      raised := fun a => rfl
      published := rfl }
  refreshing := fun t => rfl
  responses := rfl

/-- Users 1 and 2 acknowledge alert 0. -/
def arrive : List Act := [.system (.acknowledge 1 0 1), .system (.acknowledge 2 0 2)]

def statement (t : Nat) (now : Int) : Act := .system (.advance t now)

/-- The second request loads the alert after the first commit: both report user 1. -/
theorem acknowledged_once_turns :
    ∃ s s', Reach step Unbeaten Start s ∧ Reach step Unbeaten (fun x => x = s) s' ∧
      recorded s'.system 0 = some (10, some 1) ∧ s'.responses.length = 2 ∧
      ∀ r ∈ s'.responses, r.alert = 0 →
        ∀ shown ∈ r.shown, acknowledgement shown = some (10, some 1) := by
  obtain ⟨s, s', reached, first, later, answers⟩ :=
    exists_reach_later step Unbeaten start_oneAlert
      (arrive ++ [statement 1 10, statement 1 10, statement 1 10])
      [statement 2 20, .refresh 1]
      (fun s => decide (recorded s.system 0 = some (10, some 1)))
        (fun s => decide (s.responses.length = 2))
      (by decide +kernel)
  have once := acknowledged_once reached later (of_decide_eq_true first)
  exact ⟨s, s', reached, later, once.1, of_decide_eq_true answers, once.2.1⟩

/-- **Acknowledged twice.**  Both requests load the alert; the first is answered with user 1 at
10, and the second one's UPDATE then makes it user 2 at 20. -/
theorem acknowledged_twice :
    ¬ ∀ s s' a p, Reach step Always Start s → Reach step Always (fun x => x = s) s' →
        recorded s.system a = some p → recorded s'.system a = some p := by
  intro once
  obtain ⟨s, s', reached, first, later, second⟩ :=
    exists_reach_later step Always start_oneAlert
      (arrive ++ [statement 1 10, statement 2 20, statement 1 10, statement 1 10, .refresh 1])
      [statement 2 20, statement 2 20]
      (fun s => decide (recorded s.system 0 = some (10, some 1)))
      (fun s => decide (recorded s.system 0 = some (20, some 2))) (by decide +kernel)
  have stays := once s s' 0 (10, some 1) reached later (of_decide_eq_true first)
  rw [of_decide_eq_true second] at stays
  exact absurd stays (by decide)

end Empyrean.Alerts.Acknowledgement
