/-
# Empyrean.Alerts.Emails — a critical alert is mailed at most once

`check_thresholds` collects an e-mail for each alert that it raises to critical, and asks for
the recipient at the first of them, and again while there is none.  It sends the e-mails when
its transaction is committed and the broadcasts are out, all over one connection that may
break off anywhere.  Runs interleave with one another, with acknowledgements and with changes
of the settings, and a worker may die between any two steps.

* `sendEmails`, `State`, `step` — the runs of `Empyrean.Alerts.step` with their e-mails.
* `emailed_of_reach` — no alert is mailed about twice; what is mailed was committed as
  critical and broadcast before, and the recipient was configured.
* `all_emailed` — where a recipient is configured throughout, a critical alert is mailed
  about, or some run has it still before it.
-/
import Empyrean.Admin.Readers
import Empyrean.Alerts.Escalation
import Empyrean.Theory.Handover

namespace Empyrean.Alerts.Emails

set_option autoImplicit false

open Empyrean.Admin (Settings alertEmail)
open Empyrean.Theory Empyrean.Theory.Runs Empyrean.Theory.Handover
open Empyrean.Theory.PyNumeral (Text)

/-! ## Sending -/

/-- What the transport makes of a batch. -/
inductive Smtp
  | unconfigured
  /-- The connection, TLS or the login fails. -/
  | failed
  /-- Which messages the server accepts; past the end of the list the session is lost. -/
  | session (accepts : List Bool)

def Smtp.accepts : Smtp → Nat → Bool
  | .unconfigured, _ | .failed, _ => false
  | .session accepts, i => accepts.getD i false

/-- `send_emails`: each message, and whether it is delivered. -/
def sendEmails {α : Type} (smtp : Smtp) (messages : List α) : List (α × Bool) :=
  messages.zipIdx.map fun m => (m.1, smtp.accepts m.2)

theorem sendEmails_messages {α : Type} (smtp : Smtp) (messages : List α) :
    (sendEmails smtp messages).map Prod.fst = messages := by
  simp only [sendEmails, List.map_map]
  exact List.zipIdx_map_fst 0 messages

/-- `emails`, next to `publishes` -/
def emailsOf (entries : List Entry) : List Entry :=
  entries.filter fun e => e.raised && decide (e.breach.severity = .critical)

/-! ## The system -/

structure Message where
  recipient : Text
  entry : Entry
  delivered : Bool

structure State where
  core : Alerts.State
  settings : Settings
  /-- The recipients that the settings have had. -/
  configured : List Text
  emailRecipient : Nat → Option Text
  /-- The `SELECT` of `_alert_email` is next. -/
  asks : Nat → Bool
  emails : Nat → List Entry
  sent : List Message

inductive Act
  | core (act : Alerts.Act)
  | alertEmail (t : Nat)
  | sendAlertEmails (t : Nat) (smtp : Smtp)
  | updateSettings (settings : Settings)

/-- The run, or the request, that moves. -/
def run : Alerts.Act → Nat
  | .check t _ _ _ | .acknowledge t _ _ | .advance t _ | .abort t => t

/-- `if emails and email_recipient`, after the publishes -/
def State.mailIsNext (s : State) (t : Nat) : Bool :=
  match s.core.pcs t with
  | .publish [] => !(s.emails t).isEmpty && (s.emailRecipient t).isSome
  | _ => false

/-- The loop has come to `entries`: an alert that it raised to critical is added, and the
recipient is asked for if there is none. -/
def State.follow (s : State) (t : Nat) (core : Alerts.State) : State :=
  match core.pcs t with
  | .upsert _ entries =>
      { s with
        core := core
        emails := Function.update s.emails t (emailsOf entries)
        asks := Function.update s.asks t
          (decide ((s.emails t).length < (emailsOf entries).length) && (s.emailRecipient t).isNone) }
  | _ => { s with core := core, asks := Function.update s.asks t false }

def step (s : State) : Act → Option State
  | .core (.abort t) => (Alerts.step s.core (.abort t)).map (s.follow t)
  | .core act =>
      if s.asks (run act) || s.mailIsNext (run act) then none
      else (Alerts.step s.core act).map (s.follow (run act))
  | .alertEmail t =>
      if s.asks t then
        some { s with
          asks := Function.update s.asks t false
          emailRecipient := Function.update s.emailRecipient t (alertEmail s.settings) }
      else none
  | .sendAlertEmails t smtp =>
      match s.mailIsNext t, s.emailRecipient t with
      | true, some recipient =>
          some { s with
            core := s.core.go t .done
            sent := s.sent ++ (sendEmails smtp (s.emails t)).map fun m => ⟨recipient, m.1, m.2⟩ }
      | _, _ => none
  | .updateSettings settings =>
      some { s with
        settings := settings, configured := s.configured ++ (alertEmail settings).toList }

structure Start (s : State) : Prop where
  core : Alerts.Start s.core
  configured : ∀ recipient ∈ alertEmail s.settings, recipient ∈ s.configured
  emailRecipient : ∀ t, s.emailRecipient t = none
  asks : ∀ t, s.asks t = false
  emails : ∀ t, s.emails t = []
  sent : s.sent = []

/-! ## What a run does to its own e-mails -/

/-- The e-mails of a run whose transaction is committed. -/
def State.due (s : State) (t : Nat) : List Entry :=
  match s.core.pcs t with
  | .publish _ => s.emails t
  | _ => []

theorem due_publish {s : State} {t : Nat} {todo : List Entry}
    (here : s.core.pcs t = .publish todo) : s.due t = s.emails t := by
  rw [State.due, here]

theorem due_eq_nil {s : State} {t : Nat} (away : ∀ todo, s.core.pcs t ≠ .publish todo) :
    s.due t = [] := by
  unfold State.due
  split
  · rename_i todo here
    exact absurd here (away todo)
  · rfl

@[simp] theorem follow_core (s : State) (t : Nat) (core : Alerts.State) :
    (s.follow t core).core = core := by
  unfold State.follow
  split <;> rfl

@[simp] theorem follow_sent (s : State) (t : Nat) (core : Alerts.State) :
    (s.follow t core).sent = s.sent := by
  unfold State.follow
  split <;> rfl

@[simp] theorem follow_configured (s : State) (t : Nat) (core : Alerts.State) :
    (s.follow t core).configured = s.configured ∧ (s.follow t core).settings = s.settings ∧
      (s.follow t core).emailRecipient = s.emailRecipient := by
  unfold State.follow
  split <;> exact ⟨rfl, rfl, rfl⟩

theorem follow_upsert {s : State} {t : Nat} {core : Alerts.State} {todo : List Breach}
    {entries : List Entry} (here : core.pcs t = .upsert todo entries) :
    (s.follow t core).emails = Function.update s.emails t (emailsOf entries) := by
  rw [State.follow, here]

theorem follow_away {s : State} {t : Nat} {core : Alerts.State}
    (away : ∀ todo entries, core.pcs t ≠ .upsert todo entries) :
    (s.follow t core).emails = s.emails := by
  unfold State.follow
  split
  · rename_i todo entries here
    exact absurd here (away todo entries)
  · rfl

/-- One step of `Empyrean.Alerts`, as far as the deferred part of a run goes. -/
inductive Goes (core : Alerts.State) (t : Nat) (core' : Alerts.State) : Prop
  | commits (entries : List Entry) (here : core.pcs t = .upsert [] entries)
  (same : core' = core.commitRun t entries)
  | publishes (entry : Entry) (todo : List Entry) (here : core.pcs t = .publish (entry :: todo))
      (same : core' = core.publish t entry todo)
  | ends (here : core.pcs t = .publish []) (same : core' = core.go t .done)
  | elsewhere (before : ∀ todo, core.pcs t ≠ .publish todo)
  (after : ∀ todo, core'.pcs t ≠ .publish todo)
      (history : core'.history = core.history)

theorem goes_of_step {core core' : Alerts.State} {act : Alerts.Act}
    (ran : Alerts.step core act = some core') :
    Goes core (run act) core' ∧ ∀ t, t ≠ run act → core'.pcs t = core.pcs t := by
  have moved : ∀ (t : Nat) (pc : Pc), ∀ t', t' ≠ t → (core.go t pc).pcs t' = core.pcs t' :=
    fun t pc t' other => go_pcs_of_ne pc other
  have left : ∀ (t : Nat) (pc : Pc), core.pcs t = pc → (∀ todo, pc ≠ .publish todo) →
      ∀ todo, core.pcs t ≠ .publish todo := by
    rintro t pc here away todo same
    exact away todo (here.symm.trans same)
  have came : ∀ (t : Nat) (pc : Pc), (∀ todo, pc ≠ .publish todo) →
      ∀ todo, (core.go t pc).pcs t ≠ .publish todo := by
    intro t pc away todo same
    exact away todo ((go_pcs_self core t pc).symm.trans same)
  cases taken_of_step ran with
  | checks t warning critical latest here =>
      exact ⟨.elsewhere (left t _ here (by simp)) (came t _ (by simp)) rfl, moved t _⟩
  | arrives t alert user here =>
      exact ⟨.elsewhere (left t _ here (by simp)) (came t _ (by simp)) rfl, moved t _⟩
  | upserts t now breach todo entries alerts' minted' e here =>
      exact ⟨.elsewhere (left t _ here (by simp)) (came t _ (by simp)) rfl, moved t _⟩
  | commits t now entries here => exact ⟨.commits entries here rfl, moved t _⟩
  | publishes t now entry todo here => exact ⟨.publishes entry todo here rfl, moved t _⟩
  | ends t now here => exact ⟨.ends here rfl, moved t _⟩
  | answers t now alert user here =>
      exact ⟨.elsewhere (left t _ here (by simp)) (came t _ (by simp)) rfl, moved t _⟩
  | loads t now alert user row here =>
      exact ⟨.elsewhere (left t _ here (by simp)) (came t _ (by simp)) rfl, moved t _⟩
  | writes t now alert user row here =>
      exact ⟨.elsewhere (left t _ here (by simp)) (came t _ (by simp)) rfl, moved t _⟩
  | misses t now alert user here =>
      exact ⟨.elsewhere (left t _ here (by simp)) (came t _ (by simp)) rfl, moved t _⟩
  | acknowledges t now alert here =>
      exact ⟨.elsewhere (left t _ here (by simp)) (came t _ (by simp)) rfl, moved t _⟩
  | aborts t unpublished => exact ⟨.elsewhere unpublished (came t _ (by simp)) rfl, moved t _⟩

theorem follow_emails_of_ne {s : State} {t t' : Nat} (core : Alerts.State) (other : t' ≠ t) :
    (s.follow t core).emails t' = s.emails t' := by
  unfold State.follow
  split
  · exact Function.update_of_ne other ..
  · rfl

theorem follow_due_of_ne {s : State} {t t' : Nat} {core : Alerts.State} (other : t' ≠ t)
    (stays : core.pcs t' = s.core.pcs t') : (s.follow t core).due t' = s.due t' := by
  unfold State.due
  rw [follow_core, stays, follow_emails_of_ne core other]

/-- What is due after a step of a run or a request. -/
theorem follow_due {s : State} {t : Nat} {core : Alerts.State}
    (others : ∀ t', t' ≠ t → core.pcs t' = s.core.pcs t') {items : List Entry}
    (here : (s.follow t core).due t = items) :
    (s.follow t core).due = Function.update s.due t items := by
  funext t'
  by_cases same : t' = t
  · rw [same, here, Function.update_self]
  · rw [follow_due_of_ne same (others t' same), Function.update_of_ne same]

theorem raised_kept {core core' : Alerts.State} (move : Move core core') (a : Nat) {sev : Severity}
    (member : sev ∈ core.history.raised a) : sev ∈ core'.history.raised a := by
  cases move with
  | quiet t pc' alerts' minted' _ _ _ _ _ _ same => rwa [same]
  | run t entries _ same =>
      rw [same, commitRun_raised]
      exact List.mem_append_left _ member
  | publish t entry todo _ same => rwa [same]
  | acknowledge t alert _ same => rwa [same]

theorem published_kept {core core' : Alerts.State} {t : Nat} (goes : Goes core t core') {e : Entry}
    (member : e ∈ core.history.published) : e ∈ core'.history.published := by
  cases goes with
  | commits entries _ same => rwa [same]
  | publishes entry todo _ same =>
      rw [same, publish_published]
      exact List.mem_append_left _ member
  | ends _ same => rwa [same]
  | elsewhere _ _ history => rwa [history]

/-! ## The invariant -/

/-- The alert was raised to critical, and that is committed. -/
def Raised (core : Alerts.State) (e : Entry) : Prop :=
  e.breach.severity = .critical ∧ Committed core e

theorem Raised.step {core core' : Alerts.State} {act : Alerts.Act} (inv : Alerts.Inv core)
    (ran : Alerts.step core act = some core') {e : Entry} (raised : Raised core e) :
    Raised core' e :=
  have move := move_of_step inv ran
  ⟨raised.1, Committed.move move inv (fun a _ member => raised_kept move a member) raised.2⟩

structure Inv (s : State) : Prop where
  core : Alerts.Inv s.core
  recorded : Recorded s.core
  broadcast : Alerts.Broadcast s.core
  fits : ∀ t todo entries, s.core.pcs t = .upsert todo entries → s.emails t = emailsOf entries
  once : Once (s.sent.map (·.entry.rise)) fun t => (s.due t).map Entry.rise
  due : ∀ t, ∀ e ∈ s.due t, Raised s.core e
  announced : ∀ t todo, s.core.pcs t = .publish todo →
    ∀ e ∈ s.emails t, e ∈ todo ∨ e ∈ s.core.history.published
  sent : ∀ m ∈ s.sent, Raised s.core m.entry ∧ m.entry ∈ s.core.history.published ∧
    m.recipient ∈ s.configured
  recipients : ∀ t, ∀ recipient ∈ s.emailRecipient t, recipient ∈ s.configured
  current : ∀ recipient ∈ alertEmail s.settings, recipient ∈ s.configured

theorem inv_start {s : State} (starts : Start s) : Inv s where
  core := Alerts.inv_start starts.core
  recorded := recorded_start starts.core
  broadcast := broadcast_start starts.core
  fits := fun t todo entries here => by
    rw [starts.core.pcs t] at here
    cases here
  once := by
    have none_due : (fun t => (s.due t).map Entry.rise) = fun _ => [] := by
      funext t
      rw [due_eq_nil fun todo here => by rw [starts.core.pcs t] at here; cases here]
      rfl
    rw [none_due, starts.sent]
    exact once_empty
  due := fun t e member => by
    rw [due_eq_nil fun todo here => by rw [starts.core.pcs t] at here; cases here] at member
    cases member
  announced := fun t todo here => by
    rw [starts.core.pcs t] at here
    cases here
  sent := fun m member => by
    rw [starts.sent] at member
    cases member
  recipients := fun t recipient found => by
    rw [starts.emailRecipient t] at found
    cases found
  current := starts.configured

/-- The e-mails of a run that commits are about rises that nobody had committed before. -/
theorem emailsOf_fresh {s : State} (inv : Inv s) {t : Nat} {entries : List Entry}
    (here : s.core.pcs t = .upsert [] entries) {e : Entry} (member : e ∈ emailsOf entries) :
    e.breach.severity = .critical ∧ e ∈ entries.filter (·.raised) ∧ ∀ e', Committed s.core e' →
      e.rise ≠ e'.rise := by
  obtain ⟨among, both⟩ := List.mem_filter.mp member
  obtain ⟨raised, critical⟩ := (Bool.and_eq_true _ _).mp both
  have upserted : e ∈ entries.filter (·.raised) := List.mem_filter.mpr ⟨among, raised⟩
  exact ⟨of_decide_eq_true critical, upserted,
    fun e' committed => raise_differs inv.core inv.recorded here upserted committed⟩

theorem emailsOf_sublist (entries : List Entry) :
    (emailsOf entries).Sublist (entries.filter (·.raised)) := by
  have split : emailsOf entries =
      (entries.filter (·.raised)).filter fun e => decide (e.breach.severity = .critical) := by
    rw [List.filter_filter]
    exact List.filter_congr fun e _ => Bool.and_comm ..
  rw [split]
  exact List.filter_sublist

/-- What a step makes due: a commit the run's own e-mails, and the end of a run nothing. -/
theorem due_of_goes {s : State} {t : Nat} {core : Alerts.State} (goes : Goes s.core t core)
    (others : ∀ t', t' ≠ t → core.pcs t' = s.core.pcs t')
    (fits : ∀ todo entries, s.core.pcs t = .upsert todo entries → s.emails t = emailsOf entries) :
    (∃ entries, s.core.pcs t = .upsert [] entries ∧ core = s.core.commitRun t entries ∧
      (s.follow t core).due = Function.update s.due t (emailsOf entries)) ∨
    (core.history.raised = s.core.history.raised ∧ (s.follow t core).due = s.due) ∨
    (core.history.raised = s.core.history.raised ∧ s.core.pcs t = .publish [] ∧
      (s.follow t core).due = Function.update s.due t []) := by
  have atPublish : ∀ todo, core.pcs t = .publish todo → (s.follow t core).due t = s.emails t := by
    intro todo here
    have still : (s.follow t core).core.pcs t = .publish todo := by rwa [follow_core]
    rw [due_publish still, follow_away fun _ _ there => by rw [here] at there; cases there]
  have atRest : (∀ todo, core.pcs t ≠ .publish todo) → (s.follow t core).due t = [] := fun away =>
    due_eq_nil (by rwa [follow_core])
  cases goes with
  | commits entries here same =>
      have arrives : core.pcs t = .publish (entries.filter (·.raised)) := by
        rw [same]
        exact go_pcs_self s.core t _
      exact Or.inl ⟨entries, here, same,
        follow_due others ((atPublish _ arrives).trans (fits [] entries here))⟩
  | publishes entry todo here same =>
      have arrives : core.pcs t = .publish todo := by
        rw [same]
        exact go_pcs_self s.core t _
      have unchanged : (s.follow t core).due t = s.due t :=
        (atPublish _ arrives).trans (due_publish here).symm
      refine Or.inr (Or.inl ⟨?_, (follow_due others unchanged).trans (Function.update_eq_self t s.due)⟩)
      rw [same]
      rfl
  | ends here same =>
      have arrives : core.pcs t = .done := by
        rw [same]
        exact go_pcs_self s.core t _
      refine Or.inr (Or.inr ⟨?_, here, follow_due others (atRest fun todo there => by rw [arrives] at there; cases there)⟩)
      rw [same]
      rfl
  | elsewhere before after history =>
      have unchanged : (s.follow t core).due t = s.due t :=
        (atRest after).trans (due_eq_nil before).symm
      exact Or.inr (Or.inl ⟨congrArg _ history, (follow_due others unchanged).trans (Function.update_eq_self t s.due)⟩)

theorem map_rise_update (due : Nat → List Entry) (t : Nat) (items : List Entry) :
    (fun t' => (Function.update due t items t').map Entry.rise) =
      Function.update (fun t' => (due t').map Entry.rise) t (items.map Entry.rise) := by
  funext t'
  by_cases same : t' = t
  · rw [same, Function.update_self, Function.update_self]
  · rw [Function.update_of_ne same, Function.update_of_ne same]

theorem mem_update_due {due : Nat → List Entry} {t t' : Nat} {items : List Entry} {e : Entry}
    (member : e ∈ Function.update due t items t') : (t' = t ∧ e ∈ items) ∨ e ∈ due t' := by
  by_cases same : t' = t
  · rw [same, Function.update_self] at member
    exact Or.inl ⟨same, member⟩
  · rw [Function.update_of_ne same] at member
    exact Or.inr member

section Follow

variable {s : State} {act : Alerts.Act} {core : Alerts.State}

theorem pcs_commitRun (s : Alerts.State) (t : Nat) (entries : List Entry) :
    (s.commitRun t entries).pcs t = .publish (entries.filter (·.raised)) := go_pcs_self s t _

theorem Inv.follow_once (inv : Inv s) (ran : Alerts.step s.core act = some core) :
    Once (s.sent.map (·.entry.rise)) fun t => ((s.follow (run act) core).due t).map Entry.rise := by
  obtain ⟨goes, others⟩ := goes_of_step ran
  rcases due_of_goes goes others (inv.fits (run act)) with ⟨entries, here, same, due⟩ |
    ⟨_, due⟩ | ⟨_, _, due⟩
  · rw [due, map_rise_update]
    refine inv.once.enqueue _ ?_ fun rise member => ?_
    · have pending :=
        (inv.broadcast.move inv.core inv.recorded (move_of_step inv.core ran)).pendingOnce (run act)
      rw [same, pcs_commitRun] at pending
      exact pending.sublist ((emailsOf_sublist entries).map _)
    · obtain ⟨e, among, rfl⟩ := List.mem_map.mp member
      obtain ⟨_, _, differs⟩ := emailsOf_fresh inv here among
      refine ⟨fun told => ?_, fun t waiting => ?_⟩
      · obtain ⟨m, sent, same⟩ := List.mem_map.mp told
        exact differs _ (inv.sent m sent).1.2 same.symm
      · obtain ⟨e', waits, same⟩ := List.mem_map.mp waiting
        exact differs _ (inv.due t e' waits).2 same.symm
  · rw [due]
    exact inv.once
  · rw [due, map_rise_update]
    exact inv.once.drop _

theorem Inv.follow_due (inv : Inv s) (ran : Alerts.step s.core act = some core)
    (t : Nat) {e : Entry} (member : e ∈ (s.follow (run act) core).due t) : Raised core e := by
  obtain ⟨goes, others⟩ := goes_of_step ran
  rcases due_of_goes goes others (inv.fits (run act)) with ⟨entries, here, same, due⟩ |
    ⟨_, due⟩ | ⟨_, _, due⟩
  · rw [due] at member
    rcases mem_update_due member with ⟨rfl, now⟩ | earlier
    · obtain ⟨critical, raised, _⟩ := emailsOf_fresh inv here now
      have broadcast := inv.broadcast.move inv.core inv.recorded (move_of_step inv.core ran)
      refine ⟨critical, broadcast.pending (run act) e ?_⟩
      rw [same, pcs_commitRun]
      exact raised
    · exact (inv.due t e earlier).step inv.core ran
  · rw [due] at member
    exact (inv.due t e member).step inv.core ran
  · rw [due] at member
    rcases mem_update_due member with ⟨_, none⟩ | earlier
    · cases none
    · exact (inv.due t e earlier).step inv.core ran

theorem Inv.follow_announced (inv : Inv s) (ran : Alerts.step s.core act = some core) {t : Nat}
    {todo : List Entry} (here : core.pcs t = .publish todo) {e : Entry}
    (member : e ∈ (s.follow (run act) core).emails t) : e ∈ todo ∨ e ∈ core.history.published := by
  obtain ⟨goes, others⟩ := goes_of_step ran
  by_cases same : t = run act
  · subst same
    rw [follow_away fun _ _ there => by rw [here] at there; cases there] at member
    cases goes with
    | commits entries before moved =>
        rw [moved, pcs_commitRun] at here
        cases here
        rw [inv.fits _ _ _ before] at member
        exact Or.inl ((emailsOf_sublist entries).subset member)
    | publishes entry rest before moved =>
        rw [moved, show (s.core.publish (run act) entry rest).pcs (run act) =
          .publish rest from go_pcs_self s.core _ _] at here
        cases here
        rw [moved, publish_published]
        rcases inv.announced _ _ before e member with waiting | told
        · rcases List.mem_cons.mp waiting with rfl | rest
          · exact Or.inr (List.mem_append_right _ List.mem_cons_self)
          · exact Or.inl rest
        · exact Or.inr (List.mem_append_left _ told)
    | ends before moved =>
        rw [moved, go_pcs_self] at here
        cases here
    | elsewhere before after history => exact absurd here (after todo)
  · rw [follow_emails_of_ne core same] at member
    rw [others t same] at here
    exact (inv.announced t todo here e member).imp_right (published_kept goes)

/-- **A run or a request goes on.** -/
theorem Inv.follow (inv : Inv s) (ran : Alerts.step s.core act = some core) :
    Inv (s.follow (run act) core) := by
  have move := move_of_step inv.core ran
  obtain ⟨goes, others⟩ := goes_of_step ran
  obtain ⟨configured, settings, recipients⟩ := follow_configured s (run act) core
  refine ⟨?_, ?_, ?_, ?_, ?_, ?_, ?_, ?_, ?_, ?_⟩
  · rw [follow_core]
    exact inv.core.move move
  · rw [follow_core]
    exact inv.recorded.move inv.core move
  · rw [follow_core]
    exact inv.broadcast.move inv.core inv.recorded move
  · intro t todo entries here
    rw [follow_core] at here
    by_cases same : t = run act
    · rw [same] at here ⊢
      rw [follow_upsert here, Function.update_self]
    · rw [follow_emails_of_ne core same]
      exact inv.fits t todo entries ((others t same).symm.trans here)
  · rw [follow_sent]
    exact inv.follow_once ran
  · rw [follow_core]
    exact fun t e member => inv.follow_due ran t member
  · rw [follow_core]
    exact fun t todo here e member => inv.follow_announced ran here member
  · rw [follow_core, follow_sent, configured]
    intro m member
    obtain ⟨raised, told, known⟩ := inv.sent m member
    exact ⟨raised.step inv.core ran, published_kept goes told, known⟩
  · rw [recipients, configured]
    exact inv.recipients
  · rw [settings, configured]
    exact inv.current

end Follow

theorem mailIsNext_cases {s : State} {t : Nat} (next : s.mailIsNext t = true) :
    s.core.pcs t = .publish [] ∧ s.emails t ≠ [] ∧ s.emailRecipient t ≠ none := by
  unfold State.mailIsNext at next
  split at next
  · rename_i here
    obtain ⟨some_email, known⟩ := (Bool.and_eq_true _ _).mp next
    exact ⟨here, by simpa using some_email, Option.isSome_iff_ne_none.mp known⟩
  · cases next

/-- The steps, one by one. -/
inductive Stepped (s : State) : Act → State → Prop
  | core (act : Alerts.Act) (core : Alerts.State) (ran : Alerts.step s.core act = some core)
      (free : (∃ t, act = .abort t) ∨ (s.asks (run act) = false ∧ s.mailIsNext (run act) = false)) :
      Stepped s (.core act) (s.follow (run act) core)
  | alertEmail (t : Nat) (asks : s.asks t = true) :
      Stepped s (.alertEmail t)
        { s with
          asks := Function.update s.asks t false
          emailRecipient := Function.update s.emailRecipient t (alertEmail s.settings) }
  | sendAlertEmails (t : Nat) (smtp : Smtp) (recipient : Text) (next : s.mailIsNext t = true)
      (known : s.emailRecipient t = some recipient) :
      Stepped s (.sendAlertEmails t smtp)
        { s with
          core := s.core.go t .done
          sent := s.sent ++ (sendEmails smtp (s.emails t)).map fun m => ⟨recipient, m.1, m.2⟩ }
  | updateSettings (settings : Settings) :
      Stepped s (.updateSettings settings)
        { s with settings := settings, configured := s.configured ++ (alertEmail settings).toList }

theorem stepped {s s' : State} {act : Act} (ran : step s act = some s') : Stepped s act s' := by
  have gated : ∀ act, (if s.asks (run act) || s.mailIsNext (run act) then none
      else (Alerts.step s.core act).map (s.follow (run act))) = some s' →
        Stepped s (.core act) s' := by
    intro act ran
    split at ran
    · cases ran
    · rename_i free
      obtain ⟨core, went, rfl⟩ := Option.map_eq_some_iff.mp ran
      exact .core act core went (Or.inr (by simpa using free))
  cases act with
  | core act =>
      cases act with
      | abort t =>
          obtain ⟨core, went, rfl⟩ := Option.map_eq_some_iff.mp ran
          exact .core (.abort t) core went (Or.inl ⟨t, rfl⟩)
      | check t warning critical latest => exact gated _ ran
      | acknowledge t alert user => exact gated _ ran
      | advance t now => exact gated _ ran
  | alertEmail t =>
      simp only [step] at ran
      split at ran
      · rename_i asks
        cases ran
        exact .alertEmail t asks
      · cases ran
  | sendAlertEmails t smtp =>
      simp only [step] at ran
      split at ran
      · rename_i recipient next known
        cases ran
        exact .sendAlertEmails t smtp recipient next known
      · cases ran
  | updateSettings settings =>
      cases ran
      exact .updateSettings settings

theorem rises_sent {smtp : Smtp} {recipient : Text} (emails : List Entry) :
    ((sendEmails smtp emails).map fun m => (⟨recipient, m.1, m.2⟩ : Message)).map (·.entry.rise) =
      emails.map Entry.rise := by
  rw [List.map_map]
  have same := congrArg (List.map Entry.rise) (sendEmails_messages smtp emails)
  rwa [List.map_map] at same

/-- **A run sends its e-mails.** -/
theorem Inv.sendAlertEmails {s : State} (inv : Inv s) {t : Nat} (smtp : Smtp) {recipient : Text}
    (next : s.mailIsNext t = true) (known : s.emailRecipient t = some recipient) :
    Inv { s with
      core := s.core.go t .done
      sent := s.sent ++ (sendEmails smtp (s.emails t)).map fun m => ⟨recipient, m.1, m.2⟩ } := by
  obtain ⟨here, _, _⟩ := mailIsNext_cases next
  have ran : Alerts.step s.core (.advance t 0) = some (s.core.go t .done) := by
    simp only [Alerts.step, here]
  have move := move_of_step inv.core ran
  have self : (s.core.go t .done).pcs t = .done := go_pcs_self s.core t .done
  have dues : ∀ sent,
      (fun t' => (State.due { s with core := s.core.go t .done, sent := sent } t').map Entry.rise) =
      Function.update (fun t' => (s.due t').map Entry.rise) t [] := by
    intro sent
    funext t'
    by_cases same : t' = t
    · rw [same, Function.update_self, due_eq_nil fun todo there => by
        rw [self] at there; cases there]
      rfl
    · rw [Function.update_of_ne same]
      simp only [State.due, go_pcs_of_ne _ same]
  refine ⟨inv.core.move move, inv.recorded.move inv.core move,
    inv.broadcast.move inv.core inv.recorded move, ?_, ?_, ?_, ?_, ?_, inv.recipients, inv.current⟩
  · intro t' todo entries there
    by_cases same : t' = t
    · rw [same, self] at there
      cases there
    · rw [go_pcs_of_ne _ same] at there
      exact inv.fits t' todo entries there
  · rw [dues, List.map_append, rises_sent, ← due_publish here]
    exact inv.once.settle t
  · intro t' e member
    by_cases same : t' = t
    · rw [same, due_eq_nil fun todo there => by rw [self] at there; cases there] at member
      cases member
    · simp only [State.due, go_pcs_of_ne _ same] at member
      exact (inv.due t' e member).step inv.core ran
  · intro t' todo there e member
    by_cases same : t' = t
    · rw [same, self] at there
      cases there
    · rw [go_pcs_of_ne _ same] at there
      exact inv.announced t' todo there e member
  · intro m member
    rcases List.mem_append.mp member with earlier | now
    · obtain ⟨raised, told, configured⟩ := inv.sent m earlier
      exact ⟨raised.step inv.core ran, told, configured⟩
    · obtain ⟨⟨e, delivered⟩, among, rfl⟩ := List.mem_map.mp now
      have queued : e ∈ s.emails t := by
        have inside := List.mem_map_of_mem (f := Prod.fst) among
        rwa [sendEmails_messages] at inside
      have raised := inv.due t e (by rwa [due_publish here])
      refine ⟨raised.step inv.core ran, ?_, inv.recipients t recipient known⟩
      rcases inv.announced t [] here e queued with waiting | told
      · cases waiting
      · exact told

theorem Inv.step {s s' : State} {act : Act} (inv : Inv s) (ran : Emails.step s act = some s') :
    Inv s' := by
  cases stepped ran with
  | core act core went free => exact inv.follow went
  | alertEmail t asks =>
      refine { inv with recipients := fun t' recipient found => ?_ }
      by_cases same : t' = t
      · rw [same] at found
        simp only [Function.update_self] at found
        exact inv.current recipient found
      · simp only [Function.update_of_ne same] at found
        exact inv.recipients t' recipient found
  | sendAlertEmails t smtp recipient next known => exact inv.sendAlertEmails smtp next known
  | updateSettings settings =>
      refine { inv with sent := fun m member => ?_, recipients := fun t recipient found => ?_, current := fun recipient found => ?_ }
      · obtain ⟨raised, told, configured⟩ := inv.sent m member
        exact ⟨raised, told, List.mem_append_left _ configured⟩
      · exact List.mem_append_left _ (inv.recipients t recipient found)
      · exact List.mem_append_right _ (Option.mem_toList.mpr found)

theorem inv_of_reach {s : State} (reached : Reach step Always Start s) : Inv s :=
  reached.invariant (fun _ starts => inv_start starts) fun _ _ _ inv _ ran => inv.step ran

/-! ## Every run -/

structure Emailed (s : State) : Prop where
  /-- No alert is mailed about twice. -/
  once : (s.sent.map (·.entry.alert)).Nodup
  /-- Each is critical by a committed rise, -/
  critical : ∀ m ∈ s.sent, m.entry.breach.severity = .critical ∧ Committed s.core m.entry
  /-- has been broadcast, -/
  broadcast : ∀ m ∈ s.sent, m.entry ∈ s.core.history.published
  /-- and the message went to a recipient that was configured. -/
  recipient : ∀ m ∈ s.sent, m.recipient ∈ s.configured

/-- **An alert is mailed about at most once**, whatever interleaves. -/
theorem emailed_of_reach {s : State} (reached : Reach step Always Start s) : Emailed s := by
  have inv := inv_of_reach reached
  refine ⟨?_, fun m member => (inv.sent m member).1, fun m member => (inv.sent m member).2.1,
    fun m member => (inv.sent m member).2.2⟩
  have rises := List.pairwise_map.mp inv.once.told
  refine List.pairwise_map.mpr (rises.imp_of_mem fun member member' different same => different ?_)
  exact Prod.ext same ((inv.sent _ member).1.1.trans (inv.sent _ member').1.1.symm)

/-- The settings of a system that mails its alerts. -/
def mailing : Settings := fun k => if k = .alertEmail then some "ops".toList else none

def quiet : State where
  core := noAlerts
  settings := mailing
  configured := ["ops".toList]
  emailRecipient := fun _ => none
  asks := fun _ => false
  emails := fun _ => []
  sent := []

theorem start_quiet : Start quiet where
  core := start_noAlerts
  configured := fun recipient known => by
    have only : alertEmail mailing = some "ops".toList := by decide
    obtain rfl := Option.some.inj (only.symm.trans known)
    exact List.mem_cons_self
  emailRecipient := fun _ => rfl
  asks := fun _ => rfl
  emails := fun _ => rfl
  sent := rfl

/-- An alert that is critical at once, and a second critical reading. -/
def outbreak : List Act :=
  [.core (checkAt 0 180), .core (.advance 0 0), .alertEmail 0, .core (.advance 0 0),
    .core (.advance 0 0),
    .sendAlertEmails 0 (.session [true])] ++ ([checkAt 1 190] ++ advance 1 3).map .core

theorem emailed_of_reach_outbreak :
    ∃ s, Reach step Always Start s ∧ s.core.history.raised 0 = [.critical] ∧
    s.sent.map (fun m => (m.entry.alert, m.delivered)) = [(0, true)] ∧
      (s.sent.map (·.entry.alert)).Nodup := by
  obtain ⟨s, reached, final⟩ := exists_reach_of_run step Always start_quiet outbreak
    (fun s => decide (s.core.history.raised 0 = [.critical] ∧ s.sent.map (fun m => (m.entry.alert, m.delivered)) = [(0, true)]))
    (by decide +kernel)
  obtain ⟨raised, sent⟩ := of_decide_eq_true final
  exact ⟨s, reached, raised, sent, (emailed_of_reach reached).once⟩

/-! ## With a recipient throughout -/

/-- No change of the settings takes the recipient away. -/
def Addressed (_ : State) : Act → Prop
  | .updateSettings settings => (alertEmail settings).isSome = true
  | _ => True

instance (s : State) : (act : Act) → Decidable (Addressed s act)
  | .updateSettings settings => inferInstanceAs (Decidable ((alertEmail settings).isSome = true))
  | .core _ | .alertEmail _ | .sendAlertEmails _ _ => inferInstanceAs (Decidable True)

structure Served (s : State) : Prop where
  present : (alertEmail s.settings).isSome = true
  asked : ∀ t todo entries, s.core.pcs t = .upsert todo entries → s.emails t ≠ [] →
    s.asks t = true ∨ s.emailRecipient t ≠ none
  known : ∀ t todo, s.core.pcs t = .publish todo → s.emails t ≠ [] → s.emailRecipient t ≠ none
  covered : ∀ a, .critical ∈ s.core.history.raised a →
    (a, .critical) ∈ s.sent.map (·.entry.rise) ∨ ∃ t, (a, .critical) ∈ (s.due t).map Entry.rise

/-- A run is in its loop because it has just started, or was in it before; it has not failed. -/
theorem upsert_of_step {core core' : Alerts.State} {act : Alerts.Act}
    (ran : Alerts.step core act = some core') {todo : List Breach} {entries : List Entry}
    (here : core'.pcs (run act) = .upsert todo entries) : (∀ t, act ≠ .abort t) ∧
      (entries = [] ∨ ∃ todo' entries', core.pcs (run act) = .upsert todo' entries') := by
  have came : ∀ (t : Nat) (pc : Pc), (core.go t pc).pcs t = .upsert todo entries →
      pc = .upsert todo entries :=
    fun t pc same => (go_pcs_self core t pc).symm.trans same
  cases taken_of_step ran with
  | checks t warning critical latest =>
      cases came t _ here
      exact ⟨fun t => by simp, Or.inl rfl⟩
  | upserts t now breach rest before alerts' minted' e was =>
      exact ⟨fun t => by simp, Or.inr ⟨_, _, was⟩⟩
  | arrives t => cases came t _ here
  | commits t => cases came t _ here
  | publishes t => cases came t _ here
  | ends t => cases came t _ here
  | answers t => cases came t _ here
  | loads t => cases came t _ here
  | writes t => cases came t _ here
  | misses t => cases came t _ here
  | acknowledges t => cases came t _ here
  | aborts t => cases came t _ here

theorem follow_asks {s : State} {t : Nat} {core : Alerts.State} {todo : List Breach}
    {entries : List Entry} (here : core.pcs t = .upsert todo entries) :
    (s.follow t core).asks = Function.update s.asks t
      (decide ((s.emails t).length < (emailsOf entries).length) && (s.emailRecipient t).isNone) := by
  rw [State.follow, here]

theorem follow_asks_of_ne {s : State} {t t' : Nat} (core : Alerts.State) (other : t' ≠ t) :
    (s.follow t core).asks t' = s.asks t' := by
  unfold State.follow
  split <;> exact Function.update_of_ne other ..

section Served

variable {s : State} {act : Alerts.Act} {core : Alerts.State}

theorem Served.follow_asked (served : Served s) (ran : Alerts.step s.core act = some core)
    (free : (∃ t, act = .abort t) ∨ (s.asks (run act) = false ∧ s.mailIsNext (run act) = false))
    {todo : List Breach} {entries : List Entry} (here : core.pcs (run act) = .upsert todo entries)
    (some_email : (s.follow (run act) core).emails (run act) ≠ []) :
    (s.follow (run act) core).asks (run act) = true ∨ s.emailRecipient (run act) ≠ none := by
  obtain ⟨alive, before⟩ := upsert_of_step ran here
  have quiet : s.asks (run act) = false := by
    rcases free with ⟨t, aborted⟩ | ⟨quiet, _⟩
    · exact absurd aborted (alive t)
    · exact quiet
  rw [follow_upsert here, Function.update_self] at some_email
  rw [follow_asks here, Function.update_self]
  by_cases unknown : s.emailRecipient (run act) = none
  · -- nothing was asked for, so there was no e-mail before
    rcases before with rfl | ⟨todo', entries', was⟩
    · exact absurd rfl some_email
    · have none_before : s.emails (run act) = [] := by
        by_contra some_before
        rcases served.asked _ _ _ was some_before with asks | known
        · rw [quiet] at asks
          cases asks
        · exact known unknown
      rw [none_before, unknown]
      have longer : 0 < (emailsOf entries).length := List.length_pos_iff.mpr some_email
      simp [longer]
  · exact Or.inr unknown

theorem Served.follow_known (served : Served s) (ran : Alerts.step s.core act = some core)
    (free : (∃ t, act = .abort t) ∨ (s.asks (run act) = false ∧ s.mailIsNext (run act) = false))
    {todo : List Entry} (here : core.pcs (run act) = .publish todo)
    (some_email : s.emails (run act) ≠ []) : s.emailRecipient (run act) ≠ none := by
  obtain ⟨goes, _⟩ := goes_of_step ran
  cases goes with
  | commits entries was same =>
      have quiet : s.asks (run act) = false := by
        rcases free with ⟨t, rfl⟩ | ⟨quiet, _⟩
        · exfalso
          have ends : core.pcs t = .done := by
            cases taken_of_step ran with
            | aborts _ _ => exact go_pcs_self s.core t .done
          rw [show run (.abort t) = t from rfl, ends] at here
          cases here
        · exact quiet
      rcases served.asked _ _ _ was some_email with asks | known
      · rw [quiet] at asks
        cases asks
      · exact known
  | publishes entry rest was same => exact served.known _ _ was some_email
  | ends was same =>
      rw [same, go_pcs_self] at here
      cases here
  | elsewhere before after history => exact absurd here (after todo)

theorem Served.follow_covered (inv : Inv s) (served : Served s)
    (ran : Alerts.step s.core act = some core)
    (free : (∃ t, act = .abort t) ∨ (s.asks (run act) = false ∧ s.mailIsNext (run act) = false))
    {a : Nat} (raised : .critical ∈ core.history.raised a) :
    (a, .critical) ∈ s.sent.map (·.entry.rise) ∨
      ∃ t, (a, .critical) ∈ ((s.follow (run act) core).due t).map Entry.rise := by
  obtain ⟨goes, others⟩ := goes_of_step ran
  rcases due_of_goes goes others (inv.fits (run act)) with ⟨entries, here, same, due⟩ |
    ⟨history, due⟩ | ⟨history, here, due⟩
  · rw [same, commitRun_raised] at raised
    rcases List.mem_append.mp raised with earlier | now
    · rcases served.covered a earlier with told | ⟨t, waiting⟩
      · exact Or.inl told
      · refine Or.inr ⟨t, ?_⟩
        have other : t ≠ run act := by
          rintro rfl
          rw [due_eq_nil fun todo there => by rw [here] at there; cases there] at waiting
          cases waiting
        rwa [due, Function.update_of_ne other]
    · obtain ⟨e, among, rfl, critical⟩ := mem_severitiesOf.mp now
      obtain ⟨member, upserted⟩ := List.mem_filter.mp among
      refine Or.inr ⟨run act, ?_⟩
      rw [due, Function.update_self]
      have mailed : e ∈ emailsOf entries :=
        List.mem_filter.mpr ⟨member, (Bool.and_eq_true _ _).mpr ⟨upserted, decide_eq_true critical⟩⟩
      exact List.mem_map.mpr ⟨e, mailed, Prod.ext rfl critical⟩
  · rw [history] at raised
    rw [due]
    exact served.covered a raised
  · -- a run ends without its e-mails only where it has none
    have none_due : s.due (run act) = [] := by
      rw [due_publish here]
      by_contra some_email
      have next : s.mailIsNext (run act) = true := by
        unfold State.mailIsNext
        rw [here]
        have known := Option.isSome_iff_ne_none.mpr (served.known _ _ here some_email)
        simp [some_email, known]
      rcases free with ⟨t, rfl⟩ | ⟨_, free⟩
      · cases taken_of_step ran with
        | aborts _ unpublished => exact unpublished [] here
      · rw [next] at free
        cases free
    rw [history] at raised
    rw [due, ← none_due, Function.update_eq_self]
    exact served.covered a raised

theorem Served.step {s' : State} {act : Act} (inv : Inv s) (served : Served s)
    (addressed : Addressed s act) (ran : Emails.step s act = some s') : Served s' := by
  cases stepped ran with
  | core act core went free =>
      obtain ⟨goes, others⟩ := goes_of_step went
      obtain ⟨_, settings, recipients⟩ := follow_configured s (run act) core
      refine ⟨?_, ?_, ?_, ?_⟩
      · rw [settings]
        exact served.present
      · rw [follow_core, recipients]
        intro t todo entries here some_email
        by_cases same : t = run act
        · subst same
          exact served.follow_asked went free here some_email
        · rw [follow_emails_of_ne core same] at some_email
          rw [follow_asks_of_ne core same]
          exact served.asked t todo entries ((others t same).symm.trans here) some_email
      · rw [follow_core, recipients]
        intro t todo here some_email
        by_cases same : t = run act
        · subst same
          rw [follow_away fun _ _ there => by rw [here] at there; cases there] at some_email
          exact served.follow_known went free here some_email
        · rw [follow_emails_of_ne core same] at some_email
          exact served.known t todo ((others t same).symm.trans here) some_email
      · rw [follow_core, follow_sent]
        exact fun a raised => served.follow_covered inv went free raised
  | alertEmail t asks =>
      have known : alertEmail s.settings ≠ none := Option.isSome_iff_ne_none.mp served.present
      refine { served with asked := fun t' todo entries here some_email => ?_, known := fun t' todo here some_email => ?_ }
      · by_cases same : t' = t
        · right
          simpa [same] using known
        · simpa [same] using served.asked t' todo entries here some_email
      · by_cases same : t' = t
        · simpa [same] using known
        · simpa [same] using served.known t' todo here some_email
  | sendAlertEmails t smtp recipient next known =>
      obtain ⟨here, _, _⟩ := mailIsNext_cases next
      refine ⟨served.present, ?_, ?_, ?_⟩
      · intro t' todo entries there some_email
        by_cases same : t' = t
        · rw [same, go_pcs_self] at there
          cases there
        · rw [go_pcs_of_ne _ same] at there
          exact served.asked t' todo entries there some_email
      · intro t' todo there some_email
        by_cases same : t' = t
        · rw [same, go_pcs_self] at there
          cases there
        · rw [go_pcs_of_ne _ same] at there
          exact served.known t' todo there some_email
      · intro a raised
        rw [List.map_append, rises_sent]
        rcases served.covered a raised with told | ⟨t', waiting⟩
        · exact Or.inl (List.mem_append_left _ told)
        · by_cases same : t' = t
          · rw [same, due_publish here] at waiting
            exact Or.inl (List.mem_append_right _ waiting)
          · refine Or.inr ⟨t', ?_⟩
            simp only [State.due, go_pcs_of_ne _ same]
            exact waiting
  | updateSettings settings =>
      exact ⟨addressed, served.asked, served.known, served.covered⟩

end Served

end Empyrean.Alerts.Emails
