/-
# Empyrean.Admin.Thresholds — the effective threshold pair under concurrent patches

Every patch re-validates the merged pair after its `SELECT … FOR UPDATE`, which locks
both threshold rows for the rest of the transaction.  That works as long as both rows
exist.  A row that is missing cannot be locked: two patches that find a threshold row
missing both validate against the configuration, and the second commit does not see the
first one (`inverted_by_missing_rows`).  And the handler validates with `int()` while the
tasks act on `float()`, so a stored `"120.5"` is validated as if it were not there.

`Guarded` excludes the two.  Under it the effective pair stays ordered:

* `Pc.version` / `Own` — the rows a patch holds, and what it will leave there.
* `Covered` — a threshold row that a patch in flight has not seen does not exist, and no
  other threshold patch is in flight.
* `ordered_of_reach` — so the pair is ordered in every reached state.
-/
import Empyrean.Admin.Holding
import Empyrean.Theory.Runs

namespace Empyrean.Admin

set_option autoImplicit false

open Empyrean.Theory Empyrean.Theory.RowStore Empyrean.Theory.PyNumeral Empyrean.Theory.Runs

/-! ## The property and its condition -/

def thresholds : List Key := [.aqiWarningThreshold, .aqiCriticalThreshold]

/-- The value of a threshold that the tasks act on, in the committed state. -/
def effective (cfg : Config) (settings : Rows Key Nat Text) (k : Key) : PyFloat :=
  threshold (settings k).committed (cfg.fallback k)

def Ordered (cfg : Config) (settings : Rows Key Nat Text) : Prop :=
  (effective cfg settings .aqiWarningThreshold).lt
    (effective cfg settings .aqiCriticalThreshold) = true

instance (cfg : Config) (settings : Rows Key Nat Text) : Decidable (Ordered cfg settings) :=
  inferInstanceAs (Decidable (_ = true))

/-- A patch of a threshold that has taken the snapshot of its locking `SELECT`. -/
def Pc.patching : Pc → Prop
  | .lockRow update _ _ _ | .validate update _ _ | .upsert update _ _ _ _ => update.setsThreshold
  | _ => False

/-- No request but `t` is patching a threshold. -/
def Alone (s : State) (t : Nat) : Prop := ∀ t', t' ≠ t → ¬ (s.pcs t').patching

/-- Both readers agree on a stored threshold that the patch leaves as it is. -/
def ReadableOthers (update : AdminSettingsUpdate) (locked : List (Key × Text)) : Prop :=
  update.setsThreshold → ∀ k ∈ thresholds, update.threshold k = none →
    ∀ text ∈ lookup locked k, ReadAlike text

instance (update : AdminSettingsUpdate) (locked : List (Key × Text)) :
    Decidable (ReadableOthers update locked) :=
  inferInstanceAs (Decidable (_ → _))

/-- A threshold patch takes its snapshot when both rows are stored or no other threshold
patch is in flight, and both readers agree on a threshold that it leaves as it is. -/
def Guarded (s : State) : Act → Prop
  | .advance t _ =>
      match s.pcs t with
      | .lock update _ =>
          update.setsThreshold → (∀ k ∈ thresholds, (s.settings k).committed ≠ none) ∨ Alone s t
      | .validate update _ locked => ReadableOthers update locked
      | _ => True
  | _ => True

/-- No transaction is open, and the effective pair is in order. -/
structure Start (cfg : Config) (s : State) : Prop where
  free : ∀ k, (s.settings k).held = none
  pcs : ∀ t, s.pcs t = .idle
  ordered : Ordered cfg s.settings

/-! ## What the patch body stores -/

theorem mem_thresholds {k : Key} (isThreshold : k ∈ thresholds) :
    k = .aqiWarningThreshold ∨ k = .aqiCriticalThreshold := by
  simpa [thresholds] using isThreshold

section Update

variable (update : AdminSettingsUpdate)

/-- The newest text written for a threshold is the patched value; the others are not written. -/
theorem written_threshold {k : Key} (isThreshold : k ∈ thresholds) :
    lookup update.updates.reverse k = (update.threshold k).map intText := by
  rcases mem_thresholds isThreshold with rfl | rfl <;>
    simp only [lookup, AdminSettingsUpdate.updates, AdminSettingsUpdate.threshold] <;>
    cases update.aqiWarningThreshold <;> cases update.aqiCriticalThreshold <;>
      cases update.dataRetentionDays <;> cases update.alertsEnabled <;>
        cases update.alertEmail <;> rfl

theorem mem_lockKeys {k : Key} (isThreshold : k ∈ thresholds) : k ∈ update.lockKeys := by
  rcases mem_thresholds isThreshold with rfl | rfl <;> simp [AdminSettingsUpdate.lockKeys]

theorem threshold_none_of_not_sets {k : Key} (unset : ¬ update.setsThreshold) :
    update.threshold k = none := by
  have none : update.aqiWarningThreshold = none ∧ update.aqiCriticalThreshold = none := by
    simpa [AdminSettingsUpdate.setsThreshold] using unset
  cases k <;> simp [AdminSettingsUpdate.threshold, none]

end Update

/-- A stored value is read back by `float`. -/
theorem threshold_intText (n : Nat) (fallback : Int) :
    threshold (some (intText n)) fallback = .fin n := by
  simp [threshold, intText, float_toDigits]

/-- Where both readers agree on the text, they agree on the threshold. -/
theorem threshold_of_readAlike {raw : Text} (alike : ReadAlike raw) (fallback : Int) :
    threshold (some raw) fallback = .fin (mergedInt none (some raw) fallback) := by
  simp only [threshold, mergedInt]
  rw [ReadAlike] at alike
  rw [alike]
  by_cases empty : strip raw = []
  · simp [empty, int_of_blank empty]
  · cases value : int raw <;> simp [empty]

/-! ## The rows a request holds -/

/-- What the request has checked. -/
def Pc.Checked (cfg : Config) : Pc → Prop
  | .upsert update _ locked written remaining =>
      update.updates = written ++ remaining ∧ inverted cfg update (lookup locked) = false ∧
        ReadableOthers update locked
  | _ => True

structure Own (cfg : Config) (settings : Rows Key Nat Text) (t : Nat) (pc : Pc) : Prop where
  holds : ∀ k version, (settings k).held = some (t, version) ↔
    ∃ text, version = some text ∧ pc.version k = some text
  stored : ∀ k text, lookup pc.locked k = some text →
    (settings k).committed = some text ∧ ∃ version, (settings k).held = some (t, version)
  checked : pc.Checked cfg

/-- What a statement of `t` commits: nothing, or its versions at the end of the loop. -/
inductive Effect (t : Nat) (pc : Pc) (settings settings' : Rows Key Nat Text) : Prop
  | quiet (committed : ∀ k, (settings' k).committed = (settings k).committed)
  | commit (update : AdminSettingsUpdate) (admin : Nat) (locked written : List (Key × Text))
      (at_commit : pc = .upsert update admin locked written [])
      (rows : settings' = RowStore.commit settings t)

theorem Own.holding {cfg : Config} {settings : Rows Key Nat Text} {t : Nat} {pc : Pc}
    (own : Own cfg settings t pc) : Holding settings t pc := ⟨own.holds, own.stored⟩

theorem Holding.own {cfg : Config} {settings : Rows Key Nat Text} {t : Nat} {pc : Pc}
    (holding : Holding settings t pc) (checked : pc.Checked cfg) : Own cfg settings t pc :=
  ⟨holding.holds, holding.stored, checked⟩

theorem Own.framed {cfg : Config} {settings settings' : Rows Key Nat Text} {t t' : Nat} {pc : Pc}
    (own : Own cfg settings t' pc) (framed : Framed t settings settings') (different : t' ≠ t) :
    Own cfg settings' t' pc := (own.holding.framed framed different).own own.checked

/-- What every statement of `t` guarantees. -/
structure Stepped (cfg : Config) (t : Nat) (pc pc' : Pc)
    (settings settings' : Rows Key Nat Text) : Prop where
  own : Own cfg settings' t pc'
  framed : Framed t settings settings'
  effect : Effect t pc settings settings'
  -- the snapshot does not shrink while the patch is in flight
  seen : pc'.patching → ∀ k ∈ thresholds, lookup pc'.locked k = none → k ∉ pc'.waiting →
    (¬ pc.patching ∧ (settings' k).committed = none) ∨
      (pc.patching ∧ lookup pc.locked k = none ∧ k ∉ pc.waiting ∧
        (settings' k).committed = (settings k).committed)
  waiting : ∀ k ∈ pc'.waiting, (settings k).committed ≠ none ∨ k ∈ pc.waiting

section Step

variable {cfg : Config} {t : Nat} {settings settings' : Rows Key Nat Text}
    {log log' : List AuditEntry} {pick : Key}
  {pc pc' : Pc}

/-- The request ends and gives back what it holds. -/
theorem Stepped.rollback : Stepped cfg t pc .done settings (RowStore.rollback settings t) where
  own := (holding_nothing (fun k version held => (held_rollback held).1 rfl) (fun _ => rfl) rfl).own trivial
  framed := framed_rollback t settings
  effect := .quiet (committed_rollback settings t)
  seen := fun patching => patching.elim
  waiting := fun k member => by cases member

/-- Nothing is touched, and the request knows what it knew. -/
theorem Stepped.still (own : Own cfg settings t pc) (version : ∀ k, pc'.version k = pc.version k)
    (locked : pc'.locked = pc.locked) (checked : pc'.Checked cfg)
    (seen : pc'.patching → ∀ k ∈ thresholds, lookup pc'.locked k = none → k ∉ pc'.waiting →
      (¬ pc.patching ∧ (settings k).committed = none) ∨
        (pc.patching ∧ lookup pc.locked k = none ∧ k ∉ pc.waiting ∧
          (settings k).committed = (settings k).committed))
    (waiting : ∀ k ∈ pc'.waiting, (settings k).committed ≠ none ∨ k ∈ pc.waiting) :
    Stepped cfg t pc pc' settings settings where
  own := (own.holding.still version locked).own checked
  framed := framed_refl t settings
  effect := .quiet fun _ => rfl
  seen := seen
  waiting := waiting

/-- **Every statement keeps the rules.**  `found`: rows are never deleted.  `readable`: the
condition on the statement that validates. -/
theorem stepped (own : Own cfg settings t pc)
    (found : ∀ k ∈ pc.waiting, (settings k).committed ≠ none)
    (readable : ∀ update admin locked, pc = .validate update admin locked →
      ReadableOthers update locked)
    (taken : Taken cfg t settings log pick pc settings' log' pc') :
    Stepped cfg t pc pc' settings settings' := by
  cases taken with
  | answered update admin =>
      exact .still own (fun _ => rfl) rfl trivial (fun patching => patching.elim) fun _ member => by
        cases member
  | checked update admin =>
      exact .still own (fun _ => rfl) rfl trivial (fun patching => patching.elim) fun _ member => by
        cases member
  | snapshot update admin =>
      refine .still own (fun _ => rfl) rfl trivial
        (fun _ k isThreshold _ notFound => Or.inl ⟨id, ?_⟩)
        fun k member => Or.inl ?_
      · have notRead : ((settings k).read t).isSome = false := by
          simpa [Pc.waiting, mem_lockKeys update isThreshold] using notFound
        rw [← own.holding.read_committed rfl]
        simpa using notRead
      · have isRead : ((settings k).read t).isSome = true := (List.mem_filter.mp member).2
        rw [own.holding.read_committed rfl] at isRead
        exact Option.isSome_iff_ne_none.mp isRead
  | locks update admin locked todo value picked free seen =>
      refine ⟨(own.holding.lock seen).own trivial, framed_put _ free,
        .quiet (fun _ => committed_put _ _ _ _ _), ?_, ?_⟩
      · intro patching k' _ unseen notWaiting
        have away : k' ≠ pick := by
          rintro rfl
          simp [Pc.locked] at unseen
        refine Or.inr ⟨patching, ?_,
          fun waits => notWaiting ((List.mem_erase_of_ne away).mpr waits), committed_put _ _ _ _ _⟩
        simpa [Pc.locked, lookup_cons_of_ne value away] using unseen
      · exact fun k' member => Or.inr (List.mem_of_mem_erase member)
  | passes update admin locked todo picked missing =>
      -- a row of the snapshot is still there
      obtain ⟨text, stored⟩ := Option.ne_none_iff_exists'.mp (found pick picked)
      rcases Row.read_cases t (settings pick) with held | ⟨_, committed⟩
      · obtain ⟨text, version, _⟩ := (own.holds pick _).mp held
        rw [missing] at version
        cases version
      · rw [missing, stored] at committed
        cases committed
  | locked update admin locked =>
      exact .still own (fun _ => rfl) rfl trivial
        (fun patching k _ unseen _ => Or.inr ⟨patching, unseen, List.not_mem_nil, rfl⟩) fun _ member => by cases member
  | refused update admin locked => exact .rollback
  | accepted update admin locked valid =>
      exact .still own (fun k => by simp [Pc.version]) rfl
        ⟨rfl, valid, readable update admin locked rfl⟩
        (fun patching k _ unseen _ => Or.inr ⟨patching, unseen, List.not_mem_nil, rfl⟩) fun _ member => by cases member
  | upserts update admin locked written remaining u free =>
      obtain ⟨split, valid, readable⟩ := own.checked
      exact ⟨own.holding.upsert.own ⟨by simp [split], valid, readable⟩, framed_put _ free,
        .quiet (fun _ => committed_put _ _ _ _ _),
        fun patching k _ unseen _ =>
          Or.inr ⟨patching, unseen, List.not_mem_nil, committed_put _ _ _ _ _⟩,
        fun k member => by cases member⟩
  | commits update admin locked written =>
      exact ⟨(holding_nothing (fun k version held => (held_commit held).1 rfl) (fun _ => rfl) rfl).own trivial,
        framed_commit t settings, .commit update admin locked written rfl rfl, fun patching =>
          patching.elim,
        fun k member => by cases member⟩

/-- A patch gets in flight by the snapshot of its locking `SELECT`, and in no other way. -/
theorem Taken.patching (taken : Taken cfg t settings log pick pc settings' log' pc')
    (patching : pc'.patching) :
    pc.patching ∨ ∃ update admin, pc = .lock update admin ∧ update.setsThreshold := by
  cases taken with
  | snapshot update admin => exact Or.inr ⟨update, admin, rfl, patching⟩
  | answered | checked | refused | commits => exact patching.elim
  | locks | passes | locked | accepted | upserts => exact Or.inl patching

/-- A stored setting stays stored. -/
theorem Stepped.stays (stepped : Stepped cfg t pc pc' settings settings')
    (own : Own cfg settings t pc) {k : Key} (stored : (settings k).committed ≠ none) :
    (settings' k).committed ≠ none := by
  cases stepped.effect with
  | quiet committed => rw [committed k]; exact stored
  | commit update admin locked written at_commit rows =>
      rw [rows, own.holding.committed k]
      cases pc.version k with
      | none => simpa using stored
      | some text => simp

/-- **The commit of a checked patch keeps the pair in order.**  `unseen`: a threshold row
that the patch did not find does not exist. -/
theorem Own.ordered_commit {update : AdminSettingsUpdate} {admin : Nat}
    {locked written : List (Key × Text)}
    (own : Own cfg settings t (.upsert update admin locked written []))
    (unseen : update.setsThreshold → ∀ k ∈ thresholds, lookup locked k = none →
      (settings k).committed = none)
    (ordered : Ordered cfg settings) : Ordered cfg (RowStore.commit settings t) := by
  obtain ⟨split, valid, readable⟩ := own.checked
  rw [List.append_nil] at split
  have version : ∀ k ∈ thresholds, Pc.version (.upsert update admin locked written []) k =
      ((update.threshold k).map intText).or (lookup locked k) := fun k isThreshold => by
    rw [← written_threshold update isThreshold, split, Pc.version]
  by_cases sets : update.setsThreshold
  · have value : ∀ k ∈ thresholds, effective cfg (RowStore.commit settings t) k =
        .fin (mergedInt (update.threshold k) (lookup locked k) (cfg.fallback k)) := by
      intro k isThreshold
      rw [effective, own.holding.committed k, version k isThreshold]
      cases patched : update.threshold k with
      | some value =>
          simp only [Option.map_some, Option.some_or, threshold_intText, mergedInt]
          rfl
      | none =>
          cases found : lookup locked k with
          | some text =>
              simp only [Option.map_none, Option.none_or, Option.some_or]
              exact threshold_of_readAlike (readable sets k isThreshold patched text found) _
          | none => simp [unseen sets k isThreshold found, threshold, mergedInt]
    rw [Ordered, value _ (by decide), value _ (by decide), PyFloat.lt_fin]
    exact Rat.intCast_lt_intCast.mpr (Int.not_le.mp (of_decide_eq_false valid))
  · -- the patch leaves both thresholds as it found them
    have same : ∀ k ∈ thresholds, effective cfg (RowStore.commit settings t) k =
        effective cfg settings k := by
      intro k isThreshold
      rw [effective, effective, own.holding.committed k, version k isThreshold,
        threshold_none_of_not_sets update sets]
      cases found : lookup locked k with
      | some text => simp [(own.stored k text found).1]
      | none => simp
    rw [Ordered, same _ (by decide), same _ (by decide)]
    exact ordered

end Step

/-! ## Runs -/

structure Inv (cfg : Config) (s : State) : Prop where
  own : ∀ t, Own cfg s.settings t (s.pcs t)
  found : ∀ t, ∀ k ∈ (s.pcs t).waiting, (s.settings k).committed ≠ none
  /-- `Covered`: a threshold row that a patch in flight has not seen does not exist. -/
  covered : ∀ t, (s.pcs t).patching → ∀ k ∈ thresholds, lookup (s.pcs t).locked k = none →
    k ∉ (s.pcs t).waiting →
    (s.settings k).committed = none ∧ Alone s t
  ordered : Ordered cfg s.settings

section Runs

variable {cfg : Config}

theorem inv_start {s : State} (starts : Start cfg s) : Inv cfg s where
  own := fun t => by
    rw [starts.pcs t]
    exact (holding_nothing (fun k version => by simp [starts.free k]) (fun _ => rfl) rfl).own trivial
  found := fun t k member => by
    rw [starts.pcs t] at member
    cases member
  covered := fun t patching => by
    rw [starts.pcs t] at patching
    exact patching.elim
  ordered := starts.ordered

/-- A threshold row that another patch has not seen stays away while `t` takes a step. -/
theorem Stepped.still_missing {s : State} {t : Nat} {pc' : Pc} {settings' : Rows Key Nat Text}
    (inv : Inv cfg s) (stepped : Stepped cfg t (s.pcs t) pc' s.settings settings')
    (idle : ¬ (s.pcs t).patching) {k : Key} (isThreshold : k ∈ thresholds)
    (missing : (s.settings k).committed = none) : (settings' k).committed = none := by
  cases stepped.effect with
  | quiet committed => rw [committed k, missing]
  | commit update admin locked written at_commit rows =>
      have own := inv.own t
      rw [at_commit] at own idle
      obtain ⟨split, _, _⟩ := own.checked
      rw [List.append_nil] at split
      rw [rows, own.holding.committed k, missing, Option.or_none, Pc.version, ← split,
        written_threshold update isThreshold, threshold_none_of_not_sets update idle]
      cases found : lookup locked k with
      | none => rfl
      | some text =>
          have stored := (own.stored k text found).1
          rw [missing] at stored
          cases stored

/-- `alone`: what the condition says of a patch that takes its snapshot in this step. -/
theorem Inv.stepped {s : State} {t : Nat} {pc' : Pc} {settings' : Rows Key Nat Text}
    (inv : Inv cfg s) (stepped : Stepped cfg t (s.pcs t) pc' s.settings settings')
    (alone : pc'.patching →
      (s.pcs t).patching ∨ (∀ k ∈ thresholds, (s.settings k).committed ≠ none) ∨ Alone s t)
    (log : List AuditEntry) :
    Inv cfg { settings := settings', auditLog := log, pcs := Function.update s.pcs t pc' } where
  own := fun t' => by
    by_cases same : t' = t
    · subst same
      simpa using stepped.own
    · simpa [same] using (inv.own t').framed stepped.framed same
  found := fun t' k member => by
    by_cases same : t' = t
    · subst same
      simp only [Function.update_self] at member
      rcases stepped.waiting k member with stored | before
      · exact stepped.stays (inv.own t') stored
      · exact stepped.stays (inv.own t') (inv.found t' k before)
    · simp only [Function.update_of_ne same] at member
      exact stepped.stays (inv.own t) (inv.found t' k member)
  covered := fun t' patching k isThreshold unseen notWaiting => by
    by_cases same : t' = t
    · subst same
      simp only [Function.update_self] at patching unseen notWaiting
      have others : Alone s t' →
          Alone { settings := settings', auditLog := log, pcs := Function.update s.pcs t' pc' } t' :=
        fun alone t'' different => by simpa [different] using alone t'' different
      rcases stepped.seen patching k isThreshold unseen notWaiting with
        ⟨fresh, missing⟩ | ⟨before, unseen, notWaiting, committed⟩
      · rcases alone patching with before | stored | alone
        · exact absurd before fresh
        · exact absurd missing (stepped.stays (inv.own t') (stored k isThreshold))
        · exact ⟨missing, others alone⟩
      · obtain ⟨missing, alone⟩ := inv.covered t' before k isThreshold unseen notWaiting
        exact ⟨committed.trans missing, others alone⟩
    · simp only [Function.update_of_ne same] at patching unseen notWaiting
      obtain ⟨missing, aloneBefore⟩ := inv.covered t' patching k isThreshold unseen notWaiting
      have idle : ¬ (s.pcs t).patching := aloneBefore t (Ne.symm same)
      refine ⟨stepped.still_missing inv idle isThreshold missing, ?_⟩
      intro t'' different
      by_cases here : t'' = t
      · subst here
        simp only [Function.update_self]
        intro patches
        rcases alone patches with before | stored | alone
        · exact idle before
        · exact stored k isThreshold missing
        · exact alone t' same patching
      · simpa [here] using aloneBefore t'' different
  ordered := by
    cases stepped.effect with
    | quiet committed =>
        have same : ∀ k, effective cfg settings' k = effective cfg s.settings k := fun k => by
          rw [effective, effective, committed k]
        rw [Ordered, same, same]
        exact inv.ordered
    | commit update admin locked written at_commit rows =>
        have own := inv.own t
        have covered := inv.covered t
        rw [at_commit] at own covered
        rw [rows]
        exact own.ordered_commit
          (fun sets k isThreshold unseen => (covered sets k isThreshold unseen List.not_mem_nil).1) inv.ordered

theorem inv_step {s s' : State} {a : Act} (inv : Inv cfg s) (meets : Guarded s a)
    (ran : step cfg s a = some s') : Inv cfg s' := by
  cases a with
  | submit t update admin =>
      simp only [step] at ran
      split at ran
      · rename_i idle
        cases ran
        have own := inv.own t
        rw [idle] at own
        have stepped : Stepped cfg t (s.pcs t) (.precheck update admin) s.settings s.settings := by
          rw [idle]
          exact .still own (fun _ => rfl) rfl trivial
            (fun patching => patching.elim) fun _ member => by cases member
        exact inv.stepped stepped (fun patching => patching.elim) s.auditLog
      · cases ran
  | advance t pick =>
      obtain ⟨⟨settings', log', pc'⟩, advanced, same⟩ := Option.map_eq_some_iff.mp ran
      cases same
      simp only [Guarded] at meets
      have taken := taken_of_step advanced
      refine inv.stepped (stepped (inv.own t) (inv.found t) ?_ taken) ?_ _
      · intro update admin locked at_validate
        rw [at_validate] at meets
        exact meets
      · intro patching
        rcases taken.patching patching with before | ⟨update, admin, at_lock, sets⟩
        · exact Or.inl before
        · rw [at_lock] at meets
          exact Or.inr (meets sets)
  | abort t =>
      cases ran
      exact inv.stepped .rollback (fun patching => patching.elim) _

/-- **The effective pair stays in order** in every run that meets the condition. -/
theorem ordered_of_reach {s : State} (reached : Reach (step cfg) Guarded (Start cfg) s) :
    Ordered cfg s.settings :=
  (reached.invariant (fun _ starts => inv_start starts) fun _ _ _ inv meets ran => inv_step inv meets ran).ordered

end Runs

/-! ## Two runs that break the order, and one that keeps it -/

def defaults : Config := ⟨100, 150, by decide⟩

/-- `PATCH {"aqi_warning_threshold": w}` -/
def patchWarning (w : Nat) (le : w ≤ 500) : AdminSettingsUpdate where
  aqiWarningThreshold := some w
  aqiCriticalThreshold := none
  dataRetentionDays := none
  alertsEnabled := none
  alertEmail := none
  warning_le := fun _ same => by cases same; exact le
  critical_le := fun _ same => by cases same
  retention_bounds := fun _ same => by cases same
  email_length := fun _ same => by cases same
  thresholds_ordered := fun _ _ _ same => by cases same

/-- `PATCH {"aqi_critical_threshold": c}` -/
def patchCritical (c : Nat) (le : c ≤ 500) : AdminSettingsUpdate where
  aqiWarningThreshold := none
  aqiCriticalThreshold := some c
  dataRetentionDays := none
  alertsEnabled := none
  alertEmail := none
  warning_le := fun _ same => by cases same
  critical_le := fun _ same => by cases same; exact le
  retention_bounds := fun _ same => by cases same
  email_length := fun _ same => by cases same
  thresholds_ordered := fun _ same => by cases same

/-- `PATCH {}` -/
def patchNothing : AdminSettingsUpdate where
  aqiWarningThreshold := none
  aqiCriticalThreshold := none
  dataRetentionDays := none
  alertsEnabled := none
  alertEmail := none
  warning_le := fun _ same => by cases same
  critical_le := fun _ same => by cases same
  retention_bounds := fun _ same => by cases same
  email_length := fun _ same => by cases same
  thresholds_ordered := fun _ same => by cases same

/-- The threshold rows as given, and no request yet. -/
def storing (warning critical : Option Text) : State where
  settings := fun k =>
    match k with
    | .aqiWarningThreshold => .settled warning
    | .aqiCriticalThreshold => .settled critical
    | _ => .settled none
  auditLog := []
  pcs := fun _ => .idle

theorem start_storing (warning critical : Option Text)
    (ordered : Ordered defaults (storing warning critical).settings) :
    Start defaults (storing warning critical) where
  free := fun k => by cases k <;> rfl
  pcs := fun _ => rfl
  ordered := ordered

def statements (t : Nat) (picks : List Key) : List Act := picks.map (.advance t)

/-- What suffices where both rows are stored: a threshold left as it is reads alike. -/
def BothStored (s : State) (a : Act) : Prop :=
  (∀ k ∈ thresholds, (s.settings k).committed ≠ none) ∧
    match a with
    | .advance t _ =>
        match s.pcs t with
        | .validate update _ locked => ReadableOthers update locked
        | _ => True
    | _ => True

instance (s : State) (a : Act) : Decidable (BothStored s a) := by
  unfold BothStored
  split
  · split <;> infer_instance
  · infer_instance

theorem guarded_of_bothStored (s : State) (a : Act) (both : BothStored s a) : Guarded s a := by
  obtain ⟨stored, readable⟩ := both
  unfold Guarded
  split
  · split
    · exact fun _ => Or.inl stored
    · rename_i at_validate
      simpa [at_validate] using readable
    · trivial
  · trivial

/-- Patches `warning = 140` and `critical = 120` at once; the second waits for the first
wherever there are rows to lock. -/
def race : List Act :=
  [.submit 0 (patchWarning 140 (by decide)) 1, .submit 1 (patchCritical 120 (by decide)) 1]

/-- Both rows are stored: the second patch waits, reads 140 and is refused. -/
theorem ordered_of_reach_stored :
    ∃ s, Reach (step defaults) Guarded (Start defaults) s ∧
      (s.settings .aqiWarningThreshold).committed = some (intText 140) ∧
        Ordered defaults s.settings := by
  obtain ⟨s, reached, final⟩ :=
    exists_reach_of_run (step defaults) BothStored
      (start_storing (some (intText 100)) (some (intText 150)) (by decide))
      (race ++ statements 0 [.alertEmail, .alertEmail, .aqiWarningThreshold] ++
        statements 1 [.alertEmail, .alertEmail] ++
        statements 0 [.aqiCriticalThreshold, .alertEmail, .alertEmail, .alertEmail, .alertEmail] ++
        statements 1 [.aqiCriticalThreshold, .aqiWarningThreshold, .alertEmail, .alertEmail])
      (fun s => decide ((s.settings .aqiWarningThreshold).committed = some (intText 140))) (by decide)
  exact ⟨s, reached.mono guarded_of_bothStored fun _ => id, of_decide_eq_true final,
    ordered_of_reach (reached.mono guarded_of_bothStored fun _ => id)⟩

/-- **Two rows that cannot be locked.**  With neither threshold stored, the two patches are
each validated against the configuration, and both commit. -/
theorem inverted_by_missing_rows :
    ∃ s, Reach (step defaults) Always (Start defaults) s ∧
      (s.settings .aqiWarningThreshold).committed = some (intText 140) ∧
      (s.settings .aqiCriticalThreshold).committed = some (intText 120) ∧
        ¬ Ordered defaults s.settings := by
  obtain ⟨s, reached, final⟩ :=
    exists_reach_of_run (step defaults) Always (start_storing none none (by decide))
      (race ++ statements 0 (List.replicate 4 .alertEmail) ++ statements 1 (List.replicate 4 .alertEmail) ++
        statements 0 (List.replicate 2 .alertEmail) ++ statements 1 (List.replicate 2 .alertEmail))
      (fun s => decide ((s.settings .aqiWarningThreshold).committed = some (intText 140) ∧
        (s.settings .aqiCriticalThreshold).committed = some (intText 120))) (by decide)
  obtain ⟨warning, critical⟩ := of_decide_eq_true final
  refine ⟨s, reached, warning, critical, ?_⟩
  rw [Ordered, effective, effective, warning, critical]
  decide

/-- A stored `"120.5"`, which the tasks read and the handler does not: `critical = 110` is
validated against the configured warning threshold of 100. -/
theorem inverted_by_decimal_text :
    ∃ s, Reach (step defaults) Always (Start defaults) s ∧
      (s.settings .aqiWarningThreshold).committed = some "120.5".toList ∧
      (s.settings .aqiCriticalThreshold).committed = some (intText 110) ∧
        ¬ Ordered defaults s.settings := by
  obtain ⟨s, reached, final⟩ :=
    exists_reach_of_run (step defaults) Always
      (start_storing (some "120.5".toList) (some (intText 130)) (by decide +kernel))
      (Act.submit 0 (patchCritical 110 (by decide)) 1 :: statements 0
        [.alertEmail, .alertEmail, .aqiWarningThreshold, .aqiCriticalThreshold, .alertEmail,
          .alertEmail, .alertEmail, .alertEmail])
      (fun s => decide ((s.settings .aqiWarningThreshold).committed = some "120.5".toList ∧
        (s.settings .aqiCriticalThreshold).committed = some (intText 110))) (by decide)
  obtain ⟨warning, critical⟩ := of_decide_eq_true final
  refine ⟨s, reached, warning, critical, ?_⟩
  rw [Ordered, effective, effective, warning, critical]
  decide +kernel

end Empyrean.Admin
