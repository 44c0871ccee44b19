/-
# Empyrean.Admin.AuditTrail — the audit log as a chain of values

Every key a patch writes leaves an entry with the value its locking `SELECT` saw and the
value it stored.  For a stored key the row lock makes the first the value the last entry
ended with.  A key that is not stored cannot be locked: two patches that find it missing
both record that there was nothing, and the second one overwrites the first.

* `Linked` — a chain of entries from one value to another.
* `Witnessed` — at a commit, a key that the locking `SELECT` did not find is still missing.
* `chained_of_reach` — where every commit is witnessed the log is a chain for every key,
  and a commit keeps it one exactly when it is witnessed.
-/
import Empyrean.Admin.Thresholds
import Mathlib.Data.List.Nodup

namespace Empyrean.Admin.AuditTrail

set_option autoImplicit false

open Empyrean.Theory Empyrean.Theory.RowStore Empyrean.Theory.PyNumeral Empyrean.Theory.Runs

/-! ## Chains -/

/-- Each entry starts where the one before ended, the first at `first`, the last at `last`. -/
def Linked : Option Text → List AuditEntry → Option Text → Prop
  | first, [], last => first = last
  | first, entry :: rest, last => entry.oldValue = first ∧ Linked (some entry.newValue) rest last

/-- One more entry at the end. -/
theorem linked_append_single :
    ∀ {entries : List AuditEntry} {first last : Option Text} (entry : AuditEntry),
    Linked first entries last → ∀ last', Linked first (entries ++ [entry]) last' ↔
      entry.oldValue = last ∧ some entry.newValue = last' := by
  intro entries
  induction entries with
  | nil =>
      rintro first last entry rfl last'
      exact Iff.rfl
  | cons head rest ih =>
      intro first last entry linked last'
      rw [List.cons_append, Linked]
      exact ⟨fun ⟨_, later⟩ => (ih entry linked.2 last').mp later,
        fun ends => ⟨linked.1, (ih entry linked.2 last').mpr ends⟩⟩

/-- The log of one key, and what is stored there. -/
def Chained (initial : Key → Option Text) (s : State) : Prop :=
  ∀ k, Linked (initial k) (s.auditLog.filter fun entry => decide (entry.entity = k))
    (s.settings k).committed

/-- What the locking `SELECT` did not find is still not there when the patch commits it. -/
def Pc.StillMissing (settings : Rows Key Nat Text) : Pc → Prop
  | .upsert _ _ locked written [] => ∀ u ∈ written, lookup locked u.1 = none →
    (settings u.1).committed = none
  | _ => True

def Witnessed (s : State) : Act → Prop
  | .advance t _ => Pc.StillMissing s.settings (s.pcs t)
  | _ => True

instance (settings : Rows Key Nat Text) (pc : Pc) : Decidable (Pc.StillMissing settings pc) := by
  unfold Pc.StillMissing
  split <;> infer_instance

instance (s : State) : (a : Act) → Decidable (Witnessed s a)
  | .advance t _ => inferInstanceAs (Decidable (Pc.StillMissing s.settings (s.pcs t)))
  | .submit _ _ _ | .abort _ => inferInstanceAs (Decidable True)

/-- The settings as given, an empty log, and no request yet. -/
structure Start (initial : Key → Option Text) (s : State) : Prop where
  settled : ∀ k, s.settings k = .settled (initial k)
  log : s.auditLog = []
  pcs : ∀ t, s.pcs t = .idle

/-! ## What one patch writes -/

/-- No key is written twice. -/
theorem updates_nodup (update : AdminSettingsUpdate) : (update.updates.map Prod.fst).Nodup := by
  unfold AdminSettingsUpdate.updates
  cases update.aqiWarningThreshold <;> cases update.aqiCriticalThreshold <;>
    cases update.dataRetentionDays <;>
    cases update.alertsEnabled <;> cases update.alertEmail <;> simp

section Keys

variable {rows : List (Key × Text)} {k : Key}

theorem lookup_eq_none_of_not_mem : ∀ {rows : List (Key × Text)}, k ∉ rows.map Prod.fst →
    lookup rows k = none := by
  intro rows
  induction rows with
  | nil => exact fun _ => rfl
  | cons row rest ih =>
      intro absent
      rw [List.map_cons, List.mem_cons, not_or] at absent
      obtain ⟨k', text⟩ := row
      rw [lookup_cons_of_ne text absent.1]
      exact ih absent.2

theorem lookup_append (rows rows' : List (Key × Text)) (k : Key) :
    lookup (rows ++ rows') k = (lookup rows k).or (lookup rows' k) := List.lookup_append

/-- The one row of a key splits the list. -/
theorem split_of_mem {u : Key × Text} (distinct : (rows.map Prod.fst).Nodup) (member : u ∈ rows) :
    ∃ before after, rows = before ++ u :: after ∧ u.1 ∉ before.map Prod.fst ∧
      u.1 ∉ after.map Prod.fst := by
  obtain ⟨before, after, rfl⟩ := List.append_of_mem member
  rw [List.map_append, List.map_cons, List.nodup_middle, List.nodup_cons, List.mem_append,
    not_or] at distinct
  exact ⟨before, after, rfl, distinct.1.1, distinct.1.2⟩

theorem lookup_reverse {u : Key × Text} (distinct : (rows.map Prod.fst).Nodup) (member : u ∈ rows) :
    lookup rows.reverse u.1 = some u.2 := by
  obtain ⟨before, after, rfl, _, absent⟩ := split_of_mem distinct member
  have later : lookup after.reverse u.1 = none := lookup_eq_none_of_not_mem (by simpa using absent)
  rw [List.reverse_append, List.reverse_cons, List.append_assoc, lookup_append, later,
    Option.none_or, List.singleton_append, lookup_cons_self]

variable {admin : Nat} {locked : List (Key × Text)}

theorem filter_auditEntries_of_not_mem (absent : k ∉ rows.map Prod.fst) :
    (auditEntries admin locked rows).filter (fun entry => decide (entry.entity = k)) = [] := by
  refine List.filter_eq_nil_iff.mpr fun entry member => ?_
  obtain ⟨u, written, rfl⟩ := List.mem_map.mp member
  rw [decide_eq_true_eq]
  rintro rfl
  exact absent (List.mem_map_of_mem written)

/-- A written key has one entry. -/
theorem filter_auditEntries {u : Key × Text} (distinct : (rows.map Prod.fst).Nodup)
    (member : u ∈ rows) :
    (auditEntries admin locked rows).filter (fun entry => decide (entry.entity = u.1)) =
      [{ entity := u.1, oldValue := lookup locked u.1, newValue := u.2, changedBy := admin }] := by
  obtain ⟨before, after, rfl, absent, absent'⟩ := split_of_mem distinct member
  have parts : auditEntries admin locked (before ++ u :: after) =
      auditEntries admin locked before ++
        { entity := u.1, oldValue := lookup locked u.1, newValue := u.2, changedBy := admin } ::
          auditEntries admin locked after := by
    simp only [auditEntries, List.map_append, List.map_cons]
  have here : decide (u.1 = u.1) = true := decide_eq_true rfl
  rw [parts, List.filter_append, filter_auditEntries_of_not_mem absent, List.nil_append,
    List.filter_cons, if_pos here, filter_auditEntries_of_not_mem absent']

end Keys

/-! ## Runs -/

/-- Only a commit has to be witnessed. -/
theorem stillMissing_of_ne {settings : Rows Key Nat Text} {pc : Pc}
    (other : ∀ update admin locked written, pc ≠ .upsert update admin locked written []) :
    Pc.StillMissing settings pc := by
  unfold Pc.StillMissing
  split
  · exact absurd rfl (other _ _ _ _)
  · trivial

/-- The writes of a patch are the updates it has got through. -/
def Pc.Writing : Pc → Prop
  | .upsert update _ _ written remaining => update.updates = written ++ remaining
  | _ => True

structure Inv (initial : Key → Option Text) (s : State) : Prop where
  holding : ∀ t, Holding s.settings t (s.pcs t)
  writing : ∀ t, Pc.Writing (s.pcs t)
  chained : Chained initial s

section Runs

variable {cfg : Config} {initial : Key → Option Text} {s s' : State}

theorem writing_of_taken {t : Nat} {settings settings' : Rows Key Nat Text}
    {log log' : List AuditEntry} {pick : Key} {pc pc' : Pc} (writing : Pc.Writing pc)
    (taken : Taken cfg t settings log pick pc settings' log' pc') : Pc.Writing pc' := by
  cases taken with
  | accepted update admin locked valid => rfl
  | upserts update admin locked written remaining u free =>
      have split : update.updates = written ++ u :: remaining := writing
      show update.updates = (written ++ [u]) ++ remaining
      rw [split, List.append_assoc, List.singleton_append]
  | _ => trivial

/-- **One commit** keeps the log a chain exactly when it is witnessed. -/
theorem Inv.commit_iff (inv : Inv initial s) {t : Nat} {update : AdminSettingsUpdate} {admin : Nat}
    {locked written : List (Key × Text)}
    (at_commit : s.pcs t = .upsert update admin locked written []) (pcs : Nat → Pc) :
    Chained initial ⟨RowStore.commit s.settings t,
      s.auditLog ++ auditEntries admin locked written, pcs⟩ ↔
      ∀ u ∈ written, lookup locked u.1 = none → (s.settings u.1).committed = none := by
  have holding := inv.holding t
  have writing := inv.writing t
  rw [at_commit] at holding writing
  have split : update.updates = written := by
    rw [← List.append_nil written]
    exact writing
  have distinct : (written.map Prod.fst).Nodup := split ▸ updates_nodup update
  -- a key that is not written is left with the value it had
  have untouched (k : Key) (absent : k ∉ written.map Prod.fst) :
      (RowStore.commit s.settings t k).committed = (s.settings k).committed := by
    have none : lookup written.reverse k = none := lookup_eq_none_of_not_mem (by simpa using absent)
    rw [holding.committed k, Pc.version, none, Option.none_or]
    cases found : lookup locked k with
    | none => exact Option.none_or
    | some text => rw [(holding.stored k text found).1, Option.some_or]
  have linked (u : Key × Text) (member : u ∈ written) :
      Linked (initial u.1)
          ((s.auditLog ++ auditEntries admin locked written).filter fun entry => decide (entry.entity = u.1))
          (RowStore.commit s.settings t u.1).committed ↔
            lookup locked u.1 = (s.settings u.1).committed := by
    rw [List.filter_append, filter_auditEntries distinct member,
      linked_append_single _ (inv.chained u.1),
      holding.committed u.1, Pc.version, lookup_reverse distinct member, Option.some_or,
        Option.some_or]
    exact and_iff_left rfl
  constructor
  · intro chained u member unseen
    exact ((linked u member).mp (chained u.1)).symm.trans unseen
  · intro witnessed k
    by_cases member : k ∈ written.map Prod.fst
    · obtain ⟨u, row, rfl⟩ := List.mem_map.mp member
      refine (linked u row).mpr ?_
      cases found : lookup locked u.1 with
      | none => exact (witnessed u row found).symm
      | some text => exact (holding.stored u.1 text found).1.symm
    · show Linked _ (List.filter _ (_ ++ _)) _
      rw [List.filter_append, filter_auditEntries_of_not_mem member, List.append_nil,
        untouched k member]
      exact inv.chained k

theorem Inv.chained_iff (inv : Inv initial s) {a : Act} (ran : step cfg s a = some s') :
    Chained initial s' ↔ Witnessed s a := by
  cases a with
  | submit t update admin =>
      simp only [step] at ran
      split at ran
      · cases ran
        exact iff_of_true inv.chained trivial
      · cases ran
  | abort t =>
      cases ran
      refine iff_of_true (fun k => ?_) trivial
      show Linked _ _ (RowStore.rollback s.settings t k).committed
      rw [committed_rollback]
      exact inv.chained k
  | advance t pick =>
      obtain ⟨⟨settings', log', pc'⟩, advanced, same⟩ := Option.map_eq_some_iff.mp ran
      cases same
      rcases (taken_of_step advanced).committed with ⟨update, admin, locked, written, at_commit,
        rfl, rfl⟩ | ⟨other, committed, rfl⟩
      · rw [Witnessed, at_commit]
        exact inv.commit_iff at_commit _
      · have quiet : Witnessed s (.advance t pick) := stillMissing_of_ne other
        refine iff_of_true (fun k => ?_) quiet
        show Linked _ _ (settings' k).committed
        rw [committed k]
        exact inv.chained k

theorem inv_start (starts : Start initial s) : Inv initial s where
  holding := fun t => by
    rw [starts.pcs t]
    refine holding_nothing (fun k version held => ?_) (fun _ => rfl) rfl
    rw [starts.settled k] at held
    cases held
  writing := fun t => by rw [starts.pcs t]; trivial
  chained := fun k => by
    rw [starts.log, starts.settled k]
    rfl

/-- A request that moves leaves the others what they hold. -/
theorem Inv.moved (inv : Inv initial s) {t : Nat} {settings' : Rows Key Nat Text}
    {log' : List AuditEntry} {pc' : Pc} (holding : Holding settings' t pc')
    (framed : Framed t s.settings settings') (writing : Pc.Writing pc')
    (chained : Chained initial ⟨settings', log', Function.update s.pcs t pc'⟩) :
    Inv initial ⟨settings', log', Function.update s.pcs t pc'⟩ where
  holding := fun t' => by
    by_cases here : t' = t
    · subst here
      simpa using holding
    · simpa [here] using (inv.holding t').framed framed here
  writing := fun t' => by
    by_cases here : t' = t
    · subst here
      simpa using writing
    · simpa [here] using inv.writing t'
  chained := chained

theorem inv_step {a : Act} (inv : Inv initial s) (meets : Witnessed s a)
    (ran : step cfg s a = some s') : Inv initial s' := by
  have chained : Chained initial s' := (inv.chained_iff ran).mpr meets
  cases a with
  | submit t update admin =>
      simp only [step] at ran
      split at ran
      · rename_i idle
        cases ran
        have holding := inv.holding t
        rw [idle] at holding
        exact inv.moved (holding.still (fun _ => rfl) rfl) (framed_refl t _) trivial chained
      · cases ran
  | advance t pick =>
      obtain ⟨⟨settings', log', pc'⟩, advanced, same⟩ := Option.map_eq_some_iff.mp ran
      cases same
      have taken := taken_of_step advanced
      obtain ⟨holding, framed⟩ := (inv.holding t).step taken
      exact inv.moved holding framed (writing_of_taken (inv.writing t) taken) chained
  | abort t =>
      cases ran
      exact inv.moved (holding_nothing (fun k version held => (held_rollback held).1 rfl) (fun _ => rfl) rfl)
        (framed_rollback t s.settings) trivial chained

/-- **The audit log of every key is a chain**, from the value it started with to the one it
holds, in every run whose commits are witnessed; and each further step keeps it one exactly
when it is witnessed too. -/
theorem chained_of_reach (reached : Reach (step cfg) Witnessed (Start initial) s) :
    Chained initial s ∧ ∀ a s', step cfg s a = some s' → (Chained initial s' ↔ Witnessed s a) := by
  have inv : Inv initial s :=
    reached.invariant (fun _ => inv_start) fun _ _ _ inv meets ran => inv_step inv meets ran
  exact ⟨inv.chained, fun _ _ ran => inv.chained_iff ran⟩

end Runs

/-! ## A key that is not stored yet -/

/-- The settings of `storing`. -/
def given (warning critical : Option Text) (k : Key) : Option Text :=
  ((storing warning critical).settings k).committed

theorem start_given (warning critical : Option Text) :
    Start (given warning critical) (storing warning critical) where
  settled := fun k => by cases k <;> rfl
  log := rfl
  pcs := fun _ => rfl

theorem le_140 : 140 ≤ 500 := by decide

theorem le_130 : 130 ≤ 500 := by decide

/-- `{"aqi_warning_threshold": 140}` and `{"aqi_warning_threshold": 130}` -/
def both : List Act :=
  [.submit 0 (patchWarning 140 le_140) 1, .submit 1 (patchWarning 130 le_130) 2]

/-- One after the other: the second patch locks the row of the first. -/
theorem chained_of_reach_turns :
    ∃ s, Reach (step defaults) Witnessed (Start (given none none)) s ∧
      s.auditLog = [⟨.aqiWarningThreshold, none, intText 140, 1⟩,
        ⟨.aqiWarningThreshold, some (intText 140), intText 130, 2⟩] ∧
      Chained (given none none) s := by
  obtain ⟨s, reached, final⟩ :=
    exists_reach_of_run (step defaults) Witnessed (start_given none none)
      (both ++ statements 0 (List.replicate 6 .aqiWarningThreshold) ++
        statements 1 (List.replicate 7 .aqiWarningThreshold))
      (fun s => decide (s.auditLog = [⟨.aqiWarningThreshold, none, intText 140, 1⟩,
        ⟨.aqiWarningThreshold, some (intText 140), intText 130, 2⟩])) (by decide)
  exact ⟨s, reached, of_decide_eq_true final, (chained_of_reach reached).1⟩

/-- **Both at once.**  Neither finds the row, so neither locks it: the second entry says that
there was nothing before it, and 140 is never recorded as replaced. -/
theorem unchained_by_missing_row :
    ¬ ∀ cfg initial s, Reach (step cfg) Always (Start initial) s → Chained initial s := by
  intro chained
  obtain ⟨s, reached, final⟩ :=
    exists_reach_of_run (step defaults) Always (start_given none none)
      (both ++ statements 0 (List.replicate 2 .aqiWarningThreshold) ++
        statements 1 (List.replicate 2 .aqiWarningThreshold) ++
        statements 0 (List.replicate 4 .aqiWarningThreshold) ++
        statements 1 (List.replicate 4 .aqiWarningThreshold))
      (fun s => decide (s.auditLog = [⟨.aqiWarningThreshold, none, intText 140, 1⟩,
        ⟨.aqiWarningThreshold, none, intText 130, 2⟩])) (by decide)
  have log : s.auditLog = [⟨.aqiWarningThreshold, none, intText 140, 1⟩,
      ⟨.aqiWarningThreshold, none, intText 130, 2⟩] := of_decide_eq_true final
  have linked := chained defaults (given none none) s reached .aqiWarningThreshold
  rw [log] at linked
  -- the second entry starts from nothing, after one that ended with 140
  exact absurd linked.2.1 (by decide)

end Empyrean.Admin.AuditTrail
