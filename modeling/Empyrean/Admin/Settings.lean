/-
# Empyrean.Admin.Settings — `system_settings` and `PATCH /admin/settings`

The settings table holds texts.  Two readers turn a threshold text into a number:
`_threshold` of the Celery tasks with `float()`, `_merged_int` of the PATCH handler with
`int()`; both fall back to the configuration when the row is missing or not numeric.

`update_settings` is split at its statements.  `SELECT … FOR UPDATE` takes its snapshot
first (`lock`) and then locks the rows it found one by one (`lockRow`), so a row that is
inserted after the snapshot is neither seen nor locked.

* `AdminSettingsUpdate` — a patch body that passed validation; the bounds are fields.
* `step` — one statement of one request.
-/
import Empyrean.Theory.PyNumeral
import Empyrean.Theory.RowStore

namespace Empyrean.Admin

set_option autoImplicit false

open Empyrean.Theory Empyrean.Theory.RowStore Empyrean.Theory.PyNumeral

/-- The registry keys of `_SETTING_DEFS`. -/
inductive Key
  | aqiWarningThreshold
  | aqiCriticalThreshold
  | dataRetentionDays
  | alertsEnabled
  | alertEmail
  deriving DecidableEq, Repr

/-- The configuration, which refuses to start with the thresholds the wrong way round. -/
structure Config where
  aqiWarningThreshold : Int
  aqiCriticalThreshold : Int
  ordered : aqiWarningThreshold < aqiCriticalThreshold

/-- A validated body.  `none` is a key that the client left out: an explicit null is
refused before anything is read. -/
structure AdminSettingsUpdate where
  aqiWarningThreshold : Option Nat
  aqiCriticalThreshold : Option Nat
  dataRetentionDays : Option Nat
  alertsEnabled : Option Bool
  alertEmail : Option Text
  warning_le : ∀ w ∈ aqiWarningThreshold, w ≤ 500
  critical_le : ∀ c ∈ aqiCriticalThreshold, c ≤ 500
  retention_bounds : ∀ days ∈ dataRetentionDays, 1 ≤ days ∧ days ≤ 3650
  email_length : ∀ email ∈ alertEmail, email.length ≤ 255
  thresholds_ordered : ∀ w ∈ aqiWarningThreshold, ∀ c ∈ aqiCriticalThreshold, w < c

/-- `str` of a non-negative int. -/
def intText (n : Nat) : Text := Nat.toDigits 10 n

/-- `_normalise` of a boolean. -/
def boolText (value : Bool) : Text := if value then "true".toList else "false".toList

namespace AdminSettingsUpdate

variable (update : AdminSettingsUpdate)

/-- The two thresholds, by key. -/
def threshold : Key → Option Nat
  | .aqiWarningThreshold => update.aqiWarningThreshold
  | .aqiCriticalThreshold => update.aqiCriticalThreshold
  | _ => none

/-- The supplied keys with the text each is stored as, in the order of the model's fields. -/
def updates : List (Key × Text) :=
  (update.aqiWarningThreshold.map fun w => (Key.aqiWarningThreshold, intText w)).toList ++
    (update.aqiCriticalThreshold.map fun c => (Key.aqiCriticalThreshold, intText c)).toList ++
    (update.dataRetentionDays.map fun days => (Key.dataRetentionDays, intText days)).toList ++
    (update.alertsEnabled.map fun value => (Key.alertsEnabled, boolText value)).toList ++
    (update.alertEmail.map fun email => (Key.alertEmail, email)).toList

/-- The keys of the locking `SELECT`: those of the patch, and always the threshold pair. -/
def lockKeys : List Key :=
  [.aqiWarningThreshold, .aqiCriticalThreshold] ++
    (update.updates.map Prod.fst).filter fun k => k ≠ .aqiWarningThreshold ∧
      k ≠ .aqiCriticalThreshold

/-- The patch supplies a threshold. -/
def setsThreshold : Prop := update.aqiWarningThreshold.isSome ∨ update.aqiCriticalThreshold.isSome

instance : Decidable update.setsThreshold := inferInstanceAs (Decidable (_ ∨ _))

end AdminSettingsUpdate

/-! ## The two readers of a threshold -/

def Config.fallback (cfg : Config) : Key → Int
  | .aqiCriticalThreshold => cfg.aqiCriticalThreshold
  | _ => cfg.aqiWarningThreshold

/-- `_threshold`: what the tasks act on. -/
def threshold (raw : Option Text) (fallback : Int) : PyFloat :=
  match raw with
  | none => .fin fallback
  | some raw => (float raw).getD (.fin fallback)

/-- `_merged_int`: the patched value, else the stored one as the handler reads it. -/
def mergedInt (patched : Option Nat) (raw : Option Text) (fallback : Int) : Int :=
  match patched with
  | some value => value
  | none =>
      match raw with
      | none => fallback
      | some raw => if strip raw = [] then fallback else (int raw).getD fallback

/-- The stored text is the same number for both readers, or for neither. -/
def ReadAlike (raw : Text) : Prop := float raw = (int raw).map fun n => .fin n

instance (raw : Text) : Decidable (ReadAlike raw) := inferInstanceAs (Decidable (_ = _))

/-! ## The handler -/

structure AuditEntry where
  entity : Key
  oldValue : Option Text
  newValue : Text
  changedBy : Nat
  deriving DecidableEq

/-- Where a request stands.  `locked` is what the locking `SELECT` has returned so far. -/
inductive Pc
  | idle
  | precheck (update : AdminSettingsUpdate) (admin : Nat)
  | lock (update : AdminSettingsUpdate) (admin : Nat)
  | lockRow (update : AdminSettingsUpdate) (admin : Nat) (locked : List (Key × Text))
  (todo : List Key)
  | validate (update : AdminSettingsUpdate) (admin : Nat) (locked : List (Key × Text))
  | upsert (update : AdminSettingsUpdate) (admin : Nat) (locked : List (Key × Text))
      (written remaining : List (Key × Text))
  | done

structure State where
  settings : Rows Key Nat Text
  auditLog : List AuditEntry
  pcs : Nat → Pc

/-- `warning >= critical` on the merged pair. -/
def inverted (cfg : Config) (update : AdminSettingsUpdate) (stored : Key → Option Text) : Bool :=
  decide (mergedInt update.aqiWarningThreshold (stored .aqiWarningThreshold) cfg.aqiWarningThreshold ≥
    mergedInt update.aqiCriticalThreshold (stored .aqiCriticalThreshold) cfg.aqiCriticalThreshold)

def lookup (rows : List (Key × Text)) (k : Key) : Option Text := rows.lookup k

@[simp] theorem lookup_nil (k : Key) : lookup [] k = none := rfl

@[simp] theorem lookup_cons_self (rows : List (Key × Text)) (k : Key) (text : Text) :
    lookup ((k, text) :: rows) k = some text := by
  simp [lookup]

theorem lookup_cons_of_ne {rows : List (Key × Text)} {k k' : Key} (text : Text)
    (different : k' ≠ k) : lookup ((k, text) :: rows) k' = lookup rows k' := by
  have apart : (k' == k) = false := beq_eq_false_iff_ne.mpr different
  simp [lookup, List.lookup_cons, apart]

/-- What `session.add(AuditLog(...))` has collected: one entry for each updated key, with
the value the locking `SELECT` saw. -/
def auditEntries (admin : Nat) (locked updates : List (Key × Text)) : List AuditEntry :=
  updates.map fun u =>
    { entity := u.1, oldValue := lookup locked u.1, newValue := u.2, changedBy := admin }

/-- The next statement of a request; `pick` is the row it locks next. -/
def Pc.step (cfg : Config) (t : Nat) (settings : Rows Key Nat Text) (auditLog : List AuditEntry)
    (pick : Key) : Pc → Option (Rows Key Nat Text × List AuditEntry × Pc)
  | .precheck update admin =>
      -- an empty body answers 200 with the current settings
      if update.updates = [] then some (settings, auditLog, .done)
      else if inverted cfg update (fun k => (settings k).read t) then some (settings, auditLog, .done)
      else some (settings, auditLog, .lock update admin)
  | .lock update admin =>
      let found := update.lockKeys.filter fun k => ((settings k).read t).isSome
      some (settings, auditLog, .lockRow update admin [] found)
  | .lockRow update admin locked [] => some (settings, auditLog, .validate update admin locked)
  | .lockRow update admin locked (k :: todo) =>
      if pick ∈ k :: todo then
        (updateRow settings t pick (fun _ => true) id).map fun visited =>
          match visited with
          | (settings, some value) =>
              (settings, auditLog,
                .lockRow update admin ((pick, value) :: locked) ((k :: todo).erase pick))
          | (settings, none) =>
              (settings, auditLog, .lockRow update admin locked ((k :: todo).erase pick))
      else none
  | .validate update admin locked =>
      if inverted cfg update (lookup locked) then some (rollback settings t, auditLog, .done)
      else some (settings, auditLog, .upsert update admin locked [] update.updates)
  | .upsert update admin locked written (u :: remaining) =>
      -- `INSERT … ON CONFLICT DO UPDATE` waits for whoever holds the key, and then overwrites
      if (settings u.1).FreeFor t then
        some (put settings t u.1 (some u.2), auditLog,
          .upsert update admin locked (written ++ [u]) remaining)
      else none
  | .upsert _ admin locked written [] =>
      some (commit settings t, auditLog ++ auditEntries admin locked written, .done)
  | .idle | .done => none

inductive Act
  | submit (t : Nat) (update : AdminSettingsUpdate) (admin : Nat)
  | advance (t : Nat) (pick : Key)
  /-- The connection is lost, or the database breaks a deadlock. -/
  | abort (t : Nat)

def step (cfg : Config) (s : State) : Act → Option State
  | .submit t update admin =>
      match s.pcs t with
      | .idle => some { s with pcs := Function.update s.pcs t (.precheck update admin) }
      | _ => none
  | .advance t pick =>
      (Pc.step cfg t s.settings s.auditLog pick (s.pcs t)).map fun result =>
        { settings := result.1, auditLog := result.2.1, pcs := Function.update s.pcs t result.2.2 }
  | .abort t =>
      some { s with settings := rollback s.settings t, pcs := Function.update s.pcs t .done }

end Empyrean.Admin
