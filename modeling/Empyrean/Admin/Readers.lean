/-
# Empyrean.Admin.Readers — every reader of a setting, side by side

A setting is a row of `system_settings` or, when the row is missing, a field of the
configuration.  `GET /admin/settings` reports the text as it is; `PATCH` validation reads
the thresholds with `int()`; the Celery tasks read them with `float()`, the retention window
with `int(float())`, and the recipient and the toggle as text.

* `reported`, `thresholdOf`, `retentionDaysOf`, `alertEmail`, `alertsEnabled` — the readers,
  with the exceptions that they let through.
* `Agree` — nobody raises, and for every key the value acted on is the value reported.
* `agree_iff` — when that is so: the stored numbers are integers that `int()`, `float()`
  and a double all make the same of, and no recipient is configured beside a missing row.
* `agree_of_patched` — so it is for all rows that the API has stored.
-/
import Empyrean.Admin.Settings
import Empyrean.Rollup.Aggregation
import Empyrean.Theory.Rounding
import Mathlib.Tactic.NormNum

namespace Empyrean.Admin

set_option autoImplicit false

open Empyrean.Theory.PyNumeral Empyrean.Theory.Rounding
open Empyrean.Rollup (intOfFloat)

/-! ## The readers -/

/-- The fields of the configuration that settings fall back to.  An int of more than 4300
digits is refused when the configuration is loaded, so `str` has no more to write. -/
structure Fallbacks extends Config where
  dataRetentionDays : Int
  alertEmail : Text
  digits : ∀ n ∈ [aqiWarningThreshold, aqiCriticalThreshold, dataRetentionDays],
    (Nat.toDigits 10 n.natAbs).length ≤ 4300

/-- `system_settings`, by key. -/
abbrev Settings := Key → Option Text

inductive PyError
  | valueError
  | overflowError
  deriving DecidableEq, Repr

/-- What a decimal text becomes as a double; beyond the largest one it is an infinity. -/
def toDouble : PyFloat → PyFloat
  | .fin q => if OverflowsDouble q then .inf (decide (q < 0)) else .fin (roundDouble q)
  | special => special

/-- `float(n)` of an int, which raises where a text would become an infinity. -/
def floatOfInt (n : Int) : Except PyError PyFloat :=
  if OverflowsDouble n then .error .overflowError else .ok (.fin (roundDouble n))

/-- `_config_fallback` -/
def configFallback (cfg : Fallbacks) : Key → Text
  | .aqiWarningThreshold => str cfg.aqiWarningThreshold
  | .aqiCriticalThreshold => str cfg.aqiCriticalThreshold
  | .dataRetentionDays => str cfg.dataRetentionDays
  | .alertsEnabled => "true".toList
  | .alertEmail => cfg.alertEmail

/-- The `value` that `_load_settings` gives a key. -/
def reported (cfg : Fallbacks) (settings : Settings) (k : Key) : Text :=
  (settings k).getD (configFallback cfg k)

/-- `_threshold`: only a `ValueError` is caught. -/
def thresholdOf (raw : Option Text) (fallback : Int) : Except PyError PyFloat :=
  match raw with
  | none => floatOfInt fallback
  | some raw =>
      match float raw with
      | some value => .ok (toDouble value)
      | none => floatOfInt fallback

/-- `_retention_days`: `int` of an infinity is an `OverflowError`, which is not caught. -/
def retentionDaysOf (raw : Option Text) (config : Int) : Except PyError Int :=
  match raw with
  | none => .ok config
  | some raw =>
      match float raw with
      | none => .ok config
      | some value =>
          match intOfFloat (toDouble value) with
          | none => .error .overflowError
          | some days => .ok (days.getD config)

/-- `_alert_email`: an empty row is no recipient. -/
def alertEmail (settings : Settings) : Option Text :=
  match settings .alertEmail with
  | none | some [] => none
  | some row => some row

/-- The master toggle of `check_thresholds`. -/
def alertsEnabled (settings : Settings) : Bool :=
  (settings .alertsEnabled).getD "true".toList == "true".toList

/-- The two thresholds. -/
def thresholdKeys : List Key := [.aqiWarningThreshold, .aqiCriticalThreshold]

/-! ## Agreement -/

/-- The tasks, the PATCH validation and the report speak of one number. -/
structure AgreeOnThreshold (cfg : Fallbacks) (settings : Settings) (k : Key) (n : Int) : Prop where
  task : thresholdOf (settings k) (cfg.fallback k) = .ok (.fin n)
  patch : mergedInt none (settings k) (cfg.fallback k) = n
  report : float (reported cfg settings k) = some (.fin n)

structure Agree (cfg : Fallbacks) (settings : Settings) : Prop where
  threshold : ∀ k ∈ thresholdKeys, ∃ n, AgreeOnThreshold cfg settings k n
  recipient : alertEmail settings = if reported cfg settings .alertEmail = [] then none
    else some (reported cfg settings .alertEmail)
  toggle : alertsEnabled settings = (reported cfg settings .alertsEnabled == "true".toList)
  retention :
    ∃ days : Int, retentionDaysOf (settings .dataRetentionDays) cfg.dataRetentionDays = .ok days ∧
    float (reported cfg settings .dataRetentionDays) = some (.fin days)

/-- A double holds the integer exactly. -/
def IsDouble (n : Int) : Prop := ¬ OverflowsDouble n ∧ roundDouble n = n

/-- A threshold that all three readers take for one integer: of a stored text, the one that
`int()` reads too, or the configured one where `int()` refuses the text. -/
def PlainThreshold (raw : Option Text) (fallback : Int) : Prop :=
  match raw with
  | none => IsDouble fallback
  | some text => ∃ n : Int, float text = some (.fin n) ∧ IsDouble n ∧
      (int text = some n ∨ (int text = none ∧ fallback = n))

/-- A stored window of whole days. -/
def PlainRetention (raw : Option Text) : Prop :=
  ∀ text ∈ raw, ∃ n : Int, float text = some (.fin n) ∧ IsDouble n

/-! ## The numbers -/

section Numbers

theorem isDouble_of_lt {n : Int} (small : |n| < 2 ^ 53) : IsDouble n := by
  have same := roundDouble_of_lt small
  refine ⟨?_, same⟩
  rw [OverflowsDouble, same, not_le]
  have below : |(n : Rat)| < 2 ^ 53 := by exact_mod_cast small
  calc |(n : Rat)| < 2 ^ 53 := below
    _ < 2 ^ 1024 := pow_lt_pow_right₀ (by norm_num) (by norm_num)

/-- The earlier, exact reading of a threshold is rounded to a double. -/
theorem thresholdOf_eq {raw : Option Text} {fallback : Int} (fits : ¬ OverflowsDouble fallback) :
    thresholdOf raw fallback = .ok (toDouble (threshold raw fallback)) := by
  have config : floatOfInt fallback = .ok (toDouble (.fin fallback)) := by
    simp [floatOfInt, toDouble, fits]
  cases raw with
  | none => exact config
  | some raw =>
      simp only [thresholdOf, threshold]
      cases float raw with
      | none => exact config
      | some value => rfl

theorem floatOfInt_iff {fallback n : Int} : floatOfInt fallback = .ok (.fin n) ↔
    ¬ OverflowsDouble fallback ∧ roundDouble fallback = n := by
  unfold floatOfInt
  split
  · rename_i overflows
    simp [overflows]
  · rename_i fits
    simp [fits]

theorem toDouble_fin_iff {q : Rat} {n : Int} : toDouble (.fin q) = .fin n ↔
    ¬ OverflowsDouble q ∧ roundDouble q = n := by
  by_cases overflows : OverflowsDouble q <;> simp [toDouble, overflows]

/-- An empty text is no number, so `int` and `_merged_int` refuse alike. -/
theorem mergedInt_of_float {text : Text} {value : PyFloat} (number : float text = some value)
    (fallback : Int) : mergedInt none (some text) fallback = (int text).getD fallback := by
  have ink : strip text ≠ [] := by
    intro blank
    rw [float_of_blank blank] at number
    cases number
  simp [mergedInt, ink]

/-- `int` of the double of an integer is that double. -/
theorem retentionDaysOf_int {text : Text} {n config days : Int}
    (number : float text = some (.fin n)) :
    retentionDaysOf (some text) config = .ok days ↔ ¬ OverflowsDouble n ∧ roundDouble n = days := by
  obtain ⟨k, rounded⟩ := exists_roundDouble_intCast n
  by_cases overflows : OverflowsDouble n
  · simp [retentionDaysOf, number, toDouble, overflows, intOfFloat]
  · have whole : (k : Rat).num.tdiv (k : Rat).den = k := by simp
    simp [retentionDaysOf, number, toDouble, overflows, intOfFloat, rounded]

end Numbers

/-! ## When the readers agree -/

section Readers

variable {cfg : Fallbacks} {settings : Settings}

theorem reported_threshold_none {k : Key} (member : k ∈ thresholdKeys)
    (missing : settings k = none) : reported cfg settings k = str (cfg.fallback k) := by
  simp only [thresholdKeys, List.mem_cons, List.not_mem_nil, or_false] at member
  rcases member with rfl | rfl <;> simp [reported, missing, configFallback, Config.fallback]

theorem agreeOnThreshold_iff {k : Key} (member : k ∈ thresholdKeys) :
    (∃ n, AgreeOnThreshold cfg settings k n) ↔ PlainThreshold (settings k) (cfg.fallback k) := by
  cases stored : settings k with
  | none =>
      have report : reported cfg settings k = str (cfg.fallback k) :=
        reported_threshold_none member stored
      constructor
      · rintro ⟨n, task, patch, _⟩
        rw [stored] at task patch
        obtain rfl : cfg.fallback k = n := patch
        exact floatOfInt_iff.mp task
      · intro plain
        refine ⟨cfg.fallback k, ?_, ?_, ?_⟩
        · rw [stored]
          exact floatOfInt_iff.mpr plain
        · rw [stored]
          rfl
        · rw [report, float_str]
  | some text =>
      have report : reported cfg settings k = text := by simp [reported, stored]
      constructor
      · rintro ⟨n, task, patch, number⟩
        rw [report] at number
        rw [stored, mergedInt_of_float number] at patch
        rw [stored] at task
        simp only [thresholdOf, number, Except.ok.injEq] at task
        refine ⟨n, number, toDouble_fin_iff.mp task, ?_⟩
        cases read : int text with
        | none => exact Or.inr ⟨rfl, by simpa [read] using patch⟩
        | some m => exact Or.inl (by simpa [read] using patch)
      · rintro ⟨n, number, double, read⟩
        refine ⟨n, ?_, ?_, by rw [report, number]⟩
        · rw [stored]
          simp only [thresholdOf, number]
          rw [toDouble_fin_iff.mpr double]
        · rw [stored, mergedInt_of_float number]
          rcases read with read | ⟨refused, same⟩
          · simp [read]
          · simp [refused, same]

theorem recipient_iff : (alertEmail settings = if reported cfg settings .alertEmail = [] then none
      else some (reported cfg settings .alertEmail)) ↔
        (settings .alertEmail = none → cfg.alertEmail = []) := by
  cases stored : settings .alertEmail with
  | none => simp [alertEmail, reported, stored, configFallback]
  | some row => cases row <;> simp [alertEmail, reported, stored]

theorem retention_iff : (∃ days : Int,
      retentionDaysOf (settings .dataRetentionDays) cfg.dataRetentionDays = .ok days ∧
        float (reported cfg settings .dataRetentionDays) = some (.fin days)) ↔
      PlainRetention (settings .dataRetentionDays) := by
  cases stored : settings .dataRetentionDays with
  | none =>
      refine iff_of_true ⟨cfg.dataRetentionDays, rfl, ?_⟩ (fun text present => by cases present)
      simp [reported, stored, configFallback, float_str]
  | some text =>
      have report : reported cfg settings .dataRetentionDays = text := by simp [reported, stored]
      rw [report]
      constructor
      · rintro ⟨days, task, number⟩ _ ⟨⟩
        exact ⟨days, number, (retentionDaysOf_int number).mp task⟩
      · intro plain
        obtain ⟨n, number, double⟩ := plain text rfl
        exact ⟨n, (retentionDaysOf_int number).mpr double, number⟩

/-- **When all readers of a setting agree**, and none of them raises: each threshold and the
window are plain, and a missing recipient row is missing in the configuration too.  The
toggle is always read as it is reported. -/
theorem agree_iff (cfg : Fallbacks) (settings : Settings) :
    Agree cfg settings ↔
      (∀ k ∈ thresholdKeys, PlainThreshold (settings k) (cfg.fallback k)) ∧
        (settings .alertEmail = none → cfg.alertEmail = []) ∧
          PlainRetention (settings .dataRetentionDays) := by
  constructor
  · intro agree
    refine ⟨?_, recipient_iff.mp agree.recipient, retention_iff.mp agree.retention⟩
    intro k member
    exact (agreeOnThreshold_iff member).mp (agree.threshold k member)
  · rintro ⟨thresholds, recipient, retention⟩
    refine ⟨?_, recipient_iff.mpr recipient, rfl, retention_iff.mpr retention⟩
    intro k member
    exact (agreeOnThreshold_iff member).mpr (thresholds k member)

/-! ## What the API stores -/

/-- Every row is one that a validated body was stored as. -/
def Patched (settings : Settings) : Prop :=
  ∀ k, ∀ text ∈ settings k, ∃ update : AdminSettingsUpdate, (k, text) ∈ update.updates

theorem threshold_of_mem_updates {update : AdminSettingsUpdate} {k : Key} {text : Text}
    (stored : (k, text) ∈ update.updates) (member : k ∈ thresholdKeys) :
    ∃ n ≤ 500, text = intText n := by
  simp only [AdminSettingsUpdate.updates, List.mem_append, Option.mem_toList,
    Option.map_eq_some_iff, Prod.mk.injEq] at stored
  simp only [thresholdKeys, List.mem_cons, List.not_mem_nil, or_false] at member
  rcases stored with (((⟨w, given, -, rfl⟩ | ⟨c, given, -, rfl⟩) | ⟨_, _, rfl, _⟩) | ⟨_, _, rfl, _⟩) | ⟨_, _, rfl, _⟩
  · exact ⟨w, update.warning_le w given, rfl⟩
  · exact ⟨c, update.critical_le c given, rfl⟩
  · simp at member
  · simp at member
  · simp at member

theorem retention_of_mem_updates {update : AdminSettingsUpdate} {text : Text}
    (stored : (Key.dataRetentionDays, text) ∈ update.updates) : ∃ n ≤ 3650, text = intText n := by
  simp only [AdminSettingsUpdate.updates, List.mem_append, Option.mem_toList,
    Option.map_eq_some_iff,
    Prod.mk.injEq, reduceCtorEq, false_and, and_false, exists_false, false_or, or_false,
      true_and] at stored
  obtain ⟨days, given, rfl⟩ := stored
  exact ⟨days, (update.retention_bounds days given).2, rfl⟩

theorem isDouble_natCast {n : Nat} (small : n ≤ 3650) : IsDouble n :=
  isDouble_of_lt (by rw [Nat.abs_cast]; exact_mod_cast (show n < 2 ^ 53 by omega))

theorem float_intText (n : Nat) : float (intText n) = some (.fin (n : Int)) := by
  rw [intText, float_toDigits, Int.cast_natCast]

/-- At most 500, so the text has no more digits than `int` accepts. -/
theorem plainThreshold_intText {n : Nat} (small : n ≤ 500) (fallback : Int) :
    PlainThreshold (some (intText n)) fallback := by
  have short : (Nat.toDigits 10 n).length ≤ 3 :=
    (Nat.length_toDigits_le_iff (b := 10) (by decide) (by decide)).mpr (by omega)
  exact ⟨n, float_intText n, isDouble_natCast (by omega), Or.inl (int_toDigits (by omega))⟩

/-- **What the API has stored is read alike by everyone**, over a configuration whose
thresholds are doubles and that names no recipient beside a missing row. -/
theorem agree_of_patched (patched : Patched settings)
    (configured : ∀ k ∈ thresholdKeys, IsDouble (cfg.fallback k))
    (recipient : settings .alertEmail = none → cfg.alertEmail = []) : Agree cfg settings where
  threshold := by
    intro k member
    rw [agreeOnThreshold_iff member]
    cases stored : settings k with
    | none => exact configured k member
    | some text =>
        obtain ⟨update, written⟩ := patched k text stored
        obtain ⟨n, small, rfl⟩ := threshold_of_mem_updates written member
        exact plainThreshold_intText small _
  recipient := recipient_iff.mpr recipient
  toggle := rfl
  retention := by
    refine retention_iff.mpr fun text stored => ?_
    obtain ⟨update, written⟩ := patched .dataRetentionDays text stored
    obtain ⟨n, small, rfl⟩ := retention_of_mem_updates written
    exact ⟨n, float_intText n, isDouble_natCast small⟩

end Readers

/-! ## Readers that disagree -/

section Disagreement

theorem ordered_of_shipped : (100 : Int) < 150 := by decide

theorem digits_of_shipped :
    ∀ n ∈ [(100 : Int), 150, 365], (Nat.toDigits 10 n.natAbs).length ≤ 4300 := by decide

/-- The shipped thresholds and window, with a recipient in the environment. -/
def withRecipient : Fallbacks :=
  { aqiWarningThreshold := 100
    aqiCriticalThreshold := 150
    dataRetentionDays := 365
    alertEmail := "ops@example.org".toList
    ordered := ordered_of_shipped
    digits := digits_of_shipped }

/-- One stored row, the others missing. -/
def onlyRow (k : Key) (text : String) : Settings :=
  Function.update (fun _ => none) k (some text.toList)

/-- `GET` reports a recipient that no alert is sent to; a threshold of `"120.5"` is 120.5 for
the tasks and 100 for `PATCH`; a window of `"inf"` makes the cleanup raise. -/
theorem readers_disagree : ¬ Agree withRecipient (fun _ => none) ∧
    (∀ cfg, ¬ Agree cfg (onlyRow .aqiWarningThreshold "120.5")) ∧
      ∀ cfg, retentionDaysOf (onlyRow .dataRetentionDays "inf" .dataRetentionDays) cfg =
        .error .overflowError := by
  refine ⟨?_, ?_, ?_⟩
  · intro agree
    exact absurd agree.recipient (by decide)
  · intro cfg agree
    obtain ⟨n, task, patch, report⟩ := agree.threshold .aqiWarningThreshold (by decide)
    have read : float "120.5".toList = some (.fin (241 / 2)) := by decide +kernel
    have same : (241 / 2 : Rat) = n := by
      have shown : float "120.5".toList = some (.fin n) := report
      rw [read] at shown
      simpa using shown
    have whole : ((241 / 2 : Rat)).den = 1 := by rw [same]; rfl
    exact absurd whole (by decide +kernel)
  · intro cfg
    rfl

end Disagreement

end Empyrean.Admin
