/-
# Empyrean.Ingest.ParseTime — the timestamp a reading is stored with

`_parse_time` of `tasks/process_reading.py`.  A payload carries a time or none; a time
is converted to UTC, and one that is more than 24 hours away from the server clock is
replaced by the server clock.

Instants are microseconds since 0001-01-01T00:00:00 UTC, the first one a Python
`datetime` has.

* `Datetime` — a wall clock inside the range of `datetime`, with its UTC offset.
* `parseTime_window` — what is stored is within 24 hours of the clock it was stamped at.
* `parseTime_eq` — the conversion raises exactly where the UTC instant has no `datetime`,
  before any clamping.
-/
import Mathlib.Data.Int.Order.Basic

namespace Empyrean.Ingest

set_option autoImplicit false

/-! ## Times -/

def hour : Int := 3600000000

def day : Int := 24 * hour

/-- The days of the years 1 to 9999. -/
def datetimeDays : Int := 3652059

/-- The instant has a `datetime`. -/
def Representable (t : Int) : Prop := 0 ≤ t ∧ t < datetimeDays * day

instance (t : Int) : Decidable (Representable t) := inferInstanceAs (Decidable (_ ∧ _))

/-- A Python `datetime`: the wall clock it shows and, where it is aware, its UTC offset. -/
structure Datetime where
  wall : Int
  offset : Option Int
  wall_in : Representable wall
  offset_in : ∀ o ∈ offset, -day < o ∧ o < day

/-- The value of the payload's `time`.  A text is given by what `datetime.fromisoformat`
makes of it once `Z` is written `+00:00`; `none` is its `ValueError`. -/
inductive RawTime
  | missing
  | text (read : Option Datetime)
  | value (dt : Datetime)

/-- `OverflowError: date value out of range`. -/
structure OverflowError where
deriving DecidableEq, Repr

/-- The UTC instant; a naive time is UTC already. -/
def Datetime.instant (dt : Datetime) : Int := dt.wall - dt.offset.getD 0

/-- `dt.astimezone(timezone.utc)`. -/
def Datetime.astimezoneUtc (dt : Datetime) : Except OverflowError Int :=
  if Representable dt.instant then .ok dt.instant else .error {}

/-! ## The function -/

/-- `_TIME_SKEW_LIMIT_HOURS`. -/
def timeSkewLimitHours : Int := 24

/-- The part after the parsing: UTC, then the window around the server clock. -/
def clampTime (dt : Datetime) (now : Int) : Except OverflowError Int := do
  let utc ← dt.astimezoneUtc
  let skew : Int := (utc - now).natAbs
  if skew > timeSkewLimitHours * hour then return now
  return utc

/-- `_parse_time`, at the server clock `now`. -/
def parseTime (raw : RawTime) (now : Int) : Except OverflowError Int :=
  match raw with
  | .missing => .ok now
  | .value dt => clampTime dt now
  | .text (some dt) => clampTime dt now
  -- "Unparseable reading time — defaulting to now-UTC"
  | .text none => .ok now

/-! ## What it returns -/

/-- The time lies within 24 hours of the clock. -/
def InWindow (t now : Int) : Prop := now - day ≤ t ∧ t ≤ now + day

instance (t now : Int) : Decidable (InWindow t now) := inferInstanceAs (Decidable (_ ∧ _))

/-- The time a payload was read to carry, if any. -/
def RawTime.datetime : RawTime → Option Datetime
  | .missing => none
  | .value dt => some dt
  | .text read => read

/-- What is stored at the clock `now` for the instant `t`. -/
def stamp (t : Option Int) (now : Int) : Int :=
  match t with
  | some t => if InWindow t now then t else now
  | none => now

theorem skew_iff (t now : Int) : ((t - now).natAbs : Int) > timeSkewLimitHours * hour ↔
    ¬ InWindow t now := by
  simp only [InWindow, timeSkewLimitHours, day]
  omega

theorem clampTime_eq (dt : Datetime) (now : Int) :
    clampTime dt now =
      if Representable dt.instant then .ok (stamp (some dt.instant) now) else .error {} := by
  simp only [clampTime, Datetime.astimezoneUtc]
  split
  · simp only [stamp, bind, Except.bind, pure, Except.pure]
    by_cases far : InWindow dt.instant now
    · rw [if_pos far, if_neg fun skew => (skew_iff _ _).mp skew far]
    · rw [if_neg far, if_pos ((skew_iff _ _).mpr far)]
  · rfl

/-- `_parse_time` raises or stamps. -/
theorem parseTime_eq (raw : RawTime) (now : Int) :
    parseTime raw now = if ∀ dt ∈ raw.datetime, Representable dt.instant then
      .ok (stamp (raw.datetime.map Datetime.instant) now) else .error {} := by
  cases raw with
  | missing => simp [parseTime, RawTime.datetime, stamp]
  | value dt => simp [parseTime, RawTime.datetime, clampTime_eq]
  | text read =>
      cases read with
      | none => simp [parseTime, RawTime.datetime, stamp]
      | some dt => simp [parseTime, RawTime.datetime, clampTime_eq]

theorem stamp_window (t : Option Int) (now : Int) : InWindow (stamp t now) now := by
  have here : InWindow now now := by
    simp only [InWindow, day, hour]
    omega
  cases t with
  | none => exact here
  | some t =>
      simp only [stamp]
      split
      · assumption
      · exact here

/-- **The ±24 h envelope.** -/
theorem parseTime_window {raw : RawTime} {now t : Int} (parsed : parseTime raw now = .ok t) :
    InWindow t now := by
  rw [parseTime_eq] at parsed
  split at parsed
  · cases parsed
    exact stamp_window _ _
  · cases parsed

/-- Two clocks stamp one payload alike iff both have its time in the window, or they
read the same. -/
theorem stamp_eq_iff (t : Option Int) (now now' : Int) :
    stamp t now = stamp t now' ↔
      (∃ u, t = some u ∧ InWindow u now ∧ InWindow u now') ∨ now = now' := by
  cases t with
  | none => simp [stamp]
  | some t =>
      simp only [stamp, Option.some.injEq, exists_eq_left']
      by_cases near : InWindow t now
      · by_cases near' : InWindow t now'
        · simp [near, near']
        · simp only [near, near', if_true, if_false, and_false, false_or]
          simp only [InWindow, day, hour] at near near'
          omega
      · by_cases near' : InWindow t now'
        · simp only [near, near', if_true, if_false, false_and, false_or]
          simp only [InWindow, day, hour] at near near'
          omega
        · simp [near, near']

end Empyrean.Ingest
