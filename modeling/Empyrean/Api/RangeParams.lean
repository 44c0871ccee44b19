/-
# Empyrean.Api.RangeParams — the time range of a request

`GET /readings/history` and `GET /export` take `from` and `to` as ISO-8601 texts and share
the parser of `api/_time.py`.  The parser turns the `ValueError` of `fromisoformat` into one
with a message, and both handlers answer it with a 422.  The conversion to UTC stands after
that: a time with an offset at either end of the range of `datetime` has no UTC instant, and
the `OverflowError` goes past both handlers.

* `historyWindow`, `exportWindow` — what becomes of `from`, `to` and `bucket`: a 422, bounds to
  go on with, or an exception.
* `HistoryContract`, `ExportContract` — no exception, and the bounds in order and not too far apart.
* `Converts` — what is parsed has a UTC instant.
* `contracts_iff` — the handlers keep their contracts exactly on those requests.
* `contracts_broken` — one request where both raise.
-/
import Empyrean.Ingest.ParseTime
import Empyrean.Theory.PyNumeral

namespace Empyrean.Api

set_option autoImplicit false

open Empyrean.Ingest
open Empyrean.Theory.PyNumeral (Text)

/-! ## Texts and times -/

/-- `str.replace`, where `skip` characters of an occurrence are still to be passed over. -/
def replaceFrom (old new : Text) : Nat → Text → Text
  | _, [] => []
  | 0, c :: rest =>
      if old.isPrefixOf (c :: rest) then new ++ replaceFrom old new (old.length - 1) rest
      else c :: replaceFrom old new 0 rest
  | skip + 1, _ :: rest => replaceFrom old new skip rest

/-- `text.replace(old, new)` for an `old` that is not empty. -/
def replace (old new text : Text) : Text := replaceFrom old new 0 text

inductive Raised
  | valueError (detail : Text)
  | overflowError
deriving DecidableEq, Repr

/-- A `datetime` minus a `timedelta`. -/
def minus (t d : Int) : Except Raised Int :=
  if Representable (t - d) then .ok (t - d) else .error .overflowError

/-- A server clock; there is a `datetime` for the day before. -/
structure Clock where
  now : Int
  now_in : Representable now
  yesterday_in : Representable (now - day)

/-! ## The parameters -/

structure RangeQuery where
  fromParam : Option Text
  toParam : Option Text
  bucket : Option Text

/-- `_BUCKET_MAX_SPAN`, whose keys are those of `_BUCKET_INTERVALS`. -/
def bucketMaxSpan : List (Text × Int) :=
  [("1m".toList, 30 * day), ("5m".toList, 120 * day), ("15m".toList, 365 * day),
    ("1h".toList, 730 * day), ("6h".toList, 1095 * day), ("1d".toList, 3650 * day)]

/-- `MAX_EXPORT_SPAN` -/
def maxExportSpan : Int := 365 * day

/-- What a handler makes of the parameters. -/
inductive RangeAnswer
  | problem422 (detail : Text)
  | goOn (fromDt toDt : Int)
deriving DecidableEq, Repr

section Handlers

variable (fromisoformat : Text → Option Datetime) (repr : Text → Text)

/-- `datetime.fromisoformat(value.replace("Z", "+00:00"))` -/
def readIso (text : Text) : Option Datetime :=
  fromisoformat (replace "Z".toList "+00:00".toList text)

/-- `parse_iso_datetime` -/
def parseIsoDatetime (value : Option Text) (fallback : Int) : Except Raised Int :=
  match value with
  | none => .ok fallback
  | some text =>
      match readIso fromisoformat text with
      | none => .error (.valueError (repr text ++ " is not a valid ISO-8601 datetime".toList))
      -- the conversion stands after the `try`
      | some dt => dt.astimezoneUtc.mapError fun _ => .overflowError

/-- The two bounds, `from` first. -/
def parseBounds (clock : Clock) (q : RangeQuery) : Except Raised (Int × Int) := do
  let fromDt ← parseIsoDatetime fromisoformat repr q.fromParam (← minus clock.now day)
  let toDt ← parseIsoDatetime fromisoformat repr q.toParam clock.now
  return (fromDt, toDt)

/-- `except ValueError as exc` -/
def onValueError (bounds : Except Raised (Int × Int))
    (next : Int → Int → Except Raised RangeAnswer) : Except Raised RangeAnswer :=
  match bounds with
  | .ok (fromDt, toDt) => next fromDt toDt
  | .error (.valueError detail) => .ok (.problem422 detail)
  | .error .overflowError => .error .overflowError

/-- `history`, up to its window. -/
def historyWindow (clock : Clock) (q : RangeQuery) : Except Raised RangeAnswer :=
  match bucketMaxSpan.lookup (q.bucket.getD "1h".toList) with
  | none =>
      .ok (.problem422 ("bucket must be one of: ".toList ++ List.intercalate ", ".toList (bucketMaxSpan.map Prod.fst)))
  | some maxSpan =>
      onValueError (parseBounds fromisoformat repr clock q) fun fromDt toDt =>
        if fromDt ≥ toDt then .ok (.problem422 "'from' must be earlier than 'to'".toList)
        else if toDt - fromDt > maxSpan then (minus toDt maxSpan).map fun fromDt => .goOn fromDt toDt
        else .ok (.goOn fromDt toDt)

/-- `export`, up to its window. -/
def exportWindow (clock : Clock) (q : RangeQuery) : Except Raised RangeAnswer :=
  onValueError (parseBounds fromisoformat repr clock q) fun fromDt toDt =>
    if fromDt ≥ toDt then .ok (.problem422 "'from' must be earlier than 'to'".toList)
    else if toDt - fromDt > maxExportSpan then
      .ok (.problem422 "range exceeds the maximum export span of 365 days".toList)
    else .ok (.goOn fromDt toDt)

/-! ## The contracts -/

/-- A 422, or `to` as it was asked for and `from` moved forward as far as the bucket makes it. -/
def HistoryContract (clock : Clock) (q : RangeQuery) : Prop :=
  ∃ answer, historyWindow fromisoformat repr clock q = .ok answer ∧
    ∀ fromDt toDt, answer = .goOn fromDt toDt →
    Representable fromDt ∧ Representable toDt ∧ fromDt < toDt ∧
      ∃ maxSpan, bucketMaxSpan.lookup (q.bucket.getD "1h".toList) = some maxSpan ∧
        toDt - fromDt ≤ maxSpan ∧
        ∃ asked, parseBounds fromisoformat repr clock q = .ok (asked, toDt) ∧
          fromDt = max asked (toDt - maxSpan)

/-- A 422, or the bounds that were asked for. -/
def ExportContract (clock : Clock) (q : RangeQuery) : Prop :=
  ∃ answer, exportWindow fromisoformat repr clock q = .ok answer ∧
    ∀ fromDt toDt, answer = .goOn fromDt toDt →
    Representable fromDt ∧ Representable toDt ∧ fromDt < toDt ∧ toDt - fromDt ≤ maxExportSpan ∧
      parseBounds fromisoformat repr clock q = .ok (fromDt, toDt)

def Malformed (value : Option Text) : Prop := ∃ text ∈ value, readIso fromisoformat text = none

/-- The time that the parameter is read as lies, in UTC, inside the range of `datetime`. -/
def HasInstant (value : Option Text) : Prop :=
  ∀ text ∈ value, ∀ dt ∈ readIso fromisoformat text, Representable dt.instant

/-- **The condition**: `from` has a UTC instant and so has `to`, which is not looked at where
`from` is malformed. -/
def Converts (q : RangeQuery) : Prop :=
  HasInstant fromisoformat q.fromParam ∧
    (Malformed fromisoformat q.fromParam ∨ HasInstant fromisoformat q.toParam)

/-! ## The parser -/

/-- A time, a `ValueError` or an `OverflowError`. -/
theorem parseIsoDatetime_cases (value : Option Text) {fallback : Int}
    (here : Representable fallback) :
    (HasInstant fromisoformat value ∧ ¬ Malformed fromisoformat value ∧
      ∃ t, parseIsoDatetime fromisoformat repr value fallback = .ok t ∧ Representable t) ∨
    (HasInstant fromisoformat value ∧ Malformed fromisoformat value ∧
      ∃ detail, parseIsoDatetime fromisoformat repr value fallback = .error (.valueError detail)) ∨
    ¬ HasInstant fromisoformat value ∧ ¬ Malformed fromisoformat value ∧
      parseIsoDatetime fromisoformat repr value fallback = .error .overflowError := by
  unfold parseIsoDatetime HasInstant Malformed
  cases value with
  | none => exact .inl ⟨by simp, by simp, fallback, rfl, here⟩
  | some text =>
      cases read : readIso fromisoformat text with
      | none => exact .inr (.inl ⟨by simp [read], by simp [read],
          repr text ++ " is not a valid ISO-8601 datetime".toList, by simp only [read]⟩)
      | some dt =>
          by_cases inside : Representable dt.instant
          · exact .inl ⟨by simp [read, inside], by simp [read], dt.instant,
              by simp [read, Datetime.astimezoneUtc, inside, Except.mapError], inside⟩
          · exact .inr (.inr ⟨by simp [read, inside], by simp [read],
              by simp [read, Datetime.astimezoneUtc, inside, Except.mapError]⟩)

/-- The two bounds, or the exception of the first of them that has one. -/
theorem parseBounds_cases (clock : Clock) (q : RangeQuery) :
    (Converts fromisoformat q ∧
      ∃ fromDt toDt, parseBounds fromisoformat repr clock q = .ok (fromDt, toDt) ∧
      Representable fromDt ∧ Representable toDt) ∨
    (Converts fromisoformat q ∧
      ∃ detail, parseBounds fromisoformat repr clock q = .error (.valueError detail)) ∨
    ¬ Converts fromisoformat q ∧
      parseBounds fromisoformat repr clock q = .error .overflowError := by
  have yesterday : minus clock.now day = .ok (clock.now - day) := if_pos clock.yesterday_in
  unfold parseBounds Converts
  rw [yesterday]
  simp only [bind, Except.bind, pure, Except.pure]
  rcases parseIsoDatetime_cases fromisoformat repr q.fromParam clock.yesterday_in with
    ⟨has, formed, fromDt, first, fromIn⟩ | ⟨has, malformed, detail, first⟩ | ⟨lacks, formed, first⟩
  · rcases parseIsoDatetime_cases fromisoformat repr q.toParam clock.now_in with
      ⟨has', _, toDt, second, toIn⟩ | ⟨has', _, detail, second⟩ | ⟨lacks', _, second⟩
    · exact .inl ⟨⟨has, .inr has'⟩, fromDt, toDt, by rw [first, second], fromIn, toIn⟩
    · exact .inr (.inl ⟨⟨has, .inr has'⟩, detail, by rw [first, second]⟩)
    · exact .inr (.inr ⟨fun converts => converts.2.elim formed lacks', by rw [first, second]⟩)
  · exact .inr (.inl ⟨⟨has, .inl malformed⟩, detail, by rw [first]⟩)
  · exact .inr (.inr ⟨fun converts => lacks converts.1, by rw [first]⟩)

/-! ## The handlers -/

variable {fromisoformat repr}

/-- Where the rest of a handler does what it should with the bounds, the handler does so exactly
on the requests that convert. -/
theorem onValueError_iff (clock : Clock) (q : RangeQuery)
    {next : Int → Int → Except Raised RangeAnswer} {Good : RangeAnswer → Prop}
    (problem : ∀ detail, Good (.problem422 detail))
    (rest : ∀ fromDt toDt, parseBounds fromisoformat repr clock q = .ok (fromDt, toDt) →
      Representable fromDt →
      Representable toDt → ∃ answer, next fromDt toDt = .ok answer ∧ Good answer) :
    (∃ answer, onValueError (parseBounds fromisoformat repr clock q) next = .ok answer ∧
      Good answer) ↔
      Converts fromisoformat q := by
  rcases parseBounds_cases fromisoformat repr clock q with
    ⟨converts, fromDt, toDt, parsed, fromIn, toIn⟩ | ⟨converts, detail, raised⟩ |
      ⟨overflows, raised⟩
  · have next := rest fromDt toDt parsed fromIn toIn
    simpa only [parsed, onValueError, converts, iff_true] using next
  · simp only [raised, onValueError, converts, iff_true]
    exact ⟨_, rfl, problem detail⟩
  · simp [raised, onValueError, overflows]

/-- Moving `from` forward stays between the bounds. -/
theorem minus_clamped {fromDt toDt maxSpan : Int} (fromIn : Representable fromDt)
    (toIn : Representable toDt) (positive : 0 ≤ maxSpan) (far : toDt - fromDt > maxSpan) :
    minus toDt maxSpan = .ok (toDt - maxSpan) ∧ Representable (toDt - maxSpan) := by
  have inside : Representable (toDt - maxSpan) := by
    unfold Representable at *
    omega
  exact ⟨if_pos inside, inside⟩

theorem bucketMaxSpan_pos {bucket : Text} {maxSpan : Int}
    (known : bucketMaxSpan.lookup bucket = some maxSpan) : 0 < maxSpan := by
  have every : ∀ entry ∈ bucketMaxSpan, 0 < entry.2 := by decide
  obtain ⟨before, after, split, _⟩ := List.lookup_eq_some_iff.mp known
  exact every (bucket, maxSpan) (by simp [split])

theorem historyContract_iff (clock : Clock) (q : RangeQuery) :
    HistoryContract fromisoformat repr clock q ↔
      bucketMaxSpan.lookup (q.bucket.getD "1h".toList) = none ∨ Converts fromisoformat q := by
  unfold HistoryContract historyWindow
  cases known : bucketMaxSpan.lookup (q.bucket.getD "1h".toList) with
  | none =>
      simp only [true_or, iff_true]
      exact ⟨_, rfl, by simp⟩
  | some maxSpan =>
      have positive := bucketMaxSpan_pos known
      simp only [reduceCtorEq, false_or]
      apply onValueError_iff clock q
      · simp
      · intro fromDt toDt parsed fromIn toIn
        split
        · exact ⟨_, rfl, by simp⟩
        · split
          · rename_i before far
            obtain ⟨moved, inside⟩ := minus_clamped fromIn toIn positive.le far
            refine ⟨.goOn (toDt - maxSpan) toDt, by rw [moved]; rfl, ?_⟩
            rintro _ _ ⟨⟩
            exact ⟨inside, toIn, by omega, maxSpan, rfl, by omega, fromDt, parsed, by omega⟩
          · rename_i before near
            refine ⟨.goOn fromDt toDt, rfl, ?_⟩
            rintro _ _ ⟨⟩
            exact ⟨fromIn, toIn, by omega, maxSpan, rfl, by omega, fromDt, parsed, by omega⟩

theorem exportContract_iff (clock : Clock) (q : RangeQuery) :
    ExportContract fromisoformat repr clock q ↔ Converts fromisoformat q := by
  apply onValueError_iff clock q
  · simp
  · intro fromDt toDt parsed fromIn toIn
    split
    · exact ⟨_, rfl, by simp⟩
    · split
      · exact ⟨_, rfl, by simp⟩
      · refine ⟨.goOn fromDt toDt, rfl, ?_⟩
        rintro _ _ ⟨⟩
        exact ⟨fromIn, toIn, by omega, by omega, parsed⟩

/-- **The handlers keep their contracts** on the requests whose parsed times have a UTC instant,
and on no other that gets as far as its times. -/
theorem contracts_iff (clock : Clock) (q : RangeQuery) :
    (HistoryContract fromisoformat repr clock q ↔
      bucketMaxSpan.lookup (q.bucket.getD "1h".toList) = none ∨ Converts fromisoformat q) ∧
    (ExportContract fromisoformat repr clock q ↔ Converts fromisoformat q) :=
  ⟨historyContract_iff clock q, exportContract_iff clock q⟩

end Handlers

/-! ## The first hours of the year 1 -/

/-- `fromisoformat`, as far as this text. -/
def readsFirstNight (text : Text) : Option Datetime :=
  if text = "0001-01-01T02:00:00+09:00".toList then some ⟨2 * hour, some (9 * hour), by decide, by decide⟩ else none

/-- The fifth of August 2026. -/
def august : Clock := ⟨739832 * day, by decide, by decide⟩

/-- Two o'clock on the first day, nine hours east. -/
def firstNight : RangeQuery := ⟨some "0001-01-01T02:00:00+09:00".toList, none, none⟩

theorem overflow_raises :
    historyWindow readsFirstNight id august firstNight = .error .overflowError ∧
      exportWindow readsFirstNight id august firstNight = .error .overflowError := by
  decide +kernel

theorem contracts_broken :
    ¬ HistoryContract readsFirstNight id august firstNight ∧
      ¬ ExportContract readsFirstNight id august firstNight := by
  obtain ⟨history, exports⟩ := overflow_raises
  constructor
  · rintro ⟨answer, answered, _⟩
    rw [history] at answered
    cases answered
  · rintro ⟨answer, answered, _⟩
    rw [exports] at answered
    cases answered

end Empyrean.Api
