/-
# Empyrean.Api.Burst — what the fixed windows admit over any stretch of time

The limiter of `api/rate_limit.py` counts by the minute of the request's clock, so a client
may use up one minute's limit at its end and the next one's right after.  A stretch of `n`
minutes meets at most `n + 1` of them.

* `Minute.epoch_injective` — minutes of the calendar that start at one instant are the same.
* `burst_of_reach` — in any `n` minutes, wherever they start, a client gets at most `n + 1`
  times the limit of an endpoint through to its handler, where each script runs in the minute
  that its request read (`Prompt`); a script that outlives its key starts the count anew.
* `burst_of_reach_midnight` — and it can get that.
-/
import Empyrean.Api.RateLimit
import Mathlib.Algebra.Order.BigOperators.Group.Finset
import Mathlib.Order.Interval.Finset.Defs
import Mathlib.Data.Int.Interval

namespace Empyrean.Api.RateLimit

set_option autoImplicit false

open Empyrean.Theory.Runs
open Empyrean.Theory.PyNumeral (Text)

/-! ## The calendar -/

/-- The days before a year. -/
def daysBeforeYear (year : Nat) : Nat :=
  (year - 1) * 365 + (year - 1) / 4 - (year - 1) / 100 + (year - 1) / 400

theorem isLeap_iff (year : Nat) : isLeap year = true ↔
    year % 4 = 0 ∧ (year % 100 ≠ 0 ∨ year % 400 = 0) := by
  simp [isLeap]

theorem daysBeforeYear_succ (year : Nat) :
    daysBeforeYear (year + 2) =
      daysBeforeYear (year + 1) + 365 + if isLeap (year + 1) then 1 else 0 := by
  have fours := Nat.succ_div (a := year) (b := 4)
  have centuries := Nat.succ_div (a := year) (b := 100)
  have cycles := Nat.succ_div (a := year) (b := 400)
  have rule := isLeap_iff (year + 1)
  unfold daysBeforeYear
  simp only [Nat.add_sub_cancel, show year + 2 - 1 = year + 1 by omega, fours, centuries, cycles]
  have below : year / 100 ≤ year / 4 := Nat.div_le_div_left (by decide) (by decide)
  by_cases four : 4 ∣ year + 1
  · by_cases century : 100 ∣ year + 1
    · by_cases cycle : 400 ∣ year + 1
      · rw [if_pos four, if_pos century, if_pos cycle, if_pos (rule.mpr (by omega))]
        omega
      · rw [if_pos four, if_pos century, if_neg cycle, if_neg (mt rule.mp (by omega))]
        omega
    · rw [if_pos four, if_neg century, if_neg (by omega), if_pos (rule.mpr (by omega))]
      omega
  · rw [if_neg four, if_neg (by omega), if_neg (by omega), if_neg (mt rule.mp (by omega))]
    omega

theorem daysBeforeYear_add (year more : Nat) :
    daysBeforeYear (year + 1) ≤ daysBeforeYear (year + 1 + more) := by
  induction more with
  | zero => exact le_refl _
  | succ more ih =>
      have next := daysBeforeYear_succ (year + more)
      have same : year + 1 + (more + 1) = year + more + 2 := by omega
      have same' : year + 1 + more = year + more + 1 := by omega
      rw [same, next]
      rw [same'] at ih
      omega

theorem daysBeforeMonth_lt (leap : Bool) : ∀ month' < 13, ∀ month < month', 1 ≤ month →
    [0, 0, 31, 59, 90, 120, 151, 181, 212, 243, 273, 304, 334].getD month 0 + (if 2 < month ∧
      leap then 1 else 0) +
        (if month = 2 ∧
          leap then 29 else [0, 31, 28, 31, 30, 31, 30, 31, 31, 30, 31, 30, 31].getD month 0) ≤
      [0, 0, 31, 59, 90, 120, 151, 181, 212, 243, 273, 304, 334].getD month' 0 +
        if 2 < month' ∧ leap then 1 else 0 := by
  cases leap <;> decide

/-- A month starts when the ones before it are ends. -/
theorem daysBeforeMonth_later (year : Nat) {month month' : Nat} (first : 1 ≤ month)
    (later : month < month') (last : month' ≤ 12) :
    daysBeforeMonth year month + daysInMonth year month ≤ daysBeforeMonth year month' :=
  daysBeforeMonth_lt (isLeap year) month' (by omega) month later first

theorem daysInYear_le (leap : Bool) : ∀ month < 13, 1 ≤ month →
    [0, 0, 31, 59, 90, 120, 151, 181, 212, 243, 273, 304, 334].getD month 0 + (if 2 < month ∧
      leap then 1 else 0) +
        (if month = 2 ∧
          leap then 29 else [0, 31, 28, 31, 30, 31, 30, 31, 31, 30, 31, 30, 31].getD month 0) ≤
      365 + if leap then 1 else 0 := by
  cases leap <;> decide

/-- The year is ends after its last month. -/
theorem daysBeforeMonth_le (year : Nat) {month : Nat} (first : 1 ≤ month) (last : month ≤ 12) :
    daysBeforeMonth year month + daysInMonth year month ≤ 365 + if isLeap year then 1 else 0 :=
  daysInYear_le (isLeap year) month (by omega) first

/-- Dates in the order of the calendar are in the order of their ordinals. -/
theorem toordinal_year {m m' : Minute} (later : m.year < m'.year) : toordinal m < toordinal m' := by
  obtain ⟨⟨epoch, _⟩, ⟨january, december⟩, ⟨_, inMonth⟩, _⟩ := m.valid
  obtain ⟨_, _, ⟨first, _⟩, _⟩ := m'.valid
  obtain ⟨before, year⟩ : ∃ before, m.year = before + 1 := ⟨m.year - 1, by omega⟩
  have ends := daysBeforeMonth_le m.year january december
  have next := daysBeforeYear_succ before
  have mono : daysBeforeYear (before + 2) ≤ daysBeforeYear m'.year := by
    obtain ⟨more, same⟩ : ∃ more, m'.year = before + 1 + 1 + more :=
      ⟨m'.year - (before + 2), by omega⟩
    exact same ▸ daysBeforeYear_add (before + 1) more
  rw [← year] at next
  show daysBeforeYear m.year + daysBeforeMonth m.year m.month + m.day <
    daysBeforeYear m'.year + daysBeforeMonth m'.year m'.month + m'.day
  omega

theorem toordinal_month {m m' : Minute} (year : m.year = m'.year) (later : m.month < m'.month) :
    toordinal m < toordinal m' := by
  obtain ⟨_, ⟨january, _⟩, ⟨_, inMonth⟩, _⟩ := m.valid
  obtain ⟨_, ⟨_, december⟩, ⟨first, _⟩, _⟩ := m'.valid
  have ends := daysBeforeMonth_later m.year january later december
  show daysBeforeYear m.year + daysBeforeMonth m.year m.month + m.day <
    daysBeforeYear m'.year + daysBeforeMonth m'.year m'.month + m'.day
  rw [← year]
  omega

theorem toordinal_injective {m m' : Minute} (same : toordinal m = toordinal m') :
    m.year = m'.year ∧ m.month = m'.month ∧ m.day = m'.day := by
  have year : m.year = m'.year := by
    rcases lt_trichotomy m.year m'.year with later | year | later
    · exact absurd same (toordinal_year later).ne
    · exact year
    · exact absurd same.symm (toordinal_year later).ne
  have month : m.month = m'.month := by
    rcases lt_trichotomy m.month m'.month with later | month | later
    · exact absurd same (toordinal_month year later).ne
    · exact month
    · exact absurd same.symm (toordinal_month year.symm later).ne
  refine ⟨year, month, ?_⟩
  unfold toordinal at same
  rw [year, month] at same
  omega

/-- **Minutes that start at one instant are the same.** -/
theorem Minute.epoch_injective {m m' : Minute} (same : m.epoch = m'.epoch) : m = m' := by
  obtain ⟨_, _, _, hour, minute⟩ := m.valid
  obtain ⟨_, _, _, hour', minute'⟩ := m'.valid
  unfold Minute.epoch at same
  have days : toordinal m = toordinal m' := by omega
  obtain ⟨year, month, day⟩ := toordinal_injective days
  have hours : m.hour = m'.hour := by omega
  have minutes : m.minute = m'.minute := by omega
  cases m
  cases m'
  simp_all

/-- Which minute since the epoch a moment is in. -/
theorem Moment.minute_index (t : Moment) : t.millis / 60000 * 60 = t.minute.epoch := by
  obtain ⟨second, micros⟩ := t.valid
  unfold Moment.millis Minute.epoch
  omega

/-! ## Bursts -/

/-- A request of the client for the endpoint, with a clock in the stretch from `first`, has
reached its handler within the limit. -/
def Through (cfg : Config) (s : State) (endpoint : Endpoint) (ip : Text) (first length : Int)
    (id : Nat) : Prop :=
  ∃ request phase, s.requests id = some (request, phase) ∧ request.endpoint = endpoint ∧
    request.ip = ip ∧
    (first ≤ request.now.millis ∧ request.now.millis < first + length) ∧
      Admitted cfg s request.bucket id

section Burst

variable {cfg : Config} {s : State} {endpoint : Endpoint} {ip : Text} {first length : Int}

/-- The minute of a request's clock, since the epoch. -/
def minuteOf (s : State) (id : Nat) : Int :=
  ((s.requests id).map fun entry => entry.1.now.millis / 60000).getD 0

/-- A request of the minute of another one is in its bucket. -/
theorem Through.same_bucket {id id' : Nat} {request : Request} {phase : Phase}
    (found : s.requests id = some (request, phase)) (atEndpoint : request.endpoint = endpoint)
    (fromIp : request.ip = ip) (through : Through cfg s endpoint ip first length id')
    (same : minuteOf s id = minuteOf s id') : Admitted cfg s request.bucket id' := by
  obtain ⟨request', phase', found', atEndpoint', fromIp', _, admitted⟩ := through
  simp only [minuteOf, found, found', Option.map_some, Option.getD_some] at same
  have minutes : request.now.minute = request'.now.minute := by
    refine Minute.epoch_injective ?_
    rw [← Moment.minute_index, ← Moment.minute_index, same]
  have buckets : request'.bucket = request.bucket := by
    simp only [Request.bucket, atEndpoint, atEndpoint', fromIp, fromIp', minutes]
  exact buckets ▸ admitted

/-- At most `limit` of them are in one minute. -/
theorem through_minute (reached : Reach (step cfg) Prompt Started s)
    (sixty : cfg.windowSeconds endpoint = 60) {ids : List Nat} (distinct : ids.Nodup)
    (through : ∀ id ∈ ids, Through cfg s endpoint ip first length id) {q : Int}
    (together : ∀ id ∈ ids, minuteOf s id = q) : ids.length ≤ cfg.limit endpoint := by
  cases ids with
  | nil => exact Nat.zero_le _
  | cons head rest =>
      obtain ⟨request, phase, found, rfl, rfl, _⟩ := through head List.mem_cons_self
      obtain ⟨_, window⟩ := window_of_reach (b := request.bucket) sixty reached
      refine window.admitted_le distinct fun id member => ?_
      exact (through id member).same_bucket found rfl rfl
        ((together head List.mem_cons_self).trans (together id member).symm)

/-- **Any stretch of `n` minutes**, in any interleaving in which each script runs in the minute
its request read: at most `n + 1` times the limit. -/
theorem burst_of_reach (reached : Reach (step cfg) Prompt Started s)
    (sixty : cfg.windowSeconds endpoint = 60) (n : Nat) {ids : List Nat} (distinct : ids.Nodup)
    (through : ∀ id ∈ ids, Through cfg s endpoint ip first (n * 60000) id) :
    ids.length ≤ (n + 1) * cfg.limit endpoint := by
  classical
  have inside :
      ∀ id ∈ ids.toFinset, minuteOf s id ∈ Finset.Icc (first / 60000) (first / 60000 + n) := by
    intro id member
    obtain ⟨request, phase, found, _, _, ⟨early, late⟩, _⟩ :=
      through id (List.mem_toFinset.mp member)
    simp only [minuteOf, found, Option.map_some, Option.getD_some, Finset.mem_Icc]
    omega
  have each : ∀ q ∈ Finset.Icc (first / 60000) (first / 60000 + n),
      (ids.toFinset.filter fun id => minuteOf s id = q).card ≤ cfg.limit endpoint := by
    intro q _
    have together : ∀ id ∈ ids.filter fun id => minuteOf s id = q, id ∈ ids ∧
        minuteOf s id = q := by simp
    have listed : (ids.toFinset.filter fun id => minuteOf s id = q) =
        (ids.filter fun id => minuteOf s id = q).toFinset := by
      ext id
      simp
    rw [listed, List.toFinset_card_of_nodup (distinct.filter _)]
    exact through_minute reached sixty (distinct.filter _)
      (fun id member => through id (together id member).1)
      fun id member => (together id member).2
  have minutes : (Finset.Icc (first / 60000) (first / 60000 + n)).card = n + 1 := by
    rw [Int.card_Icc]
    omega
  calc ids.length = ids.toFinset.card := (List.toFinset_card_of_nodup distinct).symm
    _ ≤ cfg.limit endpoint * (Finset.Icc (first / 60000) (first / 60000 + n)).card :=
        Finset.card_le_mul_card_image_of_maps_to inside _ each
    _ = (n + 1) * cfg.limit endpoint := by rw [minutes, Nat.mul_comm]

/-- A request in the last second of February and one two seconds later, one allowed a minute. -/
theorem burst_of_reach_midnight :
    ∃ (cfg : Config) (s : State) (endpoint : Endpoint) (ip : Text) (first : Int),
    cfg.limit endpoint = 1 ∧
      (∀ id ∈ [0, 1], Through cfg s endpoint ip first ((1 : Nat) * 60000) id) ∧
      [0, 1].length ≤ (1 + 1) * cfg.limit endpoint := by
  let cfg : Config := ⟨fun _ => 1, fun _ => 60⟩
  let login : Endpoint := ⟨"auth.login".toList, by decide⟩
  let before : Moment := ⟨⟨2026, 2, 28, 23, 59, by decide⟩, 59, 0, by decide⟩
  let after : Moment := ⟨⟨2026, 3, 1, 0, 0, by decide⟩, 1, 0, by decide⟩
  let s : State := ⟨before, fun _ => none, fun _ => none, 0⟩
  have begins : Started s := ⟨fun _ => rfl, fun _ => rfl⟩
  let ip := "::1".toList
  obtain ⟨s', reached, holds⟩ := exists_reach_of_run (step cfg) Prompt begins
    [.arrive 0 login ip, .script 0, .tick after, .arrive 1 login ip, .script 1]
    (fun s => s.requests 0 = some (⟨login, ip, before⟩, .counted 1) ∧
      s.requests 1 = some (⟨login, ip, after⟩, .counted 1))
    (by decide +kernel)
  obtain ⟨found, found'⟩ := of_decide_eq_true holds
  have through : ∀ id ∈ [0, 1], Through cfg s' login ip before.millis ((1 : Nat) * 60000) id := by
    intro id member
    rcases List.mem_pair.mp member with rfl | rfl
    · exact ⟨_, _, found, rfl, rfl, by decide, _, _, _, found, rfl, rfl⟩
    · exact ⟨_, _, found', rfl, rfl, by decide, _, _, _, found', rfl, rfl⟩
  exact ⟨cfg, s', login, ip, before.millis, rfl, through,
    burst_of_reach reached rfl 1 (by decide) through⟩

end Burst

end Empyrean.Api.RateLimit
