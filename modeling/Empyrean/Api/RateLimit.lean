/-
# Empyrean.Api.RateLimit — the fixed window of one UTC minute

`@rate_limit` of `api/rate_limit.py`: a request computes the key of its endpoint, its
client and the minute of its clock, and runs one script on Redis that increments the key
and arms its lifetime on the first increment.  Requests of all processes interleave; the
script may fail before it runs or its answer may be lost, and keys expire.

* `Bucket.key_injective` — the key names endpoint, client and minute, colons in the
  address or not.
* `Window` — what Redis holds for one bucket while its minute lasts: the number of scripts
  it ran, with a deadline that is not before the end of the minute.
* `admitted_of_reach` — what a bucket admits, and the counts its requests are told.
-/
import Mathlib.Data.Int.Order.Basic
import Mathlib.Data.List.Nodup
import Mathlib.Data.List.Perm.Subperm
import Mathlib.Logic.Function.Basic
import Empyrean.Theory.Expiry
import Empyrean.Theory.PyNumeral
import Empyrean.Theory.Runs

namespace Empyrean.Api.RateLimit

set_option autoImplicit false

open Empyrean.Theory.Expiry (Expired not_expired_iff)
open Empyrean.Theory.Runs
open Empyrean.Theory.PyNumeral (Text)

/-! ## Clocks -/

def isLeap (year : Nat) : Bool := year % 4 == 0 && (year % 100 != 0 || year % 400 == 0)

def daysInMonth (year month : Nat) : Nat :=
  if month = 2 ∧ isLeap year then 29
  else [0, 31, 28, 31, 30, 31, 30, 31, 31, 30, 31, 30, 31].getD month 0

def daysBeforeMonth (year month : Nat) : Nat :=
  [0, 0, 31, 59, 90, 120, 151, 181, 212, 243, 273, 304, 334].getD month 0 +
    if 2 < month ∧ isLeap year then 1 else 0

/-- A minute of a UTC `datetime`; no clock is before the epoch. -/
structure Minute where
  year : Nat
  month : Nat
  day : Nat
  hour : Nat
  minute : Nat
  valid : (1970 ≤ year ∧ year ≤ 9999) ∧ (1 ≤ month ∧ month ≤ 12) ∧
    (1 ≤ day ∧ day ≤ daysInMonth year month) ∧
    hour < 24 ∧ minute < 60
deriving DecidableEq

/-- `datetime.now(timezone.utc)` -/
structure Moment where
  minute : Minute
  second : Nat
  microsecond : Nat
  valid : second < 60 ∧ microsecond < 1000000
deriving DecidableEq

/-- `date.toordinal()` -/
def toordinal (m : Minute) : Nat :=
  (m.year - 1) * 365 + (m.year - 1) / 4 - (m.year - 1) / 100 + (m.year - 1) / 400 +
    daysBeforeMonth m.year m.month + m.day

/-- The Unix time at which a minute starts, in seconds. -/
def Minute.epoch (m : Minute) : Int :=
  ((toordinal m : Int) - 719163) * 86400 + m.hour * 3600 + m.minute * 60

/-- Redis' clock, in milliseconds. -/
def Moment.millis (t : Moment) : Int :=
  t.minute.epoch * 1000 + t.second * 1000 + t.microsecond / 1000

/-- `_reset_epoch` -/
def resetEpoch (now : Moment) : Int := (now.minute.epoch + now.second) + (60 - now.second)

/-! ## Keys -/

def twoDigits (n : Nat) : Text := [(n / 10 % 10).digitChar, (n % 10).digitChar]

/-- `now.strftime("%Y%m%d%H%M")` -/
def strftime (m : Minute) : Text :=
  twoDigits (m.year / 100) ++ twoDigits (m.year % 100) ++ twoDigits m.month ++ twoDigits m.day ++
    twoDigits m.hour ++
    twoDigits m.minute

/-- `request.endpoint or "default"`: a name without a colon. -/
structure Endpoint where
  name : Text
  noColon : ':' ∉ name
deriving DecidableEq

/-- `_rate_limit_key`; the address is any text. -/
def rateLimitKey (endpoint : Endpoint) (ip : Text) (minute : Minute) : Text :=
  "ratelimit:".toList ++ (endpoint.name ++ ':' :: (ip ++ ':' :: strftime minute))

/-! ## Redis -/

structure Entry where
  value : Nat
  expiresAt : Option Int
deriving DecidableEq

abbrev Redis := Text → Option Entry

def Entry.expired (entry : Entry) (now : Int) : Prop := ∃ t ∈ entry.expiresAt, Expired t now

instance (entry : Entry) (now : Int) : Decidable (entry.expired now) :=
  inferInstanceAs (Decidable (∃ t ∈ entry.expiresAt, Expired t now))

/-- `INCR`, in the entry that is left of the key: a missing or expired one starts at 1, without
a deadline. -/
def incr (now : Int) : Option Entry → Entry
  | some entry => if entry.expired now then ⟨1, none⟩ else { entry with value := entry.value + 1 }
  | none => ⟨1, none⟩

/-- `PEXPIRE`; a lifetime that is not positive deletes the key. -/
def pexpire (now ttl : Int) (entry : Entry) : Option Entry :=
  if ttl ≤ 0 then none else some { entry with expiresAt := some (now + ttl) }

/-- `_INCR_EXPIRE_SCRIPT` on the key's entry: the entry it leaves and the count it returns. -/
def incrExpireScript (now ttl : Int) (entry : Option Entry) : Option Entry × Nat :=
  let entry := incr now entry
  (if entry.value = 1 then pexpire now ttl entry else some entry, entry.value)

/-! ## The decorator -/

/-- The arguments of `@rate_limit`, by endpoint. -/
structure Config where
  limit : Endpoint → Nat
  windowSeconds : Endpoint → Nat

structure Headers where
  limit : Int
  remaining : Int
  reset : Int
  bypass : Bool
deriving DecidableEq

/-- `_rate_headers` -/
def rateHeaders (limit remaining reset : Int) (bypass : Bool) : Headers :=
  ⟨limit, max remaining 0, reset, bypass⟩

inductive Reply
  | tooManyRequests (headers : Headers)
  /-- The handler ran. -/
  | handled (headers : Headers)
deriving DecidableEq

def Reply.headers : Reply → Headers
  | .tooManyRequests headers | .handled headers => headers

structure Request where
  endpoint : Endpoint
  ip : Text
  now : Moment
deriving DecidableEq

/-- Where a request is: before its script, or with what came of it. -/
inductive Phase
  | waiting
  | counted (count : Nat)
  /-- The script ran, but `client.eval` raised. -/
  | lost (count : Nat)
  /-- There was no client, or `client.eval` raised before the script ran. -/
  | bypassed
deriving DecidableEq

/-- What `decorated` returns. -/
def reply (cfg : Config) (request : Request) : Phase → Option Reply
  | .waiting => none
  | .counted count =>
      let limit := cfg.limit request.endpoint
      let headers := rateHeaders limit ((limit : Int) - count) (resetEpoch request.now) false
      some (if count > limit then .tooManyRequests headers else .handled headers)
  | .lost _ | .bypassed =>
      let limit := cfg.limit request.endpoint
      some (.handled (rateHeaders limit limit (resetEpoch request.now) true))

/-! ## Interleavings -/

structure State where
  clock : Moment
  redis : Redis
  requests : Nat → Option (Request × Phase)
  /-- `_bypass_events`, over all processes. -/
  bypassEvents : Nat

inductive Action
  | tick (later : Moment)
  | arrive (id : Nat) (endpoint : Endpoint) (ip : Text)
  | script (id : Nat)
  | lose (id : Nat)
  | fail (id : Nat)
  | expire (key : Text)
deriving DecidableEq

/-- The script of a request runs. -/
def runScript (cfg : Config) (s : State) (id : Nat) (request : Request)
    (phase : Nat → Phase) : State :=
  let key := rateLimitKey request.endpoint request.ip request.now.minute
  let (entry, count) :=
    incrExpireScript s.clock.millis ((cfg.windowSeconds request.endpoint : Int) * 1000)
      (s.redis key)
  { s with
    redis := Function.update s.redis key entry
    requests := Function.update s.requests id (some (request, phase count)) }

def step (cfg : Config) (s : State) : Action → Option State
  | .tick later => if s.clock.millis ≤ later.millis then some { s with clock := later } else none
  | .arrive id endpoint ip =>
      match s.requests id with
      | none => some { s with
          requests := Function.update s.requests id (some (⟨endpoint, ip, s.clock⟩, .waiting)) }
      | some _ => none
  | .script id =>
      match s.requests id with
      | some (request, .waiting) => some (runScript cfg s id request .counted)
      | _ => none
  | .lose id =>
      match s.requests id with
      | some (request, .waiting) =>
          some { runScript cfg s id request .lost with bypassEvents := s.bypassEvents + 1 }
      | _ => none
  | .fail id =>
      match s.requests id with
      | some (request, .waiting) =>
          some { s with
            requests := Function.update s.requests id (some (request, .bypassed))
            bypassEvents := s.bypassEvents + 1 }
      | _ => none
  | .expire key =>
      match s.redis key with
      | some entry =>
          if entry.expired s.clock.millis then some { s with redis := Function.update s.redis key none } else none
      | none => none

/-- No requests yet, and nothing in Redis. -/
def Started (s : State) : Prop := (∀ id, s.requests id = none) ∧ (∀ key, s.redis key = none)

/-- A script runs in the minute of the clock its request has read. -/
def Prompt (s : State) : Action → Prop
  | .script id | .lose id => ∀ entry ∈ s.requests id, entry.1.now.minute = s.clock.minute
  | _ => True

instance (s : State) (a : Action) : Decidable (Prompt s a) := by
  unfold Prompt
  split <;> infer_instance

/-! ## Keys name buckets -/

/-- The requests that share a key. -/
structure Bucket where
  endpoint : Endpoint
  ip : Text
  minute : Minute
deriving DecidableEq

def Bucket.key (b : Bucket) : Text := rateLimitKey b.endpoint b.ip b.minute

def Request.bucket (request : Request) : Bucket :=
  ⟨request.endpoint, request.ip, request.now.minute⟩

theorem digitChar_injective :
    ∀ a < 10, ∀ b < 10, Nat.digitChar a = Nat.digitChar b → a = b := by decide

theorem twoDigits_injective {n m : Nat} (small : n < 100) (small' : m < 100)
    (same : twoDigits n = twoDigits m) : n = m := by
  simp only [twoDigits, List.cons.injEq, and_true] at same
  have tens := digitChar_injective _ (Nat.mod_lt _ (by omega)) _ (Nat.mod_lt _ (by omega)) same.1
  have ones := digitChar_injective _ (Nat.mod_lt _ (by omega)) _ (Nat.mod_lt _ (by omega)) same.2
  omega

theorem daysInMonth_le (year month : Nat) : daysInMonth year month ≤ 31 := by
  unfold daysInMonth
  split
  · omega
  · match month with
    | 0 | 1 | 2 | 3 | 4 | 5 | 6 | 7 | 8 | 9 | 10 | 11 | 12 => decide
    | n + 13 => exact Nat.zero_le _

theorem strftime_length (m : Minute) : (strftime m).length = 12 := rfl

theorem strftime_injective {m m' : Minute} (same : strftime m = strftime m') : m = m' := by
  obtain ⟨year, month, day, hour, minute, ⟨_, year_le⟩, ⟨_, month_le⟩, ⟨_, day_le⟩, hour_lt,
      minute_lt⟩ := m
  obtain ⟨year', month', day', hour', minute', ⟨_, year_le'⟩, ⟨_, month_le'⟩, ⟨_, day_le'⟩,
      hour_lt', minute_lt'⟩ := m'
  have days := daysInMonth_le year month
  have days' := daysInMonth_le year' month'
  simp only [strftime] at same
  obtain ⟨same, minutes⟩ := List.append_inj' same rfl
  obtain ⟨same, hours⟩ := List.append_inj' same rfl
  obtain ⟨same, dates⟩ := List.append_inj' same rfl
  obtain ⟨same, months⟩ := List.append_inj' same rfl
  obtain ⟨centuries, years⟩ := List.append_inj' same rfl
  obtain rfl := twoDigits_injective (by omega) (by omega) minutes
  obtain rfl := twoDigits_injective (by omega) (by omega) hours
  obtain rfl := twoDigits_injective (by omega) (by omega) dates
  obtain rfl := twoDigits_injective (by omega) (by omega) months
  have upper := twoDigits_injective (by omega) (by omega) centuries
  have lower := twoDigits_injective (by omega) (by omega) years
  obtain rfl : year = year' := by omega
  rfl

/-- Two texts that agree up to a first colon. -/
theorem split_at_colon : ∀ {name name' rest rest' : Text}, ':' ∉ name → ':' ∉ name' →
    name ++ ':' :: rest = name' ++ ':' :: rest' → name = name' ∧ rest = rest' := by
  intro name
  induction name with
  | nil =>
      intro name' rest rest' _ clean same
      cases name' with
      | nil => exact ⟨rfl, (List.cons.inj same).2⟩
      | cons c tail => exact absurd ((List.cons.inj same).1 ▸ List.mem_cons_self) clean
  | cons c tail ih =>
      intro name' rest rest' clean clean' same
      cases name' with
      | nil => exact absurd ((List.cons.inj same).1 ▸ List.mem_cons_self) clean
      | cons c' tail' =>
          obtain ⟨rfl, later⟩ := List.cons.inj same
          obtain ⟨rfl, rests⟩ := ih (fun bad => clean (List.mem_cons_of_mem _ bad))
            (fun bad => clean' (List.mem_cons_of_mem _ bad)) later
          exact ⟨rfl, rests⟩

/-- The first colon after the prefix ends the endpoint, the last twelve characters are the
minute: nothing in the address can be taken for either. -/
theorem Bucket.key_injective {b b' : Bucket} (same : b.key = b'.key) : b = b' := by
  obtain ⟨endpoint, ip, minute⟩ := b
  obtain ⟨endpoint', ip', minute'⟩ := b'
  have parts := List.append_cancel_left same
  obtain ⟨names, rest⟩ := split_at_colon endpoint.noColon endpoint'.noColon parts
  obtain ⟨addresses, minutes⟩ :=
    List.append_inj' rest (by simp only [List.length_cons, strftime_length])
  obtain rfl := strftime_injective (List.cons.inj minutes).2
  obtain rfl : endpoint = endpoint' := by
    cases endpoint
    cases endpoint'
    cases names
    rfl
  obtain rfl : ip = ip' := addresses
  rfl

/-! ## One bucket -/

/-- The count a script returned, whether the request was told or not. -/
def Phase.count : Phase → Option Nat
  | .counted count | .lost count => some count
  | _ => none

/-- A script of the bucket returned `count` for the request. -/
def Ran (s : State) (b : Bucket) (id count : Nat) : Prop :=
  ∃ request phase, s.requests id = some (request, phase) ∧ request.bucket = b ∧
    phase.count = some count

/-- The request was told its count: its script succeeded. -/
def Counted (s : State) (b : Bucket) (id count : Nat) : Prop :=
  ∃ request, s.requests id = some (request, .counted count) ∧ request.bucket = b

/-- The answer of the request's script was lost. -/
def Lost (s : State) (b : Bucket) (id : Nat) : Prop :=
  ∃ request count, s.requests id = some (request, .lost count) ∧ request.bucket = b

/-- The script of the request succeeded and its handler ran. -/
def Admitted (cfg : Config) (s : State) (b : Bucket) (id : Nat) : Prop :=
  ∃ request count headers, s.requests id = some (request, .counted count) ∧ request.bucket = b ∧
    reply cfg request (.counted count) = some (.handled headers)

/-- The first instant after a minute, in milliseconds. -/
def Minute.close (m : Minute) : Int := (m.epoch + 60) * 1000

theorem Moment.millis_lt_close (t : Moment) : t.millis < t.minute.close := by
  obtain ⟨second, micros⟩ := t.valid
  unfold Moment.millis Minute.close
  omega

theorem Moment.close_le (t : Moment) : t.minute.close ≤ t.millis + 60000 := by
  unfold Moment.millis Minute.close
  omega

/-- The bucket after `n` scripts.  Its key is there, with the number of scripts, at least as
long as the minute lasts. -/
structure Window (s : State) (b : Bucket) (n : Nat) : Prop where
  ran : ∀ count, (∃ id, Ran s b id count) ↔ 1 ≤ count ∧ count ≤ n
  single : ∀ id id' count, Ran s b id count → Ran s b id' count → id = id'
  unused : n = 0 → s.redis b.key = none
  stored : 0 < n → s.clock.millis < b.minute.close →
    ∃ deadline, s.redis b.key = some ⟨n, some deadline⟩ ∧ b.minute.close ≤ deadline

section Steps

variable {cfg : Config} {s s' : State} {b : Bucket} {n : Nat}

/-- A step that leaves the bucket's scripts and its key alone. -/
theorem Window.frame (window : Window s b n) (later : s.clock.millis ≤ s'.clock.millis)
    (ran : ∀ id count, Ran s' b id count ↔ Ran s b id count)
    (key : s'.redis b.key = s.redis b.key) : Window s' b n where
  ran count := by
    simp only [ran]
    exact window.ran count
  single id id' count here there :=
    window.single id id' count ((ran id count).mp here) ((ran id' count).mp there)
  unused none := key ▸ window.unused none
  stored used before := key ▸ window.stored used (Int.lt_of_le_of_lt later before)

/-- A change of a request whose script has not run, to one without a count. -/
theorem ran_update_iff {id : Nat} {entry : Request × Phase}
    (fresh : ∀ e ∈ s.requests id, e.2.count = none) (silent : entry.2.count = none)
    (same : s'.requests = Function.update s.requests id (some entry)) (id' count : Nat) :
    Ran s' b id' count ↔ Ran s b id' count := by
  unfold Ran
  rw [same]
  by_cases here : id' = id
  · subst here
    rw [Function.update_self]
    constructor
    · rintro ⟨request, phase, found, _, counts⟩
      cases Option.some.inj found
      rw [silent] at counts
      cases counts
    · rintro ⟨request, phase, found, _, counts⟩
      rw [fresh _ found] at counts
      cases counts
  · rw [Function.update_of_ne here]

/-- A waiting request of the bucket that gets its count. -/
theorem ran_append_iff {id new : Nat} {request : Request} {phase : Phase}
    (waiting : s.requests id = some (request, .waiting)) (counts : phase.count = some new)
    (same : s'.requests = Function.update s.requests id (some (request, phase))) (id' count : Nat) :
    Ran s' request.bucket id' count ↔
      (id' = id ∧ count = new) ∨ Ran s request.bucket id' count := by
  unfold Ran
  rw [same]
  by_cases here : id' = id
  · subst here
    simp only [Function.update_self, waiting]
    constructor
    · rintro ⟨request', phase', found, _, told⟩
      cases Option.some.inj found
      rw [counts] at told
      exact Or.inl ⟨trivial, (Option.some.inj told).symm⟩
    · rintro (⟨_, rfl⟩ | ⟨request', phase', found, _, told⟩)
      · exact ⟨request, _, rfl, rfl, counts⟩
      · cases Option.some.inj found
        cases told
  · simp only [Function.update_of_ne here]
    constructor
    · exact Or.inr
    · rintro (⟨same, _⟩ | before)
      · exact absurd same here
      · exact before

/-- The entry a script leaves in the minute of the bucket. -/
theorem Window.script (window : Window s b n) (inside : s.clock.minute = b.minute) :
    ∃ deadline, incrExpireScript s.clock.millis ((60 : Nat) * 1000) (s.redis b.key) =
      (some ⟨n + 1, some deadline⟩, n + 1) ∧
      b.minute.close ≤ deadline := by
  have before : s.clock.millis < b.minute.close := inside ▸ s.clock.millis_lt_close
  rcases Nat.eq_zero_or_pos n with rfl | positive
  · rw [window.unused rfl]
    exact ⟨s.clock.millis + 60000, rfl, inside ▸ s.clock.close_le⟩
  · obtain ⟨deadline, stored, close⟩ := window.stored positive before
    have alive : ¬ (⟨n, some deadline⟩ : Entry).expired s.clock.millis := by
      rintro ⟨t, armed, passed⟩
      cases armed
      exact not_expired_iff.mpr (by omega) passed
    rw [stored]
    refine ⟨deadline, ?_, close⟩
    simp only [incrExpireScript, incr, if_neg alive]
    rw [if_neg (by omega)]

/-- A script of another bucket. -/
theorem Window.other (window : Window s b n) {id : Nat} {request : Request} {phase : Nat → Phase}
    (waiting : s.requests id = some (request, .waiting)) (apart : request.bucket ≠ b) :
    Window (runScript cfg s id request phase) b n := by
  refine window.frame (Int.le_refl _) ?_ ?_
  · intro id' count
    unfold Ran runScript
    by_cases here : id' = id
    · subst here
      simp only [Function.update_self, waiting]
      constructor
      · rintro ⟨request', phase', found, same, _⟩
        cases Option.some.inj found
        exact absurd same apart
      · rintro ⟨request', phase', found, same, _⟩
        cases Option.some.inj found
        exact absurd same apart
    · simp only [Function.update_of_ne here]
  · have keys : b.key ≠ request.bucket.key := mt Bucket.key_injective (Ne.symm apart)
    exact Function.update_of_ne keys _ _

/-- A script of the bucket, in its minute: one more. -/
theorem Window.own (window : Window s b n) (sixty : cfg.windowSeconds b.endpoint = 60) {id : Nat}
    {request : Request} {phase : Nat → Phase} (waiting : s.requests id = some (request, .waiting))
    (same : request.bucket = b) (inside : request.now.minute = s.clock.minute)
    (counts : ∀ c, (phase c).count = some c) :
    Window (runScript cfg s id request phase) b (n + 1) := by
  subst same
  obtain ⟨deadline, result, close⟩ := window.script inside.symm
  have shape : runScript cfg s id request phase =
      { s with
        redis := Function.update s.redis request.bucket.key (some ⟨n + 1, some deadline⟩)
        requests := Function.update s.requests id (some (request, phase (n + 1))) } := by
    simp only [runScript]
    rw [show cfg.windowSeconds request.endpoint = 60 from sixty]
    rw [show s.redis (rateLimitKey request.endpoint request.ip request.now.minute) =
      s.redis request.bucket.key from rfl, result]
    rfl
  have ran : ∀ id' count, Ran (runScript cfg s id request phase) request.bucket id' count ↔
      (id' = id ∧ count = n + 1) ∨ Ran s request.bucket id' count :=
    ran_append_iff waiting (counts (n + 1)) (congrArg State.requests shape)
  have bound : ∀ id' count, Ran s request.bucket id' count → count ≤ n :=
    fun id' count before => ((window.ran count).mp ⟨id', before⟩).2
  refine ⟨?_, ?_, fun zero => by omega, ?_⟩
  · intro count
    simp only [ran]
    constructor
    · rintro ⟨id', ⟨rfl, rfl⟩ | before⟩
      · omega
      · have := (window.ran count).mp ⟨id', before⟩
        omega
    · rintro ⟨low, high⟩
      rcases Nat.lt_or_ge n count with last | earlier
      · exact ⟨id, Or.inl ⟨rfl, by omega⟩⟩
      · obtain ⟨id', before⟩ := (window.ran count).mpr ⟨low, earlier⟩
        exact ⟨id', Or.inr before⟩
  · intro id' id'' count here there
    rcases (ran id' count).mp here with ⟨rfl, rfl⟩ |
      before <;> rcases (ran id'' _).mp there with ⟨rfl, last⟩ | before'
    · rfl
    · have := bound id'' _ before'
      omega
    · subst last
      have := bound id' _ before
      omega
    · exact window.single id' id'' count before before'
  · intro _ _
    rw [shape]
    exact ⟨deadline, Function.update_self .., close⟩

/-- The window of a bucket with sixty seconds, through every step of every process. -/
theorem window_step (sixty : cfg.windowSeconds b.endpoint = 60) {a : Action} (window : Window s b n)
    (prompt : Prompt s a) (stepped : step cfg s a = some s') : ∃ n, Window s' b n := by
  cases a with
  | tick later =>
      simp only [step] at stepped
      split at stepped
      · rename_i forward
        cases Option.some.inj stepped
        exact ⟨n, window.frame forward (fun _ _ => Iff.rfl) rfl⟩
      · cases stepped
  | arrive id endpoint ip =>
      simp only [step] at stepped
      split at stepped
      · rename_i absent
        cases Option.some.inj stepped
        refine ⟨n, window.frame (Int.le_refl _) (ran_update_iff (fun e found => ?_) rfl rfl) rfl⟩
        rw [absent] at found
        cases found
      · cases stepped
  | fail id =>
      simp only [step] at stepped
      split at stepped
      · rename_i request waiting
        cases Option.some.inj stepped
        refine ⟨n, window.frame (Int.le_refl _) (ran_update_iff (fun e found => ?_) rfl rfl) rfl⟩
        cases Option.some.inj (waiting.symm.trans found)
        rfl
      · cases stepped
  | script id =>
      simp only [step] at stepped
      split at stepped
      · rename_i request waiting
        cases Option.some.inj stepped
        by_cases same : request.bucket = b
        · exact ⟨n + 1, window.own sixty waiting same (prompt _ waiting) fun _ => rfl⟩
        · exact ⟨n, window.other waiting same⟩
      · cases stepped
  | lose id =>
      simp only [step] at stepped
      split at stepped
      · rename_i request waiting
        cases Option.some.inj stepped
        -- the counter of bypasses is no part of the window
        have same_window {m : Nat} (after : Window (runScript cfg s id request .lost) b m) :
            Window { runScript cfg s id request .lost with
              bypassEvents := s.bypassEvents + 1 } b m :=
          after.frame (Int.le_refl _) (fun _ _ => Iff.rfl) rfl
        by_cases same : request.bucket = b
        · exact ⟨n + 1, same_window (window.own sixty waiting same (prompt _ waiting) fun _ => rfl)⟩
        · exact ⟨n, same_window (window.other waiting same)⟩
      · cases stepped
  | expire key =>
      simp only [step] at stepped
      split at stepped
      · rename_i entry held
        split at stepped
        · rename_i expired
          cases Option.some.inj stepped
          by_cases same : key = b.key
          · subst same
            refine ⟨n, window.ran, window.single, fun _ => Function.update_self ..,
              fun used before => ?_⟩
            obtain ⟨deadline, stored, close⟩ := window.stored used before
            cases Option.some.inj (held.symm.trans stored)
            obtain ⟨t, armed, passed⟩ := expired
            cases armed
            have inside : s.clock.millis < (b.minute).close := before
            have late : deadline < s.clock.millis := passed
            omega
          · exact ⟨n, window.frame (Int.le_refl _) (fun _ _ => Iff.rfl) (Function.update_of_ne (Ne.symm same) _ _)⟩
        · cases stepped
      · cases stepped

theorem window_start (starts : Started s) (b : Bucket) : Window s b 0 where
  ran count := by
    refine ⟨fun ⟨id, request, phase, found, _⟩ => ?_, fun ⟨low, high⟩ => by omega⟩
    rw [starts.1 id] at found
    cases found
  single id id' count := by
    rintro ⟨request, phase, found, _⟩
    rw [starts.1 id] at found
    cases found
  unused _ := starts.2 b.key
  stored used := absurd used (Nat.lt_irrefl 0)

theorem window_of_reach (sixty : cfg.windowSeconds b.endpoint = 60)
    (reached : Reach (step cfg) Prompt Started s) : ∃ n, Window s b n :=
  reached.invariant (I := fun s => ∃ n, Window s b n) (fun _ starts => ⟨0, window_start starts b⟩)
    fun _ _ _ ⟨_, window⟩ prompt stepped => window_step sixty window prompt stepped

theorem Counted.ran {id count : Nat} (counted : Counted s b id count) : Ran s b id count := by
  obtain ⟨request, found, same⟩ := counted
  exact ⟨request, _, found, same, rfl⟩

/-- A request that was told its count and ran its handler is within the limit. -/
theorem Admitted.counted {id : Nat} (admitted : Admitted cfg s b id) :
    ∃ count, Counted s b id count ∧ count ≤ cfg.limit b.endpoint := by
  obtain ⟨request, count, headers, found, rfl, answered⟩ := admitted
  refine ⟨count, ⟨request, found, rfl⟩, ?_⟩
  simp only [reply, Option.some.injEq] at answered
  split at answered
  · cases answered
  · rename_i within
    exact Nat.not_lt.mp within

/-- No more requests of a bucket are admitted than the limit. -/
theorem Window.admitted_le (window : Window s b n) {ids : List Nat} (distinct : ids.Nodup)
    (admitted : ∀ id ∈ ids, Admitted cfg s b id) : ids.length ≤ cfg.limit b.endpoint := by
  classical
  -- the counts they were told are distinct numbers from 1 to the limit
  choose count counted within using fun (id : Nat) (member : id ∈ ids) =>
    (admitted id member).counted
  let told := ids.attach.map fun id => count id.1 id.2
  have apart : told.Nodup := by
    refine (List.nodup_map_iff_inj_on (List.nodup_attach.mpr distinct)).mpr fun id _ id' _ same =>
      Subtype.ext ?_
    exact window.single id.1 id'.1 _ (counted id.1 id.2).ran (same ▸ (counted id'.1 id'.2).ran)
  have range : told ⊆ List.range' 1 (cfg.limit b.endpoint) := by
    intro c member
    obtain ⟨id, _, rfl⟩ := List.mem_map.mp member
    have low := ((window.ran _).mp ⟨id.1, (counted id.1 id.2).ran⟩).1
    have high := within id.1 id.2
    rw [List.mem_range'_1]
    omega
  have bound := (apart.subperm range).length_le
  rwa [List.length_map, List.length_attach, List.length_range'] at bound

theorem Window.counted_contiguous (window : Window s b n) (kept : ∀ id, ¬ Lost s b id)
    (count : Nat) : (∃ id, Counted s b id count) ↔ 1 ≤ count ∧ count ≤ n := by
  rw [← window.ran count]
  constructor
  · rintro ⟨id, counted⟩
    exact ⟨id, counted.ran⟩
  · rintro ⟨id, request, phase, found, same, told⟩
    cases phase with
    | counted c => exact ⟨id, request, Option.some.inj told ▸ found, same⟩
    | lost c => exact absurd ⟨request, c, found, same⟩ (kept id)
    | waiting => cases told
    | bypassed => cases told

/-- **Every bucket of a sixty-second window**, in any interleaving: at most `limit` requests
whose script succeeded reach the handler; no two were told the same count, and the counts
told and lost are those from 1 on; the header holds what is left of the limit; and only
requests of the bucket itself change the bucket's key. -/
theorem admitted_of_reach (reached : Reach (step cfg) Prompt Started s)
    (sixty : cfg.windowSeconds b.endpoint = 60) :
    (∀ ids : List Nat, ids.Nodup → (∀ id ∈ ids, Admitted cfg s b id) →
      ids.length ≤ cfg.limit b.endpoint) ∧
      (∀ id id' count, Counted s b id count → Counted s b id' count → id = id') ∧
      (∃ n, (∀ count, (∃ id, Ran s b id count) ↔ 1 ≤ count ∧ count ≤ n) ∧
        ((∀ id, ¬ Lost s b id) → ∀ count, (∃ id, Counted s b id count) ↔ 1 ≤ count ∧ count ≤ n)) ∧
      (∀ request count, ∃ answer, reply cfg request (.counted count) = some answer ∧
        answer.headers.remaining = max ((cfg.limit request.endpoint : Int) - count) 0) ∧
      (∀ b' : Bucket, b'.key = b.key → b' = b) ∧
      ∀ id request phase, s.requests id = some (request, .waiting) → request.bucket ≠ b →
        (runScript cfg s id request phase).redis b.key = s.redis b.key := by
  obtain ⟨n, window⟩ := window_of_reach sixty reached
  refine ⟨fun ids => window.admitted_le, ?_, ⟨n, window.ran, window.counted_contiguous⟩, ?_,
    fun b' => Bucket.key_injective, ?_⟩
  · intro id id' count here there
    exact window.single id id' count here.ran there.ran
  · intro request count
    refine ⟨_, rfl, ?_⟩
    split <;> rfl
  · intro id request phase _ apart
    have keys : b.key ≠ request.bucket.key := mt Bucket.key_injective (Ne.symm apart)
    exact Function.update_of_ne keys _ _

/-- Two requests in one minute, one allowed. -/
theorem admitted_of_reach_two :
    ∃ (cfg : Config) (s : State) (b : Bucket), Reach (step cfg) Prompt Started s ∧ Counted s b 0 1 ∧
      Counted s b 1 2 ∧
      ∀ ids : List Nat, ids.Nodup → (∀ id ∈ ids, Admitted cfg s b id) → ids.length ≤ 1 := by
  let cfg : Config := ⟨fun _ => 1, fun _ => 60⟩
  let login : Endpoint := ⟨"auth.login".toList, by decide⟩
  let noon : Moment := ⟨⟨2026, 2, 28, 12, 0, by decide⟩, 30, 0, by decide⟩
  let later : Moment := ⟨⟨2026, 2, 28, 12, 0, by decide⟩, 59, 0, by decide⟩
  let s : State := ⟨noon, fun _ => none, fun _ => none, 0⟩
  have begins : Started s := ⟨fun _ => rfl, fun _ => rfl⟩
  let ip := "::1".toList
  obtain ⟨s', reached, holds⟩ := exists_reach_of_run (step cfg) Prompt begins
    [.arrive 0 login ip, .arrive 1 login ip, .script 0, .tick later, .script 1]
    (fun s => s.requests 0 = some (⟨login, ip, noon⟩, .counted 1) ∧
      s.requests 1 = some (⟨login, ip, noon⟩, .counted 2))
    (by decide +kernel)
  obtain ⟨first, second⟩ := of_decide_eq_true holds
  exact ⟨cfg, s', ⟨login, ip, noon.minute⟩, reached, ⟨_, first, rfl⟩, ⟨_, second, rfl⟩,
    (admitted_of_reach reached rfl).1⟩

end Steps

end Empyrean.Api.RateLimit
