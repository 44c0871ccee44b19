/-
# Empyrean.Api.KeySpace — the stores that share one Redis

The caches, the request limiter, the token blocklist, the circuit breaker, the forecasts, the
export cooldown and the counters keep their entries in one Redis, told apart by what their keys
start with.  Some of what follows is text that a client chooses, and `reset_circuit_breaker()`
deletes whatever `SCAN` finds for a pattern.

* `Key`, `render` — every key of the source, with the parts it is formatted from.
* `render_injective` — no two of them are the same text.
* `Command` — a command or script on one key, and the reset of all breakers.
* `redis_refines` — every run of commands does to the one Redis what it does to separate
  stores, and touches no other key on the server.
-/
import Empyrean.Api.RateLimit
import Empyrean.Fleet.Nodes
import Empyrean.Theory.PrefixCode

namespace Empyrean.Api.KeySpace

set_option autoImplicit false

open Empyrean.Api.RateLimit (Bucket split_at_colon)
open Empyrean.Fleet (nodeIdChar nodeIdSafe)
open Empyrean.Theory.PrefixCode
open Empyrean.Theory.PyNumeral (Text decimal decimal_toDigits)

/-! ## The keys -/

/-- The id of a row of `nodes`. -/
structure NodeId where
  text : Text
  safe : nodeIdSafe text = true
  deriving DecidableEq

/-- `f"{user_id}"` -/
def digits (id : Nat) : Text := Nat.toDigits 10 id

inductive Key
  /-- `_LATEST_CACHE_KEY`, or the key that `_write_latest_cache` gives a node. -/
  | readingsLatest (node : Option NodeId)
  /-- `_NODES_CACHE_KEY` -/
  | nodesAll
  /-- `_rate_limit_key` -/
  | rateLimit (bucket : Bucket)
  /-- `model_cache_key` -/
  | forecastModel (node : NodeId)
  /-- `forecast_cache_key`, or `_LEGACY_FORECAST_KEY` where there is no version. -/
  | forecast (node : NodeId) (version : Option Text)
  /-- `BEAT_HEARTBEAT_KEY` -/
  | beatHeartbeat
  /-- `f"{_FAILED_ATTEMPTS_KEY}:{task_name}"` -/
  | failedAttempts (taskName : Text)
  /-- `_BLOCKLIST_KEY_PREFIX + jti` -/
  | blocklist (jti : Text)
  /-- `_user_cache_key` -/
  | userCache (userId : Nat)
  /-- `_EXPORT_COOLDOWN_KEY` -/
  | exportCooldown (userId : Nat)
  /-- `_TOKEN_REUSE_KEY` -/
  | tokenReuse
  deriving DecidableEq

inductive Family
  | readingsLatest | nodesAll | rateLimit | forecastModel | forecast | beatHeartbeat
  | failedAttempts | blocklist | userCache | exportCooldown | tokenReuse
  deriving DecidableEq

def Family.word : Family → Text
  | .readingsLatest => "readings:latest".toList
  | .nodesAll => "nodes:all".toList
  | .rateLimit => "ratelimit:".toList
  | .forecastModel => "forecast:model:".toList
  | .forecast => "celery:forecast:".toList
  | .beatHeartbeat => "celery:heartbeat:beat".toList
  | .failedAttempts => "celery:circuit_breaker:failed_attempts:".toList
  | .blocklist => "jwt:blocklist:".toList
  | .userCache => "cache:user:".toList
  | .exportCooldown => "export:cooldown:".toList
  | .tokenReuse => "auth:refresh_token_reuse_total".toList

def Key.family : Key → Family
  | .readingsLatest _ => .readingsLatest
  | .nodesAll => .nodesAll
  | .rateLimit _ => .rateLimit
  | .forecastModel _ => .forecastModel
  | .forecast _ _ => .forecast
  | .beatHeartbeat => .beatHeartbeat
  | .failedAttempts _ => .failedAttempts
  | .blocklist _ => .blocklist
  | .userCache _ => .userCache
  | .exportCooldown _ => .exportCooldown
  | .tokenReuse => .tokenReuse

/-- A part that may be missing, behind a colon. -/
def suffix (part : Option Text) : Text :=
  match part with
  | none => []
  | some part => ':' :: part

/-- What follows the word of its family. -/
def Key.rest : Key → Text
  | .readingsLatest node => suffix (node.map NodeId.text)
  | .rateLimit bucket =>
      bucket.endpoint.name ++ ':' :: (bucket.ip ++ ':' :: RateLimit.strftime bucket.minute)
  | .forecastModel node => node.text
  | .forecast node version => node.text ++ suffix version
  | .failedAttempts taskName => taskName
  | .blocklist jti => jti
  | .userCache userId | .exportCooldown userId => digits userId
  | .nodesAll | .beatHeartbeat | .tokenReuse => []

def render (key : Key) : Text := key.family.word ++ key.rest

/-- The key of the limiter is the one that its model uses. -/
theorem render_rateLimit (bucket : Bucket) : render (.rateLimit bucket) = bucket.key := rfl

/-! ## Reading a key back -/

def families : List Family :=
  [.readingsLatest, .nodesAll, .rateLimit, .forecastModel, .forecast, .beatHeartbeat,
    .failedAttempts, .blocklist, .userCache, .exportCooldown, .tokenReuse]

theorem mem_families (family : Family) : family ∈ families := by cases family <;> decide

theorem prefixFree_word : PrefixFree Family.word := by
  have every : ∀ a ∈ families, ∀ b ∈ families, (Family.word a).isPrefixOf (Family.word b) =
      true → a = b := by
    decide +kernel
  exact fun a b starts =>
    every a (mem_families a) b (mem_families b) (List.isPrefixOf_iff_prefix.mpr starts)

theorem digits_injective {id id' : Nat} (same : digits id = digits id') : id = id' := by
  have read := decimal_toDigits id
  rw [show Nat.toDigits 10 id = Nat.toDigits 10 id' from same, decimal_toDigits] at read
  exact (Nat.cast_injective (Option.some.inj read)).symm

/-- No node id has a colon in it. -/
theorem NodeId.noColon (node : NodeId) : ':' ∉ node.text := by
  intro inside
  have chars : ∀ c ∈ node.text, nodeIdChar c = true :=
    List.all_eq_true.mp ((Bool.and_eq_true _ _ ▸ node.safe).2)
  have outside : nodeIdChar ':' = false := by decide
  exact Bool.false_ne_true (outside.symm.trans (chars _ inside))

theorem NodeId.ext_text {node node' : NodeId} (same : node.text = node'.text) : node = node' := by
  cases node
  cases node'
  cases same
  rfl

theorem suffix_injective {part part' : Option Text} (same : suffix part = suffix part') :
    part = part' := by
  cases part with
  | none =>
      cases part' with
      | none => rfl
      | some _ => cases same
  | some _ =>
      cases part' with
      | none => cases same
      | some _ => exact congrArg some (List.cons.inj same).2

/-- The id ends where the key does, or at its first colon. -/
theorem append_suffix_inj {name name' : Text} (clean : ':' ∉ name) (clean' : ':' ∉ name')
    {part part' : Option Text} (same : name ++ suffix part = name' ++ suffix part') :
    name = name' ∧ part = part' := by
  have ends : ∀ {a b : Text} {tail : Text}, ':' ∉ a → a ++ [] ≠ b ++ ':' :: tail := by
    intro a b tail clean same
    rw [List.append_nil] at same
    exact clean (same ▸ List.mem_append_right _ List.mem_cons_self)
  cases part with
  | none =>
      cases part' with
      | none => exact ⟨by simpa [suffix] using same, rfl⟩
      | some tail => exact absurd same (ends clean)
  | some tail =>
      cases part' with
      | none => exact absurd same.symm (ends clean')
      | some tail' =>
          obtain ⟨names, tails⟩ := split_at_colon clean clean' same
          exact ⟨names, congrArg some tails⟩

/-- A key is its family and what follows. -/
theorem Key.ext_parts {key key' : Key} (families : key.family = key'.family)
    (rests : key.rest = key'.rest) : key = key' := by
  cases key <;> cases key' <;> cases families
  case readingsLatest.readingsLatest.refl node node' =>
      have texts := suffix_injective rests
      exact congrArg _ (Option.map_injective (fun _ _ => NodeId.ext_text) texts)
  case nodesAll.nodesAll.refl => rfl
  case rateLimit.rateLimit.refl bucket bucket' =>
      have keys : bucket.key = bucket'.key := congrArg ("ratelimit:".toList ++ ·) rests
      exact congrArg _ (Bucket.key_injective keys)
  case forecastModel.forecastModel.refl node node' => exact congrArg _ (NodeId.ext_text rests)
  case forecast.forecast.refl node version node' version' =>
      obtain ⟨texts, versions⟩ := append_suffix_inj node.noColon node'.noColon rests
      obtain rfl := NodeId.ext_text texts
      rw [versions]
  case beatHeartbeat.beatHeartbeat.refl => rfl
  case failedAttempts.failedAttempts.refl => exact congrArg _ rests
  case blocklist.blocklist.refl => exact congrArg _ rests
  case userCache.userCache.refl => exact congrArg _ (digits_injective rests)
  case exportCooldown.exportCooldown.refl => exact congrArg _ (digits_injective rests)
  case tokenReuse.tokenReuse.refl => rfl

/-- **No two keys are the same text**, whatever clients put into them. -/
theorem render_injective : Function.Injective render := fun _ _ same =>
  have parts := prefixFree_word.append_inj same
  Key.ext_parts parts.1 parts.2

/-! ## Commands -/

inductive Command (V : Type)
  /-- A command, or a script, that reads and writes one key. -/
  | one (key : Key) (f : Option V → Option V)
  /-- `reset_circuit_breaker()`, with the keys that its `SCAN` came across. -/
  | resetAll (scanned : List Text)

/-- `MATCH {_FAILED_ATTEMPTS_KEY}:*` -/
def scanMatches (key : Text) : Bool := (Family.word .failedAttempts).isPrefixOf key

section Run

variable {V : Type}

/-- The `SCAN` has come across this key. -/
def met (scanned : List Text) (text : Text) : Bool := scanned.any fun key => decide (key = text)

/-- On the one Redis. -/
def exec (redis : Text → Option V) : Command V → Text → Option V
  | .one key f => Function.update redis (render key) (f (redis (render key)))
  | .resetAll scanned => fun text =>
      if met scanned text = true ∧ scanMatches text = true then none else redis text

/-- On stores of their own. -/
def execEach (stores : Key → Option V) : Command V → Key → Option V
  | .one key f => Function.update stores key (f (stores key))
  | .resetAll scanned => fun key =>
      match key with
      | .failedAttempts taskName =>
          if met scanned (render (.failedAttempts taskName)) = true then none else stores key
      | _ => stores key

theorem scanMatches_iff (text : Text) : scanMatches text = true ↔
    ∃ taskName, text = render (.failedAttempts taskName) := by
  rw [scanMatches, List.isPrefixOf_iff_prefix]
  constructor
  · rintro ⟨taskName, same⟩
    exact ⟨taskName, same.symm⟩
  · rintro ⟨taskName, rfl⟩
    exact List.prefix_append _ _

/-- The pattern finds the keys of the breakers, and no other key of the source. -/
theorem scanMatches_render (key : Key) : scanMatches (render key) = true ↔
    ∃ taskName, key = .failedAttempts taskName := by
  rw [scanMatches_iff]
  exact exists_congr fun _ => render_injective.eq_iff

theorem exec_render (redis : Text → Option V) (command : Command V) :
    exec redis command ∘ render = execEach (redis ∘ render) command := by
  cases command with
  | one key f => exact Function.update_comp_eq_of_injective redis render_injective key _
  | resetAll scanned =>
      funext key
      simp only [exec, execEach, Function.comp_apply]
      cases key with
      | failedAttempts taskName =>
          have found := (scanMatches_render (.failedAttempts taskName)).mpr ⟨taskName, rfl⟩
          simp only [found, and_true]
      | _ =>
          refine if_neg fun both => ?_
          obtain ⟨_, same⟩ := (scanMatches_render _).mp both.2
          cases same

/-- A key that the source does not write. -/
theorem exec_foreign (redis : Text → Option V) (command : Command V) {text : Text}
    (foreign : ∀ key, render key ≠ text) : exec redis command text = redis text := by
  cases command with
  | one key f => exact Function.update_of_ne (Ne.symm (foreign key)) ..
  | resetAll scanned =>
      refine if_neg fun both => ?_
      obtain ⟨taskName, same⟩ := (scanMatches_iff text).mp both.2
      exact foreign _ same.symm

/-- **The one Redis is a product of stores.**  After any run of commands each key holds what its
own store would, and every other key on the server what it held before. -/
theorem redis_refines (commands : List (Command V)) (redis : Text → Option V) :
    (commands.foldl exec redis) ∘ render = commands.foldl execEach (redis ∘ render) ∧
      ∀ text, (∀ key, render key ≠ text) → commands.foldl exec redis text = redis text := by
  induction commands generalizing redis with
  | nil => exact ⟨rfl, fun _ _ => rfl⟩
  | cons command rest ih =>
      obtain ⟨same, untouched⟩ := ih (exec redis command)
      rw [exec_render] at same
      exact ⟨same, fun text foreign => (untouched text foreign).trans (exec_foreign redis command foreign)⟩

end Run

end Empyrean.Api.KeySpace
