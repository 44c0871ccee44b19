/-
# Empyrean.Api.ExportCooldown — one export for each user and cooldown

`GET /export` claims `export:cooldown:{user_id}` with `SET NX EX` before it streams, and where
that fails asks the key for its `TTL` and answers 429 with it.  The two commands of a request
run between those of others, on other workers; Redis may be out of reach at either of them,
and the request then goes ahead.  A cooldown that is not positive is switched off: every
request goes ahead without a claim.

* `step` — the requests, command by command, and Redis' clock, which does not go back.
* `spaced_of_reach` — the claims of a user are more than the cooldown apart; a request that
  goes ahead has claimed, or has met a failure, or there is no cooldown; one that is refused
  has met a claim that was no older than the cooldown.
* `retry_of_reach` — who comes back when told to, and half a second later as `TTL` rounds, is
  let in unless the user has claimed again.
-/
import Empyrean.Theory.Expiry
import Empyrean.Theory.Runs
import Mathlib.Data.Int.Order.Basic
import Mathlib.Data.List.Basic
import Mathlib.Logic.Function.Basic

namespace Empyrean.Api.ExportCooldown

set_option autoImplicit false

open Empyrean.Theory.Expiry (Expired not_expired_iff)
open Empyrean.Theory.Runs

/-! ## The requests -/

/-- An export that `SET NX` let in: the request, its user and Redis' clock in milliseconds. -/
structure Claim where
  id : Nat
  user : Nat
  time : Int
  deriving DecidableEq

inductive Phase
  | idle
  /-- `client.set(key, "1", ex=cooldown, nx=True)` is next. -/
  | claiming (user : Nat)
  /-- It failed at this time; `client.ttl(key)` is next. -/
  | asking (user : Nat) (failed : Int)
  | proceeds
  /-- 429, retry in so many seconds. -/
  | refused (user : Nat) (failed retryAfter : Int)
  deriving DecidableEq

structure State where
  clock : Int
  expiresAt : Nat → Option Int
  phases : Nat → Phase
  /-- Newest first. -/
  claims : List Claim
  /-- Requests that went ahead because Redis did not answer them. -/
  bypassed : List Nat

inductive Act
  | tick (clock : Int)
  | request (id user : Nat)
  | advance (id : Nat)
  /-- No client, or a command that raises; it may have been carried out. -/
  | fails (id : Nat) (carriedOut : Bool)

/-- The key is there, not yet expired. -/
def State.alive (s : State) (user : Nat) : Bool :=
  (s.expiresAt user).any fun t => !decide (Expired t s.clock)

/-- `TTL`, in seconds, rounded half up. -/
def State.ttl (s : State) (user : Nat) : Int :=
  match s.expiresAt user with
  | none => -2
  | some t => if Expired t s.clock then -2 else (t - s.clock + 500) / 1000

def State.go (s : State) (id : Nat) (phase : Phase) : State :=
  { s with phases := Function.update s.phases id phase }

def State.bypass (s : State) (id : Nat) : State :=
  { (s.go id .proceeds) with bypassed := id :: s.bypassed }

section Step

variable (cooldown : Int)

/-- `SET NX EX` on a key that is not there. -/
def State.claim (s : State) (id user : Nat) : State :=
  { (s.go id .proceeds) with
    expiresAt := Function.update s.expiresAt user (some (s.clock + 1000 * cooldown))
    claims := ⟨id, user, s.clock⟩ :: s.claims }

/-- `_check_export_cooldown` -/
def step (s : State) : Act → Option State
  | .tick clock => if s.clock ≤ clock then some { s with clock := clock } else none
  | .request id user =>
      match s.phases id with
      | .idle => if cooldown ≤ 0 then some (s.go id .proceeds) else some (s.go id (.claiming user))
      | _ => none
  | .advance id =>
      match s.phases id with
      | .claiming user =>
          if s.alive user then some (s.go id (.asking user s.clock))
          else some (s.claim cooldown id user)
      | .asking user failed => some (s.go id (.refused user failed (max (s.ttl user) 1)))
      | _ => none
  | .fails id carriedOut =>
      match s.phases id with
      | .claiming user =>
          if carriedOut && !s.alive user then some (s.claim cooldown id user)
          else some (s.bypass id)
      | .asking _ _ => some (s.bypass id)
      | _ => none

end Step

structure Start (s : State) : Prop where
  expiresAt : ∀ user, s.expiresAt user = none
  phases : ∀ id, s.phases id = .idle
  claims : s.claims = []

/-! ## The invariant -/

variable {cooldown : Int} {s s' : State}

/-- The newest claim of a user. -/
def State.newest (s : State) (user : Nat) : Option Claim :=
  s.claims.find? fun claim => decide (claim.user = user)

/-- A request of the user was refused rightly. -/
def Met (cooldown : Int) (s : State) (user : Nat) (failed : Int) : Prop :=
  ∃ claim ∈ s.claims, claim.user = user ∧ claim.time ≤ failed ∧
    failed ≤ claim.time + 1000 * cooldown

structure Inv (cooldown : Int) (s : State) : Prop where
  spaced : s.claims.Pairwise fun later earlier => later.user = earlier.user →
    earlier.time + 1000 * cooldown < later.time
  past : ∀ claim ∈ s.claims, claim.time ≤ s.clock
  entry : ∀ user, s.expiresAt user = (s.newest user).map fun claim => claim.time + 1000 * cooldown
  proceeds : ∀ id, s.phases id = .proceeds →
    cooldown ≤ 0 ∨ id ∈ s.bypassed ∨ ∃ claim ∈ s.claims, claim.id = id
  asking : ∀ id user failed, s.phases id = .asking user failed → Met cooldown s user failed
  refused : ∀ id user failed retryAfter, s.phases id = .refused user failed retryAfter →
    Met cooldown s user failed ∧ 1 ≤ retryAfter

theorem inv_start (starts : Start s) : Inv cooldown s where
  spaced := by rw [starts.claims]; exact List.Pairwise.nil
  past := fun claim member => by rw [starts.claims] at member; cases member
  entry := fun user => by rw [starts.expiresAt, State.newest, starts.claims]; rfl
  proceeds := fun id here => by rw [starts.phases] at here; cases here
  asking := fun id user failed here => by rw [starts.phases] at here; cases here
  refused := fun id user failed retryAfter here => by rw [starts.phases] at here; cases here

theorem alive_iff (user : Nat) : s.alive user = true ↔
    ∃ t, s.expiresAt user = some t ∧ s.clock ≤ t := by
  simp [State.alive, Option.any_eq_true, not_expired_iff]

theorem newest_spec {user : Nat} {claim : Claim} (found : s.newest user = some claim) :
    claim ∈ s.claims ∧ claim.user = user :=
  ⟨List.mem_of_find?_eq_some found, by simpa using List.find?_some found⟩

/-- A key that is alive was claimed, no longer ago than the cooldown. -/
theorem Inv.met (inv : Inv cooldown s) {user : Nat} (alive : s.alive user = true) :
    Met cooldown s user s.clock := by
  obtain ⟨t, expires, later⟩ := (alive_iff user).mp alive
  rw [inv.entry user] at expires
  obtain ⟨claim, found, rfl⟩ := Option.map_eq_some_iff.mp expires
  obtain ⟨member, ofUser⟩ := newest_spec found
  exact ⟨claim, member, ofUser, inv.past claim member, later⟩

/-- Where the key is not alive, every claim of the user is older than the cooldown. -/
theorem Inv.expired (inv : Inv cooldown s) {user : Nat} (gone : s.alive user ≠ true) {claim : Claim}
    (member : claim ∈ s.claims) (ofUser : claim.user = user) :
    claim.time + 1000 * cooldown < s.clock := by
  cases found : s.newest user with
  | none => exact absurd (by simpa using ofUser) (List.find?_eq_none.mp found claim member)
  | some newest =>
      have expires := inv.entry user
      rw [found, Option.map_some] at expires
      have old : newest.time + 1000 * cooldown < s.clock :=
        Int.not_le.mp fun still => gone ((alive_iff user).mpr ⟨_, expires, still⟩)
      obtain ⟨same, before, after, split, others⟩ := List.find?_eq_some_iff_append.mp found
      rw [split] at member
      rcases List.mem_append.mp member with inside | inside
      · exact absurd (by simpa using ofUser) (by simpa using others claim inside)
      · rcases List.mem_cons.mp inside with rfl | inside
        · exact old
        · have spaced := inv.spaced
          rw [split] at spaced
          have older := (List.pairwise_cons.mp (List.pairwise_append.mp spaced).2.1).1 claim inside
          have newer := inv.past newest (newest_spec found).1
          exact Int.lt_of_lt_of_le
            (older ((by simpa using same : newest.user = user).trans ofUser.symm)) newer

theorem Met.mono {user : Nat} {failed : Int} (met : Met cooldown s user failed)
    (kept : s.claims ⊆ s'.claims) : Met cooldown s' user failed :=
  have ⟨claim, member, facts⟩ := met
  ⟨claim, kept member, facts⟩

/-! ## Steps -/

/-- A request goes on to `phase`, without a claim. -/
theorem Inv.moved (inv : Inv cooldown s) (id : Nat) {phase : Phase} {bypassed : List Nat}
    (more : s.bypassed ⊆ bypassed) (proceeds : phase = .proceeds → cooldown ≤ 0 ∨ id ∈ bypassed)
    (asking : ∀ user failed, phase = .asking user failed → Met cooldown s user failed)
    (refused : ∀ user failed retryAfter, phase = .refused user failed retryAfter →
      Met cooldown s user failed ∧ 1 ≤ retryAfter) :
    Inv cooldown { (s.go id phase) with bypassed := bypassed } := by
  have phases : ∀ id', (s.go id phase).phases id' = if id' = id then phase else s.phases id' :=
    fun id' => Function.update_apply ..
  refine ⟨inv.spaced, inv.past, inv.entry, fun id' here => ?_, fun id' user failed here => ?_,
    fun id' user failed retryAfter here => ?_⟩
  all_goals
    simp only [phases] at here
    split at here
  · rename_i same
    rw [same]
    exact (proceeds here).imp_right Or.inl
  · exact (inv.proceeds id' here).imp_right fun known => known.imp_left (more ·)
  · exact asking user failed here
  · exact inv.asking id' user failed here
  · exact refused user failed retryAfter here
  · exact inv.refused id' user failed retryAfter here

theorem Inv.go (inv : Inv cooldown s) (id : Nat) {phase : Phase}
    (proceeds : phase = .proceeds → cooldown ≤ 0)
    (asking : ∀ user failed, phase = .asking user failed → Met cooldown s user failed)
    (refused : ∀ user failed retryAfter, phase = .refused user failed retryAfter →
      Met cooldown s user failed ∧ 1 ≤ retryAfter) : Inv cooldown (s.go id phase) :=
  inv.moved id (List.Subset.refl _) (fun same => Or.inl (proceeds same)) asking refused

theorem Inv.bypass (inv : Inv cooldown s) (id : Nat) : Inv cooldown (s.bypass id) :=
  inv.moved id (List.subset_cons_self _ _) (fun _ => Or.inr List.mem_cons_self) nofun nofun

theorem Inv.claim (inv : Inv cooldown s) (id : Nat) {user : Nat} (gone : s.alive user ≠ true) :
    Inv cooldown (s.claim cooldown id user) := by
  have phases : ∀ id', (s.claim cooldown id user).phases id' =
      if id' = id then .proceeds else s.phases id' := fun id' =>
    Function.update_apply ..
  have kept : s.claims ⊆ (s.claim cooldown id user).claims :=
    fun _ member => List.mem_cons_of_mem _ member
  refine ⟨?_, ?_, ?_, fun id' here => ?_, fun id' user' failed here => ?_,
    fun id' user' failed retryAfter here => ?_⟩
  · exact List.pairwise_cons.mpr
      ⟨fun earlier member same => inv.expired gone member same.symm, inv.spaced⟩
  · intro claim member
    rcases List.mem_cons.mp member with rfl | member
    · exact Int.le_refl s.clock
    · exact inv.past claim member
  · intro user'
    by_cases same : user' = user
    · subst same
      simp [State.claim, State.newest]
    · have different : ¬ user = user' := fun eq => same eq.symm
      have older := inv.entry user'
      simpa [State.claim, State.newest, Function.update_of_ne same, different] using older
  all_goals
    rw [phases] at here
    split at here
  · rename_i same
    exact Or.inr (Or.inr ⟨⟨id, user, s.clock⟩, List.mem_cons_self, same.symm⟩)
  · exact (inv.proceeds id' here).imp_right fun known =>
      known.imp_right fun ⟨claim, member, own⟩ => ⟨claim, kept member, own⟩
  · cases here
  · exact (inv.asking id' user' failed here).mono kept
  · cases here
  · obtain ⟨met, positive⟩ := inv.refused id' user' failed retryAfter here
    exact ⟨met.mono kept, positive⟩

theorem Inv.step {act : Act} (inv : Inv cooldown s)
    (ran : ExportCooldown.step cooldown s act = some s') : Inv cooldown s' := by
  cases act with
  | tick clock =>
      obtain ⟨forward, same⟩ := Option.ite_none_right_eq_some.mp ran
      cases same
      exact { inv with past := fun claim member => Int.le_trans (inv.past claim member) forward }
  | request id user =>
      simp only [ExportCooldown.step] at ran
      split at ran
      · split at ran
        · rename_i off
          cases ran
          exact inv.go id (fun _ => off) (by simp) (by simp)
        · cases ran
          exact inv.go id (by simp) (by simp) (by simp)
      · cases ran
  | advance id =>
      simp only [ExportCooldown.step] at ran
      split at ran
      · rename_i user here
        split at ran
        · rename_i alive
          cases ran
          refine inv.go id (by simp) (fun user' failed same => ?_) (by simp)
          cases same
          exact inv.met alive
        · rename_i gone
          cases ran
          exact inv.claim id gone
      · rename_i user failed here
        cases ran
        refine inv.go id (by simp) (by simp) fun user' failed' retryAfter same => ?_
        cases same
        exact ⟨inv.asking id user failed here, Int.le_max_right ..⟩
      · cases ran
  | fails id carriedOut =>
      simp only [ExportCooldown.step] at ran
      split at ran
      · rename_i user here
        split at ran
        · rename_i both
          cases ran
          exact inv.claim id (by simpa using ((Bool.and_eq_true _ _).mp both).2)
        · cases ran
          exact inv.bypass id
      · cases ran
        exact inv.bypass id
      · cases ran

theorem inv_of_reach (reached : Reach (step cooldown) Always Start s) : Inv cooldown s :=
  reached.invariant (fun _ starts => inv_start starts) fun _ _ _ inv _ ran => inv.step ran

/-! ## Every run -/

/-- **Exports are spaced.**  In every run the claims of a user are more than the cooldown apart.
A request that goes ahead has claimed, or got no answer from Redis, or the cooldown is switched
off; one that is refused came no later than the cooldown after a claim of its user. -/
theorem spaced_of_reach (reached : Reach (step cooldown) Always Start s) :
    s.claims.Pairwise (fun later earlier => later.user = earlier.user →
      earlier.time + 1000 * cooldown < later.time) ∧
      (∀ id, s.phases id = .proceeds →
        cooldown ≤ 0 ∨ id ∈ s.bypassed ∨ ∃ claim ∈ s.claims, claim.id = id) ∧
      ∀ id user failed retryAfter, s.phases id = .refused user failed retryAfter →
        ∃ claim ∈ s.claims, claim.user = user ∧ claim.time ≤ failed ∧
          failed ≤ claim.time + 1000 * cooldown :=
  have inv := inv_of_reach reached
  ⟨inv.spaced, inv.proceeds,
    fun id user failed retryAfter here => (inv.refused id user failed retryAfter here).1⟩

def opened : State where
  clock := 0
  expiresAt := fun _ => none
  phases := fun _ => .idle
  claims := []
  bypassed := []

theorem start_opened : Start opened := ⟨fun _ => rfl, fun _ => rfl, rfl⟩

/-- An export, and another one that is refused. -/
def tooSoon : List Act := [.request 0 1, .advance 0, .tick 200000, .request 1 1, .advance 1]

theorem spaced_of_reach_two : ∃ s, Reach (step 300) Always Start s ∧
    s.claims.map (·.time) = [300001, 0] ∧ s.phases 1 = .refused 1 200000 100 ∧
    ∃ claim ∈ s.claims, claim.user = 1 ∧ claim.time ≤ 200000 ∧
      200000 ≤ claim.time + 1000 * 300 := by
  obtain ⟨s, reached, final⟩ := exists_reach_of_run (step 300) Always start_opened
    (tooSoon ++ [.advance 1, .tick 300001, .request 2 1, .advance 2])
    (fun s => decide (s.claims.map (·.time) = [300001, 0] ∧ s.phases 1 = .refused 1 200000 100))
      (by decide +kernel)
  obtain ⟨claims, refused⟩ := of_decide_eq_true final
  exact ⟨s, reached, claims, refused, (spaced_of_reach reached).2.2 1 1 200000 100 refused⟩

/-- Where the user has claimed nothing since the answer, the key is gone once it is past. -/
theorem Inv.expires_by (inv : Inv cooldown s) {user : Nat} {t : Int}
    (expires : s.expiresAt user = some t) : t ≤ s.clock + 1000 * cooldown := by
  rw [inv.entry user] at expires
  obtain ⟨claim, found, rfl⟩ := Option.map_eq_some_iff.mp expires
  have past := inv.past claim (newest_spec found).1
  omega

/-- **A refused user who comes back when told to is let in.**  Every 429 names at least a second
and at most the cooldown; once so many seconds, and the half that `TTL` may have rounded away,
are past, and nothing was claimed for the user meanwhile, the next `SET` succeeds. -/
theorem retry_of_reach {s₁ s₂ s₃ : State} {id id' user : Nat} {failed : Int}
    (positive : 0 < cooldown) (reached : Reach (step cooldown) Always Start s)
    (asks : s.phases id = .asking user failed) (answered : step cooldown s (.advance id) = some s₁)
    (later : Reach (step cooldown) Always (fun x => x = s₁) s₂)
    (alone : s₂.newest user = s₁.newest user) (returns : s₂.phases id' = .claiming user)
    (claims : step cooldown s₂ (.advance id') = some s₃) :
    ∃ retryAfter, s₁.phases id = .refused user failed retryAfter ∧ 1 ≤ retryAfter ∧
      retryAfter ≤ cooldown ∧
      (s₁.clock + 1000 * retryAfter + 500 < s₂.clock → s₃.phases id' = .proceeds) := by
  have inv := inv_of_reach reached
  have inv₁ := inv.step answered
  have inv₂ : Inv cooldown s₂ :=
    later.invariant (fun _ same => same ▸ inv₁) fun _ _ _ inv _ ran => inv.step ran
  simp only [step, asks] at answered
  cases answered
  have kept : s₂.expiresAt user = s.expiresAt user := by
    rw [inv₂.entry user, alone, inv.entry user]
    rfl
  refine ⟨max (s.ttl user) 1, Function.update_self .., Int.le_max_right .., ?_, fun waited => ?_⟩
  · cases expires : s.expiresAt user with
    | none =>
        simp only [State.ttl, expires]
        omega
    | some t =>
        have bound := inv.expires_by expires
        simp only [State.ttl, expires]
        split <;> omega
  · have gone : s₂.alive user ≠ true := by
      intro alive
      obtain ⟨t, expires, still⟩ := (alive_iff user).mp alive
      rw [kept] at expires
      have clock : (s.go id (.refused user failed (max (s.ttl user) 1))).clock = s.clock := rfl
      rw [clock] at waited
      simp only [State.ttl, expires] at waited
      by_cases past : Expired t s.clock
      · rw [if_pos past] at waited
        have before : t < s.clock := past
        omega
      · rw [if_neg past] at waited
        omega
    simp only [step, returns, gone] at claims
    cases claims
    exact Function.update_self ..

/-- The state after `actions`, where they can be taken. -/
def after (s : State) (actions : List Act) : State :=
  (run (guard (step 300) Always) s actions).getD s

theorem retry_of_reach_once :
    (after opened tooSoon).phases 1 = .asking 1 200000 ∧
      ∃ s₁ s₂ s₃, step 300 (after opened tooSoon) (.advance 1) = some s₁ ∧
        Reach (step 300) Always (fun x => x = s₁) s₂ ∧ step 300 s₂ (.advance 2) = some s₃ ∧
          s₃.phases 2 = .proceeds := by
  have asks : (after opened tooSoon).phases 1 = .asking 1 200000 := by decide +kernel
  have reached : Reach (step 300) Always Start (after opened tooSoon) :=
    reach_of_run Always tooSoon opened _ (.init start_opened) rfl
  have later : Reach (step 300) Always (fun x => x = after (after opened tooSoon) [.advance 1])
      (after (after opened tooSoon) [.advance 1, .tick 300501, .request 2 1]) :=
    reach_of_run Always [.tick 300501, .request 2 1] _ _ (.init rfl) rfl
  have returns : (after (after opened tooSoon) [.advance 1, .tick 300501, .request 2 1]).phases 2 =
      .claiming 1 := by
    decide +kernel
  refine ⟨asks, _, _, _, rfl, later, rfl, ?_⟩
  obtain ⟨retryAfter, refused, _, _, proceeds⟩ :=
    retry_of_reach (by decide) reached asks rfl later rfl returns rfl
  obtain rfl : retryAfter = 100 := by
    injection refused with _ _ same
    exact same.symm
  exact proceeds (by decide +kernel)

end Empyrean.Api.ExportCooldown
