/-
# Empyrean.Auth.UserCache — the account of a request, and its deactivation

An authenticated request takes its account from `cache:user:{id}`, or reads the row and then
stores it there for 30 seconds.  `DELETE /profile` is such a request; it commits
`is_active = false` and then deletes the key, and leaves the access tokens alone.  A request
that has read the row before the commit may store it after the deletion.

* `step` — one statement of one request whose token has passed; `lookups` records what
  `_get_user_cached` has returned, and which accounts had been deactivated before.
* `NoLateStore` — an active row is not stored once the account's deletion has emptied the key.
* `refused_of_reach` — under that condition a deactivated account is refused at once,
  whatever the token.
* `accepted_after_deactivation` — and without it a later request is accepted.
-/
import Empyrean.Auth.AccessToken
import Empyrean.Auth.Handlers
import Empyrean.Theory.CacheAside
import Empyrean.Theory.Runs

namespace Empyrean.Auth.UserCache

set_option autoImplicit false

open Empyrean.Auth.AccessToken (PyJwt Blocklist Rejection authenticateUser bearerToken)
open Empyrean.Theory.CacheAside Empyrean.Theory.Runs
open Empyrean.Theory.PyNumeral (Text)

/-! ## The system -/

/-- What `_serialise_user_for_cache` keeps of a row: not the password hash. -/
structure CachedUser where
  id : Nat
  isActive : Bool
  lastLoginAt : Option Int
  deriving DecidableEq

def serialiseUserForCache (user : Nat) (row : User) : CachedUser :=
  { id := user
    isActive := row.isActive
    lastLoginAt := row.lastLoginAt }

inductive Endpoint
  | other
  | deleteProfile
  deriving DecidableEq

/-- Where a request stands.  `gone` are the accounts that were deactivated when it started. -/
inductive Pc
  | idle
  -- `_get_user_cached`
  | lookup (user : Nat) (endpoint : Endpoint) (gone : List Nat)
  | load (user : Nat) (endpoint : Endpoint) (gone : List Nat)
  | store (user : Nat) (endpoint : Endpoint) (gone : List Nat) (row : User)
  -- `delete_profile`
  | getUser (user : Nat)
  | commit (user : Nat)
  | invalidate (user : Nat)

/-- A return of `_get_user_cached`: no account, or one with its `is_active`. -/
structure Lookup where
  user : Nat
  gone : List Nat
  active : Option Bool
  deriving DecidableEq

structure State where
  db : Db
  cache : Nat → Option CachedUser
  pcs : Nat → Pc
  -- the accounts whose `DELETE /profile` has responded
  deactivated : List Nat
  lookups : List Lookup

inductive Action
  | start (p user : Nat) (endpoint : Endpoint)
  | advance (p : Nat)
  | expire (user : Nat)

namespace State

variable (s : State)

def moveTo (p : Nat) (pc : Pc) : State := { s with pcs := Function.update s.pcs p pc }

def setCache (user : Nat) (entry : Option CachedUser) : State :=
  { s with cache := Function.update s.cache user entry }

/-- The account is looked up; an inactive one is a 401. -/
def found (p user : Nat) (endpoint : Endpoint) (gone : List Nat) (active : Option Bool) : State :=
  { s with
    lookups := ⟨user, gone, active⟩ :: s.lookups
    pcs := Function.update s.pcs p
      (if active = some true ∧ endpoint = .deleteProfile then .getUser user else .idle) }

/-- `invalidate_user_cache`, and the response. -/
def respond (p user : Nat) : State :=
  { s with
    cache := Function.update s.cache user none
    deactivated := user :: s.deactivated
    pcs := Function.update s.pcs p .idle }

end State

/-- One statement of process `p`. -/
def advance (s : State) (p : Nat) : Option State :=
  match s.pcs p with
  | .idle => none
  | .lookup user endpoint gone =>
      match s.cache user with
      | some cached =>
          if cached.id = user then some (s.found p user endpoint gone (some cached.isActive))
          else some (s.moveTo p (.load user endpoint gone))
      | none => some (s.moveTo p (.load user endpoint gone))
  | .load user endpoint gone =>
      match s.db.users user with
      | none => some (s.found p user endpoint gone none)
      | some row => some (s.moveTo p (.store user endpoint gone row))
  | .store user endpoint gone row =>
      some ((s.setCache user (some (serialiseUserForCache user row))).found p user endpoint gone (some row.isActive))
  | .getUser user =>
      match s.db.users user with
      | none => some (s.moveTo p .idle)
      | some _ => some (s.moveTo p (.commit user))
  | .commit user => some ({ s with db := (deleteProfile s.db user).1 }.moveTo p (.invalidate user))
  | .invalidate user => some (s.respond p user)

def step (s : State) : Action → Option State
  | .start p user endpoint =>
      match s.pcs p with
      | .idle => some (s.moveTo p (.lookup user endpoint s.deactivated))
      | _ => none
  | .advance p => advance s p
  | .expire user => some (s.setCache user none)

structure State.Start (s : State) : Prop where
  pcs : ∀ p, s.pcs p = .idle
  deactivated : s.deactivated = []
  lookups : s.lookups = []

/-- **The condition**: an active row comes too late once the account's key was deleted. -/
def NoLateStore (s : State) : Action → Prop
  | .advance p =>
      match s.pcs p with
      | .store user _ _ row => user ∈ s.deactivated → row.isActive = false
      | _ => True
  | _ => True

instance (s : State) (a : Action) : Decidable (NoLateStore s a) := by
  unfold NoLateStore
  split
  · split <;> infer_instance
  · infer_instance

/-! ## What is promised -/

/-- The account is not there or inactive. -/
def Inactive (db : Db) (user : Nat) : Prop := ∀ row, db.users user = some row → row.isActive = false

def Pc.Owes (s : State) : Pc → Prop
  | .lookup _ _ gone | .load _ _ gone => gone ⊆ s.deactivated
  | .store user _ gone row => user ∈ gone → row.isActive = false
  | .invalidate user => Inactive s.db user
  | _ => True

structure Inv (s : State) : Prop where
  cached : Meets (fun user cached => user ∈ s.deactivated → cached.isActive = false) s.cache
  inactive : ∀ user ∈ s.deactivated, Inactive s.db user
  owes : ∀ p, (s.pcs p).Owes s
  lookups : ∀ lookup ∈ s.lookups, lookup.user ∈ lookup.gone → lookup.active ≠ some true

theorem users_deleteProfile (db : Db) (user other : Nat) :
    (deleteProfile db user).1.users other =
      if other = user then (db.users user).map fun row => { row with isActive := false }
      else db.users other := by
  unfold deleteProfile
  by_cases same : other = user
  · subst same
    cases stored : db.users other <;> simp [stored, Db.setUser, Db.revokeWhere]
  · cases stored : db.users user <;> simp [Db.setUser, Db.revokeWhere, same]

theorem inactive_deleteProfile (db : Db) (user : Nat) :
    Inactive (deleteProfile db user).1 user := by
  intro row stored
  rw [users_deleteProfile, if_pos rfl] at stored
  obtain ⟨old, _, rfl⟩ := Option.map_eq_some_iff.mp stored
  rfl

/-- Nobody is reactivated. -/
theorem Inactive.deleteProfile {db : Db} {other : Nat} (inactive : Inactive db other) (user : Nat) :
    Inactive (Auth.deleteProfile db user).1 other := by
  by_cases same : other = user
  · subst same
    exact inactive_deleteProfile db other
  · intro row stored
    rw [users_deleteProfile, if_neg same] at stored
    exact inactive row stored

/-! ## One step -/

section Step

variable {s s' : State} {p : Nat}

/-- What a process relies on survives the steps of the others. -/
theorem Pc.Owes.grow {pc : Pc} (owes : pc.Owes s) (more : s.deactivated ⊆ s'.deactivated)
    (keeps : ∀ user, Inactive s.db user → Inactive s'.db user) : pc.Owes s' := by
  cases pc with
  | lookup user endpoint gone => exact List.Subset.trans owes more
  | load user endpoint gone => exact List.Subset.trans owes more
  | store user endpoint gone row => exact owes
  | invalidate user => exact keeps user owes
  | _ => trivial

/-- One process moves, the others keep what they rely on. -/
theorem Inv.owes_update (inv : Inv s) {pc : Pc} (pcs : s'.pcs = Function.update s.pcs p pc)
    (more : s.deactivated ⊆ s'.deactivated)
    (keeps : ∀ user, Inactive s.db user → Inactive s'.db user) (owes : pc.Owes s') :
    ∀ q, (s'.pcs q).Owes s' := by
  rw [pcs]
  exact (Function.forall_update_iff s.pcs fun _ pc => pc.Owes s').mpr
    ⟨owes, fun q _ => (inv.owes q).grow more keeps⟩

theorem Inv.moveTo (inv : Inv s) {pc : Pc} (owes : pc.Owes s) : Inv (s.moveTo p pc) where
  cached := inv.cached
  inactive := inv.inactive
  owes := inv.owes_update rfl (List.Subset.refl _) (fun _ => id)
    (owes.grow (List.Subset.refl _) fun _ => id)
  lookups := inv.lookups

theorem Inv.setCache (inv : Inv s) {user : Nat} {entry : Option CachedUser}
    (meets : ∀ cached ∈ entry, user ∈ s.deactivated → cached.isActive = false) :
    Inv (s.setCache user entry) where
  cached := by
    cases entry with
    | none => exact meets_expire inv.cached
    | some cached => exact (meets_fill_iff inv.cached).mpr (meets cached rfl)
  inactive := inv.inactive
  owes := inv.owes
  lookups := inv.lookups

theorem Inv.found (inv : Inv s) {user : Nat} {endpoint : Endpoint} {gone : List Nat}
    {active : Option Bool} (refused : user ∈ gone → active ≠ some true) :
    Inv (s.found p user endpoint gone active) where
  cached := inv.cached
  inactive := inv.inactive
  owes := by
    refine inv.owes_update rfl (List.Subset.refl _) (fun _ => id) ?_
    split <;> trivial
  lookups := by
    intro lookup member
    rcases List.mem_cons.mp member with rfl | before
    · exact refused
    · exact inv.lookups lookup before

theorem Inv.commit (inv : Inv s) (user : Nat) :
    Inv ({ s with db := (deleteProfile s.db user).1 }.moveTo p (.invalidate user)) where
  cached := inv.cached
  inactive := fun other member => (inv.inactive other member).deleteProfile user
  owes := inv.owes_update rfl (List.Subset.refl _) (fun _ inactive => inactive.deleteProfile user)
    (inactive_deleteProfile s.db user)
  lookups := inv.lookups

/-- The key is deleted before the account counts as deactivated. -/
theorem Inv.respond (inv : Inv s) {user : Nat} (inactive : Inactive s.db user) :
    Inv (s.respond p user) where
  cached := by
    refine meets_drop inv.cached ?_
    intro other different cached held member
    exact held ((List.mem_cons.mp member).resolve_left different)
  inactive := by
    intro other member
    rcases List.mem_cons.mp member with rfl | before
    · exact inactive
    · exact inv.inactive other before
  owes := inv.owes_update rfl (List.subset_cons_self _ _) (fun _ => id) trivial
  lookups := inv.lookups

theorem inv_advance (inv : Inv s) (timely : NoLateStore s (.advance p))
    (advanced : advance s p = some s') : Inv s' := by
  have owes := inv.owes p
  unfold advance at advanced
  simp only [NoLateStore] at timely
  cases here : s.pcs p with
  | idle => simp [here] at advanced
  | lookup user endpoint gone =>
      rw [here] at owes
      simp only [here] at advanced
      cases present : s.cache user with
      | none =>
          simp only [present, Option.some.injEq] at advanced
          exact advanced ▸ inv.moveTo owes
      | some cached =>
          simp only [present] at advanced
          split at advanced <;> cases advanced
          · apply inv.found
            intro member
            simp [inv.cached user cached present (owes member)]
          · exact inv.moveTo owes
  | load user endpoint gone =>
      rw [here] at owes
      simp only [here] at advanced
      cases stored : s.db.users user with
      | none =>
          simp only [stored, Option.some.injEq] at advanced
          exact advanced ▸ inv.found fun _ => by simp
      | some row =>
          simp only [stored, Option.some.injEq] at advanced
          exact advanced ▸ inv.moveTo fun member => inv.inactive user (owes member) row stored
  | store user endpoint gone row =>
      rw [here] at owes
      simp only [here] at advanced timely
      cases advanced
      have filled : Inv (s.setCache user (some (serialiseUserForCache user row))) := by
        apply inv.setCache
        rintro _ ⟨⟩ member
        exact timely member
      exact filled.found fun member => by simp [owes member]
  | getUser user =>
      simp only [here] at advanced
      split at advanced <;> cases advanced <;> exact inv.moveTo trivial
  | commit user =>
      simp only [here, Option.some.injEq] at advanced
      exact advanced ▸ inv.commit user
  | invalidate user =>
      rw [here] at owes
      simp only [here, Option.some.injEq] at advanced
      exact advanced ▸ inv.respond owes

theorem inv_step {a : Action} (inv : Inv s) (timely : NoLateStore s a)
    (stepped : step s a = some s') : Inv s' := by
  cases a with
  | start p user endpoint =>
      simp only [step] at stepped
      split at stepped <;> cases stepped
      exact inv.moveTo (List.Subset.refl _)
  | advance p => exact inv_advance inv timely stepped
  | expire user =>
      cases stepped
      exact inv.setCache (by simp)

end Step

/-! ## Runs -/

theorem inv_of_start {s : State} (start : s.Start) : Inv s where
  cached := fun user cached _ member => by simp [start.deactivated] at member
  inactive := by simp [start.deactivated]
  owes := fun p => by rw [start.pcs p]; trivial
  lookups := by simp [start.lookups]

theorem inv_of_reach {s : State} (reached : Reach step NoLateStore State.Start s) : Inv s :=
  reached.invariant (fun _ => inv_of_start) fun _ _ _ inv timely stepped =>
    inv_step inv timely stepped

/-- The request is authenticated with the account that was looked up. -/
def Lookup.Refused (lookup : Lookup) : Prop :=
  ∀ {K : Type} [Field K] [LinearOrder K] (jwt : PyJwt K) (blocklist : Blocklist K)
    (header : Text) (now : K),
    ∃ rejection, authenticateUser jwt blocklist (fun _ => lookup.active) header now =
      .error rejection

theorem Lookup.refused_of_inactive {lookup : Lookup} (inactive : lookup.active ≠ some true) :
    lookup.Refused := by
  intro K _ _ jwt blocklist header now
  unfold authenticateUser
  split
  · exact ⟨_, rfl⟩
  · split
    · exact ⟨_, rfl⟩
    · exact ⟨_, rfl⟩
    · rw [if_neg inactive]
      split <;> exact ⟨_, rfl⟩

/-- **Deactivation takes effect at once** where no active row is stored late: a request that
starts after `DELETE /profile` has responded is refused, with any token. -/
theorem refused_of_reach {s : State} (reached : Reach step NoLateStore State.Start s) :
    ∀ lookup ∈ s.lookups, lookup.user ∈ lookup.gone → lookup.Refused :=
  fun lookup member gone =>
    Lookup.refused_of_inactive ((inv_of_reach reached).lookups lookup member gone)

/-! ## Account 7 is deactivated -/

section Runs

def oneAccount : State where
  db :=
    { users := Function.update (fun _ => none) 7 (some ⟨hashPassword 0, true, none⟩)
      refreshTokens := fun _ => none
      resetTokens := fun _ => none
      minted := 0
      resetMinted := 0 }
  cache := fun _ => none
  pcs := fun _ => .idle
  deactivated := []
  lookups := []

theorem oneAccount_start : oneAccount.Start := ⟨fun _ => rfl, rfl, rfl⟩

/-- `DELETE /profile` by process 1, from its authentication to its response. -/
def deletion : List Action := .start 1 7 .deleteProfile :: List.replicate 6 (.advance 1)

theorem refused_of_reach_deletion : ∃ s, Reach step NoLateStore State.Start s ∧
    (⟨7, [7], some false⟩ : Lookup) ∈ s.lookups ∧
      ∀ lookup ∈ s.lookups, lookup.user ∈ lookup.gone → lookup.Refused := by
  obtain ⟨s, reached, facts⟩ := exists_reach_of_run step NoLateStore oneAccount_start
    (deletion ++ [.start 2 7 .other, .advance 2, .advance 2, .advance 2])
    (fun s => decide ((⟨7, [7], some false⟩ : Lookup) ∈ s.lookups)) (by decide)
  exact ⟨s, reached, of_decide_eq_true facts, refused_of_reach reached⟩

/-- A request that has read the row before the commit stores it after the deletion; the next
one is accepted. -/
theorem accepted_after_deactivation : ∃ s, Reach step Always State.Start s ∧
    ¬ ∀ lookup ∈ s.lookups, lookup.user ∈ lookup.gone → lookup.Refused := by
  obtain ⟨s, reached, facts⟩ := exists_reach_of_run step Always oneAccount_start
    ([.start 0 7 .other, .advance 0, .advance 0] ++ deletion ++ [.advance 0, .start 2 7 .other, .advance 2])
    (fun s => decide ((⟨7, [7], some true⟩ : Lookup) ∈ s.lookups)) (by decide)
  refine ⟨s, reached, fun refused => ?_⟩
  obtain ⟨rejection, rejected⟩ :=
    refused _ (of_decide_eq_true facts) (by simp) AccessToken.oneToken (fun _ => none)
      "Bearer t".toList 0
  have accepted : authenticateUser AccessToken.oneToken (fun _ => none)
      (fun _ => some true) "Bearer t".toList 0 =
      .ok (some 7) := by decide +kernel
  rw [accepted] at rejected
  cases rejected

end Runs

end Empyrean.Auth.UserCache
