/-
# Empyrean.Auth.ProfileReads — what `GET /profile` returns after `PATCH /profile`

`GET /profile` returns the account that its authentication has looked up, from
`cache:user:{id}` for 30 seconds.  `change_password` deletes the key after its commit;
`update_profile` does not, and the lookup of the PATCH itself leaves the old values there.

* `step` — the requests of one account one after the other, with Redis up, and the time
  that passes between them.
* `Unpatched` — a `GET` does not find an entry that was stored before changes.
* `reads_current_iff` — the reads of a run are all current exactly when its `GET`s are so.
-/
import Empyrean.Auth.Profile
import Empyrean.Theory.Expiry
import Empyrean.Theory.Runs

namespace Empyrean.Auth.ProfileReads

set_option autoImplicit false
set_option linter.unusedSectionVars false

open Empyrean.Theory Empyrean.Theory.Runs
open Empyrean.Theory.Expiry (Expiring get_eq_some_iff)
open Empyrean.Theory.PyNumeral (Text)

/-! ## The account in the cache -/

/-- What `_serialise_user_for_cache` keeps of a row, `_cache_hit_to_user` gives back and
`_serialise_user` returns. -/
structure Profile (P : Type) where
  id : Nat
  username : Text
  email : Text
  role : Text
  isActive : Bool
  notificationPrefs : P
  lastLoginAt : Option Int
  createdAt : Int
  updatedAt : Int
  deriving DecidableEq

def serialiseUserForCache {P : Type} (user : Nat) (row : UserRow P) : Profile P :=
  { id := user
    username := row.username
    email := row.email
    role := row.role
    isActive := row.isActive
    notificationPrefs := row.notificationPrefs
    lastLoginAt := row.lastLoginAt
    createdAt := row.createdAt
    updatedAt := row.updatedAt }

/-- The three columns a PATCH may change. -/
structure Fields (P : Type) where
  username : Text
  email : Text
  notificationPrefs : P
  deriving DecidableEq

def rowFields {P : Type} (row : UserRow P) : Fields P :=
  ⟨row.username, row.email, row.notificationPrefs⟩

def Profile.fields {P : Type} (profile : Profile P) : Fields P :=
  ⟨profile.username, profile.email, profile.notificationPrefs⟩

/-- `_USER_CACHE_TTL_S` -/
def userCacheTtl : Int := 30 * secondUs

/-! ## The requests of one account -/

structure State (P : Type) where
  row : UserRow P
  /-- `cache:user:{id}` -/
  cache : Option (Expiring Int (Profile P))
  now : Int
  /-- The bodies committed since that entry was stored. -/
  since : List (UpdateProfileRequest P)
  /-- Every `GET /profile`: what it returned, and what was committed then. -/
  reads : List (Profile P × Fields P)

inductive Action (P : Type)
  | wait (elapsed : Nat)
  | getProfile
  /-- `conflict`: the new username or email is another account's. -/
  | updateProfile (data : UpdateProfileRequest P) (conflict : Bool) (elapsed : Nat)
  | login (username : Text) (password : Nat)
  | changePassword (currentPassword newPassword elapsed : Nat)

section System

variable {P : Type} [EmptyCollection P] [DecidableEq P] (user : Nat)

/-- The values after a body has been applied. -/
def Fields.patch (fields : Fields P) (data : UpdateProfileRequest P) : Fields P :=
  { username := data.username.getD fields.username
    email := data.email.getD fields.email
    notificationPrefs := data.prefs.getD fields.notificationPrefs }

/-- The entry that a lookup finds. -/
def live (s : State P) : Option (Profile P) :=
  (Expiry.get s.cache s.now).filter fun entry => decide (entry.id = user)

/-- `_get_user_cached` -/
def getUserCached (s : State P) : Profile P × State P :=
  match live user s with
  | some entry => (entry, s)
  | none =>
      (serialiseUserForCache user s.row,
        { s with
          cache := some ⟨serialiseUserForCache user s.row, s.now + userCacheTtl⟩, since := [] })

/-- `update_profile` after its authentication. -/
def commitProfile (s : State P) (data : UpdateProfileRequest P) (conflict : Bool) : State P :=
  if data.hasChanges then
    if data.touches s.row then
      if conflict then s
      else { s with row := data.write s.now s.row s.row, since := s.since ++ [data] }
    else s
  else s

/-- `change_password` after its authentication. -/
def commitPassword (s : State P) (currentPassword newPassword : Nat) : State P :=
  if checkpw currentPassword s.row.passwordHash then
    { s with
      row := { s.row with passwordHash := hashPassword newPassword, updatedAt := s.now }
      cache := none
      since := [] }
  else s

/-- One request; an inactive account is a 401. -/
def step (s : State P) : Action P → State P
  | .wait elapsed => { s with now := s.now + elapsed }
  | .getProfile =>
      let found := getUserCached user s
      if found.1.isActive then { found.2 with reads := (found.1, rowFields s.row) :: s.reads }
      else found.2
  | .updateProfile data conflict elapsed =>
      let found := getUserCached user s
      if found.1.isActive then commitProfile { found.2 with now := s.now + elapsed } data conflict
      else found.2
  | .login username password =>
      if s.row.username = username ∧ checkpw password s.row.passwordHash ∧ s.row.isActive then
        { s with row := { s.row with lastLoginAt := some s.now, updatedAt := s.now } }
      else s
  | .changePassword currentPassword newPassword elapsed =>
      let found := getUserCached user s
      if found.1.isActive then commitPassword { found.2 with now := s.now + elapsed } currentPassword newPassword
      else found.2

/-- The account is active, nothing of it is cached and nothing was read. -/
structure Start (s : State P) : Prop where
  active : s.row.isActive = true
  cache : s.cache = none
  reads : s.reads = []

/-- Every `GET` returned what was committed. -/
def Current (s : State P) : Prop := ∀ read ∈ s.reads, read.1.fields = read.2

/-- **The condition** on a `GET`: the bodies committed since the entry it finds was stored
leave what it shows as it is. -/
def Unpatched (s : State P) : Action P → Prop
  | .getProfile => ∀ entry ∈ live user s, s.since.foldl Fields.patch entry.fields = entry.fields
  | _ => True

instance (s : State P) (a : Action P) : Decidable (Unpatched user s a) := by
  unfold Unpatched
  split <;> infer_instance

/-! ## One request -/

/-- An entry is of the account and as active as it is, and lags by the bodies committed since. -/
structure Inv (s : State P) : Prop where
  active : s.row.isActive = true
  lags : ∀ entry expires, s.cache = some ⟨entry, expires⟩ →
    entry.isActive = true ∧ rowFields s.row = s.since.foldl Fields.patch entry.fields

variable {user : Nat} {s : State P}

theorem live_cached {entry : Profile P} (found : live user s = some entry) :
    ∃ expires, s.cache = some ⟨entry, expires⟩ := by
  obtain ⟨found, _⟩ := Option.filter_eq_some_iff.mp found
  obtain ⟨⟨_, expires⟩, stored, _, rfl⟩ := get_eq_some_iff.mp found
  exact ⟨expires, stored⟩

theorem fields_write (data : UpdateProfileRequest P) (now : Int) (row : UserRow P) :
    rowFields (data.write now row row) = (rowFields row).patch data := by
  rw [data.write_self]
  rfl

/-- What a lookup returns, and what it leaves. -/
theorem Inv.getUserCached (inv : Inv s) (user : Nat) :
    Inv (getUserCached user s).2 ∧ (ProfileReads.getUserCached user s).1.isActive = true := by
  unfold ProfileReads.getUserCached
  cases found : live user s with
  | some entry =>
      obtain ⟨expires, stored⟩ := live_cached found
      exact ⟨inv, (inv.lags entry expires stored).1⟩
  | none =>
      refine ⟨⟨inv.active, fun entry expires stored => ?_⟩, inv.active⟩
      cases stored
      exact ⟨inv.active, rfl⟩

theorem Inv.wait (inv : Inv s) (now : Int) : Inv { s with now := now } := ⟨inv.active, inv.lags⟩

theorem Inv.commitProfile (inv : Inv s) (data : UpdateProfileRequest P) (conflict : Bool) :
    Inv (commitProfile s data conflict) := by
  unfold ProfileReads.commitProfile
  split
  · split
    · split
      · exact inv
      · refine ⟨inv.active, fun entry expires stored => ?_⟩
        obtain ⟨active, lags⟩ := inv.lags entry expires stored
        refine ⟨active, ?_⟩
        calc rowFields (data.write s.now s.row s.row) = (rowFields s.row).patch data :=
              fields_write data s.now s.row
          _ = (s.since.foldl Fields.patch entry.fields).patch data := by rw [lags]
          _ = (s.since ++ [data]).foldl Fields.patch entry.fields := by rw [List.foldl_append]; rfl
    · exact inv
  · exact inv

theorem Inv.commitPassword (inv : Inv s) (currentPassword newPassword : Nat) :
    Inv (commitPassword s currentPassword newPassword) := by
  unfold ProfileReads.commitPassword
  split
  · exact ⟨inv.active, fun entry expires stored => by cases stored⟩
  · exact inv

theorem Inv.step (inv : Inv s) (a : Action P) : Inv (step user s a) := by
  obtain ⟨found, active⟩ := inv.getUserCached user
  cases a with
  | wait elapsed => exact inv.wait _
  | getProfile =>
      simp only [ProfileReads.step, active, if_true]
      exact ⟨found.active, found.lags⟩
  | updateProfile data conflict elapsed =>
      simp only [ProfileReads.step, active, if_true]
      exact (found.wait _).commitProfile data conflict
  | login username password =>
      simp only [ProfileReads.step]
      split
      · exact ⟨inv.active, inv.lags⟩
      · exact inv
  | changePassword currentPassword newPassword elapsed =>
      simp only [ProfileReads.step, active, if_true]
      exact (found.wait _).commitPassword currentPassword newPassword

/-! ## Reads -/

@[simp] theorem reads_getUserCached (s : State P) : (getUserCached user s).2.reads = s.reads := by
  unfold getUserCached
  split <;> rfl

@[simp] theorem reads_commitProfile (s : State P) (data : UpdateProfileRequest P)
    (conflict : Bool) : (commitProfile s data conflict).reads = s.reads := by
  unfold commitProfile
  split
  · split
    · split <;> rfl
    · rfl
  · rfl

@[simp] theorem reads_commitPassword (s : State P) (currentPassword newPassword : Nat) :
    (commitPassword s currentPassword newPassword).reads = s.reads := by
  unfold commitPassword
  split <;> rfl

/-- Nothing but a `GET` is recorded. -/
theorem reads_step {a : Action P} (other : a ≠ .getProfile) : (step user s a).reads = s.reads := by
  cases a with
  | getProfile => exact absurd rfl other
  | wait elapsed => rfl
  | updateProfile data conflict elapsed => simp only [step]; split <;> simp
  | login username password => simp only [step]; split <;> rfl
  | changePassword currentPassword newPassword elapsed => simp only [step]; split <;> simp

/-- **One `GET`** returns what is committed exactly when the bodies committed since the entry
it finds was stored have changed nothing of it. -/
theorem Inv.read_current_iff (inv : Inv s) :
    (ProfileReads.getUserCached user s).1.fields = rowFields s.row ↔
      Unpatched user s .getProfile := by
  unfold ProfileReads.getUserCached
  simp only [Unpatched]
  cases found : live user s with
  | none => exact iff_of_true rfl fun entry none => by cases none
  | some entry =>
      obtain ⟨expires, stored⟩ := live_cached found
      rw [(inv.lags entry expires stored).2]
      constructor
      · rintro same _ ⟨⟩
        exact same.symm
      · exact fun unpatched => (unpatched entry rfl).symm

theorem current_step_iff (inv : Inv s) (current : Current s) (a : Action P) :
    Current (step user s a) ↔ Unpatched user s a := by
  by_cases other : a = .getProfile
  · subst other
    have active := (inv.getUserCached user).2
    rw [← inv.read_current_iff]
    simp only [Current, step, active, if_true, List.forall_mem_cons]
    exact and_iff_left current
  · have quiet : Unpatched user s a := by
      cases a with
      | getProfile => exact absurd rfl other
      | _ => trivial
    refine iff_of_true (fun read member => current read ?_) quiet
    rwa [reads_step other] at member

theorem inv_start (start : Start s) : Inv s where
  active := start.active
  lags := fun entry expires stored => by
    rw [start.cache] at stored
    cases stored

/-- **Reads see the account's own writes** in exactly the runs whose `GET`s find no entry
from before a change. -/
theorem reads_current_iff (user : Nat) {s : State P} (start : Start s) (actions : List (Action P)) :
    (∀ taken, taken <+: actions → Current (taken.foldl (step user) s)) ↔
      ∀ taken a, taken ++ [a] <+: actions → Unpatched user (taken.foldl (step user) s) a := by
  refine all_good_iff (I := Inv) (fun s a inv => inv.step a)
    (fun s a inv current => current_step_iff inv current a)
    actions s (inv_start start) fun read member => ?_
  rw [start.reads] at member
  cases member

end System

/-! ## A new username -/

def bobOnly : State (List Nat) where
  row := bob
  cache := none
  now := 0
  since := []
  reads := []

theorem start_bobOnly : Start bobOnly := ⟨rfl, rfl, rfl⟩

/-- `{"username": "ada"}` -/
def rename : Action (List Nat) :=
  .updateProfile (profileBody (some ada) none ada_length ada_chars) false 0

/-- More than half a minute after the PATCH. -/
def later : List (Action (List Nat)) := [rename, .wait 30000001, .getProfile]

theorem reads_current_later :
    (later.foldl (step 7) bobOnly).reads.map (fun read => read.1.username) = [ada] ∧
      Current (later.foldl (step 7) bobOnly) := by
  refine ⟨by decide +kernel, (reads_current_iff 7 start_bobOnly later).mpr ?_ later List.prefix_rfl⟩
  intro taken a before
  match taken with
  | [] =>
      obtain rfl : a = rename := by simpa [later] using before
      trivial
  | [first] =>
      obtain ⟨rfl, rfl⟩ : first = rename ∧ a = .wait 30000001 := by simpa [later] using before
      trivial
  | [first, second] =>
      obtain ⟨rfl, rfl, rfl⟩ : first = rename ∧ second = .wait 30000001 ∧ a = .getProfile := by
        simpa [later] using before
      decide +kernel
  | first :: second :: third :: taken =>
      have long := before.length_le
      simp only [later, List.length_append, List.length_cons, List.length_nil] at long
      omega

/-- **Read at once**, the entry that the PATCH's own lookup has stored still has the old
username. -/
theorem stale_after_patch :
    ¬ ∀ (user : Nat) (s : State (List Nat)) (actions : List (Action (List Nat))), Start s →
        Current (actions.foldl (step user) s) := by
  intro current
  have reads := current 7 bobOnly [rename, .getProfile] start_bobOnly
  have same :=
    reads (serialiseUserForCache 7 bob, { rowFields bob with username := ada }) (by decide +kernel)
  exact absurd same (by decide)

end Empyrean.Auth.ProfileReads
