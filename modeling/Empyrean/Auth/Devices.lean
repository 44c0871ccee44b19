/-
# Empyrean.Auth.Devices — reuse detection seen by the devices of one user

`refresh` treats a revoked token that comes back as stolen and revokes everything the
user has.  This module runs the handlers of `Empyrean.Auth.Handlers` one request at a
time over any number of devices of one user, each of which presents to `/auth/refresh`
only the token it was issued last, and never one it has logged out itself
(`step` refuses anything else).  An *alarm* is a `refresh` that ends in `.reused`.

`revoked` does not record why a token was revoked.  A password change or reset on one
device revokes the tokens of all the others, and an honest device that then refreshes
raises the alarm, which revokes the tokens issued since (`alarm_after_password_change`).
That is the only way:

* `Fleet.Honest` — the invariant of runs in which no device refreshes with a token that
  predates the last credential change.
* `refresh_reused_iff` — in such a run the next refresh of a device raises the alarm
  exactly when a credential change has happened since the device got its token.
* `no_false_alarm` — so in those runs no alarm is ever raised.
-/
import Empyrean.Auth.Handlers
import Empyrean.Theory.Runs

namespace Empyrean.Auth.Devices

set_option autoImplicit false

open Empyrean.Theory.Runs

/-- One request, by a device where it matters which. -/
inductive Event
  | login (device password : Nat) (now : Int)
  | refresh (device : Nat) (now : Int)
  /-- Any token ever issued to the device, its current one or an older one. -/
  | logout (device token : Nat)
  | changePassword (current new : Nat)
  | resetPassword (presented new : Nat) (now : Int)
  | forgotPassword (account : Nat) (now : Int)

/-- The tables, what each device holds, and a record of the run. -/
structure Fleet where
  db : Db
  /-- The refresh token most recently issued to the device. -/
  held : Nat → Option Nat
  issued : Nat → List Nat
  loggedOut : Nat → List Nat
  /-- Successful password changes and resets of the user. -/
  changes : Nat
  /-- `changes` when the device's token was issued. -/
  heldSince : Nat → Nat
  alarms : Nat

def Fleet.issue (s : Fleet) (db : Db) (device token : Nat) : Fleet :=
  { s with
    db := db
    held := Function.update s.held device (some token)
    issued := Function.update s.issued device (token :: s.issued device)
    heldSince := Function.update s.heldSince device s.changes }

/-- The device presents the token it was issued last, and has not logged it out. -/
def Fleet.Presents (s : Fleet) (device token : Nat) : Prop :=
  s.held device = some token ∧ token ∉ s.loggedOut device

section Step

variable (cfg : Config) (user : Nat)

/-- The reset token belongs to the account the fleet is logged in to. -/
def resetsUser (db : Db) (presented : Nat) : Bool :=
  (db.resetTokens presented).any fun token => decide (token.userId = user)

def step (s : Fleet) : Event → Option Fleet
  | .login device password now =>
      match login cfg s.db user password now with
      | (db, .tokens _ token) => some (s.issue db device token)
      | (db, .status _) => some { s with db := db }
  | .refresh device now =>
      match s.held device with
      | none => none
      | some token =>
          if token ∈ s.loggedOut device then none
          else
            match refresh cfg s.db token now with
            | (db, .rotated new) => some (s.issue db device new)
            | (db, .reused) => some { s with db := db, alarms := s.alarms + 1 }
            | (db, _) => some { s with db := db }
  | .logout device token =>
      if token ∈ s.issued device then
        some { s with
          db := (logout s.db token).1
          loggedOut := Function.update s.loggedOut device (token :: s.loggedOut device) }
      else none
  | .changePassword current new =>
      match changePassword s.db user current new with
      | (db, .status 200) => some { s with db := db, changes := s.changes + 1 }
      | (db, _) => some { s with db := db }
  | .resetPassword presented new now =>
      match resetPassword s.db presented new now with
      | (db, .status 200) =>
          if resetsUser user s.db presented then some { s with db := db, changes := s.changes + 1 }
          else some { s with db := db }
      | (db, _) => some { s with db := db }
  | .forgotPassword account now => some { s with db := (forgotPassword cfg s.db account now).1 }

/-- No device holds a token yet; the tables are arbitrary. -/
def Start (s : Fleet) : Prop :=
  (∀ device, s.held device = none ∧ s.issued device = [] ∧ s.loggedOut device = []) ∧
    s.alarms = 0 ∧ ∀ device, s.heldSince device ≤ s.changes

/-- A device refreshes only if no password change or reset of the user has succeeded
since the device was issued the token it holds. -/
def NoChangeSinceIssue (s : Fleet) : Event → Prop
  | .refresh device _ => s.heldSince device = s.changes
  | _ => True

instance (s : Fleet) (e : Event) : Decidable (NoChangeSinceIssue s e) := by
  cases e <;> unfold NoChangeSinceIssue <;> infer_instance

end Step

/-! ## What each handler does to one token -/

section Handlers

variable (cfg : Config) (db : Db) (user : Nat) (now : Int)

/-- `is_active` is what it was. -/
def SameActivity (db db' : Db) : Prop :=
  ∀ account, (db'.users account).map (·.isActive) = (db.users account).map (·.isActive)

theorem sameActivity_setUser {db : Db} {user : Nat} {row : User} (row' : User)
    (found : db.users user = some row) (same : row'.isActive = row.isActive) :
    SameActivity db (db.setUser user row') := by
  intro account
  by_cases here : account = user
  · subst here
    simp [Db.setUser, found, same]
  · simp [Db.setUser, here]

theorem login_cases (password : Nat) :
    (login cfg db user password now = (db, .status 401)) ∨
      ∃ row, db.users user = some row ∧ row.isActive = true ∧
        login cfg db user password now =
          ((db.setUser user { row with lastLoginAt := some now }).addRefreshToken
            (newRefreshToken cfg user now), .tokens 201 db.minted) := by
  unfold login
  split
  · exact Or.inl rfl
  · rename_i row found
    split
    · exact Or.inl rfl
    · split
      · exact Or.inl rfl
      · rename_i active
        exact Or.inr ⟨row, found, by simpa using active, rfl⟩

/-- **What `refresh` can do**, by how it ends. -/
theorem refresh_cases (presented : Nat) :
    (∃ row owner, db.refreshTokens presented = some row ∧ row.revoked = false ∧
        db.users row.userId = some owner ∧ owner.isActive = true ∧
        refresh cfg db presented now =
          ((db.revokeWhere fun h _ => decide (h = presented)).addRefreshToken
            (newRefreshToken cfg row.userId now), .rotated db.minted)) ∨
      (∃ row, db.refreshTokens presented = some row ∧
        (∀ owner, db.users row.userId = some owner → owner.isActive = false) ∧
        refresh cfg db presented now =
          (db.revokeWhere fun h _ => decide (h = presented), .inactive)) ∨
      (∃ row, db.refreshTokens presented = some row ∧ row.revoked = true ∧
        refresh cfg db presented now =
          (db.revokeWhere fun _ token => token.ownedBy row.userId, .reused)) ∨
      ((∀ row, db.refreshTokens presented = some row → row.revoked = false) ∧
        refresh cfg db presented now = (db, .rejected)) := by
  unfold refresh
  split
  · rename_i row claims
    obtain ⟨found, claimable⟩ := Option.filter_eq_some_iff.mp claims
    have live := ((RefreshToken.claimable_iff now row).mp claimable).1
    have users : (db.revokeWhere fun h _ => decide (h = presented)).users = db.users := rfl
    simp only [users]
    split
    · rename_i owner owned
      split
      · rename_i active
        exact Or.inl ⟨row, owner, found, live, owned, active, rfl⟩
      · rename_i inactive
        refine Or.inr (Or.inl ⟨row, found, ?_, rfl⟩)
        intro other same
        rw [owned] at same
        cases same
        simpa using inactive
    · rename_i missing
      have noOwner : ∀ owner, db.users row.userId = some owner → owner.isActive = false := by
        intro owner owned
        rw [missing] at owned
        cases owned
      exact Or.inr (Or.inl ⟨row, found, noOwner, rfl⟩)
  · split
    · rename_i row detected
      obtain ⟨found, revoked⟩ := Option.filter_eq_some_iff.mp detected
      exact Or.inr (Or.inr (Or.inl ⟨row, found, revoked, rfl⟩))
    · rename_i undetected
      refine Or.inr (Or.inr (Or.inr ⟨?_, rfl⟩))
      intro row found
      have := Option.filter_eq_none_iff.mp undetected row found
      simpa using this

theorem logout_cases (presented : Nat) :
    (∃ row, db.refreshTokens presented = some row ∧ row.revoked = false ∧
        (logout db presented).1 = db.revokeWhere fun h _ => decide (h = presented)) ∨
      ((∀ row, db.refreshTokens presented = some row → row.revoked = true) ∧
        (logout db presented).1 = db) := by
  unfold logout
  split
  · rename_i row detected
    obtain ⟨found, live⟩ := Option.filter_eq_some_iff.mp detected
    exact Or.inl ⟨row, found, by simpa using live, rfl⟩
  · rename_i undetected
    refine Or.inr ⟨?_, rfl⟩
    intro row found
    have := Option.filter_eq_none_iff.mp undetected row found
    simpa using this

theorem changePassword_cases (current new : Nat) :
    (∃ code, code ≠ 200 ∧ changePassword db user current new = (db, .status code)) ∨
      ∃ row, db.users user = some row ∧
        changePassword db user current new =
          ((db.setUser user { row with passwordHash := hashPassword new }).revokeWhere
            fun _ token => token.liveOf user, .status 200) := by
  unfold changePassword
  split
  · exact Or.inl ⟨404, by decide, rfl⟩
  · rename_i row found
    split
    · exact Or.inl ⟨401, by decide, rfl⟩
    · exact Or.inr ⟨row, found, rfl⟩

theorem resetPassword_cases (presented new : Nat) :
    (resetPassword db presented new now = (db, .status 401)) ∨
      ∃ token row, db.resetTokens presented = some token ∧ db.users token.userId = some row ∧
        ∃ db', resetPassword db presented new now = (db', .status 200) ∧
          db'.minted = db.minted ∧
          db'.users =
            (db.setUser token.userId { row with passwordHash := hashPassword new }).users ∧
          db'.refreshTokens =
            (db.revokeWhere fun _ held => held.liveOf token.userId).refreshTokens := by
  unfold resetPassword
  split
  · exact Or.inl rfl
  · rename_i token valid
    split
    · exact Or.inl rfl
    · rename_i row active
      have found := (Option.filter_eq_some_iff.mp valid).1
      have owner := (Option.filter_eq_some_iff.mp active).1
      exact Or.inr ⟨token, row, found, owner, _, rfl, rfl, rfl, rfl⟩

theorem forgotPassword_tokens (account : Nat) :
    (forgotPassword cfg db account now).1.refreshTokens = db.refreshTokens ∧
      (forgotPassword cfg db account now).1.users = db.users ∧
      (forgotPassword cfg db account now).1.minted = db.minted := by
  unfold forgotPassword
  split <;> exact ⟨rfl, rfl, rfl⟩

end Handlers

/-! ## The invariant of honest runs -/

/-- What every state of a run under `NoChangeSinceIssue` looks like.  `stored` is the
point: a held token is revoked exactly if a credential change came after it or its own
device logged it out. -/
structure Fleet.Honest (user : Nat) (s : Fleet) : Prop where
  noAlarm : s.alarms = 0
  since : ∀ device, s.heldSince device ≤ s.changes
  below : ∀ device, ∀ h ∈ s.issued device, h < s.db.minted
  heldIssued : ∀ device h, s.held device = some h → h ∈ s.issued device
  outIssued : ∀ device, ∀ h ∈ s.loggedOut device, h ∈ s.issued device
  apart : ∀ device device' h, h ∈ s.issued device → h ∈ s.issued device' → device = device'
  active : ∀ device h, s.held device = some h → (s.db.users user).map (·.isActive) = some true
  stored : ∀ device h, s.held device = some h →
    ∃ token, s.db.refreshTokens h = some token ∧ token.userId = user ∧
      (token.revoked = true ↔ s.heldSince device < s.changes ∨ h ∈ s.loggedOut device)

section Runs

variable {cfg : Config} {user : Nat}

theorem honest_start {s : Fleet} (starts : Start s) : s.Honest user := by
  obtain ⟨noDevices, noAlarm, since⟩ := starts
  have noHeld : ∀ device h, s.held device ≠ some h := fun device h same => by
    rw [(noDevices device).1] at same
    cases same
  have noIssued : ∀ device h, h ∉ s.issued device :=
    fun device h => by simp [(noDevices device).2.1]
  exact
    { noAlarm := noAlarm
      since := since
      below := fun device h member => absurd member (noIssued device h)
      heldIssued := fun device h same => absurd same (noHeld device h)
      outIssued := fun device h member => by simp [(noDevices device).2.2] at member
      apart := fun device _ h member _ => absurd member (noIssued device h)
      active := fun device h same => absurd same (noHeld device h)
      stored := fun device h same => absurd same (noHeld device h) }

/-- New tables that leave every held token, and the activity of accounts, as they were. -/
theorem Fleet.Honest.same_tokens {s : Fleet} (honest : s.Honest user) {db : Db}
    (minted : db.minted = s.db.minted) (activity : SameActivity s.db db)
    (tokens : ∀ device h, s.held device = some h → db.refreshTokens h = s.db.refreshTokens h) :
    ({ s with db := db } : Fleet).Honest user where
  noAlarm := honest.noAlarm
  since := honest.since
  below := fun device h member => by simpa [minted] using honest.below device h member
  heldIssued := honest.heldIssued
  outIssued := honest.outIssued
  apart := honest.apart
  active := fun device h same => (activity user).trans (honest.active device h same)
  stored := fun device h same => by
    obtain ⟨token, found, rest⟩ := honest.stored device h same
    exact ⟨token, (tokens device h same).trans found, rest⟩

/-- A device is issued a fresh token, and the other devices' tokens are as they were. -/
theorem Fleet.Honest.issue {s : Fleet} (honest : s.Honest user) {db : Db} {device : Nat}
    (token : RefreshToken) (minted : db.minted = s.db.minted + 1) (activity : SameActivity s.db db)
    (active : (s.db.users user).map (·.isActive) = some true)
    (fresh : db.refreshTokens s.db.minted = some token) (owner : token.userId = user)
    (live : token.revoked = false)
    (others : ∀ device' h, device' ≠ device → s.held device' = some h →
      db.refreshTokens h = s.db.refreshTokens h) :
    (s.issue db device s.db.minted).Honest user where
  noAlarm := honest.noAlarm
  since := fun device' => by
    by_cases same : device' = device
    · subst same; simp [Fleet.issue]
    · simpa [Fleet.issue, same] using honest.since device'
  below := fun device' h member => by
    by_cases same : device' = device
    · subst same
      simp only [Fleet.issue, Function.update_self, List.mem_cons] at member
      rcases member with rfl | member
      · simp [Fleet.issue, minted]
      · have := honest.below _ h member
        simp only [Fleet.issue, minted]; omega
    · have := honest.below device' h (by simpa [Fleet.issue, same] using member)
      simp only [Fleet.issue, minted]; omega
  heldIssued := fun device' h holds => by
    by_cases same : device' = device
    · subst same
      simp only [Fleet.issue, Function.update_self, Option.some.injEq] at holds
      simp [Fleet.issue, holds]
    · have := honest.heldIssued device' h (by simpa [Fleet.issue, same] using holds)
      simpa [Fleet.issue, same] using this
  outIssued := fun device' h member => by
    have := honest.outIssued device' h member
    by_cases same : device' = device
    · subst same; simp [Fleet.issue, this]
    · simpa [Fleet.issue, same] using this
  apart := fun d d' h member member' => by
    have notFresh : ∀ e, s.db.minted ∉ s.issued e :=
      fun e fresh => Nat.lt_irrefl _ (honest.below e _ fresh)
    by_cases same : d = device <;> by_cases same' : d' = device
    · exact same.trans same'.symm
    · subst same
      simp only [Fleet.issue, Function.update_self, List.mem_cons] at member
      have member' : h ∈ s.issued d' := by simpa [Fleet.issue, same'] using member'
      rcases member with rfl | member
      · exact absurd member' (notFresh d')
      · exact honest.apart _ _ h member member'
    · subst same'
      simp only [Fleet.issue, Function.update_self, List.mem_cons] at member'
      have member : h ∈ s.issued d := by simpa [Fleet.issue, same] using member
      rcases member' with rfl | member'
      · exact absurd member (notFresh d)
      · exact honest.apart _ _ h member member'
    · exact honest.apart d d' h (by simpa [Fleet.issue, same] using member)
        (by simpa [Fleet.issue, same'] using member')
  active := fun _ _ _ => (activity user).trans active
  stored := fun device' h holds => by
    by_cases same : device' = device
    · subst same
      simp only [Fleet.issue, Function.update_self, Option.some.injEq] at holds
      subst holds
      have notOut : s.db.minted ∉ s.loggedOut device' := fun member =>
        Nat.lt_irrefl _ (honest.below _ _ (honest.outIssued _ _ member))
      exact ⟨token, fresh, owner, by simp [Fleet.issue, live, notOut]⟩
    · have holds : s.held device' = some h := by simpa [Fleet.issue, same] using holds
      obtain ⟨row, found, rest⟩ := honest.stored device' h holds
      refine ⟨row, (others device' h same holds).trans found, ?_⟩
      simpa [Fleet.issue, same] using rest

theorem sameActivity_refl (db : Db) : SameActivity db db := fun _ => rfl

/-- A row read back after `revokeWhere`, where the predicate spares it. -/
theorem revokeWhere_spares {db : Db} {p : Nat → RefreshToken → Bool} {h : Nat}
    {token : RefreshToken} (found : db.refreshTokens h = some token) (spared : p h token = false) :
    (db.revokeWhere p).refreshTokens h = db.refreshTokens h := by
  simp [revokeWhere_apply, found, spared]

/-- Reading an older token past an insert. -/
theorem addRefreshToken_older {db : Db} {h : Nat} (older : h < db.minted) (token : RefreshToken) :
    (db.addRefreshToken token).refreshTokens h = db.refreshTokens h := by
  simp [Db.addRefreshToken, Nat.ne_of_lt older]

theorem honest_login {s s' : Fleet} (honest : s.Honest user) {device password : Nat} {now : Int}
    (stepped : step cfg user s (.login device password now) = some s') : s'.Honest user := by
  simp only [step] at stepped
  rcases login_cases cfg s.db user now password with
    refused | ⟨row, found, active, accepted⟩
  · rw [refused] at stepped
    cases stepped
    exact honest
  · rw [accepted] at stepped
    cases stepped
    have activity : SameActivity s.db
        ((s.db.setUser user { row with lastLoginAt := some now }).addRefreshToken
          (newRefreshToken cfg user now)) :=
      sameActivity_setUser { row with lastLoginAt := some now } found rfl
    refine honest.issue (newRefreshToken cfg user now) rfl activity (by simp [found, active])
      ?_ rfl rfl ?_
    · simp [Db.addRefreshToken, Db.setUser]
    · intro device' h _ holds
      exact addRefreshToken_older (honest.below _ _ (honest.heldIssued _ _ holds)) _

/-- The refresh of a device that meets the condition rotates its token or finds it expired. -/
theorem honest_refresh {s s' : Fleet} (honest : s.Honest user) {device : Nat} {now : Int}
    (current : s.heldSince device = s.changes)
    (stepped : step cfg user s (.refresh device now) = some s') : s'.Honest user := by
  simp only [step] at stepped
  split at stepped
  · cases stepped
  · rename_i h holds
    split at stepped
    · cases stepped
    · rename_i kept
      obtain ⟨token, found, owner, revokedIff⟩ := honest.stored device h holds
      have live : token.revoked = false := by
        cases decided : token.revoked with
        | false => rfl
        | true =>
            rcases revokedIff.mp decided with older | out
            · omega
            · exact absurd out kept
      have active := honest.active device h holds
      rcases refresh_cases cfg s.db now h with
        ⟨row, account, found', _, _, _, rotated⟩ | ⟨row, found', inactive, _⟩ |
          ⟨row, found', revoked, _⟩ |
        ⟨_, rejected⟩
      · rw [rotated] at stepped
        cases stepped
        rw [found] at found'
        cases found'
        rw [owner]
        refine honest.issue (newRefreshToken cfg user now) rfl
          (sameActivity_refl _) active ?_ rfl rfl ?_
        · simp [Db.addRefreshToken, Db.revokeWhere]
        · intro device' h' different holds'
          have older := honest.below _ _ (honest.heldIssued _ _ holds')
          have apart : h' ≠ h := fun same => different
            (honest.apart _ _ h (same ▸ honest.heldIssued _ _ holds') (honest.heldIssued _ _ holds))
          obtain ⟨row', foundOther, _⟩ := honest.stored device' h' holds'
          rw [addRefreshToken_older (by simpa [Db.revokeWhere] using older)]
          exact revokeWhere_spares foundOther (by simp [apart])
      · rw [found] at found'
        cases found'
        rw [owner] at inactive
        obtain ⟨account, owned, isActive⟩ := Option.map_eq_some_iff.mp active
        rw [inactive account owned] at isActive
        cases isActive
      · rw [found] at found'
        cases found'
        rw [live] at revoked
        cases revoked
      · rw [rejected] at stepped
        cases stepped
        exact honest

theorem honest_logout {s s' : Fleet} (honest : s.Honest user) {device token : Nat}
    (stepped : step cfg user s (.logout device token) = some s') : s'.Honest user := by
  simp only [step] at stepped
  split at stepped
  · rename_i issued
    cases stepped
    have tables : (logout s.db token).1.users = s.db.users ∧
        (logout s.db token).1.minted = s.db.minted := by
      unfold logout
      split <;> exact ⟨rfl, rfl⟩
    have others : ∀ h row, h ≠ token → s.db.refreshTokens h = some row →
        (logout s.db token).1.refreshTokens h = s.db.refreshTokens h := by
      intro h row different found
      rcases logout_cases s.db token with ⟨_, _, _, revoked⟩ | ⟨_, same⟩
      · rw [revoked, revokeWhere_spares found (by simp [different])]
      · rw [same]
    have out : ∀ row, s.db.refreshTokens token = some row →
        ∃ row', (logout s.db token).1.refreshTokens token = some row' ∧ row'.userId = row.userId ∧
          row'.revoked = true := by
      intro row found
      rcases logout_cases s.db token with ⟨_, _, _, revoked⟩ | ⟨already, same⟩
      · rw [revoked]
        exact ⟨row.revoke, by simp [revokeWhere_apply, found], rfl, rfl⟩
      · rw [same]
        exact ⟨row, found, rfl, already row found⟩
    exact
      { noAlarm := honest.noAlarm
        since := honest.since
        below := fun device' h member => by simpa [tables.2] using honest.below device' h member
        heldIssued := honest.heldIssued
        outIssued := fun device' h member => by
          by_cases same : device' = device
          · subst same
            simp only [Function.update_self, List.mem_cons] at member
            rcases member with rfl | member
            · exact issued
            · exact honest.outIssued _ h member
          · exact honest.outIssued device' h (by simpa [same] using member)
        apart := honest.apart
        active := fun device' h holds => by simpa [tables.1] using honest.active device' h holds
        stored := fun device' h holds => by
          obtain ⟨row, found, owner, revokedIff⟩ := honest.stored device' h holds
          by_cases same : h = token
          · subst same
            have here : device' = device := honest.apart _ _ h (honest.heldIssued _ _ holds) issued
            subst here
            obtain ⟨row', found', owner', revoked⟩ := out row found
            exact ⟨row', found', owner'.trans owner, by simp [revoked]⟩
          · refine ⟨row, (others h row same found).trans found, owner, revokedIff.trans ?_⟩
            by_cases here : device' = device
            · subst here
              simp [same]
            · simp [here] }
  · cases stepped

/-- All live tokens of the user are revoked and the change is counted. -/
theorem Fleet.Honest.changed {s : Fleet} (honest : s.Honest user) {db : Db}
    (minted : db.minted = s.db.minted) (activity : SameActivity s.db db)
    (tokens : db.refreshTokens =
      (s.db.revokeWhere fun _ token => token.liveOf user).refreshTokens) :
    ({ s with db := db, changes := s.changes + 1 } : Fleet).Honest user where
  noAlarm := honest.noAlarm
  since := fun device => Nat.le_succ_of_le (honest.since device)
  below := fun device h member => by simpa [minted] using honest.below device h member
  heldIssued := honest.heldIssued
  outIssued := honest.outIssued
  apart := honest.apart
  active := fun device h holds => (activity user).trans (honest.active device h holds)
  stored := fun device h holds => by
    obtain ⟨token, found, owner, _⟩ := honest.stored device h holds
    refine ⟨if token.liveOf user then token.revoke else token,
      by simp [tokens, revokeWhere_apply, found], ?_, ?_⟩
    · split <;> simp [owner]
    · have before : s.heldSince device < s.changes + 1 := Nat.lt_succ_of_le (honest.since device)
      simp only [before, true_or, iff_true]
      split
      · rfl
      · rename_i spared
        rw [Bool.not_eq_true, ← Bool.not_eq_true, RefreshToken.liveOf_iff] at spared
        simpa [owner] using spared

theorem honest_changePassword {s s' : Fleet} (honest : s.Honest user) {current new : Nat}
    (stepped : step cfg user s (.changePassword current new) = some s') : s'.Honest user := by
  simp only [step] at stepped
  rcases changePassword_cases s.db user current new with
    ⟨code, refused, result⟩ | ⟨row, found, result⟩
  · rw [result] at stepped
    split at stepped
    · rename_i same
      simp only [Prod.mk.injEq, Reply.status.injEq] at same
      exact absurd same.2 refused
    · cases stepped
      rename_i same
      cases same
      exact honest
  · rw [result] at stepped
    cases stepped
    exact honest.changed rfl
      (sameActivity_setUser { row with passwordHash := hashPassword new } found rfl) rfl

theorem honest_resetPassword {s s' : Fleet} (honest : s.Honest user)
    {presented new : Nat} {now : Int}
    (stepped : step cfg user s (.resetPassword presented new now) = some s') : s'.Honest user := by
  simp only [step] at stepped
  rcases resetPassword_cases s.db now presented new with
    result | ⟨token, row, found, owned, db', result, minted, users, tokens⟩
  · rw [result] at stepped
    cases stepped
    exact honest
  · rw [result] at stepped
    have activity : SameActivity s.db db' := by
      intro account
      rw [users]
      exact sameActivity_setUser { row with passwordHash := hashPassword new } owned rfl account
    by_cases own : token.userId = user
    · have counted : resetsUser user s.db presented = true := by simp [resetsUser, found, own]
      simp only [counted, if_true] at stepped
      cases stepped
      exact honest.changed minted activity (by rw [tokens, own])
    · have foreign : resetsUser user s.db presented = false := by simp [resetsUser, found, own]
      simp only [foreign, Bool.false_eq_true, if_false] at stepped
      cases stepped
      apply honest.same_tokens minted activity
      intro device h holds
      obtain ⟨held, foundHeld, owner, _⟩ := honest.stored device h holds
      rw [tokens, revokeWhere_spares foundHeld]
      have different : ¬ held.userId = token.userId := fun same => own (same.symm.trans owner)
      simp [RefreshToken.liveOf, RefreshToken.ownedBy, different]

theorem honest_step {s s' : Fleet} {e : Event} (honest : s.Honest user)
    (meets : NoChangeSinceIssue s e) (stepped : step cfg user s e = some s') : s'.Honest user := by
  cases e with
  | login device password now => exact honest_login honest stepped
  | refresh device now => exact honest_refresh honest meets stepped
  | logout device token => exact honest_logout honest stepped
  | changePassword current new => exact honest_changePassword honest stepped
  | resetPassword presented new now => exact honest_resetPassword honest stepped
  | forgotPassword account now =>
      simp only [step, Option.some.injEq] at stepped
      subst stepped
      obtain ⟨tokens, users, minted⟩ := forgotPassword_tokens cfg s.db now account
      exact honest.same_tokens minted (fun account => by rw [users]) fun _ h _ => by rw [tokens]

theorem honest_of_reach {s : Fleet} (reached : Reach (step cfg user) NoChangeSinceIssue Start s) :
    s.Honest user :=
  reached.invariant (fun _ starts => honest_start starts)
    fun _ _ _ honest meets stepped => honest_step honest meets stepped

/-- **When an honest device raises the alarm**: exactly when a credential change came
after its token was issued. -/
theorem refresh_reused_iff {s : Fleet} (honest : s.Honest user) {device token : Nat} (now : Int)
    (presents : s.Presents device token) :
    (refresh cfg s.db token now).2 = .reused ↔ s.heldSince device < s.changes := by
  obtain ⟨row, found, owner, revokedIff⟩ := honest.stored device token presents.1
  have revoked : row.revoked = true ↔ s.heldSince device < s.changes := by
    simpa [presents.2] using revokedIff
  rw [← revoked]
  rcases refresh_cases cfg s.db now token with
    ⟨row', _, found', live, _, _, result⟩ | ⟨row', found', inactive, result⟩ |
      ⟨row', found', taken, result⟩ |
    ⟨live, result⟩
  · rw [found] at found'
    cases found'
    simp [result, live]
  · rw [found] at found'
    cases found'
    rw [owner] at inactive
    obtain ⟨account, owned, isActive⟩ :=
      Option.map_eq_some_iff.mp (honest.active device token presents.1)
    rw [inactive account owned] at isActive
    cases isActive
  · rw [found] at found'
    cases found'
    simp [result, taken]
  · simp [result, live row found]

/-- **No false alarm** in a run whose devices refresh only with tokens issued since the
last credential change; and in any state of it, presenting the held token raises the
alarm exactly when such a change has come in between. -/
theorem no_false_alarm {s : Fleet} (reached : Reach (step cfg user) NoChangeSinceIssue Start s) :
    s.alarms = 0 ∧
      ∀ device token now, s.Presents device token →
        ((refresh cfg s.db token now).2 = .reused ↔ s.heldSince device < s.changes) := by
  have honest := honest_of_reach reached
  exact ⟨honest.noAlarm, fun _ _ now presents => refresh_reused_iff honest now presents⟩

end Runs

/-! ## A run with an alarm -/

/-- User 0, active, with password 5; no token was ever issued. -/
def oneAccount : Fleet :=
  { db :=
      { users := fun user => if user = 0 then some ⟨hashPassword 5, true, none⟩ else none
        refreshTokens := fun _ => none
        resetTokens := fun _ => none
        minted := 0
        resetMinted := 0 }
    held := fun _ => none
    issued := fun _ => []
    loggedOut := fun _ => []
    changes := 0
    heldSince := fun _ => 0
    alarms := 0 }

def month : Config := ⟨30, 30⟩

theorem start_oneAccount : Start oneAccount :=
  ⟨fun _ => ⟨rfl, rfl, rfl⟩, rfl, fun _ => Nat.le_refl 0⟩

/-- Two devices log in, one of them rotates: no alarm, and its token would not raise one. -/
theorem no_false_alarm_twoDevices :
    ∃ s, Reach (step month 0) NoChangeSinceIssue Start s ∧ s.Presents 0 2 ∧ s.alarms = 0 ∧
      (refresh month s.db 2 8).2 ≠ .reused := by
  obtain ⟨s, reached, final⟩ :=
    exists_reach_of_run (step month 0) NoChangeSinceIssue start_oneAccount
      [.login 0 5 0, .login 1 5 3, .refresh 0 7]
      (fun s => decide (s.held 0 = some 2 ∧ 2 ∉ s.loggedOut 0 ∧ s.heldSince 0 = s.changes)) (by decide)
  obtain ⟨holds, kept, current⟩ := of_decide_eq_true final
  obtain ⟨noAlarm, exact⟩ := no_false_alarm reached
  refine ⟨s, reached, ⟨holds, kept⟩, noAlarm, ?_⟩
  intro reused
  have := (exact 0 2 8 ⟨holds, kept⟩).mp reused
  omega

/-- **The alarm after a password change**: device 0 changes the password, logs in again,
and device 1 then refreshes with the token it was issued before. -/
theorem alarm_after_password_change :
    ∃ s, Reach (step month 0) Always Start s ∧ s.alarms = 1 ∧
      (s.db.refreshTokens 2).map (·.revoked) = some true := by
  obtain ⟨s, reached, final⟩ :=
    exists_reach_of_run (step month 0) Always start_oneAccount
      [.login 0 5 0, .login 1 5 3, .changePassword 5 6, .login 0 6 7, .refresh 1 9]
      (fun s => decide (s.alarms = 1 ∧ (s.db.refreshTokens 2).map (·.revoked) = some true)) (by decide)
  exact ⟨s, reached, of_decide_eq_true final⟩

end Empyrean.Auth.Devices
