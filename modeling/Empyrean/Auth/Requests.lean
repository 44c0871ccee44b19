/-
# Empyrean.Auth.Requests — the authentication endpoints, statement by statement

The requests of `Empyrean.Auth.Handlers` split at their SQL statements, so that any
number of them can interleave under READ COMMITTED.  A request is one transaction at a
time and is named by a number `t`; its `Pc` is the statement it executes next, with the
local variables it carries.  A statement over several rows is a scan, which takes the
snapshot, followed by one step per row; `pick` is the row that is visited next.

What the ORM does is part of the model: a changed attribute is written when the session
is flushed (before the next query, or at the commit), as an `UPDATE … WHERE id`, which
is evaluated on the newest version of the row.

* `step` — one statement of one request, or a request that arrives or dies.
* `History` — what happened so far, kept beside the tables and never read by a request.
-/
import Empyrean.Auth.Tables

namespace Empyrean.Auth.Requests

set_option autoImplicit false

open Empyrean.Theory Empyrean.Theory.RowStore

/-! ## The tables under row locks -/

structure Tables where
  users : Rows Nat Nat User
  refreshTokens : Rows Nat Nat RefreshToken
  resetTokens : Rows Nat Nat PasswordResetToken
  /-- Refresh tokens drawn so far. -/
  minted : Nat
  resetMinted : Nat

namespace Tables

def commit (tables : Tables) (t : Nat) : Tables :=
  { tables with
    users := RowStore.commit tables.users t
    refreshTokens := RowStore.commit tables.refreshTokens t
    resetTokens := RowStore.commit tables.resetTokens t }

def rollback (tables : Tables) (t : Nat) : Tables :=
  { tables with
    users := RowStore.rollback tables.users t
    refreshTokens := RowStore.rollback tables.refreshTokens t
    resetTokens := RowStore.rollback tables.resetTokens t }

/-- `session.add(RefreshToken(...))`, flushed. -/
def insertRefreshToken (tables : Tables) (t : Nat) (token : RefreshToken) : Tables :=
  { tables with
    refreshTokens := put tables.refreshTokens t tables.minted (some token)
    minted := tables.minted + 1 }

def insertResetToken (tables : Tables) (t : Nat) (token : PasswordResetToken) : Tables :=
  { tables with
    resetTokens := put tables.resetTokens t tables.resetMinted (some token)
    resetMinted := tables.resetMinted + 1 }

/-- One row of `UPDATE refresh_tokens SET revoked = true WHERE p`. -/
def revokeRow (tables : Tables) (t h : Nat) (p : RefreshToken → Bool) :
    Option (Tables × Option RefreshToken) :=
  (updateRow tables.refreshTokens t h p RefreshToken.revoke).map fun updated =>
    ({ tables with refreshTokens := updated.1 }, updated.2)

def updateUser (tables : Tables) (t user : Nat) (f : User → User) : Option (Tables × Option User) :=
  (updateRow tables.users t user (fun _ => true) f).map fun updated =>
    ({ tables with users := updated.1 }, updated.2)

def updateResetToken (tables : Tables) (t h : Nat) (p : PasswordResetToken → Bool)
    (f : PasswordResetToken → PasswordResetToken) : Option (Tables × Option PasswordResetToken) :=
  (updateRow tables.resetTokens t h p f).map fun updated =>
    ({ tables with resetTokens := updated.1 }, updated.2)

/-- The refresh tokens that match `p` in the snapshot of a statement of `t`. -/
def matching (tables : Tables) (t : Nat) (p : RefreshToken → Bool) : List Nat :=
  (List.range tables.minted).filter fun h => ((tables.refreshTokens h).read t).any p

def matchingResets (tables : Tables) (t : Nat) (p : PasswordResetToken → Bool) : List Nat :=
  (List.range tables.resetMinted).filter fun h => ((tables.resetTokens h).read t).any p

end Tables

/-! ## Where a request stands -/

inductive LoginPc
  | select (user password : Nat)
  /-- The flush of `user.last_login_at`. -/
  | touch (user : Nat)
  | commitTouch (user : Nat)
  | insert (user : Nat)
  | commit (user token : Nat)

inductive RefreshPc
  /-- The claiming `UPDATE`: its snapshot, then its one row. -/
  | claim (presented : Nat) (now : Int)
  | claimRow (presented : Nat) (now : Int)
  | selectOwner (presented user : Nat) (now : Int)
  | insert (presented user : Nat) (now : Int)
  | commit (presented user new : Nat)
  | commitInactive
  | detect (presented : Nat)
  /-- The theft response. -/
  | revokeAll (stolen : Nat)
  | revokeAllRow (stolen : Nat) (todo : List Nat)

inductive LogoutPc
  | select (presented : Nat)
  | revoke (presented : Nat)
  | commit

/-- The three endpoints that change the account and revoke every live token. -/
inductive Job
  | changePassword (new : Nat)
  | resetPassword (presented new : Nat) (now : Int)
  | deleteProfile

inductive ChangePc
  /-- `change_password` checks the current password in a session of its own. -/
  | verify (user current new : Nat)
  /-- `SELECT … FOR UPDATE` of the reset token: its snapshot, then its one row. -/
  | lockReset (presented new : Nat) (now : Int)
  | lockResetRow (presented new : Nat) (now : Int)
  | getUser (job : Job) (user : Nat)
  /-- The autoflush of the changed account, before the tokens are selected. -/
  | flushUser (job : Job) (user : Nat)
  | selectLive (job : Job) (user : Nat)
  /-- The flush of `rt.revoked = True` for each selected token. -/
  | revoke (job : Job) (user : Nat) (selected todo : List Nat)
  | commit (job : Job) (user : Nat) (selected : List Nat)

inductive ForgotPc
  | select (user : Nat)
  | supersede (user : Nat)
  | supersedeRow (user : Nat) (now : Int) (todo : List Nat)
  | insert (user : Nat)
  | commit (user token : Nat)

inductive Pc
  | idle
  | login (pc : LoginPc)
  | refresh (pc : RefreshPc)
  | logout (pc : LogoutPc)
  | change (pc : ChangePc)
  | forgot (pc : ForgotPc)
  | done

/-! ## What a step tells the history -/

inductive Event
  | silent
  /-- The password the client sent matched the user's row. -/
  | authenticated (user : Nat)
  /-- A login committed its token. -/
  | issued (user token : Nat)
  /-- A refresh committed: `presented` is revoked and `new` replaces it. -/
  | rotated (presented new : Nat)
  /-- A new password was committed. -/
  | credentialChanged (user : Nat)

structure History where
  /-- How many password changes each user has had. -/
  credential : Nat → Nat
  /-- The credential that request `t` was authenticated with. -/
  basis : Nat → Nat
  /-- The credential a token goes back to, through the rotations before it. -/
  issuedOn : Nat → Nat
  rotations : List (Nat × Nat)

def History.record (history : History) (t : Nat) : Event → History
  | .silent => history
  | .authenticated user =>
      { history with basis := Function.update history.basis t (history.credential user) }
  | .issued _ token =>
      { history with issuedOn := Function.update history.issuedOn token (history.basis t) }
  | .rotated presented new =>
      { history with
        issuedOn := Function.update history.issuedOn new (history.issuedOn presented)
        rotations := history.rotations ++ [(presented, new)] }
  | .credentialChanged user =>
      { history with
        credential := Function.update history.credential user (history.credential user + 1) }

/-! ## The statements of each endpoint -/

/-- After an ORM `UPDATE … WHERE id`.  A row that is gone raises `StaleDataError`, and
the session is rolled back. -/
def flushed {α : Type} (t : Nat) (next : Pc) (updated : Option (Tables × Option α)) :
    Option (Tables × Pc × Event) :=
  updated.map fun result =>
    match result with
    | (tables, some _) => (tables, next, .silent)
    | (tables, none) => (tables.rollback t, .done, .silent)

/-- `login` -/
def LoginPc.step (cfg : Config) (t : Nat) (tables : Tables) (now : Int) :
    LoginPc → Option (Tables × Pc × Event)
  | .select user password =>
      match (tables.users user).read t with
      | none => some (tables, .done, .silent)
      | some row =>
          if !checkpw password row.passwordHash then some (tables, .done, .silent)
          else if !row.isActive then some (tables, .done, .silent)
          else some (tables, .login (.touch user), .authenticated user)
  | .touch user =>
      flushed t (.login (.commitTouch user))
        (tables.updateUser t user fun row => { row with lastLoginAt := some now })
  | .commitTouch user => some (tables.commit t, .login (.insert user), .silent)
  | .insert user =>
      some (tables.insertRefreshToken t (newRefreshToken cfg user now),
        .login (.commit user tables.minted), .silent)
  | .commit user token => some (tables.commit t, .done, .issued user token)

/-- `refresh`; `now` is read once, before the first statement. -/
def RefreshPc.step (cfg : Config) (t : Nat) (tables : Tables) (pick : Nat) :
    RefreshPc → Option (Tables × Pc × Event)
  | .claim presented now =>
      match ((tables.refreshTokens presented).read t).filter (·.claimable now) with
      | some _ => some (tables, .refresh (.claimRow presented now), .silent)
      | none => some (tables, .refresh (.detect presented), .silent)
  | .claimRow presented now =>
      (tables.revokeRow t presented (·.claimable now)).map fun claimed =>
        match claimed with
        | (tables, some row) => (tables, .refresh (.selectOwner presented row.userId now), .silent)
        | (tables, none) => (tables, .refresh (.detect presented), .silent)
  | .selectOwner presented user now =>
      match (tables.users user).read t with
      | some owner =>
          if owner.isActive then some (tables, .refresh (.insert presented user now), .silent)
          else some (tables, .refresh .commitInactive, .silent)
      | none => some (tables, .refresh .commitInactive, .silent)
  | .insert presented user now =>
      some (tables.insertRefreshToken t (newRefreshToken cfg user now),
        .refresh (.commit presented user tables.minted), .silent)
  | .commit presented _ new => some (tables.commit t, .done, .rotated presented new)
  | .commitInactive => some (tables.commit t, .done, .silent)
  | .detect presented =>
      match ((tables.refreshTokens presented).read t).filter (·.revoked) with
      | some stolen => some (tables, .refresh (.revokeAll stolen.userId), .silent)
      | none => some (tables, .done, .silent)
  | .revokeAll stolen =>
      some (tables, .refresh (.revokeAllRow stolen (tables.matching t (·.ownedBy stolen))), .silent)
  | .revokeAllRow _ [] => some (tables.commit t, .done, .silent)
  | .revokeAllRow stolen (h :: todo) =>
      if pick ∈ h :: todo then
        (tables.revokeRow t pick (·.ownedBy stolen)).map fun updated =>
          (updated.1, .refresh (.revokeAllRow stolen ((h :: todo).erase pick)), .silent)
      else none

/-- `logout` -/
def LogoutPc.step (t : Nat) (tables : Tables) : LogoutPc → Option (Tables × Pc × Event)
  | .select presented =>
      match ((tables.refreshTokens presented).read t).filter (!·.revoked) with
      | some _ => some (tables, .logout (.revoke presented), .silent)
      | none => some (tables, .done, .silent)
  | .revoke presented => flushed t (.logout .commit) (tables.revokeRow t presented fun _ => true)
  | .commit => some (tables.commit t, .done, .silent)

/-- What the request writes to the account. -/
def Job.write : Job → User → User
  | .changePassword new, row => { row with passwordHash := hashPassword new }
  | .resetPassword _ new _, row => { row with passwordHash := hashPassword new }
  | .deleteProfile, row => { row with isActive := false }

/-- Only `reset_password` asks that the account is active. -/
def Job.admits : Job → User → Bool
  | .resetPassword _ _ _, row => row.isActive
  | _, _ => true

/-- No `UPDATE` is flushed for an attribute set to the value it has; two bcrypt digests
always differ. -/
def Job.dirties : Job → User → Bool
  | .deleteProfile, row => row.isActive
  | _, _ => true

def Job.event (user : Nat) : Job → Event
  | .deleteProfile => .silent
  | _ => .credentialChanged user

/-- `change_password`, `reset_password` and `delete_profile` -/
def ChangePc.step (t : Nat) (tables : Tables) (pick : Nat) : ChangePc → Option (Tables × Pc × Event)
  | .verify user current new =>
      match (tables.users user).read t with
      | none => some (tables, .done, .silent)
      | some row =>
          if !checkpw current row.passwordHash then some (tables, .done, .silent)
          else some (tables, .change (.getUser (.changePassword new) user), .silent)
  | .lockReset presented new now =>
      match (tables.resetTokens presented).read t with
      | none => some (tables, .done, .silent)
      | some _ => some (tables, .change (.lockResetRow presented new now), .silent)
  | .lockResetRow presented new now =>
      (tables.updateResetToken t presented (fun _ => true) id).map fun locked =>
        match locked with
        | (tables, some token) =>
            if token.invalid now then (tables.rollback t, .done, .silent)
            else (tables, .change (.getUser (.resetPassword presented new now) token.userId), .silent)
        | (tables, none) => (tables.rollback t, .done, .silent)
  | .getUser job user =>
      match (tables.users user).read t with
      | none => some (tables.rollback t, .done, .silent)
      | some row =>
          if !job.admits row then some (tables.rollback t, .done, .silent)
          else if job.dirties row then some (tables, .change (.flushUser job user), .silent)
          else some (tables, .change (.selectLive job user), .silent)
  | .flushUser job user => flushed t (.change (.selectLive job user))
      (tables.updateUser t user job.write)
  | .selectLive job user =>
      let selected := tables.matching t (·.liveOf user)
      some (tables, .change (.revoke job user selected selected), .silent)
  | .revoke job user selected [] =>
      match job with
      | .resetPassword presented _ now =>
          flushed t (.change (.commit job user selected))
            (tables.updateResetToken t presented (fun _ => true) fun token => { token with usedAt := some now })
      | _ => some (tables, .change (.commit job user selected), .silent)
  | .revoke job user selected (h :: todo) =>
      if pick ∈ h :: todo then
        flushed t (.change (.revoke job user selected ((h :: todo).erase pick)))
          (tables.revokeRow t pick fun _ => true)
      else none
  | .commit job user _ => some (tables.commit t, .done, job.event user)

/-- `forgot_password` -/
def ForgotPc.step (cfg : Config) (t : Nat) (tables : Tables) (now : Int) (pick : Nat) :
    ForgotPc → Option (Tables × Pc × Event)
  | .select user =>
      match ((tables.users user).read t).filter (·.isActive) with
      | none => some (tables, .done, .silent)
      | some _ => some (tables, .forgot (.supersede user), .silent)
  | .supersede user =>
      some (tables, .forgot (.supersedeRow user now (tables.matchingResets t (·.unredeemedOf user))), .silent)
  | .supersedeRow user _ [] => some (tables, .forgot (.insert user), .silent)
  | .supersedeRow user used (h :: todo) =>
      if pick ∈ h :: todo then
        (tables.updateResetToken t pick (·.unredeemedOf user) fun token => { token with usedAt := some used }).map
          fun updated =>
            (updated.1, .forgot (.supersedeRow user used ((h :: todo).erase pick)), .silent)
      else none
  | .insert user =>
      some (tables.insertResetToken t (newResetToken cfg user now),
        .forgot (.commit user tables.resetMinted), .silent)
  | .commit _ _ => some (tables.commit t, .done, .silent)

def Pc.step (cfg : Config) (t : Nat) (tables : Tables) (now : Int) (pick : Nat) :
    Pc → Option (Tables × Pc × Event)
  | .login pc => pc.step cfg t tables now
  | .refresh pc => pc.step cfg t tables pick
  | .logout pc => pc.step t tables
  | .change pc => pc.step t tables pick
  | .forgot pc => pc.step cfg t tables now pick
  | .idle | .done => none

/-! ## The system -/

inductive Request
  | login (user password : Nat)
  | refresh (presented : Nat) (now : Int)
  | logout (presented : Nat)
  | changePassword (user current new : Nat)
  | deleteProfile (user : Nat)
  | forgotPassword (user : Nat)
  | resetPassword (presented new : Nat) (now : Int)

def Request.start : Request → Pc
  | .login user password => .login (.select user password)
  | .refresh presented now => .refresh (.claim presented now)
  | .logout presented => .logout (.select presented)
  | .changePassword user current new => .change (.verify user current new)
  | .deleteProfile user => .change (.getUser .deleteProfile user)
  | .forgotPassword user => .forgot (.select user)
  | .resetPassword presented new now => .change (.lockReset presented new now)

inductive Act
  | submit (t : Nat) (request : Request)
  /-- The next statement of `t`; `now` is what its clock shows. -/
  | advance (t : Nat) (now : Int) (pick : Nat)
  /-- The connection is lost, or the database breaks a deadlock. -/
  | abort (t : Nat)

structure State where
  tables : Tables
  pcs : Nat → Pc
  history : History

def step (cfg : Config) (s : State) : Act → Option State
  | .submit t request =>
      match s.pcs t with
      | .idle => some { s with pcs := Function.update s.pcs t request.start }
      | _ => none
  | .advance t now pick =>
      (Pc.step cfg t s.tables now pick (s.pcs t)).map fun result =>
        { tables := result.1
          pcs := Function.update s.pcs t result.2.1
          history := s.history.record t result.2.2 }
  | .abort t => some { s with tables := s.tables.rollback t, pcs := Function.update s.pcs t .done }

/-- Nobody has a transaction open, digests that were not drawn yet are not stored, and
the live tokens of each user count as issued on the user's current password. -/
structure Start (s : State) : Prop where
  users : ∀ user, (s.tables.users user).held = none
  refreshTokens : ∀ h, (s.tables.refreshTokens h).held = none
  resetTokens : ∀ h, (s.tables.resetTokens h).held = none
  undrawn : ∀ h, s.tables.minted ≤ h → (s.tables.refreshTokens h).committed = none
  undrawnReset : ∀ h, s.tables.resetMinted ≤ h → (s.tables.resetTokens h).committed = none
  pcs : ∀ t, s.pcs t = .idle
  rotations : s.history.rotations = []
  issuedOn : ∀ h token, (s.tables.refreshTokens h).committed = some token → token.revoked = false →
    s.history.issuedOn h = s.history.credential token.userId

end Empyrean.Auth.Requests
