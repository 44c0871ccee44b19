/-
# Empyrean.Auth.Tables — users, refresh tokens and password-reset tokens

The three tables behind `/auth/*` and `/profile/*`, the clock arithmetic of token
expiry, and the row predicates that the handlers put into their `WHERE` clauses.

Secrets are named by the order in which they are drawn: `generate_refresh_token` and
`make_password_reset_token` hash 48 or 64 fresh random bytes, so two draws never agree,
and the `n`-th digest drawn is the number `n`.  A client may present any number,
including one that was never issued.  User ids, token digests and passwords are
natural numbers, instants are integers.
-/
import Empyrean.Theory.RowStore

namespace Empyrean.Auth

set_option autoImplicit false

/-! ## Time, in microseconds since the epoch (UTC) -/

def secondUs : Int := 1000000
def minuteUs : Int := 60 * secondUs
def dayUs : Int := 86400 * secondUs

/-! ## The rows -/

/-- A bcrypt digest; `checkpw` tells exactly which password it was made from. -/
structure PasswordHash where
  password : Nat
  deriving DecidableEq, Repr

def hashPassword (password : Nat) : PasswordHash := ⟨password⟩

def checkpw (password : Nat) (hash : PasswordHash) : Bool :=
  decide (hash.password = password)

/-- `users`, by id (`username` and `email` are unique, so a lookup by either is one by id). -/
structure User where
  passwordHash : PasswordHash
  isActive : Bool
  lastLoginAt : Option Int
  deriving DecidableEq, Repr

/-- `refresh_tokens`, by token hash. -/
structure RefreshToken where
  userId : Nat
  expiresAt : Int
  revoked : Bool
  deriving DecidableEq, Repr

/-- `password_reset_tokens`, by token hash. -/
structure PasswordResetToken where
  userId : Nat
  expiresAt : Int
  usedAt : Option Int
  deriving DecidableEq, Repr

structure Config where
  jwtRefreshTokenExpiryDays : Nat
  passwordResetTokenExpiryMinutes : Nat

/-- `_refresh_expiry`: the sub-second part is dropped, then the configured days added. -/
def refreshExpiry (now : Int) (cfg : Config) : Int :=
  now - now % secondUs + cfg.jwtRefreshTokenExpiryDays * dayUs

/-- A freshly inserted refresh token; `revoked` takes the column default. -/
def newRefreshToken (cfg : Config) (user : Nat) (now : Int) : RefreshToken :=
  { userId := user, expiresAt := refreshExpiry now cfg, revoked := false }

def newResetToken (cfg : Config) (user : Nat) (now : Int) : PasswordResetToken :=
  { userId := user, expiresAt := now + cfg.passwordResetTokenExpiryMinutes * minuteUs, usedAt := none }

def RefreshToken.revoke (token : RefreshToken) : RefreshToken := { token with revoked := true }

/-- `WHERE revoked = false AND expires_at > now` of the claiming `UPDATE` in `refresh`. -/
def RefreshToken.claimable (now : Int) (token : RefreshToken) : Bool :=
  !token.revoked && decide (now < token.expiresAt)

/-- `WHERE user_id = user`. -/
def RefreshToken.ownedBy (user : Nat) (token : RefreshToken) : Bool := decide (token.userId = user)

/-- `WHERE user_id = user AND revoked = false`. -/
def RefreshToken.liveOf (user : Nat) (token : RefreshToken) : Bool :=
  token.ownedBy user && !token.revoked

/-- `WHERE user_id = user AND used_at IS NULL`. -/
def PasswordResetToken.unredeemedOf (user : Nat) (token : PasswordResetToken) : Bool :=
  decide (token.userId = user) && token.usedAt.isNone

/-- The check of `reset_password` on the locked row. -/
def PasswordResetToken.invalid (now : Int) (token : PasswordResetToken) : Bool :=
  token.usedAt.isSome || decide (token.expiresAt ≤ now)

@[simp] theorem RefreshToken.revoke_revoked (token : RefreshToken) :
    token.revoke.revoked = true := rfl
@[simp] theorem RefreshToken.revoke_userId (token : RefreshToken) :
    token.revoke.userId = token.userId := rfl

@[simp] theorem newRefreshToken_revoked (cfg : Config) (user : Nat) (now : Int) :
    (newRefreshToken cfg user now).revoked = false := rfl

@[simp] theorem newRefreshToken_userId (cfg : Config) (user : Nat) (now : Int) :
    (newRefreshToken cfg user now).userId = user := rfl

theorem RefreshToken.claimable_iff (now : Int) (token : RefreshToken) :
    token.claimable now = true ↔ token.revoked = false ∧ now < token.expiresAt := by
  simp [claimable]

theorem RefreshToken.liveOf_iff (user : Nat) (token : RefreshToken) :
    token.liveOf user = true ↔ token.userId = user ∧ token.revoked = false := by
  simp [liveOf, ownedBy]

end Empyrean.Auth
