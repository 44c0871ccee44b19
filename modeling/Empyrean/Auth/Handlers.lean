/-
# Empyrean.Auth.Handlers — the authentication endpoints, one request at a time

`/auth/login`, `/auth/refresh`, `/auth/logout`, `/auth/forgot-password`,
`/auth/reset-password`, `/profile/change-password` and `DELETE /profile` as functions
of the committed tables, in the order of the source's statements.  Each returns the
tables after the request and what the client is told.  The interleaved model
(`Empyrean.Auth.Requests`) splits the same requests at their statements.
-/
import Empyrean.Auth.Tables

namespace Empyrean.Auth

set_option autoImplicit false

/-- The committed tables, with the number of secrets drawn so far. -/
structure Db where
  users : Nat → Option User
  refreshTokens : Nat → Option RefreshToken
  resetTokens : Nat → Option PasswordResetToken
  minted : Nat
  resetMinted : Nat

namespace Db

/-- `session.add(RefreshToken(...))` with a freshly drawn token. -/
def addRefreshToken (db : Db) (token : RefreshToken) : Db :=
  { db with refreshTokens := Function.update db.refreshTokens db.minted (some token), minted := db.minted + 1 }

/-- `UPDATE refresh_tokens SET revoked = true WHERE p`. -/
def revokeWhere (db : Db) (p : Nat → RefreshToken → Bool) : Db :=
  { db with
    refreshTokens := fun h =>
      (db.refreshTokens h).map fun token => if p h token then token.revoke else token }

def setUser (db : Db) (user : Nat) (row : User) : Db :=
  { db with users := Function.update db.users user (some row) }

end Db

/-- What the client learns from a handler. -/
inductive Reply
  /-- A token pair; the new refresh token is `token`. -/
  | tokens (status token : Nat)
  | status (code : Nat)
  deriving DecidableEq, Repr

/-- `login`: an unknown user, a wrong password and an inactive account are one 401. -/
def login (cfg : Config) (db : Db) (user password : Nat) (now : Int) : Db × Reply :=
  match db.users user with
  | none => (db, .status 401)
  | some row =>
      if !checkpw password row.passwordHash then (db, .status 401)
      else if !row.isActive then (db, .status 401)
      else
        let touched := db.setUser user { row with lastLoginAt := some now }
        (touched.addRefreshToken (newRefreshToken cfg user now), .tokens 201 touched.minted)

/-- How `refresh` ended.  Only `reused` is the theft response; the client cannot tell it
from the other two refusals. -/
inductive RefreshOutcome
  | rotated (token : Nat)
  | inactive
  | reused
  | rejected
  deriving DecidableEq, Repr

def RefreshOutcome.reply : RefreshOutcome → Reply
  | .rotated token => .tokens 200 token
  | _ => .status 401

/-- `refresh`, from the claiming `UPDATE … RETURNING` on. -/
def refresh (cfg : Config) (db : Db) (presented : Nat) (now : Int) : Db × RefreshOutcome :=
  match (db.refreshTokens presented).filter (·.claimable now) with
  | some row =>
      let claimed := db.revokeWhere fun h _ => decide (h = presented)
      match claimed.users row.userId with
      | some owner =>
          if owner.isActive then
            (claimed.addRefreshToken (newRefreshToken cfg row.userId now), .rotated claimed.minted)
          else (claimed, .inactive)
      | none => (claimed, .inactive)
  | none =>
      -- Reuse detection: the token exists and is already revoked.
      match (db.refreshTokens presented).filter (·.revoked) with
      | some stolen => (db.revokeWhere fun _ token => token.ownedBy stolen.userId, .reused)
      | none => (db, .rejected)

/-- `logout` always answers 204. -/
def logout (db : Db) (presented : Nat) : Db × Reply :=
  match (db.refreshTokens presented).filter (!·.revoked) with
  | some _ => (db.revokeWhere fun h _ => decide (h = presented), .status 204)
  | none => (db, .status 204)

/-- `change_password` of the authenticated `user`. -/
def changePassword (db : Db) (user current new : Nat) : Db × Reply :=
  match db.users user with
  | none => (db, .status 404)
  | some row =>
      if !checkpw current row.passwordHash then (db, .status 401)
      else
        ((db.setUser user { row with passwordHash := hashPassword new }).revokeWhere
          fun _ token => token.liveOf user, .status 200)

/-- `delete_profile` of the authenticated `user`: a soft delete. -/
def deleteProfile (db : Db) (user : Nat) : Db × Reply :=
  match db.users user with
  | none => (db, .status 404)
  | some row =>
      ((db.setUser user { row with isActive := false }).revokeWhere fun _ token => token.liveOf user,
        .status 200)

/-- `forgot_password` for the account of `user`: 202 whatever happens. -/
def forgotPassword (cfg : Config) (db : Db) (user : Nat) (now : Int) : Db × Reply :=
  match (db.users user).filter (·.isActive) with
  | none => (db, .status 202)
  | some _ =>
      let superseded := fun h => (db.resetTokens h).map fun token =>
        if token.unredeemedOf user then { token with usedAt := some now } else token
      ({ db with
          resetTokens :=
            Function.update superseded db.resetMinted (some (newResetToken cfg user now))
          resetMinted := db.resetMinted + 1 }, .status 202)

/-- `reset_password` with the presented reset token. -/
def resetPassword (db : Db) (presented new : Nat) (now : Int) : Db × Reply :=
  match (db.resetTokens presented).filter (!·.invalid now) with
  | none => (db, .status 401)
  | some token =>
      match (db.users token.userId).filter (·.isActive) with
      | none => (db, .status 401)
      | some row =>
          let changed :=
            (db.setUser token.userId { row with passwordHash := hashPassword new }).revokeWhere
              fun _ held => held.liveOf token.userId
          ({ changed with
              resetTokens := Function.update changed.resetTokens presented
                (some { token with usedAt := some now }) },
            .status 200)

theorem revokeWhere_apply (db : Db) (p : Nat → RefreshToken → Bool) (h : Nat) :
    (db.revokeWhere p).refreshTokens h =
      (db.refreshTokens h).map fun token => if p h token then token.revoke else token := rfl

end Empyrean.Auth
