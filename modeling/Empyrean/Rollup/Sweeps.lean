/-
# Empyrean.Rollup.Sweeps — the token cleanups, as a client sees them

`refresh_token_cleanup` and `password_reset_token_cleanup` delete rows beneath the
authentication endpoints every day.  A deleted reset token was used or had expired, so no
request could have redeemed it.  A deleted refresh token had expired, so no request could
have rotated it; but a revoked one still set off the theft detection of `/auth/refresh`, and
a deleted one does not.

* `sweepResets`, `sweepRefresh` — the cleanups on the committed tables; `sweepRefresh` takes
  any choice of expired rows, and `stored_cleanup` says which one `refreshTokenCleanup` makes.
* `Fresh` — what is asked of a run.  A request is one event, with the clock it has read before
  its first statement; no sweep may come between the two.
* `Swept` — the tables with and without the sweeps.
* `unswept_replies` — the replies are those of the run without the sweeps, unless a client
  presents a revoked refresh token that was deleted.
* `reset_sweeps_unobservable` — the sweeps of reset tokens alone cannot be noticed at all.
-/
import Empyrean.Auth.Handlers
import Empyrean.Rollup.RefreshTokenCleanup

namespace Empyrean.Rollup.Sweeps

set_option autoImplicit false

open Empyrean.Auth

/-! ## The sweeps -/

/-- `used_at IS NOT NULL OR expires_at < now()` -/
def spent (now : Int) (token : PasswordResetToken) : Bool :=
  token.usedAt.isSome || decide (token.expiresAt < now)

/-- `password_reset_token_cleanup` -/
def sweepResets (db : Db) (now : Int) : Db :=
  { db with resetTokens := fun h => (db.resetTokens h).filter fun token => !spent now token }

/-- A cleanup of `refresh_tokens`, whichever of the expired rows it takes. -/
def sweepRefresh (db : Db) (chosen : Nat → Bool) (now : Int) : Db :=
  { db with refreshTokens := fun h => (db.refreshTokens h).filter fun token => !(chosen h && decide (token.expiresAt < now)) }

/-- The table of `refresh_token_cleanup`, by digest. -/
def stored (table : RefreshTokens) (h : Nat) : Option RefreshToken :=
  (table.rows.find? fun t => decide (t.id = h)).map (·.toRefreshToken)

/-- **`refresh_token_cleanup` is such a sweep.** -/
theorem stored_cleanup (window : Theory.RowNumber.Window StoredToken.createdAt)
    (table : RefreshTokens) (now : Int) (h : Nat) :
    stored (refreshTokenCleanup window table now).1 h =
      (stored table h).filter fun token =>
        !(decide (h ∈ table.idsToDelete window now) && decide (token.expiresAt < now)) := by
  have rows : stored (refreshTokenCleanup window table now).1 h = (table.rows.find? fun t =>
      decide (t.id ∉ table.idsToDelete window now) && decide (t.id = h)).map
        (·.toRefreshToken) := by
    simp [stored, refreshTokenCleanup, RefreshTokens.delete, List.find?_filter]
  rw [rows, stored]
  by_cases taken : h ∈ table.idsToDelete window now
  · have missing : table.rows.find?
        (fun t => decide (t.id ∉ table.idsToDelete window now) && decide (t.id = h)) = none := by
      refine List.find?_eq_none.mpr fun t _ both => ?_
      simp only [Bool.and_eq_true, decide_eq_true_eq] at both
      exact both.1 (both.2 ▸ taken)
    rw [missing]
    cases found : table.rows.find? fun t => decide (t.id = h) with
    | none => rfl
    | some t =>
        have member := List.mem_of_find?_eq_some found
        have here : t.id = h := by simpa using List.find?_some found
        obtain ⟨n, numbered, _⟩ := (RefreshTokens.mem_idsToDelete member).mp (here ▸ taken)
        have expired := (RefreshTokens.mem_of_ranked numbered).2
        rw [Option.map_some, Option.filter_some, decide_eq_true taken, decide_eq_true expired]
        rfl
  · have same :
        (fun t : StoredToken => decide (t.id ∉ table.idsToDelete window now) && decide (t.id = h)) =
        fun t => decide (t.id = h) := by
      funext t
      by_cases here : t.id = h
      · simp [here, taken]
      · simp [here]
    rw [same]
    cases table.rows.find? fun t => decide (t.id = h) with
    | none => rfl
    | some t =>
        rw [Option.map_some, Option.filter_some, decide_eq_false taken]
        rfl

/-! ## Requests and sweeps -/

inductive Call
  | login (user password : Nat)
  | refresh (presented : Nat)
  | logout (presented : Nat)
  | changePassword (user current new : Nat)
  | deleteProfile (user : Nat)
  | forgotPassword (user : Nat)
  | resetPassword (presented new : Nat)

inductive Event
  | call (call : Call)
  | sweepResets
  | sweepRefresh (chosen : Nat → Bool)

/-- A whole request that has read the clock `now`. -/
def Call.serve (cfg : Config) (db : Db) (now : Int) : Call → Db × Reply
  | .login user password => Auth.login cfg db user password now
  | .refresh presented =>
      ((Auth.refresh cfg db presented now).1, (Auth.refresh cfg db presented now).2.reply)
  | .logout presented => Auth.logout db presented
  | .changePassword user current new => Auth.changePassword db user current new
  | .deleteProfile user => Auth.deleteProfile db user
  | .forgotPassword user => Auth.forgotPassword cfg db user now
  | .resetPassword presented new => Auth.resetPassword db presented new now

/-- The replies of a run, and the tables it leaves. -/
def replies (cfg : Config) : Db → List (Int × Event) → List Reply × Db
  | db, [] => ([], db)
  | db, (now, .call call) :: rest =>
      ((call.serve cfg db now).2 :: (replies cfg (call.serve cfg db now).1 rest).1,
        (replies cfg (call.serve cfg db now).1 rest).2)
  | db, (now, .sweepResets) :: rest => replies cfg (sweepResets db now) rest
  | db, (now, .sweepRefresh chosen) :: rest => replies cfg (sweepRefresh db chosen now) rest

def Event.isCall : Event → Bool
  | .call _ => true
  | _ => false

/-- The run without its sweeps. -/
def unswept (run : List (Int × Event)) : List (Int × Event) := run.filter (·.2.isCall)

/-- No sweep commits between a request's look at the clock and its statements: what a sweep before
the statements took for the time had come by the clock of the request. -/
def Fresh (run : List (Int × Event)) : Prop :=
  run.Pairwise fun event later => event.2.isCall = false → later.2.isCall = true → event.1 ≤ later.1

instance (run : List (Int × Event)) : Decidable (Fresh run) :=
  inferInstanceAs (Decidable (List.Pairwise _ _))

/-- No client presents a refresh token that a sweep has deleted after it was revoked: one that is
stored as revoked without the sweeps is stored with them. -/
def NoLostTheft (cfg : Config) : Db → Db → List (Int × Event) → Prop
  | _, _, [] => True
  | swept, db, (now, .call call) :: rest =>
      (∀ presented, call = .refresh presented →
        ∀ token ∈ db.refreshTokens presented, token.revoked = true →
        (swept.refreshTokens presented).isSome) ∧
        NoLostTheft cfg (call.serve cfg swept now).1 (call.serve cfg db now).1 rest
  | swept, db, (now, .sweepResets) :: rest => NoLostTheft cfg (sweepResets swept now) db rest
  | swept, db, (now, .sweepRefresh chosen) :: rest =>
      NoLostTheft cfg (sweepRefresh swept chosen now) db rest

/-! ## The tables with and without the sweeps -/

/-- A row of `swept` is the row of `db`, or is gone and had expired, or was used; refresh tokens
are gone only where `lossy`. -/
structure Swept (lossy : Prop) (now : Int) (swept db : Db) : Prop where
  users : swept.users = db.users
  minted : swept.minted = db.minted
  resetMinted : swept.resetMinted = db.resetMinted
  refreshTokens : ∀ h, swept.refreshTokens h = db.refreshTokens h ∨
    lossy ∧ swept.refreshTokens h = none ∧ ∃ token, db.refreshTokens h = some token ∧
      token.expiresAt < now
  resetTokens : ∀ h, swept.resetTokens h = db.resetTokens h ∨
    swept.resetTokens h = none ∧ ∃ token, db.resetTokens h = some token ∧ spent now token = true

section Tables

variable {lossy : Prop} {now now' : Int} {swept db : Db}

theorem Swept.refl (lossy : Prop) (now : Int) (db : Db) : Swept lossy now db db :=
  ⟨rfl, rfl, rfl, fun _ => .inl rfl, fun _ => .inl rfl⟩

theorem spent_mono {token : PasswordResetToken} (later : now ≤ now')
    (isSpent : spent now token = true) : spent now' token = true := by
  simp only [spent, Bool.or_eq_true, decide_eq_true_eq] at isSpent ⊢
  exact isSpent.imp_right fun past => past.trans_le later

theorem Swept.mono (same : Swept lossy now swept db) (later : now ≤ now') :
    Swept lossy now' swept db where
  users := same.users
  minted := same.minted
  resetMinted := same.resetMinted
  refreshTokens := fun h => (same.refreshTokens h).imp_right fun ⟨lost, gone, token, kept, past⟩ =>
    ⟨lost, gone, token, kept, past.trans_le later⟩
  resetTokens := fun h => (same.resetTokens h).imp_right fun ⟨gone, token, kept, isSpent⟩ =>
    ⟨gone, token, kept, spent_mono later isSpent⟩

/-- A sweep at `now'` takes what has gone by `now`. -/
theorem Swept.sweepResets (same : Swept lossy now swept db) (before : now' ≤ now) :
    Swept lossy now (Sweeps.sweepResets swept now') db where
  users := same.users
  minted := same.minted
  resetMinted := same.resetMinted
  refreshTokens := same.refreshTokens
  resetTokens := fun h => by
    simp only [Sweeps.sweepResets]
    rcases same.resetTokens h with kept | ⟨gone, rest⟩
    · cases row : db.resetTokens h with
      | none => simp [kept, row]
      | some token =>
          by_cases isSpent : spent now' token = true
          · exact .inr ⟨by simp [kept, row, isSpent], token, rfl, spent_mono before isSpent⟩
          · exact .inl (by simp [kept, row, isSpent])
    · exact .inr ⟨by simp [gone], rest⟩

theorem Swept.sweepRefresh (same : Swept lossy now swept db) (before : now' ≤ now) (lost : lossy)
    (chosen : Nat → Bool) : Swept lossy now (Sweeps.sweepRefresh swept chosen now') db where
  users := same.users
  minted := same.minted
  resetMinted := same.resetMinted
  refreshTokens := fun h => by
    simp only [Sweeps.sweepRefresh]
    rcases same.refreshTokens h with kept | ⟨_, gone, rest⟩
    · cases row : db.refreshTokens h with
      | none => simp [kept, row]
      | some token =>
          by_cases taken : (chosen h && decide (token.expiresAt < now')) = true
          · refine .inr ⟨lost, by rw [kept, row, Option.filter_some, taken]; rfl, token, rfl, ?_⟩
            exact (of_decide_eq_true (Bool.and_eq_true_iff.mp taken).2).trans_le before
          · exact .inl (by rw [kept, row, Option.filter_some, Bool.eq_false_iff.mpr taken]; rfl)
    · exact .inr ⟨lost, by simp [gone], rest⟩
  resetTokens := same.resetTokens

theorem Swept.setUser (same : Swept lossy now swept db) (user : Nat) (row : User) :
    Swept lossy now (swept.setUser user row) (db.setUser user row) where
  users := by rw [Db.setUser, Db.setUser, same.users]
  minted := same.minted
  resetMinted := same.resetMinted
  refreshTokens := same.refreshTokens
  resetTokens := same.resetTokens

theorem Swept.revokeWhere (same : Swept lossy now swept db) (p : Nat → RefreshToken → Bool) :
    Swept lossy now (swept.revokeWhere p) (db.revokeWhere p) where
  users := same.users
  minted := same.minted
  resetMinted := same.resetMinted
  refreshTokens := fun h => by
    rw [revokeWhere_apply, revokeWhere_apply]
    rcases same.refreshTokens h with kept | ⟨lost, gone, token, row, past⟩
    · exact .inl (by rw [kept])
    · refine .inr ⟨lost, by rw [gone]; rfl, if p h token then token.revoke else token, by rw [row]; rfl, ?_⟩
      split
      · exact past
      · exact past
  resetTokens := same.resetTokens

theorem Swept.addRefreshToken (same : Swept lossy now swept db) (token : RefreshToken) :
    Swept lossy now (swept.addRefreshToken token) (db.addRefreshToken token) where
  users := same.users
  minted := by rw [Db.addRefreshToken, Db.addRefreshToken, same.minted]
  resetMinted := same.resetMinted
  refreshTokens := fun h => by
    simp only [Db.addRefreshToken, same.minted]
    by_cases new : h = db.minted
    · subst new
      exact .inl (by simp)
    · simpa [new] using same.refreshTokens h
  resetTokens := same.resetTokens

/-- The token that `forgot_password` issues, with the earlier ones marked as used. -/
theorem Swept.issue (same : Swept lossy now swept db) (clock : Int) (user : Nat)
    (token : PasswordResetToken) :
    let superseded := fun (db : Db) h => (db.resetTokens h).map fun token =>
      if token.unredeemedOf user then { token with usedAt := some clock } else token
    Swept lossy now
      { swept with
        resetTokens := Function.update (superseded swept) swept.resetMinted (some token)
        resetMinted := swept.resetMinted + 1 }
      { db with
        resetTokens := Function.update (superseded db) db.resetMinted (some token)
        resetMinted := db.resetMinted + 1 } where
  users := same.users
  minted := same.minted
  resetMinted := by rw [same.resetMinted]
  refreshTokens := same.refreshTokens
  resetTokens := fun h => by
    simp only [same.resetMinted]
    by_cases new : h = db.resetMinted
    · subst new
      exact .inl (by simp)
    · rcases same.resetTokens h with kept | ⟨gone, row, stays, isSpent⟩
      · exact .inl (by simp [new, kept])
      · refine .inr ⟨by simp [new, gone], _,
          by simp only [Function.update_of_ne new, stays, Option.map_some]; rfl, ?_⟩
        split
        · simp [spent]
        · exact isSpent

/-- The token that `reset_password` redeems. -/
theorem Swept.redeem (same : Swept lossy now swept db) (h : Nat) (token : PasswordResetToken) :
    Swept lossy now { swept with resetTokens := Function.update swept.resetTokens h (some token) }
      { db with resetTokens := Function.update db.resetTokens h (some token) } where
  users := same.users
  minted := same.minted
  resetMinted := same.resetMinted
  refreshTokens := same.refreshTokens
  resetTokens := fun h' => by
    by_cases here : h' = h
    · subst here
      exact .inl (by simp)
    · simpa [here] using same.resetTokens h'

end Tables

/-! ## One request -/

section Requests

variable {lossy : Prop} {cfg : Config} {now clock : Int} {swept db : Db}

theorem Swept.login (same : Swept lossy now swept db) (user password : Nat) :
    (Auth.login cfg swept user password clock).2 = (Auth.login cfg db user password clock).2 ∧
      Swept lossy now (Auth.login cfg swept user password clock).1
        (Auth.login cfg db user password clock).1 := by
  unfold Auth.login
  rw [same.users]
  split
  · exact ⟨rfl, same⟩
  · split
    · exact ⟨rfl, same⟩
    · split
      · exact ⟨rfl, same⟩
      · exact ⟨congrArg (Reply.tokens 201) same.minted, (same.setUser ..).addRefreshToken _⟩

theorem revokeWhere_gone {presented : Nat} (gone : db.refreshTokens presented = none) :
    db.revokeWhere (fun h _ => decide (h = presented)) = db := by
  have rows : (db.revokeWhere fun h _ => decide (h = presented)).refreshTokens =
      db.refreshTokens := by
    funext h
    rw [revokeWhere_apply]
    by_cases here : h = presented
    · rw [here, gone]
      rfl
    · cases db.refreshTokens h <;> simp [here]
  exact congrArg (fun tokens => ({ db with refreshTokens := tokens } : Db)) rows

theorem Swept.logout (same : Swept lossy now swept db) (presented : Nat) :
    (Auth.logout swept presented).2 = (Auth.logout db presented).2 ∧
      Swept lossy now (Auth.logout swept presented).1 (Auth.logout db presented).1 := by
  have status : ∀ db : Db, (Auth.logout db presented).2 = .status 204 := by
    intro db
    unfold Auth.logout
    split <;> rfl
  refine ⟨(status swept).trans (status db).symm, ?_⟩
  rcases same.refreshTokens presented with kept | ⟨_, gone, token, row, past⟩
  · unfold Auth.logout
    rw [kept]
    split
    · exact same.revokeWhere _
    · exact same
  · -- without the sweep the expired row may still be revoked
    have still : (Auth.logout swept presented).1 = swept := by
      unfold Auth.logout
      rw [gone]
      rfl
    rw [still]
    unfold Auth.logout
    split
    · have revoked := same.revokeWhere fun h _ => decide (h = presented)
      rwa [revokeWhere_gone gone] at revoked
    · exact same

theorem Swept.changePassword (same : Swept lossy now swept db) (user current new : Nat) :
    (Auth.changePassword swept user current new).2 = (Auth.changePassword db user current new).2 ∧
      Swept lossy now (Auth.changePassword swept user current new).1
        (Auth.changePassword db user current new).1 := by
  unfold Auth.changePassword
  rw [same.users]
  split
  · exact ⟨rfl, same⟩
  · split
    · exact ⟨rfl, same⟩
    · exact ⟨rfl, (same.setUser ..).revokeWhere _⟩

theorem Swept.deleteProfile (same : Swept lossy now swept db) (user : Nat) :
    (Auth.deleteProfile swept user).2 = (Auth.deleteProfile db user).2 ∧
      Swept lossy now (Auth.deleteProfile swept user).1 (Auth.deleteProfile db user).1 := by
  unfold Auth.deleteProfile
  rw [same.users]
  split
  · exact ⟨rfl, same⟩
  · exact ⟨rfl, (same.setUser ..).revokeWhere _⟩

theorem Swept.forgotPassword (same : Swept lossy now swept db) (user : Nat) :
    (Auth.forgotPassword cfg swept user clock).2 = (Auth.forgotPassword cfg db user clock).2 ∧
      Swept lossy now (Auth.forgotPassword cfg swept user clock).1
        (Auth.forgotPassword cfg db user clock).1 := by
  have account : (swept.users user).filter (·.isActive) = (db.users user).filter (·.isActive) := by
    rw [same.users]
  unfold Auth.forgotPassword
  rw [account]
  split
  · exact ⟨rfl, same⟩
  · exact ⟨rfl, same.issue clock user _⟩

theorem Swept.resetPassword (same : Swept lossy now swept db) (later : now ≤ clock)
    (presented new : Nat) : (Auth.resetPassword swept presented new clock).2 =
      (Auth.resetPassword db presented new clock).2 ∧
      Swept lossy now (Auth.resetPassword swept presented new clock).1
        (Auth.resetPassword db presented new clock).1 := by
  rcases same.resetTokens presented with kept | ⟨gone, token, row, isSpent⟩
  · unfold Auth.resetPassword
    rw [kept, same.users]
    split
    · exact ⟨rfl, same⟩
    · rename_i token
      split
      · exact ⟨rfl, same⟩
      · exact ⟨rfl, ((same.setUser ..).revokeWhere _).redeem presented _⟩
  · have refused : (db.resetTokens presented).filter (!·.invalid clock) = none := by
      have invalid : token.invalid clock = true := by
        simp only [spent, PasswordResetToken.invalid, Bool.or_eq_true, decide_eq_true_eq]
          at isSpent ⊢
        exact isSpent.imp_right fun past => past.le.trans later
      rw [row, Option.filter_some, invalid]
      rfl
    unfold Auth.resetPassword
    rw [gone, refused]
    exact ⟨rfl, same⟩

theorem Swept.refresh (same : Swept lossy now swept db) (later : now ≤ clock) (cfg : Config)
    (presented : Nat) (kept : ∀ token ∈ db.refreshTokens presented, token.revoked = true →
      (swept.refreshTokens presented).isSome) :
    (Auth.refresh cfg swept presented clock).2 = (Auth.refresh cfg db presented clock).2 ∧
      Swept lossy now (Auth.refresh cfg swept presented clock).1
        (Auth.refresh cfg db presented clock).1 := by
  rcases same.refreshTokens presented with here | ⟨_, gone, token, row, past⟩
  · unfold Auth.refresh
    rw [here]
    split
    · rename_i token
      have claimed := same.revokeWhere fun h _ => decide (h = presented)
      simp only [claimed.users]
      split
      · split
        · exact ⟨congrArg RefreshOutcome.rotated claimed.minted, claimed.addRefreshToken _⟩
        · exact ⟨rfl, claimed⟩
      · exact ⟨rfl, claimed⟩
    · split
      · exact ⟨rfl, same.revokeWhere _⟩
      · exact ⟨rfl, same⟩
  · have unrevoked : token.revoked = false := by
      by_contra revoked
      have there := kept token row (by simpa using revoked)
      rw [gone] at there
      cases there
    have unclaimable : token.claimable clock = false := by
      simp [RefreshToken.claimable, past.le.trans later]
    unfold Auth.refresh
    rw [gone, row, Option.filter_some, Option.filter_some, unclaimable, unrevoked]
    exact ⟨rfl, same⟩

/-- **One request**: the same reply, and the tables stay alike. -/
theorem Swept.serve (same : Swept lossy now swept db) (later : now ≤ clock) (cfg : Config)
    (call : Call) (kept : ∀ presented, call = .refresh presented →
      ∀ token ∈ db.refreshTokens presented, token.revoked = true →
      (swept.refreshTokens presented).isSome) :
    (call.serve cfg swept clock).2 = (call.serve cfg db clock).2 ∧
      Swept lossy now (call.serve cfg swept clock).1 (call.serve cfg db clock).1 := by
  cases call with
  | login user password => exact same.login user password
  | refresh presented =>
      obtain ⟨outcome, after⟩ := same.refresh later cfg presented (kept presented rfl)
      exact ⟨congrArg RefreshOutcome.reply outcome, after⟩
  | logout presented => exact same.logout presented
  | changePassword user current new => exact same.changePassword user current new
  | deleteProfile user => exact same.deleteProfile user
  | forgotPassword user => exact same.forgotPassword user
  | resetPassword presented new => exact same.resetPassword later presented new

end Requests

/-! ## Runs -/

section Run

variable {lossy : Prop} {cfg : Config}

/-- With and without the sweeps, from tables that are alike.  `now` is the latest that a sweep has
taken for the time so far. -/
theorem Swept.replies :
    ∀ {run : List (Int × Event)} {now : Int} {swept db : Db}, Swept lossy now swept db →
    (∀ event ∈ run, event.2.isCall = true → now ≤ event.1) → Fresh run →
    (∀ event ∈ run, ∀ chosen, event.2 = .sweepRefresh chosen → lossy) →
      NoLostTheft cfg swept db run →
      (Sweeps.replies cfg swept run).1 = (Sweeps.replies cfg db (unswept run)).1 ∧
        (Sweeps.replies cfg swept run).2.users = (Sweeps.replies cfg db (unswept run)).2.users
  | [], _, _, _, same, _, _, _, _ => ⟨rfl, same.users⟩
  | (now', event) :: rest, now, swept, db, same, later, fresh, loses, told => by
      obtain ⟨first, fresh'⟩ := List.pairwise_cons.mp fresh
      have after : ∀ event ∈ rest, event.2.isCall = true → now ≤ event.1 :=
        fun event member => later event (.tail _ member)
      have passed : event.isCall = false → ∀ event ∈ rest, event.2.isCall = true →
          max now now' ≤ event.1 :=
        fun sweep event member call =>
          max_le (after event member call) (first event member sweep call)
      have loses' : ∀ event ∈ rest, ∀ chosen, event.2 = .sweepRefresh chosen → lossy :=
        fun event member => loses event (.tail _ member)
      have same' := same.mono (le_max_left now now')
      cases event with
      | call call =>
          obtain ⟨kept, told⟩ := told
          obtain ⟨reply, same'⟩ := same.serve (later _ (.head _) rfl) cfg call kept
          obtain ⟨replies, users⟩ := same'.replies after fresh' loses' told
          exact ⟨congrArg₂ List.cons reply replies, users⟩
      | sweepResets =>
          exact (same'.sweepResets (le_max_right now now')).replies (passed rfl) fresh' loses' told
      | sweepRefresh chosen =>
          have lost := loses _ (.head _) chosen rfl
          exact (same'.sweepRefresh (le_max_right now now') lost chosen).replies
            (passed rfl) fresh' loses' told

/-- A run starts at some time. -/
theorem exists_start (run : List (Int × Event)) :
    ∃ now, ∀ event ∈ run, event.2.isCall = true → now ≤ event.1 := by
  induction run with
  | nil => exact ⟨0, by simp⟩
  | cons event rest ih =>
      obtain ⟨now, later⟩ := ih
      refine ⟨min event.1 now, fun event' member call => ?_⟩
      rcases List.mem_cons.mp member with rfl | among
      · exact min_le_left _ _
      · exact (min_le_right _ _).trans (later event' among call)

/-- **The sweeps go unnoticed**, and leave the accounts alone, where none comes between a request's
look at the clock and its statements, unless a client presents a revoked refresh token that was
deleted. -/
theorem unswept_replies {db : Db} {run : List (Int × Event)} (fresh : Fresh run)
    (told : NoLostTheft cfg db db run) : (replies cfg db run).1 = (replies cfg db (unswept run)).1 ∧
      (replies cfg db run).2.users = (replies cfg db (unswept run)).2.users := by
  obtain ⟨now, later⟩ := exists_start run
  exact (Swept.refl True now db).replies later fresh (fun _ _ _ _ => trivial) told

/-- Where no refresh token is swept, none is missing. -/
theorem noLostTheft_of_kept :
    ∀ {run : List (Int × Event)} {now : Int} {swept db : Db}, Swept False now swept db →
    (∀ event ∈ run, event.2.isCall = true → now ≤ event.1) → Fresh run →
    (∀ event ∈ run, ∀ chosen, event.2 ≠ .sweepRefresh chosen) → NoLostTheft cfg swept db run
  | [], _, _, _, _, _, _, _ => trivial
  | (now', event) :: rest, now, swept, db, same, later, fresh, none_swept => by
      obtain ⟨first, fresh'⟩ := List.pairwise_cons.mp fresh
      have after : ∀ event ∈ rest, event.2.isCall = true → now ≤ event.1 :=
        fun event member => later event (.tail _ member)
      have none_swept' : ∀ event ∈ rest, ∀ chosen, event.2 ≠ .sweepRefresh chosen :=
        fun event member => none_swept event (.tail _ member)
      have kept : ∀ presented, ∀ token ∈ db.refreshTokens presented,
          (swept.refreshTokens presented).isSome := by
        intro presented token row
        rcases same.refreshTokens presented with here | ⟨lost, _⟩
        · rw [here, row]
          rfl
        · exact lost.elim
      cases event with
      | call call =>
          refine ⟨fun presented _ token row _ => kept presented token row, ?_⟩
          have same' := (same.serve (later _ (.head _) rfl) cfg call fun presented _ token row _ =>
            kept presented token row).2
          exact noLostTheft_of_kept same' after fresh' none_swept'
      | sweepResets =>
          have same' : Swept False (max now now') (Sweeps.sweepResets swept now') db :=
            (same.mono (le_max_left now now')).sweepResets (le_max_right now now')
          show NoLostTheft cfg (Sweeps.sweepResets swept now') db rest
          exact noLostTheft_of_kept same'
            (fun event member call => max_le (after event member call) (first event member rfl call)) fresh' none_swept'
      | sweepRefresh chosen => exact absurd rfl (none_swept _ (.head _) chosen)

/-- **`password_reset_token_cleanup` cannot be noticed**: where no sweep comes between a request's
look at the clock and its statements, every reply is the one that would have been given without it. -/
theorem reset_sweeps_unobservable {db : Db} {run : List (Int × Event)} (fresh : Fresh run)
    (only : ∀ event ∈ run, ∀ chosen, event.2 ≠ .sweepRefresh chosen) :
    (replies cfg db run).1 = (replies cfg db (unswept run)).1 := by
  obtain ⟨now, later⟩ := exists_start run
  have same := Swept.refl False now db
  exact (same.replies later fresh (fun event member chosen swept => only event member chosen swept)
    (noLostTheft_of_kept same later fresh only)).1

end Run

/-! ## A month later -/

def thirty : Config := ⟨30, 30⟩

/-- One account, with the password 5. -/
def oneAccount : Db where
  users := fun user => if user = 0 then some ⟨hashPassword 5, true, none⟩ else none
  refreshTokens := fun _ => none
  resetTokens := fun _ => none
  minted := 0
  resetMinted := 0

/-- The refresh token expires and is swept before it is presented, the reset token after it was
redeemed and before it is presented again. -/
def monthLater : List (Int × Event) :=
  [(0, .call (.login 0 5)), (31 * dayUs, .sweepRefresh fun _ => true),
    (31 * dayUs, .call (.refresh 0)),
    (31 * dayUs, .call (.forgotPassword 0)), (31 * dayUs, .call (.resetPassword 0 7)),
      (31 * dayUs, .sweepResets),
    (31 * dayUs, .call (.resetPassword 0 8)), (31 * dayUs, .call (.login 0 7))]

theorem unswept_replies_month :
    (replies thirty oneAccount monthLater).1 = (replies thirty oneAccount (unswept monthLater)).1 ∧
    (replies thirty oneAccount monthLater).1 =
      [.tokens 201 0, .status 401, .status 202, .status 200, .status 401, .tokens 201 1] := by
  refine ⟨(unswept_replies (by decide +kernel) ?_).1, by decide +kernel⟩
  refine ⟨nofun, fun presented same token row revoked => ?_, nofun, nofun, nofun, nofun, trivial⟩
  cases same
  cases row
  cases revoked

theorem reset_sweeps_unobservable_month :
    (replies thirty oneAccount (monthLater.eraseIdx 1)).1 =
      (replies thirty oneAccount (unswept (monthLater.eraseIdx 1))).1 :=
  reset_sweeps_unobservable (by decide +kernel) (by simp [monthLater])

end Empyrean.Rollup.Sweeps
