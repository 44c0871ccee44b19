/-
# Empyrean.Auth.CredentialChange — what a new password does to older sessions

`change_password` and `reset_password` revoke the tokens they *selected*.  A token that
another request has inserted but not committed when the `SELECT` runs is not among them,
and nothing stops it from being committed afterwards:

* `refresh_outlives_change` — a refresh that claimed its token before the `SELECT` and
  commits before the change: the rotated token is live under the old password.
* `login_outlives_change` — a login that read the old hash and commits its token after.

There is no third way.  `NoPhantom` excludes these two, at the commits where they happen,
and then every live token goes back to its user's current password (`current_of_reach`).
-/
import Empyrean.Auth.Rotation

namespace Empyrean.Auth.Requests

set_option autoImplicit false

open Empyrean.Theory Empyrean.Theory.RowStore Empyrean.Theory.Runs

/-- Every live token was issued on its user's current password, or rotated from one. -/
def Current (s : State) : Prop :=
  ∀ h row, (s.tables.refreshTokens h).committed = some row → row.revoked = false →
    s.history.issuedOn h = s.history.credential row.userId

/-- The user's live tokens, as committed now. -/
def Tables.liveTokens (tables : Tables) (user : Nat) : List Nat :=
  (List.range tables.minted).filter fun h => (tables.refreshTokens h).committed.any (·.liveOf user)

/-- A new password is committed only when no live token of the user is missing from the
request's selection; a login commits its token only when the password it checked is still
the user's. -/
def NoPhantom (s : State) : Act → Prop
  | .advance t _ _ =>
      match s.pcs t with
      | .change (.commit .deleteProfile _ _) => True
      | .change (.commit _ user selected) => ∀ h ∈ s.tables.liveTokens user, h ∈ selected
      | .login (.commit user _) => s.history.basis t = s.history.credential user
      | _ => True
  | _ => True

instance (s : State) (a : Act) : Decidable (NoPhantom s a) := by
  unfold NoPhantom
  split
  · split <;> infer_instance
  · infer_instance

section Step

variable {t : Nat} {pc pc' : Pc} {tables tables' : Tables} {event : Event}

theorem Sound.mem_liveTokens (sound : Sound tables) {h : Nat} {row : RefreshToken}
    (stored : (tables.refreshTokens h).committed = some row) (live : row.revoked = false) :
    h ∈ tables.liveTokens row.userId := by
  have drawn : h < tables.minted := by
    by_contra undrawn
    have := sound.undrawn h (by omega)
    simp [this, Row.settled] at stored
  refine List.mem_filter.mpr ⟨List.mem_range.mpr drawn, ?_⟩
  rw [stored, Option.any_some]
  exact (RefreshToken.liveOf_iff _ _).mpr ⟨rfl, live⟩

/-- What a commit can be about: neither a new token nor a new password, or one of them. -/
theorem Pc.commit_cases (pc : Pc) :
    (pc.inserts = none ∧ pc.commitEvent = .silent) ∨
      (∃ user token, pc = .login (.commit user token)) ∨
      (∃ presented user new, pc = .refresh (.commit presented user new)) ∨
      ∃ job user selected, pc = .change (.commit job user selected) ∧
        pc.commitEvent = .credentialChanged user := by
  cases pc with
  | login pc =>
      cases pc with
      | commit user token => exact Or.inr (Or.inl ⟨user, token, rfl⟩)
      | _ => exact Or.inl ⟨rfl, rfl⟩
  | refresh pc =>
      cases pc with
      | commit presented user new => exact Or.inr (Or.inr (Or.inl ⟨presented, user, new, rfl⟩))
      | _ => exact Or.inl ⟨rfl, rfl⟩
  | change pc =>
      cases pc with
      | commit job user selected =>
          cases job with
          | deleteProfile => exact Or.inl ⟨rfl, rfl⟩
          | _ => exact Or.inr (Or.inr (Or.inr ⟨_, user, selected, rfl, rfl⟩))
      | _ => exact Or.inl ⟨rfl, rfl⟩
  | _ => exact Or.inl ⟨rfl, rfl⟩

/-- A token that is live after a commit of `t` was live and not `t`'s, or is the one `t`
inserted. -/
theorem live_after_commit (sound : Sound tables) (own : Own tables t pc) {h : Nat}
    {row : RefreshToken} (stored : (RowStore.commit tables.refreshTokens t h).committed = some row)
    (live : row.revoked = false) : ((∀ version, (tables.refreshTokens h).held ≠ some (t, version)) ∧
        (tables.refreshTokens h).committed = some row) ∨
      (pc.inserts = some h ∧ (tables.refreshTokens h).held = some (t, some row)) := by
  rcases commit_cases tables.refreshTokens t h with ⟨value, held, settled⟩ | ⟨others, same⟩
  · obtain ⟨row', rfl, overwrites⟩ := sound.held h t value held
    rw [settled, Row.settled] at stored
    cases stored
    cases before : (tables.refreshTokens h).committed with
    | some old =>
        rw [(overwrites old before).2] at live
        cases live
    | none => exact Or.inr ⟨own.inserting h _ held before, held⟩
  · exact Or.inl ⟨others, by rw [← stored, same]⟩

end Step

section Runs

variable {cfg : Config}

theorem current_start {s : State} (starts : Start s) : Current s := starts.issuedOn

/-- The commit of a login keeps every live token current. -/
theorem Current.login {s : State} (current : Current s) (owned : Owned s) {t user token : Nat}
    (at_commit : s.pcs t = .login (.commit user token))
    (unchanged : s.history.basis t = s.history.credential user) {tables' : Tables}
    (tokens : tables'.refreshTokens = RowStore.commit s.tables.refreshTokens t) (pcs : Nat → Pc) :
    Current { tables := tables', pcs := pcs, history := s.history.record t (.issued user token) } := by
  intro h row stored live
  have own := owned.own t
  rw [at_commit] at own
  obtain ⟨inserted, found, owner, _⟩ : Inserted s.tables.refreshTokens t token user := own.holds
  simp only [tokens] at stored
  simp only [History.record]
  rcases live_after_commit owned.sound own stored live with ⟨others, before⟩ | ⟨inserts, held⟩
  · have away : h ≠ token := by
      rintro rfl
      exact others (some inserted) (by rw [found])
    rw [Function.update_of_ne away]
    exact current h row before live
  · cases inserts
    rw [found] at held
    cases held
    rw [Function.update_self, owner]
    exact unchanged

/-- The commit of a rotation passes the presented token's credential on. -/
theorem Current.rotation {s : State} (current : Current s) (owned : Owned s)
    {t presented user new : Nat} (at_commit : s.pcs t = .refresh (.commit presented user new))
    {tables' : Tables} (tokens : tables'.refreshTokens = RowStore.commit s.tables.refreshTokens t)
    (pcs : Nat → Pc) :
    Current { tables := tables', pcs := pcs, history := s.history.record t (.rotated presented new) } := by
  intro h row stored live
  have own := owned.own t
  rw [at_commit] at own
  obtain ⟨⟨claimed, foundClaimed, ownerClaimed, liveClaimed⟩, inserted, found, owner, _⟩ :
    Claimed s.tables.refreshTokens t presented user ∧
      Inserted s.tables.refreshTokens t new user := own.holds
  simp only [tokens] at stored
  simp only [History.record]
  rcases live_after_commit owned.sound own stored live with ⟨others, before⟩ | ⟨inserts, held⟩
  · have away : h ≠ new := by
      rintro rfl
      exact others (some inserted) (by rw [found])
    rw [Function.update_of_ne away]
    exact current h row before live
  · cases inserts
    rw [found] at held
    cases held
    have basis := current presented claimed (by rw [foundClaimed]) liveClaimed
    rw [Function.update_self, basis, ownerClaimed, owner]

/-- The commit of a new password leaves none of the user's tokens live. -/
theorem Current.change {s : State} (current : Current s) (owned : Owned s)
    {t user : Nat} {job : Job} {selected : List Nat}
    (at_commit : s.pcs t = .change (.commit job user selected))
    (complete : ∀ h ∈ s.tables.liveTokens user, h ∈ selected) {tables' : Tables}
    (tokens : tables'.refreshTokens = RowStore.commit s.tables.refreshTokens t) (pcs : Nat → Pc) :
    Current { tables := tables', pcs := pcs, history := s.history.record t (.credentialChanged user) } := by
  intro h row stored live
  have own := owned.own t
  rw [at_commit] at own
  have revoking : ∀ h ∈ selected, Revoking s.tables.refreshTokens t h := own.holds
  simp only [tokens] at stored
  simp only [History.record]
  rcases live_after_commit owned.sound own stored live with ⟨others, before⟩ | ⟨inserts, _⟩
  · -- a live token of this user would be among the selected, which `t` holds
    have away : row.userId ≠ user := by
      rintro rfl
      obtain ⟨old, version, found, _⟩ :=
        revoking h (complete h (owned.sound.mem_liveTokens before live))
      exact others (some version) (by rw [found])
    rw [Function.update_of_ne away]
    exact current h row before live
  · cases inserts

/-- Any other commit, and any statement that commits nothing. -/
theorem Current.keep {s : State} (current : Current s) {tables' : Tables} {history : History}
    (pcs : Nat → Pc) (issuedOn : history.issuedOn = s.history.issuedOn)
    (credential : history.credential = s.history.credential)
    (before : ∀ h row, (tables'.refreshTokens h).committed = some row → row.revoked = false →
      (s.tables.refreshTokens h).committed = some row) :
    Current { tables := tables', pcs := pcs, history := history } := by
  intro h row stored live
  simp only [issuedOn, credential]
  exact current h row (before h row stored live) live

theorem Current.advance {s : State} (current : Current s) (owned : Owned s) {t pick : Nat}
    {now : Int} {pc' : Pc} {tables' : Tables} {event : Event}
    (meets : NoPhantom s (.advance t now pick))
    (stepped : Stepped t (s.pcs t) pc' s.tables tables' event) (pcs : Nat → Pc) :
    Current { tables := tables', pcs := pcs, history := s.history.record t event } := by
  cases stepped.effect with
  | quiet committed told =>
      have same : ∀ h row, (tables'.refreshTokens h).committed = some row → row.revoked = false →
          (s.tables.refreshTokens h).committed = some row :=
            fun h row stored _ => (committed h).symm.trans stored
      rcases told with rfl | ⟨user, rfl⟩ <;> exact current.keep pcs rfl rfl same
  | commit tokens told =>
      subst told
      simp only [NoPhantom] at meets
      rcases (s.pcs t).commit_cases with ⟨insertsNone, silent⟩ | ⟨user, token, at_commit⟩ |
        ⟨presented, user, new, at_commit⟩ | ⟨job, user, selected, at_commit, event⟩
      · rw [silent]
        apply current.keep pcs rfl rfl
        intro h row stored live
        rw [tokens] at stored
        rcases live_after_commit owned.sound (owned.own t) stored live with ⟨_, before⟩ |
          ⟨inserts, _⟩
        · exact before
        · rw [insertsNone] at inserts
          cases inserts
      · rw [at_commit] at meets ⊢
        exact current.login owned at_commit meets tokens pcs
      · rw [at_commit]
        exact current.rotation owned at_commit tokens pcs
      · rw [event]
        rw [at_commit] at meets event
        cases job with
        | changePassword new => exact current.change owned at_commit meets tokens pcs
        | resetPassword presented new now => exact current.change owned at_commit meets tokens pcs
        | deleteProfile => cases event

theorem current_step {s s' : State} {a : Act} (owned : Owned s) (current : Current s)
    (meets : NoPhantom s a) (ran : step cfg s a = some s') : Current s' := by
  rcases step_cases owned ran with
    ⟨t, request, _, _, rfl⟩ | ⟨t, now, pick, pc', tables', event, rfl, stepped, rfl⟩ |
      ⟨t, _, stepped, rfl⟩
  · exact current
  · exact current.advance owned meets stepped _
  · exact current.keep _ rfl rfl fun h row stored _ => by simpa [Tables.rollback] using stored

/-- **A credential change ends every older session**, in a run without the two phantoms. -/
theorem current_of_reach {s : State} (reached : Reach (step cfg) NoPhantom Start s) : Current s :=
  reached.invariant_of (fun _ => owned_of_reach) (fun _ starts => current_start starts)
    fun _ _ _ owned current meets ran => current_step owned current meets ran

end Runs

/-! ## The two phantoms -/

/-- A password change with nothing in between, and a login on the new password. -/
theorem current_of_reach_sequential :
    ∃ s, Reach (step month) NoPhantom Start s ∧
      (s.tables.refreshTokens 1).committed.any (·.liveOf 0) = true ∧
      s.history.credential 0 = 1 ∧ s.history.issuedOn 1 = 1 := by
  obtain ⟨s, reached, final⟩ :=
    exists_reach_of_run (step month) NoPhantom start_oneUser
      ([.submit 0 (.login 0 5)] ++ statements 0 5 ++ [.submit 1 (.changePassword 0 5 6)] ++ statements 1 7 ++
        [.submit 2 (.login 0 6)] ++ statements 2 5)
      (fun s => decide ((s.tables.refreshTokens 1).committed.any (·.liveOf 0) = true ∧
        s.history.credential 0 = 1)) (by decide)
  obtain ⟨unrevoked, changed⟩ := of_decide_eq_true final
  obtain ⟨row, stored, live⟩ := (Option.any_eq_true _ _).mp unrevoked
  obtain ⟨owner, live⟩ := (RefreshToken.liveOf_iff _ _).mp live
  have current := current_of_reach reached 1 row stored live
  rw [owner, changed] at current
  exact ⟨s, reached, unrevoked, changed, current⟩

/-- **A rotated token outlives the change**: the refresh claims token 0 and inserts token 1,
the change selects token 0 and waits for it, the refresh commits, the change revokes token
0 and commits. -/
theorem refresh_outlives_change :
    ∃ s, Reach (step month) Always Start s ∧ ¬ Current s ∧ Rotated s 0 1 ∧
      (s.tables.refreshTokens 1).committed.any (·.liveOf 0) = true ∧
      s.history.issuedOn 1 = 0 ∧ s.history.credential 0 = 1 := by
  obtain ⟨s, reached, final⟩ :=
    exists_reach_of_run (step month) Always start_oneUser
      ([.submit 0 (.login 0 5)] ++ statements 0 5 ++ [.submit 1 (.refresh 0 7)] ++ statements 1 4 ++
        [.submit 2 (.changePassword 0 5 6)] ++ statements 2 4 ++ statements 1 1 ++ statements 2 3)
      (fun s => decide ((s.tables.refreshTokens 1).committed.any (·.liveOf 0) = true ∧
        s.history.issuedOn 1 = 0 ∧ s.history.credential 0 = 1 ∧
          s.history.rotations = [(0, 1)])) (by decide)
  obtain ⟨unrevoked, basis, changed, rotations⟩ := of_decide_eq_true final
  refine ⟨s, reached, ?_, by rw [Rotated, rotations]; decide, unrevoked, basis, changed⟩
  intro current
  obtain ⟨row, stored, live⟩ := (Option.any_eq_true _ _).mp unrevoked
  obtain ⟨owner, live⟩ := (RefreshToken.liveOf_iff _ _).mp live
  have same := current 1 row stored live
  rw [owner, basis, changed] at same
  cases same

/-- A login that checked the old password commits its token after the change. -/
theorem login_outlives_change :
    ∃ s, Reach (step month) Always Start s ∧
      (s.tables.refreshTokens 0).committed.any (·.liveOf 0) = true ∧
      s.history.issuedOn 0 = 0 ∧ s.history.credential 0 = 1 := by
  obtain ⟨s, reached, final⟩ :=
    exists_reach_of_run (step month) Always start_oneUser
      ([.submit 0 (.login 0 5)] ++ statements 0 1 ++ [.submit 1 (.changePassword 0 5 6)] ++ statements 1 6 ++
        statements 0 4)
      (fun s => decide ((s.tables.refreshTokens 0).committed.any (·.liveOf 0) = true ∧
        s.history.issuedOn 0 = 0 ∧ s.history.credential 0 = 1)) (by decide)
  exact ⟨s, reached, of_decide_eq_true final⟩

end Empyrean.Auth.Requests
