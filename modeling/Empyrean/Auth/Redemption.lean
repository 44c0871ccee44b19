/-
# Empyrean.Auth.Redemption — a reset token is redeemed once

`reset_password` locks the token's row, checks it, and commits the new password together
with `used_at`.  A second request with the same token waits for that row and then reads
the version that was committed, so however the requests interleave:

* `Watched` — the system with a ledger beside it: what was asked, which tokens were
  redeemed, and which requests have changed a committed row.
* `Redeemed` — the invariant of the ledger.
* `redeemed_once` — one redemption a token, of an unexpired, unused token, and nothing at
  all from a request that does not redeem.
-/
import Empyrean.Auth.ResetTokens
import Empyrean.Auth.Rotation
import Mathlib.Data.List.Nodup

namespace Empyrean.Auth.Requests

set_option autoImplicit false

open Empyrean.Theory Empyrean.Theory.RowStore Empyrean.Theory.Runs

/-! ## The ledger -/

/-- A committed `reset_password`. -/
structure Redemption where
  request : Nat
  token : Nat
  /-- What the request's clock showed. -/
  now : Int
  /-- The row as it was committed just before. -/
  before : Option PasswordResetToken
  /-- Reset tokens drawn so far. -/
  drawn : Nat

/-- The two tables show every other transaction the same rows. -/
structure SameCommitted (tables tables' : Tables) : Prop where
  users : ∀ user, (tables'.users user).committed = (tables.users user).committed
  refreshTokens : ∀ h, (tables'.refreshTokens h).committed = (tables.refreshTokens h).committed
  resetTokens : ∀ h, (tables'.resetTokens h).committed = (tables.resetTokens h).committed

structure Watched where
  state : State
  submitted : List Nat
  asked : Nat → Option Request
  redemptions : List Redemption
  /-- The requests with a step that changed what is committed. -/
  wrote : Nat → Prop

def Act.request : Act → Nat
  | .submit t _ | .advance t _ _ | .abort t => t

/-- What the ledger records of a step that is taken in `s`. -/
def redemption (s : State) : Act → List Redemption
  | .advance t _ _ =>
      match s.pcs t with
      | .change (.commit (.resetPassword presented _ now) _ _) =>
          [⟨t, presented, now, (s.tables.resetTokens presented).committed, s.tables.resetMinted⟩]
      | _ => []
  | _ => []

def Watched.ask (w : Watched) : Act → Nat → Option Request
  | .submit t request => Function.update w.asked t (some request)
  | _ => w.asked

def Watched.submit (w : Watched) : Act → List Nat
  | .submit t _ => t :: w.submitted
  | _ => w.submitted

def Watched.step (cfg : Config) (w : Watched) (a : Act) : Option Watched :=
  (Requests.step cfg w.state a).map fun s' =>
    { state := s'
      submitted := w.submit a
      asked := w.ask a
      redemptions := w.redemptions ++ redemption w.state a
      wrote := fun t => w.wrote t ∨ (a.request = t ∧ ¬ SameCommitted w.state.tables s'.tables) }

structure Watched.Start (w : Watched) : Prop where
  start : Requests.Start w.state
  submitted : w.submitted = []
  asked : ∀ t, w.asked t = none
  redemptions : w.redemptions = []
  wrote : ∀ t, ¬ w.wrote t

/-! ## What a request commits before it ends -/

section Step

variable {cfg : Config} {t : Nat} {tables mid tables' : Tables} {now : Int} {pick : Nat}
    {pc pc' : Pc} {event : Event}

theorem sameCommitted_refl (tables : Tables) : SameCommitted tables tables :=
  ⟨fun _ => rfl, fun _ => rfl, fun _ => rfl⟩

theorem SameCommitted.trans (first : SameCommitted tables mid)
    (second : SameCommitted mid tables') : SameCommitted tables tables' where
  users := fun user => (second.users user).trans (first.users user)
  refreshTokens := fun h => (second.refreshTokens h).trans (first.refreshTokens h)
  resetTokens := fun h => (second.resetTokens h).trans (first.resetTokens h)

theorem sameCommitted_rollback (tables : Tables) (t : Nat) :
    SameCommitted tables (tables.rollback t) where
  users := committed_rollback tables.users t
  refreshTokens := committed_rollback tables.refreshTokens t
  resetTokens := committed_rollback tables.resetTokens t

theorem sameCommitted_updateUser {user : Nat} {f : User → User} {out : Option User}
    (updated : tables.updateUser t user f = some (mid, out)) : SameCommitted tables mid := by
  obtain ⟨_, visited, same⟩ := Option.map_eq_some_iff.mp updated
  cases same
  exact ⟨committed_updateRow visited, fun _ => rfl, fun _ => rfl⟩

theorem sameCommitted_revokeRow {h : Nat} {p : RefreshToken → Bool} {out : Option RefreshToken}
    (updated : tables.revokeRow t h p = some (mid, out)) : SameCommitted tables mid := by
  obtain ⟨_, visited, same⟩ := Option.map_eq_some_iff.mp updated
  cases same
  exact ⟨fun _ => rfl, committed_updateRow visited, fun _ => rfl⟩

theorem sameCommitted_updateResetToken {h : Nat} {p : PasswordResetToken → Bool}
    {f : PasswordResetToken → PasswordResetToken} {out : Option PasswordResetToken}
    (updated : tables.updateResetToken t h p f = some (mid, out)) : SameCommitted tables mid := by
  obtain ⟨_, visited, same⟩ := Option.map_eq_some_iff.mp updated
  cases same
  exact ⟨fun _ => rfl, fun _ => rfl, committed_updateRow visited⟩

theorem sameCommitted_flushed {α : Type} {next : Pc} {updated : Option (Tables × Option α)}
    (rows : ∀ mid out, updated = some (mid, out) → SameCommitted tables mid)
    (ran : flushed t next updated = some (tables', pc', event)) : SameCommitted tables tables' := by
  obtain ⟨_, ⟨value, visited, _⟩ | ⟨mid, visited, rfl, _⟩⟩ := flushed_cases ran
  · exact rows _ _ visited
  · exact (rows _ _ visited).trans (sameCommitted_rollback mid t)

/-- **Nothing is committed before the last statement** of `change_password`,
`reset_password` and `delete_profile`. -/
theorem sameCommitted_change {pc : ChangePc}
    (ran : pc.step t tables pick = some (tables', pc', event))
    (unfinished : ∀ job user selected, pc ≠ .commit job user selected) :
    SameCommitted tables tables' := by
  cases pc with
  | verify user current new =>
      simp only [ChangePc.step] at ran
      split at ran
      · cases ran
        exact sameCommitted_refl _
      · split at ran <;> cases ran <;> exact sameCommitted_refl _
  | lockReset presented new now =>
      simp only [ChangePc.step] at ran
      split at ran <;> cases ran <;> exact sameCommitted_refl _
  | lockResetRow presented new now =>
      obtain ⟨⟨mid, out⟩, updated, same⟩ := Option.map_eq_some_iff.mp ran
      have rows := sameCommitted_updateResetToken updated
      cases out with
      | none =>
          cases same
          exact rows.trans (sameCommitted_rollback mid t)
      | some token =>
          simp only at same
          split at same
          · cases same
            exact rows.trans (sameCommitted_rollback mid t)
          · cases same
            exact rows
  | getUser job user =>
      simp only [ChangePc.step] at ran
      split at ran
      · cases ran
        exact sameCommitted_rollback tables t
      · split at ran
        · cases ran
          exact sameCommitted_rollback tables t
        · split at ran <;> cases ran <;> exact sameCommitted_refl _
  | flushUser job user => exact sameCommitted_flushed (fun _ _ => sameCommitted_updateUser) ran
  | selectLive job user =>
      cases ran
      exact sameCommitted_refl _
  | revoke job user selected todo =>
      cases todo with
      | nil =>
          cases job with
          | resetPassword presented new now =>
              exact sameCommitted_flushed (fun _ _ => sameCommitted_updateResetToken) ran
          | changePassword new =>
              cases ran
              exact sameCommitted_refl _
          | deleteProfile =>
              cases ran
              exact sameCommitted_refl _
      | cons h todo =>
          simp only [ChangePc.step] at ran
          split at ran
          · exact sameCommitted_flushed (fun _ _ => sameCommitted_revokeRow) ran
          · cases ran
  | commit job user selected => exact absurd rfl (unfinished job user selected)

/-- A `reset_password` stays one until it ends. -/
theorem redeems_change {pc : ChangePc} (ran : pc.step t tables pick = some (tables', pc', event)) :
    pc' = .done ∨ pc'.redeems = (Pc.change pc).redeems := by
  cases pc with
  | verify user current new =>
      simp only [ChangePc.step] at ran
      split at ran
      · cases ran
        exact Or.inl rfl
      · split at ran <;> cases ran
        · exact Or.inl rfl
        · exact Or.inr rfl
  | lockReset presented new now =>
      simp only [ChangePc.step] at ran
      split at ran <;> cases ran
      · exact Or.inl rfl
      · exact Or.inr rfl
  | lockResetRow presented new now =>
      obtain ⟨⟨mid, out⟩, _, same⟩ := Option.map_eq_some_iff.mp ran
      cases out with
      | none =>
          cases same
          exact Or.inl rfl
      | some token =>
          simp only at same
          split at same <;> cases same
          · exact Or.inl rfl
          · exact Or.inr rfl
  | getUser job user =>
      simp only [ChangePc.step] at ran
      split at ran
      · cases ran
        exact Or.inl rfl
      · split at ran
        · cases ran
          exact Or.inl rfl
        · split at ran <;> cases ran <;> exact Or.inr rfl
  | flushUser job user =>
      obtain ⟨_, ⟨_, _, rfl⟩ | ⟨_, _, _, rfl⟩⟩ := flushed_cases ran
      · exact Or.inr rfl
      · exact Or.inl rfl
  | selectLive job user =>
      cases ran
      exact Or.inr rfl
  | revoke job user selected todo =>
      cases todo with
      | nil =>
          cases job with
          | resetPassword presented new now =>
              obtain ⟨_, ⟨_, _, rfl⟩ | ⟨_, _, _, rfl⟩⟩ := flushed_cases ran
              · exact Or.inr rfl
              · exact Or.inl rfl
          | changePassword new =>
              cases ran
              exact Or.inr rfl
          | deleteProfile =>
              cases ran
              exact Or.inr rfl
      | cons h todo =>
          simp only [ChangePc.step] at ran
          split at ran
          · obtain ⟨_, ⟨_, _, rfl⟩ | ⟨_, _, _, rfl⟩⟩ := flushed_cases ran
            · exact Or.inr rfl
            · exact Or.inl rfl
          · cases ran
  | commit job user selected =>
      cases ran
      exact Or.inl rfl

theorem redeems_advance (ran : pc.step cfg t tables now pick = some (tables', pc', event)) :
    pc' = .done ∨ pc'.redeems = pc.redeems := by
  cases pc with
  | change pc => exact redeems_change ran
  | _ =>
      -- no other endpoint turns into a `reset_password`
      rcases endpoint_advance ran with done | same
      · exact Or.inl done
      · right
        cases pc' <;> first | rfl | cases same

end Step

/-! ## The invariant of the ledger -/

section Runs

variable {cfg : Config} {ok : Watched → Act → Prop}

/-- What the client of request `t` asked is what its `Pc` works on. -/
structure Serves (w : Watched) (t : Nat) : Prop where
  idle : w.state.pcs t = .idle → w.asked t = none
  redeems : ∀ presented new now, (w.state.pcs t).redeems = some (presented, new, now) →
    w.asked t = some (.resetPassword presented new now)
  asked : ∀ presented new now, w.asked t = some (.resetPassword presented new now) →
    w.state.pcs t = .done ∨ (w.state.pcs t).redeems = some (presented, new, now)

structure Redeemed (w : Watched) : Prop where
  serves : ∀ t, Serves w t
  once : (w.redemptions.map (·.token)).Nodup
  valid : ∀ r ∈ w.redemptions,
    (∃ new, w.asked r.request = some (.resetPassword r.token new r.now)) ∧
    ∃ row, r.before = some row ∧ row.usedAt = none ∧ r.now < row.expiresAt ∧
      (w.state.tables.resetTokens r.token).committed = some { row with usedAt := some r.now }
  waiting : ∀ t, w.state.pcs t = .idle → ¬ w.wrote t
  losers : ∀ t presented new now, w.asked t = some (.resetPassword presented new now) → w.wrote t →
    ∃ r ∈ w.redemptions, r.request = t

theorem Watched.step_state {w w' : Watched} {a : Act} (ran : w.step cfg a = some w') :
    Requests.step cfg w.state a = some w'.state ∧ w'.submitted = w.submit a ∧ w'.asked = w.ask a ∧
      w'.redemptions = w.redemptions ++ redemption w.state a ∧
        w'.wrote = fun t => w.wrote t ∨
          (a.request = t ∧ ¬ SameCommitted w.state.tables w'.state.tables) := by
  obtain ⟨s', stepped, same⟩ := Option.map_eq_some_iff.mp ran
  cases same
  exact ⟨stepped, rfl, rfl, rfl, rfl⟩

theorem Watched.reach_state {start : Watched → Prop} (starts : ∀ w, start w → Watched.Start w)
    {w : Watched} (reached : Reach (Watched.step cfg) ok start w) :
    Reach (Requests.step cfg) Always Requests.Start w.state :=
  reached.image Watched.state (fun _ begins => (starts _ begins).start) (fun _ _ _ => trivial)
    fun _ _ _ ran => (Watched.step_state ran).1

theorem redeemed_start {w : Watched} (starts : w.Start) : Redeemed w where
  serves := fun t =>
    { idle := fun _ => starts.asked t
      redeems := fun presented new now redeems => by
        rw [starts.start.pcs t] at redeems
        cases redeems
      asked := fun presented new now asked => by
        rw [starts.asked t] at asked
        cases asked }
  once := by simp [starts.redemptions]
  valid := by simp [starts.redemptions]
  waiting := fun t _ => starts.wrote t
  losers := fun t _ _ _ _ wrote => absurd wrote (starts.wrote t)

/-- The pair of an answer and a program counter that the step of `t` leaves. -/
theorem Serves.of_other {w w' : Watched} {t : Nat} (serves : Serves w t)
    (asked : w'.asked t = w.asked t) (pcs : w'.state.pcs t = w.state.pcs t) : Serves w' t where
  idle := by simpa [asked, pcs] using serves.idle
  redeems := by simpa [asked, pcs] using serves.redeems
  asked := by simpa [asked, pcs] using serves.asked

theorem Serves.of_advance {w w' : Watched} {t : Nat} {pc' : Pc} (serves : Serves w t)
    (asked : w'.asked t = w.asked t) (pcs : w'.state.pcs t = pc') (running : pc' ≠ .idle)
    (kept : pc' = .done ∨ pc'.redeems = (w.state.pcs t).redeems) (alive : w.state.pcs t ≠ .done) :
    Serves w' t where
  idle := fun idle => absurd (pcs.symm.trans idle) running
  redeems := fun presented new now redeems => by
    rw [asked]
    rw [pcs] at redeems
    rcases kept with rfl | same
    · cases redeems
    · exact serves.redeems presented new now (same ▸ redeems)
  asked := fun presented new now found => by
    rw [asked] at found
    rw [pcs]
    rcases kept with done | same
    · exact Or.inl done
    · rcases serves.asked presented new now found with done | redeems
      · exact absurd done alive
      · exact Or.inr (same.trans redeems)

/-- A step that records no redemption commits nothing for a `reset_password`. -/
theorem sameCommitted_of_redeems {t : Nat} {s : State} {tables' : Tables} {pc' : Pc}
    {event : Event} {now : Int} {pick : Nat} {x : Nat × Nat × Int}
    (ran : (s.pcs t).step cfg t s.tables now pick = some (tables', pc', event))
    (redeems : (s.pcs t).redeems = some x) (none : redemption s (.advance t now pick) = []) :
    SameCommitted s.tables tables' := by
  cases found : s.pcs t with
  | change pc =>
      rw [found] at ran redeems
      refine sameCommitted_change ran ?_
      rintro job user selected rfl
      cases job with
      | resetPassword presented new now => simp [redemption, found] at none
      | changePassword new => cases redeems
      | deleteProfile => cases redeems
  | _ =>
      rw [found] at redeems
      cases redeems

/-- What a recorded redemption is: the commit of a request that has locked the row. -/
theorem redemption_cases {w : Watched} {t : Nat} (owned : OwnedResets w.state)
    (serves : Serves w t) (now : Int) (pick : Nat) :
    redemption w.state (.advance t now pick) = [] ∨
      ∃ presented new at_ row, redemption w.state (.advance t now pick) =
          [⟨t, presented, at_, some row, w.state.tables.resetMinted⟩] ∧
        w.asked t = some (.resetPassword presented new at_) ∧ row.usedAt = none ∧
          at_ < row.expiresAt ∧
        (w.state.tables.resetTokens presented).committed = some row ∧
        (w.state.tables.resetTokens presented).held =
          some (t, some { row with usedAt := some at_ }) ∧
        ∃ user selected, w.state.pcs t =
          .change (.commit (.resetPassword presented new at_) user selected) := by
  have nothing : (∀ presented new at_ user selected,
      w.state.pcs t ≠ .change (.commit (.resetPassword presented new at_) user selected)) →
        redemption w.state (.advance t now pick) = [] := by
    intro other
    simp only [redemption]
  by_cases redeeming : ∃ presented new at_ user selected,
      w.state.pcs t = .change (.commit (.resetPassword presented new at_) user selected)
  · obtain ⟨presented, new, at_, user, selected, at_commit⟩ := redeeming
    have own := owned.own t
    rw [at_commit] at own
    obtain ⟨row, found, _, valid⟩ :
        Redeeming w.state.tables.resetTokens t presented user at_ := own.holds
    obtain ⟨unused, unexpired⟩ := (invalid_eq_false_iff at_ row).mp valid
    refine Or.inr ⟨presented, new, at_, row, ?_, ?_, unused, unexpired,
      by rw [found], by rw [found], user, selected, at_commit⟩
    · simp [redemption, at_commit, found]
    · exact serves.redeems presented new at_ (by rw [at_commit]; rfl)
  · left
    apply nothing
    intro presented new at_ user selected at_commit
    exact redeeming ⟨presented, new, at_, user, selected, at_commit⟩

/-- A token stays as the redemption left it. -/
theorem SteppedResets.used_stays {t : Nat} {pc pc' : Pc} {tables tables' : Tables}
    (stepped : SteppedResets t pc pc' tables tables') (sound : SoundResets tables) {h : Nat}
    {row : PasswordResetToken} (stored : (tables.resetTokens h).committed = some row)
    (used : row.usedAt ≠ none) : (tables'.resetTokens h).committed = some row := by
  cases stepped.effect with
  | quiet committed => exact (committed h).trans stored
  | commit tokens _ =>
      obtain ⟨row', stored', same | marks⟩ := sound.committed (t := t) stored
      · rw [tokens, stored', same]
      · rcases marks with same | ⟨unused, _⟩
        · rw [tokens, stored', same]
        · exact absurd unused used

/-- The ledger beside one statement of request `t`, but for its redemptions. -/
structure Advances (cfg : Config) (w w' : Watched) (t pick : Nat) (now : Int) (pc' : Pc)
    (tables' : Tables) (event : Event) : Prop where
  advanced : (w.state.pcs t).step cfg t w.state.tables now pick = some (tables', pc', event)
  stepped : SteppedResets t (w.state.pcs t) pc' w.state.tables tables'
  tables : w'.state.tables = tables'
  pcs : w'.state.pcs = Function.update w.state.pcs t pc'
  asked : w'.asked = w.asked
  wrote : ∀ t', w'.wrote t' ↔ w.wrote t' ∨ (t = t' ∧ ¬ SameCommitted w.state.tables tables')

section Advances

variable {w w' : Watched} {t pick : Nat} {now : Int} {pc' : Pc} {tables' : Tables} {event : Event}

theorem Advances.serves (advances : Advances cfg w w' t pick now pc' tables' event)
    (redeemed : Redeemed w) (t' : Nat) : Serves w' t' := by
  have advanced := advances.advanced
  by_cases same : t' = t
  · subst same
    apply (redeemed.serves t').of_advance (by rw [advances.asked]) (by simp [advances.pcs])
      (running_of_advance advanced)
      (redeems_advance advanced)
    intro done
    rw [done] at advanced
    cases advanced
  · exact (redeemed.serves t').of_other (by rw [advances.asked]) (by simp [advances.pcs, same])

/-- A request that waits to start has changed nothing. -/
theorem Advances.waiting (advances : Advances cfg w w' t pick now pc' tables' event)
    (redeemed : Redeemed w) (t' : Nat) (idle : w'.state.pcs t' = .idle) : ¬ w'.wrote t' := by
  intro writes
  by_cases same : t' = t
  · subst same
    simp only [advances.pcs, Function.update_self] at idle
    exact running_of_advance advances.advanced idle
  · simp only [advances.pcs, Function.update_of_ne same] at idle
    rcases (advances.wrote t').mp writes with before | ⟨rfl, _⟩
    · exact redeemed.waiting t' idle before
    · exact same rfl

/-- What was redeemed before stays redeemed. -/
theorem Advances.stays (advances : Advances cfg w w' t pick now pc' tables' event)
    (owned : OwnedResets w.state) (redeemed : Redeemed w) (r : Redemption)
    (member : r ∈ w.redemptions) :
    (∃ new, w'.asked r.request = some (.resetPassword r.token new r.now)) ∧
      ∃ row, r.before = some row ∧ row.usedAt = none ∧ r.now < row.expiresAt ∧
        (w'.state.tables.resetTokens r.token).committed =
          some { row with usedAt := some r.now } := by
  obtain ⟨request, row, before, unused, unexpired, stored⟩ := redeemed.valid r member
  refine ⟨advances.asked ▸ request, row, before, unused, unexpired, ?_⟩
  rw [advances.tables]
  exact advances.stepped.used_stays owned.sound stored (by simp)

/-- A statement that redeems nothing; if it belongs to a `reset_password`, it commits nothing. -/
theorem Advances.quiet (advances : Advances cfg w w' t pick now pc' tables' event)
    (owned : OwnedResets w.state) (redeemed : Redeemed w)
    (none : redemption w.state (.advance t now pick) = [])
    (redemptions : w'.redemptions = w.redemptions) : Redeemed w' where
  serves := advances.serves redeemed
  once := by
    rw [redemptions]
    exact redeemed.once
  valid := by
    rw [redemptions]
    exact advances.stays owned redeemed
  waiting := advances.waiting redeemed
  losers := by
    intro t' presented new at_ request writes
    rw [advances.asked] at request
    rw [redemptions]
    rcases (advances.wrote t').mp writes with before | ⟨rfl, changed⟩
    · exact redeemed.losers t' presented new at_ request before
    · have advanced := advances.advanced
      rcases (redeemed.serves t).asked presented new at_ request with done | redeems
      · rw [done] at advanced
        cases advanced
      · exact absurd (sameCommitted_of_redeems advanced redeems none) changed

/-- The commit of a `reset_password`: the row was unused until now, so the token was not
redeemed before. -/
theorem Advances.redeems (advances : Advances cfg w w' t pick now pc' tables' event)
    (owned : OwnedResets w.state) (redeemed : Redeemed w) {presented new : Nat} {at_ : Int}
    {row : PasswordResetToken} {used : Nat}
    (redemptions : w'.redemptions = w.redemptions ++ [⟨t, presented, at_, some row, used⟩])
    (request : w.asked t = some (.resetPassword presented new at_)) (unused : row.usedAt = none)
    (unexpired : at_ < row.expiresAt)
    (stored : (w.state.tables.resetTokens presented).committed = some row)
    (held : (w.state.tables.resetTokens presented).held =
      some (t, some { row with usedAt := some at_ }))
    (committed : tables' = w.state.tables.commit t) : Redeemed w' where
  serves := advances.serves redeemed
  once := by
    rw [redemptions, List.map_append, List.map_cons, List.map_nil]
    refine List.nodup_append.mpr ⟨redeemed.once, by simp, ?_⟩
    intro a earlier b now same
    simp only [List.mem_singleton] at now
    subst now
    subst same
    obtain ⟨r, member, token⟩ := List.mem_map.mp earlier
    obtain ⟨_, row', _, _, _, stored'⟩ := redeemed.valid r member
    rw [token, stored] at stored'
    cases stored'
    cases unused
  valid := by
    intro r member
    rw [redemptions] at member
    rcases List.mem_append.mp member with earlier | now
    · exact advances.stays owned redeemed r earlier
    · rw [List.mem_singleton] at now
      subst now
      refine ⟨⟨new, advances.asked ▸ request⟩, row, rfl, unused, unexpired, ?_⟩
      rw [advances.tables, committed]
      simp only [Tables.commit]
      rw [commit_of_held held, Row.settled]
  waiting := advances.waiting redeemed
  losers := by
    intro t' presented' new' at_' request' writes
    rw [advances.asked] at request'
    rw [redemptions]
    rcases (advances.wrote t').mp writes with before | ⟨rfl, _⟩
    · obtain ⟨r, member, same⟩ := redeemed.losers t' presented' new' at_' request' before
      exact ⟨r, List.mem_append_left _ member, same⟩
    · exact ⟨_, List.mem_append_right _ (List.mem_singleton.mpr rfl), rfl⟩

theorem redeemed_advance (owned : OwnedResets w.state) (redeemed : Redeemed w)
    (advances : Advances cfg w w' t pick now pc' tables' event)
    (redemptions : w'.redemptions = w.redemptions ++ redemption w.state (.advance t now pick)) :
    Redeemed w' := by
  rcases redemption_cases owned (redeemed.serves t) now pick with none |
    ⟨presented, new, at_, row, one, request, unused, unexpired, stored, held, user,
      selected, at_commit⟩
  · rw [none, List.append_nil] at redemptions
    exact advances.quiet owned redeemed none redemptions
  · have committed : tables' = w.state.tables.commit t := by
      have advanced := advances.advanced
      rw [at_commit] at advanced
      cases advanced
      rfl
    rw [one] at redemptions
    exact advances.redeems owned redeemed redemptions request unused unexpired stored held committed

end Advances

theorem redeemed_submit {w w' : Watched} {t : Nat} {request : Request} (redeemed : Redeemed w)
    (idle : w.state.pcs t = .idle) (tables : w'.state.tables = w.state.tables)
    (pcs : w'.state.pcs = Function.update w.state.pcs t request.start)
    (asked : w'.asked = Function.update w.asked t (some request))
    (redemptions : w'.redemptions = w.redemptions) (wrote : ∀ t', w'.wrote t' ↔ w.wrote t') :
    Redeemed w' where
  serves := fun t' => by
    by_cases same : t' = t
    · subst same
      constructor
      · intro waiting
        simp only [pcs, Function.update_self] at waiting
        cases request <;> cases waiting
      · intro presented new now redeems
        simp only [pcs, Function.update_self] at redeems
        rw [asked, Function.update_self]
        cases request <;> cases redeems
        rfl
      · intro presented new now found
        rw [asked, Function.update_self] at found
        cases found
        right
        simp [pcs, Request.start, Pc.redeems]
    · exact (redeemed.serves t').of_other (by simp [asked, same]) (by simp [pcs, same])
  once := by
    rw [redemptions]
    exact redeemed.once
  valid := fun r member => by
    rw [redemptions] at member
    obtain ⟨⟨new, request'⟩, row, rest⟩ := redeemed.valid r member
    refine ⟨⟨new, ?_⟩, row, by rw [tables]; exact rest⟩
    have away : r.request ≠ t := by
      rintro rfl
      rw [(redeemed.serves _).idle idle] at request'
      cases request'
    rw [asked, Function.update_of_ne away, request']
  waiting := fun t' waiting writes => by
    by_cases same : t' = t
    · subst same
      exact redeemed.waiting t' idle ((wrote t').mp writes)
    · simp only [pcs, Function.update_of_ne same] at waiting
      exact redeemed.waiting t' waiting ((wrote t').mp writes)
  losers := fun t' presented new now found writes => by
    have before := (wrote t').mp writes
    have away : t' ≠ t := by
      rintro rfl
      exact redeemed.waiting t' idle before
    rw [asked, Function.update_of_ne away] at found
    rw [redemptions]
    exact redeemed.losers t' presented new now found before

theorem redeemed_abort {w w' : Watched} {t : Nat} (owned : OwnedResets w.state)
    (redeemed : Redeemed w)
    (stepped : SteppedResets t (w.state.pcs t) .done w.state.tables (w.state.tables.rollback t))
    (tables : w'.state.tables = w.state.tables.rollback t)
    (pcs : w'.state.pcs = Function.update w.state.pcs t .done) (asked : w'.asked = w.asked)
    (redemptions : w'.redemptions = w.redemptions) (wrote : ∀ t', w'.wrote t' ↔ w.wrote t') :
    Redeemed w' where
  serves := fun t' => by
    by_cases same : t' = t
    · subst same
      constructor
      · intro waiting
        simp [pcs] at waiting
      · intro presented new now redeems
        simp [pcs, Pc.redeems] at redeems
      · intro presented new now _
        left
        simp [pcs]
    · exact (redeemed.serves t').of_other (by rw [asked]) (by simp [pcs, same])
  once := by
    rw [redemptions]
    exact redeemed.once
  valid := fun r member => by
    rw [redemptions] at member
    obtain ⟨request, row, before, unused, unexpired, stored⟩ := redeemed.valid r member
    refine ⟨asked ▸ request, row, before, unused, unexpired, ?_⟩
    rw [tables]
    exact stepped.used_stays owned.sound stored (by simp)
  waiting := fun t' waiting writes => by
    by_cases same : t' = t
    · subst same
      simp [pcs] at waiting
    · simp only [pcs, Function.update_of_ne same] at waiting
      exact redeemed.waiting t' waiting ((wrote t').mp writes)
  losers := fun t' presented new now found writes => by
    rw [asked] at found
    rw [redemptions]
    exact redeemed.losers t' presented new now found ((wrote t').mp writes)

theorem redeemed_step {w w' : Watched} {a : Act} (owned : OwnedResets w.state)
    (redeemed : Redeemed w) (ran : w.step cfg a = some w') : Redeemed w' := by
  obtain ⟨stepped, _, asked, redemptions, wrote⟩ := Watched.step_state ran
  have writes : ∀ t, w'.wrote t ↔
      w.wrote t ∨ (a.request = t ∧ ¬ SameCommitted w.state.tables w'.state.tables) :=
        fun t => by rw [wrote]
  rcases resets_cases owned stepped with
    ⟨t, request, rfl, idle, tables, pcs⟩ |
      ⟨t, now, pick, pc', tables', event, rfl, advanced, resets, tables, pcs⟩ |
        ⟨t, rfl, resets, tables, pcs⟩
  · apply redeemed_submit redeemed idle tables pcs asked (by simpa [redemption] using redemptions)
    intro t'
    rw [writes, tables]
    simp [sameCommitted_refl]
  · refine redeemed_advance owned redeemed
      ⟨advanced, resets, tables, pcs, asked, fun t' => ?_⟩ redemptions
    rw [writes, tables]
    rfl
  · apply redeemed_abort owned redeemed resets tables pcs asked
      (by simpa [redemption] using redemptions)
    intro t'
    rw [writes, tables]
    simp [sameCommitted_rollback]

theorem redeemed_of_reach {w : Watched} (reached : Reach (Watched.step cfg) ok Watched.Start w) :
    Redeemed w :=
  reached.invariant_of
    (fun _ earlier => ownedResets_of_reach (Watched.reach_state (fun _ starts => starts) earlier))
    (fun _ starts => redeemed_start starts) fun _ _ _ owned redeemed _ ran =>
      redeemed_step owned redeemed ran

/-- **A reset token is redeemed at most once**, in every reached state: no token appears
twice in the ledger; each redemption was of a token that was unused, and unexpired on the
clock of the request that presented it; and a `reset_password` that has changed anything
committed (a password, a refresh token, a reset token) is one of the redemptions. -/
theorem redeemed_once {w : Watched} (reached : Reach (Watched.step cfg) Always Watched.Start w) :
    (w.redemptions.map (·.token)).Nodup ∧
      (∀ r ∈ w.redemptions, (∃ new, w.asked r.request = some (.resetPassword r.token new r.now)) ∧
        ∃ row, r.before = some row ∧ row.usedAt = none ∧ r.now < row.expiresAt) ∧
      ∀ t presented new now, w.asked t = some (.resetPassword presented new now) →
        (∀ r ∈ w.redemptions, r.request ≠ t) → ¬ w.wrote t := by
  have redeemed := redeemed_of_reach reached
  refine ⟨redeemed.once, ?_, ?_⟩
  · intro r member
    obtain ⟨request, row, before, unused, unexpired, _⟩ := redeemed.valid r member
    exact ⟨request, row, before, unused, unexpired⟩
  · intro t presented new now request lost writes
    obtain ⟨r, member, same⟩ := redeemed.losers t presented new now request writes
    exact lost r member same

end Runs

/-! ## A run with two racing redemptions -/

def watch (s : State) : Watched :=
  { state := s, submitted := [], asked := fun _ => none, redemptions := [], wrote := fun _ => False }

theorem start_watch {s : State} (starts : Start s) : (watch s).Start where
  start := starts
  submitted := rfl
  asked := fun _ => rfl
  redemptions := rfl
  wrote := fun _ => id

/-- Two requests present token 0; the second waits for the row and finds it used. -/
def race : List Act :=
  [.submit 0 (.forgotPassword 0)] ++ statements 0 5 ++
    [.submit 1 (.resetPassword 0 6 7), .submit 2 (.resetPassword 0 8 7)] ++ statements 2 1 ++
      statements 1 7 ++
    statements 2 1

/-- The first request redeems the token; the second has left no trace. -/
theorem redeemed_once_race :
    ∃ w, Reach (Watched.step month) Always Watched.Start w ∧ w.redemptions.map (·.request) = [1] ∧
      (w.state.tables.users 0).committed.map (·.passwordHash) = some (hashPassword 6) ∧
        ¬ w.wrote 2 := by
  obtain ⟨w, reached, final⟩ :=
    exists_reach_of_run (Watched.step month) Always (start_watch start_oneUser) race
      (fun w => decide (w.redemptions.map (·.request) = [1] ∧
        (w.state.tables.users 0).committed.map (·.passwordHash) = some (hashPassword 6) ∧
        (w.asked 2).any (fun request => match request with
          | .resetPassword presented new now => decide (presented = 0 ∧ new = 8 ∧ now = 7)
          | _ => false) = true)) (by decide)
  obtain ⟨redeemers, password, asked⟩ := of_decide_eq_true final
  obtain ⟨request, found, same⟩ := (Option.any_eq_true _ _).mp asked
  cases request with
  | resetPassword presented new now =>
      refine ⟨w, reached, redeemers, password,
        (redeemed_once reached).2.2 2 presented new now found ?_⟩
      intro r member late
      have known : r.request ∈ w.redemptions.map (·.request) := List.mem_map.mpr ⟨r, member, rfl⟩
      rw [redeemers, List.mem_singleton] at known
      omega
  | _ => simp at same

end Empyrean.Auth.Requests
