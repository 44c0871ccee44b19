/-
# Empyrean.Auth.Ownership — what each request holds in `refresh_tokens`

Between its statements a request is protected only by the row locks it has taken.  This
module says which rows those are at every statement, and what one statement can do to
the table:

* `Sound` — a stored token is only ever overwritten by itself, revoked.
* `Own` — the rows request `t` holds are the ones its `Pc` speaks of.
* `Effect` — what becomes committed: nothing, or everything `t` holds, and then the
  event says what the request was about to commit.
* `stepped` — every statement of every endpoint keeps these, and frames the rest.
* `owned_of_reach` — so they hold in every reached state.
-/
import Empyrean.Auth.Requests
import Empyrean.Theory.Runs

namespace Empyrean.Auth.Requests

set_option autoImplicit false

open Empyrean.Theory Empyrean.Theory.RowStore Empyrean.Theory.Runs

/-! ## The facts of a program counter -/

/-- `t` has claimed `h`: revoked in its own version, live in the committed one. -/
def Claimed (tokens : Rows Nat Nat RefreshToken) (t h user : Nat) : Prop :=
  ∃ row, tokens h = ⟨some row, some (t, some row.revoke)⟩ ∧ row.userId = user ∧ row.revoked = false

/-- `t` has inserted `h`, which nobody else sees yet. -/
def Inserted (tokens : Rows Nat Nat RefreshToken) (t h user : Nat) : Prop :=
  ∃ row, tokens h = ⟨none, some (t, some row)⟩ ∧ row.userId = user ∧ row.revoked = false

/-- `t` will leave `h` revoked when it commits. -/
def Revoking (tokens : Rows Nat Nat RefreshToken) (t h : Nat) : Prop :=
  ∃ old row, tokens h = ⟨old, some (t, some row)⟩ ∧ row.revoked = true

/-- The token that the commit `pc` stands at will create. -/
def Pc.inserts : Pc → Option Nat
  | .login (.commit _ token) => some token
  | .refresh (.commit _ _ new) => some new
  | _ => none

/-- The event of the commit that `pc` stands at. -/
def Pc.commitEvent : Pc → Event
  | .login (.commit user token) => .issued user token
  | .refresh (.commit presented _ new) => .rotated presented new
  | .change (.commit job user _) => job.event user
  | _ => .silent

def Pc.Holds (tokens : Rows Nat Nat RefreshToken) (t : Nat) : Pc → Prop
  | .login (.commit user token) => Inserted tokens t token user
  | .refresh (.selectOwner presented user _) => Claimed tokens t presented user
  | .refresh (.insert presented user _) => Claimed tokens t presented user
  | .refresh (.commit presented user new) => Claimed tokens t presented user ∧
      Inserted tokens t new user
  | .change (.revoke _ _ selected todo) => ∀ h ∈ selected, h ∉ todo → Revoking tokens t h
  | .change (.commit _ _ selected) => ∀ h ∈ selected, Revoking tokens t h
  | _ => True

structure Sound (tables : Tables) : Prop where
  held : ∀ h t version, (tables.refreshTokens h).held = some (t, version) →
    ∃ row, version = some row ∧
      ∀ old, (tables.refreshTokens h).committed = some old →
        row.userId = old.userId ∧ row.revoked = true
  undrawn : ∀ h, tables.minted ≤ h → tables.refreshTokens h = .settled none

structure Own (tables : Tables) (t : Nat) (pc : Pc) : Prop where
  inserting : ∀ h version, (tables.refreshTokens h).held = some (t, version) →
    (tables.refreshTokens h).committed = none → pc.inserts = some h
  holds : pc.Holds tables.refreshTokens t

/-- What a statement of `t` at `pc` commits, and the event that tells of it. -/
inductive Effect (t : Nat) (pc : Pc) (tables tables' : Tables) (event : Event) : Prop
  | quiet (committed : ∀ h, (tables'.refreshTokens h).committed =
    (tables.refreshTokens h).committed)
      (told : event = .silent ∨ ∃ user, event = .authenticated user)
  | commit (tokens : tables'.refreshTokens = RowStore.commit tables.refreshTokens t)
      (told : event = pc.commitEvent)

/-- What every statement of `t` guarantees, from `pc` to `pc'`. -/
structure Stepped (t : Nat) (pc pc' : Pc) (tables tables' : Tables) (event : Event) : Prop where
  sound : Sound tables'
  own : Own tables' t pc'
  framed : Framed t tables.refreshTokens tables'.refreshTokens
  effect : Effect t pc tables tables' event

/-! ## The facts survive other requests -/

section Frame

variable {t t' : Nat} {tokens tokens' : Rows Nat Nat RefreshToken}

theorem Claimed.framed {h user : Nat} (claimed : Claimed tokens t' h user)
    (framed : Framed t tokens tokens') (different : t' ≠ t) : Claimed tokens' t' h user := by
  obtain ⟨row, found, rest⟩ := claimed
  exact ⟨row, (framed.keeps different (by rw [found])).trans found, rest⟩

theorem Inserted.framed {h user : Nat} (inserted : Inserted tokens t' h user)
    (framed : Framed t tokens tokens') (different : t' ≠ t) : Inserted tokens' t' h user := by
  obtain ⟨row, found, rest⟩ := inserted
  exact ⟨row, (framed.keeps different (by rw [found])).trans found, rest⟩

theorem Revoking.framed {h : Nat} (revoking : Revoking tokens t' h)
    (framed : Framed t tokens tokens') (different : t' ≠ t) : Revoking tokens' t' h := by
  obtain ⟨old, row, found, rest⟩ := revoking
  exact ⟨old, row, (framed.keeps different (by rw [found])).trans found, rest⟩

theorem Pc.Holds.framed {pc : Pc} (holds : pc.Holds tokens t') (framed : Framed t tokens tokens')
    (different : t' ≠ t) : pc.Holds tokens' t' := by
  unfold Pc.Holds at holds ⊢
  split at holds
  · exact holds.framed framed different
  · exact holds.framed framed different
  · exact holds.framed framed different
  · exact ⟨holds.1.framed framed different, holds.2.framed framed different⟩
  · exact fun h member done => (holds h member done).framed framed different
  · exact fun h member => (holds h member).framed framed different
  · trivial

theorem Own.framed {tables tables' : Tables} {pc : Pc} (own : Own tables t' pc)
    (framed : Framed t tables.refreshTokens tables'.refreshTokens) (different : t' ≠ t) :
    Own tables' t' pc where
  inserting := fun h version held missing => by
    obtain ⟨before, same⟩ := framed.held_before different held
    exact own.inserting h version before (same ▸ missing)
  holds := own.holds.framed framed different

end Frame

/-! ## One rule for each kind of statement -/

section Rules

variable {t : Nat} {pc pc' : Pc} {tables tables' : Tables} {event : Event}

/-- A request that inserts nothing holds only versions of stored tokens. -/
theorem Own.stored (own : Own tables t pc) (none : pc.inserts = none) {h : Nat}
    {version : Option RefreshToken} (held : (tables.refreshTokens h).held = some (t, version)) :
    ∃ old, (tables.refreshTokens h).committed = some old := by
  cases missing : (tables.refreshTokens h).committed with
  | some old => exact ⟨old, rfl⟩
  | none =>
      have inserts := own.inserting h version held missing
      rw [none] at inserts
      cases inserts

/-- `refresh_tokens` is only read. -/
theorem Stepped.still (sound : Sound tables) (own : Own tables t pc)
    (insertsNone : pc.inserts = none) (tokens : tables'.refreshTokens = tables.refreshTokens)
    (minted : tables'.minted = tables.minted) (holds : pc'.Holds tables.refreshTokens t)
    (told : event = .silent ∨ ∃ user, event = .authenticated user) :
    Stepped t pc pc' tables tables' event where
  sound := ⟨by rw [tokens]; exact sound.held, by rw [tokens, minted]; exact sound.undrawn⟩
  own :=
    { inserting := fun h version held missing => by
        rw [tokens] at held missing
        obtain ⟨old, stored⟩ := own.stored insertsNone held
        rw [stored] at missing
        cases missing
      holds := by rw [tokens]; exact holds }
  framed := by rw [tokens]; exact framed_refl t _
  effect := .quiet (fun h => by rw [tokens]) told

/-- `t` revokes the stored token `h`. -/
theorem Stepped.revoke {h : Nat} {row : RefreshToken} (sound : Sound tables) (own : Own tables t pc)
    (insertsNone : pc.inserts = none) (free : (tables.refreshTokens h).FreeFor t)
    (seen : (tables.refreshTokens h).read t = some row)
    (tokens : tables'.refreshTokens = put tables.refreshTokens t h (some row.revoke))
    (minted : tables'.minted = tables.minted) (holds : pc'.Holds tables'.refreshTokens t) :
    Stepped t pc pc' tables tables' .silent := by
  -- the row exists, and the version `t` sees has its owner
  have stored : ∃ old, (tables.refreshTokens h).committed = some old ∧ row.userId = old.userId := by
    rcases Row.read_cases t (tables.refreshTokens h) with held | ⟨_, committed⟩
    · obtain ⟨old, stored⟩ := own.stored insertsNone held
      obtain ⟨version, same, overwrites⟩ := sound.held h t _ held
      rw [seen] at same
      cases same
      exact ⟨old, stored, (overwrites old stored).1⟩
    · exact ⟨row, committed.symm.trans seen, rfl⟩
  obtain ⟨old, stored, owner⟩ := stored
  have drawn : h < tables.minted := by
    by_contra undrawn
    have := sound.undrawn h (by omega)
    simp [this, Row.settled] at stored
  refine ⟨⟨?_, ?_⟩, ⟨?_, holds⟩, ?_, .quiet (fun h' => by rw [tokens, committed_put]) (Or.inl rfl)⟩
  · intro h' t' version held
    rw [tokens] at held ⊢
    rw [committed_put]
    rcases held_put held with ⟨rfl, _, rfl⟩ | ⟨_, before⟩
    · refine ⟨row.revoke, rfl, ?_⟩
      intro old' stored'
      rw [stored] at stored'
      cases stored'
      exact ⟨owner, rfl⟩
    · exact sound.held h' t' version before
  · intro h' undrawn
    have away : h' ≠ h := by omega
    rw [tokens, put_of_ne away]
    exact sound.undrawn h' (by omega)
  · intro h' version held missing
    rw [tokens] at held missing
    rw [committed_put] at missing
    rcases held_put held with ⟨rfl, _, _⟩ | ⟨_, before⟩
    · rw [stored] at missing
      cases missing
    · obtain ⟨old', stored'⟩ := own.stored insertsNone before
      rw [stored'] at missing
      cases missing
  · rw [tokens]
    exact framed_put _ free

/-- `t` inserts the next token. -/
theorem Stepped.insert {row : RefreshToken} (sound : Sound tables) (own : Own tables t pc)
    (insertsNone : pc.inserts = none) (inserts : pc'.inserts = some tables.minted)
    (holds : pc'.Holds (tables.insertRefreshToken t row).refreshTokens t) :
    Stepped t pc pc' tables (tables.insertRefreshToken t row) .silent := by
  have fresh := sound.undrawn tables.minted (Nat.le_refl _)
  refine ⟨⟨?_, ?_⟩, ⟨?_, holds⟩, ?_, .quiet ?_ (Or.inl rfl)⟩
  · intro h t' version held
    simp only [Tables.insertRefreshToken] at held ⊢
    rw [committed_put]
    rcases held_put held with ⟨rfl, _, rfl⟩ | ⟨_, before⟩
    · refine ⟨row, rfl, ?_⟩
      intro old stored
      simp [fresh, Row.settled] at stored
    · exact sound.held h t' version before
  · intro h undrawn
    simp only [Tables.insertRefreshToken] at undrawn ⊢
    rw [put_of_ne (by omega)]
    exact sound.undrawn h (by omega)
  · intro h version held missing
    simp only [Tables.insertRefreshToken] at held missing
    rw [committed_put] at missing
    rcases held_put held with ⟨rfl, _, _⟩ | ⟨_, before⟩
    · exact inserts
    · obtain ⟨old, stored⟩ := own.stored insertsNone before
      rw [stored] at missing
      cases missing
  · exact framed_put _ (by simp [Row.FreeFor, fresh, Row.settled])
  · intro h
    simp [Tables.insertRefreshToken]

/-- `t` commits, and its next statement needs nothing. -/
theorem Stepped.commit (sound : Sound tables)
    (holds : ∀ tokens, pc'.Holds tokens t) :
    Stepped t pc pc' tables (tables.commit t) pc.commitEvent := by
  refine ⟨⟨?_, ?_⟩, ⟨?_, holds _⟩, framed_commit t _, .commit rfl rfl⟩
  · intro h t' version held
    obtain ⟨_, before, same⟩ := held_commit held
    simp only [Tables.commit, same]
    exact sound.held h t' version before
  · intro h undrawn
    simp only [Tables.commit] at undrawn ⊢
    have fresh := sound.undrawn h undrawn
    rw [commit_of_not_held (by simp [fresh, Row.settled]), fresh]
  · intro h version held _
    exact absurd rfl (held_commit held).1

theorem Stepped.rollback (sound : Sound tables) (holds : ∀ tokens, pc'.Holds tokens t) :
    Stepped t pc pc' tables (tables.rollback t) .silent := by
  refine ⟨⟨?_, ?_⟩, ⟨?_, holds _⟩, framed_rollback t _,
    .quiet (committed_rollback _ t) (Or.inl rfl)⟩
  · intro h t' version held
    obtain ⟨_, before⟩ := held_rollback held
    simp only [Tables.rollback]
    rw [committed_rollback]
    exact sound.held h t' version before
  · intro h undrawn
    simp only [Tables.rollback] at undrawn ⊢
    have fresh := sound.undrawn h undrawn
    rw [rollback_of_not_held (by simp [fresh, Row.settled]), fresh]
  · intro h version held _
    exact absurd rfl (held_rollback held).1

end Rules

/-! ## Every endpoint keeps the rules -/

section Endpoints

variable {cfg : Config} {t : Nat} {tables tables' : Tables} {now : Int} {pick : Nat} {pc' : Pc}
    {event : Event}

/-- One row of an `UPDATE refresh_tokens`, by whether the row matched. -/
theorem revokeRow_cases {mid : Tables} {h : Nat} {p : RefreshToken → Bool}
    {out : Option RefreshToken} (updated : tables.revokeRow t h p = some (mid, out)) :
    (∃ row, (tables.refreshTokens h).FreeFor t ∧ (tables.refreshTokens h).read t = some row ∧
      p row = true ∧
        out = some row.revoke ∧ mid.minted = tables.minted ∧
        mid.refreshTokens = put tables.refreshTokens t h (some row.revoke)) ∨
      (mid = tables ∧ out = none) := by
  obtain ⟨result, visited, same⟩ := Option.map_eq_some_iff.mp updated
  obtain ⟨rows, value⟩ := result
  simp only [Prod.mk.injEq] at same
  obtain ⟨rfl, rfl⟩ := same
  obtain ⟨free, ⟨row, seen, matched, rfl, rfl⟩ | ⟨rfl, rfl, _⟩⟩ := updateRow_cases visited
  · exact Or.inl ⟨row, free, seen, matched, rfl, rfl, rfl⟩
  · exact Or.inr ⟨rfl, rfl⟩

/-- The row was there, or the session was rolled back. -/
theorem flushed_cases {α : Type} {next : Pc} {updated : Option (Tables × Option α)}
    (ran : flushed t next updated = some (tables', pc', event)) :
    event = .silent ∧
      ((∃ value, updated = some (tables', some value) ∧ pc' = next) ∨
        ∃ mid, updated = some (mid, none) ∧ tables' = mid.rollback t ∧ pc' = .done) := by
  obtain ⟨⟨mid, out⟩, visited, same⟩ := Option.map_eq_some_iff.mp ran
  cases out with
  | some value =>
      cases same
      exact ⟨rfl, Or.inl ⟨value, visited, rfl⟩⟩
  | none =>
      cases same
      exact ⟨rfl, Or.inr ⟨mid, visited, rfl, rfl⟩⟩

theorem updateUser_tokens {mid : Tables} {user : Nat} {f : User → User} {out : Option User}
    (updated : tables.updateUser t user f = some (mid, out)) :
    mid.refreshTokens = tables.refreshTokens ∧ mid.minted = tables.minted := by
  obtain ⟨_, _, same⟩ := Option.map_eq_some_iff.mp updated
  cases same
  exact ⟨rfl, rfl⟩

theorem updateResetToken_tokens {mid : Tables} {h : Nat} {p : PasswordResetToken → Bool}
    {f : PasswordResetToken → PasswordResetToken} {out : Option PasswordResetToken}
    (updated : tables.updateResetToken t h p f = some (mid, out)) :
    mid.refreshTokens = tables.refreshTokens ∧ mid.minted = tables.minted := by
  obtain ⟨_, _, same⟩ := Option.map_eq_some_iff.mp updated
  cases same
  exact ⟨rfl, rfl⟩

/-- The flush of an `UPDATE` on another table. -/
theorem Stepped.flushedElsewhere {α : Type} {pc next : Pc} {updated : Option (Tables × Option α)}
    (sound : Sound tables) (own : Own tables t pc) (insertsNone : pc.inserts = none)
    (elsewhere : ∀ mid out, updated = some (mid, out) →
      mid.refreshTokens = tables.refreshTokens ∧ mid.minted = tables.minted)
    (ran : flushed t next updated = some (tables', pc', event))
    (holds : next.Holds tables.refreshTokens t) : Stepped t pc pc' tables tables' event := by
  obtain ⟨rfl, ⟨value, visited, rfl⟩ | ⟨mid, visited, rfl, rfl⟩⟩ := flushed_cases ran
  · obtain ⟨tokens, minted⟩ := elsewhere _ _ visited
    exact .still sound own insertsNone tokens minted holds (Or.inl rfl)
  · obtain ⟨tokens, minted⟩ := elsewhere _ _ visited
    have soundMid : Sound mid :=
      ⟨by rw [tokens]; exact sound.held, by rw [tokens, minted]; exact sound.undrawn⟩
    have rolledBack : Stepped t pc .done mid (mid.rollback t) .silent :=
      .rollback soundMid fun _ => trivial
    refine ⟨rolledBack.sound, rolledBack.own, tokens ▸ rolledBack.framed, .quiet ?_ (Or.inl rfl)⟩
    intro h
    simp [Tables.rollback, tokens]

theorem stepped_login {pc : LoginPc} (sound : Sound tables) (own : Own tables t (.login pc))
    (ran : pc.step cfg t tables now = some (tables', pc', event)) :
    Stepped t (.login pc) pc' tables tables' event := by
  cases pc with
  | select user password =>
      simp only [LoginPc.step] at ran
      split at ran
      · cases ran
        exact .still sound own rfl rfl rfl trivial (Or.inl rfl)
      · split at ran
        · cases ran
          exact .still sound own rfl rfl rfl trivial (Or.inl rfl)
        · split at ran
          · cases ran
            exact .still sound own rfl rfl rfl trivial (Or.inl rfl)
          · cases ran
            exact .still sound own rfl rfl rfl trivial (Or.inr ⟨user, rfl⟩)
  | touch user =>
      exact .flushedElsewhere sound own rfl (fun _ _ => updateUser_tokens) ran trivial
  | commitTouch user =>
      cases ran
      exact .commit sound fun _ => trivial
  | insert user =>
      cases ran
      refine .insert sound own rfl rfl ⟨newRefreshToken cfg user now, ?_, rfl, rfl⟩
      have fresh := sound.undrawn tables.minted (Nat.le_refl _)
      simp [Tables.insertRefreshToken, fresh, Row.settled]
  | commit user token =>
      cases ran
      exact .commit sound fun _ => trivial

theorem stepped_refresh {pc : RefreshPc} (sound : Sound tables) (own : Own tables t (.refresh pc))
    (ran : pc.step cfg t tables pick = some (tables', pc', event)) :
    Stepped t (.refresh pc) pc' tables tables' event := by
  cases pc with
  | claim presented now =>
      simp only [RefreshPc.step] at ran
      split at ran <;> cases ran <;> exact .still sound own rfl rfl rfl trivial (Or.inl rfl)
  | claimRow presented now =>
      obtain ⟨⟨mid, out⟩, updated, same⟩ := Option.map_eq_some_iff.mp ran
      rcases revokeRow_cases updated with ⟨row, free, seen, live, rfl, minted, tokens⟩ | ⟨rfl, rfl⟩
      · cases same
        refine .revoke sound own rfl free seen tokens minted ?_
        -- the version the claim matched is live, so it is the committed one
        have live : row.revoked = false := ((RefreshToken.claimable_iff now row).mp live).1
        have committed : (tables.refreshTokens presented).committed = some row := by
          rcases Row.read_cases t (tables.refreshTokens presented) with held | ⟨_, same⟩
          · obtain ⟨old, stored⟩ := own.stored rfl held
            obtain ⟨version, same, overwrites⟩ := sound.held presented t _ held
            rw [seen] at same
            cases same
            rw [(overwrites old stored).2] at live
            cases live
          · exact same.symm.trans seen
        exact ⟨row, by rw [tokens, put_self, committed], rfl, live⟩
      · cases same
        exact .still sound own rfl rfl rfl trivial (Or.inl rfl)
  | selectOwner presented user now =>
      simp only [RefreshPc.step] at ran
      split at ran
      · split at ran
        · cases ran
          exact .still sound own rfl rfl rfl own.holds (Or.inl rfl)
        · cases ran
          exact .still sound own rfl rfl rfl trivial (Or.inl rfl)
      · cases ran
        exact .still sound own rfl rfl rfl trivial (Or.inl rfl)
  | insert presented user now =>
      cases ran
      have fresh := sound.undrawn tables.minted (Nat.le_refl _)
      obtain ⟨row, claimed, owner, live⟩ :
          Claimed tables.refreshTokens t presented user := own.holds
      have away : presented ≠ tables.minted := fun same => by
        rw [same, fresh] at claimed
        cases claimed
      refine .insert sound own rfl rfl
        ⟨⟨row, ?_, owner, live⟩, newRefreshToken cfg user now, ?_, rfl, rfl⟩
      · simp only [Tables.insertRefreshToken]
        rw [put_of_ne away, claimed]
      · simp [Tables.insertRefreshToken, fresh, Row.settled]
  | commit presented user new =>
      cases ran
      exact .commit sound fun _ => trivial
  | commitInactive =>
      cases ran
      exact .commit sound fun _ => trivial
  | detect presented =>
      simp only [RefreshPc.step] at ran
      split at ran <;> cases ran <;> exact .still sound own rfl rfl rfl trivial (Or.inl rfl)
  | revokeAll stolen =>
      cases ran
      exact .still sound own rfl rfl rfl trivial (Or.inl rfl)
  | revokeAllRow stolen todo =>
      cases todo with
      | nil =>
          cases ran
          exact .commit sound fun _ => trivial
      | cons h todo =>
          simp only [RefreshPc.step] at ran
          split at ran
          · obtain ⟨⟨mid, out⟩, updated, same⟩ := Option.map_eq_some_iff.mp ran
            cases same
            rcases revokeRow_cases updated with ⟨row, free, seen, _, _, minted, tokens⟩ | ⟨rfl, _⟩
            · exact .revoke sound own rfl free seen tokens minted trivial
            · exact .still sound own rfl rfl rfl trivial (Or.inl rfl)
          · cases ran

/-- One row of the flush of `rt.revoked = True`. -/
theorem Stepped.flushedRevoke {pc next : Pc} {h : Nat} (sound : Sound tables)
    (own : Own tables t pc) (insertsNone : pc.inserts = none)
    (ran : flushed t next (tables.revokeRow t h fun _ => true) = some (tables', pc', event))
    (holds : ∀ row : RefreshToken, next.Holds (put tables.refreshTokens t h (some row.revoke)) t) :
    Stepped t pc pc' tables tables' event := by
  obtain ⟨rfl, ⟨value, updated, rfl⟩ | ⟨mid, updated, rfl, rfl⟩⟩ := flushed_cases ran
  · rcases revokeRow_cases updated with ⟨row, free, seen, _, _, minted, tokens⟩ | ⟨_, missing⟩
    · exact .revoke sound own insertsNone free seen tokens minted (by rw [tokens]; exact holds row)
    · cases missing
  · rcases revokeRow_cases updated with ⟨_, _, _, _, missing, _, _⟩ | ⟨rfl, _⟩
    · cases missing
    · exact .rollback sound fun _ => trivial

theorem stepped_logout {pc : LogoutPc} (sound : Sound tables) (own : Own tables t (.logout pc))
    (ran : pc.step t tables = some (tables', pc', event)) :
    Stepped t (.logout pc) pc' tables tables' event := by
  cases pc with
  | select presented =>
      simp only [LogoutPc.step] at ran
      split at ran <;> cases ran <;> exact .still sound own rfl rfl rfl trivial (Or.inl rfl)
  | revoke presented => exact .flushedRevoke sound own rfl ran fun _ => trivial
  | commit =>
      cases ran
      exact .commit sound fun _ => trivial

theorem stepped_change {pc : ChangePc} (sound : Sound tables) (own : Own tables t (.change pc))
    (ran : pc.step t tables pick = some (tables', pc', event)) :
    Stepped t (.change pc) pc' tables tables' event := by
  cases pc with
  | verify user current new =>
      simp only [ChangePc.step] at ran
      split at ran
      · cases ran
        exact .still sound own rfl rfl rfl trivial (Or.inl rfl)
      · split at ran <;> cases ran <;> exact .still sound own rfl rfl rfl trivial (Or.inl rfl)
  | lockReset presented new now =>
      simp only [ChangePc.step] at ran
      split at ran <;> cases ran <;> exact .still sound own rfl rfl rfl trivial (Or.inl rfl)
  | lockResetRow presented new now =>
      obtain ⟨⟨mid, out⟩, updated, same⟩ := Option.map_eq_some_iff.mp ran
      obtain ⟨tokens, minted⟩ := updateResetToken_tokens updated
      have soundMid : Sound mid :=
        ⟨by rw [tokens]; exact sound.held, by rw [tokens, minted]; exact sound.undrawn⟩
      have rolledBack : Stepped t (.change (.lockResetRow presented new now)) .done tables
          (mid.rollback t) .silent := by
        have after : Stepped t (.change (.lockResetRow presented new now)) .done mid
            (mid.rollback t) .silent :=
          .rollback soundMid fun _ => trivial
        exact ⟨after.sound, after.own, tokens ▸ after.framed,
          .quiet (fun h => by simp [Tables.rollback, tokens]) (Or.inl rfl)⟩
      cases out with
      | none =>
          cases same
          exact rolledBack
      | some token =>
          simp only at same
          split at same
          · cases same
            exact rolledBack
          · cases same
            exact .still sound own rfl tokens minted trivial (Or.inl rfl)
  | getUser job user =>
      simp only [ChangePc.step] at ran
      split at ran
      · cases ran
        exact .rollback sound fun _ => trivial
      · split at ran
        · cases ran
          exact .rollback sound fun _ => trivial
        · split at ran <;> cases ran <;> exact .still sound own rfl rfl rfl trivial (Or.inl rfl)
  | flushUser job user =>
      exact .flushedElsewhere sound own rfl (fun _ _ => updateUser_tokens) ran trivial
  | selectLive job user =>
      cases ran
      exact .still sound own rfl rfl rfl (fun h selected waiting => absurd selected waiting)
        (Or.inl rfl)
  | revoke job user selected todo =>
      have held : ∀ h ∈ selected, h ∉ todo → Revoking tables.refreshTokens t h := own.holds
      cases todo with
      | nil =>
          have all : ∀ h ∈ selected, Revoking tables.refreshTokens t h :=
            fun h member => held h member List.not_mem_nil
          cases job with
          | resetPassword presented new now =>
              exact .flushedElsewhere sound own rfl (fun _ _ => updateResetToken_tokens) ran all
          | changePassword new =>
              cases ran
              exact .still sound own rfl rfl rfl all (Or.inl rfl)
          | deleteProfile =>
              cases ran
              exact .still sound own rfl rfl rfl all (Or.inl rfl)
      | cons h todo =>
          simp only [ChangePc.step] at ran
          split at ran
          · rename_i picked
            refine .flushedRevoke sound own rfl ran ?_
            intro row h' member rest
            by_cases same : h' = pick
            · subst same
              exact ⟨_, row.revoke, put_self _ _ _ _, rfl⟩
            · have notWaiting : h' ∉ h :: todo :=
                fun waiting => rest ((List.mem_erase_of_ne same).mpr waiting)
              obtain ⟨old, row', found, revoked⟩ := held h' member notWaiting
              exact ⟨old, row', (put_of_ne same).trans found, revoked⟩
          · cases ran
  | commit job user selected =>
      cases ran
      exact .commit sound fun _ => trivial

theorem stepped_forgot {pc : ForgotPc} (sound : Sound tables) (own : Own tables t (.forgot pc))
    (ran : pc.step cfg t tables now pick = some (tables', pc', event)) :
    Stepped t (.forgot pc) pc' tables tables' event := by
  cases pc with
  | select user =>
      simp only [ForgotPc.step] at ran
      split at ran <;> cases ran <;> exact .still sound own rfl rfl rfl trivial (Or.inl rfl)
  | supersede user =>
      cases ran
      exact .still sound own rfl rfl rfl trivial (Or.inl rfl)
  | supersedeRow user used todo =>
      cases todo with
      | nil =>
          cases ran
          exact .still sound own rfl rfl rfl trivial (Or.inl rfl)
      | cons h todo =>
          simp only [ForgotPc.step] at ran
          split at ran
          · obtain ⟨⟨mid, out⟩, updated, same⟩ := Option.map_eq_some_iff.mp ran
            cases same
            obtain ⟨tokens, minted⟩ := updateResetToken_tokens updated
            exact .still sound own rfl tokens minted trivial (Or.inl rfl)
          · cases ran
  | insert user =>
      cases ran
      exact .still sound own rfl rfl rfl trivial (Or.inl rfl)
  | commit user token =>
      cases ran
      exact .commit sound fun _ => trivial

/-- **Every statement keeps the rules.** -/
theorem stepped {pc : Pc} (sound : Sound tables) (own : Own tables t pc)
    (ran : pc.step cfg t tables now pick = some (tables', pc', event)) :
    Stepped t pc pc' tables tables' event := by
  cases pc with
  | login pc => exact stepped_login sound own ran
  | refresh pc => exact stepped_refresh sound own ran
  | logout pc => exact stepped_logout sound own ran
  | change pc => exact stepped_change sound own ran
  | forgot pc => exact stepped_forgot sound own ran
  | idle => cases ran
  | done => cases ran

end Endpoints

/-! ## In every reached state -/

/-- The table is sound and every request owns what its `Pc` says. -/
structure Owned (s : State) : Prop where
  sound : Sound s.tables
  own : ∀ t, Own s.tables t (s.pcs t)

theorem own_start (request : Request) {tables : Tables} {t : Nat} (own : Own tables t .idle) :
    Own tables t request.start where
  inserting := fun h version held missing => by
    have := own.inserting h version held missing
    cases this
  holds := by cases request <;> trivial

section Runs

variable {cfg : Config} {ok : State → Act → Prop}

theorem owned_start {s : State} (starts : Start s) : Owned s where
  sound :=
    { held := fun h t version held => by
        rw [starts.refreshTokens h] at held
        cases held
      undrawn := fun h undrawn => by
        have free := starts.refreshTokens h
        have missing := starts.undrawn h undrawn
        cases row : s.tables.refreshTokens h
        rw [row] at free missing
        cases free
        cases missing
        rfl }
  own := fun t =>
    { inserting := fun h version held => by
        rw [starts.refreshTokens h] at held
        cases held
      holds := by
        rw [starts.pcs t]
        trivial }

/-- Request `t` took a step that keeps the rules; the others own what they owned. -/
theorem Owned.stepped {s : State} (owned : Owned s) {t : Nat} {pc pc' : Pc} {tables' : Tables}
    {event : Event} (stepped : Stepped t pc pc' s.tables tables' event) (history : History) :
    Owned { tables := tables', pcs := Function.update s.pcs t pc', history := history } where
  sound := stepped.sound
  own := fun t' => by
    by_cases same : t' = t
    · subst same
      simpa using stepped.own
    · simpa [same] using (owned.own t').framed stepped.framed same

/-- What a step of the system does: a request arrives, or one keeps the rules. -/
theorem step_cases {s s' : State} {a : Act} (owned : Owned s) (ran : step cfg s a = some s') :
    (∃ t request, a = .submit t request ∧ s.pcs t = .idle ∧
        s' = { s with pcs := Function.update s.pcs t request.start }) ∨
      (∃ t now pick pc' tables' event, a = .advance t now pick ∧
        Stepped t (s.pcs t) pc' s.tables tables' event ∧
        s' = { tables := tables', pcs := Function.update s.pcs t pc', history := s.history.record t event }) ∨
      ∃ t, a = .abort t ∧ Stepped t (s.pcs t) .done s.tables (s.tables.rollback t) .silent ∧
        s' = { s with tables := s.tables.rollback t, pcs := Function.update s.pcs t .done } := by
  cases a with
  | submit t request =>
      simp only [step] at ran
      split at ran
      · rename_i idle
        cases ran
        exact Or.inl ⟨t, request, rfl, idle, rfl⟩
      · cases ran
  | advance t now pick =>
      obtain ⟨⟨tables', pc', event⟩, advanced, same⟩ := Option.map_eq_some_iff.mp ran
      cases same
      exact Or.inr (Or.inl ⟨t, now, pick, pc', tables', event, rfl, stepped owned.sound (owned.own t) advanced, rfl⟩)
  | abort t =>
      cases ran
      exact Or.inr (Or.inr ⟨t, rfl, .rollback owned.sound fun _ => trivial, rfl⟩)

theorem owned_step {s s' : State} {a : Act} (owned : Owned s) (ran : step cfg s a = some s') :
    Owned s' := by
  rcases step_cases owned ran with
    ⟨t, request, _, idle, rfl⟩ | ⟨t, now, pick, pc', tables', event, _, stepped, rfl⟩ |
      ⟨t, _, stepped, rfl⟩
  · refine ⟨owned.sound, ?_⟩
    intro t'
    by_cases same : t' = t
    · subst same
      simpa using own_start request (idle ▸ owned.own t')
    · simpa [same] using owned.own t'
  · exact owned.stepped stepped _
  · exact owned.stepped stepped _

theorem owned_of_reach {s : State} (reached : Reach (step cfg) ok Start s) : Owned s :=
  reached.invariant (fun _ starts => owned_start starts) fun _ _ _ owned _ ran =>
    owned_step owned ran

end Runs

end Empyrean.Auth.Requests
