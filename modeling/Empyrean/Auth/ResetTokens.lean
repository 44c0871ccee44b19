/-
# Empyrean.Auth.ResetTokens — what each request holds in `password_reset_tokens`

The counterpart of `Empyrean.Auth.Ownership` for the table of reset tokens.  Two
endpoints write it: `reset_password` locks one row and marks it as used,
`forgot_password` marks the user's unredeemed rows and inserts one.

* `Marks` — a stored token is only ever overwritten by itself, marked as used.
* `OwnResets` — the rows request `t` holds are the ones its `Pc` speaks of.
* `Pc.Swept` — while a `forgot_password` is under way: the unredeemed tokens of its
  snapshot are still to be visited, or marked.
* `steppedResets` — every statement of every endpoint keeps these, and frames the rest.
-/
import Empyrean.Auth.Ownership

namespace Empyrean.Auth.Requests

set_option autoImplicit false

open Empyrean.Theory Empyrean.Theory.RowStore Empyrean.Theory.Runs

/-- `row` is the token `old`, as it was or marked as used. -/
def Marks (old row : PasswordResetToken) : Prop :=
  row = old ∨ (old.usedAt = none ∧ ∃ used, row = { old with usedAt := some used })

theorem Marks.userId {old row : PasswordResetToken} (marks : Marks old row) :
    row.userId = old.userId := by
  rcases marks with rfl | ⟨_, used, rfl⟩ <;> rfl

theorem Marks.expiresAt {old row : PasswordResetToken} (marks : Marks old row) :
    row.expiresAt = old.expiresAt := by
  rcases marks with rfl | ⟨_, used, rfl⟩ <;> rfl

/-- An unredeemed version is the committed one. -/
theorem Marks.eq_of_unused {old row : PasswordResetToken} (marks : Marks old row)
    (unused : row.usedAt = none) : row = old := by
  rcases marks with rfl | ⟨_, used, rfl⟩
  · rfl
  · cases unused

theorem unredeemedOf_iff (user : Nat) (token : PasswordResetToken) :
    token.unredeemedOf user = true ↔ token.userId = user ∧ token.usedAt = none := by
  simp [PasswordResetToken.unredeemedOf]

theorem invalid_eq_false_iff (now : Int) (token : PasswordResetToken) :
    token.invalid now = false ↔ token.usedAt = none ∧ now < token.expiresAt := by
  simp [PasswordResetToken.invalid]

/-! ## The facts of a program counter -/

/-- `t` has locked `h`, found it valid at `now`, and not changed it. -/
def Locked (tokens : Rows Nat Nat PasswordResetToken) (t h user : Nat) (now : Int) : Prop :=
  ∃ row, tokens h = ⟨some row, some (t, some row)⟩ ∧ row.userId = user ∧ row.invalid now = false

/-- `t` will commit `h` as used at `now`. -/
def Redeeming (tokens : Rows Nat Nat PasswordResetToken) (t h user : Nat) (now : Int) : Prop :=
  ∃ row, tokens h = ⟨some row, some (t, some { row with usedAt := some now })⟩ ∧ row.userId = user ∧
    row.invalid now = false

/-- `t` has inserted `h`, which nobody else sees yet. -/
def Issuing (tokens : Rows Nat Nat PasswordResetToken) (t h user : Nat) : Prop :=
  ∃ row, tokens h = ⟨none, some (t, some row)⟩ ∧ row.userId = user ∧ row.usedAt = none

/-- What the request brought to `reset_password`: the token, the password, its clock reading. -/
def Job.redeems : Job → Option (Nat × Nat × Int)
  | .resetPassword presented new now => some (presented, new, now)
  | _ => none

def Pc.redeems : Pc → Option (Nat × Nat × Int)
  | .change (.lockReset presented new now) | .change (.lockResetRow presented new now) =>
    some (presented, new, now)
  | .change (.getUser job _) | .change (.flushUser job _) | .change (.selectLive job _)
  | .change (.revoke job _ _ _) | .change (.commit job _ _) => job.redeems
  | _ => none

/-- The rows that the request may hold. -/
def Pc.mayLock : Pc → Nat → Prop
  | .change (.lockReset _ _ _), _ | .change (.lockResetRow _ _ _), _ => False
  | .change pc, h => ∃ new now, (Pc.change pc).redeems = some (h, new, now)
  | .forgot (.supersedeRow _ _ _), _ | .forgot (.insert _), _ | .forgot (.commit _ _), _ => True
  | _, _ => False

def Pc.insertsReset : Pc → Option Nat
  | .forgot (.commit _ token) => some token
  | _ => none

def Pc.HoldsReset (tokens : Rows Nat Nat PasswordResetToken) (t : Nat) : Pc → Prop
  | .change (.getUser (.resetPassword presented _ now) user) => Locked tokens t presented user now
  | .change (.flushUser (.resetPassword presented _ now) user) => Locked tokens t presented user now
  | .change (.selectLive (.resetPassword presented _ now) user) =>
      Locked tokens t presented user now
  | .change (.revoke (.resetPassword presented _ now) user _ _) =>
      Locked tokens t presented user now
  | .change (.commit (.resetPassword presented _ now) user _) =>
      Redeeming tokens t presented user now
  | .forgot (.commit user token) => Issuing tokens t token user
  | _ => True

/-- Every unredeemed token of the user is still to be visited, or `t` will leave it used. -/
def Swept (tokens : Rows Nat Nat PasswordResetToken) (t user : Nat) (todo : List Nat) : Prop :=
  ∀ h row, (tokens h).committed = some row → row.unredeemedOf user = true →
    h ∈ todo ∨ ∃ version, (tokens h).held = some (t, some version) ∧ version.usedAt.isSome

def Pc.Swept (tokens : Rows Nat Nat PasswordResetToken) (t : Nat) : Pc → Prop
  | .forgot (.supersedeRow user _ todo) => Requests.Swept tokens t user todo
  | .forgot (.insert user) | .forgot (.commit user _) => Requests.Swept tokens t user []
  | _ => True

abbrev SoundResets (tables : Tables) : Prop :=
  RowStore.Sound Marks (· < tables.resetMinted) tables.resetTokens

structure OwnResets (tables : Tables) (t : Nat) (pc : Pc) : Prop where
  lock : ∀ h version, (tables.resetTokens h).held = some (t, version) → pc.mayLock h
  inserting : ∀ h version, (tables.resetTokens h).held = some (t, version) →
    (tables.resetTokens h).committed = none → pc.insertsReset = some h
  holds : pc.HoldsReset tables.resetTokens t

/-- What a statement of `t` commits: nothing, or what `t` holds. -/
inductive EffectResets (t : Nat) (pc : Pc) (tables tables' : Tables) : Prop
  | quiet (committed : ∀ h, (tables'.resetTokens h).committed = (tables.resetTokens h).committed)
  | commit (tokens : tables'.resetTokens = RowStore.commit tables.resetTokens t)
      (ends : ∀ user used todo, pc ≠ .forgot (.supersedeRow user used todo))

/-- What every statement of `t` guarantees, from `pc` to `pc'`. -/
structure SteppedResets (t : Nat) (pc pc' : Pc) (tables tables' : Tables) : Prop where
  sound : SoundResets tables'
  own : OwnResets tables' t pc'
  framed : Framed t tables.resetTokens tables'.resetTokens
  effect : EffectResets t pc tables tables'
  minted : tables.resetMinted ≤ tables'.resetMinted
  fresh : ∀ h version, h < tables.resetMinted → (tables'.resetTokens h).held = some (t, version) →
    (tables'.resetTokens h).committed = none →
      (tables.resetTokens h).held = some (t, version) ∧ (tables.resetTokens h).committed = none
  swept : pc.Swept tables.resetTokens t → pc'.Swept tables'.resetTokens t

/-! ## The facts survive other requests -/

section Frame

variable {t t' : Nat} {tables tables' : Tables}

theorem Pc.HoldsReset.framed {pc : Pc} (holds : pc.HoldsReset tables.resetTokens t')
    (framed : Framed t tables.resetTokens tables'.resetTokens) (different : t' ≠ t) :
    pc.HoldsReset tables'.resetTokens t' := by
  have locked : ∀ {h user : Nat} {now : Int}, Locked tables.resetTokens t' h user now →
      Locked tables'.resetTokens t' h user now := by
    rintro h user now ⟨row, found, rest⟩
    exact ⟨row, (framed.keeps different (by rw [found])).trans found, rest⟩
  unfold Pc.HoldsReset at holds ⊢
  split at holds
  · exact locked holds
  · exact locked holds
  · exact locked holds
  · exact locked holds
  · obtain ⟨row, found, rest⟩ := holds
    exact ⟨row, (framed.keeps different (by rw [found])).trans found, rest⟩
  · obtain ⟨row, found, rest⟩ := holds
    exact ⟨row, (framed.keeps different (by rw [found])).trans found, rest⟩
  · trivial

theorem OwnResets.framed {pc : Pc} (own : OwnResets tables t' pc)
    (framed : Framed t tables.resetTokens tables'.resetTokens) (different : t' ≠ t) :
    OwnResets tables' t' pc where
  lock := fun h version held => own.lock h version (framed.held_before different held).1
  inserting := fun h version held missing => by
    obtain ⟨before, same⟩ := framed.held_before different held
    exact own.inserting h version before (same ▸ missing)
  holds := own.holds.framed framed different

end Frame

/-! ## One rule for each kind of statement -/

section Rules

variable {t : Nat} {pc pc' : Pc} {tables tables' : Tables}

/-- A request that inserts nothing reads a stored token, or its own marked version of it. -/
theorem OwnResets.seen (own : OwnResets tables t pc) (sound : SoundResets tables)
    (insertsNone : pc.insertsReset = none) {h : Nat} {row : PasswordResetToken}
    (seen : (tables.resetTokens h).read t = some row) :
    ∃ old, (tables.resetTokens h).committed = some old ∧ Marks old row := by
  rcases Row.read_cases t (tables.resetTokens h) with held | ⟨_, committed⟩
  · obtain ⟨version, same, allowed⟩ := sound.held h t _ held
    rw [seen] at same
    cases same
    cases stored : (tables.resetTokens h).committed with
    | some old => exact ⟨old, rfl, allowed old stored⟩
    | none =>
        have inserts := own.inserting h _ held stored
        rw [insertsNone] at inserts
        cases inserts
  · exact ⟨row, committed.symm.trans seen, Or.inl rfl⟩

/-- `password_reset_tokens` is only read. -/
theorem SteppedResets.still (sound : SoundResets tables) (own : OwnResets tables t pc)
    (insertsNone : pc.insertsReset = none) (tokens : tables'.resetTokens = tables.resetTokens)
    (minted : tables'.resetMinted = tables.resetMinted) (lock : ∀ h, pc.mayLock h → pc'.mayLock h)
    (holds : pc'.HoldsReset tables.resetTokens t)
    (swept : pc.Swept tables.resetTokens t → pc'.Swept tables.resetTokens t) :
    SteppedResets t pc pc' tables tables' where
  sound := by rwa [SoundResets, tokens, minted]
  own :=
    { lock := fun h version held => by
        rw [tokens] at held
        exact lock h (own.lock h version held)
      inserting := fun h version held missing => by
        rw [tokens] at held missing
        have inserts := own.inserting h version held missing
        rw [insertsNone] at inserts
        cases inserts
      holds := by rwa [tokens] }
  framed := by
    rw [tokens]
    exact framed_refl t _
  effect := .quiet fun h => by rw [tokens]
  minted := Nat.le_of_eq minted.symm
  fresh := fun h version _ held missing => by
    rw [tokens] at held missing
    exact ⟨held, missing⟩
  swept := by rwa [tokens]

/-- `t` writes a version of the stored token `h`. -/
theorem SteppedResets.mark {h : Nat} {old row : PasswordResetToken} (sound : SoundResets tables)
    (own : OwnResets tables t pc) (insertsNone : pc.insertsReset = none)
    (free : (tables.resetTokens h).FreeFor t) (stored : (tables.resetTokens h).committed = some old)
    (marks : Marks old row) (tokens : tables'.resetTokens = put tables.resetTokens t h (some row))
    (minted : tables'.resetMinted = tables.resetMinted)
    (lock : ∀ h', pc.mayLock h' → pc'.mayLock h') (here : pc'.mayLock h)
    (holds : pc'.HoldsReset tables'.resetTokens t)
    (swept : pc.Swept tables.resetTokens t → pc'.Swept tables'.resetTokens t) :
    SteppedResets t pc pc' tables tables' where
  sound := by
    have drawn : h < tables.resetMinted := sound.drawn_of_committed stored
    rw [SoundResets, tokens, minted]
    refine sound_put sound drawn (fun _ earlier => earlier) ?_
    intro other found
    rw [stored] at found
    cases found
    exact marks
  own :=
    { lock := fun h' version held => by
        rw [tokens] at held
        rcases held_put held with ⟨rfl, _, _⟩ | ⟨_, before⟩
        · exact here
        · exact lock h' (own.lock h' version before)
      inserting := fun h' version held missing => by
        rw [tokens] at held missing
        rw [committed_put] at missing
        rcases held_put held with ⟨rfl, _, _⟩ | ⟨_, before⟩
        · rw [stored] at missing
          cases missing
        · have inserts := own.inserting h' version before missing
          rw [insertsNone] at inserts
          cases inserts
      holds := holds }
  framed := by
    rw [tokens]
    exact framed_put _ free
  effect := .quiet fun h' => by rw [tokens, committed_put]
  minted := Nat.le_of_eq minted.symm
  fresh := fun h' version _ held missing => by
    rw [tokens] at held missing
    rw [committed_put] at missing
    rcases held_put held with ⟨rfl, _, _⟩ | ⟨_, before⟩
    · rw [stored] at missing
      cases missing
    · exact ⟨before, missing⟩
  swept := swept

/-- `t` inserts the next reset token. -/
theorem SteppedResets.insert {row : PasswordResetToken} (sound : SoundResets tables)
    (own : OwnResets tables t pc) (insertsNone : pc.insertsReset = none)
    (inserts : pc'.insertsReset = some tables.resetMinted) (lock : ∀ h, pc'.mayLock h)
    (holds : pc'.HoldsReset (tables.insertResetToken t row).resetTokens t)
    (swept : pc.Swept tables.resetTokens t →
      pc'.Swept (tables.insertResetToken t row).resetTokens t) :
    SteppedResets t pc pc' tables (tables.insertResetToken t row) where
  sound := by
    have fresh := sound.undrawn tables.resetMinted (Nat.lt_irrefl _)
    have here : tables.resetMinted < tables.resetMinted + 1 := Nat.lt_succ_self _
    refine sound_put sound here (fun _ drawn => Nat.lt_succ_of_lt drawn) ?_
    intro old stored
    simp [fresh, Row.settled] at stored
  own :=
    { lock := fun h _ _ => lock h
      inserting := fun h version held missing => by
        simp only [Tables.insertResetToken] at held missing
        rw [committed_put] at missing
        rcases held_put held with ⟨rfl, _, _⟩ | ⟨_, before⟩
        · exact inserts
        · have inserts := own.inserting h version before missing
          rw [insertsNone] at inserts
          cases inserts
      holds := holds }
  framed := framed_put _ (by
    have fresh := sound.undrawn tables.resetMinted (Nat.lt_irrefl _)
    simp [Row.FreeFor, fresh, Row.settled])
  effect := .quiet fun h => by simp [Tables.insertResetToken]
  minted := Nat.le_succ _
  fresh := fun h version drawn held missing => by
    simp only [Tables.insertResetToken] at held missing
    rw [committed_put] at missing
    rcases held_put held with ⟨rfl, _, _⟩ | ⟨_, before⟩
    · exact absurd drawn (Nat.lt_irrefl _)
    · exact ⟨before, missing⟩
  swept := swept

/-- `t` commits, and its next statement needs nothing. -/
theorem SteppedResets.commit (sound : SoundResets tables)
    (ends : ∀ user used todo, pc ≠ .forgot (.supersedeRow user used todo))
    (holds : ∀ rows, pc'.HoldsReset rows t) (swept : ∀ rows, pc'.Swept rows t) :
    SteppedResets t pc pc' tables (tables.commit t) where
  sound := sound_commit sound
  own :=
    { lock := fun _ _ held => absurd rfl (held_commit held).1
      inserting := fun _ _ held _ => absurd rfl (held_commit held).1
      holds := holds _ }
  framed := framed_commit t _
  effect := .commit rfl ends
  minted := Nat.le_refl _
  fresh := fun _ _ _ held _ => absurd rfl (held_commit held).1
  swept := fun _ => swept _

/-- The session ends and gives back what it holds. -/
theorem SteppedResets.rollback {mid : Tables} (sound : SoundResets mid)
    (framed : Framed t tables.resetTokens mid.resetTokens)
    (committed : ∀ h, (mid.resetTokens h).committed = (tables.resetTokens h).committed)
    (minted : mid.resetMinted = tables.resetMinted)
    (holds : ∀ rows, pc'.HoldsReset rows t) (swept : ∀ rows, pc'.Swept rows t) :
    SteppedResets t pc pc' tables (mid.rollback t) where
  sound := sound_rollback sound
  own :=
    { lock := fun _ _ held => absurd rfl (held_rollback held).1
      inserting := fun _ _ held _ => absurd rfl (held_rollback held).1
      holds := holds _ }
  framed := framed.trans (framed_rollback t _)
  effect := .quiet fun h => (committed_rollback _ t h).trans (committed h)
  minted := Nat.le_of_eq minted.symm
  fresh := fun _ _ _ held _ => absurd rfl (held_rollback held).1
  swept := fun _ => swept _

end Rules

/-! ## Every endpoint keeps the rules -/

section Endpoints

variable {cfg : Config} {t : Nat} {tables tables' : Tables} {now : Int} {pick : Nat} {pc pc' : Pc}
    {event : Event}

/-- The next statement needs nothing of the reset tokens, and so did this one. -/
def Pc.Elsewhere (pc : Pc) : Prop := (∀ h, ¬ pc.mayLock h) ∧ pc.insertsReset = none

/-- A statement on the other two tables. -/
theorem SteppedResets.elsewhere (sound : SoundResets tables) (own : OwnResets tables t pc)
    (from_ : pc.Elsewhere) (tokens : tables'.resetTokens = tables.resetTokens)
    (minted : tables'.resetMinted = tables.resetMinted) (holds : ∀ rows, pc'.HoldsReset rows t)
    (swept : ∀ rows, pc'.Swept rows t) : SteppedResets t pc pc' tables tables' :=
  .still sound own from_.2 tokens minted (fun h locks => absurd locks (from_.1 h))
    (holds _) fun _ => swept _

theorem SteppedResets.ended (sound : SoundResets tables) (from_ : pc.Elsewhere)
    (holds : ∀ rows, pc'.HoldsReset rows t) (swept : ∀ rows, pc'.Swept rows t) :
    SteppedResets t pc pc' tables (tables.commit t) :=
  .commit sound (fun _ _ _ same => from_.1 0 (same ▸ trivial)) holds swept

theorem revokeRow_resets {mid : Tables} {h : Nat} {p : RefreshToken → Bool}
    {out : Option RefreshToken} (updated : tables.revokeRow t h p = some (mid, out)) :
    mid.resetTokens = tables.resetTokens ∧ mid.resetMinted = tables.resetMinted := by
  obtain ⟨_, _, same⟩ := Option.map_eq_some_iff.mp updated
  cases same
  exact ⟨rfl, rfl⟩

theorem updateUser_resets {mid : Tables} {user : Nat} {f : User → User} {out : Option User}
    (updated : tables.updateUser t user f = some (mid, out)) :
    mid.resetTokens = tables.resetTokens ∧ mid.resetMinted = tables.resetMinted := by
  obtain ⟨_, _, same⟩ := Option.map_eq_some_iff.mp updated
  cases same
  exact ⟨rfl, rfl⟩

/-- The flush of an `UPDATE` on another table. -/
theorem SteppedResets.flushed {α : Type} {next : Pc} {updated : Option (Tables × Option α)}
    (sound : SoundResets tables) (own : OwnResets tables t pc)
    (insertsNone : pc.insertsReset = none) (elsewhere : ∀ mid out, updated = some (mid, out) →
      mid.resetTokens = tables.resetTokens ∧ mid.resetMinted = tables.resetMinted)
    (ran : Requests.flushed t next updated = some (tables', pc', event))
    (lock : ∀ h, pc.mayLock h → next.mayLock h) (holds : next.HoldsReset tables.resetTokens t)
    (swept : pc.Swept tables.resetTokens t → next.Swept tables.resetTokens t) :
    SteppedResets t pc pc' tables tables' := by
  obtain ⟨_, ⟨value, visited, rfl⟩ | ⟨mid, visited, rfl, rfl⟩⟩ := flushed_cases ran
  · obtain ⟨tokens, minted⟩ := elsewhere _ _ visited
    exact .still sound own insertsNone tokens minted lock holds swept
  · obtain ⟨tokens, minted⟩ := elsewhere _ _ visited
    have soundMid : SoundResets mid := by rwa [SoundResets, tokens, minted]
    refine .rollback soundMid ?_ (fun h => by
      rw [tokens]) minted (fun _ => trivial) fun _ => trivial
    rw [tokens]
    exact framed_refl t _

theorem steppedResets_login {pc : LoginPc} (sound : SoundResets tables)
    (own : OwnResets tables t (.login pc)) (ran : pc.step cfg t tables now =
      some (tables', pc', event)) : SteppedResets t (.login pc) pc' tables tables' := by
  have from_ : (Pc.login pc).Elsewhere := ⟨fun _ => id, rfl⟩
  cases pc with
  | select user password =>
      simp only [LoginPc.step] at ran
      split at ran
      · cases ran
        exact .elsewhere sound own from_ rfl rfl (fun _ => trivial) fun _ => trivial
      · split at ran
        · cases ran
          exact .elsewhere sound own from_ rfl rfl (fun _ => trivial) fun _ => trivial
        · split at ran <;> cases ran <;>
            exact .elsewhere sound own from_ rfl rfl (fun _ => trivial) fun _ => trivial
  | touch user =>
      exact .flushed sound own rfl (fun _ _ => updateUser_resets) ran
        (fun _ => id) trivial fun _ => trivial
  | commitTouch user =>
      cases ran
      exact .ended sound from_ (fun _ => trivial) fun _ => trivial
  | insert user =>
      cases ran
      exact .elsewhere sound own from_ rfl rfl (fun _ => trivial) fun _ => trivial
  | commit user token =>
      cases ran
      exact .ended sound from_ (fun _ => trivial) fun _ => trivial

theorem steppedResets_refresh {pc : RefreshPc} (sound : SoundResets tables)
    (own : OwnResets tables t (.refresh pc))
    (ran : pc.step cfg t tables pick = some (tables', pc', event)) :
    SteppedResets t (.refresh pc) pc' tables tables' := by
  have from_ : (Pc.refresh pc).Elsewhere := ⟨fun _ => id, rfl⟩
  cases pc with
  | claim presented now =>
      simp only [RefreshPc.step] at ran
      split at ran <;> cases ran <;>
        exact .elsewhere sound own from_ rfl rfl (fun _ => trivial) fun _ => trivial
  | claimRow presented now =>
      obtain ⟨⟨mid, out⟩, updated, same⟩ := Option.map_eq_some_iff.mp ran
      obtain ⟨tokens, minted⟩ := revokeRow_resets updated
      cases out <;> cases same <;>
        exact .elsewhere sound own from_ tokens minted (fun _ => trivial) fun _ => trivial
  | selectOwner presented user now =>
      simp only [RefreshPc.step] at ran
      split at ran
      · split at ran <;> cases ran <;>
          exact .elsewhere sound own from_ rfl rfl (fun _ => trivial) fun _ => trivial
      · cases ran
        exact .elsewhere sound own from_ rfl rfl (fun _ => trivial) fun _ => trivial
  | insert presented user now =>
      cases ran
      exact .elsewhere sound own from_ rfl rfl (fun _ => trivial) fun _ => trivial
  | commit presented user new =>
      cases ran
      exact .ended sound from_ (fun _ => trivial) fun _ => trivial
  | commitInactive =>
      cases ran
      exact .ended sound from_ (fun _ => trivial) fun _ => trivial
  | detect presented =>
      simp only [RefreshPc.step] at ran
      split at ran <;> cases ran <;>
        exact .elsewhere sound own from_ rfl rfl (fun _ => trivial) fun _ => trivial
  | revokeAll stolen =>
      cases ran
      exact .elsewhere sound own from_ rfl rfl (fun _ => trivial) fun _ => trivial
  | revokeAllRow stolen todo =>
      cases todo with
      | nil =>
          cases ran
          exact .ended sound from_ (fun _ => trivial) fun _ => trivial
      | cons h todo =>
          simp only [RefreshPc.step] at ran
          split at ran
          · obtain ⟨⟨mid, out⟩, updated, same⟩ := Option.map_eq_some_iff.mp ran
            obtain ⟨tokens, minted⟩ := revokeRow_resets updated
            cases same
            exact .elsewhere sound own from_ tokens minted (fun _ => trivial) fun _ => trivial
          · cases ran

theorem steppedResets_logout {pc : LogoutPc} (sound : SoundResets tables)
    (own : OwnResets tables t (.logout pc)) (ran : pc.step t tables = some (tables', pc', event)) :
    SteppedResets t (.logout pc) pc' tables tables' := by
  have from_ : (Pc.logout pc).Elsewhere := ⟨fun _ => id, rfl⟩
  cases pc with
  | select presented =>
      simp only [LogoutPc.step] at ran
      split at ran <;> cases ran <;>
        exact .elsewhere sound own from_ rfl rfl (fun _ => trivial) fun _ => trivial
  | revoke presented =>
      exact .flushed sound own rfl (fun _ _ => revokeRow_resets) ran
        (fun _ => id) trivial fun _ => trivial
  | commit =>
      cases ran
      exact .ended sound from_ (fun _ => trivial) fun _ => trivial

/-- One row of an update of `password_reset_tokens`, by whether the row matched. -/
theorem updateResetToken_cases {mid : Tables} {h : Nat} {p : PasswordResetToken → Bool}
    {f : PasswordResetToken → PasswordResetToken} {out : Option PasswordResetToken}
    (updated : tables.updateResetToken t h p f = some (mid, out)) :
    (tables.resetTokens h).FreeFor t ∧
      ((∃ row, (tables.resetTokens h).read t = some row ∧ p row = true ∧ out = some (f row) ∧
          mid = { tables with resetTokens := put tables.resetTokens t h (some (f row)) }) ∨
        (mid = tables ∧ out = none ∧ ∀ row, (tables.resetTokens h).read t = some row →
          p row = false)) := by
  obtain ⟨⟨rows, value⟩, visited, same⟩ := Option.map_eq_some_iff.mp updated
  simp only [Prod.mk.injEq] at same
  obtain ⟨rfl, rfl⟩ := same
  obtain ⟨free, ⟨row, seen, matched, rfl, rfl⟩ | ⟨rfl, rfl, unmatched⟩⟩ := updateRow_cases visited
  · exact ⟨free, Or.inl ⟨row, seen, matched, rfl, rfl⟩⟩
  · exact ⟨free, Or.inr ⟨rfl, rfl, unmatched⟩⟩

/-- A request that may not hold a row reads the committed one. -/
theorem OwnResets.read_committed (own : OwnResets tables t pc) {h : Nat}
    (unlocked : ¬ pc.mayLock h) :
    (tables.resetTokens h).read t = (tables.resetTokens h).committed :=
  Row.read_of_not_held fun version held => unlocked (own.lock h version held)

/-- The row is locked, and the token found invalid or kept for the rest of the request. -/
theorem steppedResets_lockResetRow {presented new : Nat} {now : Int} (sound : SoundResets tables)
    (own : OwnResets tables t (.change (.lockResetRow presented new now)))
    (ran : (ChangePc.lockResetRow presented new now).step t tables pick =
      some (tables', pc', event)) :
    SteppedResets t (.change (.lockResetRow presented new now)) pc' tables tables' := by
  have committed := own.read_committed (h := presented) id
  obtain ⟨⟨mid, out⟩, updated, same⟩ := Option.map_eq_some_iff.mp ran
  obtain ⟨free, ⟨row, seen, _, rfl, rfl⟩ | ⟨rfl, rfl, _⟩⟩ := updateResetToken_cases updated
  · have stored : (tables.resetTokens presented).committed = some row := committed.symm.trans seen
    simp only [id] at same
    split at same
    · cases same
      have drawn : presented < tables.resetMinted := sound.drawn_of_committed stored
      refine .rollback ?_ (framed_put _ free) (fun h => committed_put _ _ _ _ _) rfl
        (fun _ => trivial) fun _ => trivial
      refine sound_put sound drawn (fun _ earlier => earlier) ?_
      intro old found
      rw [stored] at found
      cases found
      exact Or.inl rfl
    · rename_i valid
      cases same
      refine .mark sound own rfl free stored (Or.inl rfl) rfl rfl (fun h locks => locks.elim)
        ⟨new, now, rfl⟩ ?_ fun _ => trivial
      exact ⟨row, by simp [stored], rfl, by simpa using valid⟩
  · cases same
    exact .rollback sound (framed_refl t _) (fun _ => rfl) rfl (fun _ => trivial) fun _ => trivial

/-- The token of the request is marked used: its row is locked, so the statement finds it. -/
theorem steppedResets_redeem {presented new user : Nat} {now : Int} {selected : List Nat}
    (sound : SoundResets tables)
    (own : OwnResets tables t (.change (.revoke (.resetPassword presented new now) user selected [])))
    (ran : (ChangePc.revoke (.resetPassword presented new now) user selected []).step t tables pick =
      some (tables', pc', event)) :
    SteppedResets t (.change (.revoke (.resetPassword presented new now) user selected [])) pc' tables tables' := by
  obtain ⟨row, found, owner, valid⟩ : Locked tables.resetTokens t presented user now := own.holds
  have holds : (tables.resetTokens presented).held = some (t, some row) := by rw [found]
  obtain ⟨_, ⟨value, updated, rfl⟩ | ⟨mid, updated, _, _⟩⟩ := flushed_cases ran
  · obtain ⟨free, ⟨seen, read, _, _, rfl⟩ | ⟨_, none, _⟩⟩ := updateResetToken_cases updated
    · rw [Row.read_of_held holds] at read
      cases read
      have unused := ((invalid_eq_false_iff now row).mp valid).1
      refine .mark sound own rfl free (by rw [found]) (Or.inr ⟨unused, now, rfl⟩) rfl rfl
        (fun _ => id)
        ⟨new, now, rfl⟩ ?_ fun _ => trivial
      exact ⟨row, by simp [found], owner, valid⟩
    · cases none
  · obtain ⟨_, ⟨_, _, _, none, _⟩ | ⟨_, _, unmatched⟩⟩ := updateResetToken_cases updated
    · cases none
    · cases unmatched row (Row.read_of_held holds)

theorem steppedResets_change {pc : ChangePc} (sound : SoundResets tables)
    (own : OwnResets tables t (.change pc))
    (ran : pc.step t tables pick = some (tables', pc', event)) :
    SteppedResets t (.change pc) pc' tables tables' := by
  have ended : ∀ {pc : Pc}, SteppedResets t pc .done tables (tables.rollback t) :=
    fun {_} =>
      .rollback sound (framed_refl t _) (fun _ => rfl) rfl (fun _ => trivial) fun _ => trivial
  cases pc with
  | verify user current new =>
      have from_ : (Pc.change (.verify user current new)).Elsewhere := by
        refine ⟨?_, rfl⟩
        rintro h ⟨new, now, none⟩
        cases none
      simp only [ChangePc.step] at ran
      split at ran
      · cases ran
        exact .elsewhere sound own from_ rfl rfl (fun _ => trivial) fun _ => trivial
      · split at ran <;> cases ran <;>
          exact .elsewhere sound own from_ rfl rfl (fun _ => trivial) fun _ => trivial
  | lockReset presented new now =>
      have from_ : (Pc.change (.lockReset presented new now)).Elsewhere := ⟨fun _ => id, rfl⟩
      simp only [ChangePc.step] at ran
      split at ran <;> cases ran <;>
        exact .elsewhere sound own from_ rfl rfl (fun _ => trivial) fun _ => trivial
  | lockResetRow presented new now => exact steppedResets_lockResetRow sound own ran
  | getUser job user =>
      simp only [ChangePc.step] at ran
      split at ran
      · cases ran
        exact ended
      · split at ran
        · cases ran
          exact ended
        · split at ran
          · cases ran
            refine .still sound own rfl rfl rfl (fun _ => id) ?_ fun _ => trivial
            cases job <;> exact own.holds
          · cases ran
            refine .still sound own rfl rfl rfl (fun _ => id) ?_ fun _ => trivial
            cases job <;> exact own.holds
  | flushUser job user =>
      refine .flushed sound own rfl (fun _ _ => updateUser_resets) ran
        (fun _ => id) ?_ fun _ => trivial
      cases job <;> exact own.holds
  | selectLive job user =>
      cases ran
      refine .still sound own rfl rfl rfl (fun _ => id) ?_ fun _ => trivial
      cases job <;> exact own.holds
  | revoke job user selected todo =>
      cases todo with
      | nil =>
          cases job with
          | resetPassword presented new now => exact steppedResets_redeem sound own ran
          | changePassword new =>
              cases ran
              exact .still sound own rfl rfl rfl (fun _ => id) trivial fun _ => trivial
          | deleteProfile =>
              cases ran
              exact .still sound own rfl rfl rfl (fun _ => id) trivial fun _ => trivial
      | cons h todo =>
          simp only [ChangePc.step] at ran
          split at ran
          · refine .flushed sound own rfl (fun _ _ => revokeRow_resets) ran
              (fun _ => id) ?_ fun _ => trivial
            cases job <;> exact own.holds
          · cases ran
  | commit job user selected =>
      cases ran
      refine .commit sound (fun user used todo same => ?_) (fun _ => trivial) fun _ => trivial
      cases same

/-- The update of `forgot_password` visits a row. -/
theorem steppedResets_supersedeRow {user first : Nat} {used : Int} {todo : List Nat}
    (sound : SoundResets tables)
    (own : OwnResets tables t (.forgot (.supersedeRow user used (first :: todo))))
    (ran : (ForgotPc.supersedeRow user used (first :: todo)).step cfg t tables now pick =
      some (tables', pc', event)) :
    SteppedResets t (.forgot (.supersedeRow user used (first :: todo))) pc' tables tables' := by
  simp only [ForgotPc.step] at ran
  split at ran
  · obtain ⟨⟨mid, out⟩, updated, same⟩ := Option.map_eq_some_iff.mp ran
    cases same
    obtain ⟨free, ⟨row, seen, matched, _, rfl⟩ | ⟨rfl, _, unmatched⟩⟩ :=
      updateResetToken_cases updated
    · obtain ⟨old, stored, marks⟩ := own.seen sound rfl seen
      have unused := ((unredeemedOf_iff user row).mp matched).2
      have same := marks.eq_of_unused unused
      subst same
      refine .mark sound own rfl free stored (Or.inr ⟨unused, used, rfl⟩) rfl rfl
        (fun _ => id) trivial trivial ?_
      intro swept h other stored' unredeemed
      rw [committed_put] at stored'
      by_cases here : h = pick
      · subst here
        exact Or.inr ⟨{ row with usedAt := some used }, by simp, rfl⟩
      · simp only [put_of_ne here]
        rcases swept h other stored' unredeemed with waiting | held
        · exact Or.inl ((List.mem_erase_of_ne here).mpr waiting)
        · exact Or.inr held
    · refine .still sound own rfl rfl rfl (fun _ => id) trivial ?_
      intro swept h other stored unredeemed
      by_cases here : h = pick
      · subst here
        -- the row was visited: a version of `t`'s own that does not match is marked
        rcases Row.read_cases t (mid.resetTokens h) with held | ⟨_, committed⟩
        · obtain ⟨version, read, allowed⟩ := sound.held h t _ held
          have fails := unmatched version read
          have marks := allowed other stored
          rw [read] at held
          refine Or.inr ⟨version, held, ?_⟩
          rcases marks with rfl | ⟨_, at_, rfl⟩
          · rw [unredeemed] at fails
            cases fails
          · rfl
        · have fails := unmatched other (committed.trans stored)
          rw [unredeemed] at fails
          cases fails
      · rcases swept h other stored unredeemed with waiting | held
        · exact Or.inl ((List.mem_erase_of_ne here).mpr waiting)
        · exact Or.inr held
  · cases ran

theorem steppedResets_forgot {pc : ForgotPc} (sound : SoundResets tables)
    (own : OwnResets tables t (.forgot pc))
    (ran : pc.step cfg t tables now pick = some (tables', pc', event)) :
    SteppedResets t (.forgot pc) pc' tables tables' := by
  cases pc with
  | select user =>
      have from_ : (Pc.forgot (.select user)).Elsewhere := ⟨fun _ => id, rfl⟩
      simp only [ForgotPc.step] at ran
      split at ran <;> cases ran <;>
        exact .elsewhere sound own from_ rfl rfl (fun _ => trivial) fun _ => trivial
  | supersede user =>
      cases ran
      refine .still sound own rfl rfl rfl (fun _ locks => locks.elim) trivial ?_
      -- the snapshot sees every committed token
      intro _ h row stored unredeemed
      have drawn : h < tables.resetMinted := sound.drawn_of_committed stored
      left
      refine List.mem_filter.mpr ⟨List.mem_range.mpr drawn, ?_⟩
      rw [own.read_committed id, stored, Option.any_some, unredeemed]
  | supersedeRow user used todo =>
      cases todo with
      | nil =>
          cases ran
          exact .still sound own rfl rfl rfl (fun _ => id) trivial id
      | cons first todo => exact steppedResets_supersedeRow sound own ran
  | insert user =>
      cases ran
      have fresh := sound.undrawn tables.resetMinted (Nat.lt_irrefl _)
      refine .insert sound own rfl rfl (fun _ => trivial) ?_ ?_
      · exact ⟨newResetToken cfg user now,
          by simp [Tables.insertResetToken, fresh, Row.settled], rfl, rfl⟩
      · intro swept h row stored unredeemed
        simp only [Tables.insertResetToken] at stored ⊢
        rw [committed_put] at stored
        have away : h ≠ tables.resetMinted := by
          rintro rfl
          simp [fresh, Row.settled] at stored
        rw [put_of_ne away]
        exact swept h row stored unredeemed
  | commit user token =>
      cases ran
      refine .commit sound (fun user used todo same => ?_) (fun _ => trivial) fun _ => trivial
      cases same

/-- **Every statement keeps the rules.** -/
theorem steppedResets (sound : SoundResets tables) (own : OwnResets tables t pc)
    (ran : pc.step cfg t tables now pick = some (tables', pc', event)) :
    SteppedResets t pc pc' tables tables' := by
  cases pc with
  | login pc => exact steppedResets_login sound own ran
  | refresh pc => exact steppedResets_refresh sound own ran
  | logout pc => exact steppedResets_logout sound own ran
  | change pc => exact steppedResets_change sound own ran
  | forgot pc => exact steppedResets_forgot sound own ran
  | idle => cases ran
  | done => cases ran

end Endpoints

/-! ## A request stays at its endpoint -/

inductive Endpoint
  | login
  | refresh
  | logout
  | change
  | forgot
  deriving DecidableEq

def Pc.endpoint : Pc → Option Endpoint
  | .login _ => some .login
  | .refresh _ => some .refresh
  | .logout _ => some .logout
  | .change _ => some .change
  | .forgot _ => some .forgot
  | .idle | .done => none

section Endpoint

variable {cfg : Config} {t : Nat} {tables tables' : Tables} {now : Int} {pick : Nat} {pc pc' : Pc}
    {event : Event}

/-- `pc'` has ended or is at `endpoint`. -/
def Pc.At (endpoint : Endpoint) (pc' : Pc) : Prop := pc' = .done ∨ pc'.endpoint = some endpoint

theorem at_flushed {α : Type} {endpoint : Endpoint} {next : Pc}
    {updated : Option (Tables × Option α)} (same : next.endpoint = some endpoint)
    (ran : flushed t next updated = some (tables', pc', event)) : pc'.At endpoint := by
  obtain ⟨_, ⟨_, _, rfl⟩ | ⟨_, _, _, rfl⟩⟩ := flushed_cases ran
  · exact Or.inr same
  · exact Or.inl rfl

theorem at_login {pc : LoginPc} (ran : pc.step cfg t tables now = some (tables', pc', event)) :
    pc'.At .login := by
  cases pc with
  | select user password =>
      simp only [LoginPc.step] at ran
      split at ran
      · cases ran
        exact Or.inl rfl
      · split at ran
        · cases ran
          exact Or.inl rfl
        · split at ran <;> cases ran
          · exact Or.inl rfl
          · exact Or.inr rfl
  | touch user => exact at_flushed rfl ran
  | _ =>
      cases ran
      first | exact Or.inr rfl | exact Or.inl rfl

theorem at_refresh {pc : RefreshPc} (ran : pc.step cfg t tables pick = some (tables', pc', event)) :
    pc'.At .refresh := by
  cases pc with
  | claim presented now =>
      simp only [RefreshPc.step] at ran
      split at ran <;> cases ran <;> exact Or.inr rfl
  | claimRow presented now =>
      obtain ⟨⟨mid, out⟩, _, same⟩ := Option.map_eq_some_iff.mp ran
      cases out <;> cases same <;> exact Or.inr rfl
  | selectOwner presented user now =>
      simp only [RefreshPc.step] at ran
      split at ran
      · split at ran <;> cases ran <;> exact Or.inr rfl
      · cases ran
        exact Or.inr rfl
  | detect presented =>
      simp only [RefreshPc.step] at ran
      split at ran <;> cases ran
      · exact Or.inr rfl
      · exact Or.inl rfl
  | revokeAllRow stolen todo =>
      cases todo with
      | nil =>
          cases ran
          exact Or.inl rfl
      | cons h todo =>
          simp only [RefreshPc.step] at ran
          split at ran
          · obtain ⟨_, _, same⟩ := Option.map_eq_some_iff.mp ran
            cases same
            exact Or.inr rfl
          · cases ran
  | _ =>
      cases ran
      first | exact Or.inr rfl | exact Or.inl rfl

theorem at_logout {pc : LogoutPc} (ran : pc.step t tables = some (tables', pc', event)) :
    pc'.At .logout := by
  cases pc with
  | select presented =>
      simp only [LogoutPc.step] at ran
      split at ran <;> cases ran
      · exact Or.inr rfl
      · exact Or.inl rfl
  | revoke presented => exact at_flushed rfl ran
  | commit =>
      cases ran
      exact Or.inl rfl

theorem at_change {pc : ChangePc} (ran : pc.step t tables pick = some (tables', pc', event)) :
    pc'.At .change := by
  cases pc with
  | verify user current new =>
      simp only [ChangePc.step] at ran
      split at ran
      · cases ran
        exact Or.inl rfl
      · split at ran <;> cases ran
        · exact Or.inl rfl
        · exact Or.inr rfl
  | lockReset presented new now =>
      simp only [ChangePc.step] at ran
      split at ran <;> cases ran
      · exact Or.inl rfl
      · exact Or.inr rfl
  | lockResetRow presented new now =>
      obtain ⟨⟨mid, out⟩, _, same⟩ := Option.map_eq_some_iff.mp ran
      cases out with
      | none =>
          cases same
          exact Or.inl rfl
      | some token =>
          simp only at same
          split at same <;> cases same
          · exact Or.inl rfl
          · exact Or.inr rfl
  | getUser job user =>
      simp only [ChangePc.step] at ran
      split at ran
      · cases ran
        exact Or.inl rfl
      · split at ran
        · cases ran
          exact Or.inl rfl
        · split at ran <;> cases ran <;> exact Or.inr rfl
  | flushUser job user => exact at_flushed rfl ran
  | selectLive job user =>
      cases ran
      exact Or.inr rfl
  | revoke job user selected todo =>
      cases todo with
      | nil =>
          cases job with
          | resetPassword presented new now => exact at_flushed rfl ran
          | _ =>
              cases ran
              exact Or.inr rfl
      | cons h todo =>
          simp only [ChangePc.step] at ran
          split at ran
          · exact at_flushed rfl ran
          · cases ran
  | commit job user selected =>
      cases ran
      exact Or.inl rfl

theorem at_forgot {pc : ForgotPc}
    (ran : pc.step cfg t tables now pick = some (tables', pc', event)) : pc'.At .forgot := by
  cases pc with
  | select user =>
      simp only [ForgotPc.step] at ran
      split at ran <;> cases ran
      · exact Or.inl rfl
      · exact Or.inr rfl
  | supersedeRow user used todo =>
      cases todo with
      | nil =>
          cases ran
          exact Or.inr rfl
      | cons h todo =>
          simp only [ForgotPc.step] at ran
          split at ran
          · obtain ⟨_, _, same⟩ := Option.map_eq_some_iff.mp ran
            cases same
            exact Or.inr rfl
          · cases ran
  | _ =>
      cases ran
      first | exact Or.inr rfl | exact Or.inl rfl

/-- A request that has begun stays at its endpoint until it is done. -/
theorem endpoint_advance (ran : pc.step cfg t tables now pick = some (tables', pc', event)) :
    pc' = .done ∨ pc'.endpoint = pc.endpoint := by
  cases pc with
  | login pc => exact at_login ran
  | refresh pc => exact at_refresh ran
  | logout pc => exact at_logout ran
  | change pc => exact at_change ran
  | forgot pc => exact at_forgot ran
  | idle => cases ran
  | done => cases ran

/-- ... and never waits to be submitted again. -/
theorem running_of_advance (ran : pc.step cfg t tables now pick = some (tables', pc', event)) :
    pc' ≠ .idle := by
  rintro rfl
  rcases endpoint_advance ran with done | same
  · cases done
  · cases pc <;> first | cases ran | cases same

end Endpoint

/-! ## In every reached state -/

/-- The table of reset tokens is sound and every request owns what its `Pc` says. -/
structure OwnedResets (s : State) : Prop where
  sound : SoundResets s.tables
  own : ∀ t, OwnResets s.tables t (s.pcs t)

section Runs

variable {cfg : Config} {ok : State → Act → Prop}

theorem ownedResets_start {s : State} (starts : Start s) : OwnedResets s where
  sound :=
    { held := fun h t version held => by
        rw [starts.resetTokens h] at held
        cases held
      undrawn := fun h undrawn => by
        have free := starts.resetTokens h
        have missing := starts.undrawnReset h (Nat.le_of_not_lt undrawn)
        cases row : s.tables.resetTokens h
        rw [row] at free missing
        cases free
        cases missing
        rfl }
  own := fun t =>
    { lock := fun h version held => by
        rw [starts.resetTokens h] at held
        cases held
      inserting := fun h version held => by
        rw [starts.resetTokens h] at held
        cases held
      holds := by
        rw [starts.pcs t]
        trivial }

/-- What a step of the system does to the reset tokens. -/
theorem resets_cases {s s' : State} {a : Act} (owned : OwnedResets s)
    (ran : step cfg s a = some s') :
    (∃ t request, a = .submit t request ∧ s.pcs t = .idle ∧ s'.tables = s.tables ∧
        s'.pcs = Function.update s.pcs t request.start) ∨
      (∃ t now pick pc' tables' event, a = .advance t now pick ∧
        (s.pcs t).step cfg t s.tables now pick = some (tables', pc', event) ∧
        SteppedResets t (s.pcs t) pc' s.tables tables' ∧ s'.tables = tables' ∧
        s'.pcs = Function.update s.pcs t pc') ∨
      ∃ t, a = .abort t ∧ SteppedResets t (s.pcs t) .done s.tables (s.tables.rollback t) ∧
        s'.tables = s.tables.rollback t ∧ s'.pcs = Function.update s.pcs t .done := by
  cases a with
  | submit t request =>
      simp only [step] at ran
      split at ran
      · rename_i idle
        cases ran
        exact Or.inl ⟨t, request, rfl, idle, rfl, rfl⟩
      · cases ran
  | advance t now pick =>
      obtain ⟨⟨tables', pc', event⟩, advanced, same⟩ := Option.map_eq_some_iff.mp ran
      cases same
      exact Or.inr (Or.inl ⟨t, now, pick, pc', tables', event, rfl, advanced,
        steppedResets owned.sound (owned.own t) advanced, rfl, rfl⟩)
  | abort t =>
      cases ran
      have rolledBack : SteppedResets t (s.pcs t) .done s.tables (s.tables.rollback t) :=
        .rollback owned.sound (framed_refl t _) (fun _ => rfl) rfl
          (fun _ => trivial) fun _ => trivial
      exact Or.inr (Or.inr ⟨t, rfl, rolledBack, rfl, rfl⟩)

theorem ownResets_start (request : Request) {tables : Tables} {t : Nat}
    (own : OwnResets tables t .idle) : OwnResets tables t request.start where
  lock := fun h version held => (own.lock h version held).elim
  inserting := fun h version held _ => (own.lock h version held).elim
  holds := by cases request <;> trivial

/-- Request `t` took a step that keeps the rules; the others own what they owned. -/
theorem OwnedResets.stepped {s s' : State} (owned : OwnedResets s) {t : Nat} {pc' : Pc}
    {tables' : Tables} (stepped : SteppedResets t (s.pcs t) pc' s.tables tables')
    (tables : s'.tables = tables') (pcs : s'.pcs = Function.update s.pcs t pc') :
    OwnedResets s' where
  sound := tables ▸ stepped.sound
  own := fun t' => by
    rw [tables, pcs]
    by_cases same : t' = t
    · subst same
      simpa using stepped.own
    · simpa [same] using (owned.own t').framed stepped.framed same

theorem ownedResets_step {s s' : State} {a : Act} (owned : OwnedResets s)
    (ran : step cfg s a = some s') : OwnedResets s' := by
  rcases resets_cases owned ran with
    ⟨t, request, _, idle, tables, pcs⟩ |
      ⟨t, now, pick, pc', tables', event, _, _, stepped, tables, pcs⟩ |
      ⟨t, _, stepped, tables, pcs⟩
  · refine ⟨tables ▸ owned.sound, ?_⟩
    intro t'
    rw [tables, pcs]
    by_cases same : t' = t
    · subst same
      simpa using ownResets_start request (idle ▸ owned.own t')
    · simpa [same] using owned.own t'
  · exact owned.stepped stepped tables pcs
  · exact owned.stepped stepped tables pcs

theorem ownedResets_of_reach {s : State} (reached : Reach (step cfg) ok Start s) : OwnedResets s :=
  reached.invariant (fun _ starts => ownedResets_start starts) fun _ _ _ owned _ ran =>
    ownedResets_step owned ran

end Runs

end Empyrean.Auth.Requests
