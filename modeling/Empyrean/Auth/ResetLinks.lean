/-
# Empyrean.Auth.ResetLinks — one active reset link per account

`forgot_password` marks the account's unredeemed tokens as used before it inserts the new
one, so that an older link stops working.  The two statements lock the tokens that exist
and nothing else: two requests for one account that overlap each miss the token of the
other, and both links work.

* `Active` — a committed token that would be accepted.
* `NoOverlap` — no `forgot_password` supersedes while another one of the same account is
  between its own `UPDATE` and its commit.
* `one_link` — under that condition there is at most one active link per account, and a
  reset closes every link that was issued before it.
* `two_links` — and without it there are two, and the second survives a reset.
-/
import Empyrean.Auth.Redemption

namespace Empyrean.Auth.Requests

set_option autoImplicit false

open Empyrean.Theory Empyrean.Theory.RowStore Empyrean.Theory.Runs

/-! ## Active links -/

/-- The link with token `h` would still reset the password of `user`. -/
def Active (tables : Tables) (user : Nat) (now : Int) (h : Nat) : Prop :=
  ∃ row, (tables.resetTokens h).committed = some row ∧ row.userId = user ∧ row.usedAt = none ∧
    now < row.expiresAt

def OneLink (tables : Tables) (now : Int) : Prop :=
  ∀ user h h', Active tables user now h → Active tables user now h' → h' = h

theorem Active.earlier {tables : Tables} {user h : Nat} {now now' : Int}
    (active : Active tables user now' h) (before : now ≤ now') : Active tables user now h := by
  obtain ⟨row, stored, owner, unused, unexpired⟩ := active
  exact ⟨row, stored, owner, unused, by omega⟩

/-- A run starts with no account that has two active links at `τ`. -/
def StartLinked (τ : Int) (w : Watched) : Prop := w.Start ∧ OneLink w.state.tables τ

/-- The account for which the request has superseded the older tokens, and not committed
the new one. -/
def Pc.issuesFor : Pc → Option Nat
  | .forgot (.supersedeRow user _ _) | .forgot (.insert user) | .forgot
    (.commit user _) => some user
  | _ => none

/-- When a `forgot_password` starts to supersede, no other one of the account is about to issue. -/
def NoOverlap (w : Watched) : Act → Prop
  | .advance t _ _ =>
      match w.state.pcs t with
      | .forgot (.supersede user) => ∀ t' ∈ w.submitted, t' ≠ t →
          (w.state.pcs t').issuesFor ≠ some user
      | _ => True
  | _ => True

/-- The account whose older tokens the request supersedes next. -/
def Pc.supersedes : Pc → Option Nat
  | .forgot (.supersede user) => some user
  | _ => none

theorem noOverlap_advance (w : Watched) (t : Nat) (now : Int) (pick : Nat) :
    NoOverlap w (.advance t now pick) ↔
    ∀ user ∈ (w.state.pcs t).supersedes, ∀ t' ∈ w.submitted, t' ≠ t →
      (w.state.pcs t').issuesFor ≠ some user := by
  simp only [NoOverlap, Pc.supersedes]
  split <;> simp

instance (w : Watched) : (a : Act) → Decidable (NoOverlap w a)
  | .advance t now pick => decidable_of_iff _ (noOverlap_advance w t now pick).symm
  | .submit _ _ | .abort _ => instDecidableTrue

/-! ## What one statement does to the links -/

section Step

variable {cfg : Config} {t t' : Nat} {tables tables' : Tables} {now : Int} {pick : Nat}
    {pc pc' other : Pc}
  {event : Event}

theorem insertsReset_eq_some {h : Nat} (inserts : pc.insertsReset = some h) :
    ∃ user, pc = .forgot (.commit user h) := by
  unfold Pc.insertsReset at inserts
  split at inserts
  · rename_i user token
    cases inserts
    exact ⟨user, rfl⟩
  · cases inserts

/-- An unredeemed token that is committed was committed before, and stays as it was, or was
inserted. -/
theorem commit_unused (sound : SoundResets tables) {h : Nat} {row : PasswordResetToken}
    (stored : (RowStore.commit tables.resetTokens t h).committed = some row)
    (unused : row.usedAt = none) : ((tables.resetTokens h).committed = some row ∧
      ∀ version, (tables.resetTokens h).held = some (t, some version) → version = row) ∨
      ((tables.resetTokens h).committed = none ∧
        (tables.resetTokens h).held = some (t, some row)) := by
  rcases commit_cases tables.resetTokens t h with ⟨value, held, settled⟩ | ⟨others, same⟩
  · rw [settled] at stored
    obtain rfl : value = some row := stored
    obtain ⟨version, same, marks⟩ := sound.held h t _ held
    cases same
    cases before : (tables.resetTokens h).committed with
    | some old =>
        obtain rfl := (marks old before).eq_of_unused unused
        refine Or.inl ⟨rfl, fun version mine => ?_⟩
        rw [held] at mine
        cases mine
        rfl
    | none => exact Or.inr ⟨rfl, held⟩
  · rw [same] at stored
    exact Or.inl ⟨stored, fun version mine => absurd mine (others _)⟩

/-- An unredeemed token was there before the statement, or the statement commits it. -/
theorem SteppedResets.unused_before (stepped : SteppedResets t pc pc' tables tables')
    (sound : SoundResets tables) (own : OwnResets tables t pc) {h : Nat} {row : PasswordResetToken}
    (stored : (tables'.resetTokens h).committed = some row) (unused : row.usedAt = none) :
    (tables.resetTokens h).committed = some row ∨ pc = .forgot (.commit row.userId h) := by
  cases stepped.effect with
  | quiet committed => exact Or.inl ((committed h).symm.trans stored)
  | commit tokens _ =>
      rw [tokens] at stored
      rcases commit_unused sound stored unused with ⟨before, _⟩ | ⟨absent, held⟩
      · exact Or.inl before
      · obtain ⟨user, rfl⟩ := insertsReset_eq_some (own.inserting h _ held absent)
        obtain ⟨issued, found, owner, _⟩ : Issuing tables.resetTokens t h user := own.holds
        rw [found] at held
        cases held
        exact Or.inr (by rw [owner])

theorem SteppedResets.active_before (stepped : SteppedResets t pc pc' tables tables')
    (sound : SoundResets tables) (own : OwnResets tables t pc) {user h : Nat} {τ : Int}
    (active : Active tables' user τ h) :
    Active tables user τ h ∨ pc = .forgot (.commit user h) := by
  obtain ⟨row, stored, owner, unused, unexpired⟩ := active
  rcases stepped.unused_before sound own stored unused with before | issued
  · exact Or.inl ⟨row, before, owner, unused, unexpired⟩
  · exact Or.inr (owner ▸ issued)

/-- The commit of a `forgot_password` leaves the account the token it inserted. -/
theorem active_of_issue {user token : Nat} (sound : SoundResets tables)
    (own : OwnResets tables t (.forgot (.commit user token)))
    (swept : Swept tables.resetTokens t user [])
    (tokens : tables'.resetTokens = RowStore.commit tables.resetTokens t) {h : Nat} {τ : Int}
    (active : Active tables' user τ h) : h = token := by
  obtain ⟨row, stored, owner, unused, _⟩ := active
  rw [tokens] at stored
  rcases commit_unused sound stored unused with ⟨before, unchanged⟩ | ⟨absent, held⟩
  · -- the sweep has marked every older one
    rcases swept h row before ((unredeemedOf_iff user row).mpr ⟨owner, unused⟩) with waiting |
      ⟨version, mine, used⟩
    · cases waiting
    · obtain rfl := unchanged version mine
      simp [unused] at used
  · exact (Option.some.inj (own.inserting h _ held absent)).symm

/-- There is still one link per account after a statement. -/
theorem SteppedResets.oneLink (stepped : SteppedResets t pc pc' tables tables')
    (sound : SoundResets tables) (own : OwnResets tables t pc)
    (swept : pc.Swept tables.resetTokens t) {τ : Int} (one : OneLink tables τ) :
    OneLink tables' τ := by
  intro user h h' active active'
  rcases stepped.active_before sound own active with before | issued
  · rcases stepped.active_before sound own active' with before' | issued'
    · exact one user h h' before before'
    · subst issued'
      cases stepped.effect with
      | quiet committed =>
          obtain ⟨row, stored, rest⟩ := active'
          exact one user h h' before ⟨row, (committed h').symm.trans stored, rest⟩
      | commit tokens _ => exact (active_of_issue sound own swept tokens active).symm
  · subst issued
    cases stepped.effect with
    | quiet committed =>
        obtain ⟨row, stored, rest⟩ := active
        obtain ⟨row', stored', rest'⟩ := active'
        exact one user h h' ⟨row, (committed h).symm.trans stored, rest⟩
          ⟨row', (committed h').symm.trans stored', rest'⟩
    | commit tokens _ => exact active_of_issue sound own swept tokens active'

/-- What one `forgot_password` has swept stays swept while no other one issues for the account. -/
theorem SteppedResets.swept_other (stepped : SteppedResets t pc pc' tables tables')
    (sound : SoundResets tables) (own : OwnResets tables t pc) (different : t' ≠ t)
    (apart : ∀ user, other.issuesFor = some user → pc.issuesFor ≠ some user)
    (swept : other.Swept tables.resetTokens t') : other.Swept tables'.resetTokens t' := by
  have rows : ∀ user todo, other.issuesFor = some user →
      Requests.Swept tables.resetTokens t' user todo →
      Requests.Swept tables'.resetTokens t' user todo := by
    intro user todo issues swept h row stored unredeemed
    obtain ⟨owner, unused⟩ := (unredeemedOf_iff user row).mp unredeemed
    rcases stepped.unused_before sound own stored unused with before | issued
    · rcases swept h row before unredeemed with waiting | ⟨version, held, used⟩
      · exact Or.inl waiting
      · exact Or.inr ⟨version, by rw [stepped.framed.keeps different held, held], used⟩
    · have same : pc.issuesFor = some user := by rw [issued, ← owner]; rfl
      exact absurd same (apart user issues)
  unfold Pc.Swept at swept ⊢
  split at swept
  · exact rows _ _ rfl swept
  · exact rows _ _ rfl swept
  · exact rows _ _ rfl swept
  · trivial

/-- A request starts to issue with its `UPDATE`. -/
theorem issues_advance (ran : pc.step cfg t tables now pick = some (tables', pc', event))
    {user : Nat} (issues : pc'.issuesFor = some user) :
    pc.issuesFor = some user ∨ pc = .forgot (.supersede user) := by
  cases pc with
  | forgot pc =>
      cases pc with
      | select user' =>
          simp only [Pc.step, ForgotPc.step] at ran
          split at ran <;> cases ran <;> cases issues
      | supersede user' =>
          cases ran
          cases issues
          exact Or.inr rfl
      | supersedeRow user' used todo =>
          cases todo with
          | nil =>
              cases ran
              exact Or.inl issues
          | cons h todo =>
              simp only [Pc.step, ForgotPc.step] at ran
              split at ran
              · obtain ⟨_, _, same⟩ := Option.map_eq_some_iff.mp ran
                cases same
                exact Or.inl issues
              · cases ran
      | insert user' =>
          cases ran
          exact Or.inl issues
      | commit user' token =>
          cases ran
          cases issues
  | _ =>
      rcases endpoint_advance ran with rfl | same
      · cases issues
      · cases pc' <;> first | cases issues | cases same

/-- The token that a request is about to commit is newer than all that were drawn before. -/
theorem inserts_advance (ran : pc.step cfg t tables now pick = some (tables', pc', event))
    {user h : Nat} (inserted : pc' = .forgot (.commit user h)) : tables.resetMinted ≤ h := by
  subst inserted
  cases pc with
  | forgot pc =>
      cases pc with
      | select user' =>
          simp only [Pc.step, ForgotPc.step] at ran
          split at ran <;> cases ran
      | supersedeRow user' used todo =>
          cases todo with
          | nil => cases ran
          | cons h todo =>
              simp only [Pc.step, ForgotPc.step] at ran
              split at ran
              · obtain ⟨_, _, same⟩ := Option.map_eq_some_iff.mp ran
                cases same
              · cases ran
      | insert user' =>
          cases ran
          exact Nat.le_refl _
      | _ => cases ran
  | _ =>
      rcases endpoint_advance ran with done | same
      · cases done
      · cases same

end Step
/-! ## The invariant of a run without overlap -/

/-- No token below `drawn` can reset the password of `user` any more. -/
structure ClosedFor (s : State) (user : Nat) (τ : Int) (drawn : Nat) : Prop where
  inactive : ∀ h, h < drawn → ¬ Active s.tables user τ h
  pending : ∀ t h, h < drawn → s.pcs t ≠ .forgot (.commit user h)

/-- At the time `τ`: each account has one link, and the redeemed ones have closed the others. -/
structure Linked (τ : Int) (w : Watched) : Prop where
  begun : ∀ t, (w.state.pcs t).endpoint ≠ none → t ∈ w.submitted
  alone : ∀ t t' user, (w.state.pcs t).issuesFor = some user →
    (w.state.pcs t').issuesFor = some user → t' = t
  swept : ∀ t, (w.state.pcs t).Swept w.state.tables.resetTokens t
  one : OneLink w.state.tables τ
  closed : ∀ r ∈ w.redemptions, τ ≤ r.now →
    ∃ row, r.before = some row ∧ ClosedFor w.state row.userId τ r.drawn
  drawn : ∀ r ∈ w.redemptions, r.drawn ≤ w.state.tables.resetMinted

section Runs

variable {cfg : Config} {τ : Int} {w w' : Watched} {t : Nat} {pc' : Pc} {tables' : Tables}

theorem linked_start (starts : w.Start) (one : OneLink w.state.tables τ) : Linked τ w where
  begun := fun t begun => by
    rw [starts.start.pcs t] at begun
    exact absurd rfl begun
  alone := fun t t' user issues _ => by
    rw [starts.start.pcs t] at issues
    cases issues
  swept := fun t => by
    rw [starts.start.pcs t]
    trivial
  one := one
  closed := by simp [starts.redemptions]
  drawn := by simp [starts.redemptions]

theorem ClosedFor.stepped {user drawn : Nat} (closed : ClosedFor w.state user τ drawn)
    (owned : OwnedResets w.state)
    (stepped : SteppedResets t (w.state.pcs t) pc' w.state.tables tables')
    (tables : w'.state.tables = tables') (pcs : w'.state.pcs = Function.update w.state.pcs t pc')
    (before : drawn ≤ w.state.tables.resetMinted)
    (inserts : ∀ user h, pc' = .forgot (.commit user h) → w.state.tables.resetMinted ≤ h) :
    ClosedFor w'.state user τ drawn where
  inactive := fun h older active => by
    rw [tables] at active
    rcases stepped.active_before owned.sound (owned.own t) active with active | issued
    · exact closed.inactive h older active
    · exact closed.pending t h older issued
  pending := fun t' h older issuing => by
    rw [pcs] at issuing
    by_cases same : t' = t
    · subst same
      rw [Function.update_self] at issuing
      have fresh := inserts user h issuing
      omega
    · rw [Function.update_of_ne same] at issuing
      exact closed.pending t' h older issuing

/-- **One statement keeps the invariant**, if a request that starts to issue is alone. -/
theorem Linked.stepped (linked : Linked τ w) (owned : OwnedResets w.state)
    (stepped : SteppedResets t (w.state.pcs t) pc' w.state.tables tables')
    (tables : w'.state.tables = tables') (pcs : w'.state.pcs = Function.update w.state.pcs t pc')
    (submitted : ∀ t' ∈ w.submitted, t' ∈ w'.submitted)
    (begun : pc'.endpoint ≠ none → t ∈ w'.submitted) (issues : ∀ user, pc'.issuesFor = some user →
      (w.state.pcs t).issuesFor = some user ∨ ∀ t', t' ≠ t → (w.state.pcs t').issuesFor ≠ some user)
    (inserts : ∀ user h, pc' = .forgot (.commit user h) → w.state.tables.resetMinted ≤ h)
    {recorded : List Redemption} (redemptions : w'.redemptions = w.redemptions ++ recorded)
    (closes : ∀ r ∈ recorded, τ ≤ r.now →
      ∃ row, r.before = some row ∧ ClosedFor w'.state row.userId τ r.drawn)
    (drawn : ∀ r ∈ recorded, r.drawn ≤ w.state.tables.resetMinted) : Linked τ w' := by
  have only : ∀ t' user, t' ≠ t → pc'.issuesFor = some user →
      (w.state.pcs t').issuesFor ≠ some user := by
    intro t' user different issuing issuing'
    rcases issues user issuing with before | alone
    · exact different (linked.alone t t' user before issuing')
    · exact alone t' different issuing'
  constructor
  · intro t' running
    by_cases same : t' = t
    · subst same
      simp only [pcs, Function.update_self] at running
      exact begun running
    · simp only [pcs, Function.update_of_ne same] at running
      exact submitted t' (linked.begun t' running)
  · intro t₁ t₂ user first second
    rw [pcs] at first second
    by_cases same₁ : t₁ = t
    · by_cases same₂ : t₂ = t
      · omega
      · rw [same₁, Function.update_self] at first
        rw [Function.update_of_ne same₂] at second
        exact absurd second (only t₂ user same₂ first)
    · rw [Function.update_of_ne same₁] at first
      by_cases same₂ : t₂ = t
      · rw [same₂, Function.update_self] at second
        exact absurd first (only t₁ user same₁ second)
      · rw [Function.update_of_ne same₂] at second
        exact linked.alone t₁ t₂ user first second
  · intro t'
    rw [tables, pcs]
    by_cases same : t' = t
    · subst same
      rw [Function.update_self]
      exact stepped.swept (linked.swept t')
    · rw [Function.update_of_ne same]
      refine stepped.swept_other owned.sound (owned.own t) same ?_ (linked.swept t')
      intro user issuing' issuing
      exact same (linked.alone t t' user issuing issuing')
  · rw [tables]
    exact stepped.oneLink owned.sound (owned.own t) (linked.swept t) linked.one
  · intro r member late
    rw [redemptions] at member
    rcases List.mem_append.mp member with earlier | now
    · obtain ⟨row, before, closed⟩ := linked.closed r earlier late
      exact ⟨row, before, closed.stepped owned stepped tables pcs (linked.drawn r earlier) inserts⟩
    · exact closes r now late
  · intro r member
    rw [redemptions] at member
    rw [tables]
    rcases List.mem_append.mp member with earlier | now
    · exact Nat.le_trans (linked.drawn r earlier) stepped.minted
    · exact Nat.le_trans (drawn r now) stepped.minted

/-- A redemption closes the links that were issued before it. -/
theorem closedFor_redemption (linked : Linked τ w) (owned : OwnedResets w.state)
    (stepped : SteppedResets t (w.state.pcs t) .done w.state.tables tables')
    (tables : w'.state.tables = tables') (pcs : w'.state.pcs = Function.update w.state.pcs t .done)
    {presented new user : Nat} {at_ : Int} {selected : List Nat} {row : PasswordResetToken}
    (committing : w.state.pcs t =
      .change (.commit (.resetPassword presented new at_) user selected))
    (committed : tables' = w.state.tables.commit t) (unused : row.usedAt = none)
    (unexpired : at_ < row.expiresAt)
    (stored : (w.state.tables.resetTokens presented).committed = some row)
    (held : (w.state.tables.resetTokens presented).held =
      some (t, some { row with usedAt := some at_ }))
    (late : τ ≤ at_) : ClosedFor w'.state row.userId τ w.state.tables.resetMinted where
  inactive := fun h _ active => by
    rw [tables] at active
    rcases stepped.active_before owned.sound (owned.own t) active with before | issued
    · obtain rfl : presented = h :=
        linked.one row.userId h presented before ⟨row, stored, rfl, unused, by omega⟩
      obtain ⟨version, found, _, fresh, _⟩ := active
      rw [committed] at found
      simp only [Tables.commit] at found
      rw [commit_of_held held, Row.settled] at found
      cases found
      cases fresh
    · rw [committing] at issued
      cases issued
  pending := fun t' h _ issuing => by
    -- a `forgot_password` about to commit would have marked the redeemed row itself
    rw [pcs] at issuing
    by_cases same : t' = t
    · subst same
      rw [Function.update_self] at issuing
      cases issuing
    · rw [Function.update_of_ne same] at issuing
      have swept := linked.swept t'
      rw [issuing] at swept
      rcases swept presented row stored ((unredeemedOf_iff _ row).mpr ⟨rfl, unused⟩) with absent |
        ⟨version, mine, _⟩
      · cases absent
      · rw [held] at mine
        cases mine
        exact same rfl

theorem linked_advance {now : Int} {pick : Nat} {event : Event} (linked : Linked τ w)
    (owned : OwnedResets w.state) (redeemed : Redeemed w)
    (apart : NoOverlap w (.advance t now pick))
    (advanced : (w.state.pcs t).step cfg t w.state.tables now pick = some (tables', pc', event))
    (stepped : SteppedResets t (w.state.pcs t) pc' w.state.tables tables')
    (tables : w'.state.tables = tables') (pcs : w'.state.pcs = Function.update w.state.pcs t pc')
    (submitted : w'.submitted = w.submitted) (redemptions : w'.redemptions =
      w.redemptions ++ redemption w.state (.advance t now pick)) : Linked τ w' := by
  have begun : pc'.endpoint ≠ none → t ∈ w'.submitted := by
    intro running
    rw [submitted]
    apply linked.begun t
    intro idle
    rcases endpoint_advance advanced with rfl | same
    · exact running rfl
    · exact running (same.trans idle)
  have issues : ∀ user, pc'.issuesFor = some user →
      (w.state.pcs t).issuesFor = some user ∨ ∀ t', t' ≠ t →
        (w.state.pcs t').issuesFor ≠ some user := by
    intro user issuing
    rcases issues_advance advanced issuing with before | starting
    · exact Or.inl before
    · right
      intro t' different issuing'
      simp only [NoOverlap, starting] at apart
      refine apart t' (linked.begun t' ?_) different issuing'
      intro idle
      cases other : w.state.pcs t' with
      | forgot pc =>
          rw [other] at idle
          cases idle
      | _ =>
          rw [other] at issuing'
          cases issuing'
  have inserts : ∀ user h, pc' = .forgot (.commit user h) → w.state.tables.resetMinted ≤ h :=
    fun user h inserted => inserts_advance advanced inserted
  rcases redemption_cases owned (redeemed.serves t) now pick with none |
    ⟨presented, new, at_, row, recorded, _, unused, unexpired, stored, held, user,
      selected, committing⟩
  · refine linked.stepped owned stepped tables pcs
      (fun t' => submitted ▸ id) begun issues inserts redemptions ?_ ?_
    · simp [none]
    · simp [none]
  · have ended : pc' = .done ∧ tables' = w.state.tables.commit t := by
      rw [committing] at advanced
      cases advanced
      exact ⟨rfl, rfl⟩
    obtain ⟨rfl, committed⟩ := ended
    refine linked.stepped owned stepped tables pcs
      (fun t' => submitted ▸ id) begun issues inserts redemptions ?_ ?_
    · intro r member late
      rw [recorded, List.mem_singleton] at member
      subst member
      exact ⟨row, rfl, closedFor_redemption linked owned stepped tables pcs committing committed unused
        unexpired stored held late⟩
    · intro r member
      rw [recorded, List.mem_singleton] at member
      subst member
      exact Nat.le_refl _

theorem linked_step {a : Act} (linked : Linked τ w) (owned : OwnedResets w.state)
    (redeemed : Redeemed w) (apart : NoOverlap w a) (ran : w.step cfg a = some w') :
    Linked τ w' := by
  obtain ⟨stepped, submitted, _, redemptions, _⟩ := Watched.step_state ran
  rcases resets_cases owned stepped with
    ⟨t, request, rfl, idle, tables, pcs⟩ |
      ⟨t, now, pick, pc', tables', event, rfl, advanced, resets, tables, pcs⟩ |
        ⟨t, rfl, resets, tables, pcs⟩
  · have own := owned.own t
    rw [idle] at own
    have still : SteppedResets t (w.state.pcs t) request.start w.state.tables w.state.tables := by
      rw [idle]
      refine .still owned.sound own rfl rfl rfl (fun _ locks => locks.elim) ?_ fun _ => ?_ <;>
        cases request <;> trivial
    refine linked.stepped owned still tables pcs ?_ ?_ ?_ ?_ redemptions ?_ ?_
    · intro t' member
      rw [submitted]
      exact List.mem_cons_of_mem t member
    · intro _
      rw [submitted]
      exact List.mem_cons_self
    · intro user issuing
      cases request <;> cases issuing
    · intro user h issuing
      cases request <;> cases issuing
    · simp [redemption]
    · simp [redemption]
  · exact linked_advance linked owned redeemed apart advanced resets tables pcs submitted redemptions
  · refine linked.stepped owned resets tables pcs
      (fun t' => submitted ▸ id) ?_ ?_ ?_ redemptions ?_ ?_
    · intro running
      exact absurd rfl running
    · intro user issuing
      cases issuing
    · intro user h issuing
      cases issuing
    · simp [redemption]
    · simp [redemption]

theorem linked_of_reach
    (reached : Reach (Watched.step cfg) NoOverlap (StartLinked τ) w) : Linked τ w := by
  refine reached.invariant_of (J := fun w => OwnedResets w.state ∧ Redeemed w) ?_
    (fun _ starts => linked_start starts.1 starts.2) fun _ _ _ first linked apart ran =>
      linked_step linked first.1 first.2 apart ran
  intro w earlier
  have forgetful : Reach (Watched.step cfg) NoOverlap Watched.Start w :=
    earlier.mono (fun _ _ => id) fun _ starts => starts.1
  exact ⟨ownedResets_of_reach (Watched.reach_state (fun _ starts => starts) forgetful),
    redeemed_of_reach forgetful⟩

/-- **One active link per account.**  In a run in which no two `forgot_password` requests of
one account overlap, an account that had at most one active link never has two; and after a
`reset_password` no token that was drawn before its commit can reset that account again. -/
theorem one_link
    (reached : Reach (Watched.step cfg) NoOverlap (StartLinked τ) w) :
    (∀ now, τ ≤ now → OneLink w.state.tables now) ∧
      ∀ r ∈ w.redemptions, τ ≤ r.now → ∃ row, r.before = some row ∧
        ∀ h, h < r.drawn → ∀ now, τ ≤ now → ¬ Active w.state.tables row.userId now h := by
  have linked := linked_of_reach reached
  refine ⟨?_, ?_⟩
  · intro now late user h h' active active'
    exact linked.one user h h' (active.earlier late) (active'.earlier late)
  · intro r member late
    obtain ⟨row, before, closed⟩ := linked.closed r member late
    refine ⟨row, before, ?_⟩
    intro h older now later active
    exact closed.inactive h older (active.earlier later)

end Runs

/-! ## Two runs -/

/-- Nothing has been asked yet, and no reset token was ever drawn. -/
def oneUserWatched : Watched := watch oneUser

theorem start_oneUserWatched (τ : Int) : StartLinked τ oneUserWatched := by
  refine ⟨start_watch start_oneUser, ?_⟩
  rintro user h h' ⟨row, stored, _⟩ _
  cases stored

instance (tables : Tables) (user : Nat) (now : Int) (h : Nat) :
    Decidable (Active tables user now h) :=
  match found : (tables.resetTokens h).committed with
  | none => isFalse (by simp [Active, found])
  | some row => decidable_of_iff (row.userId = user ∧ row.usedAt = none ∧ now < row.expiresAt)
      (by simp [Active, found])

/-- Two links one after the other; the second is redeemed. -/
theorem one_link_sequential :
    ∃ w, Reach (Watched.step month) NoOverlap (StartLinked 7) w ∧
      OneLink w.state.tables 7 ∧ ∃ r ∈ w.redemptions, r.token = 1 ∧
        ¬ Active w.state.tables 0 7 0 := by
  obtain ⟨w, reached, final⟩ :=
    exists_reach_of_run (Watched.step month) NoOverlap (start_oneUserWatched 7)
      ([.submit 0 (.forgotPassword 0)] ++ statements 0 5 ++ [.submit 1 (.forgotPassword 0)] ++ statements 1 6 ++
        [.submit 2 (.resetPassword 1 6 7)] ++ statements 2 7)
      (fun w => w.redemptions.any fun r =>
        decide (r.token = 1 ∧ r.now = 7 ∧ 0 < r.drawn ∧
          r.before.map (·.userId) = some 0)) (by decide)
  obtain ⟨r, member, same⟩ := List.any_eq_true.mp final
  obtain ⟨token, now, drawn, owner⟩ := of_decide_eq_true same
  obtain ⟨one, closed⟩ := one_link reached
  obtain ⟨row, before, inactive⟩ := closed r member (by omega)
  have user : row.userId = 0 := by simpa [before] using owner
  exact ⟨w, reached, one 7 (by omega), r, member, token, user ▸ inactive 0 drawn 7 (by omega)⟩

/-- Two requests of account 0, each of which takes its snapshot before the other inserts. -/
def overlap : List Act :=
  [.submit 0 (.forgotPassword 0), .submit 1 (.forgotPassword 0)] ++ statements 0 2 ++
    statements 1 2 ++
    statements 0 3 ++ statements 1 3

/-- **Two overlapping requests leave two active links**, and a reset with the first leaves
the second in force. -/
theorem two_links :
    (∃ w, Reach (Watched.step month) Always (StartLinked 7) w ∧
        ¬ OneLink w.state.tables 7) ∧
      ∃ w, Reach (Watched.step month) Always (StartLinked 7) w ∧
        ∃ r ∈ w.redemptions, r.token = 0 ∧ r.now = 7 ∧ 1 < r.drawn ∧
          Active w.state.tables 0 7 1 := by
  constructor
  · obtain ⟨w, reached, final⟩ :=
      exists_reach_of_run (Watched.step month) Always (start_oneUserWatched 7) overlap
        (fun w => decide (Active w.state.tables 0 7 0 ∧ Active w.state.tables 0 7 1)) (by decide)
    obtain ⟨first, second⟩ := of_decide_eq_true final
    refine ⟨w, reached, ?_⟩
    intro one
    cases one 0 0 1 first second
  · obtain ⟨w, reached, final⟩ :=
      exists_reach_of_run (Watched.step month) Always (start_oneUserWatched 7)
        (overlap ++ [.submit 2 (.resetPassword 0 6 7)] ++ statements 2 7)
        (fun w => w.redemptions.any fun r =>
          decide (r.token = 0 ∧ r.now = 7 ∧ 1 < r.drawn ∧ Active w.state.tables 0 7 1)) (by decide)
    obtain ⟨r, member, same⟩ := List.any_eq_true.mp final
    exact ⟨w, reached, r, member, of_decide_eq_true same⟩

end Empyrean.Auth.Requests
