/-
# Empyrean.Rollup.RefreshTokenCleanup — the daily deletion of expired refresh tokens

`refresh_token_cleanup` is one `DELETE`: it numbers the expired tokens of each user from
the last created on, and drops those numbered above ten together with those that expired
more than thirty days ago.  Both readings of `now()` are the transaction's.

* `refreshTokenCleanup` — the statement, over any window order.
* `Cleaned` — what a cleanup may drop and what it must.
* `refresh_token_cleanup_converges` — one run cleans, and another one at that instant
  finds nothing to drop, though it may number tokens of one creation time otherwise.
-/
import Empyrean.Auth.Tables
import Empyrean.Theory.RowNumber

namespace Empyrean.Rollup

set_option autoImplicit false

open Empyrean.Auth Empyrean.Theory.GroupBy Empyrean.Theory.RowNumber

/-! ## The table -/

/-- `refresh_tokens`, with the columns that rank its rows. -/
structure StoredToken extends RefreshToken where
  id : Nat
  createdAt : Int
  deriving DecidableEq, Repr

structure RefreshTokens where
  rows : List StoredToken
  pkey : (rows.map StoredToken.id).Nodup

/-- `_REFRESH_TOKEN_RETENTION_PER_USER` -/
def retentionPerUser : Nat := 10

/-- `_REFRESH_TOKEN_GRACE_DAYS` -/
def graceDays : Int := 30

def StoredToken.owner (t : StoredToken) : Nat := t.userId

/-- `expires_at < now()` -/
def StoredToken.expired (now : Int) (t : StoredToken) : Bool := decide (t.expiresAt < now)

/-- `expires_at < now() - (:grace_days * interval '1 day')` -/
def StoredToken.pastGrace (now : Int) (t : StoredToken) : Bool :=
  decide (t.expiresAt < now - graceDays * dayUs)

namespace RefreshTokens

/-- `SELECT id, expires_at, ROW_NUMBER() OVER (…) AS rn … WHERE expires_at < now()` -/
def ranked (table : RefreshTokens) (window : Window StoredToken.createdAt) (now : Int) :
    List (StoredToken × Nat) :=
  rowNumber StoredToken.owner window (table.rows.filter (StoredToken.expired now))

/-- `SELECT id FROM ranked WHERE rn > :retention OR …` -/
def idsToDelete (table : RefreshTokens) (window : Window StoredToken.createdAt)
    (now : Int) : List Nat :=
  ((table.ranked window now).filter fun e => decide (retentionPerUser < e.2) || e.1.pastGrace now).map fun e => e.1.id

/-- `DELETE FROM refresh_tokens WHERE id IN (…)` -/
def delete (table : RefreshTokens) (ids : List Nat) : RefreshTokens where
  rows := table.rows.filter fun t => decide (t.id ∉ ids)
  pkey := table.pkey.sublist (List.filter_sublist.map _)

/-- The expired tokens of one user. -/
def expiredOf (table : RefreshTokens) (now : Int) (user : Nat) : List StoredToken :=
  group StoredToken.owner user (table.rows.filter (StoredToken.expired now))

end RefreshTokens

/-- `refresh_token_cleanup`: the table it leaves and the rows it deleted. -/
def refreshTokenCleanup (window : Window StoredToken.createdAt) (table : RefreshTokens)
    (now : Int) : RefreshTokens × Nat :=
  let gone := table.idsToDelete window now
  (table.delete gone, table.rows.countP fun t => decide (t.id ∈ gone))

/-! ## What is deleted -/

section Deleted

variable {window : Window StoredToken.createdAt} {table : RefreshTokens} {now : Int}
    {t : StoredToken}

theorem RefreshTokens.row_unique {t' : StoredToken} (member : t ∈ table.rows)
    (member' : t' ∈ table.rows) (same : t.id = t'.id) : t = t' :=
  List.inj_on_of_nodup_map table.pkey member member' same

theorem RefreshTokens.expiredOf_nodup (table : RefreshTokens) (now : Int) (user : Nat) :
    (table.expiredOf now user).Nodup := by
  have rows : table.rows.Nodup := List.Nodup.of_map _ table.pkey
  exact (rows.filter _).filter _

theorem RefreshTokens.mem_of_ranked {n : Nat} (numbered : (t, n) ∈ table.ranked window now) :
    t ∈ table.rows ∧ t.expiresAt < now := by
  obtain ⟨member, expired⟩ := List.mem_filter.mp (mem_of_numbered numbered)
  exact ⟨member, of_decide_eq_true expired⟩

theorem RefreshTokens.mem_delete {ids : List Nat} : t ∈ (table.delete ids).rows ↔
    t ∈ table.rows ∧ t.id ∉ ids := by
  simp [RefreshTokens.delete]

/-- A row goes when one of its numbers is too high, or when its grace is over. -/
theorem RefreshTokens.mem_idsToDelete (member : t ∈ table.rows) :
    t.id ∈ table.idsToDelete window now ↔
      ∃ n, (t, n) ∈ table.ranked window now ∧ (retentionPerUser < n ∨ t.pastGrace now = true) := by
  simp only [RefreshTokens.idsToDelete, List.mem_map, List.mem_filter, Bool.or_eq_true,
    decide_eq_true_eq]
  constructor
  · rintro ⟨⟨t', n⟩, ⟨numbered, limit⟩, same⟩
    obtain rfl := row_unique (mem_of_ranked numbered).1 member same
    exact ⟨n, numbered, limit⟩
  · rintro ⟨n, numbered, limit⟩
    exact ⟨(t, n), ⟨numbered, limit⟩, rfl⟩

/-- An expired row that stays has a low number and is within its grace. -/
theorem kept_expired (kept : t ∈ (refreshTokenCleanup window table now).1.rows)
    (expired : t.expiresAt < now) : (∃ n ≤ retentionPerUser, (t, n) ∈ table.ranked window now) ∧
      now - graceDays * dayUs ≤ t.expiresAt := by
  obtain ⟨member, stays⟩ := RefreshTokens.mem_delete.mp kept
  rw [RefreshTokens.mem_idsToDelete member] at stays
  obtain ⟨n, numbered⟩ : ∃ n, (t, n) ∈ table.ranked window now :=
    exists_row_number (List.mem_filter.mpr ⟨member, decide_eq_true expired⟩)
  have low : n ≤ retentionPerUser := not_lt.mp fun high => stays ⟨n, numbered, Or.inl high⟩
  have graced : ¬ t.expiresAt < now - graceDays * dayUs := fun past =>
    stays ⟨n, numbered, Or.inr (decide_eq_true past)⟩
  exact ⟨⟨n, low, numbered⟩, not_lt.mp graced⟩

/-- At most ten expired tokens of a user stay. -/
theorem kept_expiredOf_length (user : Nat) :
    ((refreshTokenCleanup window table now).1.expiredOf now user).length ≤ retentionPerUser := by
  have low : ∀ t ∈ (refreshTokenCleanup window table now).1.expiredOf now user,
      t.owner = user ∧ ∃ n ≤ retentionPerUser, (t, n) ∈ table.ranked window now := by
    intro t member
    obtain ⟨here, owned⟩ := mem_group.mp member
    obtain ⟨kept, expired⟩ := List.mem_filter.mp here
    exact ⟨owned, (kept_expired kept (of_decide_eq_true expired)).1⟩
  exact numbered_upto_length (RefreshTokens.expiredOf_nodup _ now user) low

/-- A row that is gone had expired, and had a high number or no grace left. -/
theorem deleted_expired (member : t ∈ table.rows)
    (gone : t ∉ (refreshTokenCleanup window table now).1.rows) : t.expiresAt < now ∧
      ((∃ n > retentionPerUser, (t, n) ∈ table.ranked window now) ∨
        t.expiresAt < now - graceDays * dayUs) := by
  have named : t.id ∈ table.idsToDelete window now := by
    by_contra spared
    exact gone (RefreshTokens.mem_delete.mpr ⟨member, spared⟩)
  obtain ⟨n, numbered, limit⟩ := (RefreshTokens.mem_idsToDelete member).mp named
  refine ⟨(RefreshTokens.mem_of_ranked numbered).2, ?_⟩
  rcases limit with high | past
  · exact Or.inl ⟨n, high, numbered⟩
  · exact Or.inr (of_decide_eq_true past)

/-- A table within both limits loses nothing, however its rows are numbered. -/
theorem cleanup_eq_self (few : ∀ user, (table.expiredOf now user).length ≤ retentionPerUser)
    (graced : ∀ t ∈ table.rows, now - graceDays * dayUs ≤ t.expiresAt) :
    refreshTokenCleanup window table now = (table, 0) := by
  have spared : ∀ t ∈ table.rows, t.id ∉ table.idsToDelete window now := by
    intro t member named
    obtain ⟨n, numbered, limit⟩ := (RefreshTokens.mem_idsToDelete member).mp named
    rcases limit with high | past
    · have low : n ≤ (table.expiredOf now t.owner).length := row_number_le_length numbered
      exact absurd (low.trans (few t.owner)) (not_le.mpr high)
    · exact absurd (graced t member) (not_le.mpr (of_decide_eq_true past))
  have rows : table.rows.filter (fun t => decide (t.id ∉ table.idsToDelete window now)) =
      table.rows :=
    List.filter_eq_self.mpr fun t member => decide_eq_true (spared t member)
  have count : table.rows.countP (fun t => decide (t.id ∈ table.idsToDelete window now)) = 0 :=
    List.countP_eq_zero.mpr fun t member named => spared t member (of_decide_eq_true named)
  simp only [refreshTokenCleanup, RefreshTokens.delete, rows, count]

end Deleted

/-! ## Safety and convergence -/

/-- What `kept` is to `table` after a cleanup at `now`. -/
structure Cleaned (table kept : RefreshTokens) (now : Int) : Prop where
  sublist : kept.rows.Sublist table.rows
  unexpired : ∀ t ∈ table.rows, now ≤ t.expiresAt → t ∈ kept.rows
  few : ∀ user, (kept.expiredOf now user).length ≤ 10
  /-- Fewer than ten expired tokens of the user were created after one that stays. -/
  recent : ∀ t ∈ kept.rows, t.expiresAt < now →
    (table.expiredOf now t.userId).countP (fun t' => decide (t.createdAt < t'.createdAt)) < 10
  graced : ∀ t ∈ kept.rows, now - 30 * dayUs ≤ t.expiresAt
  /-- One that goes is past its grace, or one of more than ten that were created no earlier. -/
  forced : ∀ t ∈ table.rows, t ∉ kept.rows → t.expiresAt < now ∧
    (t.expiresAt < now - 30 * dayUs ∨
      10 < (table.expiredOf now t.userId).countP fun t' => decide (t.createdAt ≤ t'.createdAt))

/-- Where a user's tokens have different creation times, a cleanup leaves exactly those that
the limits allow. -/
theorem Cleaned.mem_iff {table kept : RefreshTokens} {now : Int} (cleaned : Cleaned table kept now)
    (distinct : ∀ t ∈ table.rows, ∀ t' ∈ table.rows, t.userId = t'.userId →
      t.createdAt = t'.createdAt → t = t')
    {t : StoredToken} :
    t ∈ kept.rows ↔ t ∈ table.rows ∧ (t.expiresAt < now → now - 30 * dayUs ≤ t.expiresAt ∧
      (table.expiredOf now t.userId).countP
        (fun t' => decide (t.createdAt < t'.createdAt)) < 10) := by
  constructor
  · intro here
    exact ⟨cleaned.sublist.subset here,
      fun expired => ⟨cleaned.graced t here, cleaned.recent t here expired⟩⟩
  · rintro ⟨member, allowed⟩
    by_contra gone
    obtain ⟨expired, past | crowded⟩ := cleaned.forced t member gone
    · exact absurd (allowed expired).1 (not_le.mpr past)
    · have alone : ∀ t' ∈ table.expiredOf now t.userId, t'.createdAt = t.createdAt → t' = t := by
        intro t' among together
        obtain ⟨here, owned⟩ := mem_group.mp among
        exact distinct t' (List.mem_filter.mp here).1 t member owned together
      have counted := countP_no_earlier_le (table.expiredOf_nodup now t.userId) alone
      exact absurd (crowded.trans_le counted) (not_lt.mpr (Nat.succ_le_of_lt (allowed expired).2))

section Run

variable (window window' : Window StoredToken.createdAt) (table : RefreshTokens) (now : Int)

theorem cleaned_refreshTokenCleanup :
    Cleaned table (refreshTokenCleanup window table now).1 now where
  sublist := List.filter_sublist
  unexpired := by
    intro t member unexpired
    by_contra gone
    exact absurd unexpired (not_le.mpr (deleted_expired member gone).1)
  few := kept_expiredOf_length
  recent := by
    intro t kept expired
    obtain ⟨⟨n, low, numbered⟩, _⟩ := kept_expired kept expired
    exact (row_number_gt numbered).trans_le low
  graced := by
    intro t kept
    by_cases expired : t.expiresAt < now
    · exact (kept_expired kept expired).2
    · have month : 0 ≤ graceDays * dayUs := by decide
      show now - graceDays * dayUs ≤ t.expiresAt
      omega
  forced := by
    intro t member gone
    obtain ⟨expired, ⟨n, high, numbered⟩ | past⟩ := deleted_expired member gone
    · exact ⟨expired, Or.inr (high.trans_le (row_number_le numbered))⟩
    · exact ⟨expired, Or.inl past⟩

/-- **Cleanup is safe and convergent.** -/
theorem refresh_token_cleanup_converges :
    Cleaned table (refreshTokenCleanup window table now).1 now ∧
      refreshTokenCleanup window' (refreshTokenCleanup window table now).1 now =
        ((refreshTokenCleanup window table now).1, 0) := by
  have cleaned := cleaned_refreshTokenCleanup window table now
  exact ⟨cleaned, cleanup_eq_self cleaned.few cleaned.graced⟩

end Run

example :
    (refreshTokenCleanup (Window.stable _)
      { rows :=
          [⟨⟨7, -31 * dayUs, false⟩, 1, -45 * dayUs⟩, ⟨⟨7, -2 * dayUs, true⟩, 2, -16 * dayUs⟩,
            ⟨⟨7, dayUs, false⟩, 3, -13 * dayUs⟩]
        pkey := by decide } 0).1.rows.map StoredToken.id = [2, 3] := by decide

end Empyrean.Rollup
