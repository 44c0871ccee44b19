/-
# Empyrean.Theory.RowStore — rows under row locks, read committed

A table as a READ COMMITTED database shows it to concurrent transactions.  Each row
is its last committed version together with at most one *holder*: the transaction
that has locked it, and the version that transaction will leave there when it
commits.  A row that does not exist is the committed version `none`.

* `Row.read t` — what a statement of `t` sees: `t`'s own version, else the committed one.
* `updateRow t k p f` — one row of `UPDATE … SET f WHERE p`: it waits while another
  transaction holds the row, and then evaluates `p` *again* on the newest version, so a
  row the statement's snapshot had matched may be left alone.  `f = id` is one row of
  `SELECT … FOR UPDATE`.
* `put`, `commit`, `rollback` — the row writes of a transaction and its two ends.

A statement over several rows is its snapshot (the keys that match when it starts)
followed by one `updateRow` per key, in any order, with other transactions' steps in
between.  A row lock on a row whose second evaluation of `p` fails is not kept; keeping
it only removes interleavings.

The rules the invariants of a transaction system use:

* `Framed t rows rows'` — a step of `t` leaves every row that another transaction holds
  exactly as it was, and gives no other transaction a row.  `framed_put`,
  `framed_commit`, `framed_rollback`.
* `committed_put`, `commit_cases`, `committed_rollback` — only the commit of a row's
  holder changes what is committed there.
* `Sound allows drawn rows` — every held version stands in the relation `allows` to the
  committed one, and a key that was not drawn yet is empty.  `sound_put`, `sound_commit`,
  `sound_rollback`; `Sound.committed` says what this makes of a commit.
-/
import Mathlib.Logic.Function.Basic

namespace Empyrean.Theory.RowStore

set_option autoImplicit false
set_option linter.unusedSectionVars false

universe u v w

/-- One row: the last committed version, and the holder of its lock with the version
the holder will commit. -/
structure Row (τ : Type u) (α : Type v) where
  committed : Option α
  held : Option (τ × Option α)

namespace Row

variable {τ : Type u} {α : Type v} [DecidableEq τ]

/-- A row nobody holds. -/
def settled (value : Option α) : Row τ α := ⟨value, none⟩

/-- The version a statement of `t` sees. -/
def read (t : τ) (row : Row τ α) : Option α :=
  match row.held with
  | some (holder, value) => if holder = t then value else row.committed
  | none => row.committed

/-- The row's lock is free, or `t`'s own. -/
def FreeFor (t : τ) (row : Row τ α) : Prop := ∀ holder ∈ row.held, holder.1 = t

instance (t : τ) (row : Row τ α) : Decidable (row.FreeFor t) :=
  match h : row.held with
  | none => isTrue (by simp [FreeFor, h])
  | some holder =>
      if same : holder.1 = t then isTrue (by simp [FreeFor, h, same])
      else isFalse (by simp [FreeFor, h, same])

theorem read_of_held {t : τ} {row : Row τ α} {value : Option α}
    (holds : row.held = some (t, value)) : row.read t = value := by
  simp [read, holds]

theorem read_of_not_held {t : τ} {row : Row τ α} (others : ∀ value, row.held ≠ some (t, value)) :
    row.read t = row.committed := by
  unfold read
  split
  · rename_i holder value holds
    have different : holder ≠ t := fun same => others value (by rw [holds, same])
    simp [different]
  · rfl

/-- What `t` reads is either its own version or the committed one. -/
theorem read_cases (t : τ) (row : Row τ α) :
    row.held = some (t, row.read t) ∨
      ((∀ value, row.held ≠ some (t, value)) ∧ row.read t = row.committed) := by
  by_cases holds : ∃ value, row.held = some (t, value)
  · obtain ⟨value, holds⟩ := holds
    exact Or.inl (by rw [read_of_held holds, holds])
  · have others : ∀ value, row.held ≠ some (t, value) := fun value h => holds ⟨value, h⟩
    exact Or.inr ⟨others, read_of_not_held others⟩

theorem not_freeFor {t t' : τ} {row : Row τ α} {value : Option α}
    (holds : row.held = some (t', value)) (different : t' ≠ t) : ¬ row.FreeFor t := by
  simp [FreeFor, holds, different]

end Row

/-- A table: one row per key. -/
abbrev Rows (κ : Type w) (τ : Type u) (α : Type v) := κ → Row τ α

section Store

variable {κ : Type w} {τ : Type u} {α : Type v} [DecidableEq κ] [DecidableEq τ]

/-- `t` takes the row's lock and leaves `value` there, uncommitted. -/
def put (rows : Rows κ τ α) (t : τ) (k : κ) (value : Option α) : Rows κ τ α :=
  Function.update rows k ⟨(rows k).committed, some (t, value)⟩

/-- Every version `t` wrote becomes the committed one, and its locks are released. -/
def commit (rows : Rows κ τ α) (t : τ) : Rows κ τ α := fun k =>
  match (rows k).held with
  | some (holder, value) => if holder = t then .settled value else rows k
  | none => rows k

/-- `t`'s versions are dropped and its locks released. -/
def rollback (rows : Rows κ τ α) (t : τ) : Rows κ τ α := fun k =>
  match (rows k).held with
  | some (holder, _) => if holder = t then .settled (rows k).committed else rows k
  | none => rows k

/-- One row of `UPDATE … SET f WHERE p RETURNING *`; `none` while the row is locked. -/
def updateRow (rows : Rows κ τ α) (t : τ) (k : κ) (p : α → Bool) (f : α → α) :
    Option (Rows κ τ α × Option α) :=
  if (rows k).FreeFor t then
    match (rows k).read t with
    | some value =>
        if p value then some (put rows t k (some (f value)), some (f value)) else some (rows, none)
    | none => some (rows, none)
  else none

/-! ## What the operations do, row by row -/

@[simp] theorem put_self (rows : Rows κ τ α) (t : τ) (k : κ) (value : Option α) :
    put rows t k value k = ⟨(rows k).committed, some (t, value)⟩ := by
  simp [put]

theorem put_of_ne {rows : Rows κ τ α} {t : τ} {k k' : κ} {value : Option α} (different : k' ≠ k) :
    put rows t k value k' = rows k' := by
  simp [put, different]

@[simp] theorem committed_put (rows : Rows κ τ α) (t : τ) (k k' : κ) (value : Option α) :
    (put rows t k value k').committed = (rows k').committed := by
  by_cases same : k' = k
  · subst same; simp
  · rw [put_of_ne same]

theorem held_put {rows : Rows κ τ α} {t t' : τ} {k k' : κ} {value value' : Option α}
    (holds : (put rows t k value k').held = some (t', value')) :
    (k' = k ∧ t' = t ∧ value' = value) ∨ (k' ≠ k ∧ (rows k').held = some (t', value')) := by
  by_cases same : k' = k
  · subst same
    simp only [put_self, Option.some.injEq, Prod.mk.injEq] at holds
    exact Or.inl ⟨rfl, holds.1.symm, holds.2.symm⟩
  · rw [put_of_ne same] at holds
    exact Or.inr ⟨same, holds⟩

theorem commit_of_held {rows : Rows κ τ α} {t : τ} {k : κ} {value : Option α}
    (holds : (rows k).held = some (t, value)) : commit rows t k = .settled value := by
  simp [commit, holds]

theorem commit_of_not_held {rows : Rows κ τ α} {t : τ} {k : κ}
    (others : ∀ value, (rows k).held ≠ some (t, value)) : commit rows t k = rows k := by
  unfold commit
  split
  · rename_i holder value holds
    have different : holder ≠ t := fun same => others value (by rw [holds, same])
    simp [different]
  · rfl

/-- **The commit rule.**  A row is settled at the version `t` held, or untouched. -/
theorem commit_cases (rows : Rows κ τ α) (t : τ) (k : κ) :
    (∃ value, (rows k).held = some (t, value) ∧ commit rows t k = .settled value) ∨
      ((∀ value, (rows k).held ≠ some (t, value)) ∧ commit rows t k = rows k) := by
  by_cases holds : ∃ value, (rows k).held = some (t, value)
  · obtain ⟨value, holds⟩ := holds
    exact Or.inl ⟨value, holds, commit_of_held holds⟩
  · have others : ∀ value, (rows k).held ≠ some (t, value) := fun value h => holds ⟨value, h⟩
    exact Or.inr ⟨others, commit_of_not_held others⟩

theorem rollback_of_held {rows : Rows κ τ α} {t : τ} {k : κ} {value : Option α}
    (holds : (rows k).held = some (t, value)) :
    rollback rows t k = .settled (rows k).committed := by
  simp [rollback, holds]

theorem rollback_of_not_held {rows : Rows κ τ α} {t : τ} {k : κ}
    (others : ∀ value, (rows k).held ≠ some (t, value)) : rollback rows t k = rows k := by
  unfold rollback
  split
  · rename_i holder value holds
    have different : holder ≠ t := fun same => others value (by rw [holds, same])
    simp [different]
  · rfl

@[simp] theorem committed_rollback (rows : Rows κ τ α) (t : τ) (k : κ) :
    (rollback rows t k).committed = (rows k).committed := by
  by_cases holds : ∃ value, (rows k).held = some (t, value)
  · obtain ⟨value, holds⟩ := holds
    rw [rollback_of_held holds, Row.settled]
  · rw [rollback_of_not_held fun value h => holds ⟨value, h⟩]

/-- After its commit a transaction holds nothing. -/
theorem held_commit {rows : Rows κ τ α} {t t' : τ} {k : κ} {value : Option α}
    (holds : (commit rows t k).held = some (t', value)) :
    t' ≠ t ∧ (rows k).held = some (t', value) ∧ commit rows t k = rows k := by
  rcases commit_cases rows t k with ⟨_, _, same⟩ | ⟨others, same⟩
  · simp [same, Row.settled] at holds
  · rw [same] at holds
    exact ⟨fun e => others value (e ▸ holds), holds, same⟩

theorem held_rollback {rows : Rows κ τ α} {t t' : τ} {k : κ} {value : Option α}
    (holds : (rollback rows t k).held = some (t', value)) :
    t' ≠ t ∧ (rows k).held = some (t', value) := by
  by_cases own : ∃ v, (rows k).held = some (t, v)
  · obtain ⟨v, own⟩ := own
    simp [rollback_of_held own, Row.settled] at holds
  · have others : ∀ v, (rows k).held ≠ some (t, v) := fun v h => own ⟨v, h⟩
    rw [rollback_of_not_held others] at holds
    exact ⟨fun e => others value (e ▸ holds), holds⟩

/-- **The row-visit rule.**  The row was free; it matched and is now held, or nothing changed. -/
theorem updateRow_cases {rows rows' : Rows κ τ α} {t : τ} {k : κ} {p : α → Bool} {f : α → α}
    {out : Option α} (updated : updateRow rows t k p f = some (rows', out)) :
    (rows k).FreeFor t ∧
      ((∃ value, (rows k).read t = some value ∧ p value = true ∧
          rows' = put rows t k (some (f value)) ∧ out = some (f value)) ∨
        (rows' = rows ∧ out = none ∧ ∀ value, (rows k).read t = some value → p value = false)) := by
  unfold updateRow at updated
  split at updated
  · rename_i free
    refine ⟨free, ?_⟩
    split at updated
    · rename_i value seen
      split at updated
      · rename_i matched
        cases updated
        exact Or.inl ⟨value, seen, matched, rfl, rfl⟩
      · rename_i unmatched
        cases updated
        refine Or.inr ⟨rfl, rfl, ?_⟩
        intro other sees
        rw [seen] at sees
        cases sees
        simpa using unmatched
    · rename_i missing
      cases updated
      exact Or.inr ⟨rfl, rfl, fun other sees => by rw [missing] at sees; cases sees⟩
  · cases updated

/-- Visiting a row commits nothing. -/
theorem committed_updateRow {rows rows' : Rows κ τ α} {t : τ} {k : κ} {p : α → Bool} {f : α → α}
    {out : Option α} (updated : updateRow rows t k p f = some (rows', out)) (k' : κ) :
    (rows' k').committed = (rows k').committed := by
  obtain ⟨_, ⟨_, _, _, rfl, _⟩ | ⟨rfl, _, _⟩⟩ := updateRow_cases updated
  · exact committed_put rows t k k' _
  · rfl

/-! ## The frame of a transaction -/

/-- A row that a transaction other than `t` holds, before or after, is the same in both tables. -/
def Framed (t : τ) (rows rows' : Rows κ τ α) : Prop :=
  ∀ k t' value, t' ≠ t →
    (rows k).held = some (t', value) ∨ (rows' k).held = some (t', value) → rows' k = rows k

theorem framed_refl (t : τ) (rows : Rows κ τ α) : Framed t rows rows := fun _ _ _ _ _ => rfl

/-- What another transaction holds after the step, it held before. -/
theorem Framed.held_before {t t' : τ} {rows rows' : Rows κ τ α} (framed : Framed t rows rows')
    (different : t' ≠ t) {k : κ} {value : Option α} (holds : (rows' k).held = some (t', value)) :
    (rows k).held = some (t', value) ∧ rows' k = rows k := by
  have same := framed k t' value different (Or.inr holds)
  exact ⟨same ▸ holds, same⟩

/-- What another transaction held before the step, it holds after. -/
theorem Framed.keeps {t t' : τ} {rows rows' : Rows κ τ α} (framed : Framed t rows rows')
    (different : t' ≠ t) {k : κ} {value : Option α} (holds : (rows k).held = some (t', value)) :
    rows' k = rows k :=
  framed k t' value different (Or.inl holds)

theorem Framed.trans {t : τ} {rows mid rows' : Rows κ τ α} (first : Framed t rows mid)
    (second : Framed t mid rows') : Framed t rows rows' := by
  intro k t' value different holds
  rcases holds with holds | holds
  · have same := first k t' value different (Or.inl holds)
    rw [second k t' value different (Or.inl (same ▸ holds)), same]
  · have same := second k t' value different (Or.inr holds)
    rw [same, first k t' value different (Or.inr (same ▸ holds))]

theorem framed_put {rows : Rows κ τ α} {t : τ} {k : κ} (value : Option α)
    (free : (rows k).FreeFor t) : Framed t rows (put rows t k value) := by
  intro k' t' value' different holds
  have away : k' ≠ k := by
    rintro rfl
    rcases holds with holds | holds
    · exact Row.not_freeFor holds different free
    · simp only [put_self, Option.some.injEq, Prod.mk.injEq] at holds
      exact different holds.1.symm
  exact put_of_ne away

theorem framed_commit (t : τ) (rows : Rows κ τ α) : Framed t rows (commit rows t) := by
  intro k t' value different holds
  rcases holds with holds | holds
  · apply commit_of_not_held
    intro other own
    rw [holds] at own
    cases own
    exact different rfl
  · exact (held_commit holds).2.2

theorem framed_rollback (t : τ) (rows : Rows κ τ α) : Framed t rows (rollback rows t) := by
  intro k t' value different holds
  have held : (rows k).held = some (t', value) := holds.elim id fun h => (held_rollback h).2
  apply rollback_of_not_held
  intro other own
  rw [held] at own
  cases own
  exact different rfl

/-! ## Versions over committed rows -/

/-- Rows are only overwritten by versions that `allows` relates to them, and only where a key was
drawn. -/
structure Sound (allows : α → α → Prop) (drawn : κ → Prop) (rows : Rows κ τ α) : Prop where
  held : ∀ k t version, (rows k).held = some (t, version) →
    ∃ row, version = some row ∧ ∀ old, (rows k).committed = some old → allows old row
  undrawn : ∀ k, ¬ drawn k → rows k = .settled none

section Sound

variable {allows : α → α → Prop} {drawn drawn' : κ → Prop} {rows : Rows κ τ α} {t : τ} {k : κ}

theorem Sound.drawn_of_committed (sound : Sound allows drawn rows) {row : α}
    (stored : (rows k).committed = some row) : drawn k := by
  by_contra undrawn
  simp [sound.undrawn k undrawn, Row.settled] at stored

theorem sound_put (sound : Sound allows drawn rows) {row : α} (here : drawn' k)
    (more : ∀ k', drawn k' → drawn' k')
    (allowed : ∀ old, (rows k).committed = some old → allows old row) :
    Sound allows drawn' (put rows t k (some row)) where
  held := fun k' t' version holds => by
    rw [committed_put]
    rcases held_put holds with ⟨rfl, _, rfl⟩ | ⟨_, before⟩
    · exact ⟨row, rfl, allowed⟩
    · exact sound.held k' t' version before
  undrawn := fun k' absent => by
    have away : k' ≠ k := by
      rintro rfl
      exact absent here
    rw [put_of_ne away]
    exact sound.undrawn k' fun earlier => absent (more k' earlier)

theorem sound_commit (sound : Sound allows drawn rows) : Sound allows drawn (commit rows t) where
  held := fun k t' version holds => by
    obtain ⟨_, before, same⟩ := held_commit holds
    rw [same]
    exact sound.held k t' version before
  undrawn := fun k absent => by
    have empty := sound.undrawn k absent
    rw [commit_of_not_held (by simp [empty, Row.settled]), empty]

theorem sound_rollback (sound : Sound allows drawn rows) :
    Sound allows drawn (rollback rows t) where
  held := fun k t' version holds => by
    obtain ⟨_, before⟩ := held_rollback holds
    rw [committed_rollback]
    exact sound.held k t' version before
  undrawn := fun k absent => by
    have empty := sound.undrawn k absent
    rw [rollback_of_not_held (by simp [empty, Row.settled]), empty]

/-- What a commit makes of a stored row: it stays, or is overwritten as allowed. -/
theorem Sound.committed (sound : Sound allows drawn rows) {old : α}
    (stored : (rows k).committed = some old) :
    ∃ row, (commit rows t k).committed = some row ∧ (row = old ∨ allows old row) := by
  rcases commit_cases rows t k with ⟨value, holds, settled⟩ | ⟨_, same⟩
  · obtain ⟨row, rfl, allowed⟩ := sound.held k t value holds
    exact ⟨row, by rw [settled, Row.settled], Or.inr (allowed old stored)⟩
  · exact ⟨old, by rw [same, stored], Or.inl rfl⟩

end Sound

end Store

end Empyrean.Theory.RowStore
