/-
# Empyrean.Theory.UniqueRows — a table under unique constraints

A table as a list of rows.  `same` tells two versions of one row apart from two rows, and
`clash` says that two rows may not stand in the table together: that they agree in a unique
column.  A constraint is checked at every row that is written, against the rows as they
stand at that point, so a statement over several rows meets new and old versions mixed.

* `Separate` — no two rows are the same row or clash.
* `insert`, `update`, `updateEach` — `INSERT`, `UPDATE` of one row, and `UPDATE` of several in
  a given order; `none` where the constraint is violated.
* `separate_insert`, `separate_update` — the constraint holds on.
* `updateEach_eq` — where no new version clashes with a version of another row, a statement
  over several rows succeeds, and it does the same in every order.
-/
import Mathlib.Data.List.Nodup
import Mathlib.Data.List.Pairwise

namespace Empyrean.Theory.UniqueRows

set_option autoImplicit false
set_option linter.unusedSectionVars false

variable {α κ : Type} [DecidableEq κ] (key : α → κ) (clash : α → α → Bool)

/-- No two rows have one key, or clash. -/
def Separate (rows : List α) : Prop := rows.Pairwise fun a b => key a ≠ key b ∧ clash a b = false

def insert (row : α) (rows : List α) : Option (List α) :=
  if rows.any (clash row) then none else some (rows ++ [row])

/-- The row with key `k` becomes `f` of itself. -/
def set (k : κ) (f : α → α) (rows : List α) : List α :=
  rows.map fun row => if key row = k then f row else row

/-- The new version clashes with another row. -/
def violated (k : κ) (f : α → α) (rows : List α) : Bool :=
  rows.any fun row => decide (key row = k) && rows.any fun other =>
    decide (key other ≠ k) && clash (f row) other

def update (k : κ) (f : α → α) (rows : List α) : Option (List α) :=
  if violated key clash k f rows then none else some (set key k f rows)

def updateEach (f : α → α) : List κ → List α → Option (List α)
  | [], rows => some rows
  | k :: rest, rows => (update key clash k f rows).bind (updateEach f rest)

variable {key clash}

/-! ## Single rows -/

theorem mem_set {k : κ} {f : α → α} {rows : List α} {new : α} :
    new ∈ set key k f rows ↔ ∃ row ∈ rows, new = if key row = k then f row else row := by
  simp [set, eq_comm]

theorem violated_eq_false {k : κ} {f : α → α} {rows : List α} :
    violated key clash k f rows = false ↔
      ∀ row ∈ rows, key row = k → ∀ other ∈ rows, key other ≠ k → clash (f row) other = false := by
  simp [violated, List.any_eq_false]

theorem insert_eq_some {row : α} {rows rows' : List α}
    (inserted : insert clash row rows = some rows') :
    rows' = rows ++ [row] ∧ ∀ other ∈ rows, clash row other = false := by
  unfold insert at inserted
  split at inserted
  · cases inserted
  · rename_i free
    exact ⟨(Option.some.inj inserted).symm, by simpa [List.any_eq_false] using free⟩

theorem update_eq_some {k : κ} {f : α → α} {rows rows' : List α}
    (updated : update key clash k f rows = some rows') : rows' = set key k f rows ∧
      ∀ row ∈ rows, key row = k → ∀ other ∈ rows, key other ≠ k → clash (f row) other = false := by
  unfold update at updated
  split at updated
  · cases updated
  · rename_i free
    exact ⟨(Option.some.inj updated).symm, violated_eq_false.mp (by simpa using free)⟩

theorem update_of_free {k : κ} {f : α → α} {rows : List α}
    (free : ∀ row ∈ rows, key row = k → ∀ other ∈ rows, key other ≠ k →
      clash (f row) other = false) :
    update key clash k f rows = some (set key k f rows) := by
  rw [update, if_neg (by simp [violated_eq_false.mpr free])]

theorem Separate.eq_of_key {rows : List α} (separate : Separate key clash rows) {a b : α}
    (mema : a ∈ rows) (memb : b ∈ rows) (same : key a = key b) : a = b := by
  have distinct : (rows.map key).Nodup := List.pairwise_map.mpr (separate.imp fun both => both.1)
  exact List.inj_on_of_nodup_map distinct mema memb same

section Symmetric

variable (symm : ∀ a b, clash a b = clash b a)

include symm

theorem separate_insert {row : α} {rows rows' : List α} (separate : Separate key clash rows)
    (fresh : ∀ other ∈ rows, key other ≠ key row) (inserted : insert clash row rows = some rows') :
    Separate key clash rows' := by
  obtain ⟨rfl, free⟩ := insert_eq_some inserted
  refine List.pairwise_append.mpr ⟨separate, List.pairwise_singleton _ _, ?_⟩
  intro other member new isNew
  obtain rfl := List.mem_singleton.mp isNew
  exact ⟨fresh other member, (symm other new).trans (free other member)⟩

theorem separate_update {k : κ} {f : α → α} {rows rows' : List α}
    (separate : Separate key clash rows) (keeps : ∀ row, key (f row) = key row)
    (updated : update key clash k f rows = some rows') : Separate key clash rows' := by
  obtain ⟨rfl, free⟩ := update_eq_some updated
  refine List.pairwise_map.mpr (separate.imp_of_mem ?_)
  rintro a b mema memb ⟨keys, apart⟩
  by_cases herea : key a = k
  · have away : key b ≠ k := fun hereb => keys (herea.trans hereb.symm)
    rw [if_pos herea, if_neg away, keeps]
    exact ⟨keys, free a mema herea b memb away⟩
  · rw [if_neg herea]
    by_cases hereb : key b = k
    · rw [if_pos hereb, keeps]
      exact ⟨keys, (symm _ _).trans (free b memb hereb a mema herea)⟩
    · rw [if_neg hereb]
      exact ⟨keys, apart⟩

end Symmetric

/-- Two rows of the table do not clash. -/
theorem Separate.apart (symm : ∀ a b, clash a b = clash b a) {rows : List α}
    (separate : Separate key clash rows) {a b : α} (mema : a ∈ rows) (memb : b ∈ rows)
    (different : key a ≠ key b) : clash a b = false := by
  have : Std.Symm fun a b => key a ≠ key b → clash a b = false :=
    ⟨fun a b free keys => (symm b a).trans (free (Ne.symm keys))⟩
  have pairs : rows.Pairwise fun a b => key a ≠ key b → clash a b = false :=
    separate.imp fun both _ => both.2
  exact pairs.forall_of_forall (fun x _ keys => absurd rfl keys) mema memb different

/-! ## Several rows -/

/-- The rows with these keys, all changed. -/
def setAll (key : α → κ) (ks : List κ) (f : α → α) (rows : List α) : List α :=
  rows.map fun row => if key row ∈ ks then f row else row

/-- No version that `f` writes clashes with another row, old or new. -/
def Apart (key : α → κ) (clash : α → α → Bool) (ks : List κ) (f : α → α) (rows : List α) : Prop :=
  ∀ row ∈ rows, key row ∈ ks → ∀ other ∈ rows, key other ≠ key row →
    clash (f row) other = false ∧ (key other ∈ ks → clash (f row) (f other) = false)

/-- What is left to write stays apart from the row that was just written. -/
theorem Apart.set {k : κ} {rest : List κ} {f : α → α} {rows : List α}
    (keeps : ∀ row, key (f row) = key row) (once : k ∉ rest)
    (apart : Apart key clash (k :: rest) f rows) : Apart key clash rest f (set key k f rows) := by
  intro new isNew listed other isOther different
  obtain ⟨row, member, rfl⟩ := mem_set.mp isNew
  obtain ⟨before, stood, rfl⟩ := mem_set.mp isOther
  have away : key row ≠ k := by
    intro here
    rw [if_pos here, keeps, here] at listed
    exact once listed
  rw [if_neg away] at listed different ⊢
  have ahead := apart row member (List.mem_cons_of_mem _ listed)
  by_cases written : key before = k
  · rw [if_pos written, keeps] at different ⊢
    have both := (ahead before stood different).2 (written ▸ List.mem_cons_self)
    refine ⟨both, fun listedOther => ?_⟩
    exact absurd (written ▸ listedOther) once
  · rw [if_neg written] at different ⊢
    have both := ahead before stood different
    exact ⟨both.1, fun listedOther => both.2 (List.mem_cons_of_mem _ listedOther)⟩

theorem setAll_set {k : κ} {rest : List κ} {f : α → α} {rows : List α}
    (keeps : ∀ row, key (f row) = key row) (once : k ∉ rest) :
    setAll key rest f (set key k f rows) = setAll key (k :: rest) f rows := by
  simp only [setAll, set, List.map_map]
  refine List.map_congr_left fun row _ => ?_
  by_cases here : key row = k
  · simp [here, keeps, once]
  · simp [here]

/-- **The batch rule.**  A statement over several rows succeeds in any order of its rows. -/
theorem updateEach_eq {f : α → α} (keeps : ∀ row, key (f row) = key row) :
    ∀ {ks : List κ} {rows : List α}, ks.Nodup → Apart key clash ks f rows →
      updateEach key clash f ks rows = some (setAll key ks f rows)
  | [], rows, _, _ => by simp [updateEach, setAll]
  | k :: rest, rows, once, apart => by
      obtain ⟨first, later⟩ := List.nodup_cons.mp once
      have free : update key clash k f rows = some (set key k f rows) := by
        refine update_of_free ?_
        intro row member here other stood different
        exact (apart row member (by simp [here]) other stood (by simpa [here] using different)).1
      rw [updateEach, free, Option.bind_some, updateEach_eq keeps later (apart.set keeps first),
        setAll_set keeps first]

end Empyrean.Theory.UniqueRows
