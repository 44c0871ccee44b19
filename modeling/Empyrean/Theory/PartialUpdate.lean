/-
# Empyrean.Theory.PartialUpdate — requests that load a row and write some of its columns

A request loads a row, sets the attributes that its body supplies and commits.  Only the
attributes that then differ from what was loaded are in the `UPDATE`, which waits for the
row and is applied to its newest version; where none differs there is no statement.

* `Patching` — rows with columns, bodies that supply some of them, and what an `UPDATE`
  leaves in each column.
* `step` — any number of such requests, on any rows, statement by statement.
* `Apart` — no column of a row is supplied by two requests.
* `contains_of_reach` — then a row always has every value of the requests that are done,
  and in the other columns what it had at the start.
-/
import Empyrean.Theory.RowStore
import Empyrean.Theory.Runs

namespace Empyrean.Theory.PartialUpdate

set_option autoImplicit false
set_option linter.unusedSectionVars false

universe u v w x y

open RowStore Runs

/-! ## Rows, bodies and statements -/

structure Patching (π : Type u) (ρ : Type v) (ι : Type w) (V : ι → Type x) where
  column : ∀ i, ρ → V i
  supplied : π → ∀ i, Option (V i)
  /-- There is nothing to do, and no row is loaded. -/
  skips : π → Bool
  /-- An attribute is set to a value that was not loaded. -/
  touches : π → ρ → Bool
  /-- The `UPDATE` of a request that loaded one version of the row, on the newest one. -/
  write : π → Int → ρ → ρ → ρ
  skips_supplied : ∀ data, skips data = true → ∀ i, supplied data i = none
  untouched : ∀ data loaded, touches data loaded = false → ∀ i v, supplied data i = some v →
    v = column i loaded
  write_none : ∀ data now loaded current i, supplied data i = none →
    column i (write data now loaded current) = column i current
  write_same : ∀ data now loaded current i, supplied data i = some (column i loaded) →
    column i (write data now loaded current) = column i current
  write_some : ∀ data now loaded current i v, supplied data i = some v → v ≠ column i loaded →
    column i (write data now loaded current) = v

inductive Pc (ρ : Type v)
  | idle
  | load
  | update (loaded : ρ)
  | commit
  | done
  /-- There is no such row, a constraint is violated, or the connection is lost. -/
  | failed
  deriving DecidableEq

structure State (κ : Type y) (ρ : Type v) where
  rows : Rows κ Nat ρ
  pcs : Nat → Pc ρ

inductive Act
  | arrive (t : Nat)
  | advance (t : Nat) (now : Int)
  | fail (t : Nat)

section System

variable {κ : Type y} {π : Type u} {ρ : Type v} {ι : Type w} {V : ι → Type x}

def State.go (s : State κ ρ) (t : Nat) (rows : Rows κ Nat ρ) (pc : Pc ρ) : State κ ρ :=
  { rows := rows, pcs := Function.update s.pcs t pc }

@[simp] theorem go_rows (s : State κ ρ) (t : Nat) (rows : Rows κ Nat ρ) (pc : Pc ρ) :
    (s.go t rows pc).rows = rows := rfl

@[simp] theorem go_pcs_self (s : State κ ρ) (t : Nat) (rows : Rows κ Nat ρ) (pc : Pc ρ) :
    (s.go t rows pc).pcs t = pc := by
  simp [State.go]

theorem go_pcs_of_ne {s : State κ ρ} {t t' : Nat} (rows : Rows κ Nat ρ) (pc : Pc ρ)
    (different : t' ≠ t) : (s.go t rows pc).pcs t' = s.pcs t' := by
  simp [State.go, different]

/-- `requests` has the key and the body of every request. -/
def step [DecidableEq κ] (patching : Patching π ρ ι V) (requests : Nat → κ × π) (s : State κ ρ) :
    Act → Option (State κ ρ)
  | .arrive t =>
      match s.pcs t with
      | .idle => some (s.go t s.rows (if patching.skips (requests t).2 then .done else .load))
      | _ => none
  | .advance t now =>
      match s.pcs t with
      | .load =>
          match (s.rows (requests t).1).read t with
          | none => some (s.go t s.rows .failed)
          | some loaded => some (s.go t s.rows (.update loaded))
      | .update loaded =>
          if patching.touches (requests t).2 loaded then
            (updateRow s.rows t (requests t).1 (fun _ => true) (patching.write (requests t).2 now loaded)).map
              fun updated =>
                match updated with
                | (rows, some _) => s.go t rows .commit
                | (rows, none) => s.go t (rollback rows t) .failed
          else some (s.go t s.rows .commit)
      | .commit => some (s.go t (commit s.rows t) .done)
      | .idle | .done | .failed => none
  | .fail t =>
      match s.pcs t with
      | .load | .update _ | .commit => some (s.go t (rollback s.rows t) .failed)
      | .idle | .done | .failed => none

/-- The committed rows as given, and no request yet. -/
structure Start (initial : κ → Option ρ) (s : State κ ρ) : Prop where
  settled : ∀ k, s.rows k = .settled (initial k)
  pcs : ∀ t, s.pcs t = .idle

/-- No column of a row is supplied by two requests. -/
def Apart (patching : Patching π ρ ι V) (requests : Nat → κ × π) : Prop :=
  ∀ t t', t ≠ t' → (requests t).1 = (requests t').1 → ∀ i,
    patching.supplied (requests t).2 i = none ∨ patching.supplied (requests t').2 i = none

/-- A row has the values of the requests that are done, and its other columns are the first ones. -/
def Contains (patching : Patching π ρ ι V) (requests : Nat → κ × π) (s : State κ ρ) (k : κ)
    (first row : ρ) : Prop :=
  ∀ i,
    (∀ t v, s.pcs t = .done → (requests t).1 = k → patching.supplied (requests t).2 i = some v →
        patching.column i row = v) ∧
      ((∀ t, s.pcs t = .done → (requests t).1 = k → patching.supplied (requests t).2 i = none) →
        patching.column i row = patching.column i first)

/-! ## What a request relies on -/

section Request

variable [DecidableEq κ] {patching : Patching π ρ ι V} {requests : Nat → κ × π}
    {initial : κ → Option ρ}

/-- What a request loaded is from the start, as far as its own columns go; at its commit it
holds at most its row, in the version it is to leave. -/
def Pc.Holds (patching : Patching π ρ ι V) (request : κ × π) (initial : κ → Option ρ)
    (rows : Rows κ Nat ρ) (t : Nat) : Pc ρ → Prop
  | .update loaded =>
      (∀ k version, (rows k).held ≠ some (t, version)) ∧
        ∀ first ∈ initial request.1, ∀ i v, patching.supplied request.2 i = some v →
          patching.column i loaded = patching.column i first
  | .commit =>
      (∀ k version, (rows k).held = some (t, version) → k = request.1 ∧ ∃ new, version = some new ∧
          ∀ first ∈ initial request.1, ∀ current ∈ (rows k).committed, ∀ i,
            (∀ v, patching.supplied request.2 i = some v → patching.column i new = v) ∧
              (patching.supplied request.2 i = none →
                patching.column i new = patching.column i current)) ∧
        ((∀ version, (rows request.1).held ≠ some (t, version)) →
          ∀ first ∈ initial request.1, ∀ i v,
          patching.supplied request.2 i = some v → v = patching.column i first)
  | _ => ∀ k version, (rows k).held ≠ some (t, version)

theorem Pc.Holds.framed {rows rows' : Rows κ Nat ρ} {t t' : Nat} {pc : Pc ρ} {request : κ × π}
    (holds : pc.Holds patching request initial rows t') (framed : Framed t rows rows')
    (different : t' ≠ t) : pc.Holds patching request initial rows' t' := by
  have before {k : κ} {version : Option ρ} (held : (rows' k).held = some (t', version)) :
      (rows k).held = some (t', version) ∧ rows' k = rows k := framed.held_before different held
  cases pc with
  | update loaded => exact ⟨fun k version held => holds.1 k version (before held).1, holds.2⟩
  | commit =>
      refine ⟨?_, ?_⟩
      · intro k version held
        obtain ⟨held, same⟩ := before held
        rw [same]
        exact holds.1 k version held
      · intro free
        refine holds.2 fun version held => free version ?_
        rw [framed.keeps different held]
        exact held
  | idle => exact fun k version held => holds k version (before held).1
  | load => exact fun k version held => holds k version (before held).1
  | done => exact fun k version held => holds k version (before held).1
  | failed => exact fun k version held => holds k version (before held).1

structure Inv (patching : Patching π ρ ι V) (requests : Nat → κ × π) (initial : κ → Option ρ)
    (s : State κ ρ) : Prop where
  holds : ∀ t, (s.pcs t).Holds patching (requests t) initial s.rows t
  contains : ∀ k first, initial k = some first →
    ∃ row, (s.rows k).committed = some row ∧ Contains patching requests s k first row

theorem inv_start {s : State κ ρ} (starts : Start initial s) : Inv patching requests initial s where
  holds := fun t => by
    rw [starts.pcs t]
    intro k version held
    rw [starts.settled k] at held
    cases held
  contains := fun k first given => by
    refine ⟨first, by rw [starts.settled k, given, Row.settled], fun i => ⟨?_, fun _ => rfl⟩⟩
    intro t v done
    rw [starts.pcs t] at done
    cases done

variable {s : State κ ρ} {t : Nat}

/-- The columns of a request that is not done are still the first ones. -/
theorem Contains.own_column (apart : Apart patching requests) {k : κ} {first row : ρ}
    (contains : Contains patching requests s k first row) (running : s.pcs t ≠ .done)
    (here : (requests t).1 = k) {i : ι} {v : V i}
    (supplied : patching.supplied (requests t).2 i = some v) :
    patching.column i row = patching.column i first := by
  refine (contains i).2 fun t' done there => ?_
  have different : t ≠ t' := by
    rintro rfl
    exact running done
  rcases apart t t' different (here.trans there.symm) i with none | none
  · rw [none] at supplied
    cases supplied
  · exact none

/-- The requests that are done are the same ones. -/
theorem Contains.same_done {s' : State κ ρ} {k : κ} {first row : ρ}
    (contains : Contains patching requests s k first row) (same : ∀ t, s'.pcs t = .done ↔
      s.pcs t = .done) : Contains patching requests s' k first row := by
  intro i
  obtain ⟨has, keeps⟩ := contains i
  exact ⟨fun t v done => has t v ((same t).mp done),
    fun none => keeps fun t done => none t ((same t).mpr done)⟩

/-- One more request is done: its values are in the new row, and the other columns stay. -/
theorem Contains.done (apart : Apart patching requests) {s' : State κ ρ} {k : κ}
    {first row row' : ρ} (contains : Contains patching requests s k first row)
    (running : s.pcs t ≠ .done) (pcs : s'.pcs = Function.update s.pcs t .done)
    (mine : (requests t).1 = k → ∀ i v, patching.supplied (requests t).2 i = some v →
      patching.column i row' = v)
    (others : ∀ i, ((requests t).1 = k → patching.supplied (requests t).2 i = none) →
      patching.column i row' = patching.column i row) :
    Contains patching requests s' k first row' := by
  have atDone : s'.pcs t = .done := by rw [pcs, Function.update_self]
  have before {t' : Nat} (different : t' ≠ t) : s'.pcs t' = s.pcs t' := by
    rw [pcs, Function.update_of_ne different]
  intro i
  constructor
  · intro t' v done here supplied
    by_cases same : t' = t
    · subst same
      exact mine here i v supplied
    · rw [before same] at done
      rw [others i, (contains i).1 t' v done here supplied]
      intro there
      rcases apart t t' (Ne.symm same) (there.trans here.symm) i with none | none
      · exact none
      · rw [none] at supplied
        cases supplied
  · intro none
    rw [others i (none t atDone)]
    refine (contains i).2 fun t' done here => ?_
    by_cases same : t' = t
    · exact absurd (same ▸ done) running
    · exact none t' ((before same).trans done) here

/-! ## Runs -/

/-- A request moves that holds nothing and commits nothing, to a place other than `done`. -/
theorem Inv.moved (inv : Inv patching requests initial s) {rows' : Rows κ Nat ρ} {pc' : Pc ρ}
    (running : s.pcs t ≠ .done) (notDone : pc' ≠ .done)
    (committed : ∀ k, (rows' k).committed = (s.rows k).committed) (framed : Framed t s.rows rows')
    (holds : pc'.Holds patching (requests t) initial rows' t) :
    Inv patching requests initial (s.go t rows' pc') where
  holds := fun t' => by
    by_cases same : t' = t
    · subst same
      rw [go_pcs_self]
      exact holds
    · rw [go_pcs_of_ne _ _ same]
      exact (inv.holds t').framed framed same
  contains := fun k first given => by
    obtain ⟨row, stored, contains⟩ := inv.contains k first given
    refine ⟨row, (committed k).trans stored, contains.same_done fun t' => ?_⟩
    by_cases same : t' = t
    · subst same
      rw [go_pcs_self]
      exact iff_of_false notDone running
    · rw [go_pcs_of_ne _ _ same]

/-- A request that supplies nothing is done at once. -/
theorem Inv.skip (apart : Apart patching requests) (inv : Inv patching requests initial s)
    (idle : s.pcs t = .idle) (skips : patching.skips (requests t).2 = true) :
    Inv patching requests initial (s.go t s.rows .done) where
  holds := fun t' => by
    by_cases same : t' = t
    · subst same
      have free := inv.holds t'
      rw [idle] at free
      rw [go_pcs_self]
      exact free
    · rw [go_pcs_of_ne _ _ same]
      exact inv.holds t'
  contains := fun k first given => by
    obtain ⟨row, stored, contains⟩ := inv.contains k first given
    have running : s.pcs t ≠ .done := by
      rw [idle]
      exact fun same => by cases same
    have none := patching.skips_supplied _ skips
    refine ⟨row, stored, contains.done apart running rfl (fun _ i v supplied => ?_) fun _ _ => rfl⟩
    rw [none i] at supplied
    cases supplied

/-- The commit of a request. -/
theorem Inv.commit (apart : Apart patching requests) (inv : Inv patching requests initial s)
    (at_commit : s.pcs t = .commit) :
    Inv patching requests initial (s.go t (RowStore.commit s.rows t) .done) where
  holds := fun t' => by
    by_cases same : t' = t
    · subst same
      rw [go_pcs_self]
      exact fun k version held => (held_commit held).1 rfl
    · rw [go_pcs_of_ne _ _ same]
      exact (inv.holds t').framed (framed_commit t s.rows) same
  contains := fun k first given => by
    obtain ⟨row, stored, contains⟩ := inv.contains k first given
    have running : s.pcs t ≠ .done := by
      rw [at_commit]
      exact fun same => by cases same
    have holds := inv.holds t
    rw [at_commit] at holds
    obtain ⟨held, free⟩ := holds
    rcases commit_cases s.rows t k with ⟨version, holder, settled⟩ | ⟨notHeld, same⟩
    · obtain ⟨rfl, new, rfl, leaves⟩ := held k version holder
      refine ⟨new, by rw [go_rows, settled, Row.settled],
        contains.done apart running rfl (fun _ i => ?_) fun i none => ?_⟩
      · exact (leaves first given row stored i).1
      · exact (leaves first given row stored i).2 (none rfl)
    · refine ⟨row, by rw [go_rows, same, stored],
        contains.done apart running rfl (fun here i v supplied => ?_) fun _ _ => rfl⟩
      subst here
      rw [contains.own_column apart running rfl supplied]
      exact (free notHeld first given i v supplied).symm

/-- The `UPDATE` of a request. -/
theorem Inv.update (apart : Apart patching requests) (inv : Inv patching requests initial s)
    {loaded current : ρ} {now : Int} (at_update : s.pcs t = .update loaded)
    (free : (s.rows (requests t).1).FreeFor t)
    (seen : (s.rows (requests t).1).read t = some current) : Inv patching requests initial
      (s.go t (put s.rows t (requests t).1 (some (patching.write (requests t).2 now loaded current))) .commit) := by
  have holds := inv.holds t
  rw [at_update] at holds
  obtain ⟨notHeld, own⟩ := holds
  have running : s.pcs t ≠ .done := by
    rw [at_update]
    exact fun same => by cases same
  have stored : (s.rows (requests t).1).committed = some current :=
    (Row.read_of_not_held (notHeld (requests t).1)).symm.trans seen
  refine inv.moved running (fun same => by
    cases same) (fun _ => committed_put _ _ _ _ _) (framed_put _ free) ⟨?_, ?_⟩
  · intro k version held
    rcases held_put held with ⟨rfl, _, rfl⟩ | ⟨_, before⟩
    · refine ⟨rfl, _, rfl, fun first given row committed i => ?_⟩
      rw [committed_put, stored] at committed
      cases committed
      obtain ⟨row, stored', contains⟩ := inv.contains _ first given
      rw [stored] at stored'
      cases stored'
      refine ⟨fun v supplied => ?_, patching.write_none _ _ _ _ i⟩
      by_cases same : v = patching.column i loaded
      · -- what was loaded is still there
        subst same
        rw [patching.write_same _ _ _ _ i supplied, contains.own_column apart running rfl supplied,
          own first given i _ supplied]
      · exact patching.write_some _ _ _ _ i v supplied same
    · exact absurd before (notHeld k version)
  · intro free first given
    exact absurd (by simp) (free (some (patching.write (requests t).2 now loaded current)))

theorem inv_step {s' : State κ ρ} {a : Act} (apart : Apart patching requests)
    (inv : Inv patching requests initial s) (ran : step patching requests s a = some s') :
    Inv patching requests initial s' := by
  have still : ∀ {t : Nat}, (∀ k version, (s.rows k).held ≠ some (t, version)) → s.pcs t ≠ .done →
      ∀ pc' : Pc ρ, pc' ≠ .done → pc'.Holds patching (requests t) initial s.rows t →
        Inv patching requests initial (s.go t s.rows pc') :=
    fun _ running _ notDone holds =>
      inv.moved running notDone (fun _ => rfl) (framed_refl _ _) holds
  have failed : ∀ {t : Nat}, s.pcs t ≠ .done →
      Inv patching requests initial (s.go t (rollback s.rows t) .failed) :=
    fun running =>
      inv.moved running (fun same => by cases same) (committed_rollback _ _) (framed_rollback _ _)
        fun k version held => (held_rollback held).1 rfl
  cases a with
  | arrive t =>
      have holds := inv.holds t
      simp only [step] at ran
      split at ran
      · rename_i idle
        rw [idle] at holds
        cases skips : patching.skips (requests t).2 with
        | true =>
            simp only [skips, if_true, Option.some.injEq] at ran
            exact ran ▸ inv.skip apart idle skips
        | false =>
            simp only [skips, Bool.false_eq_true, if_false, Option.some.injEq] at ran
            exact ran ▸ still holds (by simp [idle]) .load (by simp) holds
      · cases ran
  | advance t now =>
      have holds := inv.holds t
      simp only [step] at ran
      split at ran
      · rename_i at_load
        rw [at_load] at holds
        have running : s.pcs t ≠ .done := by simp [at_load]
        split at ran
        · cases ran
          exact still holds running .failed (by simp) holds
        · rename_i loaded seen
          cases ran
          refine still holds running _ (by simp) ⟨holds, fun first given i v supplied => ?_⟩
          obtain ⟨row, stored, contains⟩ := inv.contains _ first given
          rw [Row.read_of_not_held (holds (requests t).1), stored] at seen
          cases seen
          exact contains.own_column apart running rfl supplied
      · rename_i loaded at_update
        rw [at_update] at holds
        have running : s.pcs t ≠ .done := by simp [at_update]
        split at ran
        · obtain ⟨⟨rows, out⟩, visited, same⟩ := Option.map_eq_some_iff.mp ran
          obtain ⟨free, ⟨current, seen, _, rfl, rfl⟩ | ⟨rfl, rfl, _⟩⟩ := updateRow_cases visited
          · cases same
            exact inv.update apart at_update free seen
          · cases same
            exact failed running
        · rename_i untouched
          cases ran
          refine still holds.1 running .commit (by simp)
            ⟨fun k version held => absurd held (holds.1 k version), ?_⟩
          intro _ first given i v supplied
          rw [← holds.2 first given i v supplied]
          exact patching.untouched _ _ (by simpa using untouched) i v supplied
      · rename_i at_commit
        cases ran
        exact inv.commit apart at_commit
      all_goals cases ran
  | fail t =>
      simp only [step] at ran
      split at ran
      · rename_i at_load
        cases ran
        exact failed (by simp [at_load])
      · rename_i loaded at_update
        cases ran
        exact failed (by simp [at_update])
      · rename_i at_commit
        cases ran
        exact failed (by simp [at_commit])
      all_goals cases ran

/-- **No update is lost.** -/
theorem contains_of_reach (apart : Apart patching requests)
    (reached : Reach (step patching requests) Always (Start initial) s) {k : κ} {first : ρ}
    (given : initial k = some first) :
    ∃ row, (s.rows k).committed = some row ∧ Contains patching requests s k first row :=
  (reached.invariant (fun _ => inv_start) fun _ _ _ inv _ ran => inv_step apart inv ran).contains k first given

end Request

end System

end Empyrean.Theory.PartialUpdate
