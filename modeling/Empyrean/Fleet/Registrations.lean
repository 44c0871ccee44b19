/-
# Empyrean.Fleet.Registrations — racing registrations of one node id

`POST /nodes` inserts a row; on a conflict it loads the row, tests `is_active` and writes
the row back, active again.  Nothing locks the row between the test and the `UPDATE`, so
two registrations of a deactivated id can both pass the test, and both answer 201.

* `advance` — one statement of one request; the rows are those of a READ COMMITTED database.
* `OneWinner` — since the node last became inactive at most one registration was answered
  201, every other one 409, and the row carries the winner's fields.
* `Careful` — a revival finds the row still inactive and what it leaves out as it loaded it;
  a deactivation that loaded an inactive row finds it inactive or changes nothing.
* `one_winner_iff` — a run has one winner throughout exactly when its commits are careful.
* `two_winners` — two registrations that are not.
-/
import Empyrean.Fleet.Nodes
import Empyrean.Theory.RowStore
import Empyrean.Theory.Runs

namespace Empyrean.Fleet.Registrations

set_option autoImplicit false

open Empyrean.Theory.PyNumeral (Text)
open Empyrean.Theory.RowStore Empyrean.Theory.Runs

/-! ## The system -/

/-- A `PATCH` that deactivates the node, whatever else it changes. -/
structure Deactivation extends UpdateNodeRequest where
  deactivates : isActive = some false

/-- Where a request stands. -/
inductive Pc
  | idle
  -- `register_node`: the flush of `session.add(node)`, its commit, and the `except`
  | insert (data : RegisterNodeRequest)
  | commitInsert (data : RegisterNodeRequest)
  | getExisting (data : RegisterNodeRequest)
  | revive (data : RegisterNodeRequest) (existing : Node)
  | commitRevive (data : RegisterNodeRequest) (existing : Node)
  -- `update_node`
  | getNode (id : Text) (data : Deactivation)
  | update (id : Text) (data : Deactivation) (node : Node)
  | commitUpdate (id : Text) (data : Deactivation) (node : Node)

/-- The answer to a registration. -/
structure Reply where
  data : RegisterNodeRequest
  status : Nat

structure State where
  rows : Rows Text Nat Node
  pcs : Nat → Pc
  -- of each id, since the node last became inactive
  replies : Text → List Reply

inductive Action
  | post (t : Nat) (data : RegisterNodeRequest)
  | patch (t : Nat) (id : Text) (data : Deactivation)
  | advance (t : Nat) (now : Int)

def becomesInactive (before after : Option Node) : Bool :=
  before.any (·.isActive) && after.any (!·.isActive)

namespace State

variable (s : State) (t : Nat)

def go (rows : Rows Text Nat Node) (pc : Pc) : State :=
  { s with rows := rows, pcs := Function.update s.pcs t pc }

def answer (reply : Reply) : State :=
  { s with replies := fun id => s.replies id ++ if reply.data.nodeId = id then [reply] else [] }

/-- The commit of `t`; where a node becomes inactive the replies start anew. -/
def commits : State :=
  { rows := commit s.rows t
    pcs := Function.update s.pcs t .idle
    replies := fun id =>
      if becomesInactive (s.rows id).committed (commit s.rows t id).committed then []
      else s.replies id }

end State

/-- One statement of request `t`; `none` while it waits for a row. -/
def advance (s : State) (t : Nat) (now : Int) : Option State :=
  match s.pcs t with
  | .idle => none
  | .insert data =>
      if (s.rows data.nodeId).FreeFor t then
        match (s.rows data.nodeId).read t with
        | none =>
            some (s.go t (put s.rows t data.nodeId (some (data.node now))) (.commitInsert data))
        -- the `IntegrityError`, and the rollback
        | some _ => some (s.go t (rollback s.rows t) (.getExisting data))
      else none
  | .commitInsert data => some ((s.commits t).answer ⟨data, 201⟩)
  | .getExisting data =>
      match (s.rows data.nodeId).read t with
      | none => some ((s.go t s.rows .idle).answer ⟨data, 409⟩)
      | some existing =>
          if existing.isActive then some ((s.go t s.rows .idle).answer ⟨data, 409⟩)
          else some (s.go t s.rows (.revive data existing))
  | .revive data existing =>
      (updateRow s.rows t data.nodeId (fun _ => true) (data.write existing)).map fun updated =>
        match updated with
        | (rows, some _) => s.go t rows (.commitRevive data existing)
        | (rows, none) => (s.go t (rollback rows t) .idle).answer ⟨data, 500⟩
  | .commitRevive data _ => some ((s.commits t).answer ⟨data, 201⟩)
  | .getNode id data =>
      match (s.rows id).read t with
      | none => some (s.go t s.rows .idle)
      | some node => some (s.go t s.rows (.update id data node))
  | .update id data node =>
      if data.apply node = node then some (s.go t s.rows .idle)
      else
        (updateRow s.rows t id (fun _ => true) (data.write node)).map fun updated =>
          match updated with
          | (rows, some _) => s.go t rows (.commitUpdate id data node)
          | (rows, none) => s.go t (rollback rows t) .idle
  | .commitUpdate _ _ _ => some (s.commits t)

/-- An action that is not enabled changes nothing. -/
def next (s : State) : Action → State
  | .post t data =>
      match s.pcs t with
      | .idle => s.go t s.rows (.insert data)
      | _ => s
  | .patch t id data =>
      match s.pcs t with
      | .idle => s.go t s.rows (.getNode id data)
      | _ => s
  | .advance t now => (advance s t now).getD s

/-- No request yet. -/
def start (initial : Text → Option Node) : State where
  rows := fun id => .settled (initial id)
  pcs := fun _ => .idle
  replies := fun _ => []

/-! ## The statement -/

/-- The row is active with exactly the fields of the registration. -/
structure Carries (data : RegisterNodeRequest) (row : Node) : Prop where
  name : row.name = data.name
  locationName : row.locationName = data.locationName
  lat : row.lat = data.lat
  lon : row.lon = data.lon
  firmwareVersion : row.firmwareVersion = data.firmwareVersion
  readingInterval : row.readingInterval = data.readingInterval
  isActive : row.isActive = true

structure OneWinner (replies : List Reply) (committed : Option Node) : Prop where
  statuses : ∀ r ∈ replies, r.status = 201 ∨ r.status = 409
  one : replies.countP (fun r => decide (r.status = 201)) ≤ 1
  carried : ∀ r ∈ replies, r.status = 201 → ∃ row, committed = some row ∧ Carries r.data row

def Good (s : State) : Prop := ∀ id, OneWinner (s.replies id) (s.rows id).committed

/-- What a revival does not write, because it had loaded the value it wants, is still there. -/
structure Overwrites (data : RegisterNodeRequest) (loaded current : Node) : Prop where
  name : data.name = loaded.name → current.name = loaded.name
  locationName : data.locationName = loaded.locationName →
    current.locationName = loaded.locationName
  lat : data.lat = loaded.lat → current.lat = loaded.lat
  lon : data.lon = loaded.lon → current.lon = loaded.lon
  firmwareVersion : data.firmwareVersion = loaded.firmwareVersion →
    current.firmwareVersion = loaded.firmwareVersion
  readingInterval : data.readingInterval = loaded.readingInterval →
    current.readingInterval = loaded.readingInterval

/-- What a `PATCH` writes, because it had loaded another value, is there already. -/
structure Spares (data : UpdateNodeRequest) (loaded current : Node) : Prop where
  name : ∀ v ∈ data.name, some v ≠ loaded.name → current.name = some v
  locationName : ∀ v ∈ data.locationName, some v ≠ loaded.locationName →
    current.locationName = some v
  lat : ∀ v ∈ data.lat, some v ≠ loaded.lat → current.lat = some v
  lon : ∀ v ∈ data.lon, some v ≠ loaded.lon → current.lon = some v
  firmwareVersion : ∀ v ∈ data.firmwareVersion, some v ≠ loaded.firmwareVersion →
    current.firmwareVersion = some v
  readingInterval : ∀ v ∈ data.readingInterval, v ≠ loaded.readingInterval →
    current.readingInterval = v

/-- **The condition**, at the commit of a row that was loaded inactive. -/
def Careful (s : State) : Action → Prop
  | .advance t _ =>
      match s.pcs t with
      | .commitRevive data existing =>
          ∀ current, (s.rows data.nodeId).committed = some current →
            current.isActive = false ∧ Overwrites data existing current
      | .commitUpdate id data node =>
          ∀ current, (s.rows id).committed = some current →
            node.isActive = false → current.isActive = true →
              Spares data.toUpdateNodeRequest node current
      | _ => True
  | _ => True

/-! ## Columns -/

section Columns

variable {α : Type} [DecidableEq α]

theorem written_some_iff {value loaded current : α} :
    written (some value) loaded current = value ↔ (value = loaded → current = loaded) := by
  by_cases same : value = loaded
  · subst same
    simp [written]
  · simp [written, same]

theorem written_eq_current_iff {supplied : Option α} {loaded current : α} :
    written supplied loaded current = current ↔ ∀ v ∈ supplied, v ≠ loaded → current = v := by
  cases supplied with
  | none => simp
  | some value =>
      by_cases same : value = loaded
      · simp [written, same]
      · have different : ¬ loaded = value := fun back => same back.symm
        simp [written, same, different, eq_comm]

/-- The same for a column that may be `NULL`, and a body that cannot say so. -/
theorem written_map_some_iff {supplied loaded current : Option α} :
    written (supplied.map some) loaded current = current ↔
      ∀ v ∈ supplied, some v ≠ loaded → current = some v := by
  rw [written_eq_current_iff]
  simp

end Columns

section Writes

variable {data : RegisterNodeRequest} {patch : Deactivation} {loaded current : Node}

/-- A revival leaves exactly its fields iff what it did not write is as it had loaded it. -/
theorem carries_write_iff (inactive : loaded.isActive = false) :
    Carries data (data.write loaded current) ↔ Overwrites data loaded current := by
  constructor
  · intro carries
    exact ⟨written_some_iff.mp carries.name, written_some_iff.mp carries.locationName,
      written_some_iff.mp carries.lat,
      written_some_iff.mp carries.lon, written_some_iff.mp carries.firmwareVersion,
      written_some_iff.mp carries.readingInterval⟩
  · intro same
    refine ⟨written_some_iff.mpr same.name, written_some_iff.mpr same.locationName,
      written_some_iff.mpr same.lat,
      written_some_iff.mpr same.lon, written_some_iff.mpr same.firmwareVersion,
      written_some_iff.mpr same.readingInterval, ?_⟩
    show written (some true) loaded.isActive current.isActive = true
    rw [inactive]
    rfl

theorem carries_node (data : RegisterNodeRequest) (now : Int) : Carries data (data.node now) :=
  ⟨rfl, rfl, rfl, rfl, rfl, rfl, rfl⟩

theorem isActive_write (patch : Deactivation) (loaded current : Node) :
    (patch.write loaded current).isActive =
      if loaded.isActive = true then false else current.isActive := by
  show written patch.isActive loaded.isActive current.isActive = _
  rw [patch.deactivates]
  cases loaded.isActive with
  | true => rfl
  | false => rfl

/-- A deactivation that loaded an inactive row leaves a winner's fields alone iff it spares them. -/
theorem carries_patch_iff (inactive : loaded.isActive = false) (carried : Carries data current) :
    Carries data (patch.write loaded current) ↔
      Spares patch.toUpdateNodeRequest loaded current := by
  have active : (patch.write loaded current).isActive = current.isActive := by
    rw [isActive_write, inactive]
    rfl
  constructor
  · intro carries
    exact
      { name := written_map_some_iff.mp (carries.name.trans carried.name.symm)
        locationName :=
          written_map_some_iff.mp (carries.locationName.trans carried.locationName.symm)
        lat := written_map_some_iff.mp (carries.lat.trans carried.lat.symm)
        lon := written_map_some_iff.mp (carries.lon.trans carried.lon.symm)
        firmwareVersion :=
          written_map_some_iff.mp (carries.firmwareVersion.trans carried.firmwareVersion.symm)
        readingInterval :=
          written_eq_current_iff.mp (carries.readingInterval.trans carried.readingInterval.symm) }
  · intro spares
    exact
      { name := (written_map_some_iff.mpr spares.name).trans carried.name
        locationName := (written_map_some_iff.mpr spares.locationName).trans carried.locationName
        lat := (written_map_some_iff.mpr spares.lat).trans carried.lat
        lon := (written_map_some_iff.mpr spares.lon).trans carried.lon
        firmwareVersion :=
          (written_map_some_iff.mpr spares.firmwareVersion).trans carried.firmwareVersion
        readingInterval :=
          (written_eq_current_iff.mpr spares.readingInterval).trans carried.readingInterval
        isActive := active.trans carried.isActive }

end Writes

/-! ## One commit -/

section Commit

variable {replies : List Reply} {data : RegisterNodeRequest} {patch : Deactivation}
    {loaded current : Node}

/-- While the node is inactive nobody has won. -/
theorem OneWinner.none_won (before : OneWinner replies (some current))
    (inactive : current.isActive = false) : ∀ r ∈ replies, r.status ≠ 201 := by
  intro r member won
  obtain ⟨_, same, carries⟩ := before.carried r member won
  cases same
  rw [carries.isActive] at inactive
  cases inactive

theorem countP_eq_zero_of (lost : ∀ r ∈ replies, r.status ≠ 201) :
    replies.countP (fun r => decide (r.status = 201)) = 0 :=
  List.countP_eq_zero.mpr fun r member won => lost r member (of_decide_eq_true won)

/-- Where nobody has won, the replies are in order whatever the row is. -/
theorem OneWinner.of_none_won {committed committed' : Option Node}
    (before : OneWinner replies committed) (lost : ∀ r ∈ replies, r.status ≠ 201) :
    OneWinner replies committed' where
  statuses := before.statuses
  one := by
    rw [countP_eq_zero_of lost]
    omega
  carried := fun r member won => absurd won (lost r member)

/-- A winner is added to replies without one iff the row carries it. -/
theorem OneWinner.win_iff {committed : Option Node} {row : Node}
    (before : OneWinner replies committed) (lost : ∀ r ∈ replies, r.status ≠ 201) :
    OneWinner (replies ++ [⟨data, 201⟩]) (some row) ↔ Carries data row := by
  constructor
  · intro after
    obtain ⟨_, same, carries⟩ := after.carried ⟨data, 201⟩ (by simp) rfl
    cases same
    exact carries
  · intro carries
    refine ⟨fun r member => ?_, ?_, fun r member won => ?_⟩
    · rcases List.mem_append.mp member with old | new
      · exact before.statuses r old
      · obtain rfl := List.mem_singleton.mp new
        exact Or.inl rfl
    · rw [List.countP_append, countP_eq_zero_of lost]
      simp
    · rcases List.mem_append.mp member with old | new
      · exact absurd won (lost r old)
      · obtain rfl := List.mem_singleton.mp new
        exact ⟨row, rfl, carries⟩

/-- A refusal changes nothing. -/
theorem OneWinner.refuse {committed : Option Node} (before : OneWinner replies committed) :
    OneWinner (replies ++ [⟨data, 409⟩]) committed where
  statuses := by
    intro r member
    rcases List.mem_append.mp member with old | new
    · exact before.statuses r old
    · obtain rfl := List.mem_singleton.mp new
      exact Or.inr rfl
  one := by
    rw [List.countP_append]
    simpa using before.one
  carried := by
    intro r member won
    rcases List.mem_append.mp member with old | new
    · exact before.carried r old won
    · obtain rfl := List.mem_singleton.mp new
      cases won

/-- **The commit of a revival.** -/
theorem revive_iff (before : OneWinner replies (some current)) (inactive : loaded.isActive = false)
    (stale : current.isActive = true → ∃ r ∈ replies, r.status = 201) :
    OneWinner (replies ++ [⟨data, 201⟩]) (some (data.write loaded current)) ↔
      current.isActive = false ∧ Overwrites data loaded current := by
  cases active : current.isActive with
  | false =>
      rw [before.win_iff (before.none_won active), carries_write_iff inactive]
      simp
  | true =>
      -- there is a winner already
      refine iff_of_false (fun after => ?_) (by simp)
      obtain ⟨r, member, won⟩ := stale active
      have first : 0 < replies.countP (fun r => decide (r.status = 201)) :=
        List.countP_pos_iff.mpr ⟨r, member, decide_eq_true won⟩
      have second : [Reply.mk data 201].countP (fun r => decide (r.status = 201)) = 1 := rfl
      have one := after.one
      rw [List.countP_append, second] at one
      omega

/-- **The commit of a deactivation.** -/
theorem patch_iff (before : OneWinner replies (some current))
    (stale : loaded.isActive = false → current.isActive = true → ∃ r ∈ replies, r.status = 201) :
    OneWinner (if becomesInactive (some current) (some (patch.write loaded current)) then [] else replies)
        (some (patch.write loaded current)) ↔
      (loaded.isActive = false → current.isActive = true →
        Spares patch.toUpdateNodeRequest loaded current) := by
  by_cases ends : loaded.isActive = true ∧ current.isActive = true
  · -- the node becomes inactive, and the replies start anew
    have inactive : (patch.write loaded current).isActive = false := by
      rw [isActive_write, if_pos ends.1]
    have reset : becomesInactive (some current) (some (patch.write loaded current)) = true := by
      simp [becomesInactive, ends.2, inactive]
    rw [if_pos reset]
    refine iff_of_true ⟨by simp, by simp, by simp⟩ fun inactive => ?_
    rw [ends.1] at inactive
    cases inactive
  · have stays : becomesInactive (some current) (some (patch.write loaded current)) = false := by
      cases was : current.isActive with
      | false => simp [becomesInactive, was]
      | true =>
          have inactive : ¬ loaded.isActive = true := fun active => ends ⟨active, was⟩
          simp [becomesInactive, isActive_write, was, inactive]
    rw [if_neg (Bool.eq_false_iff.mp stays)]
    cases active : current.isActive with
    | false => exact iff_of_true (before.of_none_won (before.none_won active)) (by simp)
    | true =>
        have inactive : loaded.isActive = false :=
          Bool.eq_false_iff.mpr fun was => ends ⟨was, active⟩
        obtain ⟨r, member, won⟩ := stale inactive active
        obtain ⟨_, same, carried⟩ := before.carried r member won
        cases same
        constructor
        · intro after _ _
          obtain ⟨_, same, carries⟩ := after.carried r member won
          cases same
          exact (carries_patch_iff inactive carried).mp carries
        · intro spares
          refine ⟨before.statuses, before.one, fun r' member' won' => ?_⟩
          obtain ⟨_, same, carried'⟩ := before.carried r' member' won'
          cases same
          exact ⟨_, rfl, (carries_patch_iff inactive carried').mpr (spares inactive rfl)⟩

end Commit

/-! ## The invariant -/

/-- `t` holds no row. -/
def Free (rows : Rows Text Nat Node) (t : Nat) : Prop :=
  ∀ k version, (rows k).held ≠ some (t, version)

/-- `t` holds the row of `id` and no other, over `current`, and leaves `new` there. -/
def HoldsOnly (rows : Rows Text Nat Node) (t : Nat) (id : Text) (current : Option Node)
    (new : Node) : Prop :=
  rows id = ⟨current, some (t, some new)⟩ ∧ ∀ k version, (rows k).held = some (t, version) → k = id

/-- What a request holds where it stands, and what it knows of the row. -/
def Pc.Holds (rows : Rows Text Nat Node) (t : Nat) : Pc → Prop
  | .idle | .insert _ | .getNode _ _ | .update _ _ _ => Free rows t
  | .commitInsert data => ∃ now, HoldsOnly rows t data.nodeId none (data.node now)
  | .getExisting data => Free rows t ∧ (rows data.nodeId).committed.isSome = true
  | .revive data existing =>
      Free rows t ∧ (rows data.nodeId).committed.isSome = true ∧ existing.isActive = false
  | .commitRevive data existing =>
      existing.isActive = false ∧
        ∃ current, HoldsOnly rows t data.nodeId (some current) (data.write existing current)
  | .commitUpdate id data node => ∃ current, HoldsOnly rows t id (some current)
      (data.write node current)

/-- The request has loaded the row of `id` while it was inactive. -/
def Pc.Stale (id : Text) : Pc → Prop
  | .revive data _ | .commitRevive data _ => data.nodeId = id
  | .update other _ node | .commitUpdate other _ node => other = id ∧ node.isActive = false
  | .idle | .insert _ | .commitInsert _ | .getExisting _ | .getNode _ _ => False

/-- An active row without a winner has been active from the start, and nobody has seen it
inactive. -/
structure Inv (s : State) : Prop where
  holds : ∀ t, (s.pcs t).Holds s.rows t
  seen : ∀ id row, (s.rows id).committed = some row → row.isActive = true →
    (∀ r ∈ s.replies id, r.status ≠ 201) → ∀ t, ¬ (s.pcs t).Stale id

section Steps

variable {rows rows' : Rows Text Nat Node} {s : State} {t t' : Nat} {pc pc' : Pc}

theorem Inv.holds_at (inv : Inv s) (here : s.pcs t = pc) : pc.Holds s.rows t := here ▸ inv.holds t

/-- What is held is a row. -/
theorem Pc.Holds.held_some {k : Text} {version : Option Node} (holds : pc.Holds rows t)
    (held : (rows k).held = some (t, version)) : version.isSome = true := by
  have only : ∀ {id current new}, HoldsOnly rows t id current new → version.isSome = true := by
    intro id current new holds
    obtain rfl := holds.2 k version held
    rw [holds.1] at held
    cases held
    rfl
  cases pc with
  | idle | insert | getNode | update => exact absurd held (holds k version)
  | getExisting | revive => exact absurd held (holds.1 k version)
  | commitInsert =>
      obtain ⟨_, holds⟩ := holds
      exact only holds
  | commitRevive =>
      obtain ⟨_, _, holds⟩ := holds
      exact only holds
  | commitUpdate =>
      obtain ⟨_, holds⟩ := holds
      exact only holds

/-- Another request's step leaves what a request holds and knows. -/
theorem Pc.Holds.framed (holds : pc.Holds rows t') (framed : Framed t rows rows')
    (different : t' ≠ t) (stored : ∀ k, (rows k).committed.isSome = true →
      (rows' k).committed.isSome = true) : pc.Holds rows' t' := by
  have free (holds : Free rows t') : Free rows' t' := fun k version held =>
    holds k version (framed.held_before different held).1
  have only {id current new} (holds : HoldsOnly rows t' id current new) :
      HoldsOnly rows' t' id current new := by
    have held : (rows id).held = some (t', some new) := by rw [holds.1]
    exact ⟨(framed.keeps different held).trans holds.1,
      fun k version held => holds.2 k version (framed.held_before different held).1⟩
  cases pc with
  | idle | insert | getNode | update => exact free holds
  | getExisting => exact ⟨free holds.1, stored _ holds.2⟩
  | revive => exact ⟨free holds.1, stored _ holds.2.1, holds.2.2⟩
  | commitInsert =>
      obtain ⟨now, holds⟩ := holds
      exact ⟨now, only holds⟩
  | commitRevive =>
      obtain ⟨inactive, current, holds⟩ := holds
      exact ⟨inactive, current, only holds⟩
  | commitUpdate =>
      obtain ⟨current, holds⟩ := holds
      exact ⟨current, only holds⟩

/-- A statement that commits nothing; it may be the one that sees an inactive row. -/
theorem Inv.go (inv : Inv s) (framed : Framed t s.rows rows')
    (committed : ∀ k, (rows' k).committed = (s.rows k).committed) (holds : pc'.Holds rows' t)
    (seen : ∀ id, pc'.Stale id → (s.pcs t).Stale id ∨
      ∀ row, (s.rows id).committed = some row → row.isActive = false) : Inv (s.go t rows' pc') where
  holds := by
    intro t'
    show (Function.update s.pcs t pc' t').Holds rows' t'
    by_cases same : t' = t
    · subst same
      rw [Function.update_self]
      exact holds
    · rw [Function.update_of_ne same]
      exact (inv.holds t').framed framed same fun k stored => by rw [committed k]; exact stored
  seen := by
    intro id row after active lost t'
    have stored : (s.rows id).committed = some row := (committed id).symm.trans after
    show ¬ (Function.update s.pcs t pc' t').Stale id
    by_cases same : t' = t
    · subst same
      rw [Function.update_self]
      intro stale
      rcases seen id stale with earlier | inactive
      · exact inv.seen id row stored active lost t' earlier
      · rw [inactive row stored] at active
        cases active
    · rw [Function.update_of_ne same]
      exact inv.seen id row stored active lost t'

theorem Inv.answer (inv : Inv s) (reply : Reply) : Inv (s.answer reply) where
  holds := inv.holds
  seen := fun id row stored active lost =>
    inv.seen id row stored active fun r member => lost r (List.mem_append_left _ member)

@[simp] theorem becomesInactive_self (committed : Option Node) :
    becomesInactive committed committed = false := by
  cases committed with
  | none => rfl
  | some row => cases active : row.isActive <;> simp [becomesInactive, active]

/-- The end of a request: its rows are committed, and where one is active now there is a winner. -/
theorem Inv.ended {replies' : Text → List Reply} (inv : Inv s)
    (kept : ∀ k, (∀ version, (s.rows k).held ≠ some (t, version)) →
      ∀ r ∈ s.replies k, r ∈ replies' k)
    (won : ∀ k new, (s.rows k).held = some (t, some new) → new.isActive = true →
      ∃ r ∈ replies' k, r.status = 201) :
    Inv ⟨commit s.rows t, Function.update s.pcs t .idle, replies'⟩ where
  holds := by
    intro t'
    show (Function.update s.pcs t .idle t').Holds (commit s.rows t) t'
    by_cases same : t' = t
    · subst same
      rw [Function.update_self]
      exact fun k version held => (held_commit held).1 rfl
    · rw [Function.update_of_ne same]
      refine (inv.holds t').framed (framed_commit t s.rows) same fun k stored => ?_
      rcases commit_cases s.rows t k with ⟨version, held, settled⟩ | ⟨_, unchanged⟩
      · rw [settled]
        exact (inv.holds t).held_some held
      · rw [unchanged]
        exact stored
  seen := by
    intro id row stored active lost t'
    show ¬ (Function.update s.pcs t .idle t').Stale id
    by_cases same : t' = t
    · subst same
      rw [Function.update_self]
      exact fun stale => stale
    · rw [Function.update_of_ne same]
      rcases commit_cases s.rows t id with ⟨version, held, settled⟩ | ⟨others, unchanged⟩
      · have stored : version = some row := by
          have stored : (commit s.rows t id).committed = some row := stored
          rw [settled] at stored
          exact stored
        obtain ⟨r, member, winner⟩ := won id row (stored ▸ held) active
        exact absurd winner (lost r member)
      · have stored : (s.rows id).committed = some row := unchanged ▸ stored
        exact inv.seen id row stored active (fun r member => lost r (kept id others r member)) t'

theorem replies_commits {id : Text} (others : ∀ version, (s.rows id).held ≠ some (t, version)) :
    (s.commits t).replies id = s.replies id := by
  show (if becomesInactive (s.rows id).committed (commit s.rows t id).committed then [] else s.replies id) = _
  rw [commit_of_not_held others, becomesInactive_self]
  rfl

end Steps

/-! ## One statement -/

/-- What one statement of request `t` can do. -/
inductive Moves (s : State) (t : Nat) (now : Int) : State → Prop
  | quiet (rows' : Rows Text Nat Node) (pc' : Pc) (careful : Careful s (.advance t now))
  (framed : Framed t s.rows rows')
      (committed : ∀ k, (rows' k).committed = (s.rows k).committed) (holds : pc'.Holds rows' t)
      (seen : ∀ id, pc'.Stale id → (s.pcs t).Stale id ∨
        ∀ row, (s.rows id).committed = some row →
          row.isActive = false) : Moves s t now (s.go t rows' pc')
  | refuses (data : RegisterNodeRequest) (careful : Careful s (.advance t now))
  (free : Free s.rows t) :
      Moves s t now ((s.go t s.rows .idle).answer ⟨data, 409⟩)
  | inserts (data : RegisterNodeRequest) (here : s.pcs t = .commitInsert data) :
      Moves s t now ((s.commits t).answer ⟨data, 201⟩)
  | revives (data : RegisterNodeRequest) (existing : Node)
  (here : s.pcs t = .commitRevive data existing) :
      Moves s t now ((s.commits t).answer ⟨data, 201⟩)
  | patches (id : Text) (data : Deactivation) (node : Node)
  (here : s.pcs t = .commitUpdate id data node) :
      Moves s t now (s.commits t)

theorem Free.read {rows : Rows Text Nat Node} {t : Nat} (free : Free rows t) (id : Text) :
    (rows id).read t = (rows id).committed :=
  Row.read_of_not_held (free id)

theorem Free.holdsOnly_put {rows : Rows Text Nat Node} {t : Nat} {id : Text} (free : Free rows t)
    (new : Node) : HoldsOnly (put rows t id (some new)) t id (rows id).committed new := by
  refine ⟨put_self rows t id _, fun k version held => ?_⟩
  rcases held_put held with ⟨here, _, _⟩ | ⟨_, before⟩
  · exact here
  · exact absurd before (free k version)

theorem Free.rolledBack {rows : Rows Text Nat Node} {t : Nat} (free : Free rows t) :
    Free (rollback rows t) t :=
  fun k version held => free k version (held_rollback held).2

section Advance

variable {s s' : State} {t : Nat} {now : Int}

theorem moves_insert (inv : Inv s) {data : RegisterNodeRequest} (here : s.pcs t = .insert data)
    (advanced : advance s t now = some s') : Moves s t now s' := by
  have free : Free s.rows t := inv.holds_at here
  have careful : Careful s (.advance t now) := by simp only [Careful, here]
  simp only [advance, here] at advanced
  split at advanced
  · rename_i unlocked
    split at advanced
    · rename_i missing
      cases advanced
      have empty : (s.rows data.nodeId).committed = none :=
        (free.read data.nodeId).symm.trans missing
      refine .quiet _ _ careful (framed_put _ unlocked) (fun k => committed_put _ _ _ _ _)
        ⟨now, ?_⟩ fun id stale => ?_
      · rw [← empty]
        exact free.holdsOnly_put (data.node now)
      · exact False.elim stale
    · rename_i existing taken
      cases advanced
      refine .quiet _ _ careful (framed_rollback t s.rows) (fun k => committed_rollback _ _ _)
        ⟨free.rolledBack, ?_⟩
        fun id stale => ?_
      · rw [committed_rollback, ← free.read data.nodeId, taken]
        rfl
      · exact False.elim stale
  · cases advanced

theorem moves_getExisting (inv : Inv s) {data : RegisterNodeRequest}
    (here : s.pcs t = .getExisting data) (advanced : advance s t now = some s') :
    Moves s t now s' := by
  obtain ⟨free, stored⟩ := inv.holds_at here
  have careful : Careful s (.advance t now) := by simp only [Careful, here]
  simp only [advance, here, free.read] at advanced
  split at advanced
  · cases advanced
    exact .refuses data careful free
  · rename_i existing found
    split at advanced
    · cases advanced
      exact .refuses data careful free
    · rename_i inactive
      cases advanced
      have inactive : existing.isActive = false := Bool.eq_false_iff.mpr inactive
      refine .quiet _ _ careful (framed_refl t s.rows) (fun k => rfl)
        ⟨free, stored, inactive⟩ fun id stale => Or.inr ?_
      intro row stored
      obtain rfl : data.nodeId = id := stale
      rw [found] at stored
      cases stored
      exact inactive

theorem moves_revive (inv : Inv s) {data : RegisterNodeRequest} {existing : Node}
    (here : s.pcs t = .revive data existing) (advanced : advance s t now = some s') :
    Moves s t now s' := by
  obtain ⟨free, stored, inactive⟩ := inv.holds_at here
  have careful : Careful s (.advance t now) := by simp only [Careful, here]
  obtain ⟨current, stored⟩ := Option.isSome_iff_exists.mp stored
  have seen : (s.rows data.nodeId).read t = some current := (free.read data.nodeId).trans stored
  simp only [advance, here] at advanced
  obtain ⟨⟨rows', out⟩, updated, rfl⟩ := Option.map_eq_some_iff.mp advanced
  obtain ⟨unlocked, ⟨value, found, _, rfl, rfl⟩ | ⟨_, _, unmatched⟩⟩ := updateRow_cases updated
  · obtain rfl : current = value := Option.some.inj (seen.symm.trans found)
    refine .quiet _ _ careful (framed_put _ unlocked) (fun k => committed_put _ _ _ _ _)
      ⟨inactive, current, ?_⟩
      fun id stale => Or.inl ?_
    · rw [← stored]
      exact free.holdsOnly_put (data.write existing current)
    · rw [here]
      exact stale
  · cases unmatched current seen

theorem moves_getNode (inv : Inv s) {id : Text} {data : Deactivation}
    (here : s.pcs t = .getNode id data) (advanced : advance s t now = some s') :
    Moves s t now s' := by
  have free : Free s.rows t := inv.holds_at here
  have careful : Careful s (.advance t now) := by simp only [Careful, here]
  simp only [advance, here, free.read] at advanced
  split at advanced
  · cases advanced
    exact .quiet _ _ careful (framed_refl t s.rows) (fun k => rfl) free fun id stale =>
      False.elim stale
  · rename_i node found
    cases advanced
    refine .quiet _ _ careful (framed_refl t s.rows)
      (fun k => rfl) free fun other stale => Or.inr ?_
    intro row stored
    obtain ⟨rfl, inactive⟩ := stale
    rw [found] at stored
    cases stored
    exact inactive

theorem moves_update (inv : Inv s) {id : Text} {data : Deactivation} {node : Node}
    (here : s.pcs t = .update id data node) (advanced : advance s t now = some s') :
    Moves s t now s' := by
  have free : Free s.rows t := inv.holds_at here
  have careful : Careful s (.advance t now) := by simp only [Careful, here]
  simp only [advance, here] at advanced
  split at advanced
  · cases advanced
    exact .quiet _ _ careful (framed_refl t s.rows) (fun k => rfl) free fun id stale =>
      False.elim stale
  · obtain ⟨⟨rows', out⟩, updated, rfl⟩ := Option.map_eq_some_iff.mp advanced
    obtain ⟨unlocked, ⟨current, found, _, rfl, rfl⟩ | ⟨rfl, rfl, _⟩⟩ := updateRow_cases updated
    · have stored : (s.rows id).committed = some current := (free.read id).symm.trans found
      refine .quiet _ _ careful (framed_put _ unlocked) (fun k => committed_put _ _ _ _ _)
        ⟨current, ?_⟩
        fun other stale => Or.inl ?_
      · rw [← stored]
        exact free.holdsOnly_put (data.write node current)
      · rw [here]
        exact stale
    · exact .quiet _ _ careful (framed_rollback t _)
        (fun k => committed_rollback _ _ _) free.rolledBack
        fun id stale => False.elim stale

theorem advance_moves (inv : Inv s) (advanced : advance s t now = some s') : Moves s t now s' := by
  cases here : s.pcs t with
  | idle =>
      simp only [advance, here] at advanced
      cases advanced
  | insert data => exact moves_insert inv here advanced
  | getExisting data => exact moves_getExisting inv here advanced
  | revive data existing => exact moves_revive inv here advanced
  | getNode id data => exact moves_getNode inv here advanced
  | update id data node => exact moves_update inv here advanced
  | commitInsert data =>
      simp only [advance, here] at advanced
      cases advanced
      exact .inserts data here
  | commitRevive data existing =>
      simp only [advance, here] at advanced
      cases advanced
      exact .revives data existing here
  | commitUpdate id data node =>
      simp only [advance, here] at advanced
      cases advanced
      exact .patches id data node here

end Advance

/-! ## One commit in the system -/

section Commits

variable {s : State} {t : Nat} {id : Text} {current : Option Node} {new : Node}
    {data : RegisterNodeRequest}

theorem HoldsOnly.commit_self (holds : HoldsOnly s.rows t id current new) :
    commit s.rows t id = .settled (some new) :=
  commit_of_held (by rw [holds.1])

theorem HoldsOnly.others (holds : HoldsOnly s.rows t id current new) {k : Text}
    (different : k ≠ id) : ∀ version, (s.rows k).held ≠ some (t, version) :=
  fun version held => different (holds.2 k version held)

/-- The replies to one id after a commit that leaves `new` in its row. -/
theorem HoldsOnly.replies_self (holds : HoldsOnly s.rows t id current new) :
    (s.commits t).replies id = if becomesInactive current (some new) then [] else s.replies id := by
  show (if becomesInactive (s.rows id).committed (commit s.rows t id).committed then [] else s.replies id) = _
  rw [holds.commit_self, holds.1]
  rfl

theorem replies_answer_self (s : State) (data : RegisterNodeRequest) (status : Nat) :
    (s.answer ⟨data, status⟩).replies data.nodeId = s.replies data.nodeId ++ [⟨data, status⟩] := by
  simp [State.answer]

theorem replies_answer_of_ne (s : State) (status : Nat) (different : id ≠ data.nodeId) :
    (s.answer ⟨data, status⟩).replies id = s.replies id := by
  simp [State.answer, different.symm]

theorem not_becomesInactive (active : new.isActive = true) :
    becomesInactive current (some new) = false := by
  simp [becomesInactive, active]

/-- A commit is judged at the one row it changes. -/
theorem good_commit_iff {pcs : Nat → Pc} {replies' : Text → List Reply} (good : Good s)
    (holds : HoldsOnly s.rows t id current new) (kept : ∀ k, k ≠ id → replies' k = s.replies k) :
    Good ⟨commit s.rows t, pcs, replies'⟩ ↔ OneWinner (replies' id) (some new) := by
  have here : (commit s.rows t id).committed = some new := by
    rw [holds.commit_self]
    rfl
  constructor
  · intro after
    have there : OneWinner (replies' id) (commit s.rows t id).committed := after id
    rwa [here] at there
  · intro winner k
    show OneWinner (replies' k) (commit s.rows t k).committed
    by_cases same : k = id
    · subst same
      rw [here]
      exact winner
    · rw [kept k same, commit_of_not_held (holds.others same)]
      exact good k

theorem good_commits_iff (good : Good s) (holds : HoldsOnly s.rows t id current new) :
    Good (s.commits t) ↔
      OneWinner (if becomesInactive current (some new) then [] else s.replies id) (some new) := by
  rw [← holds.replies_self]
  exact good_commit_iff good holds fun k different => replies_commits (holds.others different)

theorem good_wins_iff (good : Good s) (holds : HoldsOnly s.rows t data.nodeId current new)
    (active : new.isActive = true) : Good ((s.commits t).answer ⟨data, 201⟩) ↔
      OneWinner (s.replies data.nodeId ++ [⟨data, 201⟩]) (some new) := by
  have replies : ((s.commits t).answer ⟨data, 201⟩).replies data.nodeId =
      s.replies data.nodeId ++ [⟨data, 201⟩] := by
    rw [replies_answer_self, holds.replies_self, not_becomesInactive active]
    rfl
  rw [← replies]
  refine good_commit_iff good holds fun k different => ?_
  rw [← replies_commits (holds.others different)]
  exact replies_answer_of_ne (s.commits t) 201 different

theorem isActive_revived {loaded row : Node} (inactive : loaded.isActive = false) :
    (data.write loaded row).isActive = true := by
  show written (some true) loaded.isActive row.isActive = true
  rw [inactive]
  rfl

/-- Whoever has loaded an inactive row finds it inactive, or with a winner. -/
theorem Inv.winner (inv : Inv s) {row : Node} (stored : (s.rows id).committed = some row)
    (stale : (s.pcs t).Stale id) (active : row.isActive = true) :
    ∃ r ∈ s.replies id, r.status = 201 := by
  by_contra none_won
  refine inv.seen id row stored active (fun r member won => none_won ⟨r, member, won⟩) t stale

theorem Inv.wins (inv : Inv s) (holds : HoldsOnly s.rows t data.nodeId current new) :
    Inv ((s.commits t).answer ⟨data, 201⟩) := by
  refine inv.ended (fun k others r member => ?_) fun k new' held _ => ?_
  · refine List.mem_append_left _ ?_
    show r ∈ (s.commits t).replies k
    rw [replies_commits others]
    exact member
  · obtain rfl := holds.2 k _ held
    exact ⟨⟨data, 201⟩, List.mem_append_right _ (by simp), rfl⟩

theorem Inv.patched (inv : Inv s) {patch : Deactivation} {node row : Node}
    (here : s.pcs t = .commitUpdate id patch node)
    (holds : HoldsOnly s.rows t id (some row) (patch.write node row)) : Inv (s.commits t) := by
  refine inv.ended (fun k others r member => ?_) fun k new' held active => ?_
  · show r ∈ (s.commits t).replies k
    rw [replies_commits others]
    exact member
  · obtain rfl := holds.2 k _ held
    obtain rfl : patch.write node row = new' := by
      rw [holds.1] at held
      cases held
      rfl
    -- an `UPDATE` that leaves the row active has found it so, and had loaded it inactive
    have inactive : node.isActive = false := by
      by_contra was
      rw [isActive_write, if_pos (Bool.not_eq_false _ ▸ was)] at active
      cases active
    have found : row.isActive = true := by
      rw [isActive_write, inactive] at active
      exact active
    have stale : (s.pcs t).Stale k := by
      rw [here]
      exact ⟨rfl, inactive⟩
    obtain ⟨r, member, won⟩ := inv.winner (by rw [holds.1]) stale found
    refine ⟨r, ?_, won⟩
    show r ∈ (s.commits t).replies k
    rw [holds.replies_self, not_becomesInactive active]
    exact member

end Commits

/-! ## Runs -/

section Run

variable {s s' : State} {t : Nat} {now : Int}

theorem Inv.moved (inv : Inv s) (moves : Moves s t now s') : Inv s' := by
  cases moves with
  | quiet rows' pc' careful framed committed holds seen => exact inv.go framed committed holds seen
  | refuses data careful free =>
      have idle : Inv (s.go t s.rows .idle) :=
        inv.go (framed_refl t s.rows) (fun k => rfl) free fun id stale => False.elim stale
      exact idle.answer ⟨data, 409⟩
  | inserts data here =>
      obtain ⟨registered, holds⟩ := inv.holds_at here
      exact inv.wins holds
  | revives data existing here =>
      obtain ⟨_, current, holds⟩ := inv.holds_at here
      exact inv.wins holds
  | patches id data node here =>
      obtain ⟨current, holds⟩ := inv.holds_at here
      exact inv.patched here holds

theorem Good.refuse (good : Good s) (data : RegisterNodeRequest) :
    Good ((s.go t s.rows .idle).answer ⟨data, 409⟩) := by
  intro id
  show OneWinner (s.replies id ++ if data.nodeId = id then [⟨data, 409⟩] else [])
      (s.rows id).committed
  split
  · exact (good id).refuse
  · rw [List.append_nil]
    exact good id

/-- **One statement** keeps the property exactly when it is careful. -/
theorem moved_good_iff (inv : Inv s) (good : Good s) (moves : Moves s t now s') :
    Good s' ↔ Careful s (.advance t now) := by
  cases moves with
  | quiet rows' pc' careful framed committed holds seen =>
      refine iff_of_true (fun id => ?_) careful
      show OneWinner (s.replies id) (rows' id).committed
      rw [committed id]
      exact good id
  | refuses data careful free => exact iff_of_true (good.refuse data) careful
  | inserts data here =>
      obtain ⟨registered, holds⟩ := inv.holds_at here
      have before : OneWinner (s.replies data.nodeId) none := by
        have before := good data.nodeId
        rwa [holds.1] at before
      have none_won : ∀ r ∈ s.replies data.nodeId, r.status ≠ 201 := by
        intro r member won
        obtain ⟨_, absent, _⟩ := before.carried r member won
        cases absent
      rw [good_wins_iff good holds rfl, before.win_iff none_won]
      exact iff_of_true (carries_node data registered) (by simp only [Careful, here])
  | revives data existing here =>
      obtain ⟨inactive, current, holds⟩ := inv.holds_at here
      have stored : (s.rows data.nodeId).committed = some current := by rw [holds.1]
      have before : OneWinner (s.replies data.nodeId) (some current) := stored ▸ good data.nodeId
      have stale : (s.pcs t).Stale data.nodeId := by
        rw [here]
        rfl
      rw [good_wins_iff good holds (isActive_revived inactive),
        revive_iff before inactive (inv.winner stored stale)]
      simp only [Careful, here, stored, Option.some.injEq, forall_eq']
  | patches id data node here =>
      obtain ⟨current, holds⟩ := inv.holds_at here
      have stored : (s.rows id).committed = some current := by rw [holds.1]
      have before : OneWinner (s.replies id) (some current) := stored ▸ good id
      have stale (inactive : node.isActive = false) : (s.pcs t).Stale id := by
        rw [here]
        exact ⟨rfl, inactive⟩
      rw [good_commits_iff good holds,
        patch_iff before fun inactive => inv.winner stored (stale inactive)]
      simp only [Careful, here, stored, Option.some.injEq, forall_eq']

/-- A request that has just arrived. -/
theorem inv_arrive (inv : Inv s) {pc : Pc} (idle : s.pcs t = .idle)
    (waits : ∀ rows, Free rows t → pc.Holds rows t) (fresh : ∀ id, ¬ pc.Stale id) :
    Inv (s.go t s.rows pc) := by
  have free : Free s.rows t := inv.holds_at idle
  exact inv.go (framed_refl t s.rows) (fun k => rfl) (waits s.rows free) fun id stale =>
    absurd stale (fresh id)

theorem inv_next (inv : Inv s) (a : Action) : Inv (next s a) := by
  cases a with
  | post t data =>
      simp only [next]
      split
      · rename_i idle
        exact inv_arrive inv idle (fun rows free => free) fun id stale => stale
      · exact inv
  | patch t id data =>
      simp only [next]
      split
      · rename_i idle
        exact inv_arrive inv idle (fun rows free => free) fun id stale => stale
      · exact inv
  | advance t now =>
      show Inv ((advance s t now).getD s)
      cases advanced : advance s t now with
      | none => exact inv
      | some s' => exact inv.moved (advance_moves inv advanced)

theorem good_next_iff (inv : Inv s) (good : Good s) (a : Action) : Good (next s a) ↔
    Careful s a := by
  cases a with
  | post t data =>
      refine iff_of_true ?_ trivial
      simp only [next]
      split
      · exact good
      · exact good
  | patch t id data =>
      refine iff_of_true ?_ trivial
      simp only [next]
      split
      · exact good
      · exact good
  | advance t now =>
      show Good ((advance s t now).getD s) ↔ _
      cases advanced : advance s t now with
      | some s' => exact moved_good_iff inv good (advance_moves inv advanced)
      | none =>
          -- a commit never waits
          refine iff_of_true good ?_
          cases here : s.pcs t with
          | commitRevive data existing => simp only [advance, here] at advanced; cases advanced
          | commitUpdate id data node => simp only [advance, here] at advanced; cases advanced
          | _ => simp only [Careful, here]

theorem inv_start (initial : Text → Option Node) : Inv (start initial) where
  holds := fun t k version held => by cases held
  seen := fun id row stored active lost t stale => stale

theorem good_start (initial : Text → Option Node) : Good (start initial) :=
  fun id => ⟨by simp [start], by simp [start], by simp [start]⟩

/-- **When registration has one winner**: in exactly the runs whose commits are careful. -/
theorem one_winner_iff (initial : Text → Option Node) (actions : List Action) :
    (∀ taken, taken <+: actions → Good (taken.foldl next (start initial))) ↔
      ∀ taken a, taken ++ [a] <+: actions → Careful (taken.foldl next (start initial)) a := by
  refine all_good_iff (I := Inv) (fun s a inv => inv_next inv a) ?_ actions _ (inv_start initial)
    (good_start initial)
  exact fun s a inv good => good_next_iff inv good a

end Run

/-! ## Two registrations of a deactivated node -/

def shed : Node :=
  { nodeId := "shed".toList
    name := none
    locationName := none
    lat := none
    lon := none
    firmwareVersion := none
    readingInterval := 30
    isActive := false
    registeredAt := 0
    lastSeen := none }

/-- A registration of `shed` with this reading interval. -/
def registration (interval : Int) (bound : 1 ≤ interval ∧ interval ≤ 86400) : RegisterNodeRequest :=
  { nodeId := "shed".toList
    name := some "Shed".toList
    locationName := some "Garden".toList
    lat := some 0
    lon := some 0
    firmwareVersion := some "2".toList
    readingInterval := interval
    nodeId_safe := by decide
    name_bound := by simp [AtMost]
    locationName_bound := by simp [AtMost]
    lat_bound := by rintro _ ⟨⟩; decide
    lon_bound := by rintro _ ⟨⟩; decide
    firmwareVersion_bound := by simp [AtMost]
    readingInterval_bound := bound }

/-- Both requests meet the conflict and load the inactive row before one of them commits. -/
def race : List Action :=
  [.post 1 (registration 60 (by decide)), .post 2 (registration 90 (by decide)), .advance 1 0,
    .advance 1 0, .advance 2 0,
    .advance 2 0, .advance 1 0, .advance 1 0, .advance 2 0, .advance 2 0]

/-- **Two winners**: both registrations of the one deactivated node are answered 201. -/
theorem two_winners :
    ¬ Good (race.foldl next (start fun id => if id = "shed".toList then some shed else none)) := by
  intro good
  have one := (good "shed".toList).one
  revert one
  decide +kernel

end Empyrean.Fleet.Registrations
