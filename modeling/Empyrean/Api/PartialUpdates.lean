/-
# Empyrean.Api.PartialUpdates — `PATCH /profile` and `PATCH /nodes/:node_id` lose nothing

Both handlers load a row into a session of their own, set what the body supplies and
commit.  Their columns and statements are a `Patching` each, so requests that supply
different columns can interleave in any way.

* `userPatching`, `nodePatching` — the columns of the two tables and the two bodies.
* `updates_kept` — whatever is done is in the row, and the rest of the row is as it was.
-/
import Empyrean.Auth.Profile
import Empyrean.Fleet.DeviceConfig
import Empyrean.Theory.PartialUpdate

namespace Empyrean.Api.PartialUpdates

set_option autoImplicit false

open Empyrean.Auth Empyrean.Fleet
open Empyrean.Theory.PartialUpdate Empyrean.Theory.Runs
open Empyrean.Theory.PyNumeral (Text)

section Written

variable {α : Type} {supplied : Option α} {loaded current : α}

theorem eq_of_getD {value : α} (same : supplied.getD loaded = loaded)
    (given : supplied = some value) : value = loaded := by
  rw [given, Option.getD_some] at same
  exact same

variable [DecidableEq α]

theorem written_of_none (none : supplied = none) : written supplied loaded current = current := by
  rw [none, written_none]

theorem written_of_same (same : supplied = some loaded) :
    written supplied loaded current = current := by
  rw [same, written, if_pos rfl]

theorem written_of_ne {value : α} (given : supplied = some value) (different : value ≠ loaded) :
    written supplied loaded current = value := by
  rw [given, written, if_neg different]

end Written

/-! ## `PATCH /profile` -/

/-- The columns of `users` but for `updated_at`, which every `UPDATE` sets. -/
inductive UserColumn
  | username
  | email
  | notificationPrefs
  | role
  | passwordHash
  | isActive
  | lastLoginAt
  | createdAt

abbrev UserColumn.Value (P : Type) : UserColumn → Type
  | .username | .email | .role => Text
  | .notificationPrefs => P
  | .passwordHash => PasswordHash
  | .isActive => Bool
  | .lastLoginAt => Option Int
  | .createdAt => Int

section User

variable {P : Type}

def UserColumn.read : (column : UserColumn) → UserRow P → column.Value P
  | .username, row => row.username
  | .email, row => row.email
  | .notificationPrefs, row => row.notificationPrefs
  | .role, row => row.role
  | .passwordHash, row => row.passwordHash
  | .isActive, row => row.isActive
  | .lastLoginAt, row => row.lastLoginAt
  | .createdAt, row => row.createdAt

variable [EmptyCollection P]

def suppliedToUser (data : UpdateProfileRequest P) : (column : UserColumn) → Option (column.Value P)
  | .username => data.username
  | .email => data.email
  | .notificationPrefs => data.prefs
  | .role | .passwordHash | .isActive | .lastLoginAt | .createdAt => none

theorem user_skips (data : UpdateProfileRequest P) (skips : (!data.hasChanges) = true)
    (column : UserColumn) : suppliedToUser data column = none := by
  obtain ⟨username, email, prefs⟩ := data.hasChanges_eq_false.mp (by simpa using skips)
  cases column with
  | username => exact username
  | email => exact email
  | notificationPrefs => exact prefs
  | _ => rfl

variable [DecidableEq P] (data : UpdateProfileRequest P) (now : Int) (loaded current : UserRow P)
    (column : UserColumn)

theorem user_untouched (untouched : data.touches loaded = false) (value : column.Value P)
    (supplied : suppliedToUser data column = some value) : value = column.read loaded := by
  have same : data.apply loaded = loaded := by simpa [UpdateProfileRequest.touches] using untouched
  cases column with
  | username => exact eq_of_getD (congrArg UserRow.username same) supplied
  | email => exact eq_of_getD (congrArg UserRow.email same) supplied
  | notificationPrefs => exact eq_of_getD (congrArg UserRow.notificationPrefs same) supplied
  | _ => cases supplied

theorem user_write_none (none : suppliedToUser data column = none) :
    column.read (data.write now loaded current) = column.read current := by
  cases column with
  | username => exact written_of_none none
  | email => exact written_of_none none
  | notificationPrefs => exact written_of_none none
  | _ => rfl

theorem user_write_same (same : suppliedToUser data column = some (column.read loaded)) :
    column.read (data.write now loaded current) = column.read current := by
  cases column with
  | username => exact written_of_same same
  | email => exact written_of_same same
  | notificationPrefs => exact written_of_same same
  | _ => cases same

theorem user_write_some (value : column.Value P)
    (supplied : suppliedToUser data column = some value) (different : value ≠ column.read loaded) :
    column.read (data.write now loaded current) = value := by
  cases column with
  | username => exact written_of_ne supplied different
  | email => exact written_of_ne supplied different
  | notificationPrefs => exact written_of_ne supplied different
  | _ => cases supplied

def userPatching :
    Patching (UpdateProfileRequest P) (UserRow P) UserColumn (UserColumn.Value P) where
  column := UserColumn.read
  supplied := suppliedToUser
  skips := fun data => !data.hasChanges
  touches := fun data loaded => data.touches loaded
  write := fun data now loaded current => data.write now loaded current
  skips_supplied := user_skips
  untouched := fun data loaded untouched column => user_untouched data loaded column untouched
  write_none := user_write_none
  write_same := user_write_same
  write_some := user_write_some

end User

/-! ## `PATCH /nodes/:node_id` -/

inductive NodeColumn
  | name
  | locationName
  | lat
  | lon
  | firmwareVersion
  | readingInterval
  | isActive
  | nodeId
  | registeredAt
  | lastSeen

abbrev NodeColumn.Value : NodeColumn → Type
  | .name | .locationName | .firmwareVersion => Option Text
  | .lat | .lon => Option Rat
  | .readingInterval | .registeredAt => Int
  | .isActive => Bool
  | .nodeId => Text
  | .lastSeen => Option Int

section Node

def NodeColumn.read : (column : NodeColumn) → Node → column.Value
  | .name, node => node.name
  | .locationName, node => node.locationName
  | .lat, node => node.lat
  | .lon, node => node.lon
  | .firmwareVersion, node => node.firmwareVersion
  | .readingInterval, node => node.readingInterval
  | .isActive, node => node.isActive
  | .nodeId, node => node.nodeId
  | .registeredAt, node => node.registeredAt
  | .lastSeen, node => node.lastSeen

def suppliedToNode (data : UpdateNodeRequest) : (column : NodeColumn) → Option column.Value
  | .name => data.name.map some
  | .locationName => data.locationName.map some
  | .lat => data.lat.map some
  | .lon => data.lon.map some
  | .firmwareVersion => data.firmwareVersion.map some
  | .readingInterval => data.readingInterval
  | .isActive => data.isActive
  | .nodeId | .registeredAt | .lastSeen => none

variable (data : UpdateNodeRequest) (now : Int) (loaded current : Node) (column : NodeColumn)

/-- There is an `UPDATE`. -/
def touchesNode : Bool := decide (data.apply loaded ≠ loaded)

def writeNode (_ : Int) : Node := data.write loaded current

theorem node_skips (skips : false = true) : suppliedToNode data column = none := by
  cases skips

theorem node_untouched (untouched : touchesNode data loaded = false) (value : column.Value)
    (supplied : suppliedToNode data column = some value) : value = column.read loaded := by
  have same : data.apply loaded = loaded := by simpa [touchesNode] using untouched
  cases column with
  | name => exact eq_of_getD ((getD_map_some _ _).trans (congrArg Node.name same)) supplied
  | locationName =>
      exact eq_of_getD ((getD_map_some _ _).trans (congrArg Node.locationName same)) supplied
  | lat => exact eq_of_getD ((getD_map_some _ _).trans (congrArg Node.lat same)) supplied
  | lon => exact eq_of_getD ((getD_map_some _ _).trans (congrArg Node.lon same)) supplied
  | firmwareVersion =>
      exact eq_of_getD ((getD_map_some _ _).trans (congrArg Node.firmwareVersion same)) supplied
  | readingInterval => exact eq_of_getD (congrArg Node.readingInterval same) supplied
  | isActive => exact eq_of_getD (congrArg Node.isActive same) supplied
  | _ => cases supplied

theorem node_write_none (none : suppliedToNode data column = none) :
    column.read (writeNode data loaded current now) = column.read current := by
  cases column with
  | nodeId | registeredAt | lastSeen => rfl
  | _ => exact written_of_none none

theorem node_write_same (same : suppliedToNode data column = some (column.read loaded)) :
    column.read (writeNode data loaded current now) = column.read current := by
  cases column with
  | nodeId | registeredAt | lastSeen => rfl
  | _ => exact written_of_same same

theorem node_write_some (value : column.Value) (supplied : suppliedToNode data column = some value)
    (different : value ≠ column.read loaded) :
    column.read (writeNode data loaded current now) = value := by
  cases column with
  | nodeId | registeredAt | lastSeen => cases supplied
  | _ => exact written_of_ne supplied different

/-- `update_node` opens its session whatever the body supplies. -/
def nodePatching : Patching UpdateNodeRequest Node NodeColumn NodeColumn.Value where
  column := NodeColumn.read
  supplied := suppliedToNode
  skips := fun _ => false
  touches := touchesNode
  write := fun data now loaded current => writeNode data loaded current now
  skips_supplied := fun data skips column => node_skips data column skips
  untouched := fun data loaded untouched column => node_untouched data loaded column untouched
  write_none := node_write_none
  write_same := node_write_same
  write_some := node_write_some

end Node

/-! ## Nothing is lost -/

/-- **Partial updates lose nothing.**  Any number of requests to accounts, and to nodes,
interleave in any way; where no two supply the same column of the same row, the row has
every value of a request that is done, and what no such request supplies is as it was. -/
theorem updates_kept {P : Type} [EmptyCollection P] [DecidableEq P] :
    (∀ (requests : Nat → Nat × UpdateProfileRequest P) (initial : Nat →
      Option (UserRow P)) (s : State Nat (UserRow P)),
        Apart userPatching requests → Reach (step userPatching requests) Always (Start initial) s →
          ∀ user first, initial user = some first →
            ∃ row, (s.rows user).committed = some row ∧
              Contains userPatching requests s user first row) ∧
      ∀ (requests : Nat → Text × UpdateNodeRequest) (initial : Text →
        Option Node) (s : State Text Node),
        Apart nodePatching requests → Reach (step nodePatching requests) Always (Start initial) s →
          ∀ nodeId first, initial nodeId = some first →
            ∃ node, (s.rows nodeId).committed = some node ∧
              Contains nodePatching requests s nodeId first node :=
  ⟨fun _ _ _ apart reached _ _ given => contains_of_reach apart reached given,
    fun _ _ _ apart reached _ _ given => contains_of_reach apart reached given⟩

/-! ## Two requests at once -/

/-- Both load the row before either writes it. -/
def atOnce : List Act :=
  [.arrive 0, .arrive 1, .advance 0 1, .advance 1 1, .advance 0 2, .advance 0 2, .advance 1 3,
    .advance 1 3]

/-- `{"username": "ada"}`, `{"notification_prefs": null}`, and `{}` from the others. -/
def renameAndClear : Nat → UpdateProfileRequest (List Nat)
  | 0 => profileBody (some ada) none ada_length ada_chars
  | 1 => profileBody none (some none) noName_length noName_chars
  | _ => profileBody none none noName_length noName_chars

theorem noInterval_bound : ∀ interval ∈ (none : Option Int), 1 ≤ interval ∧ interval ≤ 86400 :=
  fun _ none => by cases none

/-- `{"reading_interval": 60}`, `{"is_active": false}`, and `{}` from the others. -/
def intervalAndStop : Nat → UpdateNodeRequest
  | 0 => DeviceConfig.everyMinute
  | 1 => DeviceConfig.deactivate
  | _ => DeviceConfig.supplying none none noInterval_bound

theorem apart_renameAndClear : Apart userPatching fun t => (7, renameAndClear t) := by
  intro t t' different _ column
  rcases t with _ | _ | t <;> rcases t' with _ | _ | t' <;> cases column <;>
    first | exact absurd rfl different | exact Or.inl rfl | exact Or.inr rfl

theorem apart_intervalAndStop : Apart nodePatching fun t => ("n1".toList, intervalAndStop t) := by
  intro t t' different _ column
  rcases t with _ | _ | t <;> rcases t' with _ | _ | t' <;> cases column <;>
    first | exact absurd rfl different | exact Or.inl rfl | exact Or.inr rfl

def users : Nat → Option (UserRow (List Nat)) := fun user => if user = 7 then some bob else none

section Run

variable {κ ρ : Type}

def unsent (initial : κ → Option ρ) : State κ ρ := ⟨fun k => .settled (initial k), fun _ => .idle⟩

theorem start_unsent (initial : κ → Option ρ) : Start initial (unsent initial) :=
  ⟨fun _ => rfl, fun _ => rfl⟩

def bothDone [DecidableEq ρ] (s : State κ ρ) : Bool := decide (s.pcs 0 = .done ∧ s.pcs 1 = .done)

end Run

/-- The second request to commit had loaded the old username, and the first one the old
preferences; likewise for the node. -/
theorem updates_kept_atOnce :
    (∃ s, Reach (step userPatching fun t => (7, renameAndClear t)) Always (Start users) s ∧
        ∃ row, (s.rows 7).committed = some row ∧ row.username = ada ∧ row.notificationPrefs = [] ∧
          row.email = bob.email) ∧
      ∃ s, Reach (step nodePatching fun t => ("n1".toList, intervalAndStop t)) Always
        (Start DeviceConfig.fleet) s ∧
        ∃ node, (s.rows "n1".toList).committed = some node ∧ node.readingInterval = 60 ∧
          node.isActive = false := by
  constructor
  · obtain ⟨s, reached, done⟩ :=
      exists_reach_of_run (step userPatching fun t => (7, renameAndClear t)) Always
        (start_unsent users) atOnce bothDone (by decide +kernel)
    obtain ⟨first, second⟩ := of_decide_eq_true done
    obtain ⟨row, stored, contains⟩ :=
      updates_kept.1 _ users s apart_renameAndClear reached 7 bob rfl
    refine ⟨s, reached, row, stored, (contains .username).1 0 ada first rfl rfl,
      (contains .notificationPrefs).1 1 [] second rfl rfl, (contains .email).2 fun t _ _ => ?_⟩
    rcases t with _ | _ | t <;> rfl
  · obtain ⟨s, reached, done⟩ :=
      exists_reach_of_run (step nodePatching fun t => ("n1".toList, intervalAndStop t)) Always
        (start_unsent DeviceConfig.fleet) atOnce bothDone (by decide +kernel)
    obtain ⟨first, second⟩ := of_decide_eq_true done
    obtain ⟨node, stored, contains⟩ :=
      (updates_kept (P := List Nat)).2 _ DeviceConfig.fleet s apart_intervalAndStop
        reached "n1".toList (DeviceConfig.registration.node 0) rfl
    exact ⟨s, reached, node, stored, (contains .readingInterval).1 0 60 first rfl rfl,
      (contains .isActive).1 1 false second rfl rfl⟩

end Empyrean.Api.PartialUpdates
