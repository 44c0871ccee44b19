/-
# Empyrean.Auth.Profile — the profile columns of an account

The rest of a row of `users`, and the body of `PATCH /profile`.  The preferences are any
JSON objects as Python compares them, with `∅` for `{}`.

* `UpdateProfileRequest` — a body that passed validation; for the preferences an explicit
  null is told apart from an absent key.
* `UpdateProfileRequest.apply`, `.write` — what `update_profile` sets, and what its `UPDATE`
  leaves where the row may have changed since it was loaded.
-/
import Empyrean.Auth.Tables
import Empyrean.Fleet.Nodes

namespace Empyrean.Auth

set_option autoImplicit false

open Empyrean.Fleet (written)
open Empyrean.Theory.PyNumeral (Text)

structure UserRow (P : Type) extends User where
  username : Text
  email : Text
  role : Text
  notificationPrefs : P
  createdAt : Int
  updatedAt : Int
  deriving DecidableEq

/-- A character of `_USERNAME_RE`. -/
def usernameChar (c : Char) : Bool :=
  decide ('A' ≤ c ∧ c ≤ 'Z') || decide ('a' ≤ c ∧ c ≤ 'z') || decide ('0' ≤ c ∧ c ≤ '9') || c = '_'

/-- A validated body; a null username or email counts as absent.  The inner `none` of the
preferences is an explicit null, anything else the dump of the validated model. -/
structure UpdateProfileRequest (P : Type) where
  username : Option Text
  email : Option Text
  notificationPrefs : Option (Option P)
  username_length : ∀ name ∈ username, 3 ≤ name.length ∧ name.length ≤ 50
  username_chars : ∀ name ∈ username, name.all usernameChar = true
  email_length : ∀ address ∈ email, address.length ≤ 255

namespace UpdateProfileRequest

variable {P : Type} (data : UpdateProfileRequest P)

/-- `clear_prefs` -/
def clearPrefs : Bool :=
  match data.notificationPrefs with
  | some none => true
  | _ => false

def hasChanges : Bool :=
  data.clearPrefs || data.username.isSome || data.email.isSome ||
    (data.notificationPrefs.bind id).isSome

/-- The preferences to set: a null clears them. -/
def prefs [EmptyCollection P] : Option P :=
  if data.clearPrefs then some ∅ else data.notificationPrefs.bind id

variable [EmptyCollection P]

theorem hasChanges_eq_false :
    data.hasChanges = false ↔ data.username = none ∧ data.email = none ∧ data.prefs = none := by
  rcases data with ⟨username, email, notificationPrefs⟩
  rcases notificationPrefs with _ | _ | given <;> cases username <;> cases email <;>
    simp [hasChanges, clearPrefs, prefs]

/-- The attributes of a loaded row after the assignments. -/
def apply (row : UserRow P) : UserRow P :=
  { row with
    username := data.username.getD row.username
    email := data.email.getD row.email
    notificationPrefs := data.prefs.getD row.notificationPrefs }

variable [DecidableEq P]

/-- There is an `UPDATE`. -/
def touches (loaded : UserRow P) : Bool := decide (data.apply loaded ≠ loaded)

/-- The `UPDATE`; `updated_at` has an `onupdate`. -/
def write (now : Int) (loaded current : UserRow P) : UserRow P :=
  { current with
    username := written data.username loaded.username current.username
    email := written data.email loaded.email current.email
    notificationPrefs := written data.prefs loaded.notificationPrefs current.notificationPrefs
    updatedAt := now }

/-- Undisturbed, a request writes what it applies to the row it has loaded. -/
theorem write_self (now : Int) (row : UserRow P) :
    data.write now row row = { data.apply row with updatedAt := now } := by
  simp [write, apply, Fleet.written_self]

end UpdateProfileRequest

/-! ## An account and a body, with lists for the preferences -/

def bob : UserRow (List Nat) where
  passwordHash := hashPassword 0
  isActive := true
  lastLoginAt := none
  username := "bob".toList
  email := "bob@example.com".toList
  role := "user".toList
  notificationPrefs := [1]
  createdAt := 0
  updatedAt := 0

theorem noEmail_length : ∀ address ∈ (none : Option Text), address.length ≤ 255 :=
  fun _ none => by cases none

/-- A PATCH body that leaves the email out. -/
def profileBody (username : Option Text) (notificationPrefs : Option (Option (List Nat)))
    (length : ∀ name ∈ username, 3 ≤ name.length ∧ name.length ≤ 50)
    (chars : ∀ name ∈ username, name.all usernameChar = true) :
    UpdateProfileRequest (List Nat) where
  username := username
  email := none
  notificationPrefs := notificationPrefs
  username_length := length
  username_chars := chars
  email_length := noEmail_length

def ada : Text := "ada".toList

theorem noName_length : ∀ name ∈ (none : Option Text), 3 ≤ name.length ∧ name.length ≤ 50 :=
  fun _ none => by cases none

theorem noName_chars : ∀ name ∈ (none : Option Text), name.all usernameChar = true :=
  fun _ none => by cases none

theorem ada_length : ∀ name ∈ some ada, 3 ≤ name.length ∧ name.length ≤ 50 := by decide

theorem ada_chars : ∀ name ∈ some ada, name.all usernameChar = true := by decide

end Empyrean.Auth
