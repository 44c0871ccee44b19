/-
# Empyrean.Rollup.Accounts — the table `users` and everything that writes it

Accounts with their two unique columns, and the transactions that write them: registrations,
the provisioning of admins, the changes of a signed-in user, and the last statement of
`data_retention_cleanup`, which overwrites the identity of accounts that have been inactive
for the whole retention window.

A request is let in for an account that was read as active, by itself in `login` and
`reset_password`, and in `jwt_required` by whoever filled the user cache; it writes later, to
whatever the row has become.  `Deployment.brief` bounds the time between, so that a request
which outlives the retention window is left out.  The select and the update of one provisioning
run are one step.

* `Account`, `scrub`, `due` — a row, and what the statement makes of which rows.
* `World`, `step` — the table, the requests under way, and one transaction.
* `ofRow_write` — a profile update is the one of `Empyrean.Auth.Profile`.
-/
import Empyrean.Auth.Profile
import Empyrean.Rollup.Aggregation
import Empyrean.Theory.UniqueRows

namespace Empyrean.Rollup.Anonymisation

set_option autoImplicit false

open Empyrean.Auth (PasswordHash hashPassword checkpw UserRow UpdateProfileRequest usernameChar)
open Empyrean.Fleet (written)
open Empyrean.Ingest (day)
open Empyrean.Theory.PyNumeral (Text)
open Empyrean.Theory.UniqueRows

/-! ## The rows -/

/-- The column `password_hash`: a bcrypt digest, or the `'!'` that is none. -/
inductive StoredHash
  | bcrypt (hash : PasswordHash)
  | unusable
  deriving DecidableEq, Repr

/-- `bcrypt.checkpw`; `'!'` holds no salt, which is a `ValueError`. -/
def StoredHash.check (password : Nat) : StoredHash → Option Bool
  | .bcrypt hash => some (checkpw password hash)
  | .unusable => none

structure Account (P : Type) where
  id : Nat
  username : Text
  email : Text
  passwordHash : StoredHash
  role : Text
  notificationPrefs : P
  isActive : Bool
  lastLoginAt : Option Int
  createdAt : Int
  updatedAt : Int
  deriving DecidableEq

def deletedPrefix : Text := "deleted-user-".toList

def deletedDomain : Text := "@deleted.invalid".toList

/-- `'deleted-user-' || id::text` -/
def deletedName (id : Nat) : Text := deletedPrefix ++ Nat.toDigits 10 id

def deletedEmail (id : Nat) : Text := deletedName id ++ deletedDomain

/-- `email LIKE '%@deleted.invalid'` -/
def likeDeleted (email : Text) : Bool := deletedDomain.isSuffixOf email

/-- `unique=True` on `username` and on `email`. -/
def clash {P : Type} (a b : Account P) : Bool :=
  decide (a.username = b.username ∨ a.email = b.email)

section Rows

variable {P : Type} [EmptyCollection P]

/-- The `SET` of the statement; `updated_at` has no trigger, and the statement is not the ORM's. -/
def scrub (row : Account P) : Account P :=
  { row with
    username := deletedName row.id
    email := deletedEmail row.id
    passwordHash := .unusable
    notificationPrefs := ∅
    lastLoginAt := none }

/-- The `WHERE` of the statement. -/
def due (cutoff : Int) (row : Account P) : Bool :=
  !row.isActive && decide (row.updatedAt < cutoff) && !likeDeleted row.email

/-- An account as a person has registered it. -/
def Ordinary (row : Account P) : Prop :=
  ¬ deletedPrefix <+: row.username ∧ likeDeleted row.email = false

def Scrubbed (row : Account P) : Prop := row.isActive = false ∧ scrub row = row

end Rows

/-! ## The writers of `users` -/

/-- A validated username and email, as `RegisterRequest` and the prompts of `create_admin` let
them through: `EmailStr` refuses the reserved top-level domain `invalid`. -/
structure Identity where
  username : Text
  email : Text
  username_length : 3 ≤ username.length ∧ username.length ≤ 50
  username_chars : username.all usernameChar = true
  email_length : email.length ≤ 255
  email_special : likeDeleted email = false

/-- The body of `PATCH /profile`. -/
structure Patch (P : Type) extends UpdateProfileRequest P where
  email_special : ∀ address ∈ email, likeDeleted address = false

/-- The environment: `_bootstrap_admin_credentials`, the preferences of an admin, the database's
`lower(username) = lower(...)`, `DATA_RETENTION_DAYS`, and the longest a transaction takes, a
row read as active lets requests in (the `_USER_CACHE_TTL_S` of the cache entry it becomes, and
the reader's time until it is one), and a request takes. -/
structure Deployment (P : Type) where
  admin : Option (Text × Text × Nat)
  admin_username : ∀ creds ∈ admin, ¬ deletedPrefix <+: creds.1
  admin_email : ∀ creds ∈ admin, likeDeleted creds.2.1 = false
  adminPrefs : P
  variant : Text → Text → Bool
  retentionDays : Int
  hold : Int
  cached : Nat
  request : Int
  brief : hold + cached + request ≤ day

/-- `loaded` holds the accounts that were read as active, and when; `granted` those that a request
was let in for, and when. -/
structure World (P : Type) where
  users : List (Account P)
  minted : Nat
  clock : Int
  loaded : List (Nat × Int)
  granted : List (Nat × Int)

/-- What a request sets on the row it has loaded. -/
inductive Change (P : Type)
  | patch (data : Patch P) (loaded : Account P)
  | lastLogin (stamp : Int)
  | password (new : Nat)
  | deactivate (loaded : Account P)

section Writers

variable {P : Type} [EmptyCollection P] [DecidableEq P]

/-- The attributes after `update_profile`: an unchanged one is not in its `UPDATE`. -/
def patched (data : UpdateProfileRequest P) (started : Int) (loaded current : Account P) :
    Account P :=
  { current with
    username := written data.username loaded.username current.username
    email := written data.email loaded.email current.email
    notificationPrefs := written data.prefs loaded.notificationPrefs current.notificationPrefs
    updatedAt := started }

namespace Change

/-- There is an `UPDATE`.  A new digest has a new salt, and a login a new instant. -/
def writes : Change P → Bool
  | .patch data loaded =>
    decide (patched data.toUpdateProfileRequest loaded.updatedAt loaded loaded ≠ loaded)
  | .deactivate loaded => loaded.isActive
  | _ => true

/-- The `UPDATE`; `updated_at` becomes `now()`, the start of the transaction. -/
def apply (started : Int) : Change P → Account P → Account P
  | .patch data loaded, row => patched data.toUpdateProfileRequest started loaded row
  | .lastLogin stamp, row => { row with lastLoginAt := some stamp, updatedAt := started }
  | .password new, row =>
      { row with passwordHash := .bcrypt (hashPassword new), updatedAt := started }
  | .deactivate _, row => { row with isActive := false, updatedAt := started }

end Change

namespace World

/-- `session.add(User(...))` and the commit.  The id is drawn even where the row is refused. -/
def insert (w : World P) (row : Account P) : World P :=
  { w with
    users := (Theory.UniqueRows.insert clash { row with id := w.minted + 1 } w.users).getD w.users
    minted := w.minted + 1 }

/-- The commit of an `UPDATE` of one row, rolled back where it violates a constraint. -/
def update (w : World P) (user : Nat) (f : Account P → Account P) : World P :=
  { w with users := (Theory.UniqueRows.update Account.id clash user f w.users).getD w.users }

def load (w : World P) (user : Nat) : World P := { w with loaded := (user, w.clock) :: w.loaded }

def grant (w : World P) (user : Nat) : World P := { w with granted := (user, w.clock) :: w.granted }

/-- A new row; the id is the table's. -/
def newAccount (username email : Text) (password : Nat) (role : Text) (prefs : P) (started : Int) :
    Account P where
  id := 0
  username := username
  email := email
  passwordHash := .bcrypt (hashPassword password)
  role := role
  notificationPrefs := prefs
  isActive := true
  lastLoginAt := none
  createdAt := started
  updatedAt := started

def userRole : Text := "user".toList

def adminRole : Text := "admin".toList

def register (w : World P) (data : Identity) (password : Nat) (started : Int) : World P :=
  w.insert (newAccount data.username data.email password userRole ∅ started)

/-- `role`, `is_active` and, where one is given, the password of an existing account. -/
def promoted (password : Option Nat) (started : Int) (row : Account P) : Account P :=
  { row with
    role := adminRole
    isActive := true
    passwordHash := (password.map fun new => .bcrypt (hashPassword new)).getD row.passwordHash
    updatedAt := started }

def promote (w : World P) (user : Account P) (password : Option Nat) (started : Int) : World P :=
  if user.role ≠ adminRole ∨ user.isActive = false ∨ password.isSome then w.update user.id (promoted password started)
  else w

/-- `ensure_hardcoded_admin` -/
def ensureHardcodedAdmin (d : Deployment P) (w : World P) (started : Int) : World P :=
  match d.admin with
  | none => w
  | some (username, email, password) =>
      match w.users.find? fun row => decide (row.username = username) with
      | some user => w.promote user none started
      | none =>
          if w.users.any fun row => d.variant row.username username then w
          else w.insert (newAccount username email password adminRole d.adminPrefs started)

/-- `create_admin`; `resetPassword` is the password of `--reset-password`. -/
def createAdmin (d : Deployment P) (w : World P) (data : Identity) (password : Nat)
    (resetPassword : Option Nat) (started : Int) : World P :=
  match w.users.find? fun row => decide (row.username = data.username) with
  | some user => w.promote user resetPassword started
  | none =>
      if w.users.any fun row => d.variant row.username data.username then w
      else if w.users.any fun row => decide (row.email = data.email) then w
      else w.insert (newAccount data.username data.email password adminRole d.adminPrefs started)

/-- The account that `login` lets in: an unknown name, the `ValueError`, a wrong password and an
inactive account all end it. -/
def login (w : World P) (username : Text) (password : Nat) : Option Nat :=
  match w.users.find? fun row => decide (row.username = username) with
  | none => none
  | some row =>
      if row.passwordHash.check password = some true ∧ row.isActive = true then some row.id
      else none

def dueIds (w : World P) (cutoff : Int) : List Nat := (w.users.filter (due cutoff)).map (·.id)

/-- The statement, visiting its rows in the given order; the task is rolled back where it
violates a constraint. -/
def anonymise (w : World P) (order : List Nat) : World P :=
  { w with users := (updateEach Account.id clash scrub order w.users).getD w.users }

end World

inductive Act (P : Type)
  | tick (elapsed : Nat)
  | register (data : Identity) (password : Nat) (started : Int)
  | ensureHardcodedAdmin (started : Int)
  | createAdmin (data : Identity) (password : Nat) (resetPassword : Option Nat) (started : Int)
  /-- `session.get(User, user_id)`, in `_get_user_cached` or in `reset_password`. -/
  | load (user : Nat)
  /-- `_authenticate_user`, with what was read at `loaded`. -/
  | authenticate (user : Nat) (loaded : Int)
  | login (username : Text) (password : Nat)
  | change (user : Nat) (granted started : Int) (change : Change P)
  | dataRetentionCleanup (raw : Option Text) (order : List Nat) (started : Int)

/-- A transaction that began at `started` may commit now. -/
def Running (d : Deployment P) (w : World P) (started : Int) : Prop :=
  started ≤ w.clock ∧ w.clock ≤ started + d.hold

instance (d : Deployment P) (w : World P) (started : Int) : Decidable (Running d w started) :=
  inferInstanceAs (Decidable (_ ∧ _))

def step (d : Deployment P) (w : World P) : Act P → Option (World P)
  | .tick elapsed => some { w with clock := w.clock + elapsed }
  | .register data password started =>
      if Running d w started then some (w.register data password started) else none
  | .ensureHardcodedAdmin started =>
      if Running d w started then some (w.ensureHardcodedAdmin d started) else none
  | .createAdmin data password resetPassword started =>
      if Running d w started then some (w.createAdmin d data password resetPassword started)
      else none
  | .load user =>
      if w.users.any fun row => decide (row.id = user) && row.isActive then some (w.load user)
      else none
  | .authenticate user loaded =>
      if (user, loaded) ∈ w.loaded ∧ w.clock ≤ loaded + d.cached then some (w.grant user) else none
  | .login username password =>
      match w.login username password with
      | none => some w
      | some user => some ((w.load user).grant user)
  | .change user granted started change =>
      if (user, granted) ∈ w.granted ∧ w.clock ≤ granted + d.request ∧ Running d w started then
        if change.writes then some (w.update user (change.apply started)) else some w
      else none
  | .dataRetentionCleanup raw order started =>
      match retentionCutoff d.retentionDays started raw with
      | none => some w
      | some cutoff =>
          if Running d w started ∧ order.Perm (w.dueIds cutoff) then some (w.anonymise order)
          else none

def Fresh (w : World P) : Prop := w.users = [] ∧ w.loaded = [] ∧ w.granted = []

end Writers

/-- The rest of a row of `users`, where the password can be checked. -/
def Account.ofRow {P : Type} (id : Nat) (row : UserRow P) : Account P where
  id := id
  username := row.username
  email := row.email
  passwordHash := .bcrypt row.passwordHash
  role := row.role
  notificationPrefs := row.notificationPrefs
  isActive := row.isActive
  lastLoginAt := row.lastLoginAt
  createdAt := row.createdAt
  updatedAt := row.updatedAt

/-- `update_profile` writes what it writes in `Empyrean.Auth.Profile`. -/
theorem ofRow_write {P : Type} [EmptyCollection P] [DecidableEq P] (data : UpdateProfileRequest P)
    (id : Nat) (now : Int) (loaded current : UserRow P) :
    Account.ofRow id (data.write now loaded current) =
      patched data now (.ofRow id loaded) (.ofRow id current) := by
  simp only [Account.ofRow, UpdateProfileRequest.write, patched]

end Empyrean.Rollup.Anonymisation
