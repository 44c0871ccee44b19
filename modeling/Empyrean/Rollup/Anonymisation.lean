/-
# Empyrean.Rollup.Anonymisation — deactivated accounts past the retention window

The cleanup writes both unique columns of `users` from the id, row by row, while everyone
else writes them too, and a request may still be under way for an account that was deactivated
since.

* `Tidy` — every account is an ordinary one or a scrubbed one, and no request that was let in
  for a scrubbed account is still under way.
* `anonymise_of_reach` — the statement never violates a constraint, in whatever order it
  visits the rows; it scrubs exactly the accounts that are due, and frees their names.
* `recent_kept` — it leaves alone every account that was active within the window.
* `scrubbed_stays` — no request, script or later cleanup writes to a scrubbed account again,
  and nobody can log in to it.
-/
import Empyrean.Rollup.Accounts
import Empyrean.Theory.Runs

namespace Empyrean.Rollup.Anonymisation

set_option autoImplicit false
set_option linter.unusedSectionVars false

open Empyrean.Auth (UserRow UpdateProfileRequest usernameChar)
open Empyrean.Fleet (written)
open Empyrean.Ingest (day)
open Empyrean.Theory.PyNumeral (Text numberOf numberOf_toDigits)
open Empyrean.Theory.Runs Empyrean.Theory.UniqueRows

/-! ## Names and addresses -/

theorem toDigits_injective {m n : Nat} (same : Nat.toDigits 10 m = Nat.toDigits 10 n) : m = n := by
  rw [← numberOf_toDigits m, same, numberOf_toDigits]

theorem deletedName_injective {m n : Nat} (same : deletedName m = deletedName n) : m = n :=
  toDigits_injective (List.append_cancel_left same)

theorem deletedEmail_injective {m n : Nat} (same : deletedEmail m = deletedEmail n) : m = n :=
  deletedName_injective (List.append_cancel_right same)

theorem prefix_deletedName (id : Nat) : deletedPrefix <+: deletedName id := List.prefix_append _ _

theorem likeDeleted_deletedEmail (id : Nat) : likeDeleted (deletedEmail id) = true :=
  List.isSuffixOf_iff_suffix.mpr (List.suffix_append _ _)

/-- A username has no hyphen. -/
theorem not_prefix_of_chars {name : Text} (chars : name.all usernameChar = true) :
    ¬ deletedPrefix <+: name := by
  rintro ⟨rest, rfl⟩
  have inPrefix : '-' ∈ deletedPrefix := by decide
  have hyphen := List.all_eq_true.mp chars '-' (List.mem_append_left rest inPrefix)
  revert hyphen
  decide

/-! ## Ordinary and scrubbed rows -/

section Kinds

variable {P : Type} [EmptyCollection P] {row other : Account P}

theorem clash_symm (a b : Account P) : clash a b = clash b a := by
  simp [clash, eq_comm]

theorem scrubbed_scrub (inactive : row.isActive = false) : Scrubbed (scrub row) := ⟨inactive, rfl⟩

theorem Scrubbed.username_eq (scrubbed : Scrubbed row) : row.username = deletedName row.id :=
  congrArg Account.username scrubbed.2.symm

theorem Scrubbed.email_eq (scrubbed : Scrubbed row) : row.email = deletedEmail row.id :=
  congrArg Account.email scrubbed.2.symm

theorem Ordinary.not_scrubbed (ordinary : Ordinary row) : ¬ Scrubbed row := fun scrubbed =>
  ordinary.1 (scrubbed.username_eq ▸ prefix_deletedName row.id)

theorem Ordinary.of_identity {row' : Account P} (ordinary : Ordinary row)
    (username : row'.username = row.username) (email : row'.email = row.email) : Ordinary row' := by
  rw [Ordinary, username, email]
  exact ordinary

theorem due_iff {cutoff : Int} :
    due cutoff row = true ↔
      row.isActive = false ∧ row.updatedAt < cutoff ∧ likeDeleted row.email = false := by
  simp [due, and_assoc]

theorem Scrubbed.not_due (scrubbed : Scrubbed row) (cutoff : Int) : due cutoff row = false := by
  simp [due, scrubbed.email_eq, likeDeleted_deletedEmail]

/-- A scrubbed version shares no unique column with an ordinary row. -/
theorem scrub_away (ordinary : Ordinary other) :
    (scrub row).username ≠ other.username ∧ (scrub row).email ≠ other.email := by
  constructor
  · intro name
    exact ordinary.1 (name ▸ prefix_deletedName row.id)
  · intro email
    have reserved : likeDeleted (scrub row).email = true := likeDeleted_deletedEmail row.id
    rw [email, ordinary.2] at reserved
    cases reserved

/-- It clashes with no other account, ordinary or scrubbed. -/
theorem clash_scrub (different : other.id ≠ row.id) (shape : Ordinary other ∨ Scrubbed other) :
    clash (scrub row) other = false := by
  refine decide_eq_false (not_or.mpr ?_)
  rcases shape with ordinary | scrubbed
  · exact scrub_away ordinary
  · rw [scrubbed.username_eq, scrubbed.email_eq]
    exact ⟨fun name => different (deletedName_injective name).symm,
      fun email => different (deletedEmail_injective email).symm⟩

end Kinds

/-! ## The invariant -/

section Invariant

variable {P : Type} [EmptyCollection P] [DecidableEq P]

/-- One row, against the clock and the times it was read as active. -/
structure Sane (d : Deployment P) (clock : Int) (loaded : List (Nat × Int))
    (row : Account P) : Prop where
  shape : Ordinary row ∨ Scrubbed row
  idle : row.isActive = false → ∀ t, (row.id, t) ∈ loaded → t ≤ row.updatedAt + d.hold
  gone : Scrubbed row → ∀ t, (row.id, t) ∈ loaded → t + day < clock + d.hold

structure Tidy (d : Deployment P) (w : World P) : Prop where
  separate : Separate Account.id clash w.users
  drawn : ∀ row ∈ w.users, row.id ≤ w.minted
  past : ∀ g ∈ w.loaded, g.1 ≤ w.minted ∧ g.2 ≤ w.clock
  cached : ∀ g ∈ w.granted, ∃ t, (g.1, t) ∈ w.loaded ∧ g.2 ≤ t + d.cached
  sane : ∀ row ∈ w.users, Sane d w.clock w.loaded row

variable {d : Deployment P} {w w' : World P} {row : Account P}

theorem Sane.of_active {clock : Int} {loaded : List (Nat × Int)} (ordinary : Ordinary row)
    (active : row.isActive = true) : Sane d clock loaded row where
  shape := Or.inl ordinary
  idle := fun inactive => by simp [active] at inactive
  gone := fun scrubbed => absurd scrubbed ordinary.not_scrubbed

/-- A row that is written now is as recent as anything a request has read. -/
theorem Sane.of_written {started : Int} (tidy : Tidy d w) (running : Running d w started)
    (ordinary : Ordinary row) (stamped : row.updatedAt = started) :
    Sane d w.clock w.loaded row where
  shape := Or.inl ordinary
  idle := fun _ t loaded => by
    have read := (tidy.past _ loaded).2
    have quick := running.2
    rw [stamped]
    omega
  gone := fun scrubbed => absurd scrubbed ordinary.not_scrubbed

theorem Sane.later {clock clock' : Int} {loaded : List (Nat × Int)} (sane : Sane d clock loaded row)
    (later : clock ≤ clock') : Sane d clock' loaded row where
  shape := sane.shape
  idle := sane.idle
  gone := fun scrubbed t read => by
    have before := sane.gone scrubbed t read
    omega

theorem tidy_fresh (fresh : Fresh w) : Tidy d w where
  separate := by simp [fresh.1, Separate]
  drawn := by simp [fresh.1]
  past := by simp [fresh.2.1]
  cached := by simp [fresh.2.2]
  sane := by simp [fresh.1]

theorem Tidy.tick (tidy : Tidy d w) (elapsed : Nat) :
    Tidy d { w with clock := w.clock + elapsed } where
  separate := tidy.separate
  drawn := tidy.drawn
  past := fun g member => by
    have before := tidy.past g member
    exact ⟨before.1, show g.2 ≤ w.clock + elapsed by omega⟩
  cached := tidy.cached
  sane := fun row member => (tidy.sane row member).later (show w.clock ≤ w.clock + elapsed by omega)

theorem Tidy.load (tidy : Tidy d w) (member : row ∈ w.users) (active : row.isActive = true) :
    Tidy d (w.load row.id) where
  separate := tidy.separate
  drawn := tidy.drawn
  past := fun g listed => by
    rcases List.mem_cons.mp listed with rfl | earlier
    · exact ⟨tidy.drawn row member, le_refl _⟩
    · exact tidy.past g earlier
  cached := fun g listed => by
    obtain ⟨t, read, recent⟩ := tidy.cached g listed
    exact ⟨t, List.mem_cons_of_mem _ read, recent⟩
  sane := fun other stood => by
    have before := tidy.sane other stood
    by_cases same : other.id = row.id
    · -- The row is the active one, and an active row is no scrubbed one.
      obtain rfl := tidy.separate.eq_of_key stood member same
      refine .of_active (before.shape.resolve_right fun scrubbed => ?_) active
      simp [scrubbed.1] at active
    · have unchanged : ∀ t, (other.id, t) ∈ (w.load row.id).loaded → (other.id, t) ∈ w.loaded := by
        intro t listed
        rcases List.mem_cons.mp listed with here | earlier
        · exact absurd (congrArg Prod.fst here) same
        · exact earlier
      exact ⟨before.shape, fun inactive t read => before.idle inactive t (unchanged t read),
        fun scrubbed t read => before.gone scrubbed t (unchanged t read)⟩

theorem Tidy.grant (tidy : Tidy d w) {user : Nat} {t : Int} (read : (user, t) ∈ w.loaded)
    (recent : w.clock ≤ t + d.cached) : Tidy d (w.grant user) where
  separate := tidy.separate
  drawn := tidy.drawn
  past := tidy.past
  cached := fun g listed => by
    rcases List.mem_cons.mp listed with rfl | earlier
    · exact ⟨t, read, recent⟩
    · exact tidy.cached g earlier
  sane := tidy.sane

/-- The table after an insert: as it was, or with the row under the drawn id. -/
theorem insert_cases (w : World P) (row : Account P) :
    (w.insert row).users = w.users ∨
      Theory.UniqueRows.insert clash { row with id := w.minted + 1 } w.users =
        some (w.insert row).users := by
  cases inserted : Theory.UniqueRows.insert clash { row with id := w.minted + 1 } w.users with
  | none => exact Or.inl (by simp [World.insert, inserted])
  | some users => exact Or.inr (by simp [World.insert, inserted])

theorem update_cases (w : World P) (user : Nat) (f : Account P → Account P) :
    (w.update user f).users = w.users ∨
      Theory.UniqueRows.update Account.id clash user f w.users = some (w.update user f).users := by
  cases updated : Theory.UniqueRows.update Account.id clash user f w.users with
  | none => exact Or.inl (by simp [World.update, updated])
  | some users => exact Or.inr (by simp [World.update, updated])

theorem Tidy.insert (tidy : Tidy d w) (ordinary : Ordinary row) (active : row.isActive = true) :
    Tidy d (w.insert row) := by
  have more : ∀ g ∈ w.loaded, g.1 ≤ w.minted + 1 ∧ g.2 ≤ w.clock := fun g member =>
    ⟨Nat.le_succ_of_le (tidy.past g member).1, (tidy.past g member).2⟩
  rcases insert_cases w row with same | inserted
  · exact ⟨same ▸ tidy.separate,
      fun other stood => Nat.le_succ_of_le (tidy.drawn other (same ▸ stood)), more,
      tidy.cached, fun other stood => tidy.sane other (same ▸ stood)⟩
  · have away : ∀ other ∈ w.users, other.id ≠ w.minted + 1 := fun other stood => by
      have below := tidy.drawn other stood
      omega
    obtain ⟨appended, _⟩ := insert_eq_some inserted
    have cases_of : ∀ other ∈ (w.insert row).users, other ∈ w.users ∨
        other = { row with id := w.minted + 1 } := by
      intro other stood
      rw [appended] at stood
      exact (List.mem_append.mp stood).imp_right List.mem_singleton.mp
    refine ⟨separate_insert clash_symm tidy.separate away inserted, fun other stood => ?_, more,
      tidy.cached, fun other stood => ?_⟩
    · rcases cases_of other stood with before | rfl
      · exact Nat.le_succ_of_le (tidy.drawn other before)
      · exact le_refl _
    · rcases cases_of other stood with before | rfl
      · exact tidy.sane other before
      · exact .of_active (ordinary.of_identity rfl rfl) active

theorem Tidy.update (tidy : Tidy d w) {user : Nat} {f : Account P → Account P}
    (keeps : ∀ row, (f row).id = row.id) (sane : ∀ row ∈ w.users, row.id = user →
      Sane d w.clock w.loaded (f row)) : Tidy d (w.update user f) := by
  rcases update_cases w user f with same | updated
  · exact ⟨same ▸ tidy.separate, fun other stood => tidy.drawn other (same ▸ stood), tidy.past,
      tidy.cached, fun other stood => tidy.sane other (same ▸ stood)⟩
  · have versions : ∀ other ∈ (w.update user f).users,
        ∃ row ∈ w.users, other = if row.id = user then f row else row := by
      intro other stood
      rw [(update_eq_some updated).1] at stood
      exact mem_set.mp stood
    refine ⟨separate_update clash_symm tidy.separate keeps updated, fun other stood => ?_,
      tidy.past, tidy.cached, fun other stood => ?_⟩
    · obtain ⟨row, member, rfl⟩ := versions other stood
      split
      · rw [keeps]
        exact tidy.drawn row member
      · exact tidy.drawn row member
    · obtain ⟨row, member, rfl⟩ := versions other stood
      split
      · rename_i here
        exact sane row member here
      · exact tidy.sane row member

/-! ## The statement itself -/

theorem mem_dueIds (tidy : Tidy d w) {cutoff : Int} (member : row ∈ w.users) :
    row.id ∈ w.dueIds cutoff ↔ due cutoff row = true := by
  rw [World.dueIds, List.mem_map]
  constructor
  · rintro ⟨other, listed, same⟩
    obtain ⟨stood, isDue⟩ := List.mem_filter.mp listed
    exact tidy.separate.eq_of_key stood member same ▸ isDue
  · exact fun isDue => ⟨row, List.mem_filter.mpr ⟨member, isDue⟩, rfl⟩

theorem nodup_dueIds (tidy : Tidy d w) (cutoff : Int) : (w.dueIds cutoff).Nodup := by
  have distinct : (w.users.map (·.id)).Nodup :=
    List.pairwise_map.mpr (tidy.separate.imp fun both => both.1)
  exact ((List.filter_sublist ..).map _).nodup distinct

/-- No version that the statement writes clashes with another account, scrubbed already or not. -/
theorem apart_scrub (tidy : Tidy d w) {cutoff : Int} {order : List Nat}
    (orders : order.Perm (w.dueIds cutoff)) : Apart Account.id clash order scrub w.users := by
  intro row member listed other stood different
  refine ⟨clash_scrub different (tidy.sane other stood).shape, fun listedOther => ?_⟩
  have isDue : due cutoff other = true := (mem_dueIds tidy stood).mp (orders.mem_iff.mp listedOther)
  exact clash_scrub different (Or.inr (scrubbed_scrub (due_iff.mp isDue).1))

/-- **The statement succeeds**, and is the same in every order. -/
theorem updateEach_scrub (tidy : Tidy d w) {cutoff : Int} {order : List Nat}
    (orders : order.Perm (w.dueIds cutoff)) : updateEach Account.id clash scrub order w.users =
      some (w.users.map fun row => if due cutoff row then scrub row else row) := by
  have keeps : ∀ row : Account P, (scrub row).id = row.id := fun _ => rfl
  rw [updateEach_eq keeps (orders.nodup_iff.mpr (nodup_dueIds tidy cutoff)) (apart_scrub tidy orders), setAll]
  refine congrArg some (List.map_congr_left fun row member => ?_)
  simp only [orders.mem_iff, mem_dueIds tidy member]

theorem users_anonymise (tidy : Tidy d w) {cutoff : Int} {order : List Nat}
    (orders : order.Perm (w.dueIds cutoff)) : (w.anonymise order).users =
      w.users.map fun row => if due cutoff row then scrub row else row := by
  simp [World.anonymise, updateEach_scrub tidy orders]

/-- The window is at least a day. -/
theorem retentionCutoff_le {config now cutoff : Int} {raw : Option Text}
    (cut : retentionCutoff config now raw = some cutoff) : cutoff ≤ now - day := by
  unfold retentionCutoff at cut
  split at cut
  · cases cut
  · split at cut
    · cases cut
    · rename_i days _
      split at cut
      · cases cut
      · rename_i positive
        obtain rfl := Option.some.inj cut
        have oneDay : day ≤ days * day := le_mul_of_one_le_left (by decide) (by omega)
        omega

theorem separate_map_scrub (tidy : Tidy d w) (cutoff : Int) :
    Separate Account.id clash
      (w.users.map fun row => if due cutoff row then scrub row else row) := by
  refine List.pairwise_map.mpr (tidy.separate.imp_of_mem ?_)
  rintro a b mema memb ⟨keys, apart⟩
  have shapes : ∀ row ∈ w.users, due cutoff row = true → Scrubbed (scrub row) := fun row _ isDue =>
    scrubbed_scrub (due_iff.mp isDue).1
  by_cases duea : due cutoff a = true
  · rw [if_pos duea]
    by_cases dueb : due cutoff b = true
    · rw [if_pos dueb]
      exact ⟨keys, clash_scrub (Ne.symm keys) (Or.inr (shapes b memb dueb))⟩
    · rw [if_neg dueb]
      exact ⟨keys, clash_scrub (Ne.symm keys) (tidy.sane b memb).shape⟩
  · rw [if_neg duea]
    by_cases dueb : due cutoff b = true
    · rw [if_pos dueb]
      exact ⟨keys, (clash_symm _ _).trans (clash_scrub keys (tidy.sane a mema).shape)⟩
    · rw [if_neg dueb]
      exact ⟨keys, apart⟩

theorem Tidy.anonymise (tidy : Tidy d w) {started cutoff : Int} {raw : Option Text}
    {order : List Nat} (running : Running d w started)
    (cut : retentionCutoff d.retentionDays started raw = some cutoff)
    (orders : order.Perm (w.dueIds cutoff)) : Tidy d (w.anonymise order) := by
  have users := users_anonymise tidy orders
  have versions : ∀ other ∈ (w.anonymise order).users,
      ∃ row ∈ w.users, other = if due cutoff row then scrub row else row := by
    intro other stood
    rw [users] at stood
    obtain ⟨row, member, rfl⟩ := List.mem_map.mp stood
    exact ⟨row, member, rfl⟩
  refine ⟨users ▸ separate_map_scrub tidy cutoff, fun other stood => ?_, tidy.past, tidy.cached,
    fun other stood => ?_⟩
  · obtain ⟨row, member, rfl⟩ := versions other stood
    split
    · exact tidy.drawn row member
    · exact tidy.drawn row member
  · obtain ⟨row, member, rfl⟩ := versions other stood
    have before := tidy.sane row member
    split
    · rename_i isDue
      obtain ⟨inactive, old, _⟩ := due_iff.mp isDue
      refine ⟨Or.inr (scrubbed_scrub inactive), fun _ => before.idle inactive, fun _ t read => ?_⟩
      -- Whoever is let in goes by a row that was read as active before its last update, a day
      -- before the cleanup.
      have idle := before.idle inactive t read
      have window := retentionCutoff_le cut
      have recent := running.1
      show t + day < w.clock + d.hold
      omega
    · exact before

/-! ## What a step does -/

/-- What a step does to the table. -/
inductive Stepped (d : Deployment P) (w : World P) : World P → Prop
  | same : Stepped d w w
  | tick (elapsed : Nat) : Stepped d w { w with clock := w.clock + elapsed }
  | load {row : Account P} (member : row ∈ w.users) (active : row.isActive = true) :
      Stepped d w (w.load row.id)
  | grant {user : Nat} {t : Int} (read : (user, t) ∈ w.loaded) (recent : w.clock ≤ t + d.cached) :
      Stepped d w (w.grant user)
  | login {row : Account P} (member : row ∈ w.users) (active : row.isActive = true) :
      Stepped d w ((w.load row.id).grant row.id)
  | insert {row : Account P} (ordinary : Ordinary row) (active : row.isActive = true) :
      Stepped d w (w.insert row)
  | update {user : Nat} {f : Account P → Account P} {started : Int} (running : Running d w started)
      (keeps : ∀ row, (f row).id = row.id) (stamps : ∀ row, (f row).updatedAt = started)
      (ordinary : ∀ row ∈ w.users, row.id = user → Ordinary row ∧ Ordinary (f row)) :
        Stepped d w (w.update user f)
  | anonymise {raw : Option Text} {order : List Nat} {started cutoff : Int}
  (running : Running d w started)
      (cut : retentionCutoff d.retentionDays started raw = some cutoff)
      (orders : order.Perm (w.dueIds cutoff)) : Stepped d w (w.anonymise order)

/-- A request is over before an account that it was let in for can be scrubbed. -/
theorem ordinary_of_granted (tidy : Tidy d w) (member : row ∈ w.users) {t : Int}
    (granted : (row.id, t) ∈ w.granted) (underWay : w.clock ≤ t + d.request) : Ordinary row := by
  refine (tidy.sane row member).shape.resolve_right fun scrubbed => ?_
  obtain ⟨read, loaded, recent⟩ := tidy.cached _ granted
  have gone := (tidy.sane row member).gone scrubbed read loaded
  have brief := d.brief
  simp only at recent
  omega

theorem Change.keeps (started : Int) (c : Change P) (row : Account P) :
    (c.apply started row).id = row.id := by
  cases c <;> rfl

theorem Change.stamps (started : Int) (c : Change P) (row : Account P) :
    (c.apply started row).updatedAt = started := by
  cases c <;> rfl

/-- A profile update writes validated values or leaves those of the row. -/
theorem written_cases {α : Type} [DecidableEq α] (supplied : Option α) (loaded current : α) :
    written supplied loaded current = current ∨
      supplied = some (written supplied loaded current) := by
  cases supplied with
  | none => exact Or.inl rfl
  | some value =>
      by_cases unchanged : value = loaded
      · exact Or.inl (by simp [written, unchanged])
      · exact Or.inr (by simp [written, unchanged])

theorem Change.ordinary (started : Int) (c : Change P) (ordinary : Ordinary row) :
    Ordinary (c.apply started row) := by
  cases c with
  | patch data loaded =>
      constructor
      · show ¬ deletedPrefix <+: written data.username loaded.username row.username
        rcases written_cases data.username loaded.username row.username with kept | given
        · rw [kept]
          exact ordinary.1
        · exact not_prefix_of_chars (data.username_chars _ given)
      · show likeDeleted (written data.email loaded.email row.email) = false
        rcases written_cases data.email loaded.email row.email with kept | given
        · rw [kept]
          exact ordinary.2
        · exact data.email_special _ given
  | lastLogin stamp => exact ordinary.of_identity rfl rfl
  | password new => exact ordinary.of_identity rfl rfl
  | deactivate loaded => exact ordinary.of_identity rfl rfl

/-- Promotion finds its account by a name that no scrubbed account has. -/
theorem stepped_promote (tidy : Tidy d w) {name : Text} (plain : ¬ deletedPrefix <+: name)
    {user : Account P} (found : w.users.find? (fun row => decide (row.username = name)) = some user)
    (password : Option Nat) {started : Int} (running : Running d w started) :
    Stepped d w (w.promote user password started) := by
  have member := List.mem_of_find?_eq_some found
  have named : user.username = name := by simpa using List.find?_some found
  have ordinary : Ordinary user := (tidy.sane user member).shape.resolve_right fun scrubbed =>
    plain (named ▸ scrubbed.username_eq ▸ prefix_deletedName user.id)
  unfold World.promote
  split
  · refine .update running (fun _ => rfl) (fun _ => rfl) fun row stood here => ?_
    obtain rfl := tidy.separate.eq_of_key stood member here
    exact ⟨ordinary, ordinary.of_identity rfl rfl⟩
  · exact .same

theorem Identity.ordinary (data : Identity) (password : Nat) (role : Text) (prefs : P)
    (started : Int) :
    Ordinary (World.newAccount data.username data.email password role prefs started) :=
  ⟨not_prefix_of_chars data.username_chars, data.email_special⟩

theorem login_active {name : Text} {password user : Nat}
    (entered : w.login name password = some user) :
    ∃ row ∈ w.users, row.isActive = true ∧ row.passwordHash.check password = some true ∧
      row.id = user := by
  unfold World.login at entered
  split at entered
  · cases entered
  · rename_i row found
    split at entered
    · rename_i checked
      exact ⟨row, List.mem_of_find?_eq_some found, checked.2, checked.1, Option.some.inj entered⟩
    · cases entered

theorem stepped {a : Act P} (tidy : Tidy d w) (ran : step d w a = some w') : Stepped d w w' := by
  cases a with
  | tick elapsed =>
      obtain rfl := Option.some.inj ran
      exact .tick elapsed
  | register data password started =>
      obtain ⟨running, ran⟩ := Option.ite_none_right_eq_some.mp ran
      obtain rfl := Option.some.inj ran
      exact .insert (data.ordinary ..) rfl
  | ensureHardcodedAdmin started =>
      obtain ⟨running, ran⟩ := Option.ite_none_right_eq_some.mp ran
      obtain rfl := Option.some.inj ran
      unfold World.ensureHardcodedAdmin
      split
      · exact .same
      · rename_i username email password creds
        have plain := d.admin_username _ creds
        split
        · rename_i user found
          exact stepped_promote tidy plain found none running
        · split
          · exact .same
          · exact .insert ⟨plain, d.admin_email _ creds⟩ rfl
  | createAdmin data password resetPassword started =>
      obtain ⟨running, ran⟩ := Option.ite_none_right_eq_some.mp ran
      obtain rfl := Option.some.inj ran
      unfold World.createAdmin
      split
      · rename_i user found
        exact stepped_promote tidy
          (not_prefix_of_chars data.username_chars) found resetPassword running
      · split
        · exact .same
        · split
          · exact .same
          · exact .insert (data.ordinary ..) rfl
  | load user =>
      obtain ⟨present, ran⟩ := Option.ite_none_right_eq_some.mp ran
      obtain rfl := Option.some.inj ran
      obtain ⟨row, member, both⟩ := List.any_eq_true.mp present
      obtain ⟨here, active⟩ : row.id = user ∧ row.isActive = true := by simpa using both
      exact here ▸ .load member active
  | authenticate user loaded =>
      obtain ⟨⟨read, recent⟩, ran⟩ := Option.ite_none_right_eq_some.mp ran
      obtain rfl := Option.some.inj ran
      exact .grant read recent
  | login name password =>
      simp only [step] at ran
      split at ran
      · exact Option.some.inj ran ▸ .same
      · rename_i user entered
        obtain rfl := Option.some.inj ran
        obtain ⟨row, member, active, _, rfl⟩ := login_active entered
        exact .login member active
  | change user granted started c =>
      obtain ⟨⟨read, underWay, running⟩, ran⟩ := Option.ite_none_right_eq_some.mp ran
      split at ran
      · obtain rfl := Option.some.inj ran
        refine .update running (c.keeps started) (c.stamps started) fun row member here => ?_
        have ordinary := ordinary_of_granted tidy member (here ▸ read) underWay
        exact ⟨ordinary, c.ordinary started ordinary⟩
      · exact Option.some.inj ran ▸ .same
  | dataRetentionCleanup raw order started =>
      simp only [step] at ran
      split at ran
      · exact Option.some.inj ran ▸ .same
      · rename_i cutoff cut
        obtain ⟨⟨running, orders⟩, ran⟩ := Option.ite_none_right_eq_some.mp ran
        exact Option.some.inj ran ▸ .anonymise running cut orders

theorem Tidy.step {a : Act P} (tidy : Tidy d w) (ran : Anonymisation.step d w a = some w') :
    Tidy d w' := by
  cases stepped tidy ran with
  | same => exact tidy
  | tick elapsed => exact tidy.tick elapsed
  | load member active => exact tidy.load member active
  | grant read recent => exact tidy.grant read recent
  | login member active =>
      exact (tidy.load member active).grant (List.mem_cons_self ..)
        (Int.le_add_of_nonneg_right (Int.natCast_nonneg _))
  | insert ordinary active => exact tidy.insert ordinary active
  | update running keeps stamps ordinary =>
      exact tidy.update keeps fun row member here =>
        .of_written tidy running (ordinary row member here).2 (stamps row)
  | anonymise running cut orders => exact tidy.anonymise running cut orders

theorem tidy_of_reach (reached : Reach (step d) Always Fresh w) : Tidy d w :=
  reached.invariant (fun _ fresh => tidy_fresh fresh) fun _ _ _ tidy _ ran => tidy.step ran

/-- **A scrubbed row stays as it is**, whatever happens next. -/
theorem scrubbed_step {a : Act P} (tidy : Tidy d w) (ran : step d w a = some w')
    (scrubbed : Scrubbed row) (member : row ∈ w.users) : row ∈ w'.users := by
  cases stepped tidy ran with
  | same => exact member
  | tick elapsed => exact member
  | load _ _ => exact member
  | grant _ _ => exact member
  | login _ _ => exact member
  | insert _ _ =>
      rename_i new _ _
      rcases insert_cases w new with same | inserted
      · exact same ▸ member
      · rw [(insert_eq_some inserted).1]
        exact List.mem_append_left _ member
  | update _ _ _ ordinary =>
      rename_i user f _ _ _ _
      rcases update_cases w user f with same | updated
      · exact same ▸ member
      · rw [(update_eq_some updated).1]
        have away : row.id ≠ user := fun here => (ordinary row member here).1.not_scrubbed scrubbed
        exact mem_set.mpr ⟨row, member, by rw [if_neg away]⟩
  | anonymise _ _ orders =>
      rw [users_anonymise tidy orders]
      exact List.mem_map.mpr ⟨row, member, by rw [if_neg (by simp [scrubbed.not_due])]⟩

end Invariant

/-! ## An account that leaves, with a year of retention -/

def office : Deployment (List Nat) where
  admin := some ("root".toList, "root@example.com".toList, 9)
  admin_username := by
    rintro _ ⟨⟩
    decide
  admin_email := by
    rintro _ ⟨⟩
    decide
  adminPrefs := [1]
  variant := fun a b => decide (a = b)
  retentionDays := 365
  hold := 30000000
  cached := 31000000
  request := 60000000
  brief := by decide

def adaIdentity : Identity where
  username := Auth.ada
  email := "ada@example.com".toList
  username_length := by decide
  username_chars := by decide
  email_length := by decide
  email_special := by decide

/-- Her row after she has registered. -/
def adaRow : Account (List Nat) :=
  { World.newAccount adaIdentity.username adaIdentity.email 5 World.userRole [] 0 with id := 1 }

def rootRow : Account (List Nat) :=
  { World.newAccount "root".toList "root@example.com".toList 9 World.adminRole [1] 0 with id := 2 }

def opened : World (List Nat) where
  users := []
  minted := 0
  clock := 0
  loaded := []
  granted := []

/-- She leaves at once, 400 days ago. -/
def left : World (List Nat) where
  users := [{ adaRow with isActive := false }, rootRow]
  minted := 2
  clock := 400 * day
  loaded := [(1, 0)]
  granted := [(1, 0)]

theorem reach_left : Reach (step office) Always Fresh left :=
  reach_of_run Always
    [.register adaIdentity 5 0, .ensureHardcodedAdmin 0, .load 1, .authenticate 1 0,
      .change 1 0 0 (.deactivate adaRow), .tick (400 * day).toNat]
    opened left (.init ⟨rfl, rfl, rfl⟩) rfl

/-- She leaves ten days ago, and is let in once more, by what the cache holds. -/
def leaving : World (List Nat) where
  users := [{ adaRow with isActive := false, updatedAt := 390 * day }, rootRow]
  minted := 2
  clock := 400 * day
  loaded := [(1, 390 * day)]
  granted := [(1, 390 * day + 30000000), (1, 390 * day)]

theorem reach_leaving : Reach (step office) Always Fresh leaving :=
  reach_of_run Always
    [.register adaIdentity 5 0, .ensureHardcodedAdmin 0, .tick (390 * day).toNat, .load 1,
      .authenticate 1 (390 * day),
      .change 1 (390 * day) (390 * day) (.deactivate adaRow), .tick 30000000,
        .authenticate 1 (390 * day),
      .tick (10 * day - 30000000).toNat]
    opened leaving (.init ⟨rfl, rfl, rfl⟩) rfl

theorem cutoff_office :
    retentionCutoff office.retentionDays (400 * day) none = some (35 * day) := by decide

theorem due_left : left.dueIds (35 * day) = [1] := by decide

theorem cleaned_left :
    step office left (.dataRetentionCleanup none [1] (400 * day)) = some (left.anonymise [1]) := by
  have ordered : [1].Perm (left.dueIds (35 * day)) := by rw [due_left]
  simp only [step, cutoff_office]
  exact if_pos ⟨by decide, ordered⟩

theorem cleaned_leaving : step office leaving (.dataRetentionCleanup none [] (400 * day)) =
    some (leaving.anonymise []) := by
  have ordered : [].Perm (leaving.dueIds (35 * day)) := by decide
  simp only [step, cutoff_office]
  exact if_pos ⟨by decide, ordered⟩

/-! ## The results -/

section Results

variable {P : Type} [EmptyCollection P] [DecidableEq P]

/-- **The cleanup.**  In every state the system reaches, and in whatever order the statement
visits the accounts that are due, no unique constraint is violated on the way: each of them
is scrubbed, every other account is left alone, and no account holds the old name or
address of one that was scrubbed. -/
theorem anonymise_of_reach (d : Deployment P) {w : World P}
    (reached : Reach (step d) Always Fresh w) (cutoff : Int) (order : List Nat)
    (orders : order.Perm (w.dueIds cutoff)) : updateEach Account.id clash scrub order w.users =
        some (w.users.map fun row => if due cutoff row then scrub row else row) ∧
      ∀ row ∈ w.users, due cutoff row = true →
        ∀ other ∈ (w.anonymise order).users, other.username ≠ row.username ∧
          other.email ≠ row.email := by
  have tidy := tidy_of_reach reached
  refine ⟨updateEach_scrub tidy orders, fun row member isDue other stood => ?_⟩
  have ordinary : Ordinary row := (tidy.sane row member).shape.resolve_right fun scrubbed => by
    simp [scrubbed.not_due] at isDue
  rw [users_anonymise tidy orders] at stood
  obtain ⟨before, member', rfl⟩ := List.mem_map.mp stood
  split
  · exact scrub_away ordinary
  · rename_i notDue
    have different : before.id ≠ row.id := fun same =>
      notDue (tidy.separate.eq_of_key member' member same ▸ isDue)
    have free := tidy.separate.apart clash_symm member' member different
    simpa [clash] using free

theorem anonymise_of_reach_left : left.dueIds (35 * day) = [1] ∧
    updateEach Account.id clash scrub [1] left.users =
      some (left.users.map fun row => if due (35 * day) row then scrub row else row) ∧
    ∀ row ∈ left.users, due (35 * day) row = true →
      ∀ other ∈ (left.anonymise [1]).users, other.username ≠ row.username ∧
        other.email ≠ row.email :=
  ⟨due_left, anonymise_of_reach office reach_left (35 * day) [1] (by rw [due_left])⟩

/-- **Who was there within the window** is left alone: an account that a request was let in for
after the cut-off, with the length of a transaction and the age of a cache entry to spare. -/
theorem recent_kept (d : Deployment P) {w w' : World P} (reached : Reach (step d) Always Fresh w)
    {raw : Option Text} {order : List Nat} {started cutoff : Int}
    (cut : retentionCutoff d.retentionDays started raw = some cutoff)
    (cleaned : step d w (.dataRetentionCleanup raw order started) = some w') {row : Account P}
    (member : row ∈ w.users) {t : Int} (granted : (row.id, t) ∈ w.granted)
    (recent : cutoff + d.hold + d.cached ≤ t) : row ∈ w'.users := by
  have tidy := tidy_of_reach reached
  simp only [step, cut] at cleaned
  obtain ⟨⟨_, orders⟩, cleaned⟩ := Option.ite_none_right_eq_some.mp cleaned
  obtain rfl := Option.some.inj cleaned
  have notDue : due cutoff row = false := by
    by_contra isDue
    obtain ⟨inactive, old, _⟩ := due_iff.mp (by simpa using isDue)
    obtain ⟨read, loaded, fresh⟩ := tidy.cached _ granted
    have idle := (tidy.sane row member).idle inactive read loaded
    simp only at fresh
    omega
  rw [users_anonymise tidy orders]
  exact List.mem_map.mpr ⟨row, member, by simp [notDue]⟩

theorem recent_kept_leaving :
    ∃ w', step office leaving (.dataRetentionCleanup none [] (400 * day)) = some w' ∧
    { adaRow with isActive := false, updatedAt := 390 * day } ∈ w'.users :=
  ⟨leaving.anonymise [], cleaned_leaving,
    recent_kept office reach_leaving cutoff_office cleaned_leaving (List.mem_cons_self ..)
      (t := 390 * day + 30000000) (List.mem_cons_self ..) (by decide)⟩

/-- **Scrubbed for good.**  An account that a cleanup has scrubbed stays exactly as the cleanup
left it in every run from there, and no login opens it. -/
theorem scrubbed_stays (d : Deployment P) {w w' w'' : World P}
    (reached : Reach (step d) Always Fresh w) {raw : Option Text} {order : List Nat}
    {started cutoff : Int} (cut : retentionCutoff d.retentionDays started raw = some cutoff)
    (cleaned : step d w (.dataRetentionCleanup raw order started) = some w')
    (later : Reach (step d) Always (fun x => x = w') w'') {row : Account P} (member : row ∈ w.users)
    (isDue : due cutoff row = true) :
    scrub row ∈ w''.users ∧ ∀ name password, w''.login name password ≠ some row.id := by
  have tidy := tidy_of_reach reached
  have scrubbed : Scrubbed (scrub row) := scrubbed_scrub (due_iff.mp isDue).1
  have first : Tidy d w' ∧ scrub row ∈ w'.users := by
    refine ⟨tidy.step cleaned, ?_⟩
    simp only [step, cut] at cleaned
    obtain ⟨⟨_, orders⟩, cleaned⟩ := Option.ite_none_right_eq_some.mp cleaned
    obtain rfl := Option.some.inj cleaned
    rw [users_anonymise tidy orders]
    exact List.mem_map.mpr ⟨row, member, by rw [if_pos isDue]⟩
  have kept : Tidy d w'' ∧ scrub row ∈ w''.users :=
    later.invariant (fun _ same => same ▸ first) fun _ _ _ both _ ran =>
      ⟨both.1.step ran, scrubbed_step both.1 ran scrubbed both.2⟩
  refine ⟨kept.2, fun name password entered => ?_⟩
  obtain ⟨other, stood, active, _, same⟩ := login_active entered
  obtain rfl := kept.1.separate.eq_of_key stood kept.2 same
  simp [scrubbed.1] at active

/-- She registers again under her old name, and is let in to the new account. -/
theorem scrubbed_stays_rejoined :
    ∃ w'' : World (List Nat), w''.users.length = 3 ∧ w''.login Auth.ada 6 = some 3 ∧
    scrub { adaRow with isActive := false } ∈ w''.users ∧
      ∀ name password, w''.login name password ≠ some 1 := by
  obtain ⟨w'', later, rejoined⟩ :=
    exists_reach_of_run (step office) Always (Eq.refl (left.anonymise [1]))
      [.register adaIdentity 6 (400 * day), .login Auth.ada 6, .tick 1]
      (fun w => decide (w.users.length = 3) && decide (w.login Auth.ada 6 = some 3)) rfl
  simp only [Bool.and_eq_true, decide_eq_true_eq] at rejoined
  exact ⟨w'', rejoined.1, rejoined.2,
    scrubbed_stays office reach_left cutoff_office cleaned_left
      (later.mono (fun _ _ met => met) fun _ same => same.symm)
      (List.mem_cons_self ..) (by decide)⟩

end Results

end Empyrean.Rollup.Anonymisation
