/-
# Empyrean.Admin.Holding — the rows a patch holds

From its `SELECT … FOR UPDATE` on a patch holds the rows it has locked and the rows it has
written, each with the version it will commit; a locked row is stored, with the text the
`SELECT` returned, until the patch ends.

* `Taken` / `taken_of_step` — what one statement of a request can do.
* `Pc.version` / `Holding` — what a request holds and what it will leave there.
* `Holding.step` — every statement keeps this, and the frame of the other requests.
* `Taken.committed` — only the end of the loop commits, and writes the audit entries.
-/
import Empyrean.Admin.Settings

namespace Empyrean.Admin

set_option autoImplicit false

open Empyrean.Theory Empyrean.Theory.RowStore Empyrean.Theory.PyNumeral

/-! ## One statement -/

/-- What one statement of a request leaves of the settings and the log, and where the request
is then. -/
inductive Taken (cfg : Config) (t : Nat) (settings : Rows Key Nat Text) (log : List AuditEntry)
    (pick : Key) : Pc → Rows Key Nat Text → List AuditEntry → Pc → Prop
  /-- An empty body, or a pair that is refused before anything is locked. -/
  | answered (update : AdminSettingsUpdate) (admin : Nat) :
      Taken cfg t settings log pick (.precheck update admin) settings log .done
  | checked (update : AdminSettingsUpdate) (admin : Nat) :
      Taken cfg t settings log pick (.precheck update admin) settings log (.lock update admin)
  | snapshot (update : AdminSettingsUpdate) (admin : Nat) :
      Taken cfg t settings log pick (.lock update admin) settings log
        (.lockRow update admin [] (update.lockKeys.filter fun k => ((settings k).read t).isSome))
  | locks (update : AdminSettingsUpdate) (admin : Nat) (locked : List (Key × Text))
  (todo : List Key) (value : Text)
      (picked : pick ∈ todo) (free : (settings pick).FreeFor t)
      (seen : (settings pick).read t = some value) :
      Taken cfg t settings log pick (.lockRow update admin locked todo)
        (put settings t pick (some value)) log
        (.lockRow update admin ((pick, value) :: locked) (todo.erase pick))
  /-- The row is gone. -/
  | passes (update : AdminSettingsUpdate) (admin : Nat) (locked : List (Key × Text))
  (todo : List Key)
      (picked : pick ∈ todo) (missing : (settings pick).read t = none) :
      Taken cfg t settings log pick (.lockRow update admin locked todo) settings log
        (.lockRow update admin locked (todo.erase pick))
  | locked (update : AdminSettingsUpdate) (admin : Nat) (locked : List (Key × Text)) :
      Taken cfg t settings log pick (.lockRow update admin locked []) settings log
        (.validate update admin locked)
  | refused (update : AdminSettingsUpdate) (admin : Nat) (locked : List (Key × Text)) :
      Taken cfg t settings log pick (.validate update admin locked) (rollback settings t) log .done
  | accepted (update : AdminSettingsUpdate) (admin : Nat) (locked : List (Key × Text))
      (valid : inverted cfg update (lookup locked) = false) :
      Taken cfg t settings log pick (.validate update admin locked) settings log
        (.upsert update admin locked [] update.updates)
  | upserts (update : AdminSettingsUpdate) (admin : Nat)
  (locked written remaining : List (Key × Text)) (u : Key × Text)
      (free : (settings u.1).FreeFor t) :
      Taken cfg t settings log pick (.upsert update admin locked written (u :: remaining))
        (put settings t u.1 (some u.2)) log (.upsert update admin locked (written ++ [u]) remaining)
  | commits (update : AdminSettingsUpdate) (admin : Nat) (locked written : List (Key × Text)) :
      Taken cfg t settings log pick (.upsert update admin locked written []) (commit settings t)
        (log ++ auditEntries admin locked written) .done

theorem taken_of_step {cfg : Config} {t : Nat} {settings settings' : Rows Key Nat Text}
    {log log' : List AuditEntry} {pick : Key} {pc pc' : Pc}
    (ran : pc.step cfg t settings log pick = some (settings', log', pc')) :
    Taken cfg t settings log pick pc settings' log' pc' := by
  cases pc with
  | idle => cases ran
  | done => cases ran
  | precheck update admin =>
      simp only [Pc.step] at ran
      split at ran
      · cases ran
        exact .answered update admin
      · split at ran <;> cases ran
        · exact .answered update admin
        · exact .checked update admin
  | lock update admin =>
      cases ran
      exact .snapshot update admin
  | lockRow update admin locked todo =>
      cases todo with
      | nil =>
          cases ran
          exact .locked update admin locked
      | cons k todo =>
          simp only [Pc.step] at ran
          split at ran
          · rename_i picked
            obtain ⟨⟨rows, out⟩, visited, same⟩ := Option.map_eq_some_iff.mp ran
            obtain ⟨free, ⟨value, seen, _, rfl, rfl⟩ | ⟨rfl, rfl, missing⟩⟩ :=
              updateRow_cases visited
            · cases same
              exact .locks update admin locked (k :: todo) value picked free seen
            · cases same
              refine .passes update admin locked (k :: todo) picked ?_
              by_contra stored
              obtain ⟨value, seen⟩ := Option.ne_none_iff_exists'.mp stored
              exact absurd (missing value seen) (by simp)
          · cases ran
  | validate update admin locked =>
      simp only [Pc.step] at ran
      split at ran
      · cases ran
        exact .refused update admin locked
      · rename_i valid
        cases ran
        exact .accepted update admin locked (by simpa using valid)
  | upsert update admin locked written remaining =>
      cases remaining with
      | nil =>
          cases ran
          exact .commits update admin locked written
      | cons u remaining =>
          simp only [Pc.step] at ran
          split at ran
          · rename_i free
            cases ran
            exact .upserts update admin locked written remaining u free
          · cases ran

/-! ## The rows a request holds -/

/-- The version of `k` that the request will commit, where it holds the row. -/
def Pc.version : Pc → Key → Option Text
  | .lockRow _ _ locked _, k => lookup locked k
  | .validate _ _ locked, k => lookup locked k
  | .upsert _ _ locked written _, k => (lookup written.reverse k).or (lookup locked k)
  | _, _ => none

def Pc.locked : Pc → List (Key × Text)
  | .lockRow _ _ locked _ | .validate _ _ locked | .upsert _ _ locked _ _ => locked
  | _ => []

/-- Rows of the snapshot that are still to be locked. -/
def Pc.waiting : Pc → List Key
  | .lockRow _ _ _ todo => todo
  | _ => []

structure Holding (settings : Rows Key Nat Text) (t : Nat) (pc : Pc) : Prop where
  holds : ∀ k version, (settings k).held = some (t, version) ↔
    ∃ text, version = some text ∧ pc.version k = some text
  stored : ∀ k text, lookup pc.locked k = some text →
    (settings k).committed = some text ∧ ∃ version, (settings k).held = some (t, version)

section

variable {cfg : Config} {t t' : Nat} {settings settings' : Rows Key Nat Text}
    {log log' : List AuditEntry} {pick : Key}
  {pc pc' : Pc}

theorem Holding.framed (holding : Holding settings t' pc) (framed : Framed t settings settings')
    (different : t' ≠ t) : Holding settings' t' pc where
  holds := fun k version => by
    rw [← holding.holds k version]
    constructor
    · exact fun held => (framed.held_before different held).1
    · exact fun held => by rw [framed.keeps different held]; exact held
  stored := fun k text found => by
    obtain ⟨committed, version, held⟩ := holding.stored k text found
    rw [framed.keeps different held]
    exact ⟨committed, version, held⟩

/-- A request that holds no row. -/
theorem holding_nothing (free : ∀ k version, (settings k).held ≠ some (t, version))
    (version : ∀ k, pc.version k = none) (locked : pc.locked = []) : Holding settings t pc where
  holds := fun k v => by simp [free k v, version k]
  stored := fun k text found => by simp [locked, lookup] at found

/-- Nothing is touched, and the request knows what it knew. -/
theorem Holding.still (holding : Holding settings t pc)
    (version : ∀ k, pc'.version k = pc.version k) (locked : pc'.locked = pc.locked) :
    Holding settings t pc' where
  holds := fun k v => by rw [version]; exact holding.holds k v
  stored := by rw [locked]; exact holding.stored

theorem Holding.read_committed (holding : Holding settings t pc) {k : Key}
    (none : pc.version k = none) : (settings k).read t = (settings k).committed := by
  apply Row.read_of_not_held
  intro version held
  obtain ⟨text, _, same⟩ := (holding.holds k version).mp held
  rw [none] at same
  cases same

/-- The row a `SELECT … FOR UPDATE` locks next joins the locked ones. -/
theorem Holding.lock {update : AdminSettingsUpdate} {admin : Nat} {locked : List (Key × Text)}
    {todo todo' : List Key} {value : Text}
    (holding : Holding settings t (.lockRow update admin locked todo))
    (seen : (settings pick).read t = some value) : Holding (put settings t pick (some value)) t
      (.lockRow update admin ((pick, value) :: locked) todo') := by
  have committed : (settings pick).committed = some value := by
    rcases Row.read_cases t (settings pick) with held | ⟨_, same⟩
    · obtain ⟨text, version, found⟩ := (holding.holds pick _).mp held
      rw [seen] at version
      cases version
      exact (holding.stored pick value found).1
    · exact same.symm.trans seen
  refine ⟨?_, ?_⟩
  · intro k version
    by_cases here : k = pick
    · subst here
      simp only [put_self, Pc.version, lookup_cons_self, Option.some.injEq, Prod.mk.injEq, true_and]
      constructor
      · intro same
        exact ⟨value, same.symm, rfl⟩
      · rintro ⟨text, version, same⟩
        rw [version, same]
    · rw [put_of_ne here]
      simp only [Pc.version, lookup_cons_of_ne value here]
      exact holding.holds k version
  · intro k text found
    simp only [Pc.locked] at found
    rw [committed_put]
    by_cases here : k = pick
    · subst here
      rw [lookup_cons_self] at found
      cases found
      exact ⟨committed, some value, by simp⟩
    · rw [lookup_cons_of_ne value here] at found
      rw [put_of_ne here]
      exact holding.stored k text found

/-- One `INSERT … ON CONFLICT DO UPDATE`. -/
theorem Holding.upsert {update : AdminSettingsUpdate} {admin : Nat}
    {locked written remaining : List (Key × Text)} {u : Key × Text}
    (holding : Holding settings t (.upsert update admin locked written (u :: remaining))) :
    Holding (put settings t u.1 (some u.2)) t
      (.upsert update admin locked (written ++ [u]) remaining) := by
  obtain ⟨k₀, value⟩ := u
  refine ⟨?_, ?_⟩
  · intro k version
    simp only [Pc.version, List.reverse_append, List.reverse_cons, List.reverse_nil,
      List.nil_append, List.cons_append]
    by_cases here : k = k₀
    · subst here
      simp only [put_self, lookup_cons_self, Option.some_or, Option.some.injEq,
        Prod.mk.injEq, true_and]
      constructor
      · intro same
        exact ⟨value, same.symm, rfl⟩
      · rintro ⟨text, version, same⟩
        rw [version, same]
    · rw [put_of_ne here, lookup_cons_of_ne value here]
      exact holding.holds k version
  · intro k text found
    obtain ⟨committed, version, held⟩ := holding.stored k text found
    rw [committed_put]
    by_cases here : k = k₀
    · subst here
      exact ⟨committed, some value, by simp⟩
    · rw [put_of_ne here]
      exact ⟨committed, version, held⟩

/-- What is committed after a commit: the versions of `t`, and elsewhere what was there. -/
theorem Holding.committed (holding : Holding settings t pc) (k : Key) :
    (RowStore.commit settings t k).committed = (pc.version k).or (settings k).committed := by
  rcases commit_cases settings t k with ⟨value, held, settled⟩ | ⟨others, same⟩
  · obtain ⟨text, rfl, version⟩ := (holding.holds k value).mp held
    rw [settled, version, Row.settled, Option.some_or]
  · cases version : pc.version k with
    | none => rw [same, Option.none_or]
    | some text => exact absurd ((holding.holds k _).mpr ⟨text, rfl, version⟩) (others _)

/-- **Every statement** of a request keeps what it holds, and the frame of the others. -/
theorem Holding.step (holding : Holding settings t pc)
    (taken : Taken cfg t settings log pick pc settings' log' pc') :
    Holding settings' t pc' ∧ Framed t settings settings' := by
  have still {pc' : Pc} (version : ∀ k, pc'.version k = pc.version k) (locked : pc'.locked =
      pc.locked) : Holding settings t pc' ∧ Framed t settings settings :=
        ⟨holding.still version locked, framed_refl t settings⟩
  cases taken with
  | answered update admin => exact still (fun _ => rfl) rfl
  | checked update admin => exact still (fun _ => rfl) rfl
  | snapshot update admin => exact still (fun _ => rfl) rfl
  | locks update admin locked todo value picked free seen =>
      exact ⟨holding.lock seen, framed_put _ free⟩
  | passes update admin locked todo picked missing => exact still (fun _ => rfl) rfl
  | locked update admin locked => exact still (fun _ => rfl) rfl
  | refused update admin locked =>
      exact ⟨holding_nothing (fun k version held => (held_rollback held).1 rfl) (fun _ => rfl) rfl,
        framed_rollback t settings⟩
  | accepted update admin locked valid => exact still (fun k => by simp [Pc.version]) rfl
  | upserts update admin locked written remaining u free =>
      exact ⟨holding.upsert, framed_put _ free⟩
  | commits update admin locked written =>
      exact ⟨holding_nothing (fun k version held => (held_commit held).1 rfl) (fun _ => rfl) rfl,
        framed_commit t settings⟩

/-- Only the end of the loop commits anything, and only it writes audit entries. -/
theorem Taken.committed (taken : Taken cfg t settings log pick pc settings' log' pc') :
    (∃ update admin locked written, pc = .upsert update admin locked written [] ∧
        settings' = RowStore.commit settings t ∧ log' = log ++ auditEntries admin locked written) ∨
      ((∀ update admin locked written, pc ≠ .upsert update admin locked written []) ∧
        (∀ k, (settings' k).committed = (settings k).committed) ∧ log' = log) := by
  cases taken with
  | commits update admin locked written =>
      exact Or.inl ⟨update, admin, locked, written, rfl, rfl, rfl⟩
  | locks update admin locked todo value picked free seen =>
      exact Or.inr ⟨(fun _ _ _ _ same => by cases same), fun _ => committed_put _ _ _ _ _, rfl⟩
  | upserts update admin locked written remaining u free =>
      exact Or.inr ⟨fun _ _ _ _ same => (List.cons_ne_nil _ _ (Pc.upsert.inj same).2.2.2.2).elim,
        fun _ => committed_put _ _ _ _ _, rfl⟩
  | refused update admin locked =>
      exact Or.inr ⟨(fun _ _ _ _ same => by cases same), committed_rollback settings t, rfl⟩
  | _ => exact Or.inr ⟨(fun _ _ _ _ same => by cases same), fun _ => rfl, rfl⟩

end

end Empyrean.Admin
