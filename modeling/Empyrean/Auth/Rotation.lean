/-
# Empyrean.Auth.Rotation — a refresh-token family has one live head

A login starts a family of refresh tokens; each successful `refresh` adds the token it
issued as a child of the one presented.  However the requests interleave, a token gets
at most one child, and a token with a child is revoked, so the family is a path and only
its last token can be live.

* `Spent` — the invariant: every rotated token is revoked, and was rotated once.
* `single_headed` — any two live tokens descended from one token are the same.
-/
import Empyrean.Auth.Ownership
import Mathlib.Data.List.Nodup

namespace Empyrean.Auth.Requests

set_option autoImplicit false

open Empyrean.Theory Empyrean.Theory.RowStore Empyrean.Theory.Runs

/-- A refresh that presented `old` succeeded with `new`. -/
def Rotated (s : State) (old new : Nat) : Prop := (old, new) ∈ s.history.rotations

/-- `h` comes from `root` by any number of rotations. -/
def Descends (s : State) (root h : Nat) : Prop := Relation.ReflTransGen (Rotated s) root h

/-- `h` is unrevoked in the committed table. -/
def Live (s : State) (h : Nat) : Prop :=
  ∃ row, (s.tables.refreshTokens h).committed = some row ∧ row.revoked = false

structure Spent (s : State) : Prop where
  revoked : ∀ old new, Rotated s old new →
    ∃ row, (s.tables.refreshTokens old).committed = some row ∧ row.revoked = true
  once : (s.history.rotations.map Prod.fst).Nodup

section Step

variable {t : Nat} {pc pc' : Pc} {tables tables' : Tables} {event : Event}

/-- No statement of any request brings a revoked token back. -/
theorem Stepped.revoked_stays (stepped : Stepped t pc pc' tables tables' event)
    (sound : Sound tables) {h : Nat}
    (revoked : ∃ row, (tables.refreshTokens h).committed = some row ∧ row.revoked = true) :
    ∃ row, (tables'.refreshTokens h).committed = some row ∧ row.revoked = true := by
  obtain ⟨row, stored, revoked⟩ := revoked
  cases stepped.effect with
  | quiet committed _ => exact ⟨row, (committed h).trans stored, revoked⟩
  | commit tokens _ =>
      rw [tokens]
      rcases commit_cases tables.refreshTokens t h with ⟨value, held, settled⟩ | ⟨_, same⟩
      · obtain ⟨row', rfl, overwrites⟩ := sound.held h t value held
        exact ⟨row', by rw [settled, Row.settled], (overwrites row stored).2⟩
      · exact ⟨row, by rw [same, stored], revoked⟩

theorem commitEvent_rotated {presented new : Nat} (told : pc.commitEvent = .rotated presented new) :
    ∃ user, pc = .refresh (.commit presented user new) := by
  unfold Pc.commitEvent at told
  split at told
  · cases told
  · cases told
    exact ⟨_, rfl⟩
  · rename_i job user _
    cases job <;> cases told
  · cases told

/-- A rotation spends a token that was live until then. -/
theorem Stepped.rotated_spends {presented new : Nat}
    (stepped : Stepped t pc pc' tables tables' event) (own : Own tables t pc)
    (told : event = .rotated presented new) :
    (∃ row, (tables.refreshTokens presented).committed = some row ∧ row.revoked = false) ∧
      ∃ row, (tables'.refreshTokens presented).committed = some row ∧ row.revoked = true := by
  subst told
  cases stepped.effect with
  | quiet _ told =>
      rcases told with told | ⟨_, told⟩ <;> cases told
  | commit tokens told =>
      obtain ⟨user, rfl⟩ := commitEvent_rotated told.symm
      obtain ⟨⟨row, found, _, live⟩, _⟩ := own.holds
      have held : (tables.refreshTokens presented).held = some (t, some row.revoke) := by rw [found]
      refine ⟨⟨row, by rw [found], live⟩, row.revoke, ?_, rfl⟩
      rw [tokens, commit_of_held held, Row.settled]

end Step

theorem record_rotations (history : History) (t : Nat) (event : Event) :
    ((history.record t event).rotations = history.rotations ∧ ∀ old new, event ≠ .rotated old new) ∨
      ∃ old new, event = .rotated old new ∧
        (history.record t event).rotations = history.rotations ++ [(old, new)] := by
  cases event with
  | rotated old new => exact Or.inr ⟨old, new, rfl, rfl⟩
  | silent => exact Or.inl ⟨rfl, fun _ _ h => by cases h⟩
  | authenticated user => exact Or.inl ⟨rfl, fun _ _ h => by cases h⟩
  | issued user token => exact Or.inl ⟨rfl, fun _ _ h => by cases h⟩
  | credentialChanged user => exact Or.inl ⟨rfl, fun _ _ h => by cases h⟩

section Runs

variable {cfg : Config} {ok : State → Act → Prop}

theorem spent_start {s : State} (starts : Start s) : Spent s where
  revoked := fun old new rotated => by
    rw [Rotated, starts.rotations] at rotated
    cases rotated
  once := by simp [starts.rotations]

theorem Spent.stepped {s : State} {t : Nat} {pc' : Pc} {tables' : Tables} {event : Event}
    (spent : Spent s) (owned : Owned s) (stepped : Stepped t (s.pcs t) pc' s.tables tables' event)
    (pcs : Nat → Pc) :
    Spent { tables := tables', pcs := pcs, history := s.history.record t event } := by
  rcases record_rotations s.history t event with ⟨same, _⟩ | ⟨presented, new, told, appended⟩
  · refine ⟨?_, by simpa [same] using spent.once⟩
    intro old new rotated
    rw [Rotated, same] at rotated
    exact stepped.revoked_stays owned.sound (spent.revoked old new rotated)
  · obtain ⟨⟨row, stored, live⟩, after⟩ := stepped.rotated_spends (owned.own t) told
    constructor
    · intro old new' rotated
      rw [Rotated, appended, List.mem_append] at rotated
      rcases rotated with earlier | now
      · exact stepped.revoked_stays owned.sound (spent.revoked old new' earlier)
      · simp only [List.mem_singleton, Prod.mk.injEq] at now
        obtain ⟨rfl, rfl⟩ := now
        exact after
    · -- the presented token was live, so it was not rotated before
      have unspent : presented ∉ s.history.rotations.map Prod.fst := by
        intro spentBefore
        obtain ⟨⟨old, child⟩, rotated, same⟩ := List.mem_map.mp spentBefore
        cases same
        obtain ⟨row', stored', revoked⟩ := spent.revoked _ child rotated
        rw [stored] at stored'
        cases stored'
        rw [live] at revoked
        cases revoked
      simp only [appended, List.map_append, List.map_cons, List.map_nil]
      refine List.nodup_append.mpr ⟨spent.once, by simp, ?_⟩
      intro a earlier b now same
      simp only [List.mem_singleton] at now
      exact unspent (now ▸ same ▸ earlier)

theorem spent_step {s s' : State} {a : Act} (owned : Owned s) (spent : Spent s)
    (ran : step cfg s a = some s') : Spent s' := by
  rcases step_cases owned ran with
    ⟨t, request, _, _, rfl⟩ | ⟨t, now, pick, pc', tables', event, _, stepped, rfl⟩ |
      ⟨t, _, stepped, rfl⟩
  · exact ⟨spent.revoked, spent.once⟩
  · exact spent.stepped owned stepped _
  · exact spent.stepped owned stepped _

theorem spent_of_reach {s : State} (reached : Reach (step cfg) ok Start s) : Spent s :=
  reached.invariant_of (fun _ => owned_of_reach) (fun _ starts => spent_start starts)
    fun _ _ _ owned spent _ ran => spent_step owned spent ran

/-- A token has at most one child. -/
theorem Spent.rotated_unique {s : State} (spent : Spent s) {old new new' : Nat}
    (first : Rotated s old new) (second : Rotated s old new') : new = new' := by
  have := List.inj_on_of_nodup_map spent.once first second rfl
  exact (Prod.mk.inj this).2

/-- A live token has no child, so it is where the rotations from it end. -/
theorem Spent.live_ends {s : State} (spent : Spent s) {a b : Nat}
    (path : Relation.ReflTransGen (Rotated s) a b) (live : Live s a) : a = b := by
  rcases path.cases_head with same | ⟨child, rotated, _⟩
  · exact same
  · obtain ⟨row, stored, live⟩ := live
    obtain ⟨row', stored', revoked⟩ := spent.revoked a child rotated
    rw [stored] at stored'
    cases stored'
    rw [live] at revoked
    cases revoked

/-- **A family is single-headed**, in every reached state: each token has been rotated at
most once, and two live tokens that descend from one token are the same token. -/
theorem single_headed {s : State} (reached : Reach (step cfg) Always Start s) :
    (s.history.rotations.map Prod.fst).Nodup ∧
      ∀ root a b, Descends s root a → Descends s root b → Live s a → Live s b → a = b := by
  have spent := spent_of_reach reached
  refine ⟨spent.once, ?_⟩
  intro root a b toA toB liveA liveB
  have unique : Relator.RightUnique (Rotated s) :=
    fun _ _ _ first second => spent.rotated_unique first second
  rcases Relation.ReflTransGen.total_of_right_unique unique toA toB with path | path
  · exact spent.live_ends path liveA
  · exact (spent.live_ends path liveB).symm

end Runs

/-! ## A run with two racing refreshes -/

/-- User 0, active, with password 5; nothing else is stored and nothing is in flight. -/
def oneUser : State :=
  { tables :=
      { users := fun user => .settled (if user = 0 then some ⟨hashPassword 5, true, none⟩ else none)
        refreshTokens := fun _ => .settled none
        resetTokens := fun _ => .settled none
        minted := 0
        resetMinted := 0 }
    pcs := fun _ => .idle
    history :=
      { credential := fun _ => 0, basis := fun _ => 0, issuedOn := fun _ => 0, rotations := [] } }

theorem start_oneUser : Start oneUser where
  users := fun _ => rfl
  refreshTokens := fun _ => rfl
  resetTokens := fun _ => rfl
  undrawn := fun _ _ => rfl
  undrawnReset := fun _ _ => rfl
  pcs := fun _ => rfl
  rotations := rfl
  issuedOn := fun _ _ stored => by cases stored

def month : Config := ⟨30, 30⟩

/-- Request `t` takes its next `n` statements; none of them visits a row. -/
def statements (t : Nat) (n : Nat) : List Act := List.replicate n (.advance t 0 0)

/-- Two refreshes claim token 0 at once: one rotates it to 1, and the other, blocked on the
row until then, finds it revoked.  A third refresh, in time, rotates 1 to 2. -/
theorem single_headed_race :
    ∃ s, Reach (step month) Always Start s ∧ Rotated s 0 1 ∧ Rotated s 1 2 ∧ Live s 2 ∧
      ∀ h, Descends s 0 h → Live s h → h = 2 := by
  obtain ⟨s, reached, final⟩ :=
    exists_reach_of_run (step month) Always start_oneUser
      ([.submit 0 (.login 0 5)] ++ statements 0 5 ++
        [.submit 1 (.refresh 0 7), .submit 2 (.refresh 0 7)] ++ statements 1 1 ++ statements 2 1 ++
        statements 1 4 ++ statements 2 1 ++ [.submit 3 (.refresh 1 8)] ++ statements 3 5 ++
          statements 2 1)
      (fun s => decide (s.history.rotations = [(0, 1), (1, 2)] ∧
        (s.tables.refreshTokens 2).committed.any (fun row => !row.revoked) = true)) (by decide)
  obtain ⟨rotations, unrevoked⟩ := of_decide_eq_true final
  have first : Rotated s 0 1 := by rw [Rotated, rotations]; decide
  have second : Rotated s 1 2 := by rw [Rotated, rotations]; decide
  have live : Live s 2 := by
    obtain ⟨row, stored, unrevoked⟩ := (Option.any_eq_true _ _).mp unrevoked
    exact ⟨row, stored, by simpa using unrevoked⟩
  have path : Descends s 0 2 := (Relation.ReflTransGen.single first).tail second
  exact ⟨s, reached, first, second, live,
    fun h toH liveH => (single_headed reached).2 0 h 2 toH path liveH live⟩

end Empyrean.Auth.Requests
