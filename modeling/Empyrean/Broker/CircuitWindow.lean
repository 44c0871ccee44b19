/-
# Empyrean.Broker.CircuitWindow — the breaker counts the failures of the last 300 s

Pruning by checks, the deletion of empty keys and the time to live take nothing from a
key that a later window could count (`Agrees`, over any interleaving of the commands of
any number of workers).  A task's dispatch is therefore refused iff at least ten
failures were recorded in the window that ends now, since the last reset of the task
(`refused_iff_of_reach`).

The one command that can break this is the `client.delete` after a WRONGTYPE reply: it
comes after the reply, so another worker may have replaced the hash by a sorted set in
between.  `Clean` says it deletes nothing that still counts; `recovery_wipes_window` is
the run in which it does.
-/
import Empyrean.Broker.CircuitBreaker

namespace Empyrean.Broker

set_option autoImplicit false
set_option linter.unusedSectionVars false

open Empyrean.Theory.Runs Empyrean.Theory.SlidingWindow

variable {Name : Type}

/-! ## The statement -/

/-- The stamps in the window `(now - 300, now]`. -/
def inWindow (now : Int) (recorded : List Int) : List Int :=
  recorded.filter fun stamp => decide (now - rollingWindowSize < stamp ∧ stamp ≤ now)

/-- The check answered what the failures of its window say. -/
def Decision.Exact (d : Decision Name) : Prop :=
  d.refused = true ↔ maxFailedAttempts ≤ (inWindow d.now d.recorded).length

/-- The scores inside the window that the recovery of a worker is about to delete. -/
def wiped (s : State Name) : Act Name → List Int
  | .advance w =>
      match s.pcs w with
      | .delete op =>
          match s.keys op.task with
          | .zset scores _ => prune (s.clock - rollingWindowSize) scores
          | _ => []
      | _ => []
  | _ => []

/-- A recovery deletes no failure that still counts. -/
def Clean (s : State Name) (a : Act Name) : Prop := wiped s a = []

instance (s : State Name) (a : Act Name) : Decidable (Clean s a) :=
  inferInstanceAs (Decidable (wiped s a = []))

def Key.scores : Key → List Int
  | .zset scores _ => scores
  | _ => []

/-- Every key is absent, a set written by this code, or a hash of the former one. -/
structure Start (names : List Name) (s : State Name) : Prop where
  idle : ∀ w, s.pcs w = .idle
  undecided : s.decisions = []
  known : ∀ task, task ∉ names → s.keys task = .absent
  history : ∀ task, stamps (s.failures task) = (s.keys task).scores
  serials : ∀ task, ∀ f ∈ s.failures task, f.serial < s.serial
  written : ∀ task scores expireAt, s.keys task = .zset scores expireAt →
    ∀ score ∈ scores, score ≤ s.clock ∧ score + ttl ≤ expireAt

/-! ## One key and its history -/

/-- The key answers for the history in every window from the current one on. -/
def Agrees (clock : Int) : Key → List Failure → Prop
  | .absent, failures => Covers (clock - rollingWindowSize) [] (stamps failures)
  | .zset scores expireAt, failures =>
      Covers (clock - rollingWindowSize) scores (stamps failures) ∧
        ∀ score ∈ scores, score + ttl ≤ expireAt
  | .hash, failures => failures = []

section Agrees

variable {clock now : Int} {key : Key} {failures : List Failure} {kept : List Int}

theorem window_le (now : Int) : now - rollingWindowSize ≤ now := by
  simp only [rollingWindowSize]
  omega

theorem window_mono (later : clock ≤ now) :
    clock - rollingWindowSize ≤ now - rollingWindowSize := by
  omega

theorem Agrees.mono (agrees : Agrees clock key failures) (later : clock ≤ now) :
    Agrees now key failures := by
  cases key with
  | absent => exact Covers.mono agrees (window_mono later)
  | zset scores expireAt => exact ⟨agrees.1.mono (window_mono later), agrees.2⟩
  | hash => exact agrees

/-- What the scripts find after their pruning. -/
theorem Agrees.pruned (agrees : Agrees clock key failures) (later : clock ≤ now)
    (pruned : zremrangebyscore (now - rollingWindowSize) key = some kept) :
    Covers (now - rollingWindowSize) kept (stamps failures) := by
  have agrees := agrees.mono later
  cases key with
  | absent =>
      cases pruned
      exact agrees
  | zset scores expireAt =>
      cases pruned
      exact agrees.1.pruned
  | hash => cases pruned

theorem Agrees.wrongtype (agrees : Agrees clock key failures) {cutoff : Int}
    (wrongtype : zremrangebyscore cutoff key = none) : failures = [] := by
  cases key with
  | absent => cases wrongtype
  | zset scores expireAt => cases wrongtype
  | hash => exact agrees

theorem agrees_absent : Agrees clock .absent failures ↔
    ∀ f ∈ failures, f.stamp ≤ clock - rollingWindowSize := by
  rw [Agrees, covers_nil]
  simp [stamps]

theorem agrees_recorded (serial : Nat)
    (covers : Covers (now - rollingWindowSize) kept (stamps failures))
    (past : ∀ f ∈ failures, f.stamp ≤ now) :
    Agrees now (recordFailureLua now kept) (failures ++ [⟨now, serial⟩]) := by
  constructor
  · have pushed := covers.push now
    simpa [stamps] using pushed
  · have kept_past : ∀ score ∈ kept, score ≤ now := by
      apply covers.kept_le (window_le now)
      intro stamp member
      obtain ⟨f, recorded, rfl⟩ := List.mem_map.mp member
      exact past f recorded
    intro score member
    rcases List.mem_append.mp member with earlier | new
    · have := kept_past score earlier
      omega
    · cases List.mem_singleton.mp new
      exact le_refl _

theorem Agrees.checked (agrees : Agrees clock key failures) (later : clock ≤ now)
    (pruned : zremrangebyscore (now - rollingWindowSize) key = some kept) :
    Agrees now (checkCircuitLua kept key) failures := by
  have covers := agrees.pruned later pruned
  cases key with
  | absent => exact agrees.mono later
  | zset scores expireAt =>
      cases pruned
      simp only [checkCircuitLua]
      split
      · rename_i empty
        rw [empty] at covers
        exact covers
      · exact ⟨covers, fun score member => agrees.2 score (mem_prune.mp member).1⟩
  | hash => cases pruned

/-- A key that expires holds nothing that counts. -/
theorem Agrees.expired {scores : List Int} {expireAt server : Int}
    (agrees : Agrees clock (.zset scores expireAt) failures) (due : expireAt ≤ server)
    (near : server ≤ clock + lag) : Agrees clock .absent failures := by
  apply agrees.1.lost
  intro score member
  have bound := agrees.2 score member
  simp only [ttl, rollingWindowSize, lag] at *
  omega

/-- The count of the check script is the count of the specification. -/
theorem length_inWindow (covers : Covers (now - rollingWindowSize) kept (stamps failures))
    (past : ∀ f ∈ failures, f.stamp ≤ now) (all : prune (now - rollingWindowSize) kept = kept) :
    (inWindow now (stamps failures)).length = kept.length := by
  rw [← all, length_prune, covers _ le_rfl, inWindow, ← List.countP_eq_length_filter]
  apply List.countP_congr
  intro stamp member
  obtain ⟨f, recorded, rfl⟩ := List.mem_map.mp member
  simp [past f recorded]

end Agrees

theorem zremrangebyscore_prune {cutoff : Int} {key : Key} {kept : List Int}
    (pruned : zremrangebyscore cutoff key = some kept) : prune cutoff kept = kept := by
  cases key with
  | absent =>
      cases pruned
      rfl
  | zset scores expireAt =>
      cases pruned
      exact List.filter_eq_self.mpr fun stamp member => decide_eq_true (mem_prune.mp member).2
  | hash => cases pruned

/-! ## One command -/

structure Sound (s : State Name) : Prop where
  agrees : ∀ task, Agrees s.clock (s.keys task) (s.failures task)
  past : ∀ task, ∀ f ∈ s.failures task, f.stamp ≤ s.clock ∧ f.serial < s.serial
  answers : ∀ d ∈ s.decisions, d.Exact

/-- What any command does for the resets under way: of the failures there were, none
comes back, and a key that has not existed for a moment has nothing left to count. -/
structure Advances (s s' : State Name) : Prop where
  clock : s.clock ≤ s'.clock
  serial : s.serial ≤ s'.serial
  kept : ∀ task, ∀ f ∈ s'.failures task, f ∈ s.failures task ∨ s.serial ≤ f.serial
  gone : ∀ task, s'.gone task = s.gone task ∨
    ∀ f ∈ s'.failures task, f.serial < s.serial → f.stamp ≤ s'.clock - rollingWindowSize

section Commands

variable [DecidableEq Name] {s : State Name}

theorem Advances.of_clock (s' : State Name) (later : s.clock ≤ s'.clock)
    (serial : s'.serial = s.serial) (gone : s'.gone = s.gone)
    (failures : s'.failures = s.failures) : Advances s s' where
  clock := later
  serial := serial.ge
  kept := fun task f member => Or.inl (failures ▸ member)
  gone := fun task => Or.inl (by rw [gone])

theorem Advances.trans {s' s'' : State Name} (first : Advances s s') (second : Advances s' s'') :
    Advances s s'' where
  clock := le_trans first.clock second.clock
  serial := le_trans first.serial second.serial
  kept := by
    intro task f member
    rcases second.kept task f member with earlier | new
    · exact first.kept task f earlier
    · exact Or.inr (le_trans first.serial new)
  gone := by
    intro task
    rcases second.gone task with same | old
    · rcases first.gone task with same' | old'
      · exact Or.inl (same.trans same')
      · apply Or.inr
        intro f member before
        rcases second.kept task f member with earlier | new
        · have := old' f earlier before
          have := second.clock
          omega
        · have := first.serial
          omega
    · exact Or.inr fun f member before => old f member (lt_of_lt_of_le before first.serial)

/-- A key is deleted that holds nothing that counts. -/
theorem Sound.del (sound : Sound s) {task : Name} (old : Agrees s.clock .absent (s.failures task)) :
    Sound (s.del task) ∧ Advances s (s.del task) := by
  refine ⟨⟨?_, sound.past, sound.answers⟩,
    ⟨le_refl _, le_refl _, fun _ f member => Or.inl member, ?_⟩⟩
  · intro other
    show Agrees s.clock (Function.update s.keys task .absent other) (s.failures other)
    rcases eq_or_ne other task with rfl | ne
    · rw [Function.update_self]
      exact old
    · rw [Function.update_of_ne ne]
      exact sound.agrees other
  · intro other
    rcases eq_or_ne other task with rfl | ne
    · exact Or.inr fun f member _ => agrees_absent.mp old f member
    · exact Or.inl (Function.update_of_ne ne ..)

theorem Sound.reset (sound : Sound s) (task : Name) :
    Sound (s.reset task) ∧ Advances s (s.reset task) := by
  have cleared : ∀ other, ∀ f ∈ (s.reset task).failures other, f ∈ s.failures other ∧
      other ≠ task := by
    intro other f member
    rcases eq_or_ne other task with rfl | ne
    · simp [State.reset] at member
    · simp only [State.reset, Function.update_of_ne ne] at member
      exact ⟨member, ne⟩
  refine ⟨⟨?_, fun other f member => sound.past other f (cleared other f member).1, sound.answers⟩,
    ⟨le_refl _, le_refl _, fun other f member => Or.inl (cleared other f member).1, ?_⟩⟩
  · intro other
    show Agrees s.clock (Function.update s.keys task .absent other)
        (Function.update s.failures task [] other)
    rcases eq_or_ne other task with rfl | ne
    · rw [Function.update_self, Function.update_self]
      exact Covers.refl _ _
    · rw [Function.update_of_ne ne, Function.update_of_ne ne]
      exact sound.agrees other
  · intro other
    rcases eq_or_ne other task with rfl | ne
    · exact Or.inr fun f member => absurd rfl (cleared other f member).2
    · exact Or.inl (Function.update_of_ne ne ..)

theorem Sound.batch (tasks : List Name) : ∀ {s : State Name}, Sound s →
    Sound (tasks.foldl State.reset s) ∧ Advances s (tasks.foldl State.reset s) := by
  induction tasks with
  | nil =>
      intro s sound
      exact ⟨sound, Advances.of_clock s (le_refl _) rfl rfl rfl⟩
  | cons task rest ih =>
      intro s sound
      obtain ⟨sound', first⟩ := sound.reset task
      obtain ⟨sound'', second⟩ := ih sound'
      exact ⟨sound'', first.trans second⟩

variable {w : Nat} {task : Name} {now : Int} {kept : List Int}

/-- `gone` after a script's pruning. -/
theorem vacate_cases (s : State Name) (task : Name) (kept : List Int) (other : Name) :
    s.vacate task kept.isEmpty other = s.gone other ∨ other = task ∧ kept = [] := by
  cases kept with
  | cons score rest => exact Or.inl rfl
  | nil =>
      rcases eq_or_ne other task with rfl | ne
      · exact Or.inr ⟨rfl, rfl⟩
      · exact Or.inl (Function.update_of_ne ne ..)

/-- A script whose pruning left nothing had nothing to count. -/
theorem vacated (covers : Covers (now - rollingWindowSize) [] (stamps (s.failures task))) :
    ∀ f ∈ s.failures task, f.stamp ≤ now - rollingWindowSize :=
  agrees_absent.mp covers

theorem Sound.recorded (sound : Sound s) (later : s.clock ≤ now)
    (pruned : zremrangebyscore (now - rollingWindowSize) (s.keys task) = some kept) :
    Sound (s.recorded w task now kept) ∧ Advances s (s.recorded w task now kept) := by
  have covers := (sound.agrees task).pruned later pruned
  have past : ∀ f ∈ s.failures task, f.stamp ≤ now :=
    fun f member => le_trans (sound.past task f member).1 later
  -- the failures after the step: those before it and the new one
  have members : ∀ other, ∀ f ∈ (s.recorded w task now kept).failures other,
      f ∈ s.failures other ∨ f = ⟨now, s.serial⟩ := by
    intro other f member
    rcases eq_or_ne other task with rfl | ne
    · simpa [State.recorded] using member
    · simp only [State.recorded, Function.update_of_ne ne] at member
      exact Or.inl member
  refine ⟨⟨?_, ?_, sound.answers⟩, ⟨later, Nat.le_succ _, ?_, ?_⟩⟩
  · intro other
    show Agrees now (Function.update s.keys task _ other) (Function.update s.failures task _ other)
    rcases eq_or_ne other task with rfl | ne
    · rw [Function.update_self, Function.update_self]
      exact agrees_recorded s.serial covers past
    · rw [Function.update_of_ne ne, Function.update_of_ne ne]
      exact (sound.agrees other).mono later
  · intro other f member
    rcases members other f member with earlier | rfl
    · have ⟨stamp, serial⟩ := sound.past other f earlier
      exact ⟨le_trans stamp later, Nat.lt_succ_of_lt serial⟩
    · exact ⟨le_refl _, Nat.lt_succ_self _⟩
  · intro other f member
    rcases members other f member with earlier | rfl
    · exact Or.inl earlier
    · exact Or.inr (le_refl _)
  · intro other
    rcases vacate_cases s task kept other with same | ⟨rfl, rfl⟩
    · exact Or.inl same
    · apply Or.inr
      intro f member before
      rcases members other f member with earlier | rfl
      · exact vacated covers f earlier
      · exact absurd before (lt_irrefl _)

/-- A decision keeps everything, if its answer is the right one. -/
theorem Sound.decided (sound : Sound s) (later : s.clock ≤ now) {refused : Bool}
    (right : Decision.Exact ⟨task, now, refused, stamps (s.failures task)⟩) :
    Sound (s.decided w task now refused) ∧ Advances s (s.decided w task now refused) := by
  refine ⟨⟨fun other => (sound.agrees other).mono later, ?_, ?_⟩,
    Advances.of_clock _ later rfl rfl rfl⟩
  · intro other f member
    have ⟨stamp, serial⟩ := sound.past other f member
    exact ⟨le_trans stamp later, serial⟩
  · intro d member
    rcases List.mem_append.mp member with earlier | new
    · exact sound.answers d earlier
    · cases List.mem_singleton.mp new
      exact right

theorem Sound.checked (sound : Sound s) (later : s.clock ≤ now)
    (pruned : zremrangebyscore (now - rollingWindowSize) (s.keys task) = some kept) :
    Sound (s.checked w task now kept) ∧ Advances s (s.checked w task now kept) := by
  have covers := (sound.agrees task).pruned later pruned
  have past : ∀ f ∈ s.failures task, f.stamp ≤ now :=
    fun f member => le_trans (sound.past task f member).1 later
  have right : Decision.Exact
      ⟨task, now, decide (maxFailedAttempts ≤ kept.length), stamps (s.failures task)⟩ := by
    show decide (maxFailedAttempts ≤ kept.length) = true ↔ _
    rw [decide_eq_true_iff, length_inWindow covers past (zremrangebyscore_prune pruned)]
  obtain ⟨decided, advances⟩ := sound.decided (w := w) later right
  refine ⟨⟨?_, decided.past, decided.answers⟩, ⟨later, le_refl _, advances.kept, ?_⟩⟩
  · intro other
    show Agrees now (Function.update s.keys task _ other) (s.failures other)
    rcases eq_or_ne other task with rfl | ne
    · rw [Function.update_self]
      exact (sound.agrees other).checked later pruned
    · rw [Function.update_of_ne ne]
      exact (sound.agrees other).mono later
  · intro other
    rcases vacate_cases s task kept other with same | ⟨rfl, rfl⟩
    · exact Or.inl same
    · exact Or.inr fun f member _ => vacated covers f member

/-- The clock and the program counters alone. -/
theorem Sound.waited (sound : Sound s) (later : s.clock ≤ now) (pcs : Nat → Pc Name) :
    Sound { s with clock := now, pcs := pcs } ∧ Advances s { s with clock := now, pcs := pcs } := by
  refine ⟨⟨fun other => (sound.agrees other).mono later, ?_, sound.answers⟩,
    Advances.of_clock _ later rfl rfl rfl⟩
  intro other f member
  have ⟨stamp, serial⟩ := sound.past other f member
  exact ⟨le_trans stamp later, serial⟩

theorem Sound.eval (sound : Sound s) (op : Op Name) (later : s.clock ≤ op.now) (again : Bool) :
    Sound (s.eval w op again) ∧ Advances s (s.eval w op again) := by
  cases pruned : zremrangebyscore (op.now - rollingWindowSize) (s.keys op.task) with
  | some kept =>
      cases op with
      | record task now =>
          simp only [State.eval, pruned]
          exact sound.recorded later pruned
      | check task now =>
          simp only [State.eval, pruned]
          exact sound.checked later pruned
  | none =>
      simp only [State.eval, pruned]
      cases again with
      | false => exact sound.waited later _
      | true =>
          cases op with
          | record task now => exact sound.waited later _
          | check task now =>
              -- a hash has no failures behind it, so failing open is the right answer
              have empty := (sound.agrees task).wrongtype pruned
              apply sound.decided later
              rw [empty]
              simp [Decision.Exact, inWindow, stamps, maxFailedAttempts]

end Commands

/-! ## Resets of everything -/

/-- The failures from before the reset that its scan does not owe any more are too old
to count. -/
def Settled (s : State Name) (start : Nat) (owed : List (Name × Nat)) : Prop :=
  ∀ task, (∀ entry ∈ owed, entry.1 = task → entry.2 < s.gone task) →
    ∀ f ∈ s.failures task, f.serial < start → f.stamp ≤ s.clock - rollingWindowSize

theorem Settled.advances {s s' : State Name} {start : Nat} {owed : List (Name × Nat)}
    (settled : Settled s start owed) (begun : start ≤ s.serial) (advances : Advances s s') :
    Settled s' start owed := by
  intro task done f member before
  rcases advances.gone task with same | old
  · rcases advances.kept task f member with earlier | new
    · have := settled task (same ▸ done) f earlier before
      have := advances.clock
      omega
    · omega
  · exact old f member (lt_of_lt_of_le before begun)

/-- What the invariant says of a worker at each of its points. -/
def Pc.Holds (names : List Name) (s : State Name) : Pc Name → Prop
  | .idle => True
  | .delete op => op.task ∈ names
  | .retry op => op.task ∈ names
  | .resetAll start owed => start ≤ s.serial ∧ Settled s start owed

structure Inv (names : List Name) (s : State Name) : Prop where
  sound : Sound s
  known : ∀ task, task ∉ names → s.keys task = .absent
  holds : ∀ w, (s.pcs w).Holds names s

section Steps

variable [DecidableEq Name] {names : List Name} {s s' : State Name}

theorem Pc.Holds.advances {pc : Pc Name} (holds : pc.Holds names s) (advances : Advances s s') :
    pc.Holds names s' := by
  cases pc with
  | idle => exact holds
  | delete op => exact holds
  | retry op => exact holds
  | resetAll start owed =>
      exact ⟨le_trans holds.1 advances.serial, holds.2.advances holds.1 advances⟩

/-- A command of worker `w` keeps the invariant if it keeps the keys and the history in
agreement. -/
theorem Inv.command (inv : Inv names s) (command : Sound s' ∧ Advances s s')
    (known : ∀ task, task ∉ names → s'.keys task = .absent) {w : Nat} {pc : Pc Name}
    (pcs : s'.pcs = Function.update s.pcs w pc) (holds : pc.Holds names s') : Inv names s' := by
  refine ⟨command.1, known, ?_⟩
  intro w'
  rw [pcs]
  rcases eq_or_ne w' w with rfl | ne
  · rw [Function.update_self]
    exact holds
  · rw [Function.update_of_ne ne]
    exact (inv.holds w').advances command.2

/-- A command that moves no worker. -/
theorem Inv.aside (inv : Inv names s) (command : Sound s' ∧ Advances s s')
    (known : ∀ task, task ∉ names → s'.keys task = .absent) (pcs : s'.pcs = s.pcs) : Inv names s' :=
  ⟨command.1, known, fun w => pcs ▸ (inv.holds w).advances command.2⟩

theorem absent_of_update {keys : Name → Key} {task other : Name} {key : Key}
    (unknown : other ∉ names) (known : ∀ task, task ∉ names → keys task = .absent)
    (absent : task ∉ names → key = .absent) : Function.update keys task key other = .absent := by
  rcases eq_or_ne other task with rfl | ne
  · rw [Function.update_self]
    exact absent unknown
  · rw [Function.update_of_ne ne]
    exact known other unknown

/-- After a script its worker has returned or is about to delete the key. -/
theorem eval_pcs (s : State Name) (w : Nat) (op : Op Name) (again : Bool) :
    ∃ pc, (s.eval w op again).pcs = Function.update s.pcs w pc ∧
      (pc = .idle ∨ pc = .delete op) := by
  cases pruned : zremrangebyscore (op.now - rollingWindowSize) (s.keys op.task) <;>
    cases op <;> cases again <;> simp only [State.eval, pruned]
  all_goals first
    | exact ⟨.idle, rfl, Or.inl rfl⟩
    | exact ⟨.delete _, rfl, Or.inr rfl⟩

/-- What `SCAN` does not owe at its start has nothing to count. -/
theorem Inv.settled_start (inv : Inv names s) : Settled s s.serial (owedKeys names s) := by
  intro task owes f member _
  have absent : s.keys task = .absent := by
    by_contra present
    have listed : task ∈ names := by
      by_contra unknown
      exact present (inv.known task unknown)
    refine absurd (owes (task, s.gone task) ?_ rfl) (lt_irrefl _)
    exact List.mem_map.mpr ⟨task, List.mem_filter.mpr ⟨listed, decide_eq_true present⟩, rfl⟩
  have agrees := inv.sound.agrees task
  rw [absent] at agrees
  exact agrees_absent.mp agrees f member

/-- The end of a reset of everything: what it forgets is too old to count. -/
theorem Sound.forget (sound : Sound s) {start : Nat} {owed : List (Name × Nat)}
    (settled : Settled s start owed) (done : ∀ entry ∈ owed, entry.2 < s.gone entry.1)
    (pcs : Nat → Pc Name) : Sound { s with failures := s.forget start, pcs := pcs } ∧
      Advances s { s with failures := s.forget start, pcs := pcs } := by
  have remembered : ∀ task, ∀ f ∈ s.forget start task, f ∈ s.failures task :=
    fun task f member => (List.mem_filter.mp member).1
  have old : ∀ task, ∀ f ∈ s.failures task, decide (start ≤ f.serial) = false →
      f.stamp ≤ s.clock - rollingWindowSize := by
    intro task f member before
    refine settled task (fun entry owes same => same ▸ done entry owes) f member ?_
    exact not_le.mp (of_decide_eq_false before)
  refine ⟨⟨?_, fun task f member => sound.past task f (remembered task f member), sound.answers⟩,
    ⟨le_refl _, le_refl _, fun task f member => Or.inl (remembered task f member),
      fun _ => Or.inl rfl⟩⟩
  intro task
  show Agrees s.clock (s.keys task) (s.forget start task)
  have agrees := sound.agrees task
  cases key : s.keys task with
  | absent =>
      rw [key] at agrees
      exact Covers.forget _ agrees (old task)
  | zset scores expireAt =>
      rw [key] at agrees
      exact ⟨agrees.1.forget _ (old task), agrees.2⟩
  | hash =>
      rw [key] at agrees
      simp only [State.forget, show s.failures task = [] from agrees]
      rfl

/-! ## The run -/

/-- A script creates no key for a task it is not about. -/
theorem eval_known (inv : Inv names s) (w : Nat) {op : Op Name} (known : op.task ∈ names)
    (again : Bool) : ∀ task, task ∉ names → (s.eval w op again).keys task = .absent := by
  intro task unknown
  have ne : task ≠ op.task := fun same => unknown (same ▸ known)
  rw [← inv.known task unknown]
  cases pruned : zremrangebyscore (op.now - rollingWindowSize) (s.keys op.task) <;>
    cases op <;> cases again <;> simp only [State.eval, pruned]
  all_goals first
    | rfl
    | exact Function.update_of_ne ne ..

/-- One more script of a worker. -/
theorem Inv.eval (inv : Inv names s) (w : Nat) {op : Op Name} (known : op.task ∈ names)
    (later : s.clock ≤ op.now) (again : Bool) : Inv names (s.eval w op again) := by
  obtain ⟨pc, pcs, left⟩ := eval_pcs s w op again
  apply inv.command (inv.sound.eval op later again) (eval_known inv w known again) pcs
  rcases left with rfl | rfl
  · trivial
  · exact known

theorem batch_keys (tasks : List Name) : ∀ (s : State Name) (task : Name), s.keys task = .absent →
    (tasks.foldl State.reset s).keys task = .absent := by
  induction tasks with
  | nil => exact fun s task absent => absent
  | cons first rest ih =>
      intro s task absent
      apply ih _ task
      show Function.update s.keys first .absent task = .absent
      rw [Function.update_apply]
      split
      · rfl
      · exact absent

theorem batch_pcs (tasks : List Name) :
    ∀ s : State Name, (tasks.foldl State.reset s).pcs = s.pcs := by
  induction tasks with
  | nil => exact fun s => rfl
  | cons first rest ih => exact fun s => ih (s.reset first)

/-- A recovery that is clean deletes nothing that counts. -/
theorem Inv.clean (inv : Inv names s) {w : Nat} {op : Op Name} (at_delete : s.pcs w = .delete op)
    (clean : Clean s (.advance w)) : Agrees s.clock .absent (s.failures op.task) := by
  have agrees := inv.sound.agrees op.task
  simp only [Clean, wiped, at_delete] at clean
  cases key : s.keys op.task with
  | absent => exact key ▸ agrees
  | zset scores expireAt =>
      rw [key] at agrees clean
      exact agrees_absent.mpr fun f member =>
        agrees.1.old clean f.stamp (List.mem_map.mpr ⟨f, member, rfl⟩)
  | hash =>
      rw [key] at agrees
      rw [show s.failures op.task = [] from agrees]
      exact Covers.refl _ _

/-- **One step.** -/
theorem Inv.step {a : Act Name} (inv : Inv names s) (clean : Clean s a)
    (stepped : step names s a = some s') : Inv names s' := by
  cases a with
  | begin w op =>
      simp only [Broker.step, Option.ite_none_right_eq_some, Option.some.injEq] at stepped
      obtain ⟨⟨_, known, later⟩, rfl⟩ := stepped
      exact inv.eval w known later false
  | advance w =>
      have holds := inv.holds w
      cases at_w : s.pcs w with
      | delete op =>
          simp only [Broker.step, at_w, Option.some.injEq] at stepped
          subst stepped
          rw [at_w] at holds
          obtain ⟨sound, advances⟩ := inv.sound.del (inv.clean at_w clean)
          refine inv.command ⟨⟨sound.agrees, sound.past, sound.answers⟩,
            ⟨advances.clock, advances.serial, advances.kept, advances.gone⟩⟩ ?_ rfl holds
          intro task unknown
          exact absent_of_update unknown inv.known fun _ => rfl
      | retry op =>
          simp only [Broker.step, at_w, Option.ite_none_right_eq_some, Option.some.injEq] at stepped
          obtain ⟨later, rfl⟩ := stepped
          rw [at_w] at holds
          exact inv.eval w holds later true
      | idle | resetAll _ _ => simp [Broker.step, at_w] at stepped
  | reset task =>
      cases stepped
      refine inv.aside (inv.sound.reset task) ?_ rfl
      intro other unknown
      exact absent_of_update unknown inv.known fun _ => rfl
  | resetAll w =>
      simp only [Broker.step, Option.ite_none_right_eq_some, Option.some.injEq] at stepped
      obtain ⟨_, rfl⟩ := stepped
      exact inv.command (inv.sound.waited (le_refl _) _) inv.known rfl
        ⟨le_refl _, inv.settled_start⟩
  | batch w tasks =>
      cases at_w : s.pcs w with
      | resetAll start owed =>
          simp only [Broker.step, at_w, Option.some.injEq] at stepped
          subst stepped
          refine inv.aside (inv.sound.batch tasks) ?_ (batch_pcs tasks s)
          intro task unknown
          exact batch_keys tasks s task (inv.known task unknown)
      | idle | delete _ | retry _ => simp [Broker.step, at_w] at stepped
  | finish w =>
      have holds := inv.holds w
      cases at_w : s.pcs w with
      | resetAll start owed =>
          simp only [Broker.step, at_w, Option.ite_none_right_eq_some, Option.some.injEq] at stepped
          obtain ⟨done, rfl⟩ := stepped
          rw [at_w] at holds
          simp only [List.all_eq_true, decide_eq_true_eq] at done
          exact inv.command (inv.sound.forget holds.2 done _) inv.known rfl trivial
      | idle | delete _ | retry _ => simp [Broker.step, at_w] at stepped
  | tick now =>
      simp only [Broker.step, Option.ite_none_right_eq_some, Option.some.injEq] at stepped
      obtain ⟨later, rfl⟩ := stepped
      exact inv.aside (inv.sound.waited later s.pcs) inv.known rfl
  | expire task server =>
      have agrees := inv.sound.agrees task
      have dropped : Agrees s.clock .absent (s.failures task) ∧ s' = s.del task := by
        cases key : s.keys task with
        | absent => simp [Broker.step, key] at stepped
        | zset scores expireAt =>
            simp only [Broker.step, key, Option.ite_none_right_eq_some,
              Option.some.injEq] at stepped
            obtain ⟨⟨due, near⟩, rfl⟩ := stepped
            rw [key] at agrees
            exact ⟨agrees.expired due near, rfl⟩
        | hash =>
            simp only [Broker.step, key, Option.some.injEq] at stepped
            rw [key] at agrees
            refine ⟨?_, stepped.symm⟩
            rw [show s.failures task = [] from agrees]
            exact Covers.refl _ _
      obtain ⟨old, rfl⟩ := dropped
      refine inv.aside (inv.sound.del old) ?_ rfl
      intro other unknown
      exact absent_of_update unknown inv.known fun _ => rfl

/-- The keys this code has written, or a former version left, agree with their history. -/
theorem Start.inv (starts : Start names s) : Inv names s where
  sound := by
    refine ⟨?_, fun task f member => ⟨?_, starts.serials task f member⟩, ?_⟩
    · intro task
      have history := starts.history task
      cases key : s.keys task with
      | absent =>
          rw [key] at history
          show Covers _ [] (stamps (s.failures task))
          rw [history]
          exact Covers.refl _ _
      | zset scores expireAt =>
          rw [key] at history
          refine ⟨?_, fun score member => (starts.written task scores expireAt key score member).2⟩
          rw [history]
          exact Covers.refl _ _
      | hash =>
          rw [key] at history
          exact List.map_eq_nil_iff.mp history
    · have member : f.stamp ∈ (s.keys task).scores := by
        rw [← starts.history task]
        exact List.mem_map.mpr ⟨f, member, rfl⟩
      cases key : s.keys task with
      | zset scores expireAt =>
          rw [key] at member
          exact (starts.written task scores expireAt key _ member).1
      | absent | hash =>
          rw [key] at member
          cases member
    · intro d member
      rw [starts.undecided] at member
      cases member
  known := starts.known
  holds := fun w => by
    rw [starts.idle w]
    trivial

/-- **A sliding window.**  Whatever commands of whatever workers, resets and expiries
interleave, as long as no recovery deletes failures that still count: a dispatch is
refused iff at least ten failures were recorded, since the last reset of the task, in
the 300 s up to the check. -/
theorem refused_iff_of_reach (reached : Reach (step names) Clean (Start names) s) :
    ∀ d ∈ s.decisions, d.refused = true ↔
      10 ≤ (d.recorded.filter fun stamp => decide (d.now - 300 < stamp ∧ stamp ≤ d.now)).length :=
  (reached.invariant (I := Inv names) (fun _ starts => starts.inv)
    fun _ _ _ inv clean stepped => inv.step clean stepped).sound.answers

end Steps

/-! ## The run that loses failures -/

def legacy : State Unit where
  clock := 0
  keys := fun _ => .hash
  gone := fun _ => 0
  pcs := fun _ => .idle
  failures := fun _ => []
  serial := 0
  decisions := []

theorem legacy_start : Start [()] legacy where
  idle := fun _ => rfl
  undecided := rfl
  known := fun _ unknown => absurd (List.mem_singleton.mpr rfl) unknown
  history := fun _ => rfl
  serials := fun _ _ member => nomatch member
  written := fun _ _ _ key => nomatch key

/-- Ten failures within one second, and a check: the first worker recovers the key. -/
def tenFailures : List (Act Unit) :=
  [.begin 0 (.record () 1000), .advance 0, .advance 0] ++
    List.replicate 9 (.begin 1 (.record () 1000)) ++ [.begin 2 (.check () 1001)]

theorem refused_iff_of_reach_ten :
    ∃ s, Reach (step [()]) Clean (Start [()]) s ∧ (∃ d ∈ s.decisions, d.refused = true) ∧
      ∀ d ∈ s.decisions, d.refused = true ↔
        10 ≤ (d.recorded.filter fun stamp => decide (d.now - 300 < stamp ∧ stamp ≤ d.now)).length := by
  obtain ⟨s, reached, refused⟩ := exists_reach_of_run (step [()]) Clean legacy_start tenFailures
    (fun s => s.decisions.any (·.refused)) (by decide +kernel)
  exact ⟨s, reached, List.any_eq_true.mp refused, refused_iff_of_reach reached⟩

/-- Two workers get the WRONGTYPE reply; the second deletes the key after the first has
recovered it and nine more failures were recorded. -/
def twoRecoveries : List (Act Unit) :=
  [.begin 0 (.record () 1000), .begin 1 (.record () 1000), .advance 1, .advance 1] ++
    List.replicate 9 (.begin 2 (.record () 1000)) ++
    [.advance 0, .advance 0, .begin 3 (.check () 1001)]

/-- Eleven failures in the window and no reset, and the check lets the task through. -/
theorem recovery_wipes_window :
    ∃ s, Reach (step [()]) Always (Start [()]) s ∧ ∃ d ∈ s.decisions, d.refused = false ∧
      10 ≤ (d.recorded.filter fun stamp => decide (d.now - 300 < stamp ∧ stamp ≤ d.now)).length := by
  obtain ⟨s, reached, lost⟩ := exists_reach_of_run (step [()]) Always legacy_start twoRecoveries
    (fun s => s.decisions.any fun d => d.refused = false ∧
      10 ≤ (d.recorded.filter fun stamp => decide (d.now - 300 < stamp ∧ stamp ≤ d.now)).length)
    (by decide +kernel)
  obtain ⟨d, member, exceeds⟩ := List.any_eq_true.mp lost
  exact ⟨s, reached, d, member, of_decide_eq_true exceeds⟩

end Empyrean.Broker
