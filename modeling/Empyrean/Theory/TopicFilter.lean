/-
# Empyrean.Theory.TopicFilter — topic names and the filters that subscribe to them

A topic name is a path of levels; a filter names levels, or leaves one open with `+`, or all
that follow with `#`.  Levels may be empty.

* `Level`, `parse`, `Matches` — a filter and the paths it takes; `#` takes its parent too.
* `delivers` — a filter and a topic as texts; a wildcard does not take the topics of the
  broker itself, which start with `$`.
* `levels_injective` — a path determines its topic.
* `matches_exact_cons`, `matches_plus_cons` — a filter is read level by level.
-/
import Mathlib.Data.List.Basic

namespace Empyrean.Theory.TopicFilter

set_option autoImplicit false

/-- The levels of a topic name or of a filter. -/
def levels (topic : List Char) : List (List Char) := topic.splitOn '/'

inductive Level
  | exact (name : List Char)
  | plus
  | hash
  deriving DecidableEq

def Level.parse (text : List Char) : Level :=
  if text = ['+'] then .plus else if text = ['#'] then .hash else .exact text

def parse (filter : List Char) : List Level := (levels filter).map Level.parse

def Matches : List Level → List (List Char) → Bool
  | [.hash], _ => true
  | .plus :: rest, _ :: topic => Matches rest topic
  | .exact name :: rest, level :: topic => decide (name = level) && Matches rest topic
  | [], [] => true
  | _, _ => false

/-- The broker sends a message on `topic` to a subscription to `filter`. -/
def delivers (filter topic : List Char) : Bool :=
  Matches (parse filter) (levels topic) &&
    !(decide (topic.head? = some '$') && decide ((parse filter).head? = some .plus ∨ (parse filter).head? = some .hash))

/-! ## Paths -/

theorem levels_cons {name rest : List Char} (clean : '/' ∉ name) :
    levels (name ++ '/' :: rest) = name :: levels rest :=
  List.splitOn_append_cons_self_of_not_mem clean rest

theorem levels_single {name : List Char} (clean : '/' ∉ name) : levels name = [name] :=
  List.splitOn_eq_singleton clean

/-- A path is its levels. -/
theorem levels_injective {topic topic' : List Char} (same : levels topic = levels topic') :
    topic = topic' := by
  have back : ['/'].intercalate (levels topic) = ['/'].intercalate (levels topic') :=
    congrArg _ same
  simpa [levels] using back

/-- No level holds a separator. -/
theorem clean_of_mem_levels {topic name : List Char} (member : name ∈ levels topic) :
    '/' ∉ name := by
  induction topic generalizing name with
  | nil =>
      obtain rfl : name = [] := by simpa [levels] using member
      exact List.not_mem_nil
  | cons c rest ih =>
      rw [levels, List.splitOn_cons_eq_if_modifyHead] at member
      split at member
      · rcases List.mem_cons.mp member with rfl | member
        · exact List.not_mem_nil
        · exact ih member
      · rename_i different
        cases below : rest.splitOn '/' with
        | nil => exact absurd below (List.splitOn_ne_nil _ _)
        | cons head tail =>
            rw [below, List.modifyHead_cons] at member
            rcases List.mem_cons.mp member with rfl | member
            · have clean : '/' ∉ head := ih (by rw [levels, below]; exact List.mem_cons_self)
              intro inside
              rcases List.mem_cons.mp inside with rfl | inside
              · exact different (by simp)
              · exact clean inside
            · exact ih (by rw [levels, below]; exact List.mem_cons_of_mem _ member)

/-! ## Filters -/

theorem parse_exact {name : List Char} (noPlus : name ≠ ['+']) (noHash : name ≠ ['#']) :
    Level.parse name = .exact name := by
  rw [Level.parse, if_neg noPlus, if_neg noHash]

@[simp] theorem matches_exact_cons (name : List Char) (rest : List Level)
    (topic : List (List Char)) : Matches (.exact name :: rest) topic = true ↔
      ∃ below, topic = name :: below ∧ Matches rest below = true := by
  cases topic with
  | nil => simp [Matches]
  | cons level below =>
      simp only [Matches, Bool.and_eq_true, decide_eq_true_eq, List.cons.injEq]
      constructor
      · rintro ⟨rfl, matched⟩
        exact ⟨below, ⟨rfl, rfl⟩, matched⟩
      · rintro ⟨_, ⟨rfl, rfl⟩, matched⟩
        exact ⟨rfl, matched⟩

@[simp] theorem matches_plus_cons (rest : List Level) (topic : List (List Char)) :
    Matches (.plus :: rest) topic = true ↔
      ∃ level below, topic = level :: below ∧ Matches rest below = true := by
  cases topic with
  | nil => simp [Matches]
  | cons level below => simp [Matches]

@[simp] theorem matches_nil (topic : List (List Char)) : Matches [] topic = true ↔ topic = [] := by
  cases topic <;> simp [Matches]

/-- Only a wildcard at the start keeps the broker's own topics out. -/
theorem delivers_iff {filter topic name : List Char} {rest : List Level}
    (first : parse filter = .exact name :: rest) :
    delivers filter topic = true ↔ Matches (parse filter) (levels topic) = true := by
  simp [delivers, first]

end Empyrean.Theory.TopicFilter
