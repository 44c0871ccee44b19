/-
# Empyrean.Forecast.Retraining — the model key and the forecasts under it

`GET /forecast` asks Redis for the node's model and then for the forecast under that
model's stamp.  Where one of the two is missing it calls `generate_forecast`, which takes
the model from Redis or fits one, and stores what it fits and what it predicts.
`retrain_model` fits and stores a model for every active node.  A forecast never shows
under another stamp than its own; but the model key is written without a look at what is
there, so a fit that was overtaken by a retrain puts the older model back.

* `step` — one statement of one request or task, a tick of the clock, or a change of the
  tables; `floors` and `hits` are recorded for the statements alone.
* `Newest` — no retrained model whose TTL still runs is newer.
* `StoresNewest` — a model is stored only where it is the newest.
* `floor_of_setModel` — every model that a retrain stores is recorded as a floor.
* `newest_of_reach` — under that condition so is the model behind every hit.
* `rolled_back` — and without it a hit serves an older one.
-/
import Empyrean.Forecast.Regression
import Empyrean.Theory.CacheAside
import Empyrean.Theory.Expiry
import Empyrean.Theory.Runs

namespace Empyrean.Forecast

set_option autoImplicit false
set_option linter.unusedSectionVars false

open Empyrean.Ingest (SensorReading)
open Empyrean.Theory Empyrean.Theory.CacheAside Empyrean.Theory.Runs
open Empyrean.Theory.Expiry (Expired Expiring get_eq_some_iff)

/-- `SETEX`; the TTL of both kinds of keys is an hour. -/
def setex {α : Type} (value : α) (now : Int) : Expiring Int α := ⟨value, now + hourUs⟩

/-! ## The system -/

/-- The blob of a forecast, and the model it was computed from. -/
structure CachedForecast where
  points : List ForecastPoint
  source : Model

/-- A model that `retrain_model` has stored, and when its TTL runs out. -/
structure Floor where
  trainedAt : Int
  lapsesAt : Int
  deriving DecidableEq

section System

variable (Node : Type)

/-- Where a request or a task stands.  `known` are the floors of the node when it started. -/
inductive Pc
  | idle
  -- `GET /forecast`
  | checkNode (node : Node) (known : List Floor)
  | getModel (node : Node) (known : List Floor)
  | getForecast (node : Node) (known : List Floor) (version : Option Int)
  -- `generate_forecast`
  | generate (node : Node)
  | loadPoints (node : Node)
  | fit (node : Node) (points : List Sample)
  | cacheModel (node : Node) (model : Model)
  | predict (node : Node) (model : Model)
  | cacheForecast (node : Node) (forecast : CachedForecast)
  -- `retrain_model`
  | listNodes
  | loadAll (nodes : List Node)
  | train (todo : List (Node × List Sample))
  | setModel (node : Node) (model : Model) (todo : List (Node × List Sample))

/-- A `GET /forecast` that was answered from the cache. -/
structure Hit where
  node : Node
  known : List Floor
  servedAt : Int
  forecast : CachedForecast

structure State where
  clock : Int
  active : List Node
  readings : List (SensorReading Node)
  models : Node → Option (Expiring Int Model)
  forecasts : Node × Option Int → Option (Expiring Int CachedForecast)
  pcs : Nat → Pc Node
  floors : Node → List Floor
  hits : List (Hit Node)

inductive Action
  | get (p : Nat) (node : Node)
  | generate (p : Nat) (node : Node)
  | retrain (p : Nat)
  | advance (p : Nat)
  | tick (d : Nat)
  | setActive (nodes : List Node)
  | setReadings (readings : List (SensorReading Node))
  | evictModel (node : Node)
  | evictForecast (key : Node × Option Int)

end System

section Step

variable {Node : Type} [DecidableEq Node]

namespace State

variable (s : State Node)

def moveTo (p : Nat) (pc : Pc Node) : State Node := { s with pcs := Function.update s.pcs p pc }

def setModel (node : Node) (entry : Option (Expiring Int Model)) : State Node :=
  { s with models := Function.update s.models node entry }

def setForecast (key : Node × Option Int) (entry : Option (Expiring Int CachedForecast)) :
    State Node :=
  { s with forecasts := Function.update s.forecasts key entry }

/-- The retrained model is there for the length of its TTL. -/
def promise (node : Node) (model : Model) : State Node :=
  { s with
    floors := Function.update s.floors node
      ((model.trainedAt.map fun t => ⟨t, s.clock + hourUs⟩).toList ++ s.floors node) }

def serve (p : Nat) (node : Node) (known : List Floor) (forecast : CachedForecast) : State Node :=
  { s with
    hits := ⟨node, known, s.clock, forecast⟩ :: s.hits
    pcs := Function.update s.pcs p .idle }

end State

/-- One statement of process `p`. -/
def advance (fit : LinearRegression) (s : State Node) (p : Nat) : Option (State Node) :=
  match s.pcs p with
  | .idle => none
  | .checkNode node known =>
      some (s.moveTo p (if node ∈ s.active then .getModel node known else .idle))
  | .getModel node known =>
      match Expiry.get (s.models node) s.clock with
      | some model => some (s.moveTo p (.getForecast node known model.trainedAt))
      | none => some (s.moveTo p (.generate node))
  | .getForecast node known version =>
      match Expiry.get (s.forecasts (node, version)) s.clock with
      | some forecast => some (s.serve p node known forecast)
      | none => some (s.moveTo p (.generate node))
  | .generate node =>
      match (Expiry.get (s.models node) s.clock).filter (validModel · s.clock) with
      | some model => some (s.moveTo p (.predict node model))
      | none => some (s.moveTo p (.loadPoints node))
  | .loadPoints node => some (s.moveTo p (.fit node (trainingPoints s.readings node s.clock)))
  | .fit node points =>
      match fitModel fit points s.clock with
      | some model => some (s.moveTo p (.cacheModel node model))
      | none => some (s.moveTo p .idle)
  | .cacheModel node model =>
      some ((s.setModel node (some (setex model s.clock))).moveTo p (.predict node model))
  | .predict node model =>
      some (s.moveTo p (.cacheForecast node ⟨predictions model s.clock, model⟩))
  | .cacheForecast node forecast =>
      some ((s.setForecast (node, forecast.source.trainedAt) (some (setex forecast s.clock))).moveTo p .idle)
  | .listNodes => some (s.moveTo p (.loadAll s.active))
  | .loadAll nodes =>
      some (s.moveTo p (.train (nodes.map fun node => (node, trainingPoints s.readings node s.clock))))
  | .train [] => some (s.moveTo p .idle)
  | .train ((node, points) :: todo) =>
      match fitModel fit points s.clock with
      | some model => some (s.moveTo p (.setModel node model todo))
      | none => some (s.moveTo p (.train todo))
  | .setModel node model todo =>
      some (((s.setModel node (some (setex model s.clock))).promise node model).moveTo p (.train todo))

def start (s : State Node) (p : Nat) (pc : Pc Node) : Option (State Node) :=
  match s.pcs p with
  | .idle => some (s.moveTo p pc)
  | _ => none

def step (fit : LinearRegression) (s : State Node) : Action Node → Option (State Node)
  | .get p node => start s p (.checkNode node (s.floors node))
  | .generate p node => start s p (.generate node)
  | .retrain p => start s p .listNodes
  | .advance p => advance fit s p
  | .tick d => some { s with clock := s.clock + d }
  | .setActive nodes => some { s with active := nodes }
  | .setReadings readings => some { s with readings := readings }
  | .evictModel node => some (s.setModel node none)
  | .evictForecast key => some (s.setForecast key none)

/-! ## What is promised -/

/-- The points are those of the model. -/
def CachedForecast.Genuine (forecast : CachedForecast) : Prop :=
  ∃ now, forecast.points = predictions forecast.source now

/-- No retrain whose TTL still runs has stored a newer model. -/
def Newest (floors : List Floor) (now : Int) (trainedAt : Option Int) : Prop :=
  ∀ floor ∈ floors, ¬ Expired floor.lapsesAt now → ∃ t ∈ trainedAt, floor.trainedAt ≤ t

instance (floors : List Floor) (now : Int) (trainedAt : Option Int) :
    Decidable (Newest floors now trainedAt) :=
  inferInstanceAs (Decidable (∀ floor ∈ floors, _))

/-- **The condition**: a model is stored only where it is the newest. -/
def StoresNewest (s : State Node) : Action Node → Prop
  | .advance p =>
      match s.pcs p with
      | .cacheModel node model | .setModel node model _ =>
          Newest (s.floors node) s.clock model.trainedAt
      | _ => True
  | _ => True

instance (s : State Node) (a : Action Node) : Decidable (StoresNewest s a) := by
  unfold StoresNewest
  split
  · split <;> infer_instance
  · infer_instance

/-- No task is running; every cached forecast is one of a model with its version. -/
structure State.Start (s : State Node) : Prop where
  pcs : ∀ p, s.pcs p = .idle
  forecasts : ∀ key entry, s.forecasts key = some entry →
    entry.value.source.trainedAt = key.2 ∧ entry.value.Genuine
  floors : ∀ node, s.floors node = []
  hits : s.hits = []

/-- The answer is computed from a model, and from the newest there was. -/
structure Hit.Current (hit : Hit Node) : Prop where
  genuine : hit.forecast.Genuine
  newest : Newest hit.known hit.servedAt hit.forecast.source.trainedAt

def Pc.Owes (s : State Node) : Pc Node → Prop
  | .checkNode node known | .getModel node known => known ⊆ s.floors node
  | .getForecast _ known version => Newest known s.clock version
  | .cacheForecast _ forecast => forecast.Genuine
  | .setModel _ model _ => ∃ t, model.trainedAt = some t
  | _ => True

structure Inv (s : State Node) : Prop where
  models : Meets (fun node entry => Newest (s.floors node) s.clock entry.value.trainedAt) s.models
  forecasts :
    Meets (fun key entry => entry.value.source.trainedAt = key.2 ∧ entry.value.Genuine) s.forecasts
  owes : ∀ p, (s.pcs p).Owes s
  hits : ∀ hit ∈ s.hits, hit.Current

theorem Newest.later {floors : List Floor} {now now' : Int} {trainedAt : Option Int}
    (newest : Newest floors now trainedAt) (le : now ≤ now') : Newest floors now' trainedAt :=
  fun floor member running => newest floor member fun gone => running (gone.mono le)

theorem Newest.subset {floors known : List Floor} {now : Int} {trainedAt : Option Int}
    (newest : Newest floors now trainedAt) (subset : known ⊆ floors) : Newest known now trainedAt :=
  fun floor member => newest floor (subset member)

/-- A model is the newest beside its own floor. -/
theorem Newest.own {floors : List Floor} {now lapsesAt : Int} {trainedAt : Option Int}
    (newest : Newest floors now trainedAt) :
    Newest ((trainedAt.map fun t => (⟨t, lapsesAt⟩ : Floor)).toList ++ floors) now trainedAt := by
  intro floor member running
  rcases List.mem_append.mp member with own | before
  · obtain ⟨t, stamped, rfl⟩ := Option.map_eq_some_iff.mp (Option.mem_toList.mp own)
    exact ⟨t, stamped, le_rfl⟩
  · exact newest floor before running

/-! ## One step -/

variable {s s' : State Node} {p : Nat}

theorem Pc.Owes.grow {pc : Pc Node} (owes : pc.Owes s) (later : s.clock ≤ s'.clock)
    (more : ∀ node, s.floors node ⊆ s'.floors node) : pc.Owes s' := by
  cases pc with
  | checkNode node known => exact List.Subset.trans owes (more node)
  | getModel node known => exact List.Subset.trans owes (more node)
  | getForecast node known version => exact Newest.later owes later
  | cacheForecast node forecast => exact owes
  | setModel node model todo => exact owes
  | _ => trivial

theorem Inv.moveTo (inv : Inv s) {pc : Pc Node} (owes : pc.Owes s) : Inv (s.moveTo p pc) where
  models := inv.models
  forecasts := inv.forecasts
  owes := (Function.forall_update_iff s.pcs fun _ pc => pc.Owes s).mpr ⟨owes, fun q _ => inv.owes q⟩
  hits := inv.hits

theorem Inv.tick (inv : Inv s) (d : Nat) : Inv { s with clock := s.clock + d } where
  models := inv.models.mono fun _ _ newest => newest.later (by simp)
  forecasts := inv.forecasts
  owes := fun q => (inv.owes q).grow (by simp) fun _ => List.Subset.refl _
  hits := inv.hits

theorem Inv.setModel (inv : Inv s) {node : Node} {model : Model} {now : Int}
    (newest : Newest (s.floors node) s.clock model.trainedAt) :
    Inv (s.setModel node (some (setex model now))) where
  models := (meets_fill_iff inv.models).mpr newest
  forecasts := inv.forecasts
  owes := inv.owes
  hits := inv.hits

/-- What a retrain stores is the newest, and from then on the floor. -/
theorem Inv.promise (inv : Inv s) {node : Node} {model : Model} {now : Int}
    (newest : Newest (s.floors node) s.clock model.trainedAt) :
    Inv ((s.setModel node (some (setex model now))).promise node model) where
  models := by
    refine meets_replace inv.models ?_ ?_
    · intro other different entry held
      simp only [State.promise, Function.update_of_ne different]
      exact held
    · simp only [State.promise, Function.update_self]
      exact newest.own
  forecasts := inv.forecasts
  owes := by
    intro q
    refine (inv.owes q).grow le_rfl ?_
    intro other
    by_cases same : other = node
    · subst same
      simp only [State.promise, Function.update_self]
      exact List.subset_append_right _ _
    · simp only [State.promise, Function.update_of_ne same]
      exact List.Subset.refl _
  hits := inv.hits

theorem Inv.setForecast (inv : Inv s) (node : Node) {forecast : CachedForecast} {now : Int}
    (genuine : forecast.Genuine) :
    Inv (s.setForecast (node, forecast.source.trainedAt) (some (setex forecast now))) where
  models := inv.models
  forecasts := (meets_fill_iff inv.forecasts).mpr ⟨rfl, genuine⟩
  owes := inv.owes
  hits := inv.hits

theorem Inv.serve (inv : Inv s) {node : Node} {known : List Floor} {forecast : CachedForecast}
    (genuine : forecast.Genuine) (newest : Newest known s.clock forecast.source.trainedAt) :
    Inv (s.serve p node known forecast) where
  models := inv.models
  forecasts := inv.forecasts
  owes := by
    have idle : Inv (s.moveTo p .idle) := inv.moveTo trivial
    exact idle.owes
  hits := by
    intro hit member
    rcases List.mem_cons.mp member with rfl | before
    · exact ⟨genuine, newest⟩
    · exact inv.hits hit before

theorem inv_advance {fit : LinearRegression} (inv : Inv s) (newest : StoresNewest s (.advance p))
    (advanced : advance fit s p = some s') : Inv s' := by
  have owes := inv.owes p
  unfold advance at advanced
  simp only [StoresNewest] at newest
  cases here : s.pcs p with
  | idle => simp [here] at advanced
  | checkNode node known =>
      rw [here] at owes
      simp only [here, Option.some.injEq] at advanced
      subst advanced
      apply inv.moveTo
      split
      · exact owes
      · trivial
  | getModel node known =>
      rw [here] at owes
      simp only [here] at advanced
      split at advanced <;> cases advanced
      · rename_i model found
        obtain ⟨entry, stored, _, rfl⟩ := get_eq_some_iff.mp found
        exact inv.moveTo ((inv.models node entry stored).subset owes)
      · exact inv.moveTo trivial
  | getForecast node known version =>
      rw [here] at owes
      simp only [here] at advanced
      split at advanced <;> cases advanced
      · rename_i forecast found
        obtain ⟨entry, stored, _, rfl⟩ := get_eq_some_iff.mp found
        obtain ⟨same, genuine⟩ := inv.forecasts _ entry stored
        refine inv.serve genuine ?_
        rw [same]
        exact owes
      · exact inv.moveTo trivial
  | generate node =>
      simp only [here] at advanced
      split at advanced <;> cases advanced <;> exact inv.moveTo trivial
  | loadPoints node =>
      simp only [here, Option.some.injEq] at advanced
      exact advanced ▸ inv.moveTo trivial
  | fit node points =>
      simp only [here] at advanced
      split at advanced <;> cases advanced <;> exact inv.moveTo trivial
  | cacheModel node model =>
      simp only [here, Option.some.injEq] at advanced newest
      exact advanced ▸ (inv.setModel newest).moveTo trivial
  | predict node model =>
      simp only [here, Option.some.injEq] at advanced
      exact advanced ▸ inv.moveTo ⟨s.clock, rfl⟩
  | cacheForecast node forecast =>
      rw [here] at owes
      simp only [here, Option.some.injEq] at advanced
      exact advanced ▸ (inv.setForecast node owes).moveTo trivial
  | listNodes =>
      simp only [here, Option.some.injEq] at advanced
      exact advanced ▸ inv.moveTo trivial
  | loadAll nodes =>
      simp only [here, Option.some.injEq] at advanced
      exact advanced ▸ inv.moveTo trivial
  | train todo =>
      simp only [here] at advanced
      cases todo with
      | nil =>
          cases advanced
          exact inv.moveTo trivial
      | cons head todo =>
          simp only at advanced
          split at advanced <;> cases advanced
          · rename_i model fitted
            exact inv.moveTo ⟨s.clock, trainedAt_fitModel fitted⟩
          · exact inv.moveTo trivial
  | setModel node model todo =>
      simp only [here, Option.some.injEq] at advanced newest
      exact advanced ▸ (inv.promise newest).moveTo trivial

theorem inv_start {pc : Pc Node} (inv : Inv s) (started : start s p pc = some s')
    (owes : pc.Owes s) : Inv s' := by
  unfold start at started
  split at started <;> cases started
  exact inv.moveTo owes

theorem inv_step {fit : LinearRegression} {a : Action Node} (inv : Inv s)
    (newest : StoresNewest s a) (stepped : step fit s a = some s') : Inv s' := by
  cases a with
  | get p node => exact inv_start inv stepped (List.Subset.refl _)
  | generate p node => exact inv_start inv stepped trivial
  | retrain p => exact inv_start inv stepped trivial
  | advance p => exact inv_advance inv newest stepped
  | tick d =>
      cases stepped
      exact inv.tick d
  | setActive nodes =>
      cases stepped
      exact ⟨inv.models, inv.forecasts, inv.owes, inv.hits⟩
  | setReadings readings =>
      cases stepped
      exact ⟨inv.models, inv.forecasts, inv.owes, inv.hits⟩
  | evictModel node =>
      cases stepped
      exact ⟨meets_expire inv.models, inv.forecasts, inv.owes, inv.hits⟩
  | evictForecast key =>
      cases stepped
      exact ⟨inv.models, meets_expire inv.forecasts, inv.owes, inv.hits⟩

/-! ## Runs -/

theorem inv_of_start (start : s.Start) : Inv s where
  models := fun node _ _ floor member => by simp [start.floors node] at member
  forecasts := fun key entry stored => start.forecasts key entry stored
  owes := fun p => by rw [start.pcs p]; trivial
  hits := by simp [start.hits]

theorem inv_of_reach {fit : LinearRegression}
    (reached : Reach (step fit) StoresNewest State.Start s) : Inv s :=
  reached.invariant (fun _ => inv_of_start) fun _ _ _ inv newest stepped =>
    inv_step inv newest stepped

/-- Every model that a retrain stores leaves its floor. -/
theorem floor_of_setModel {fit : LinearRegression}
    (reached : Reach (step fit) StoresNewest State.Start s) {node : Node} {model : Model}
    {todo : List (Node × List Sample)} (here : s.pcs p = .setModel node model todo)
    (advanced : advance fit s p = some s') :
    ∃ t, model.trainedAt = some t ∧ ⟨t, s.clock + hourUs⟩ ∈ s'.floors node := by
  have owes := (inv_of_reach reached).owes p
  rw [here] at owes
  obtain ⟨t, stamped⟩ := owes
  simp only [advance, here, Option.some.injEq] at advanced
  subst advanced
  refine ⟨t, stamped, ?_⟩
  simp [State.moveTo, State.promise, State.setModel, stamped]

/-- **A retrained model is not rolled back** where every model is stored as the newest: each
hit serves the points of one model, and until its TTL runs out no retrain that had stored
before the request started is newer. -/
theorem newest_of_reach {fit : LinearRegression}
    (reached : Reach (step fit) StoresNewest State.Start s) : ∀ hit ∈ s.hits, hit.Current :=
  (inv_of_reach reached).hits

end Step

/-! ## One node with thirty readings of AQI 50 -/

section Runs

/-- The least-squares line through points of one height. -/
def level : LinearRegression := fun points => points.head?.map fun first => (0, first.2)

def reading (i : Nat) : SensorReading Unit where
  time := i * minuteUs
  node := ()
  temperature := none
  humidity := none
  pressure := none
  vocOhm := none
  mq135Ppm := none
  pm1 := none
  pm25 := none
  pm10 := none
  batteryV := none
  fuzzyScore := none
  aqi := some 50
  aqiCategory := none
  isAnomaly := false

def oneNode : State Unit where
  clock := 30 * minuteUs
  active := [()]
  readings := (List.range 30).map reading
  models := fun _ => none
  forecasts := fun _ => none
  pcs := fun _ => .idle
  floors := fun _ => []
  hits := []

theorem oneNode_start : oneNode.Start where
  pcs := fun _ => rfl
  forecasts := by rintro _ _ ⟨⟩
  floors := fun _ => rfl
  hits := rfl

/-- Process 1 retrains the node, ten seconds later. -/
def retraining : List (Action Unit) := .tick 10000000 :: .retrain 1 :: List.replicate 5 (.advance 1)

def retrained : Floor := ⟨1810000000, 1810000000 + hourUs⟩

/-- While the TTL of the retrained model runs, the hit serves a model of this stamp. -/
def Serves (stamp : Int) (hit : Hit Unit) : Prop :=
  retrained ∈ hit.known ∧ ¬ Expired retrained.lapsesAt hit.servedAt ∧
    hit.forecast.source.trainedAt = some stamp

instance (stamp : Int) (hit : Hit Unit) : Decidable (Serves stamp hit) :=
  inferInstanceAs (Decidable (_ ∧ _))

theorem newest_of_reach_retrained :
    ∃ s : State Unit, Reach (step level) StoresNewest State.Start s ∧
    (∃ hit ∈ s.hits, Serves 1810000000 hit) ∧ ∀ hit ∈ s.hits, hit.Current := by
  obtain ⟨s, reached, facts⟩ := exists_reach_of_run (step level) StoresNewest oneNode_start
    (retraining ++ [.get 0 ()] ++ List.replicate 6 (.advance 0) ++ [.get 2 ()] ++ List.replicate 3 (.advance 2))
    (fun s => decide (∃ hit ∈ s.hits, Serves 1810000000 hit)) (by decide +kernel)
  exact ⟨s, reached, of_decide_eq_true facts, newest_of_reach reached⟩

/-- A request fits a model before the retrain and stores it after. -/
theorem rolled_back :
    ∃ s : State Unit, Reach (step level) Always State.Start s ∧ ¬ ∀ hit ∈ s.hits, hit.Current := by
  obtain ⟨s, reached, facts⟩ :=
    exists_reach_of_run (step level) (Always : State Unit → Action Unit → Prop) oneNode_start
      ([.get 0 ()] ++ List.replicate 5 (.advance 0) ++ retraining ++ List.replicate 3 (.advance 0) ++
        [.get 2 ()] ++ List.replicate 3 (.advance 2))
      (fun s => decide (∃ hit ∈ s.hits, Serves 1800000000 hit)) (by decide +kernel)
  obtain ⟨hit, member, known, running, older⟩ := of_decide_eq_true facts
  refine ⟨s, reached, fun current => ?_⟩
  obtain ⟨t, stamped, newer⟩ := (current hit member).newest retrained known running
  rw [older] at stamped
  cases stamped
  exact absurd newer (by decide)

end Runs

end Empyrean.Forecast
