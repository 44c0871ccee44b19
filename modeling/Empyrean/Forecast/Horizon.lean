/-
# Empyrean.Forecast.Horizon — how much of a served forecast is still to come

A forecast is sixty points, one for each minute that follows its computation, and its key
lives an hour.  `GET /forecast` does not look at the times of what it finds there: a
forecast that was computed m minutes ago is served with its first m points in the past.

* `forecast` — the answer of `GET /forecast`, read off a state; `forecast_alone` — it is what
  the request's own statements come to.
* `Dated` — a state beside the clocks at which the forecasts in its cache were computed.
* `Ahead` — one point a minute, all in the hour that follows.
* `ahead_predictions_iff` — a forecast is ahead until its first minute is over.
* `ahead_iff` — in every reached state, exactly the answers that are computed for the request
  or come from a forecast younger than a minute are ahead.
* `served_from_the_past` — ten minutes later the answer starts in the past.
-/
import Empyrean.Forecast.Retraining
import Mathlib.Data.List.Range

namespace Empyrean.Forecast

set_option autoImplicit false
set_option linter.unusedSectionVars false

open Empyrean.Theory Empyrean.Theory.CacheAside Empyrean.Theory.Runs
open Empyrean.Theory.Expiry (get_eq_some_iff)

/-! ## Sixty minutes -/

/-- One minute apart, after `now` and at most sixty minutes after it, in whole seconds. -/
structure Ahead (now : Int) (points : List ForecastPoint) : Prop where
  minutely : points.IsChain fun earlier later => later.time = earlier.time + 60
  after : ∀ point ∈ points, now / secondUs < point.time
  within : ∀ point ∈ points, point.time ≤ now / secondUs + 60 * 60

theorem ahead_nil (now : Int) : Ahead now [] := ⟨.nil, by simp, by simp⟩

theorem time_predict (model : Model) (now : Int) (step : Nat) :
    (predict model now step).time = now / secondUs + 60 * step := by
  have whole : now + step * minuteUs = now + 60 * step * secondUs := by
    unfold minuteUs
    ring
  change (now + step * minuteUs) / secondUs = _
  rw [whole, Int.add_mul_ediv_right _ _ (by decide)]

theorem mem_predictions {model : Model} {now : Int} {point : ForecastPoint}
    (member : point ∈ predictions model now) :
    ∃ i < 60, point.time = now / secondUs + 60 * (i + 1 : Nat) := by
  obtain ⟨i, below, rfl⟩ := List.mem_map.mp member
  exact ⟨i, List.mem_range.mp below, time_predict model now (i + 1)⟩

theorem minutely_predictions (model : Model) (now : Int) :
    (predictions model now).IsChain fun earlier later => later.time = earlier.time + 60 := by
  unfold predictions
  rw [List.isChain_map, List.isChain_range]
  intro i _
  simp only [time_predict]
  push_cast
  ring

/-- **A forecast is ahead until its first minute is over.** -/
theorem ahead_predictions_iff (model : Model) {made now : Int} (before : made ≤ now) :
    Ahead now (predictions model made) ↔ now / secondUs < made / secondUs + 60 := by
  have seconds : made / secondUs ≤ now / secondUs := Int.ediv_le_ediv (by decide) before
  constructor
  · intro ahead
    have first : predict model made 1 ∈ predictions model made := List.mem_map.mpr ⟨0, by simp, rfl⟩
    simpa [time_predict] using ahead.after _ first
  · intro young
    refine ⟨minutely_predictions model made, ?_, ?_⟩
    · intro point member
      obtain ⟨i, _, time⟩ := mem_predictions member
      omega
    · intro point member
      obtain ⟨i, below, time⟩ := mem_predictions member
      omega

section Answer

variable {Node : Type} [DecidableEq Node]

/-! ## The answer -/

namespace State

variable (s : State Node)

/-- The key that `GET /forecast` looks under: the node and the stamp of its cached model. -/
def cachedKey (node : Node) : Option (Node × Option Int) :=
  (Expiry.get (s.models node) s.clock).map fun model => (node, model.trainedAt)

def cachedForecast (node : Node) : Option CachedForecast :=
  (s.cachedKey node).bind fun key => Expiry.get (s.forecasts key) s.clock

/-- `generate_forecast` -/
def generateForecast (fit : LinearRegression) (node : Node) : List ForecastPoint :=
  match (Expiry.get (s.models node) s.clock).filter (validModel · s.clock) with
  | some model => predictions model s.clock
  | none =>
      match fitModel fit (trainingPoints s.readings node s.clock) s.clock with
      | some model => predictions model s.clock
      | none => []

/-- `forecast`; `none` is the 404. -/
def forecast (fit : LinearRegression) (node : Node) : Option (List ForecastPoint) :=
  if node ∈ s.active then
    match s.cachedForecast node with
    | some cached => some cached.points
    | none => some (s.generateForecast fit node)
  else none

end State

variable {fit : LinearRegression} {s s' : State Node} {p : Nat}

theorem cachedForecast_eq_some {node : Node} {cached : CachedForecast} :
    s.cachedForecast node = some cached ↔
    ∃ model, Expiry.get (s.models node) s.clock = some model ∧
      Expiry.get (s.forecasts (node, model.trainedAt)) s.clock = some cached := by
  simp [State.cachedForecast, State.cachedKey, Option.bind_map, Option.bind_eq_some_iff]

/-- The answer is what the cache has, or is computed. -/
theorem forecast_eq_some {node : Node} {points : List ForecastPoint} :
    s.forecast fit node = some points ↔
    node ∈ s.active ∧ ((s.cachedForecast node = none ∧ s.generateForecast fit node = points) ∨
      ∃ cached, s.cachedForecast node = some cached ∧ cached.points = points) := by
  unfold State.forecast
  cases s.cachedForecast node <;> simp

/-- What is computed for the request is ahead. -/
theorem ahead_generateForecast (s : State Node) (node : Node) :
    Ahead s.clock (s.generateForecast fit node) := by
  have fresh (model : Model) : Ahead s.clock (predictions model s.clock) :=
    (ahead_predictions_iff model le_rfl).mpr (by omega)
  unfold State.generateForecast
  split
  · exact fresh _
  · split
    · exact fresh _
    · exact ahead_nil _

/-! ## The request alone -/

/-- Process `p` runs and the clock stands. -/
def Alone (fit : LinearRegression) (p : Nat) : State Node → State Node → Prop :=
  Relation.ReflTransGen fun s s' => advance fit s p = some s'

@[simp] theorem pcs_moveTo (s : State Node) (p : Nat) (pc : Pc Node) :
    (s.moveTo p pc).pcs p = pc := by
  simp [State.moveTo]

theorem alone_moveTo {pc : Pc Node} (advanced : advance fit s p = some (s.moveTo p pc))
    (rest : Alone fit p (s.moveTo p pc) s') : Alone fit p s s' :=
  Relation.ReflTransGen.head advanced rest

/-- Where the request stands when its points are computed. -/
def Computed (s' : State Node) (p : Nat) (node : Node) (points : List ForecastPoint) : Prop :=
  (∃ model, s'.pcs p = .cacheForecast node ⟨points, model⟩) ∨ points = [] ∧ s'.pcs p = .idle

variable (fit) in
theorem alone_predict {node : Node} {model : Model} (here : s.pcs p = .predict node model) :
    ∃ s', Alone fit p s s' ∧ Computed s' p node (predictions model s.clock) := by
  refine ⟨s.moveTo p (.cacheForecast node ⟨predictions model s.clock, model⟩), ?_,
    .inl ⟨model, pcs_moveTo ..⟩⟩
  exact Relation.ReflTransGen.single (by simp [advance, here])

variable (fit) in
theorem alone_fit {node : Node} {points : List Sample} (here : s.pcs p = .fit node points) :
    ∃ s', Alone fit p s s' ∧ Computed s' p node
      (match fitModel fit points s.clock with
        | some model => predictions model s.clock
        | none => []) := by
  cases fitted : fitModel fit points s.clock with
  | none =>
      refine ⟨s.moveTo p .idle, ?_, .inr ⟨rfl, pcs_moveTo ..⟩⟩
      exact Relation.ReflTransGen.single (by simp [advance, here, fitted])
  | some model =>
      have stores : advance fit s p = some (s.moveTo p (.cacheModel node model)) := by
        simp [advance, here, fitted]
      let stored := (s.moveTo p (.cacheModel node model)).setModel node (some (setex model s.clock))
      have turns : advance fit (s.moveTo p (.cacheModel node model)) p =
          some (stored.moveTo p (.predict node model)) := by
        simp only [advance, pcs_moveTo]
        rfl
      obtain ⟨s', ran, computed⟩ := alone_predict fit (pcs_moveTo stored p (.predict node model))
      exact ⟨s', alone_moveTo stores (.head turns ran), computed⟩

variable (fit) in
theorem alone_generate {node : Node} (here : s.pcs p = .generate node) :
    ∃ s', Alone fit p s s' ∧ Computed s' p node (s.generateForecast fit node) := by
  unfold State.generateForecast
  cases kept : (Expiry.get (s.models node) s.clock).filter (validModel · s.clock) with
  | some model =>
      obtain ⟨s', ran, computed⟩ := alone_predict fit (pcs_moveTo s p (.predict node model))
      exact ⟨s', alone_moveTo (by simp [advance, here, kept]) ran, computed⟩
  | none =>
      let loading := s.moveTo p (.loadPoints node)
      let points := trainingPoints s.readings node s.clock
      have loads : advance fit s p = some loading := by simp [advance, here, kept, loading]
      have fits : advance fit loading p = some (loading.moveTo p (.fit node points)) := by
        simp only [advance, loading, pcs_moveTo]
        rfl
      obtain ⟨s', ran, computed⟩ := alone_fit fit (pcs_moveTo loading p (.fit node points))
      exact ⟨s', alone_moveTo loads (alone_moveTo fits ran), computed⟩

/-- **The request alone comes to this answer**: it serves the points from the cache, or has
computed them. -/
theorem forecast_alone {node : Node} {known : List Floor} {points : List ForecastPoint}
    (here : s.pcs p = .checkNode node known) (answered : s.forecast fit node = some points) :
    ∃ s', Alone fit p s s' ∧
      ((∃ cached, cached.points = points ∧ s'.hits = ⟨node, known, s.clock, cached⟩ :: s.hits) ∨
        Computed s' p node points) := by
  obtain ⟨active, answer⟩ := forecast_eq_some.mp answered
  let asking := s.moveTo p (.getModel node known)
  have asks : advance fit s p = some asking := by simp [advance, here, active, asking]
  let looking (model : Model) := asking.moveTo p (.getForecast node known model.trainedAt)
  have looks {model : Model} (held : Expiry.get (s.models node) s.clock = some model) :
      advance fit asking p = some (looking model) := by
    simp [advance, asking, looking, State.moveTo, held]
  rcases answer with ⟨missed, rfl⟩ | ⟨cached, hit, rfl⟩
  · cases held : Expiry.get (s.models node) s.clock with
    | none =>
        have misses : advance fit asking p = some (asking.moveTo p (.generate node)) := by
          simp [advance, asking, State.moveTo, held]
        obtain ⟨s', ran, computed⟩ := alone_generate fit (pcs_moveTo asking p (.generate node))
        exact ⟨s', alone_moveTo asks (alone_moveTo misses ran), .inr computed⟩
    | some model =>
        have absent : Expiry.get (s.forecasts (node, model.trainedAt)) s.clock = none := by
          simpa [State.cachedForecast, State.cachedKey, held] using missed
        have misses : advance fit (looking model) p =
            some ((looking model).moveTo p (.generate node)) := by
          simp [advance, looking, asking, State.moveTo, absent]
        obtain ⟨s', ran, computed⟩ :=
          alone_generate fit (pcs_moveTo (looking model) p (.generate node))
        exact ⟨s', alone_moveTo asks (alone_moveTo (looks held) (alone_moveTo misses ran)),
          .inr computed⟩
  · obtain ⟨model, held, found⟩ := cachedForecast_eq_some.mp hit
    have serves : advance fit (looking model) p =
        some ((looking model).serve p node known cached) := by
      simp [advance, looking, asking, State.moveTo, found]
    exact ⟨_, alone_moveTo asks (alone_moveTo (looks held) (.single serves)),
      .inl ⟨cached, rfl, rfl⟩⟩

end Answer

/-! ## When a forecast was computed -/

/-- A state beside the clocks at which its forecasts were computed. -/
structure Dated (Node : Type) where
  state : State Node
  /-- When a process last predicted. -/
  predictedAt : Nat → Int
  /-- When the forecast under a key was predicted. -/
  dates : Node × Option Int → Int

section Dates

variable {Node : Type} [DecidableEq Node]

namespace Dated

/-- What a step leaves recorded. -/
def note (d : Dated Node) : Action Node → Dated Node
  | .advance p =>
      match d.state.pcs p with
      | .predict _ _ => { d with predictedAt := Function.update d.predictedAt p d.state.clock }
      | .cacheForecast node forecast =>
          { d with
            dates := Function.update d.dates (node, forecast.source.trainedAt) (d.predictedAt p) }
      | _ => d
  | _ => d

def step (fit : LinearRegression) (d : Dated Node) (a : Action Node) : Option (Dated Node) :=
  (Forecast.step fit d.state a).map fun s' => { d.note a with state := s' }

/-- No task is running; every cached forecast is one of a model with its version, and its date
is the one at which it was computed. -/
structure Start (d : Dated Node) : Prop where
  plain : d.state.Start
  dated : ∀ key entry, d.state.forecasts key = some entry →
    entry.value.points = predictions entry.value.source (d.dates key) ∧ d.dates key ≤ d.state.clock

/-- **The condition**: the request finds no forecast, or one whose first minute is not over. -/
def FindsYoung (d : Dated Node) (node : Node) : Prop :=
  ∀ key ∈ d.state.cachedKey node, (Expiry.get (d.state.forecasts key) d.state.clock).isSome →
    d.state.clock / secondUs < d.dates key / secondUs + 60

instance (d : Dated Node) (node : Node) : Decidable (d.FindsYoung node) :=
  inferInstanceAs (Decidable (∀ key ∈ d.state.cachedKey node, _))

/-- The forecast was computed at this clock, which is not later than the present one. -/
def Made (d : Dated Node) (forecast : CachedForecast) (made : Int) : Prop :=
  forecast.points = predictions forecast.source made ∧ made ≤ d.state.clock

structure Inv (d : Dated Node) : Prop where
  forecasts : Meets (fun key entry => d.Made entry.value (d.dates key)) d.state.forecasts
  owes : ∀ p node forecast, d.state.pcs p = .cacheForecast node forecast →
    d.Made forecast (d.predictedAt p)

end Dated

/-! ## One step -/

/-- The clock does not go back, no forecast comes in and none is about to. -/
structure Quiet (s s' : State Node) : Prop where
  clock : s.clock ≤ s'.clock
  forecasts : ∀ key entry, s'.forecasts key = some entry → s.forecasts key = some entry
  pcs : ∀ p node forecast, s'.pcs p = .cacheForecast node forecast →
    s.pcs p = .cacheForecast node forecast

variable {fit : LinearRegression} {s s' : State Node} {p : Nat}

/-- Process `p` turns to another statement than `cacheForecast`. -/
theorem quiet_turn {pc : Pc Node} (other : ∀ node forecast, pc ≠ .cacheForecast node forecast)
    (clock : s'.clock = s.clock) (forecasts : s'.forecasts = s.forecasts)
    (pcs : s'.pcs = Function.update s.pcs p pc) : Quiet s s' where
  clock := clock.ge
  forecasts := fun key entry stored => forecasts ▸ stored
  pcs := by
    intro q node forecast stands
    rw [pcs] at stands
    by_cases same : q = p
    · subst same
      rw [Function.update_self] at stands
      exact absurd stands (other node forecast)
    · rwa [Function.update_of_ne same] at stands

/-- Every statement but two leaves the forecasts alone. -/
theorem quiet_advance (noPredict : ∀ node model, s.pcs p ≠ .predict node model)
    (noCache : ∀ node forecast, s.pcs p ≠ .cacheForecast node forecast)
    (advanced : advance fit s p = some s') : Quiet s s' := by
  unfold advance at advanced
  cases here : s.pcs p with
  | predict node model => exact absurd here (noPredict node model)
  | cacheForecast node forecast => exact absurd here (noCache node forecast)
  | idle => simp [here] at advanced
  | checkNode node known =>
      simp only [here, Option.some.injEq] at advanced
      subst advanced
      refine quiet_turn ?_ rfl rfl rfl
      split <;> simp
  | getModel node known =>
      simp only [here] at advanced
      split at advanced <;> cases advanced <;> exact quiet_turn (by simp) rfl rfl rfl
  | getForecast node known version =>
      simp only [here] at advanced
      split at advanced <;> cases advanced
      · exact quiet_turn (fun _ _ => by simp) rfl rfl (Eq.refl (Function.update s.pcs p .idle))
      · exact quiet_turn (by simp) rfl rfl rfl
  | generate node =>
      simp only [here] at advanced
      split at advanced <;> cases advanced <;> exact quiet_turn (by simp) rfl rfl rfl
  | fit node points =>
      simp only [here] at advanced
      split at advanced <;> cases advanced <;> exact quiet_turn (by simp) rfl rfl rfl
  | train todo =>
      simp only [here] at advanced
      cases todo with
      | nil =>
          cases advanced
          exact quiet_turn (by simp) rfl rfl rfl
      | cons head todo =>
          simp only at advanced
          split at advanced <;> cases advanced <;> exact quiet_turn (by simp) rfl rfl rfl
  | _ =>
      simp only [here, Option.some.injEq] at advanced
      exact advanced ▸ quiet_turn (by simp) rfl rfl rfl

/-- What a statement does to the forecasts. -/
theorem advance_cases (advanced : advance fit s p = some s') :
    (∃ node model, s.pcs p = .predict node model ∧
      s' = s.moveTo p (.cacheForecast node ⟨predictions model s.clock, model⟩)) ∨
    (∃ node forecast, s.pcs p = .cacheForecast node forecast ∧
      s' = (s.setForecast (node, forecast.source.trainedAt) (some (setex forecast s.clock))).moveTo p .idle) ∨
    ((∀ node model, s.pcs p ≠ .predict node model) ∧
      (∀ node forecast, s.pcs p ≠ .cacheForecast node forecast) ∧
      Quiet s s') := by
  by_cases predicts : ∃ node model, s.pcs p = .predict node model
  · obtain ⟨node, model, here⟩ := predicts
    simp only [advance, here, Option.some.injEq] at advanced
    exact .inl ⟨node, model, here, advanced.symm⟩
  by_cases caches : ∃ node forecast, s.pcs p = .cacheForecast node forecast
  · obtain ⟨node, forecast, here⟩ := caches
    simp only [advance, here, Option.some.injEq] at advanced
    exact .inr (.inl ⟨node, forecast, here, advanced.symm⟩)
  · have noPredict : ∀ node model, s.pcs p ≠ .predict node model :=
      fun node model here => predicts ⟨node, model, here⟩
    have noCache : ∀ node forecast, s.pcs p ≠ .cacheForecast node forecast :=
      fun node forecast here => caches ⟨node, forecast, here⟩
    exact .inr (.inr ⟨noPredict, noCache, quiet_advance noPredict noCache advanced⟩)

namespace Dated

variable {d d' : Dated Node}

theorem Inv.quiet (inv : d.Inv) (quiet : Quiet d.state s') : Inv { d with state := s' } where
  forecasts := by
    intro key entry stored
    obtain ⟨points, before⟩ := inv.forecasts key entry (quiet.forecasts key entry stored)
    exact ⟨points, before.trans quiet.clock⟩
  owes := by
    intro q node forecast here
    obtain ⟨points, before⟩ := inv.owes q node forecast (quiet.pcs q node forecast here)
    exact ⟨points, before.trans quiet.clock⟩

theorem Inv.predict (inv : d.Inv) (p : Nat) (node : Node) (model : Model) :
    Inv { d with
      state := d.state.moveTo p (.cacheForecast node ⟨predictions model d.state.clock, model⟩)
      predictedAt := Function.update d.predictedAt p d.state.clock } where
  forecasts := inv.forecasts
  owes := by
    intro q node' forecast stands
    by_cases same : q = p
    · subst same
      rw [pcs_moveTo] at stands
      cases stands
      refine ⟨?_, ?_⟩ <;> simp [State.moveTo]
    · simp only [State.moveTo, Function.update_of_ne same] at stands
      simp only [Made, State.moveTo, Function.update_of_ne same]
      exact inv.owes q node' forecast stands

/-- What is cached carries the date at which its process predicted. -/
theorem Inv.cacheForecast (inv : d.Inv) {node : Node} {forecast : CachedForecast}
    (here : d.state.pcs p = .cacheForecast node forecast) :
    Inv { d with
      state :=
  (d.state.setForecast (node, forecast.source.trainedAt) (some (setex forecast d.state.clock))).moveTo p .idle
      dates := Function.update d.dates (node, forecast.source.trainedAt) (d.predictedAt p) } where
  forecasts := by
    refine meets_replace inv.forecasts ?_ ?_
    · intro key different entry made
      simp only [Function.update_of_ne different]
      exact made
    · simp only [Function.update_self]
      exact inv.owes p node forecast here
  owes := by
    intro q node' forecast' stands
    by_cases same : q = p
    · subst same
      rw [pcs_moveTo] at stands
      cases stands
    · simp only [State.moveTo, Function.update_of_ne same] at stands
      exact inv.owes q node' forecast' stands

theorem inv_advance (inv : d.Inv) (advanced : advance fit d.state p = some s') :
    Inv { d.note (.advance p) with state := s' } := by
  obtain ⟨node, model, here, rfl⟩ | ⟨node, forecast, here, rfl⟩ | ⟨noPredict, noCache, quiet⟩ :=
    advance_cases advanced
  · simp only [note, here]
    exact inv.predict p node model
  · simp only [note, here]
    exact inv.cacheForecast here
  · have same : d.note (.advance p) = d := by simp only [note]
    rw [same]
    exact inv.quiet quiet

theorem quiet_start {pc : Pc Node} (other : ∀ node forecast, pc ≠ .cacheForecast node forecast)
    (started : start s p pc = some s') : Quiet s s' := by
  unfold start at started
  split at started <;> cases started
  exact quiet_turn other rfl rfl rfl

theorem inv_step {a : Action Node} (inv : d.Inv) (stepped : d.step fit a = some d') : d'.Inv := by
  obtain ⟨s', moved, rfl⟩ := Option.map_eq_some_iff.mp stepped
  cases a with
  | advance p => exact inv_advance inv moved
  | get p node => exact inv.quiet (quiet_start (by simp) moved)
  | generate p node => exact inv.quiet (quiet_start (by simp) moved)
  | retrain p => exact inv.quiet (quiet_start (by simp) moved)
  | tick passed =>
      cases moved
      exact inv.quiet ⟨by simp, fun _ _ stored => stored, fun _ _ _ stands => stands⟩
  | setActive nodes =>
      cases moved
      exact inv.quiet ⟨le_rfl, fun _ _ stored => stored, fun _ _ _ stands => stands⟩
  | setReadings readings =>
      cases moved
      exact inv.quiet ⟨le_rfl, fun _ _ stored => stored, fun _ _ _ stands => stands⟩
  | evictModel node =>
      cases moved
      exact inv.quiet ⟨le_rfl, fun _ _ stored => stored, fun _ _ _ stands => stands⟩
  | evictForecast key =>
      cases moved
      exact ⟨meets_expire inv.forecasts, inv.owes⟩

/-! ## Runs -/

theorem inv_of_start (start : d.Start) : d.Inv where
  forecasts := start.dated
  owes := fun p node forecast here => by rw [start.plain.pcs p] at here; cases here

theorem inv_of_reach (reached : Reach (step fit) Always Start d) : d.Inv :=
  reached.invariant (fun _ => inv_of_start) fun _ _ _ inv _ stepped => inv_step inv stepped

/-- The dates are recorded only: these are the runs of the system. -/
theorem reach_state (reached : Reach (step fit) Always Start d) :
    Reach (Forecast.step fit) Always State.Start d.state := by
  refine reached.image Dated.state (fun _ start => start.plain) (fun _ _ _ => trivial) ?_
  intro d a d' stepped
  obtain ⟨s', moved, rfl⟩ := Option.map_eq_some_iff.mp stepped
  exact moved

theorem exists_dated (start : d.Start)
    (reached : Reach (Forecast.step fit) Always (fun x => x = d.state) s) :
    ∃ d', Reach (step fit) Always Start d' ∧ d'.state = s := by
  induction reached with
  | init same => exact ⟨d, .init start, same.symm⟩
  | next a _ _ stepped ih =>
      obtain ⟨d', earlier, rfl⟩ := ih
      exact ⟨_, .next a earlier trivial (Option.map_eq_some_iff.mpr ⟨_, stepped, rfl⟩), rfl⟩

/-- **An answer is ahead of its request**, which is handled at one reading of the clock, exactly
where it does not come from a forecast whose first minute is over. -/
theorem ahead_iff (reached : Reach (step fit) Always Start d) {node : Node}
    {points : List ForecastPoint} (answered : d.state.forecast fit node = some points) :
    Ahead d.state.clock points ↔ d.FindsYoung node := by
  have inv := inv_of_reach reached
  rcases (forecast_eq_some.mp answered).2 with ⟨missed, rfl⟩ | ⟨cached, hit, rfl⟩
  · refine iff_of_true (ahead_generateForecast d.state node) fun key keyed found => ?_
    rw [State.cachedForecast, keyed, Option.bind_some] at missed
    rw [missed] at found
    cases found
  · obtain ⟨key, keyed, found⟩ := Option.bind_eq_some_iff.mp hit
    obtain ⟨entry, stored, _, rfl⟩ := get_eq_some_iff.mp found
    obtain ⟨points, before⟩ := inv.forecasts key entry stored
    rw [points, ahead_predictions_iff _ before]
    simp [FindsYoung, keyed, found]

end Dated

end Dates

/-! ## A request ten minutes later -/

section Runs

def oneNodeDated : Dated Unit := ⟨oneNode, fun _ => 0, fun _ => 0⟩

theorem oneNodeDated_start : oneNodeDated.Start := ⟨oneNode_start, by rintro _ _ ⟨⟩⟩

/-- Process 0 is asked, and fits, predicts and caches. -/
def asked : List (Action Unit) := .get 0 () :: List.replicate 8 (.advance 0)

/-- The request finds a forecast, and it is young. -/
def Served (young : Bool) (d : Dated Unit) : Prop :=
  (d.state.cachedForecast ()).isSome ∧ (d.state.forecast level ()).isSome ∧
    decide (d.FindsYoung ()) = young

instance (young : Bool) (d : Dated Unit) : Decidable (Served young d) :=
  inferInstanceAs (Decidable (_ ∧ _))

theorem ahead_iff_asked :
    (∃ d : Dated Unit, Reach (Dated.step level) Always Dated.Start d ∧ Served true d ∧
      ∃ points, d.state.forecast level () = some points ∧ Ahead d.state.clock points) ∧
    ∃ d : Dated Unit, Reach (Dated.step level) Always Dated.Start d ∧ Served false d ∧
      ∃ points, d.state.forecast level () = some points ∧ ¬ Ahead d.state.clock points := by
  constructor
  · obtain ⟨d, reached, facts⟩ := exists_reach_of_run (Dated.step level) Always oneNodeDated_start
      (asked ++ [.tick 30000000]) (fun d => decide (Served true d)) (by decide +kernel)
    obtain ⟨found, answers, young⟩ := of_decide_eq_true facts
    obtain ⟨points, answered⟩ := Option.isSome_iff_exists.mp answers
    exact ⟨d, reached, ⟨found, answers, young⟩, points, answered,
      (Dated.ahead_iff reached answered).mpr (of_decide_eq_true young)⟩
  · obtain ⟨d, reached, facts⟩ := exists_reach_of_run (Dated.step level) Always oneNodeDated_start
      (asked ++ [.tick 600000000]) (fun d => decide (Served false d)) (by decide +kernel)
    obtain ⟨found, answers, old⟩ := of_decide_eq_true facts
    obtain ⟨points, answered⟩ := Option.isSome_iff_exists.mp answers
    exact ⟨d, reached, ⟨found, answers, old⟩, points, answered, fun ahead =>
      of_decide_eq_false old ((Dated.ahead_iff reached answered).mp ahead)⟩

/-- At 0:40 the forecast of 0:30 is served. -/
theorem served_from_the_past :
    ∃ s : State Unit, Reach (step level) Always State.Start s ∧ s.clock = 40 * minuteUs ∧
    ∃ points, s.forecast level () = some points ∧ ¬ Ahead s.clock points := by
  obtain ⟨s, reached, facts⟩ :=
    exists_reach_of_run (step level) Always oneNode_start (asked ++ [.tick 600000000])
      (fun s => decide (s.clock = 40 * minuteUs ∧
        ((s.forecast level ()).map fun points => points.head?.map (·.time)) = some (some (31 * 60))))
        (by decide +kernel)
  obtain ⟨clock, first⟩ := of_decide_eq_true facts
  obtain ⟨points, answered, starts⟩ := Option.map_eq_some_iff.mp first
  obtain ⟨point, head, time⟩ := Option.map_eq_some_iff.mp starts
  refine ⟨s, reached, clock, points, answered, fun ahead => ?_⟩
  have after := ahead.after point (List.mem_of_head? head)
  rw [clock, time] at after
  exact absurd after (by decide)

end Runs

end Empyrean.Forecast
