/-
# Empyrean.Ingest.Delivery — what the worker does with an accepted payload

For a payload that the gate let through and an active node, a run of `process_reading`
either stores the row, or drops it because its primary key is taken, or raises.

* `processReading_ok_iff` — it raises exactly where the payload cannot be stored: the
  UTC instant of its time has no `datetime`, or a value does not convert to REAL.  The
  enriched columns never fail.
* `gains_one_iff` — any number of deliveries add at most one row exactly where the
  payload cannot be stored, or its time is taken over unchanged at every delivery, or all
  deliveries read the same clock.
* `worker_raises`, `two_rows` — payloads that fail the two.
-/
import Empyrean.Ingest.Worker

namespace Empyrean.Ingest

set_option autoImplicit false

open Empyrean.Theory.PyNumeral Empyrean.Theory.Rounding

variable {Node : Type}

/-! ## The row of a payload -/

/-- The payload has a row: its time is a UTC `datetime`, its values are REAL. -/
def ReadingPayload.Storable (payload : ReadingPayload Node) : Prop :=
  (∀ dt ∈ payload.time, Representable dt.instant) ∧ ∀ f, ∀ v ∈ payload.value f, FitsReal v

instance (payload : ReadingPayload Node) : Decidable payload.Storable :=
  inferInstanceAs (Decidable (_ ∧ _))

/-- The timestamp of a delivery at the clock `now`. -/
def ReadingPayload.stampAt (payload : ReadingPayload Node) (now : Int) : Int :=
  stamp (payload.time.map Datetime.instant) now

/-- The time of the payload, or the clock where that is a day off or missing. -/
theorem ReadingPayload.stampAt_cases (payload : ReadingPayload Node) (now : Int) :
    (∃ dt ∈ payload.time, InWindow dt.instant now ∧ payload.stampAt now = dt.instant) ∨
      (∀ dt ∈ payload.time, ¬ InWindow dt.instant now) ∧ payload.stampAt now = now := by
  unfold stampAt
  cases payload.time with
  | none =>
      right
      refine ⟨?_, rfl⟩
      rintro dt ⟨⟩
  | some dt =>
      by_cases near : InWindow dt.instant now
      · exact Or.inl ⟨dt, rfl, near, if_pos near⟩
      · right
        refine ⟨?_, if_neg near⟩
        rintro _ ⟨⟩
        exact near

theorem validFloat_dump (payload : ReadingPayload Node) (f : Sensor) :
    validFloat (payload.dump.value f) = payload.value f := by
  show validFloat ((payload.value f).map .fin) = payload.value f
  cases payload.value f <;> rfl

theorem parseTime_dump (payload : ReadingPayload Node) (now : Int) :
    parseTime payload.dump.time now =
      if ∀ dt ∈ payload.time, Representable dt.instant then .ok (payload.stampAt now)
      else .error {} := by
  rw [parseTime_eq]
  unfold ReadingPayload.dump ReadingPayload.stampAt
  cases payload.time <;> rfl

/-- The row before its anomaly flag is set. -/
structure IsRow (payload : ReadingPayload Node) (node : Node) (now : Int)
    (r : SensorReading Node) : Prop where
  time : r.time = payload.stampAt now
  node : r.node = node
  value : ∀ f, r.value f = payload.value f
  fuzzyScore : ∀ v ∈ r.fuzzyScore, FitsReal v
  aqi : ∀ a ∈ r.aqi, 0 ≤ a ∧ a ≤ 500
  category : r.CategoryFits

theorem buildReading_eq (payload : ReadingPayload Node) (node : Node) (now : Int) :
    ∃ row, IsRow payload node now row ∧ buildReading payload.dump node now =
      if ∀ dt ∈ payload.time, Representable dt.instant then .ok row else .error {} := by
  refine ⟨{
    time := payload.stampAt now
    node := node
    temperature := payload.value .temperature
    humidity := payload.value .humidity
    pressure := payload.value .pressure
    vocOhm := payload.value .vocOhm
    mq135Ppm := payload.value .mq135Ppm
    pm1 := payload.value .pm1
    pm25 := payload.value .pm25
    pm10 := payload.value .pm10
    batteryV := payload.value .batteryV
    fuzzyScore :=
      some (Fuzzy.fuzzyScore ((payload.value .temperature).getD 25) ((payload.value .humidity).getD 0)
        ((payload.value .pm25).getD 0))
    aqi := (Aqi.computeAqi (payload.value .pm25) (payload.value .pm10)).map Prod.fst
    aqiCategory := (Aqi.computeAqi (payload.value .pm25) (payload.value .pm10)).map Prod.snd
    isAnomaly := false }, ?_, ?_⟩
  · refine ⟨rfl, rfl, fun f => by cases f <;> rfl, ?_, ?_, ?_⟩
    · intro v member
      cases member
      obtain ⟨n, low, high, score⟩ := Fuzzy.exists_score ((payload.value .temperature).getD 25)
        ((payload.value .humidity).getD 0) ((payload.value .pm25).getD 0)
      rw [score]
      exact fitsReal_hundredths low high
    · intro a member
      obtain ⟨result, found, rfl⟩ := Option.map_eq_some_iff.mp member
      have range := Aqi.computeAqi_range found
      exact ⟨range.1, range.2.1⟩
    · intro c member
      obtain ⟨result, found, rfl⟩ := Option.map_eq_some_iff.mp member
      exact (Aqi.computeAqi_range found).2.2
  · simp only [buildReading, parseTime_dump, validFloat_dump]
    split <;> rfl

/-- The row converts to its columns iff the measured values do. -/
theorem IsRow.fits_iff {payload : ReadingPayload Node} {node : Node} {now : Int}
    {r : SensorReading Node} (row : IsRow payload node now r) : r.Fits ↔
      ∀ f, ∀ v ∈ payload.value f, FitsReal v := by
  constructor
  · intro fits f v member
    exact fits.1 f v (row.value f ▸ member)
  · intro fits
    refine ⟨fun f v member => fits f v (row.value f ▸ member), row.fuzzyScore, ?_⟩
    intro a member
    have range := row.aqi a member
    omega

theorem IsRow.flagged {payload : ReadingPayload Node} {node : Node} {now : Int}
    {r : SensorReading Node} (row : IsRow payload node now r) (flag : Bool) :
    IsRow payload node now { r with isAnomaly := flag } :=
  ⟨row.time, row.node, fun f => (by cases f <;> rfl : _ = r.value f).trans (row.value f),
    row.fuzzyScore, row.aqi, row.category⟩

/-! ## One delivery -/

section Deliveries

variable [DecidableEq Node]

/-- The primary key is taken. -/
def Db.Taken (db : Db Node) (t : Int) (node : Node) : Prop :=
  ∃ r ∈ db.readings, r.time = t ∧ r.node = node

instance (db : Db Node) (t : Int) (node : Node) : Decidable (db.Taken t node) :=
  inferInstanceAs (Decidable (∃ r ∈ db.readings, _))

variable {payload : ReadingPayload Node} {node : Node} {db : Db Node}

/-- **One run of the task**, in the order in which it can fail. -/
theorem processReading_eq (named : payload.nodeId = some node) (active : db.nodes node = some true)
    (now later : Int) : ∃ row, IsRow payload node now row ∧
      processReading db payload.dump now later =
        if ¬ ∀ dt ∈ payload.time, Representable dt.instant then .error .overflowError
        else if ¬ ∀ f, ∀ v ∈ payload.value f, FitsReal v then .error .numericValueOutOfRange
        else if db.Taken (payload.stampAt now) node then .ok (none, db)
        else .ok (some row, { db with readings := db.readings ++ [row.stored db.real] }) := by
  obtain ⟨built, isRow, eq⟩ := buildReading_eq payload node now
  have row := isRow.flagged (detectAnomaly db.readings node built.pm25 later)
  refine ⟨_, row, ?_⟩
  have dumped : payload.dump.nodeId = some node := named
  simp only [processReading, dumped, active, eq]
  by_cases representable : ∀ dt ∈ payload.time, Representable dt.instant
  · rw [if_pos representable, if_neg (not_not.mpr representable)]
    simp only [insertReading]
    by_cases fits : ∀ f, ∀ v ∈ payload.value f, FitsReal v
    · rw [if_neg (not_not.mpr (row.fits_iff.mpr fits)), if_neg (not_not.mpr row.category),
        if_neg (not_not.mpr fits)]
      have key :
          (db.readings.any fun r => decide (r.time = built.time ∧ r.node = built.node)) = true ↔
          db.Taken (payload.stampAt now) node := by
        rw [List.any_eq_true, isRow.time, isRow.node]
        simp only [decide_eq_true_eq]
        rfl
      by_cases taken : db.Taken (payload.stampAt now) node
      · rw [if_pos (key.mpr taken), if_pos taken]
        rfl
      · have known : ¬ db.nodes built.node = none := by
          rw [isRow.node, active]
          exact Option.some_ne_none true
        rw [if_neg (fun any => taken (key.mp any)), if_neg taken, if_neg known]
    · rw [if_pos (fun fitting => fits (row.fits_iff.mp fitting)), if_pos fits]
  · rw [if_neg representable, if_pos representable]

/-- What can be stored is stored unless its key is taken; anything else raises. -/
theorem processReading_cases (named : payload.nodeId = some node)
    (active : db.nodes node = some true) (now later : Int) : ∃ row, IsRow payload node now row ∧
      ((payload.Storable ∧ processReading db payload.dump now later =
        if db.Taken (payload.stampAt now) node then .ok (none, db)
        else .ok (some row, { db with readings := db.readings ++ [row.stored db.real] })) ∨
      ¬ payload.Storable ∧ ∃ error, processReading db payload.dump now later = .error error) := by
  obtain ⟨row, isRow, eq⟩ := processReading_eq named active now later
  refine ⟨row, isRow, ?_⟩
  rw [eq]
  by_cases representable : ∀ dt ∈ payload.time, Representable dt.instant
  · by_cases fits : ∀ f, ∀ v ∈ payload.value f, FitsReal v
    · rw [if_neg (not_not.mpr representable), if_neg (not_not.mpr fits)]
      exact Or.inl ⟨⟨representable, fits⟩, rfl⟩
    · rw [if_neg (not_not.mpr representable), if_pos fits]
      exact Or.inr ⟨fun storable => fits storable.2, _, rfl⟩
  · rw [if_pos representable]
    exact Or.inr ⟨fun storable => representable storable.1, _, rfl⟩

/-- The tables after a delivery: a run that raises is rolled back and acknowledged. -/
def deliver (payload : ReadingPayload Node) (db : Db Node) (clock : Int × Int) : Db Node :=
  match processReading db payload.dump clock.1 clock.2 with
  | .ok (_, db') => db'
  | .error _ => db

theorem deliver_eq (named : payload.nodeId = some node) (active : db.nodes node = some true)
    (clock : Int × Int) : ∃ row, IsRow payload node clock.1 row ∧ deliver payload db clock =
      if payload.Storable ∧ ¬ db.Taken (payload.stampAt clock.1) node then
        { db with readings := db.readings ++ [row.stored db.real] }
      else db := by
  obtain ⟨row, isRow, ⟨storable, eq⟩ | ⟨unstorable, error, eq⟩⟩ :=
    processReading_cases named active clock.1 clock.2
  · refine ⟨row, isRow, ?_⟩
    rw [deliver, eq]
    by_cases taken : db.Taken (payload.stampAt clock.1) node
    · rw [if_pos taken, if_neg fun stored => stored.2 taken]
    · rw [if_neg taken, if_pos ⟨storable, taken⟩]
  · refine ⟨row, isRow, ?_⟩
    rw [deliver, eq, if_neg fun stored => unstorable stored.1]

theorem deliver_nodes (named : payload.nodeId = some node) (active : db.nodes node = some true)
    (clock : Int × Int) : (deliver payload db clock).nodes = db.nodes := by
  obtain ⟨row, _, eq⟩ := deliver_eq named active clock
  rw [eq]
  split <;> rfl

/-- A delivery of a payload that can be stored leaves a row with its key. -/
theorem deliver_taken (named : payload.nodeId = some node) (active : db.nodes node = some true)
    (storable : payload.Storable) (clock : Int × Int) :
    (deliver payload db clock).Taken (payload.stampAt clock.1) node := by
  obtain ⟨row, isRow, eq⟩ := deliver_eq named active clock
  rw [eq]
  split
  · exact ⟨row.stored db.real, List.mem_append_right _ (List.mem_singleton_self _),
      isRow.time, isRow.node⟩
  · rename_i kept
    by_contra free
    exact kept ⟨storable, free⟩

theorem deliver_sublist (named : payload.nodeId = some node) (active : db.nodes node = some true)
    (clock : Int × Int) : db.readings.Sublist (deliver payload db clock).readings := by
  obtain ⟨row, _, eq⟩ := deliver_eq named active clock
  rw [eq]
  split
  · exact List.sublist_append_left _ _
  · exact List.Sublist.refl _

/-- Deliveries only add rows. -/
theorem deliveries_sublist (named : payload.nodeId = some node) :
    ∀ (clocks : List (Int × Int)) {db : Db Node}, db.nodes node = some true →
      db.readings.Sublist (clocks.foldl (deliver payload) db).readings := by
  intro clocks
  induction clocks with
  | nil => exact fun _ => List.Sublist.refl _
  | cons clock rest ih =>
      intro db active
      refine (deliver_sublist named active clock).trans (ih ?_)
      rw [deliver_nodes named active clock]
      exact active

omit [DecidableEq Node] in
theorem Db.Taken.mono {db' : Db Node} {t : Int} (taken : db.Taken t node)
    (more : db.readings.Sublist db'.readings) : db'.Taken t node := by
  obtain ⟨r, member, key⟩ := taken
  exact ⟨r, more.subset member, key⟩

/-- Every delivery's timestamp has a row in the end. -/
theorem deliveries_taken (named : payload.nodeId = some node) (storable : payload.Storable) :
    ∀ (clocks : List (Int × Int)) {db : Db Node}, db.nodes node = some true →
      ∀ clock ∈ clocks,
        (clocks.foldl (deliver payload) db).Taken (payload.stampAt clock.1) node := by
  intro clocks
  induction clocks with
  | nil => exact fun _ clock member => nomatch member
  | cons first rest ih =>
      intro db active clock member
      have active' : (deliver payload db first).nodes node = some true := by
        rw [deliver_nodes named active first]
        exact active
      rcases List.mem_cons.mp member with rfl | later
      · exact (deliver_taken named active storable clock).mono
          (deliveries_sublist named rest active')
      · exact ih active' clock later

/-- A row that is there already absorbs every delivery with its timestamp. -/
theorem deliveries_absorbed (named : payload.nodeId = some node) {t : Int} :
    ∀ (clocks : List (Int × Int)) {db : Db Node}, db.nodes node = some true → db.Taken t node →
      (∀ clock ∈ clocks, payload.stampAt clock.1 = t) → clocks.foldl (deliver payload) db = db := by
  intro clocks
  induction clocks with
  | nil => exact fun _ _ _ => rfl
  | cons first rest ih =>
      intro db active taken same
      obtain ⟨row, _, eq⟩ := deliver_eq named active first
      rw [same first List.mem_cons_self, if_neg fun stored => stored.2 taken] at eq
      rw [List.foldl_cons, eq]
      exact ih active taken fun clock member => same clock (List.mem_cons_of_mem _ member)

/-- Deliveries with one timestamp gain at most one row. -/
theorem deliveries_gain (named : payload.nodeId = some node) (clocks : List (Int × Int))
    (active : db.nodes node = some true)
    (same : payload.Storable →
      ∀ clock ∈ clocks, ∀ clock' ∈ clocks, payload.stampAt clock.1 = payload.stampAt clock'.1) :
    (clocks.foldl (deliver payload) db).readings.length ≤ db.readings.length + 1 := by
  induction clocks generalizing db with
  | nil => exact Nat.le_succ _
  | cons first rest ih =>
      obtain ⟨row, _, eq⟩ := deliver_eq named active first
      have active' : (deliver payload db first).nodes node = some true := by
        rw [deliver_nodes named active first]
        exact active
      by_cases storable : payload.Storable
      · have taken := deliver_taken named active storable first
        rw [List.foldl_cons, deliveries_absorbed named rest active' taken fun clock member =>
          same storable clock (List.mem_cons_of_mem _ member) first List.mem_cons_self, eq]
        split
        · exact le_of_eq List.length_append
        · exact Nat.le_succ _
      · rw [if_neg fun stored => storable stored.1] at eq
        rw [List.foldl_cons, eq]
        exact ih active fun possible => absurd possible storable

theorem eq_of_length_le_one {α : Type} {l : List α} (few : l.length ≤ 1) {a b : α} (there : a ∈ l)
    (there' : b ∈ l) : a = b := by
  match l, few with
  | [x], _ => rw [List.mem_singleton.mp there, List.mem_singleton.mp there']

omit [DecidableEq Node] in
/-- All deliveries stamp alike iff all have the time in the window, or all clocks agree. -/
theorem stampAt_agree_iff (payload : ReadingPayload Node) (clocks : List (Int × Int)) :
    (∀ c ∈ clocks, ∀ c' ∈ clocks, payload.stampAt c.1 = payload.stampAt c'.1) ↔
      (∃ dt ∈ payload.time, ∀ c ∈ clocks, InWindow dt.instant c.1) ∨
        ∀ c ∈ clocks, ∀ c' ∈ clocks, c.1 = c'.1 := by
  constructor
  · intro agree
    by_cases clocksAgree : ∀ c ∈ clocks, ∀ c' ∈ clocks, c.1 = c'.1
    · exact Or.inr clocksAgree
    · left
      push Not at clocksAgree
      obtain ⟨c, member, c', member', differ⟩ := clocksAgree
      rcases (stamp_eq_iff _ _ _).mp (agree c member c' member') with ⟨u, timed, near, _⟩ | same
      · obtain ⟨dt, carried, rfl⟩ := Option.map_eq_some_iff.mp timed
        refine ⟨dt, carried, ?_⟩
        intro d among
        rcases (stamp_eq_iff _ _ _).mp (agree c member d among) with ⟨u, timed', _, near'⟩ | same
        · rw [timed] at timed'
          cases timed'
          exact near'
        · exact same ▸ near
      · exact absurd same differ
  · rintro (⟨dt, carried, near⟩ | same)
    · intro c member c' member'
      refine (stamp_eq_iff _ _ _).mpr (Or.inl ⟨dt.instant, ?_, near c member, near c' member'⟩)
      rw [Option.mem_def.mp carried]
      rfl
    · intro c member c' member'
      exact congrArg payload.stampAt (same c member c' member')

/-- **Redelivery.**  However often an accepted payload for an active node is delivered,
at whatever clocks, it gains at most one row, exactly where it cannot be stored at all,
or it carries a time that every delivery has in its window, or every delivery reads the
same clock. -/
theorem gains_one_iff (named : payload.nodeId = some node) (clocks : List (Int × Int)) :
    (∀ db : Db Node, db.nodes node = some true →
      (clocks.foldl (deliver payload) db).readings.length ≤ db.readings.length + 1) ↔
      ¬ payload.Storable ∨ (∃ dt ∈ payload.time, ∀ c ∈ clocks, InWindow dt.instant c.1) ∨
        ∀ c ∈ clocks, ∀ c' ∈ clocks, c.1 = c'.1 := by
  rw [← stampAt_agree_iff]
  constructor
  · intro gains
    by_cases storable : payload.Storable
    · apply Or.inr
      intro c member c' member'
      -- deliver into an empty table: both timestamps have a row, and there is one row
      obtain ⟨db, active, empty⟩ : ∃ db : Db Node, db.nodes node = some true ∧ db.readings = [] :=
        ⟨⟨roundSingle, fun _ => some true, []⟩, rfl, rfl⟩
      have few := gains db active
      rw [empty] at few
      obtain ⟨r, there, time, _⟩ := deliveries_taken named storable clocks active c member
      obtain ⟨r', there', time', _⟩ := deliveries_taken named storable clocks active c' member'
      rw [← time, ← time', eq_of_length_le_one few there there']
    · exact Or.inl storable
  · rintro (never | agree) db active
    · exact deliveries_gain named clocks active fun storable => absurd storable never
    · exact deliveries_gain named clocks active fun _ => agree

end Deliveries

/-! ## Payloads -/

/-- Noon of some day. -/
def noon : Int := 738000 * day + 12 * hour

/-- A payload with a temperature of 21 °C, and this time. -/
def mild (time : Option Datetime) : ReadingPayload Unit where
  nodeId := some ()
  time := time
  value := fun f => if f = .temperature then some 21 else none
  bounds := by
    intro f v member
    split at member
    · rename_i same
      cases member
      rw [same]
      decide +kernel
    · cases member

/-- One node, active, and no readings. -/
def oneNode : Db Unit := ⟨roundSingle, fun _ => some true, []⟩

/-- The error of a run, if it raises. -/
def raised (run : Except TaskError (Option (SensorReading Unit) × Db Unit)) : Option TaskError :=
  match run with
  | .ok _ => none
  | .error error => some error

theorem gains_one_iff_noon :
    ([(noon, noon), (noon + hour, noon + hour)].foldl
      (deliver (mild (some ⟨noon, none, by decide, nofun⟩))) oneNode).readings.length ≤
        oneNode.readings.length + 1 :=
  (gains_one_iff rfl _).mpr (Or.inr (Or.inl ⟨_, rfl, by decide⟩)) oneNode rfl

/-- Without a time, the second delivery half a minute later stores a second row. -/
theorem two_rows :
    ([(noon, noon), (noon + 30000000, noon + 30000000)].foldl (deliver (mild none)) oneNode).readings.length =
    2 := by
  decide +kernel

end Empyrean.Ingest
