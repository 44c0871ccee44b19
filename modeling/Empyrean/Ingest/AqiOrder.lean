/-
# Empyrean.Ingest.AqiOrder — the index against the concentration

What `tasks/aqi.py` makes of more pollution.  Inside a band the index rises with the
concentration.  Between two rows it depends on the line of the upper one, which is
read below its own start: there the index can be one lower than at the end of the row
below.

* `aqiFor_le_iff` — for any table the index of a larger concentration is at least that of
  a smaller one, except from the very end of a row into the gap above it.
* `computeAqi_mono_iff` — the composite index: the two gaps of the PM10 table where this
  shows.
* `computeAqi_agrees_iff` — index and category name the same row except inside a gap
  between two categories.
-/
import Empyrean.Ingest.Aqi

namespace Empyrean.Ingest.Aqi

set_option autoImplicit false

/-! ## One row -/

/-- The line of the row rises. -/
structure Band.Rising (band : Band) : Prop where
  width : band.cLo < band.cHi
  rises : band.iLo < band.iHi

instance (band : Band) : Decidable band.Rising :=
  decidable_of_iff (band.cLo < band.cHi ∧
    band.iLo < band.iHi) ⟨fun ⟨a, b⟩ => ⟨a, b⟩, fun ⟨a, b⟩ => ⟨a, b⟩⟩

theorem Band.Rising.strictMono {band : Band} (rising : band.Rising) :
    StrictMono band.interpolate := by
  intro c c' lt
  have slope : (0 : Rat) < (band.iHi - band.iLo : Int) / (band.cHi - band.cLo) :=
    div_pos (by exact_mod_cast sub_pos.mpr rising.rises) (sub_pos.mpr rising.width)
  have step := mul_lt_mul_of_pos_left (sub_lt_sub_right lt band.cLo) slope
  unfold Band.interpolate
  linarith

theorem Band.interpolate_start (band : Band) : band.interpolate band.cLo = band.iLo := by
  unfold Band.interpolate
  rw [sub_self, mul_zero, zero_add]

theorem Band.Rising.interpolate_end {band : Band} (rising : band.Rising) :
    band.interpolate band.cHi = band.iHi := by
  have width : band.cHi - band.cLo ≠ 0 := sub_ne_zero.mpr rising.width.ne'
  unfold Band.interpolate
  rw [div_mul_cancel₀ _ width]
  push_cast
  ring

/-- Before its end the row is below its last index. -/
theorem Band.Rising.floor_lt_iff {band : Band} (rising : band.Rising) (c : Rat) :
    ⌊band.interpolate c⌋ < band.iHi ↔ c < band.cHi := by
  rw [Int.floor_lt, ← rising.interpolate_end]
  exact rising.strictMono.lt_iff_lt

/-- From its start on the row has reached its first index. -/
theorem Band.Rising.le_floor_iff {band : Band} (rising : band.Rising) (c : Rat) :
    band.iLo ≤ ⌊band.interpolate c⌋ ↔ band.cLo ≤ c := by
  rw [Int.le_floor, ← band.interpolate_start]
  exact rising.strictMono.le_iff_le

theorem Band.Rising.floor_le {band : Band} (rising : band.Rising) {c : Rat} (owned : c ≤ band.cHi) :
    ⌊band.interpolate c⌋ ≤ band.iHi := by
  rcases owned.lt_or_eq with inside | rfl
  · exact ((rising.floor_lt_iff c).mpr inside).le
  · rw [rising.interpolate_end, Int.floor_intCast]

/-! ## Consecutive rows -/

/-- The row after `prev`: it starts where `prev` ends or above, its indices are the next
ones, and its line, read at the end of `prev`, has fallen by one at the most. -/
structure Band.Follows (prev band : Band) : Prop where
  rising : band.Rising
  ascends : prev.cHi ≤ band.cLo
  next : band.iLo = prev.iHi + 1
  undershoot : ((prev.iHi - 1 : Int) : Rat) ≤ band.interpolate prev.cHi

instance (prev band : Band) : Decidable (prev.Follows band) :=
  decidable_of_iff (band.Rising ∧ prev.cHi ≤ band.cLo ∧ band.iLo = prev.iHi + 1 ∧
      ((prev.iHi - 1 : Int) : Rat) ≤ band.interpolate prev.cHi)
    ⟨fun ⟨a, b, c, d⟩ => ⟨a, b, c, d⟩, fun ⟨a, b, c, d⟩ => ⟨a, b, c, d⟩⟩

/-- The rows after `prev`, each following the one before. -/
def Stacked : Band → List (Band × String) → Prop
  | _, [] => True
  | prev, next :: rest => prev.Follows next.1 ∧ Stacked next.1 rest

instance decidableStacked :
    ∀ (prev : Band) (rows : List (Band × String)), Decidable (Stacked prev rows)
  | _, [] => isTrue trivial
  | prev, next :: rest =>
      have := decidableStacked next.1 rest
      inferInstanceAs (Decidable (prev.Follows next.1 ∧ Stacked next.1 rest))

theorem owner_cons_of_le {row : Band × String} {c : Rat} (owned : c ≤ row.1.cHi)
    (rest : List (Band × String)) : owner (row :: rest) c = some row := by
  rw [owner, List.find?_cons, decide_eq_true owned]

theorem owner_cons_of_lt {row : Band × String} {c : Rat} (beyond : row.1.cHi < c)
    (rest : List (Band × String)) : owner (row :: rest) c = owner rest c := by
  rw [owner, List.find?_cons, decide_eq_false (not_le.mpr beyond), owner]

/-- Later rows own higher concentrations and hold higher indices. -/
theorem Stacked.above : ∀ {rows : List (Band × String)} {prev : Band}, Stacked prev rows →
    ∀ row ∈ rows, prev.cHi ≤ row.1.cLo ∧ prev.iHi < row.1.iLo ∧ row.1.Rising := by
  intro rows
  induction rows with
  | nil => intro prev _ row member; cases member
  | cons next rest ih =>
      intro prev stacked row member
      obtain ⟨follows, later⟩ := stacked
      have rises := follows.rising.rises
      have width := follows.rising.width
      have ascends := follows.ascends
      have index := follows.next
      rcases List.mem_cons.mp member with rfl | later_row
      · exact ⟨ascends, by omega, follows.rising⟩
      · obtain ⟨above, index', rising⟩ := ih later row later_row
        exact ⟨by linarith, by omega, rising⟩

/-- Beyond a row the index is at most one less than at its end, and less only in the gap
right above it. -/
theorem Stacked.floor_ge :
    ∀ {rows : List (Band × String)} {prev : Band} {c : Rat} {row : Band × String},
    Stacked prev rows → prev.cHi < c → owner rows c = some row →
    prev.iHi - 1 ≤ ⌊row.1.interpolate c⌋ ∧
      (⌊row.1.interpolate c⌋ < prev.iHi → rows.head? = some row) := by
  intro rows
  induction rows with
  | nil => intro prev c row _ _ owned; cases owned
  | cons next rest ih =>
      intro prev c row stacked beyond owned
      obtain ⟨follows, later⟩ := stacked
      rcases le_or_gt c next.1.cHi with here | there
      · rw [owner_cons_of_le here, Option.some.injEq] at owned
        subst owned
        have low := follows.rising.strictMono.monotone beyond.le
        exact ⟨Int.le_floor.mpr (le_trans follows.undershoot low), fun _ => rfl⟩
      · rw [owner_cons_of_lt there] at owned
        obtain ⟨low, _⟩ := ih later there owned
        have rises := follows.rising.rises
        have index := follows.next
        exact ⟨by omega, fun dips => absurd dips (by omega)⟩

/-- A whole table of consecutive rows. -/
def Ladder : List (Band × String) → Prop
  | [] => True
  | first :: rest => first.1.Rising ∧ Stacked first.1 rest

instance (rows : List (Band × String)) : Decidable (Ladder rows) :=
  match rows with
  | [] => isTrue trivial
  | first :: rest => inferInstanceAs (Decidable (first.1.Rising ∧ Stacked first.1 rest))

/-! ## More pollution -/

/-- `c` is the very end of a row, `c'` lies above it where the line of the next row has
not reached the row's last index. -/
def Dips : List (Band × String) → Rat → Rat → Prop
  | row :: next :: rest, c, c' =>
      (c = row.1.cHi ∧ c < c' ∧ next.1.interpolate c' < row.1.iHi) ∨ Dips (next :: rest) c c'
  | _, _, _ => False

theorem Dips.later : ∀ {rows : List (Band × String)} {prev : Band} {c c' : Rat}, Stacked prev rows →
    Dips rows c c' → prev.cHi < c := by
  intro rows
  induction rows with
  | nil => intro prev c c' _ dips; exact dips.elim
  | cons row rest ih =>
      intro prev c c' stacked dips
      have width := stacked.1.rising.width
      have ascends := stacked.1.ascends
      cases rest with
      | nil => exact dips.elim
      | cons next rest =>
          rcases dips with ⟨rfl, _, _⟩ | deeper
          · linarith
          · have := ih stacked.2 deeper
            linarith

/-- Above the end of a row the index is at least the row's last one, unless the line of
the next row has not reached it. -/
theorem floor_end_le_iff {first next : Band × String} {rest : List (Band × String)} {c' : Rat}
    {row' : Band × String} (stacked : Stacked first.1 (next :: rest)) (beyond : first.1.cHi < c')
    (owned : owner (next :: rest) c' = some row') :
    first.1.iHi ≤ ⌊row'.1.interpolate c'⌋ ↔ ¬ next.1.interpolate c' < first.1.iHi := by
  rw [← not_lt, not_iff_not]
  constructor
  · intro low
    obtain ⟨_, near⟩ := stacked.floor_ge beyond owned
    obtain rfl := Option.some.inj (near low)
    exact Int.floor_lt.mp low
  · intro low
    have rises := stacked.1.rising.rises
    have index := stacked.1.next
    -- the next row owns the concentration: its line ends above that index
    have inside : c' < next.1.cHi := by
      apply stacked.1.rising.strictMono.lt_iff_lt.mp
      rw [stacked.1.rising.interpolate_end]
      exact lt_trans low (by exact_mod_cast (by omega : first.1.iHi < next.1.iHi))
    rw [owner_cons_of_le inside.le, Option.some.injEq] at owned
    subst owned
    exact Int.floor_lt.mpr low

/-- **One table**: more pollution lowers the index only from the end of a row into the gap
above it. -/
theorem floor_le_iff : ∀ {rows : List (Band × String)} {c c' : Rat} {row row' : Band × String},
    Ladder rows → c ≤ c' → owner rows c = some row → owner rows c' = some row' →
    (⌊row.1.interpolate c⌋ ≤ ⌊row'.1.interpolate c'⌋ ↔ ¬ Dips rows c c') := by
  intro rows
  induction rows with
  | nil => intro c c' row row' _ _ owned; cases owned
  | cons first rest ih =>
      intro c c' row row' ladder le owned owned'
      obtain ⟨rising, stacked⟩ := ladder
      rcases lt_or_ge first.1.cHi c with beyond | here
      · -- both lie above the first row
        rw [owner_cons_of_lt beyond] at owned
        rw [owner_cons_of_lt (lt_of_lt_of_le beyond le)] at owned'
        cases rest with
        | nil => cases owned
        | cons next rest =>
            rw [ih ⟨stacked.1.rising, stacked.2⟩ le owned owned', Dips]
            simp only [not_or]
            exact ⟨fun deeper => ⟨fun ⟨at_end, _⟩ => beyond.ne' at_end, deeper⟩, And.right⟩
      · rw [owner_cons_of_le here, Option.some.injEq] at owned
        subst owned
        have not_later : ¬ Dips rest c c' :=
          fun dips => absurd (dips.later stacked) (not_lt.mpr here)
        rcases le_or_gt c' first.1.cHi with here' | there
        · -- the first row owns both
          rw [owner_cons_of_le here', Option.some.injEq] at owned'
          subst owned'
          refine iff_of_true (Int.floor_le_floor (rising.strictMono.monotone le)) fun dips => ?_
          cases rest with
          | nil => exact dips
          | cons next rest =>
              rcases dips with ⟨at_end, lt, _⟩ | deeper
              · linarith
              · exact not_later deeper
        · rw [owner_cons_of_lt there] at owned'
          obtain ⟨low, _⟩ := stacked.floor_ge there owned'
          cases rest with
          | nil => cases owned'
          | cons next rest =>
              rcases here.lt_or_eq with inside | at_end
              · have below := (rising.floor_lt_iff c).mpr inside
                refine iff_of_true (by omega) fun dips => ?_
                rcases dips with ⟨at_end, _⟩ | deeper
                · exact inside.ne at_end
                · exact not_later deeper
              · rw [at_end, rising.interpolate_end, Int.floor_intCast,
                  floor_end_le_iff stacked there owned']
                constructor
                · rintro high (dips | deeper)
                  · exact high dips.2.2
                  · exact not_later (at_end ▸ deeper)
                · exact fun apart low => apart (Or.inl ⟨rfl, there, low⟩)

/-- Before the end of a row the index is below its last one. -/
theorem floor_lt_of_lt : ∀ {rows : List (Band × String)} {c : Rat} {row owned : Band × String},
    Ladder rows → row ∈ rows → c < row.1.cHi → owner rows c = some owned →
    ⌊owned.1.interpolate c⌋ < row.1.iHi := by
  intro rows
  induction rows with
  | nil => intro c row owned _ member; cases member
  | cons first rest ih =>
      intro c row owned ladder member inside found
      obtain ⟨rising, stacked⟩ := ladder
      rcases le_or_gt c first.1.cHi with here | beyond
      · rw [owner_cons_of_le here, Option.some.injEq] at found
        subst found
        rcases List.mem_cons.mp member with rfl | later
        · exact (rising.floor_lt_iff c).mpr inside
        · obtain ⟨_, index, rising'⟩ := stacked.above row later
          have rises := rising'.rises
          have top := rising.floor_le here
          omega
      · rw [owner_cons_of_lt beyond] at found
        rcases List.mem_cons.mp member with rfl | later
        · exact absurd inside (not_lt.mpr beyond.le)
        · cases rest with
          | nil => cases later
          | cons next rest => exact ih ⟨stacked.1.rising, stacked.2⟩ later inside found

theorem clamped_mono (bands : List Band) : Monotone (clamped bands) :=
  fun _ _ le => max_le_max le_rfl (min_le_min_right _ le)

theorem aqiFor_le_iff {bands : List Band} (table : Table bands)
    (ladder : Ladder (bands.zip categories)) {c c' : Rat} (le : c ≤ c') {r r' : Int × String}
    (found : aqiFor c bands = some r) (found' : aqiFor c' bands = some r') :
    r.1 ≤ r'.1 ↔ ¬ Dips (bands.zip categories) (clamped bands c) (clamped bands c') := by
  obtain ⟨row, owned, value⟩ := table.aqiFor_eq c
  obtain ⟨row', owned', value'⟩ := table.aqiFor_eq c'
  rw [found, Option.some.injEq] at value
  rw [found', Option.some.injEq] at value'
  subst value value'
  exact floor_le_iff ladder (clamped_mono bands le) owned owned'

/-! ## The two tables -/

theorem pm25_ladder : Ladder (pm25Bands.zip categories) := by decide +kernel

theorem pm10_ladder : Ladder (pm10Bands.zip categories) := by decide +kernel

/-- The gaps of the PM2.5 table are too narrow to lose an index. -/
theorem pm25_not_dips (c c' : Rat) : ¬ Dips (pm25Bands.zip categories) c c' := by
  simp only [pm25Bands, categories, List.zip_cons_cons, List.zip_nil_left, Dips,
    Band.interpolate, or_false]
  rintro (⟨rfl, lt, low⟩ | ⟨rfl, lt, low⟩ | ⟨rfl, lt, low⟩ | ⟨rfl, lt, low⟩ | ⟨rfl, lt, low⟩ | ⟨rfl, lt, low⟩) <;>
    norm_num at lt low <;> linarith

/-- Two of the gaps of the PM10 table lose one. -/
theorem pm10_dips_iff (c c' : Rat) :
    Dips (pm10Bands.zip categories) c c' ↔
      (c = 354 ∧ 354 < c' ∧ c' < 354 + 10 / 33) ∨ (c = 424 ∧ 424 < c' ∧ c' < 424 + 20 / 99) := by
  simp only [pm10Bands, categories, List.zip_cons_cons, List.zip_nil_left, Dips,
    Band.interpolate, or_false]
  constructor
  · rintro (⟨rfl, lt, low⟩ | ⟨rfl, lt, low⟩ | ⟨rfl, lt, low⟩ | ⟨rfl, lt, low⟩ | ⟨rfl, lt, low⟩ | ⟨rfl, lt, low⟩) <;>
      norm_num at low
    · linarith
    · linarith
    · linarith
    · exact Or.inl ⟨rfl, lt, by linarith⟩
    · exact Or.inr ⟨rfl, lt, by linarith⟩
    · linarith
  · rintro (⟨rfl, lt, near⟩ | ⟨rfl, lt, near⟩)
    · exact Or.inr (Or.inr (Or.inr (Or.inl ⟨rfl, lt, by norm_num; linarith⟩)))
    · exact Or.inr (Or.inr (Or.inr (Or.inr (Or.inl ⟨rfl, lt, by norm_num; linarith⟩))))

/-- Inside the table the clamping does nothing. -/
theorem clamped_eq_iff {bands : List Band} {c level : Rat} (positive : 0 < level)
    (inside : level < (bands.getLast?.map Band.cHi).getD 0) : clamped bands c = level ↔
      c = level := by
  unfold clamped
  rw [max_eq_iff, min_eq_iff]
  constructor
  · rintro (⟨rfl, _⟩ | ⟨⟨same, _⟩ | ⟨top, _⟩, _⟩)
    · exact absurd positive (lt_irrefl _)
    · exact same
    · exact absurd top inside.ne'
  · rintro rfl
    exact Or.inr ⟨Or.inl ⟨rfl, inside.le⟩, le_min positive.le (positive.trans inside).le⟩

theorem clamped_between_iff {bands : List Band} {c lo hi : Rat} (nonneg : 0 ≤ lo)
    (inside : hi ≤ (bands.getLast?.map Band.cHi).getD 0) :
    (lo < clamped bands c ∧ clamped bands c < hi) ↔ (lo < c ∧ c < hi) := by
  unfold clamped
  rw [lt_max_iff, max_lt_iff, lt_min_iff, min_lt_iff]
  constructor
  · rintro ⟨low | ⟨low, _⟩, _, high | high⟩
    · exact absurd low (not_lt.mpr nonneg)
    · exact absurd high (not_lt.mpr inside)
    · exact ⟨low, high⟩
    · exact absurd high (not_lt.mpr inside)
  · rintro ⟨low, high⟩
    have order := low.trans high
    exact ⟨Or.inr ⟨low, lt_of_lt_of_le order inside⟩, lt_of_le_of_lt nonneg order, Or.inl high⟩

theorem pm25_le {c c' : Rat} (le : c ≤ c') {r r' : Int × String}
    (found : aqiFor c pm25Bands = some r) (found' : aqiFor c' pm25Bands = some r') : r.1 ≤ r'.1 :=
  (aqiFor_le_iff pm25_table pm25_ladder le found found').mpr (pm25_not_dips _ _)

theorem pm10_le_iff {c c' : Rat} (le : c ≤ c') {r r' : Int × String}
    (found : aqiFor c pm10Bands = some r) (found' : aqiFor c' pm10Bands = some r') :
    r.1 ≤ r'.1 ↔ ¬ ((c = 354 ∧ 354 < c' ∧ c' < 354 + 10 / 33) ∨
      (c = 424 ∧ 424 < c' ∧ c' < 424 + 20 / 99)) := by
  have reach : (pm10Bands.getLast?.map Band.cHi).getD 0 = 604 := rfl
  rw [aqiFor_le_iff pm10_table pm10_ladder le found found', pm10_dips_iff,
    clamped_eq_iff (by norm_num) (by rw [reach]; norm_num),
      clamped_eq_iff (by norm_num) (by rw [reach]; norm_num),
    clamped_between_iff (by norm_num) (by rw [reach]; norm_num),
    clamped_between_iff (by norm_num) (by rw [reach]; norm_num)]

/-- The index reaches the last one of a row at the row's end. -/
theorem pm25_reaches_iff (row : Band × String) (member : row ∈ pm25Bands.zip categories)
    (positive : 0 < row.1.cHi) (ending : aqiFor row.1.cHi pm25Bands = some (row.1.iHi, row.2))
    {c : Rat} {r : Int × String} (found : aqiFor c pm25Bands = some r) : row.1.iHi ≤ r.1 ↔
      row.1.cHi ≤ c := by
  constructor
  · intro reached
    by_contra before
    obtain ⟨owned, owns, value⟩ := pm25_table.aqiFor_eq c
    rw [found, Option.some.injEq] at value
    subst value
    have inside : clamped pm25Bands c < row.1.cHi :=
      max_lt positive (lt_of_le_of_lt (min_le_left _ _) (not_le.mp before))
    have below := floor_lt_of_lt pm25_ladder member inside owns
    omega
  · intro le
    exact pm25_le le ending found

/-! ## The composite index -/

theorem Table.exists_index {bands : List Band} (table : Table bands) (c : Rat) :
    ∃ r, aqiFor c bands = some r :=
  (table.aqiFor_eq c).elim fun _ ⟨_, value⟩ => ⟨_, value⟩

theorem computeAqi_pm25 {c : Rat} {r : Int × String} (found : aqiFor c pm25Bands = some r) :
    computeAqi (some c) none = some r := by
  simp only [computeAqi, Option.bind_some, Option.bind_none, found, Option.toList_some,
    Option.toList_none, List.append_nil, maxCandidate, List.foldl_nil]

theorem computeAqi_pm10 {c : Rat} {r : Int × String} (found : aqiFor c pm10Bands = some r) :
    computeAqi none (some c) = some r := by
  simp only [computeAqi, Option.bind_some, Option.bind_none, found, Option.toList_some,
    Option.toList_none, List.nil_append, maxCandidate, List.foldl_nil]

theorem computeAqi_both {c d : Rat} {x y : Int × String} (found25 : aqiFor c pm25Bands = some x)
    (found10 : aqiFor d pm10Bands = some y) :
    computeAqi (some c) (some d) = some (if x.1 < y.1 then y else x) := by
  simp only [computeAqi, Option.bind_some, found25, found10, Option.toList_some, List.cons_append,
    List.nil_append, maxCandidate, List.foldl_cons, List.foldl_nil]

theorem larger_fst (x y : Int × String) : (if x.1 < y.1 then y else x).1 = max x.1 y.1 := by
  split <;> omega

theorem index_354 : aqiFor 354 pm10Bands = some (200, "Unhealthy") := by decide +kernel

theorem index_424 : aqiFor 424 pm10Bands = some (300, "Very Unhealthy") := by decide +kernel

/-- The raised PM10 reading drops into a gap and PM2.5 does not hold the index up. -/
def Drops (pm25' pm10 pm10' : Option Rat) : Prop :=
  (pm10 = some 354 ∧ (∃ c ∈ pm10', 354 < c ∧ c < 354 + 10 / 33) ∧ ∀ c ∈ pm25', c < 150.4) ∨
    (pm10 = some 424 ∧ (∃ c ∈ pm10', 424 < c ∧ c < 424 + 20 / 99) ∧ ∀ c ∈ pm25', c < 250.4)

/-- **More pollution**: with either reading raised, both or none, the index is not lower,
except where PM10 leaves 354 or 424 for the gap above and PM2.5 lies under the same
index. -/
theorem computeAqi_mono_iff {pm25 pm25' pm10 pm10' : Option Rat}
    (more25 : Option.Rel (· ≤ ·) pm25 pm25') (more10 : Option.Rel (· ≤ ·) pm10 pm10') :
    (∀ r ∈ computeAqi pm25 pm10, ∀ r' ∈ computeAqi pm25' pm10', r.1 ≤ r'.1) ↔
      ¬ Drops pm25' pm10 pm10' := by
  cases more10 with
  | none =>
      -- PM2.5 alone
      refine iff_of_true ?_ (by simp [Drops])
      cases more25 with
      | none => intro r found; cases found
      | @some c c' le =>
          obtain ⟨x, found⟩ := pm25_table.exists_index c
          obtain ⟨x', found'⟩ := pm25_table.exists_index c'
          rw [computeAqi_pm25 found, computeAqi_pm25 found']
          rintro _ ⟨⟩ _ ⟨⟩
          exact pm25_le le found found'
  | @some d d' le10 =>
      obtain ⟨y, found10⟩ := pm10_table.exists_index d
      obtain ⟨y', found10'⟩ := pm10_table.exists_index d'
      have alone := pm10_le_iff le10 found10 found10'
      cases more25 with
      | none =>
          rw [computeAqi_pm10 found10, computeAqi_pm10 found10']
          simpa [Drops] using alone
      | @some c c' le25 =>
          obtain ⟨x, found25⟩ := pm25_table.exists_index c
          obtain ⟨x', found25'⟩ := pm25_table.exists_index c'
          have more := pm25_le le25 found25 found25'
          rw [computeAqi_both found25 found10, computeAqi_both found25' found10']
          have larger : (∀ r ∈ some (if x.1 < y.1 then y else x),
              ∀ r' ∈ some (if x'.1 < y'.1 then y' else x'),
              r.1 ≤ r'.1) ↔ y.1 ≤ x'.1 ∨ y.1 ≤ y'.1 := by
            simp only [Option.mem_some_iff, forall_eq', larger_fst]
            omega
          rw [larger, alone]
          have masked354 (at_end : d = 354) : y.1 ≤ x'.1 ↔ 150.4 ≤ c' := by
            subst at_end
            rw [congrArg Prod.fst (Option.some.inj (found10.symm.trans index_354))]
            exact pm25_reaches_iff (⟨55.5, 150.4, 151, 200⟩, "Unhealthy") (by decide +kernel)
              (by norm_num)
              (by decide +kernel) found25'
          have masked424 (at_end : d = 424) : y.1 ≤ x'.1 ↔ 250.4 ≤ c' := by
            subst at_end
            rw [congrArg Prod.fst (Option.some.inj (found10.symm.trans index_424))]
            exact pm25_reaches_iff (⟨150.5, 250.4, 201, 300⟩, "Very Unhealthy") (by decide +kernel)
              (by norm_num) (by decide +kernel) found25'
          simp only [Drops, Option.mem_some_iff, Option.some.injEq, exists_eq_left', forall_eq']
          constructor
          · rintro (reached | steady) (⟨at_end, gap, low⟩ | ⟨at_end, gap, low⟩)
            · exact not_lt.mpr ((masked354 at_end).mp reached) low
            · exact not_lt.mpr ((masked424 at_end).mp reached) low
            · exact steady (Or.inl ⟨at_end, gap⟩)
            · exact steady (Or.inr ⟨at_end, gap⟩)
          · intro quiet
            by_contra dropped
            obtain ⟨below, dips⟩ := not_or.mp dropped
            rcases not_not.mp dips with ⟨at_end, gap⟩ | ⟨at_end, gap⟩
            · exact quiet (Or.inl ⟨at_end, gap, not_le.mp (mt (masked354 at_end).mpr below)⟩)
            · exact quiet (Or.inr ⟨at_end, gap, not_le.mp (mt (masked424 at_end).mpr below)⟩)

/-- PM2.5 crosses a category while PM10 enters the lowest gap. -/
theorem computeAqi_mono_steady :
    (12 : Rat) ≤ 35.5 ∧ ∀ r ∈ computeAqi (some 12) (some 54), ∀ r' ∈ computeAqi (some 35.5)
    (some 54.5), r.1 ≤ r'.1 :=
  ⟨by norm_num,
    (computeAqi_mono_iff (.some (by norm_num)) (.some (by norm_num))).mpr (by norm_num [Drops])⟩

/-- PM10 rises from 354 to 354.25 and the index falls from 200 to 199. -/
theorem computeAqi_drops :
    ¬ ∀ pm25 pm25' pm10 pm10' :
      Option Rat, Option.Rel (· ≤ ·) pm25 pm25' → Option.Rel (· ≤ ·) pm10 pm10' →
      ∀ r ∈ computeAqi pm25 pm10, ∀ r' ∈ computeAqi pm25' pm10', r.1 ≤ r'.1 := by
  intro mono
  have lower := mono none none (some 354) (some 354.25) .none (.some (by norm_num))
    (200, "Unhealthy") (by decide +kernel) (199, "Very Unhealthy") (by decide +kernel)
  exact absurd lower (by decide)

/-! ## Index and category -/

/-- The index lies in a row with that category. -/
def Agrees (rows : List (Band × String)) (index : Int) (category : String) : Prop :=
  ∃ row ∈ rows, row.2 = category ∧ row.1.iLo ≤ index ∧ index ≤ row.1.iHi

instance (rows : List (Band × String)) (index : Int) (category : String) :
    Decidable (Agrees rows index category) :=
  inferInstanceAs (Decidable (∃ row ∈ rows, row.2 = category ∧ row.1.iLo ≤ index ∧ index ≤ row.1.iHi))

/-- `c` lies strictly between two rows of different categories. -/
def InGap : List (Band × String) → Rat → Prop
  | row :: next :: rest, c => (row.1.cHi < c ∧ c < next.1.cLo ∧ row.2 ≠ next.2) ∨
    InGap (next :: rest) c
  | _, _ => False

instance decidableInGap : ∀ (rows : List (Band × String)) (c : Rat), Decidable (InGap rows c)
  | [], _ => isFalse id
  | [_], _ => isFalse id
  | row :: next :: rest, c =>
      have := decidableInGap (next :: rest) c
      inferInstanceAs (Decidable ((row.1.cHi < c ∧ c < next.1.cLo ∧ row.2 ≠ next.2) ∨ InGap (next :: rest) c))

theorem InGap.above :
    ∀ {rows : List (Band × String)} {row : Band × String} {c : Rat}, Stacked row.1 rows →
    InGap (row :: rows) c → row.1.cHi < c := by
  intro rows
  induction rows with
  | nil => intro row c _ gap; exact gap.elim
  | cons next rest ih =>
      intro row c stacked gap
      rcases gap with ⟨above, _, _⟩ | later
      · exact above
      · have width := stacked.1.rising.width
        have ascends := stacked.1.ascends
        have := ih stacked.2 later
        linarith

/-- Above a row, index and category agree on this row or a later one exactly outside the
gaps. -/
theorem Stacked.agrees_iff : ∀ {rows : List (Band × String)} {prev owned : Band × String} {c : Rat},
    prev.1.Rising → Stacked prev.1 rows → prev.1.cHi < c → owner rows c = some owned →
    (Agrees (prev :: rows) ⌊owned.1.interpolate c⌋ owned.2 ↔ ¬ InGap (prev :: rows) c) := by
  intro rows
  induction rows with
  | nil => intro prev owned c _ _ _ found; cases found
  | cons next rest ih =>
      intro prev owned c rising stacked beyond found
      obtain ⟨low, _⟩ := stacked.floor_ge beyond found
      have above := stacked.2.above
      obtain ⟨follows, later⟩ := stacked
      have index := follows.next
      have rises := rising.rises
      rcases le_or_gt c next.1.cHi with here | there
      · rw [owner_cons_of_le here, Option.some.injEq] at found
        subst found
        have none_later : ¬ InGap (next :: rest) c :=
          fun gap => absurd (gap.above later) (not_lt.mpr here)
        have started := follows.rising.le_floor_iff c
        have top := follows.rising.floor_le here
        rcases le_or_gt next.1.cLo c with inside | gap
        · refine iff_of_true ⟨next, by simp, rfl, started.mpr inside, top⟩ ?_
          rintro (⟨_, before, _⟩ | deeper)
          · linarith
          · exact none_later deeper
        · have under : ⌊next.1.interpolate c⌋ < next.1.iLo :=
            not_le.mp (mt started.mp (not_le.mpr gap))
          have gap_iff : InGap (prev :: next :: rest) c ↔ prev.2 ≠ next.2 :=
            ⟨fun found => found.elim (fun ⟨_, _, differ⟩ => differ) (fun deeper => absurd deeper none_later),
              fun differ => Or.inl ⟨beyond, gap, differ⟩⟩
          rw [gap_iff, not_not]
          constructor
          · rintro ⟨row, member, same, first, last⟩
            rcases List.mem_cons.mp member with rfl | member
            · exact same
            · rcases List.mem_cons.mp member with rfl | member
              · omega
              · obtain ⟨_, higher, _⟩ := above row member
                have := follows.rising.rises
                omega
          · intro same
            exact ⟨prev, List.mem_cons_self, same, by omega, by omega⟩
      · rw [owner_cons_of_lt there] at found
        obtain ⟨low', _⟩ := later.floor_ge there found
        have rises' := follows.rising.rises
        have deeper := ih follows.rising later there found
        have width := follows.rising.width
        have same_gap : InGap (prev :: next :: rest) c ↔ InGap (next :: rest) c :=
          ⟨fun gap => gap.elim (fun ⟨_, before, _⟩ => absurd (before.trans width) (not_lt.mpr there.le)) id, Or.inr⟩
        rw [same_gap, ← deeper]
        constructor
        · rintro ⟨row, member, same, first, last⟩
          rcases List.mem_cons.mp member with rfl | member
          · omega
          · exact ⟨row, member, same, first, last⟩
        · rintro ⟨row, member, rest⟩
          exact ⟨row, List.mem_cons_of_mem _ member, rest⟩

/-- **One table**: index and category of a concentration agree exactly outside the gaps. -/
theorem agrees_iff {first : Band × String} {rest : List (Band × String)}
    (ladder : Ladder (first :: rest)) {c : Rat} (start : first.1.cLo ≤ c) {owned : Band × String}
    (found : owner (first :: rest) c = some owned) :
    Agrees (first :: rest) ⌊owned.1.interpolate c⌋ owned.2 ↔ ¬ InGap (first :: rest) c := by
  obtain ⟨rising, stacked⟩ := ladder
  rcases le_or_gt c first.1.cHi with here | beyond
  · rw [owner_cons_of_le here, Option.some.injEq] at found
    subst found
    exact iff_of_true ⟨first, List.mem_cons_self, rfl, (rising.le_floor_iff c).mpr start,
      rising.floor_le here⟩
      fun gap => absurd (gap.above stacked) (not_lt.mpr here)
  · rw [owner_cons_of_lt beyond] at found
    exact stacked.agrees_iff rising beyond found

/-- A concentration that the clamping moves lies in no gap, neither before nor after. -/
theorem inGap_clamped_iff {bands : List Band} : ∀ {rows : List (Band × String)},
    (∀ row ∈ rows, 0 ≤ row.1.cHi ∧ row.1.cLo ≤ (bands.getLast?.map Band.cHi).getD 0) → ∀ c : Rat,
      (InGap rows (clamped bands c) ↔ InGap rows c) := by
  intro rows
  induction rows with
  | nil => exact fun _ _ => Iff.rfl
  | cons row rest ih =>
      intro bounds c
      cases rest with
      | nil => exact Iff.rfl
      | cons next rest =>
          have here :=
            clamped_between_iff (c := c) (bounds row (by simp)).1 (bounds next (by simp)).2
          have deeper := ih (fun row member => bounds row (List.mem_cons_of_mem _ member)) c
          rw [InGap, InGap, deeper, ← and_assoc, ← and_assoc, here]

/-- In a gap the row above owns the concentration, below its own start. -/
theorem Stacked.owner_of_inGap :
    ∀ {rows : List (Band × String)} {prev owned : Band × String} {c : Rat},
    Stacked prev.1 rows → prev.1.cHi < c → owner rows c = some owned → InGap (prev :: rows) c →
    c < owned.1.cLo ∧ ∃ row, [row, owned] <:+: prev :: rows ∧ row.1.cHi < c ∧ row.2 ≠ owned.2 := by
  intro rows
  induction rows with
  | nil => intro prev owned c _ _ found; cases found
  | cons next rest ih =>
      intro prev owned c stacked beyond found gap
      obtain ⟨follows, later⟩ := stacked
      have width := follows.rising.width
      rcases le_or_gt c next.1.cHi with here | there
      · rw [owner_cons_of_le here, Option.some.injEq] at found
        subst found
        rcases gap with ⟨above, below, differ⟩ | deeper
        · exact ⟨below, prev, List.IsPrefix.isInfix ⟨rest, rfl⟩, above, differ⟩
        · exact absurd (deeper.above later) (not_lt.mpr here)
      · rw [owner_cons_of_lt there] at found
        rcases gap with ⟨_, below, _⟩ | deeper
        · exact absurd (below.trans width) (not_lt.mpr there.le)
        · obtain ⟨below, row, inside, rest_facts⟩ := ih later there found deeper
          exact ⟨below, row, inside.trans (List.suffix_cons prev _).isInfix, rest_facts⟩

/-- A table whose index and category are to be compared. -/
structure Laddered (bands : List Band) : Prop where
  table : Table bands
  ladder : Ladder (bands.zip categories)
  start : ∀ row ∈ (bands.zip categories).head?, row.1.cLo ≤ 0
  bounds : ∀ row ∈ bands.zip categories, 0 ≤ row.1.cHi ∧
    row.1.cLo ≤ (bands.getLast?.map Band.cHi).getD 0

theorem pm25_laddered : Laddered pm25Bands :=
  ⟨pm25_table, pm25_ladder, by decide +kernel, by decide +kernel⟩

theorem pm10_laddered : Laddered pm10Bands :=
  ⟨pm10_table, pm10_ladder, by decide +kernel, by decide +kernel⟩

theorem Laddered.agrees_iff {bands : List Band} (laddered : Laddered bands) {c : Rat}
    {result : Int × String} (found : aqiFor c bands = some result) :
    Agrees (bands.zip categories) result.1 result.2 ↔ ¬ InGap (bands.zip categories) c := by
  obtain ⟨row, owned, value⟩ := laddered.table.aqiFor_eq c
  rw [found, Option.some.injEq] at value
  subst value
  rw [← inGap_clamped_iff laddered.bounds]
  have ladder := laddered.ladder
  have start := laddered.start
  cases rows : bands.zip categories with
  | nil => rw [rows] at owned; cases owned
  | cons first rest =>
      rw [rows] at owned ladder start
      exact Aqi.agrees_iff ladder (le_trans (start first rfl) (le_max_left _ _)) owned

/-- Between two categories the result has the category of the upper row and an index that
has not reached its first one. -/
theorem Laddered.result_of_inGap {bands : List Band} (laddered : Laddered bands) {c : Rat}
    {result : Int × String} (found : aqiFor c bands = some result)
    (gap : InGap (bands.zip categories) c) :
    ∃ row upper, [row, upper] <:+: bands.zip categories ∧ row.1.cHi < c ∧ c < upper.1.cLo ∧
      row.2 ≠ upper.2 ∧ result.2 = upper.2 ∧ result.1 < upper.1.iLo := by
  obtain ⟨owned, owns, value⟩ := laddered.table.aqiFor_eq c
  rw [found, Option.some.injEq] at value
  subst value
  have ladder := laddered.ladder
  have bounds := laddered.bounds
  have moved := (inGap_clamped_iff laddered.bounds c).mpr gap
  cases rows : bands.zip categories with
  | nil => rw [rows] at owns; cases owns
  | cons first rest =>
      rw [rows] at owns ladder bounds moved
      have beyond := moved.above ladder.2
      rw [owner_cons_of_lt beyond] at owns
      obtain ⟨below, row, inside, above, differ⟩ := ladder.2.owner_of_inGap beyond owns moved
      have lower := bounds row (inside.subset (by simp))
      have upper := bounds owned (inside.subset (by simp))
      obtain ⟨above', below'⟩ := (clamped_between_iff lower.1 upper.2).mp ⟨above, below⟩
      have rising : owned.1.Rising := (ladder.2.above owned (List.mem_of_find?_eq_some owns)).2.2
      exact ⟨row, owned, inside, above', below', differ, rfl,
        not_le.mp (mt (rising.le_floor_iff _).mp (not_le.mpr below))⟩

/-- The supplied concentrations, each with its table. -/
def supplied (pm25 pm10 : Option Rat) : List (List Band × Rat) :=
  (pm25.map fun c => (pm25Bands, c)).toList ++ (pm10.map fun c => (pm10Bands, c)).toList

theorem laddered_of_mem {pm25 pm10 : Option Rat} :
    ∀ entry ∈ supplied pm25 pm10, Laddered entry.1 := by
  intro entry member
  rcases List.mem_append.mp member with left | right
  · obtain ⟨c, _, rfl⟩ := Option.map_eq_some_iff.mp (Option.mem_toList.mp left)
    exact pm25_laddered
  · obtain ⟨c, _, rfl⟩ := Option.map_eq_some_iff.mp (Option.mem_toList.mp right)
    exact pm10_laddered

/-- The result is that of one of the supplied concentrations. -/
theorem computeAqi_decided {pm25 pm10 : Option Rat} {result : Int × String}
    (found : computeAqi pm25 pm10 = some result) :
    ∃ entry ∈ supplied pm25 pm10, aqiFor entry.2 entry.1 = some result := by
  rcases List.mem_append.mp (maxCandidate_mem found) with left | right
  · obtain ⟨c, rfl, here⟩ := Option.bind_eq_some_iff.mp (Option.mem_toList.mp left)
    exact ⟨(pm25Bands, c), by simp [supplied], here⟩
  · obtain ⟨c, rfl, here⟩ := Option.bind_eq_some_iff.mp (Option.mem_toList.mp right)
    exact ⟨(pm10Bands, c), by simp [supplied], here⟩

/-- **Index and category**: the index is in 0..500, and it lies in a row of the returned
category exactly where the deciding concentration is in no gap between two categories.  In
such a gap the category is the one of the row above, whose first index is not reached. -/
theorem computeAqi_agrees_iff {pm25 pm10 : Option Rat} {result : Int × String}
    (found : computeAqi pm25 pm10 = some result) :
    0 ≤ result.1 ∧ result.1 ≤ 500 ∧
      (∃ entry ∈ supplied pm25 pm10, aqiFor entry.2 entry.1 = some result) ∧
      ∀ entry ∈ supplied pm25 pm10, aqiFor entry.2 entry.1 = some result →
        (Agrees (entry.1.zip categories) result.1 result.2 ↔
          ¬ InGap (entry.1.zip categories) entry.2) ∧
          (InGap (entry.1.zip categories) entry.2 →
            ∃ row upper, [row, upper] <:+: entry.1.zip categories ∧ row.1.cHi < entry.2 ∧
              entry.2 < upper.1.cLo ∧ row.2 ≠ upper.2 ∧ result.2 = upper.2 ∧
                result.1 < upper.1.iLo) := by
  obtain ⟨low, high, _⟩ := computeAqi_range found
  refine ⟨low, high, computeAqi_decided found, ?_⟩
  intro entry member decided
  have laddered := laddered_of_mem entry member
  exact ⟨laddered.agrees_iff decided, laddered.result_of_inGap decided⟩

/-- Both readings inside their rows: 100 and 150. -/
theorem computeAqi_agrees_inside :
    (computeAqi (some 35.4) (some 254) = some (150, "Unhealthy for Sensitive Groups")) ∧
      Agrees (pm10Bands.zip categories) 150 "Unhealthy for Sensitive Groups" := by
  have found : computeAqi (some 35.4) (some 254) =
      some (150, "Unhealthy for Sensitive Groups") := by decide +kernel
  have decided :=
    (computeAqi_agrees_iff found).2.2.2 (pm10Bands, 254) (by simp [supplied]) (by decide +kernel)
  exact ⟨found, decided.1.mpr (by decide +kernel)⟩

/-- PM10 54.5 lies between the first two rows: the category is the upper one's, the index
the lower one's. -/
theorem computeAqi_disagrees :
    ¬ ∀ (pm25 pm10 : Option Rat) (result : Int × String), computeAqi pm25 pm10 = some result →
      0 ≤ result.1 ∧ result.1 ≤ 500 ∧
        ∃ bands ∈ [pm25Bands, pm10Bands], Agrees (bands.zip categories) result.1 result.2 := by
  intro always
  have here := (always none (some 54.5) (50, "Moderate") (by decide +kernel)).2.2
  exact absurd here (by decide +kernel)

end Empyrean.Ingest.Aqi
