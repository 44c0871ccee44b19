/-
# Empyrean.Ingest.Aqi — the EPA index of a reading

`tasks/aqi.py` over exact rationals: the breakpoint tables, linear interpolation inside
the band of the concentration, truncated, and the larger of the two indices.

The bands leave gaps (35.4 to 35.5): a concentration in a gap is interpolated backwards
from the band above it.  `aqiFor_range` shows that this, like the clamping at the ends,
leaves the index between 0 and 500 for every concentration.
-/
import Empyrean.Theory.Rounding

namespace Empyrean.Ingest.Aqi

set_option autoImplicit false

/-! ## Tables -/

structure Band where
  cLo : Rat
  cHi : Rat
  iLo : Int
  iHi : Int
deriving DecidableEq

def pm25Bands : List Band :=
  [⟨0, 12, 0, 50⟩, ⟨12, 35.4, 51, 100⟩, ⟨35.5, 55.4, 101, 150⟩, ⟨55.5, 150.4, 151, 200⟩,
    ⟨150.5, 250.4, 201, 300⟩, ⟨250.5, 350.4, 301, 400⟩, ⟨350.5, 500.4, 401, 500⟩]

def pm10Bands : List Band :=
  [⟨0, 54, 0, 50⟩, ⟨55, 154, 51, 100⟩, ⟨155, 254, 101, 150⟩, ⟨255, 354, 151, 200⟩,
    ⟨355, 424, 201, 300⟩, ⟨425, 504, 301, 400⟩, ⟨505, 604, 401, 500⟩]

def categories : List String :=
  ["Good", "Moderate", "Unhealthy for Sensitive Groups", "Unhealthy", "Very Unhealthy", "Hazardous",
    "Hazardous"]

/-! ## The functions -/

/-- `_subindex` with the band and the category it is used to look up: the first band the
concentration does not exceed, else the last one. -/
def subindex (concentration : Rat) (bands : List (Band × String)) : Option (Band × String) :=
  (bands.find? fun band => decide (concentration ≤ band.1.cHi)).or bands.getLast?

/-- The point of the band's line at `c`. -/
def Band.interpolate (band : Band) (c : Rat) : Rat :=
  (band.iHi - band.iLo : Int) / (band.cHi - band.cLo) * (c - band.cLo) + band.iLo

/-- `_aqi_for` of a finite concentration; `none` only for a table without bands. -/
def aqiFor (concentration : Rat) (bands : List Band) : Option (Int × String) := do
  let top ← bands.getLast?
  let c := max 0 (min concentration top.cHi)
  let (band, category) ← subindex c (bands.zip categories)
  return (⌊band.interpolate c⌋, category)

/-- `max(candidates, key=lambda c: c[0])`: the first of the largest. -/
def maxCandidate : List (Int × String) → Option (Int × String)
  | [] => none
  | first :: rest =>
      some (rest.foldl (fun best next => if best.1 < next.1 then next else best) first)

/-- `compute_aqi`: the candidates in the order PM2.5, PM10. -/
def computeAqi (pm25 pm10 : Option Rat) : Option (Int × String) :=
  maxCandidate ((pm25.bind (aqiFor · pm25Bands)).toList ++ (pm10.bind (aqiFor · pm10Bands)).toList)

/-! ## The range of the index -/

/-- The band's line rises, from 0 at `above` at the least to 500 at its end at the most. -/
structure Band.Sound (above : Rat) (band : Band) : Prop where
  width : band.cLo < band.cHi
  rises : band.iLo ≤ band.iHi
  start : 0 ≤ band.interpolate above
  stop : band.iHi ≤ 500

instance (above : Rat) (band : Band) : Decidable (band.Sound above) :=
  decidable_of_iff (band.cLo < band.cHi ∧ band.iLo ≤ band.iHi ∧ 0 ≤ band.interpolate above ∧
    band.iHi ≤ 500)
    ⟨fun ⟨a, b, c, d⟩ => ⟨a, b, c, d⟩, fun ⟨a, b, c, d⟩ => ⟨a, b, c, d⟩⟩

theorem Band.interpolate_mono {band : Band} {above : Rat} (sound : band.Sound above) {c c' : Rat}
    (le : c ≤ c') : band.interpolate c ≤ band.interpolate c' := by
  have slope : (0 : Rat) ≤ (band.iHi - band.iLo : Int) / (band.cHi - band.cLo) :=
    div_nonneg (by exact_mod_cast sub_nonneg.mpr sound.rises) (sub_nonneg.mpr sound.width.le)
  have step := mul_le_mul_of_nonneg_left (sub_le_sub_right le band.cLo) slope
  unfold Band.interpolate
  linarith

theorem Band.interpolate_end {band : Band} {above : Rat} (sound : band.Sound above) :
    band.interpolate band.cHi = band.iHi := by
  have width : band.cHi - band.cLo ≠ 0 := sub_ne_zero.mpr sound.width.ne'
  unfold Band.interpolate
  rw [div_mul_cancel₀ _ width]
  push_cast
  ring

theorem Band.Sound.range {band : Band} {above c : Rat} (sound : band.Sound above) (low : above ≤ c)
    (high : c ≤ band.cHi) : 0 ≤ ⌊band.interpolate c⌋ ∧ ⌊band.interpolate c⌋ ≤ 500 := by
  constructor
  · apply Int.le_floor.mpr
    rw [Int.cast_zero]
    exact le_trans sound.start (Band.interpolate_mono sound low)
  · have top : band.interpolate c ≤ band.iHi :=
      (Band.interpolate_end sound) ▸ Band.interpolate_mono sound high
    have bounded : (band.iHi : Rat) ≤ (500 : Int) := by exact_mod_cast sound.stop
    exact Int.floor_le_iff.mpr (lt_of_le_of_lt (le_trans top bounded) (lt_add_one _))

/-- Consecutive bands from `above` on: each is sound from the end of the one before. -/
def Chain : Rat → List (Band × String) → Prop
  | _, [] => True
  | above, band :: rest => band.1.Sound above ∧ Chain band.1.cHi rest

instance decidableChain :
    ∀ (above : Rat) (bands : List (Band × String)), Decidable (Chain above bands)
  | _, [] => isTrue trivial
  | above, band :: rest =>
      have := decidableChain band.1.cHi rest
      inferInstanceAs (Decidable (band.1.Sound above ∧ Chain band.1.cHi rest))

theorem Chain.range :
    ∀ {bands : List (Band × String)} {above c : Rat}, Chain above bands → above ≤ c →
    ∀ entry, bands.find? (fun band => decide (c ≤ band.1.cHi)) = some entry →
      0 ≤ ⌊entry.1.interpolate c⌋ ∧ ⌊entry.1.interpolate c⌋ ≤ 500 := by
  intro bands
  induction bands with
  | nil => intro above c _ _ entry found; cases found
  | cons band rest ih =>
      intro above c chain low entry found
      rw [List.find?_cons] at found
      by_cases here : c ≤ band.1.cHi
      · simp only [here, decide_true, Option.some.injEq] at found
        subst found
        exact chain.1.range low here
      · simp only [here, decide_false] at found
        exact ih chain.2 (not_le.mp here).le entry found

/-- A table the index can be read from: its bands are consecutive, one of them ends where
the clamping does, and the categories fit their column. -/
structure Table (bands : List Band) : Prop where
  chain : Chain 0 (bands.zip categories)
  top : ∃ entry ∈ bands.zip categories, ∀ band ∈ bands.getLast?, 0 ≤ band.cHi ∧
    band.cHi ≤ entry.1.cHi
  length : ∀ entry ∈ bands.zip categories, entry.2.length ≤ 40

theorem pm25_table : Table pm25Bands :=
  ⟨by decide +kernel, by decide +kernel, by decide +kernel⟩

theorem pm10_table : Table pm10Bands :=
  ⟨by decide +kernel, by decide +kernel, by decide +kernel⟩

/-- The row that owns a concentration. -/
def owner (rows : List (Band × String)) (c : Rat) : Option (Band × String) :=
  rows.find? fun row => decide (c ≤ row.1.cHi)

/-- The concentration the row is looked up with. -/
def clamped (bands : List Band) (concentration : Rat) : Rat :=
  max 0 (min concentration ((bands.getLast?.map Band.cHi).getD 0))

/-- Every concentration is owned by a row, whose line is the index. -/
theorem Table.aqiFor_eq {bands : List Band} (table : Table bands) (concentration : Rat) :
    ∃ row, owner (bands.zip categories) (clamped bands concentration) = some row ∧
      aqiFor concentration bands =
        some (⌊row.1.interpolate (clamped bands concentration)⌋, row.2) := by
  obtain ⟨ending, member, bounds⟩ := table.top
  obtain ⟨top, last⟩ : ∃ top, bands.getLast? = some top := by
    cases bands with
    | nil => cases member
    | cons first rest => exact ⟨_, List.getLast?_cons⟩
  obtain ⟨nonneg, reaches⟩ := bounds top last
  have lookup : clamped bands concentration = max 0 (min concentration top.cHi) := by
    rw [clamped, last, Option.map_some, Option.getD_some]
  have covered : clamped bands concentration ≤ ending.1.cHi :=
    lookup ▸ le_trans (max_le nonneg (min_le_right _ _)) reaches
  have found : (owner (bands.zip categories) (clamped bands concentration)).isSome :=
    List.find?_isSome.mpr ⟨ending, member, decide_eq_true covered⟩
  obtain ⟨row, owned⟩ := Option.isSome_iff_exists.mp found
  refine ⟨row, owned, ?_⟩
  have found : subindex (clamped bands concentration) (bands.zip categories) = some row := by
    rw [subindex, ← owner, owned, Option.some_or]
  simp only [aqiFor, last, Option.bind_eq_bind, Option.bind_some, ← lookup, found, Option.pure_def]

/-- What the AQI columns hold. -/
def InRange (candidate : Int × String) : Prop :=
  0 ≤ candidate.1 ∧ candidate.1 ≤ 500 ∧ candidate.2.length ≤ 40

theorem aqiFor_range {bands : List Band} (table : Table bands) {concentration : Rat}
    {result : Int × String} (found : aqiFor concentration bands = some result) :
    InRange result := by
  obtain ⟨row, owned, value⟩ := table.aqiFor_eq concentration
  rw [value, Option.some.injEq] at found
  obtain ⟨low, high⟩ := table.chain.range (le_max_left 0 _) row owned
  subst found
  exact ⟨low, high, table.length _ (List.mem_of_find?_eq_some owned)⟩

theorem maxCandidate_mem {candidates : List (Int × String)} {result : Int × String}
    (found : maxCandidate candidates = some result) : result ∈ candidates := by
  cases candidates with
  | nil => cases found
  | cons first rest =>
      simp only [maxCandidate, Option.some.injEq] at found
      subst found
      induction rest generalizing first with
      | nil => exact List.mem_cons_self
      | cons next rest ih =>
          simp only [List.foldl_cons]
          split
          · exact List.mem_cons_of_mem _ (ih next)
          · rcases List.mem_cons.mp (ih first) with same | later
            · rw [same]
              exact List.mem_cons_self
            · exact List.mem_cons_of_mem _ (List.mem_cons_of_mem _ later)

/-- **The index** of any reading fits its columns. -/
theorem computeAqi_range {pm25 pm10 : Option Rat} {result : Int × String}
    (found : computeAqi pm25 pm10 = some result) : InRange result := by
  rcases List.mem_append.mp (maxCandidate_mem found) with left | right
  · obtain ⟨c, _, here⟩ := Option.bind_eq_some_iff.mp (Option.mem_toList.mp left)
    exact aqiFor_range pm25_table here
  · obtain ⟨c, _, here⟩ := Option.bind_eq_some_iff.mp (Option.mem_toList.mp right)
    exact aqiFor_range pm10_table here

end Empyrean.Ingest.Aqi
