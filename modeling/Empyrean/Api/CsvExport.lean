/-
# Empyrean.Api.CsvExport — the body of an export, in chunks

`_csv_chunks` writes a header and then row after row into one buffer, hands the buffer out
whenever it has grown to the chunk size, and stops at the first row that comes after the
timeout, with a last record that says so.  The buffer counts characters.

* `csvChunks` — the chunks; `exported` — the rows before the timeout.
* `flatten_csvChunks` — put together, the chunks are the written records, whatever the size.
* `read_csvChunks` — and they are read back as header, rows and, where rows are missing, sentinel.
* `chunkOf_chunksFrom` — what one chunk holds.
* `csvChunks_lossless` — all of it.
* `chunk_of_bytes` — in bytes a chunk of other than ASCII text can be larger.
-/
import Empyrean.Api.RangeParams
import Empyrean.Ingest.Tables
import Empyrean.Theory.Csv

namespace Empyrean.Api

set_option autoImplicit false

open Empyrean.Ingest
open Empyrean.Theory.Csv
open Empyrean.Theory.PyNumeral (Text)

/-! ## Rows -/

/-- A value of a column. -/
inductive Cell
  | none
  | bool (b : Bool)
  | str (text : Text)
  | int (n : Int)
  | float (x : Rat)

/-- `_CSV_COLUMNS` -/
def csvColumns : Record :=
  ["time".toList, "node_id".toList, "temperature".toList, "humidity".toList, "pressure".toList,
    "voc_ohm".toList,
    "mq135_ppm".toList, "pm1".toList, "pm25".toList, "pm10".toList, "battery_v".toList,
      "fuzzy_score".toList, "aqi".toList,
    "aqi_category".toList, "is_anomaly".toList]

/-- `_CSV_HEADER` -/
def csvHeader : Text := writeRow csvColumns

/-- `_TRUNCATED_SENTINEL` -/
def truncatedSentinel : Text :=
  "# TRUNCATED: export exceeded the server timeout — data is INCOMPLETE".toList

/-- `_CHUNK_BYTES` -/
def chunkBytes : Nat := 64 * 1024

/-- A row with arbitrary text for its node and category. -/
abbrev ExportRow := SensorReading Text

section Export

-- `isoformat` of the UTC time, and `str` of a float
variable (isoformat : Int → Text) (strFloat : Rat → Text)

/-- `_format_cell` -/
def formatCell : Cell → Text
  | .none => []
  | .bool b => if b then "true".toList else "false".toList
  | .str text => text
  | .int n => (toString n).toList
  | .float x => strFloat x

def Cell.ofOption {α : Type} (kind : α → Cell) : Option α → Cell
  | Option.none => .none
  | some value => kind value

/-- The first cell of a row; the column is not null. -/
def formatTime : Option Int → Text
  | Option.none => []
  | some time => replace "+00:00".toList "Z".toList (isoformat time)

/-- `_format_row` -/
def formatRow (r : ExportRow) : Record :=
  [formatTime isoformat (some r.time),
    formatCell strFloat (.str r.node),
    formatCell strFloat (.ofOption .float r.temperature),
    formatCell strFloat (.ofOption .float r.humidity),
    formatCell strFloat (.ofOption .float r.pressure),
    formatCell strFloat (.ofOption .float r.vocOhm),
    formatCell strFloat (.ofOption .float r.mq135Ppm),
    formatCell strFloat (.ofOption .float r.pm1),
    formatCell strFloat (.ofOption .float r.pm25),
    formatCell strFloat (.ofOption .float r.pm10),
    formatCell strFloat (.ofOption .float r.batteryV),
    formatCell strFloat (.ofOption .float r.fuzzyScore),
    formatCell strFloat (.ofOption .int r.aqi),
    formatCell strFloat (.ofOption (fun category => .str category.toList) r.aqiCategory),
    formatCell strFloat (.bool r.isAnomaly)]

/-- What `writer.writerow(_format_row(row))` writes. -/
def renderRow (r : ExportRow) : Text := writeRow (formatRow isoformat strFloat r)

/-- The last record of a stream that was cut. -/
def trailer : Text := writeRow [truncatedSentinel]

/-! ## Chunks -/

/-- The loop of `_csv_chunks`, with what is in the buffer; `expired` are the rows that come after
the timeout. -/
def chunksFrom (size : Nat) (expired : Nat → Bool) : Nat → Text → List ExportRow → List Text
  | _, out, [] => if out.length ≠ 0 then [out] else []
  | i, out, row :: rows =>
      if expired i then [out, trailer]
      else
        let out := out ++ renderRow isoformat strFloat row
        if size ≤ out.length then out :: chunksFrom size expired (i + 1) [] rows
        else chunksFrom size expired (i + 1) out rows

/-- The clock is read at the start and once for each row. -/
def afterTimeout (timeout : Int) (clock : Nat → Rat) (i : Nat) : Bool :=
  decide (clock (i + 1) - clock 0 > timeout)

/-- `_csv_chunks`, for a chunk size. -/
def csvChunks (size : Nat) (timeout : Int) (clock : Nat → Rat) (rows : List ExportRow) :
    List Text :=
  chunksFrom isoformat strFloat size (afterTimeout timeout clock) 0 csvHeader rows

/-! ## Put together -/

/-- The rows before the first one that comes after the timeout. -/
def exported (expired : Nat → Bool) : Nat → List ExportRow → List ExportRow
  | _, [] => []
  | i, row :: rows => if expired i then [] else row :: exported expired (i + 1) rows

theorem exported_prefix (expired : Nat → Bool) (rows : List ExportRow) :
    ∀ i, exported expired i rows <+: rows := by
  induction rows with
  | nil => exact fun _ => List.prefix_rfl
  | cons row rows ih =>
      intro i
      unfold exported
      split
      · exact List.nil_prefix
      · exact List.cons_prefix_cons.mpr ⟨rfl, ih (i + 1)⟩

/-- The records of the body. -/
def bodyRecords (taken rows : List ExportRow) : List Record :=
  csvColumns :: taken.map (formatRow isoformat strFloat) ++
    if taken.length < rows.length then [[truncatedSentinel]] else []

variable {isoformat strFloat}

theorem flatten_chunksFrom (size : Nat) (expired : Nat → Bool) (rows : List ExportRow) :
    ∀ (i : Nat) (out : Text), (chunksFrom isoformat strFloat size expired i out rows).flatten =
      out ++ (exported expired i rows).flatMap (renderRow isoformat strFloat) ++
        if (exported expired i rows).length < rows.length then trailer else [] := by
  induction rows with
  | nil =>
      intro i out
      cases out <;> simp [chunksFrom, exported]
  | cons row rows ih =>
      intro i out
      unfold chunksFrom exported
      by_cases late : expired i
      · simp [late]
      · simp only [late, Bool.false_eq_true, if_false, List.flatMap_cons, List.length_cons,
          Nat.add_lt_add_iff_right]
        split
        · rw [List.flatten_cons, ih]
          simp
        · rw [ih]
          simp

/-- **The chunks are the written records**, wherever they are cut. -/
theorem flatten_csvChunks (size : Nat) (timeout : Int) (clock : Nat → Rat) (rows : List ExportRow) :
    (csvChunks isoformat strFloat size timeout clock rows).flatten =
      (bodyRecords isoformat strFloat (exported (afterTimeout timeout clock) 0 rows) rows).flatMap writeRow := by
  have rendered : renderRow isoformat strFloat =
      fun row => writeRow (formatRow isoformat strFloat row) := rfl
  rw [csvChunks, flatten_chunksFrom, bodyRecords, List.cons_append, List.flatMap_cons,
    List.flatMap_append, List.flatMap_map, rendered]
  split <;> simp [csvHeader, trailer]

theorem bodyRecords_nonempty (taken rows : List ExportRow) :
    ∀ record ∈ bodyRecords isoformat strFloat taken rows, record ≠ [] := by
  intro record member
  simp only [bodyRecords, List.mem_append, List.mem_cons, List.mem_map] at member
  rcases member with (rfl | ⟨row, _, rfl⟩) | cut
  · simp [csvColumns]
  · simp [formatRow]
  · split at cut
    · obtain rfl : record = [truncatedSentinel] := by simpa using cut
      simp
    · simp at cut

theorem read_csvChunks (size : Nat) (timeout : Int) (clock : Nat → Rat) (rows : List ExportRow) :
    read (csvChunks isoformat strFloat size timeout clock rows).flatten =
      some (bodyRecords isoformat strFloat (exported (afterTimeout timeout clock) 0 rows) rows) := by
  rw [flatten_csvChunks, read_writeRows _ (bodyRecords_nonempty _ _)]

/-! ## One chunk -/

variable (isoformat strFloat) in
/-- The characters of the text are in the buffer or in a row. -/
def MadeOf (out : Text) (rows : List ExportRow) (text : Text) : Prop :=
  ∀ c ∈ text, c ∈ out ∨ ∃ row ∈ rows, c ∈ renderRow isoformat strFloat row

variable (isoformat strFloat) in
/-- What a chunk is: less than the chunk size, or that and one row more. -/
inductive ChunkOf (size : Nat) (out : Text) (rows : List ExportRow) : Text → Prop
  | trailer : ChunkOf size out rows trailer
  | short {before : Text} (below : before.length < size)
  (made : MadeOf isoformat strFloat out rows before) :
      ChunkOf size out rows before
  | grown {before : Text} {row : ExportRow} (below : before.length < size)
  (made : MadeOf isoformat strFloat out rows before)
      (among : row ∈ rows) : ChunkOf size out rows (before ++ renderRow isoformat strFloat row)

theorem MadeOf.cons {out out' text : Text} {row : ExportRow} {rows : List ExportRow}
    (made : MadeOf isoformat strFloat out' rows text) (chars : ∀ c ∈ out', c ∈ out ∨
      c ∈ renderRow isoformat strFloat row) : MadeOf isoformat strFloat out (row :: rows) text := by
  intro c inside
  rcases made c inside with mine | ⟨other, among, mine⟩
  · exact (chars c mine).imp_right fun mine => ⟨row, by simp, mine⟩
  · exact .inr ⟨other, by simp [among], mine⟩

theorem ChunkOf.cons {size : Nat} {out out' chunk : Text} {row : ExportRow} {rows : List ExportRow}
    (chunkOf : ChunkOf isoformat strFloat size out' rows chunk)
    (chars : ∀ c ∈ out', c ∈ out ∨ c ∈ renderRow isoformat strFloat row) :
    ChunkOf isoformat strFloat size out (row :: rows) chunk := by
  cases chunkOf with
  | trailer => exact .trailer
  | short below made => exact .short below (made.cons chars)
  | grown below made among => exact .grown below (made.cons chars) (List.mem_cons_of_mem _ among)

theorem chunkOf_chunksFrom {size : Nat} {expired : Nat → Bool} {rows : List ExportRow}
    {chunk : Text} : ∀ {i : Nat} {out : Text}, out.length < size →
      chunk ∈ chunksFrom isoformat strFloat size expired i out rows →
      ChunkOf isoformat strFloat size out rows chunk := by
  induction rows with
  | nil =>
      intro i out below member
      unfold chunksFrom at member
      split at member
      · obtain rfl := List.mem_singleton.mp member
        exact .short below fun c => .inl
      · cases member
  | cons row rows ih =>
      intro i out below member
      unfold chunksFrom at member
      split at member
      · rcases List.mem_pair.mp member with rfl | rfl
        · exact .short below fun c => .inl
        · exact .trailer
      · simp only at member
        split at member
        · rcases List.mem_cons.mp member with rfl | rest
          · exact .grown below (fun c => .inl) (by simp)
          · exact (ih (by simpa using Nat.zero_lt_of_lt below) rest).cons (by simp)
        · rename_i small
          exact (ih (Nat.lt_of_not_le small) member).cons fun c => List.mem_append.mp

/-- The length of a text in UTF-8. -/
def utf8Length (text : Text) : Nat := (text.map Char.utf8Size).sum

variable (isoformat strFloat) in
/-- The chunk exceeds 64 Ki by less than its last row, in characters or in bytes. -/
def Within (measure : Text → Nat) (rows : List ExportRow) (chunk : Text) : Prop :=
  measure chunk < chunkBytes ∨ ∃ row ∈ rows, renderRow isoformat strFloat row <:+ chunk ∧
    measure chunk < chunkBytes + measure (renderRow isoformat strFloat row)

variable (isoformat strFloat) in
/-- What is written of the rows is ASCII. -/
def Ascii (rows : List ExportRow) : Prop :=
  ∀ row ∈ rows, ∀ c ∈ renderRow isoformat strFloat row, c.utf8Size = 1

theorem utf8Length_ascii {text : Text} (ascii : ∀ c ∈ text, c.utf8Size = 1) :
    utf8Length text = text.length := by
  unfold utf8Length
  rw [List.map_congr_left ascii]
  simp

theorem length_csvHeader : csvHeader.length = 126 := by decide +kernel

theorem header_short : csvHeader.length < chunkBytes := by
  rw [length_csvHeader]
  decide

theorem within_length {timeout : Int} {clock : Nat → Rat} {rows : List ExportRow} {chunk : Text}
    (member : chunk ∈ csvChunks isoformat strFloat chunkBytes timeout clock rows) :
    Within isoformat strFloat List.length rows chunk := by
  cases chunkOf_chunksFrom header_short member with
  | trailer => exact .inl (by decide +kernel)
  | short below _ => exact .inl below
  | @grown before row below _ among =>
      exact .inr ⟨row, among, List.suffix_append _ _, by simpa using below⟩

theorem utf8Length_append (text rest : Text) :
    utf8Length (text ++ rest) = utf8Length text + utf8Length rest := by
  simp [utf8Length]

theorem header_ascii : ∀ c ∈ csvHeader, c.utf8Size = 1 := by
  have every : (csvHeader.all fun c => c.utf8Size == 1) = true := by decide +kernel
  exact fun c inside => beq_iff_eq.mp (List.all_eq_true.mp every c inside)

theorem utf8Length_madeOf {rows : List ExportRow} {text : Text}
    (ascii : Ascii isoformat strFloat rows) (made : MadeOf isoformat strFloat csvHeader rows text) :
    utf8Length text = text.length := by
  apply utf8Length_ascii
  intro c inside
  rcases made c inside with title | ⟨row, among, cell⟩
  · exact header_ascii c title
  · exact ascii row among c cell

theorem within_utf8Length {timeout : Int} {clock : Nat → Rat} {rows : List ExportRow} {chunk : Text}
    (ascii : Ascii isoformat strFloat rows)
    (member : chunk ∈ csvChunks isoformat strFloat chunkBytes timeout clock rows) :
    Within isoformat strFloat utf8Length rows chunk := by
  cases chunkOf_chunksFrom header_short member with
  | trailer => exact .inl (by decide +kernel)
  | short below made => exact .inl (by rwa [utf8Length_madeOf ascii made])
  | @grown before row below made among =>
      refine .inr ⟨row, among, List.suffix_append _ _, ?_⟩
      rw [utf8Length_append, utf8Length_madeOf ascii made]
      omega

variable (isoformat strFloat) in
/-- **The export is lossless**, its truncation shows, and its chunks are bounded: in characters, and
in bytes where the rows are ASCII. -/
theorem csvChunks_lossless (timeout : Int) (clock : Nat → Rat) (rows : List ExportRow) :
    (∃ taken, taken <+: rows ∧
      ∀ size, read (csvChunks isoformat strFloat size timeout clock rows).flatten =
      some (csvColumns :: taken.map (formatRow isoformat strFloat) ++
        if taken.length < rows.length then [[truncatedSentinel]] else [])) ∧
    (∀ size, (csvChunks isoformat strFloat size timeout clock rows).flatten =
      (csvChunks isoformat strFloat chunkBytes timeout clock rows).flatten) ∧
    ∀ chunk ∈ csvChunks isoformat strFloat chunkBytes timeout clock rows,
      Within isoformat strFloat List.length rows chunk ∧
        (Ascii isoformat strFloat rows → Within isoformat strFloat utf8Length rows chunk) := by
  refine ⟨⟨_, exported_prefix (afterTimeout timeout clock) rows 0, fun size => read_csvChunks size timeout clock rows⟩, ?_, ?_⟩
  · intro size
    rw [flatten_csvChunks, flatten_csvChunks]
  · exact fun chunk member => ⟨within_length member, fun ascii => within_utf8Length ascii member⟩

/-! ## Other than ASCII -/

/-- Rows that fill a chunk. -/
theorem chunksFrom_fill {size : Nat} {expired : Nat → Bool} (never : ∀ i, expired i = false)
    {last : ExportRow} {rest : List ExportRow} (rows : List ExportRow) : ∀ (i : Nat) (out : Text),
      (out ++ rows.flatMap (renderRow isoformat strFloat)).length < size →
      size ≤ (out ++ rows.flatMap (renderRow isoformat strFloat) ++ renderRow isoformat strFloat last).length →
      out ++ rows.flatMap (renderRow isoformat strFloat) ++ renderRow isoformat strFloat last ∈
        chunksFrom isoformat strFloat size expired i out (rows ++ last :: rest) := by
  induction rows with
  | nil =>
      intro i out _ full
      rw [List.flatMap_nil, List.append_nil] at full ⊢
      simp only [List.nil_append, chunksFrom, never, Bool.false_eq_true, if_false, if_pos full]
      exact List.mem_cons_self
  | cons row rows ih =>
      intro i out below full
      have small : ¬ size ≤ (out ++ renderRow isoformat strFloat row).length := by
        simp only [List.flatMap_cons, List.length_append] at below ⊢
        omega
      rw [List.flatMap_cons, ← List.append_assoc] at below full ⊢
      simp only [List.cons_append, chunksFrom, never, Bool.false_eq_true, if_false, if_neg small]
      exact ih (i + 1) (out ++ renderRow isoformat strFloat row) below full

end Export

/-- A node and a category of accented letters, as long as their columns are wide. -/
def accentedRow : ExportRow where
  time := 0
  node := List.replicate 50 'é'
  temperature := none
  humidity := none
  pressure := none
  vocOhm := none
  mq135Ppm := none
  pm1 := none
  pm25 := none
  pm10 := none
  batteryV := none
  fuzzyScore := none
  aqi := none
  aqiCategory := some (String.ofList (List.replicate 40 'é'))
  isAnomaly := false

def firstDay (_ : Int) : Text := "0001-01-01T00:00:00+00:00".toList

/-- `_format_row` of rows without a float. -/
def noFloat (_ : Rat) : Text := []

def accented : Text := renderRow firstDay noFloat accentedRow

theorem length_accented : accented.length = 131 := by decide +kernel

theorem utf8Length_accented : utf8Length accented = 221 := by decide +kernel

theorem additive_replicate (measure : Text → Nat) (nil : measure [] = 0)
    (append : ∀ text rest, measure (text ++ rest) = measure text + measure rest) (n : Nat) :
    measure ((List.replicate n accentedRow).flatMap (renderRow firstDay noFloat)) =
      n * measure accented := by
  induction n with
  | zero => simp [nil]
  | succ n ih =>
      rw [List.replicate_succ, List.flatMap_cons, append, ih]
      change measure accented + _ = _
      ring

/-- The first chunk of 500 such rows holds 65626 characters and 110626 bytes. -/
theorem chunk_of_bytes :
    ∃ chunk ∈ csvChunks firstDay noFloat chunkBytes 300 (fun _ => 0)
      (List.replicate 500 accentedRow),
    ¬ Within firstDay noFloat utf8Length (List.replicate 500 accentedRow) chunk := by
  let before := csvHeader ++ (List.replicate 499 accentedRow).flatMap (renderRow firstDay noFloat)
  have length : before.length = 65495 := by
    simp only [before, List.length_append, length_csvHeader,
      additive_replicate List.length rfl (fun _ _ => List.length_append), length_accented]
  have bytes : utf8Length before = 110405 := by
    have title : utf8Length csvHeader = 126 := by
      rw [utf8Length_ascii header_ascii, length_csvHeader]
    simp only [before, utf8Length_append, title,
      additive_replicate utf8Length rfl utf8Length_append, utf8Length_accented]
  have full : chunkBytes ≤ (before ++ accented).length := by
    rw [List.length_append, length, length_accented]
    decide
  refine ⟨before ++ accented, ?_, ?_⟩
  · have never : ∀ i, afterTimeout 300 (fun _ => 0) i = false := fun _ => by simp [afterTimeout]
    rw [show List.replicate 500 accentedRow =
      List.replicate 499 accentedRow ++ [accentedRow] from List.replicate_succ' ..]
    exact chunksFrom_fill never _ 0 csvHeader (by rw [length]; decide) full
  · rintro (below | ⟨row, among, _, below⟩)
    · rw [utf8Length_append, bytes, utf8Length_accented] at below
      exact absurd below (by decide)
    · have same : renderRow firstDay noFloat row = accented := by
        rw [List.eq_of_mem_replicate among]; rfl
      rw [same] at below
      rw [utf8Length_append, bytes, utf8Length_accented] at below
      exact absurd below (by decide)

end Empyrean.Api
