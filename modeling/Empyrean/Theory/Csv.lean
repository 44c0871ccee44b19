/-
# Empyrean.Theory.Csv — records of text fields, written and read

RFC 4180: fields are separated by commas, records end in CRLF, and a field that holds one
of the special characters stands in quotes, in which a quote is doubled.  The writer quotes
no more than it must; a record of one empty field is quoted too, since its line would
otherwise be empty.  The reader is a machine that takes one character at a time and refuses
what the grammar does not have.

* `writeRow` — one record.
* `feed`, `read` — the machine, and what it makes of a whole text.
* `feeds_writeRow` — a written record takes the machine from the start of a record to the
  start of the next.
* `read_writeRows` — what is written is read back, however often the records end in special
  characters.
-/
import Mathlib.Data.List.Basic

namespace Empyrean.Theory.Csv

set_option autoImplicit false

abbrev Field := List Char
abbrev Record := List Field

/-! ## Writing -/

def special (c : Char) : Bool := c = ',' || c = '"' || c = '\r' || c = '\n'

/-- A quote is doubled. -/
def escape (field : Field) : Field := field.flatMap fun c => if c = '"' then ['"', '"'] else [c]

/-- A field, which may be the only one of its record. -/
def writeField (alone : Bool) (field : Field) : Field :=
  if field.any special || (alone && field.isEmpty) then '"' :: escape field ++ ['"'] else field

/-- Each field but the first follows a comma. -/
def writeFields (alone : Bool) : Record → Field
  | [] => []
  | [field] => writeField alone field
  | field :: rest => writeField alone field ++ ',' :: writeFields alone rest

def writeRow (record : Record) : Field := writeFields (record.length = 1) record ++ ['\r', '\n']

/-! ## Reading -/

inductive Mode
  | recordStart
  | fieldStart
  | plain
  | quoted
  /-- After a quote inside a quoted field: its end, or the first of two. -/
  | quote
  | carriageReturn
  deriving DecidableEq

structure Reader where
  records : List Record
  fields : Record
  field : Field
  mode : Mode
  deriving DecidableEq

namespace Reader

def start (records : List Record) : Reader := ⟨records, [], [], .recordStart⟩

variable (r : Reader)

def addChar (c : Char) (mode : Mode) : Reader := { r with field := r.field ++ [c], mode := mode }

def endField : Reader :=
  { r with fields := r.fields ++ [r.field], field := [], mode := .fieldStart }

def endRecord : Reader :=
  { r with fields := r.fields ++ [r.field], field := [], mode := .carriageReturn }

/-- The next character, where the field is not or no longer in quotes. -/
def feedBare (c : Char) : Option Reader :=
  if c = ',' then some r.endField
  else if c = '\r' then some r.endRecord
  else none

def feed (c : Char) : Option Reader :=
  match r.mode with
  | .recordStart | .fieldStart =>
      if c = '"' then some { r with mode := .quoted }
      else if special c then r.feedBare c
      else some (r.addChar c .plain)
  | .plain => if special c then r.feedBare c else some (r.addChar c .plain)
  | .quoted => if c = '"' then some { r with mode := .quote } else some (r.addChar c .quoted)
  | .quote => if c = '"' then some (r.addChar c .quoted) else r.feedBare c
  | .carriageReturn => if c = '\n' then some (start (r.records ++ [r.fields])) else none

def feeds (r : Reader) (text : List Char) : Option Reader := text.foldlM feed r

/-- The last record may lack its CRLF. -/
def finish : Option (List Record) :=
  match r.mode with
  | .recordStart => some r.records
  | .fieldStart | .plain | .quote => some (r.records ++ [r.fields ++ [r.field]])
  | .quoted | .carriageReturn => none

end Reader

/-- The records of a text; `none` where it is not of the grammar. -/
def read (text : List Char) : Option (List Record) :=
  (Reader.feeds (.start []) text).bind Reader.finish

/-! ## A written record is read back -/

namespace Reader

@[simp] theorem feeds_nil (r : Reader) : r.feeds [] = some r := rfl

@[simp] theorem feeds_cons (r : Reader) (c : Char) (text : List Char) :
    r.feeds (c :: text) = (r.feed c).bind fun r' => r'.feeds text := rfl

theorem feeds_append (r : Reader) (text rest : List Char) :
    r.feeds (text ++ rest) = (r.feeds text).bind fun r' => r'.feeds rest :=
  List.foldlM_append

variable (records : List Record) (fields : Record)

/-- Inside quotes every character is taken as it is. -/
theorem feeds_escape (field before : Field) :
    feeds ⟨records, fields, before, .quoted⟩ (escape field) =
      some ⟨records, fields, before ++ field, .quoted⟩ := by
  induction field generalizing before with
  | nil => simp [escape]
  | cons c field ih =>
      have one : feeds ⟨records, fields, before, .quoted⟩ (if c = '"' then ['"', '"'] else [c]) =
          some ⟨records, fields, before ++ [c], .quoted⟩ := by
        by_cases quote : c = '"' <;> simp [feed, addChar, quote]
      change feeds _ ((if c = '"' then ['"', '"'] else [c]) ++ escape field) = _
      rw [feeds_append, one]
      simp [ih]

/-- So is a field without special characters. -/
theorem feeds_plain (field before : Field) (bare : field.any special = false) :
    feeds ⟨records, fields, before, .plain⟩ field =
      some ⟨records, fields, before ++ field, .plain⟩ := by
  induction field generalizing before with
  | nil => simp
  | cons c field ih =>
      simp only [List.any_cons, Bool.or_eq_false_iff] at bare
      simp [feed, addChar, bare.1, ih _ bare.2]

/-- The characters that end a field. -/
theorem feed_end {mode : Mode} (bare : mode ≠ .quoted ∧ mode ≠ .carriageReturn)
    (field : Field) {c : Char} (ends : c = ',' ∨ c = '\r') :
    feed ⟨records, fields, field, mode⟩ c = feedBare ⟨records, fields, field, .plain⟩ c := by
  rcases ends with rfl |
    rfl <;> cases mode <;> simp_all [feed, feedBare, special, endField, endRecord]

/-- **A written field and the character that ends it.** -/
theorem feeds_writeField {mode : Mode} (begins : mode = .recordStart ∨ mode = .fieldStart)
    (alone : Bool) (field : Field) {c : Char} (ends : c = ',' ∨ c = '\r') (rest : List Char) :
    feeds ⟨records, fields, [], mode⟩ (writeField alone field ++ c :: rest) =
      (feedBare ⟨records, fields, field, .plain⟩ c).bind fun r => r.feeds rest := by
  unfold writeField
  split
  · have opens : feed ⟨records, fields, [], mode⟩ '"' = some ⟨records, fields, [], .quoted⟩ := by
      rcases begins with rfl | rfl <;> rfl
    have closes : feed ⟨records, fields, field, .quoted⟩ '"' =
        some ⟨records, fields, field, .quote⟩ := rfl
    rw [List.cons_append, List.cons_append, feeds_cons, opens, Option.bind_some, List.append_assoc,
      feeds_append,
      feeds_escape, List.nil_append, Option.bind_some, List.singleton_append, feeds_cons, closes,
        Option.bind_some, feeds_cons,
      feed_end records fields (by simp) field ends]
  · rename_i unquoted
    simp only [Bool.not_eq_true, Bool.or_eq_false_iff] at unquoted
    cases field with
    | nil =>
        rw [List.nil_append, feeds_cons,
          feed_end records fields (by rcases begins with rfl | rfl <;> simp) [] ends]
    | cons first field =>
        obtain ⟨bare, bares⟩ : special first = false ∧ field.any special = false := by
          simpa using unquoted.1
        have opens : feed ⟨records, fields, [], mode⟩ first =
            some ⟨records, fields, [first], .plain⟩ := by
          have noQuote : first ≠ '"' := by
            rintro rfl
            cases bare
          rcases begins with rfl | rfl <;> simp [feed, noQuote, bare, addChar]
        rw [List.cons_append, feeds_cons, opens, Option.bind_some, feeds_append,
          feeds_plain records fields field [first] bares,
          Option.bind_some, feeds_cons, feed_end records fields (by simp) _ ends]
        rfl

theorem feeds_comma {mode : Mode} (begins : mode = .recordStart ∨ mode = .fieldStart) (alone : Bool)
    (field : Field) (rest : List Char) :
    feeds ⟨records, fields, [], mode⟩ (writeField alone field ++ ',' :: rest) =
      feeds ⟨records, fields ++ [field], [], .fieldStart⟩ rest :=
  feeds_writeField records fields begins alone field (.inl rfl) rest

theorem feeds_crlf {mode : Mode} (begins : mode = .recordStart ∨ mode = .fieldStart) (alone : Bool)
    (field : Field) (rest : List Char) :
    feeds ⟨records, fields, [], mode⟩ (writeField alone field ++ '\r' :: '\n' :: rest) =
      feeds (.start (records ++ [fields ++ [field]])) rest :=
  feeds_writeField records fields begins alone field (.inr rfl) ('\n' :: rest)

theorem feeds_writeFields (alone : Bool) (record : Record) (nonempty : record ≠ [])
    (rest : List Char) :
    ∀ (fields : Record) (mode : Mode), (mode = .recordStart ∨ mode = .fieldStart) →
      feeds ⟨records, fields, [], mode⟩ (writeFields alone record ++ '\r' :: '\n' :: rest) =
        feeds (.start (records ++ [fields ++ record])) rest := by
  induction record with
  | nil => exact absurd rfl nonempty
  | cons field record ih =>
      intro fields mode begins
      cases record with
      | nil => exact feeds_crlf records fields begins alone field rest
      | cons next record =>
          have later := ih (by simp) (fields ++ [field]) .fieldStart (.inr rfl)
          rw [writeFields, List.append_assoc, List.cons_append,
            feeds_comma records fields begins, later]
          · simp
          · simp

/-- **A written record** takes the reader from the start of a record to the start of the next. -/
theorem feeds_writeRow (record : Record) (nonempty : record ≠ []) (rest : List Char) :
    feeds (.start records) (writeRow record ++ rest) =
      feeds (.start (records ++ [record])) rest := by
  unfold writeRow
  rw [List.append_assoc]
  exact feeds_writeFields records _ record nonempty rest [] .recordStart (.inl rfl)

theorem feeds_writeRows (written : List Record) (nonempty : ∀ record ∈ written, record ≠ []) :
    feeds (.start records) (written.flatMap writeRow) = some (.start (records ++ written)) := by
  induction written generalizing records with
  | nil => simp
  | cons record written ih =>
      rw [List.flatMap_cons, feeds_writeRow records record (nonempty record (by simp)),
        ih _ fun r member => nonempty r (by simp [member])]
      simp

end Reader

/-- **What is written is read back.** -/
theorem read_writeRows (written : List Record) (nonempty : ∀ record ∈ written, record ≠ []) :
    read (written.flatMap writeRow) = some written := by
  rw [read, Reader.feeds_writeRows [] written nonempty]
  rfl

end Empyrean.Theory.Csv
