/-
# Empyrean.Theory.PyNumeral — `int()` and `float()` of a text

The two conversions of Python's built-in numeric types from a string.  Both strip
Unicode white space other than the ASCII separators U+001C to U+001F, which only `str.strip`
takes for white space; they accept a sign, single underscores between digits and every
Unicode decimal digit; `float` also takes a point, an exponent and the special values.  They
disagree on `"120.5"`, `"1e2"` and `"nan"`, which only `float` reads, and on a number of
more than 4300 digits.

A `float` is kept at its exact decimal value.  Rounding to a double is monotone and
fixes every integer up to `2 ^ 53`, so comparisons with such integers come out the same.

* `int_toDigits`, `float_toDigits` — both read back what `str` writes for a natural number.
* `float_str` — and `float` what it writes for any int.
-/
import Mathlib.Algebra.Ring.Rat
import Mathlib.Data.Int.Cast.Basic
import Mathlib.Data.List.TakeWhile

namespace Empyrean.Theory.PyNumeral

set_option autoImplicit false

abbrev Text := List Char

/-! ## Characters -/

def spaces : List Nat :=
  [0x9, 0xa, 0xb, 0xc, 0xd, 0x1c, 0x1d, 0x1e, 0x1f, 0x20, 0x85, 0xa0, 0x1680, 0x2000, 0x2001,
    0x2002, 0x2003, 0x2004, 0x2005, 0x2006, 0x2007, 0x2008, 0x2009, 0x200a, 0x2028, 0x2029, 0x202f,
    0x205f, 0x3000]

/-- `str.isspace` of one character. -/
def isSpace (c : Char) : Bool := spaces.contains c.toNat

/-- What `int()` and `float()` skip at both ends: of the ASCII characters, what C's `isspace`
accepts. -/
def isNumeralSpace (c : Char) : Bool := isSpace c && !(0x1c ≤ c.toNat && c.toNat ≤ 0x1f)

def trim (p : Char → Bool) (text : Text) : Text := ((text.dropWhile p).reverse.dropWhile p).reverse

/-- `str.strip` -/
def strip (text : Text) : Text := trim isSpace text

/-- The numeral that `int()` and `float()` look at. -/
def numeral (text : Text) : Text := trim isNumeralSpace text

/-- The zero of each run of ten decimal digits (Unicode category `Nd`). -/
def decimalZeros : List Nat :=
  [0x30, 0x660, 0x6f0, 0x7c0, 0x966, 0x9e6, 0xa66, 0xae6, 0xb66, 0xbe6, 0xc66, 0xce6, 0xd66, 0xde6,
    0xe50, 0xed0,
    0xf20, 0x1040, 0x1090, 0x17e0, 0x1810, 0x1946, 0x19d0, 0x1a80, 0x1a90, 0x1b50, 0x1bb0, 0x1c40,
      0x1c50, 0xa620,
    0xa8d0, 0xa900, 0xa9d0, 0xa9f0, 0xaa50, 0xabf0, 0xff10, 0x104a0, 0x10d30, 0x11066, 0x110f0,
      0x11136, 0x111d0,
    0x112f0, 0x11450, 0x114d0, 0x11650, 0x116c0, 0x11730, 0x118e0, 0x11950, 0x11c50, 0x11d50,
      0x11da0, 0x16a60,
    0x16ac0, 0x16b50, 0x1d7ce, 0x1d7d8, 0x1d7e2, 0x1d7ec, 0x1d7f6, 0x1e140, 0x1e2f0,
      0x1e950, 0x1fbf0]

def decimalDigit (c : Char) : Option Nat :=
  (decimalZeros.find? fun first => first ≤ c.toNat && c.toNat ≤ first + 9).map (c.toNat - ·)

/-! ## Runs of digits -/

/-- The digits of a non-empty run, in which an underscore may stand between two digits. -/
def digitRun : Text → Option (List Nat)
  | [] => none
  | [c] => (decimalDigit c).map ([·])
  | c :: '_' :: rest => (decimalDigit c).bind fun d => (digitRun rest).map (d :: ·)
  | c :: c' :: rest => (decimalDigit c).bind fun d => (digitRun (c' :: rest)).map (d :: ·)

def numberOf (digits : List Nat) : Nat := digits.foldl (fun value d => 10 * value + d) 0

/-- Whether the text starts with a minus sign, and what follows the sign. -/
def signed : Text → Bool × Text
  | '-' :: rest => (true, rest)
  | '+' :: rest => (false, rest)
  | text => (false, text)

/-! ## `int` -/

/-- `int(text)`; `none` stands for `ValueError`. -/
def int (text : Text) : Option Int :=
  (digitRun (signed (numeral text)).2).bind fun digits =>
    if digits.length ≤ 4300 then
      some (if (signed (numeral text)).1 then -(numberOf digits : Int) else numberOf digits)
    else none

/-! ## `float` -/

inductive PyFloat
  | nan
  | inf (negative : Bool)
  | fin (value : Rat)
  deriving DecidableEq

namespace PyFloat

/-- `a < b`; false as soon as one of them is `nan`. -/
def lt : PyFloat → PyFloat → Bool
  | .nan, _ | _, .nan => false
  | .inf true, .inf true => false
  | .inf true, _ => true
  | .inf false, _ => false
  | .fin _, .inf negative => !negative
  | .fin a, .fin b => decide (a < b)

/-- `a <= b`; false as soon as one of them is `nan`. -/
def le (a b : PyFloat) : Bool := lt a b || (a == b && !(a == .nan))

theorem lt_fin (a b : Rat) : lt (.fin a) (.fin b) = true ↔ a < b := by simp [lt]

end PyFloat

/-- `value * 10 ^ e` -/
def scale (value : Rat) (e : Int) : Rat :=
  if 0 ≤ e then value * 10 ^ e.toNat else value / 10 ^ (-e).toNat

/-- A run that may be empty, as one side of the point. -/
def optionalRun : Text → Option (List Nat)
  | [] => some []
  | text => digitRun text

/-- The number before the exponent: digits, with an optional point among or around them. -/
def mantissa (text : Text) : Option Rat :=
  match text.dropWhile (· ≠ '.') with
  | [] => (digitRun text).map fun digits => (numberOf digits : Rat)
  | _ :: fraction =>
      (optionalRun (text.takeWhile (· ≠ '.'))).bind fun before =>
        (optionalRun fraction).bind fun after =>
          if before ++ after = [] then none
          else some (scale (numberOf (before ++ after)) (-(after.length : Int)))

def isExponentMark (c : Char) : Bool := c = 'e' || c = 'E'

def decimal (text : Text) : Option Rat :=
  match text.dropWhile (!isExponentMark ·) with
  | [] => mantissa text
  | _ :: exponent =>
      (mantissa (text.takeWhile (!isExponentMark ·))).bind fun value =>
        (digitRun (signed exponent).2).map fun digits =>
          scale value (if (signed exponent).1 then -(numberOf digits : Int) else numberOf digits)

/-- `float(text)`; `none` stands for `ValueError`. -/
def float (text : Text) : Option PyFloat :=
  let negative := (signed (numeral text)).1
  let body := (signed (numeral text)).2
  if body.map Char.toLower = ['n', 'a', 'n'] then some .nan
  else if body.map Char.toLower = ['i', 'n', 'f'] then some (.inf negative)
  else if body.map Char.toLower = ['i', 'n', 'f', 'i', 'n', 'i', 't', 'y'] then some (.inf negative)
  else (decimal body).map fun value => .fin (if negative then -value else value)

/-! ## White space alone -/

/-- What the parsers need to know about white space. -/
structure Blank (c : Char) : Prop where
  digit : decimalDigit c = none
  others : c ≠ '.' ∧ c ≠ '-' ∧ c ≠ '+' ∧ isExponentMark c = false
  word : c.toLower ≠ 'n' ∧ c.toLower ≠ 'i'

instance (c : Char) : Decidable (Blank c) :=
  decidable_of_iff (decimalDigit c = none ∧
    (c ≠ '.' ∧ c ≠ '-' ∧ c ≠ '+' ∧ isExponentMark c = false) ∧
    c.toLower ≠ 'n' ∧ c.toLower ≠ 'i') ⟨fun h => ⟨h.1, h.2.1, h.2.2⟩, fun h =>
      ⟨h.digit, h.others, h.word⟩⟩

theorem blank_of_isSpace {c : Char} (space : isSpace c = true) : Blank c := by
  have every : ∀ n ∈ spaces, Blank (Char.ofNat n) := by decide
  have listed : c.toNat ∈ spaces := List.contains_iff_mem.mp space
  simpa using every c.toNat listed

theorem trim_sublist (p : Char → Bool) (text : Text) : (trim p text).Sublist text := by
  have kept :=
    ((List.dropWhile_sublist p).trans (List.reverse_sublist.mpr (List.dropWhile_sublist p) :
      (text.dropWhile p).reverse.Sublist text.reverse))
  simpa [trim] using List.reverse_sublist.mpr kept

theorem trim_eq_nil {p : Char → Bool} {text : Text} (empty : trim p text = []) :
    ∀ c ∈ text, p c = true := by
  have all : ∀ c ∈ text.dropWhile p, p c = true := by
    have reversed := List.dropWhile_eq_nil_iff.mp (List.reverse_eq_nil_iff.mp empty)
    exact fun c member => reversed c (List.mem_reverse.mpr member)
  -- what is left starts with no such character, so nothing is
  have gone : text.dropWhile p = [] := by
    cases left : text.dropWhile p with
    | nil => rfl
    | cons c rest =>
        have first := List.head?_dropWhile_not p text
        rw [left] at first all
        simp [all c (by simp)] at first
  exact List.dropWhile_eq_nil_iff.mp gone

theorem digitRun_of_blank {c : Char} (blank : Blank c) : ∀ rest : Text, digitRun (c :: rest) = none
  | [] => by simp [digitRun, blank.digit]
  | c' :: rest => by
      by_cases underscore : c' = '_'
      · subst underscore
        simp [digitRun, blank.digit]
      · rw [digitRun]
        · simp [blank.digit]
        · exact underscore

theorem digitRun_of_blanks {text : Text} (blank : ∀ c ∈ text, Blank c) : digitRun text = none := by
  cases text with
  | nil => rfl
  | cons c rest => exact digitRun_of_blank (blank c (by simp)) rest

theorem signed_of_blanks {text : Text} (blank : ∀ c ∈ text, Blank c) :
    signed text = (false, text) := by
  unfold signed
  split
  · exact absurd rfl (blank '-' (by simp)).others.2.1
  · exact absurd rfl (blank '+' (by simp)).others.2.2.1
  · rfl

theorem decimal_of_blanks {text : Text} (blank : ∀ c ∈ text, Blank c) : decimal text = none := by
  have noMark : text.dropWhile (!isExponentMark ·) = [] :=
    List.dropWhile_eq_nil_iff.mpr fun c member => by simp [(blank c member).others.2.2.2]
  have noPoint : text.dropWhile (· ≠ '.') = [] :=
    List.dropWhile_eq_nil_iff.mpr fun c member => by simp [(blank c member).others.1]
  rw [decimal, noMark]
  simp only [mantissa, noPoint, digitRun_of_blanks blank, Option.map_none]

/-- The special words start with an `n` or an `i`. -/
theorem word_ne {text : Text} (others : ∀ c ∈ text, c.toLower ≠ 'n' ∧ c.toLower ≠ 'i')
    {first : Char} (letter : first = 'n' ∨ first = 'i') (rest : Text) :
    text.map Char.toLower ≠ first :: rest := by
  intro same
  obtain ⟨c, tail, characters, lower, _⟩ := List.map_eq_cons_iff.mp same
  have notWord := others c (by simp [characters])
  rw [lower] at notWord
  rcases letter with rfl | rfl
  · exact notWord.1 rfl
  · exact notWord.2 rfl

/-- The numeral of a text of white space is white space, of which the separators may be left. -/
theorem numeral_of_blank {text : Text} (empty : strip text = []) : ∀ c ∈ numeral text, Blank c :=
  fun c member => blank_of_isSpace (trim_eq_nil empty c ((trim_sublist _ text).subset member))

theorem int_of_blank {text : Text} (empty : strip text = []) : int text = none := by
  have blank := numeral_of_blank empty
  rw [int, signed_of_blanks blank, digitRun_of_blanks blank]
  rfl

theorem float_of_blank {text : Text} (empty : strip text = []) : float text = none := by
  have blank := numeral_of_blank empty
  have noWord : ∀ c ∈ numeral text, c.toLower ≠ 'n' ∧ c.toLower ≠ 'i' :=
    fun c member => (blank c member).word
  simp only [float, signed_of_blanks blank]
  rw [if_neg (word_ne noWord (Or.inl rfl) _), if_neg (word_ne noWord (Or.inr rfl) _),
    if_neg (word_ne noWord (Or.inr rfl) _), decimal_of_blanks blank, Option.map_none]

/-! ## Reading back what `str` writes -/

/-- What the parsers need to know about an ASCII digit. -/
structure Plain (c : Char) : Prop where
  digit : decimalDigit c = some (c.toNat - 48)
  space : isSpace c = false
  others : c ≠ '.' ∧ c ≠ '_' ∧ c ≠ '-' ∧ c ≠ '+' ∧ isExponentMark c = false
  word : c.toLower ≠ 'n' ∧ c.toLower ≠ 'i'

theorem plain_digitChar {d : Nat} (small : d < 10) : Plain d.digitChar := by
  rcases d with _ | _ | _ | _ | _ | _ | _ | _ | _ | _ | d
  all_goals first | exact ⟨by decide, by decide, by decide, by decide⟩ | omega

theorem plain_toDigits (n : Nat) : ∀ c ∈ Nat.toDigits 10 n, Plain c := by
  induction n using Nat.strongRecOn with
  | ind n ih =>
      intro c member
      rw [Nat.toDigits_eq_if (by decide)] at member
      split at member
      · rename_i small
        rw [List.mem_singleton] at member
        exact member ▸ plain_digitChar small
      · rename_i large
        rcases List.mem_append.mp member with member | member
        · exact ih (n / 10) (by omega) c member
        · rw [List.mem_singleton] at member
          exact member ▸ plain_digitChar (Nat.mod_lt _ (by decide))

theorem trim_eq_self {p : Char → Bool} {text : Text} (ink : ∀ c ∈ text, p c = false) :
    trim p text = text := by
  have drop : ∀ run : Text, (∀ c ∈ run, p c = false) → run.dropWhile p = run := by
    intro run inked
    cases run with
    | nil => rfl
    | cons c rest => simp [List.dropWhile, inked c (by simp)]
  have backwards : ∀ c ∈ text.reverse, p c = false :=
    fun c member => ink c (List.mem_reverse.mp member)
  rw [trim, drop text ink, drop text.reverse backwards, List.reverse_reverse]

theorem isNumeralSpace_of_ink {c : Char} (ink : isSpace c = false) : isNumeralSpace c = false := by
  rw [isNumeralSpace, ink, Bool.false_and]

theorem numeral_eq_self {text : Text} (ink : ∀ c ∈ text, isSpace c = false) : numeral text = text :=
  trim_eq_self fun c member => isNumeralSpace_of_ink (ink c member)

theorem numeral_plain {text : Text} (plain : ∀ c ∈ text, Plain c) : numeral text = text :=
  numeral_eq_self fun c member => (plain c member).space

theorem signed_plain {text : Text} (plain : ∀ c ∈ text, Plain c) : signed text = (false, text) := by
  unfold signed
  split
  · exact absurd rfl (plain '-' (by simp)).others.2.2.1
  · exact absurd rfl (plain '+' (by simp)).others.2.2.2.1
  · rfl

theorem digitRun_plain : ∀ {text : Text}, text ≠ [] → (∀ c ∈ text, Plain c) →
    digitRun text = some (text.map fun c => c.toNat - 48)
  | [], nonempty, _ => absurd rfl nonempty
  | [c], _, plain => by simp [digitRun, (plain c (by simp)).digit]
  | c :: c' :: rest, _, plain => by
      have next := digitRun_plain (List.cons_ne_nil c' rest) fun x member =>
        plain x (by simp [member])
      have noUnderscore : c' ≠ '_' := (plain c' (by simp)).others.2.1
      rw [digitRun]
      · simp [(plain c (by simp)).digit, next]
      · exact noUnderscore

theorem numberOf_toDigits (n : Nat) :
    numberOf ((Nat.toDigits 10 n).map fun c => c.toNat - 48) = n := by
  rw [numberOf, List.foldl_map]
  have value := Nat.ofDigitChars_toDigits (n := n) (b := 10) (by decide) (by decide)
  simpa [Nat.ofDigitChars] using value

theorem digitRun_toDigits (n : Nat) :
    digitRun (Nat.toDigits 10 n) = some ((Nat.toDigits 10 n).map fun c => c.toNat - 48) :=
  digitRun_plain Nat.toDigits_ne_nil (plain_toDigits n)

/-- `int(str(n)) == n` -/
theorem int_toDigits {n : Nat} (short : (Nat.toDigits 10 n).length ≤ 4300) :
    int (Nat.toDigits 10 n) = some (n : Int) := by
  rw [int, numeral_plain (plain_toDigits n), signed_plain (plain_toDigits n), digitRun_toDigits,
    Option.bind_some]
  simp [short, numberOf_toDigits]

theorem decimal_toDigits (n : Nat) : decimal (Nat.toDigits 10 n) = some (n : Rat) := by
  have plain := plain_toDigits n
  have noMark : (Nat.toDigits 10 n).dropWhile (!isExponentMark ·) = [] :=
    List.dropWhile_eq_nil_iff.mpr fun c member => by simp [(plain c member).others.2.2.2.2]
  have noPoint : (Nat.toDigits 10 n).dropWhile (· ≠ '.') = [] :=
    List.dropWhile_eq_nil_iff.mpr fun c member => by simp [(plain c member).others.1]
  rw [decimal, noMark]
  simp only [mantissa, noPoint, digitRun_toDigits, Option.map_some, numberOf_toDigits]

/-- `float` of a text that is digits after its sign. -/
theorem float_of_signed {text : Text} (negative : Bool) (n : Nat)
    (body : signed (numeral text) = (negative, Nat.toDigits 10 n)) :
    float text = some (.fin (if negative then -(n : Rat) else n)) := by
  have noWord : ∀ c ∈ Nat.toDigits 10 n, c.toLower ≠ 'n' ∧ c.toLower ≠ 'i' := fun c member =>
    (plain_toDigits n c member).word
  simp only [float, body]
  rw [if_neg (word_ne noWord (Or.inl rfl) _), if_neg (word_ne noWord (Or.inr rfl) _),
    if_neg (word_ne noWord (Or.inr rfl) _), decimal_toDigits, Option.map_some]

/-- `float(str(n)) == n` -/
theorem float_toDigits (n : Nat) : float (Nat.toDigits 10 n) = some (.fin n) := by
  have plain := plain_toDigits n
  rw [float_of_signed false n (by rw [numeral_plain plain, signed_plain plain])]
  rfl

/-- `str` of an int. -/
def str (n : Int) : Text :=
  if n < 0 then '-' :: Nat.toDigits 10 n.natAbs else Nat.toDigits 10 n.natAbs

/-- `float(str(n)) == n`, below zero too. -/
theorem float_str (n : Int) : float (str n) = some (.fin n) := by
  have plain := plain_toDigits n.natAbs
  unfold str
  split
  · rename_i negative
    have ink : ∀ c ∈ '-' :: Nat.toDigits 10 n.natAbs, isSpace c = false := by
      intro c member
      rcases List.mem_cons.mp member with rfl | digit
      · decide
      · exact (plain c digit).space
    have value : -(n.natAbs : Rat) = n := by
      have magnitude : (n.natAbs : Int) = -n := by omega
      calc -(n.natAbs : Rat) = -((n.natAbs : Int) : Rat) := by rw [Int.cast_natCast]
        _ = n := by rw [magnitude, Int.cast_neg, neg_neg]
    rw [float_of_signed true n.natAbs (by rw [numeral_eq_self ink]; rfl), if_pos rfl, value]
  · rename_i nonneg
    have magnitude : (n.natAbs : Int) = n := by omega
    rw [float_toDigits, ← Int.cast_natCast, magnitude]

end Empyrean.Theory.PyNumeral
