import ReversePolish.Number.Decimal
import ReversePolish.Number.Double

/-!
# Reading numerals

A numeral is a run of digits with at most one point in it or at either end, and
at least one digit; behind it may stand an exponent, which is the letter `e` in
either case, an optional sign and at least one digit.  In front of the numeral
may stand one sign.

A numeral denotes a decimal: the digits on both sides of the point are one whole
number of any length, and each digit behind the point lowers the exponent by one.
Rounding comes after, in `Decimal.rank`.

The digits of an exponent count up to a reach only.  They are read from the left,
and once they spell `exponentReach` or more the others are passed over, so the
number that is read stays small.  Behind digits of ordinary length such an
exponent leads to infinity or zero whatever its other digits are; only tens of
thousands of digits beside the point can make up for it.  The two lemmas below
say that an exponent short of the reach is read as it stands, and that reading
stops where the reach is met.
-/

namespace ReversePolish.Numeral

/-- The digits at the front, and what follows them. -/
def spanDigits (text : List Char) : List Char × List Char :=
  (text.takeWhile Char.isDigit, text.dropWhile Char.isDigit)

/-- The size that ends the reading of an exponent. -/
def exponentReach : Nat := 65536

/-- Reads one more digit of an exponent, unless the reach is met. -/
def readDigit (size : Nat) (c : Char) : Nat :=
  if size < exponentReach then 10 * size + (c.toNat - '0'.toNat) else size

/-- Behind the reach no digit counts. -/
theorem foldl_readDigit_of_le (text : List Char) {size : Nat} (h : exponentReach ≤ size) :
    text.foldl readDigit size = size := by
  induction text with
  | nil => rfl
  | cons c text ih => rw [List.foldl_cons, readDigit, if_neg (Nat.not_lt.2 h), ih]

/-- Short of the reach, the digits are read as the whole number that they spell. -/
theorem foldl_readDigit_eq_ofDigitChars (text : List Char) (size : Nat)
    (h : Nat.ofDigitChars 10 text size < exponentReach) :
    text.foldl readDigit size = Nat.ofDigitChars 10 text size := by
  induction text generalizing size with
  | nil => rfl
  | cons c text ih =>
    rw [Nat.ofDigitChars_cons] at h ⊢
    have hsize : size < exponentReach := by
      have h' := Nat.ofDigitChars_eq_ofDigitChars_zero ▸ h
      have := Nat.le_mul_of_pos_left (10 * size + (c.toNat - '0'.toNat))
        (Nat.pow_pos (by decide) : 0 < 10 ^ text.length)
      omega
    rw [List.foldl_cons, readDigit, if_pos hsize]
    exact ih _ h

/-- The size of the exponent that a non-empty run of digits spells. -/
def exponentSize? (text : List Char) : Option Nat :=
  if text ≠ [] ∧ text.all Char.isDigit then some (text.foldl readDigit 0) else none

/-- An exponent with an optional sign. -/
def signedExponent? : List Char → Option Int
  | '-' :: text => (exponentSize? text).map fun n => -(n : Int)
  | '+' :: text => (exponentSize? text).map fun n => (n : Int)
  | text => (exponentSize? text).map fun n => (n : Int)

/-- What may stand behind the digits: nothing, or an exponent. -/
def exponent? : List Char → Option Int
  | [] => some 0
  | 'e' :: text => signedExponent? text
  | 'E' :: text => signedExponent? text
  | _ => none

/-- The digits behind a point, and what follows them. -/
def fraction : List Char → List Char × List Char
  | '.' :: text => spanDigits text
  | text => ([], text)

/-- The decimal that a numeral without sign spells. -/
def decimal? (text : List Char) : Option Decimal :=
  let (whole, rest) := spanDigits text
  let (part, rest) := fraction rest
  if whole = [] ∧ part = [] then none
  else (exponent? rest).map fun e => ⟨Nat.ofDigitChars 10 (whole ++ part) 0, e - part.length⟩

/-- The rank that a word without sign names in any mix of cases: infinity, in
short or in full, or the quiet not-a-number. -/
def namedRank? (text : List Char) : Option Nat :=
  let lower := text.map Char.toLower
  if lower = ['i', 'n', 'f'] ∨ lower = ['i', 'n', 'f', 'i', 'n', 'i', 't', 'y'] then
    some Magnitude.infinity
  else if lower = ['n', 'a', 'n'] then some Magnitude.quietNaN
  else none

/-- The rank that a text without sign stands for: a numeral or a name. -/
def rank? (text : List Char) : Option Nat :=
  match decimal? text with
  | some d => some d.rank
  | none => namedRank? text

/-- Splits off one sign; the flag tells whether it is a minus. -/
def splitSign : List Char → Bool × List Char
  | '-' :: text => (true, text)
  | '+' :: text => (false, text)
  | text => (false, text)

/-- The value of a signed numeral or name. -/
def value? (text : List Char) : Option Double :=
  let (negative, text) := splitSign text
  (rank? text).map (Double.ofRank negative)

end ReversePolish.Numeral
