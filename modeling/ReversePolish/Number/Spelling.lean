import ReversePolish.Number.Numeral
import ReversePolish.Number.Shortest

/-!
# The spelling of numbers

A number is written with the digits of its shortest decimal, in plain notation
for sizes from `10 ^ -4` up to but not including `10 ^ 16`, and with an exponent
for all others.  Plain notation has at least one digit on each side of the
point.  Infinities have words of their own, and all that is not a number has one
word.

Two readers share the numerals.  `Number.literal?` decides which words of an
expression are numbers, and takes no name beyond the three that are written:
`infinity` or `nan` is a variable there.  `Number.ofText?` reads a value that
stands where only a number can stand, and takes the names in any case and with
any sign.
-/

namespace ReversePolish

/-- Where plain notation begins and where it ends, as ranks. -/
structure Layout where
  plainFrom : Nat
  plainBelow : Nat

/-- Numbers below one ten-thousandth and from ten to the sixteenth on are written
with an exponent. -/
def Layout.standard : Layout := ⟨Decimal.rank ⟨1, -4⟩, Decimal.rank ⟨1, 16⟩⟩

/-- Whether the magnitude of rank `k` is written in plain notation. -/
def Layout.isPlain (l : Layout) (k : Nat) : Bool := decide (l.plainFrom ≤ k ∧ k < l.plainBelow)

namespace Decimal

/-- The significant digits. -/
def digitChars (d : Decimal) : List Char := Nat.toDigits 10 d.digits

/-- Plain notation: the point stands where the exponent puts it, and zeros fill
the places between the point and the digits. -/
def plain (d : Decimal) : List Char :=
  let ds := d.digitChars
  let places := (-d.exponent).toNat
  if places = 0 then ds ++ List.replicate d.exponent.toNat '0' ++ ['.', '0']
  else if places < ds.length then
    ds.take (ds.length - places) ++ '.' :: ds.drop (ds.length - places)
  else '0' :: '.' :: (List.replicate (places - ds.length) '0' ++ ds)

/-- A whole number with a minus in front when it is negative. -/
def signedChars (n : Int) : List Char :=
  if n < 0 then '-' :: Nat.toDigits 10 n.natAbs else Nat.toDigits 10 n.natAbs

/-- Exponent notation: one digit, the others behind a point if there are any, and
the power of ten of the first digit. -/
def scientific (d : Decimal) : List Char :=
  match d.digitChars with
  | [] => []
  | [c] => c :: 'e' :: signedChars d.exponent
  | c :: cs => c :: '.' :: (cs ++ 'e' :: signedChars (d.exponent + cs.length))

end Decimal

namespace Number

/-- The spelling of the finite magnitude of rank `k`. -/
def magnitudeChars (k : Nat) : List Char :=
  if k = 0 then ['0', '.', '0']
  else
    let d := Decimal.shortest k
    if Layout.standard.isPlain k then d.plain else d.scientific

/-- The spelling of a number. -/
def chars (x : Double) : List Char :=
  if x.isNaN then ['N', 'a', 'N']
  else
    let size :=
      if x.rank = Magnitude.infinity then ['i', 'n', 'f'] else magnitudeChars x.rank
    if x.isNegative then '-' :: size else size

/-- The text of a number. -/
def text (x : Double) : String := String.ofList (chars x)

/-- The value that a text reads as where a number has to stand. -/
def ofText? (s : String) : Option Double := Numeral.value? s.toList

/-- Whether a word begins as a numeral does: a digit or a point behind at most one
sign. -/
def looksNumeric (word : List Char) : Bool :=
  match (Numeral.splitSign word).2 with
  | c :: _ => c.isDigit || c = '.'
  | [] => false

/-- The value of a word of an expression, if the word is a number. -/
def literalOfChars? (word : List Char) : Option Double :=
  if word = ['i', 'n', 'f'] then some (.ofRank false Magnitude.infinity)
  else if word = ['-', 'i', 'n', 'f'] then some (.ofRank true Magnitude.infinity)
  else if word = ['N', 'a', 'N'] then some .quietNaN
  else if looksNumeric word then Numeral.value? word
  else none

/-- The value of a word of an expression, if the word is a number. -/
def literal? (word : String) : Option Double := literalOfChars? word.toList

end Number

end ReversePolish
