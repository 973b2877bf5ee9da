import ReversePolish.Proofs.Number.RoundTrip
import ReversePolish.Proofs.Number.Value

/-!
# The words that are numbers

A *literal* is a sign or none, digits with at most one point among or beside them, and an exponent
or none; the exponent is a letter, a sign or none, and digits.  `Literal` is this grammar, with
nothing in it of how a word is read.  The number of a literal is exact, since its digits and its
exponent may be of any length.

The reader takes these words apart again (`Literal.decimal?_unsigned`) and no others
(`Numeral.exists_literal_of_decimal?`), and no name begins as a numeral does.  So a word of an
expression is a number exactly if it is one of three names or a literal.

What is read is the decimal of the literal, except that the digits of the exponent count up to the
reach only.  Below the reach nothing is lost.  From the reach on the literal is infinite or zero
all the same, unless there are so many digits beside the exponent that they make up for it
(`Literal.rank_asRead`).  Rounding is correct by `Number.roundsTo_ofRank`, and so a literal
reads as its number rounded exactly if the decimal that is read has the rank of the one that is
spelled (`Literal.roundsTo_value_iff`).
-/

namespace ReversePolish

open Numeral Number

/-! ## The grammar -/

namespace Literal

/-- A sign that may be left out. -/
inductive Sign where
  | absent
  | plus
  | minus
deriving DecidableEq

namespace Sign

/-- How a sign is written. -/
def chars : Sign → List Char
  | absent => []
  | plus => ['+']
  | minus => ['-']

/-- Whether a sign is a minus. -/
def isMinus : Sign → Bool
  | minus => true
  | _ => false

/-- A size with a sign in front of it. -/
def apply (s : Sign) (n : ℕ) : ℤ := if s.isMinus then -n else n

end Sign

/-- The exponent of a literal: the letter in either case, a sign or none, and at least one
digit. -/
structure Exponent where
  letter : Char
  sign : Sign
  digits : List Char
  letter_eq : letter = 'e' ∨ letter = 'E'
  isDigit_of_mem : ∀ c ∈ digits, c.isDigit = true
  digits_ne_nil : digits ≠ []

namespace Exponent

/-- How an exponent is written. -/
def chars (e : Exponent) : List Char := e.letter :: (e.sign.chars ++ e.digits)

/-- The whole number that an exponent spells. -/
def value (e : Exponent) : ℤ := e.sign.apply (Nat.ofDigitChars 10 e.digits 0)

/-- An exponent as the reader counts it. -/
def counted (e : Exponent) : ℤ := e.sign.apply (e.digits.foldl readDigit 0)

end Exponent

end Literal

/-- A literal: at least one digit before or behind the point, which may be left out together with
the digits behind it. -/
structure Literal where
  sign : Literal.Sign
  whole : List Char
  fraction : Option (List Char)
  exponent : Option Literal.Exponent
  isDigit_of_mem_whole : ∀ c ∈ whole, c.isDigit = true
  isDigit_of_mem_fraction : ∀ c ∈ fraction.getD [], c.isDigit = true
  ne_nil : whole ≠ [] ∨ fraction.getD [] ≠ []

namespace Literal

/-- The digits behind the point. -/
def part (l : Literal) : List Char := l.fraction.getD []

/-- All digits of a literal but those of its exponent. -/
def digits (l : Literal) : List Char := l.whole ++ l.part

/-- How an exponent is written, if there is one. -/
def exponentChars (l : Literal) : List Char := l.exponent.elim [] Exponent.chars

/-- How a literal is written behind its sign. -/
def unsigned (l : Literal) : List Char :=
  l.whole ++ (l.fraction.elim [] ('.' :: ·) ++ l.exponentChars)

/-- How a literal is written. -/
def chars (l : Literal) : List Char := l.sign.chars ++ l.unsigned

/-- The word of a literal. -/
def text (l : Literal) : String := String.ofList l.chars

/-- The decimal of a literal with exponent `e`: a digit behind the point counts one power of ten
less. -/
def decimal (l : Literal) (e : ℤ) : Decimal :=
  ⟨Nat.ofDigitChars 10 l.digits 0, e - l.part.length⟩

/-- The decimal that a literal spells. -/
def exact (l : Literal) : Decimal := l.decimal (l.exponent.elim 0 Exponent.value)

/-- The decimal that a literal is read as. -/
def asRead (l : Literal) : Decimal := l.decimal (l.exponent.elim 0 Exponent.counted)

/-- The number of a literal. -/
def value (l : Literal) : ℚ := signed l.sign.isMinus l.exact.value

/-- The number that a literal is read as before it is rounded. -/
def readValue (l : Literal) : ℚ := signed l.sign.isMinus l.asRead.value

/-- The exponent is short of the reader's reach, or there are too few digits beside it to make up
for an exponent of that size. -/
def InReach (l : Literal) : Prop :=
  (∀ e ∈ l.exponent, Nat.ofDigitChars 10 e.digits 0 < exponentReach) ∨
    l.digits.length + 325 ≤ exponentReach

/-! ## Literals are read -/

/-- A sign is split off when what follows has none. -/
theorem Sign.splitSign_append (s : Sign) {c : Char} (rest : List Char)
    (hc : c.isDigit = true ∨ c = '.') :
    splitSign (s.chars ++ c :: rest) = (s.isMinus, c :: rest) := by
  cases s with
  | absent =>
    rcases hc with hc | rfl
    · exact splitSign_of_isDigit rest hc
    · rfl
  | plus => rfl
  | minus => rfl

theorem Exponent.signedExponent?_eq (e : Exponent) :
    signedExponent? (e.sign.chars ++ e.digits) = some e.counted := by
  have hsize : exponentSize? e.digits = some (e.digits.foldl readDigit 0) :=
    if_pos ⟨e.digits_ne_nil, List.all_eq_true.2 e.isDigit_of_mem⟩
  unfold counted
  cases e.sign with
  | absent =>
    show signedExponent? e.digits = _
    rw [signedExponent?_of_isDigit e.isDigit_of_mem, hsize]
    rfl
  | plus => simp [Sign.chars, Sign.apply, Sign.isMinus, signedExponent?, hsize]
  | minus => simp [Sign.chars, Sign.apply, Sign.isMinus, signedExponent?, hsize]

variable (l : Literal)

theorem exponent?_exponentChars :
    exponent? l.exponentChars = some (l.exponent.elim 0 Exponent.counted) := by
  unfold exponentChars
  cases l.exponent with
  | none => rfl
  | some e =>
    have hread := e.signedExponent?_eq
    show exponent? (e.letter :: (e.sign.chars ++ e.digits)) = some e.counted
    rcases e.letter_eq with h | h <;> rw [h] <;> exact hread

/-- An exponent begins with its letter. -/
theorem head_exponentChars : ∀ c ∈ l.exponentChars.head?, c.isDigit = false ∧ c ≠ '.' := by
  unfold exponentChars
  cases l.exponent with
  | none => simp
  | some e =>
    intro c hc
    obtain rfl : e.letter = c := Option.some.inj hc
    rcases e.letter_eq with h | h <;> rw [h] <;> decide

/-- **A literal without its sign is read as its digits and its exponent.** -/
theorem decimal?_unsigned : decimal? l.unsigned = some l.asRead := by
  have hexponent := l.exponent?_exponentChars
  have hhead := l.head_exponentChars
  have hfraction := l.isDigit_of_mem_fraction
  have hne := l.ne_nil
  unfold unsigned asRead decimal digits part
  cases hf : l.fraction with
  | none =>
    rw [hf] at hne
    have hwhole : l.whole ≠ [] := hne.resolve_right (absurd rfl)
    rw [Option.elim_none, List.nil_append, decimal?_whole l.isDigit_of_mem_whole hhead hwhole,
      hexponent, Option.map_some, Option.getD_none, List.append_nil, List.length_nil]
    simp
  | some part =>
    rw [hf, Option.getD_some] at hne hfraction
    rw [Option.elim_some, List.cons_append,
      decimal?_point l.isDigit_of_mem_whole hfraction (fun c hc => (hhead c hc).1) hne, hexponent,
      Option.map_some, Option.getD_some]

/-- A literal without its sign begins with a digit or a point. -/
theorem exists_unsigned_eq_cons :
    ∃ c rest, l.unsigned = c :: rest ∧ (c.isDigit = true ∨ c = '.') := by
  have hne := l.ne_nil
  unfold unsigned
  cases hw : l.whole with
  | cons c cs => exact ⟨c, _, rfl, Or.inl (l.isDigit_of_mem_whole c (by simp [hw]))⟩
  | nil =>
    cases hf : l.fraction with
    | none => simp [hw, hf] at hne
    | some part => exact ⟨'.', _, rfl, Or.inr rfl⟩

/-- **A literal reads as its sign and the rank of its decimal.** -/
theorem literalOfChars?_chars :
    literalOfChars? l.chars = some (Double.ofRank l.sign.isMinus l.asRead.rank) := by
  have hrank : rank? l.unsigned = some l.asRead.rank := by rw [rank?, l.decimal?_unsigned]
  obtain ⟨c, rest, hchars, hc⟩ := l.exists_unsigned_eq_cons
  have hsign : splitSign l.chars = (l.sign.isMinus, l.unsigned) := by
    rw [chars, hchars]
    exact l.sign.splitSign_append rest hc
  have hlooks : looksNumeric l.chars = true := by
    rw [looksNumeric, hsign, hchars]
    simpa using hc
  rw [literalOfChars?_of_looksNumeric hlooks, value?, hsign]
  dsimp only
  rw [hrank, Option.map_some]

theorem literal?_text :
    literal? l.text = some (Double.ofRank l.sign.isMinus l.asRead.rank) := by
  rw [literal?, text, String.toList_ofList, literalOfChars?_chars]

end Literal

/-! ## Nothing else is read -/

namespace Numeral

open Literal

theorem exists_exponent_of_exponentSize? {letter : Char} (hletter : letter = 'e' ∨ letter = 'E')
    (s : Sign) {text : List Char} (h : exponentSize? text ≠ none) :
    ∃ e : Exponent, letter :: (s.chars ++ text) = e.chars := by
  unfold exponentSize? at h
  split at h
  · rename_i htext
    exact ⟨⟨letter, s, text, hletter, List.all_eq_true.1 htext.2, htext.1⟩, rfl⟩
  · exact absurd rfl h

theorem exists_exponent_of_signedExponent? {letter : Char}
    (hletter : letter = 'e' ∨ letter = 'E') {text : List Char}
    (h : signedExponent? text ≠ none) : ∃ e : Exponent, letter :: text = e.chars := by
  unfold signedExponent? at h
  split at h
  · exact exists_exponent_of_exponentSize? hletter .minus fun hn => h (by simp [hn])
  · exact exists_exponent_of_exponentSize? hletter .plus fun hn => h (by simp [hn])
  · exact exists_exponent_of_exponentSize? hletter .absent fun hn => h (by simp [hn])

/-- Behind the digits stands nothing or an exponent. -/
theorem exists_exponent_of_exponent? {text : List Char} (h : exponent? text ≠ none) :
    ∃ e : Option Exponent, text = e.elim [] Exponent.chars := by
  unfold exponent? at h
  split at h
  · exact ⟨none, rfl⟩
  · obtain ⟨e, he⟩ := exists_exponent_of_signedExponent? (Or.inl rfl) h
    exact ⟨some e, he⟩
  · obtain ⟨e, he⟩ := exists_exponent_of_signedExponent? (Or.inr rfl) h
    exact ⟨some e, he⟩
  · exact absurd rfl h

theorem exists_fraction (text : List Char) :
    ∃ part : Option (List Char), (fraction text).1 = part.getD [] ∧
      (∀ c ∈ part.getD [], c.isDigit = true) ∧
      text = part.elim [] ('.' :: ·) ++ (fraction text).2 := by
  unfold fraction
  split
  · rename_i text
    refine ⟨some (spanDigits text).1, rfl, fun c hc => List.mem_takeWhile_imp hc, ?_⟩
    show _ = '.' :: (text.takeWhile Char.isDigit ++ text.dropWhile Char.isDigit)
    rw [List.takeWhile_append_dropWhile]
  · exact ⟨none, rfl, by simp, rfl⟩

/-- **What is read as a decimal is a literal**, with any sign in front of it. -/
theorem exists_literal_of_decimal? {text : List Char} (h : decimal? text ≠ none) (s : Sign) :
    ∃ l : Literal, l.chars = s.chars ++ text := by
  unfold decimal? at h
  dsimp only at h
  split at h
  · exact absurd rfl h
  · rename_i hdigits
    obtain ⟨part, hpart, hisDigit, hrest⟩ := exists_fraction (spanDigits text).2
    rw [hpart] at hdigits
    obtain ⟨e, he⟩ := exists_exponent_of_exponent? fun hn => h (by rw [hn, Option.map_none])
    refine ⟨⟨s, (spanDigits text).1, part, e, fun c hc => List.mem_takeWhile_imp hc, hisDigit,
      not_and_or.1 hdigits⟩, ?_⟩
    show s.chars ++ ((spanDigits text).1 ++ (part.elim [] ('.' :: ·) ++ e.elim [] Exponent.chars))
      = s.chars ++ text
    rw [← he, ← hrest, spanDigits, List.takeWhile_append_dropWhile]

theorem exists_sign_of_splitSign (text : List Char) :
    ∃ s : Sign, text = s.chars ++ (splitSign text).2 := by
  unfold splitSign
  split
  · exact ⟨.minus, rfl⟩
  · exact ⟨.plus, rfl⟩
  · exact ⟨.absent, rfl⟩

theorem toNat_le_of_isDigit {c : Char} (hc : c.isDigit = true) : c.toNat ≤ '9'.toNat := by
  simp only [Char.isDigit, Bool.and_eq_true, decide_eq_true_eq] at hc
  exact UInt32.le_iff_toNat_le.1 hc.2

/-- Digits and points are the same in both cases. -/
theorem toLower_of_isDigit {c : Char} (hc : c.isDigit = true ∨ c = '.') : c.toLower = c := by
  rcases hc with hc | rfl
  · have hbelow : ¬ 'A'.val ≤ c.val := by
      rw [UInt32.le_iff_toNat_le]
      exact fun h => absurd (h.trans (toNat_le_of_isDigit hc)) (by decide)
    exact dif_neg fun h => hbelow h.1
  · rfl

/-- No name begins with a digit or a point. -/
theorem namedRank?_of_isDigit {c : Char} (rest : List Char) (hc : c.isDigit = true ∨ c = '.') :
    namedRank? (c :: rest) = none := by
  have hi : c ≠ 'i' := by rintro rfl; exact absurd hc (by decide)
  have hn : c ≠ 'n' := by rintro rfl; exact absurd hc (by decide)
  simp [namedRank?, toLower_of_isDigit hc, hi, hn]

end Numeral

namespace Number

/-- A word that begins as a numeral is read only if it is a literal. -/
theorem exists_literal_of_value? {word : List Char} (hlooks : looksNumeric word = true)
    (h : value? word ≠ none) : ∃ l : Literal, word = l.chars := by
  obtain ⟨s, hs⟩ := exists_sign_of_splitSign word
  unfold looksNumeric at hlooks
  unfold value? at h
  dsimp only at h
  split at hlooks
  · rename_i c rest hrest
    have hc : c.isDigit = true ∨ c = '.' := by simpa using hlooks
    rw [hrest] at h hs
    have hread : decimal? (c :: rest) ≠ none := by
      intro hn
      refine h ?_
      rw [rank?, hn]
      show (namedRank? (c :: rest)).map _ = none
      rw [namedRank?_of_isDigit rest hc, Option.map_none]
    obtain ⟨l, hl⟩ := exists_literal_of_decimal? hread s
    exact ⟨l, hs.trans hl.symm⟩
  · cases hlooks

/-- **A word is a number exactly if it is one of three names or a literal.** -/
theorem isSome_literalOfChars?_iff {word : List Char} :
    (literalOfChars? word).isSome ↔ word = ['i', 'n', 'f'] ∨ word = ['-', 'i', 'n', 'f'] ∨
      word = ['N', 'a', 'N'] ∨ ∃ l : Literal, word = l.chars := by
  constructor
  · intro h
    unfold literalOfChars? at h
    split at h
    · exact Or.inl ‹_›
    · split at h
      · exact Or.inr (Or.inl ‹_›)
      · split at h
        · exact Or.inr (Or.inr (Or.inl ‹_›))
        · split at h
          · rename_i hlooks
            exact Or.inr (Or.inr (Or.inr
              (exists_literal_of_value? hlooks (Option.isSome_iff_ne_none.1 h))))
          · cases h
  · rintro (rfl | rfl | rfl | ⟨l, rfl⟩)
    · rfl
    · rfl
    · rfl
    · rw [l.literalOfChars?_chars]
      rfl

end Number

/-! ## What a literal is rounded from -/

namespace Numeral

/-- An exponent from the reach on is counted up to the reach. -/
theorem exponentReach_le_foldl_readDigit {text : List Char} {size : ℕ}
    (h : exponentReach ≤ Nat.ofDigitChars 10 text size) :
    exponentReach ≤ text.foldl readDigit size := by
  induction text generalizing size with
  | nil => rwa [Nat.ofDigitChars_nil] at h
  | cons c text ih =>
    rw [Nat.ofDigitChars_cons] at h
    by_cases hsize : size < exponentReach
    · rw [List.foldl_cons, readDigit, if_pos hsize]
      exact ih h
    · rwa [foldl_readDigit_of_le _ (Nat.not_lt.1 hsize), ← Nat.not_lt]

/-- Digits spell less than the power of ten with as many zeros. -/
theorem ofDigitChars_lt {text : List Char} (h : ∀ c ∈ text, c.isDigit = true) :
    Nat.ofDigitChars 10 text 0 < 10 ^ text.length := by
  induction text with
  | nil => decide
  | cons c text ih =>
    have hc : c.toNat - '0'.toNat ≤ 9 :=
      Nat.sub_le_sub_right (toNat_le_of_isDigit (h c List.mem_cons_self)) _
    have htext := ih fun c hc => h c (List.mem_cons_of_mem _ hc)
    rw [Nat.ofDigitChars_cons, Nat.ofDigitChars_eq_ofDigitChars_zero, List.length_cons, pow_succ]
    calc 10 ^ text.length * (10 * 0 + (c.toNat - '0'.toNat)) + Nat.ofDigitChars 10 text 0
        < 10 ^ text.length * 9 + 10 ^ text.length := by
          refine Nat.add_lt_add_of_le_of_lt (Nat.mul_le_mul_left _ ?_) htext
          omega
      _ = 10 ^ text.length * 10 := by ring

end Numeral

namespace Literal

variable (l : Literal)

theorem isDigit_of_mem_digits : ∀ c ∈ l.digits, c.isDigit = true := fun c hc =>
  (List.mem_append.1 hc).elim (l.isDigit_of_mem_whole c) (l.isDigit_of_mem_fraction c)

/-- With an exponent from the reach on and not too many digits, only the sign of the exponent
counts. -/
theorem rank_decimal_apply (s : Sign) {n : ℕ} (hn : exponentReach ≤ n)
    (hlen : l.digits.length + 325 ≤ exponentReach) :
    (l.decimal (s.apply n)).rank =
      if s.isMinus ∨ Nat.ofDigitChars 10 l.digits 0 = 0 then 0 else Magnitude.infinity := by
  have hpart : l.part.length ≤ l.digits.length := by
    rw [digits, List.length_append]
    omega
  by_cases hzero : Nat.ofDigitChars 10 l.digits 0 = 0
  · rw [if_pos (Or.inr hzero), Decimal.rank]
    exact if_pos hzero
  · by_cases hs : s.isMinus = true
    · rw [if_pos (Or.inl hs)]
      refine Decimal.rank_eq_zero (Decimal.two_mul_size_lt_one_of_lt_pow
        (ofDigitChars_lt l.isDigit_of_mem_digits) ?_)
      show s.apply n - l.part.length + l.digits.length + 325 ≤ 0
      rw [Sign.apply, if_pos hs]
      omega
    · rw [if_neg (not_or.2 ⟨hs, hzero⟩), Decimal.rank]
      refine (if_neg hzero).trans (if_pos ?_)
      show 310 < s.apply n - l.part.length
      rw [Sign.apply, if_neg hs]
      omega

/-- **In reach, nothing is lost by counting the exponent up to the reach only.** -/
theorem rank_asRead (h : l.InReach) : l.asRead.rank = l.exact.rank := by
  unfold asRead exact
  cases he : l.exponent with
  | none => rfl
  | some e =>
    show (l.decimal e.counted).rank = (l.decimal e.value).rank
    by_cases hsize : Nat.ofDigitChars 10 e.digits 0 < exponentReach
    · rw [Exponent.counted, foldl_readDigit_eq_ofDigitChars _ _ hsize, Exponent.value]
    · have hlen := h.resolve_left fun h => hsize (h e he)
      have hle := Nat.not_lt.1 hsize
      rw [Exponent.counted, Exponent.value, l.rank_decimal_apply _ hle hlen,
        l.rank_decimal_apply _ (exponentReach_le_foldl_readDigit hle) hlen]

/-- What a literal is read as is its number rounded exactly if both decimals have one rank. -/
theorem roundsTo_value_iff :
    RoundsTo l.sign.isMinus l.value (Double.ofRank l.sign.isMinus l.asRead.rank) ↔
      l.asRead.rank = l.exact.rank := by
  have hexact : RoundsTo l.sign.isMinus l.value (Double.ofRank l.sign.isMinus l.exact.rank) :=
    roundsTo_ofRank _ _
  constructor
  · intro h
    rw [← Double.rank_ofRank l.sign.isMinus (lt_of_le_infinity l.asRead.rank_le_infinity),
      h.eq hexact, Double.rank_ofRank _ (lt_of_le_infinity l.exact.rank_le_infinity)]
  · intro h
    rwa [h]

end Literal

namespace Number

/-- **A word is a number exactly if it is one of three names or a literal, and a literal reads as
a number that is rounded correctly.**  What is rounded is the literal with its exponent as far as
it was counted.  This is as good as the literal itself exactly if both have one rank, and so it is
whenever the exponent is in reach. -/
theorem isSome_literal?_iff_and_roundsTo (word : String) :
    ((literal? word).isSome ↔
      word = "inf" ∨ word = "-inf" ∨ word = "NaN" ∨ ∃ l : Literal, word = l.text) ∧
    ∀ l : Literal, word = l.text → ∃ x, literal? word = some x ∧
      RoundsTo l.sign.isMinus l.readValue x ∧
      (RoundsTo l.sign.isMinus l.value x ↔ l.asRead.rank = l.exact.rank) ∧
      (l.InReach → RoundsTo l.sign.isMinus l.value x) := by
  constructor
  · have heq (chars : List Char) : word.toList = chars ↔ word = String.ofList chars := by
      rw [← String.toList_inj, String.toList_ofList]
    rw [literal?, isSome_literalOfChars?_iff]
    simp only [heq]
    rfl
  · rintro l rfl
    exact ⟨_, l.literal?_text, roundsTo_ofRank _ _, l.roundsTo_value_iff,
      fun h => l.roundsTo_value_iff.2 (l.rank_asRead h)⟩

end Number

namespace Literal

/-- A literal halfway between the values `-2 ^ 53` and `-2 ^ 53 - 2`. -/
def halfway : Literal where
  sign := .minus
  whole := ['9', '0', '0', '7', '1', '9', '9', '2']
  fraction := some ['5', '4', '7', '4', '0', '9', '9', '3']
  exponent := some ⟨'E', .plus, ['0', '8'], Or.inr rfl, List.all_eq_true.1 rfl, by decide⟩
  isDigit_of_mem_whole := List.all_eq_true.1 rfl
  isDigit_of_mem_fraction := List.all_eq_true.1 rfl
  ne_nil := by decide

theorem halfway_rounds : (literal? "-90071992.54740993E+08").isSome ∧ halfway.InReach ∧
    ∃ x, literal? "-90071992.54740993E+08" = some x ∧ RoundsTo true (-9007199254740993) x := by
  have htext : "-90071992.54740993E+08" = halfway.text := by decide
  have hreach : halfway.InReach := Or.inr (by decide)
  have hvalue : halfway.value = -9007199254740993 := by
    have hexact : halfway.exact = ⟨9007199254740993, 0⟩ := by decide
    rw [value, hexact]
    norm_num [signed, halfway, Sign.isMinus, Decimal.value]
  obtain ⟨hiff, hread⟩ := isSome_literal?_iff_and_roundsTo "-90071992.54740993E+08"
  obtain ⟨x, hx, -, -, hrounds⟩ := hread halfway htext
  refine ⟨hiff.2 (Or.inr (Or.inr (Or.inr ⟨halfway, htext⟩))), hreach, x, hx, ?_⟩
  rw [← hvalue]
  exact hrounds hreach

/-- A one behind a point and `n` zeros, with the exponent `655360`. -/
def sunken (n : ℕ) : Literal where
  sign := .absent
  whole := ['0']
  fraction := some (List.replicate n '0' ++ ['1'])
  exponent := some ⟨'e', .absent, ['6', '5', '5', '3', '6', '0'], Or.inl rfl,
    List.all_eq_true.1 rfl, by decide⟩
  isDigit_of_mem_whole := List.all_eq_true.1 rfl
  isDigit_of_mem_fraction := fun _ hc => (List.mem_append.1 hc).elim
    Decimal.isDigit_of_mem_replicate (List.all_eq_true.1 rfl _)
  ne_nil := Or.inl (by decide)

theorem decimal_sunken (n : ℕ) (e : ℤ) : (sunken n).decimal e = ⟨1, e - (n + 1 : ℕ)⟩ := by
  have hdigits : Nat.ofDigitChars 10 (sunken n).digits 0 = 1 := by
    show Nat.ofDigitChars 10 (['0'] ++ (List.replicate n '0' ++ ['1'])) 0 = 1
    rw [Nat.ofDigitChars_append, Nat.ofDigitChars_append, Nat.ofDigitChars_replicate_zero]
    show Nat.ofDigitChars 10 ['1'] (10 ^ n * 0) = 1
    rw [Nat.mul_zero]
    rfl
  have hlength : (sunken n).part.length = n + 1 := by
    show (List.replicate n '0' ++ ['1']).length = n + 1
    rw [List.length_append, List.length_replicate, List.length_singleton]
  rw [decimal, hdigits, hlength]

/-- **Out of reach a literal may be read as another number.**  This one is `10 ^ 589824`, but its
exponent counts as `65536`, and so it reads as one. -/
theorem sunken_not_roundsTo : ∃ x, literal? (sunken 65535).text = some x ∧
    ¬ RoundsTo false (sunken 65535).value x := by
  have hread : (sunken 65535).asRead = ⟨1, 0⟩ := decimal_sunken 65535 65536
  have hexact : (sunken 65535).exact = ⟨1, 589824⟩ := decimal_sunken 65535 655360
  refine ⟨_, (sunken 65535).literal?_text, fun h => ?_⟩
  have hlarge : Magnitude.overflow ≤ |(sunken 65535).value| := by
    rw [value, abs_signed, hexact, abs_of_nonneg (Decimal.value_nonneg _)]
    by_contra hlt
    exact absurd (Decimal.isNearest_rank (not_le.1 hlt)).1 (by decide)
  rw [hread] at h
  exact absurd (h.infinite hlarge) (by decide +kernel)

end Literal

end ReversePolish
