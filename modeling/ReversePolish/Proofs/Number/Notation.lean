import Mathlib.Data.List.DropRight
import ReversePolish.Proofs.Number.FewestDigits
import ReversePolish.Proofs.Number.Literal

/-!
# The spelling of a number is the shortest

Both notations of a decimal are literals, with a sign in front of them or without
(`Literal.exists_plain`, `Literal.exists_scientific`).  Their digits are those of the decimal and
zeros around them, so no more of them are significant (`length_trimZeros_le`).  Plain notation is
taken between two ranks, and these are the ranks of `10 ^ -4` and `10 ^ 16`: the latter is the
power of ten itself, and the former is the first magnitude that is not below it
(`Layout.isPlain_standard_iff`).

Any other literal has the size of its significant digits with some exponent.  If it reads as the
number, then the number is nearest to that size, and the bounds on the shortest decimal apply to
it.  They speak of the exponent as the reader counts it.  If that is not the exponent that is
spelled, the literal itself is ten times as large or more, or a tenth as large or less, and so it is
further away than anything that rounds to the number (`Decimal.abs_sub_le_of_digits_eq`).
-/

namespace ReversePolish

open Numeral Number Magnitude

/-! ## Significant digits -/

/-- The digit that is not significant at either end. -/
def isZero (c : Char) : Bool := c == '0'

/-- Digits without the zeros in front of and behind them. -/
def trimZeros (ds : List Char) : List Char := (ds.dropWhile isZero).rdropWhile isZero

theorem isZero_of_mem_replicate {n : ℕ} {c : Char} (h : c ∈ List.replicate n '0') :
    isZero c = true := beq_iff_eq.2 (List.eq_of_mem_replicate h)

theorem eq_replicate_of_isZero {ds : List Char} (h : ∀ c ∈ ds, isZero c = true) :
    ds = List.replicate ds.length '0' :=
  List.eq_replicate_of_mem fun c hc => beq_iff_eq.1 (h c hc)

theorem mem_of_mem_trimZeros {ds : List Char} {c : Char} (h : c ∈ trimZeros ds) : c ∈ ds :=
  (List.dropWhile_suffix _).mem ((List.rdropWhile_prefix _ _).mem h)

/-- Digits are their significant digits between zeros. -/
theorem exists_eq_trimZeros (ds : List Char) :
    ∃ a b, ds = List.replicate a '0' ++ (trimZeros ds ++ List.replicate b '0') := by
  refine ⟨(ds.takeWhile isZero).length, ((ds.dropWhile isZero).rtakeWhile isZero).length, ?_⟩
  rw [← eq_replicate_of_isZero fun c hc => List.mem_takeWhile_imp hc,
    ← eq_replicate_of_isZero fun c hc => List.mem_rtakeWhile_imp hc, trimZeros,
    List.rdropWhile_append_rtakeWhile, List.takeWhile_append_dropWhile]

/-- Zeros around digits add no significant digits. -/
theorem length_trimZeros_le (a b : ℕ) (ds : List Char) :
    (trimZeros (List.replicate a '0' ++ ds ++ List.replicate b '0')).length ≤ ds.length := by
  have hback (cs : List Char) :
      (cs ++ List.replicate b '0').rdropWhile isZero = cs.rdropWhile isZero := by
    rw [List.rdropWhile, List.reverse_append, List.reverse_replicate,
      List.dropWhile_append_of_pos fun c hc => isZero_of_mem_replicate hc, List.rdropWhile]
  rw [trimZeros, List.append_assoc,
    List.dropWhile_append_of_pos fun c hc => isZero_of_mem_replicate hc, List.dropWhile_append]
  split
  · rw [List.dropWhile_eq_nil_iff.2 fun c hc => isZero_of_mem_replicate hc, List.rdropWhile_nil]
    exact Nat.zero_le _
  · rw [hback]
    exact ((List.rdropWhile_prefix _ _).length_le).trans (List.dropWhile_suffix _).length_le

namespace Literal

/-- How many digits of a literal are significant. -/
def significant (l : Literal) : ℕ := (trimZeros l.digits).length

/-- A literal has the size of its significant digits with a suitable exponent. -/
theorem exists_size_decimal_eq (l : Literal) : ∃ (m : ℕ) (s : ℤ), m < 10 ^ l.significant ∧
    ∀ e : ℤ, (l.decimal e).size = Decimal.size ⟨m, e + s⟩ := by
  obtain ⟨a, b, hdigits⟩ := exists_eq_trimZeros l.digits
  refine ⟨Nat.ofDigitChars 10 (trimZeros l.digits) 0, b - l.part.length,
    ofDigitChars_lt fun c hc => l.isDigit_of_mem_digits c (mem_of_mem_trimZeros hc), fun e => ?_⟩
  have hvalue : Nat.ofDigitChars 10 l.digits 0 =
      Nat.ofDigitChars 10 (trimZeros l.digits) 0 * 10 ^ b := by
    have hzeros : Nat.ofDigitChars 10 (List.replicate a '0') 0 = 0 :=
      Nat.ofDigitChars_replicate_zero
    conv_lhs => rw [hdigits]
    rw [Nat.ofDigitChars_append, Nat.ofDigitChars_append, hzeros, Nat.ofDigitChars_replicate_zero,
      Nat.mul_comm]
  rw [decimal, hvalue, show e - l.part.length = e + (b - l.part.length : ℤ) - (b : ℕ) by omega,
    Decimal.size_mul_pow]

/-! ## The two notations -/

/-- Plain notation: digits on both sides of the point and no exponent. -/
structure Plain (l : Literal) : Prop where
  whole_ne_nil : l.whole ≠ []
  fraction_ne_nil : ∃ part, l.fraction = some part ∧ part ≠ []
  no_exponent : l.exponent = none

/-- Scientific notation: one digit other than zero, the others behind a point if there are any,
and an exponent with a small letter and without a plus. -/
structure Scientific (l : Literal) : Prop where
  whole_eq : ∃ c, c ≠ '0' ∧ l.whole = [c]
  fraction_ne_nil : ∀ part ∈ l.fraction, part ≠ []
  exponent_eq : ∃ e, l.exponent = some e ∧ e.letter = 'e' ∧ e.sign ≠ .plus

/-- A literal that spells a decimal behind a sign. -/
structure Spells (l : Literal) (s : Sign) (d : Decimal) : Prop where
  sign_eq : l.sign = s
  size_exact : l.exact.size = d.size
  significant_le : l.significant ≤ d.digitChars.length

/-- Plain notation of a decimal is a literal. -/
theorem exists_plain (s : Sign) (d : Decimal) :
    ∃ l : Literal, l.chars = s.chars ++ d.plain ∧ l.Plain ∧ l.Spells s d := by
  obtain ⟨whole, part, a, b, hplain, hwhole, hpart, hdigits, hexponent⟩ := d.exists_plain_eq
  have hdigit : ∀ c ∈ whole ++ part, c.isDigit = true := fun c hc =>
    Decimal.isDigit_of_mem_padded (hdigits ▸ hc)
  refine ⟨⟨s, whole, some part, none, fun c hc => hdigit c (List.mem_append_left _ hc),
    fun c hc => hdigit c (List.mem_append_right _ hc), Or.inl hwhole⟩, ?_,
    ⟨hwhole, ⟨part, rfl, hpart⟩, rfl⟩, ⟨rfl, ?_, ?_⟩⟩
  · rw [hplain]
    show s.chars ++ (whole ++ ('.' :: part ++ [])) = _
    rw [List.append_nil]
  · exact Decimal.size_padded hdigits hexponent
  · show (trimZeros (whole ++ part)).length ≤ _
    rw [hdigits]
    exact length_trimZeros_le a b _

/-- A whole number without a plus is an exponent. -/
theorem exists_exponent (n : ℤ) : ∃ e : Exponent,
    e.chars = 'e' :: Decimal.signedChars n ∧ e.value = n ∧ e.letter = 'e' ∧ e.sign ≠ .plus := by
  have hdigit : ∀ c ∈ Nat.toDigits 10 n.natAbs, c.isDigit = true := fun c hc =>
    Nat.isDigit_of_mem_toDigits (by decide) (by decide) hc
  have hvalue : Nat.ofDigitChars 10 (Nat.toDigits 10 n.natAbs) 0 = n.natAbs :=
    Nat.ofDigitChars_ten_toDigits
  rcases lt_or_ge n 0 with hneg | hpos
  · refine ⟨⟨'e', .minus, _, Or.inl rfl, hdigit, Nat.toDigits_ne_nil⟩, ?_, ?_, rfl, fun h => ?_⟩
    · rw [Decimal.signedChars, if_pos hneg]
      rfl
    · show -((Nat.ofDigitChars 10 (Nat.toDigits 10 n.natAbs) 0 : ℕ) : ℤ) = n
      rw [hvalue]
      omega
    · cases h
  · refine ⟨⟨'e', .absent, _, Or.inl rfl, hdigit, Nat.toDigits_ne_nil⟩, ?_, ?_, rfl, fun h => ?_⟩
    · rw [Decimal.signedChars, if_neg (not_lt.2 hpos)]
      rfl
    · show ((Nat.ofDigitChars 10 (Nat.toDigits 10 n.natAbs) 0 : ℕ) : ℤ) = n
      rw [hvalue]
      omega
    · cases h

/-- The digit in front is not zero. -/
theorem ne_zero_of_digitChars_eq {d : Decimal} (hd : 0 < d.digits) {c : Char} {cs : List Char}
    (hcs : d.digitChars = c :: cs) : c ≠ '0' := by
  rintro rfl
  have hdigit : ∀ x ∈ cs, x.isDigit = true := fun x hx =>
    Decimal.isDigit_of_mem_digitChars (d := d) (hcs ▸ List.mem_cons_of_mem _ hx)
  have hlt := ofDigitChars_lt hdigit
  have hle := Decimal.ten_pow_le_digits hd
  rw [← d.ofDigitChars_digitChars, hcs, List.length_cons, Nat.add_sub_cancel] at hle
  exact absurd hlt (Nat.not_lt.2 hle)

/-- Scientific notation of a decimal is a literal. -/
theorem exists_scientific (s : Sign) {d : Decimal} (hd : 0 < d.digits) :
    ∃ l : Literal, l.chars = s.chars ++ d.scientific ∧ l.Scientific ∧ l.Spells s d := by
  obtain ⟨c, cs, hcs, hscientific⟩ := d.exists_scientific_eq
  have hdigit : ∀ x ∈ [c] ++ cs, x.isDigit = true := fun x hx =>
    Decimal.isDigit_of_mem_digitChars (d := d) (hcs ▸ hx)
  obtain ⟨e, hchars, hvalue, hletter, hsign⟩ := exists_exponent (d.exponent + cs.length)
  obtain ⟨fraction, hpart, hpoint, hne⟩ : ∃ fraction : Option (List Char),
      fraction.getD [] = cs ∧ fraction.elim [] ('.' :: ·) = (if cs = [] then [] else '.' :: cs) ∧
        ∀ part ∈ fraction, part ≠ [] := by
    by_cases hnil : cs = []
    · exact ⟨none, hnil.symm, (if_pos hnil).symm, nofun⟩
    · refine ⟨some cs, rfl, (if_neg hnil).symm, fun part hpart => ?_⟩
      rwa [← Option.some.inj hpart]
  refine ⟨⟨s, [c], fraction, some e, fun x hx => hdigit x (List.mem_append_left _ hx),
    fun x hx => hdigit x (List.mem_append_right _ (hpart ▸ hx)), Or.inl (List.cons_ne_nil _ _)⟩, ?_,
    ⟨⟨c, ne_zero_of_digitChars_eq hd hcs, rfl⟩, hne, ⟨e, rfl, hletter, hsign⟩⟩, ⟨rfl, ?_, ?_⟩⟩
  · show s.chars ++ ([c] ++ (fraction.elim [] ('.' :: ·) ++ e.chars)) = _
    rw [hpoint, hchars, hscientific]
    rfl
  · show Decimal.size ⟨Nat.ofDigitChars 10 ([c] ++ fraction.getD []) 0,
      e.value - (fraction.getD []).length⟩ = d.size
    rw [hpart, hvalue, List.singleton_append, ← hcs, d.ofDigitChars_digitChars,
      Int.add_sub_cancel]
  · show (trimZeros ([c] ++ fraction.getD [])).length ≤ _
    rw [hpart, List.singleton_append, ← hcs]
    simpa using length_trimZeros_le 0 0 d.digitChars

end Literal

/-! ## Where plain notation begins and ends -/

namespace Layout

theorem units_plainFrom : 2 ^ 1074 ≤ units standard.plainFrom * 10 ^ 4 ∧
    units (standard.plainFrom - 1) * 10 ^ 4 < 2 ^ 1074 := by
  decide +kernel

theorem units_plainBelow : units standard.plainBelow = 10 ^ 16 * 2 ^ 1074 := by
  decide +kernel

/-- **Plain notation is for numbers from `10 ^ -4` up to but not including `10 ^ 16`.** -/
theorem isPlain_standard_iff {k : ℕ} :
    standard.isPlain k = true ↔ 1 / 10 ^ 4 ≤ value k ∧ value k < 10 ^ 16 := by
  obtain ⟨hfrom, hbefore⟩ := units_plainFrom
  have hbelow := units_plainBelow
  have hunit : (0 : ℚ) < 2 ^ 1074 := by positivity
  have hlow : 1 / 10 ^ 4 ≤ value k ↔ 2 ^ 1074 ≤ units k * 10 ^ 4 := by
    rw [value, div_le_div_iff₀ (by positivity) hunit, one_mul]
    exact_mod_cast Iff.rfl
  have hhigh : value k < 10 ^ 16 ↔ units k < 10 ^ 16 * 2 ^ 1074 := by
    rw [value, div_lt_iff₀ hunit]
    exact_mod_cast Iff.rfl
  rw [isPlain, decide_eq_true_eq, hlow, hhigh, ← hbelow]
  refine and_congr ⟨fun h => ?_, fun h => ?_⟩ ⟨fun h => units_lt_units h, fun h => ?_⟩
  · exact hfrom.trans (Nat.mul_le_mul_right _ (units_le_units h))
  · by_contra hlt
    have hle := Nat.mul_le_mul_right (10 ^ 4)
      (units_le_units (show k ≤ standard.plainFrom - 1 by omega))
    omega
  · by_contra hge
    exact absurd h (Nat.not_lt.2 (units_le_units (Nat.not_lt.1 hge)))

end Layout

/-! ## Other spellings of the same number -/

namespace Decimal

/-- What rounds to a magnitude is nearer to it than any size ten times as large or a tenth as
large as another that does.  So an exponent that is misread leads away from the magnitude. -/
theorem abs_sub_le_of_digits_eq {k : ℕ} (hk : 0 < k) {s : ℚ} (hs : IsNearest k s) {m : ℕ} {e : ℤ}
    (hnearest : IsNearest k (size ⟨m, e⟩)) (h : |s - units k| ≤ |size ⟨m, e⟩ - units k|) (e' : ℤ) :
    |s - units k| ≤ |size ⟨m, e'⟩ - units k| := by
  have hnext : (units (k + 1) : ℚ) ≤ 2 * units k := by exact_mod_cast units_succ_le_two_mul hk
  have hprev : (0 : ℚ) ≤ units (k - 1) := Nat.cast_nonneg _
  have hhalf : |s - units k| ≤ units k / 2 :=
    abs_le.2 ⟨by linarith [hs.low], by linarith [hs.high]⟩
  rcases Int.lt_trichotomy e e' with hlt | rfl | hgt
  · have hten := ten_mul_size_le (m := m) hlt
    refine hhalf.trans (le_abs.2 (Or.inl ?_))
    linarith [hnearest.low]
  · exact h
  · have hten := ten_mul_size_le (m := m) hgt
    refine hhalf.trans (le_abs.2 (Or.inr ?_))
    linarith [hnearest.high]

end Decimal

namespace Literal

/-- A literal that reads as a finite number rounds to its magnitude and has its sign. -/
theorem isNearest_asRead {l : Literal} {x : Double} (h : literal? l.text = some x)
    (hx : x.rank < infinity) :
    IsNearest x.rank l.asRead.size ∧ l.sign.isMinus = x.isNegative := by
  rw [l.literal?_text] at h
  obtain rfl := Option.some.inj h
  have hrank := l.asRead.rank_le_infinity
  rw [Double.rank_ofRank _ (lt_of_le_infinity hrank)] at hx ⊢
  exact ⟨Decimal.isNearest_of_rank_lt hx,
    (Double.isNegative_ofRank _ (lt_of_le_infinity hrank)).symm⟩

/-- The distance of a literal from a number with its sign, in units. -/
theorem abs_value_sub {l : Literal} {negative : Bool} (hsign : l.sign.isMinus = negative) (k : ℕ) :
    |l.value - signed negative (Magnitude.value k)| = |l.exact.size - units k| / 2 ^ 1074 := by
  have hunit : (0 : ℚ) < 2 ^ 1074 := by positivity
  rw [value, hsign, abs_signed_sub_signed, Decimal.size_eq, Magnitude.value, ← abs_of_pos hunit,
    ← abs_div, abs_of_pos hunit, sub_div, mul_div_cancel_right₀ _ hunit.ne']

/-- **Among the literals that read as one number, the one that spells the shortest decimal has
fewest significant digits, and of those with as many it is nearest to the number.** -/
theorem Spells.isShortest {l : Literal} {x : Double} (h0 : 0 < x.rank)
    (hx : x.rank < infinity) {s : Sign} (hl : l.Spells s (Decimal.shortest x.rank))
    (hs : s.isMinus = x.isNegative) {l' : Literal} (hl' : literal? l'.text = some x) :
    l.significant ≤ l'.significant ∧ (l'.significant = l.significant →
      |l.value - signed x.isNegative (Magnitude.value x.rank)| ≤
        |l'.value - signed x.isNegative (Magnitude.value x.rank)|) := by
  obtain ⟨hnearest, hsign⟩ := isNearest_asRead hl' hx
  obtain ⟨m, e, hm, hsize⟩ := l'.exists_size_decimal_eq
  have hread := hsize (l'.exponent.elim 0 Exponent.counted)
  have hexact := hsize (l'.exponent.elim 0 Exponent.value)
  rw [← asRead] at hread
  rw [← exact] at hexact
  rw [hread] at hnearest
  have hfewest := Decimal.length_digitChars_le h0 hm hnearest
  refine ⟨hl.significant_le.trans hfewest, fun heq => ?_⟩
  have hdigits : m < 10 ^ (Decimal.shortest x.rank).digitChars.length :=
    hm.trans_le (Nat.pow_le_pow_right (by decide) (heq ▸ hl.significant_le))
  have hclosest := Decimal.abs_sub_le_of_digits_eq h0 (Decimal.isNearest_shortest h0) hnearest
    (Decimal.abs_sub_le_of_digits_lt h0 hdigits hnearest) (l'.exponent.elim 0 Exponent.value + e)
  rw [abs_value_sub (hl.sign_eq ▸ hs), abs_value_sub hsign, hl.size_exact, hexact]
  exact div_le_div_of_nonneg_right hclosest (by positivity)

end Literal

/-! ## The spelling of a number -/

namespace Number

/-- The sign that is written in front of a number. -/
def writtenSign (negative : Bool) : Literal.Sign := if negative then .minus else .absent

theorem isMinus_writtenSign (negative : Bool) : (writtenSign negative).isMinus = negative := by
  cases negative <;> rfl

/-- The spelling of a finite number other than zero is a literal in the notation for its size. -/
theorem exists_chars_eq {x : Double} (h0 : 0 < x.rank) (hx : x.rank < infinity) :
    ∃ l : Literal, chars x = l.chars ∧
      (Layout.standard.isPlain x.rank = true → l.Plain) ∧
      (¬ Layout.standard.isPlain x.rank = true → l.Scientific) ∧
      l.Spells (writtenSign x.isNegative) (Decimal.shortest x.rank) := by
  have hchars : chars x = (writtenSign x.isNegative).chars ++ magnitudeChars x.rank := by
    have hnan : x.isNaN = false := decide_eq_false (Nat.not_lt.2 hx.le)
    rw [chars, hnan, if_neg Bool.false_ne_true, if_neg hx.ne]
    cases x.isNegative <;> rfl
  rw [hchars, magnitudeChars, if_neg h0.ne']
  dsimp only
  split
  · rename_i hplain
    obtain ⟨l, hl, hnotation, hspells⟩ := Literal.exists_plain (writtenSign x.isNegative)
      (Decimal.shortest x.rank)
    exact ⟨l, hl.symm, fun _ => hnotation, absurd hplain, hspells⟩
  · rename_i hplain
    obtain ⟨l, hl, hnotation, hspells⟩ := Literal.exists_scientific
      (writtenSign x.isNegative) (Decimal.digits_shortest_pos h0)
    exact ⟨l, hl.symm, fun h => absurd h hplain, fun _ => hnotation, hspells⟩

/-- **The spelling of a number is the shortest.**  A finite number other than zero is written with
a minus or no sign, in plain notation for sizes from `10 ^ -4` up to but not including `10 ^ 16`
and in scientific notation otherwise.  No literal that reads as the number has fewer significant
digits, and none that has as many is nearer to it. -/
theorem text_isShortest {x : Double} {q : ℚ} (hx : rational? x = some q) (hq : q ≠ 0) :
    ∃ l : Literal, text x = l.text ∧ l.sign = (if q < 0 then .minus else .absent) ∧
      (if 1 / 10 ^ 4 ≤ |q| ∧ |q| < 10 ^ 16 then l.Plain else l.Scientific) ∧
      ∀ l' : Literal, literal? l'.text = some x → l.significant ≤ l'.significant ∧
        (l'.significant = l.significant → |l.value - q| ≤ |l'.value - q|) := by
  rw [rational?_eq] at hx
  split at hx
  · rename_i hfinite
    obtain rfl := Option.some.inj hx
    have h0 : 0 < x.rank := by
      refine Nat.pos_of_ne_zero fun h => hq ?_
      rw [h, value_zero, signed_zero]
    have hpos := value_pos h0.ne'
    have habs : |signed x.isNegative (value x.rank)| = value x.rank := by
      rw [abs_signed, abs_of_pos hpos]
    obtain ⟨l, hchars, hplain, hscientific, hspells⟩ := exists_chars_eq h0 hfinite
    refine ⟨l, by rw [text, hchars, Literal.text], ?_, ?_, fun l' hl' =>
      hspells.isShortest h0 hfinite (isMinus_writtenSign _) hl'⟩
    · rw [hspells.sign_eq, writtenSign]
      cases x.isNegative with
      | false => exact (if_neg (not_lt.2 hpos.le)).symm
      | true => exact (if_pos (neg_neg_of_pos hpos)).symm
    · rw [habs]
      split
      · rename_i hrange
        exact hplain (Layout.isPlain_standard_iff.2 hrange)
      · rename_i hrange
        exact hscientific (Layout.isPlain_standard_iff.not.2 hrange)
  · cases hx

/-- One digit is enough for the last number below zero, `-4.94… * 10 ^ -324`, and five is the best
choice for it. -/
theorem text_isShortest_least : text (.ofRank true 1) = "-5e-324" ∧
    rational? (.ofRank true 1) = some (-(1 / 2 ^ 1074)) ∧ -(1 / 2 ^ 1074 : ℚ) ≠ 0 ∧
    ∃ l : Literal, "-5e-324" = l.text ∧ l.sign = .minus ∧ l.Scientific ∧
      ∀ l' : Literal, literal? l'.text = some (.ofRank true 1) →
        l.significant ≤ l'.significant ∧ (l'.significant = l.significant →
          |l.value - -(1 / 2 ^ 1074)| ≤ |l'.value - -(1 / 2 ^ 1074)|) := by
  have htext : text (.ofRank true 1) = "-5e-324" := by decide +kernel
  have hvalue : rational? (.ofRank true 1) = some (-(1 / 2 ^ 1074)) := by
    rw [rational?_ofRank true (by decide), value, units_of_lt (by decide), Nat.cast_one]
    rfl
  have hpos : (0 : ℚ) < 1 / 2 ^ 1074 := by positivity
  have hneg := neg_neg_of_pos hpos
  have hsmall : (1 / 2 ^ 1074 : ℚ) < 1 / 10 ^ 4 := by
    refine one_div_lt_one_div_of_lt (by positivity) ?_
    calc (10 : ℚ) ^ 4 < 2 ^ 14 := by norm_num
      _ ≤ 2 ^ 1074 := pow_le_pow_right₀ (by norm_num) (by norm_num)
  obtain ⟨l, hl, hsign, hnotation, hshortest⟩ := text_isShortest hvalue hneg.ne
  rw [if_pos hneg] at hsign
  rw [abs_neg, abs_of_pos hpos, if_neg fun h => absurd hsmall (not_lt.2 h.1)] at hnotation
  exact ⟨htext, hvalue, hneg.ne, l, htext.symm.trans hl, hsign, hnotation, hshortest⟩

end Number

end ReversePolish
