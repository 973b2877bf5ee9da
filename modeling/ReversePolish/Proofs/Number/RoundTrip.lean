import ReversePolish.Proofs.Number.Bits
import ReversePolish.Proofs.Number.Reading

/-!
# The spelling of a number reads as that number

For every number, `Number.literal?` takes the word that `Number.text` writes and
gives the number back (`literal?_text`).  A finite magnitude goes through its
shortest decimal: whichever notation is chosen, what is read has the same size,
so it rounds to the same rank.  The sign is split off before and put back after.

A literal is a numeral as well, of the same value (`value?_of_literalOfChars?`), so
it consists of letters, digits, points and signs (`isNumeralChar_of_mem`).  So the
spelling of a number is free of gaps, and no number ends in the call mark.
-/

namespace ReversePolish.Number

open Magnitude Numeral

/-! ## Magnitudes -/

theorem rank?_of_decimal? {text : List Char} {d d' : Decimal} (h : decimal? text = some d')
    (hsize : d'.size = d.size) : rank? text = some d.rank := by
  rw [rank?, h, ← Decimal.rank_congr hsize]

/-- The spelling of a finite magnitude reads as its rank. -/
theorem rank?_magnitudeChars {k : ℕ} (hk : k < infinity) : rank? (magnitudeChars k) = some k := by
  unfold magnitudeChars
  split
  · rename_i h0
    rw [h0]
    decide
  · rename_i h0
    have hpos := Nat.pos_of_ne_zero h0
    have hrank := Decimal.rank_shortest hpos hk
    dsimp only
    split
    · obtain ⟨d', hd', hsize⟩ := (Decimal.shortest k).exists_decimal?_plain
      rw [rank?_of_decimal? hd' hsize, hrank]
    · have hexp := Decimal.exponent_shortest_bounds hpos hk
      have hlen := Decimal.length_digitChars_shortest hpos hk
      have hread := Decimal.decimal?_scientific (d := Decimal.shortest k)
        (by unfold exponentReach; omega)
      rw [rank?_of_decimal? hread rfl, hrank]

/-- The spelling of a finite magnitude begins with a digit. -/
theorem exists_magnitudeChars_eq_cons (k : ℕ) :
    ∃ c rest, magnitudeChars k = c :: rest ∧ c.isDigit = true := by
  unfold magnitudeChars
  split
  · exact ⟨'0', _, rfl, rfl⟩
  · dsimp only
    split
    · exact Decimal.exists_plain_eq_cons _
    · exact Decimal.exists_scientific_eq_cons _

/-! ## Signs -/

theorem splitSign_of_isDigit {c : Char} (rest : List Char) (hc : c.isDigit = true) :
    splitSign (c :: rest) = (false, c :: rest) := by
  unfold splitSign
  split
  · rename_i heq
    rw [(List.cons.inj heq).1] at hc
    exact absurd hc (by decide)
  · rename_i heq
    rw [(List.cons.inj heq).1] at hc
    exact absurd hc (by decide)
  · rfl

/-- A word that begins as a numeral is none of the three names. -/
theorem literalOfChars?_of_looksNumeric {word : List Char} (h : looksNumeric word = true) :
    literalOfChars? word = value? word := by
  unfold literalOfChars?
  split
  · rename_i hw
    rw [hw] at h
    exact absurd h (by decide)
  · split
    · rename_i hw
      rw [hw] at h
      exact absurd h (by decide)
    · split
      · rename_i hw
        rw [hw] at h
        exact absurd h (by decide)
      · rfl

/-- A spelled magnitude, with or without a minus, reads as the number. -/
theorem literalOfChars?_signed (negative : Bool) {k : ℕ} (hk : k < infinity) :
    literalOfChars? (if negative then '-' :: magnitudeChars k else magnitudeChars k) =
      some (.ofRank negative k) := by
  obtain ⟨c, rest, hchars, hc⟩ := exists_magnitudeChars_eq_cons k
  have hsign := splitSign_of_isDigit rest hc
  have hrank := rank?_magnitudeChars hk
  rw [hchars] at hrank ⊢
  cases negative with
  | false =>
    rw [if_neg (by decide), literalOfChars?_of_looksNumeric, value?, hsign]
    · simp [hrank]
    · simp [looksNumeric, hsign, hc]
  | true =>
    rw [if_pos rfl, literalOfChars?_of_looksNumeric, value?, splitSign]
    · simp [hrank]
    · simp [looksNumeric, splitSign, hc]

/-- **The spelling of a number reads as that number**, and every not-a-number reads as one. -/
theorem literalOfChars?_chars (x : Double) : literalOfChars? (chars x) = some x.canonical := by
  unfold chars
  cases hnan : x.isNaN with
  | true =>
    rw [if_pos rfl, Double.canonical_of_isNaN hnan]
    rfl
  | false =>
    rw [if_neg (by decide), Double.canonical_of_not_isNaN hnan]
    have hx := x.ofRank_isNegative_rank
    rcases Nat.eq_or_lt_of_le (Nat.not_lt.1 (of_decide_eq_false hnan)) with hinf | hfin
    · rw [if_pos hinf, ← hx, hinf]
      cases x.isNegative <;> rfl
    · rw [if_neg (Nat.ne_of_lt hfin), literalOfChars?_signed _ hfin, hx]

@[simp] theorem literal?_text (x : Double) : literal? (text x) = some x.canonical := by
  rw [literal?, text, String.toList_ofList, literalOfChars?_chars]

/-- What is not a number is written in one way. -/
theorem chars_canonical (x : Double) : chars x.canonical = chars x := by
  cases hnan : x.isNaN with
  | false => rw [Double.canonical_of_not_isNaN hnan]
  | true => rw [chars, chars, Double.isNaN_canonical, hnan, if_pos rfl, if_pos rfl]

theorem text_canonical (x : Double) : text x.canonical = text x :=
  congrArg String.ofList (chars_canonical x)

/-- Numbers that are written alike are the same but for not-a-numbers. -/
theorem canonical_eq_of_chars_eq {x y : Double} (h : chars x = chars y) :
    x.canonical = y.canonical := by
  have hread := congrArg literalOfChars? h
  rw [literalOfChars?_chars, literalOfChars?_chars] at hread
  exact Option.some.inj hread

/-! ## What a literal cannot be -/

theorem toLower_of_isDigit {c : Char} (h : c.isDigit = true) : c.toLower = c := by
  simp only [Char.isDigit, Bool.and_eq_true, decide_eq_true_eq, UInt32.le_iff_toNat_le] at h
  unfold Char.toLower
  refine dif_neg fun hupper => ?_
  have hlow : 65 ≤ c.val.toNat := UInt32.le_iff_toNat_le.1 hupper.1
  have hhigh : c.val.toNat ≤ 57 := h.2
  omega

/-- What begins as a numeral is not a name. -/
theorem namedRank?_of_looksNumeric {word : List Char} (h : looksNumeric word = true) :
    namedRank? (splitSign word).2 = none := by
  unfold looksNumeric at h
  split at h
  · rename_i c rest hword
    have hc : c.toLower ≠ 'i' ∧ c.toLower ≠ 'n' := by
      rcases Bool.or_eq_true_iff.1 h with hdigit | hpoint
      · rw [toLower_of_isDigit hdigit]
        constructor <;> rintro rfl <;> exact absurd hdigit (by decide)
      · rw [of_decide_eq_true hpoint]
        decide
    rw [hword]
    simp [namedRank?, hc]
  · cases h

/-- **A literal is a number, or the one not-a-number that has a name.** -/
theorem canonical_of_literal? {word : String} {v : Double} (h : literal? word = some v) :
    v.canonical = v := by
  rw [literal?, literalOfChars?] at h
  split at h
  · obtain rfl := Option.some.inj h
    rfl
  split at h
  · obtain rfl := Option.some.inj h
    rfl
  split at h
  · obtain rfl := Option.some.inj h
    rfl
  split at h
  · rename_i hnumeric
    have hname := namedRank?_of_looksNumeric hnumeric
    rw [value?] at h
    generalize splitSign word.toList = signed at h hname
    obtain ⟨k, hk, rfl⟩ := Option.map_eq_some_iff.1 h
    rw [rank?, hname] at hk
    split at hk
    · rename_i d hd
      obtain rfl := Option.some.inj hk
      refine Double.canonical_of_not_isNaN (decide_eq_false (Nat.not_lt.2 ?_))
      rw [Double.rank_ofRank _ (d.rank_le_infinity.trans_lt (by decide))]
      exact d.rank_le_infinity
    · cases hk
  · cases h

/-! ## The characters of a number -/

/-- The characters of numerals and of the names of numbers. -/
def isNumeralChar (c : Char) : Bool := c.isAlphanum || c = '.' || c = '+' || c = '-'

theorem isNumeralChar_of_isDigit {c : Char} (hc : c.isDigit = true) : isNumeralChar c = true := by
  simp [isNumeralChar, Char.isAlphanum, hc]

theorem isNumeralChar_of_exponentSize? {text : List Char} (h : exponentSize? text ≠ none) :
    ∀ c ∈ text, isNumeralChar c = true := by
  unfold exponentSize? at h
  split at h
  · rename_i hdigits
    intro c hc
    exact isNumeralChar_of_isDigit (List.all_eq_true.1 hdigits.2 c hc)
  · exact absurd rfl h

theorem isNumeralChar_of_signedExponent? {text : List Char} {e : ℤ}
    (h : signedExponent? text = some e) : ∀ c ∈ text, isNumeralChar c = true := by
  unfold signedExponent? at h
  split at h
  · refine List.forall_mem_cons.2 ⟨rfl, isNumeralChar_of_exponentSize? fun hn => ?_⟩
    simp [hn] at h
  · refine List.forall_mem_cons.2 ⟨rfl, isNumeralChar_of_exponentSize? fun hn => ?_⟩
    simp [hn] at h
  · refine isNumeralChar_of_exponentSize? fun hn => ?_
    simp [hn] at h

theorem isNumeralChar_of_exponent? {text : List Char} {e : ℤ} (h : exponent? text = some e) :
    ∀ c ∈ text, isNumeralChar c = true := by
  unfold exponent? at h
  split at h
  · simp
  · exact List.forall_mem_cons.2 ⟨rfl, isNumeralChar_of_signedExponent? h⟩
  · exact List.forall_mem_cons.2 ⟨rfl, isNumeralChar_of_signedExponent? h⟩
  · cases h

/-- Digits in front of a text bring no other characters in. -/
theorem isNumeralChar_of_spanDigits {text : List Char}
    (h : ∀ c ∈ (spanDigits text).2, isNumeralChar c = true) :
    ∀ c ∈ text, isNumeralChar c = true := by
  intro c hc
  rw [← List.takeWhile_append_dropWhile (p := Char.isDigit) (l := text)] at hc
  rcases List.mem_append.1 hc with hc | hc
  · exact isNumeralChar_of_isDigit (List.mem_takeWhile_imp hc)
  · exact h c hc

theorem isNumeralChar_of_fraction {text : List Char}
    (h : ∀ c ∈ (fraction text).2, isNumeralChar c = true) :
    ∀ c ∈ text, isNumeralChar c = true := by
  unfold fraction at h
  split at h
  · exact List.forall_mem_cons.2 ⟨rfl, isNumeralChar_of_spanDigits h⟩
  · exact h

theorem isNumeralChar_of_decimal? {text : List Char} {d : Decimal} (h : decimal? text = some d) :
    ∀ c ∈ text, isNumeralChar c = true := by
  unfold decimal? at h
  dsimp only at h
  split at h
  · cases h
  · obtain ⟨e, he, -⟩ := Option.map_eq_some_iff.1 h
    exact isNumeralChar_of_spanDigits (isNumeralChar_of_fraction (isNumeralChar_of_exponent? he))

theorem isNumeralChar_of_toLower {c : Char} (h : c.toLower.isAlpha = true) :
    isNumeralChar c = true := by
  unfold Char.toLower at h
  split at h
  · rename_i hc
    have hupper : c.isUpper = true := by
      simpa [Char.isUpper] using hc
    simp [isNumeralChar, Char.isAlphanum, Char.isAlpha, hupper]
  · simp [isNumeralChar, Char.isAlphanum, h]

theorem isNumeralChar_of_namedRank? {text : List Char} {k : ℕ} (h : namedRank? text = some k) :
    ∀ c ∈ text, isNumeralChar c = true := by
  have hletters : ∀ c ∈ text.map Char.toLower, c.isAlpha = true := by
    unfold namedRank? at h
    dsimp only at h
    split at h
    · rename_i hw
      rcases hw with hw | hw <;> rw [hw] <;> exact List.all_eq_true.1 rfl
    · split at h
      · rename_i hw
        rw [hw]
        exact List.all_eq_true.1 rfl
      · cases h
  intro c hc
  exact isNumeralChar_of_toLower (hletters _ (List.mem_map_of_mem hc))

theorem isNumeralChar_of_rank? {text : List Char} {k : ℕ} (h : rank? text = some k) :
    ∀ c ∈ text, isNumeralChar c = true := by
  unfold rank? at h
  split at h
  · rename_i hd
    exact isNumeralChar_of_decimal? hd
  · exact isNumeralChar_of_namedRank? h

theorem isNumeralChar_of_value? {text : List Char} {v : Double} (h : value? text = some v) :
    ∀ c ∈ text, isNumeralChar c = true := by
  unfold value? at h
  dsimp only at h
  obtain ⟨k, hk, -⟩ := Option.map_eq_some_iff.1 h
  have hrest := isNumeralChar_of_rank? hk
  unfold splitSign at hrest
  split at hrest
  · exact List.forall_mem_cons.2 ⟨rfl, hrest⟩
  · exact List.forall_mem_cons.2 ⟨rfl, hrest⟩
  · exact hrest

/-- **A literal is a numeral as well**, of the same value. -/
theorem value?_of_literalOfChars? {word : List Char} {v : Double}
    (h : literalOfChars? word = some v) : Numeral.value? word = some v := by
  rw [literalOfChars?] at h
  -- Three words name numbers that are not finite; every other literal is read as a numeral.
  split at h
  · rename_i hinf
    rw [hinf, ← h]
    rfl
  split at h
  · rename_i hminus
    rw [hminus, ← h]
    rfl
  split at h
  · rename_i hnan
    rw [hnan, ← h]
    rfl
  split at h
  · exact h
  · cases h

/-- **A number has no other characters.** -/
theorem isNumeralChar_of_mem {word : List Char} {v : Double} (h : literalOfChars? word = some v) :
    ∀ c ∈ word, isNumeralChar c = true :=
  isNumeralChar_of_value? (value?_of_literalOfChars? h)

end ReversePolish.Number
