import ReversePolish.Proofs.Number.Shortest

/-!
# Reading what was written

A numeral reads as the digits in front of its point, the digits behind it and an
exponent, and each part is found because the next one begins with a character
that cannot continue it (`decimal?_point`, `decimal?_whole`).  Both notations of a
decimal are of this form.  Plain notation may add a zero behind the point or fill
up with zeros, so what is read need not be the decimal that was written; it has
the same size (`exists_decimal?_plain`), and that is all that rounding asks for.
-/

namespace ReversePolish

namespace Numeral

/-! ## The parts of a numeral -/

theorem spanDigits_append {ds rest : List Char} (hds : ∀ c ∈ ds, c.isDigit = true)
    (hrest : ∀ c ∈ rest.head?, c.isDigit = false) : spanDigits (ds ++ rest) = (ds, rest) := by
  rw [spanDigits, List.takeWhile_append_of_pos hds, List.dropWhile_append_of_pos hds]
  rcases rest with _ | ⟨c, rest⟩
  · simp
  · have hc : c.isDigit = false := hrest c rfl
    simp [hc]

/-- A numeral with a point. -/
theorem decimal?_point {whole part rest : List Char} (hwhole : ∀ c ∈ whole, c.isDigit = true)
    (hpart : ∀ c ∈ part, c.isDigit = true) (hrest : ∀ c ∈ rest.head?, c.isDigit = false)
    (hne : whole ≠ [] ∨ part ≠ []) :
    decimal? (whole ++ '.' :: (part ++ rest)) = (exponent? rest).map fun e =>
      ⟨Nat.ofDigitChars 10 (whole ++ part) 0, e - part.length⟩ := by
  have hspan : spanDigits (whole ++ '.' :: (part ++ rest)) = (whole, '.' :: (part ++ rest)) :=
    spanDigits_append hwhole (by simp)
  have hdigits : ¬ (whole = [] ∧ part = []) := fun h => hne.elim (absurd h.1) (absurd h.2)
  simp only [decimal?, hspan, fraction, spanDigits_append hpart hrest, hdigits, if_false]

/-- A numeral without an exponent. -/
theorem decimal?_point_end {whole part : List Char} (hwhole : ∀ c ∈ whole, c.isDigit = true)
    (hpart : ∀ c ∈ part, c.isDigit = true) (hne : whole ≠ []) :
    decimal? (whole ++ '.' :: part) =
      some ⟨Nat.ofDigitChars 10 (whole ++ part) 0, 0 - part.length⟩ := by
  have h : decimal? (whole ++ '.' :: (part ++ [])) = _ :=
    decimal?_point hwhole hpart (by simp) (Or.inl hne)
  rwa [List.append_nil] at h

/-- A numeral without a point. -/
theorem decimal?_whole {whole rest : List Char} (hwhole : ∀ c ∈ whole, c.isDigit = true)
    (hrest : ∀ c ∈ rest.head?, c.isDigit = false ∧ c ≠ '.') (hne : whole ≠ []) :
    decimal? (whole ++ rest) = (exponent? rest).map fun e =>
      ⟨Nat.ofDigitChars 10 whole 0, e⟩ := by
  have hspan : spanDigits (whole ++ rest) = (whole, rest) :=
    spanDigits_append hwhole fun c hc => (hrest c hc).1
  have hfraction : fraction rest = ([], rest) := by
    unfold fraction
    split
    · exact absurd rfl (hrest '.' rfl).2
    · rfl
  simp [decimal?, hspan, hfraction, hne]

theorem exponentSize?_toDigits {n : ℕ} (h : n < exponentReach) :
    exponentSize? (Nat.toDigits 10 n) = some n := by
  have hdigits : (Nat.toDigits 10 n).all Char.isDigit :=
    List.all_eq_true.2 fun c hc => Nat.isDigit_of_mem_toDigits (by decide) (by decide) hc
  have hvalue := Nat.ofDigitChars_ten_toDigits (n := n)
  rw [exponentSize?, if_pos ⟨Nat.toDigits_ne_nil, hdigits⟩,
    foldl_readDigit_eq_ofDigitChars _ _ (hvalue.symm ▸ h), hvalue]

/-- Digits without a sign. -/
theorem signedExponent?_of_isDigit {text : List Char} (h : ∀ c ∈ text, c.isDigit = true) :
    signedExponent? text = (exponentSize? text).map fun n : ℕ => (n : ℤ) := by
  unfold signedExponent?
  split
  · exact absurd (h '-' List.mem_cons_self) (by decide)
  · exact absurd (h '+' List.mem_cons_self) (by decide)
  · cases exponentSize? text <;> rfl

/-- An exponent within reach is read back. -/
theorem exponent?_signedChars {n : ℤ} (h : n.natAbs < exponentReach) :
    exponent? ('e' :: Decimal.signedChars n) = some n := by
  have hsize := exponentSize?_toDigits h
  show signedExponent? (Decimal.signedChars n) = some n
  rw [Decimal.signedChars]
  split
  · rename_i hneg
    simp [signedExponent?, hsize, abs_of_neg hneg]
  · have hpos : (n.natAbs : ℤ) = n := by omega
    rw [signedExponent?_of_isDigit fun c hc =>
      Nat.isDigit_of_mem_toDigits (by decide) (by decide) hc, hsize, Option.map_some, hpos]

end Numeral

/-! ## The two notations -/

namespace Decimal

open Numeral

theorem isDigit_of_mem_digitChars {d : Decimal} {c : Char} (hc : c ∈ d.digitChars) :
    c.isDigit = true :=
  Nat.isDigit_of_mem_toDigits (by decide) (by decide) hc

theorem isDigit_of_mem_replicate {n : ℕ} {c : Char} (hc : c ∈ List.replicate n '0') :
    c.isDigit = true := by
  rw [List.eq_of_mem_replicate hc]
  rfl

theorem digitChars_ne_nil (d : Decimal) : d.digitChars ≠ [] := Nat.toDigits_ne_nil

theorem ofDigitChars_digitChars (d : Decimal) : Nat.ofDigitChars 10 d.digitChars 0 = d.digits :=
  Nat.ofDigitChars_ten_toDigits

/-- Zeros behind the digits lower the exponent. -/
theorem size_mul_pow (n i : ℕ) (e : ℤ) : size ⟨n * 10 ^ i, e - i⟩ = size ⟨n, e⟩ := by
  have hten : (10 : ℚ) ^ i ≠ 0 := by positivity
  rw [size, size, zpow_sub₀ (by norm_num), zpow_natCast]
  push_cast
  generalize (2 : ℚ) ^ 1074 = unit
  field_simp

/-- Plain notation has digits on both sides of the point, namely the digits of the decimal
between zeros, and the zeros behind them make up for the exponent. -/
theorem exists_plain_eq (d : Decimal) : ∃ (whole part : List Char) (a b : ℕ),
    d.plain = whole ++ '.' :: part ∧ whole ≠ [] ∧ part ≠ [] ∧
      whole ++ part = List.replicate a '0' ++ d.digitChars ++ List.replicate b '0' ∧
      d.exponent = (b : ℤ) - part.length := by
  have hne := d.digitChars_ne_nil
  unfold plain
  dsimp only
  split
  · -- the digits, zeros, and one more zero behind the point
    rename_i hplaces
    refine ⟨_, ['0'], 0, d.exponent.toNat + 1, rfl, by simp [hne], by simp, ?_, ?_⟩
    · rw [List.replicate_succ', List.replicate_zero, List.nil_append, List.append_assoc]
    · rw [List.length_singleton]
      omega
  · rename_i hplaces
    split
    · -- the point among the digits
      rename_i hlt
      refine ⟨_, _, 0, 0, rfl, by simp [hne]; omega, by simp; omega, ?_, ?_⟩
      · rw [List.take_append_drop, List.replicate_zero, List.nil_append, List.append_nil]
      · rw [List.length_drop]
        omega
    · -- the point in front of the digits
      rename_i hge
      refine ⟨['0'], _, (-d.exponent).toNat - d.digitChars.length + 1, 0, rfl, by simp,
        by simp [hne], ?_, ?_⟩
      · rw [List.replicate_succ, List.replicate_zero, List.append_nil]
        rfl
      · rw [List.length_append, List.length_replicate]
        omega

theorem isDigit_of_mem_padded {d : Decimal} {a b : ℕ} {c : Char}
    (hc : c ∈ List.replicate a '0' ++ d.digitChars ++ List.replicate b '0') :
    c.isDigit = true := by
  rcases List.mem_append.1 hc with hc | hc
  · exact (List.mem_append.1 hc).elim isDigit_of_mem_replicate isDigit_of_mem_digitChars
  · exact isDigit_of_mem_replicate hc

/-- The zeros around the digits do not change the size. -/
theorem size_padded {d : Decimal} {ds : List Char} {a b n : ℕ}
    (hdigits : ds = List.replicate a '0' ++ d.digitChars ++ List.replicate b '0')
    (hexponent : d.exponent = (b : ℤ) - n) : size ⟨Nat.ofDigitChars 10 ds 0, 0 - n⟩ = d.size := by
  have hzeros : Nat.ofDigitChars 10 (List.replicate a '0') 0 = 0 :=
    Nat.ofDigitChars_replicate_zero
  rw [hdigits, Nat.ofDigitChars_append, Nat.ofDigitChars_append, hzeros, ofDigitChars_digitChars,
    Nat.ofDigitChars_replicate_zero, Nat.mul_comm, show (0 : ℤ) - n = d.exponent - b by omega]
  exact size_mul_pow _ _ _

/-- **Plain notation reads as a decimal of the same size.** -/
theorem exists_decimal?_plain (d : Decimal) :
    ∃ d', decimal? d.plain = some d' ∧ d'.size = d.size := by
  obtain ⟨whole, part, a, b, hplain, hne, -, hdigits, hexponent⟩ := d.exists_plain_eq
  have hdigit : ∀ c ∈ whole ++ part, c.isDigit = true := fun c hc =>
    isDigit_of_mem_padded (hdigits ▸ hc)
  exact ⟨_, hplain ▸ decimal?_point_end (fun c hc => hdigit c (List.mem_append_left _ hc))
    (fun c hc => hdigit c (List.mem_append_right _ hc)) hne, size_padded hdigits hexponent⟩

/-- Exponent notation has one digit, the others behind a point if there are any, and the power of
ten of the first digit. -/
theorem exists_scientific_eq (d : Decimal) : ∃ (c : Char) (cs : List Char),
    d.digitChars = c :: cs ∧ d.scientific = c ::
      ((if cs = [] then [] else '.' :: cs) ++ 'e' :: signedChars (d.exponent + cs.length)) := by
  unfold scientific
  split
  · rename_i hnil
    exact absurd hnil d.digitChars_ne_nil
  · rename_i c hc
    exact ⟨c, [], hc, by simp⟩
  · rename_i c cs hne hcs
    exact ⟨c, cs, hcs, by rw [if_neg hne, List.cons_append]⟩

/-- **Exponent notation reads as the decimal that was written**, if its exponent is
within the reader's reach. -/
theorem decimal?_scientific {d : Decimal}
    (h : (d.exponent + (d.digitChars.length - 1 : ℕ)).natAbs < exponentReach) :
    decimal? d.scientific = some d := by
  have hvalue := d.ofDigitChars_digitChars
  have hdigit : ∀ c ∈ d.digitChars, c.isDigit = true := fun c hc => isDigit_of_mem_digitChars hc
  unfold scientific
  split
  · rename_i hnil
    exact absurd hnil d.digitChars_ne_nil
  · rename_i c hc
    rw [hc] at h hvalue hdigit
    have hexp := exponent?_signedChars (n := d.exponent) (by simpa using h)
    show decimal? ([c] ++ 'e' :: signedChars d.exponent) = some d
    rw [decimal?_whole hdigit (by simp) (by simp), hexp, Option.map_some, hvalue]
  · rename_i c cs _ hcs
    rw [hcs] at h hvalue hdigit
    have hexp := exponent?_signedChars (n := d.exponent + cs.length) (by simpa using h)
    show decimal? ([c] ++ '.' :: (cs ++ 'e' :: signedChars (d.exponent + cs.length))) = some d
    rw [decimal?_point (fun x hx => hdigit x (by simpa using Or.inl (List.mem_singleton.1 hx)))
      (fun x hx => hdigit x (List.mem_cons_of_mem c hx)) (by simp) (by simp), hexp,
      Option.map_some, List.singleton_append, hvalue, Int.add_sub_cancel]

/-! ## Where a spelling begins -/

/-- Plain notation begins with a digit. -/
theorem exists_plain_eq_cons (d : Decimal) :
    ∃ c rest, d.plain = c :: rest ∧ c.isDigit = true := by
  obtain ⟨whole, part, a, b, hplain, hne, -, hdigits, -⟩ := d.exists_plain_eq
  obtain ⟨c, cs, rfl⟩ := List.exists_cons_of_ne_nil hne
  have hc : c ∈ c :: cs ++ part := List.mem_cons_self
  exact ⟨c, _, hplain, isDigit_of_mem_padded (hdigits ▸ hc)⟩

/-- Exponent notation begins with a digit. -/
theorem exists_scientific_eq_cons (d : Decimal) :
    ∃ c rest, d.scientific = c :: rest ∧ c.isDigit = true := by
  obtain ⟨c, cs, hcs, hscientific⟩ := d.exists_scientific_eq
  exact ⟨c, _, hscientific, isDigit_of_mem_digitChars (d := d) (hcs ▸ List.mem_cons_self)⟩

end Decimal

end ReversePolish
