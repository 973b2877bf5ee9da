import Mathlib.Algebra.Order.Field.Power
import Mathlib.Data.Rat.Cast.Order
import Mathlib.Tactic.FieldSimp
import Mathlib.Tactic.Linarith
import Mathlib.Tactic.Positivity
import Mathlib.Tactic.Ring
import ReversePolish.Number.Decimal

/-!
# The nearest magnitude

`Magnitude.nearest` divides, shifts, rounds and clamps.  Here the answer is
described without any of that: the magnitude of rank `k` is nearest to a size `q`
when `q` lies between the two midpoints that `k` has with its neighbours, and on
a midpoint only if `k` is even (`IsNearest`).

* `IsNearest.eq`: a size has at most one nearest magnitude.  Two neighbouring
  ranges share one midpoint only, and of two neighbouring ranks one is odd.
* `isNearest_unclamped`: what rounding gives before it is clamped is nearest.
  Inside a binade this is rounding to a whole number; at the foot of a binade the
  lower neighbour is only half a step away, and there the quotient is not below
  the magnitude at all, because the binade was chosen by the quotient's size.
* `Decimal.rank_eq_of_isNearest`: the two bounds that answer extreme decimals
  early give the same answer, so a decimal has the rank that is nearest to its
  value.

Sizes are rational numbers and count units of `2 ^ -1074`.  Equal sizes therefore
need no cross-multiplication, and `Decimal.rank_congr` is immediate.
-/

namespace ReversePolish

namespace Magnitude

/-- The magnitude of rank `k` is nearest to the size `q`: a tie goes to the even
rank. -/
structure IsNearest (k : ℕ) (q : ℚ) : Prop where
  low : (units (k - 1) + units k : ℚ) ≤ 2 * q
  high : 2 * q ≤ units k + units (k + 1)
  even_of_tie : 2 * q = units (k - 1) + units k ∨ 2 * q = units k + units (k + 1) → k % 2 = 0

/-- The range of an even rank is closed and that of an odd one open. -/
theorem isNearest_iff {k : ℕ} {q : ℚ} :
    IsNearest k q ↔
      if k % 2 = 0 then (units (k - 1) + units k : ℚ) ≤ 2 * q ∧ 2 * q ≤ units k + units (k + 1)
      else (units (k - 1) + units k : ℚ) < 2 * q ∧ 2 * q < units k + units (k + 1) := by
  split
  · rename_i hk
    exact ⟨fun h => ⟨h.low, h.high⟩, fun h => ⟨h.1, h.2, fun _ => hk⟩⟩
  · rename_i hk
    constructor
    · intro h
      exact ⟨lt_of_le_of_ne h.low fun he => hk (h.even_of_tie (Or.inl he.symm)),
        lt_of_le_of_ne h.high fun he => hk (h.even_of_tie (Or.inr he))⟩
    · rintro ⟨hlow, hhigh⟩
      refine ⟨hlow.le, hhigh.le, ?_⟩
      rintro (he | he)
      · exact absurd he hlow.ne'
      · exact absurd he hhigh.ne

theorem units_le_units {j k : ℕ} (h : j ≤ k) : units j ≤ units k := by
  rcases Nat.eq_or_lt_of_le h with rfl | h
  · exact Nat.le_refl _
  · exact Nat.le_of_lt (units_lt_units h)

/-- The ranges of two ranks meet in a midpoint at most, and it belongs to one of
them. -/
theorem IsNearest.not_lt {j k : ℕ} {q : ℚ} (hj : IsNearest j q) (hk : IsNearest k q) :
    ¬ j < k := by
  intro h
  have h₁ : (units j : ℚ) ≤ units (k - 1) := by exact_mod_cast units_le_units (by omega)
  have h₂ : (units (j + 1) : ℚ) ≤ units k := by exact_mod_cast units_le_units h
  have hle := hj.high
  have hge := hk.low
  have hjk : k = j + 1 := by
    by_contra hne
    have : (units j : ℚ) < units (k - 1) := by exact_mod_cast units_lt_units (by omega)
    linarith
  have hj' := hj.even_of_tie (Or.inr (by linarith))
  have hk' := hk.even_of_tie (Or.inl (by linarith))
  omega

/-- **A size has at most one nearest magnitude.** -/
theorem IsNearest.eq {j k : ℕ} {q : ℚ} (hj : IsNearest j q) (hk : IsNearest k q) : j = k :=
  Nat.le_antisymm (Nat.not_lt.1 (hk.not_lt hj)) (Nat.not_lt.1 (hj.not_lt hk))

/-- Less than half a unit is nearest to nothing. -/
theorem isNearest_zero {q : ℚ} (hq : 0 ≤ q) (h : 2 * q < 1) : IsNearest 0 q := by
  have h1 : units 1 = 1 := units_of_lt (by decide)
  refine ⟨by simpa using hq, ?_, fun _ => rfl⟩
  simp only [units_zero, Nat.zero_add, h1]
  push_cast
  linarith

/-! ## Fraction and exponent together -/

/-- A fraction `r` behind the exponent `s` has the rank `r + s * 2 ^ 52`, also at
the top of its binade, where the same rank is the foot of the next. -/
theorem units_add_shift {r s : ℕ} (hs : s = 0 ∨ 2 ^ 52 ≤ r) (hr : r ≤ 2 ^ 53) :
    units (r + s * 2 ^ 52) = r * 2 ^ s := by
  rcases Nat.lt_or_ge r (2 ^ 52) with hlt | hge
  · obtain rfl : s = 0 := by omega
    simpa using units_of_lt hlt
  · rcases Nat.eq_or_lt_of_le hr with rfl | hr
    · rw [show 2 ^ 53 + s * 2 ^ 52 = (s + 1 + 1) * 2 ^ 52 + 0 by omega, units_binade (by decide)]
      ring
    · obtain ⟨f, rfl⟩ := Nat.exists_eq_add_of_le hge
      rw [show 2 ^ 52 + f + s * 2 ^ 52 = (s + 1) * 2 ^ 52 + f by omega, units_binade (by omega)]

/-- The upper neighbour is a full step away or more. -/
theorem succ_mul_le_units_succ {r s : ℕ} (hs : s = 0 ∨ 2 ^ 52 ≤ r) (hr : r ≤ 2 ^ 53) :
    (r + 1) * 2 ^ s ≤ units (r + s * 2 ^ 52 + 1) := by
  rcases Nat.eq_or_lt_of_le hr with rfl | hlt
  · rw [show 2 ^ 53 + s * 2 ^ 52 + 1 = 2 ^ 52 + 1 + (s + 1) * 2 ^ 52 by omega,
      units_add_shift (Or.inr (by omega)) (by omega), Nat.pow_succ]
    have := Nat.two_pow_pos s
    omega
  · rw [show r + s * 2 ^ 52 + 1 = r + 1 + s * 2 ^ 52 by omega,
      units_add_shift (by omega) (by omega)]

theorem units_infinity : units infinity = 2 ^ (52 + 2046) := by
  have h : infinity = (2046 + 1) * 2 ^ 52 + 0 := rfl
  rw [h, units_binade (Nat.two_pow_pos 52), Nat.add_zero, Nat.pow_add]

/-! ## Rounding to a whole number -/

/-- `r` is `y` rounded to a whole number, a half going to the even neighbour. -/
structure IsRounded (r : ℕ) (y : ℚ) : Prop where
  high : 2 * y ≤ 2 * r + 1
  low : 2 * r ≤ 2 * y + 1
  even_of_tie : 2 * y = 2 * r + 1 ∨ 2 * r = 2 * y + 1 → r % 2 = 0

/-- At an exact half the rounded number is even. -/
theorem roundHalfEven_even_of_tie (num : ℕ) {den : ℕ} (h : 0 < den)
    (htie : 2 * num = (2 * roundHalfEven num den + 1) * den ∨
      2 * num + den = 2 * (roundHalfEven num den * den)) : roundHalfEven num den % 2 = 0 := by
  have hmod := Nat.mod_lt num h
  have hdiv := Nat.div_add_mod num den
  have hcomm : den * (num / den) = num / den * den := Nat.mul_comm _ _
  have hodd : ∀ q : ℕ, (2 * q + 1) * den = 2 * (q * den) + den := fun q => by ring
  have hsucc : (num / den + 1) * den = num / den * den + den := Nat.succ_mul _ _
  unfold roundHalfEven at htie ⊢
  dsimp only at htie ⊢
  split at htie
  · rw [hodd] at htie
    omega
  · rename_i hrest
    split at htie
    · rename_i heven
      rw [if_neg hrest, if_pos heven]
      exact heven.2
    · rename_i hodd'
      rw [if_neg hrest, if_neg hodd']
      rw [hodd] at htie
      rcases htie with htie | htie <;> omega

theorem isRounded_roundHalfEven (num : ℕ) {den : ℕ} (h : 0 < den) :
    IsRounded (roundHalfEven num den) (num / den) := by
  have hden : (0 : ℚ) < den := by exact_mod_cast h
  obtain ⟨hhigh, hlow⟩ := roundHalfEven_near num h
  have htie := roundHalfEven_even_of_tie num h
  generalize roundHalfEven num den = r at hhigh hlow htie ⊢
  refine ⟨?_, ?_, ?_⟩
  · rw [mul_div_assoc', div_le_iff₀ hden]
    exact_mod_cast hhigh
  · rw [mul_div_assoc', div_add_one hden.ne', le_div_iff₀ hden, mul_assoc]
    exact_mod_cast hlow
  · rintro (h' | h')
    · rw [mul_div_assoc', div_eq_iff hden.ne'] at h'
      exact htie (Or.inl (by exact_mod_cast h'))
    · rw [mul_div_assoc', div_add_one hden.ne', eq_div_iff hden.ne', mul_assoc] at h'
      exact htie (Or.inr (by exact_mod_cast h'.symm))

/-- The lower neighbour of a rounded fraction is a full step away inside a binade.  At
the foot of a binade it is half a step away, but there the size is not below the
magnitude. -/
theorem IsRounded.lower_midpoint {r s : ℕ} {y : ℚ} (h : IsRounded r y) (hr : r ≤ 2 ^ 53)
    (hy : 0 ≤ y) (hs : s = 0 ∨ 2 ^ 52 ≤ r ∧ 2 ^ 52 ≤ y) :
    (units (r + s * 2 ^ 52 - 1) + r * 2 ^ s : ℚ) ≤ 2 * (y * 2 ^ s) ∧
      (2 * (y * 2 ^ s) = units (r + s * 2 ^ 52 - 1) + r * 2 ^ s → r % 2 = 0) := by
  have hpos : (0 : ℚ) < 2 ^ s := by positivity
  rcases Nat.eq_zero_or_pos r with rfl | hrpos
  · obtain rfl : s = 0 := by omega
    exact ⟨by simpa using hy, fun _ => rfl⟩
  by_cases hfoot : r = 2 ^ 52 ∧ s ≠ 0
  · have hunits : (units (r + s * 2 ^ 52) : ℚ) = r * 2 ^ s := by
      exact_mod_cast units_add_shift (hs.imp_right And.left) hr
    have hlt : (units (r + s * 2 ^ 52 - 1) : ℚ) < r * 2 ^ s := by
      rw [← hunits]
      exact_mod_cast units_lt_units (by omega)
    have hry : (r * 2 ^ s : ℚ) ≤ y * 2 ^ s := by
      refine mul_le_mul_of_nonneg_right ?_ hpos.le
      rw [hfoot.1]
      exact_mod_cast (hs.resolve_left hfoot.2).2
    exact ⟨by linarith, fun htie => by linarith⟩
  · have hpred : (units (r + s * 2 ^ 52 - 1) : ℚ) = (r - 1) * 2 ^ s := by
      rw [show r + s * 2 ^ 52 - 1 = r - 1 + s * 2 ^ 52 by omega,
        units_add_shift (by omega) (by omega)]
      push_cast [Nat.cast_pred hrpos]
      rfl
    rw [hpred]
    refine ⟨by linarith [mul_le_mul_of_nonneg_right h.low hpos.le], ?_⟩
    intro htie
    refine h.even_of_tie (Or.inr (mul_right_cancel₀ hpos.ne' ?_))
    linarith

/-- Rounding the fraction finds the nearest magnitude. -/
theorem IsRounded.isNearest {r s : ℕ} {y : ℚ} (h : IsRounded r y) (hr : r ≤ 2 ^ 53) (hy : 0 ≤ y)
    (hs : s = 0 ∨ 2 ^ 52 ≤ r ∧ 2 ^ 52 ≤ y) : IsNearest (r + s * 2 ^ 52) (y * 2 ^ s) := by
  have hpos : (0 : ℚ) < 2 ^ s := by positivity
  have hunits : (units (r + s * 2 ^ 52) : ℚ) = r * 2 ^ s := by
    exact_mod_cast units_add_shift (hs.imp_right And.left) hr
  have hsucc : ((r + 1) * 2 ^ s : ℚ) ≤ units (r + s * 2 ^ 52 + 1) := by
    exact_mod_cast succ_mul_le_units_succ (hs.imp_right And.left) hr
  have hpar : (r + s * 2 ^ 52) % 2 = r % 2 := by omega
  have hhigh : 2 * (y * 2 ^ s) ≤ r * 2 ^ s + (r + 1) * 2 ^ s := by
    linarith [mul_le_mul_of_nonneg_right h.high hpos.le]
  obtain ⟨hlow, htielow⟩ := h.lower_midpoint hr hy hs
  refine ⟨hunits ▸ hlow, by rw [hunits]; linarith, ?_⟩
  rw [hpar, hunits]
  rintro (htie | htie)
  · exact htielow htie
  · refine h.even_of_tie (Or.inl (mul_right_cancel₀ hpos.ne' ?_))
    linarith

/-! ## Rounding a quotient -/

/-- The exponent of the binade of a quotient. -/
def shift (num den : ℕ) : ℕ := (num / den).log2 - 52

/-- The rounded quotient as it is before what lies beyond infinity is cut off. -/
def unclamped (num den : ℕ) : ℕ :=
  roundHalfEven num (den * 2 ^ shift num den) + shift num den * 2 ^ 52

theorem nearest_eq_min (num den : ℕ) : nearest num den = min infinity (unclamped num den) := rfl

/-- The quotient lies below the end of its binade. -/
theorem lt_mul_shift (num : ℕ) {den : ℕ} (h : 0 < den) :
    num < 2 ^ 53 * (den * 2 ^ shift num den) := by
  have hlog : num / den < 2 ^ ((num / den).log2 + 1) := Nat.lt_log2_self
  have hle : 2 ^ ((num / den).log2 + 1) ≤ 2 ^ (53 + shift num den) :=
    Nat.pow_le_pow_right (by decide) (by unfold shift; omega)
  have hnum := (Nat.div_lt_iff_lt_mul h).1 (Nat.lt_of_lt_of_le hlog hle)
  rw [Nat.pow_add] at hnum
  calc num < 2 ^ 53 * 2 ^ shift num den * den := hnum
    _ = 2 ^ 53 * (den * 2 ^ shift num den) := by ring

/-- The quotient does not lie below the foot of its binade. -/
theorem mul_shift_le (num : ℕ) {den : ℕ} (h : 0 < den) (hs : shift num den ≠ 0) :
    2 ^ 52 * (den * 2 ^ shift num den) ≤ num := by
  have hpos : num / den ≠ 0 := by
    intro h0
    simp [shift, h0] at hs
  have hlog : 2 ^ (num / den).log2 ≤ num / den := Nat.log2_self_le hpos
  rw [show (num / den).log2 = 52 + shift num den by unfold shift at hs ⊢; omega,
    Nat.pow_add] at hlog
  have hnum := (Nat.le_div_iff_mul_le h).1 hlog
  calc 2 ^ 52 * (den * 2 ^ shift num den) = 2 ^ 52 * 2 ^ shift num den * den := by ring
    _ ≤ num := hnum

/-- **Rounding finds the nearest magnitude**, infinity left aside. -/
theorem isNearest_unclamped (num : ℕ) {den : ℕ} (h : 0 < den) :
    IsNearest (unclamped num den) (num / den) := by
  have hlt := lt_mul_shift num h
  have hle := mul_shift_le num h
  unfold unclamped
  generalize shift num den = s at hlt hle ⊢
  have hstep : 0 < den * 2 ^ s := Nat.mul_pos h (Nat.two_pow_pos s)
  have hstep' : (0 : ℚ) < (den * 2 ^ s : ℕ) := by exact_mod_cast hstep
  have hround := isRounded_roundHalfEven num hstep
  generalize roundHalfEven num (den * 2 ^ s) = r at hround ⊢
  have hy : (num / (den * 2 ^ s : ℕ) : ℚ) < 2 ^ 53 := by
    rw [div_lt_iff₀ hstep']
    exact_mod_cast hlt
  have hys : s ≠ 0 → (2 ^ 52 : ℚ) ≤ num / (den * 2 ^ s : ℕ) := by
    intro hs
    rw [le_div_iff₀ hstep']
    exact_mod_cast hle hs
  have hr : r < 2 ^ 53 + 1 := by
    have : (2 * r : ℚ) < 2 ^ 54 + 1 := by linarith [hround.low]
    have : 2 * r < 2 ^ 54 + 1 := by exact_mod_cast this
    omega
  have hrs : s ≠ 0 → 2 ^ 52 ≤ r := by
    intro hs
    have : (2 ^ 53 : ℚ) ≤ 2 * r + 1 := by linarith [hround.high, hys hs]
    have : 2 ^ 53 ≤ 2 * r + 1 := by exact_mod_cast this
    omega
  have hsize : (num / den : ℚ) = num / (den * 2 ^ s : ℕ) * 2 ^ s := by
    have hden : (den : ℚ) ≠ 0 := by exact_mod_cast h.ne'
    push_cast
    field_simp
  rw [hsize]
  refine hround.isNearest (Nat.le_of_lt_succ hr) (by positivity) ?_
  by_cases hs : s = 0
  · exact Or.inl hs
  · exact Or.inr ⟨hrs hs, hys hs⟩

/-- A finite magnitude that is nearest to a quotient is what rounding gives. -/
theorem nearest_eq_of_isNearest {k num den : ℕ} (hden : 0 < den) (hk : k < infinity)
    (h : IsNearest k (num / den)) : nearest num den = k := by
  rw [nearest_eq_min, (isNearest_unclamped num hden).eq h, Nat.min_eq_right hk.le]

/-- A quotient of the size of infinity or more is rounded to infinity. -/
theorem nearest_eq_infinity {num den : ℕ} (hden : 0 < den)
    (h : (units infinity : ℚ) ≤ num / den) : nearest num den = infinity := by
  have hn := isNearest_unclamped num hden
  rw [nearest_eq_min, Nat.min_eq_left]
  by_contra hlt
  have h₁ : (units (unclamped num den) : ℚ) < units infinity := by
    exact_mod_cast units_lt_units (Nat.lt_of_not_le hlt)
  have h₂ : (units (unclamped num den + 1) : ℚ) ≤ units infinity := by
    exact_mod_cast units_le_units (Nat.lt_of_not_le hlt)
  linarith [hn.high]

/-- Rounding depends on the quotient only. -/
theorem nearest_congr {num den num' den' : ℕ} (hden : 0 < den) (hden' : 0 < den')
    (h : (num / den : ℚ) = num' / den') : nearest num den = nearest num' den' := by
  have hn := isNearest_unclamped num hden
  rw [h] at hn
  rw [nearest_eq_min, nearest_eq_min, hn.eq (isNearest_unclamped num' hden')]

end Magnitude

/-! ## The rank of a decimal -/

namespace Decimal

open Magnitude

/-- The number that a decimal names, counted in units. -/
def size (d : Decimal) : ℚ := d.digits * 10 ^ d.exponent * 2 ^ 1074

theorem size_nonneg (d : Decimal) : 0 ≤ d.size := by
  unfold size
  positivity

theorem fraction_snd_pos (d : Decimal) : 0 < d.fraction.2 := Nat.pow_pos (by decide)

theorem div_fraction (d : Decimal) : (d.fraction.1 / d.fraction.2 : ℚ) = d.size := by
  have hz : (10 : ℚ) ^ d.exponent = 10 ^ d.exponent.toNat / 10 ^ (-d.exponent).toNat := by
    rw [← zpow_natCast, ← zpow_natCast, ← zpow_sub₀ (by norm_num)]
    congr 1
    omega
  simp only [fraction, size, hz, Nat.cast_mul, Nat.cast_pow, Nat.cast_ofNat]
  generalize (2 : ℚ) ^ 1074 = unit
  ring

/-- Ninety-three binary places fit into twenty-eight decimal ones, and so eleven
times as many do. -/
theorem two_pow_le_ten_pow {m n : ℕ} (h : (2 : ℚ) ^ m ≤ 10 ^ n) :
    (2 : ℚ) ^ (1023 + m) ≤ 10 ^ (308 + n) :=
  calc (2 : ℚ) ^ (1023 + m) = (2 ^ 93) ^ 11 * 2 ^ m := by rw [← pow_mul, ← pow_add]
    _ ≤ (10 ^ 28) ^ 11 * 10 ^ n := by gcongr; norm_num
    _ = 10 ^ (308 + n) := by rw [← pow_mul, ← pow_add]

/-- From `10 ^ 311` on, a decimal is infinite. -/
theorem units_infinity_le_size {d : Decimal} (h0 : d.digits ≠ 0) (h : 310 < d.exponent) :
    (units infinity : ℚ) ≤ d.size := by
  have hdigits : (1 : ℚ) ≤ d.digits := by exact_mod_cast Nat.one_le_iff_ne_zero.2 h0
  have hten : (2 : ℚ) ^ (1023 + 1) ≤ 10 ^ d.exponent :=
    calc (2 : ℚ) ^ (1023 + 1) ≤ 10 ^ (308 + 3) := two_pow_le_ten_pow (by norm_num)
      _ = 10 ^ (311 : ℤ) := (zpow_natCast _ _).symm
      _ ≤ 10 ^ d.exponent := zpow_le_zpow_right₀ (by norm_num) (by omega)
  calc (units infinity : ℚ) = 2 ^ (1023 + 1) * 2 ^ 1074 := by
        rw [units_infinity, Nat.cast_pow, Nat.cast_ofNat, ← pow_add]
    _ ≤ 10 ^ d.exponent * 2 ^ 1074 := by gcongr
    _ ≤ d.digits * 10 ^ d.exponent * 2 ^ 1074 := by
        gcongr
        exact le_mul_of_one_le_left (by positivity) hdigits

/-- Below `10 ^ -325` a decimal is less than half a unit, however many digits it has. -/
theorem two_mul_size_lt_one_of_lt_pow {d : Decimal} {n : ℕ} (hdigits : d.digits < 10 ^ n)
    (h : d.exponent + n + 325 ≤ 0) : 2 * d.size < 1 := by
  obtain ⟨m, hm⟩ : ∃ m : ℕ, d.exponent = -(m : ℤ) := ⟨(-d.exponent).toNat, by omega⟩
  have hdigits' : (d.digits : ℚ) < 10 ^ n := by exact_mod_cast hdigits
  have htwo : (2 : ℚ) ^ (1074 + 1) ≤ 10 ^ (308 + 17) := two_pow_le_ten_pow (m := 52) (by norm_num)
  have hten : (10 : ℚ) ^ n * 2 ^ (1074 + 1) ≤ 10 ^ m :=
    calc (10 : ℚ) ^ n * 2 ^ (1074 + 1) ≤ 10 ^ n * 10 ^ 325 := by gcongr
      _ = 10 ^ (n + 325) := (pow_add _ _ _).symm
      _ ≤ 10 ^ m := pow_le_pow_right₀ (by norm_num) (by omega)
  have hpos : (0 : ℚ) < 10 ^ m := by positivity
  calc 2 * d.size = d.digits * 2 ^ (1074 + 1) / 10 ^ m := by
        rw [size, hm, zpow_neg, zpow_natCast, pow_succ (2 : ℚ) 1074]
        generalize (2 : ℚ) ^ 1074 = unit
        ring
    _ < 10 ^ n * 2 ^ (1074 + 1) / 10 ^ m := by gcongr
    _ ≤ 1 := (div_le_one hpos).2 hten

/-- The bound that is tested, which takes the binary places of the digits for decimal ones. -/
theorem two_mul_size_lt_one {d : Decimal} (h : d.exponent + d.digits.log2 + 325 < 0) :
    2 * d.size < 1 := by
  refine two_mul_size_lt_one_of_lt_pow (n := d.digits.log2 + 1) ?_ (by push_cast; omega)
  calc d.digits < 2 ^ (d.digits.log2 + 1) := Nat.lt_log2_self
    _ ≤ 10 ^ (d.digits.log2 + 1) := Nat.pow_le_pow_left (by decide) _

/-- **The early answers are the answers of rounding.** -/
theorem rank_eq_nearest (d : Decimal) : d.rank = nearest d.fraction.1 d.fraction.2 := by
  have hzero : 2 * d.size < 1 → nearest d.fraction.1 d.fraction.2 = 0 := fun h =>
    nearest_eq_of_isNearest d.fraction_snd_pos (by decide)
      (d.div_fraction ▸ isNearest_zero d.size_nonneg h)
  unfold rank
  split
  · rename_i h0
    exact (hzero (by simp [size, h0])).symm
  · rename_i h0
    split
    · rename_i h
      exact (nearest_eq_infinity d.fraction_snd_pos
        (d.div_fraction ▸ units_infinity_le_size h0 h)).symm
    · split
      · rename_i h
        exact (hzero (two_mul_size_lt_one h)).symm
      · rfl

/-- A decimal has the rank of the finite magnitude that is nearest to it. -/
theorem rank_eq_of_isNearest {d : Decimal} {k : ℕ} (hk : k < infinity) (h : IsNearest k d.size) :
    d.rank = k := by
  rw [rank_eq_nearest]
  exact nearest_eq_of_isNearest d.fraction_snd_pos hk (d.div_fraction.symm ▸ h)

/-- Less than half a unit is rounded to zero. -/
theorem rank_eq_zero {d : Decimal} (h : 2 * d.size < 1) : d.rank = 0 :=
  rank_eq_of_isNearest (by decide) (isNearest_zero d.size_nonneg h)

/-- Decimals of one value have one rank. -/
theorem rank_congr {d d' : Decimal} (h : d.size = d'.size) : d.rank = d'.rank := by
  rw [rank_eq_nearest, rank_eq_nearest]
  refine nearest_congr d.fraction_snd_pos d'.fraction_snd_pos ?_
  rw [div_fraction, div_fraction, h]

end Decimal
end ReversePolish
