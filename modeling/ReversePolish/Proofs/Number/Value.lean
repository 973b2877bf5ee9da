import Mathlib.Algebra.Order.Ring.Abs
import ReversePolish.Proofs.Number.Bits
import ReversePolish.Proofs.Number.Nearest

/-!
# The number that a value is, and correct rounding

A finite value is a sign, a whole number and a power of two, and `Number.rational?` has these
parts from the format itself, which takes the pattern apart.  A rank counts units of `2 ^ -1074`
instead, and both are the same number (`Number.rational?_eq`).

`Number.RoundsTo` says in terms of these numbers alone what it is to round correctly: no finite
value is nearer, of two that are equally near the one with the even pattern is taken, and from
halfway between the largest finite value and `2 ^ 1024` on there is only infinity.  The sign is
kept also where the size is rounded to zero.  This leaves no choice (`Number.RoundsTo.eq`), since
between two even ranks there is another, and it is nearer than either.

The rank of a decimal was described by its two midpoints.  To lie between them is to be nearest
(`Magnitude.IsNearest.abs_sub_le`), also among the values of the other sign, which are further
away.  So a decimal with a sign rounds to the value that is made from the sign and the rank
(`Number.roundsTo_ofRank`).
-/

namespace ReversePolish

open Magnitude
open Float.Model (Format UnpackedFloat)
open Float.Model.UnpackedFloat (unpackExponent unpackMantissa unpackSign Sign)

/-- The number that a finite rank stands for. -/
def Magnitude.value (k : ℕ) : ℚ := units k / 2 ^ 1074

theorem Magnitude.value_zero : value 0 = 0 := by
  rw [value, units_zero, Nat.cast_zero, zero_div]

theorem Magnitude.value_lt_value {j k : ℕ} (h : j < k) : value j < value k := by
  have hunits : (units j : ℚ) < units k := by exact_mod_cast units_lt_units h
  exact div_lt_div_of_pos_right hunits (by positivity)

theorem Magnitude.value_nonneg (k : ℕ) : 0 ≤ value k := by
  unfold value
  positivity

namespace Number

/-! ## The number that a value is -/

/-- The number that a value of the format is, unless it is infinite or not a number. -/
def rational? (x : Double) : Option ℚ :=
  match UnpackedFloat.unpack Format.binary64 x.bits.toBitVec with
  | .finite sign mantissa exponent _ => some (sign.apply mantissa * 2 ^ exponent)
  | .zero _ => some 0
  | .infinity _ => none
  | .notANumber => none

/-- A number with a minus in front, or without. -/
def signed (negative : Bool) (q : ℚ) : ℚ := if negative then -q else q

theorem signed_mul (negative : Bool) (p q : ℚ) :
    signed negative p * q = signed negative (p * q) := by
  cases negative with
  | false => rfl
  | true => exact neg_mul p q

@[simp] theorem signed_zero (negative : Bool) : signed negative 0 = 0 := by
  cases negative with
  | false => rfl
  | true => exact neg_zero

theorem signed_signed (negative : Bool) (q : ℚ) : signed negative (signed negative q) = q := by
  cases negative with
  | false => rfl
  | true => exact neg_neg q

theorem abs_signed (negative : Bool) (q : ℚ) : |signed negative q| = |q| := by
  cases negative with
  | false => rfl
  | true => exact abs_neg q

/-- With one sign the distance is that of the sizes. -/
theorem abs_signed_sub_signed (negative : Bool) (p q : ℚ) :
    |signed negative p - signed negative q| = |p - q| := by
  cases negative with
  | false => rfl
  | true => rw [signed, signed, if_pos rfl, if_pos rfl, neg_sub_neg, abs_sub_comm]

/-- With two signs the sizes add up. -/
theorem abs_signed_sub_signed_of_ne {negative negative' : Bool} (h : negative ≠ negative')
    {p q : ℚ} (hp : 0 ≤ p) (hq : 0 ≤ q) :
    |signed negative p - signed negative' q| = p + q := by
  have hsum : |p + q| = p + q := abs_of_nonneg (add_nonneg hp hq)
  cases negative with
  | false =>
    obtain rfl : negative' = true := by simpa using h
    rw [signed, signed, if_neg (by decide), if_pos rfl, sub_neg_eq_add, hsum]
  | true =>
    obtain rfl : negative' = false := by simpa using h
    rw [signed, signed, if_pos rfl, if_neg (by decide), ← neg_add', abs_neg, hsum]

/-- The sign of the format is the sign bit. -/
theorem cast_apply_unpackSign (x : Double) (n : ℕ) :
    ((Sign.ofBitVec (@unpackSign Format.binary64 x.bits.toBitVec)).apply n : ℚ) =
      signed x.isNegative n := by
  have hlt := x.bits.toNat_lt
  have hsign : (@unpackSign Format.binary64 x.bits.toBitVec).toNat =
      x.bits.toNat / 2 ^ 63 := by
    simp [unpackSign, Nat.shiftRight_eq_div_pow]
    omega
  have hzero : @unpackSign Format.binary64 x.bits.toBitVec = 0#1 ↔
      ¬ 2 ^ 63 ≤ x.bits.toNat := by
    rw [← BitVec.toNat_inj, hsign]
    show _ = 0 ↔ _
    omega
  rw [Sign.ofBitVec, signed, Double.isNegative]
  by_cases h : 2 ^ 63 ≤ x.bits.toNat
  · rw [if_neg (hzero.not.2 (not_not.2 h)), if_pos (decide_eq_true h), Sign.apply]
    push_cast
    rfl
  · rw [if_pos (hzero.2 h), decide_eq_false h]
    rfl

theorem two_zpow_sub (e : ℕ) : (2 : ℚ) ^ ((e : ℤ) - 1074) = 2 ^ e / 2 ^ 1074 := by
  rw [zpow_sub₀ (by norm_num), zpow_natCast]
  rfl

/-- The fraction behind its leading one. -/
theorem toNat_one_append (fraction : BitVec 52) :
    (1#1 ++ fraction).toNat = 2 ^ 52 + fraction.toNat := by
  rw [BitVec.toNat_append, ← Nat.shiftLeft_add_eq_or_of_lt fraction.isLt]
  rfl

theorem rational?_of_infinity_le {x : Double} (h : infinity ≤ x.rank) : rational? x = none := by
  rw [rational?, UnpackedFloat.unpack]
  dsimp only
  rw [if_pos ((unpackExponent_eq_ones_iff _).2 h)]
  split_ifs <;> rfl

/-- Subnormal values count units. -/
theorem rational?_of_lt {x : Double} (h : x.rank < 2 ^ 52) :
    rational? x = some (signed x.isNegative (value x.rank)) := by
  have hfinite : ¬ infinity ≤ x.rank := by unfold infinity; omega
  have hexponent : x.bits.toNat / 2 ^ 52 % 2 ^ 11 = 0 := by unfold Double.rank at h; omega
  have hfraction : x.bits.toNat % 2 ^ 52 = x.rank := by unfold Double.rank at h ⊢; omega
  have hzeros : @unpackExponent Format.binary64 x.bits.toBitVec = 0#11 :=
    BitVec.toNat_inj.1 ((toNat_unpackExponent _).trans hexponent)
  rw [rational?, UnpackedFloat.unpack]
  dsimp only
  rw [if_neg ((unpackExponent_eq_ones_iff _).not.2 hfinite), if_pos hzeros]
  split_ifs with hzero
  · rw [← hfraction, (unpackMantissa_eq_zero_iff _).1 hzero, value_zero, signed_zero]
  · have hscale := two_zpow_sub 0
    simp only [cast_apply_unpackSign, toNat_unpackMantissa, toNat_unpackExponent, hexponent,
      hfraction]
    rw [value, units_of_lt h, signed_mul]
    show some (signed _ (_ * 2 ^ (((0 : ℕ) : ℤ) - 1074))) = _
    rw [hscale, pow_zero, mul_one_div]

/-- Above, a leading one stands before the fraction. -/
theorem rational?_of_binade {x : Double} {e f : ℕ} (hf : f < 2 ^ 52)
    (hx : x.rank = (e + 1) * 2 ^ 52 + f) (hfinite : x.rank < infinity) :
    rational? x = some (signed x.isNegative (value x.rank)) := by
  have hexponent : x.bits.toNat / 2 ^ 52 % 2 ^ 11 = e + 1 := by
    unfold infinity at hfinite
    unfold Double.rank at hx hfinite
    omega
  have hfraction : x.bits.toNat % 2 ^ 52 = f := by unfold Double.rank at hx; omega
  have hzeros : @unpackExponent Format.binary64 x.bits.toBitVec ≠ 0#11 := fun h => by
    have := (toNat_unpackExponent x.bits).symm.trans (congrArg BitVec.toNat h)
    rw [hexponent] at this
    cases this
  have hscale : ((e + 1 : ℕ) : ℤ) - ((1023 : ℕ) + (52 : ℕ)) = e - 1074 := by omega
  rw [rational?, UnpackedFloat.unpack]
  dsimp only
  rw [if_neg ((unpackExponent_eq_ones_iff _).not.2 (Nat.not_le.2 hfinite)), if_neg hzeros]
  simp only [cast_apply_unpackSign, toNat_one_append, toNat_unpackMantissa, toNat_unpackExponent,
    hexponent, hfraction]
  rw [value, hx, units_binade hf, signed_mul]
  show some (signed _ (_ * 2 ^ (((e + 1 : ℕ) : ℤ) - ((1023 : ℕ) + (52 : ℕ))))) = _
  rw [hscale, two_zpow_sub]
  push_cast
  rw [mul_div_assoc]

/-- **A finite value is its sign and that many units.** -/
theorem rational?_eq (x : Double) :
    rational? x =
      if x.rank < infinity then some (signed x.isNegative (value x.rank))
      else none := by
  split
  · rename_i hfinite
    by_cases hsub : x.rank < 2 ^ 52
    · exact rational?_of_lt hsub
    · exact rational?_of_binade (e := x.rank / 2 ^ 52 - 1) (f := x.rank % 2 ^ 52)
        (Nat.mod_lt _ (by omega)) (by omega) hfinite
  · rename_i hinfinite
    exact rational?_of_infinity_le (Nat.not_lt.1 hinfinite)

/-! ## Values made from a sign and a rank -/

theorem lt_of_le_infinity {k : ℕ} (hk : k ≤ infinity) : k < 2 ^ 63 := hk.trans_lt (by decide)

/-- The number that is made from a sign and a finite rank. -/
theorem rational?_ofRank (negative : Bool) {k : ℕ} (hk : k < infinity) :
    rational? (Double.ofRank negative k) = some (signed negative (value k)) := by
  have hk' := lt_of_le_infinity hk.le
  rw [rational?_eq, Double.rank_ofRank negative hk', Double.isNegative_ofRank negative hk',
    if_pos hk]

end Number

/-! ## To be nearest -/

namespace Magnitude

/-- **The nearest magnitude is nearest.** -/
theorem IsNearest.abs_sub_le {k : ℕ} {q : ℚ} (h : IsNearest k q) (j : ℕ) :
    |q - units k| ≤ |q - units j| := by
  have hlow := h.low
  have hhigh := h.high
  rcases Nat.lt_trichotomy j k with hjk | rfl | hkj
  · have hj : (units j : ℚ) ≤ units (k - 1) := by exact_mod_cast units_le_units (by omega)
    have hk : (units j : ℚ) ≤ units k := by exact_mod_cast units_le_units hjk.le
    exact (abs_le.2 ⟨by linarith, by linarith⟩).trans (le_abs_self (q - units j))
  · exact le_refl _
  · have hj : (units (k + 1) : ℚ) ≤ units j := by exact_mod_cast units_le_units hkj
    have hk : (units k : ℚ) ≤ units j := by exact_mod_cast units_le_units hkj.le
    exact (abs_le.2 ⟨by linarith, by linarith⟩).trans (neg_le_abs (q - units j))

/-- Where another magnitude is equally near, the rank is even. -/
theorem IsNearest.eq_or_even {k j : ℕ} {q : ℚ} (h : IsNearest k q)
    (heq : |q - units k| = |q - units j|) : j = k ∨ k % 2 = 0 := by
  have hlow := h.low
  have hhigh := h.high
  rcases Nat.lt_trichotomy j k with hjk | rfl | hkj
  · right
    have hj : (units j : ℚ) ≤ units (k - 1) := by exact_mod_cast units_le_units (by omega)
    have hk : (units j : ℚ) < units k := by exact_mod_cast units_lt_units hjk
    rw [abs_of_nonneg (show 0 ≤ q - units j by linarith)] at heq
    -- The size is on the near side of the magnitude, and so on the midpoint.
    rcases abs_choice (q - units k) with habs | habs
    · linarith
    · exact h.even_of_tie (Or.inl (by linarith))
  · exact Or.inl rfl
  · right
    have hj : (units (k + 1) : ℚ) ≤ units j := by exact_mod_cast units_le_units hkj
    have hk : (units k : ℚ) < units j := by exact_mod_cast units_lt_units hkj
    rw [abs_of_nonpos (show q - units j ≤ 0 by linarith)] at heq
    rcases abs_choice (q - units k) with habs | habs
    · exact h.even_of_tie (Or.inr (by linarith))
    · linarith

theorem value_pos {k : ℕ} (hk : k ≠ 0) : 0 < value k :=
  value_zero ▸ value_lt_value (Nat.pos_of_ne_zero hk)

/-- No magnitude but zero is nearest to nothing. -/
theorem IsNearest.pos {k : ℕ} (hk : k ≠ 0) {q : ℚ} (h : IsNearest k q) : 0 < q := by
  have hunits : (0 : ℚ) < units k := by
    exact_mod_cast units_zero ▸ units_lt_units (Nat.pos_of_ne_zero hk)
  have hpred : (0 : ℚ) ≤ units (k - 1) := Nat.cast_nonneg _
  linarith [h.low]

/-- The nearest magnitude in numbers. -/
theorem IsNearest.abs_sub_value_le {k : ℕ} {p : ℚ} (h : IsNearest k (p * 2 ^ 1074)) (j : ℕ) :
    |p - value k| ≤ |p - value j| ∧ (|p - value k| = |p - value j| → j = k ∨ k % 2 = 0) := by
  have hunit : (0 : ℚ) < 2 ^ 1074 := by positivity
  have hdist : ∀ m : ℕ, |p * 2 ^ 1074 - units m| = |p - value m| * 2 ^ 1074 := fun m => by
    rw [value, ← abs_of_pos hunit, ← abs_mul, abs_of_pos hunit, sub_mul,
      div_mul_cancel₀ _ hunit.ne']
  have hle := h.abs_sub_le j
  rw [hdist, hdist] at hle
  refine ⟨le_of_mul_le_mul_right hle hunit, fun heq => h.eq_or_even ?_⟩
  rw [hdist, hdist, heq]

/-- Halfway between the largest finite value and `2 ^ 1024`, where rounding overflows. -/
def overflow : ℚ := 2 ^ 1024 - 2 ^ 970

theorem units_infinity_pred_add :
    (units (infinity - 1) + units infinity : ℚ) = 2 * (overflow * 2 ^ 1074) := by
  -- the last value of a binade
  have htop (e : ℕ) : (units ((e + 1) * 2 ^ 52 + (2 ^ 52 - 1)) : ℚ) = (2 ^ 53 - 1) * 2 ^ e := by
    rw [units_binade (by decide)]
    norm_num
  have hpred : (units (infinity - 1) : ℚ) = (2 ^ 53 - 1) * 2 ^ 2045 := htop 2045
  have hlast : (units infinity : ℚ) = 2 ^ 53 * 2 ^ 2045 := by
    rw [units_infinity, Nat.cast_pow, Nat.cast_ofNat, ← pow_add]
  have hstep : (2 : ℚ) ^ 2045 = 2 * (2 ^ 970 * 2 ^ 1074) := by rw [← pow_add, ← pow_succ']
  have hfloor : (2 : ℚ) ^ 1024 = 2 ^ 54 * 2 ^ 970 := by rw [← pow_add]
  rw [hpred, hlast, hstep, overflow, hfloor]
  generalize (2 : ℚ) ^ 970 = a
  generalize (2 : ℚ) ^ 1074 = b
  ring

end Magnitude

namespace Decimal

/-- The number that a decimal names. -/
def value (d : Decimal) : ℚ := d.digits * 10 ^ d.exponent

theorem size_eq (d : Decimal) : d.size = d.value * 2 ^ 1074 := rfl

theorem value_nonneg (d : Decimal) : 0 ≤ d.value := by
  unfold value
  positivity

/-- What rounding gives before it is clamped is nearest to the decimal. -/
theorem exists_isNearest (d : Decimal) :
    ∃ j, d.rank = min infinity j ∧ IsNearest j d.size := by
  refine ⟨unclamped d.fraction.1 d.fraction.2, ?_, ?_⟩
  · rw [rank_eq_nearest, nearest_eq_min]
  · rw [← d.div_fraction]
    exact isNearest_unclamped _ d.fraction_snd_pos

/-- A finite rank is nearest. -/
theorem isNearest_of_rank_lt {d : Decimal} (h : d.rank < infinity) : IsNearest d.rank d.size := by
  obtain ⟨j, hj, hnearest⟩ := d.exists_isNearest
  obtain rfl : d.rank = j := by omega
  exact hnearest

/-- **Below the last midpoint a decimal has the rank that is nearest.** -/
theorem isNearest_rank {d : Decimal} (h : d.value < overflow) :
    d.rank < infinity ∧ IsNearest d.rank d.size := by
  obtain ⟨j, hj, hnearest⟩ := d.exists_isNearest
  have hsize : 2 * d.size < units (infinity - 1) + units infinity := by
    rw [units_infinity_pred_add, size_eq]
    gcongr
  have hlt : j < infinity := by
    by_contra hle
    have h₁ : (units (infinity - 1) : ℚ) ≤ units (j - 1) := by
      exact_mod_cast units_le_units (by omega)
    have h₂ : (units infinity : ℚ) ≤ units j := by exact_mod_cast units_le_units (by omega)
    linarith [hnearest.low]
  rw [hj, Nat.min_eq_right hlt.le]
  exact ⟨hlt, hnearest⟩

/-- **From the last midpoint on a decimal is infinite.** -/
theorem rank_eq_infinity {d : Decimal} (h : overflow ≤ d.value) : d.rank = infinity := by
  obtain ⟨j, hj, hnearest⟩ := d.exists_isNearest
  have hsize : (units (infinity - 1) + units infinity : ℚ) ≤ 2 * d.size := by
    rw [units_infinity_pred_add, size_eq]
    gcongr
  rw [hj, Nat.min_eq_left]
  by_contra hlt
  have h₁ : (units j : ℚ) ≤ units (infinity - 1) := by
    exact_mod_cast units_le_units (by omega)
  have h₂ : (units (j + 1) : ℚ) ≤ units infinity := by
    exact_mod_cast units_le_units (by omega)
  -- The midpoint itself belongs to the even neighbour, and that is infinity.
  have heven := hnearest.even_of_tie (Or.inr (by linarith [hnearest.high]))
  have hjpred : j = infinity - 1 := by
    by_contra hne
    have : (units j : ℚ) < units (infinity - 1) := by exact_mod_cast units_lt_units (by omega)
    linarith [hnearest.high]
  rw [hjpred] at heven
  exact absurd heven (by decide)

end Decimal

/-! ## Correct rounding -/

namespace Number

/-- `x` has the given sign, and otherwise is the number `q` as it is rounded: a finite value that
no other is nearer to `q` than, the even one of two that are equally near; or infinity, from
halfway between the largest finite value and `2 ^ 1024` on. -/
structure RoundsTo (negative : Bool) (q : ℚ) (x : Double) : Prop where
  sign : x.isNegative = negative
  nearest : |q| < overflow → ∃ r, rational? x = some r ∧
    ∀ y s, rational? y = some s →
      |q - r| ≤ |q - s| ∧ (|q - r| = |q - s| → s = r ∨ x.bits.toNat % 2 = 0)
  infinite : overflow ≤ |q| → x.toFloat.isInf = true

/-! ### At most one number -/

/-- Only the rank of infinity is infinite. -/
theorem rank_of_isInf {x : Double} (h : x.toFloat.isInf = true) : x.rank = infinity := by
  have hbits : x.toFloat.toBits = x.canonical.bits := congrArg Double.bits x.ofFloat_toFloat
  replace h : (UnpackedFloat.unpack Format.binary64 x.toFloat.toBits.toBitVec).isInf = true := h
  rw [hbits, UnpackedFloat.unpack] at h
  dsimp only at h
  split_ifs at h with hones hzero hzeros hzero
  · have hle := (unpackExponent_eq_ones_iff _).1 hones
    have hfraction := (unpackMantissa_eq_zero_iff _).1 hzero
    have hrank : x.canonical.rank = infinity := by
      unfold Double.rank infinity at *
      omega
    -- The not-a-number that stands for all has another rank.
    cases hnan : x.isNaN with
    | false => rwa [Double.canonical_of_not_isNaN hnan] at hrank
    | true =>
      rw [Double.canonical_of_isNaN hnan] at hrank
      exact absurd hrank (by decide)
  all_goals cases h

/-- What a finite number that is rounded to says about its rank: no rank is nearer, and of two
that are equally near it is the even one. -/
theorem RoundsTo.nearest_rank {negative : Bool} {p : ℚ} {x : Double}
    (hx : RoundsTo negative (signed negative p) x) (hp : |p| < overflow) :
    x.rank < infinity ∧ ∀ j < infinity, |p - value x.rank| ≤ |p - value j| ∧
      (|p - value x.rank| = |p - value j| → j = x.rank ∨ x.rank % 2 = 0) := by
  obtain ⟨r, hr, hnearest⟩ := hx.nearest (by rwa [abs_signed])
  rw [rational?_eq, hx.sign] at hr
  split at hr
  · rename_i hfinite
    obtain rfl := Option.some.inj hr
    refine ⟨hfinite, fun j hj => ?_⟩
    obtain ⟨hle, htie⟩ := hnearest _ _ (rational?_ofRank negative hj)
    rw [abs_signed_sub_signed, abs_signed_sub_signed] at hle htie
    refine ⟨hle, fun heq => (htie heq).imp (fun hsame => ?_) fun heven => ?_⟩
    · by_contra hne
      have hval : value j = value x.rank := by
        rw [← signed_signed negative (value j), hsame, signed_signed]
      rcases Nat.lt_or_gt_of_ne hne with hlt | hlt
      · exact (value_lt_value hlt).ne hval
      · exact (value_lt_value hlt).ne hval.symm
    · unfold Double.rank
      omega
  · cases hr

/-- Two ranks that are equally near and both even have one between them, which is nearer. -/
theorem RoundsTo.not_lt {negative : Bool} {p : ℚ} {x y : Double}
    (hx : RoundsTo negative (signed negative p) x) (hy : RoundsTo negative (signed negative p) y)
    (hp : |p| < overflow) : ¬ x.rank < y.rank := by
  intro hlt
  obtain ⟨hxfinite, hx⟩ := hx.nearest_rank hp
  obtain ⟨hyfinite, hy⟩ := hy.nearest_rank hp
  have hdist := le_antisymm (hx _ hyfinite).1 (hy _ hxfinite).1
  have hxeven := ((hx _ hyfinite).2 hdist).resolve_left hlt.ne'
  have hyeven := ((hy _ hxfinite).2 hdist.symm).resolve_left hlt.ne
  have hbetween := (hx (x.rank + 1) (by omega)).1
  have hlow := value_lt_value (Nat.lt_succ_self x.rank)
  have hhigh := value_lt_value (show x.rank + 1 < y.rank by omega)
  rcases abs_cases (p - value x.rank) with h | h <;>
    rcases abs_cases (p - value y.rank) with h' | h' <;>
      rcases abs_cases (p - value (x.rank + 1)) with h'' | h'' <;> linarith

/-- **There is one number that is correctly rounded.** -/
theorem RoundsTo.eq {negative : Bool} {q : ℚ} {x y : Double} (hx : RoundsTo negative q x)
    (hy : RoundsTo negative q y) : x = y := by
  have hrank : x.rank = y.rank := by
    rcases lt_or_ge |q| overflow with hq | hq
    · rw [← signed_signed negative q] at hx hy
      rw [← abs_signed negative] at hq
      exact Nat.le_antisymm (Nat.not_lt.1 (hy.not_lt hx hq)) (Nat.not_lt.1 (hx.not_lt hy hq))
    · rw [rank_of_isInf (hx.infinite hq), rank_of_isInf (hy.infinite hq)]
  rw [← Double.ofRank_isNegative_rank x, hx.sign, hrank, ← hy.sign,
    Double.ofRank_isNegative_rank]

/-! ### Sign and rank -/

theorem isInf_toFloat_ofRank (negative : Bool) :
    (Double.ofRank negative infinity).toFloat.isInf = true := by
  cases negative with
  | false => rfl
  | true => rfl

/-- The pattern of a value is even when its rank is. -/
theorem bits_ofRank_mod_two (negative : Bool) {k : ℕ} (hk : k ≤ infinity) :
    (Double.ofRank negative k).bits.toNat % 2 = k % 2 := by
  rw [Double.toNat_bits_ofRank negative (lt_of_le_infinity hk)]
  split <;> omega

/-- A finite value of either sign is no nearer than the nearest magnitude with the right one. -/
theorem abs_sub_le_of_isNearest (negative : Bool) {k : ℕ} {p : ℚ} (hp : 0 ≤ p)
    (h : IsNearest k (p * 2 ^ 1074)) {y : Double} {s : ℚ} (hy : rational? y = some s) :
    |signed negative p - signed negative (value k)| ≤ |signed negative p - s| ∧
      (|signed negative p - signed negative (value k)| = |signed negative p - s| →
        s = signed negative (value k) ∨ k % 2 = 0) := by
  rw [rational?_eq] at hy
  split at hy
  · obtain rfl := Option.some.inj hy
    obtain ⟨hle, heven⟩ := h.abs_sub_value_le y.rank
    have hnonneg := value_nonneg y.rank
    rw [abs_signed_sub_signed]
    by_cases hsign : negative = y.isNegative
    · rw [← hsign, abs_signed_sub_signed]
      exact ⟨hle, fun heq => (heven heq).imp_left fun hj => by rw [hj]⟩
    · rw [abs_signed_sub_signed_of_ne hsign hp hnonneg]
      have hsum : |p - value y.rank| ≤ p + value y.rank :=
        abs_le.2 ⟨by linarith, by linarith⟩
      refine ⟨hle.trans hsum, fun heq => Or.inr ?_⟩
      rcases heven (le_antisymm hle (hsum.trans_eq heq.symm)) with hj | heven
      · -- A number and its negative are equally near only to zero, or if both are zero.
        rw [hj] at heq
        have hk : k = 0 := by
          by_contra hk
          have hpos := value_pos hk
          have hp' : 0 < p := by
            have := h.pos hk
            exact pos_of_mul_pos_left this (by positivity)
          rcases abs_choice (p - value k) with habs | habs <;> linarith
        rw [hk]
      · exact heven
  · cases hy

/-- **A decimal with a sign rounds to the value that is made from the sign and the rank.** -/
theorem roundsTo_ofRank (negative : Bool) (d : Decimal) :
    RoundsTo negative (signed negative d.value) (Double.ofRank negative d.rank) := by
  have hrank := d.rank_le_infinity
  have habs : |signed negative d.value| = d.value := by
    rw [abs_signed, abs_of_nonneg d.value_nonneg]
  refine ⟨Double.isNegative_ofRank negative (lt_of_le_infinity hrank), fun hq => ?_, fun hq => ?_⟩
  · rw [habs] at hq
    obtain ⟨hlt, hnearest⟩ := Decimal.isNearest_rank hq
    refine ⟨_, rational?_ofRank negative hlt, fun y s hy => ?_⟩
    rw [bits_ofRank_mod_two negative hrank]
    exact abs_sub_le_of_isNearest negative d.value_nonneg hnearest hy
  · rw [habs] at hq
    rw [Decimal.rank_eq_infinity hq]
    exact isInf_toFloat_ofRank negative

end Number

end ReversePolish
