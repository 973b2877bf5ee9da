import ReversePolish.Proofs.Number.Shortest
import ReversePolish.Proofs.Number.Value

/-!
# No decimal has fewer digits

The sizes that one magnitude is nearest to have no gaps (`Magnitude.IsNearest.between`).  On grids
coarser than that of the shortest decimal there is none of them
(`Decimal.not_isNearest_of_exponent_lt`).  Both together bound the digits.  Let the shortest
decimal have `n` digits.  A decimal with fewer digits on the same grid or a finer one is smaller,
and so a power of ten lies between the two.  It would be rounded alike, and it belongs to a coarser
grid unless `n` is one.

For the same reason a decimal with as many digits is on the same grid, where the search has found
the nearest, or `n` is one and the other decimal stops short of the power of ten.  Then the power
of ten is at least as near to the magnitude.  This is clear if it does not exceed it, and
otherwise a tenth of the magnitude fits into the range.  Only for the nine smallest magnitudes is
the range that wide, and of these only the second has a power of ten in it: it is
`9.88… * 10 ^ -324`, and `10 ^ -323` is nearer to it than `9 * 10 ^ -324`.
-/

namespace ReversePolish

open Magnitude

namespace Magnitude

/-! ## The range of a magnitude -/

/-- The sizes that one magnitude is nearest to have no gaps. -/
theorem IsNearest.between {k : ℕ} {p q r : ℚ} (hp : IsNearest k p) (hr : IsNearest k r)
    (hpq : p ≤ q) (hqr : q ≤ r) : IsNearest k q := by
  rw [isNearest_iff] at hp hr ⊢
  split at hp
  · rename_i hk
    rw [if_pos hk] at hr ⊢
    exact ⟨by linarith [hp.1], by linarith [hr.2]⟩
  · rename_i hk
    rw [if_neg hk] at hr ⊢
    exact ⟨by linarith [hp.1], by linarith [hr.2]⟩

/-- The step to the next magnitude is one, or a small part of the magnitude. -/
theorem units_succ_le (k : ℕ) :
    (k < 2 ^ 52 ∧ units (k + 1) = k + 1) ∨
      (2 ^ 52 ≤ units k ∧ 2 ^ 52 * units (k + 1) ≤ (2 ^ 52 + 1) * units k) := by
  by_cases hk : k < 2 ^ 52
  · left
    refine ⟨hk, ?_⟩
    have h := units_add_shift (r := k + 1) (s := 0) (Or.inl rfl) (by omega)
    simpa using h
  · right
    obtain ⟨r, s, hr, hr', rfl⟩ : ∃ r s, 2 ^ 52 ≤ r ∧ r < 2 ^ 53 ∧ k = r + s * 2 ^ 52 :=
      ⟨2 ^ 52 + k % 2 ^ 52, k / 2 ^ 52 - 1, by omega, by omega, by omega⟩
    rw [units_add_shift (Or.inr hr) hr'.le,
      show r + s * 2 ^ 52 + 1 = r + 1 + s * 2 ^ 52 by omega,
      units_add_shift (Or.inr (by omega)) hr', ← Nat.mul_assoc, ← Nat.mul_assoc]
    exact ⟨hr.trans (Nat.le_mul_of_pos_right _ (Nat.two_pow_pos s)),
      Nat.mul_le_mul_right _ (by omega)⟩

/-- The next magnitude is at most twice as large. -/
theorem units_succ_le_two_mul {k : ℕ} (hk : 0 < k) : units (k + 1) ≤ 2 * units k := by
  rcases units_succ_le k with ⟨hsub, h⟩ | ⟨-, h⟩
  · rw [h, units_of_lt hsub]
    omega
  · omega

/-- A range that is a tenth of the magnitude wide belongs to one of the nine smallest. -/
theorem IsNearest.le_nine {k : ℕ} {p r : ℚ} (hp : IsNearest k p) (hr : IsNearest k r)
    (h : 10 * p ≤ 9 * r) : k ≤ 9 := by
  have hwide : 10 * (units (k - 1) + units k) ≤ 9 * (units k + units (k + 1)) := by
    have : (10 * (units (k - 1) + units k) : ℚ) ≤ 9 * (units k + units (k + 1)) := by
      linarith [hp.low, hr.high]
    exact_mod_cast this
  by_contra hk
  have hprev := units_succ_le (k - 1)
  rw [Nat.sub_add_cancel (by omega)] at hprev
  rcases units_succ_le k with ⟨hsub, hnext⟩ | ⟨hlarge, hnext⟩
  · rw [hnext, units_of_lt hsub, units_of_lt (by omega)] at hwide
    omega
  · rcases hprev with ⟨hsub, heq⟩ | ⟨-, hprev⟩
    · rw [heq] at hwide hlarge hnext
      rw [units_of_lt hsub] at hwide
      omega
    · omega

theorem lt_ten_pow_placesBound (n : ℕ) : n < 10 ^ placesBound n := by
  have hplaces : 28 * (n.log2 + 1) < 93 * placesBound n := by unfold placesBound; omega
  refine Nat.lt_of_lt_of_le Nat.lt_log2_self (le_of_lt ?_)
  refine lt_of_pow_lt_pow_left₀ 28 (Nat.zero_le _) ?_
  calc (2 ^ (n.log2 + 1)) ^ 28 = 2 ^ (28 * (n.log2 + 1)) := by rw [← pow_mul, Nat.mul_comm]
    _ < 2 ^ (93 * placesBound n) := Nat.pow_lt_pow_right (by decide) hplaces
    _ = (2 ^ 93) ^ placesBound n := pow_mul _ _ _
    _ ≤ (10 ^ 28) ^ placesBound n := Nat.pow_le_pow_left (by decide) _
    _ = (10 ^ placesBound n) ^ 28 := by rw [← pow_mul, ← pow_mul, Nat.mul_comm]

end Magnitude

/-- The grains of a unit, between multiples of `10 ^ 750`. -/
theorem Basin.grains_bounds : 19 * 10 ^ 750 ≤ 4 * grains ∧ 3 * grains < 20 * 10 ^ 750 := by
  rw [grains]
  decide +kernel

namespace Decimal

open Basin

/-- A decimal has no leading zeros. -/
theorem ten_pow_le_digits {d : Decimal} (h : 0 < d.digits) :
    10 ^ (d.digitChars.length - 1) ≤ d.digits := by
  rcases Nat.eq_zero_or_pos (d.digitChars.length - 1) with hlen | hlen
  · rw [hlen]
    exact h
  · refine Nat.not_lt.1 fun hlt => ?_
    have hle : d.digitChars.length ≤ d.digitChars.length - 1 :=
      (Nat.length_toDigits_le_iff (by decide) hlen).2 hlt
    omega

variable {k : ℕ} (hk : 0 < k)
include hk

/-! ## The grid of the shortest decimal -/

/-- **On a coarser grid nothing rounds to the magnitude.** -/
theorem not_isNearest_of_exponent_lt {d : Decimal} (h : (shortest k).exponent < d.exponent) :
    ¬ IsNearest k d.size := by
  intro hnearest
  obtain ⟨n, i, heq, -, -, hcoarser, -⟩ := exists_shortest_eq hk
  rw [heq] at h
  obtain ⟨m, e⟩ := d
  obtain ⟨j, rfl⟩ : ∃ j : ℕ, e = (j : ℤ) - 1074 := ⟨(e + 1074).toNat, by dsimp only at h; omega⟩
  have hm : 0 < m := by
    refine Nat.pos_of_ne_zero fun hm => (hnearest.pos hk.ne').ne' ?_
    rw [hm, size_grid, Nat.zero_mul, Nat.cast_zero, zero_div]
  rw [size_grid] at hnearest
  have hcontains := contains_ofRank_iff.2 hnearest
  by_cases hj : j ≤ placesBound (ofRank k).highDoubled
  · exact hcoarser j m (by dsimp only at h; omega) hj hcontains
  · have hlt := lt_ten_pow_placesBound (ofRank k).highDoubled
    have hpow : 10 ^ placesBound (ofRank k).highDoubled ≤ 10 ^ j :=
      Nat.pow_le_pow_right (by decide) (by omega)
    have hmul : 10 ^ j ≤ m * 10 ^ j := Nat.le_mul_of_pos_left _ hm
    have := two_mul_le_of_contains hcontains
    omega

/-- **On its own grid the shortest decimal is the nearest.** -/
theorem abs_sub_le_of_exponent_eq {d : Decimal} (h : d.exponent = (shortest k).exponent)
    (hnearest : IsNearest k d.size) :
    |(shortest k).size - units k| ≤ |d.size - units k| := by
  obtain ⟨n, i, heq, -, -, -, hdistance⟩ := exists_shortest_eq hk
  obtain ⟨m, e⟩ := d
  rw [heq] at h ⊢
  obtain rfl : e = (i : ℤ) - 1074 := h
  rw [size_grid] at hnearest
  have hle := hdistance m (contains_ofRank_iff.2 hnearest)
  have hgrains : (0 : ℚ) < grains := by exact_mod_cast grains_pos
  have hscale : ∀ p : ℕ, |((p : ℚ) / grains - units k)| =
      (ofRank k).distance p / grains := fun p => by
    rw [distance, Nat.cast_natAbs, Int.cast_abs, ofRank_eq, ← abs_of_pos hgrains, ← abs_div,
      abs_of_pos hgrains]
    push_cast
    rw [sub_div, mul_div_cancel_right₀ _ hgrains.ne']
  rw [size_grid, size_grid, hscale, hscale]
  exact div_le_div_of_nonneg_right (by exact_mod_cast hle) hgrains.le

/-! ## The digits of the shortest decimal -/

theorem digits_shortest_pos : 0 < (shortest k).digits := by
  refine Nat.pos_of_ne_zero fun h => ((isNearest_shortest hk).pos hk.ne').ne' ?_
  rw [size, h, Nat.cast_zero, zero_mul, zero_mul]

/-- The power of ten with as many digits as the shortest decimal. -/
def lead (k : ℕ) : Decimal :=
  ⟨1, (shortest k).exponent + ((shortest k).digitChars.length - 1 : ℕ)⟩

theorem lead_size_le : (lead k).size ≤ (shortest k).size := by
  have hdigits : (10 : ℚ) ^ ((shortest k).digitChars.length - 1) ≤ (shortest k).digits := by
    exact_mod_cast ten_pow_le_digits (digits_shortest_pos hk)
  rw [size, size, lead, zpow_add₀ (by norm_num), zpow_natCast, Nat.cast_one, one_mul, mul_comm
    ((10 : ℚ) ^ (shortest k).exponent)]
  gcongr

/-- **If a decimal rounds to the magnitude and is not above that power of ten, then the shortest
decimal has one digit.** -/
theorem length_eq_one_of_size_le {d : Decimal} (hd : IsNearest k d.size)
    (hle : d.size ≤ (lead k).size) : (shortest k).digitChars.length = 1 := by
  have hlead := hd.between (isNearest_shortest hk) hle (lead_size_le hk)
  have hpos : 0 < (shortest k).digitChars.length := Nat.length_toDigits_pos
  by_contra hne
  refine not_isNearest_of_exponent_lt hk ?_ hlead
  rw [lead]
  dsimp only
  omega

omit hk in
/-- A decimal with at most as many digits on a grid at most as coarse. -/
theorem size_le_lead {d : Decimal} {n : ℕ} (hdigits : d.digits < 10 ^ n)
    (h : d.exponent + n ≤ (lead k).exponent) : d.size ≤ (lead k).size := by
  have hdigits' : (d.digits : ℚ) ≤ 10 ^ n := by exact_mod_cast hdigits.le
  have hpow : (10 : ℚ) ^ n * 10 ^ d.exponent ≤ 10 ^ (lead k).exponent := by
    rw [← zpow_natCast, ← zpow_add₀ (by norm_num)]
    exact zpow_le_zpow_right₀ (by norm_num) (by omega)
  calc d.size = d.digits * 10 ^ d.exponent * 2 ^ 1074 := rfl
    _ ≤ 10 ^ n * 10 ^ d.exponent * 2 ^ 1074 := by gcongr
    _ ≤ 10 ^ (lead k).exponent * 2 ^ 1074 := by gcongr
    _ = (lead k).size := by rw [size, lead, Nat.cast_one, one_mul]

/-- **No decimal that rounds to the magnitude has fewer digits than the shortest.** -/
theorem length_digitChars_le {d : Decimal} {n : ℕ} (hdigits : d.digits < 10 ^ n)
    (hd : IsNearest k d.size) : (shortest k).digitChars.length ≤ n := by
  by_contra hlt
  have hgrid : d.exponent ≤ (shortest k).exponent :=
    Int.not_lt.1 fun h => not_isNearest_of_exponent_lt hk h hd
  have hle : d.size ≤ (lead k).size := size_le_lead hdigits (by rw [lead]; dsimp only; omega)
  have hone := length_eq_one_of_size_le hk hd hle
  obtain rfl : n = 0 := by omega
  refine (hd.pos hk.ne').ne' ?_
  rw [size, Nat.lt_one_iff.1 hdigits, Nat.cast_zero, zero_mul, zero_mul]

/-! ## The nearest with so many digits -/

/-- A power of ten that rounds to one of the nine smallest magnitudes is hardly larger: the only
one is `10 ^ -323`, and it rounds to the second. -/
theorem nineteen_mul_size_le (h9 : k ≤ 9) {d : Decimal} (hone : d.digits = 1)
    (he : -1074 ≤ d.exponent) (h : IsNearest k d.size) : 19 * d.size ≤ 20 * units k := by
  obtain ⟨i, hi⟩ : ∃ i : ℕ, d.exponent = (i : ℤ) - 1074 := ⟨(d.exponent + 1074).toNat, by omega⟩
  have hsize : d.size = (10 ^ i : ℕ) / grains := by
    obtain ⟨n, e⟩ := d
    obtain rfl : n = 1 := hone
    obtain rfl : e = (i : ℤ) - 1074 := hi
    rw [size_grid, Nat.one_mul]
  rw [hsize] at h ⊢
  have hgrains : (0 : ℚ) < grains := by exact_mod_cast grains_pos
  have hlow := (units_le_iff (units (k - 1) + units k) (10 ^ i)).1 (by exact_mod_cast h.low)
  have hhigh := (le_units_iff (units k + units (k + 1)) (10 ^ i)).1 (by exact_mod_cast h.high)
  rw [units_of_lt (by omega), units_of_lt (by omega)] at hlow hhigh
  have hgoal : 19 * 10 ^ i ≤ 20 * k * grains := by
    have hpos := grains_pos
    obtain ⟨hmany, hfew⟩ := grains_bounds
    have hcases : 10 ^ i ≤ 10 ^ 750 ∨ 10 ^ i = 10 * 10 ^ 750 ∨ 100 * 10 ^ 750 ≤ 10 ^ i := by
      rcases Nat.lt_trichotomy i (750 + 1) with hi | hi | hi
      · exact Or.inl (pow_le_pow_right₀ (by decide) (Nat.le_of_lt_succ hi))
      · exact Or.inr (Or.inl (by rw [hi, pow_succ']))
      · refine Or.inr (Or.inr ?_)
        calc 100 * 10 ^ 750 = 10 ^ (2 + 750) := (pow_add 10 2 750).symm
          _ ≤ 10 ^ i := Nat.pow_le_pow_right (by decide) (by omega)
    generalize grains = g at *
    generalize 10 ^ 750 = p at *
    generalize 10 ^ i = r at *
    interval_cases k <;> omega
  rw [units_of_lt (by omega), mul_div_assoc', div_le_iff₀ hgrains]
  exact_mod_cast hgoal

omit hk in
/-- A larger exponent behind the same digits makes at least ten times the size. -/
theorem ten_mul_size_le {m : ℕ} {e e' : ℤ} (h : e < e') : 10 * size ⟨m, e⟩ ≤ size ⟨m, e'⟩ := by
  have hpow : (10 : ℚ) * 10 ^ e ≤ 10 ^ e' := by
    rw [mul_comm, ← zpow_add_one₀ (by norm_num)]
    exact zpow_le_zpow_right₀ (by norm_num) (by omega)
  calc 10 * size ⟨m, e⟩ = m * (10 * 10 ^ e) * 2 ^ 1074 := by
        rw [size]
        generalize (2 : ℚ) ^ 1074 = unit
        ring
    _ ≤ m * 10 ^ e' * 2 ^ 1074 := by gcongr

omit hk in
/-- A single digit on a finer grid stops short of the power of ten. -/
theorem ten_mul_size_le_lead {d : Decimal} (hdigits : d.digits < 10)
    (h : d.exponent < (lead k).exponent) : 10 * d.size ≤ 9 * (lead k).size := by
  have hnine : (d.digits : ℚ) ≤ 9 := by exact_mod_cast Nat.le_of_lt_succ hdigits
  calc 10 * d.size ≤ d.digits * 10 ^ (lead k).exponent * 2 ^ 1074 := ten_mul_size_le h
    _ ≤ 9 * 10 ^ (lead k).exponent * 2 ^ 1074 := by gcongr
    _ = 9 * (lead k).size := by rw [size, lead, Nat.cast_one, one_mul, mul_assoc]

/-- The power of ten is at least as near as a single digit on a finer grid. -/
theorem abs_sub_lead_le {d : Decimal} (hdigits : d.digits < 10) (hd : IsNearest k d.size)
    (h : d.exponent < (lead k).exponent) : |(lead k).size - units k| ≤ |d.size - units k| := by
  have htenth := ten_mul_size_le_lead hdigits h
  have hpos := hd.pos hk.ne'
  have hlead := hd.between (isNearest_shortest hk) (by linarith) (lead_size_le hk)
  have hbound : -1074 ≤ (lead k).exponent := by
    obtain ⟨n, i, heq, -⟩ := exists_shortest_eq hk
    rw [lead, heq]
    dsimp only
    omega
  rcases le_or_gt (lead k).size (units k) with hbelow | habove
  · rw [abs_of_nonpos (by linarith), abs_of_nonpos (by linarith)]
    linarith
  · have hsmall := nineteen_mul_size_le hk (hd.le_nine hlead htenth) rfl hbound hlead
    rw [abs_of_nonneg (by linarith), abs_of_nonpos (by linarith)]
    linarith

/-- **Of the decimals with as many digits, the shortest is the nearest.** -/
theorem abs_sub_le_of_digits_lt {d : Decimal}
    (hdigits : d.digits < 10 ^ (shortest k).digitChars.length) (hd : IsNearest k d.size) :
    |(shortest k).size - units k| ≤ |d.size - units k| := by
  rcases Int.lt_trichotomy d.exponent (shortest k).exponent with hlt | heq | hgt
  · have hle : d.size ≤ (lead k).size := size_le_lead hdigits (by rw [lead]; dsimp only; omega)
    have hlead := hd.between (isNearest_shortest hk) hle (lead_size_le hk)
    have hone := length_eq_one_of_size_le hk hd hle
    have hexponent : (lead k).exponent = (shortest k).exponent := by
      rw [lead, hone]
      exact add_zero _
    rw [hone, pow_one] at hdigits
    exact (abs_sub_le_of_exponent_eq hk hexponent hlead).trans
      (abs_sub_lead_le hk hdigits hd (by omega))
  · exact abs_sub_le_of_exponent_eq hk heq hd
  · exact absurd hd (not_isNearest_of_exponent_lt hk hgt)

end Decimal

end ReversePolish
