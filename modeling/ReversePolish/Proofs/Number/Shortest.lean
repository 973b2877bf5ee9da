import ReversePolish.Number.Spelling
import ReversePolish.Proofs.Number.Nearest

/-!
# The shortest decimal rounds back

A basin has no gaps, so a grid has a point in it only if a neighbour of the centre
is one, and the search misses nothing (`Basin.exists_coarsest_eq`).  Whatever grid it
stops at, the point that it takes lies in the basin of the magnitude, and lying in the
basin is being nearest (`Basin.contains_ofRank_iff`).  So the decimal rounds to the
magnitude that it was made for (`Decimal.rank_shortest`).

The bounds at the end say that the decimal has moderate numbers in it: some
thousands of digits and an exponent of that order at most.  They keep its
spelling within the reach of the reader of exponents.
-/

namespace ReversePolish

open Magnitude

namespace Basin

/-- The number of grains in a unit: `2 ^ -1074` is that many times `10 ^ -1074`. -/
def grains : ℕ := 5 ^ 1074

theorem grains_pos : 0 < grains := by
  rw [grains]
  positivity

theorem ofRank_eq (k : ℕ) : ofRank k = ⟨units k * grains, (units (k - 1) + units k) * grains,
    (units k + units (k + 1)) * grains, k % 2 == 0⟩ := by
  simp only [ofRank, grains]

/-- A number of units is at most twice a number of grains. -/
theorem units_le_iff (m n : ℕ) : (m : ℚ) ≤ 2 * (n / grains) ↔ m * grains ≤ 2 * n := by
  rw [mul_div_assoc', le_div_iff₀ (by exact_mod_cast grains_pos)]
  exact_mod_cast Iff.rfl

/-- Twice a number of grains is at most a number of units. -/
theorem le_units_iff (m n : ℕ) : 2 * (n / grains : ℚ) ≤ m ↔ 2 * n ≤ m * grains := by
  rw [mul_div_assoc', div_le_iff₀ (by exact_mod_cast grains_pos)]
  exact_mod_cast Iff.rfl

/-- **To lie in a basin is to be nearest to its magnitude.** -/
theorem contains_ofRank_iff {k n : ℕ} :
    (ofRank k).contains n ↔ IsNearest k (n / grains) := by
  have hlow := units_le_iff (units (k - 1) + units k) n
  have hlow' := le_units_iff (units (k - 1) + units k) n
  have hhigh := le_units_iff (units k + units (k + 1)) n
  have hhigh' := units_le_iff (units k + units (k + 1)) n
  push_cast at hlow hlow' hhigh hhigh'
  rw [isNearest_iff, ← not_le, ← not_le, hlow, hlow', hhigh, hhigh']
  rw [ofRank_eq, contains]
  dsimp only
  by_cases hk : k % 2 = 0
  · simp [hk]
  · simp [hk]

/-- A magnitude lies in its own basin. -/
theorem contains_centre {k : ℕ} (hk : 0 < k) : (ofRank k).contains (ofRank k).centre := by
  have hbelow : units (k - 1) < units k := units_lt_units (Nat.sub_lt hk Nat.one_pos)
  have hprev := Nat.mul_lt_mul_of_pos_right hbelow grains_pos
  have hnext := Nat.mul_lt_mul_of_pos_right (units_lt_units_succ k) grains_pos
  have hlow := Nat.add_mul (units (k - 1)) (units k) grains
  have hhigh := Nat.add_mul (units k) (units (k + 1)) grains
  rw [ofRank_eq, contains]
  dsimp only
  split <;> rw [decide_eq_true_eq] <;> constructor <;> omega

theorem two_mul_le_of_contains {b : Basin} {n : ℕ} (h : b.contains n) :
    2 * n ≤ b.highDoubled := by
  unfold contains at h
  split at h <;> have := of_decide_eq_true h <;> omega

/-- A basin has no gaps. -/
theorem contains_between {b : Basin} {low n high : ℕ} (hlow : b.contains low)
    (hhigh : b.contains high) (hn : low ≤ n) (hn' : n ≤ high) : b.contains n := by
  unfold contains at hlow hhigh ⊢
  split at hlow
  · rename_i hclosed
    rw [if_pos hclosed, decide_eq_true_eq] at hhigh ⊢
    have := of_decide_eq_true hlow
    omega
  · rename_i hopen
    rw [if_neg hopen, decide_eq_true_eq] at hhigh ⊢
    have := of_decide_eq_true hlow
    omega

/-- How far a number of grains is from the centre. -/
def distance (b : Basin) (n : ℕ) : ℕ := ((n : ℤ) - b.centre).natAbs

/-- The centre lies between its neighbours on a grid. -/
theorem neighbours (b : Basin) (j : ℕ) : b.centre / 10 ^ j * 10 ^ j ≤ b.centre ∧
    b.centre < (b.centre / 10 ^ j + 1) * 10 ^ j := by
  refine ⟨Nat.div_mul_le_self _ _, ?_⟩
  rw [Nat.mul_comm]
  exact Nat.lt_mul_div_succ _ (Nat.pow_pos (by decide))

/-- A grid has a point in the basin only if a neighbour of the centre is one, and then the
neighbour on that side is no further away. -/
theorem contains_neighbour {b : Basin} (hb : b.contains b.centre) {j m : ℕ}
    (h : b.contains (m * 10 ^ j)) :
    (b.contains (b.centre / 10 ^ j * 10 ^ j) ∧
      b.distance (b.centre / 10 ^ j * 10 ^ j) ≤ b.distance (m * 10 ^ j)) ∨
    (b.contains ((b.centre / 10 ^ j + 1) * 10 ^ j) ∧
      b.distance ((b.centre / 10 ^ j + 1) * 10 ^ j) ≤ b.distance (m * 10 ^ j)) := by
  obtain ⟨hbelow, habove⟩ := b.neighbours j
  unfold distance
  rcases Nat.lt_or_ge (b.centre / 10 ^ j) m with hm | hm
  · have hle : (b.centre / 10 ^ j + 1) * 10 ^ j ≤ m * 10 ^ j := Nat.mul_le_mul_right _ hm
    exact Or.inr ⟨contains_between hb h habove.le hle, by omega⟩
  · have hle := Nat.mul_le_mul_right (10 ^ j) hm
    exact Or.inl ⟨contains_between h hb hle hbelow, by omega⟩

/-- A point that is taken from a grid lies in the basin. -/
theorem contains_of_onGrid? {b : Basin} {j n : ℕ} (h : b.onGrid? j = some n) :
    b.contains (n * 10 ^ j) := by
  unfold onGrid? at h
  dsimp only at h
  split at h
  · rename_i hbelow
    split at h
    · rename_i habove
      obtain rfl := Option.some.inj h
      exact (Bool.and_eq_true_iff.1 habove).1
    · obtain rfl := Option.some.inj h
      exact hbelow
  · split at h
    · rename_i habove
      obtain rfl := Option.some.inj h
      exact habove
    · cases h

/-- **No point of the grid in the basin is nearer than the one that is taken.** -/
theorem distance_le_of_onGrid? {b : Basin} (hb : b.contains b.centre) {j n m : ℕ}
    (h : b.onGrid? j = some n) (hm : b.contains (m * 10 ^ j)) :
    b.distance (n * 10 ^ j) ≤ b.distance (m * 10 ^ j) := by
  obtain ⟨hbelow, habove⟩ := b.neighbours j
  have hneighbour := contains_neighbour hb hm
  unfold onGrid? at h
  dsimp only at h
  unfold distance at hneighbour ⊢
  split at h
  · split at h
    · rename_i hnearer
      have hle := of_decide_eq_true (Bool.and_eq_true_iff.1 hnearer).2
      obtain rfl := Option.some.inj h
      rcases hneighbour with ⟨-, hle'⟩ | ⟨-, hle'⟩ <;> omega
    · rename_i hnearer
      rw [Bool.and_eq_true, decide_eq_true_eq, not_and] at hnearer
      obtain rfl := Option.some.inj h
      rcases hneighbour with ⟨-, hle'⟩ | ⟨hin, hle'⟩
      · exact hle'
      · have hlt := hnearer hin
        omega
  · rename_i hout
    split at h
    · obtain rfl := Option.some.inj h
      rcases hneighbour with ⟨hin, -⟩ | ⟨-, hle'⟩
      · exact absurd hin hout
      · exact hle'
    · cases h

/-- A grid on which nothing is taken has no point in the basin. -/
theorem not_contains_of_onGrid? {b : Basin} (hb : b.contains b.centre) {j : ℕ}
    (h : b.onGrid? j = none) (m : ℕ) : ¬ b.contains (m * 10 ^ j) := by
  intro hm
  unfold onGrid? at h
  dsimp only at h
  split at h
  · split at h <;> cases h
  · rename_i hbelow
    split at h
    · cases h
    · rename_i habove
      rcases contains_neighbour hb hm with ⟨hin, -⟩ | ⟨hin, -⟩
      · exact hbelow hin
      · exact habove hin

/-- The point `n * 10 ^ i` lies in the basin, none on a coarser grid up to `10 ^ bound` does, and
none on its own grid is nearer to the centre. -/
structure IsCoarsest (b : Basin) (bound n i : ℕ) : Prop where
  le_bound : i ≤ bound
  contains : b.contains (n * 10 ^ i)
  not_contains : ∀ j m, i < j → j ≤ bound → ¬ b.contains (m * 10 ^ j)
  distance_le : ∀ m, b.contains (m * 10 ^ i) → b.distance (n * 10 ^ i) ≤ b.distance (m * 10 ^ i)

/-- **The search finds the coarsest point.** -/
theorem exists_coarsest_eq {b : Basin} (hb : b.contains b.centre) (bound : ℕ) :
    ∃ n i : ℕ, b.coarsest bound = ⟨n, (i : ℤ) - 1074⟩ ∧ b.IsCoarsest bound n i := by
  induction bound with
  | zero =>
    refine ⟨b.centre, 0, rfl, Nat.le_refl 0, ?_, fun j m hj hj' => by omega, fun m _ => ?_⟩
    · rwa [Nat.pow_zero, Nat.mul_one]
    · simp [distance]
  | succ bound ih =>
    unfold coarsest
    split
    · rename_i n hn
      exact ⟨n, bound + 1, rfl, Nat.le_refl _, contains_of_onGrid? hn,
        fun j m hj hj' => by omega, fun m hm => distance_le_of_onGrid? hb hn hm⟩
    · rename_i hnone
      obtain ⟨n, i, heq, hi, hn, hcoarser, hnearest⟩ := ih
      refine ⟨n, i, heq, Nat.le_succ_of_le hi, hn, fun j m hj hj' => ?_, hnearest⟩
      rcases Nat.eq_or_lt_of_le hj' with rfl | hlt
      · exact not_contains_of_onGrid? hb hnone m
      · exact hcoarser j m hj (Nat.le_of_lt_succ hlt)

end Basin

namespace Decimal

open Basin

/-- A point of the grid `10 ^ i`, counted in grains, has this size. -/
theorem size_grid (n i : ℕ) : size ⟨n, (i : ℤ) - 1074⟩ = ((n * 10 ^ i : ℕ) : ℚ) / grains := by
  have hten : (10 : ℚ) ^ 1074 = 2 ^ 1074 * 5 ^ 1074 := by
    rw [← mul_pow]
    norm_num
  have hfive : (grains : ℚ) = 5 ^ 1074 := by rw [grains, Nat.cast_pow, Nat.cast_ofNat]
  rw [size, zpow_sub₀ (by norm_num), zpow_natCast, show (1074 : ℤ) = (1074 : ℕ) from rfl,
    zpow_natCast, hten, hfive]
  have h2 : (2 : ℚ) ^ 1074 ≠ 0 := by positivity
  have h5 : (5 : ℚ) ^ 1074 ≠ 0 := by positivity
  push_cast
  generalize (2 : ℚ) ^ 1074 = two at h2 ⊢
  generalize (5 : ℚ) ^ 1074 = five at h5 ⊢
  field_simp

/-- The shortest decimal is the coarsest point of the basin. -/
theorem exists_shortest_eq {k : ℕ} (h0 : 0 < k) :
    ∃ n i : ℕ, shortest k = ⟨n, (i : ℤ) - 1074⟩ ∧
      (ofRank k).IsCoarsest (placesBound (ofRank k).highDoubled) n i :=
  exists_coarsest_eq (contains_centre h0) _

/-- The magnitude is nearest to its shortest decimal. -/
theorem isNearest_shortest {k : ℕ} (h0 : 0 < k) : IsNearest k (shortest k).size := by
  obtain ⟨n, i, heq, hcoarsest⟩ := exists_shortest_eq h0
  rw [heq, size_grid]
  exact contains_ofRank_iff.1 hcoarsest.contains

/-- **The shortest decimal rounds back.** -/
theorem rank_shortest {k : ℕ} (h0 : 0 < k) (hk : k < infinity) : (shortest k).rank = k :=
  rank_eq_of_isNearest hk (isNearest_shortest h0)

/-! ## The numbers in it are moderate -/

/-- No basin of a finite magnitude reaches beyond this. -/
theorem highDoubled_lt {k : ℕ} (hk : k < infinity) : (ofRank k).highDoubled < 2 ^ 5321 := by
  have h₁ : units k < units infinity := units_lt_units hk
  have h₂ : units (k + 1) ≤ units infinity := units_le_units hk
  have hgrains : grains ≤ 2 ^ (3 * 1074) := by
    calc grains = 5 ^ 1074 := by rw [grains]
      _ ≤ (2 ^ 3) ^ 1074 := by gcongr; norm_num
      _ = 2 ^ (3 * 1074) := (Nat.pow_mul 2 3 1074).symm
  calc (ofRank k).highDoubled = (units k + units (k + 1)) * grains := by rw [ofRank_eq]
    _ < (units infinity + units infinity) * grains :=
      Nat.mul_lt_mul_of_pos_right (by omega) grains_pos
    _ ≤ (units infinity + units infinity) * 2 ^ (3 * 1074) := Nat.mul_le_mul_left _ hgrains
    _ = 2 ^ 5321 := by
      rw [units_infinity, ← Nat.mul_two, ← Nat.pow_succ, ← Nat.pow_add]

theorem exponent_shortest_bounds {k : ℕ} (h0 : 0 < k) (hk : k < infinity) :
    -1074 ≤ (shortest k).exponent ∧ (shortest k).exponent ≤ 1074 := by
  obtain ⟨n, i, heq, hi, -⟩ := exists_shortest_eq h0
  have hlog : (ofRank k).highDoubled.log2 < 5321 := by
    rcases Nat.eq_zero_or_pos (ofRank k).highDoubled with h | h
    · rw [h, Nat.log2_zero]
      norm_num
    · rw [Nat.log2_lt h.ne']
      exact highDoubled_lt hk
  unfold placesBound at hi
  rw [heq]
  dsimp only
  omega

theorem length_digitChars_shortest {k : ℕ} (h0 : 0 < k) (hk : k < infinity) :
    (shortest k).digitChars.length ≤ 5321 := by
  obtain ⟨n, i, heq, hcoarsest⟩ := exists_shortest_eq h0
  have hle := two_mul_le_of_contains hcoarsest.contains
  have hpow : n ≤ n * 10 ^ i := Nat.le_mul_of_pos_right n (Nat.pow_pos (by norm_num))
  rw [heq, digitChars, Nat.length_toDigits_le_iff (by norm_num) (by norm_num)]
  calc n ≤ (ofRank k).highDoubled := by omega
    _ < 2 ^ 5321 := highDoubled_lt hk
    _ ≤ 10 ^ 5321 := by gcongr; norm_num

end Decimal

end ReversePolish
