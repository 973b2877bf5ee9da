/-!
# Ranks of magnitudes

The non-negative values of binary64, listed in increasing order from zero to
infinity, are exactly the bit patterns with a clear sign bit read as numbers.
The *rank* of a magnitude is its place in that list.  Every question about
rounding is asked of ranks: neighbours differ by one, "even" is a parity, and
comparing values is comparing ranks.

The one fact that a rank hides is the size of the value.  It is recovered by
`units`: every finite magnitude is a whole number of `2 ^ -1074`, the smallest
positive value, and `units k` is that whole number.  Infinity gets the number
that the list would hold next if exponents went on, so the midpoint between the
last finite value and infinity is where rounding overflows.
-/

namespace ReversePolish.Magnitude

-- powers are those of the core library, whatever is imported
attribute [local instance (2000)] instPowNat

/-- The rank of infinity.  Smaller ranks are finite, larger ones are not
numbers. -/
def infinity : Nat := 2047 * 2 ^ (52 : Nat)

/-- The rank of the quiet not-a-number. -/
def quietNaN : Nat := 4095 * 2 ^ (51 : Nat)

/-- How many times `2 ^ -1074` the magnitude of rank `k` is.  Below `2 ^ 52` the
values are subnormal and count up by one; above, the low 52 bits are a fraction
behind a leading one and the rest is an exponent. -/
def units (k : Nat) : Nat :=
  if k < 2 ^ (52 : Nat) then k
  else (2 ^ (52 : Nat) + k % 2 ^ (52 : Nat)) * 2 ^ (k / 2 ^ (52 : Nat) - 1)

theorem units_of_lt {k : Nat} (h : k < 2 ^ (52 : Nat)) : units k = k := if_pos h

@[simp] theorem units_zero : units 0 = 0 := rfl

/-- Inside a binade the step between neighbours is a fixed power of two. -/
theorem units_binade {e f : Nat} (hf : f < 2 ^ (52 : Nat)) :
    units ((e + 1) * 2 ^ (52 : Nat) + f) = (2 ^ (52 : Nat) + f) * 2 ^ e := by
  have h : ¬ (e + 1) * 2 ^ 52 + f < 2 ^ 52 := by omega
  have hd : ((e + 1) * 2 ^ 52 + f) / 2 ^ 52 = e + 1 := by omega
  have hm : ((e + 1) * 2 ^ 52 + f) % 2 ^ 52 = f := by omega
  rw [units, if_neg h, hd, hm, Nat.add_sub_cancel]

/-- Values grow with their ranks. -/
theorem units_lt_units_succ (k : Nat) : units k < units (k + 1) := by
  by_cases h : k < 2 ^ 52
  · by_cases h' : k + 1 < 2 ^ 52
    · rw [units_of_lt h, units_of_lt h']; omega
    · obtain rfl : k = 2 ^ 52 - 1 := by omega
      decide
  · obtain ⟨e, f, hf, rfl⟩ : ∃ e f, f < 2 ^ 52 ∧ k = (e + 1) * 2 ^ 52 + f :=
      ⟨k / 2 ^ 52 - 1, k % 2 ^ 52, Nat.mod_lt _ (by omega), by omega⟩
    rw [units_binade hf]
    by_cases hf' : f + 1 < 2 ^ 52
    · rw [Nat.add_assoc, units_binade hf']
      exact Nat.mul_lt_mul_of_pos_right (by omega) (Nat.two_pow_pos e)
    · have hk : (e + 1) * 2 ^ 52 + f + 1 = (e + 1 + 1) * 2 ^ 52 + 0 := by omega
      rw [hk, units_binade (Nat.two_pow_pos 52), Nat.pow_succ]
      have := Nat.two_pow_pos e
      have hlt : (2 ^ 52 + f) * 2 ^ e < (2 ^ 52 * 2) * 2 ^ e :=
        Nat.mul_lt_mul_of_pos_right (by omega) this
      calc (2 ^ 52 + f) * 2 ^ e < (2 ^ 52 * 2) * 2 ^ e := hlt
        _ = (2 ^ 52 + 0) * (2 ^ e * 2) := by
          rw [Nat.add_zero, Nat.mul_assoc, Nat.mul_comm 2]

theorem units_lt_units {j k : Nat} (h : j < k) : units j < units k := by
  induction k with
  | zero => omega
  | succ k ih =>
    rcases Nat.lt_or_ge j k with hk | hk
    · exact Nat.lt_trans (ih hk) (units_lt_units_succ k)
    · obtain rfl : j = k := by omega
      exact units_lt_units_succ j

end ReversePolish.Magnitude
