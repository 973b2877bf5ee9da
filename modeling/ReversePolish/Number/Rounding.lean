import ReversePolish.Number.Magnitude

/-!
# Rounding a quotient to the nearest magnitude

A positive rational, counted in units of `2 ^ -1074`, has a nearest rank; of two
equally near the even one is taken, and what lies beyond the last midpoint goes
to infinity.

One formula serves subnormal values, binades and the passage from one binade to
the next.  With `s` the exponent of the binade (zero for subnormals), divide by
`2 ^ s`, round to a whole number `r`, and answer `r + s * 2 ^ 52`: inside the
binade `r` is the fraction behind its leading one, which is the reason why `s`
and not `s + 1` multiplies `2 ^ 52`, and when rounding reaches `2 ^ 53` the sum
is the first rank of the next binade.
-/

namespace ReversePolish.Magnitude

-- powers are those of the core library, whatever is imported
attribute [local instance (2000)] instPowNat

/-- The whole number nearest to `num / den`, an exact half going to the even
neighbour. -/
def roundHalfEven (num den : Nat) : Nat :=
  let low := num / den
  let rest := 2 * (num % den)
  if rest < den then low
  else if rest = den ∧ low % 2 = 0 then low
  else low + 1

/-- The rank of the magnitude nearest to `num / den` units. -/
def nearest (num den : Nat) : Nat :=
  let shift := (num / den).log2 - 52
  min infinity (roundHalfEven num (den * 2 ^ shift) + shift * 2 ^ (52 : Nat))

/-- Whole numbers are their own rounding. -/
@[simp] theorem roundHalfEven_one (n : Nat) : roundHalfEven n 1 = n := by
  simp [roundHalfEven, Nat.mod_one]

/-- The rounded number is within half a unit of the quotient. -/
theorem roundHalfEven_near (num : Nat) {den : Nat} (h : 0 < den) :
    2 * num ≤ (2 * roundHalfEven num den + 1) * den ∧
      2 * (roundHalfEven num den * den) ≤ 2 * num + den := by
  have hmod := Nat.mod_lt num h
  have hdiv := Nat.div_add_mod num den
  have hcomm : den * (num / den) = num / den * den := Nat.mul_comm _ _
  have hexp : ∀ q : Nat, (2 * q + 1) * den = 2 * (q * den) + den := fun q => by
    rw [Nat.add_mul, Nat.one_mul, Nat.mul_assoc]
  have hsucc : (num / den + 1) * den = num / den * den + den := Nat.succ_mul _ _
  unfold roundHalfEven
  dsimp only
  split
  · rw [hexp]; omega
  · split
    · rw [hexp]; omega
    · rw [hexp]; omega

end ReversePolish.Magnitude
