import ReversePolish.Number.Rounding

/-!
# Decimals and the magnitudes they round to

A decimal is a whole number of a power of ten.  It names a rational exactly; the
magnitude it stands for is the nearest one, ties to even.

The exponent may be astronomically large in either direction, and the exact
quotient would then have as many digits.  Two bounds answer such decimals
without forming the quotient: from `10 ^ 311` on everything rounds to infinity,
and below `10 ^ -325` everything rounds to zero.
-/

namespace ReversePolish

-- powers are those of the core library, whatever is imported
attribute [local instance (2000)] instPowNat

/-- The number `digits * 10 ^ exponent`. -/
structure Decimal where
  digits : Nat
  exponent : Int
deriving DecidableEq, Repr

namespace Decimal

/-- A count of `2 ^ -1074`, as a fraction: the exact size of a decimal. -/
def fraction (d : Decimal) : Nat × Nat :=
  (d.digits * 10 ^ d.exponent.toNat * 2 ^ (1074 : Nat), 10 ^ (-d.exponent).toNat)

/-- The rank of the magnitude nearest to a decimal. -/
def rank (d : Decimal) : Nat :=
  if d.digits = 0 then 0
  else if 310 < d.exponent then Magnitude.infinity
  else if d.exponent + d.digits.log2 + 325 < 0 then 0
  else Magnitude.nearest d.fraction.1 d.fraction.2

/-- No decimal is beyond infinity. -/
theorem rank_le_infinity (d : Decimal) : d.rank ≤ Magnitude.infinity := by
  unfold rank
  split
  · exact Nat.zero_le _
  · split
    · exact Nat.le_refl _
    · split
      · exact Nat.zero_le _
      · exact Nat.min_le_left _ _

end Decimal

end ReversePolish
