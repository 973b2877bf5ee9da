import Mathlib
import ReversePolish.Number.Double

/-!
# Patterns and the values of the format

A pattern of bits goes to the format and comes back.  Up to infinity nothing happens to it on the
way, and every pattern beyond infinity comes back as one, the quiet not-a-number
(`Double.ofFloat_toFloat`).  So the numbers of the format are the values up to their
not-a-number: two values are one number there exactly when their canonical forms are equal
(`Double.toFloat_eq_toFloat_iff`).
-/

namespace ReversePolish

open Float.Model Float.Model.UnpackedFloat

namespace Magnitude

theorem toNat_unpackExponent (bits : UInt64) :
    (@unpackExponent Format.binary64 bits.toBitVec).toNat = bits.toNat / 2 ^ 52 % 2 ^ 11 := by
  simp [unpackExponent, Nat.shiftRight_eq_div_pow]

theorem toNat_unpackMantissa (bits : UInt64) :
    (@unpackMantissa Format.binary64 bits.toBitVec).toNat = bits.toNat % 2 ^ 52 := by
  simp [unpackMantissa]

/-- All bits of the exponent are set from infinity on. -/
theorem unpackExponent_eq_ones_iff (bits : UInt64) :
    @unpackExponent Format.binary64 bits.toBitVec = -1#_ ↔ infinity ≤ bits.toNat % 2 ^ 63 := by
  rw [← BitVec.toNat_inj, toNat_unpackExponent, infinity]
  show _ = 2047 ↔ _
  omega

theorem unpackMantissa_eq_zero_iff (bits : UInt64) :
    @unpackMantissa Format.binary64 bits.toBitVec = 0#_ ↔ bits.toNat % 2 ^ 52 = 0 := by
  rw [← BitVec.toNat_inj, toNat_unpackMantissa]
  rfl

/-- The patterns beyond infinity are those with all bits of the exponent set and a
fraction that is not zero. -/
theorem isNaNBits_iff_infinity_lt (bits : UInt64) :
    @isNaNBits Format.binary64 bits.toBitVec = true ↔ infinity < bits.toNat % 2 ^ 63 := by
  rw [isNaNBits, decide_eq_true_iff, Ne, unpackExponent_eq_ones_iff, unpackMantissa_eq_zero_iff,
    infinity]
  omega

/-- The pattern of the quiet not-a-number is the one that the format keeps. -/
theorem toBitVec_bits_quietNaN :
    Double.quietNaN.bits.toBitVec = packedNaN Format.binary64 := by decide

end Magnitude

/-! ## There and back -/

namespace Double

open Magnitude

/-- **The format keeps the number that a value is, and one not-a-number.** -/
theorem ofFloat_toFloat (x : Double) : ofFloat x.toFloat = x.canonical := by
  have hbits : (Float.ofBits x.bits).toBits.toBitVec =
      if @isNaNBits Format.binary64 x.bits.toBitVec then packedNaN Format.binary64
      else x.bits.toBitVec :=
    @pack_unpack Format.binary64 x.bits.toBitVec (by decide)
  have hnan : @isNaNBits Format.binary64 x.bits.toBitVec = x.isNaN := by
    rw [Bool.eq_iff_iff, isNaNBits_iff_infinity_lt, isNaN, decide_eq_true_iff, rank]
  rw [hnan, ← toBitVec_bits_quietNaN, ← apply_ite UInt64.toBitVec, UInt64.toBitVec_inj,
    ← apply_ite Double.bits] at hbits
  rw [ofFloat, toFloat, hbits, canonical]

theorem toFloat_ofFloat (x : Float) : (ofFloat x).toFloat = x := Float.ofBits_toBits x

/-- **Two values are one number exactly when they are the same but for not-a-numbers.** -/
theorem toFloat_eq_toFloat_iff {x y : Double} :
    x.toFloat = y.toFloat ↔ x.canonical = y.canonical := by
  rw [← ofFloat_toFloat, ← ofFloat_toFloat]
  refine ⟨congrArg ofFloat, fun h => ?_⟩
  rw [← toFloat_ofFloat x.toFloat, h, toFloat_ofFloat]

end Double

end ReversePolish
