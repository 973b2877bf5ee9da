import ReversePolish.Number.Magnitude

/-!
# Values as patterns

A value of binary64 is a pattern of 64 bits: a sign bit in front of a rank.  Up to infinity every
rank is a magnitude, and a pattern is the same thing as the number that it stands for.  All ranks
beyond infinity are not a number, so there are some `2 ^ 53` patterns that are not a number, and
programs can hold each of them.

The type `Float` of Lean has one not-a-number only.  A value is kept here as its pattern, and
`Float` supplies the arithmetic: `toFloat` forgets which not-a-number a value is, and `ofFloat`
puts the quiet one in its place.  `canonical` does the same to a pattern directly.

The standard of the arithmetic does not say which not-a-number an operation has for its result
when the result is none of the numbers, and processors differ.  This choice is a parameter of
everything that computes, a `NaNRule`.  Whatever is said about evaluation without a particular rule
holds for every choice.
-/

namespace ReversePolish

-- powers are those of the core library, whatever is imported
attribute [local instance (2000)] instPowNat

/-- A value of binary64, as its pattern of bits. -/
structure Double where
  bits : UInt64
deriving DecidableEq, Repr

namespace Double

/-- The rank of a value, its sign left aside. -/
def rank (x : Double) : Nat := x.bits.toNat % 2 ^ (63 : Nat)

/-- Whether the sign bit is set. -/
def isNegative (x : Double) : Bool := decide (2 ^ (63 : Nat) ≤ x.bits.toNat)

/-- The value with a given sign and rank. -/
def ofRank (negative : Bool) (k : Nat) : Double :=
  ⟨UInt64.ofNat (if negative then 2 ^ (63 : Nat) + k else k)⟩

/-- Whether a value is not a number, of whatever pattern. -/
def isNaN (x : Double) : Bool := decide (Magnitude.infinity < x.rank)

/-- The not-a-number that is read from its name. -/
def quietNaN : Double := ofRank false Magnitude.quietNaN

/-- The value, with one not-a-number in the place of all. -/
def canonical (x : Double) : Double := if x.isNaN then quietNaN else x

/-- The value without its sign. -/
def abs (x : Double) : Double := ofRank false x.rank

/-- The number that a value is. -/
def toFloat (x : Double) : Float := Float.ofBits x.bits

/-- The value that a number is. -/
def ofFloat (x : Float) : Double := ⟨x.toBits⟩

instance (n : Nat) : OfNat Double n := ⟨ofFloat (OfNat.ofNat n)⟩

instance : OfScientific Double :=
  ⟨fun mantissa negative exponent => ofFloat (OfScientific.ofScientific mantissa negative exponent)⟩

/-- Whether two values compare equal as numbers: zero equals minus zero, and nothing equals a
not-a-number. -/
def equals (x y : Double) : Bool := x.toFloat == y.toFloat

/-! ## Sign and rank -/

theorem rank_lt (x : Double) : x.rank < 2 ^ (63 : Nat) := Nat.mod_lt _ (by decide)

theorem toNat_bits_ofRank (negative : Bool) {k : Nat} (hk : k < 2 ^ (63 : Nat)) :
    (ofRank negative k).bits.toNat = if negative then 2 ^ (63 : Nat) + k else k := by
  refine UInt64.toNat_ofNat_of_lt' ?_
  show _ < 2 ^ 64
  split <;> omega

@[simp] theorem rank_ofRank (negative : Bool) {k : Nat} (hk : k < 2 ^ (63 : Nat)) :
    (ofRank negative k).rank = k := by
  rw [rank, toNat_bits_ofRank negative hk]
  split <;> omega

@[simp] theorem isNegative_ofRank (negative : Bool) {k : Nat} (hk : k < 2 ^ (63 : Nat)) :
    (ofRank negative k).isNegative = negative := by
  rw [isNegative, toNat_bits_ofRank negative hk]
  cases negative with
  | false => exact decide_eq_false (by simp; omega)
  | true => exact decide_eq_true (by simp)

/-- **A value is made from its sign and its rank.** -/
theorem ofRank_isNegative_rank (x : Double) : ofRank x.isNegative x.rank = x := by
  have hlt : x.bits.toNat < 2 ^ (64 : Nat) := x.bits.toNat_lt
  have hbits : (if x.isNegative then 2 ^ (63 : Nat) + x.rank else x.rank) = x.bits.toNat := by
    simp only [isNegative, rank, decide_eq_true_eq]
    split <;> omega
  rw [ofRank, hbits, UInt64.ofNat_toNat]

/-! ## The one not-a-number -/

theorem canonical_of_isNaN {x : Double} (h : x.isNaN = true) : x.canonical = quietNaN := if_pos h

theorem canonical_of_not_isNaN {x : Double} (h : x.isNaN = false) : x.canonical = x :=
  if_neg (by rw [h]; decide)

@[simp] theorem isNaN_canonical (x : Double) : x.canonical.isNaN = x.isNaN := by
  cases h : x.isNaN with
  | false => rw [canonical_of_not_isNaN h, h]
  | true => rw [canonical_of_isNaN h]; rfl

@[simp] theorem canonical_canonical (x : Double) : x.canonical.canonical = x.canonical := by
  cases h : x.isNaN with
  | false => rw [canonical_of_not_isNaN h, canonical_of_not_isNaN h]
  | true => rw [canonical_of_isNaN h]; rfl

/-- Nothing else of a value is lost. -/
theorem canonical_eq_canonical_iff {x y : Double} :
    x.canonical = y.canonical ↔ x = y ∨ (x.isNaN = true ∧ y.isNaN = true) := by
  constructor
  · intro h
    have hnan : x.isNaN = y.isNaN := by rw [← isNaN_canonical x, h, isNaN_canonical]
    cases hy : y.isNaN with
    | false => exact .inl (by rwa [canonical_of_not_isNaN (hnan.trans hy),
        canonical_of_not_isNaN hy] at h)
    | true => exact .inr ⟨hnan.trans hy, rfl⟩
  · rintro (rfl | ⟨hx, hy⟩)
    · rfl
    · rw [canonical_of_isNaN hx, canonical_of_isNaN hy]

end Double

/-! ## The choice of a not-a-number -/

/-- Which not-a-number an operation has for its result, where it has no number.  The choice may
depend on the operation, by its name, and on the operands. -/
class NaNRule where
  /-- The choice for an operation at given operands. -/
  nan : String → List Double → { x : Double // x.isNaN = true }

namespace Double

/-- The value of an operation whose result is computed, the not-a-number chosen by the rule. -/
def result [NaNRule] (operation : String) (operands : List Double) (z : Float) : Double :=
  if z.isNaN then (NaNRule.nan operation operands).1 else ofFloat z

/-- The choice of a not-a-number changes no number, whichever rule makes it. -/
theorem canonical_result_eq {r r' : NaNRule} (operation : String) (xs ys : List Double)
    (z : Float) : (@result r operation xs z).canonical = (@result r' operation ys z).canonical := by
  unfold result
  split
  · exact canonical_eq_canonical_iff.2 (.inr ⟨(r.nan operation xs).2, (r'.nan operation ys).2⟩)
  · rfl

/-- A not-a-number with the first bit of its fraction set, its other bits as they are. -/
def quiet (x : Double) : Double :=
  if x.rank < Magnitude.quietNaN then ofRank x.isNegative (x.rank + 2 ^ (51 : Nat)) else x

theorem isNaN_quiet {x : Double} (h : x.isNaN = true) : x.quiet.isNaN = true := by
  have hrank : Magnitude.infinity < x.rank := of_decide_eq_true h
  unfold quiet
  split
  · rename_i hlow
    have hlt : x.rank + 2 ^ (51 : Nat) < 2 ^ (63 : Nat) := by
      unfold Magnitude.quietNaN at hlow
      omega
    rw [isNaN, rank_ofRank _ hlt]
    exact decide_eq_true (by omega)
  · exact h

/-- The quiet form of the first operand that is not a number. -/
def firstNaN : List Double → { x : Double // x.isNaN = true }
  | [] => ⟨quietNaN, rfl⟩
  | x :: rest => if h : x.isNaN = true then ⟨x.quiet, isNaN_quiet h⟩ else firstNaN rest

/-- The rule that programs run with, which is that of common processors: a not-a-number among the
operands is handed on. -/
instance : NaNRule := ⟨fun _ operands => firstNaN operands⟩

end Double

end ReversePolish
