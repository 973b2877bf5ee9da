import ReversePolish.Bindings
import ReversePolish.Library

/-!
# Expressions

An expression is a tree: numbers and variables at the leaves; operators,
conditionals and function applications inside.

Two expressions are equal when they have the same shape and the same contents.
Numbers are compared by their patterns of bits, in which zero differs from minus
zero, except that all patterns that are not a number count as one; functions are
compared by name.  Expressions that are equal can therefore hold different
patterns, and functions that compute different things.
-/

namespace ReversePolish

/-- An arithmetic expression. -/
inductive Expr where
  /-- A number. -/
  | const (value : Double)
  /-- A variable. -/
  | var (name : VariableName)
  /-- An operator between two operands. -/
  | binary (op : Operator) (left right : Expr)
  /-- The second operand if the first is not zero, the third if it is. -/
  | cond (condition ifTrue ifFalse : Expr)
  /-- A function applied to its argument. -/
  | call (function : NamedFunction) (argument : Expr)

/-- Whether two numbers are the same constant: one pattern, or both not a number.  There are many
patterns that are not a number (`Double.isNaN`); a tree keeps the one it was given, and this test
does not tell them apart. -/
def sameConstant (x y : Double) : Bool := x.bits == y.bits || (x.isNaN && y.isNaN)

/-- Whether a number counts as true: zero of either sign does not, and everything
else does, what is not a number included. -/
def countsAsTrue (x : Double) : Bool := x.toFloat != 0.0

/-- What is told apart is what differs once there is one not-a-number. -/
theorem sameConstant_iff {x y : Double} : sameConstant x y ↔ x.canonical = y.canonical := by
  have hbits : x.bits = y.bits ↔ x = y :=
    ⟨fun h => by cases x; cases y; cases h; rfl, congrArg Double.bits⟩
  rw [Double.canonical_eq_canonical_iff, sameConstant, Bool.or_eq_true, Bool.and_eq_true,
    beq_iff_eq, hbits]

@[simp] theorem sameConstant_self (x : Double) : sameConstant x x := sameConstant_iff.2 rfl

namespace Expr

/-- The value of a constant. -/
def constant? : Expr → Option Double
  | const v => some v
  | _ => none

/-- Whether an expression has no operands. -/
def isLeaf : Expr → Bool
  | const _ => true
  | var _ => true
  | _ => false

/-- Whether two expressions have the same shape and contents. -/
def same : Expr → Expr → Bool
  | const x, const y => sameConstant x y
  | var m, var n => m == n
  | binary o a b, binary p c d => o == p && same a c && same b d
  | cond a b c, cond d e f => same a d && same b e && same c f
  | call f a, call g b => f == g && same a b
  | _, _ => false

instance : BEq Expr := ⟨same⟩

/-- Every expression equals itself, also where it holds a not-a-number. -/
@[simp] theorem same_self (e : Expr) : e.same e := by
  induction e with
  | const x => exact sameConstant_self x
  | var n => exact beq_self_eq_true n
  | binary op l r ihl ihr => simp [same, ihl, ihr]
  | cond c t f ihc iht ihf => simp [same, ihc, iht, ihf]
  | call g a ih => simp [same, ih, NamedFunction.beq_iff_name_eq]

end Expr

end ReversePolish
