import ReversePolish.Number.Double

/-!
# Binary operators

Five arithmetic operators, each with a one-character symbol that is at once its
word in an expression and its sign between two operands.  Arithmetic is that of
binary64: dividing by zero gives an infinity or a not-a-number, never an error.
-/

namespace ReversePolish

/-- A binary arithmetic operator. -/
inductive Operator where
  | add
  | sub
  | mul
  | div
  | pow
deriving DecidableEq, Repr

namespace Operator

/-- Every operator, in the order in which they are listed. -/
def all : List Operator := [.add, .sub, .mul, .div, .pow]

/-- The symbol of an operator. -/
def symbol : Operator → String
  | .add => "+"
  | .sub => "-"
  | .mul => "*"
  | .div => "/"
  | .pow => "^"

/-- The operator with a given symbol. -/
def ofSymbol? (s : String) : Option Operator := all.find? (·.symbol == s)

/-- What an operator computes. -/
def compute : Operator → Float → Float → Float
  | .add, x, y => x + y
  | .sub, x, y => x - y
  | .mul, x, y => x * y
  | .div, x, y => x / y
  | .pow, x, y => Float.pow x y

/-- The value of an operator at two operands. -/
def apply [NaNRule] (op : Operator) (x y : Double) : Double :=
  .result op.symbol [x, y] (op.compute x.toFloat y.toFloat)

@[simp] theorem ofSymbol?_symbol (op : Operator) : ofSymbol? op.symbol = some op := by
  cases op <;> rfl

/-- No word but its symbol names an operator. -/
theorem ofSymbol?_eq_some_iff {s : String} {op : Operator} :
    ofSymbol? s = some op ↔ s = op.symbol := by
  constructor
  · intro h
    have := List.find?_some h
    exact (beq_iff_eq.1 this).symm
  · rintro rfl
    exact ofSymbol?_symbol op

end Operator

end ReversePolish
