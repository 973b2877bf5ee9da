import ReversePolish.Expr.Basic

/-!
# Simplification

Simplifying is evaluating as far as the known variables reach.  Bound variables
become constants, and from the leaves upwards an operator or function whose
operands are constants becomes its value.  A conditional with a constant
condition becomes the branch it chooses; the other branch is dropped whatever
it holds.  Unbound variables stay, so simplification always succeeds.
-/

namespace ReversePolish.Expr

/-- A variable, or its value if it is bound. -/
def simplifyVar (b : Bindings) (name : VariableName) : Expr :=
  match b.value? name.text with
  | some v => const v
  | none => var name

/-- An operator over simplified operands. -/
def foldBinary [NaNRule] (op : Operator) (l r : Expr) : Expr :=
  match l.constant?, r.constant? with
  | some x, some y => const (op.apply x y)
  | _, _ => binary op l r

/-- A conditional over simplified operands. -/
def foldCond (c t f : Expr) : Expr :=
  match c.constant? with
  | some x => if countsAsTrue x then t else f
  | none => cond c t f

/-- A function over a simplified argument. -/
def foldCall (f : NamedFunction) (a : Expr) : Expr :=
  match a.constant? with
  | some x => const (f.body x)
  | none => call f a

/-- The expression with every known part replaced by its value. -/
def simplify [NaNRule] (b : Bindings) : Expr → Expr
  | const v => const v
  | var name => simplifyVar b name
  | binary op l r => foldBinary op (l.simplify b) (r.simplify b)
  | cond c t f => foldCond (c.simplify b) (t.simplify b) (f.simplify b)
  | call f a => foldCall f (a.simplify b)

end ReversePolish.Expr
