import ReversePolish.Expr.Basic

/-!
# Evaluation

Operands are evaluated from left to right before their operator, except that a
conditional evaluates its condition and then only the branch that it chooses.
Evaluation fails at the first variable without value, and only there.
-/

namespace ReversePolish.Expr

/-- The value of an expression, or the first variable met that has none. -/
def eval [NaNRule] (b : Bindings) : Expr → Except UnboundName Double
  | const v => .ok v
  | var name => b.get name.text
  | binary op l r =>
    match l.eval b with
    | .error e => .error e
    | .ok x =>
      match r.eval b with
      | .error e => .error e
      | .ok y => .ok (op.apply x y)
  | cond c t f =>
    match c.eval b with
    | .error e => .error e
    | .ok x => if countsAsTrue x then t.eval b else f.eval b
  | call f a =>
    match a.eval b with
    | .error e => .error e
    | .ok x => .ok (f.body x)

end ReversePolish.Expr
