import ReversePolish.Expr.Basic
import ReversePolish.Text.Quoted

/-!
# Outlines

The outline of a value spells out how it is built: the kind of each node with the
names of its parts.  Unlike the notations it is not meant to be read back; names of
variables are quoted, so it shows characters that would not show.  A function is
written as it is.
-/

namespace ReversePolish

/-- The outline of an operator. -/
def Operator.outline : Operator → String
  | .add => "Add"
  | .sub => "Sub"
  | .mul => "Mul"
  | .div => "Div"
  | .pow => "Pow"

/-- The outline of a function: its name, applied to nothing. -/
def NamedFunction.outline (f : NamedFunction) : String := f.name ++ callMark

/-- The outline of the meaning of a word. -/
def Lexeme.outline : Lexeme → String
  | .number v => "Number(" ++ Number.text v ++ ")"
  | .variableNamed name => "Variable(" ++ Quoted.quote name ++ ")"
  | .operator op => "Operator(" ++ op.outline ++ ")"
  | .conditional => "CondOp"
  | .call name => "Function(" ++ Quoted.quote name ++ ")"

/-- The outline of a token: its meaning, and its text. -/
def Token.outline (t : Token) : String := t.lexeme.outline ++ " " ++ Quoted.quote t.text

namespace Expr

/-- The outline of an expression, behind a text. -/
def outlineBehind : String → Expr → String
  | out, const v => out ++ "Constant(" ++ Number.text v ++ ")"
  | out, var name => out ++ "Variable(VarName(" ++ Quoted.quote name.text ++ "))"
  | out, binary op l r =>
    (r.outlineBehind ((l.outlineBehind (out ++ "Operation \x7b op: " ++ op.outline ++ ", left: "))
      ++ ", right: ")) ++ " \x7d"
  | out, cond c t f =>
    (f.outlineBehind ((t.outlineBehind ((c.outlineBehind (out ++ "Conditional \x7b condition: "))
      ++ ", if_true: ")) ++ ", if_false: ")) ++ " \x7d"
  | out, call f a =>
    (a.outlineBehind (out ++ "Application \x7b function: " ++ f.outline ++ ", argument: "))
      ++ " \x7d"

/-- The outline of an expression. -/
def outline (e : Expr) : String := e.outlineBehind ""

end Expr

end ReversePolish
