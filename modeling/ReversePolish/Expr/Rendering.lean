import ReversePolish.Expr.Basic

/-!
# The two notations

Postfix notation lists the nodes of a tree, operands before their operator, each
as one word; the words are joined by single spaces.  It is the notation that is
read.

Infix notation puts an operator between its operands and a pair of parentheses
around every operator and conditional, so it never depends on precedence.

Both are produced in front of a given rest, which keeps the work linear in the
length of the text.
-/

namespace ReversePolish.Expr

/-! ## Postfix -/

/-- The nodes of an expression, operands first, in front of a list. -/
def postorderOnto : Expr → List Lexeme → List Lexeme
  | const v, rest => .number v :: rest
  | var name, rest => .variableNamed name.text :: rest
  | binary op l r, rest => l.postorderOnto (r.postorderOnto (.operator op :: rest))
  | cond c t f, rest =>
    c.postorderOnto (t.postorderOnto (f.postorderOnto (.conditional :: rest)))
  | call f a, rest => a.postorderOnto (.call f.name :: rest)

/-- The nodes of an expression, operands first. -/
def postorder (e : Expr) : List Lexeme := e.postorderOnto []

/-- Postfix notation. -/
def toPostfix (e : Expr) : String := " ".intercalate (e.postorder.map Lexeme.word)

theorem postorderOnto_eq (e : Expr) (rest : List Lexeme) :
    e.postorderOnto rest = e.postorder ++ rest := by
  unfold postorder
  induction e generalizing rest with
  | const _ => rfl
  | var _ => rfl
  | binary op l r ihl ihr =>
    simp only [postorderOnto]
    rw [ihl, ihr, ihl (r.postorderOnto _), ihr [_]]
    simp
  | cond c t f ihc iht ihf =>
    simp only [postorderOnto]
    rw [ihc, iht, ihf, ihc (t.postorderOnto _), iht (f.postorderOnto _), ihf [_]]
    simp
  | call f a ih =>
    simp only [postorderOnto]
    rw [ih, ih [_]]
    simp

@[simp] theorem postorder_const (v : Double) : (const v).postorder = [.number v] := rfl

@[simp] theorem postorder_var (name : VariableName) :
    (var name).postorder = [.variableNamed name.text] := rfl

@[simp] theorem postorder_binary (op : Operator) (l r : Expr) :
    (binary op l r).postorder = l.postorder ++ r.postorder ++ [.operator op] := by
  rw [postorder, postorderOnto, postorderOnto_eq, postorderOnto_eq, List.append_assoc]

@[simp] theorem postorder_cond (c t f : Expr) :
    (cond c t f).postorder = c.postorder ++ t.postorder ++ f.postorder ++ [.conditional] := by
  rw [postorder, postorderOnto, postorderOnto_eq, postorderOnto_eq, postorderOnto_eq]
  simp

@[simp] theorem postorder_call (f : NamedFunction) (a : Expr) :
    (call f a).postorder = a.postorder ++ [.call f.name] := by
  rw [postorder, postorderOnto, postorderOnto_eq]

/-! ## Infix -/

/-- Infix notation in front of a text. -/
def infixOnto : Expr → List Char → List Char
  | const v, rest => Number.chars v ++ rest
  | var name, rest => name.text.toList ++ rest
  | binary op l r, rest =>
    '(' :: l.infixOnto (' ' :: (op.symbol.toList ++ ' ' :: r.infixOnto (')' :: rest)))
  | cond c t f, rest =>
    '(' :: c.infixOnto (' ' :: '?' :: ' ' :: t.infixOnto
      (' ' :: ':' :: ' ' :: f.infixOnto (')' :: rest)))
  | call f a, rest => f.name.toList ++ '(' :: a.infixOnto (')' :: rest)

/-- Infix notation. -/
def toInfix (e : Expr) : String := String.ofList (e.infixOnto [])

end ReversePolish.Expr
