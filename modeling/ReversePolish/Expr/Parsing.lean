import ReversePolish.Expr.Rendering

/-!
# Reading postfix notation

The words of a source are taken from left to right against a stack of complete
expressions.  A number or variable is pushed; an operator, conditional or call
takes its operands from the top and pushes the expression that it makes of them.
The source is an expression if exactly one is left at the end.

Too few operands are noticed before anything is taken from the stack and before
the name of a function is looked up, so of these two faults at one word the
first is reported.
-/

namespace ReversePolish

/-- Why a source is not an expression. -/
inductive SourceError where
  /-- Operands and operators do not balance; `depth` expressions were on the stack
  where this was noticed. -/
  | incomplete (source : String) (depth : Nat)
  /-- No function has this name. -/
  | undefinedFunction (name : String)
  /-- A word stands for a variable but cannot name one. -/
  | invalidName (cause : NameError)
deriving DecidableEq, Repr

/-- The sentence that reports a source that is not an expression. -/
def SourceError.message : SourceError → String
  | .incomplete source depth =>
    "incomplete RPN expression '" ++ source ++ "' (stack size " ++ Nat.repr depth ++ ")"
  | .undefinedFunction name => "undefined function '" ++ name ++ "'"
  | .invalidName cause => cause.message

/-- A list as the row of `n` that it is, unless it has another length. -/
def exactly? {α : Type} (n : Nat) (l : List α) : Option (Vector α n) :=
  if h : l.length = n then some ⟨l.toArray, by simpa using h⟩ else none

namespace Expr

/-- The top `n` expressions of the stack, in the order in which they were pushed,
and the stack below them.  Nothing is taken when there are fewer; to find out, no
more of the stack is counted than is asked for. -/
def pop (source : String) (n : Nat) (stack : List Expr) :
    Except SourceError (Vector Expr n × List Expr) :=
  if (stack.take n).length < n then .error (.incomplete source stack.length)
  else
    match exactly? n (stack.take n).reverse with
    | some operands => .ok (operands, stack.drop n)
    | none => .error (.incomplete source (stack.drop n).length)

/-- The application of a function, found by its name, to the top of the stack. -/
def pushCall (library : Library) (source : String) (stack : List Expr) (name : String) :
    Except SourceError (List Expr) :=
  match pop source 1 stack with
  | .error e => .error e
  | .ok (operands, rest) =>
    match library.find? name with
    | some f => .ok (call f operands[0] :: rest)
    | none => .error (.undefinedFunction name)

/-- The stack after one word. -/
def push (library : Library) (source : String) (stack : List Expr) :
    Lexeme → Except SourceError (List Expr)
  | .number v => .ok (const v :: stack)
  | .variableNamed text =>
    match VariableName.ofString text with
    | .error e => .error (.invalidName e)
    | .ok name => .ok (var name :: stack)
  | .operator op =>
    match pop source 2 stack with
    | .ok (operands, rest) => .ok (binary op operands[0] operands[1] :: rest)
    | .error e => .error e
  | .conditional =>
    match pop source 3 stack with
    | .ok (operands, rest) => .ok (cond operands[0] operands[1] operands[2] :: rest)
    | .error e => .error e
  | .call name => pushCall library source stack name

/-- The stack after a sequence of words. -/
def pushAll (library : Library) (source : String) :
    List Expr → List Lexeme → Except SourceError (List Expr)
  | stack, [] => .ok stack
  | stack, x :: rest =>
    match push library source stack x with
    | .ok next => pushAll library source next rest
    | .error e => .error e

/-- Words are taken one after another. -/
theorem pushAll_append (library : Library) (source : String) (stack : List Expr)
    (xs ys : List Lexeme) :
    pushAll library source stack (xs ++ ys) =
      match pushAll library source stack xs with
      | .ok next => pushAll library source next ys
      | .error e => .error e := by
  induction xs generalizing stack with
  | nil => rfl
  | cons x xs ih =>
    simp only [List.cons_append, pushAll]
    cases push library source stack x with
    | ok next => exact ih next
    | error e => rfl

/-- The one expression that is left at the end. -/
def finish (source : String) (stack : List Expr) : Except SourceError Expr :=
  if stack.length ≠ 1 then .error (.incomplete source stack.length)
  else
    match pop source 1 stack with
    | .ok (operands, _) => .ok operands[0]
    | .error e => .error e

/-- The expression that a source denotes, its functions taken from a library. -/
def ofSource (library : Library) (source : String) : Except SourceError Expr :=
  match pushAll library source [] ((Token.scan source).map Token.lexeme) with
  | .error e => .error e
  | .ok stack => finish source stack

end Expr

end ReversePolish
