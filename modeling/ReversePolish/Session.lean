import ReversePolish.Command
import ReversePolish.Expr.Evaluation
import ReversePolish.Expr.Measure
import ReversePolish.Expr.Simplification

/-!
# Sessions

A session holds bindings and a library, and carries out one command line after
another.  Each line has a result, which is a text to print or an error, and
leaves a session behind; the session is given also when the line fails, so that
"a failing line changes nothing" is a statement about this function.
-/

namespace ReversePolish

/-- What the command lines of a session share. -/
structure Session where
  bindings : Bindings
  library : Library

namespace Session

/-- The session without bindings over a given library. -/
def ofLibrary (library : Library) : Session := ⟨Catalog.empty, library⟩

/-- The session without bindings over the standard library. -/
def new [NaNRule] : Session := ofLibrary Library.standard

/-- Binds a variable, if its name can be bound. -/
def setVariable (s : Session) (name : String) (value : Double) :
    Except NameError Unit × Session :=
  match VariableName.ofString name with
  | .ok n => (.ok (), { s with bindings := s.bindings.bind n value })
  | .error e => (.error e, s)

/-- Binds variables one after another, up to the first name that is refused. -/
def setAll : Session → List (String × Double) → Except NameError Session
  | s, [] => .ok s
  | s, (name, value) :: rest =>
    match s.setVariable name value with
    | (.ok _, next) => next.setAll rest
    | (.error e, _) => .error e

/-- How a binding is written. -/
def bindingText (name : String) (value : Double) : String := name ++ " = " ++ Number.text value

/-- The bindings, one a line, in ascending order of their names. -/
def listing (s : Session) : String :=
  "\n".intercalate (s.bindings.entries.map fun b => bindingText b.name.text b.value)

/-- Reads an expression and reports something about it. -/
def about (s : Session) (source : String) (report : Expr → Except CommandError String) :
    Except CommandError String :=
  match Expr.ofSource s.library source with
  | .ok e => report e
  | .error e => .error (.source e)

/-- The text of the value of an expression. -/
def valueText [NaNRule] (s : Session) (e : Expr) : Except CommandError String :=
  match e.eval s.bindings with
  | .ok v => .ok (Number.text v)
  | .error u => .error (.unbound u)

/-- Carries out a command. -/
def run [NaNRule] (s : Session) : Command → Except CommandError String × Session
  | .set name value =>
    match s.setVariable name value with
    | (.ok _, next) => (.ok (bindingText name value), next)
    | (.error e, next) => (.error (.invalidName e), next)
  | .unset name => (.ok "", { s with bindings := s.bindings.erase name })
  | .list => (.ok s.listing, s)
  | .clear => (.ok "", { s with bindings := Catalog.empty })
  | .eval source => (s.about source s.valueText, s)
  | .inInfix source => (s.about source fun e => .ok e.toInfix, s)
  | .inPostfix source => (s.about source fun e => .ok e.toPostfix, s)
  | .worstCost source => (s.about source fun e => .ok (Nat.repr e.worstCost), s)
  | .simplify source => (s.about source fun e => .ok (e.simplify s.bindings).toInfix, s)
  | .freeVariables source => (s.about source fun e => .ok (" ".intercalate e.freeVariables), s)
  | .help => (.ok helpText, s)

/-- Carries out one command line.  A blank line succeeds and prints nothing. -/
def execute [NaNRule] (s : Session) (line : String) : Except CommandError String × Session :=
  match Command.ofLine line with
  | .ok none => (.ok "", s)
  | .ok (some command) => s.run command
  | .error e => (.error e, s)

end Session

end ReversePolish
