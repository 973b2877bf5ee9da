import ReversePolish.Expr.Parsing

/-!
# Commands

A command line is a word and what follows it, both trimmed of blanks.  Binding a
variable takes two arguments, removing one takes one; commands about expressions
take the whole rest of the line; the others take nothing.

Reading a line decides only its form.  Whether a name can be bound, and whether
a rest is an expression, is found out when the command is carried out.
-/

namespace ReversePolish

/-- Why a command fails. -/
inductive CommandError where
  /-- The first word is no command. -/
  | unknownCommand (word : String)
  /-- The arguments do not have the form of the command. -/
  | usage (form : String)
  /-- A value is not a number. -/
  | invalidNumber (text : String)
  /-- A source is not an expression. -/
  | source (cause : SourceError)
  /-- A variable has no value. -/
  | unbound (cause : UnboundName)
  /-- A name cannot be bound. -/
  | invalidName (cause : NameError)
deriving DecidableEq, Repr

/-- The sentence that reports a failed command. -/
def CommandError.message : CommandError → String
  | .unknownCommand word => "unknown command '" ++ word ++ "' (try 'help')"
  | .usage form => "usage: " ++ form
  | .invalidNumber text => "invalid number '" ++ text ++ "'"
  | .source cause => cause.message
  | .unbound cause => cause.message
  | .invalidName cause => cause.message

/-- A command with its arguments. -/
inductive Command where
  /-- Bind a variable. -/
  | set (name : String) (value : Double)
  /-- Remove a binding. -/
  | unset (name : String)
  /-- List the bindings. -/
  | list
  /-- Remove all bindings. -/
  | clear
  /-- Evaluate an expression. -/
  | eval (source : String)
  /-- Write an expression in infix notation. -/
  | inInfix (source : String)
  /-- Write an expression in postfix notation. -/
  | inPostfix (source : String)
  /-- Count the operations of an expression. -/
  | worstCost (source : String)
  /-- Simplify an expression under the current bindings. -/
  | simplify (source : String)
  /-- List the free variables of an expression. -/
  | freeVariables (source : String)
  /-- Show what commands there are. -/
  | help
deriving DecidableEq

/-- What the `help` command prints. -/
def helpText : String := "\n".intercalate
  [ "commands:",
    "  set <name> <value>   bind a variable",
    "  unset <name>         remove a binding",
    "  vars                 list bindings",
    "  clear                remove all bindings",
    "  eval <rpn>           evaluate an expression",
    "  infix <rpn>          print in infix notation",
    "  postfix <rpn>        print in postfix notation",
    "  opcount <rpn>        count operations",
    "  optimize <rpn>       fold constants using current bindings",
    "  deps <rpn>           list free variables",
    "  help                 show this message" ]

namespace Command

/-- The command that binds a variable, from its arguments. -/
def readSet (rest : List Char) : Except CommandError Command :=
  match words isBlank rest with
  | [name, value] =>
    match Number.ofText? (String.ofList value) with
    | some x => .ok (.set (String.ofList name) x)
    | none => .error (.invalidNumber (String.ofList value))
  | _ => .error (.usage "set <name> <value>")

/-- The command that removes a binding, from its argument. -/
def readUnset (rest : List Char) : Except CommandError Command :=
  match words isBlank rest with
  | [name] => .ok (.unset (String.ofList name))
  | _ => .error (.usage "unset <name>")

/-- A command without arguments, which must have none. -/
def readBare (word : String) (command : Command) (rest : List Char) :
    Except CommandError Command :=
  if rest = [] then .ok command else .error (.usage word)

/-- The command with a given first word and rest. -/
def ofWord (word : String) (rest : List Char) : Except CommandError Command :=
  let source := String.ofList rest
  match word with
  | "set" => readSet rest
  | "unset" => readUnset rest
  | "vars" => readBare word .list rest
  | "clear" => readBare word .clear rest
  | "help" => readBare word .help rest
  | "eval" => .ok (.eval source)
  | "infix" => .ok (.inInfix source)
  | "postfix" => .ok (.inPostfix source)
  | "opcount" => .ok (.worstCost source)
  | "optimize" => .ok (.simplify source)
  | "deps" => .ok (.freeVariables source)
  | _ => .error (.unknownCommand word)

/-- The first word of a trimmed line, and the rest behind the blanks after it. -/
def splitWord (line : List Char) : List Char × List Char :=
  (line.takeWhile (!isBlank ·), trim isBlank (line.dropWhile (!isBlank ·)))

/-- The command on a line; a blank line holds none. -/
def ofLine (line : String) : Except CommandError (Option Command) :=
  match trim isBlank line.toList with
  | [] => .ok none
  | text =>
    let (word, rest) := splitWord text
    match ofWord (String.ofList word) rest with
    | .ok command => .ok (some command)
    | .error e => .error e

end Command

end ReversePolish
