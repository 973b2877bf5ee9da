import ReversePolish.Command

/-!
# How the program is called

Arguments are options up to the first that does not look like one; from there on
they are the words of a command, whatever they look like.
-/

namespace ReversePolish

/-- What the program says about how it is called. -/
def usageText : String := "\n".intercalate
  [ "usage: rpnc [--var <name>=<value>]... [<command> [<args>...]]",
    "",
    "With a command, runs it once and exits. Without one, reads commands from",
    "standard input (`help` lists them, `quit` or end of input exits).",
    "",
    "Options:",
    "  --var <name>=<value>   bind a variable before running (repeatable)",
    "  -h, --help             show this message",
    "",
    "Logging: set RUST_LOG (e.g. RUST_LOG=debug) to trace parsing and optimization." ]

/-- The form of the option that binds a variable. -/
def bindingForm : String := "--var <name>=<value>"

/-- What the arguments ask for. -/
structure Invocation where
  /-- Variables to bind, by the texts of their names, in the order given. -/
  bindings : List (String × Double)
  /-- A command line to run once. -/
  command : Option String
  /-- Whether to show how the program is called. -/
  help : Bool

namespace Invocation

/-- What no arguments ask for. -/
def empty : Invocation := ⟨[], none, false⟩

/-- The name of a variable and its value, the name ending at the first equals sign. -/
def readBinding (text : String) : Except CommandError (String × Double) :=
  match text.toList.dropWhile (· ≠ '=') with
  | [] => .error (.usage bindingForm)
  | _ :: value =>
    match VariableName.ofString (String.ofList (text.toList.takeWhile (· ≠ '='))) with
    | .error e => .error (.invalidName e)
    | .ok name =>
      match Numeral.value? value with
      | some x => .ok (name.text, x)
      | none => .error (.invalidNumber (String.ofList value))

/-- What stands behind `--var=`, if an argument begins with it. -/
def attachedBinding? (arg : String) : Option String :=
  if "--var=".toList.isPrefixOf arg.toList then
    some (String.ofList (arg.toList.drop "--var=".length))
  else none

/-- Whether an argument begins with two hyphens. -/
def looksLikeOption (arg : String) : Bool := "--".toList.isPrefixOf arg.toList

/-- The same with one more binding. -/
def addBinding (i : Invocation) (b : String × Double) : Invocation :=
  { i with bindings := i.bindings ++ [b] }

/-- Reads arguments behind those that asked for `i`. -/
def readOnto (i : Invocation) : List String → Except CommandError Invocation
  | [] => .ok i
  | arg :: rest =>
    if arg = "-h" ∨ arg = "--help" then readOnto { i with help := true } rest
    else
      match attachedBinding? arg with
      | some text =>
        match readBinding text with
        | .ok b => readOnto (i.addBinding b) rest
        | .error e => .error e
      | none =>
        if arg = "--var" then
          match rest with
          | [] => .error (.usage bindingForm)
          | text :: rest =>
            match readBinding text with
            | .ok b => readOnto (i.addBinding b) rest
            | .error e => .error e
        else if looksLikeOption arg then .error (.usage usageText)
        else .ok { i with command := some (" ".intercalate (arg :: rest)) }

/-- What a list of arguments asks for. -/
def ofArgs (args : List String) : Except CommandError Invocation := readOnto empty args

end Invocation

end ReversePolish
