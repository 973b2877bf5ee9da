import ReversePolish.Invocation
import ReversePolish.Script

/-!
# The program

The program binds the variables that its arguments name and then runs one command,
or a script from its input if there is no command.  It ends with status 0; with
status 1 if the command or the input fails; and with status 2 if its arguments
cannot be read, or name a variable that cannot be bound.
-/

namespace ReversePolish

/-- What a run of the program leaves behind. -/
structure Outcome where
  output : String
  errors : String
  status : Nat
deriving DecidableEq, Repr

namespace Program

/-- The session in which the named variables are bound, in the order given, or the reason why one
of them cannot be bound. -/
def sessionOf [NaNRule] (i : Invocation) : Except NameError Session :=
  Session.new.setAll i.bindings

/-- Runs one command line. -/
def runCommand [NaNRule] (s : Session) (line : String) : Outcome :=
  match (s.execute line).1 with
  | .ok text => ⟨if text = "" then "" else lineOf text, "", 0⟩
  | .error e => ⟨"", errorLine e.message, 1⟩

/-- Runs a script. -/
def runScript [NaNRule] (prompt : Bool) (s : Session) (input : List UInt8) : Outcome :=
  match Script.run prompt s input with
  | (.malformed, t) => ⟨t.output, t.errors ++ errorLine malformedMessage, 1⟩
  | (_, t) => ⟨t.output, t.errors, 0⟩

/-- The report of arguments that cannot be read. -/
def refusal (e : CommandError) : Outcome :=
  ⟨"", errorLine e.message ++ lineOf "" ++ lineOf usageText, 2⟩

/-- The report of a variable that cannot be bound. -/
def nameRefusal (e : NameError) : Outcome :=
  ⟨"", errorLine (CommandError.invalidName e).message, 2⟩

/-- Runs the program on its arguments and its whole input. -/
def run [NaNRule] (prompt : Bool) (args : List String) (input : List UInt8) : Outcome :=
  match Invocation.ofArgs args with
  | .error e => refusal e
  | .ok i =>
    if i.help then ⟨lineOf usageText, "", 0⟩
    else
      match sessionOf i with
      | .error e => nameRefusal e
      | .ok session =>
        match i.command with
        | some line => runCommand session line
        | none => runScript prompt session input

end Program

end ReversePolish
