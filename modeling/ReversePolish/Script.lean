import ReversePolish.Session
import ReversePolish.Text.Line

/-!
# Running scripts

A script is a sequence of bytes, executed line by line in one session.  What
commands print goes to one text and what fails goes to another, each report on a
line of its own behind `error: `; a failing line does not stop the script.  The
script stops at a line that says `quit` or `exit`, at a line that is not valid
UTF-8, or at the end of the input.

With the prompt on, it is printed before each line is asked for, and so also
before the end of the input is noticed.
-/

namespace ReversePolish

/-- Why a script stopped. -/
inductive Ending where
  /-- The input was used up. -/
  | endOfInput
  /-- A line asked to stop. -/
  | quit
  /-- A line was not valid UTF-8. -/
  | malformed
deriving DecidableEq, Repr

/-- The sentence that reports a line that is not valid UTF-8. -/
def malformedMessage : String := "stream did not contain valid UTF-8"

/-- What a script has printed so far, and the session it has reached. -/
structure Transcript where
  output : String
  errors : String
  session : Session

/-- The text printed before a line is asked for. -/
def promptText : String := "> "

/-- A text on a line of its own. -/
def lineOf (text : String) : String := text ++ "\n"

/-- The report of a failure. -/
def errorLine (message : String) : String := lineOf ("error: " ++ message)

namespace Transcript

/-- A session that has printed nothing. -/
def start (session : Session) : Transcript := ⟨"", "", session⟩

/-- Prints the prompt, if it is on. -/
def askFor (prompt : Bool) (t : Transcript) : Transcript :=
  if prompt then { t with output := t.output ++ promptText } else t

/-- Executes one line: a text goes to the output unless it is empty, an error to
the errors. -/
def execute [NaNRule] (t : Transcript) (line : String) : Transcript :=
  match t.session.execute line with
  | (.ok text, session) =>
    { t with output := if text = "" then t.output else t.output ++ lineOf text, session }
  | (.error e, session) => { t with errors := t.errors ++ errorLine e.message, session }

end Transcript

/-- Whether a line asks to stop. -/
def isQuit (line : String) : Bool :=
  let word := String.ofList (trim isBlank line.toList)
  word = "quit" || word = "exit"

namespace Script

/-- Runs the lines of a script from a transcript on. -/
def runLines [NaNRule] (prompt : Bool) : Transcript → List (List UInt8) → Ending × Transcript
  | t, [] => (.endOfInput, t.askFor prompt)
  | t, line :: rest =>
    match lineText? line with
    | none => (.malformed, t.askFor prompt)
    | some text =>
      if isQuit text then (.quit, t.askFor prompt)
      else runLines prompt ((t.askFor prompt).execute text) rest

/-- Runs a script in a session. -/
def run [NaNRule] (prompt : Bool) (session : Session) (input : List UInt8) : Ending × Transcript :=
  runLines prompt (Transcript.start session) (byteLines input)

end Script

end ReversePolish
