import ReversePolish.Proofs.Bindings.Edits
import ReversePolish.Proofs.Script

/-!
# The edits that a script makes

A session changes its bindings by edits alone.  A command is one edit or none
(`Command.edits`), a line makes those of its command, and a script makes those of its lines,
one line after another, up to the line that ends it (`Script.edits`).  What a script prints
and the library it is run with have no part in this.

So what is bound in the end can be read off the script (`Script.bindings_run`): a name has the
value that the last line about it gives (`Script.shows_run`).
-/

namespace ReversePolish

/-- The edits that a command makes. -/
def Command.edits : Command → List Edit
  | .set name value => [.set name value]
  | .unset name => [.unset name]
  | .clear => [.clear]
  | _ => []

/-- The edits that a line makes. -/
def lineEdits (line : String) : List Edit :=
  match Command.ofLine line with
  | .ok (some command) => command.edits
  | _ => []

namespace Session

/-! ## Commands and lines -/

/-- A session binds a variable as its bindings do, and does not tell which value it had. -/
theorem setVariable_eq (s : Session) (name : String) (value : Double) :
    s.setVariable name value =
      ((s.bindings.set name value).1.map fun _ => (),
        { s with bindings := (s.bindings.set name value).2 }) := by
  rw [setVariable, Bindings.set]
  cases VariableName.ofString name with
  | error e => rfl
  | ok n => rfl

theorem bindings_run [NaNRule] (s : Session) (command : Command) :
    (s.run command).2.bindings = s.bindings.edited command.edits := by
  cases command with
  | set name value =>
    rw [run, setVariable_eq]
    cases h : (s.bindings.set name value).1 with
    | error e => rfl
    | ok old => rfl
  | _ => rfl

/-- **A line does to the bindings what its command says**, and a line without a command does
nothing. -/
theorem bindings_execute [NaNRule] (s : Session) (line : String) :
    (s.execute line).2.bindings = s.bindings.edited (lineEdits line) := by
  rw [execute, lineEdits]
  match Command.ofLine line with
  | .ok none => rfl
  | .ok (some command) => exact s.bindings_run command
  | .error e => rfl

end Session

/-! ## Scripts -/

/-- The prompt changes nothing that is bound. -/
theorem Transcript.bindings_askFor (prompt : Bool) (t : Transcript) :
    (t.askFor prompt).session.bindings = t.session.bindings :=
  congrArg Session.bindings (t.session_askFor prompt)

namespace Script

/-- The edits that the lines of a script make, up to the one that ends it. -/
def edits : List (List UInt8) → List Edit
  | [] => []
  | line :: rest =>
    match lineText? line with
    | none => []
    | some text => if isQuit text then [] else lineEdits text ++ edits rest

theorem bindings_runLines [NaNRule] (prompt : Bool) (t : Transcript) (lines : List (List UInt8)) :
    (runLines prompt t lines).2.session.bindings = t.session.bindings.edited (edits lines) := by
  induction lines generalizing t with
  | nil => exact t.bindings_askFor prompt
  | cons line lines ih =>
    rw [runLines, edits]
    cases lineText? line with
    | none => exact t.bindings_askFor prompt
    | some text =>
      dsimp only
      split
      · exact t.bindings_askFor prompt
      · rw [ih, Transcript.session_execute, Session.bindings_execute, Transcript.bindings_askFor,
          Bindings.edited_append]

/-- **A script does to the bindings what its lines say.** -/
theorem bindings_run [NaNRule] (prompt : Bool) (session : Session) (input : List UInt8) :
    (run prompt session input).2.session.bindings =
      session.bindings.edited (edits (byteLines input)) :=
  bindings_runLines prompt (.start session) (byteLines input)

/-- **What is bound after a script is what its lines bound last.** -/
theorem shows_run [NaNRule] (prompt : Bool) (library : Library) (input : List UInt8) :
    (run prompt (.ofLibrary library) input).2.session.bindings.Shows
      (lastValue (edits (byteLines input))) := by
  rw [bindings_run, ← Bindings.value?_edited_empty]
  exact Bindings.shows_value? _

end Script

end ReversePolish
