import ReversePolish.Program

/-!
# The command line

The outer layer of the program.  At a terminal the lines of a script are executed
as they are typed, with a prompt in front of each; otherwise the whole input is
read first.  The input is left alone where the outcome does not depend on it.
-/

namespace ReversePolish.Terminal

/-- Everything that a stream still holds, behind what was read. -/
partial def readAll (stream : IO.FS.Stream) (read : ByteArray) : IO ByteArray := do
  let bytes ← stream.read 65536
  if bytes.isEmpty then return read else readAll stream (read ++ bytes)

/-- The bytes of one line with its line feed, behind the reverse of what was
read. -/
partial def readLine (stream : IO.FS.Stream) (read : List UInt8) : IO (List UInt8) := do
  let bytes ← stream.read 1
  match bytes.toList with
  | [] => return read.reverse
  | b :: _ => if b = lineFeed then return (b :: read).reverse else readLine stream (b :: read)

/-- Writes what a run left behind. -/
def report (o : Outcome) : IO UInt32 := do
  (← IO.getStdout).putStr o.output
  (← IO.getStdout).flush
  (← IO.getStderr).putStr o.errors
  return o.status.toUInt32

/-- Executes lines as they are typed. -/
partial def converse (stdin : IO.FS.Stream) (session : Session) : IO UInt32 := do
  (← IO.getStdout).putStr promptText
  (← IO.getStdout).flush
  let line ← readLine stdin []
  match Script.run false session line with
  | (.endOfInput, t) =>
    let status ← report ⟨t.output, t.errors, 0⟩
    if line.isEmpty then return status else converse stdin t.session
  | (.quit, _) => return 0
  | (.malformed, t) => report ⟨t.output, t.errors ++ errorLine malformedMessage, 1⟩

/-- Runs the program on standard input. -/
def run (args : List String) : IO UInt32 := do
  let stdin ← IO.getStdin
  match Invocation.ofArgs args with
  | .error _ => report (Program.run false args [])
  | .ok i =>
    if i.help || i.command.isSome then report (Program.run false args [])
    else
      match Program.sessionOf i with
      | .error _ => report (Program.run false args [])
      | .ok session =>
        if ← stdin.isTty then converse stdin session
        else report (Program.run false args (← readAll stdin ByteArray.empty).toList)

end ReversePolish.Terminal

def main (args : List String) : IO UInt32 := ReversePolish.Terminal.run args
