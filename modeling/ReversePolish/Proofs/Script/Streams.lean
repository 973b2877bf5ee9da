import ReversePolish.Proofs.Script
import ReversePolish.Proofs.Session.SingleLines

/-!
# The two streams of a script

A script prints to two streams, and whoever reads them has to find the lines again.  The stream of
errors is easy to read: each of its lines is the report of one failing line of the script, and they
stand in the order in which the lines failed (`run_streams`).  The output is easy to read as far as
no list is asked for: a line adds nothing to it or one line.

A script is a sequence of turns, each a line in the session that the lines before it have left
(`Script.turns`).  What it prints is what its turns print, one behind another
(`Script.errors_runLines`, `Script.output_runLines`), so what is left is one turn.  The line of a
turn was cut out of the input in front of a line feed, and has none in it
(`Script.lineFeed_notMem_of_mem_turns`).  From there on it is about sessions: a report repeats only
pieces of the line, and an answer only words of it.  What the session binds and what the names of
its functions are makes no difference.
-/

namespace ReversePolish

/-! ## Turns -/

/-- A turn of a script: a line, and the session in which it is carried out. -/
structure Turn where
  session : Session
  line : String

namespace Turn

variable [NaNRule] {x : Turn}

/-- What the line prints. -/
def printed (x : Turn) : Transcript := (Transcript.start x.session).execute x.line

/-- Whether the line fails. -/
def failed (x : Turn) : Bool :=
  match (x.session.execute x.line).1 with
  | .ok _ => false
  | .error _ => true

/-- A line that succeeds prints its text, if there is one, as a line of the output. -/
theorem printed_of_ok {text : String} (h : (x.session.execute x.line).1 = .ok text) :
    x.printed.output = (if text = "" then "" else text ++ "\n") ∧ x.printed.errors = "" := by
  rw [printed, Transcript.execute, Transcript.start]
  generalize x.session.execute x.line = outcome at h
  obtain ⟨result, session⟩ := outcome
  obtain rfl : result = .ok text := h
  exact ⟨by simp [lineOf], rfl⟩

/-- A line that fails prints its report as a line of the errors. -/
theorem printed_of_error {e : CommandError}
    (h : (x.session.execute x.line).1 = .error e) :
    x.printed.output = "" ∧ x.printed.errors = "error: " ++ e.message ++ "\n" := by
  rw [printed, Transcript.execute, Transcript.start]
  generalize x.session.execute x.line = outcome at h
  obtain ⟨result, session⟩ := outcome
  obtain rfl : result = .error e := h
  exact ⟨rfl, String.empty_append⟩

/-- **The errors of turns are one line for each that fails**, in their order. -/
theorem byteLines_errors {turns : List Turn} (h : ∀ x ∈ turns, '\n' ∉ x.line.toList) :
    byteLines (textBytes (String.join (turns.map fun x => x.printed.errors))) =
      (turns.filter failed).map fun x => textBytes x.printed.errors := by
  induction turns with
  | nil => rfl
  | cons x turns ih =>
    obtain ⟨hx, hturns⟩ := List.forall_mem_cons.1 h
    rw [List.map_cons, String.join_cons]
    cases hresult : (x.session.execute x.line).1 with
    | ok text =>
      have hfailed : ¬ x.failed = true := by simp [failed, hresult]
      rw [(printed_of_ok hresult).2, String.empty_append, List.filter_cons_of_neg hfailed]
      exact ih hturns
    | error e =>
      have hfailed : x.failed = true := by simp [failed, hresult]
      have hmessage : '\n' ∉ ("error: " ++ e.message).toList :=
        lineFeed_notMem_append (by decide)
          (Session.lineFeed_notMem_of_execute_eq_error hx hresult)
      have hfeed : textBytes "\n" = [lineFeed] := by decide
      rw [List.filter_cons_of_pos hfailed, List.map_cons, ← ih hturns,
        (printed_of_error hresult).2, textBytes_append, textBytes_append _ "\n", hfeed,
        byteLines_textBytes_append hmessage]

end Turn

/-! ## One turn after another -/

/-- What is printed before a line is asked for. -/
def prompting (prompt : Bool) : String := if prompt then promptText else ""

namespace Transcript

theorem askFor_eq (prompt : Bool) (t : Transcript) :
    t.askFor prompt = ⟨t.output ++ prompting prompt, t.errors, t.session⟩ := by
  cases prompt with
  | false =>
    rw [prompting, if_neg Bool.false_ne_true, String.append_empty]
    rfl
  | true => rfl

/-- A line prints behind what is there. -/
theorem execute_eq_followedBy [NaNRule] (t : Transcript) (line : String) :
    t.execute line = t.followedBy (Turn.printed ⟨t.session, line⟩) := by
  rw [Turn.printed, ← execute_followedBy, followedBy_start]

end Transcript

namespace Script

/-- The turns of a script, up to the line that ends it. -/
def turns [NaNRule] : Session → List (List UInt8) → List Turn
  | _, [] => []
  | s, line :: rest =>
    match lineText? line with
    | none => []
    | some text => if isQuit text then [] else ⟨s, text⟩ :: turns (s.execute text).2 rest

/-- The line of a turn is the text of a line of the script. -/
theorem exists_lineText?_of_mem_turns [NaNRule] {x : Turn} {session : Session}
    {lines : List (List UInt8)} (h : x ∈ turns session lines) :
    ∃ line ∈ lines, lineText? line = some x.line := by
  induction lines generalizing session with
  | nil => cases h
  | cons line lines ih =>
    rw [turns] at h
    split at h
    · cases h
    · rename_i text htext
      split at h
      · cases h
      · rcases List.mem_cons.1 h with rfl | h
        · exact ⟨line, List.mem_cons_self, htext⟩
        · obtain ⟨later, hlater, hread⟩ := ih h
          exact ⟨later, List.mem_cons_of_mem line hlater, hread⟩

theorem lineFeed_notMem_of_mem_turns [NaNRule] {x : Turn} {session : Session} {input : List UInt8}
    (h : x ∈ turns session (byteLines input)) : '\n' ∉ x.line.toList := by
  obtain ⟨line, hline, htext⟩ := exists_lineText?_of_mem_turns h
  exact lineFeed_notMem_of_lineText? hline htext

/-! ## Streams -/

/-- **What a script prints is what its turns print**, one behind another; to the output, each behind
its prompt, and a last prompt behind all of them. -/
theorem streams_runLines [NaNRule] (prompt : Bool) (t : Transcript) (lines : List (List UInt8)) :
    (runLines prompt t lines).2.errors =
      t.errors ++ String.join ((turns t.session lines).map fun x => x.printed.errors) ∧
    (runLines prompt t lines).2.output =
      t.output ++ String.join ((turns t.session lines).map fun x =>
        prompting prompt ++ x.printed.output) ++ prompting prompt := by
  induction lines generalizing t with
  | nil => simp [runLines, turns, Transcript.askFor_eq]
  | cons line lines ih =>
    rw [runLines, turns]
    cases lineText? line with
    | none => simp [Transcript.askFor_eq]
    | some text =>
      dsimp only
      split
      · simp [Transcript.askFor_eq]
      · obtain ⟨herrors, houtput⟩ := ih ((t.askFor prompt).execute text)
        rw [Transcript.session_execute, Transcript.session_askFor] at herrors houtput
        rw [herrors, houtput, Transcript.execute_eq_followedBy, Transcript.session_askFor,
          Transcript.askFor_eq]
        simp [Transcript.followedBy, String.append_assoc]

/-- **Each stream of a script is read line by line.**  Whatever the input, the session and its
library are, the errors are those of the turns one behind another, and the output is theirs with the
prompts.  A turn that fails adds nothing to the output and one line to the errors, its report, which
has no line feed but the last.  A turn that succeeds adds nothing to the errors, and if it does not
ask for a list it adds to the output nothing, or its text as one line with no line feed but the
last.  So the lines of the error stream are the reports of the turns that fail, as many and in this
order. -/
theorem run_streams [NaNRule] (prompt : Bool) (session : Session) (input : List UInt8) :
    let turns := turns session (byteLines input)
    let t := (run prompt session input).2
    t.errors = String.join (turns.map fun x => x.printed.errors) ∧
    t.output = String.join (turns.map fun x => prompting prompt ++ x.printed.output) ++
      prompting prompt ∧
    (∀ x ∈ turns, ∀ e, (x.session.execute x.line).1 = .error e →
      x.printed.output = "" ∧ x.printed.errors = "error: " ++ e.message ++ "\n" ∧
        '\n' ∉ e.message.toList) ∧
    (∀ x ∈ turns, ∀ text, (x.session.execute x.line).1 = .ok text → x.printed.errors = "" ∧
      x.printed.output = (if text = "" then "" else text ++ "\n") ∧
      ((∀ word ∈ (Command.wordsOf x.line.toList).head?, word ∉ ["vars", "help"]) →
        '\n' ∉ text.toList)) ∧
    byteLines (textBytes t.errors) =
      (turns.filter Turn.failed).map (fun x => textBytes x.printed.errors) ∧
    (byteLines (textBytes t.errors)).length = turns.countP Turn.failed := by
  intro turns t
  have hfeed : ∀ x ∈ turns, '\n' ∉ x.line.toList := fun x hx => lineFeed_notMem_of_mem_turns hx
  obtain ⟨herrors, houtput⟩ := streams_runLines prompt (.start session) (byteLines input)
  have herrors : t.errors = String.join (turns.map fun x => x.printed.errors) :=
    herrors.trans String.empty_append
  have hlines : byteLines (textBytes t.errors) =
      (turns.filter Turn.failed).map fun x => textBytes x.printed.errors := by
    rw [herrors]
    exact Turn.byteLines_errors hfeed
  refine ⟨herrors, ?_, fun x hx e he => ?_, fun x hx text htext => ?_, hlines, ?_⟩
  · refine houtput.trans ?_
    rw [Transcript.start, String.empty_append]
  · obtain ⟨hnothing, hreport⟩ := Turn.printed_of_error he
    exact ⟨hnothing, hreport, Session.lineFeed_notMem_of_execute_eq_error (hfeed x hx) he⟩
  · obtain ⟨hanswer, hnothing⟩ := Turn.printed_of_ok htext
    exact ⟨hnothing, hanswer, fun hfirst => Session.lineFeed_notMem_of_execute_eq_ok hfirst htext⟩
  · rw [hlines, List.length_map, List.countP_eq_length_filter]

/-- A function with a line feed in its name cannot be called, because the script is cut there, and
what is left of the call makes two lines that fail.  Behind them a line answers about a variable. -/
theorem run_streams_cut :
    let session := Session.ofLibrary (Library.standard.insert ⟨"f\ng", id, by decide⟩)
    let input := textBytes "eval x f\ng()\ndeps x abs()\n"
    (byteLines (textBytes (run true session input).2.errors)).length = 2 ∧
      (∃ x ∈ turns session (byteLines input), x.line = "g()" ∧
        (x.session.execute x.line).1 = .error (.unknownCommand "g()") ∧
        x.printed.errors = "error: unknown command 'g()' (try 'help')\n") ∧
      ∃ x ∈ turns session (byteLines input), x.line = "deps x abs()" ∧
        (x.session.execute x.line).1 = .ok "x" ∧ '\n' ∉ "x".toList := by
  intro session input
  obtain ⟨-, -, hfails, hsucceeds, -, hlength⟩ := run_streams true session input
  have hturns : turns session (byteLines input) =
      [⟨session, "eval x f"⟩, ⟨session, "g()"⟩, ⟨session, "deps x abs()"⟩] := rfl
  have hcall : ⟨session, "g()"⟩ ∈ turns session (byteLines input) := by
    rw [hturns]
    exact List.mem_cons_of_mem _ List.mem_cons_self
  have hdeps : ⟨session, "deps x abs()"⟩ ∈ turns session (byteLines input) := by
    rw [hturns]
    exact List.mem_cons_of_mem _ (List.mem_cons_of_mem _ List.mem_cons_self)
  have herror : (session.execute "g()").1 = .error (.unknownCommand "g()") := rfl
  have hok : (session.execute "deps x abs()").1 = .ok "x" := by decide +kernel
  refine ⟨?_, ⟨_, hcall, rfl, herror, ?_⟩, ⟨_, hdeps, rfl, hok, ?_⟩⟩
  · rw [hlength, hturns]
    decide +kernel
  · exact (hfails _ hcall _ herror).2.1
  · exact (hsucceeds _ hdeps _ hok).2.2 (by decide)

end Script

end ReversePolish
