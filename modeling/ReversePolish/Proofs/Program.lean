import ReversePolish.Program
import ReversePolish.Proofs.Bindings
import ReversePolish.Proofs.Invocation
import ReversePolish.Proofs.Lexeme
import ReversePolish.Proofs.Script
import ReversePolish.Proofs.Session.Confinement

/-!
# One command and a script

A command can be given with the arguments of the program, behind options that bind variables,
or as a line of a script, behind lines that bind them.  Both ways lead to the same texts and the
same bindings (`run_settings_command`).

The two ways meet in the session in which the command line is executed.  The options are read
one after another into an invocation (`readOnto_settings`), whose bindings are then made in
order; the lines of the script are cut, read as texts (`run_scriptOf`) and executed, each
making one binding (`execute_line`).
-/

namespace ReversePolish

/-! ## Scripts of texts -/

/-- The script that has these lines, each with its line feed. -/
def scriptOf (lines : List String) : List UInt8 := lines.flatMap fun line => textBytes (lineOf line)

/-- Blanks at the ends of a line make no difference to what it does. -/
theorem Session.execute_congr [NaNRule] {a b : String}
    (h : trim isBlank a.toList = trim isBlank b.toList) (s : Session) :
    s.execute a = s.execute b := by
  rw [execute, execute, Command.ofLine, Command.ofLine, h]

theorem isQuit_congr {a b : String} (h : trim isBlank a.toList = trim isBlank b.toList) :
    isQuit a = isQuit b := by
  rw [isQuit, isQuit, h]

/-- A line that asks to stop is one of two words. -/
theorem wordsOf_of_isQuit {line : String} (h : isQuit line = true) :
    Command.wordsOf line.toList = ["quit"] ∨ Command.wordsOf line.toList = ["exit"] := by
  rw [← Command.wordsOf_trim]
  simp only [isQuit, Bool.or_eq_true, decide_eq_true_eq] at h
  rcases h with h | h
  · rw [← String.toList_ofList (l := trim isBlank line.toList), h]
    exact Or.inl (by decide)
  · rw [← String.toList_ofList (l := trim isBlank line.toList), h]
    exact Or.inr (by decide)

/-- A line is read as a text that says the same. -/
theorem exists_lineText?_trim_eq (text : String) :
    ∃ read : String, lineText? (textBytes text ++ [lineFeed]) = some read ∧
      trim isBlank read.toList = trim isBlank text.toList := by
  obtain ⟨read, hread, rfl | rfl⟩ := exists_lineText?_textBytes text
  · exact ⟨text, hread, rfl⟩
  · refine ⟨read, hread, ?_⟩
    rw [String.toList_append]
    exact (trim_append_singleton (by decide) read.toList).symm

theorem Script.runLines_scriptOf [NaNRule] (prompt : Bool) (t : Transcript) {lines : List String}
    (h : ∀ line ∈ lines, '\n' ∉ line.toList ∧ isQuit line = false) :
    runLines prompt t (byteLines (scriptOf lines)) =
      (.endOfInput,
        (lines.foldl (fun t line => (t.askFor prompt).execute line) t).askFor prompt) := by
  induction lines generalizing t with
  | nil => rfl
  | cons line lines ih =>
    obtain ⟨⟨hfeed, hquit⟩, hlines⟩ := List.forall_mem_cons.1 h
    obtain ⟨read, hread, htrim⟩ := exists_lineText?_trim_eq line
    have hline : textBytes (lineOf line) = textBytes line ++ [lineFeed] := textBytes_append _ _
    have hexecute : (t.askFor prompt).execute read = (t.askFor prompt).execute line := by
      rw [Transcript.execute, Transcript.execute, Session.execute_congr htrim]
    rw [scriptOf, List.flatMap_cons, hline, byteLines_textBytes_append hfeed, runLines, hread]
    dsimp only
    rw [isQuit_congr htrim, hquit, if_neg Bool.false_ne_true, hexecute, List.foldl_cons]
    exact ih _ hlines

/-- **A script of texts executes them in order**, if none of them is cut or asks to stop. -/
theorem Script.run_scriptOf [NaNRule] (session : Session) {lines : List String}
    (h : ∀ line ∈ lines, '\n' ∉ line.toList ∧ isQuit line = false) :
    run false session (scriptOf lines) =
      (.endOfInput, lines.foldl Transcript.execute (.start session)) :=
  runLines_scriptOf false (.start session) h

/-! ## Binding by text -/

/-- A binding as arguments give it, its name as a text. -/
def Binding.given (b : Binding) : String × Double := (b.name.text, b.value)

/-- The session in which variables are bound, one after another. -/
def Session.withBindings (s : Session) (bs : List Binding) : Session :=
  { s with bindings := bs.foldl (fun c b => c.bind b.name b.value) s.bindings }

/-- **Names of variables are not refused.** -/
theorem Session.setAll_map_given (s : Session) (bs : List Binding) :
    s.setAll (bs.map Binding.given) = .ok (s.withBindings bs) := by
  induction bs generalizing s with
  | nil => rfl
  | cons b bs ih =>
    rw [List.map_cons, Binding.given, setAll, setVariable, VariableName.ofString_text]
    exact ih _

/-! ## Settings -/

/-- The words of a line that binds a variable. -/
theorem Command.wordsOf_set {name : VariableName}
    (hname : ∀ c ∈ name.text.toList, isBlank c = false) {word : String} {x : Double}
    (hvalue : Number.ofText? word = some x) :
    wordsOf (" ".intercalate ["set", name.text, word]).toList = ["set", name.text, word] := by
  have hne : name.text.toList ≠ [] := (Lexeme.readable_variableNamed name).ne_nil
  have hset : "set".toList ≠ [] ∧ ∀ c ∈ "set".toList, isBlank c = false :=
    ⟨by decide, sep_eq_false_of_all rfl⟩
  refine wordsOf_intercalate ?_
  simp only [List.forall_mem_cons]
  exact ⟨hset, ⟨hne, hname⟩, Lexeme.word_of_ofText? hvalue, by simp⟩

/-- A variable to bind, and the word for its value.  In the name stands no blank, and no equals
sign, at which an option would be cut. -/
structure Setting where
  name : VariableName
  word : String
  value : Double
  name_clear : ∀ c ∈ name.text.toList, isBlank c = false ∧ c ≠ '='
  reads : Number.ofText? word = some value

namespace Setting

/-- The arguments that ask for the binding. -/
def args (x : Setting) : List String := ["--var", x.name.text ++ "=" ++ x.word]

/-- The line that makes the binding. -/
def line (x : Setting) : String := " ".intercalate ["set", x.name.text, x.word]

def binding (x : Setting) : Binding := ⟨x.name, x.value⟩

def given (x : Setting) : String × Double := x.binding.given

/-- What the line prints. -/
def confirmation (x : Setting) : String := lineOf (Session.bindingText x.name.text x.value)

/-! ### As a line -/

theorem wordsOf_line (x : Setting) :
    Command.wordsOf x.line.toList = ["set", x.name.text, x.word] :=
  Command.wordsOf_set (fun c hc => (x.name_clear c hc).1) x.reads

theorem isQuit_line (x : Setting) : isQuit x.line = false := by
  refine Bool.eq_false_iff.2 fun hquit => ?_
  rcases wordsOf_of_isQuit hquit with h | h
  · rw [x.wordsOf_line] at h
    simp at h
  · rw [x.wordsOf_line] at h
    simp at h

theorem lineFeed_notMem_line (x : Setting) : '\n' ∉ x.line.toList := by
  refine lineFeed_notMem_intercalate fun word hword => ?_
  rcases List.mem_cons.1 hword with rfl | hword
  · decide
  · rcases List.mem_pair.1 hword with rfl | rfl
    · exact x.name.lineFeed_notMem_text
    · exact fun h => absurd ((Lexeme.word_of_ofText? x.reads).2 _ h) (by decide)

/-- **The line makes the binding and says so.** -/
theorem execute_line [NaNRule] (x : Setting) (t : Transcript) :
    t.execute x.line =
      ⟨t.output ++ x.confirmation, t.errors,
        { t.session with bindings := t.session.bindings.bind x.name x.value }⟩ := by
  have hne : Session.bindingText x.name.text x.value ≠ "" := fun h => by
    have hchars := congrArg String.toList h
    simp [Session.bindingText] at hchars
  rw [Transcript.execute, Session.execute_of_wordsOf_set _ x.wordsOf_line x.reads]
  dsimp only
  rw [if_neg hne]
  rfl

/-! ### As arguments -/

theorem readOnto_args (x : Setting) (i : Invocation) (rest : List String) :
    Invocation.readOnto i (x.args ++ rest) =
      Invocation.readOnto (i.followedBy ⟨[x.given], none, false⟩) rest := by
  have hbinding := Invocation.readBinding_eq_ok (fun c hc => (x.name_clear c hc).2) x.reads
  rw [args, (Invocation.Gives.separate _).readOnto_eq, hbinding]
  rfl

end Setting

/-! ## Settings in order -/

/-- What the lines of the settings print. -/
def confirmations (settings : List Setting) : String :=
  String.join (settings.map Setting.confirmation)

/-- **The last value of a name counts.** -/
theorem value?_withBindings_settings (s : Session) (settings : List Setting) (name : String) :
    (s.withBindings (settings.map Setting.binding)).bindings.value? name =
      ((settings.reverse.find? fun x => x.name.text == name).map Setting.value).or
        (s.bindings.value? name) := by
  have hfold : (s.withBindings (settings.map Setting.binding)).bindings =
      (settings.reverse.map Setting.binding).foldr (fun x b => b.bind x.name x.value)
        s.bindings := by
    rw [Session.withBindings, List.foldl_eq_foldr_reverse, List.map_reverse]
  rw [hfold, Bindings.value?_foldr_bind, List.find?_map, Option.map_map]
  rfl

theorem foldl_execute_line [NaNRule] (t : Transcript) (settings : List Setting) :
    (settings.map Setting.line).foldl Transcript.execute t =
      ⟨t.output ++ confirmations settings, t.errors,
        t.session.withBindings (settings.map Setting.binding)⟩ := by
  induction settings generalizing t with
  | nil => simp [confirmations, Session.withBindings]
  | cons x settings ih =>
    rw [List.map_cons, List.foldl_cons, x.execute_line, ih]
    simp [confirmations, Setting.binding, Session.withBindings, String.append_assoc]

namespace Invocation

theorem readOnto_settings (settings : List Setting) (i : Invocation) (rest : List String) :
    readOnto i (settings.flatMap Setting.args ++ rest) =
      readOnto { i with bindings := i.bindings ++ settings.map Setting.given } rest := by
  induction settings generalizing i with
  | nil => simp
  | cons x settings ih =>
    rw [List.flatMap_cons, List.append_assoc, x.readOnto_args, ih]
    simp [followedBy]

/-- What options and a command behind them ask for. -/
theorem ofArgs_settings {arg : String} (hhelp : arg ≠ "-h") (hoption : looksLikeOption arg = false)
    (settings : List Setting) (args : List String) :
    ofArgs (settings.flatMap Setting.args ++ arg :: args) =
      .ok ⟨settings.map Setting.given, some (" ".intercalate (arg :: args)), false⟩ := by
  rw [ofArgs, readOnto_settings, readOnto_command hhelp hoption]
  rfl

end Invocation

namespace Program

theorem sessionOf_settings [NaNRule] (settings : List Setting) (command : Option String)
    (help : Bool) :
    sessionOf ⟨settings.map Setting.given, command, help⟩ =
      .ok (Session.new.withBindings (settings.map Setting.binding)) := by
  have hgiven : Setting.given = Binding.given ∘ Setting.binding := rfl
  rw [sessionOf, hgiven, ← List.map_map, Session.setAll_map_given]

/-- One command prints what it prints as the only line of a script. -/
theorem execute_start [NaNRule] (s : Session) (line : String) :
    (Transcript.start s).execute line =
      ⟨(runCommand s line).output, (runCommand s line).errors, (s.execute line).2⟩ := by
  rw [Transcript.execute, Transcript.start, runCommand]
  dsimp only
  rcases s.execute line with ⟨result, session⟩
  cases result with
  | ok text => simp
  | error e => simp

theorem status_runCommand [NaNRule] (s : Session) (line : String) :
    (runCommand s line).status = if (runCommand s line).errors = "" then 0 else 1 := by
  rw [runCommand]
  cases (s.execute line).1 with
  | ok text => rfl
  | error e =>
    have hne : errorLine e.message ≠ "" := fun h => by
      have hchars := congrArg String.toList h
      simp [errorLine, lineOf] at hchars
    exact (if_neg hne).symm

/-- **One command and a script agree.**  Options bind what the lines `set` of a script bind, with
the same values, of several for one name the last.  These lines never fail.  Behind them a
command that is given with the arguments prints, to the output and to the errors, what it prints
as the next line of the script, and the status says whether it failed. -/
theorem run_settings_command [NaNRule] (settings : List Setting) {arg : String} {args : List String}
    (hhelp : arg ≠ "-h") (hoption : Invocation.looksLikeOption arg = false)
    (hfeed : '\n' ∉ (" ".intercalate (arg :: args)).toList)
    (hquit : isQuit (" ".intercalate (arg :: args)) = false) (prompt : Bool)
    (input : List UInt8) :
    let line := " ".intercalate (arg :: args)
    let outcome := run prompt (settings.flatMap Setting.args ++ arg :: args) input
    ∃ session : Session,
      Script.run false .new (scriptOf (settings.map Setting.line)) =
        (.endOfInput, ⟨confirmations settings, "", session⟩) ∧
      (∃ after, Script.run false .new (scriptOf (settings.map Setting.line ++ [line])) =
        (.endOfInput, ⟨confirmations settings ++ outcome.output, outcome.errors, after⟩)) ∧
      (outcome.status = if outcome.errors = "" then 0 else 1) ∧
      (∃ i, Invocation.ofArgs (settings.flatMap Setting.args ++ arg :: args) = .ok i ∧
        sessionOf i = .ok session) ∧
      ∀ name, session.bindings.value? name =
        (settings.reverse.find? fun x => x.name.text == name).map Setting.value := by
  dsimp only
  have hread := Invocation.ofArgs_settings hhelp hoption settings args
  have hrun : run prompt (settings.flatMap Setting.args ++ arg :: args) input =
      runCommand (Session.new.withBindings (settings.map Setting.binding))
        (" ".intercalate (arg :: args)) := by
    rw [run, hread]
    dsimp only
    rw [if_neg Bool.false_ne_true, sessionOf_settings]
  have hlines : ∀ line ∈ settings.map Setting.line, '\n' ∉ line.toList ∧ isQuit line = false := by
    intro line hline
    obtain ⟨x, -, rfl⟩ := List.mem_map.1 hline
    exact ⟨x.lineFeed_notMem_line, x.isQuit_line⟩
  have hall := List.forall_mem_append.2 ⟨hlines, List.forall_mem_singleton.2 ⟨hfeed, hquit⟩⟩
  rw [hrun]
  refine ⟨Session.new.withBindings (settings.map Setting.binding), ?_, ⟨?_, ?_⟩,
    status_runCommand _ _, ⟨_, hread, sessionOf_settings _ _ _⟩, fun name => ?_⟩
  · rw [Script.run_scriptOf _ hlines, foldl_execute_line]
    simp [Transcript.start]
  · exact ((Session.new.withBindings (settings.map Setting.binding)).execute
      (" ".intercalate (arg :: args))).2
  · rw [Script.run_scriptOf _ hall, List.foldl_append, foldl_execute_line, List.foldl_cons,
      List.foldl_nil,
      ← Transcript.followedBy_start ⟨_, _, _⟩, Transcript.execute_followedBy, execute_start]
    simp [Transcript.followedBy, Transcript.start]
  · rw [value?_withBindings_settings]
    exact Option.or_none

/-- Of two values for one name the last is divided, and the session of a script divides it too. -/
theorem run_settings_command_quotient :
    "eval" ≠ "-h" ∧ Invocation.looksLikeOption "eval" = false ∧
      '\n' ∉ "eval x 2 /".toList ∧ isQuit "eval x 2 /" = false ∧
      (Script.run false .new (scriptOf ["set x 1", "set x 3", "eval x 2 /"])).2.output =
        "x = 1.0\nx = 3.0\n" ++
          (run false ["--var", "x=1", "--var", "x=3", "eval", "x", "2", "/"] []).output ∧
      (run false ["--var", "x=1", "--var", "x=3", "eval", "x", "2", "/"] []).output = "1.5\n" ∧
      (run false ["--var", "x=1", "--var", "x=3", "eval", "x", "2", "/"] []).status = 0 := by
  have hhelp : "eval" ≠ "-h" := by decide
  have hoption : Invocation.looksLikeOption "eval" = false := by decide
  have hfeed : '\n' ∉ (" ".intercalate ["eval", "x", "2", "/"]).toList := by decide +kernel
  have hquit : isQuit (" ".intercalate ["eval", "x", "2", "/"]) = false := by decide +kernel
  have hclear : ∀ c ∈ "x".toList, isBlank c = false ∧ c ≠ '=' := by
    intro c hc
    obtain rfl := List.mem_singleton.1 hc
    decide
  let one : Setting := ⟨⟨"x", rfl⟩, "1", 1, hclear, by decide +kernel⟩
  let three : Setting := ⟨⟨"x", rfl⟩, "3", 3, hclear, by decide +kernel⟩
  have htexts : String.join
      [lineOf (Session.bindingText "x" 1), lineOf (Session.bindingText "x" 3)] =
        "x = 1.0\nx = 3.0\n" := by decide +kernel
  have hconfirmations : confirmations [one, three] = "x = 1.0\nx = 3.0\n" := htexts
  obtain ⟨session, -, ⟨after, hscript⟩, hstatus, -, -⟩ :=
    run_settings_command [one, three] hhelp hoption hfeed hquit false []
  rw [hconfirmations] at hscript
  have herrors :
      (run false ["--var", "x=1", "--var", "x=3", "eval", "x", "2", "/"] []).errors = "" := by
    decide +kernel
  refine ⟨hhelp, hoption, hfeed, hquit, congrArg (fun r => r.2.output) hscript, ?_,
    hstatus.trans (if_pos herrors)⟩
  decide +kernel

end Program

end ReversePolish
