import ReversePolish.Proofs.Command
import ReversePolish.Proofs.Expr.EvaluationFailure
import ReversePolish.Proofs.Expr.ReadingFailure
import ReversePolish.Proofs.Token
import ReversePolish.Proofs.VariableName
import ReversePolish.Session

/-!
# What reports repeat

The report of a failing line may repeat something: an unknown word, a text that is no number, a
source that is no expression, the name of a function or of a variable.  Each of these is cut out of
the line in one piece (`CommandError.Quotes`, `quotes_execute`).  Nothing comes from elsewhere, so
what a session binds and how its functions are called does not get into a report.

The piece is followed from the line inwards.  A line is read from two pieces of it
(`Command.exists_infix_ofLine_eq`); a source is the second of them; and the names that can be
reported when it is read or evaluated stand in its words (`infix_of_call_mem_kinds`,
`infix_of_variableNamed_mem_kinds`).
-/

namespace ReversePolish

/-! ## Pieces of a source -/

namespace Token

variable {source name : String}

/-- The text of a token is one piece of the source. -/
theorem infix_text_of_mem_scan {t : Token} (h : t ∈ scan source) :
    t.text.toList <:+: source.toList := by
  obtain ⟨word, hword, rfl⟩ := List.mem_map.1 h
  rw [text_ofWord, String.toList_ofList]
  exact infix_of_mem_words hword

theorem infix_of_variableNamed_mem_kinds (h : .variableNamed name ∈ kinds source) :
    name.toList <:+: source.toList := by
  obtain ⟨t, ht, hlexeme⟩ := List.mem_map.1 h
  rw [← text_eq_of_variableNamed_mem_scan ht hlexeme]
  exact infix_text_of_mem_scan ht

theorem infix_of_call_mem_kinds (h : .call name ∈ kinds source) :
    name.toList <:+: source.toList := by
  obtain ⟨t, ht, hlexeme⟩ := List.mem_map.1 h
  rw [eq_ofWord_text_of_mem_scan ht, lexeme_ofWord] at hlexeme
  have htext := infix_text_of_mem_scan ht
  rw [Lexeme.eq_append_callMark_of_ofWord hlexeme, String.toList_append] at htext
  exact (List.prefix_append _ _).isInfix.trans htext

end Token

/-! ## Errors about a line -/

/-- The forms of arguments that a report of wrong use states. -/
def Command.forms : List String := ["set <name> <value>", "unset <name>", "vars", "clear", "help"]

/-- What an error repeats is a piece of the line, and the form that it states is one of five. -/
inductive CommandError.Quotes (line : List Char) : CommandError → Prop
  | unknownCommand {word : String} (h : word.toList <:+: line) : Quotes line (.unknownCommand word)
  | usage {form : String} (h : form ∈ Command.forms) : Quotes line (.usage form)
  | invalidNumber {text : String} (h : text.toList <:+: line) : Quotes line (.invalidNumber text)
  | incomplete {source : String} (depth : ℕ) (h : source.toList <:+: line) :
      Quotes line (.source (.incomplete source depth))
  | undefinedFunction {name : String} (h : name.toList <:+: line) :
      Quotes line (.source (.undefinedFunction name))
  | unbound {u : UnboundName} (h : u.name.toList <:+: line) : Quotes line (.unbound u)
  | invalidName (cause : NameError) : Quotes line (.invalidName cause)

variable {line : List Char}

/-! ## Reading a command -/

namespace Command

/-- The source that a command is about. -/
def source? : Command → Option String
  | .eval source => some source
  | .inInfix source => some source
  | .inPostfix source => some source
  | .worstCost source => some source
  | .simplify source => some source
  | .freeVariables source => some source
  | _ => none

/-- What can become of two pieces of a line: a command about a piece of it, or an error about it. -/
def Reads (line : List Char) : Except CommandError Command → Prop
  | .ok command => ∀ source ∈ command.source?, source.toList <:+: line
  | .error e => e.Quotes line

theorem reads_of_source?_eq_none {command : Command} (h : command.source? = none) :
    Reads line (.ok command) := by
  intro source hsource
  rw [h] at hsource
  cases hsource

theorem reads_readSet {rest : List Char} (h : rest <:+: line) : Reads line (readSet rest) := by
  rw [readSet]
  split
  · rename_i name value hwords
    have hvalue : value ∈ words isBlank rest := by
      rw [hwords]
      exact List.mem_cons_of_mem _ List.mem_cons_self
    split
    · exact reads_of_source?_eq_none rfl
    · refine .invalidNumber ?_
      rw [String.toList_ofList]
      exact (infix_of_mem_words hvalue).trans h
  · exact .usage (by decide)

theorem reads_readUnset (rest : List Char) : Reads line (readUnset rest) := by
  rw [readUnset]
  split
  · exact reads_of_source?_eq_none rfl
  · exact .usage (by decide)

theorem reads_readBare {word : String} {command : Command} (hword : word ∈ forms)
    (hcommand : command.source? = none) (rest : List Char) :
    Reads line (readBare word command rest) := by
  rw [readBare]
  split
  · exact reads_of_source?_eq_none hcommand
  · exact .usage hword

/-- **What is read from two pieces of a line** is about the line. -/
theorem reads_ofWord {word : String} {rest : List Char} (hword : word.toList <:+: line)
    (hrest : rest <:+: line) : Reads line (ofWord word rest) := by
  have hsource : ∀ source ∈ some (String.ofList rest), source.toList <:+: line := by
    rintro source ⟨⟩
    rwa [String.toList_ofList]
  unfold ofWord
  split
  · exact reads_readSet hrest
  · exact reads_readUnset rest
  · exact reads_readBare (by decide) rfl rest
  · exact reads_readBare (by decide) rfl rest
  · exact reads_readBare (by decide) rfl rest
  -- the six commands about an expression take the rest as their source
  iterate 6 exact hsource
  · exact .unknownCommand hword

end Command

/-! ## Carrying it out -/

/-- A source that is no expression is reported with the source or with a name in it. -/
theorem quotes_ofSource {library : Library} {source : String} {e : SourceError}
    (hsource : source.toList <:+: line) (h : Expr.ofSource library source = .error e) :
    CommandError.Quotes line (.source e) := by
  rcases Expr.cases_of_ofSource_eq_error h with ⟨depth, rfl⟩ | ⟨name, rfl, hname, -⟩
  · exact .incomplete depth hsource
  · exact .undefinedFunction ((Token.infix_of_call_mem_kinds hname).trans hsource)

/-- The variable that evaluation misses stands in the source. -/
theorem infix_of_eval_eq_error [NaNRule] {library : Library} {source : String} {a : Expr}
    {b : Bindings} {u : UnboundName} (hread : Expr.ofSource library source = .ok a)
    (h : a.eval b = .error u) :
    u.name.toList <:+: source.toList := by
  obtain ⟨hname, -⟩ := Expr.mem_names_of_unbound? (unbound?_eq_some_iff.2 h)
  rw [Expr.mem_names_iff, ← (Expr.ofSource_eq_ok_iff.1 hread).1] at hname
  exact Token.infix_of_variableNamed_mem_kinds hname

namespace Session

variable {s : Session} {source : String} {report : Expr → Except CommandError String}

/-- What is asked about an expression fails where its source is no expression, or where the report
on the expression fails. -/
theorem quotes_about (hsource : source.toList <:+: line)
    (hreport : ∀ a, Expr.ofSource s.library source = .ok a → ∀ e, report a = .error e →
      e.Quotes line) {e : CommandError} (h : s.about source report = .error e) :
    e.Quotes line := by
  rw [about] at h
  cases hread : Expr.ofSource s.library source with
  | ok a =>
    rw [hread] at h
    exact hreport a hread e h
  | error cause =>
    rw [hread] at h
    rw [← Except.error.inj h]
    exact quotes_ofSource hsource hread

/-- What can be said of every expression fails only where the source is none. -/
theorem quotes_about_ok {answer : Expr → String} (hsource : source.toList <:+: line)
    {e : CommandError} (h : (s.about source fun a => .ok (answer a)) = .error e) :
    e.Quotes line := by
  refine quotes_about hsource (fun a _ e he => ?_) h
  cases he

theorem quotes_valueText [NaNRule] {a : Expr} (hsource : source.toList <:+: line)
    (hread : Expr.ofSource s.library source = .ok a) {e : CommandError}
    (h : s.valueText a = .error e) : e.Quotes line := by
  rw [valueText] at h
  cases heval : a.eval s.bindings with
  | ok v =>
    rw [heval] at h
    cases h
  | error u =>
    rw [heval] at h
    rw [← Except.error.inj h]
    exact .unbound ((infix_of_eval_eq_error hread heval).trans hsource)

/-- **A command about a piece of a line fails with an error about the line.** -/
theorem quotes_run [NaNRule] {command : Command}
    (hsource : ∀ source ∈ command.source?, source.toList <:+: line) {e : CommandError}
    (h : (s.run command).1 = .error e) : e.Quotes line := by
  cases command with
  | set name value =>
    rw [run, setVariable] at h
    cases hname : VariableName.ofString name with
    | ok n =>
      rw [hname] at h
      cases h
    | error cause =>
      rw [hname] at h
      rw [← Except.error.inj h]
      exact .invalidName cause
  | unset name => cases h
  | list => cases h
  | clear => cases h
  | help => cases h
  | eval source =>
    refine quotes_about (hsource source rfl) (fun a hread e he => ?_) h
    exact quotes_valueText (hsource source rfl) hread he
  | inInfix source => exact quotes_about_ok (hsource source rfl) h
  | inPostfix source => exact quotes_about_ok (hsource source rfl) h
  | worstCost source => exact quotes_about_ok (hsource source rfl) h
  | simplify source => exact quotes_about_ok (hsource source rfl) h
  | freeVariables source => exact quotes_about_ok (hsource source rfl) h

/-- **What the report of a failing line repeats is a piece of the line.** -/
theorem quotes_execute [NaNRule] {line : String} {e : CommandError}
    (h : (s.execute line).1 = .error e) :
    e.Quotes line.toList := by
  rw [execute] at h
  rcases Command.exists_infix_ofLine_eq line with hline | ⟨word, rest, hword, hrest, hline⟩
  · rw [hline] at h
    cases h
  · have hreads := Command.reads_ofWord hword hrest
    rw [hline] at h
    cases hread : Command.ofWord word rest with
    | ok command =>
      rw [hread] at h hreads
      exact quotes_run hreads h
    | error cause =>
      rw [hread] at h hreads
      rw [← Except.error.inj h]
      exact hreads

end Session

end ReversePolish
