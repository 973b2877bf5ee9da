import ReversePolish.Proofs.Expr.NormalForm
import ReversePolish.Proofs.Session.Listing
import ReversePolish.Proofs.Session.Reports

/-!
# What a line is answered stands on one line

Two kinds of text could bring a line feed into what a session prints: the line that it carries out,
and the names of functions, which may hold any character.

A report repeats only pieces of the line, so it has a line feed only if the line has one
(`lineFeed_notMem_message`).  An answer repeats no more than words of the line.  Words have no gap,
and a function is found only under a word, so in whatever library an expression is read, its
functions have no gap in their names, and its notations have no line feed
(`lineFeed_notMem_toInfix`, `lineFeed_notMem_toPostfix`).  Simplifying it brings nothing in but
numbers.  So every command but the two that print lists prints one line at most
(`lineFeed_notMem_of_run_eq_ok`).
-/

namespace ReversePolish

theorem lineFeed_notMem_repr (n : ℕ) : '\n' ∉ (Nat.repr n).toList := by
  rw [Nat.toList_repr]
  intro hmem
  exact absurd (Nat.isDigit_of_mem_toDigits (by decide) (by decide) hmem) (by decide)

/-! ## Reports -/

theorem NameError.lineFeed_notMem_message (cause : NameError) : '\n' ∉ cause.message.toList := by
  cases cause <;> decide

/-- **A report about a line has a line feed only if the line has one.** -/
theorem CommandError.Quotes.lineFeed_notMem_message {line : List Char} {e : CommandError}
    (h : e.Quotes line) (hline : '\n' ∉ line) : '\n' ∉ e.message.toList := by
  have hpiece : ∀ {text : String}, text.toList <:+: line → '\n' ∉ text.toList :=
    fun hpart hmem => hline (hpart.subset hmem)
  have hbetween : ∀ {before text after : String}, text.toList <:+: line → '\n' ∉ before.toList →
      '\n' ∉ after.toList → '\n' ∉ (before ++ text ++ after).toList :=
    fun hpart hbefore hafter =>
      lineFeed_notMem_append (lineFeed_notMem_append hbefore (hpiece hpart)) hafter
  cases h with
  | unknownCommand h => exact hbetween h (by decide) (by decide)
  | usage h =>
    have hforms : ∀ form ∈ Command.forms, '\n' ∉ form.toList := by decide
    exact lineFeed_notMem_append (by decide) (hforms _ h)
  | invalidNumber h => exact hbetween h (by decide) (by decide)
  | incomplete depth h =>
    have hdepth := lineFeed_notMem_repr depth
    refine lineFeed_notMem_append (lineFeed_notMem_append ?_ hdepth) (by decide)
    exact hbetween h (by decide) (by decide)
  | undefinedFunction h => exact hbetween h (by decide) (by decide)
  | unbound h => exact hbetween h (by decide) (by decide)
  | invalidName cause => exact cause.lineFeed_notMem_message

/-! ## Expressions -/

namespace Expr

variable {e : Expr}

/-- Simplification calls no other functions. -/
theorem Callable.simplify [NaNRule] (h : e.Callable) (b : Bindings) : (e.simplify b).Callable := by
  intro f hf
  have hnode := mem_postorder_simplify (call_mem_postorder_iff.2 ⟨f, hf, rfl⟩)
  obtain ⟨g, hg, hname⟩ := call_mem_postorder_iff.1 (hnode.resolve_left nofun)
  rw [← hname]
  exact h g hg

theorem lineFeed_notMem_infixOnto (h : e.Callable) {rest : List Char} (hrest : '\n' ∉ rest) :
    '\n' ∉ e.infixOnto rest := by
  induction e generalizing rest with
  | const v =>
    rw [infixOnto, List.mem_append, not_or]
    exact ⟨by simpa [Number.text] using Number.lineFeed_notMem_text v, hrest⟩
  | var name =>
    rw [infixOnto, List.mem_append, not_or]
    exact ⟨name.lineFeed_notMem_text, hrest⟩
  | binary op l r ihl ihr =>
    obtain ⟨hl, hr⟩ := List.forall_mem_append.1 h
    have hop : '\n' ∉ op.symbol.toList :=
      lineFeed_notMem_of_noGap (Lexeme.readable_operator op).noGap
    have hright : '\n' ∉ r.infixOnto (')' :: rest) := ihr hr (by simpa using hrest)
    have hleft : '\n' ∉ l.infixOnto
        (' ' :: (op.symbol.toList ++ ' ' :: r.infixOnto (')' :: rest))) :=
      ihl hl (by simpa using ⟨hop, hright⟩)
    simpa [infixOnto] using hleft
  | cond c t f ihc iht ihf =>
    obtain ⟨hct, hf⟩ := List.forall_mem_append.1 h
    obtain ⟨hc, ht⟩ := List.forall_mem_append.1 hct
    have hfalse : '\n' ∉ f.infixOnto (')' :: rest) := ihf hf (by simpa using hrest)
    have htrue : '\n' ∉ t.infixOnto (' ' :: ':' :: ' ' :: f.infixOnto (')' :: rest)) :=
      iht ht (by simpa using hfalse)
    have hcond : '\n' ∉ c.infixOnto
        (' ' :: '?' :: ' ' :: t.infixOnto (' ' :: ':' :: ' ' :: f.infixOnto (')' :: rest))) :=
      ihc hc (by simpa using htrue)
    simpa [infixOnto] using hcond
  | call g a ih =>
    obtain ⟨ha, hg⟩ := List.forall_mem_append.1 h
    have hname := lineFeed_notMem_of_noGap (hg g (List.mem_singleton_self g))
    have hargument : '\n' ∉ a.infixOnto (')' :: rest) := ih ha (by simpa using hrest)
    simpa [infixOnto] using ⟨hname, hargument⟩

/-- **Infix notation is on one line.** -/
theorem lineFeed_notMem_toInfix (h : e.Callable) : '\n' ∉ e.toInfix.toList := by
  rw [toInfix, String.toList_ofList]
  exact lineFeed_notMem_infixOnto h List.not_mem_nil

/-- **Postfix notation is on one line.** -/
theorem lineFeed_notMem_toPostfix (h : e.Callable) : '\n' ∉ e.toPostfix.toList := by
  refine lineFeed_notMem_intercalate fun word hword => ?_
  obtain ⟨x, hx, rfl⟩ := List.mem_map.1 hword
  exact lineFeed_notMem_of_noGap (readable_of_mem_postorder h x hx).noGap

theorem lineFeed_notMem_freeVariables (e : Expr) :
    '\n' ∉ (" ".intercalate e.freeVariables).toList := by
  refine lineFeed_notMem_intercalate fun x hx => ?_
  obtain ⟨name, rfl⟩ := exists_text_eq_of_mem_names (mem_freeVariables_iff.1 hx)
  exact name.lineFeed_notMem_text

end Expr

/-! ## Answers -/

namespace Session

variable {s : Session} {source text : String}

/-- An answer about an expression is on one line, if what is said of callable ones is. -/
theorem lineFeed_notMem_of_about {report : Expr → Except CommandError String}
    (hreport : ∀ e : Expr, e.Callable → ∀ text, report e = .ok text → '\n' ∉ text.toList)
    (h : s.about source report = .ok text) : '\n' ∉ text.toList := by
  rw [about] at h
  cases hread : Expr.ofSource s.library source with
  | ok e =>
    rw [hread] at h
    exact hreport e (Expr.callable_of_ofSource hread) text h
  | error cause =>
    rw [hread] at h
    cases h

/-- What can be said of every expression is on one line, if it is for callable ones. -/
theorem lineFeed_notMem_of_about_ok {answer : Expr → String}
    (hanswer : ∀ e : Expr, e.Callable → '\n' ∉ (answer e).toList)
    (h : (s.about source fun e => .ok (answer e)) = .ok text) : '\n' ∉ text.toList := by
  refine lineFeed_notMem_of_about (fun e he text htext => ?_) h
  rw [← Except.ok.inj htext]
  exact hanswer e he

/-- **A command that prints no list prints one line at most.** -/
theorem lineFeed_notMem_of_run_eq_ok [NaNRule] {command : Command} (hlist : command ≠ .list)
    (hhelp : command ≠ .help) (h : (s.run command).1 = .ok text) : '\n' ∉ text.toList := by
  cases command with
  | list => exact absurd rfl hlist
  | help => exact absurd rfl hhelp
  | set name value =>
    rw [run, setVariable] at h
    cases hname : VariableName.ofString name with
    | ok n =>
      rw [hname] at h
      rw [← Except.ok.inj h, ← VariableName.ofString_eq_ok_iff.1 hname]
      exact lineFeed_notMem_bindingText ⟨n, value⟩
    | error cause =>
      rw [hname] at h
      cases h
  | unset name =>
    rw [← Except.ok.inj h]
    decide
  | clear =>
    rw [← Except.ok.inj h]
    decide
  | eval source =>
    refine lineFeed_notMem_of_about (fun e _ text htext => ?_) h
    rw [valueText] at htext
    cases heval : e.eval s.bindings with
    | ok v =>
      rw [heval] at htext
      rw [← Except.ok.inj htext]
      exact Number.lineFeed_notMem_text v
    | error u =>
      rw [heval] at htext
      cases htext
  | inInfix source => exact lineFeed_notMem_of_about_ok (fun _ => Expr.lineFeed_notMem_toInfix) h
  | inPostfix source =>
    exact lineFeed_notMem_of_about_ok (fun _ => Expr.lineFeed_notMem_toPostfix) h
  | worstCost source =>
    exact lineFeed_notMem_of_about_ok (fun e _ => lineFeed_notMem_repr e.worstCost) h
  | simplify source =>
    refine lineFeed_notMem_of_about_ok (fun e he => ?_) h
    exact Expr.lineFeed_notMem_toInfix (he.simplify s.bindings)
  | freeVariables source =>
    exact lineFeed_notMem_of_about_ok (fun e _ => e.lineFeed_notMem_freeVariables) h

/-! ## Lines -/

variable {line : String}

/-- **A line without a line feed is reported without one.** -/
theorem lineFeed_notMem_of_execute_eq_error [NaNRule] (hline : '\n' ∉ line.toList)
    {e : CommandError} (h : (s.execute line).1 = .error e) : '\n' ∉ e.message.toList :=
  (quotes_execute h).lineFeed_notMem_message hline

/-- **A line that asks for no list is answered without a line feed**, even if it has one. -/
theorem lineFeed_notMem_of_execute_eq_ok [NaNRule]
    (hfirst : ∀ word ∈ (Command.wordsOf line.toList).head?, word ∉ ["vars", "help"])
    (h : (s.execute line).1 = .ok text) : '\n' ∉ text.toList := by
  rw [execute] at h
  rcases Command.ofLine_cases line with ⟨hline, -⟩ | ⟨command, hline, hphrase⟩ | ⟨e, hline⟩
  · rw [hline] at h
    rw [← Except.ok.inj h]
    decide
  · rw [hline] at h
    obtain ⟨hlist, hhelp⟩ := hphrase.ne_list_and_ne_help hfirst
    exact lineFeed_notMem_of_run_eq_ok hlist hhelp h
  · rw [hline] at h
    cases h

end Session

end ReversePolish
