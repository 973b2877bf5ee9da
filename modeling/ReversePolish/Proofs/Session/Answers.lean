import ReversePolish.Proofs.Command
import ReversePolish.Proofs.Expr.Agreement
import ReversePolish.Proofs.Expr.FreeVariables
import ReversePolish.Session

/-!
# What a line about an expression answers

A line may ask something about an expression: its value, its notations, its cost, what is
left of it under the bindings, its variables.  The expression is written into the line, and
what is answered is about what the session reads there.  When an expression is written in
postfix notation, the answer is about this very expression (`execute_toPostfix`).

Three things could come between.  The line is trimmed at all blanks, so the notation must not
begin or end with one; its words have none if the names in the expression have none
(`trim_toPostfix`).  The expression is read over the library of the session, so its
functions must be those of the library (`about_toPostfix`).  And what is read is its canonical
form, since a text does not say which not-a-number a constant was.  That is the same expression,
so it is counted, listed and written as the expression is; it has the value of the expression if
the functions do not tell one not-a-number from another.
-/

namespace ReversePolish

namespace Expr

/-- No blank stands in the names of an expression. -/
structure Unbroken (e : Expr) : Prop where
  names : ∀ name ∈ e.names, ∀ c ∈ name.toList, isBlank c = false
  functions : ∀ f ∈ e.functions, ∀ c ∈ f.name.toList, isBlank c = false

variable {e : Expr}

/-- The nodes are words without a blank. -/
theorem Unbroken.of_mem_postorder (h : e.Unbroken) : ∀ x ∈ e.postorder, x.Unbroken :=
  forall_mem_postorder Lexeme.unbroken_number Lexeme.unbroken_operator
    Lexeme.unbroken_conditional (fun name hname => h.names name.text hname)
    fun f hf => Lexeme.unbroken_call (h.functions f hf)

theorem Unbroken.callable (h : e.Unbroken) : e.Callable := fun f hf c hc =>
  isGap_eq_false_of_isBlank_eq_false (h.functions f hf c hc)

/-- **Postfix notation has nothing to trim.** -/
theorem trim_toPostfix (h : e.Unbroken) :
    trim isBlank e.toPostfix.toList = e.toPostfix.toList := by
  rw [toPostfix, String.toList_intercalate]
  refine trim_intercalate _ fun word hword => ?_
  obtain ⟨text, htext, rfl⟩ := List.mem_map.1 hword
  obtain ⟨x, hx, rfl⟩ := List.mem_map.1 htext
  exact ⟨(readable_of_mem_postorder h.callable x hx).ne_nil, h.of_mem_postorder x hx⟩

/-- The free variables can be cut apart again, if there are any. -/
theorem intercalate_freeVariables (h : e.Unbroken) :
    if e.names = [] then " ".intercalate e.freeVariables = ""
    else ((" ".intercalate e.freeVariables).split ' ').toList.map (·.copy) = e.freeVariables := by
  have hspace : ∀ name ∈ e.freeVariables, ' ' ∉ name.toList := by
    intro name hname hmem
    have hblank := h.names name (mem_freeVariables_iff.1 hname) ' ' hmem
    exact absurd hblank (by decide)
  split
  · rename_i hnone
    rw [freeVariables_eq_nil_iff.2 hnone]
    rfl
  · rename_i hsome
    exact (String.toList_split_intercalate hspace).trans
      (if_neg (mt freeVariables_eq_nil_iff.1 hsome))

end Expr

namespace Session

variable {s : Session} {e : Expr}

/-- **What is asked about a written expression is answered about its canonical form.** -/
theorem about_toPostfix (hlibrary : e.Resolved s.library) (h : e.Unbroken)
    (report : Expr → Except CommandError String) :
    s.about e.toPostfix report = report e.canonical := by
  rw [about, Expr.ofSource_toPostfix hlibrary h.callable]

/-- A line that asks for a report on the written expression gives the report. -/
theorem fst_execute_toPostfix [NaNRule] (hlibrary : e.Resolved s.library) (h : e.Unbroken)
    (word : String) (command : String → Command)
    (hcommand : (word, command) ∈ Command.aboutExpression)
    {report : Expr → Except CommandError String}
    (hreport : (s.run (command e.toPostfix)).1 = s.about e.toPostfix report) :
    (s.execute (word ++ " " ++ e.toPostfix)).1 = report e.canonical := by
  rw [execute, Command.ofLine_of_mem_aboutExpression hcommand, Expr.trim_toPostfix h,
    String.ofList_toList]
  exact hreport.trans (about_toPostfix hlibrary h report)

/-- The same results are written alike. -/
theorem valueText_eq_of_sameResult [NaNRule] {a b : Expr}
    (h : sameResult (a.eval s.bindings) (b.eval s.bindings)) :
    s.valueText a = s.valueText b := by
  obtain ⟨u, ha, hb⟩ | ⟨x, y, ha, hb, hxy⟩ := sameResult_cases h
  · rw [valueText, valueText, ha, hb]
  · rw [valueText, valueText, ha, hb]
    exact congrArg Except.ok (Number.text_eq_of_sameConstant hxy)

/-- **Lines answer about an expression what there is to say about it**, if its functions are
those of the library and no blank stands in its names.  For its value, and for what is left of it
under the bindings, the functions must compute the same constants from the same constants. -/
theorem execute_toPostfix [NaNRule] (s : Session) {e : Expr} (hlibrary : e.Resolved s.library)
    (h : e.Unbroken) :
    ((∀ f ∈ e.functions, f.Agrees f) →
      (s.execute ("eval " ++ e.toPostfix)).1 =
        ((e.eval s.bindings).map Number.text).mapError .unbound ∧
      (s.execute ("optimize " ++ e.toPostfix)).1 = .ok (e.simplify s.bindings).toInfix) ∧
    (s.execute ("infix " ++ e.toPostfix)).1 = .ok e.toInfix ∧
    (s.execute ("postfix " ++ e.toPostfix)).1 = .ok e.toPostfix ∧
    (s.execute ("opcount " ++ e.toPostfix)).1 = .ok (Nat.repr e.worstCost) ∧
    (∃ text, (s.execute ("deps " ++ e.toPostfix)).1 = .ok text ∧
      if e.names = [] then text = ""
      else (text.split ' ').toList.map (·.copy) = e.freeVariables) ∧
    e.freeVariables.Pairwise (· < ·) ∧ ∀ name, name ∈ e.freeVariables ↔ name ∈ e.names := by
  have hanswer := fst_execute_toPostfix hlibrary h
  have hsame := e.canonical_same
  have halike (hagree : ∀ f ∈ e.functions, f.Agrees f) : Expr.Alike e.canonical e :=
    Expr.alike_of_resolved (Expr.resolved_canonical_iff.2 hlibrary) hlibrary
      (e.functions_canonical ▸ hagree) hsame
  refine ⟨fun hagree => ⟨?_, ?_⟩, ?_, ?_, ?_,
    ⟨" ".intercalate e.freeVariables, ?_, Expr.intercalate_freeVariables h⟩,
    Expr.pairwise_freeVariables e, fun name => Expr.mem_freeVariables_iff⟩
  · have hvalue : sameResult (e.canonical.eval s.bindings) (e.eval s.bindings) :=
      (halike hagree).eval s.bindings
    refine (hanswer "eval" .eval (by simp [Command.aboutExpression]) rfl).trans ?_
    rw [valueText_eq_of_sameResult hvalue, valueText]
    cases e.eval s.bindings with
    | ok v => rfl
    | error u => rfl
  · have hleft : (e.canonical.simplify s.bindings).same (e.simplify s.bindings) :=
      ((halike hagree).simplify s.bindings).same
    refine (hanswer "optimize" .simplify (by simp [Command.aboutExpression]) rfl).trans ?_
    rw [Expr.toInfix_eq_of_same hleft]
  · refine (hanswer "infix" .inInfix (by simp [Command.aboutExpression]) rfl).trans ?_
    rw [Expr.toInfix_eq_of_same hsame]
  · refine (hanswer "postfix" .inPostfix (by simp [Command.aboutExpression]) rfl).trans ?_
    rw [Expr.toPostfix_eq_of_same hsame]
  · refine (hanswer "opcount" .worstCost (by simp [Command.aboutExpression]) rfl).trans ?_
    rw [Expr.worstCost_eq_of_same hsame]
  · refine (hanswer "deps" .freeVariables (by simp [Command.aboutExpression]) rfl).trans ?_
    rw [Expr.freeVariables_eq_of_same hsame]

/-- The root of a product, asked about where nothing is bound. -/
theorem execute_toPostfix_root :
    (new.execute "eval y x * sqrt()").1 = .error (.unbound ⟨"y"⟩) ∧
      (new.execute "infix y x * sqrt()").1 = .ok "sqrt((y * x))" ∧
      ∃ text, (new.execute "deps y x * sqrt()").1 = .ok text ∧
        (text.split ' ').toList.map (·.copy) = ["x", "y"] := by
  let product : Expr := .binary .mul (.var ⟨"y", rfl⟩) (.var ⟨"x", rfl⟩)
  let root : Expr := .call (.computed "sqrt" Float.sqrt (by decide)) product
  have hlibrary : root.Resolved new.library := by
    refine Expr.resolved_call.2 ⟨Expr.resolved_binary.2 ⟨?_, ?_⟩, rfl⟩
    · exact Expr.resolved_var _
    · exact Expr.resolved_var _
  have hunbroken : root.Unbroken := by
    constructor
    · intro name hname
      rcases List.mem_pair.1 hname with rfl | rfl
      · exact sep_eq_false_of_all rfl
      · exact sep_eq_false_of_all rfl
    · intro f hf
      obtain rfl := List.mem_singleton.1 hf
      exact sep_eq_false_of_all rfl
  have hagree : ∀ f ∈ root.functions, f.Agrees f :=
    List.forall_mem_singleton.2 NamedFunction.agrees_computed
  obtain ⟨hvalue, hinfix, -, -, ⟨text, hdeps, hsplit⟩, -⟩ :=
    execute_toPostfix new hlibrary hunbroken
  obtain ⟨heval, -⟩ := hvalue hagree
  refine ⟨heval, hinfix, text, hdeps, ?_⟩
  rw [if_neg (by decide)] at hsplit
  rw [hsplit]
  cbv

end Session

end ReversePolish
