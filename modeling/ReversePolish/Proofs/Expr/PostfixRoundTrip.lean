import ReversePolish.Proofs.Expr.Listing
import ReversePolish.Proofs.Expr.Nodes

/-!
# What is written is read, and what is read is written

An expression is written as the words for its nodes.  They are scanned as the same
nodes if every one of them can be read back, and the only ones that may fail to be
are calls: the name of a function may have a gap in it, and then the words of the
source are others than were written.  What is lost is which not-a-numbers there were,
so what is read back is the canonical form.

* `exists_ofSource_toPostfix_iff`: over the library that its functions come from, an
  expression is read back from its postfix notation exactly when the names of its
  functions have no gap.
* `ofSource_iff_listing`: a source is read as an expression exactly when it lists it, it
  lists one expression at most, and writing what was read gives a source of the same
  meanings, from which the same expression is read.

In the converse of the first, a source that was torn apart by a gap might by chance be
read as another expression, or even as one of the same shape.  But the nodes of what is
read are the words of the source, so its calls have names without a gap, and being the
same as the expression that was written it has the same names.
-/

namespace ReversePolish.Expr

variable {library : Library} {source : String} {e : Expr}

/-! ## The words of an expression -/

/-- No gap stands in the names of the functions, so a source can call them. -/
def Callable (e : Expr) : Prop := ∀ f ∈ e.functions, ∀ c ∈ f.name.toList, isGap c = false

/-- Every node can be read back, if the functions can be called. -/
theorem readable_of_mem_postorder (h : e.Callable) : ∀ x ∈ e.postorder, x.Readable :=
  forall_mem_postorder Lexeme.readable_number Lexeme.readable_operator
    Lexeme.readable_conditional (fun name _ => Lexeme.readable_variableNamed name)
    fun f hf => Lexeme.readable_call (h f hf)

/-- **Writing keeps the nodes apart**, if the functions can be called. -/
theorem kinds_toPostfix (h : e.Callable) :
    Token.kinds e.toPostfix = e.postorder.map Lexeme.canonical :=
  Token.kinds_intercalate (readable_of_mem_postorder h)

/-- What is read from a source is callable, whatever the names in the library are. -/
theorem callable_of_ofSource (h : ofSource library source = .ok e) : e.Callable := by
  intro f hf
  have hmem : Lexeme.call f.name ∈ Token.kinds source :=
    (ofSource_eq_ok_iff.1 h).1 ▸ call_mem_postorder_iff.2 ⟨f, hf, rfl⟩
  exact Token.isGap_eq_false_of_call_mem_kinds hmem

/-! ## Reading what was written -/

/-- **What was written is read back in its canonical form.** -/
theorem ofSource_toPostfix (h : e.Resolved library) (hcall : e.Callable) :
    ofSource library e.toPostfix = .ok e.canonical :=
  ofSource_eq_ok_iff.2
    ⟨(kinds_toPostfix hcall).trans e.postorder_canonical.symm, resolved_canonical_iff.2 h⟩

/-- What was read is written with the meanings that were read. -/
theorem kinds_toPostfix_of_ofSource (h : ofSource library source = .ok e) :
    Token.kinds e.toPostfix = Token.kinds source := by
  rw [kinds_toPostfix (callable_of_ofSource h), ← (ofSource_eq_ok_iff.1 h).1,
    Token.map_canonical_kinds]

/-- A variable name by itself is read as the variable, over every library. -/
theorem ofSource_text (library : Library) (name : VariableName) :
    ofSource library name.text = .ok (var name) := by
  have hread := ofSource_toPostfix (resolved_var name : (var name).Resolved library)
    fun f hf => absurd hf List.not_mem_nil
  rwa [toPostfix, postorder_var, List.map_singleton, String.intercalate_singleton] at hread

/-- **Postfix notation can be read back exactly when the names of the functions have no
gap.**  Nothing else in an expression stands in the way, whatever its numbers are. -/
theorem exists_ofSource_toPostfix_iff (h : e.Resolved library) :
    (∃ e', ofSource library e.toPostfix = .ok e' ∧ e' == e) ↔
      ∀ f ∈ e.functions, ∀ c ∈ f.name.toList, isGap c = false := by
  constructor
  · rintro ⟨e', he', hsame⟩
    exact forall_functions_of_same (fun name => ∀ c ∈ name.toList, isGap c = false) hsame
      (callable_of_ofSource he')
  · intro hgap
    exact ⟨e.canonical, ofSource_toPostfix h hgap, e.canonical_same⟩

/-- A function of the standard library is read back; one with a gap in its name is not,
although the library has it. -/
theorem exists_ofSource_toPostfix_sqrt :
    (∃ e', ofSource Library.standard
        (call (.computed "sqrt" Float.sqrt (by decide)) (const 0)).toPostfix = .ok e' ∧
      e' == call (.computed "sqrt" Float.sqrt (by decide)) (const 0)) ∧
    ¬ ∃ e', ofSource (Library.standard.insert ⟨"cube root", id, by decide⟩)
        (call ⟨"cube root", id, by decide⟩ (const 0)).toPostfix = .ok e' ∧
      e' == call ⟨"cube root", id, by decide⟩ (const 0) := by
  constructor
  · refine (exists_ofSource_toPostfix_iff (resolved_call.2 ⟨resolved_const 0, rfl⟩)).2 ?_
    intro f hf
    obtain rfl := List.mem_singleton.1 hf
    exact sep_eq_false_of_all rfl
  · intro h
    have hfind := Catalog.find?_insert_self Library.standard ⟨"cube root", id, by decide⟩
    have hgap := (exists_ofSource_toPostfix_iff
      (resolved_call.2 ⟨resolved_const 0, hfind⟩)).1 h _ List.mem_cons_self
    exact absurd (hgap ' ' (by decide)) (by decide)

/-! ## Reading in general -/

/-- **A source is read as what it lists.**  It lists one expression at most, and written
again this is a source of the same meanings that is read as the same expression. -/
theorem ofSource_iff_listing (library : Library) (source : String) :
    (∀ e, (∃ e', ofSource library source = .ok e' ∧ e' == e) ↔
      Listing library (Token.kinds source) e) ∧
    (∀ a b, Listing library (Token.kinds source) a → Listing library (Token.kinds source) b →
      a == b) ∧
    ∀ e, ofSource library source = .ok e →
      Token.kinds e.toPostfix = Token.kinds source ∧ ofSource library e.toPostfix = .ok e := by
  refine ⟨fun e => exists_ofSource_iff_listing, fun a b ha hb => ha.same hb, fun e he => ?_⟩
  have hkinds := kinds_toPostfix_of_ofSource he
  obtain ⟨hpost, hr⟩ := ofSource_eq_ok_iff.1 he
  exact ⟨hkinds, ofSource_eq_ok_iff.2 ⟨hkinds.trans hpost, hr⟩⟩

/-- A sum of two variables is listed by its words, and only it is. -/
theorem listing_kinds_sum :
    Listing Library.standard (Token.kinds "x  y +")
      (binary .add (var ⟨"x", rfl⟩) (var ⟨"y", rfl⟩)) ∧
    Token.kinds (binary .add (var ⟨"x", rfl⟩) (var ⟨"y", rfl⟩)).toPostfix =
      Token.kinds "x  y +" := by
  obtain ⟨hlist, -, hwritten⟩ := ofSource_iff_listing Library.standard "x  y +"
  exact ⟨(hlist _).1 ⟨_, rfl, same_self _⟩, (hwritten _ rfl).1⟩

end ReversePolish.Expr
