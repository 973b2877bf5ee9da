import ReversePolish.Expr.Measure
import ReversePolish.Proofs.Expr.Same

/-!
# The nodes of an expression

The postfix listing of an expression consists of numbers, operators and conditionals, of the
variables that `names` collects, and of calls of the functions that `functions` collects.
What holds of all of these therefore holds of every node (`forall_mem_postorder`).  Conversely
what is collected can be found among the nodes (`mem_names_iff`, `call_mem_postorder_iff`).
-/

namespace ReversePolish.Expr

/-! ## Variables -/

@[simp] theorem names_const (v : Double) : (const v).names = [] := rfl

@[simp] theorem names_var (name : VariableName) : (var name).names = [name.text] := rfl

@[simp] theorem names_binary (op : Operator) (l r : Expr) :
    (binary op l r).names = l.names ++ r.names := by
  rw [names, namesOnto, namesOnto_eq, ← names]

@[simp] theorem names_cond (c t f : Expr) :
    (cond c t f).names = c.names ++ (t.names ++ f.names) := by
  rw [names, namesOnto, namesOnto_eq, namesOnto_eq, ← names]

@[simp] theorem names_call (g : NamedFunction) (a : Expr) : (call g a).names = a.names := rfl

/-- What is listed can name a variable. -/
theorem exists_text_eq_of_mem_names {e : Expr} {x : String} (h : x ∈ e.names) :
    ∃ name : VariableName, name.text = x := by
  induction e with
  | const v => cases h
  | var name => exact ⟨name, (List.mem_singleton.1 h).symm⟩
  | binary op l r ihl ihr =>
    rw [names_binary, List.mem_append] at h
    exact h.elim ihl ihr
  | cond c t f ihc iht ihf =>
    rw [names_cond, List.mem_append, List.mem_append] at h
    exact h.elim ihc fun h => h.elim iht ihf
  | call g a ih => exact ih h

/-! ## All nodes -/

/-- **Every node is a number, an operator, a conditional, a variable that is listed or a call
of a function that is listed.** -/
theorem forall_mem_postorder {p : Lexeme → Prop} (hnumber : ∀ v, p (.number v))
    (hoperator : ∀ op, p (.operator op)) (hconditional : p .conditional) {e : Expr}
    (hvariable : ∀ name : VariableName, name.text ∈ e.names → p (.variableNamed name.text))
    (hcall : ∀ f ∈ e.functions, p (.call f.name)) : ∀ x ∈ e.postorder, p x := by
  induction e with
  | const v => simpa using hnumber v
  | var name => simpa using hvariable name (by simp)
  | binary op l r ihl ihr =>
    simp only [names_binary, functions, List.mem_append, or_imp, forall_and] at hvariable hcall
    simp only [postorder_binary, List.mem_append, List.mem_singleton, or_imp, forall_and,
      forall_eq]
    exact ⟨⟨ihl hvariable.1 hcall.1, ihr hvariable.2 hcall.2⟩, hoperator op⟩
  | cond c t f ihc iht ihf =>
    simp only [names_cond, functions, List.mem_append, or_imp, forall_and] at hvariable hcall
    simp only [postorder_cond, List.mem_append, List.mem_singleton, or_imp, forall_and,
      forall_eq]
    exact ⟨⟨⟨ihc hvariable.1 hcall.1.1, iht hvariable.2.1 hcall.1.2⟩,
      ihf hvariable.2.2 hcall.2⟩, hconditional⟩
  | call g a ih =>
    simp only [names_call, functions, List.mem_append, List.mem_singleton, or_imp, forall_and,
      forall_eq] at hvariable hcall
    simp only [postorder_call, List.mem_append, List.mem_singleton, or_imp, forall_and,
      forall_eq]
    exact ⟨ih hvariable hcall.1, hcall.2⟩

/-- The variables that are listed are those that are nodes. -/
theorem mem_names_iff {e : Expr} {x : String} : x ∈ e.names ↔ .variableNamed x ∈ e.postorder := by
  induction e with
  | const v => simp
  | var name => simp
  | binary op l r ihl ihr => simp [ihl, ihr]
  | cond c t f ihc iht ihf => simp [ihc, iht, ihf]
  | call g a ih => simp [ih]

/-- The functions that are listed are those that are called at a node, as far as names go. -/
theorem call_mem_postorder_iff {e : Expr} {name : String} :
    .call name ∈ e.postorder ↔ ∃ f ∈ e.functions, f.name = name := by
  induction e with
  | const v => simp [functions]
  | var x => simp [functions]
  | binary op l r ihl ihr => simp [functions, ihl, ihr, or_and_right, exists_or]
  | cond c t f ihc iht ihf => simp [functions, ihc, iht, ihf, or_and_right, exists_or]
  | call g a ih => simp [functions, ih, or_and_right, exists_or, eq_comm]

end ReversePolish.Expr
