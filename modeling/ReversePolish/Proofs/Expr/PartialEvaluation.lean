import ReversePolish.Expr.Evaluation
import ReversePolish.Expr.Simplification
import ReversePolish.Proofs.Bindings

/-!
# Simplification is partial evaluation

To simplify with some bindings and to evaluate the result with others is to evaluate
with the first laid over the second (`eval_simplify`).

Folding is local: a node whose operands are simplified already evaluates the same
before and after it is folded, and this holds of any operands (`eval_foldBinary`,
`eval_foldCond`, `eval_foldCall`).  In particular a branch that is dropped would not
have been evaluated, so no report of an unbound variable can get lost with it.  What
remains is that a variable may be replaced by its value (`eval_simplifyVar`), and an
induction over the expression.
-/

namespace ReversePolish.Expr

theorem constant?_eq_some_iff {e : Expr} {v : Double} : e.constant? = some v ↔ e = const v := by
  cases e <;> simp [constant?]

/-! ## One node -/

section Fold

variable [NaNRule] (b : Bindings)

/-- Folding an operator does not change what it evaluates to. -/
theorem eval_foldBinary (op : Operator) (l r : Expr) :
    (foldBinary op l r).eval b = (binary op l r).eval b := by
  rw [foldBinary]
  split
  · rename_i x y hx hy
    rw [constant?_eq_some_iff.1 hx, constant?_eq_some_iff.1 hy]
    rfl
  · rfl

/-- Folding a conditional does not change what it evaluates to. -/
theorem eval_foldCond (c t f : Expr) : (foldCond c t f).eval b = (cond c t f).eval b := by
  rw [foldCond]
  split
  · rename_i x hx
    rw [constant?_eq_some_iff.1 hx, eval, eval]
    exact apply_ite (eval b) _ _ _
  · rfl

/-- Folding a call does not change what it evaluates to. -/
theorem eval_foldCall (g : NamedFunction) (a : Expr) :
    (foldCall g a).eval b = (call g a).eval b := by
  rw [foldCall]
  split
  · rename_i x hx
    rw [constant?_eq_some_iff.1 hx]
    rfl
  · rfl

end Fold

/-- A variable that is bound early evaluates as it does over the later bindings. -/
theorem eval_simplifyVar [NaNRule] (t u : Bindings) (name : VariableName) :
    (simplifyVar t name).eval u = (var name).eval (t.overlay u) := by
  rw [simplifyVar, eval, Bindings.get, Bindings.value?_overlay]
  cases t.value? name.text with
  | some v => rfl
  | none => rfl

/-! ## Whole expressions -/

/-- Simplifying and then evaluating is evaluating once, with all bindings. -/
theorem eval_simplify [NaNRule] (e : Expr) (t u : Bindings) :
    (e.simplify t).eval u = e.eval (t.overlay u) := by
  induction e with
  | const v => rfl
  | var name => exact eval_simplifyVar t u name
  | binary op l r ihl ihr => rw [simplify, eval_foldBinary, eval, eval, ihl, ihr]
  | cond c t f ihc iht ihf => rw [simplify, eval_foldCond, eval, eval, ihc, iht, ihf]
  | call g a ih => rw [simplify, eval_foldCall, eval, eval, ih]

/-- Evaluation asks of bindings only what is bound to a name. -/
theorem eval_congr [NaNRule] {b c : Bindings} (h : ∀ name, b.value? name = c.value? name)
    (e : Expr) :
    e.eval b = e.eval c := by
  induction e with
  | const v => rfl
  | var name => rw [eval, eval, Bindings.get, Bindings.get, h]
  | binary op l r ihl ihr => rw [eval, eval, ihl, ihr]
  | cond c t f ihc iht ihf => rw [eval, eval, ihc, iht, ihf]
  | call g a ih => rw [eval, eval, ih]

/-- **Simplification is partial evaluation.**  The result of evaluating later, value or
unbound variable, is that of evaluating at once with every name bound as the earlier
bindings have it, and as the later ones do where the earlier say nothing.  When the two
agree, simplification is not noticed at all. -/
theorem eval_simplify_eq_eval_overlay [NaNRule] (e : Expr) (t u : Bindings) :
    (∀ name, (t.overlay u).value? name = (t.value? name).or (u.value? name)) ∧
    (e.simplify t).eval u = e.eval (t.overlay u) ∧
    ((∀ name v, t.value? name = some v → u.value? name = some v) →
      (e.simplify t).eval u = e.eval u) := by
  refine ⟨Bindings.value?_overlay t u, eval_simplify e t u, ?_⟩
  intro hagree
  rw [eval_simplify]
  exact eval_congr (Bindings.value?_overlay_of_agree hagree) e

/-- With `x` bound both times, the report that `y` is not stays what it was. -/
theorem eval_simplify_quotient :
    ((binary .div (var ⟨"y", rfl⟩) (var ⟨"x", rfl⟩)).simplify
        (Bindings.bind Catalog.empty ⟨"x", rfl⟩ 0)).eval
          (Bindings.bind Catalog.empty ⟨"x", rfl⟩ 0) = .error ⟨"y"⟩ := by
  obtain ⟨-, -, hsame⟩ := eval_simplify_eq_eval_overlay
    (binary .div (var ⟨"y", rfl⟩) (var ⟨"x", rfl⟩))
    (Bindings.bind Catalog.empty ⟨"x", rfl⟩ 0) (Bindings.bind Catalog.empty ⟨"x", rfl⟩ 0)
  rw [hsame fun _ _ h => h]
  rfl

end ReversePolish.Expr
