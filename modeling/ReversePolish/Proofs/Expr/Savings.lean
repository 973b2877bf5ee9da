import Mathlib.Order.Basic
import ReversePolish.Proofs.Expr.PartialEvaluation
import ReversePolish.Proofs.Expr.Steps

/-!
# Simplification never adds work

Simplifying an expression with some bindings can only make it cheaper: the operation count of
what is left is at most that of the expression, and evaluating what is left with other bindings
takes at most the steps that it takes to evaluate the expression with both
(`worstCost_and_steps_simplify_le`).

Counted computations are ordered for this: one is at most another if it comes to the same result
in no more steps.  Going on from a computation respects the order (`andThen_le_andThen`), so an
operator, conditional or call over cheaper operands is cheaper.  What is left to see is that a
fold at one node saves something or changes nothing, whatever its operands are
(`counted_foldBinary_le` and those after it).  A conditional that is folded needs care in both
halves: the operation count charges for the dearer branch, which need not be the one that is
kept, and the steps of choosing and of the condition are gone.

The comparison is with both bindings together.  With the later ones alone the expression itself
might fail early, at a variable that simplification has already replaced.
-/

namespace ReversePolish

namespace Counted

/-- One computation is at most another: they have the same result, and it takes no more steps. -/
instance : LE Counted where
  le r s := r.result = s.result ∧ r.steps ≤ s.steps

instance : Preorder Counted where
  le_refl _ := ⟨rfl, Nat.le_refl _⟩
  le_trans _ _ _ hrs hst := ⟨hrs.1.trans hst.1, Nat.le_trans hrs.2 hst.2⟩

variable {r s : Counted} {next next' : Double → Counted}

/-- **What goes on from a cheaper computation, and more cheaply, is cheaper.** -/
theorem andThen_le_andThen (h : r ≤ s) (hnext : ∀ x, next x ≤ next' x) :
    r.andThen next ≤ s.andThen next' := by
  obtain ⟨hresult, hsteps⟩ := h
  cases hs : s.result with
  | error u =>
    rw [andThen_of_error (hresult.trans hs), andThen_of_error hs]
    exact ⟨rfl, hsteps⟩
  | ok x =>
    rw [andThen_of_ok (hresult.trans hs), andThen_of_ok hs]
    exact ⟨(hnext x).1, Nat.add_le_add hsteps (hnext x).2⟩

theorem afterStep_le_afterStep (h : r ≤ s) : r.afterStep ≤ s.afterStep :=
  ⟨h.1, Nat.succ_le_succ h.2⟩

theorem le_afterStep (r : Counted) : r ≤ r.afterStep := ⟨rfl, Nat.le_succ _⟩

end Counted

namespace Expr

/-! ## Nodes over cheaper operands -/

section Node

variable [NaNRule] {b b' : Bindings} {c c' t t' f f' l l' r r' a a' : Expr}

theorem counted_binary_mono (op : Operator) (hl : l.counted b ≤ l'.counted b')
    (hr : r.counted b ≤ r'.counted b') :
    (binary op l r).counted b ≤ (binary op l' r').counted b' :=
  Counted.andThen_le_andThen hl fun _ => Counted.andThen_le_andThen hr fun _ => le_refl _

theorem counted_cond_mono (hc : c.counted b ≤ c'.counted b') (ht : t.counted b ≤ t'.counted b')
    (hf : f.counted b ≤ f'.counted b') :
    (cond c t f).counted b ≤ (cond c' t' f').counted b' := by
  refine Counted.andThen_le_andThen hc fun x => Counted.afterStep_le_afterStep ?_
  split
  · exact ht
  · exact hf

theorem counted_call_mono (g : NamedFunction) (ha : a.counted b ≤ a'.counted b') :
    (call g a).counted b ≤ (call g a').counted b' :=
  Counted.andThen_le_andThen ha fun _ => le_refl _

end Node

/-! ## Folding one node -/

section Fold

variable [NaNRule] (b : Bindings)

theorem counted_foldBinary_le (op : Operator) (l r : Expr) :
    (foldBinary op l r).counted b ≤ (binary op l r).counted b := by
  rw [foldBinary]
  split
  · rename_i x y hx hy
    rw [constant?_eq_some_iff.1 hx, constant?_eq_some_iff.1 hy]
    exact ⟨rfl, Nat.zero_le _⟩
  · exact le_refl _

/-- The branch that is kept is the one that would have been chosen. -/
theorem counted_foldCond_le (c t f : Expr) :
    (foldCond c t f).counted b ≤ (cond c t f).counted b := by
  rw [foldCond]
  split
  · rename_i x hx
    -- A constant condition takes no steps itself, so the step of choosing is all that is saved.
    rw [constant?_eq_some_iff.1 hx, apply_ite (counted b), counted, counted,
      Counted.andThen_of_ok rfl, Nat.zero_add]
    exact Counted.le_afterStep _
  · exact le_refl _

theorem counted_foldCall_le (g : NamedFunction) (a : Expr) :
    (foldCall g a).counted b ≤ (call g a).counted b := by
  rw [foldCall]
  split
  · rename_i x hx
    rw [constant?_eq_some_iff.1 hx]
    exact ⟨rfl, Nat.zero_le _⟩
  · exact le_refl _

end Fold

theorem worstCost_foldBinary_le [NaNRule] (op : Operator) (l r : Expr) :
    (foldBinary op l r).worstCost ≤ 1 + l.worstCost + r.worstCost := by
  rw [foldBinary]
  split
  · exact Nat.zero_le _
  · exact Nat.le_refl _

/-- Either branch costs at most what the dearer of the two does. -/
theorem worstCost_foldCond_le (c t f : Expr) :
    (foldCond c t f).worstCost ≤ c.worstCost + max t.worstCost f.worstCost + 1 := by
  rw [foldCond]
  split
  · split
    · have := Nat.le_max_left t.worstCost f.worstCost
      omega
    · have := Nat.le_max_right t.worstCost f.worstCost
      omega
  · exact Nat.le_refl _

theorem worstCost_foldCall_le (g : NamedFunction) (a : Expr) :
    (foldCall g a).worstCost ≤ callCost + a.worstCost := by
  rw [foldCall]
  split
  · exact Nat.zero_le _
  · exact Nat.le_refl _

theorem worstCost_simplifyVar (t : Bindings) (name : VariableName) :
    (simplifyVar t name).worstCost = 0 := by
  rw [simplifyVar]
  cases t.value? name.text with
  | some v => rfl
  | none => rfl

/-- A variable takes no steps, whether it is replaced or not. -/
theorem counted_simplifyVar_le [NaNRule] (t u : Bindings) (name : VariableName) :
    (simplifyVar t name).counted u ≤ (var name).counted (t.overlay u) := by
  refine ⟨?_, ?_⟩
  · rw [result_counted, result_counted, eval_simplifyVar]
  · -- Without operations there are no steps, whatever the outcome.
    have hsteps := steps_le_worstCost u (simplifyVar t name)
    rwa [worstCost_simplifyVar] at hsteps

/-! ## Whole expressions -/

/-- **The operation count does not grow.** -/
theorem worstCost_simplify_le [NaNRule] (t : Bindings) (e : Expr) :
    (e.simplify t).worstCost ≤ e.worstCost := by
  induction e with
  | const v => exact Nat.le_refl _
  | var name => exact Nat.le_of_eq (worstCost_simplifyVar t name)
  | binary op l r ihl ihr =>
    refine Nat.le_trans (worstCost_foldBinary_le op _ _) ?_
    rw [worstCost]
    omega
  | cond c t f ihc iht ihf =>
    refine Nat.le_trans (worstCost_foldCond_le _ _ _) ?_
    rw [worstCost]
    omega
  | call g a ih => exact Nat.le_trans (worstCost_foldCall_le g _) (Nat.add_le_add_left ih _)

/-- **What is left is evaluated to the same result in no more steps.** -/
theorem counted_simplify_le [NaNRule] (e : Expr) (t u : Bindings) :
    (e.simplify t).counted u ≤ e.counted (t.overlay u) := by
  induction e with
  | const v => exact le_refl _
  | var name => exact counted_simplifyVar_le t u name
  | binary op l r ihl ihr =>
    exact (counted_foldBinary_le u op _ _).trans (counted_binary_mono op ihl ihr)
  | cond c t f ihc iht ihf =>
    exact (counted_foldCond_le u _ _ _).trans (counted_cond_mono ihc iht ihf)
  | call g a ih => exact (counted_foldCall_le u g _).trans (counted_call_mono g ih)

/-- **Simplification never adds work.**  The operation count of what is left is at most that of
the expression.  When it is evaluated later, it comes to the result of evaluating the expression
at once, with every name bound as the earlier bindings have it and as the later ones do where the
earlier say nothing, and the steps to it are at most those of that evaluation. -/
theorem worstCost_and_steps_simplify_le [NaNRule] (e : Expr) (t u : Bindings) :
    (∀ name, (t.overlay u).value? name = (t.value? name).or (u.value? name)) ∧
    (e.simplify t).worstCost ≤ e.worstCost ∧
    ((e.simplify t).counted u).result = e.eval (t.overlay u) ∧
    (e.simplify t).steps u ≤ e.steps (t.overlay u) := by
  obtain ⟨hresult, hsteps⟩ := counted_simplify_le e t u
  rw [result_counted (t.overlay u)] at hresult
  exact ⟨Bindings.value?_overlay t u, worstCost_simplify_le t e, hresult, hsteps⟩

/-- With the later bindings alone the sum fails at once, for want of `x`; what simplification
leaves of it goes as far as the root. -/
example :
    let sum := binary .add (var ⟨"x", rfl⟩)
      (call (.computed "sqrt" Float.sqrt (by decide)) (var ⟨"y", rfl⟩))
    let t := Bindings.bind Catalog.empty ⟨"x", rfl⟩ 1
    let u := Bindings.bind Catalog.empty ⟨"y", rfl⟩ 2
    sum.steps u = 0 ∧ (sum.simplify t).steps u = 2 ∧ sum.steps (t.overlay u) = 2 :=
  ⟨rfl, rfl, rfl⟩

end Expr

end ReversePolish
