import ReversePolish.Proofs.Expr.PartialEvaluation

/-!
# How far simplification goes

An expression simplifies to a constant when it can be evaluated, and only then
(`simplify_eq_const_iff`).  What is known early may be simplified early: to simplify with
some bindings and then with others is to simplify once, with the first laid over the second
(`simplify_simplify_eq_simplify`).  In particular a second time with the same bindings
changes nothing, and bindings of different names may come in either order.

Both rest on what folding one node does, over any operands.  A fold asks of its operands
only whether they are constants, so whether it makes a constant is read off them
(`constant?_foldBinary`, `constant?_foldCond`, `constant?_foldCall`), and in the same way in
which evaluation reads off the values of the operands whether there is a value.  And since
constants stay what they are, it makes no difference whether a node is folded before its
parts are simplified again or after (`simplify_foldBinary`, `simplify_foldCond`,
`simplify_foldCall`), although a branch that is dropped early is then not looked at again.
-/

namespace ReversePolish.Expr

/-! ## When a value is known -/

section Known

variable (b : Bindings)

theorem constant?_simplifyVar (name : VariableName) :
    (simplifyVar b name).constant? = b.value? name.text := by
  rw [simplifyVar]
  cases b.value? name.text with
  | none => rfl
  | some v => rfl

theorem constant?_foldBinary [NaNRule] (op : Operator) (l r : Expr) :
    (foldBinary op l r).constant? =
      l.constant?.bind fun x => r.constant?.map fun y => op.apply x y := by
  rw [foldBinary]
  cases l.constant? with
  | none => rfl
  | some x =>
    cases r.constant? with
    | none => rfl
    | some y => rfl

theorem constant?_foldCond (c t f : Expr) :
    (foldCond c t f).constant? =
      c.constant?.bind fun x => if countsAsTrue x then t.constant? else f.constant? := by
  rw [foldCond]
  cases c.constant? with
  | none => rfl
  | some x => exact apply_ite constant? _ _ _

theorem constant?_foldCall (g : NamedFunction) (a : Expr) :
    (foldCall g a).constant? = a.constant?.map g.body := by
  rw [foldCall]
  cases a.constant? with
  | none => rfl
  | some x => rfl

theorem toOption_eval_binary [NaNRule] (op : Operator) (l r : Expr) :
    ((binary op l r).eval b).toOption =
      (l.eval b).toOption.bind fun x => (r.eval b).toOption.map fun y => op.apply x y := by
  rw [eval]
  cases l.eval b with
  | error u => rfl
  | ok x =>
    cases r.eval b with
    | error u => rfl
    | ok y => rfl

theorem toOption_eval_cond [NaNRule] (c t f : Expr) :
    ((cond c t f).eval b).toOption =
      (c.eval b).toOption.bind fun x =>
        if countsAsTrue x then (t.eval b).toOption else (f.eval b).toOption := by
  rw [eval]
  cases c.eval b with
  | error u => rfl
  | ok x => exact apply_ite Except.toOption _ _ _

theorem toOption_eval_call [NaNRule] (g : NamedFunction) (a : Expr) :
    ((call g a).eval b).toOption = (a.eval b).toOption.map g.body := by
  rw [eval]
  cases a.eval b with
  | error u => rfl
  | ok x => rfl

end Known

/-- What is known of a simplified expression is its value, if it has one. -/
theorem constant?_simplify [NaNRule] (e : Expr) (b : Bindings) :
    (e.simplify b).constant? = (e.eval b).toOption := by
  induction e with
  | const v => rfl
  | var name => rw [simplify, constant?_simplifyVar, eval, Bindings.toOption_get]
  | binary op l r ihl ihr => rw [simplify, constant?_foldBinary, ihl, ihr, toOption_eval_binary]
  | cond c t f ihc iht ihf =>
    rw [simplify, constant?_foldCond, ihc, iht, ihf, toOption_eval_cond]
  | call g a ih => rw [simplify, constant?_foldCall, ih, toOption_eval_call]

/-- **Simplification is as strong as evaluation, and no stronger.**  An expression becomes a
constant exactly when it evaluates to that number, whatever stands in the branches that are
not taken; and what cannot be evaluated does not become a constant. -/
theorem simplify_eq_const_iff [NaNRule] (e : Expr) (b : Bindings) :
    (e.simplify b).constant? = (e.eval b).toOption ∧
    ∀ v, e.simplify b = const v ↔ e.eval b = .ok v := by
  refine ⟨constant?_simplify e b, fun v => ?_⟩
  rw [← constant?_eq_some_iff, constant?_simplify]
  cases e.eval b with
  | error u => simp [Except.toOption]
  | ok x => simp [Except.toOption]

/-- The branch that is not taken may hold an unbound variable. -/
example (b : Bindings) (e : Expr) :
    (cond (const 0) e (const 9)).simplify b = const 9 := rfl

/-! ## Simplifying in stages -/

section Stages

variable [NaNRule] (u : Bindings)

theorem simplify_foldBinary (op : Operator) (l r : Expr) :
    (foldBinary op l r).simplify u = foldBinary op (l.simplify u) (r.simplify u) := by
  rw [foldBinary]
  split
  · rename_i x y hx hy
    rw [constant?_eq_some_iff.1 hx, constant?_eq_some_iff.1 hy]
    rfl
  · rfl

theorem simplify_foldCond (c t f : Expr) :
    (foldCond c t f).simplify u = foldCond (c.simplify u) (t.simplify u) (f.simplify u) := by
  rw [foldCond]
  split
  · rename_i x hx
    rw [constant?_eq_some_iff.1 hx]
    exact apply_ite (simplify u) _ _ _
  · rfl

theorem simplify_foldCall (g : NamedFunction) (a : Expr) :
    (foldCall g a).simplify u = foldCall g (a.simplify u) := by
  rw [foldCall]
  split
  · rename_i x hx
    rw [constant?_eq_some_iff.1 hx]
    rfl
  · rfl

end Stages

/-- A variable is bound by the first stage, by the second, or by neither. -/
theorem simplify_simplifyVar [NaNRule] (t u : Bindings) (name : VariableName) :
    (simplifyVar t name).simplify u = simplifyVar (t.overlay u) name := by
  rw [simplifyVar, simplifyVar, Bindings.value?_overlay]
  cases t.value? name.text with
  | some v => rfl
  | none => rfl

/-- Two stages are one stage with all bindings. -/
theorem simplify_simplify [NaNRule] (e : Expr) (t u : Bindings) :
    (e.simplify t).simplify u = e.simplify (t.overlay u) := by
  induction e with
  | const v => rfl
  | var name => exact simplify_simplifyVar t u name
  | binary op l r ihl ihr => rw [simplify, simplify_foldBinary, ihl, ihr, simplify]
  | cond c t f ihc iht ihf => rw [simplify, simplify_foldCond, ihc, iht, ihf, simplify]
  | call g a ih => rw [simplify, simplify_foldCall, ih, simplify]

/-- Simplification asks of bindings only what is bound to a name. -/
theorem simplify_congr [NaNRule] {b c : Bindings} (h : ∀ name, b.value? name = c.value? name)
    (e : Expr) :
    e.simplify b = e.simplify c := by
  induction e with
  | const v => rfl
  | var name => rw [simplify, simplify, simplifyVar, simplifyVar, h]
  | binary op l r ihl ihr => rw [simplify, simplify, ihl, ihr]
  | cond c t f ihc iht ihf => rw [simplify, simplify, ihc, iht, ihf]
  | call g a ih => rw [simplify, simplify, ih]

/-- **Simplification composes in stages.**  Two stages are one, with any bindings that have
every name as the first stage has it, and as the second does where the first says nothing;
there are such bindings.  So a stage that is repeated changes nothing, and two stages that
bind no name in common can be exchanged. -/
theorem simplify_simplify_eq_simplify [NaNRule] (e : Expr) (t u : Bindings) :
    (∀ name, (t.overlay u).value? name = (t.value? name).or (u.value? name)) ∧
    (∀ m : Bindings, (∀ name, m.value? name = (t.value? name).or (u.value? name)) →
      (e.simplify t).simplify u = e.simplify m) ∧
    (e.simplify t).simplify t = e.simplify t ∧
    ((∀ name, t.value? name = none ∨ u.value? name = none) →
      (e.simplify t).simplify u = (e.simplify u).simplify t) := by
  refine ⟨Bindings.value?_overlay t u, ?_, ?_, ?_⟩
  · intro m hm
    rw [simplify_simplify]
    exact simplify_congr (fun name => (Bindings.value?_overlay t u name).trans (hm name).symm) e
  · rw [simplify_simplify]
    exact simplify_congr (Bindings.value?_overlay_of_agree fun _ _ h => h) e
  · intro hdisjoint
    rw [simplify_simplify, simplify_simplify]
    refine simplify_congr (fun name => ?_) e
    rw [Bindings.value?_overlay, Bindings.value?_overlay]
    rcases hdisjoint name with h | h <;> rw [h, Option.none_or, Option.or_none]

/-- A condition that is bound in one stage and a branch that is bound in the other give the
same constant in either order, and the branch that is bound in neither is gone. -/
theorem simplify_simplify_choice :
    ((cond (var ⟨"c", rfl⟩) (var ⟨"y", rfl⟩) (var ⟨"x", rfl⟩)).simplify
        (Bindings.bind Catalog.empty ⟨"c", rfl⟩ 0)).simplify
          (Bindings.bind Catalog.empty ⟨"x", rfl⟩ 1) = const 1 ∧
    ((cond (var ⟨"c", rfl⟩) (var ⟨"y", rfl⟩) (var ⟨"x", rfl⟩)).simplify
        (Bindings.bind Catalog.empty ⟨"x", rfl⟩ 1)).simplify
          (Bindings.bind Catalog.empty ⟨"c", rfl⟩ 0) = const 1 := by
  obtain ⟨hoverlay, hstages, -, hswap⟩ := simplify_simplify_eq_simplify
    (cond (var ⟨"c", rfl⟩) (var ⟨"y", rfl⟩) (var ⟨"x", rfl⟩))
    (Bindings.bind Catalog.empty ⟨"c", rfl⟩ 0) (Bindings.bind Catalog.empty ⟨"x", rfl⟩ 1)
  have hone := (hstages _ hoverlay).trans rfl
  refine ⟨hone, (hswap fun name => ?_).symm.trans hone⟩
  by_cases h : "c" = name
  · exact Or.inr (h ▸ rfl)
  · exact Or.inl (Bindings.value?_bind_of_ne _ _ h)

end ReversePolish.Expr
