import ReversePolish.Expr.Evaluation
import ReversePolish.Proofs.Expr.FreeVariables
import ReversePolish.Proofs.Expr.Nodes

/-!
# What evaluation depends on, and where it fails

Evaluation looks at the values of the free variables and at nothing else, and when it fails, it
names a free variable that has no value (`eval_freeVariables`).  Which one depends in general on
the conditionals, because a branch that is not chosen is not looked at.  Where there are none,
every variable is looked at in the order in which postfix notation lists them, and the first one
without a value is reported.

What a result says of this is the name in its report, if it is one (`unbound?`).  Of an operator
it is the name in the report of the first operand, or else of the second, and searching one list
behind another does the same.  So evaluation and search agree node by node
(`unbound?_eval_eq_find?`).
-/

namespace ReversePolish

/-- The variable that a result reports, if it is no value. -/
def unbound? : Except UnboundName Double → Option String
  | .ok _ => none
  | .error u => some u.name

theorem unbound?_eq_some_iff {r : Except UnboundName Double} {n : UnboundName} :
    unbound? r = some n.name ↔ r = .error n := by
  cases r with
  | ok v => simp [unbound?]
  | error u =>
    cases u
    cases n
    simp [unbound?]

/-- The variable that a meaning stands for. -/
def Lexeme.variable? : Lexeme → Option String
  | variableNamed name => some name
  | _ => none

/-- Whether a name has no value. -/
def Bindings.lacks (b : Bindings) (name : String) : Bool := (b.value? name).isNone

theorem Bindings.lacks_iff {b : Bindings} {name : String} :
    b.lacks name ↔ b.value? name = none := Option.isNone_iff_eq_none

namespace Expr

variable {b c : Bindings} {e : Expr}

/-! ## One node -/

@[simp] theorem unbound?_eval_const [NaNRule] (v : Double) :
    unbound? ((const v).eval b) = none := rfl

theorem unbound?_eval_var [NaNRule] (name : VariableName) :
    unbound? ((var name).eval b) = if b.lacks name.text then some name.text else none := by
  rw [eval, Bindings.get, Bindings.lacks]
  cases b.value? name.text with
  | none => rfl
  | some v => rfl

theorem unbound?_eval_binary [NaNRule] (op : Operator) (l r : Expr) :
    unbound? ((binary op l r).eval b) = (unbound? (l.eval b)).or (unbound? (r.eval b)) := by
  rw [eval]
  cases l.eval b with
  | error u => rfl
  | ok x =>
    cases r.eval b with
    | error u => rfl
    | ok y => rfl

/-- Only the condition and the branch that it chooses are looked at. -/
theorem unbound?_eval_cond [NaNRule] (c t f : Expr) :
    unbound? ((cond c t f).eval b) = (unbound? (c.eval b)).or (unbound? (t.eval b)) ∨
      unbound? ((cond c t f).eval b) = (unbound? (c.eval b)).or (unbound? (f.eval b)) := by
  rw [eval]
  cases c.eval b with
  | error u => exact .inl rfl
  | ok x =>
    dsimp only
    split
    · exact .inl rfl
    · exact .inr rfl

theorem unbound?_eval_call [NaNRule] (g : NamedFunction) (a : Expr) :
    unbound? ((call g a).eval b) = unbound? (a.eval b) := by
  rw [eval]
  cases a.eval b with
  | error u => rfl
  | ok x => rfl

/-! ## What is looked at -/

/-- **The result depends on the values of the variables that occur**, and on nothing else. -/
theorem eval_congr_of_names [NaNRule] (h : ∀ x ∈ e.names, b.value? x = c.value? x) :
    e.eval b = e.eval c := by
  induction e with
  | const v => rfl
  | var name => rw [eval, eval, Bindings.get, Bindings.get, h name.text (by simp)]
  | binary op l r ihl ihr =>
    simp only [names_binary, List.mem_append, or_imp, forall_and] at h
    rw [eval, eval, ihl h.1, ihr h.2]
  | cond p t f ihp iht ihf =>
    simp only [names_cond, List.mem_append, or_imp, forall_and] at h
    rw [eval, eval, ihp h.1, iht h.2.1, ihf h.2.2]
  | call g a ih => rw [eval, eval, ih h]

/-- **A variable that is reported occurs, and has no value.** -/
theorem mem_names_of_unbound? [NaNRule] {x : String} (h : unbound? (e.eval b) = some x) :
    x ∈ e.names ∧ b.lacks x := by
  induction e with
  | const v => cases h
  | var name =>
    rw [unbound?_eval_var] at h
    split at h
    · rename_i hlacks
      obtain rfl := Option.some.inj h
      exact ⟨List.mem_singleton_self _, hlacks⟩
    · cases h
  | binary op l r ihl ihr =>
    rw [unbound?_eval_binary] at h
    rw [names_binary, List.mem_append]
    rcases Option.or_eq_some_iff.1 h with h | ⟨-, h⟩
    · exact (ihl h).imp_left .inl
    · exact (ihr h).imp_left .inr
  | cond p t f ihp iht ihf =>
    rw [names_cond, List.mem_append, List.mem_append]
    rcases unbound?_eval_cond (b := b) p t f with hbranch | hbranch
    · rw [hbranch] at h
      rcases Option.or_eq_some_iff.1 h with h | ⟨-, h⟩
      · exact (ihp h).imp_left .inl
      · exact (iht h).imp_left fun hx => .inr (.inl hx)
    · rw [hbranch] at h
      rcases Option.or_eq_some_iff.1 h with h | ⟨-, h⟩
      · exact (ihp h).imp_left .inl
      · exact (ihf h).imp_left fun hx => .inr (.inr hx)
  | call g a ih =>
    rw [unbound?_eval_call] at h
    exact ih h

/-! ## Without conditionals -/

/-- The variables are listed in postfix order. -/
theorem filterMap_variable?_postorder (e : Expr) :
    e.postorder.filterMap Lexeme.variable? = e.names := by
  induction e with
  | const v => rfl
  | var name => rfl
  | binary op l r ihl ihr => simp [ihl, ihr, Lexeme.variable?]
  | cond c t f ihc iht ihf => simp [ihc, iht, ihf, Lexeme.variable?]
  | call g a ih => simp [ih, Lexeme.variable?]

/-- **Without conditionals the variable that is reported is the first that has no value.** -/
theorem unbound?_eval_eq_find? [NaNRule] (h : .conditional ∉ e.postorder) :
    unbound? (e.eval b) = e.names.find? b.lacks := by
  induction e with
  | const v => rfl
  | var name => rw [unbound?_eval_var, names_var, List.find?_singleton]
  | binary op l r ihl ihr =>
    simp only [postorder_binary, List.mem_append, not_or] at h
    rw [unbound?_eval_binary, names_binary, List.find?_append, ihl h.1.1, ihr h.1.2]
  | cond c t f ihc iht ihf => exact absurd (by simp) h
  | call g a ih =>
    simp only [postorder_call, List.mem_append, not_or] at h
    rw [unbound?_eval_call, names_call, ih h.1]

/-! ## Whole expressions -/

/-- **Evaluation depends on the free variables, and fails at one of them.**  Bindings that agree
on the free variables give the same result.  A failure reports a free variable that has no
value, so evaluation succeeds when all of them have one.  Without conditionals it fails exactly
when one of them has none, and reports the first of these in postfix order. -/
theorem eval_freeVariables [NaNRule] (e : Expr) (b : Bindings) :
    (∀ c : Bindings, (∀ x ∈ e.freeVariables, b.value? x = c.value? x) → e.eval b = e.eval c) ∧
    (∀ n, e.eval b = .error n → n.name ∈ e.freeVariables ∧ b.value? n.name = none) ∧
    ((∀ x ∈ e.freeVariables, (b.value? x).isSome) → ∃ v, e.eval b = .ok v) ∧
    (.conditional ∉ e.postorder →
      ((∃ n, e.eval b = .error n) ↔ ∃ x ∈ e.freeVariables, b.value? x = none) ∧
      ∀ n, e.eval b = .error n ↔
        (e.postorder.filterMap Lexeme.variable?).find? (fun x => (b.value? x).isNone) =
          some n.name) := by
  simp only [mem_freeVariables_iff, filterMap_variable?_postorder]
  have herror : ∀ n, e.eval b = .error n → n.name ∈ e.names ∧ b.value? n.name = none := by
    intro n hn
    obtain ⟨hmem, hlacks⟩ := mem_names_of_unbound? (unbound?_eq_some_iff.2 hn)
    exact ⟨hmem, Bindings.lacks_iff.1 hlacks⟩
  refine ⟨fun c hc => eval_congr_of_names hc, herror, fun hbound => ?_, fun hcond => ⟨?_, ?_⟩⟩
  · cases heval : e.eval b with
    | ok v => exact ⟨v, rfl⟩
    | error n =>
      obtain ⟨hmem, hnone⟩ := herror n heval
      have hsome := hbound n.name hmem
      rw [hnone] at hsome
      cases hsome
  · constructor
    · rintro ⟨n, hn⟩
      exact ⟨n.name, herror n hn⟩
    · rintro ⟨x, hx, hnone⟩
      have hfind : (e.names.find? b.lacks).isSome :=
        List.find?_isSome.2 ⟨x, hx, Bindings.lacks_iff.2 hnone⟩
      obtain ⟨y, hy⟩ := Option.isSome_iff_exists.1 hfind
      refine ⟨⟨y⟩, unbound?_eq_some_iff.1 ?_⟩
      rw [unbound?_eval_eq_find? hcond, hy]
  · intro n
    rw [← unbound?_eq_some_iff, unbound?_eval_eq_find? hcond]
    rfl

/-- Of two variables without value the one that is written first is reported, also when the
other comes first in the alphabet.  A branch that is not chosen is not asked for its own. -/
theorem eval_freeVariables_quotient :
    let b := Bindings.bind Catalog.empty ⟨"c", rfl⟩ 0
    (binary .div (var ⟨"y", rfl⟩) (var ⟨"x", rfl⟩)).eval b = .error ⟨"y"⟩ ∧
      (cond (var ⟨"c", rfl⟩) (var ⟨"x", rfl⟩) (const 1)).eval b =
        (cond (var ⟨"c", rfl⟩) (var ⟨"x", rfl⟩) (const 1)).eval
          (b.bind ⟨"y", rfl⟩ 2) := by
  intro b
  obtain ⟨-, -, -, hfirst⟩ := eval_freeVariables (binary .div (var ⟨"y", rfl⟩) (var ⟨"x", rfl⟩)) b
  obtain ⟨hcongr, -⟩ := eval_freeVariables (cond (var ⟨"c", rfl⟩) (var ⟨"x", rfl⟩) (const 1)) b
  refine ⟨((hfirst (by simp)).2 ⟨"y"⟩).2 rfl, hcongr _ fun x hx => ?_⟩
  have hne : (⟨"y", rfl⟩ : VariableName).text ≠ x := by
    rintro rfl
    exact absurd (mem_freeVariables_iff.1 hx) (by decide)
  rw [Bindings.value?_bind_of_ne _ _ hne]

end Expr

end ReversePolish
