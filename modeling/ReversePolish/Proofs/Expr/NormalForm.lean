import ReversePolish.Proofs.Expr.Folding
import ReversePolish.Proofs.Expr.FreeVariables
import ReversePolish.Proofs.Expr.Nodes

/-!
# Normal forms

An expression is normal for some bindings when none of its parts could be replaced by what is
known about it: no variable in it is bound, no operator or function stands over constants only,
and no condition is a constant.  This is said of the expression alone, part by part
(`Expr.Normal`), without a word about how one simplifies.

Simplification arrives at normal forms and stops there (`simplify_eq_self_iff_normal`).  That
it arrives is a matter of one node at a time: a fold of normal operands is normal, also where it
puts a branch in the place of the conditional, because the branch is normal as it stands.  That
it stops is a matter of one node, too: over operands that are not constants a fold only builds
the node again.

What the variables of a normal form are is read off its parts.  The nodes of a simplified
expression are numbers or were there before (`mem_postorder_simplify`), so its variables were.
-/

namespace ReversePolish.Expr

/-! ## Parts -/

/-- The parts of an expression, each node with everything below it. -/
def parts : Expr → List Expr
  | const v => [const v]
  | var name => [var name]
  | binary op l r => binary op l r :: (l.parts ++ r.parts)
  | cond c t f => cond c t f :: (c.parts ++ (t.parts ++ f.parts))
  | call g a => call g a :: a.parts

/-- What can be replaced by what is known about it. -/
inductive Reducible (b : Bindings) : Expr → Prop
  | var {name : VariableName} {v : Double} (h : b.value? name.text = some v) :
      Reducible b (var name)
  | binary (op : Operator) (x y : Double) : Reducible b (binary op (const x) (const y))
  | cond (x : Double) (t f : Expr) : Reducible b (cond (const x) t f)
  | call (g : NamedFunction) (x : Double) : Reducible b (call g (const x))

/-- No part can be replaced. -/
def Normal (b : Bindings) (e : Expr) : Prop := ∀ s ∈ e.parts, ¬ Reducible b s

variable {b : Bindings}

theorem not_reducible_const (v : Double) : ¬ Reducible b (const v) := nofun

theorem reducible_var_iff {name : VariableName} :
    Reducible b (var name) ↔ ∃ v, b.value? name.text = some v := by
  constructor
  · intro h
    cases h with
    | var h => exact ⟨_, h⟩
  · rintro ⟨v, h⟩
    exact .var h

theorem reducible_binary_iff {op : Operator} {l r : Expr} :
    Reducible b (binary op l r) ↔
      ∃ x y, l.constant? = some x ∧ r.constant? = some y := by
  simp only [constant?_eq_some_iff]
  constructor
  · intro h
    cases h with
    | binary op x y => exact ⟨x, y, rfl, rfl⟩
  · rintro ⟨x, y, rfl, rfl⟩
    exact .binary op x y

theorem reducible_cond_iff {c t f : Expr} :
    Reducible b (cond c t f) ↔ ∃ x, c.constant? = some x := by
  simp only [constant?_eq_some_iff]
  constructor
  · intro h
    cases h with
    | cond x t f => exact ⟨x, rfl⟩
  · rintro ⟨x, rfl⟩
    exact .cond x t f

theorem reducible_call_iff {g : NamedFunction} {a : Expr} :
    Reducible b (call g a) ↔ ∃ x, a.constant? = some x := by
  simp only [constant?_eq_some_iff]
  constructor
  · intro h
    cases h with
    | call g x => exact ⟨x, rfl⟩
  · rintro ⟨x, rfl⟩
    exact .call g x

/-! ## Normality of a node -/

@[simp] theorem normal_const (v : Double) : (const v).Normal b := by
  simp [Normal, parts, not_reducible_const]

theorem normal_var_iff {name : VariableName} :
    (var name).Normal b ↔ b.value? name.text = none := by
  rw [Normal, parts, List.forall_mem_singleton, reducible_var_iff, ← Option.isSome_iff_exists,
    Option.not_isSome_iff_eq_none]

theorem normal_binary_iff {op : Operator} {l r : Expr} :
    (binary op l r).Normal b ↔
      ¬ Reducible b (binary op l r) ∧ l.Normal b ∧ r.Normal b := by
  rw [Normal, parts, List.forall_mem_cons, List.forall_mem_append, ← Normal, ← Normal]

theorem normal_cond_iff {c t f : Expr} :
    (cond c t f).Normal b ↔
      ¬ Reducible b (cond c t f) ∧ c.Normal b ∧ t.Normal b ∧ f.Normal b := by
  rw [Normal, parts, List.forall_mem_cons, List.forall_mem_append, List.forall_mem_append,
    ← Normal, ← Normal, ← Normal]

theorem normal_call_iff {g : NamedFunction} {a : Expr} :
    (call g a).Normal b ↔ ¬ Reducible b (call g a) ∧ a.Normal b := by
  rw [Normal, parts, List.forall_mem_cons, ← Normal]

/-! ## What simplification arrives at -/

theorem normal_simplifyVar (name : VariableName) : (simplifyVar b name).Normal b := by
  rw [simplifyVar]
  split
  · exact normal_const _
  · rename_i h
    exact normal_var_iff.2 h

theorem normal_foldBinary [NaNRule] (op : Operator) {l r : Expr} (hl : l.Normal b)
    (hr : r.Normal b) :
    (foldBinary op l r).Normal b := by
  rw [foldBinary]
  split
  · exact normal_const _
  · rename_i hnot
    refine normal_binary_iff.2 ⟨fun hred => ?_, hl, hr⟩
    obtain ⟨x, y, hx, hy⟩ := reducible_binary_iff.1 hred
    exact hnot x y hx hy

theorem normal_foldCond {c t f : Expr} (hc : c.Normal b) (ht : t.Normal b) (hf : f.Normal b) :
    (foldCond c t f).Normal b := by
  rw [foldCond]
  split
  · -- the branch that is chosen takes the place of the conditional
    split
    · exact ht
    · exact hf
  · rename_i hnone
    refine normal_cond_iff.2 ⟨fun hred => ?_, hc, ht, hf⟩
    obtain ⟨x, hx⟩ := reducible_cond_iff.1 hred
    rw [hnone] at hx
    cases hx

theorem normal_foldCall (g : NamedFunction) {a : Expr} (ha : a.Normal b) :
    (foldCall g a).Normal b := by
  rw [foldCall]
  split
  · exact normal_const _
  · rename_i hnone
    refine normal_call_iff.2 ⟨fun hred => ?_, ha⟩
    obtain ⟨x, hx⟩ := reducible_call_iff.1 hred
    rw [hnone] at hx
    cases hx

/-- **A simplified expression is normal.** -/
theorem normal_simplify [NaNRule] (e : Expr) (b : Bindings) : (e.simplify b).Normal b := by
  induction e with
  | const v => exact normal_const v
  | var name => exact normal_simplifyVar name
  | binary op l r ihl ihr => exact normal_foldBinary op ihl ihr
  | cond c t f ihc iht ihf => exact normal_foldCond ihc iht ihf
  | call g a ih => exact normal_foldCall g ih

/-! ## Where simplification stops -/

/-- An operator over operands that are not both constants is built again. -/
theorem foldBinary_of_not_reducible [NaNRule] {op : Operator} {l r : Expr}
    (h : ¬ Reducible b (binary op l r)) : foldBinary op l r = binary op l r := by
  rw [foldBinary]
  split
  · rename_i x y hx hy
    exact absurd (reducible_binary_iff.2 ⟨x, y, hx, hy⟩) h
  · rfl

theorem foldCond_of_not_reducible {c t f : Expr} (h : ¬ Reducible b (cond c t f)) :
    foldCond c t f = cond c t f := by
  rw [foldCond]
  split
  · rename_i x hx
    exact absurd (reducible_cond_iff.2 ⟨x, hx⟩) h
  · rfl

theorem foldCall_of_not_reducible {g : NamedFunction} {a : Expr}
    (h : ¬ Reducible b (call g a)) : foldCall g a = call g a := by
  rw [foldCall]
  split
  · rename_i x hx
    exact absurd (reducible_call_iff.2 ⟨x, hx⟩) h
  · rfl

/-- **No rule applies to a normal form.** -/
theorem Normal.simplify_eq [NaNRule] {e : Expr} (h : e.Normal b) : e.simplify b = e := by
  induction e with
  | const v => rfl
  | var name => rw [simplify, simplifyVar, normal_var_iff.1 h]
  | binary op l r ihl ihr =>
    obtain ⟨hred, hl, hr⟩ := normal_binary_iff.1 h
    rw [simplify, ihl hl, ihr hr, foldBinary_of_not_reducible hred]
  | cond c t f ihc iht ihf =>
    obtain ⟨hred, hc, ht, hf⟩ := normal_cond_iff.1 h
    rw [simplify, ihc hc, iht ht, ihf hf, foldCond_of_not_reducible hred]
  | call g a ih =>
    obtain ⟨hred, ha⟩ := normal_call_iff.1 h
    rw [simplify, ih ha, foldCall_of_not_reducible hred]

/-! ## Normality does not look into functions -/

theorem exists_constant?_bare_iff {e : Expr} :
    (∃ x, e.bare.constant? = some x) ↔ ∃ x, e.constant? = some x := by
  cases e <;> simp [bare, constant?]

/-- Whether an expression is normal does not depend on what its functions compute, or on its
not-a-numbers. -/
theorem normal_bare_iff {e : Expr} : e.bare.Normal b ↔ e.Normal b := by
  induction e with
  | const v => exact iff_of_true (normal_const _) (normal_const v)
  | var name => exact Iff.rfl
  | binary op l r ihl ihr =>
    rw [bare, normal_binary_iff, normal_binary_iff, ihl, ihr, reducible_binary_iff,
      reducible_binary_iff]
    simp only [exists_and_left, exists_and_right, exists_constant?_bare_iff]
  | cond c t f ihc iht ihf =>
    rw [bare, normal_cond_iff, normal_cond_iff, ihc, iht, ihf, reducible_cond_iff,
      reducible_cond_iff, exists_constant?_bare_iff]
  | call g a ih =>
    rw [bare, normal_call_iff, normal_call_iff, ih, reducible_call_iff, reducible_call_iff,
      exists_constant?_bare_iff]

/-- What is the same as a normal form is one. -/
theorem Normal.of_same {a e : Expr} (ha : a.Normal b) (h : a.same e) : e.Normal b := by
  rw [← normal_bare_iff, ← same_iff_bare_eq.1 h]
  exact normal_bare_iff.2 ha

/-! ## The variables that are left -/

/-- The variables of a normal form are not bound. -/
theorem Normal.value?_eq_none {e : Expr} (h : e.Normal b) :
    ∀ x ∈ e.names, b.value? x = none := by
  induction e with
  | const v => simp
  | var name => simpa using normal_var_iff.1 h
  | binary op l r ihl ihr =>
    obtain ⟨-, hl, hr⟩ := normal_binary_iff.1 h
    rw [names_binary]
    exact List.forall_mem_append.2 ⟨ihl hl, ihr hr⟩
  | cond c t f ihc iht ihf =>
    obtain ⟨-, hc, ht, hf⟩ := normal_cond_iff.1 h
    rw [names_cond]
    exact List.forall_mem_append.2 ⟨ihc hc, List.forall_mem_append.2 ⟨iht ht, ihf hf⟩⟩
  | call g a ih => exact ih (normal_call_iff.1 h).2

/-! ## What is left of the nodes -/

theorem mem_postorder_simplifyVar {x : Lexeme} {name : VariableName}
    (h : x ∈ (simplifyVar b name).postorder) :
    (∃ v, x = .number v) ∨ x ∈ (var name).postorder := by
  rw [simplifyVar] at h
  split at h
  · exact .inl ⟨_, List.mem_singleton.1 h⟩
  · exact .inr h

theorem mem_postorder_foldBinary [NaNRule] {x : Lexeme} {op : Operator} {l r : Expr}
    (h : x ∈ (foldBinary op l r).postorder) :
    (∃ v, x = .number v) ∨ x ∈ (binary op l r).postorder := by
  rw [foldBinary] at h
  split at h
  · exact .inl ⟨_, List.mem_singleton.1 h⟩
  · exact .inr h

theorem mem_postorder_foldCond {x : Lexeme} {c t f : Expr} (h : x ∈ (foldCond c t f).postorder) :
    x ∈ (cond c t f).postorder := by
  rw [foldCond] at h
  split at h
  · split at h
    · simp [h]
    · simp [h]
  · exact h

theorem mem_postorder_foldCall {x : Lexeme} {g : NamedFunction} {a : Expr}
    (h : x ∈ (foldCall g a).postorder) : (∃ v, x = .number v) ∨ x ∈ (call g a).postorder := by
  rw [foldCall] at h
  split at h
  · exact .inl ⟨_, List.mem_singleton.1 h⟩
  · exact .inr h

/-- **Simplification brings nothing in but numbers.** -/
theorem mem_postorder_simplify [NaNRule] {e : Expr} {x : Lexeme}
    (h : x ∈ (e.simplify b).postorder) :
    (∃ v, x = .number v) ∨ x ∈ e.postorder := by
  induction e with
  | const v => exact .inr h
  | var name => exact mem_postorder_simplifyVar h
  | binary op l r ihl ihr =>
    rcases mem_postorder_foldBinary h with hnumber | h
    · exact .inl hnumber
    · simp only [postorder_binary, List.mem_append] at h ⊢
      rcases h with (h | h) | h
      · exact (ihl h).imp_right fun h => .inl (.inl h)
      · exact (ihr h).imp_right fun h => .inl (.inr h)
      · exact .inr (.inr h)
  | cond c t f ihc iht ihf =>
    have hfold := mem_postorder_foldCond h
    simp only [postorder_cond, List.mem_append] at hfold ⊢
    rcases hfold with ((h | h) | h) | h
    · exact (ihc h).imp_right fun h => .inl (.inl (.inl h))
    · exact (iht h).imp_right fun h => .inl (.inl (.inr h))
    · exact (ihf h).imp_right fun h => .inl (.inr h)
    · exact .inr (.inr h)
  | call g a ih =>
    rcases mem_postorder_foldCall h with hnumber | h
    · exact .inl hnumber
    · simp only [postorder_call, List.mem_append] at h ⊢
      rcases h with h | h
      · exact (ih h).imp_right .inl
      · exact .inr (.inr h)

theorem names_simplify_subset [NaNRule] (e : Expr) (b : Bindings) :
    (e.simplify b).names ⊆ e.names := by
  intro x hx
  rw [mem_names_iff] at hx ⊢
  exact (mem_postorder_simplify hx).resolve_left nofun

/-- **Simplified expressions are exactly the normal forms.**  Every expression simplifies to a
normal form, the free variables that are left in it were there before and are not bound, and an
expression is left as it is exactly when it was normal from the start. -/
theorem simplify_eq_self_iff_normal [NaNRule] (e : Expr) (b : Bindings) :
    (e.simplify b).Normal b ∧
    (∀ x ∈ (e.simplify b).freeVariables, x ∈ e.freeVariables ∧ b.value? x = none) ∧
    (e.simplify b == e ↔ e.Normal b) := by
  refine ⟨normal_simplify e b, fun x hx => ?_, fun hsame => ?_, fun hnormal => ?_⟩
  · rw [mem_freeVariables_iff] at hx ⊢
    exact ⟨names_simplify_subset e b hx, (normal_simplify e b).value?_eq_none x hx⟩
  · exact (normal_simplify e b).of_same hsame
  · rw [hnormal.simplify_eq]
    exact same_self e

/-- With the condition known, the branch that is taken is put in its place, and of its two
variables the one that is bound is gone. -/
theorem simplify_choice_normal :
    let b := Bindings.bind (Bindings.bind Catalog.empty ⟨"c", rfl⟩ 0) ⟨"y", rfl⟩ 2
    let e := cond (var ⟨"c", rfl⟩) (var ⟨"z", rfl⟩)
      (binary .mul (var ⟨"x", rfl⟩) (binary .add (var ⟨"y", rfl⟩) (const 1)))
    "x" ∈ (e.simplify b).freeVariables ∧ "x" ∈ e.freeVariables ∧ b.value? "x" = none ∧
      (e.simplify b == e) = false := by
  intro b e
  have hx : "x" ∈ (e.simplify b).freeVariables := mem_freeVariables_iff.2 List.mem_cons_self
  obtain ⟨-, hvariables, -⟩ := simplify_eq_self_iff_normal e b
  exact ⟨hx, (hvariables "x" hx).1, (hvariables "x" hx).2, rfl⟩

end ReversePolish.Expr
