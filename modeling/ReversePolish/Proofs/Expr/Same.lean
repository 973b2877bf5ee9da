import ReversePolish.Expr.Rendering
import ReversePolish.Proofs.Lexeme

/-!
# Expressions of the same shape and contents

Two expressions are the same when they differ at most in what their functions
compute and in which not-a-numbers they hold.  What is left of an expression
without both is `bare`, so this is an equivalence relation (`same_iff_bare_eq`), and
expressions that are the same have the same nodes but for their not-a-numbers
(`map_canonical_postorder_eq_of_same`).  With one not-a-number in the place of all
an expression is in canonical form, which is the same expression (`canonical_same`).
-/

namespace ReversePolish.Expr

/-- The functions that are applied in an expression, in postfix order. -/
def functions : Expr → List NamedFunction
  | const _ => []
  | var _ => []
  | binary _ l r => l.functions ++ r.functions
  | cond c t f => c.functions ++ t.functions ++ f.functions
  | call g a => a.functions ++ [g]

/-- Every function is the one that the library has under its name. -/
def Resolved (library : Library) (e : Expr) : Prop :=
  ∀ f ∈ e.functions, library.find? f.name = some f

section Resolved

variable {library : Library}

@[simp] theorem resolved_const (v : Double) : (const v).Resolved library := by
  simp [Resolved, functions]

@[simp] theorem resolved_var (name : VariableName) : (var name).Resolved library := by
  simp [Resolved, functions]

@[simp] theorem resolved_binary {op : Operator} {l r : Expr} :
    (binary op l r).Resolved library ↔ l.Resolved library ∧ r.Resolved library := by
  simp [Resolved, functions, or_imp, forall_and]

@[simp] theorem resolved_cond {c t f : Expr} :
    (cond c t f).Resolved library ↔
      c.Resolved library ∧ t.Resolved library ∧ f.Resolved library := by
  simp [Resolved, functions, or_imp, forall_and]

@[simp] theorem resolved_call {g : NamedFunction} {a : Expr} :
    (call g a).Resolved library ↔ a.Resolved library ∧ library.find? g.name = some g := by
  simp [Resolved, functions, or_imp, forall_and]

end Resolved

/-! ## Canonical expressions -/

/-- The expression with one not-a-number in the place of all. -/
def canonical : Expr → Expr
  | const v => const v.canonical
  | var name => var name
  | binary op l r => binary op l.canonical r.canonical
  | cond c t f => cond c.canonical t.canonical f.canonical
  | call g a => call g a.canonical

theorem functions_canonical (e : Expr) : e.canonical.functions = e.functions := by
  induction e with
  | const v => rfl
  | var name => rfl
  | binary op l r ihl ihr => rw [canonical, functions, ihl, ihr, functions]
  | cond c t f ihc iht ihf => rw [canonical, functions, ihc, iht, ihf, functions]
  | call g a ih => rw [canonical, functions, ih, functions]

theorem resolved_canonical_iff {library : Library} {e : Expr} :
    e.canonical.Resolved library ↔ e.Resolved library := by
  rw [Resolved, functions_canonical, Resolved]

theorem postorder_canonical (e : Expr) :
    e.canonical.postorder = e.postorder.map Lexeme.canonical := by
  induction e with
  | const v => rfl
  | var name => rfl
  | binary op l r ihl ihr =>
    rw [canonical, postorder_binary, postorder_binary, ihl, ihr, List.map_append, List.map_append]
    rfl
  | cond c t f ihc iht ihf =>
    rw [canonical, postorder_cond, postorder_cond, ihc, iht, ihf, List.map_append,
      List.map_append, List.map_append]
    rfl
  | call g a ih =>
    rw [canonical, postorder_call, postorder_call, ih, List.map_append]
    rfl

/-! ## Sameness -/

/-- The canonical expression with nothing left of its functions but their names. -/
def bare : Expr → Expr
  | const v => const v.canonical
  | var name => var name
  | binary op l r => binary op l.bare r.bare
  | cond c t f => cond c.bare t.bare f.bare
  | call g a => call { g with body := id } a.bare

/-- **To be the same is to be equal up to not-a-numbers and to what functions compute.** -/
theorem same_iff_bare_eq {a b : Expr} : a.same b ↔ a.bare = b.bare := by
  induction a generalizing b with
  | const x => cases b <;> simp [same, bare, sameConstant_iff]
  | var n => cases b <;> simp [same, bare]
  | binary op l r ihl ihr => cases b <;> simp [same, bare, ihl, ihr, and_assoc]
  | cond c t f ihc iht ihf => cases b <;> simp [same, bare, ihc, iht, ihf, and_assoc]
  | call g a ih => cases b <;> simp [same, bare, ih, NamedFunction.beq_iff_name_eq]

theorem same_symm {a b : Expr} (h : a.same b) : b.same a :=
  same_iff_bare_eq.2 (same_iff_bare_eq.1 h).symm

theorem same_trans {a b c : Expr} (hab : a.same b) (hbc : b.same c) : a.same c :=
  same_iff_bare_eq.2 ((same_iff_bare_eq.1 hab).trans (same_iff_bare_eq.1 hbc))

theorem bare_canonical (e : Expr) : e.canonical.bare = e.bare := by
  induction e with
  | const v => rw [canonical, bare, Double.canonical_canonical, bare]
  | var name => rfl
  | binary op l r ihl ihr => rw [canonical, bare, ihl, ihr, bare]
  | cond c t f ihc iht ihf => rw [canonical, bare, ihc, iht, ihf, bare]
  | call g a ih => rw [canonical, bare, ih, bare]

/-- An expression is the same as its canonical form. -/
theorem canonical_same (e : Expr) : e.canonical.same e := same_iff_bare_eq.2 e.bare_canonical

theorem postorder_bare (e : Expr) : e.bare.postorder = e.postorder.map Lexeme.canonical := by
  rw [← postorder_canonical]
  induction e with
  | const v => rfl
  | var name => rfl
  | binary op l r ihl ihr => rw [bare, canonical, postorder_binary, postorder_binary, ihl, ihr]
  | cond c t f ihc iht ihf =>
    rw [bare, canonical, postorder_cond, postorder_cond, ihc, iht, ihf]
  | call g a ih => rw [bare, canonical, postorder_call, postorder_call, ih]

/-- Expressions that are the same have the same nodes but for their not-a-numbers. -/
theorem map_canonical_postorder_eq_of_same {a b : Expr} (h : a.same b) :
    a.postorder.map Lexeme.canonical = b.postorder.map Lexeme.canonical := by
  rw [← postorder_bare a, same_iff_bare_eq.1 h, postorder_bare]

theorem map_name_functions_bare (e : Expr) :
    e.bare.functions.map NamedFunction.name = e.functions.map NamedFunction.name := by
  induction e with
  | const v => rfl
  | var name => rfl
  | binary op l r ihl ihr => simp only [bare, functions, List.map_append, ihl, ihr]
  | cond c t f ihc iht ihf => simp only [bare, functions, List.map_append, ihc, iht, ihf]
  | call g a ih => simp only [bare, functions, List.map_append, ih, List.map_cons, List.map_nil]

/-- Expressions that are the same apply functions of the same names. -/
theorem forall_functions_of_same (p : String → Prop) {a b : Expr} (h : a.same b)
    (ha : ∀ f ∈ a.functions, p f.name) : ∀ f ∈ b.functions, p f.name := by
  have hnames : a.functions.map NamedFunction.name = b.functions.map NamedFunction.name := by
    rw [← map_name_functions_bare a, same_iff_bare_eq.1 h, map_name_functions_bare]
  intro f hf
  obtain ⟨g, hg, hgf⟩ := List.mem_map.1 (hnames ▸ List.mem_map_of_mem hf)
  exact hgf ▸ ha g hg

end ReversePolish.Expr
