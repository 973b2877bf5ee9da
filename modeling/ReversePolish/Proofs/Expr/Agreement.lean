import ReversePolish.Expr.Evaluation
import ReversePolish.Expr.Simplification
import ReversePolish.Proofs.Expr.CanonicalForm
import ReversePolish.Proofs.Expr.Nodes

/-!
# What expressions that are the same have in common

Expressions that are the same are counted, listed and written the same way, because none of
this looks into a function or tells one not-a-number from another (`worstCost_eq_of_same` and
those after it).  Evaluating and simplifying do look into functions, and there the patterns of
the not-a-numbers are handed on from one operation to the next.  The results are nevertheless
the same constants, if both expressions are over one library and its functions compute the same
constants from the same constants (`observations_of_beq`).

The relation that is carried through a tree is being alike (`Alike`): the same shape, the same
constants, and functions that agree.  Operators and the choice of a branch respect it at a
node, so it passes from the parts of a tree to its value (`Alike.eval`) and to what is left of
it when it is simplified (`Alike.simplify`).  Operators respect it whatever not-a-numbers they
choose, even if the two sides follow different rules, and so do the functions of the standard
library (`Library.agrees_of_mem_standard`).  Of other functions it has to be asked: one that
looks at the pattern of a not-a-number tells apart what is the same (`exists_beq_eval_ne`).
-/

namespace ReversePolish

/-! ## Constants that are the same -/

/-- Constants are the same exactly when they are one number in arithmetic. -/
theorem sameConstant_iff_toFloat_eq {x y : Double} : sameConstant x y ↔ x.toFloat = y.toFloat :=
  sameConstant_iff.trans Double.toFloat_eq_toFloat_iff.symm

/-- **Operators take the same constants to the same constant**, whatever not-a-numbers are
chosen on the two sides. -/
theorem Operator.sameConstant_apply {r r' : NaNRule} (op : Operator) {x x' y y' : Double}
    (hx : sameConstant x x') (hy : sameConstant y y') :
    sameConstant (@apply r op x y) (@apply r' op x' y') := by
  rw [sameConstant_iff_toFloat_eq] at hx hy
  unfold apply
  rw [sameConstant_iff, hx, hy]
  exact Double.canonical_result_eq _ _ _ _

theorem countsAsTrue_eq_of_sameConstant {x y : Double} (h : sameConstant x y) :
    countsAsTrue x = countsAsTrue y := by
  rw [countsAsTrue, countsAsTrue, sameConstant_iff_toFloat_eq.1 h]

theorem Number.text_eq_of_sameConstant {x y : Double} (h : sameConstant x y) :
    Number.text x = Number.text y := by
  rw [← text_canonical x, sameConstant_iff.1 h, text_canonical]

/-! ## Functions that agree -/

/-- Functions that compute the same constants from the same constants. -/
def NamedFunction.Agrees (f g : NamedFunction) : Prop :=
  ∀ x y, sameConstant x y → sameConstant (f.body x) (g.body y)

/-- What binary64 computes does not depend on the pattern of a not-a-number. -/
theorem NamedFunction.agrees_computed {r r' : NaNRule} {name : String} {f : Float → Float}
    {named : name ≠ ""} : (@computed r name f named).Agrees (@computed r' name f named) := by
  intro x y h
  rw [sameConstant_iff_toFloat_eq] at h
  unfold computed
  dsimp only
  rw [sameConstant_iff, h]
  exact Double.canonical_result_eq _ _ _ _

/-- The sign makes no difference to what is not a number. -/
theorem NamedFunction.agrees_abs : Agrees ⟨"abs", Double.abs, by decide⟩
    ⟨"abs", Double.abs, by decide⟩ := by
  intro x y h
  have hnan (z : Double) : z.abs.isNaN = z.isNaN := by
    rw [Double.isNaN, Double.abs, Double.rank_ofRank _ z.rank_lt, Double.isNaN]
  rw [sameConstant_iff, Double.canonical_eq_canonical_iff] at h ⊢
  rw [hnan, hnan]
  exact h.imp_left (congrArg Double.abs)

/-- What holds of the entries and of what is inserted holds of the entries afterwards. -/
theorem Catalog.forall_mem_foldl_insert {α : Type} {label : α → String} {p : α → Prop}
    {l : List α} (hl : ∀ a ∈ l, p a) {c : Catalog α label} (hc : ∀ a ∈ c.entries, p a) :
    ∀ a ∈ (l.foldl insert c).entries, p a := by
  induction l generalizing c with
  | nil => exact hc
  | cons b l ih =>
    obtain ⟨hb, hl⟩ := List.forall_mem_cons.1 hl
    refine ih hl fun a ha => ?_
    exact (mem_place ha).elim (fun h => h ▸ hb) (hc a)

/-- **The functions of the standard library do not look at the pattern of a not-a-number.** -/
theorem Library.agrees_of_mem_standard [NaNRule] :
    ∀ f ∈ Library.standard.entries, f.Agrees f := by
  refine Catalog.forall_mem_foldl_insert ?_ fun f hf => absurd hf List.not_mem_nil
  simp only [List.forall_mem_cons, NamedFunction.agrees_computed, NamedFunction.agrees_abs,
    true_and]
  exact fun f hf => absurd hf List.not_mem_nil

/-! ## Results that are the same -/

/-- Whether two results are the same constant, or report the same variable. -/
def sameResult : Except UnboundName Double → Except UnboundName Double → Bool
  | .ok x, .ok y => sameConstant x y
  | .error u, .error v => u == v
  | _, _ => false

theorem sameResult_self (r : Except UnboundName Double) : sameResult r r = true := by
  cases r with
  | ok x => exact sameConstant_self x
  | error u => exact beq_self_eq_true u

/-- Results that are the same report one variable, or are the same constant. -/
theorem sameResult_cases {r s : Except UnboundName Double} (h : sameResult r s) :
    (∃ u, r = .error u ∧ s = .error u) ∨
      ∃ x y, r = .ok x ∧ s = .ok y ∧ sameConstant x y := by
  cases r with
  | error u =>
    cases s with
    | error v => exact .inl ⟨u, rfl, by rw [eq_of_beq h]⟩
    | ok y => cases h
  | ok x =>
    cases s with
    | error v => cases h
    | ok y => exact .inr ⟨x, y, rfl, rfl, h⟩

namespace Expr

/-! ## What does not look into functions -/

section Same

variable {a b : Expr}

theorem worstCost_bare (e : Expr) : e.bare.worstCost = e.worstCost := by
  induction e with
  | const v => rfl
  | var name => rfl
  | binary op l r ihl ihr => rw [bare, worstCost, ihl, ihr, worstCost]
  | cond c t f ihc iht ihf => rw [bare, worstCost, ihc, iht, ihf, worstCost]
  | call g a ih => rw [bare, worstCost, ih, worstCost]

theorem names_bare (e : Expr) : e.bare.names = e.names := by
  induction e with
  | const v => rfl
  | var name => rfl
  | binary op l r ihl ihr => rw [bare, names_binary, ihl, ihr, names_binary]
  | cond c t f ihc iht ihf => rw [bare, names_cond, ihc, iht, ihf, names_cond]
  | call g a ih => rw [bare, names_call, ih, names_call]

theorem infixOnto_bare (e : Expr) (rest : List Char) :
    e.bare.infixOnto rest = e.infixOnto rest := by
  induction e generalizing rest with
  | const v => rw [bare, infixOnto, Number.chars_canonical, infixOnto]
  | var name => rfl
  | binary op l r ihl ihr => rw [bare, infixOnto, ihl, ihr, infixOnto]
  | cond c t f ihc iht ihf => rw [bare, infixOnto, ihc, iht, ihf, infixOnto]
  | call g a ih => rw [bare, infixOnto, ih, infixOnto]

theorem worstCost_eq_of_same (h : a.same b) : a.worstCost = b.worstCost := by
  rw [← worstCost_bare a, same_iff_bare_eq.1 h, worstCost_bare]

theorem freeVariables_eq_of_same (h : a.same b) : a.freeVariables = b.freeVariables := by
  rw [freeVariables, ← names_bare a, same_iff_bare_eq.1 h, names_bare, freeVariables]

theorem toInfix_eq_of_same (h : a.same b) : a.toInfix = b.toInfix := by
  rw [toInfix, ← infixOnto_bare a, same_iff_bare_eq.1 h, infixOnto_bare, toInfix]

end Same

/-! ## Expressions that are alike -/

/-- Expressions of the same shape and contents, the functions in them computing the same. -/
inductive Alike : Expr → Expr → Prop
  | const {x y : Double} (h : sameConstant x y) : Alike (const x) (const y)
  | var (name : VariableName) : Alike (var name) (var name)
  | binary (op : Operator) {l l' r r' : Expr} (hl : Alike l l') (hr : Alike r r') :
      Alike (binary op l r) (binary op l' r')
  | cond {c c' t t' f f' : Expr} (hc : Alike c c') (ht : Alike t t') (hf : Alike f f') :
      Alike (cond c t f) (cond c' t' f')
  | call {g g' : NamedFunction} {a a' : Expr} (hname : g.name = g'.name) (hbody : g.Agrees g')
      (ha : Alike a a') : Alike (call g a) (call g' a')

/-- What is the same is alike, if functions of one name agree. -/
theorem alike_of_same {a b : Expr} (h : a.same b)
    (hagree : ∀ f ∈ a.functions, ∀ g ∈ b.functions, f.name = g.name → f.Agrees g) :
    Alike a b := by
  induction a generalizing b with
  | const x =>
    cases b with
    | const y => exact .const h
    | _ => cases h
  | var m =>
    cases b with
    | var n =>
      obtain rfl : m = n := by simpa [same] using h
      exact .var m
    | _ => cases h
  | binary op l r ihl ihr =>
    cases b with
    | binary op' l' r' =>
      simp only [same, Bool.and_eq_true, beq_iff_eq] at h
      obtain ⟨⟨rfl, hl⟩, hr⟩ := h
      simp only [functions, List.mem_append, or_imp, forall_and] at hagree
      exact .binary op (ihl hl hagree.1.1) (ihr hr hagree.2.2)
    | _ => cases h
  | cond c t f ihc iht ihf =>
    cases b with
    | cond c' t' f' =>
      simp only [same, Bool.and_eq_true] at h
      obtain ⟨⟨hc, ht⟩, hf⟩ := h
      simp only [functions, List.mem_append, or_imp, forall_and] at hagree
      exact .cond (ihc hc hagree.1.1.1.1) (iht ht hagree.1.2.1.2) (ihf hf hagree.2.2)
    | _ => cases h
  | call g a ih =>
    cases b with
    | call g' a' =>
      simp only [same, Bool.and_eq_true, NamedFunction.beq_iff_name_eq] at h
      obtain ⟨hname, ha⟩ := h
      simp only [functions, List.mem_append, List.mem_singleton, or_imp, forall_and,
        forall_eq] at hagree
      exact .call hname (hagree.2.2 hname) (ih ha hagree.1.1)
    | _ => cases h

/-- An expression is alike to itself, if its functions agree with themselves. -/
theorem alike_self {e : Expr} (h : ∀ f ∈ e.functions, f.Agrees f) : Alike e e := by
  induction e with
  | const v => exact .const (sameConstant_self v)
  | var name => exact .var name
  | binary op l r ihl ihr =>
    simp only [functions, List.mem_append, or_imp, forall_and] at h
    exact .binary op (ihl h.1) (ihr h.2)
  | cond c t f ihc iht ihf =>
    simp only [functions, List.mem_append, or_imp, forall_and] at h
    exact .cond (ihc h.1.1) (iht h.1.2) (ihf h.2)
  | call g a ih =>
    simp only [functions, List.mem_append, List.mem_singleton, or_imp, forall_and,
      forall_eq] at h
    exact .call rfl h.2 (ih h.1)

/-- Functions of one name in one library are one function. -/
theorem alike_of_resolved {library : Library} {a b : Expr} (ha : a.Resolved library)
    (hb : b.Resolved library) (hagree : ∀ f ∈ a.functions, f.Agrees f) (h : a.same b) :
    Alike a b := by
  refine alike_of_same h fun f hf g hg hname => ?_
  have hfind : some f = some g := by rw [← ha f hf, ← hb g hg, hname]
  obtain rfl := Option.some.inj hfind
  exact hagree f hf

namespace Alike

variable {a b : Expr} {r r' : NaNRule}

theorem same (h : Alike a b) : a.same b := by
  induction h with
  | const h => exact h
  | var name => exact same_self _
  | binary op _ _ ihl ihr => simp [Expr.same, ihl, ihr]
  | cond _ _ _ ihc iht ihf => simp [Expr.same, ihc, iht, ihf]
  | call hname _ _ ih => simp [Expr.same, ih, NamedFunction.beq_iff_name_eq, hname]

/-! ### Values -/

/-- **What is alike has the same value**, or no value for the same reason. -/
theorem eval (h : Alike a b) (t : Bindings) :
    sameResult (@Expr.eval r t a) (@Expr.eval r' t b) := by
  induction h with
  | const h => exact h
  | var name => exact sameResult_self _
  | binary op _ _ ihl ihr =>
    obtain ⟨u, hu, hu'⟩ | ⟨x, x', hl, hl', hx⟩ := sameResult_cases ihl
    · simp [Expr.eval, hu, hu', sameResult]
    · obtain ⟨u, hu, hu'⟩ | ⟨y, y', hr, hr', hy⟩ := sameResult_cases ihr
      · simp [Expr.eval, hl, hl', hu, hu', sameResult]
      · simpa [Expr.eval, hl, hl', hr, hr', sameResult] using op.sameConstant_apply hx hy
  | @cond c c' p p' q q' _ _ _ ihc ihp ihq =>
    obtain ⟨u, hu, hu'⟩ | ⟨x, x', hc, hc', hx⟩ := sameResult_cases ihc
    · simp [Expr.eval, hu, hu', sameResult]
    · -- The conditions count as the same, so both choose the same branch.
      simp only [Expr.eval, hc, hc']
      rw [countsAsTrue_eq_of_sameConstant hx]
      cases countsAsTrue x' with
      | true => exact ihp
      | false => exact ihq
  | @call g g' a a' _ hbody _ ih =>
    obtain ⟨u, hu, hu'⟩ | ⟨x, x', ha, ha', hx⟩ := sameResult_cases ih
    · simp [Expr.eval, hu, hu', sameResult]
    · simpa [Expr.eval, ha, ha', sameResult] using hbody x x' hx

/-! ### What is left after simplification -/

/-- What is alike is a constant on both sides or on neither. -/
theorem constant?_cases (h : Alike a b) :
    (a.constant? = none ∧ b.constant? = none) ∨
      ∃ x y, a.constant? = some x ∧ b.constant? = some y ∧ sameConstant x y := by
  cases h with
  | @const x y h => exact .inr ⟨x, y, rfl, rfl, h⟩
  | _ => exact .inl ⟨rfl, rfl⟩

theorem foldBinary (op : Operator) {p p' q q' : Expr} (hp : Alike p p') (hq : Alike q q') :
    Alike (@Expr.foldBinary r op p q) (@Expr.foldBinary r' op p' q') := by
  unfold Expr.foldBinary
  obtain ⟨hx, hx'⟩ | ⟨x, x', hx, hx', hxx⟩ := hp.constant?_cases
  · rw [hx, hx']
    exact .binary op hp hq
  · obtain ⟨hy, hy'⟩ | ⟨y, y', hy, hy', hyy⟩ := hq.constant?_cases
    · rw [hx, hx', hy, hy']
      exact .binary op hp hq
    · rw [hx, hx', hy, hy']
      exact .const (op.sameConstant_apply hxx hyy)

theorem foldCond {c c' t t' f f' : Expr} (hc : Alike c c') (ht : Alike t t') (hf : Alike f f') :
    Alike (Expr.foldCond c t f) (Expr.foldCond c' t' f') := by
  unfold Expr.foldCond
  obtain ⟨hx, hx'⟩ | ⟨x, x', hx, hx', hxx⟩ := hc.constant?_cases
  · rw [hx, hx']
    exact .cond hc ht hf
  · rw [hx, hx']
    dsimp only
    rw [countsAsTrue_eq_of_sameConstant hxx]
    split
    · exact ht
    · exact hf

theorem foldCall {g g' : NamedFunction} (hname : g.name = g'.name) (hbody : g.Agrees g')
    {a a' : Expr} (ha : Alike a a') : Alike (Expr.foldCall g a) (Expr.foldCall g' a') := by
  unfold Expr.foldCall
  obtain ⟨hx, hx'⟩ | ⟨x, x', hx, hx', hxx⟩ := ha.constant?_cases
  · rw [hx, hx']
    exact .call hname hbody ha
  · rw [hx, hx']
    exact .const (hbody x x' hxx)

/-- **Simplified with the same variables, what is alike stays alike.** -/
theorem simplify (h : Alike a b) (t : Bindings) :
    Alike (@Expr.simplify r t a) (@Expr.simplify r' t b) := by
  induction h with
  | const h => exact .const h
  | var name =>
    simp only [Expr.simplify, simplifyVar]
    cases t.value? name.text with
    | some v => exact .const (sameConstant_self v)
    | none => exact .var name
  | binary op _ _ ihl ihr => exact ihl.foldBinary op ihr
  | cond _ _ _ ihc iht ihf => exact ihc.foldCond iht ihf
  | call hname hbody _ ih => exact ih.foldCall hname hbody

end Alike

/-! ## Same expressions over one library -/

/-- **The choice of not-a-numbers shows in nothing else than a not-a-number.**  Under two rules an
expression has the same value or lacks the same variable, and simplifies to what is the same. -/
theorem sameResult_eval_of_rules {e : Expr} (h : ∀ f ∈ e.functions, f.Agrees f) (r r' : NaNRule)
    (t : Bindings) :
    sameResult (@eval r t e) (@eval r' t e) ∧ @simplify r t e == @simplify r' t e := by
  have halike : Alike e e := alike_self h
  exact ⟨halike.eval t, (halike.simplify t).same⟩

/-- **Expressions that are the same cannot be told apart.**  They are counted, listed and
written the same way; and if the functions of both come from one library and compute the same
constants from the same constants, they have the same value or lack the same variable, and
simplify to what is again the same, whatever the variables are and whatever not-a-numbers the
operations choose. -/
theorem observations_of_beq [NaNRule] {a b : Expr} (h : a == b) :
    a.worstCost = b.worstCost ∧ a.freeVariables = b.freeVariables ∧ a.toInfix = b.toInfix ∧
      a.toPostfix = b.toPostfix ∧
      ∀ {library : Library}, a.Resolved library → b.Resolved library →
        (∀ f ∈ a.functions, f.Agrees f) → ∀ t : Bindings,
          sameResult (a.eval t) (b.eval t) ∧ a.simplify t == b.simplify t := by
  refine ⟨worstCost_eq_of_same h, freeVariables_eq_of_same h, toInfix_eq_of_same h,
    toPostfix_eq_of_same h, fun ha hb hagree t => ?_⟩
  have halike : Alike a b := alike_of_resolved ha hb hagree h
  exact ⟨halike.eval t, (halike.simplify t).same⟩

/-- Two not-a-numbers of different patterns, which count as true and are handed on by an operator
and by a function.  The values have different patterns as well, and yet they are the same
constant. -/
theorem observations_of_beq_abs :
    let tree (bits : UInt64) : Expr :=
      cond (const ⟨bits⟩)
        (call ⟨"abs", Double.abs, by decide⟩ (binary .add (const 1) (const ⟨bits⟩)))
        (var ⟨"x", rfl⟩)
    let a := tree 0x7FF8000000000001
    let b := tree 0xFFF8000000000002
    a == b ∧ a.Resolved Library.standard ∧ b.Resolved Library.standard ∧
      (∀ f ∈ a.functions, f.Agrees f) ∧
      ∀ t : Bindings, a.eval t = .ok ⟨0x7FF8000000000001⟩ ∧ b.eval t = .ok ⟨0x7FF8000000000002⟩ ∧
        sameResult (a.eval t) (b.eval t) ∧ a.simplify t == b.simplify t := by
  intro tree a b
  have hsame : a == b := by decide +kernel
  have hresolved : ∀ bits, (tree bits).Resolved Library.standard := fun bits =>
    resolved_cond.2 ⟨resolved_const _, resolved_call.2 ⟨resolved_binary.2
      ⟨resolved_const _, resolved_const _⟩, rfl⟩, resolved_var _⟩
  have hagree : ∀ f ∈ a.functions, f.Agrees f := fun f hf => by
    obtain rfl : f = _ := List.mem_singleton.1 hf
    exact NamedFunction.agrees_abs
  obtain ⟨-, -, -, -, hlibrary⟩ := observations_of_beq hsame
  have hvalue : a.eval Catalog.empty = .ok ⟨0x7FF8000000000001⟩ ∧
      b.eval Catalog.empty = .ok ⟨0x7FF8000000000002⟩ := by decide +kernel
  exact ⟨hsame, hresolved _, hresolved _, hagree, fun t =>
    ⟨hvalue.1, hvalue.2, hlibrary (hresolved _) (hresolved _) hagree t⟩⟩

/-- Neither condition can be left out.  Functions of one name from two libraries can have different
values, since the name says nothing about what is computed; and one function has different values
at two not-a-numbers if it looks at their patterns. -/
theorem exists_beq_eval_ne :
    (∃ a b : Expr, a == b ∧ (∀ f ∈ a.functions ++ b.functions, f.Agrees f) ∧
      ∀ t : Bindings, sameResult (a.eval t) (b.eval t) = false) ∧
    ∃ (library : Library) (a b : Expr), a == b ∧ a.Resolved library ∧ b.Resolved library ∧
      ∀ t : Bindings, sameResult (a.eval t) (b.eval t) = false := by
  constructor
  · let keep : NamedFunction := ⟨"f", id, by decide⟩
    let forget : NamedFunction := ⟨"f", fun _ => 1, by decide⟩
    have hkeep : keep.Agrees keep := fun x y h => h
    have hforget : forget.Agrees forget := fun x y _ => sameConstant_self 1
    have hvalue : sameResult ((call keep (const 0)).eval Catalog.empty)
        ((call forget (const 0)).eval Catalog.empty) = false := by decide +kernel
    refine ⟨call keep (const 0), call forget (const 0), by decide +kernel, ?_, fun t => hvalue⟩
    simp [functions, hkeep, hforget]
  · let look : NamedFunction :=
      ⟨"f", fun x => if x = Double.quietNaN then 0 else 1, by decide⟩
    let library : Library := Catalog.empty.insert look
    have hresolved : ∀ v, (call look (const v)).Resolved library := fun v =>
      resolved_call.2 ⟨resolved_const v, Catalog.find?_insert_self Catalog.empty look⟩
    have hvalue : sameResult ((call look (const .quietNaN)).eval Catalog.empty)
        ((call look (const ⟨0xFFF8000000000000⟩)).eval Catalog.empty) = false := by decide +kernel
    exact ⟨library, call look (const .quietNaN), call look (const ⟨0xFFF8000000000000⟩),
      by decide +kernel, hresolved _, hresolved _, fun t => hvalue⟩

end Expr

end ReversePolish
