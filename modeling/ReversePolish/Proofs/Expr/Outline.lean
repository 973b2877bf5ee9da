import ReversePolish.Expr.Outline
import ReversePolish.Proofs.Expr.InfixNotation
import ReversePolish.Proofs.Text.Quoted

/-!
# What outlines tell apart

An outline is for looking at, so every character of it should show, and outlines that look the
same should be of the same thing.  Of tokens both is true without condition
(`Token.shows_of_mem_outline`, `Token.outline_eq_iff`).

The outline of an expression has the names of variables between quotes, but those of functions as
they are.  So every character of it shows if those of the names of functions do
(`Expr.shows_of_mem_outline`), and a name that reads like the end of one part and the beginning of
the next could be mistaken for them.  There is a space between the parts of an outline, so this
does not happen if the names of functions have none: then the outline determines the expression
(`Expr.beq_iff_outline_eq`).  It is taken apart in front of an arbitrary rest, as infix notation
is, but here every part begins with the kind of its node.
-/

namespace ReversePolish

open Quoted

/-! ## Parts -/

theorem Operator.shows_of_mem_outline (o : Operator) :
    ∀ c ∈ o.outline.toList, shows c = true := by
  cases o <;> exact shows_of_all rfl

theorem Operator.outline_append_inj {o p : Operator} {r s : List Char}
    (h : o.outline.toList ++ r = p.outline.toList ++ s) : o = p ∧ r = s := by
  cases o <;> cases p <;> simp_all [outline]

theorem Number.shows_of_mem_text (v : Double) : ∀ c ∈ (text v).toList, shows c = true := by
  intro c hc
  have hrange := Lexeme.toNat_of_isNumeralChar
    (Lexeme.isNumeralChar_of_literal? (literal?_text v) c hc)
  refine shows_of_isPlain ?_
  simp only [isPlain, Bool.and_eq_true, decide_eq_true_eq]
  omega

/-- In front of a parenthesis that closes, a number can be read. -/
theorem Number.text_append_inj {x y : Double} {r s : List Char}
    (h : (text x).toList ++ ')' :: r = (text y).toList ++ ')' :: s) :
    x.canonical = y.canonical ∧ r = s := by
  rw [text, text, String.toList_ofList, String.toList_ofList] at h
  obtain ⟨hchars, hrest⟩ := append_inj_of_sep (isDelimiter_eq_false_of_mem_chars x)
    (isDelimiter_eq_false_of_mem_chars y) (by simp [isDelimiter, isParenthesis])
    (by simp [isDelimiter, isParenthesis]) h
  exact ⟨canonical_eq_of_chars_eq hchars, (List.cons.inj hrest).2⟩

/-- In front of a comma and a space, the name of a function without a space can be read. -/
theorem NamedFunction.outline_append_inj {f g : NamedFunction}
    (hf : ∀ c ∈ f.name.toList, (c == ' ') = false) (hg : ∀ c ∈ g.name.toList, (c == ' ') = false)
    {r s : List Char} (h : f.outline.toList ++ (", argument: ".toList ++ r) =
      g.outline.toList ++ (", argument: ".toList ++ s)) :
    f.name = g.name ∧ r = s := by
  have hword {n : NamedFunction} (hn : ∀ c ∈ n.name.toList, (c == ' ') = false) :
      ∀ c ∈ n.name.toList ++ ['(', ')', ','], (c == ' ') = false :=
    List.forall_mem_append.2 ⟨hn, by simp⟩
  have hsplit (n : NamedFunction) (rest : List Char) :
      n.outline.toList ++ (", argument: ".toList ++ rest) =
        (n.name.toList ++ ['(', ')', ',']) ++ (" argument: ".toList ++ rest) := by
    simp [outline, callMark]
  rw [hsplit, hsplit] at h
  obtain ⟨hname, hrest⟩ := append_inj_of_sep (hword hf) (hword hg) (by simp) (by simp) h
  exact ⟨String.toList_inj.1 (List.append_cancel_right hname), List.append_cancel_left hrest⟩

/-! ## Tokens -/

theorem Lexeme.outline_canonical (x : Lexeme) : x.canonical.outline = x.outline := by
  cases x with
  | number v => rw [canonical, outline, Number.text_canonical, outline]
  | _ => rfl

theorem Lexeme.outline_append_inj {x y : Lexeme} {r s : List Char}
    (h : x.outline.toList ++ ' ' :: r = y.outline.toList ++ ' ' :: s) :
    x.canonical = y.canonical ∧ r = s := by
  cases x with
  | number v =>
    cases y with
    | number w =>
      simp only [outline, String.toList_append, List.append_assoc, List.append_cancel_left_eq] at h
      obtain ⟨hvalue, hrest⟩ := Number.text_append_inj h
      exact ⟨congrArg number hvalue, (List.cons.inj hrest).2⟩
    | _ => simp [outline] at h
  | variableNamed m =>
    cases y with
    | variableNamed n =>
      simp only [outline, String.toList_append, List.append_assoc, List.append_cancel_left_eq] at h
      obtain ⟨rfl, hrest⟩ := quote_append_inj h
      exact ⟨rfl, (List.cons.inj (List.cons.inj hrest).2).2⟩
    | _ => simp [outline] at h
  | operator o =>
    cases y with
    | operator p =>
      simp only [outline, String.toList_append, List.append_assoc, List.append_cancel_left_eq] at h
      obtain ⟨rfl, hrest⟩ := Operator.outline_append_inj h
      exact ⟨rfl, (List.cons.inj (List.cons.inj hrest).2).2⟩
    | _ => simp [outline] at h
  | conditional =>
    cases y with
    | conditional => exact ⟨rfl, (List.cons.inj (List.append_cancel_left h)).2⟩
    | _ => simp [outline] at h
  | call m =>
    cases y with
    | call n =>
      simp only [outline, String.toList_append, List.append_assoc, List.append_cancel_left_eq] at h
      obtain ⟨rfl, hrest⟩ := quote_append_inj h
      exact ⟨rfl, (List.cons.inj (List.cons.inj hrest).2).2⟩
    | _ => simp [outline] at h

theorem Lexeme.shows_of_mem_outline (x : Lexeme) : ∀ c ∈ x.outline.toList, shows c = true := by
  have hmark : ∀ c ∈ ")".toList, shows c = true := shows_of_all rfl
  cases x with
  | number v =>
    simp only [outline, String.toList_append, List.forall_mem_append]
    exact ⟨⟨shows_of_all rfl, Number.shows_of_mem_text v⟩, hmark⟩
  | variableNamed name =>
    simp only [outline, String.toList_append, List.forall_mem_append]
    exact ⟨⟨shows_of_all rfl, shows_of_mem_quote name⟩, hmark⟩
  | operator op =>
    simp only [outline, String.toList_append, List.forall_mem_append]
    exact ⟨⟨shows_of_all rfl, op.shows_of_mem_outline⟩, hmark⟩
  | conditional => exact shows_of_all rfl
  | call name =>
    simp only [outline, String.toList_append, List.forall_mem_append]
    exact ⟨⟨shows_of_all rfl, shows_of_mem_quote name⟩, hmark⟩

namespace Token

/-- **Tokens with one outline have one text and one meaning**, but for not-a-numbers. -/
theorem outline_eq_iff {t u : Token} :
    t.outline = u.outline ↔ t.text = u.text ∧ t.lexeme.canonical = u.lexeme.canonical := by
  constructor
  · intro h
    have hchars := congrArg String.toList h
    simp only [outline, String.toList_append, List.append_assoc] at hchars
    obtain ⟨hlexeme, htext⟩ := Lexeme.outline_append_inj hchars
    exact ⟨quote_injective (String.toList_inj.1 htext), hlexeme⟩
  · rintro ⟨htext, hlexeme⟩
    rw [outline, outline, ← t.lexeme.outline_canonical, hlexeme, u.lexeme.outline_canonical, htext]

theorem shows_of_mem_outline (t : Token) : ∀ c ∈ t.outline.toList, shows c = true := by
  rw [outline, String.toList_append, String.toList_append]
  exact List.forall_mem_append.2 ⟨List.forall_mem_append.2
    ⟨t.lexeme.shows_of_mem_outline, shows_of_all rfl⟩, shows_of_mem_quote t.text⟩

end Token

/-! ## Expressions -/

namespace Expr

theorem outlineBehind_eq (out : String) (e : Expr) : e.outlineBehind out = out ++ e.outline := by
  induction e generalizing out with
  | const v => simp [outline, outlineBehind, String.append_assoc]
  | var name => simp [outline, outlineBehind, String.append_assoc]
  | binary op l r ihl ihr =>
    rw [outline, outlineBehind, outlineBehind, ihr, ihl, ihr, ihl]
    simp [String.append_assoc]
  | cond c t f ihc iht ihf =>
    rw [outline, outlineBehind, outlineBehind, ihf, iht, ihc, ihf, iht, ihc]
    simp [String.append_assoc]
  | call g a ih =>
    rw [outline, outlineBehind, outlineBehind, ih, ih]
    simp [String.append_assoc]

section Node

variable {op : Operator} {g : NamedFunction} {c t f l r a : Expr}

@[simp] theorem outline_const (v : Double) :
    (const v).outline = "Constant(" ++ (Number.text v ++ ")") := by
  simp [outline, outlineBehind, String.append_assoc]

@[simp] theorem outline_var (name : VariableName) :
    (var name).outline = "Variable(VarName(" ++ (quote name.text ++ "))") := by
  simp [outline, outlineBehind, String.append_assoc]

@[simp] theorem outline_binary :
    (binary op l r).outline = "Operation \x7b op: " ++ (op.outline ++ (", left: " ++ (l.outline ++
      (", right: " ++ (r.outline ++ " \x7d"))))) := by
  rw [outline, outlineBehind, outlineBehind_eq, outlineBehind_eq]
  simp [String.append_assoc]

@[simp] theorem outline_cond :
    (cond c t f).outline = "Conditional \x7b condition: " ++ (c.outline ++ (", if_true: " ++
      (t.outline ++ (", if_false: " ++ (f.outline ++ " \x7d"))))) := by
  rw [outline, outlineBehind, outlineBehind_eq, outlineBehind_eq, outlineBehind_eq]
  simp [String.append_assoc]

@[simp] theorem outline_call :
    (call g a).outline = "Application \x7b function: " ++ (g.outline ++ (", argument: " ++
      (a.outline ++ " \x7d"))) := by
  rw [outline, outlineBehind, outlineBehind_eq]
  simp [String.append_assoc]

end Node

/-- No name of a function has a space in it. -/
def Spaceless (e : Expr) : Prop := ∀ f ∈ e.functions, ∀ c ∈ f.name.toList, (c == ' ') = false

/-- **Outlines can be taken apart**, whatever stands behind them. -/
theorem same_of_outline_append_eq {a b : Expr} (ha : a.Spaceless) (hb : b.Spaceless)
    {r s : List Char} (h : a.outline.toList ++ r = b.outline.toList ++ s) : a.same b ∧ r = s := by
  induction a generalizing b r s with
  | const v =>
    cases b with
    | const w =>
      simp only [outline_const, String.toList_append, List.append_assoc,
        List.append_cancel_left_eq] at h
      obtain ⟨hvalue, hrest⟩ := Number.text_append_inj h
      exact ⟨sameConstant_iff.2 hvalue, hrest⟩
    | _ => simp at h
  | var m =>
    cases b with
    | var n =>
      simp only [outline_var, String.toList_append, List.append_assoc,
        List.append_cancel_left_eq] at h
      obtain ⟨hname, hrest⟩ := quote_append_inj h
      obtain rfl : m = n := VariableName.eq_of_text_eq hname
      exact ⟨same_self _, List.append_cancel_left hrest⟩
    | _ => simp at h
  | binary op a₁ a₂ ih₁ ih₂ =>
    cases b with
    | binary op' b₁ b₂ =>
      simp only [Spaceless, functions, List.mem_append, or_imp, forall_and] at ha hb
      simp only [outline_binary, String.toList_append, List.append_assoc,
        List.append_cancel_left_eq] at h
      obtain ⟨rfl, hleft⟩ := Operator.outline_append_inj h
      obtain ⟨hsame₁, hright⟩ := ih₁ ha.1 hb.1 (List.append_cancel_left hleft)
      obtain ⟨hsame₂, hrest⟩ := ih₂ ha.2 hb.2 (List.append_cancel_left hright)
      exact ⟨by simp [same, hsame₁, hsame₂], List.append_cancel_left hrest⟩
    | _ => simp at h
  | cond c t f ihc iht ihf =>
    cases b with
    | cond c' t' f' =>
      simp only [Spaceless, functions, List.mem_append, or_imp, forall_and] at ha hb
      simp only [outline_cond, String.toList_append, List.append_assoc,
        List.append_cancel_left_eq] at h
      obtain ⟨hsamec, htrue⟩ := ihc ha.1.1 hb.1.1 h
      obtain ⟨hsamet, hfalse⟩ := iht ha.1.2 hb.1.2 (List.append_cancel_left htrue)
      obtain ⟨hsamef, hrest⟩ := ihf ha.2 hb.2 (List.append_cancel_left hfalse)
      exact ⟨by simp [same, hsamec, hsamet, hsamef], List.append_cancel_left hrest⟩
    | _ => simp at h
  | call g a ih =>
    cases b with
    | call g' a' =>
      simp only [Spaceless, functions, List.mem_append, List.mem_singleton, or_imp, forall_and,
        forall_eq] at ha hb
      simp only [outline_call, String.toList_append, List.append_assoc,
        List.append_cancel_left_eq] at h
      obtain ⟨hname, hargument⟩ := NamedFunction.outline_append_inj ha.2 hb.2 h
      obtain ⟨hsame, hrest⟩ := ih ha.1 hb.1 hargument
      exact ⟨by simp [same, NamedFunction.beq_iff_name_eq, hname, hsame],
        List.append_cancel_left hrest⟩
    | _ => simp at h

theorem outline_bare (e : Expr) : e.bare.outline = e.outline := by
  induction e with
  | const v => rw [bare, outline_const, Number.text_canonical, outline_const]
  | var name => rfl
  | binary op l r ihl ihr => rw [bare, outline_binary, ihl, ihr, outline_binary]
  | cond c t f ihc iht ihf => rw [bare, outline_cond, ihc, iht, ihf, outline_cond]
  | call g a ih =>
    rw [bare, outline_call, ih, outline_call]
    rfl

/-- **The outline determines the expression**, if no name of a function has a space in it.
Expressions that are the same have one outline in any case. -/
theorem beq_iff_outline_eq {a b : Expr} (ha : a.Spaceless) (hb : b.Spaceless) :
    a == b ↔ a.outline = b.outline := by
  constructor
  · intro h
    rw [← outline_bare a, same_iff_bare_eq.1 h, outline_bare]
  · intro h
    have hchars : a.outline.toList ++ [] = b.outline.toList ++ [] := by rw [h]
    exact (same_of_outline_append_eq ha hb hchars).1

/-- A name that goes on into the next part can be cut at either of two places. -/
example :
    (call ⟨"p(), argument: Application \x7b function: q", id, by decide⟩
      (call ⟨"r", id, by decide⟩ (var ⟨"x", rfl⟩))).outline =
    (call ⟨"p", id, by decide⟩
      (call ⟨"q(), argument: Application \x7b function: r", id, by decide⟩
        (var ⟨"x", rfl⟩))).outline :=
  rfl

/-- **Every character of an outline shows**, if those of the names of functions do. -/
theorem shows_of_mem_outline {e : Expr}
    (h : ∀ f ∈ e.functions, ∀ c ∈ f.name.toList, shows c = true) :
    ∀ c ∈ e.outline.toList, shows c = true := by
  induction e with
  | const v =>
    simp only [outline_const, String.toList_append, List.forall_mem_append]
    exact ⟨shows_of_all rfl, Number.shows_of_mem_text v, shows_of_all rfl⟩
  | var name =>
    simp only [outline_var, String.toList_append, List.forall_mem_append]
    exact ⟨shows_of_all rfl, shows_of_mem_quote name.text, shows_of_all rfl⟩
  | binary op l r ihl ihr =>
    simp only [functions, List.forall_mem_append] at h
    simp only [outline_binary, String.toList_append, List.forall_mem_append]
    exact ⟨shows_of_all rfl, op.shows_of_mem_outline, shows_of_all rfl, ihl h.1,
      shows_of_all rfl, ihr h.2, shows_of_all rfl⟩
  | cond c t f ihc iht ihf =>
    simp only [functions, List.forall_mem_append] at h
    simp only [outline_cond, String.toList_append, List.forall_mem_append]
    exact ⟨shows_of_all rfl, ihc h.1.1, shows_of_all rfl, iht h.1.2, shows_of_all rfl, ihf h.2,
      shows_of_all rfl⟩
  | call g a ih =>
    simp only [functions, List.forall_mem_append, List.forall_mem_singleton] at h
    simp only [outline_call, NamedFunction.outline, String.toList_append, List.forall_mem_append]
    exact ⟨shows_of_all rfl, ⟨h.2, shows_of_all rfl⟩, shows_of_all rfl, ih h.1,
      shows_of_all rfl⟩

end Expr

end ReversePolish
