import ReversePolish.Proofs.Expr.Agreement

/-!
# Infix notation determines the expression

In infix notation every operator and conditional stands in a pair of parentheses of its own and
every argument in one behind the name of its function, so the notation can be taken apart
again.  It is taken apart in front of an arbitrary rest, because that is how an operand stands
in a longer text: two expressions whose texts agree, each in front of a rest that an operand
can have behind it, are the same, and so are the rests (`same_of_infixOnto_eq`).

A text begins with a word, up to the first parenthesis or space (`head`), and goes on behind it
(`tail`).  An opening parenthesis behind an empty word begins an operator or a conditional, one
behind a word that is not empty the argument of a function; if neither follows, the word is the
whole operand, a number or a variable.  Which operator it is, or that it is a conditional, shows
only behind the first operand.  By then that operand has been taken apart, so a variable that is
spelled as one of the marks is not mistaken for it.

All this supposes that the words are words: a name of a variable has no space in it but may have
parentheses, and a name of a function may have both.  `Spelled` excludes them.
-/

namespace ReversePolish

/-! ## Words -/

/-- The characters that enclose a part of an expression in infix notation. -/
def isParenthesis (c : Char) : Bool := c = '(' || c = ')'

/-- The characters that end a word in infix notation. -/
def isDelimiter (c : Char) : Bool := isParenthesis c || c = ' '

/-- Between spaces, operators are told apart by their symbols. -/
theorem Operator.symbol_append_inj {o p : Operator} {r s : List Char}
    (h : o.symbol.toList ++ r = p.symbol.toList ++ s) : o = p ∧ r = s := by
  cases o <;> cases p <;> simp_all [symbol]

/-- The mark of a conditional is no operator. -/
theorem Operator.symbol_append_ne (o : Operator) (r s : List Char) :
    o.symbol.toList ++ r ≠ '?' :: s := by
  cases o <;> simp [symbol]

theorem Number.isDelimiter_eq_false_of_mem_chars (v : Double) :
    ∀ c ∈ chars v, isDelimiter c = false := by
  intro c hc
  have hchar := isNumeralChar_of_mem (literalOfChars?_chars v) c hc
  by_contra hdelimiter
  simp only [isDelimiter, isParenthesis, Bool.or_eq_true, decide_eq_true_eq,
    Bool.not_eq_false] at hdelimiter
  rcases hdelimiter with (rfl | rfl) | rfl <;> exact absurd hchar (by decide)

/-- A number that is written is not nothing. -/
theorem Number.chars_ne_nil (v : Double) : chars v ≠ [] := by
  intro hnil
  have hread := literalOfChars?_chars v
  rw [hnil] at hread
  cases hread

/-- A number is not written as the name of a variable. -/
theorem Number.chars_ne_text (v : Double) (name : VariableName) : chars v ≠ name.text.toList := by
  intro h
  obtain ⟨-, -, -, -, hnumber, -⟩ := Lexeme.namesVariable_iff.1 name.isWord
  rw [literal?, ← h, literalOfChars?_chars] at hnumber
  cases hnumber

namespace Expr

/-- The names in an expression do not get into the way of infix notation: none has a parenthesis
in it, and a name of a function has no space either. -/
@[mk_iff]
structure Spelled (e : Expr) : Prop where
  names : ∀ x ∈ e.names, ∀ c ∈ x.toList, isParenthesis c = false
  functions : ∀ f ∈ e.functions, ∀ c ∈ f.name.toList, isDelimiter c = false

@[simp] theorem spelled_const (v : Double) : (const v).Spelled := by
  simp [spelled_iff, functions]

@[simp] theorem spelled_var_iff {name : VariableName} :
    (var name).Spelled ↔ ∀ c ∈ name.text.toList, isParenthesis c = false := by
  simp [spelled_iff, functions]

@[simp] theorem spelled_binary_iff {op : Operator} {l r : Expr} :
    (binary op l r).Spelled ↔ l.Spelled ∧ r.Spelled := by
  simp only [spelled_iff, names_binary, functions, List.mem_append, or_imp, forall_and]
  exact and_and_and_comm

@[simp] theorem spelled_cond_iff {c t f : Expr} :
    (cond c t f).Spelled ↔ c.Spelled ∧ t.Spelled ∧ f.Spelled := by
  simp only [spelled_iff, names_cond, functions, List.mem_append, or_imp, forall_and]
  tauto

@[simp] theorem spelled_call_iff {g : NamedFunction} {a : Expr} :
    (call g a).Spelled ↔
      a.Spelled ∧ ∀ c ∈ g.name.toList, isDelimiter c = false := by
  simp only [spelled_iff, names_call, functions, List.mem_append, List.mem_singleton, or_imp,
    forall_and, forall_eq, and_assoc]

/-! ## How a text begins -/

/-- The word that infix notation begins with. -/
def head : Expr → List Char
  | const v => Number.chars v
  | var name => name.text.toList
  | binary _ _ _ => []
  | cond _ _ _ => []
  | call g _ => g.name.toList

/-- What stands behind that word, in front of a rest. -/
def tail : Expr → List Char → List Char
  | const _, rest => rest
  | var _, rest => rest
  | binary op l r, rest =>
    '(' :: l.infixOnto (' ' :: (op.symbol.toList ++ ' ' :: r.infixOnto (')' :: rest)))
  | cond c t f, rest =>
    '(' :: c.infixOnto (' ' :: '?' :: ' ' :: t.infixOnto
      (' ' :: ':' :: ' ' :: f.infixOnto (')' :: rest)))
  | call _ a, rest => '(' :: a.infixOnto (')' :: rest)

theorem infixOnto_eq_head_append_tail (e : Expr) (rest : List Char) :
    e.infixOnto rest = e.head ++ e.tail rest := by
  cases e <;> rfl

/-- The word has no delimiter in it. -/
theorem Spelled.isDelimiter_eq_false {e : Expr} (h : e.Spelled) :
    ∀ c ∈ e.head, isDelimiter c = false := by
  cases e with
  | const v => exact Number.isDelimiter_eq_false_of_mem_chars v
  | var name =>
    intro c hc
    obtain ⟨-, hgap, -⟩ := Lexeme.namesVariable_iff.1 name.isWord
    have hparenthesis := spelled_var_iff.1 h c hc
    have hspace : c ≠ ' ' := fun he => absurd (hgap c hc) (by rw [he]; decide)
    simp [isDelimiter, hparenthesis, hspace]
  | binary op l r => intro c hc; cases hc
  | cond c t f => intro c hc; cases hc
  | call g a => exact (spelled_call_iff.1 h).2

/-- What can stand behind an operand: nothing, a space or a closing parenthesis. -/
def Closed (rest : List Char) : Prop := ∀ c ∈ rest.head?, c = ' ' ∨ c = ')'

theorem closed_nil : Closed [] := nofun

theorem closed_space (rest : List Char) : Closed (' ' :: rest) := by simp [Closed]

theorem closed_parenthesis (rest : List Char) : Closed (')' :: rest) := by simp [Closed]

/-- Behind the word stands a delimiter, if anything. -/
theorem isDelimiter_of_mem_tail (e : Expr) {rest : List Char} (h : Closed rest) :
    ∀ c ∈ (e.tail rest).head?, isDelimiter c = true := by
  have hrest : ∀ c ∈ rest.head?, isDelimiter c = true := by
    intro c hc
    rcases h c hc with rfl | rfl <;> rfl
  cases e with
  | const v => exact hrest
  | var name => exact hrest
  | binary op l r => simp [tail, isDelimiter, isParenthesis]
  | cond c t f => simp [tail, isDelimiter, isParenthesis]
  | call g a => simp [tail, isDelimiter, isParenthesis]

/-! ## What the beginning of a text shows -/

/-- The three ways in which an operand is written. -/
inductive Form where
  /-- A word by itself. -/
  | leaf
  /-- Operands in a pair of parentheses. -/
  | group
  /-- A word with a pair of parentheses behind it. -/
  | application

/-- The way in which an expression is written. -/
def form : Expr → Form
  | const _ => .leaf
  | var _ => .leaf
  | binary _ _ _ => .group
  | cond _ _ _ => .group
  | call _ _ => .application

/-- Only operands in parentheses begin without a word. -/
theorem head_eq_nil_iff {e : Expr} : e.head = [] ↔ e.form = .group := by
  cases e with
  | const v => exact iff_of_false (Number.chars_ne_nil v) nofun
  | var name =>
    obtain ⟨hne, -⟩ := Lexeme.namesVariable_iff.1 name.isWord
    exact iff_of_false (fun h => hne (String.toList_eq_nil_iff.1 h)) nofun
  | binary op l r => exact iff_of_true rfl rfl
  | cond c t f => exact iff_of_true rfl rfl
  | call g a => exact iff_of_false (fun h => g.named (String.toList_eq_nil_iff.1 h)) nofun

/-- Only a word by itself is not followed by a parenthesis that opens. -/
theorem head?_tail_ne_iff {e : Expr} {rest : List Char} (h : Closed rest) :
    (e.tail rest).head? ≠ some '(' ↔ e.form = .leaf := by
  have hrest : rest.head? ≠ some '(' := by
    intro hopen
    exact absurd (h '(' hopen) (by decide)
  cases e with
  | const v => exact iff_of_true hrest rfl
  | var name => exact iff_of_true hrest rfl
  | binary op l r => exact iff_of_false (fun hne => hne rfl) nofun
  | cond c t f => exact iff_of_false (fun hne => hne rfl) nofun
  | call g a => exact iff_of_false (fun hne => hne rfl) nofun

/-- **Texts that agree are written in the same way, begin with the same word and go on with the
same text.** -/
theorem form_head_tail_eq {a b : Expr} (ha : a.Spelled) (hb : b.Spelled) {r s : List Char}
    (hr : Closed r) (hs : Closed s) (h : a.infixOnto r = b.infixOnto s) :
    a.form = b.form ∧ a.head = b.head ∧ a.tail r = b.tail s := by
  rw [infixOnto_eq_head_append_tail, infixOnto_eq_head_append_tail] at h
  obtain ⟨hhead, htail⟩ := append_inj_of_sep ha.isDelimiter_eq_false
    hb.isDelimiter_eq_false (isDelimiter_of_mem_tail a hr) (isDelimiter_of_mem_tail b hs) h
  have hgroup : a.form = .group ↔ b.form = .group := by
    rw [← head_eq_nil_iff, hhead, head_eq_nil_iff]
  have hleaf : a.form = .leaf ↔ b.form = .leaf := by
    rw [← head?_tail_ne_iff hr, htail, head?_tail_ne_iff hs]
  refine ⟨?_, hhead, htail⟩
  cases ha' : a.form <;> cases hb' : b.form <;> simp_all

/-! ## Taking a text apart -/

/-- **Infix notation can be taken apart**, whatever stands behind an operand. -/
theorem same_of_infixOnto_eq {a b : Expr} (ha : a.Spelled) (hb : b.Spelled) {r s : List Char}
    (hr : Closed r) (hs : Closed s) (h : a.infixOnto r = b.infixOnto s) : a.same b ∧ r = s := by
  induction a generalizing b r s with
  | const v =>
    obtain ⟨hform, hhead, htail⟩ := form_head_tail_eq ha hb hr hs h
    cases b with
    | const w => exact ⟨sameConstant_iff.2 (Number.canonical_eq_of_chars_eq hhead), htail⟩
    | var n => exact absurd hhead (Number.chars_ne_text v n)
    | _ => cases hform
  | var m =>
    obtain ⟨hform, hhead, htail⟩ := form_head_tail_eq ha hb hr hs h
    cases b with
    | const w => exact absurd hhead.symm (Number.chars_ne_text w m)
    | var n =>
      obtain rfl : m = n := VariableName.eq_of_text_eq (String.toList_inj.1 hhead)
      exact ⟨same_self _, htail⟩
    | _ => cases hform
  | binary op a₁ a₂ ih₁ ih₂ =>
    obtain ⟨hform, -, htail⟩ := form_head_tail_eq ha hb hr hs h
    obtain ⟨ha₁, ha₂⟩ := spelled_binary_iff.1 ha
    cases b with
    | binary op' b₁ b₂ =>
      obtain ⟨hb₁, hb₂⟩ := spelled_binary_iff.1 hb
      obtain ⟨hsame₁, hop⟩ := ih₁ ha₁ hb₁ (closed_space _) (closed_space _)
        (List.cons.inj htail).2
      obtain ⟨rfl, hright⟩ := Operator.symbol_append_inj (List.cons.inj hop).2
      obtain ⟨hsame₂, hrest⟩ := ih₂ ha₂ hb₂ (closed_parenthesis _) (closed_parenthesis _)
        (List.cons.inj hright).2
      exact ⟨by simp [same, hsame₁, hsame₂], (List.cons.inj hrest).2⟩
    | cond c t f =>
      obtain ⟨hc, -, -⟩ := spelled_cond_iff.1 hb
      obtain ⟨-, hmark⟩ := ih₁ ha₁ hc (closed_space _) (closed_space _) (List.cons.inj htail).2
      exact absurd (List.cons.inj hmark).2 (Operator.symbol_append_ne op _ _)
    | _ => cases hform
  | cond c t f ihc iht ihf =>
    obtain ⟨hform, -, htail⟩ := form_head_tail_eq ha hb hr hs h
    obtain ⟨hc, ht, hf⟩ := spelled_cond_iff.1 ha
    cases b with
    | binary op l _ =>
      obtain ⟨hl, -⟩ := spelled_binary_iff.1 hb
      obtain ⟨-, hmark⟩ := ihc hc hl (closed_space _) (closed_space _) (List.cons.inj htail).2
      exact absurd (List.cons.inj hmark).2.symm (Operator.symbol_append_ne op _ _)
    | cond c' t' f' =>
      obtain ⟨hc', ht', hf'⟩ := spelled_cond_iff.1 hb
      obtain ⟨hsamec, htrue⟩ := ihc hc hc' (closed_space _) (closed_space _)
        (List.cons.inj htail).2
      simp only [List.cons.injEq, true_and] at htrue
      obtain ⟨hsamet, hfalse⟩ := iht ht ht' (closed_space _) (closed_space _) htrue
      simp only [List.cons.injEq, true_and] at hfalse
      obtain ⟨hsamef, hrest⟩ := ihf hf hf' (closed_parenthesis _) (closed_parenthesis _) hfalse
      exact ⟨by simp [same, hsamec, hsamet, hsamef], (List.cons.inj hrest).2⟩
    | _ => cases hform
  | call g a ih =>
    obtain ⟨hform, hhead, htail⟩ := form_head_tail_eq ha hb hr hs h
    cases b with
    | call g' a' =>
      have hname : g.name = g'.name := String.toList_inj.1 hhead
      obtain ⟨hsame, hrest⟩ := ih (spelled_call_iff.1 ha).1 (spelled_call_iff.1 hb).1
        (closed_parenthesis _) (closed_parenthesis _) (List.cons.inj htail).2
      exact ⟨by simp [same, NamedFunction.beq_iff_name_eq, hname, hsame],
        (List.cons.inj hrest).2⟩
    | _ => cases hform

/-- **Infix notation determines the expression**, if no name has a parenthesis in it and no name
of a function a space.  Expressions that are the same are written the same way in any case. -/
theorem beq_iff_toInfix_eq {a b : Expr} (ha : a.Spelled) (hb : b.Spelled) :
    a == b ↔ a.toInfix = b.toInfix := by
  constructor
  · exact toInfix_eq_of_same
  · intro h
    exact (same_of_infixOnto_eq ha hb closed_nil closed_nil (String.ofList_injective h)).1

/-- Variables that are spelled as the two marks of a conditional are told apart from them.  A
variable with parentheses in its name can be written like a call, so the condition on names is
needed. -/
theorem beq_iff_toInfix_eq_marks :
    let a := cond (var ⟨"?", rfl⟩) (var ⟨":", rfl⟩) (var ⟨":", rfl⟩)
    let b := cond (var ⟨"?", rfl⟩) (var ⟨"?", rfl⟩) (var ⟨":", rfl⟩)
    a.Spelled ∧ b.Spelled ∧ a.toInfix = "(? ? : : :)" ∧ a.toInfix ≠ b.toInfix ∧
      (var ⟨"f(x)", rfl⟩).toInfix = (call ⟨"f", id, by decide⟩ (var ⟨"x", rfl⟩)).toInfix ∧
      ¬ var ⟨"f(x)", rfl⟩ == call ⟨"f", id, by decide⟩ (var ⟨"x", rfl⟩) := by
  intro a b
  have ha : a.Spelled := by simp [a, isParenthesis]
  have hb : b.Spelled := by simp [b, isParenthesis]
  refine ⟨ha, hb, rfl, fun h => ?_, rfl, by decide⟩
  exact absurd ((beq_iff_toInfix_eq ha hb).2 h) (by decide)

end Expr

end ReversePolish
