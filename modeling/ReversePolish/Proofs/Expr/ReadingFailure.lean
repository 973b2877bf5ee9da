import ReversePolish.Proofs.Expr.Listing

/-!
# Which sources are not expressions, and what is said of them

Whether a source can be read depends only on the height of the stack along it and on
which functions the library has.  The height is a number that its words determine:
each takes as many expressions as it has operands and leaves one (`Lexeme.depth`).
A word is at fault when its operands are not there or when it calls a function that
is missing (`Faulty`), and words are clear when none of them is at fault (`Clear`).

* `exists_first_fault`: words are clear or have a first fault.
* `exists_pushAll_of_clear`: clear words are read, and the stack is as high as its
  depth says.
* `ofSource_outcome`: what becomes of a source in each case.

The name of a variable is never at fault.  Words are made of what stands between
gaps, so what is left for a variable can name one.
-/

namespace ReversePolish

namespace Lexeme

/-- The number of expressions that a word takes from the stack. -/
def operands : Lexeme → ℕ
  | number _ => 0
  | variableNamed _ => 0
  | operator _ => 2
  | conditional => 3
  | call _ => 1

/-- The height of the stack behind words: each takes its operands and leaves one
expression. -/
def depth (xs : List Lexeme) : ℕ := xs.foldl (fun d x => d - x.operands + 1) 0

@[simp] theorem depth_append_singleton (xs : List Lexeme) (x : Lexeme) :
    depth (xs ++ [x]) = depth xs - x.operands + 1 := by
  rw [depth, List.foldl_append]
  rfl

end Lexeme

namespace Expr

open Lexeme (depth)

/-- A word cannot be read at this height: there are too few expressions for it, or it
calls a function that the library does not have. -/
def Faulty (library : Library) (d : ℕ) (x : Lexeme) : Prop :=
  d < x.operands ∨ ∃ name, x = .call name ∧ library.find? name = none

/-- None of the words is at fault where it stands. -/
def Clear (library : Library) (xs : List Lexeme) : Prop :=
  ∀ before x after, xs = before ++ x :: after → ¬ Faulty library (depth before) x

variable {library : Library} {source : String}

/-! ## The first fault -/

theorem clear_nil : Clear library [] := by
  intro before x after h
  simp at h

theorem clear_append_singleton {xs : List Lexeme} {x : Lexeme} :
    Clear library (xs ++ [x]) ↔ Clear library xs ∧ ¬ Faulty library (depth xs) x := by
  constructor
  · intro h
    refine ⟨?_, h xs x [] rfl⟩
    intro before y after hxs
    exact h before y (after ++ [x]) (by rw [hxs, List.append_assoc, List.cons_append])
  · rintro ⟨hxs, hx⟩ before y after h
    rcases List.eq_nil_or_concat after with rfl | ⟨after, z, rfl⟩
    · obtain ⟨rfl, rfl⟩ := List.append_inj' h rfl |>.imp_right List.cons.inj |>.imp_right And.left
      exact hx
    · rw [List.concat_eq_append, ← List.cons_append, ← List.append_assoc] at h
      exact hxs before y after (List.append_inj_left' h rfl)

/-- **Words are clear or have a first fault.** -/
theorem exists_first_fault {xs : List Lexeme} (h : ¬ Clear library xs) :
    ∃ before x after, xs = before ++ x :: after ∧ Clear library before ∧
      Faulty library (depth before) x := by
  induction xs using List.reverseRecOn with
  | nil => exact absurd clear_nil h
  | append_singleton xs x ih =>
    by_cases hxs : Clear library xs
    · have hx : Faulty library (depth xs) x := by
        by_contra hx
        exact h (clear_append_singleton.2 ⟨hxs, hx⟩)
      exact ⟨xs, x, [], rfl, hxs, hx⟩
    · obtain ⟨before, y, after, heq, hbefore, hy⟩ := ih hxs
      refine ⟨before, y, after ++ [x], ?_, hbefore, hy⟩
      rw [heq, List.append_assoc, List.cons_append]

/-! ## One word -/

/-- Past its guard, taking from the stack always gives the row that is asked for. -/
theorem exactly?_ne_none {α : Type} {n : ℕ} {l : List α} (h : n ≤ l.length) :
    exactly? n (l.take n).reverse ≠ none := by
  have hlen : (l.take n).reverse.length = n := by
    rw [List.length_reverse, List.length_take, Nat.min_eq_left h]
  rw [exactly?, dif_pos hlen]
  exact Option.some_ne_none _

/-- A word that finds too few expressions is reported with the height of the stack,
also when the function that it calls is missing. -/
theorem push_of_lt {stack : List Expr} {x : Lexeme} (h : stack.length < x.operands) :
    push library source stack x = .error (.incomplete source stack.length) := by
  cases x with
  | number v => exact absurd h (Nat.not_lt_zero _)
  | variableNamed text => exact absurd h (Nat.not_lt_zero _)
  | operator op => rw [push, pop_of_lt (n := 2) h]
  | conditional => rw [push, pop_of_lt (n := 3) h]
  | call name => rw [push, pushCall, pop_of_lt (n := 1) h]

/-- With its operand there, a call to a missing function is reported by name. -/
theorem push_of_missing {stack : List Expr} {name : String} (h : 0 < stack.length)
    (hf : library.find? name = none) :
    push library source stack (.call name) = .error (.undefinedFunction name) := by
  obtain ⟨a, rest, rfl⟩ := List.exists_cons_of_length_pos h
  rw [push_call, hf]

/-- **A word without fault is read**, and the height changes as it should. -/
theorem exists_push_of_not_faulty (source : String) {stack : List Expr} {x : Lexeme}
    (hname : ∀ text, x = .variableNamed text → namesVariable text = true)
    (hx : ¬ Faulty library stack.length x) :
    ∃ next, push library source stack x = .ok next ∧
      next.length = stack.length - x.operands + 1 := by
  obtain ⟨hlen, hcall⟩ := not_or.1 hx
  have hlen : x.operands ≤ stack.length := Nat.not_lt.1 hlen
  cases x with
  | number v => exact ⟨_, rfl, rfl⟩
  | variableNamed text =>
    have hv : namesVariable text = true := hname text rfl
    exact ⟨_, push_eq_ok_iff.2 (.variableNamed ⟨text, hv⟩ stack), rfl⟩
  | operator op =>
    match stack, hlen with
    | r :: l :: rest, _ => exact ⟨_, push_eq_ok_iff.2 (.operator op l r rest), rfl⟩
  | conditional =>
    match stack, hlen with
    | f :: t :: c :: rest, _ => exact ⟨_, push_eq_ok_iff.2 (.conditional c t f rest), rfl⟩
  | call name =>
    match stack, hlen with
    | a :: rest, _ =>
      rw [push_call]
      cases hf : library.find? name with
      | some f => exact ⟨_, rfl, rfl⟩
      | none => exact absurd ⟨name, rfl, hf⟩ hcall

/-! ## Many words -/

theorem pushAll_append_of_eq_ok {stack next : List Expr} {xs ys : List Lexeme}
    (h : pushAll library source stack xs = .ok next) :
    pushAll library source stack (xs ++ ys) = pushAll library source next ys := by
  rw [pushAll_append, h]

/-- **Clear words are read**, and the stack is as high as their depth says. -/
theorem exists_pushAll_of_clear (source : String) {xs : List Lexeme}
    (hname : ∀ text, .variableNamed text ∈ xs → namesVariable text = true)
    (h : Clear library xs) :
    ∃ stack, pushAll library source [] xs = .ok stack ∧ stack.length = depth xs := by
  induction xs using List.reverseRecOn with
  | nil => exact ⟨[], rfl, rfl⟩
  | append_singleton xs x ih =>
    obtain ⟨hxs, hx⟩ := clear_append_singleton.1 h
    obtain ⟨stack, hstack, hlen⟩ :=
      ih (fun text ht => hname text (List.mem_append_left _ ht)) hxs
    have hx' : ∀ text, x = .variableNamed text → namesVariable text = true := by
      rintro text rfl
      exact hname text (List.mem_append_right _ List.mem_cons_self)
    rw [← hlen] at hx
    obtain ⟨next, hnext, hlen'⟩ := exists_push_of_not_faulty source hx' hx
    refine ⟨next, ?_, by rw [hlen', hlen, Lexeme.depth_append_singleton]⟩
    rw [pushAll_append_of_eq_ok hstack, pushAll, hnext]
    rfl

/-! ## Whole sources -/

/-- Reading a source goes on behind its clear words with a stack of their depth. -/
theorem exists_pushAll_kinds_of_clear {before after : List Lexeme}
    (hk : Token.kinds source = before ++ after) (hc : Clear library before) :
    ∃ stack : List Expr, stack.length = depth before ∧
      pushAll library source [] (Token.kinds source) = pushAll library source stack after := by
  have hname : ∀ text, .variableNamed text ∈ before → namesVariable text = true := by
    intro text ht
    have hmem : .variableNamed text ∈ Token.kinds source := hk ▸ List.mem_append_left _ ht
    exact Token.namesVariable_of_mem_kinds hmem
  obtain ⟨stack, hstack, hlen⟩ := exists_pushAll_of_clear source hname hc
  refine ⟨stack, hlen, ?_⟩
  rw [hk, pushAll_append_of_eq_ok hstack]

/-- Too few expressions for a word behind clear words. -/
theorem ofSource_of_lt {before after : List Lexeme} {x : Lexeme}
    (hk : Token.kinds source = before ++ x :: after) (hc : Clear library before)
    (hx : depth before < x.operands) :
    ofSource library source = .error (.incomplete source (depth before)) := by
  obtain ⟨stack, hlen, hread⟩ := exists_pushAll_kinds_of_clear hk hc
  rw [← hlen] at hx
  rw [ofSource, ← Token.kinds, hread, pushAll, push_of_lt hx, hlen]

/-- A missing function behind clear words, with its operand there. -/
theorem ofSource_of_missing {before after : List Lexeme} {name : String}
    (hk : Token.kinds source = before ++ .call name :: after) (hc : Clear library before)
    (hd : 0 < depth before) (hf : library.find? name = none) :
    ofSource library source = .error (.undefinedFunction name) := by
  obtain ⟨stack, hlen, hread⟩ := exists_pushAll_kinds_of_clear hk hc
  rw [← hlen] at hd
  rw [ofSource, ← Token.kinds, hread, pushAll, push_of_missing hd hf]

/-- Clear words are an expression if they leave one, and only then. -/
theorem ofSource_of_clear (hc : Clear library (Token.kinds source)) :
    (depth (Token.kinds source) = 1 → ∃ e, ofSource library source = .ok e) ∧
    (depth (Token.kinds source) ≠ 1 →
      ofSource library source = .error (.incomplete source (depth (Token.kinds source)))) := by
  obtain ⟨stack, hlen, hread⟩ := exists_pushAll_kinds_of_clear (List.append_nil _).symm hc
  rw [← hlen, ofSource, ← Token.kinds, hread, pushAll]
  constructor
  · intro h
    obtain ⟨e, rfl⟩ := List.length_eq_one_iff.1 h
    exact ⟨e, rfl⟩
  · intro h
    show finish source stack = _
    rw [finish, if_pos h]

/-- **What a source is reported for**: that its words do not balance, or a function that it calls
and that the library does not have. -/
theorem cases_of_ofSource_eq_error {e : SourceError} (h : ofSource library source = .error e) :
    (∃ d, e = .incomplete source d) ∨
      ∃ name, e = .undefinedFunction name ∧ .call name ∈ Token.kinds source ∧
        library.find? name = none := by
  by_cases hc : Clear library (Token.kinds source)
  · obtain ⟨hone, hother⟩ := ofSource_of_clear hc
    by_cases hd : depth (Token.kinds source) = 1
    · obtain ⟨a, ha⟩ := hone hd
      rw [ha] at h
      cases h
    · rw [hother hd] at h
      exact .inl ⟨_, (Except.error.inj h).symm⟩
  · obtain ⟨before, x, after, hk, hbefore, hx⟩ := exists_first_fault hc
    by_cases hlt : depth before < x.operands
    · rw [ofSource_of_lt hk hbefore hlt] at h
      exact .inl ⟨_, (Except.error.inj h).symm⟩
    · obtain ⟨name, rfl, hf⟩ := hx.resolve_left hlt
      rw [ofSource_of_missing hk hbefore (Nat.not_lt.1 hlt) hf] at h
      exact .inr ⟨name, (Except.error.inj h).symm, hk ▸ List.mem_append_right _ List.mem_cons_self,
        hf⟩

/-- No source is refused for the name of a variable. -/
theorem ofSource_ne_invalidName (cause : NameError) :
    ofSource library source ≠ .error (.invalidName cause) := by
  intro h
  rcases cases_of_ofSource_eq_error h with ⟨d, hd⟩ | ⟨name, hname, -⟩
  · cases hd
  · cases hname

/-- **What becomes of a source.**  The first fault decides, whatever follows it; too few
expressions come before a missing function at the same word.  Without fault it counts
how many expressions are left.  Two ways to fail that reading provides for do not occur:
no variable is refused for its name, and past its guard no row taken from the stack has
the wrong length. -/
theorem ofSource_outcome (library : Library) (source : String) :
    (∀ before x after, Token.kinds source = before ++ x :: after → Clear library before →
      (depth before < x.operands →
        ofSource library source = .error (.incomplete source (depth before))) ∧
      ∀ name, x = .call name → x.operands ≤ depth before → library.find? name = none →
        ofSource library source = .error (.undefinedFunction name)) ∧
    (Clear library (Token.kinds source) →
      (depth (Token.kinds source) = 1 → ∃ e, ofSource library source = .ok e) ∧
      (depth (Token.kinds source) ≠ 1 →
        ofSource library source = .error (.incomplete source (depth (Token.kinds source))))) ∧
    (¬ Clear library (Token.kinds source) → ∃ before x after,
      Token.kinds source = before ++ x :: after ∧ Clear library before ∧
        Faulty library (depth before) x) ∧
    (∀ cause, ofSource library source ≠ .error (.invalidName cause)) ∧
    ∀ (n : ℕ) (stack : List Expr), ¬ (stack.take n).length < n →
      exactly? n (stack.take n).reverse ≠ none := by
  refine ⟨?_, ofSource_of_clear, exists_first_fault, ofSource_ne_invalidName, ?_⟩
  · intro before x after hk hc
    refine ⟨ofSource_of_lt hk hc, ?_⟩
    rintro name rfl hd hf
    exact ofSource_of_missing hk hc hd hf
  · intro n stack h
    rw [List.length_take] at h
    exact exactly?_ne_none (by omega)

/-- An operator that lacks an operand, and a call that lacks both its operand and its
function. -/
theorem ofSource_x_add :
    ofSource Library.standard "x + y" = .error (.incomplete "x + y" 1) ∧
    ofSource Library.standard "g()" = .error (.incomplete "g()" 0) := by
  have hx : Clear Library.standard [.variableNamed "x"] :=
    clear_append_singleton.2 ⟨clear_nil, not_or.2 ⟨by decide, by simp⟩⟩
  constructor
  · exact ((ofSource_outcome Library.standard "x + y").1 [.variableNamed "x"] (.operator .add)
      [.variableNamed "y"] rfl hx).1 (by decide)
  · exact ((ofSource_outcome Library.standard "g()").1 [] (.call "g") [] rfl clear_nil).1
      (by decide)

end Expr

end ReversePolish
