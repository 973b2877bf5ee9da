import ReversePolish.Expr.Parsing
import ReversePolish.Proofs.Expr.Same

/-!
# The grammar of postfix notation

`Listing` says which sequences of meanings list which expressions: the operands in
their order, and behind them what is done with them.  It mentions neither how
expressions are written nor how they are read, and both are compared with it.

* `listing_iff`: but for not-a-numbers, the sequence is the one that is written, provided
  that the library has a function of every name in the expression.
* `ofSource_eq_ok_iff`: an expression is read from a source exactly when its nodes are the
  meanings of the source and its functions are those of the library.
* `exists_ofSource_iff_listing`: so a source is read as an expression exactly when it lists
  one that is the same.

Reading keeps a stack, and the invariant that carries it is that the words read so far are
the nodes of the stack from the bottom to the top (`Forest`).  In the other direction, the
nodes of an expression are read with an arbitrary stack below and arbitrary words behind
(`pushAll_postorder`).
-/

namespace ReversePolish.Expr

/-- A sequence of meanings lists an expression, operands first. -/
inductive Listing (library : Library) : List Lexeme → Expr → Prop
  /-- A number lists every constant that is the same. -/
  | number {v w : Double} (h : sameConstant v w) : Listing library [.number v] (const w)
  | variableNamed (name : VariableName) : Listing library [.variableNamed name.text] (var name)
  | operator (op : Operator) {xs ys : List Lexeme} {l r : Expr} (hl : Listing library xs l)
      (hr : Listing library ys r) : Listing library (xs ++ ys ++ [.operator op]) (binary op l r)
  | conditional {xs ys zs : List Lexeme} {c t f : Expr} (hc : Listing library xs c)
      (ht : Listing library ys t) (hf : Listing library zs f) :
      Listing library (xs ++ ys ++ zs ++ [.conditional]) (cond c t f)
  /-- A call names a function that the library has. -/
  | call {g : NamedFunction} {xs : List Lexeme} {a : Expr} (ha : Listing library xs a)
      (hg : library.contains g.name) : Listing library (xs ++ [.call g.name]) (call g a)

variable {library : Library} {source : String}

/-- What is no number is canonical. -/
theorem eq_singleton_of_map_canonical_eq {xs : List Lexeme} {x : Lexeme}
    (h : xs.map Lexeme.canonical = [x]) (hx : ∀ v, x ≠ .number v) : xs = [x] := by
  obtain ⟨y, rfl, hy⟩ := List.map_eq_singleton_iff.1 h
  cases y with
  | number v => exact absurd hy.symm (hx v.canonical)
  | _ => rw [← hy]; rfl

/-- **The grammar lists an expression as it is written**, but for not-a-numbers. -/
theorem listing_iff {xs : List Lexeme} {e : Expr} :
    Listing library xs e ↔
      xs.map Lexeme.canonical = e.postorder.map Lexeme.canonical ∧
        ∀ f ∈ e.functions, library.contains f.name := by
  constructor
  · intro h
    induction h with
    | number h => simp [Lexeme.canonical, sameConstant_iff.1 h, functions]
    | variableNamed name => simp [functions]
    | operator op _ _ ihl ihr => simp_all [functions, or_imp]
    | conditional _ _ _ ihc iht ihf => simp_all [functions, or_imp]
    | call _ hg ih => simp_all [functions, or_imp]
  · rintro ⟨hxs, h⟩
    induction e generalizing xs with
    | const w =>
      obtain ⟨x, rfl, hx⟩ := List.map_eq_singleton_iff.1 hxs
      cases x with
      | number v => exact .number (sameConstant_iff.2 (Lexeme.number.inj hx))
      | _ => cases hx
    | var name =>
      rw [eq_singleton_of_map_canonical_eq hxs (by simp)]
      exact .variableNamed name
    | binary op l r ihl ihr =>
      rw [postorder_binary, List.map_append, List.map_append] at hxs
      obtain ⟨_, ws, rfl, hxs, hws⟩ := List.map_eq_append_iff.1 hxs
      obtain ⟨xs, ys, rfl, hl, hr⟩ := List.map_eq_append_iff.1 hxs
      simp only [functions, List.mem_append, or_imp, forall_and] at h
      rw [eq_singleton_of_map_canonical_eq hws (by simp)]
      exact .operator op (ihl hl h.1) (ihr hr h.2)
    | cond c t f ihc iht ihf =>
      rw [postorder_cond, List.map_append, List.map_append, List.map_append] at hxs
      obtain ⟨_, ws, rfl, hxs, hws⟩ := List.map_eq_append_iff.1 hxs
      obtain ⟨_, zs, rfl, hxs, hf⟩ := List.map_eq_append_iff.1 hxs
      obtain ⟨xs, ys, rfl, hc, ht⟩ := List.map_eq_append_iff.1 hxs
      simp only [functions, List.mem_append, or_imp, forall_and] at h
      rw [eq_singleton_of_map_canonical_eq hws (by simp)]
      exact .conditional (ihc hc h.1.1) (iht ht h.1.2) (ihf hf h.2)
    | call g a ih =>
      rw [postorder_call, List.map_append] at hxs
      obtain ⟨xs, ws, rfl, ha, hws⟩ := List.map_eq_append_iff.1 hxs
      simp only [functions, List.mem_append, or_imp, forall_and] at h
      rw [eq_singleton_of_map_canonical_eq hws (by simp)]
      exact .call (ih ha h.1) (h.2 g List.mem_cons_self)

/-- What lists an expression lists every other that is the same. -/
theorem Listing.of_same {xs : List Lexeme} {a b : Expr} (h : Listing library xs a)
    (hab : a.same b) : Listing library xs b := by
  obtain ⟨hxs, hfun⟩ := listing_iff.1 h
  exact listing_iff.2 ⟨hxs.trans (map_canonical_postorder_eq_of_same hab),
    forall_functions_of_same (fun name => library.contains name) hab hfun⟩

/-- Of all the expressions that are listed, one is over the library and has the very nodes. -/
theorem Listing.exists_resolved {xs : List Lexeme} {e : Expr} (h : Listing library xs e) :
    ∃ e' : Expr, e'.same e ∧ e'.postorder = xs ∧ e'.Resolved library := by
  induction h with
  | @number v w h => exact ⟨const v, h, rfl, resolved_const v⟩
  | variableNamed name => exact ⟨var name, same_self _, rfl, resolved_var name⟩
  | operator op _ _ ihl ihr =>
    obtain ⟨l, hl, rfl, hl'⟩ := ihl
    obtain ⟨r, hr, rfl, hr'⟩ := ihr
    exact ⟨binary op l r, by simp [same, hl, hr], postorder_binary op l r,
      resolved_binary.2 ⟨hl', hr'⟩⟩
  | conditional _ _ _ ihc iht ihf =>
    obtain ⟨c, hc, rfl, hc'⟩ := ihc
    obtain ⟨t, ht, rfl, ht'⟩ := iht
    obtain ⟨f, hf, rfl, hf'⟩ := ihf
    exact ⟨cond c t f, by simp [same, hc, ht, hf], postorder_cond c t f,
      resolved_cond.2 ⟨hc', ht', hf'⟩⟩
  | @call g _ _ _ hg ih =>
    obtain ⟨a, ha, rfl, ha'⟩ := ih
    obtain ⟨g', hg'⟩ := Option.isSome_iff_exists.1 hg
    obtain hname := Catalog.label_of_find?_eq_some hg'
    refine ⟨Expr.call g' a, by simp [same, ha, NamedFunction.beq_iff_name_eq, hname], ?_,
      resolved_call.2 ⟨ha', hname.symm ▸ hg'⟩⟩
    rw [postorder_call, hname]

/-! ## One word -/

/-- What one word does to a stack. -/
inductive Step (library : Library) : List Expr → Lexeme → List Expr → Prop
  | number (v : Double) (rest : List Expr) : Step library rest (.number v) (const v :: rest)
  | variableNamed (name : VariableName) (rest : List Expr) :
      Step library rest (.variableNamed name.text) (var name :: rest)
  | operator (op : Operator) (l r : Expr) (rest : List Expr) :
      Step library (r :: l :: rest) (.operator op) (binary op l r :: rest)
  | conditional (c t f : Expr) (rest : List Expr) :
      Step library (f :: t :: c :: rest) .conditional (cond c t f :: rest)
  | call {g : NamedFunction} (a : Expr) (rest : List Expr) (hg : library.find? g.name = some g) :
      Step library (a :: rest) (.call g.name) (Expr.call g a :: rest)

/-- The top of a stack that is too low cannot be taken. -/
theorem pop_of_lt {n : ℕ} {stack : List Expr} (h : stack.length < n) :
    pop source n stack = .error (.incomplete source stack.length) := by
  have htake : (stack.take n).length < n := by
    rw [List.length_take]
    omega
  rw [pop, if_pos htake]

theorem push_call (name : String) (a : Expr) (rest : List Expr) :
    push library source (a :: rest) (.call name) =
      match library.find? name with
      | some f => .ok (Expr.call f a :: rest)
      | none => .error (.undefinedFunction name) := rfl

/-- A word that can be read takes a step. -/
theorem step_of_push_eq_ok {stack next : List Expr} {x : Lexeme}
    (h : push library source stack x = .ok next) : Step library stack x next := by
  cases x with
  | number v => cases h; exact .number v stack
  | variableNamed text =>
    rw [push] at h
    split at h
    · cases h
    · rename_i name hname
      cases h
      rw [← VariableName.ofString_eq_ok_iff.1 hname]
      exact .variableNamed name stack
  | operator op =>
    rcases stack with _ | ⟨r, _ | ⟨l, rest⟩⟩
    · cases h
    · cases h
    · cases h
      exact .operator op l r rest
  | conditional =>
    rcases stack with _ | ⟨f, _ | ⟨t, _ | ⟨c, rest⟩⟩⟩
    · cases h
    · cases h
    · cases h
    · cases h
      exact .conditional c t f rest
  | call name =>
    cases stack with
    | nil => cases h
    | cons a rest =>
      rw [push_call] at h
      split at h
      · rename_i g hg
        cases h
        obtain rfl := Catalog.label_of_find?_eq_some hg
        exact .call a rest hg
      · cases h

/-- **Reading a word takes such a step.** -/
theorem push_eq_ok_iff {stack next : List Expr} {x : Lexeme} :
    push library source stack x = .ok next ↔ Step library stack x next := by
  refine ⟨step_of_push_eq_ok, fun h => ?_⟩
  cases h with
  | number v => rfl
  | variableNamed name => rw [push, VariableName.ofString_text]
  | operator op l r rest => rfl
  | conditional c t f rest => rfl
  | call a rest hg => rw [push_call, hg]

/-! ## The nodes of an expression -/

theorem pushAll_cons_of_step {stack next : List Expr} {x : Lexeme} (h : Step library stack x next)
    (rest : List Lexeme) :
    pushAll library source stack (x :: rest) = pushAll library source next rest := by
  rw [pushAll, push_eq_ok_iff.2 h]

/-- **The nodes of an expression are read as this expression**, whatever lies on the stack and
whatever follows. -/
theorem pushAll_postorder {e : Expr} (h : e.Resolved library) (stack : List Expr)
    (rest : List Lexeme) :
    pushAll library source stack (e.postorder ++ rest) =
      pushAll library source (e :: stack) rest := by
  induction e generalizing stack rest with
  | const v => exact pushAll_cons_of_step (.number v stack) rest
  | var name => exact pushAll_cons_of_step (.variableNamed name stack) rest
  | binary op l r ihl ihr =>
    obtain ⟨hl, hr⟩ := resolved_binary.1 h
    rw [postorder_binary, List.append_assoc, List.append_assoc, ihl hl, ihr hr]
    exact pushAll_cons_of_step (.operator op l r stack) rest
  | cond c t f ihc iht ihf =>
    obtain ⟨hc, ht, hf⟩ := resolved_cond.1 h
    rw [postorder_cond, List.append_assoc, List.append_assoc, List.append_assoc, ihc hc, iht ht,
      ihf hf]
    exact pushAll_cons_of_step (.conditional c t f stack) rest
  | call g a ih =>
    obtain ⟨ha, hg⟩ := resolved_call.1 h
    rw [postorder_call, List.append_assoc, ih ha]
    exact pushAll_cons_of_step (.call a stack hg) rest

/-! ## The stack holds what was read -/

/-- The words are the nodes of the stack from its bottom to its top, and its functions are those
of the library. -/
inductive Forest (library : Library) : List Expr → List Lexeme → Prop
  | nil : Forest library [] []
  | cons {stack : List Expr} {xs : List Lexeme} {e : Expr} (h : Forest library stack xs)
      (hr : e.Resolved library) : Forest library (e :: stack) (xs ++ e.postorder)

theorem forest_nil_iff {xs : List Lexeme} : Forest library [] xs ↔ xs = [] :=
  ⟨fun h => by cases h; rfl, fun h => h ▸ .nil⟩

theorem forest_cons_iff {stack : List Expr} {e : Expr} {zs : List Lexeme} :
    Forest library (e :: stack) zs ↔
      ∃ xs, zs = xs ++ e.postorder ∧ Forest library stack xs ∧ e.Resolved library := by
  constructor
  · intro h
    cases h with
    | cons h hr => exact ⟨_, rfl, h, hr⟩
  · rintro ⟨xs, rfl, h, hr⟩
    exact h.cons hr

/-- A word keeps the stack listed. -/
theorem Forest.step {stack next : List Expr} {xs : List Lexeme} {x : Lexeme}
    (h : Forest library stack xs) (hs : Step library stack x next) :
    Forest library next (xs ++ [x]) := by
  cases hs with
  | number v => exact h.cons (resolved_const v)
  | variableNamed name => exact h.cons (resolved_var name)
  | operator op l r rest =>
    obtain ⟨_, rfl, h, hr⟩ := forest_cons_iff.1 h
    obtain ⟨xs, rfl, h, hl⟩ := forest_cons_iff.1 h
    have hnode : (binary op l r).Resolved library := resolved_binary.2 ⟨hl, hr⟩
    have hnext := h.cons hnode
    simpa only [postorder_binary, List.append_assoc] using hnext
  | conditional c t f rest =>
    obtain ⟨_, rfl, h, hf⟩ := forest_cons_iff.1 h
    obtain ⟨_, rfl, h, ht⟩ := forest_cons_iff.1 h
    obtain ⟨xs, rfl, h, hc⟩ := forest_cons_iff.1 h
    have hnext := h.cons (resolved_cond.2 ⟨hc, ht, hf⟩)
    simpa only [postorder_cond, List.append_assoc] using hnext
  | @call g a rest hg =>
    obtain ⟨xs, rfl, h, ha⟩ := forest_cons_iff.1 h
    have hnext := h.cons (resolved_call.2 ⟨ha, hg⟩)
    simpa only [postorder_call, List.append_assoc] using hnext

/-- **Words keep the stack listed.** -/
theorem Forest.pushAll {stack next : List Expr} {xs ys : List Lexeme}
    (h : Forest library stack xs) (hp : pushAll library source stack ys = .ok next) :
    Forest library next (xs ++ ys) := by
  induction ys generalizing stack xs with
  | nil =>
    cases hp
    rwa [List.append_nil]
  | cons y ys ih =>
    rw [Expr.pushAll] at hp
    split at hp
    · rename_i mid hmid
      have hmid := ih (h.step (push_eq_ok_iff.1 hmid)) hp
      rwa [List.append_assoc] at hmid
    · cases hp

/-! ## Whole sources -/

theorem finish_eq_ok_iff {stack : List Expr} {e : Expr} :
    finish source stack = .ok e ↔ stack = [e] := by
  constructor
  · intro h
    match stack with
    | [a] => cases h; rfl
    | [] => cases h
    | _ :: _ :: _ =>
      rw [finish, if_pos (by simp)] at h
      cases h
  · rintro rfl
    rfl

/-- **A source is read as the expression over the library whose nodes its words are.** -/
theorem ofSource_eq_ok_iff {e : Expr} :
    ofSource library source = .ok e ↔
      Token.kinds source = e.postorder ∧ e.Resolved library := by
  have hstack : ofSource library source = .ok e ↔
      pushAll library source [] (Token.kinds source) = .ok [e] := by
    rw [ofSource, ← Token.kinds]
    cases pushAll library source [] (Token.kinds source) with
    | error err => simp
    | ok stack => simp [finish_eq_ok_iff]
  rw [hstack]
  constructor
  · intro h
    obtain ⟨xs, hxs, hnil, hr⟩ := forest_cons_iff.1 (Forest.nil.pushAll h)
    rw [forest_nil_iff.1 hnil] at hxs
    exact ⟨hxs, hr⟩
  · rintro ⟨hkinds, hr⟩
    rw [hkinds, ← List.append_nil e.postorder, pushAll_postorder hr]
    rfl

theorem Resolved.contains {e : Expr} (h : e.Resolved library) :
    ∀ f ∈ e.functions, library.contains f.name := by
  intro f hf
  rw [Catalog.contains, h f hf]
  rfl

/-- **A source is read as what it lists**, and as nothing else. -/
theorem exists_ofSource_iff_listing {e : Expr} :
    (∃ e', ofSource library source = .ok e' ∧ e'.same e) ↔
      Listing library (Token.kinds source) e := by
  constructor
  · rintro ⟨e', he', hsame⟩
    obtain ⟨hkinds, hr⟩ := ofSource_eq_ok_iff.1 he'
    exact (listing_iff.2 ⟨congrArg (List.map Lexeme.canonical) hkinds, hr.contains⟩).of_same hsame
  · intro h
    obtain ⟨e', hsame, hpost, hr⟩ := h.exists_resolved
    exact ⟨e', ofSource_eq_ok_iff.2 ⟨hpost.symm, hr⟩, hsame⟩

/-- **The grammar is unambiguous.** -/
theorem Listing.same {xs : List Lexeme} {a b : Expr} (ha : Listing library xs a)
    (hb : Listing library xs b) : a.same b := by
  obtain ⟨a', haa, hposta, hra⟩ := ha.exists_resolved
  obtain ⟨b', hbb, hpostb, hrb⟩ := hb.exists_resolved
  -- Both are read from these words.  No source is needed; only errors would mention it.
  have hread {e : Expr} (he : e.Resolved library) :
      pushAll library "" [] (e.postorder ++ []) = pushAll library "" [e] [] :=
    pushAll_postorder he [] []
  have hreada := hread hra
  rw [hposta, ← hpostb, hread hrb] at hreada
  obtain rfl := (List.cons.inj (Except.ok.inj hreada)).1
  exact same_trans (same_symm haa) hbb

end ReversePolish.Expr
