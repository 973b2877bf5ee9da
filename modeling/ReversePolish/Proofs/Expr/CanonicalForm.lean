import ReversePolish.Proofs.Expr.PostfixRoundTrip

/-!
# Postfix notation is a canonical form

Two expressions are the same exactly when they are written the same way, as long as no
function has a gap in its name (`equivalence_beq_and_toPostfix_eq_iff`).  Being the same is
thus an equivalence relation with a text for each of its classes.

The text is cut into the nodes of the expression, and these list the expression.  There are
no parentheses to compare, but a listing belongs to one expression only.  This is known of
listings over a library, so the two expressions are compared over a library that is made of
their own functions (`same_of_postorder_eq`).
-/

namespace ReversePolish

/-- The library of given functions; of several with one name it has the first. -/
def Library.ofFunctions (fs : List NamedFunction) : Library :=
  fs.foldr (fun f library => library.insert f) Catalog.empty

theorem Library.contains_ofFunctions {f : NamedFunction} {fs : List NamedFunction} (h : f ∈ fs) :
    (ofFunctions fs).contains f.name := by
  induction fs with
  | nil => cases h
  | cons g fs ih =>
    rw [ofFunctions, List.foldr_cons, Catalog.contains]
    by_cases hg : g.name = f.name
    · rw [← hg, Catalog.find?_insert_self]
      rfl
    · rw [Catalog.find?_insert_of_ne _ hg]
      refine ih ((List.mem_cons.1 h).resolve_left ?_)
      rintro rfl
      exact hg rfl

namespace Expr

/-! ## Constants -/

/-- Constants are the same when their patterns are, and all patterns beyond infinity are one
constant. -/
theorem const_beq_iff {p q : UInt64} :
    const ⟨p⟩ == const ⟨q⟩ ↔
      p = q ∨ (Magnitude.infinity < p.toNat % 2 ^ 63 ∧ Magnitude.infinity < q.toNat % 2 ^ 63) := by
  have hnan (r : UInt64) : (⟨r⟩ : Double).isNaN = true ↔
      Magnitude.infinity < r.toNat % 2 ^ 63 := decide_eq_true_iff
  show sameConstant ⟨p⟩ ⟨q⟩ = true ↔ _
  rw [sameConstant, Bool.or_eq_true, Bool.and_eq_true, beq_iff_eq, hnan, hnan]

/-! ## Listings -/

/-- **The nodes of an expression, operands first, determine it.** -/
theorem same_of_postorder_eq {a b : Expr}
    (h : a.postorder.map Lexeme.canonical = b.postorder.map Lexeme.canonical) : a.same b := by
  let library := Library.ofFunctions (a.functions ++ b.functions)
  have ha : Listing library a.postorder a := listing_iff.2
    ⟨rfl, fun f hf => Library.contains_ofFunctions (List.mem_append_left _ hf)⟩
  have hb : Listing library a.postorder b := listing_iff.2
    ⟨h, fun f hf => Library.contains_ofFunctions (List.mem_append_right _ hf)⟩
  exact ha.same hb

/-- What is the same is written the same way. -/
theorem toPostfix_eq_of_same {a b : Expr} (h : a.same b) : a.toPostfix = b.toPostfix := by
  have hword : Lexeme.word ∘ Lexeme.canonical = Lexeme.word := funext Lexeme.word_canonical
  rw [toPostfix, toPostfix, ← hword, ← List.map_map, map_canonical_postorder_eq_of_same h,
    List.map_map]

/-- **Postfix notation determines the expression**, if its functions can be called. -/
theorem same_of_toPostfix_eq {a b : Expr} (ha : a.Callable) (hb : b.Callable)
    (h : a.toPostfix = b.toPostfix) : a.same b := by
  refine same_of_postorder_eq ?_
  rw [← kinds_toPostfix ha, h, kinds_toPostfix hb]

/-- **To be the same is an equivalence relation, and postfix notation is its canonical
form.**  All that is not a number is the same constant, so nothing is excepted. -/
theorem equivalence_beq_and_toPostfix_eq_iff :
    Equivalence (fun a b : Expr => (a == b) = true) ∧
    (∀ p q : UInt64, const ⟨p⟩ == const ⟨q⟩ ↔
      p = q ∨ (Magnitude.infinity < p.toNat % 2 ^ 63 ∧ Magnitude.infinity < q.toNat % 2 ^ 63)) ∧
    ∀ a b : Expr, (∀ f ∈ a.functions, ∀ c ∈ f.name.toList, isGap c = false) →
      (∀ f ∈ b.functions, ∀ c ∈ f.name.toList, isGap c = false) →
      (a == b ↔ a.toPostfix = b.toPostfix) := by
  refine ⟨⟨same_self, same_symm, same_trans⟩, fun p q => const_beq_iff,
    fun a b ha hb => ?_⟩
  constructor
  · intro h
    exact toPostfix_eq_of_same h
  · intro h
    exact same_of_toPostfix_eq ha hb h

/-- The order of two operands shows in the notation.  With a gap in the name of a function two
expressions can be written alike, so the condition on names is needed. -/
theorem toPostfix_eq_iff_quotient :
    (binary .div (var ⟨"x", rfl⟩) (var ⟨"y", rfl⟩)).toPostfix ≠
      (binary .div (var ⟨"y", rfl⟩) (var ⟨"x", rfl⟩)).toPostfix ∧
    (call ⟨"f() g", id, by decide⟩ (const 0)).toPostfix =
      (call ⟨"g", id, by decide⟩ (call ⟨"f", id, by decide⟩ (const 0))).toPostfix ∧
    ¬ call ⟨"f() g", id, by decide⟩ (const 0) ==
      call ⟨"g", id, by decide⟩ (call ⟨"f", id, by decide⟩ (const 0)) := by
  obtain ⟨-, -, hiff⟩ := equivalence_beq_and_toPostfix_eq_iff
  refine ⟨fun h => ?_, rfl, by decide⟩
  refine absurd ((hiff _ _ ?_ ?_).2 h) (by decide)
  · intro f hf
    cases hf
  · intro f hf
    cases hf

end Expr

end ReversePolish
