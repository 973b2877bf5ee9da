import ReversePolish.Expr.Basic

/-!
# Counting operations and listing variables

The operation count is the work of the worst case: a conditional pays for its
condition, for choosing, and for the dearer of its two branches, since only one
of them is ever evaluated.

The variables are listed in the order in which postfix notation writes them,
with repetitions; the free variables are the same names in ascending order, each
once.
-/

namespace ReversePolish

/-- What applying a function costs, on top of its argument. -/
def callCost : Nat := 1

/-- A name in front of ascending names, unless it is their first. -/
def consDistinct (name : String) (names : List String) : List String :=
  match names with
  | [] => [name]
  | first :: rest => if name = first then first :: rest else name :: first :: rest

/-- The names of a list in ascending order, each once. -/
def sortedDistinct (names : List String) : List String :=
  (names.mergeSort fun a b => decide (a ≤ b)).foldr consDistinct []

namespace Expr

/-- The number of operations that evaluation performs at worst. -/
def worstCost : Expr → Nat
  | const _ => 0
  | var _ => 0
  | binary _ l r => 1 + l.worstCost + r.worstCost
  | cond c t f => c.worstCost + max t.worstCost f.worstCost + 1
  | call _ a => callCost + a.worstCost

/-- The variables of an expression in postfix order, in front of a list. -/
def namesOnto : Expr → List String → List String
  | const _, rest => rest
  | var name, rest => name.text :: rest
  | binary _ l r, rest => l.namesOnto (r.namesOnto rest)
  | cond c t f, rest => c.namesOnto (t.namesOnto (f.namesOnto rest))
  | call _ a, rest => a.namesOnto rest

/-- The variables of an expression in postfix order, with repetitions. -/
def names (e : Expr) : List String := e.namesOnto []

/-- The variables of an expression in ascending order, each once. -/
def freeVariables (e : Expr) : List String := sortedDistinct e.names

theorem namesOnto_eq (e : Expr) (rest : List String) :
    e.namesOnto rest = e.names ++ rest := by
  unfold names
  induction e generalizing rest with
  | const _ => rfl
  | var _ => rfl
  | binary _ l r ihl ihr =>
    simp only [namesOnto]
    rw [ihl, ihr, ihl (r.namesOnto []), List.append_assoc]
  | cond c t f ihc iht ihf =>
    simp only [namesOnto]
    rw [ihc, iht, ihf, ihc (t.namesOnto _), iht (f.namesOnto []),
      List.append_assoc, List.append_assoc]
  | call _ a ih => exact ih rest

end Expr

end ReversePolish
