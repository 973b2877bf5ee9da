import Mathlib.Data.String.Basic
import ReversePolish.Expr.Measure

/-!
# Free variables in order

The free variables are the names that occur, sorted, and of equal neighbours only one.  They
are the same names (`mem_freeVariables_iff`), and they ascend strictly, so that no name is
listed twice (`pairwise_freeVariables`).
-/

namespace ReversePolish

/-! ## Equal neighbours -/

theorem mem_consDistinct_iff {x name : String} {names : List String} :
    x ∈ consDistinct name names ↔ x = name ∨ x ∈ names := by
  cases names with
  | nil => simp [consDistinct]
  | cons first rest =>
    rw [consDistinct]
    split
    · rename_i h
      simp [h]
    · exact List.mem_cons

theorem mem_foldr_consDistinct_iff {x : String} {names : List String} :
    x ∈ names.foldr consDistinct [] ↔ x ∈ names := by
  induction names with
  | nil => rfl
  | cons name names ih => rw [List.foldr_cons, mem_consDistinct_iff, ih, List.mem_cons]

/-- A name in front of ascending names, none of them smaller, keeps them ascending. -/
theorem pairwise_consDistinct {name : String} {names : List String}
    (h : names.Pairwise (· < ·)) (hle : ∀ x ∈ names, name ≤ x) :
    (consDistinct name names).Pairwise (· < ·) := by
  cases names with
  | nil => exact List.pairwise_singleton _ _
  | cons first rest =>
    rw [consDistinct]
    split
    · exact h
    · rename_i hne
      have hlt : name < first := lt_of_le_of_ne (hle first List.mem_cons_self) hne
      refine List.pairwise_cons.2 ⟨fun x hx => ?_, h⟩
      rcases List.mem_cons.1 hx with rfl | hx
      · exact hlt
      · exact hlt.trans (List.rel_of_pairwise_cons h hx)

/-- **Without equal neighbours a sorted list ascends strictly.** -/
theorem pairwise_foldr_consDistinct {names : List String} (h : names.Pairwise (· ≤ ·)) :
    (names.foldr consDistinct []).Pairwise (· < ·) := by
  induction names with
  | nil => exact List.Pairwise.nil
  | cons name names ih =>
    obtain ⟨hle, h⟩ := List.pairwise_cons.1 h
    refine pairwise_consDistinct (ih h) fun x hx => ?_
    exact hle x (mem_foldr_consDistinct_iff.1 hx)

/-! ## Sorted names -/

theorem mem_sortedDistinct_iff {x : String} {names : List String} :
    x ∈ sortedDistinct names ↔ x ∈ names := by
  rw [sortedDistinct, mem_foldr_consDistinct_iff, List.mem_mergeSort]

theorem pairwise_sortedDistinct (names : List String) :
    (sortedDistinct names).Pairwise (· < ·) := by
  have htrans : ∀ a b c : String, decide (a ≤ b) = true → decide (b ≤ c) = true →
      decide (a ≤ c) = true := fun a b c hab hbc =>
    decide_eq_true ((of_decide_eq_true hab).trans (of_decide_eq_true hbc))
  have htotal : ∀ a b : String, (decide (a ≤ b) || decide (b ≤ a)) = true := fun a b => by
    simpa using le_total a b
  refine pairwise_foldr_consDistinct ?_
  exact (List.pairwise_mergeSort htrans htotal names).imp of_decide_eq_true

namespace Expr

/-- The free variables are the names that occur. -/
theorem mem_freeVariables_iff {e : Expr} {x : String} : x ∈ e.freeVariables ↔ x ∈ e.names :=
  mem_sortedDistinct_iff

theorem freeVariables_eq_nil_iff {e : Expr} : e.freeVariables = [] ↔ e.names = [] := by
  simp only [List.eq_nil_iff_forall_not_mem, mem_freeVariables_iff]

/-- **The free variables ascend strictly.** -/
theorem pairwise_freeVariables (e : Expr) : e.freeVariables.Pairwise (· < ·) :=
  pairwise_sortedDistinct e.names

end Expr

end ReversePolish
