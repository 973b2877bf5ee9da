import ReversePolish.Token

/-!
# Names of variables

A variable name is a word that an expression reads back as that variable: not
empty, without a gap in it, and neither an operator, the conditional mark, a
number nor a call.  The type carries this, so whatever holds a name can write it
into an expression without a check.
-/

namespace ReversePolish

/-- Why a name is refused. -/
inductive NameError where
  | emptyVariable
  | malformedVariable
  | emptyFunction
deriving DecidableEq, Repr

/-- The sentence that reports a refused name. -/
def NameError.message : NameError → String
  | .emptyVariable => "variable name must not be empty"
  | .malformedVariable =>
    "variable name must be a single word that is not a number, operator, '?:' or call"
  | .emptyFunction => "function name must not be empty"

/-- Whether a word is read back as a variable. -/
def namesVariable (word : String) : Bool :=
  word ≠ "" && !word.toList.any isGap && (Operator.ofSymbol? word).isNone &&
    word ≠ conditionalMark && (Number.literal? word).isNone && (callee? word).isNone

/-- A word that names a variable. -/
structure VariableName where
  text : String
  isWord : namesVariable text = true
deriving DecidableEq

namespace VariableName

/-- The variable name with a given text. -/
def ofString (text : String) : Except NameError VariableName :=
  if text = "" then .error .emptyVariable
  else if h : namesVariable text = true then .ok ⟨text, h⟩
  else .error .malformedVariable

@[simp] theorem ofString_text (name : VariableName) : ofString name.text = .ok name := by
  have h : name.text ≠ "" := fun he => by
    have := name.isWord
    simp [namesVariable, he] at this
  simp [ofString, h, name.isWord]

/-- A text is accepted exactly when it is a variable word. -/
theorem ofString_eq_ok_iff {text : String} {name : VariableName} :
    ofString text = .ok name ↔ name.text = text := by
  constructor
  · intro h
    unfold ofString at h
    split at h
    · cases h
    · split at h
      · injection h with h
        rw [← h]
      · cases h
  · rintro rfl
    exact ofString_text name

end VariableName

end ReversePolish
