import ReversePolish.Number.Spelling
import ReversePolish.Operator
import ReversePolish.Text.Blank
import ReversePolish.Text.Words

/-!
# Words and what they mean

An expression is written as a sequence of words, and what a word means does not
depend on its neighbours.  A word that is an operator symbol or the
conditional mark is that and nothing else; a word that reads as a number is a
number; a word ending in the call mark applies the function named in front of
it; every other word is a variable.  The tests are made in this order, and no
word is refused.
-/

namespace ReversePolish

/-- The word that chooses between two values. -/
def conditionalMark : String := "?:"

/-- What stands behind the name of a function to apply it. -/
def callMark : String := "()"

/-- The name in front of the call mark, if a word ends in it. -/
def callee? (word : String) : Option String :=
  match word.toList.reverse with
  | ')' :: '(' :: name => some (String.ofList name.reverse)
  | _ => none

/-- What a word means to an expression. -/
inductive Lexeme where
  /-- A number. -/
  | number (value : Double)
  /-- A variable, by its name. -/
  | variableNamed (name : String)
  /-- One of the five operators. -/
  | operator (op : Operator)
  /-- The conditional mark. -/
  | conditional
  /-- The application of a function, by its name. -/
  | call (name : String)
deriving DecidableEq

namespace Lexeme

/-- The meaning of a word. -/
def ofWord (word : String) : Lexeme :=
  match Operator.ofSymbol? word with
  | some op => .operator op
  | none =>
    if word = conditionalMark then .conditional
    else
      match Number.literal? word with
      | some value => .number value
      | none =>
        match callee? word with
        | some name => .call name
        | none => .variableNamed word

/-- The word that is written for a meaning. -/
def word : Lexeme → String
  | .number value => Number.text value
  | .variableNamed name => name
  | .operator op => op.symbol
  | .conditional => conditionalMark
  | .call name => name ++ callMark

end Lexeme

/-- A word of a source together with its meaning. -/
structure Token where
  lexeme : Lexeme
  text : String
deriving DecidableEq

namespace Token

/-- The token of a word. -/
def ofWord (word : String) : Token := ⟨Lexeme.ofWord word, word⟩

@[simp] theorem text_ofWord (word : String) : (ofWord word).text = word := rfl

@[simp] theorem lexeme_ofWord (word : String) : (ofWord word).lexeme = Lexeme.ofWord word := rfl

/-- The tokens of a source, one for each of its words. -/
def scan (source : String) : List Token :=
  (words isGap source.toList).map fun word => ofWord (String.ofList word)

end Token

end ReversePolish
