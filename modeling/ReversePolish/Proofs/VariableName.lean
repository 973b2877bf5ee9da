import ReversePolish.Proofs.Expr.PostfixRoundTrip

/-!
# Names that are accepted and words that are variables

Whether a text can name a variable is tested twice.  `VariableName.ofString` refuses a text
that is empty, has a gap in it, or is an operator, the conditional mark, a number or a call.
The scanner first cuts a source into words and then asks in another order what each of them
is; a variable is what is left over.

The two tests agree on every text (`exists_ofString_iff_scan_eq`): a text is accepted as a
name exactly when it is scanned as one token that is the variable of this name.  What makes
the cut agree with the test for gaps is that a text is its one word exactly when it is not
empty and no separator stands in it (`words_eq_singleton_iff`).

It follows that a variable in a source is never refused when the source is read, and that
an accepted name is read back by itself.
-/

namespace ReversePolish

namespace Token

/-- A source is one token with the text of the source exactly when it is one word. -/
theorem scan_eq_singleton_iff {source : String} {x : Lexeme} :
    scan source = [⟨x, source⟩] ↔
      source ≠ "" ∧ (∀ c ∈ source.toList, isGap c = false) ∧ Lexeme.ofWord source = x := by
  have hempty : source ≠ "" ↔ source.toList ≠ [] := String.toList_eq_nil_iff.not.symm
  rw [hempty, ← and_assoc, ← words_eq_singleton_iff]
  constructor
  · intro h
    obtain ⟨word, hwords, hword⟩ := List.map_eq_singleton_iff.1 h
    obtain ⟨hx, htext⟩ := Token.mk.inj hword
    rw [hwords, ← htext, String.toList_ofList]
    exact ⟨rfl, hx⟩
  · rintro ⟨hwords, rfl⟩
    rw [scan, hwords, List.map_singleton, String.ofList_toList, ofWord]

/-- **A text is scanned as the variable of its own name exactly when it passes the test.** -/
theorem scan_eq_singleton_variableNamed_iff {text : String} :
    scan text = [⟨.variableNamed text, text⟩] ↔ namesVariable text = true := by
  rw [scan_eq_singleton_iff]
  constructor
  · rintro ⟨hne, hgap, hmeans⟩
    exact Lexeme.namesVariable_of_ofWord hne hgap hmeans
  · intro h
    obtain ⟨hne, hgap, -⟩ := Lexeme.namesVariable_iff.1 h
    exact ⟨hne, hgap, Lexeme.ofWord_of_namesVariable h⟩

/-- A token that is a variable has the name of the variable as its text. -/
theorem text_eq_of_variableNamed_mem_scan {source : String} {t : Token} {name : String}
    (ht : t ∈ scan source) (hx : t.lexeme = .variableNamed name) : t.text = name := by
  obtain ⟨word, -, rfl⟩ := List.mem_map.1 ht
  exact (Lexeme.ofWord_eq_variableNamed_iff.1 hx).1

end Token

namespace VariableName

/-- What passes the test is accepted. -/
theorem exists_ofString_eq_ok_iff {text : String} :
    (∃ name, ofString text = .ok name) ↔ namesVariable text = true := by
  constructor
  · rintro ⟨name, hname⟩
    rw [← ofString_eq_ok_iff.1 hname]
    exact name.isWord
  · intro h
    exact ⟨⟨text, h⟩, ofString_text ⟨text, h⟩⟩

/-- What is refused is empty, or fails the test, and the report says which. -/
theorem ofString_eq_error_iff {text : String} {e : NameError} :
    ofString text = .error e ↔
      (text = "" ∧ e = .emptyVariable) ∨
        (text ≠ "" ∧ ¬ namesVariable text = true ∧ e = .malformedVariable) := by
  constructor
  · intro h
    unfold ofString at h
    split at h
    · rename_i hempty
      cases h
      exact Or.inl ⟨hempty, rfl⟩
    · rename_i hne
      split at h
      · cases h
      · rename_i hname
        cases h
        exact Or.inr ⟨hne, hname, rfl⟩
  · rintro (⟨rfl, rfl⟩ | ⟨hne, hname, rfl⟩)
    · rfl
    · rw [ofString, if_neg hne, dif_neg hname]

/-- **A text is accepted as a name exactly when it is scanned as that variable.**  It is
refused as empty or as malformed, never both, and for no other reason.  A variable of any
source is therefore pushed when the source is read, and an accepted text is read as its
variable over every library. -/
theorem exists_ofString_iff_scan_eq (library : Library) (text : String) :
    ((∃ name, ofString text = .ok name) ↔ Token.scan text = [⟨.variableNamed text, text⟩]) ∧
    (∀ e, ofString text = .error e ↔
      (text = "" ∧ e = .emptyVariable) ∨
        (text ≠ "" ∧ Token.scan text ≠ [⟨.variableNamed text, text⟩] ∧
          e = .malformedVariable)) ∧
    (∀ t ∈ Token.scan text, ∀ word, t.lexeme = .variableNamed word → t.text = word ∧
      ∃ name : VariableName, name.text = word ∧ ofString word = .ok name ∧
        ∀ stack, Expr.push library text stack t.lexeme = .ok (.var name :: stack)) ∧
    ∀ name, ofString text = .ok name → Expr.ofSource library text = .ok (.var name) := by
  refine ⟨?_, fun e => ?_, fun t ht word hx => ?_, fun name hname => ?_⟩
  · rw [exists_ofString_eq_ok_iff, Token.scan_eq_singleton_variableNamed_iff]
  · rw [ofString_eq_error_iff, ← Token.scan_eq_singleton_variableNamed_iff]
  · have hmem : .variableNamed word ∈ Token.kinds text := hx ▸ List.mem_map_of_mem ht
    let name : VariableName := ⟨word, Token.namesVariable_of_mem_kinds hmem⟩
    refine ⟨Token.text_eq_of_variableNamed_mem_scan ht hx, name, rfl, ofString_text name,
      fun stack => ?_⟩
    rw [hx, Expr.push, show ofString word = .ok name from ofString_text name]
  · rw [← ofString_eq_ok_iff.1 hname]
    exact Expr.ofSource_text library name

/-- Only a minus sign makes a number of the word `inf`: with a plus sign it is a name. -/
theorem ofString_plusInf :
    ofString "+inf" = .ok ⟨"+inf", rfl⟩ ∧ ofString "-inf" = .error .malformedVariable ∧
      Expr.ofSource Library.standard "+inf" = .ok (.var ⟨"+inf", rfl⟩) := by
  obtain ⟨-, -, -, hread⟩ := exists_ofString_iff_scan_eq Library.standard "+inf"
  obtain ⟨-, hrefused, -⟩ := exists_ofString_iff_scan_eq Library.standard "-inf"
  exact ⟨rfl, (hrefused _).2 (Or.inr ⟨by decide, by decide, rfl⟩), hread _ rfl⟩

end VariableName

end ReversePolish
