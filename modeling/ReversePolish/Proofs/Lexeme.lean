import ReversePolish.Proofs.Number.RoundTrip
import ReversePolish.Proofs.Text.Words
import ReversePolish.VariableName

/-!
# Meanings that can be written and read

The word that is written for a meaning should be one word, and it should have that
meaning.  This is the case for every number, every variable name, the operators and
the conditional mark, and for a call exactly when its name is free of gaps
(`Readable`).  One thing is lost: a number that is not a number is read as the one
that has a name, so what comes back is the canonical form of the meaning.  Readable
meanings survive being written with a gap between them and scanned again
(`Token.kinds_intercalate`).  On a command line a word must not have any blank
in it either; the same meanings have such words, as far as their names have none
(`Unbroken`).

In the other direction, what a source can hold is limited: its numbers are canonical, a
variable in it can be named, and the name of a call in it has no gap.
-/

namespace ReversePolish

/-- The meanings of the words of a source, in order. -/
def Token.kinds (source : String) : List Lexeme := (Token.scan source).map Token.lexeme

/-- Names of variables are told apart by their texts. -/
theorem VariableName.eq_of_text_eq {m n : VariableName} (h : m.text = n.text) : m = n := by
  cases m
  cases n
  cases h
  rfl

/-- What is not blank is no gap either. -/
theorem isGap_eq_false_of_isBlank_eq_false {c : Char} (h : isBlank c = false) :
    isGap c = false := by
  refine Bool.eq_false_iff.2 fun hgap => ?_
  rw [isBlank_of_isGap hgap] at h
  cases h

namespace Lexeme

/-- The meaning, with one not-a-number in the place of all. -/
@[simp] def canonical : Lexeme → Lexeme
  | number value => number value.canonical
  | variableNamed name => variableNamed name
  | operator op => operator op
  | conditional => conditional
  | call name => call name

/-- A not-a-number is written as every other. -/
theorem word_canonical (x : Lexeme) : x.canonical.word = x.word := by
  cases x with
  | number v => exact Number.text_canonical v
  | _ => rfl

/-- A meaning that is read back from its word. -/
structure Readable (x : Lexeme) : Prop where
  ofWord_word : ofWord x.word = x.canonical
  ne_nil : x.word.toList ≠ []
  noGap : ∀ c ∈ x.word.toList, isGap c = false

/-! ## Numbers -/

/-- The characters of numerals stand close together in the table of characters. -/
theorem toNat_of_isNumeralChar {c : Char} (h : Number.isNumeralChar c = true) :
    (43 ≤ c.toNat ∧ c.toNat ≤ 57) ∨ (65 ≤ c.toNat ∧ c.toNat ≤ 90) ∨
      (97 ≤ c.toNat ∧ c.toNat ≤ 122) := by
  simp only [Number.isNumeralChar, Char.isAlphanum, Char.isAlpha, Char.isUpper, Char.isLower,
    Char.isDigit, Bool.or_eq_true, Bool.and_eq_true, decide_eq_true_eq,
    UInt32.le_iff_toNat_le, ge_iff_le] at h
  rcases h with ((((hupper | hlower) | hdigit) | rfl) | rfl) | rfl
  · exact Or.inr (Or.inl hupper)
  · exact Or.inr (Or.inr hlower)
  · exact Or.inl ⟨le_trans (by decide) hdigit.1, hdigit.2⟩
  · decide
  · decide
  · decide

theorem isBlank_eq_false_of_isNumeralChar {c : Char} (h : Number.isNumeralChar c = true) :
    isBlank c = false := by
  have hrange := toNat_of_isNumeralChar h
  simp only [isBlank, Bool.or_eq_false_iff, Bool.and_eq_false_iff, decide_eq_false_iff_not]
  omega

theorem isGap_eq_false_of_isNumeralChar {c : Char} (h : Number.isNumeralChar c = true) :
    isGap c = false :=
  isGap_eq_false_of_isBlank_eq_false (isBlank_eq_false_of_isNumeralChar h)

theorem isNumeralChar_of_literal? {word : String} {v : Double}
    (h : Number.literal? word = some v) : ∀ c ∈ word.toList, Number.isNumeralChar c = true :=
  Number.isNumeralChar_of_mem h

/-- What is read as a number is a word on a command line. -/
theorem word_of_ofText? {word : String} {v : Double} (h : Number.ofText? word = some v) :
    word.toList ≠ [] ∧ ∀ c ∈ word.toList, isBlank c = false := by
  have hreads : Numeral.value? word.toList = some v := h
  refine ⟨fun hnil => ?_, fun c hc => ?_⟩
  · rw [hnil] at hreads
    cases hreads
  · exact isBlank_eq_false_of_isNumeralChar (Number.isNumeralChar_of_value? hreads c hc)

theorem literal?_symbol (op : Operator) : Number.literal? op.symbol = none := by
  cases op <;> decide

theorem literal?_conditionalMark : Number.literal? conditionalMark = none := by decide

theorem literal?_empty : Number.literal? "" = none := by decide

/-- A number is none of the marks. -/
theorem ofWord_of_literal? {word : String} {v : Double} (h : Number.literal? word = some v) :
    ofWord word = .number v := by
  have hop : Operator.ofSymbol? word = none := by
    refine Option.eq_none_iff_forall_ne_some.2 fun op hop => ?_
    rw [Operator.ofSymbol?_eq_some_iff.1 hop, literal?_symbol] at h
    cases h
  have hcond : word ≠ conditionalMark := by
    rintro rfl
    rw [literal?_conditionalMark] at h
    cases h
  simp only [ofWord, hop, hcond, if_false, h]

theorem readable_number (v : Double) : (number v).Readable := by
  have hread := Number.literal?_text v
  refine ⟨ofWord_of_literal? hread, fun hnil => ?_, fun c hc => ?_⟩
  · rw [String.toList_eq_nil_iff.1 (show (Number.text v).toList = [] from hnil),
      literal?_empty] at hread
    cases hread
  · exact isGap_eq_false_of_isNumeralChar (isNumeralChar_of_literal? hread c hc)

/-- **Every pattern of 64 bits is written as one word that reads as that number.**  The
number that comes back has the very pattern, except that all patterns that are not a number come
back as one that is not a number. -/
theorem exists_ofWord_text (x : Double) :
    Number.text x ≠ "" ∧
    (∀ c ∈ (Number.text x).toList, isGap c = false) ∧
    ∃ w, Token.ofWord (Number.text x) = ⟨.number w, Number.text x⟩ ∧
      Number.literal? (Number.text x) = some w ∧
      if x.isNaN then w.isNaN = true else w.bits = x.bits := by
  obtain ⟨hmeans, hne, hgap⟩ := readable_number x
  refine ⟨fun h => hne (String.toList_eq_nil_iff.2 h), hgap, x.canonical, ?_,
    Number.literal?_text _, ?_⟩
  · rw [Token.ofWord]
    congr 1
  · split
    · rename_i hnan
      rw [x.isNaN_canonical, hnan]
    · rename_i hnumber
      rw [Double.canonical_of_not_isNaN (Bool.eq_false_iff.2 hnumber)]

/-! ## Variables -/

theorem namesVariable_iff {word : String} :
    namesVariable word = true ↔ word ≠ "" ∧ (∀ c ∈ word.toList, isGap c = false) ∧
      Operator.ofSymbol? word = none ∧ word ≠ conditionalMark ∧ Number.literal? word = none ∧
      callee? word = none := by
  simp [namesVariable, and_assoc]

/-- A word means a variable exactly when it means nothing else, and then its own. -/
theorem ofWord_eq_variableNamed_iff {word text : String} :
    ofWord word = .variableNamed text ↔ word = text ∧ Operator.ofSymbol? word = none ∧
      word ≠ conditionalMark ∧ Number.literal? word = none ∧ callee? word = none := by
  constructor
  · intro h
    unfold ofWord at h
    split at h
    · cases h
    · rename_i hop
      split at h
      · cases h
      · rename_i hcond
        split at h
        · cases h
        · rename_i hnum
          split at h
          · cases h
          · rename_i hcall
            exact ⟨Lexeme.variableNamed.inj h, hop, hcond, hnum, hcall⟩
  · rintro ⟨rfl, hop, hcond, hnum, hcall⟩
    simp only [ofWord, hop, hcond, hnum, hcall, if_false]

theorem ofWord_of_namesVariable {word : String} (h : namesVariable word = true) :
    ofWord word = .variableNamed word := by
  obtain ⟨-, -, hother⟩ := namesVariable_iff.1 h
  exact ofWord_eq_variableNamed_iff.2 ⟨rfl, hother⟩

theorem readable_variableNamed (name : VariableName) : (variableNamed name.text).Readable := by
  obtain ⟨hne, hgap, -⟩ := namesVariable_iff.1 name.isWord
  exact ⟨ofWord_of_namesVariable name.isWord, fun h => hne (String.toList_eq_nil_iff.1 h), hgap⟩

/-! ## Marks -/

theorem readable_operator (op : Operator) : (operator op).Readable := by
  cases op <;> exact ⟨by decide, by decide, sep_eq_false_of_all rfl⟩

theorem readable_conditional : conditional.Readable :=
  ⟨by decide, by decide, sep_eq_false_of_all rfl⟩

/-! ## Calls -/

@[simp] theorem callee?_append_callMark (name : String) :
    callee? (name ++ callMark) = some name := by
  simp [callee?, callMark]

/-- Only a word that ends in the call mark has a name in front of it. -/
theorem callee?_eq_some_iff {word name : String} :
    callee? word = some name ↔ word = name ++ callMark := by
  constructor
  · intro h
    unfold callee? at h
    split at h
    · rename_i name' hrev
      obtain rfl := Option.some.inj h
      refine String.toList_inj.1 ?_
      rw [String.toList_append, String.toList_ofList, ← List.reverse_reverse word.toList, hrev]
      simp [callMark]
    · cases h
  · rintro rfl
    exact callee?_append_callMark name

theorem ofWord_append_callMark (name : String) : ofWord (name ++ callMark) = .call name := by
  have hmem : ')' ∈ (name ++ callMark).toList := by simp [callMark]
  have hop : Operator.ofSymbol? (name ++ callMark) = none := by
    refine Option.eq_none_iff_forall_ne_some.2 fun op hop => ?_
    rw [Operator.ofSymbol?_eq_some_iff.1 hop] at hmem
    cases op <;> exact absurd hmem (by decide)
  have hcond : name ++ callMark ≠ conditionalMark := by
    intro h
    rw [h] at hmem
    exact absurd hmem (by decide)
  have hnum : Number.literal? (name ++ callMark) = none := by
    refine Option.eq_none_iff_forall_ne_some.2 fun v hv => ?_
    exact absurd (isNumeralChar_of_literal? hv _ hmem) (by decide)
  simp only [ofWord, hop, hcond, hnum, callee?_append_callMark, if_false]

theorem readable_call {name : String} (h : ∀ c ∈ name.toList, isGap c = false) :
    (call name).Readable := by
  refine ⟨ofWord_append_callMark name, by simp [word, callMark], fun c hc => ?_⟩
  have hmark : ∀ c ∈ callMark.toList, isGap c = false := sep_eq_false_of_all rfl
  rw [word, String.toList_append] at hc
  exact (List.mem_append.1 hc).elim (h c) (hmark c)

/-! ## Blanks -/

/-- The word of a meaning has no blank in it, so it also stays whole on a command line. -/
def Unbroken (x : Lexeme) : Prop := ∀ c ∈ x.word.toList, isBlank c = false

theorem unbroken_number (v : Double) : (number v).Unbroken := fun c hc =>
  isBlank_eq_false_of_isNumeralChar (isNumeralChar_of_literal? (Number.literal?_text v) c hc)

theorem unbroken_operator (op : Operator) : (operator op).Unbroken := by
  cases op <;> exact sep_eq_false_of_all rfl

theorem unbroken_conditional : conditional.Unbroken := sep_eq_false_of_all rfl

theorem unbroken_call {name : String} (h : ∀ c ∈ name.toList, isBlank c = false) :
    (call name).Unbroken := by
  intro c hc
  have hmark : ∀ c ∈ callMark.toList, isBlank c = false := sep_eq_false_of_all rfl
  rw [word, String.toList_append] at hc
  exact (List.mem_append.1 hc).elim (h c) (hmark c)

/-! ## What a word can mean -/

/-- A word that means a number reads as that number. -/
theorem literal?_of_ofWord {word : String} {v : Double} (h : ofWord word = .number v) :
    Number.literal? word = some v := by
  unfold ofWord at h
  split at h
  · cases h
  · split at h
    · cases h
    · split at h
      · rename_i hnum
        rw [hnum, Lexeme.number.inj h]
      · split at h
        · cases h
        · cases h

/-- **No word means any other not-a-number than the one that has a name.** -/
theorem canonical_ofWord (word : String) : (ofWord word).canonical = ofWord word := by
  cases h : ofWord word with
  | number v => exact congrArg number (Number.canonical_of_literal? (literal?_of_ofWord h))
  | _ => rfl

/-- A word that means a variable is the name of that variable. -/
theorem namesVariable_of_ofWord {word text : String} (hne : word ≠ "")
    (hgap : ∀ c ∈ word.toList, isGap c = false) (h : ofWord word = .variableNamed text) :
    namesVariable text = true := by
  obtain ⟨rfl, hother⟩ := ofWord_eq_variableNamed_iff.1 h
  exact namesVariable_iff.2 ⟨hne, hgap, hother⟩

/-- A word that means a call ends in the call mark. -/
theorem eq_append_callMark_of_ofWord {word name : String} (h : ofWord word = .call name) :
    word = name ++ callMark := by
  refine callee?_eq_some_iff.1 ?_
  unfold ofWord at h
  split at h
  · cases h
  · split at h
    · cases h
    · split at h
      · cases h
      · split at h
        · rename_i hcall
          rw [hcall, Lexeme.call.inj h]
        · cases h

end Lexeme

/-! ## Line feeds -/

/-- Where there is no gap, there is no line feed. -/
theorem lineFeed_notMem_of_noGap {text : List Char} (h : ∀ c ∈ text, isGap c = false) :
    '\n' ∉ text := by
  intro hmem
  exact absurd (h '\n' hmem) (by decide)

theorem Number.lineFeed_notMem_text (v : Double) : '\n' ∉ (text v).toList :=
  lineFeed_notMem_of_noGap (Lexeme.readable_number v).noGap

theorem VariableName.lineFeed_notMem_text (name : VariableName) : '\n' ∉ name.text.toList :=
  lineFeed_notMem_of_noGap (Lexeme.readable_variableNamed name).noGap

namespace Token

theorem kinds_eq_map (source : String) :
    kinds source = (words isGap source.toList).map fun w => Lexeme.ofWord (String.ofList w) := by
  rw [kinds, scan, List.map_map]
  rfl

/-- **Readable meanings are scanned as they were written.** -/
theorem kinds_intercalate {xs : List Lexeme} (h : ∀ x ∈ xs, x.Readable) :
    kinds (" ".intercalate (xs.map Lexeme.word)) = xs.map Lexeme.canonical := by
  have hwords : ∀ w ∈ xs.map (String.toList ∘ Lexeme.word),
      w ≠ [] ∧ ∀ c ∈ w, isGap c = false := by
    intro w hw
    obtain ⟨x, hx, rfl⟩ := List.mem_map.1 hw
    exact ⟨(h x hx).ne_nil, (h x hx).noGap⟩
  have hgap : isGap ' ' = true := rfl
  have hmeans : ∀ x ∈ xs, Lexeme.ofWord (String.ofList x.word.toList) = x.canonical := by
    intro x hx
    rw [String.ofList_toList, (h x hx).ofWord_word]
  rw [kinds_eq_map, String.toList_intercalate, List.map_map,
    show (" " : String).toList = [' '] from rfl, words_intercalate hgap _ hwords, List.map_map]
  exact List.map_congr_left hmeans

/-- A source holds a word for each of its meanings. -/
theorem exists_word_of_mem_kinds {source : String} {x : Lexeme} (h : x ∈ kinds source) :
    ∃ word, Lexeme.ofWord word = x ∧ word ≠ "" ∧ ∀ c ∈ word.toList, isGap c = false := by
  rw [kinds_eq_map] at h
  obtain ⟨w, hw, rfl⟩ := List.mem_map.1 h
  refine ⟨String.ofList w, rfl, fun he => ?_, ?_⟩
  · have hnil : w = [] := by simpa using congrArg String.toList he
    exact nil_notMem_words isGap _ (hnil ▸ hw)
  · rw [String.toList_ofList]
    exact sep_eq_false_of_mem_words hw

/-- **The numbers in a source are canonical.** -/
theorem map_canonical_kinds (source : String) :
    (kinds source).map Lexeme.canonical = kinds source := by
  rw [kinds_eq_map, List.map_map]
  exact List.map_congr_left fun w _ => Lexeme.canonical_ofWord (String.ofList w)

/-- **Every variable in a source can be named.** -/
theorem namesVariable_of_mem_kinds {source text : String}
    (h : .variableNamed text ∈ kinds source) : namesVariable text = true := by
  obtain ⟨word, hword, hne, hgap⟩ := exists_word_of_mem_kinds h
  exact Lexeme.namesVariable_of_ofWord hne hgap hword

/-- **The name of a call in a source has no gap.** -/
theorem isGap_eq_false_of_call_mem_kinds {source name : String} (h : .call name ∈ kinds source) :
    ∀ c ∈ name.toList, isGap c = false := by
  obtain ⟨word, hword, -, hgap⟩ := exists_word_of_mem_kinds h
  rw [Lexeme.eq_append_callMark_of_ofWord hword, String.toList_append] at hgap
  intro c hc
  exact hgap c (List.mem_append_left _ hc)

end Token

end ReversePolish
