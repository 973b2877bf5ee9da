/-!
# Words

The words of a text, for a class of separating characters, are its maximal
non-empty runs of other characters.  They are computed from the right end: the
state is the run that the next character to the left would join, and the words
already complete behind it.
-/

namespace ReversePolish

/-- Adds a run to the words behind it, unless the run is empty. -/
def addWord (run : List Char) (words : List (List Char)) : List (List Char) :=
  match run with
  | [] => words
  | _ => run :: words

/-- One character to the left of a run and of the complete words behind it. -/
def wordStep (sep : Char → Bool) (c : Char) :
    List Char × List (List Char) → List Char × List (List Char)
  | (run, words) => if sep c then ([], addWord run words) else (c :: run, words)

/-- The maximal non-empty runs of characters outside `sep`, in order. -/
def words (sep : Char → Bool) (text : List Char) : List (List Char) :=
  let (run, rest) := text.foldr (wordStep sep) ([], [])
  addWord run rest

/-- The text without the characters of `sep` at its two ends. -/
def trim (sep : Char → Bool) (text : List Char) : List Char :=
  ((text.dropWhile sep).reverse.dropWhile sep).reverse

@[simp] theorem words_nil (sep : Char → Bool) : words sep [] = [] := rfl

@[simp] theorem trim_nil (sep : Char → Bool) : trim sep [] = [] := rfl

/-- A separator in front changes nothing. -/
theorem words_cons_of_sep {sep : Char → Bool} {c : Char} (h : sep c) (text : List Char) :
    words sep (c :: text) = words sep text := by
  simp [words, wordStep, h, addWord]

/-- Words that are already complete are only carried along. -/
theorem foldr_wordStep_complete (sep : Char → Bool) (text : List Char)
    (rest : List (List Char)) :
    text.foldr (wordStep sep) ([], rest) =
      ((text.foldr (wordStep sep) ([], [])).1, (text.foldr (wordStep sep) ([], [])).2 ++ rest) := by
  induction text with
  | nil => rfl
  | cons d text ih =>
    rw [List.foldr_cons, ih, List.foldr_cons]
    simp only [wordStep]
    split
    · simp only [addWord]
      split <;> rfl
    · rfl

/-- A separator cuts: the words of a text with a separator in it are the words in
front of it followed by the words behind it. -/
theorem words_append_cons_of_sep {sep : Char → Bool} {c : Char} (h : sep c)
    (a b : List Char) : words sep (a ++ c :: b) = words sep a ++ words sep b := by
  simp only [words, List.foldr_append, List.foldr_cons, wordStep, h, if_true]
  rw [foldr_wordStep_complete]
  simp only [addWord]
  split <;> simp

/-- A text without separators is one word, or none if it is empty. -/
theorem words_of_forall_not_sep {sep : Char → Bool} {text : List Char}
    (h : ∀ c ∈ text, sep c = false) : words sep text = addWord text [] := by
  have key : text.foldr (wordStep sep) ([], []) = (text, []) := by
    induction text with
    | nil => rfl
    | cons c text ih =>
      rw [List.foldr_cons, ih fun d hd => h d (List.mem_cons_of_mem c hd)]
      simp [wordStep, h c List.mem_cons_self]
  simp [words, key]

/-- No word is empty. -/
theorem nil_notMem_words (sep : Char → Bool) (text : List Char) : [] ∉ words sep text := by
  have key : [] ∉ (text.foldr (wordStep sep) ([], [])).2 := by
    induction text with
    | nil => simp
    | cons c text ih =>
      simp only [List.foldr_cons, wordStep]
      split
      · unfold addWord
        split <;> simp_all
      · exact ih
  simp only [words, addWord]
  split
  · exact key
  · rename_i h
    intro hmem
    rcases List.mem_cons.1 hmem with he | he
    · exact h he.symm
    · exact key he

end ReversePolish
