import ReversePolish.Command
import ReversePolish.Proofs.Text.Words

/-!
# Lines and the commands on them

A line that begins with a word and a space is the command of that word, applied to the
trimmed rest of the line (`ofLine_append`).  Blanks at the end of the line and behind
the space are trimmed at different places, but the rest comes out the same.

In general a line is known by its words, cut at blanks.  Without words it holds no command.
Otherwise the first word says which command it may hold, and what it does hold is a command
of these words (`ofLine_cases`, `Phrase`).  For the commands that change bindings the words
say everything, so for them there is a converse (`ofLine_of_wordsOf_set` and those after it).
-/

namespace ReversePolish.Command

/-! ## A word and a space -/

/-- Behind the first word of a trimmed line stands nothing, or the rest with its gap. -/
theorem splitWord_trim {word : List Char} (hne : word ≠ [])
    (hword : ∀ c ∈ word, isBlank c = false) (rest : List Char) :
    splitWord (trim isBlank (word ++ ' ' :: rest)) = (word, trim isBlank rest) := by
  have hkeep : ∀ c ∈ word, (!isBlank c) = true := by
    intro c hc
    rw [hword c hc]
    rfl
  have hrest : trim isBlank ((' ' :: rest).rdropWhile isBlank) = trim isBlank rest := by
    rw [trim_rdropWhile, trim, List.dropWhile_cons_of_pos rfl, ← trim]
  have hprefix := List.rdropWhile_prefix isBlank (' ' :: rest)
  rw [trim_append hne hword, splitWord, List.takeWhile_append_of_pos hkeep,
    List.dropWhile_append_of_pos hkeep, ← hrest]
  -- what the space is still in front of begins with it
  cases htail : (' ' :: rest).rdropWhile isBlank with
  | nil => rw [List.takeWhile_nil, List.append_nil, List.dropWhile_nil]
  | cons c tail =>
    rw [htail] at hprefix
    obtain rfl := (List.cons_prefix_cons.1 hprefix).1
    rw [List.takeWhile_cons_of_neg (by decide), List.append_nil,
      List.dropWhile_cons_of_neg (by decide)]

/-- **A word and a space make the rest of the line the argument of a command.** -/
theorem ofLine_append {word : String} (hne : word.toList ≠ [])
    (hall : word.toList.all (fun c => !isBlank c) = true) (rest : String) :
    ofLine (word ++ " " ++ rest) = (ofWord word (trim isBlank rest.toList)).map some := by
  have hword : ∀ c ∈ word.toList, isBlank c = false := by simpa using hall
  have hline : (word ++ " " ++ rest).toList = word.toList ++ ' ' :: rest.toList := by
    rw [String.toList_append, String.toList_append, List.append_assoc]
    rfl
  rw [ofLine, hline]
  split
  · rename_i hnil
    rw [trim_append hne hword] at hnil
    exact absurd (List.append_eq_nil_iff.1 hnil).1 hne
  · rw [splitWord_trim hne hword]
    dsimp only
    rw [String.ofList_toList]
    cases ofWord word (trim isBlank rest.toList) with
    | ok command => rfl
    | error e => rfl

/-! ## The words of a line -/

/-- The words of a text, cut at blanks. -/
def wordsOf (text : List Char) : List String := (words isBlank text).map String.ofList

theorem wordsOf_trim (text : List Char) : wordsOf (trim isBlank text) = wordsOf text := by
  rw [wordsOf, words_trim, wordsOf]

/-- Words that are joined by spaces are the words of the line. -/
theorem wordsOf_intercalate {ws : List String}
    (h : ∀ w ∈ ws, w.toList ≠ [] ∧ ∀ c ∈ w.toList, isBlank c = false) :
    wordsOf (" ".intercalate ws).toList = ws := by
  have hwords : words isBlank (" ".intercalate ws).toList = ws.map String.toList := by
    rw [String.toList_intercalate]
    exact words_intercalate (by decide) _ (List.forall_mem_map.2 h)
  rw [wordsOf, hwords, List.map_map]
  simp

/-- A line without words holds no command. -/
theorem ofLine_of_wordsOf_eq_nil {line : String} (h : wordsOf line.toList = []) :
    ofLine line = .ok none := by
  rw [ofLine, trim_eq_nil_of_words_eq_nil (List.map_eq_nil_iff.1 h)]

/-- **Any other line is the command of its first word**, applied to a text that has the other
words. -/
theorem exists_ofLine_eq {line first : String} {rest : List String}
    (h : wordsOf line.toList = first :: rest) :
    ∃ text, wordsOf text = rest ∧ ofLine line = (ofWord first (trim isBlank text)).map some := by
  rw [← wordsOf_trim] at h
  rw [ofLine]
  cases htrim : trim isBlank line.toList with
  | nil =>
    rw [htrim] at h
    cases h
  | cons c text =>
    rw [htrim, wordsOf, words_cons_of_not_sep (sep_eq_false_of_trim_eq_cons htrim),
      List.map_cons] at h
    obtain ⟨rfl, hrest⟩ := List.cons.inj h
    refine ⟨(c :: text).dropWhile (!isBlank ·), hrest, ?_⟩
    dsimp only [splitWord]
    cases ofWord _ (trim isBlank ((c :: text).dropWhile (!isBlank ·))) with
    | ok command => rfl
    | error e => rfl

/-- **A line that is not blank is read from two pieces of it**, its first word and the rest behind
the word. -/
theorem exists_infix_ofLine_eq (line : String) :
    ofLine line = .ok none ∨ ∃ word rest, word.toList <:+: line.toList ∧ rest <:+: line.toList ∧
      ofLine line = (ofWord word rest).map some := by
  have htrim := trim_isInfix isBlank line.toList
  rw [ofLine]
  generalize trim isBlank line.toList = trimmed at htrim ⊢
  cases trimmed with
  | nil => exact .inl rfl
  | cons c text =>
    have hword := List.takeWhile_prefix (!isBlank ·) (l := c :: text)
    have hrest := List.dropWhile_suffix (!isBlank ·) (l := c :: text)
    refine .inr ⟨String.ofList ((c :: text).takeWhile (!isBlank ·)),
      trim isBlank ((c :: text).dropWhile (!isBlank ·)), ?_, ?_, ?_⟩
    · rw [String.toList_ofList]
      exact hword.isInfix.trans htrim
    · exact (trim_isInfix isBlank _).trans (hrest.isInfix.trans htrim)
    · dsimp only [splitWord]
      cases ofWord _ (trim isBlank ((c :: text).dropWhile (!isBlank ·))) with
      | ok command => rfl
      | error e => rfl

/-! ## Words of commands -/

theorem ofWord_set (rest : List Char) : ofWord "set" rest = readSet rest := rfl

theorem ofWord_unset (rest : List Char) : ofWord "unset" rest = readUnset rest := rfl

theorem ofWord_clear (rest : List Char) : ofWord "clear" rest = readBare "clear" .clear rest :=
  rfl

/-- The commands about an expression, each behind its word. -/
def aboutExpression : List (String × (String → Command)) :=
  [("eval", .eval), ("infix", .inInfix), ("postfix", .inPostfix), ("opcount", .worstCost),
    ("optimize", .simplify), ("deps", .freeVariables)]

theorem ofWord_of_mem_aboutExpression {word : String} {command : String → Command}
    (h : (word, command) ∈ aboutExpression) (rest : List Char) :
    ofWord word rest = .ok (command (String.ofList rest)) := by
  simp only [aboutExpression, List.mem_cons, Prod.mk.injEq, List.not_mem_nil, or_false] at h
  rcases h with ⟨rfl, rfl⟩ | ⟨rfl, rfl⟩ | ⟨rfl, rfl⟩ | ⟨rfl, rfl⟩ | ⟨rfl, rfl⟩ | ⟨rfl, rfl⟩ <;>
    rfl

/-- The line of a command about an expression. -/
theorem ofLine_of_mem_aboutExpression {word : String} {command : String → Command}
    (h : (word, command) ∈ aboutExpression) (text : String) :
    ofLine (word ++ " " ++ text) =
      .ok (some (command (String.ofList (trim isBlank text.toList)))) := by
  have hwords : ∀ p ∈ aboutExpression,
      p.1.toList ≠ [] ∧ p.1.toList.all (fun c => !isBlank c) = true := by decide
  obtain ⟨hne, hall⟩ := hwords _ h
  rw [ofLine_append hne hall, ofWord_of_mem_aboutExpression h]
  rfl

/-- A line of these words can hold the command. -/
inductive Phrase : List String → Command → Prop
  | set {name value : String} {x : Double} (hvalue : Number.ofText? value = some x) :
      Phrase ["set", name, value] (.set name x)
  | unset (name : String) : Phrase ["unset", name] (.unset name)
  | list : Phrase ["vars"] .list
  | clear : Phrase ["clear"] .clear
  | help : Phrase ["help"] .help
  | about {word : String} {command : String → Command} (h : (word, command) ∈ aboutExpression)
      (source : String) : Phrase (word :: wordsOf source.toList) (command source)

/-- Only two words ask for a list. -/
theorem Phrase.ne_list_and_ne_help {ws : List String} {command : Command} (h : Phrase ws command)
    (hfirst : ∀ word ∈ ws.head?, word ∉ ["vars", "help"]) : command ≠ .list ∧ command ≠ .help := by
  cases h with
  | set hvalue => exact ⟨nofun, nofun⟩
  | unset name => exact ⟨nofun, nofun⟩
  | list => exact absurd (hfirst "vars" rfl) (by decide)
  | clear => exact ⟨nofun, nofun⟩
  | help => exact absurd (hfirst "help" rfl) (by decide)
  | about hword source =>
    simp only [aboutExpression, List.mem_cons, Prod.mk.injEq, List.not_mem_nil, or_false] at hword
    rcases hword with ⟨-, rfl⟩ | ⟨-, rfl⟩ | ⟨-, rfl⟩ | ⟨-, rfl⟩ | ⟨-, rfl⟩ | ⟨-, rfl⟩ <;>
      exact ⟨nofun, nofun⟩

theorem phrase_of_readSet {text : List Char} {command : Command}
    (h : readSet (trim isBlank text) = .ok command) : Phrase ("set" :: wordsOf text) command := by
  rw [readSet, words_trim] at h
  split at h
  · rename_i name value hwords
    split at h
    · rename_i x hvalue
      cases h
      rw [wordsOf, hwords]
      exact .set hvalue
    · cases h
  · cases h

theorem phrase_of_readUnset {text : List Char} {command : Command}
    (h : readUnset (trim isBlank text) = .ok command) :
    Phrase ("unset" :: wordsOf text) command := by
  rw [readUnset, words_trim] at h
  split at h
  · rename_i name hwords
    cases h
    rw [wordsOf, hwords]
    exact .unset _
  · cases h

theorem phrase_of_readBare {word : String} {text : List Char} {command bare : Command}
    (hbare : Phrase [word] bare) (h : readBare word bare (trim isBlank text) = .ok command) :
    Phrase (word :: wordsOf text) command := by
  rw [readBare] at h
  split at h
  · rename_i hnil
    cases h
    rw [← wordsOf_trim, hnil]
    exact hbare
  · cases h

theorem phrase_of_mem_aboutExpression {word : String} {command : String → Command}
    (h : (word, command) ∈ aboutExpression) (text : List Char) :
    Phrase (word :: wordsOf text) (command (String.ofList (trim isBlank text))) := by
  have hphrase := Phrase.about h (String.ofList (trim isBlank text))
  rwa [String.toList_ofList, wordsOf_trim] at hphrase

/-- What is read from a first word and a rest. -/
theorem phrase_of_ofWord {word : String} {text : List Char} {command : Command}
    (h : ofWord word (trim isBlank text) = .ok command) :
    Phrase (word :: wordsOf text) command := by
  unfold ofWord at h
  split at h
  · exact phrase_of_readSet h
  · exact phrase_of_readUnset h
  · exact phrase_of_readBare .list h
  · exact phrase_of_readBare .clear h
  · exact phrase_of_readBare .help h
  -- the six commands about an expression take the rest as it stands
  iterate 6
    · cases h
      exact phrase_of_mem_aboutExpression (by simp [aboutExpression]) text
  · cases h

/-- **What a line can hold**: nothing if it has no words, or a command by its words, or an
error. -/
theorem ofLine_cases (line : String) :
    (ofLine line = .ok none ∧ wordsOf line.toList = []) ∨
      (∃ command, ofLine line = .ok (some command) ∧ Phrase (wordsOf line.toList) command) ∨
      ∃ e, ofLine line = .error e := by
  cases hwords : wordsOf line.toList with
  | nil => exact Or.inl ⟨ofLine_of_wordsOf_eq_nil hwords, rfl⟩
  | cons first rest =>
    obtain ⟨text, rfl, hline⟩ := exists_ofLine_eq hwords
    rw [hline]
    cases hread : ofWord first (trim isBlank text) with
    | ok command => exact Or.inr (Or.inl ⟨command, rfl, phrase_of_ofWord hread⟩)
    | error e => exact Or.inr (Or.inr ⟨e, rfl⟩)

/-! ## Lines of given words -/

section Words

variable {line : String}

/-- A line of these three words binds a variable. -/
theorem ofLine_of_wordsOf_set {name value : String} {x : Double}
    (h : wordsOf line.toList = ["set", name, value]) (hvalue : Number.ofText? value = some x) :
    ofLine line = .ok (some (.set name x)) := by
  obtain ⟨text, hrest, hline⟩ := exists_ofLine_eq h
  obtain ⟨nameChars, tail, hwords, rfl, htail⟩ := List.map_eq_cons_iff.1 hrest
  obtain ⟨valueChars, rfl, rfl⟩ := List.map_eq_singleton_iff.1 htail
  rw [hline, ofWord_set, readSet, words_trim, hwords]
  dsimp only
  rw [hvalue]
  rfl

/-- A line of these two words removes a binding. -/
theorem ofLine_of_wordsOf_unset {name : String} (h : wordsOf line.toList = ["unset", name]) :
    ofLine line = .ok (some (.unset name)) := by
  obtain ⟨text, hrest, hline⟩ := exists_ofLine_eq h
  obtain ⟨nameChars, hwords, rfl⟩ := List.map_eq_singleton_iff.1 hrest
  rw [hline, ofWord_unset, readUnset, words_trim, hwords]
  rfl

/-- A line of this word removes all bindings. -/
theorem ofLine_of_wordsOf_clear (h : wordsOf line.toList = ["clear"]) :
    ofLine line = .ok (some .clear) := by
  obtain ⟨text, hrest, hline⟩ := exists_ofLine_eq h
  have htrim := trim_eq_nil_of_words_eq_nil (List.map_eq_nil_iff.1 hrest)
  rw [hline, ofWord_clear, readBare, if_pos htrim]
  rfl

end Words

end ReversePolish.Command
