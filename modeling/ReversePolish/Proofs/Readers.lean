import ReversePolish.Proofs.Program
import ReversePolish.Proofs.Session

/-!
# Three places where a number is read

A number is read in an expression, on a line that binds a variable, and in an option that does.  In
an expression it is a word among words, so fewer texts are taken for numbers there
(`Number.literal?`); the other two places read whatever spells a number (`Number.ofText?`), after
cutting it out of a line at blanks or out of an argument at an equals sign.

A literal of the language is read the same in all three (`literal?_read_alike`).  Whatever is a
literal spells a number, and the same one (`Number.ofText?_of_literal?`).  No literal has a blank or
a gap in it, so it is cut out whole, and by itself it is an expression
(`Expr.ofSource_of_literal?`).
-/

namespace ReversePolish

/-- **A literal is read where a number has to stand**, and as the same number. -/
theorem Number.ofText?_of_literal? {word : String} {v : Double} (h : literal? word = some v) :
    ofText? word = some v :=
  value?_of_literalOfChars? h

/-- **A literal by itself is an expression**, over every library. -/
theorem Expr.ofSource_of_literal? (library : Library) {word : String} {v : Double}
    (h : Number.literal? word = some v) : ofSource library word = .ok (const v) := by
  obtain ⟨hne, hblank⟩ := Lexeme.word_of_ofText? (Number.ofText?_of_literal? h)
  have hwords : words isGap word.toList = [word.toList] :=
    words_eq_singleton_iff.2 ⟨hne, fun c hc => isGap_eq_false_of_isBlank_eq_false (hblank c hc)⟩
  have hkinds : Token.kinds word = [.number v] := by
    rw [Token.kinds_eq_map, hwords, List.map_singleton, String.ofList_toList,
      Lexeme.ofWord_of_literal? h]
  rw [ofSource, ← Token.kinds, hkinds]
  rfl

namespace Session

/-- A line `eval` prints the number that a literal is read as. -/
theorem execute_eval_of_literal? [NaNRule] (s : Session) {word : String} {v : Double}
    (h : Number.literal? word = some v) :
    s.execute ("eval " ++ word) = (.ok (Number.text v), s) := by
  obtain ⟨-, hblank⟩ := Lexeme.word_of_ofText? (Number.ofText?_of_literal? h)
  rw [execute_eval, trim_of_forall_not_sep hblank, String.ofList_toList, about,
    Expr.ofSource_of_literal? s.library h]
  rfl

end Session

/-- **A literal is read alike in an expression, on a line and in an option.** -/
theorem literal?_read_alike [NaNRule] {word : String} {v : Double}
    (hword : Number.literal? word = some v) (name : VariableName)
    (hname : ∀ c ∈ name.text.toList, isBlank c = false) (s : Session) :
    let bound := s.execute ("set " ++ name.text ++ " " ++ word)
    (∀ s' : Session, (s'.execute ("eval " ++ word)).1 = .ok (Number.text v)) ∧
    bound.1 = .ok (name.text ++ " = " ++ Number.text v) ∧
    bound.2 = { s with bindings := s.bindings.bind name v } ∧
    bound.2.bindings.value? name.text = some v ∧
    (bound.2.execute ("eval " ++ name.text)).1 = .ok (Number.text v) ∧
    ((∀ c ∈ name.text.toList, c ≠ '=') →
      Invocation.ofArgs ["--var", name.text ++ "=" ++ word] = .ok ⟨[(name.text, v)], none, false⟩ ∧
      Invocation.ofArgs ["--var=" ++ name.text ++ "=" ++ word] =
        .ok ⟨[(name.text, v)], none, false⟩) := by
  intro bound
  have hread := Number.ofText?_of_literal? hword
  have hline : "set " ++ name.text ++ " " ++ word = " ".intercalate ["set", name.text, word] := by
    simp [String.append_assoc]
  have hbound : bound =
      (.ok (Session.bindingText name.text v), { s with bindings := s.bindings.bind name v }) := by
    refine Session.execute_of_wordsOf_set s ?_ hread
    rw [hline, Command.wordsOf_set hname hread]
  have hvalue : bound.2.bindings.value? name.text = some v := by
    rw [hbound]
    exact Bindings.value?_bind_self _ _ _
  refine ⟨fun s' => ?_, by rw [hbound, Session.bindingText], by rw [hbound], hvalue,
    Session.execute_eval_of_trim_eq hvalue (trim_of_forall_not_sep hname), fun hcut => ?_⟩
  · rw [s'.execute_eval_of_literal? hword]
  · have hbinding := Invocation.readBinding_eq_ok hcut hread
    have hattached : Invocation.attachedBinding? ("--var=" ++ name.text ++ "=" ++ word) =
        some (name.text ++ "=" ++ word) := by
      rw [← Invocation.attachedBinding?_append]
      simp only [String.append_assoc]
    exact ⟨(Invocation.Gives.separate _).ofArgs_eq hbinding,
      (Invocation.Gives.attached hattached).ofArgs_eq hbinding⟩

/-- An infinity below zero, and a variable that is named as one above it. -/
theorem literal?_read_alike_inf :
    let name : VariableName := ⟨"+inf", rfl⟩
    let v : Double := .ofRank true Magnitude.infinity
    (Session.new.execute "set +inf -inf").1 = .ok "+inf = -inf" ∧
      (Session.new.execute "eval -inf").1 = .ok "-inf" ∧
      ((Session.new.execute "set +inf -inf").2.execute "eval +inf").1 = .ok "-inf" ∧
      Invocation.ofArgs ["--var", "+inf=-inf"] = .ok ⟨[(name.text, v)], none, false⟩ ∧
      Invocation.ofArgs ["--var=+inf=-inf"] = .ok ⟨[(name.text, v)], none, false⟩ := by
  intro name v
  have hword : Number.literal? "-inf" = some v := rfl
  have htext : Number.text v = "-inf" := by decide +kernel
  have hname : ∀ c ∈ name.text.toList, isBlank c = false :=
    sep_eq_false_of_all (show "+inf".toList.all (fun c => !isBlank c) = true by rfl)
  have hcut : ∀ c ∈ name.text.toList, c ≠ '=' := by simp [name]
  obtain ⟨heval, hset, -, -, hagain, hoptions⟩ := literal?_read_alike hword name hname .new
  rw [htext] at heval hset hagain
  exact ⟨hset, heval .new, hagain, hoptions hcut⟩

end ReversePolish
