import ReversePolish.Proofs.Bindings
import ReversePolish.Proofs.Command
import ReversePolish.Proofs.Expr.PostfixRoundTrip
import ReversePolish.Session

/-!
# Lines about one binding

A session answers a line `eval n` and a line `unset n` for a name `n` that it binds.  One
would expect the first to print the value and the second to remove the binding and nothing
else (`Serves`).  This is the case exactly when no blank stands in the name (`serves_iff`).

A name is a word in the sense of expressions, where only the six gaps separate, but the
rest of a command line is trimmed and cut at every blank.  So a name with another blank in
it can be bound by `setVariable` and then never be removed by a line
(`value?_execute_unset_of_isBlank`): what the line names is another variable, or no variable
at all.  Evaluating such a name goes wrong only if the blank stands at one of its ends,
where it is trimmed (`execute_eval_of_trim_eq`).
-/

namespace ReversePolish.Session

/-! ## The two lines -/

section Lines

variable [NaNRule] (s : Session)

/-- A line that begins with the word of a command carries out that command. -/
theorem execute_append {word : String} (hne : word.toList ≠ [])
    (hall : word.toList.all (fun c => !isBlank c) = true) (rest : String) :
    s.execute (word ++ " " ++ rest) =
      match Command.ofWord word (trim isBlank rest.toList) with
      | .ok command => s.run command
      | .error e => (.error e, s) := by
  rw [execute, Command.ofLine_append hne hall]
  cases Command.ofWord word (trim isBlank rest.toList) with
  | ok command => rfl
  | error e => rfl

/-- An `eval` line evaluates its rest, without the blanks at its ends. -/
theorem execute_eval (text : String) :
    s.execute ("eval " ++ text) =
      (s.about (String.ofList (trim isBlank text.toList)) s.valueText, s) :=
  s.execute_append (show "eval".toList ≠ [] by decide) rfl text

/-- An `unset` line removes what its one word names. -/
theorem execute_unset (text : String) :
    s.execute ("unset " ++ text) =
      match words isBlank text.toList with
      | [name] => (.ok "", { s with bindings := s.bindings.erase (String.ofList name) })
      | _ => (.error (.usage "unset <name>"), s) := by
  refine (s.execute_append (show "unset".toList ≠ [] by decide) rfl text).trans ?_
  rw [Command.ofWord_unset, Command.readUnset, words_trim]
  cases words isBlank text.toList with
  | nil => rfl
  | cons name rest =>
    cases rest with
    | nil => rfl
    | cons _ _ => rfl

end Lines

/-! ## What they do to a binding -/

/-- A bound name without a blank at its ends is evaluated to its value. -/
theorem execute_eval_of_trim_eq [NaNRule] {s : Session} {name : String} {v : Double}
    (h : s.bindings.value? name = some v) (htrim : trim isBlank name.toList = name.toList) :
    (s.execute ("eval " ++ name)).1 = .ok (Number.text v) := by
  obtain ⟨n, rfl⟩ := Bindings.exists_name_of_value? h
  rw [execute_eval, htrim, String.ofList_toList, about, Expr.ofSource_text]
  simp only [valueText, Expr.eval, Bindings.get, h]

/-- A name without blanks is removed by a line. -/
theorem execute_unset_of_forall_not_isBlank [NaNRule] (s : Session) {name : String}
    (hne : name.toList ≠ []) (hname : ∀ c ∈ name.toList, isBlank c = false) :
    s.execute ("unset " ++ name) = (.ok "", { s with bindings := s.bindings.erase name }) := by
  rw [execute_unset, words_of_forall_not_sep hname, addWord_of_ne_nil hne]
  dsimp only
  rw [String.ofList_toList]

/-- **A name with a blank in it is not removed by a line.** -/
theorem value?_execute_unset_of_isBlank [NaNRule] (s : Session) {name : String} {c : Char}
    (hc : c ∈ name.toList) (hblank : isBlank c = true) :
    (s.execute ("unset " ++ name)).2.bindings.value? name = s.bindings.value? name := by
  rw [execute_unset]
  split
  · rename_i word hwords
    -- the one word of the line has no blank, so it is another name
    have hword : ∀ d ∈ word, isBlank d = false :=
      sep_eq_false_of_mem_words (hwords ▸ List.mem_cons_self)
    refine Bindings.value?_erase_of_ne _ fun heq => ?_
    rw [← heq, String.toList_ofList] at hc
    rw [hword c hc] at hblank
    cases hblank
  · rfl

/-! ## Bindings that are served -/

/-- A line `eval` prints the value of a binding, and a line `unset` removes it and no
other. -/
structure Serves [NaNRule] (s : Session) (name : String) (v : Double) : Prop where
  eval_eq : (s.execute ("eval " ++ name)).1 = .ok (Number.text v)
  unset_ok : ∃ text, (s.execute ("unset " ++ name)).1 = .ok text
  removed : (s.execute ("unset " ++ name)).2.bindings.value? name = none
  kept : ∀ other, other ≠ name →
    (s.execute ("unset " ++ name)).2.bindings.value? other = s.bindings.value? other

/-- **Command lines serve exactly the bindings whose names have no blank.**  Nothing is asked
about the lines that led to the session or about its library. -/
theorem serves_iff [NaNRule] {s : Session} {name : String} {v : Double}
    (h : s.bindings.value? name = some v) :
    s.Serves name v ↔ ∀ c ∈ name.toList, isBlank c = false := by
  constructor
  · intro hserves c hc
    refine Bool.eq_false_iff.2 fun hblank => ?_
    have hkept := value?_execute_unset_of_isBlank s hc hblank
    rw [hserves.removed, h] at hkept
    cases hkept
  · intro hname
    have hne : name.toList ≠ [] := by
      obtain ⟨n, rfl⟩ := Bindings.exists_name_of_value? h
      exact (Lexeme.readable_variableNamed n).ne_nil
    have hunset := execute_unset_of_forall_not_isBlank s hne hname
    refine ⟨execute_eval_of_trim_eq h (trim_of_forall_not_sep hname), ⟨"", ?_⟩, ?_, ?_⟩
    · rw [hunset]
    · rw [hunset]
      exact Bindings.value?_erase_self _ _
    · intro other hother
      rw [hunset]
      exact Bindings.value?_erase_of_ne _ hother.symm

/-- A space of no width is no blank, so a name with one in it is served. -/
theorem serves_zeroWidthSpace :
    (new.setVariable "x\u200by" 1).2.bindings.value? "x\u200by" = some 1 ∧
      (new.setVariable "x\u200by" 1).2.Serves "x\u200by" 1 := by
  have hall : "x\u200by".toList.all (fun c => !isBlank c) = true := rfl
  refine ⟨rfl, (serves_iff rfl).2 fun c hc => ?_⟩
  simpa using List.all_eq_true.1 hall c hc

/-- **A name can be bound and not be served.**  The no-break space at its end is trimmed, so
both lines are about another variable. -/
theorem not_serves_noBreakSpace :
    (new.setVariable "x\u00a0" 1).2.bindings.value? "x\u00a0" = some 1 ∧
      ((new.setVariable "x\u00a0" 1).2.execute "eval x\u00a0").1 = .error (.unbound ⟨"x"⟩) ∧
      ((new.setVariable "x\u00a0" 1).2.execute "unset x\u00a0").2.bindings.value? "x\u00a0" =
        some 1 ∧
      ¬ (new.setVariable "x\u00a0" 1).2.Serves "x\u00a0" 1 := by
  refine ⟨rfl, rfl, rfl, fun hserves => ?_⟩
  have hnone : some (1 : Double) = none := hserves.removed
  cases hnone

end ReversePolish.Session
