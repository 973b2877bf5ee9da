import ReversePolish.Invocation

/-!
# Arguments are read from the left

Arguments are read one option at a time, and nothing that an option asks for depends on the
options around it.  A list of arguments, whatever was asked for before it and whatever stands
behind it, is one of four things (`Reading`).  It consists of options, and then what follows is
read as if it stood alone.  It ends with an option `--var` that still lacks its binding.  It is
refused, and then so is every longer list.  Or it has come to a command, and then what follows
are words of this command, whatever they look like.

Every list is one of these (`reading`).  That is shown from the left, by taking off one option,
which is one argument or two.  What happens when lists are joined, wherever they are cut, can then
be read off (`ofArgs_append_cases`, `ofArgs_append`).

An option that binds a variable is read only if the variable can be bound, so this holds of all
variables that arguments bind (`accepted_of_ofArgs`).
-/

namespace ReversePolish.Invocation

/-! ## One request behind another -/

/-- What is asked for first and then in addition.  Of two commands the later one counts. -/
def followedBy (i j : Invocation) : Invocation :=
  ⟨i.bindings ++ j.bindings, j.command.or i.command, i.help || j.help⟩

theorem followedBy_empty (i : Invocation) : i.followedBy empty = i := by
  simp [followedBy, empty]

theorem empty_followedBy (i : Invocation) : empty.followedBy i = i := by
  simp [followedBy, empty]

theorem followedBy_assoc (i j k : Invocation) :
    (i.followedBy j).followedBy k = i.followedBy (j.followedBy k) := by
  simp [followedBy, Option.or_assoc, List.append_assoc, Bool.or_assoc]

/-- A command line with more words behind it, each behind a space. -/
def lineWith (line : String) (more : List String) : String :=
  line ++ String.join (more.map (" " ++ ·))

theorem lineWith_nil (line : String) : lineWith line [] = line := by simp [lineWith]

theorem lineWith_lineWith (line : String) (more others : List String) :
    lineWith (lineWith line more) others = lineWith line (more ++ others) := by
  simp [lineWith, String.append_assoc]

/-- The words of a command are joined one after another. -/
theorem intercalate_cons (arg : String) (args : List String) :
    " ".intercalate (arg :: args) = lineWith arg args := by
  induction args generalizing arg with
  | nil => rw [String.intercalate_singleton, lineWith_nil]
  | cons word args ih =>
    rw [String.intercalate_cons_cons, ih]
    simp [lineWith, String.append_assoc]

/-! ## The first of the arguments -/

/-- A name and a word for a number make a binding, if the name is not cut. -/
theorem readBinding_eq_ok {name : VariableName} (hname : ∀ c ∈ name.text.toList, c ≠ '=')
    {word : String} {x : Double} (hword : Number.ofText? word = some x) :
    readBinding (name.text ++ "=" ++ word) = .ok (name.text, x) := by
  have htext : (name.text ++ "=" ++ word).toList = name.text.toList ++ '=' :: word.toList := by
    simp
  have hkeep : ∀ c ∈ name.text.toList, decide (c ≠ '=') = true := fun c hc =>
    decide_eq_true (hname c hc)
  have hvalue : Numeral.value? word.toList = some x := hword
  rw [readBinding, htext, List.dropWhile_append_of_pos hkeep, List.takeWhile_append_of_pos hkeep,
    List.dropWhile_cons_of_neg (by decide), List.takeWhile_cons_of_neg (by decide),
    List.append_nil, String.ofList_toList]
  dsimp only
  rw [VariableName.ofString_text]
  dsimp only
  rw [hvalue]

theorem readOnto_help {arg : String} (h : arg = "-h" ∨ arg = "--help") (i : Invocation)
    (rest : List String) :
    readOnto i (arg :: rest) = readOnto (i.followedBy ⟨[], none, true⟩) rest := by
  rw [readOnto.eq_def]
  simp [h, followedBy]

/-- The two forms of the option that binds a variable, with the text for the binding. -/
inductive Gives : List String → String → Prop
  | attached {arg text : String} (h : attachedBinding? arg = some text) : Gives [arg] text
  | separate (text : String) : Gives ["--var", text] text

/-- **Either form asks for what its text is read as.** -/
theorem Gives.readOnto_eq {given : List String} {text : String} (h : Gives given text)
    (i : Invocation) (rest : List String) :
    readOnto i (given ++ rest) =
      (readBinding text).bind fun b => readOnto (i.followedBy ⟨[b], none, false⟩) rest := by
  have hadd : ∀ b, i.addBinding b = i.followedBy ⟨[b], none, false⟩ := fun b => by
    simp [addBinding, followedBy]
  cases h with
  | @attached arg _ h =>
    have hhelp : ¬ (arg = "-h" ∨ arg = "--help") := by
      rintro (rfl | rfl) <;> cases h
    rw [List.singleton_append, readOnto.eq_def]
    dsimp only
    rw [if_neg hhelp, h]
    dsimp only
    cases readBinding text with
    | ok b => exact congrArg (readOnto · rest) (hadd b)
    | error e => rfl
  | separate =>
    rw [List.cons_append, List.singleton_append, readOnto, if_neg (by decide),
      show attachedBinding? "--var" = none by decide]
    dsimp only
    rw [if_pos rfl]
    cases readBinding text with
    | ok b => exact congrArg (readOnto · rest) (hadd b)
    | error e => rfl

theorem attachedBinding?_append (text : String) :
    attachedBinding? ("--var=" ++ text) = some text := by
  have hprefix : "--var=".toList.isPrefixOf ("--var=" ++ text).toList = true := by
    rw [String.toList_append]
    exact List.isPrefixOf_iff_prefix.2 (List.prefix_append _ _)
  have hdrop : ("--var=" ++ text).toList.drop "--var=".length = text.toList := by
    rw [String.toList_append]
    exact List.drop_left
  rw [attachedBinding?, if_pos hprefix, hdrop, String.ofList_toList]

/-- An option alone asks for its binding. -/
theorem Gives.ofArgs_eq {given : List String} {text : String} (h : Gives given text)
    {b : String × Double} (hbinding : readBinding text = .ok b) :
    ofArgs given = .ok ⟨[b], none, false⟩ := by
  rw [ofArgs, ← List.append_nil given, h.readOnto_eq, hbinding]
  rfl

/-- An option without its binding at the end is refused. -/
theorem readOnto_var (i : Invocation) : readOnto i ["--var"] = .error (.usage bindingForm) := by
  rw [readOnto, if_neg (by decide), show attachedBinding? "--var" = none by decide]
  dsimp only
  rw [if_pos rfl]

/-- An argument with two hyphens that is no option is refused. -/
theorem readOnto_unknown {arg : String} (hhelp : ¬ (arg = "-h" ∨ arg = "--help"))
    (hattached : attachedBinding? arg = none) (hvar : arg ≠ "--var")
    (hoption : looksLikeOption arg = true) (i : Invocation) (rest : List String) :
    readOnto i (arg :: rest) = .error (.usage usageText) := by
  rw [readOnto.eq_def]
  simp [hhelp, hattached, hvar, hoption]

/-- Arguments that do not begin with an option are a command. -/
theorem readOnto_command {arg : String} (hhelp : arg ≠ "-h") (hoption : looksLikeOption arg = false)
    (i : Invocation) (args : List String) :
    readOnto i (arg :: args) = .ok { i with command := some (" ".intercalate (arg :: args)) } := by
  have hne : ∀ option : String, looksLikeOption option = true → arg ≠ option := by
    rintro option h rfl
    rw [hoption] at h
    cases h
  have hnone : attachedBinding? arg = none := by
    rw [attachedBinding?, if_neg]
    intro hattached
    have hhyphens : "--".toList <+: arg.toList :=
      List.IsPrefix.trans (by decide) (List.isPrefixOf_iff_prefix.1 hattached)
    rw [looksLikeOption, List.isPrefixOf_iff_prefix.2 hhyphens] at hoption
    cases hoption
  rw [readOnto.eq_def]
  dsimp only
  rw [if_neg (not_or.2 ⟨hhelp, hne _ (by decide)⟩), hnone]
  dsimp only
  rw [if_neg (hne _ (by decide)), hoption, if_neg Bool.false_ne_true]

/-! ## Names -/

/-- Every variable to bind has a name that can be bound. -/
def Accepted (i : Invocation) : Prop := ∀ b ∈ i.bindings, ∃ name : VariableName, b.1 = name.text

/-- A binding that is read has such a name. -/
theorem exists_name_of_readBinding {text : String} {b : String × Double}
    (h : readBinding text = .ok b) : ∃ name : VariableName, b.1 = name.text := by
  unfold readBinding at h
  split at h
  · cases h
  · split at h
    · cases h
    · rename_i name _
      split at h
      · cases h
        exact ⟨name, rfl⟩
      · cases h

theorem Accepted.addBinding {i : Invocation} (hi : i.Accepted) {text : String}
    {b : String × Double} (h : readBinding text = .ok b) : (i.addBinding b).Accepted :=
  List.forall_mem_append.2
    ⟨hi, List.forall_mem_singleton.2 (exists_name_of_readBinding h)⟩

/-- **Arguments bind no variable that cannot be bound.** -/
theorem Accepted.readOnto {i j : Invocation} {args : List String} (hi : i.Accepted)
    (h : readOnto i args = .ok j) : j.Accepted := by
  fun_induction Invocation.readOnto i args with
  | case1 i =>
    cases h
    exact hi
  | case2 i arg rest hhelp ih => exact ih hi h
  | case3 i arg rest hhelp text hattached b hb ih => exact ih (hi.addBinding hb) h
  | case6 i text rest b hb hhelp hattached ih => exact ih (hi.addBinding hb) h
  | case9 i arg rest =>
    cases h
    exact hi
  -- In all other cases the arguments are refused.
  | _ => cases h

theorem accepted_of_ofArgs {args : List String} {i : Invocation} (h : ofArgs args = .ok i) :
    i.Accepted :=
  Accepted.readOnto (fun _ hb => absurd hb List.not_mem_nil) h

/-! ## Whole lists -/

/-- What a list of arguments comes to, whatever was asked for before it and whatever follows. -/
inductive Reading (args : List String) : Prop
  /-- They are options, which ask for `k`. -/
  | options (k : Invocation) (hcommand : k.command = none)
      (hread : ∀ i rest, readOnto i (args ++ rest) = readOnto (i.followedBy k) rest)
  /-- They are options that ask for `k`, and a last one that lacks its binding. -/
  | openEnded (front : List String) (k : Invocation) (hargs : args = front ++ ["--var"])
      (hcommand : k.command = none)
      (hread : ∀ i rest, readOnto i (front ++ rest) = readOnto (i.followedBy k) rest)
  /-- They are refused. -/
  | refused (e : CommandError) (hread : ∀ i rest, readOnto i (args ++ rest) = .error e)
  /-- They are options and a command, and ask for `k`.  What follows belongs to the command. -/
  | command (k : Invocation) (line : String) (hcommand : k.command = some line)
      (hread : ∀ i rest, readOnto i (args ++ rest) =
        .ok (i.followedBy { k with command := some (lineWith line rest) }))

/-- Options in front of arguments are only put in front of what these ask for. -/
theorem Reading.behind {front args : List String} {j : Invocation} (hj : j.command = none)
    (hfront : ∀ i rest, readOnto i (front ++ rest) = readOnto (i.followedBy j) rest)
    (h : Reading args) : Reading (front ++ args) := by
  cases h with
  | options k hcommand hread =>
    refine .options (j.followedBy k) ?_ fun i rest => ?_
    · rw [followedBy, hcommand, hj, Option.or_none]
    · rw [List.append_assoc, hfront, hread, followedBy_assoc]
  | openEnded options k hargs hcommand hread =>
    refine .openEnded (front ++ options) (j.followedBy k) ?_ ?_ fun i rest => ?_
    · rw [hargs, List.append_assoc]
    · rw [followedBy, hcommand, hj, Option.or_none]
    · rw [List.append_assoc, hfront, hread, followedBy_assoc]
  | refused e hread =>
    refine .refused e fun i rest => ?_
    rw [List.append_assoc, hfront, hread]
  | command k line hcommand hread =>
    refine .command (j.followedBy k) line ?_ fun i rest => ?_
    · rw [followedBy, hcommand, Option.some_or]
    · rw [List.append_assoc, hfront, hread, followedBy_assoc]
      rfl

/-- An option that binds a variable, in front of arguments. -/
theorem Gives.reading {given args : List String} {text : String} (h : Gives given text)
    (hargs : Reading args) : Reading (given ++ args) := by
  cases hbinding : readBinding text with
  | ok b =>
    refine hargs.behind (j := ⟨[b], none, false⟩) rfl fun i rest => ?_
    rw [h.readOnto_eq, hbinding]
    rfl
  | error e =>
    refine .refused e fun i rest => ?_
    rw [List.append_assoc, h.readOnto_eq, hbinding]
    rfl

/-- **Every list of arguments is options, an open end, refused or a command.** -/
theorem reading : ∀ args : List String, Reading args
  | [] => .options empty rfl fun i rest => by rw [followedBy_empty, List.nil_append]
  | arg :: args => by
    by_cases hhelp : arg = "-h" ∨ arg = "--help"
    · have hfront := fun i rest => readOnto_help hhelp i rest
      exact show Reading ([arg] ++ args) from (reading args).behind rfl hfront
    cases hattached : attachedBinding? arg with
    | some text => exact (Gives.attached hattached).reading (reading args)
    | none =>
      by_cases hvar : arg = "--var"
      · subst hvar
        cases args with
        | nil =>
          refine .openEnded [] empty rfl rfl fun i rest => ?_
          rw [followedBy_empty, List.nil_append]
        | cons text args => exact (Gives.separate text).reading (reading args)
      cases hoption : looksLikeOption arg with
      | true => exact .refused _ fun i rest => readOnto_unknown hhelp hattached hvar hoption i _
      | false =>
        refine .command ⟨[], some (" ".intercalate (arg :: args)), false⟩ _ rfl fun i rest => ?_
        rw [List.cons_append, readOnto_command (not_or.1 hhelp).1 hoption, intercalate_cons,
          intercalate_cons, lineWith_lineWith]
        simp [followedBy]
-- Two arguments may be taken off at once, which is why the measure is the length.
termination_by args => args.length

/-! ## Lists that are joined -/

/-- What was asked for before is put in front. -/
theorem readOnto_eq_map (i : Invocation) (args : List String) :
    readOnto i args = (ofArgs args).map i.followedBy := by
  rw [ofArgs, ← List.append_nil args]
  cases reading args with
  | options k _ hread =>
    rw [hread, hread, empty_followedBy]
    rfl
  | openEnded front k hargs _ hread =>
    rw [hargs, List.append_assoc, hread, hread, List.append_nil, readOnto_var, readOnto_var]
    rfl
  | refused e hread =>
    rw [hread, hread]
    rfl
  | command k line _ hread =>
    rw [hread, hread, empty_followedBy]
    rfl

/-- The arguments are options, but for a last `--var` that has nothing to bind behind it. -/
def OpenEnded (args : List String) : Prop :=
  ∃ front i, args = front ++ ["--var"] ∧ ofArgs front = .ok i ∧ i.command = none

/-- **What arguments in front do to those behind them.**  Options are put in front of what is
asked for behind them; a refusal and a command stay what they are, and only the command takes in
what follows.  An open end is the one refusal that is not final. -/
theorem ofArgs_append_cases (a : List String) :
    (∃ i, ofArgs a = .ok i ∧ i.command = none ∧
      ∀ b, ofArgs (a ++ b) = (ofArgs b).map i.followedBy) ∨
    (OpenEnded a ∧ ofArgs a = .error (.usage bindingForm)) ∨
    (∃ e, ofArgs a = .error e ∧ ∀ b, ofArgs (a ++ b) = .error e) ∨
    ∃ i line, ofArgs a = .ok i ∧ i.command = some line ∧
      ∀ b, ofArgs (a ++ b) = .ok { i with command := some (lineWith line b) } := by
  have hnil : ofArgs a = ofArgs (a ++ []) := by rw [List.append_nil]
  cases reading a with
  | options k hcommand hread =>
    have happend : ∀ b, ofArgs (a ++ b) = (ofArgs b).map k.followedBy := fun b => by
      rw [ofArgs, hread, empty_followedBy, readOnto_eq_map]
    refine .inl ⟨k, ?_, hcommand, happend⟩
    rw [hnil, happend]
    exact congrArg Except.ok k.followedBy_empty
  | openEnded front k hargs hcommand hread =>
    refine .inr (.inl ⟨⟨front, k, hargs, ?_, hcommand⟩, ?_⟩)
    · rw [ofArgs, ← List.append_nil front, hread, empty_followedBy]
      rfl
    · rw [ofArgs, hargs, hread, readOnto_var]
  | refused e hread => exact .inr (.inr (.inl ⟨e, hnil.trans (hread _ _), hread empty⟩))
  | command k line hcommand hread =>
    have happend : ∀ b, ofArgs (a ++ b) = .ok { k with command := some (lineWith line b) } :=
      fun b => by rw [ofArgs, hread, empty_followedBy]
    refine .inr (.inr (.inr ⟨k, line, ?_, hcommand, happend⟩))
    rw [hnil, happend, lineWith_nil, ← hcommand]

/-- An open end is refused, and the report is about the missing binding. -/
theorem ofArgs_of_openEnded {a : List String} (h : OpenEnded a) :
    ofArgs a = .error (.usage bindingForm) := by
  obtain ⟨front, i, rfl, hfront, hcommand⟩ := h
  rcases ofArgs_append_cases front with ⟨j, -, -, happend⟩ | ⟨-, h⟩ | ⟨e, h, -⟩ |
    ⟨j, line, h, hline, -⟩
  · rw [happend, ofArgs, readOnto_var]
    rfl
  · rw [hfront] at h
    cases h
  · rw [hfront] at h
    cases h
  · rw [hfront] at h
    cases h
    rw [hcommand] at hline
    cases hline

theorem not_openEnded_of_ok {a : List String} {i : Invocation} (h : ofArgs a = .ok i) :
    ¬ OpenEnded a := fun hopen => by
  rw [ofArgs_of_openEnded hopen] at h
  cases h

/-- What is asked for behind arguments that ask for `i`. -/
def resume (i : Invocation) (args : List String) : Except CommandError Invocation :=
  match i.command with
  | none => (ofArgs args).map i.followedBy
  | some line => .ok { i with command := some (lineWith line args) }

/-- **Arguments are read in parts**, wherever they are cut, unless the first part has an open
end. -/
theorem ofArgs_append {a : List String} (h : ¬ OpenEnded a) (b : List String) :
    ofArgs (a ++ b) = (ofArgs a).bind fun i => i.resume b := by
  rcases ofArgs_append_cases a with ⟨i, hi, hcommand, happend⟩ | ⟨hopen, -⟩ | ⟨e, he, happend⟩ |
    ⟨i, line, hi, hcommand, happend⟩
  · rw [hi, happend, Except.bind, resume, hcommand]
  · exact absurd hopen h
  · rw [he, happend, Except.bind]
  · rw [hi, happend, Except.bind, resume, hcommand]

end ReversePolish.Invocation
