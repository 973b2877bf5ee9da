import ReversePolish.Proofs.Command
import ReversePolish.Session

/-!
# What a command line changes

A line that fails changes nothing.  A line that succeeds changes no function, and of the
bindings it changes one if it says `set` or `unset`, removes all if it says `clear`, and
leaves them as they were if it says anything else (`confined_execute`).

All this can be told from the words of the line.  What they may make of the bindings is a
relation of its own (`Effect`), stated by what is bound to a name before and after.  The
commands are gone through once, where they are carried out (`confined_run`); which command a
line of these words holds is known from reading it.
-/

namespace ReversePolish.Session

/-! ## Changes -/

/-- What the words of a line that succeeds may make of bindings `b`: the bindings `b'`. -/
inductive Effect (b b' : Bindings) : List String → Prop
  /-- The name is bound to the number that the last word is read as. -/
  | set {name value : String} {x : Double} (hvalue : Number.ofText? value = some x)
      (hbound : b'.value? name = some x)
      (hothers : ∀ other, other ≠ name → b'.value? other = b.value? other) :
      Effect b b' ["set", name, value]
  /-- The name is not bound any more. -/
  | unset {name : String} (hremoved : b'.value? name = none)
      (hothers : ∀ other, other ≠ name → b'.value? other = b.value? other) :
      Effect b b' ["unset", name]
  /-- No name is bound any more. -/
  | clear (hempty : b' = Catalog.empty) : Effect b b' ["clear"]
  /-- Any other line, and one without words, changes nothing. -/
  | other {ws : List String} (hfirst : ∀ word ∈ ws.head?, word ∉ ["set", "unset", "clear"])
      (hsame : b' = b) : Effect b b' ws

/-- A line of these words leaves a session as it was, or changes its bindings only, and
these only as the words say. -/
structure Confined (s : Session) (ws : List String)
    (result : Except CommandError String × Session) : Prop where
  unchanged : ∀ e, result.1 = .error e → result.2 = s
  library_eq : ∀ text, result.1 = .ok text → result.2.library = s.library
  effect : ∀ text, result.1 = .ok text → Effect s.bindings result.2.bindings ws

variable {s : Session} {ws : List String}

theorem confined_error (e : CommandError) : Confined s ws (.error e, s) where
  unchanged _ _ := rfl
  library_eq _ h := nomatch h
  effect _ h := nomatch h

theorem confined_ok {text : String} {next : Session} (hlibrary : next.library = s.library)
    (heffect : Effect s.bindings next.bindings ws) : Confined s ws (.ok text, next) where
  unchanged _ h := nomatch h
  library_eq _ _ := hlibrary
  effect _ _ := heffect

/-- What leaves the session alone is confined, if the words promise no change. -/
theorem confined_of_snd_eq {result : Except CommandError String × Session} (h : result.2 = s)
    (hfirst : ∀ word ∈ ws.head?, word ∉ ["set", "unset", "clear"]) : Confined s ws result where
  unchanged _ _ := h
  library_eq _ _ := congrArg library h
  effect _ _ := .other hfirst (congrArg bindings h)

/-! ## Commands -/

/-- A command about an expression leaves the session alone. -/
theorem snd_run_of_mem_aboutExpression [NaNRule] {word : String} {command : String → Command}
    (h : (word, command) ∈ Command.aboutExpression) (s : Session) (source : String) :
    (s.run (command source)).2 = s := by
  simp only [Command.aboutExpression, List.mem_cons, Prod.mk.injEq, List.not_mem_nil,
    or_false] at h
  rcases h with ⟨-, rfl⟩ | ⟨-, rfl⟩ | ⟨-, rfl⟩ | ⟨-, rfl⟩ | ⟨-, rfl⟩ | ⟨-, rfl⟩ <;> rfl

/-- No word of a command about an expression promises a change. -/
theorem notMem_of_mem_aboutExpression {word : String} {command : String → Command}
    (h : (word, command) ∈ Command.aboutExpression) : word ∉ ["set", "unset", "clear"] := by
  have hall : ∀ p ∈ Command.aboutExpression, p.1 ∉ ["set", "unset", "clear"] := by decide
  exact hall _ h

/-- **A command of these words is confined.** -/
theorem confined_run [NaNRule] {command : Command} (h : Command.Phrase ws command) :
    Confined s ws (s.run command) := by
  cases h with
  | @set name value x hvalue =>
    rw [run, setVariable]
    cases hname : VariableName.ofString name with
    | error e => exact confined_error (.invalidName e)
    | ok n =>
      obtain rfl := VariableName.ofString_eq_ok_iff.1 hname
      refine confined_ok rfl (.set hvalue (Bindings.value?_bind_self _ _ _) ?_)
      intro other hother
      exact Bindings.value?_bind_of_ne _ _ hother.symm
  | unset name =>
    refine confined_ok rfl (.unset (Bindings.value?_erase_self _ _) ?_)
    intro other hother
    exact Bindings.value?_erase_of_ne _ hother.symm
  | clear => exact confined_ok rfl (.clear rfl)
  | list => exact confined_of_snd_eq rfl (by decide)
  | help => exact confined_of_snd_eq rfl (by decide)
  | about hword source =>
    refine confined_of_snd_eq (snd_run_of_mem_aboutExpression hword s source) fun word h => ?_
    obtain rfl := Option.some.inj h
    exact notMem_of_mem_aboutExpression hword

/-! ## Lines -/

/-- The words of a line that changes bindings and can be carried out. -/
inductive Feasible : List String → Prop
  | set {name value : String} {x : Double} {n : VariableName}
      (hvalue : Number.ofText? value = some x) (hname : VariableName.ofString name = .ok n) :
      Feasible ["set", name, value]
  | unset (name : String) : Feasible ["unset", name]
  | clear : Feasible ["clear"]

theorem execute_of_ofLine [NaNRule] {line : String} {command : Command}
    (h : Command.ofLine line = .ok (some command)) : s.execute line = s.run command := by
  rw [execute, h]

/-- **A line of these words binds the variable** and says so, if the last word is read as a
number. -/
theorem execute_of_wordsOf_set [NaNRule] (s : Session) {line word : String}
    {name : VariableName} {x : Double}
    (hwords : Command.wordsOf line.toList = ["set", name.text, word])
    (hvalue : Number.ofText? word = some x) :
    s.execute line =
      (.ok (bindingText name.text x), { s with bindings := s.bindings.bind name x }) := by
  rw [execute_of_ofLine (Command.ofLine_of_wordsOf_set hwords hvalue), run, setVariable,
    VariableName.ofString_text]

/-- A feasible line succeeds. -/
theorem exists_execute_of_feasible [NaNRule] {line : String}
    (h : Feasible (Command.wordsOf line.toList)) :
    ∃ text, (s.execute line).1 = .ok text := by
  generalize hws : Command.wordsOf line.toList = ws at h
  cases h with
  | set hvalue hname =>
    obtain rfl := VariableName.ofString_eq_ok_iff.1 hname
    exact ⟨_, congrArg Prod.fst (s.execute_of_wordsOf_set hws hvalue)⟩
  | unset name =>
    rw [execute_of_ofLine (Command.ofLine_of_wordsOf_unset hws)]
    exact ⟨_, rfl⟩
  | clear =>
    rw [execute_of_ofLine (Command.ofLine_of_wordsOf_clear hws)]
    exact ⟨_, rfl⟩

/-- **A line changes a session completely or not at all, and only as its words say.**  The
lines that change something do so whenever they can. -/
theorem confined_execute [NaNRule] (s : Session) (line : String) :
    Confined s (Command.wordsOf line.toList) (s.execute line) ∧
      (Feasible (Command.wordsOf line.toList) → ∃ text, (s.execute line).1 = .ok text) := by
  refine ⟨?_, exists_execute_of_feasible⟩
  rcases Command.ofLine_cases line with ⟨hline, hws⟩ | ⟨command, hline, hphrase⟩ | ⟨e, hline⟩
  · rw [execute, hline, hws]
    exact confined_of_snd_eq rfl (by decide)
  · rw [execute_of_ofLine hline]
    exact confined_run hphrase
  · rw [execute, hline]
    exact confined_error e

/-- A number is no name: a line that is found to bind one leaves the session alone.  Another
name is bound, whatever blanks stand around it. -/
theorem confined_execute_set :
    (new.execute "set 1 2").1 = .error (.invalidName .malformedVariable) ∧
      (new.execute "set 1 2").2 = new ∧
      (new.execute "set  x\u00a02").2.bindings.value? "x" = some 2 := by
  have herror : (new.execute "set 1 2").1 = .error (.invalidName .malformedVariable) := rfl
  have hwords : Command.wordsOf "set  x\u00a02".toList = ["set", "x", "2"] := by decide
  have hvalue : Number.ofText? "2" = some 2 := by decide +kernel
  obtain ⟨hconfined, hsucceeds⟩ := confined_execute new "set  x\u00a02"
  rw [hwords] at hconfined hsucceeds
  obtain ⟨text, htext⟩ := hsucceeds (.set hvalue (VariableName.ofString_text ⟨"x", rfl⟩))
  refine ⟨herror, (confined_execute new "set 1 2").1.unchanged _ herror, ?_⟩
  have heffect := hconfined.effect text htext
  generalize hws : ["set", "x", "2"] = ws at heffect
  cases heffect with
  | set hread hbound =>
    obtain ⟨rfl, rfl⟩ : "x" = _ ∧ "2" = _ := by simpa using hws
    rw [hbound, ← hread, hvalue]
  | unset => exact absurd hws (by simp)
  | clear => exact absurd hws (by simp)
  | other hfirst =>
    rw [← hws] at hfirst
    exact absurd (hfirst "set" rfl) (by decide)

end ReversePolish.Session
