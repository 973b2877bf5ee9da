import ReversePolish.Proofs.Program

/-!
# What the program makes of its arguments

Arguments can be cut at any place and read in parts (`ofArgs_append_and_status`).  Options in the
first part are put in front of what the second part asks for.  A command in the first part takes in
the whole second part as words, whatever it holds.  A first part that is refused is refused with
anything behind it, with one exception: if it is cut between `--var` and its binding, the second
part supplies what was missing.

What is read needs no second look.  The program binds the variables by their texts, and would end
with status 2 at the first one that is refused; but their names were accepted when the arguments
were read, so none is (`exists_sessionOf`).  The program ends with status 2 when its arguments
cannot be read, and for no other reason (`status_run_eq_two_iff`).
-/

namespace ReversePolish

namespace Program

open Invocation

/-! ## The bindings of the arguments -/

/-- **No variable of the arguments is refused.**  They are bound in the order given. -/
theorem exists_sessionOf [NaNRule] {args : List String} {i : Invocation} (h : ofArgs args = .ok i) :
    ∃ bs : List Binding, i.bindings = bs.map Binding.given ∧
      sessionOf i = .ok (Session.new.withBindings bs) := by
  have hgiven : i.bindings ∈ Set.range (List.map Binding.given) := by
    rw [Set.range_list_map]
    intro b hb
    obtain ⟨name, hname⟩ := accepted_of_ofArgs h b hb
    exact ⟨⟨name, b.2⟩, Prod.ext hname.symm rfl⟩
  obtain ⟨bs, hbs⟩ := hgiven
  refine ⟨bs, hbs.symm, ?_⟩
  rw [sessionOf, ← hbs, Session.setAll_map_given]

/-! ## Status -/

theorem status_runCommand_ne_two [NaNRule] (s : Session) (line : String) :
    (runCommand s line).status ≠ 2 := by
  rw [status_runCommand]
  split
  · decide
  · decide

theorem status_runScript_ne_two [NaNRule] (prompt : Bool) (s : Session) (input : List UInt8) :
    (runScript prompt s input).status ≠ 2 := by
  rw [runScript]
  split
  · exact show 1 ≠ 2 by decide
  · exact show 0 ≠ 2 by decide

/-- **The status says whether the arguments could be read.** -/
theorem status_run_eq_two_iff [NaNRule] (prompt : Bool) (args : List String) (input : List UInt8) :
    (run prompt args input).status = 2 ↔ ∃ e, ofArgs args = .error e := by
  rw [run]
  cases hargs : ofArgs args with
  | error e => exact ⟨fun _ => ⟨e, rfl⟩, fun _ => rfl⟩
  | ok i =>
    refine iff_of_false ?_ ?_
    · dsimp only
      split
      · decide
      · obtain ⟨bs, -, hsession⟩ := exists_sessionOf hargs
        rw [hsession]
        dsimp only
        split
        · exact status_runCommand_ne_two _ _
        · exact status_runScript_ne_two _ _ _
    · rintro ⟨e, h⟩
      cases h

/-! ## Arguments in parts -/

/-- **Arguments can be read in parts.** -/
theorem ofArgs_append_and_status [NaNRule] :
    (∀ a b i, ofArgs a = .ok i → i.command = none → ofArgs (a ++ b) =
      (ofArgs b).map fun j => ⟨i.bindings ++ j.bindings, j.command, i.help || j.help⟩) ∧
    (∀ a b i line, ofArgs a = .ok i → i.command = some line → ofArgs (a ++ b) =
      .ok { i with command := some (line ++ String.join (b.map (" " ++ ·))) }) ∧
    (∀ a, OpenEnded a → ofArgs a = .error (.usage bindingForm)) ∧
    (∀ a b e, ofArgs a = .error e → ¬ OpenEnded a → ofArgs (a ++ b) = .error e) ∧
    (∀ args i, ofArgs args = .ok i →
      (∀ x ∈ i.bindings, ∃ name, VariableName.ofString x.1 = .ok name) ∧
      ∃ bs : List Binding, i.bindings = bs.map Binding.given ∧
        sessionOf i = .ok (Session.new.withBindings bs)) ∧
    ∀ prompt args input, (run prompt args input).status = 2 ↔ ∃ e, ofArgs args = .error e := by
  refine ⟨fun a b i h hcommand => ?_, fun a b i line h hcommand => ?_,
    fun a h => ofArgs_of_openEnded h, fun a b e h hopen => ?_,
    fun args i h => ⟨fun x hx => ?_, exists_sessionOf h⟩, status_run_eq_two_iff⟩
  · have hbehind : i.followedBy = fun j =>
        ⟨i.bindings ++ j.bindings, j.command, i.help || j.help⟩ := by
      funext j
      rw [followedBy, hcommand, Option.or_none]
    rw [ofArgs_append (not_openEnded_of_ok h), h, Except.bind, resume, hcommand, ← hbehind]
  · rw [ofArgs_append (not_openEnded_of_ok h), h, Except.bind, resume, hcommand]
    rfl
  · rw [ofArgs_append hopen, h, Except.bind]
  · obtain ⟨name, hname⟩ := accepted_of_ofArgs h x hx
    exact ⟨name, hname ▸ name.ofString_text⟩

/-- A name is bound in both parts and help is asked for in one; options are words of a command in
front of them; what is no option is refused whatever follows. -/
theorem ofArgs_append_parts :
    ofArgs (["--var", "x=1", "-h"] ++ ["--var=x=2", "eval", "x"]) =
        .ok ⟨[("x", 1), ("x", 2)], some "eval x", true⟩ ∧
      ofArgs (["eval"] ++ ["--var", "x"]) = .ok ⟨[], some "eval --var x", false⟩ ∧
      ofArgs (["--x"] ++ ["--var"]) = .error (.usage usageText) ∧
      ofArgs ["-h", "--var"] = .error (.usage bindingForm) ∧
      (∃ session, sessionOf ⟨[("x", 1)], none, true⟩ = .ok session) ∧
      ∀ input, (run false ["--x"] input).status = 2 := by
  let x : VariableName := ⟨"x", rfl⟩
  have hcut : ∀ c ∈ x.text.toList, c ≠ '=' := by simp [x]
  have hone : readBinding "x=1" = .ok ("x", 1) :=
    readBinding_eq_ok hcut (show Number.ofText? "1" = some 1 by decide +kernel)
  have htwo : readBinding "x=2" = .ok ("x", 2) :=
    readBinding_eq_ok hcut (show Number.ofText? "2" = some 2 by decide +kernel)
  have hfront : ofArgs ["--var", "x=1", "-h"] = .ok ⟨[("x", 1)], none, true⟩ := by
    refine ((Gives.separate "x=1").readOnto_eq empty ["-h"]).trans ?_
    rw [hone]
    rfl
  have hback : ofArgs ["--var=x=2", "eval", "x"] = .ok ⟨[("x", 2)], some "eval x", false⟩ := by
    refine ((Gives.attached (show attachedBinding? "--var=x=2" = some "x=2" by rfl)).readOnto_eq
      empty ["eval", "x"]).trans ?_
    rw [htwo]
    rfl
  obtain ⟨hoptions, hcommand, hopen, herror, hbound, hstatus⟩ := ofArgs_append_and_status
  have hunknown : ofArgs ["--x"] = .error (.usage usageText) := rfl
  have hclosed : ¬ OpenEnded ["--x"] := by
    rintro ⟨front, i, hargs, -, -⟩
    have hlast := congrArg List.getLast? hargs
    simp at hlast
  refine ⟨?_, hcommand ["eval"] ["--var", "x"] _ _ rfl rfl, herror _ _ _ hunknown hclosed,
    hopen _ ⟨["-h"], _, rfl, rfl, rfl⟩, ?_, fun input => ?_⟩
  · rw [hoptions _ _ _ hfront rfl, hback]
    rfl
  · obtain ⟨-, bs, -, hsession⟩ := hbound _ _ hfront
    exact ⟨_, hsession⟩
  · exact (hstatus _ _ _).2 ⟨_, hunknown⟩

end Program

end ReversePolish
