import ReversePolish.Proofs.Text.Line
import ReversePolish.Script

/-!
# Scripts line by line

A script behind complete lines is run as if these had been run before: nothing is looked at
early, and nothing is lost or done twice (`run_append`).

Two facts about running lines make this up.  What was printed before is only carried along, so
a run that starts with a transcript is the run that starts without one, put behind it
(`runLines_followedBy`).  And how lines end depends on them alone, not on the session: they end
as the first line says that stops a script (`fst_runLines`).  If there is none, the run stands
where it would ask for one more line, and goes on with the lines that follow
(`exists_runLines_append`); if there is one, the lines behind it are never reached
(`runLines_append_of_stop`).
-/

namespace ReversePolish

namespace Transcript

/-! ## One transcript behind another -/

/-- What is printed by one run and then by another, and the session that the second reaches. -/
def followedBy (t u : Transcript) : Transcript :=
  ⟨t.output ++ u.output, t.errors ++ u.errors, u.session⟩

theorem followedBy_start (t : Transcript) : t.followedBy (start t.session) = t := by
  rw [followedBy, start, String.append_empty, String.append_empty]

@[simp] theorem session_askFor (prompt : Bool) (t : Transcript) :
    (t.askFor prompt).session = t.session := by
  cases prompt with
  | false => rfl
  | true => rfl

theorem session_execute [NaNRule] (t : Transcript) (line : String) :
    (t.execute line).session = (t.session.execute line).2 := by
  rw [execute]
  rcases t.session.execute line with ⟨result, session⟩
  cases result with
  | ok text => rfl
  | error e => rfl

theorem askFor_followedBy (prompt : Bool) (t u : Transcript) :
    (t.followedBy u).askFor prompt = t.followedBy (u.askFor prompt) := by
  cases prompt with
  | false => rfl
  | true => simp only [askFor, followedBy, if_true, String.append_assoc]

theorem execute_followedBy [NaNRule] (t u : Transcript) (line : String) :
    (t.followedBy u).execute line = t.followedBy (u.execute line) := by
  rw [execute, execute, followedBy]
  dsimp only
  rcases u.session.execute line with ⟨result, session⟩
  cases result with
  | ok text =>
    simp only [followedBy, mk.injEq, and_true]
    rw [apply_ite (t.output ++ ·), String.append_assoc]
  | error e => simp only [followedBy, String.append_assoc]

end Transcript

namespace Script

/-- What was printed before is carried along. -/
theorem runLines_followedBy [NaNRule] (prompt : Bool) (t u : Transcript)
    (lines : List (List UInt8)) :
    runLines prompt (t.followedBy u) lines =
      ((runLines prompt u lines).1, t.followedBy (runLines prompt u lines).2) := by
  induction lines generalizing u with
  | nil => rw [runLines, runLines, Transcript.askFor_followedBy]
  | cons line lines ih =>
    rw [runLines, runLines, Transcript.askFor_followedBy]
    cases lineText? line with
    | none => rfl
    | some text =>
      dsimp only
      split
      · rfl
      · rw [Transcript.execute_followedBy, ih]

/-- A run that starts with a transcript is the run of its session, put behind it. -/
theorem runLines_eq_followedBy [NaNRule] (prompt : Bool) (t : Transcript)
    (lines : List (List UInt8)) :
    runLines prompt t lines =
      ((runLines prompt (.start t.session) lines).1,
        t.followedBy (runLines prompt (.start t.session) lines).2) := by
  rw [← runLines_followedBy, Transcript.followedBy_start]

/-! ## Where a run ends -/

/-- How a line ends a script, if it does. -/
def stop? (line : List UInt8) : Option Ending :=
  match lineText? line with
  | none => some .malformed
  | some text => if isQuit text then some .quit else none

theorem stop?_eq_none_iff {line : List UInt8} :
    stop? line = none ↔ ∃ text, lineText? line = some text ∧ isQuit text = false := by
  rw [stop?]
  cases lineText? line with
  | none => simp
  | some text => simp

/-- **A script ends as its first line says that ends one**, whatever its session. -/
theorem fst_runLines [NaNRule] (prompt : Bool) (t : Transcript) (lines : List (List UInt8)) :
    (runLines prompt t lines).1 = (lines.findSome? stop?).getD .endOfInput := by
  induction lines generalizing t with
  | nil => rfl
  | cons line lines ih =>
    rw [runLines, List.findSome?_cons, stop?]
    cases lineText? line with
    | none => rfl
    | some text =>
      dsimp only
      split
      · rfl
      · exact ih _

theorem stop?_ne_endOfInput (line : List UInt8) : stop? line ≠ some .endOfInput := by
  rw [stop?]
  cases lineText? line with
  | none => simp
  | some text =>
    dsimp only
    split
    · simp
    · simp

/-- The end of the input is reached when no line ends the script. -/
theorem fst_runLines_eq_endOfInput_iff [NaNRule] {prompt : Bool} {t : Transcript}
    {lines : List (List UInt8)} :
    (runLines prompt t lines).1 = .endOfInput ↔ ∀ line ∈ lines, stop? line = none := by
  rw [fst_runLines, ← List.findSome?_eq_none_iff]
  cases h : lines.findSome? stop? with
  | none => simp
  | some ending =>
    obtain ⟨line, -, hline⟩ := List.exists_of_findSome?_eq_some h
    have hne : ending ≠ .endOfInput := fun he => stop?_ne_endOfInput line (he ▸ hline)
    simpa using hne

/-! ## Lines behind lines -/

/-- **Behind lines that do not end it, a script goes on** from where it would ask for one more
line. -/
theorem exists_runLines_append [NaNRule] (prompt : Bool) (t : Transcript)
    {lines : List (List UInt8)} (h : ∀ line ∈ lines, stop? line = none) :
    ∃ u : Transcript, runLines prompt t lines = (.endOfInput, u.askFor prompt) ∧
      ∀ rest, runLines prompt t (lines ++ rest) = runLines prompt u rest := by
  induction lines generalizing t with
  | nil => exact ⟨t, rfl, fun _ => rfl⟩
  | cons line lines ih =>
    obtain ⟨hline, hlines⟩ := List.forall_mem_cons.1 h
    obtain ⟨text, htext, hquit⟩ := stop?_eq_none_iff.1 hline
    obtain ⟨u, hu, happend⟩ := ih ((t.askFor prompt).execute text) hlines
    refine ⟨u, ?_, fun rest => ?_⟩
    · simp only [runLines, htext, hquit, Bool.false_eq_true, if_false, hu]
    · simp only [List.cons_append, runLines, htext, hquit, Bool.false_eq_true, if_false, happend]

/-- **Behind a line that ends a script, nothing is reached.** -/
theorem runLines_append_of_stop [NaNRule] (prompt : Bool) (t : Transcript)
    {lines : List (List UInt8)} (h : ∃ line ∈ lines, stop? line ≠ none) (rest : List (List UInt8)) :
    runLines prompt t (lines ++ rest) = runLines prompt t lines := by
  induction lines generalizing t with
  | nil =>
    obtain ⟨line, hline, -⟩ := h
    cases hline
  | cons line lines ih =>
    rw [List.exists_mem_cons_iff, stop?] at h
    rw [List.cons_append, runLines, runLines]
    cases htext : lineText? line with
    | none => rfl
    | some text =>
      dsimp only
      split
      · rfl
      · rename_i hquit
        rw [htext] at h
        dsimp only at h
        rw [if_neg hquit] at h
        exact ih _ (h.resolve_left fun hne => hne rfl)

/-- **A script is run line by line, without look-ahead and without loss.**  Let the bytes `a` be
complete lines.  How they end depends on the first line that is not valid UTF-8 or asks to stop.
Without such a line, a run of `a` and `b` is a run of `a`, up to the prompt at its end, and then
a run of `b` in the session that `a` leaves.  With such a line, `b` makes no difference. -/
theorem run_append [NaNRule] {a : List UInt8} (ha : EndsLine a) (prompt : Bool) (session : Session)
    (b : List UInt8) :
    (run prompt session a).1 = ((byteLines a).findSome? stop?).getD .endOfInput ∧
    ((run prompt session a).1 = .endOfInput ↔
      ∀ line ∈ byteLines a, ∃ text, lineText? line = some text ∧ isQuit text = false) ∧
    ((run prompt session a).1 = .endOfInput →
      ∃ t : Transcript, run prompt session a = (.endOfInput, t.askFor prompt) ∧
        run prompt session (a ++ b) =
          ((run prompt t.session b).1, t.followedBy (run prompt t.session b).2)) ∧
    ((run prompt session a).1 ≠ .endOfInput →
      run prompt session (a ++ b) = run prompt session a) := by
  simp only [← stop?_eq_none_iff, run]
  rw [byteLines_append ha]
  refine ⟨fst_runLines _ _ _, fst_runLines_eq_endOfInput_iff, fun hend => ?_, fun hstop => ?_⟩
  · obtain ⟨t, ht, happend⟩ :=
      exists_runLines_append prompt (.start session) (fst_runLines_eq_endOfInput_iff.1 hend)
    exact ⟨t, ht, (happend _).trans (runLines_eq_followedBy prompt t _)⟩
  · refine runLines_append_of_stop prompt _ ?_ _
    simpa using mt fst_runLines_eq_endOfInput_iff.2 hstop

/-- Lines that follow a binding see it, and the prompt between them is printed once; behind bytes
that are no text nothing is bound. -/
theorem run_append_binding :
    EndsLine (textBytes "set x 2\n") ∧
      (run true .new (textBytes "set x 2\n" ++ textBytes "eval x\nquit\nset x 3")).1 = .quit ∧
      (run true .new (textBytes "set x 2\n" ++ textBytes "eval x\nquit\nset x 3")).2.output =
        "> x = 2.0\n> 2.0\n> " ∧
      EndsLine [0xff, lineFeed] ∧
      (run false .new ([0xff, lineFeed] ++ textBytes "set x 2\n")).1 = .malformed := by
  have hlines : EndsLine (textBytes "set x 2\n") := by decide
  have hbytes : EndsLine [0xff, lineFeed] := by decide
  obtain ⟨-, -, hgoes, -⟩ := run_append hlines true .new (textBytes "eval x\nquit\nset x 3")
  obtain ⟨-, -, -, hstops⟩ := run_append hbytes false .new (textBytes "set x 2\n")
  obtain ⟨t, ht, happend⟩ := hgoes (by decide +kernel)
  have hsession : t.session = (run true .new (textBytes "set x 2\n")).2.session := by
    rw [ht, Transcript.session_askFor]
  have houtput : t.output ++ promptText = "> x = 2.0\n" ++ promptText := by
    refine (congrArg (fun r => r.2.output) ht).symm.trans ?_
    decide +kernel
  refine ⟨hlines, ?_, ?_, hbytes, ?_⟩
  · rw [happend, hsession]
    dsimp only
    decide +kernel
  · rw [happend, Transcript.followedBy, (String.append_left_inj _).1 houtput, hsession]
    dsimp only
    decide +kernel
  · rw [hstops (by decide +kernel)]
    decide +kernel

end Script

end ReversePolish
