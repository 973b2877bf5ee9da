import ReversePolish.Proofs.Text.Runs
import ReversePolish.Token

/-!
# A source is scanned word by word

The tokens of a source are made of its maximal runs between gaps, one token of each, and what a
token means is decided by its text alone.  So a source may be cut at any gap and the two parts
scanned by themselves, and it makes no difference how many gaps stand at a place and which
(`scan_runs_and_append`).

That the words are the maximal runs is a fact about texts and their words, whatever separates
them, and is taken from there (`exists_runs`).
-/

namespace ReversePolish.Token

/-- Every token is that of its text. -/
theorem eq_ofWord_text_of_mem_scan {source : String} {t : Token} (h : t ∈ scan source) :
    t = ofWord t.text := by
  obtain ⟨word, -, rfl⟩ := List.mem_map.1 h
  rfl

theorem map_text_scan (source : String) :
    (scan source).map text = (words isGap source.toList).map String.ofList := by
  rw [scan, List.map_map]
  rfl

/-- The texts of the tokens are the maximal runs between gaps, all of them and in their order. -/
theorem exists_runs_map_text_scan (source : String) :
    ∃ runs : List (Run isGap source.toList),
      runs.Pairwise (fun r s => r.before.length < s.before.length) ∧ (∀ r, r ∈ runs) ∧
        (scan source).map text = runs.map fun r => String.ofList r.word := by
  obtain ⟨runs, hsorted, hall, hwords⟩ := exists_runs isGap source.toList
  refine ⟨runs, hsorted, hall, ?_⟩
  rw [map_text_scan, ← hwords, List.map_map]
  rfl

/-- A source is scanned in two parts where there is a gap. -/
theorem scan_append_of_isGap {c : Char} (hc : isGap c = true) (a b : String) :
    scan (a ++ String.singleton c ++ b) = scan a ++ scan b := by
  rw [scan, String.toList_append, String.toList_append, String.toList_singleton,
    List.append_assoc, List.singleton_append, words_append_cons_of_sep hc, List.map_append,
    scan, scan]

/-- Of sources that are spaced from the same words the tokens are the same. -/
theorem scan_eq_of_spaced {ws : List (List Char)} {a b : String}
    (ha : Spaced isGap ws a.toList) (hb : Spaced isGap ws b.toList) : scan a = scan b := by
  rw [scan, scan, ha.words_eq, hb.words_eq]

/-- **Scanning is cutting at gaps.**  The texts of the tokens are the maximal runs of characters
that are no gaps, and every token is that of its text.  Two sources with a gap between them are
scanned one after the other.  Sources that differ only in the gaps between, in front of and
behind their words have the same tokens. -/
theorem scan_runs_and_append :
    (∀ source : String,
      (∃ runs : List (Run isGap source.toList),
        runs.Pairwise (fun r s => r.before.length < s.before.length) ∧ (∀ r, r ∈ runs) ∧
          (scan source).map text = runs.map fun r => String.ofList r.word) ∧
      ∀ t ∈ scan source, t = ofWord t.text) ∧
    (∀ (a b : String) (c : Char), isGap c = true →
      scan (a ++ String.singleton c ++ b) = scan a ++ scan b) ∧
    ∀ (a b : String) (ws : List (List Char)), Spaced isGap ws a.toList →
      Spaced isGap ws b.toList → scan a = scan b := by
  refine ⟨fun source => ⟨exists_runs_map_text_scan source, fun t ht => ?_⟩,
    fun a b c hc => scan_append_of_isGap hc a b, fun a b ws ha hb => scan_eq_of_spaced ha hb⟩
  exact eq_ofWord_text_of_mem_scan ht

/-- A line feed cuts as a space does, and a no-break space does not cut. -/
theorem scan_quotient :
    scan "x\ny /" = scan "x" ++ scan "y /" ∧ scan "\x0b x\t\r\ny  / " = scan "x y /" ∧
      scan "x\u00a0y" = [⟨.variableNamed "x\u00a0y", "x\u00a0y"⟩] := by
  obtain ⟨-, happend, hspaced⟩ := scan_runs_and_append
  refine ⟨happend "x" "y /" '\n' rfl, hspaced _ _ [['x'], ['y'], ['/']] ?_ ?_, rfl⟩
  · exact words_eq_iff_spaced.1 rfl
  · exact words_eq_iff_spaced.1 rfl

end ReversePolish.Token
