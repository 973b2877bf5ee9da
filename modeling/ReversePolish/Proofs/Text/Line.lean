import ReversePolish.Proofs.Text.Bytes
import ReversePolish.Text.Line

/-!
# Lines and their texts

Bytes that do not end inside a line are cut into their lines apart from whatever follows them
(`byteLines_append`).  A text and a line feed are one line, if no line feed stands in the text
(`byteLines_textBytes_append`), and this line is read as the text again, except for a carriage
return at its end (`exists_lineText?_textBytes`).
-/

namespace ReversePolish

/-! ## Complete lines -/

/-- The bytes do not end inside a line. -/
def EndsLine (input : List UInt8) : Prop := input = [] ∨ input.getLast? = some lineFeed

instance (input : List UInt8) : Decidable (EndsLine input) := by
  unfold EndsLine
  infer_instance

/-- **Bytes behind complete lines begin a line of their own.** -/
theorem byteLines_append {a : List UInt8} (h : EndsLine a) (b : List UInt8) :
    byteLines (a ++ b) = byteLines a ++ byteLines b := by
  rcases h with rfl | h
  · rfl
  · obtain ⟨init, rfl⟩ := List.getLast?_eq_some_iff.1 h
    rw [List.append_assoc]
    exact byteLines_append_lineFeed init b

/-- Bytes without a line feed are in front of the first line feed behind them. -/
theorem byteLines_append_singleton {body : List UInt8} (h : lineFeed ∉ body) :
    byteLines (body ++ [lineFeed]) = [body ++ [lineFeed]] := by
  induction body with
  | nil => rfl
  | cons b body ih =>
    obtain ⟨hb, hbody⟩ := not_or.1 (mt List.mem_cons.2 h)
    have hcons : byteLines (b :: (body ++ [lineFeed])) =
      lineStep b (byteLines (body ++ [lineFeed])) := rfl
    rw [List.cons_append, hcons, ih hbody, lineStep, if_neg (Ne.symm hb)]

/-! ## Lines of texts -/

/-- A text and a line feed are a line. -/
theorem byteLines_textBytes_append {text : String} (h : '\n' ∉ text.toList) (rest : List UInt8) :
    byteLines (textBytes text ++ [lineFeed] ++ rest) =
      (textBytes text ++ [lineFeed]) :: byteLines rest := by
  have hends : EndsLine (textBytes text ++ [lineFeed]) :=
    Or.inr List.getLast?_concat
  rw [byteLines_append hends, byteLines_append_singleton (mt lineFeed_mem_textBytes_iff.1 h)]
  rfl

theorem lineBody_append_lineFeed {body : List UInt8} (h : body.getLast? ≠ some carriageReturn) :
    lineBody (body ++ [lineFeed]) = body := by
  rw [lineBody, List.reverse_append, List.reverse_singleton, List.singleton_append]
  simp only [if_true]
  cases hreverse : body.reverse with
  | nil => exact (List.reverse_eq_nil_iff.1 hreverse).symm
  | cons b rest =>
    have hlast : body.getLast? = some b := by
      rw [List.getLast?_eq_head?_reverse, hreverse, List.head?_cons]
    have hb : b ≠ carriageReturn := fun hb => h (hb ▸ hlast)
    simp only [if_neg hb]
    rw [← hreverse, List.reverse_reverse]

theorem lineBody_append_carriageReturn (body : List UInt8) :
    lineBody (body ++ [carriageReturn] ++ [lineFeed]) = body := by
  simp [lineBody]

/-- **A line of a text is read as the text**, or as what stands in front of a carriage return at
its end. -/
theorem exists_lineText?_textBytes (text : String) :
    ∃ read : String, lineText? (textBytes text ++ [lineFeed]) = some read ∧
      (text = read ∨ text = read ++ "\r") := by
  by_cases h : (textBytes text).getLast? = some carriageReturn
  · -- the last byte is the last character
    rcases text.toList.eq_nil_or_concat' with hnil | ⟨cs, c, hconcat⟩
    · rw [textBytes_eq_flatMap, hnil] at h
      cases h
    · rw [← String.ofList_toList (s := text), hconcat] at h ⊢
      rw [textBytes_ofList_append_singleton] at h ⊢
      have hmem : carriageReturn ∈ String.utf8EncodeChar c := by
        rw [List.getLast?_append_of_ne_nil _ String.utf8EncodeChar_ne_nil] at h
        exact List.mem_of_getLast? h
      obtain ⟨hnat, hbytes⟩ := utf8EncodeChar_of_mem (by decide) hmem
      have hchar : c = '\r' := Char.toNat_inj.1 hnat
      refine ⟨String.ofList cs, ?_, Or.inr ?_⟩
      · rw [hbytes, lineText?, lineBody_append_carriageReturn, fromUTF8?_textBytes]
      · rw [hchar, String.ofList_append]
  · refine ⟨text, ?_, Or.inl rfl⟩
    rw [lineText?, lineBody_append_lineFeed h, fromUTF8?_textBytes]

/-! ## Texts of lines -/

/-- A line has no line feed but the one that ends it. -/
theorem exists_body_of_mem_byteLines {input line : List UInt8} (h : line ∈ byteLines input) :
    ∃ body, lineFeed ∉ body ∧ (line = body ∨ line = body ++ [lineFeed]) := by
  induction input generalizing line with
  | nil => cases h
  | cons b input ih =>
    have hcons : byteLines (b :: input) = lineStep b (byteLines input) := rfl
    rw [hcons] at h
    unfold lineStep at h
    split at h
    · rename_i hb
      rcases List.mem_cons.1 h with rfl | h
      · exact ⟨[], List.not_mem_nil, .inr (by rw [hb]; rfl)⟩
      · exact ih h
    · rename_i hb
      cases hlines : byteLines input with
      | nil =>
        rw [hlines] at h
        exact ⟨[b], by simpa using Ne.symm hb, .inl (List.mem_singleton.1 h)⟩
      | cons first rest =>
        rw [hlines] at h
        rcases List.mem_cons.1 h with rfl | h
        · -- the byte is put in front of the first line behind it
          obtain ⟨body, hbody, hfirst⟩ := ih (hlines ▸ List.mem_cons_self)
          refine ⟨b :: body, List.not_mem_cons_of_ne_of_not_mem (Ne.symm hb) hbody, ?_⟩
          rw [List.cons_append, List.cons_inj_right, List.cons_inj_right]
          exact hfirst
        · exact ih (hlines ▸ List.mem_cons_of_mem first h)

theorem lineBody_of_notMem {body : List UInt8} (h : lineFeed ∉ body) : lineBody body = body := by
  rw [lineBody]
  cases hreverse : body.reverse with
  | nil => exact (List.reverse_eq_nil_iff.1 hreverse).symm
  | cons b rest =>
    have hb : b ≠ lineFeed := by
      rintro rfl
      exact h (List.mem_reverse.1 (hreverse ▸ List.mem_cons_self))
    exact if_neg hb

theorem lineFeed_notMem_lineBody {input line : List UInt8} (h : line ∈ byteLines input) :
    lineFeed ∉ lineBody line := by
  obtain ⟨body, hbody, rfl | rfl⟩ := exists_body_of_mem_byteLines h
  · rwa [lineBody_of_notMem hbody]
  · by_cases hlast : body.getLast? = some carriageReturn
    · obtain ⟨init, rfl⟩ := List.getLast?_eq_some_iff.1 hlast
      rw [lineBody_append_carriageReturn]
      exact fun hmem => hbody (List.mem_append_left _ hmem)
    · rwa [lineBody_append_lineFeed hlast]

/-- Bytes that are read as a text are the bytes of the text. -/
theorem textBytes_of_lineText? {line : List UInt8} {text : String}
    (h : lineText? line = some text) : textBytes text = lineBody line := by
  rw [lineText?, String.fromUTF8?] at h
  split at h
  · rw [← Option.some.inj h]
    rfl
  · cases h

/-- **The text of a line has no line feed in it.** -/
theorem lineFeed_notMem_of_lineText? {input line : List UInt8} {text : String}
    (hline : line ∈ byteLines input) (h : lineText? line = some text) : '\n' ∉ text.toList := by
  rw [← lineFeed_mem_textBytes_iff, textBytes_of_lineText? h]
  exact lineFeed_notMem_lineBody hline

end ReversePolish
