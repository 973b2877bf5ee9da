import Mathlib.Data.String.Basic
import ReversePolish.Text.Line

/-!
# Texts as bytes

The bytes of a text are those of its characters, one character after the other.  A character
of ASCII is one byte, and the bytes of any other character are no characters of ASCII
(`utf8EncodeChar_cases`).  So a line feed among the bytes is a line feed in the text
(`lineFeed_mem_textBytes_iff`).

The bytes of characters compare as the characters do, whatever follows them
(`utf8EncodeChar_append_lt`): no character begins with the bytes of another one.  Texts are
therefore in the same order as their bytes (`textBytes_lt_textBytes`).
-/

namespace ReversePolish

/-- The bytes of a text in UTF-8. -/
def textBytes (text : String) : List UInt8 := text.toUTF8.data.toList

theorem textBytes_eq_flatMap (text : String) :
    textBytes text = text.toList.flatMap String.utf8EncodeChar := by
  rw [textBytes, String.toUTF8_eq_toByteArray, ← String.utf8Encode_toList, List.utf8Encode,
    List.toList_data_toByteArray]

theorem textBytes_append (a b : String) : textBytes (a ++ b) = textBytes a ++ textBytes b := by
  rw [textBytes_eq_flatMap, textBytes_eq_flatMap, textBytes_eq_flatMap, String.toList_append,
    List.flatMap_append]

theorem textBytes_ofList_append_singleton (cs : List Char) (c : Char) :
    textBytes (String.ofList (cs ++ [c])) =
      textBytes (String.ofList cs) ++ String.utf8EncodeChar c := by
  rw [textBytes_eq_flatMap, textBytes_eq_flatMap, String.toList_ofList, String.toList_ofList,
    List.flatMap_append, List.flatMap_singleton]

/-- The bytes of a text are read as the text. -/
theorem fromUTF8?_textBytes (text : String) :
    String.fromUTF8? ⟨(textBytes text).toArray⟩ = some text := by
  have hbytes : (⟨(textBytes text).toArray⟩ : ByteArray) = text.toByteArray := by
    rw [textBytes, Array.toArray_toList, String.toUTF8_eq_toByteArray]
  rw [hbytes, String.fromUTF8?, dif_pos text.isValidUTF8]
  rfl

/-! ## The bytes of one character -/

/-- A character is one byte of ASCII, or bytes outside ASCII. -/
theorem utf8EncodeChar_cases (c : Char) :
    (c.toNat < 128 ∧ String.utf8EncodeChar c = [UInt8.ofNat c.toNat]) ∨
      ∀ b ∈ String.utf8EncodeChar c, 128 ≤ b.toNat := by
  simp only [String.utf8EncodeChar, Char.toNat]
  generalize c.val.toNat = n
  split_ifs with h1 h2 h3
  · exact Or.inl ⟨by omega, rfl⟩
  all_goals
    refine Or.inr ?_
    simp only [List.forall_mem_cons, List.not_mem_nil, false_imp_iff, implies_true, and_true,
      UInt8.toNat_ofNat']
    omega

/-- A byte of ASCII among the bytes of a character is the character. -/
theorem utf8EncodeChar_of_mem {c : Char} {b : UInt8} (hb : b.toNat < 128)
    (h : b ∈ String.utf8EncodeChar c) :
    c.toNat = b.toNat ∧ String.utf8EncodeChar c = [b] := by
  rcases utf8EncodeChar_cases c with ⟨hc, hbytes⟩ | hbytes
  · rw [hbytes] at h
    obtain rfl := List.mem_singleton.1 h
    refine ⟨?_, hbytes⟩
    rw [UInt8.toNat_ofNat', Nat.mod_eq_of_lt (by omega)]
  · exact absurd (hbytes b h) (by omega)

/-- A line feed stands among the bytes where one stands in the text. -/
theorem lineFeed_mem_textBytes_iff {text : String} :
    lineFeed ∈ textBytes text ↔ '\n' ∈ text.toList := by
  rw [textBytes_eq_flatMap, List.mem_flatMap]
  constructor
  · rintro ⟨c, hc, hmem⟩
    obtain ⟨hnat, -⟩ := utf8EncodeChar_of_mem (by decide) hmem
    have hchar : c = '\n' := Char.toNat_inj.1 hnat
    exact hchar ▸ hc
  · intro h
    exact ⟨'\n', h, by decide⟩

/-! ## Order -/

/-- **The bytes of characters compare as the characters do, whatever follows.** -/
theorem utf8EncodeChar_append_lt {c d : Char} (h : c < d) (l r : List UInt8) :
    String.utf8EncodeChar c ++ l < String.utf8EncodeChar d ++ r := by
  have hlt : c.val.toNat < d.val.toNat := h
  have hd : d.val.toNat < 0x110000 := by
    have hvalid := d.valid
    simp only [UInt32.isValidChar, Nat.isValidChar] at hvalid
    omega
  simp only [String.utf8EncodeChar]
  generalize c.val.toNat = m at hlt ⊢
  generalize d.val.toNat = n at hlt hd ⊢
  -- one case for each two lengths; the bytes are digits, and the first that differ decide
  split_ifs <;>
    simp (disch := omega) only [List.cons_append, List.nil_append, List.cons_lt_cons_iff,
      ← UInt8.toNat_inj, UInt8.lt_iff_toNat_lt, UInt8.toNat_ofNat', Nat.mod_eq_of_lt] <;>
    omega

theorem flatMap_utf8EncodeChar_lt {cs ds : List Char} (h : cs < ds) :
    cs.flatMap String.utf8EncodeChar < ds.flatMap String.utf8EncodeChar := by
  induction h with
  | @nil d ds =>
    rw [List.flatMap_nil, List.flatMap_cons]
    cases hd : String.utf8EncodeChar d with
    | nil => exact absurd hd String.utf8EncodeChar_ne_nil
    | cons b bs => exact List.nil_lt_cons b _
  | rel h =>
    rw [List.flatMap_cons, List.flatMap_cons]
    exact utf8EncodeChar_append_lt h _ _
  | cons _ ih =>
    rw [List.flatMap_cons, List.flatMap_cons]
    exact List.append_left_lt ih

/-- **Texts are in the order of their bytes.** -/
theorem textBytes_lt_textBytes {a b : String} (h : a < b) : textBytes a < textBytes b := by
  rw [textBytes_eq_flatMap, textBytes_eq_flatMap]
  exact flatMap_utf8EncodeChar_lt (String.lt_iff_toList_lt.1 h)

end ReversePolish
