import Mathlib.Data.Nat.Digits.Defs
import ReversePolish.Text.Quoted

/-!
# What a quoted text shows, and what it hides

A quoted text is one line in which every character shows (`Quoted.shows_of_mem_quote`), and yet
nothing is lost: it can be read back, also when something stands behind it
(`Quoted.quote_append_inj`).

Both follow from what is true of one character.  It is written as itself, by a backslash and a
letter, or by its code point between braces, and the three are told apart by how they begin.  So
the character at the beginning of a text can be read without looking at the rest
(`Quoted.read?_escape`), and it is never a quote, which ends the text.
-/

namespace ReversePolish.Quoted

/-! ## Code points -/

/-- The value of a digit in hexadecimal. -/
def digitValue (c : Char) : ℕ :=
  if c.isDigit then c.toNat - '0'.toNat else c.toNat - 'a'.toNat + 10

/-- The number that digits in hexadecimal are written for. -/
def codePoint (digits : List Char) : ℕ := digits.foldl (fun n c => 16 * n + digitValue c) 0

theorem codePoint_toDigits (n : ℕ) : codePoint (Nat.toDigits 16 n) = n := by
  have hdigit : ∀ d < 16, digitValue d.digitChar = d := by decide
  induction n using Nat.strongRecOn with
  | ind n ih =>
    rw [Nat.toDigits_eq_if (by decide)]
    split
    · rename_i hlt
      simp [codePoint, hdigit n hlt]
    · have hfront : codePoint (Nat.toDigits 16 (n / 16)) = n / 16 := ih (n / 16) (by omega)
      rw [codePoint, List.foldl_append, ← codePoint, hfront, List.foldl_cons, List.foldl_nil,
        hdigit _ (n.mod_lt (by decide))]
      omega

/-- Of a number only digits are written. -/
theorem exists_digitChar_of_mem_toDigits {n : ℕ} {c : Char} (h : c ∈ Nat.toDigits 16 n) :
    ∃ d < 16, c = d.digitChar := by
  induction n using Nat.strongRecOn with
  | ind n ih =>
    rw [Nat.toDigits_eq_if (by decide)] at h
    split at h
    · rename_i hlt
      exact ⟨n, hlt, List.mem_singleton.1 h⟩
    · rcases List.mem_append.1 h with h | h
      · exact ih (n / 16) (by omega) h
      · exact ⟨n % 16, n.mod_lt (by decide), List.mem_singleton.1 h⟩

/-! ## Reading back -/

/-- The character that a letter behind a backslash stands for. -/
def named : Char → Char
  | '0' => '\x00'
  | 't' => '\t'
  | 'n' => '\n'
  | 'r' => '\r'
  | c => c

/-- The character at the beginning of a text, and what stands behind it.  A quote ends the text. -/
def read? : List Char → Option (Char × List Char)
  | [] => none
  | '"' :: _ => none
  | '\\' :: 'u' :: rest =>
    some (Char.ofNat (codePoint (rest.tail.takeWhile (· != '\x7d'))),
      (rest.tail.dropWhile (· != '\x7d')).tail)
  | '\\' :: letter :: rest => some (named letter, rest)
  | c :: rest => some (c, rest)

theorem read?_byCodePoint (c : Char) (rest : List Char) :
    read? (byCodePoint c ++ rest) = some (c, rest) := by
  have hdigits : ∀ d ∈ Nat.toDigits 16 c.toNat, (d != '\x7d') = true := by
    intro d hd
    obtain ⟨n, hn, rfl⟩ := exists_digitChar_of_mem_toDigits hd
    exact (by decide : ∀ n < 16, (n.digitChar != '\x7d') = true) n hn
  simp only [byCodePoint, List.cons_append, List.append_assoc, List.nil_append, read?,
    List.tail_cons]
  rw [List.takeWhile_append_of_pos hdigits, List.dropWhile_append_of_pos hdigits]
  simp [codePoint_toDigits]

/-- **A character can be read back, whatever stands behind it.** -/
theorem read?_escape (c : Char) (rest : List Char) :
    read? (escape c ++ rest) = some (c, rest) := by
  have hself (hquote : c ≠ '"') (hslash : c ≠ '\\') : read? ([c] ++ rest) = some (c, rest) := by
    rw [List.singleton_append]
    unfold read?
    split <;> simp_all
  rw [escape]
  split_ifs with hquote hslash hnull htab hfeed hreturn
  · rw [hquote]
    rfl
  · rw [hslash]
    rfl
  · rw [hnull]
    rfl
  · rw [htab]
    rfl
  · rw [hfeed]
    rfl
  · rw [hreturn]
    rfl
  · exact read?_byCodePoint c rest
  · exact hself hquote hslash
  · exact read?_byCodePoint c rest
  · exact hself hquote hslash

theorem flatMap_escape_append_inj {s t r r' : List Char}
    (h : s.flatMap escape ++ '"' :: r = t.flatMap escape ++ '"' :: r') : s = t ∧ r = r' := by
  -- The character in front is read from both sides; from a quote nothing is.
  induction s generalizing t with
  | nil =>
    cases t with
    | nil => exact ⟨rfl, (List.cons.inj h).2⟩
    | cons d t =>
      have hread := congrArg read? h
      rw [List.flatMap_cons, List.append_assoc, read?_escape] at hread
      cases hread
  | cons c s ih =>
    cases t with
    | nil =>
      have hread := congrArg read? h
      rw [List.flatMap_cons, List.append_assoc, read?_escape] at hread
      cases hread
    | cons d t =>
      have hread := congrArg read? h
      rw [List.flatMap_cons, List.flatMap_cons, List.append_assoc, List.append_assoc,
        read?_escape, read?_escape] at hread
      obtain ⟨rfl, hrest⟩ := Prod.mk.inj (Option.some.inj hread)
      obtain ⟨rfl, hr⟩ := ih hrest
      exact ⟨rfl, hr⟩

/-- **A quoted text tells which text it is and where it ends.** -/
theorem quote_append_inj {s t : String} {r r' : List Char}
    (h : (quote s).toList ++ r = (quote t).toList ++ r') : s = t ∧ r = r' := by
  simp only [quote, String.toList_ofList, List.cons_append, List.append_assoc,
    List.nil_append] at h
  obtain ⟨htext, hrest⟩ := flatMap_escape_append_inj (List.cons.inj h).2
  exact ⟨String.toList_inj.1 htext, hrest⟩

theorem quote_injective : Function.Injective quote := by
  intro s t h
  have hchars : (quote s).toList ++ [] = (quote t).toList ++ [] := by rw [h]
  exact (quote_append_inj hchars).1

/-! ## Characters that show -/

/-- Whether a character shows by itself: a space, or what leaves a mark on the line. -/
def shows (c : Char) : Bool := 0x20 ≤ c.toNat && !isHidden c

/-- Whether a character is one of those that every keyboard has. -/
def isPlain (c : Char) : Bool := 0x20 ≤ c.toNat && c.toNat < 0x7f

/-- What is plain shows, because the table of hidden characters begins behind it. -/
theorem shows_of_isPlain {c : Char} (h : isPlain c = true) : shows c = true := by
  have hfirst : ∀ range ∈ hiddenRanges, 0x7f ≤ range.1 := by decide +kernel
  simp only [isPlain, Bool.and_eq_true, decide_eq_true_eq] at h
  have hshown : isHidden c = false := by
    refine List.any_eq_false.2 fun range hrange => ?_
    have hlow := hfirst range hrange
    simp only [Bool.and_eq_true, decide_eq_true_eq, not_and]
    omega
  rw [shows, hshown, decide_eq_true h.1]
  rfl

theorem isPlain_of_mem_byCodePoint (c : Char) : ∀ d ∈ byCodePoint c, isPlain d = true := by
  have hdigits : ∀ d ∈ Nat.toDigits 16 c.toNat, isPlain d = true := by
    intro d hd
    obtain ⟨n, hn, rfl⟩ := exists_digitChar_of_mem_toDigits hd
    exact (by decide : ∀ n < 16, isPlain n.digitChar = true) n hn
  have hopen : ∀ d ∈ ['\\', 'u', '\x7b'], isPlain d = true := List.all_eq_true.1 rfl
  have hclose : ∀ d ∈ ['\x7d'], isPlain d = true := List.all_eq_true.1 rfl
  exact List.forall_mem_append.2 ⟨hopen, List.forall_mem_append.2 ⟨hdigits, hclose⟩⟩

theorem shows_of_mem_escape (c : Char) : ∀ d ∈ escape c, shows d = true := by
  have hpoint : ∀ d ∈ byCodePoint c, shows d = true := fun d hd =>
    shows_of_isPlain (isPlain_of_mem_byCodePoint c d hd)
  have hnamed (letter : Char) (h : isPlain letter = true) :
      ∀ d ∈ ['\\', letter], shows d = true := by
    refine List.forall_mem_cons.2 ⟨shows_of_isPlain (by decide), ?_⟩
    exact List.forall_mem_singleton.2 (shows_of_isPlain h)
  rw [escape]
  split_ifs with _ _ _ _ _ _ hcontrol hascii hhidden
  · exact hnamed '"' (by decide)
  · exact hnamed '\\' (by decide)
  · exact hnamed '0' (by decide)
  · exact hnamed 't' (by decide)
  · exact hnamed 'n' (by decide)
  · exact hnamed 'r' (by decide)
  · exact hpoint
  · refine List.forall_mem_singleton.2 (shows_of_isPlain ?_)
    rw [isPlain, decide_eq_true (Nat.not_lt.1 hcontrol), decide_eq_true hascii]
    rfl
  · exact hpoint
  · refine List.forall_mem_singleton.2 ?_
    rw [shows, decide_eq_true (Nat.not_lt.1 hcontrol), eq_false_of_ne_true hhidden]
    rfl

theorem shows_of_all {s : String} (h : s.toList.all isPlain = true) :
    ∀ c ∈ s.toList, shows c = true := fun c hc => shows_of_isPlain (List.all_eq_true.1 h c hc)

/-- **Every character of a quoted text shows**, whatever the text is. -/
theorem shows_of_mem_quote (s : String) : ∀ c ∈ (quote s).toList, shows c = true := by
  have hquote : shows '"' = true := shows_of_isPlain (by decide)
  rw [quote, String.toList_ofList]
  refine List.forall_mem_cons.2 ⟨hquote, List.forall_mem_append.2
    ⟨fun c hc => ?_, List.forall_mem_singleton.2 hquote⟩⟩
  obtain ⟨d, -, hd⟩ := List.mem_flatMap.1 hc
  exact shows_of_mem_escape d c hd

end ReversePolish.Quoted
