import ReversePolish.Proofs.Text.Words

/-!
# The words of a text are its maximal runs

What `words` computes is said here in two ways that do not mention how it is computed.

The first looks at places of the text.  A maximal run is a stretch that is not empty, has no
separator in it, and has a separator or the end of the text on either side (`Run`).  The words
are these runs, all of them and in their order (`exists_runs`).

The second puts the text together.  Words are written one after another, with separators between
them, and with any separators or none in front and behind (`Spaced`).  This is what a text looks
like exactly when these are its words (`words_eq_iff_spaced`).  Nothing is said of the
separators, so they can be exchanged and repeated without a change to the words.

The second is proved first, along the text.  The first follows by induction on how the text was
put together: a run of a text is its first word, or it lies behind the first word and is a run of
what is left.
-/

namespace ReversePolish

variable {sep : Char → Bool}

/-! ## Spaced words -/

/-- A text of words with separators between them, and with some or none at the two ends. -/
inductive Spaced (sep : Char → Bool) : List (List Char) → List Char → Prop
  | nil {gap : List Char} (hgap : ∀ c ∈ gap, sep c = true) : Spaced sep [] gap
  | cons {gap word rest : List Char} {ws : List (List Char)} (hgap : ∀ c ∈ gap, sep c = true)
      (hne : word ≠ []) (hword : ∀ c ∈ word, sep c = false)
      (hrest : ∀ c ∈ rest.head?, sep c = true) (h : Spaced sep ws rest) :
      Spaced sep (word :: ws) (gap ++ word ++ rest)

/-- Separators in front change nothing. -/
theorem words_append_of_forall_sep {gap : List Char} (h : ∀ c ∈ gap, sep c = true)
    (text : List Char) : words sep (gap ++ text) = words sep text := by
  induction gap with
  | nil => rfl
  | cons c gap ih =>
    obtain ⟨hc, hgap⟩ := List.forall_mem_cons.1 h
    rw [List.cons_append, words_cons_of_sep hc, ih hgap]

/-- A word in front of a separator is the first word. -/
theorem words_append_of_forall_not_sep {word rest : List Char} (hne : word ≠ [])
    (hword : ∀ c ∈ word, sep c = false) (hrest : ∀ c ∈ rest.head?, sep c = true) :
    words sep (word ++ rest) = word :: words sep rest := by
  have hsingle : words sep word = [word] := words_eq_singleton_iff.2 ⟨hne, hword⟩
  cases rest with
  | nil => rw [List.append_nil, hsingle, words_nil]
  | cons c rest =>
    have hc : sep c = true := hrest c rfl
    rw [words_append_cons_of_sep hc, hsingle, words_cons_of_sep hc, List.singleton_append]

theorem Spaced.words_eq {ws : List (List Char)} {text : List Char} (h : Spaced sep ws text) :
    words sep text = ws := by
  induction h with
  | @nil gap hgap => rw [← List.append_nil gap, words_append_of_forall_sep hgap, words_nil]
  | cons hgap hne hword hrest _ ih =>
    rw [List.append_assoc, words_append_of_forall_sep hgap,
      words_append_of_forall_not_sep hne hword hrest, ih]

theorem Spaced.cons_of_sep {ws : List (List Char)} {text : List Char} {c : Char}
    (hc : sep c = true) (h : Spaced sep ws text) : Spaced sep ws (c :: text) := by
  cases h with
  | nil hgap => exact .nil (List.forall_mem_cons.2 ⟨hc, hgap⟩)
  | cons hgap hne hword hrest h =>
    exact .cons (List.forall_mem_cons.2 ⟨hc, hgap⟩) hne hword hrest h

/-- Every text is spaced. -/
theorem spaced_words (sep : Char → Bool) : ∀ text : List Char, Spaced sep (words sep text) text
  | [] => .nil nofun
  | c :: text => by
    by_cases hc : sep c = true
    · rw [words_cons_of_sep hc]
      exact (spaced_words sep text).cons_of_sep hc
    · rw [Bool.not_eq_true] at hc
      have hkeep : (!sep c) = true := by rw [hc]; rfl
      have hword : ∀ d ∈ (c :: text).takeWhile (!sep ·), sep d = false := by
        intro d hd
        simpa using List.mem_takeWhile_imp hd
      have hrest : ∀ d ∈ ((c :: text).dropWhile (!sep ·)).head?, sep d = true := by
        intro d hd
        have hhead := List.head?_dropWhile_not (!sep ·) (c :: text)
        rw [Option.mem_def.1 hd] at hhead
        simpa using hhead
      have hne : (c :: text).takeWhile (!sep ·) ≠ [] := by
        rw [List.takeWhile_cons_of_pos (p := (!sep ·)) hkeep]
        exact List.cons_ne_nil _ _
      have hgap : ∀ d ∈ ([] : List Char), sep d = true := nofun
      have hspaced := Spaced.cons hgap hne hword hrest
        (spaced_words sep ((c :: text).dropWhile (!sep ·)))
      rwa [List.nil_append, List.takeWhile_append_dropWhile,
        ← words_cons_of_not_sep hc] at hspaced
termination_by text => text.length
decreasing_by
  · simp
  · rw [List.dropWhile_cons_of_pos (p := (!sep ·)) hkeep, List.length_cons]
    exact Nat.lt_succ_of_le (List.length_dropWhile_le _ _)

/-- **A text has the words that it is spaced from, and no others.** -/
theorem words_eq_iff_spaced {ws : List (List Char)} {text : List Char} :
    words sep text = ws ↔ Spaced sep ws text := by
  constructor
  · rintro rfl
    exact spaced_words sep text
  · exact Spaced.words_eq

/-- A maximal run of characters that are no separators, with what stands in front of it and
behind it in a text. -/
@[ext]
structure Run (sep : Char → Bool) (text : List Char) where
  before : List Char
  word : List Char
  after : List Char
  split : before ++ (word ++ after) = text
  ne_nil : word ≠ []
  noSep : ∀ c ∈ word, sep c = false
  /-- In front of it stands a separator, or nothing. -/
  opens : ∀ c ∈ before.getLast?, sep c = true
  /-- Behind it stands a separator, or nothing. -/
  closes : ∀ c ∈ after.head?, sep c = true

namespace Run

variable {text : List Char}

/-- There is no run among separators only. -/
theorem exists_mem (r : Run sep text) : ∃ c ∈ text, sep c = false := by
  obtain ⟨c, word, hc⟩ := List.exists_cons_of_ne_nil r.ne_nil
  have hmem : c ∈ r.word := hc ▸ List.mem_cons_self
  refine ⟨c, ?_, r.noSep c hmem⟩
  rw [← r.split]
  exact List.mem_append_right _ (List.mem_append_left _ hmem)

/-- A text that begins with a separator does not begin with a run. -/
theorem before_ne_nil (h : ∀ c ∈ text.head?, sep c = true) (r : Run sep text) : r.before ≠ [] := by
  intro hnil
  obtain ⟨c, word, hc⟩ := List.exists_cons_of_ne_nil r.ne_nil
  have hhead : text.head? = some c := by rw [← r.split, hnil, hc]; rfl
  have hno : sep c = false := r.noSep c (hc ▸ List.mem_cons_self)
  rw [h c hhead] at hno
  cases hno

/-- A run stays one when something is put in front of a text that begins with a separator. -/
def shift (front : List Char) (h : ∀ c ∈ text.head?, sep c = true) (r : Run sep text) :
    Run sep (front ++ text) where
  before := front ++ r.before
  word := r.word
  after := r.after
  split := by rw [List.append_assoc, r.split]
  ne_nil := r.ne_nil
  noSep := r.noSep
  opens := by
    rw [List.getLast?_append_of_ne_nil _ (r.before_ne_nil h)]
    exact r.opens
  closes := r.closes

variable {gap word rest : List Char}

/-- The run at the beginning of a text, behind some separators. -/
def first (hgap : ∀ c ∈ gap, sep c = true) (hne : word ≠ []) (hword : ∀ c ∈ word, sep c = false)
    (hrest : ∀ c ∈ rest.head?, sep c = true) : Run sep (gap ++ word ++ rest) where
  before := gap
  word := word
  after := rest
  split := (List.append_assoc gap word rest).symm
  ne_nil := hne
  noSep := hword
  opens c hc := hgap c (List.mem_of_getLast? hc)
  closes := hrest

/-- A word does not begin among separators. -/
theorem exists_before_eq_append {before word after : List Char} (hgap : ∀ c ∈ gap, sep c = true)
    (hne : word ≠ []) (hword : ∀ c ∈ word, sep c = false)
    (h : before ++ (word ++ after) = gap ++ text) :
    ∃ d, before = gap ++ d ∧ d ++ (word ++ after) = text := by
  rcases List.append_eq_append_iff.1 h with ⟨d, hd, hrun⟩ | ⟨d, hd, htext⟩
  · cases d with
    | nil => exact ⟨[], by rw [hd, List.append_nil, List.append_nil], hrun⟩
    | cons c d =>
      obtain ⟨c', word', rfl⟩ := List.exists_cons_of_ne_nil hne
      obtain rfl : c' = c := (List.cons.inj hrun).1
      have hyes := hgap c' (by simp [hd])
      rw [hword c' List.mem_cons_self] at hyes
      cases hyes
  · exact ⟨d, hd, htext.symm⟩

/-- **A run is the first one, or a run of what follows the first one.** -/
theorem eq_first_or_exists_eq_shift (hgap : ∀ c ∈ gap, sep c = true) (hne : word ≠ [])
    (hword : ∀ c ∈ word, sep c = false) (hrest : ∀ c ∈ rest.head?, sep c = true)
    (r : Run sep (gap ++ word ++ rest)) :
    r = first hgap hne hword hrest ∨ ∃ s : Run sep rest, r = s.shift (gap ++ word) hrest := by
  have hsplit := r.split
  obtain ⟨d, hbefore, hd⟩ : ∃ d, r.before = gap ++ d ∧ d ++ (r.word ++ r.after) = word ++ rest :=
    exists_before_eq_append hgap r.ne_nil r.noSep (by rw [hsplit, List.append_assoc])
  rcases List.append_eq_append_iff.1 hd with ⟨e, hword', hrest'⟩ | ⟨e, hd', hrest'⟩
  · -- it begins inside the first word, so at its beginning
    have hnil : d = [] := by
      by_contra hd
      obtain ⟨init, c, rfl⟩ := List.eq_nil_or_concat d |>.resolve_left hd
      have hyes := r.opens c (by simp [hbefore])
      have hno := hword c (by simp [hword'])
      rw [hyes] at hno
      cases hno
    subst hnil
    obtain ⟨hw, ha⟩ := append_inj_of_sep r.noSep hword r.closes hrest hd
    refine .inl (Run.ext ?_ hw ha)
    rw [hbefore, List.append_nil]
    rfl
  · -- it begins behind the first word
    have hopens : ∀ c ∈ e.getLast?, sep c = true := by
      intro c hc
      refine r.opens c ?_
      rw [hbefore, hd', ← List.append_assoc, List.getLast?_append, Option.mem_def.1 hc]
      rfl
    refine .inr ⟨⟨e, r.word, r.after, hrest'.symm, r.ne_nil, r.noSep, hopens, r.closes⟩, ?_⟩
    refine Run.ext ?_ rfl rfl
    rw [hbefore, hd', ← List.append_assoc]
    rfl

end Run

theorem Spaced.exists_runs {ws : List (List Char)} {text : List Char} (h : Spaced sep ws text) :
    ∃ runs : List (Run sep text), runs.Pairwise (fun r s => r.before.length < s.before.length) ∧
      (∀ r, r ∈ runs) ∧ runs.map Run.word = ws := by
  induction h with
  | nil hgap =>
    refine ⟨[], .nil, fun r => ?_, rfl⟩
    obtain ⟨c, hc, hno⟩ := r.exists_mem
    rw [hgap c hc] at hno
    cases hno
  | @cons gap word rest ws hgap hne hword hrest _ ih =>
    obtain ⟨runs, hsorted, hall, hwords⟩ := ih
    refine ⟨Run.first hgap hne hword hrest :: runs.map (Run.shift (gap ++ word) hrest), ?_,
      fun r => ?_, ?_⟩
    · refine List.pairwise_cons.2 ⟨fun r hr => ?_, List.pairwise_map.2 (hsorted.imp fun hlt => ?_)⟩
      · obtain ⟨s, -, rfl⟩ := List.mem_map.1 hr
        have hpos := List.length_pos_of_ne_nil hne
        simp only [Run.first, Run.shift, List.length_append]
        omega
      · simpa only [Run.shift, List.length_append, Nat.add_lt_add_iff_left] using hlt
    · rcases r.eq_first_or_exists_eq_shift hgap hne hword hrest with rfl | ⟨s, rfl⟩
      · exact List.mem_cons_self
      · exact List.mem_cons_of_mem _ (List.mem_map_of_mem (hall s))
    · rw [List.map_cons, List.map_map, ← hwords]
      rfl

/-- **The words of a text are its maximal runs**, all of them and in their order. -/
theorem exists_runs (sep : Char → Bool) (text : List Char) :
    ∃ runs : List (Run sep text), runs.Pairwise (fun r s => r.before.length < s.before.length) ∧
      (∀ r, r ∈ runs) ∧ runs.map Run.word = words sep text :=
  (spaced_words sep text).exists_runs

/-- A word is one piece of its text. -/
theorem infix_of_mem_words {text word : List Char} (h : word ∈ words sep text) :
    word <:+: text := by
  obtain ⟨runs, -, -, hwords⟩ := exists_runs sep text
  rw [← hwords] at h
  obtain ⟨r, -, rfl⟩ := List.mem_map.1 h
  exact ⟨r.before, r.after, by rw [List.append_assoc, r.split]⟩

end ReversePolish
