import ReversePolish.Proofs.Bindings.Edits
import ReversePolish.Proofs.Lexeme
import ReversePolish.Session

/-!
# The listing of a session can be read back

A line `vars` lists what is bound, and the listing says all of it: cut into lines, and each line at
its first space, it gives the names and the values back (`readRows_listing`).  A name may have
equals signs, quotes or digits in it, but no gap, so the first space of a line is the one behind the
name; and the spelling of a number reads as that number, all that is not a number as one.  Neither
has a line feed in it, so the lines are those of the bindings.

It follows that the listing determines the bindings but for their not-a-numbers
(`value?_eq_of_listing_eq`).  Nothing is asked about the lines that led to the session, because what
is asked of a name is part of being one.
-/

namespace ReversePolish

/-! ## Reading a listing -/

/-- What a line of a listing says, cut at its first space: a name, and behind an equals sign and
another space a number. -/
def readRow? (line : String) : Option (String × Double) :=
  match line.toList.dropWhile (· ≠ ' ') with
  | ' ' :: '=' :: ' ' :: word =>
    (Number.literal? (String.ofList word)).map fun v =>
      (String.ofList (line.toList.takeWhile (· ≠ ' ')), v)
  | _ => none

/-- What the lines of a listing say, one after another.  An empty listing has no lines. -/
def readRows (text : String) : List (Option (String × Double)) :=
  if text = "" then [] else (text.split '\n').toList.map fun line => readRow? line.copy

/-- What a binding says. -/
def Binding.row (b : Binding) : String × Double := (b.name.text, b.value.canonical)

namespace Bindings

/-- What is bound can be looked up in the rows. -/
theorem map_canonical_value? (b : Bindings) (name : String) :
    (b.value? name).map Double.canonical =
      ((b.entries.map Binding.row).find? fun row => row.1 == name).map Prod.snd := by
  rw [value?, Catalog.find?, List.find?_map, Option.map_map, Option.map_map]
  rfl

theorem mem_map_row_iff {b : Bindings} {name : String} {v : Double} :
    (name, v) ∈ b.entries.map Binding.row ↔
      (b.value? name).map Double.canonical = some v := by
  simp only [List.mem_map, Option.map_eq_some_iff, value?_eq_some_iff, Binding.row,
    Prod.mk.injEq, Binding.label]
  constructor
  · rintro ⟨x, hx, rfl, rfl⟩
    exact ⟨_, ⟨x, hx, rfl, rfl⟩, rfl⟩
  · rintro ⟨_, ⟨x, hx, rfl, rfl⟩, rfl⟩
    exact ⟨x, hx, rfl, rfl⟩

end Bindings

namespace Session

/-! ## One line -/

/-- The text of a binding. -/
theorem toList_bindingText (name : String) (v : Double) :
    (bindingText name v).toList = name.toList ++ ' ' :: '=' :: ' ' :: Number.chars v := by
  simp [bindingText, Number.text]

/-- **A line is cut behind the name.** -/
theorem readRow?_bindingText (b : Binding) :
    readRow? (bindingText b.name.text b.value) = some b.row := by
  have hname : ∀ c ∈ b.name.text.toList, decide (c ≠ ' ') = true := by
    intro c hc
    have hgap := (Lexeme.readable_variableNamed b.name).noGap c hc
    refine decide_eq_true ?_
    rintro rfl
    exact absurd hgap (by decide)
  rw [readRow?, toList_bindingText, List.dropWhile_append_of_pos hname,
    List.takeWhile_append_of_pos hname, List.dropWhile_cons_of_neg (by decide),
    List.takeWhile_cons_of_neg (by decide), List.append_nil, String.ofList_toList]
  -- Behind the name stands what a line is matched against, so only the number is left to read.
  change (Number.literal? (Number.text b.value)).map (fun v => (b.name.text, v)) = some b.row
  rw [Number.literal?_text]
  rfl

theorem lineFeed_notMem_bindingText (b : Binding) :
    '\n' ∉ (bindingText b.name.text b.value).toList :=
  lineFeed_notMem_append (lineFeed_notMem_append b.name.lineFeed_notMem_text (by decide))
    (Number.lineFeed_notMem_text b.value)

/-! ## All lines -/

section Lines

variable {s s' : Session}

/-- A listing is empty when nothing is bound, because no line of it is. -/
theorem listing_eq_empty_iff : s.listing = "" ↔ s.bindings.entries = [] := by
  rw [listing]
  cases s.bindings.entries with
  | nil => exact ⟨fun _ => rfl, fun _ => rfl⟩
  | cons b bs =>
    refine ⟨fun h => ?_, nofun⟩
    -- There is a space on the first line, whether more lines follow it or not.
    have hmem := congrArg (' ' ∈ ·.toList) h
    cases bs <;> simp [toList_bindingText] at hmem

/-- The lines of a listing are the texts of the bindings. -/
theorem split_listing (h : s.bindings.entries ≠ []) :
    (s.listing.split '\n').toList.map (·.copy) =
      s.bindings.entries.map fun b => bindingText b.name.text b.value := by
  refine (String.toList_split_intercalate ?_).trans (if_neg (mt List.map_eq_nil_iff.1 h))
  intro line hline
  obtain ⟨b, -, rfl⟩ := List.mem_map.1 hline
  exact lineFeed_notMem_bindingText b

/-- **What a listing says is what is bound.** -/
theorem readRows_listing (s : Session) :
    readRows s.listing = (s.bindings.entries.map Binding.row).map some := by
  rw [readRows]
  split
  · rename_i hempty
    rw [listing_eq_empty_iff.1 hempty, List.map_nil, List.map_nil]
  · rename_i hsome
    have hread : readRow? ∘ (fun b : Binding => bindingText b.name.text b.value) =
        some ∘ Binding.row := funext readRow?_bindingText
    rw [List.map_map, ← hread, ← List.map_map,
      ← split_listing (mt listing_eq_empty_iff.2 hsome), List.map_map]
    rfl

/-- **Sessions with the same listing have the same bindings**, but for not-a-numbers. -/
theorem value?_eq_of_listing_eq (h : s.listing = s'.listing) (name : String) :
    (s.bindings.value? name).map Double.canonical =
      (s'.bindings.value? name).map Double.canonical := by
  have hrows : readRows s.listing = readRows s'.listing := congrArg readRows h
  rw [readRows_listing, readRows_listing] at hrows
  have hmap := List.map_injective_iff.2 (Option.some_injective _) hrows
  rw [Bindings.map_canonical_value?, hmap, ← Bindings.map_canonical_value?]

theorem execute_vars [NaNRule] (s : Session) : s.execute "vars" = (.ok s.listing, s) := rfl

/-- **The listing says what is bound, all of it and in order.**  It is empty when nothing is bound.
Otherwise its lines say one after another, in the order of the bytes of the names, which names are
bound and to which values; of a value that is not a number they say only this.  Two sessions with
the same listing have therefore the same names bound, and to the same values but for
not-a-numbers. -/
theorem execute_vars_readRows [NaNRule] (s : Session) :
    ∃ (text : String) (rows : List (String × Double)), s.execute "vars" = (.ok text, s) ∧
      (text = "" ↔ ∀ name, s.bindings.value? name = none) ∧
      readRows text = rows.map some ∧
      (rows.map fun row => textBytes row.1).Pairwise (· < ·) ∧
      (∀ name v, (name, v) ∈ rows ↔ (s.bindings.value? name).map Double.canonical = some v) ∧
      ∀ s' : Session, (s'.execute "vars").1 = .ok text → ∀ name,
        (s'.bindings.value? name).map Double.canonical =
          (s.bindings.value? name).map Double.canonical := by
  refine ⟨s.listing, s.bindings.entries.map Binding.row, s.execute_vars, ?_, s.readRows_listing, ?_,
    fun name v => Bindings.mem_map_row_iff, fun s' h name => ?_⟩
  · rw [listing_eq_empty_iff, ← List.isEmpty_iff]
    exact (Bindings.shows_value? s.bindings).isEmpty
  · have hlabels := s.bindings.pairwise_textBytes_labels
    rw [Catalog.labels, List.map_map] at hlabels
    rw [List.map_map]
    exact hlabels
  · exact value?_eq_of_listing_eq (Except.ok.inj h) name

/-- A variable that is named as an equals sign, and two values that are not a number: one was
computed, and the other was read with a sign. -/
theorem execute_vars_readRows_equals :
    let s := (new.setVariable "=" (Operator.div.apply 0 0)).2
    let s' := (new.execute "set = -nan").2
    (s.execute "vars").1 = .ok "= = NaN" ∧ (s'.execute "vars").1 = (s.execute "vars").1 ∧
      s'.bindings.value? "=" ≠ s.bindings.value? "=" ∧
      (s'.bindings.value? "=").map Double.canonical =
        (s.bindings.value? "=").map Double.canonical := by
  intro s s'
  have hlisting : (s.execute "vars").1 = .ok "= = NaN" := by decide +kernel
  have hsame : (s'.execute "vars").1 = (s.execute "vars").1 := by decide +kernel
  obtain ⟨text, rows, htext, -, -, -, -, hbindings⟩ := execute_vars_readRows s
  exact ⟨hlisting, hsame, by decide +kernel,
    hbindings s' (hsame.trans (congrArg Prod.fst htext)) "="⟩

end Lines

end Session

end ReversePolish
