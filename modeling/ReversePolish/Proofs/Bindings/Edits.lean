import Mathlib.Data.List.Forall2
import ReversePolish.Proofs.Bindings
import ReversePolish.Proofs.Catalog

/-!
# Bindings are a finite map, whatever was done to them

Bindings are kept in order, and everything that can be asked of them is answered from the
values that the names have: one name at a time when it is looked up, all names together when
they are counted or listed (`Bindings.Shows`).  This holds of any bindings
(`Bindings.shows_value?`), and so does the rule for comparing them: they are the same exactly
when the same names have values that compare equal as numbers (`Bindings.same_iff`).

What remains is which values the names have after a history of edits.  An edit says of each
name that it has a value, that it has none, or nothing at all; a name that cannot be bound is
said nothing about.  The history is searched backwards for the last edit that says something
(`lastValue`).  One edit does to the value of a name what it says of the name
(`value?_apply`), and by induction on the history from its end the value of a name is the one
that was bound last and not taken away since (`value?_edited`).
-/

namespace ReversePolish

namespace Bindings

variable {b c : Bindings}

/-! ## Any bindings -/

theorem isSome_value? (b : Bindings) (name : String) : (b.value? name).isSome = b.contains name :=
  Option.isSome_map

theorem value?_eq_none_iff {name : String} : b.value? name = none ↔ ¬ b.contains name := by
  rw [value?, Option.map_eq_none_iff, Catalog.find?_eq_none_iff]

/-- A binding says which value its name has. -/
theorem value?_of_mem {x : Binding} (hx : x ∈ b.entries) : b.value? x.label = some x.value := by
  rw [value?, Catalog.find?_eq_some_iff.2 ⟨hx, rfl⟩, Option.map_some]

theorem value?_eq_some_iff {name : String} {v : Double} :
    b.value? name = some v ↔ ∃ x ∈ b.entries, x.label = name ∧ x.value = v := by
  simp only [value?, Option.map_eq_some_iff, Catalog.find?_eq_some_iff, and_assoc]

/-- Only what can name a variable is bound. -/
theorem isOk_ofString_of_isSome {name : String} (h : (b.value? name).isSome) :
    (VariableName.ofString name).isOk := by
  obtain ⟨v, hv⟩ := Option.isSome_iff_exists.1 h
  obtain ⟨n, rfl⟩ := exists_name_of_value? hv
  rw [VariableName.ofString_text]
  rfl

theorem set_of_error {name : String} {value : Double} {e : NameError}
    (h : VariableName.ofString name = .error e) : b.set name value = (.error e, b) := by
  rw [set, h]

theorem fst_set (b : Bindings) (name : String) (value : Double) :
    (b.set name value).1 = (VariableName.ofString name).map fun _ => b.value? name := by
  rw [set]
  cases VariableName.ofString name with
  | error e => rfl
  | ok n => rfl

/-- Everything that bindings answer is what a map from names to values says: looking a name
up, testing, counting and listing the names, and the old value that binding a name or taking
its value away reports.  The names are listed by their bytes, and only what can name a
variable is bound. -/
structure Shows (b : Bindings) (m : String → Option Double) : Prop where
  get : ∀ name, b.get name = (m name).elim (.error ⟨name⟩) .ok
  contains : ∀ name, b.contains name = (m name).isSome
  size : b.size = {name | (m name).isSome}.ncard
  isEmpty : b.isEmpty ↔ ∀ name, m name = none
  mem_labels : ∀ name, name ∈ b.labels ↔ (m name).isSome
  ascending : (b.labels.map textBytes).Pairwise (· < ·)
  nodup : b.labels.Nodup
  accepted : ∀ name, (m name).isSome → (VariableName.ofString name).isOk
  set_answer : ∀ name value,
    (b.set name value).1 = (VariableName.ofString name).map fun _ => m name
  set_refused : ∀ name value e, VariableName.ofString name = .error e →
    b.set name value = (.error e, b)
  unset_answer : ∀ name, (b.unset name).1 = m name

/-- **Any bindings answer as the values of the names say.** -/
theorem shows_value? (b : Bindings) : b.Shows b.value? where
  get name := by
    rw [Bindings.get]
    cases b.value? name with
    | none => rfl
    | some v => rfl
  contains name := (b.isSome_value? name).symm
  size := by simp only [isSome_value?, Catalog.size_eq_ncard]
  isEmpty := by simp only [Catalog.isEmpty_iff, value?_eq_none_iff]
  mem_labels name := by rw [Catalog.mem_labels_iff, isSome_value?]
  ascending := b.pairwise_textBytes_labels
  nodup := b.nodup_labels
  accepted _ := isOk_ofString_of_isSome
  set_answer := b.fst_set
  set_refused _ _ _ := set_of_error
  unset_answer _ := rfl

/-! ## Comparing bindings -/

/-- The same names are listed when the bindings have the same labels place by place. -/
theorem labels_eq_labels_iff_forall₂ :
    b.labels = c.labels ↔ List.Forall₂ (fun x y => x.label = y.label) b.entries c.entries := by
  rw [Catalog.labels, Catalog.labels, ← List.forall₂_map_right_iff, ← List.forall₂_map_left_iff,
    List.forall₂_eq_eq_eq]

theorem same_iff_forall₂ :
    b.same c ↔ List.Forall₂ (fun x y => x.label = y.label ∧ x.value.equals y.value)
      b.entries c.entries := by
  rw [same, Bool.and_eq_true, beq_iff_eq, labels_eq_labels_iff_forall₂, List.all_eq_true,
    List.forall₂_iff_zip, List.forall₂_iff_zip, and_assoc]
  refine and_congr_right fun _ => ⟨fun h x y hxy => ⟨h.1 hxy, h.2 (x, y) hxy⟩, fun h => ?_⟩
  exact ⟨fun hxy => (h hxy).1, fun p hp => (h hp).2⟩

/-- What bindings that agree place by place say about one name. -/
theorem rel_find?_of_forall₂ {l l' : List Binding}
    (h : List.Forall₂ (fun x y => x.label = y.label ∧ x.value.equals y.value) l l')
    (name : String) :
    Option.Rel (fun x y => x.equals y) ((l.find? fun x => x.label == name).map Binding.value)
      ((l'.find? fun x => x.label == name).map Binding.value) := by
  induction h with
  | nil => exact .none
  | @cons x y l l' hxy _ ih =>
    rw [List.find?_cons, List.find?_cons, hxy.1]
    cases y.label == name with
    | true => exact .some hxy.2
    | false => exact ih

/-- **Bindings are the same when the same names have values that compare equal.** -/
theorem same_iff :
    b.same c ↔ ∀ name, Option.Rel (fun x y => x.equals y) (b.value? name) (c.value? name) := by
  constructor
  · intro h
    exact rel_find?_of_forall₂ (same_iff_forall₂.1 h)
  · intro h
    have hcontains : ∀ name, b.contains name ↔ c.contains name := fun name => by
      rw [← isSome_value?, ← isSome_value?]
      match b.value? name, c.value? name, h name with
      | _, _, .some _ => exact Iff.rfl
      | _, _, .none => exact Iff.rfl
    have hlabels := labels_eq_labels_iff_forall₂.1 (Catalog.labels_eq_labels_iff.2 hcontains)
    obtain ⟨hlength, hlabel⟩ := List.forall₂_iff_zip.1 hlabels
    refine same_iff_forall₂.2 (List.forall₂_iff_zip.2 ⟨hlength, fun {x y} hxy => ?_⟩)
    obtain ⟨hx, hy⟩ := List.of_mem_zip hxy
    have hrel := h x.label
    rw [value?_of_mem hx, hlabel hxy, value?_of_mem hy, Option.rel_some_some] at hrel
    exact ⟨hlabel hxy, hrel⟩

end Bindings

/-! ## Edits, and what they say about a name -/

/-- What can be done to bindings.  `extend` binds a name that is known to be one, and `restart`
goes on with the bindings of a single variable. -/
inductive Edit where
  | set (name : String) (value : Double)
  | unset (name : String)
  | clear
  | extend (name : VariableName) (value : Double)
  | restart (name : VariableName) (value : Double)

namespace Edit

/-- The bindings after an edit. -/
def apply (b : Bindings) : Edit → Bindings
  | set name value => (b.set name value).2
  | unset name => (b.unset name).2
  | clear => Catalog.empty
  | extend name value => b.bind name value
  | restart name value => Bindings.single name value

/-- What an edit says about a name: nothing, or that it has no value, or which it has. -/
def effect (name : String) : Edit → Option (Option Double)
  | set other value =>
    if other = name ∧ (VariableName.ofString name).isOk then some (some value) else none
  | unset other => if other = name then some none else none
  | clear => some none
  | extend other value => if other.text = name then some (some value) else none
  | restart other value => some (if other.text = name then some value else none)

end Edit

/-- A name has this value by the last edit that says something about it. -/
def LastBound (history : List Edit) (name : String) (v : Double) : Prop :=
  ∃ earlier e later, history = earlier ++ e :: later ∧ e.effect name = some (some v) ∧
    ∀ e' ∈ later, e'.effect name = none

/-- The value that the last edit to say something about a name gives to it. -/
def lastValue (history : List Edit) (name : String) : Option Double :=
  (history.reverse.findSome? (Edit.effect name)).getD none

theorem lastValue_eq_some_iff {history : List Edit} {name : String} {v : Double} :
    lastValue history name = some v ↔ LastBound history name v := by
  have hfind : lastValue history name = some v ↔
      history.reverse.findSome? (Edit.effect name) = some (some v) := by
    rw [lastValue]
    cases history.reverse.findSome? (Edit.effect name) with
    | none => simp
    | some said => simp
  rw [hfind, List.findSome?_eq_some_iff, LastBound]
  constructor
  · rintro ⟨later, e, earlier, hsplit, he, hlater⟩
    refine ⟨earlier.reverse, e, later.reverse, ?_, he, fun e' he' => ?_⟩
    · rw [← List.reverse_reverse history, hsplit]
      simp
    · exact hlater e' (List.mem_reverse.1 he')
  · rintro ⟨earlier, e, later, rfl, he, hlater⟩
    refine ⟨later.reverse, e, earlier.reverse, by simp, he, fun e' he' => ?_⟩
    exact hlater e' (List.mem_reverse.1 he')

namespace Bindings

/-- The bindings after a history of edits, the earliest first. -/
def edited (b : Bindings) (history : List Edit) : Bindings := history.foldl Edit.apply b

theorem edited_append (b : Bindings) (earlier later : List Edit) :
    b.edited (earlier ++ later) = (b.edited earlier).edited later :=
  List.foldl_append

/-! ## Values after edits -/

/-- What a single binding says about a name. -/
theorem value?_single (name : VariableName) (value : Double) (other : String) :
    (single name value).value? other = if name.text = other then some value else none := by
  split
  · rename_i h
    rw [single, ← h, value?_bind_self]
  · rename_i h
    rw [single, value?_bind_of_ne _ _ h, value?_empty]

/-- **One edit does to the value of a name what it says about the name.** -/
theorem value?_apply (b : Bindings) (e : Edit) (name : String) :
    (e.apply b).value? name = (e.effect name).getD (b.value? name) := by
  cases e with
  | set other value =>
    rw [Edit.apply, Edit.effect, set]
    cases hname : VariableName.ofString other with
    | error e =>
      -- A name that is refused says nothing, about itself either.
      have hnot : ¬ (other = name ∧ (VariableName.ofString name).isOk) := by
        rintro ⟨rfl, hok⟩
        rw [hname] at hok
        cases hok
      rw [if_neg hnot, Option.getD_none]
    | ok n =>
      have htext : n.text = other := VariableName.ofString_eq_ok_iff.1 hname
      by_cases hother : other = name
      · have hok : (VariableName.ofString name).isOk := by rw [← hother, hname]; rfl
        rw [if_pos ⟨hother, hok⟩, Option.getD_some, ← hother, ← htext]
        exact value?_bind_self b n value
      · rw [if_neg fun h => hother h.1, Option.getD_none]
        exact value?_bind_of_ne b value (htext ▸ hother)
  | unset other =>
    rw [Edit.apply, Edit.effect, unset]
    split
    · rename_i h
      rw [Option.getD_some, h, value?_erase_self]
    · rename_i h
      rw [Option.getD_none, value?_erase_of_ne b h]
  | clear => rfl
  | extend other value =>
    rw [Edit.apply, Edit.effect]
    split
    · rename_i h
      rw [Option.getD_some, ← h, value?_bind_self]
    · rename_i h
      rw [Option.getD_none, value?_bind_of_ne b value h]
  | restart other value => exact value?_single other value name

/-- **A name has the value that the last edit about it gives**, and without such an edit the one
that it had before. -/
theorem value?_edited (b : Bindings) (history : List Edit) (name : String) :
    (b.edited history).value? name =
      (history.reverse.findSome? (Edit.effect name)).getD (b.value? name) := by
  -- From the end of the history: the last edit decides, or leaves it to those before it.
  induction history using List.reverseRecOn with
  | nil => rfl
  | append_singleton history e ih =>
    have hlast : b.edited (history ++ [e]) = e.apply (b.edited history) := edited_append b _ _
    rw [hlast, value?_apply, ih, List.reverse_append, List.reverse_singleton,
      List.singleton_append, List.findSome?_cons]
    cases e.effect name with
    | none => rfl
    | some said => rfl

theorem value?_edited_empty (history : List Edit) :
    value? (edited Catalog.empty history) = lastValue history :=
  funext (value?_edited Catalog.empty history)

/-- **Bindings are a finite map, whatever the edits they came from.**  Everything that is asked
of bindings made from none by a history of edits is answered from the value that each name was
given last and that was not taken away since; and two such bindings are the same exactly when
their histories left the same names with values that compare equal. -/
theorem edited_shows_lastValue (history : List Edit) :
    (edited Catalog.empty history).Shows (lastValue history) ∧
      (∀ name v, lastValue history name = some v ↔ LastBound history name v) ∧
      ∀ other : List Edit,
        (edited Catalog.empty history).same (edited Catalog.empty other) ↔
          ∀ name, Option.Rel (fun x y => x.equals y) (lastValue history name)
            (lastValue other name) := by
  refine ⟨?_, fun name v => lastValue_eq_some_iff, fun other => ?_⟩
  · rw [← value?_edited_empty]
    exact shows_value? _
  · rw [← value?_edited_empty, ← value?_edited_empty]
    exact same_iff

/-- Zeros of either sign compare equal, and what is not a number does not compare equal to itself,
so bindings need not be the same as themselves. -/
example :
    (edited Catalog.empty [.set "x" 0.0, .set "3" 1.0]).same
        (edited Catalog.empty [.set "y" 2.0, .set "x" (.ofRank true 0), .unset "y"]) = true ∧
      (edited Catalog.empty [.set "x" .quietNaN]).same
        (edited Catalog.empty [.set "x" .quietNaN]) = false := by
  decide +kernel

end Bindings

end ReversePolish
