/-!
# Catalogs

A catalog is a finite collection in which every entry has a label of its own.
The entries stand in strictly ascending order of their labels, and this is part
of the type: a catalog has one representation, its listing is sorted without
sorting, and two entries never share a label.

The view of a catalog is `find?`: what it holds under a label.
-/

namespace ReversePolish

/-- Entries in strictly ascending order of their labels. -/
structure Catalog (α : Type) (label : α → String) where
  entries : List α
  ascending : entries.Pairwise fun a b => label a < label b

namespace Catalog

variable {α : Type} {label : α → String}

/-- The catalog without entries. -/
def empty : Catalog α label := ⟨[], .nil⟩

/-- The entry with a given label. -/
def find? (c : Catalog α label) (name : String) : Option α :=
  c.entries.find? fun a => label a == name

/-- Whether there is an entry with a given label. -/
def contains (c : Catalog α label) (name : String) : Bool := (c.find? name).isSome

/-- The labels, in ascending order. -/
def labels (c : Catalog α label) : List String := c.entries.map label

/-- The number of entries. -/
def size (c : Catalog α label) : Nat := c.entries.length

/-- Whether there is no entry. -/
def isEmpty (c : Catalog α label) : Bool := c.entries.isEmpty

/-- An ascending list with one entry put in its place, instead of the entry of
the same label if there is one. -/
def place (label : α → String) (a : α) : List α → List α
  | [] => [a]
  | b :: rest =>
    if label a < label b then a :: b :: rest
    else if label a = label b then a :: rest
    else b :: place label a rest

theorem mem_place {a x : α} {l : List α} (h : x ∈ place label a l) : x = a ∨ x ∈ l := by
  induction l with
  | nil => simpa [place] using h
  | cons b rest ih =>
    unfold place at h
    split at h
    · simpa using h
    · split at h
      · simp at h ⊢
        rcases h with h | h <;> simp [h]
      · simp at h ⊢
        rcases h with h | h
        · simp [h]
        · rcases ih h with h | h <;> simp [h]

theorem pairwise_place (a : α) {l : List α}
    (h : l.Pairwise fun a b => label a < label b) :
    (place label a l).Pairwise fun a b => label a < label b := by
  induction l with
  | nil => simp [place]
  | cons b rest ih =>
    rw [List.pairwise_cons] at h
    unfold place
    split
    · rename_i hab
      refine List.pairwise_cons.2 ⟨fun x hx => ?_, List.pairwise_cons.2 h⟩
      rcases List.mem_cons.1 hx with rfl | hx
      · exact hab
      · exact String.lt_trans hab (h.1 x hx)
    · rename_i hab
      split
      · rename_i heq
        exact List.pairwise_cons.2 ⟨fun x hx => heq ▸ h.1 x hx, h.2⟩
      · rename_i hne
        refine List.pairwise_cons.2 ⟨fun x hx => ?_, ih h.2⟩
        rcases mem_place hx with rfl | hx
        · rcases Decidable.em (label b < label x) with hlt | hlt
          · exact hlt
          · exact absurd (String.le_antisymm (String.not_lt.1 hlt) (String.not_lt.1 hab)) hne
        · exact h.1 x hx

/-- The catalog with an entry added, or replaced if its label is taken. -/
def insert (c : Catalog α label) (a : α) : Catalog α label :=
  ⟨place label a c.entries, pairwise_place a c.ascending⟩

/-- The catalog without the entry of a given label. -/
def erase (c : Catalog α label) (name : String) : Catalog α label :=
  ⟨c.entries.filter fun a => label a ≠ name, c.ascending.filter _⟩

/-! ## What each operation does to the view -/

@[simp] theorem find?_empty (name : String) : (empty : Catalog α label).find? name = none := rfl

theorem find?_place_self (a : α) (l : List α) :
    (place label a l).find? (fun x => label x == label a) = some a := by
  induction l with
  | nil => simp [place]
  | cons b rest ih =>
    unfold place
    split
    · simp
    · split
      · simp
      · rename_i hne
        rw [List.find?_cons_of_neg (by simpa using fun h => hne h.symm)]
        exact ih

theorem find?_place_of_ne {a : α} {name : String} (h : label a ≠ name) (l : List α) :
    (place label a l).find? (fun x => label x == name) =
      l.find? fun x => label x == name := by
  induction l with
  | nil => simp [place, h]
  | cons b rest ih =>
    unfold place
    split
    · rw [List.find?_cons_of_neg (by simpa using h)]
    · split
      · rename_i heq
        rw [List.find?_cons_of_neg (by simpa using h),
          List.find?_cons_of_neg (by simpa using heq ▸ h)]
      · rw [List.find?_cons, List.find?_cons, ih]

@[simp] theorem find?_insert_self (c : Catalog α label) (a : α) :
    (c.insert a).find? (label a) = some a := find?_place_self a c.entries

theorem find?_insert_of_ne (c : Catalog α label) {a : α} {name : String} (h : label a ≠ name) :
    (c.insert a).find? name = c.find? name := find?_place_of_ne h c.entries

@[simp] theorem find?_erase_self (c : Catalog α label) (name : String) :
    (c.erase name).find? name = none := by
  simp [find?, erase, List.find?_eq_none]

theorem find?_erase_of_ne (c : Catalog α label) {name other : String} (h : name ≠ other) :
    (c.erase name).find? other = c.find? other := by
  simp only [find?, erase]
  generalize c.entries = l
  induction l with
  | nil => rfl
  | cons b rest ih =>
    by_cases hb : label b = name
    · rw [List.filter_cons_of_neg (by simpa using hb),
        List.find?_cons_of_neg (by simpa [hb] using h), ih]
    · rw [List.filter_cons_of_pos (by simpa using hb), List.find?_cons, List.find?_cons, ih]

/-- What is found under a label has that label. -/
theorem label_of_find?_eq_some {c : Catalog α label} {name : String} {a : α}
    (h : c.find? name = some a) : label a = name := by
  have := List.find?_some h
  exact beq_iff_eq.1 this

end Catalog

end ReversePolish
