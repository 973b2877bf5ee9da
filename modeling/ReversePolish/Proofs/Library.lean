import ReversePolish.Proofs.Catalog
import ReversePolish.Proofs.Expr.PostfixRoundTrip

/-!
# Libraries are what was added to them last

Functions are only ever added to a library.  A function takes the place of the one of its name,
and no other entry notices, so under each name there is the function that was added last
(`Library.find?_grown`), and a name that was once there stays.  Everything else that a library
answers follows from what it finds under each name (`Library.shows_find?`).

The standard library is no exception.  It is the empty library with ten functions added, and a
later addition of one of their names replaces that function as it would any other.

Reading looks functions up by name and nothing else, so every function in an expression that was
read is the very one that the library has: the last one added under that name, its body included.
-/

namespace ReversePolish

/-- Adding a function to a library.  `put` also tells which function it replaces, and `extend`
does not. -/
inductive Addition where
  | put (f : NamedFunction)
  | extend (f : NamedFunction)

namespace Addition

/-- The function that is added. -/
def function : Addition → NamedFunction
  | put f => f
  | extend f => f

/-- The library after an addition. -/
def apply (library : Library) : Addition → Library
  | put f => (library.put f).2
  | extend f => library.insert f

theorem apply_eq (library : Library) (a : Addition) :
    a.apply library = library.insert a.function := by
  cases a <;> rfl

end Addition

/-- A function is the last of a name that was added. -/
def LastAdded (history : List Addition) (name : String) (f : NamedFunction) : Prop :=
  ∃ earlier a later, history = earlier ++ a :: later ∧ a.function = f ∧ f.name = name ∧
    ∀ a' ∈ later, a'.function.name ≠ name

/-- The last function of a name that was added, if any. -/
def lastAdded (history : List Addition) (name : String) : Option NamedFunction :=
  (history.reverse.map Addition.function).find? fun f => f.name == name

theorem lastAdded_append_singleton (history : List Addition) (a : Addition) (name : String) :
    lastAdded (history ++ [a]) name =
      if a.function.name = name then some a.function else lastAdded history name := by
  rw [lastAdded, List.reverse_append, List.reverse_singleton, List.singleton_append, List.map_cons,
    List.find?_cons]
  by_cases h : a.function.name = name
  · rw [if_pos h, beq_iff_eq.2 h]
  · rw [if_neg h, beq_eq_false_iff_ne.2 h, lastAdded]

theorem lastAdded_eq_some_iff {history : List Addition} {name : String} {f : NamedFunction} :
    lastAdded history name = some f ↔ LastAdded history name f := by
  rw [lastAdded, List.find?_map, Option.map_eq_some_iff, LastAdded]
  simp only [List.find?_eq_some_iff_append, Function.comp_apply, beq_iff_eq, Bool.not_eq_true',
    beq_eq_false_iff_ne]
  constructor
  · rintro ⟨a, ⟨hname, later, earlier, hsplit, hlater⟩, rfl⟩
    refine ⟨earlier.reverse, a, later.reverse, ?_, rfl, hname, fun a' ha' => ?_⟩
    · rw [← List.reverse_reverse history, hsplit]
      simp
    · exact hlater a' (List.mem_reverse.1 ha')
  · rintro ⟨earlier, a, later, rfl, rfl, hname, hlater⟩
    refine ⟨a, ⟨hname, later.reverse, earlier.reverse, by simp, fun a' ha' => ?_⟩, rfl⟩
    exact hlater a' (List.mem_reverse.1 ha')

namespace Library

variable {library : Library}

/-! ## Any library -/

/-- Everything that a library answers is what a map from names to functions says: looking a
name up, testing, counting and listing the names, and the function that an addition replaces.
The names are listed by their bytes.  Every function stands under its own name, which is not
empty, and it could have been made from that name and its body. -/
structure Shows (library : Library) (m : String → Option NamedFunction) : Prop where
  find? : ∀ name, library.find? name = m name
  contains : ∀ name, library.contains name = (m name).isSome
  size : library.size = {name | (m name).isSome}.ncard
  isEmpty : library.isEmpty ↔ ∀ name, m name = none
  mem_labels : ∀ name, name ∈ library.labels ↔ (m name).isSome
  ascending : (library.labels.map textBytes).Pairwise (· < ·)
  stored : ∀ f ∈ library.entries, m f.name = some f
  named : ∀ name f, m name = some f →
    f.name = name ∧ name ≠ "" ∧ NamedFunction.ofName name f.body = .ok f
  put_answer : ∀ f, (library.put f).1 = m f.name
  put_same : ∀ f, (library.put f).2.find? f.name = some f
  put_other : ∀ f name, f.name ≠ name → (library.put f).2.find? name = m name

/-- What is made from the name and the body of a function is that function. -/
theorem ofName_name_body (f : NamedFunction) : NamedFunction.ofName f.name f.body = .ok f :=
  dif_neg f.named

/-- **Any library answers as the functions that it finds say.** -/
theorem shows_find? (library : Library) : library.Shows library.find? where
  find? _ := rfl
  contains _ := rfl
  size := library.size_eq_ncard
  isEmpty := by simp only [Catalog.isEmpty_iff, Catalog.find?_eq_none_iff]
  mem_labels _ := Catalog.mem_labels_iff
  ascending := library.pairwise_textBytes_labels
  stored _ hf := Catalog.find?_eq_some_iff.2 ⟨hf, rfl⟩
  named name f hf := by
    obtain rfl : f.name = name := Catalog.label_of_find?_eq_some hf
    exact ⟨rfl, f.named, ofName_name_body f⟩
  put_answer _ := rfl
  put_same f := library.find?_insert_self f
  put_other _ _ h := library.find?_insert_of_ne h

/-! ## Libraries that grow -/

/-- The library after a history of additions, the earliest first. -/
def grown (library : Library) (history : List Addition) : Library :=
  history.foldl Addition.apply library

theorem grown_append (library : Library) (earlier later : List Addition) :
    library.grown (earlier ++ later) = (library.grown earlier).grown later :=
  List.foldl_append

/-- What one addition does to what is found. -/
theorem find?_apply (library : Library) (a : Addition) (name : String) :
    (a.apply library).find? name =
      if a.function.name = name then some a.function else library.find? name := by
  rw [Addition.apply_eq]
  split
  · rename_i h
    rw [← h, Catalog.find?_insert_self]
  · rename_i h
    exact library.find?_insert_of_ne h

/-- **Under each name is the function that was added last**, or else what was there before. -/
theorem find?_grown (library : Library) (history : List Addition) (name : String) :
    (library.grown history).find? name = (lastAdded history name).or (library.find? name) := by
  -- From the end of the history: the last addition is of this name, or leaves it to the others.
  induction history using List.reverseRecOn with
  | nil => rfl
  | append_singleton history a ih =>
    have hlast : library.grown (history ++ [a]) = a.apply (library.grown history) :=
      grown_append library _ _
    rw [hlast, find?_apply, ih, lastAdded_append_singleton]
    split
    · rfl
    · rfl

theorem find?_grown_empty (history : List Addition) :
    Catalog.find? (grown Catalog.empty history) = lastAdded history := by
  funext name
  rw [find?_grown, Catalog.find?_empty, Option.or_none]

/-- No name disappears. -/
theorem contains_grown {name : String} (h : library.contains name) (history : List Addition) :
    (library.grown history).contains name := by
  rw [Catalog.contains, find?_grown, Option.isSome_or, Bool.or_eq_true]
  exact Or.inr h

/-- Functions that are inserted one after another are a history of additions. -/
theorem grown_map_put (library : Library) (fs : List NamedFunction) :
    library.grown (fs.map .put) = fs.foldl Catalog.insert library :=
  List.foldl_map

/-- The standard library is the empty one with these functions added. -/
theorem exists_standard_eq_grown [NaNRule] :
    ∃ first : List Addition,
      first.map (fun a => a.function.name) =
        ["sqrt", "abs", "exp", "log", "sin", "cos", "tan", "floor", "ceil", "round"] ∧
      Library.standard = grown Catalog.empty first := by
  obtain ⟨fs, hfs, hnames⟩ : ∃ fs : List NamedFunction,
      Library.standard = fs.foldl Catalog.insert Catalog.empty ∧
      fs.map NamedFunction.name =
        ["sqrt", "abs", "exp", "log", "sin", "cos", "tan", "floor", "ceil", "round"] :=
    ⟨_, rfl, rfl⟩
  refine ⟨fs.map .put, ?_, ?_⟩
  · rw [List.map_map, ← hnames]
    rfl
  · rw [hfs, grown_map_put]

/-- **A library is what was added to it last.**  The standard library comes from the empty one
by ten additions, so this covers whatever grows from either.  All answers of a library are told
by the function of each name that was added last, nothing that was added is ever without a
function again, and what is read from a source applies the functions of the library only. -/
theorem grown_shows_lastAdded [NaNRule] :
    (∃ first : List Addition,
      first.map (fun a => a.function.name) =
        ["sqrt", "abs", "exp", "log", "sin", "cos", "tan", "floor", "ceil", "round"] ∧
      ∀ history, Library.standard.grown history = grown Catalog.empty (first ++ history)) ∧
    ∀ history : List Addition,
      (grown Catalog.empty history).Shows (lastAdded history) ∧
      (∀ name f, lastAdded history name = some f ↔ LastAdded history name f) ∧
      (∀ later name, (grown Catalog.empty history).contains name →
        (grown Catalog.empty (history ++ later)).contains name) ∧
      ∀ source e, Expr.ofSource (grown Catalog.empty history) source = .ok e →
        ∀ f ∈ e.functions, (grown Catalog.empty history).find? f.name = some f := by
  obtain ⟨first, hnames, hstandard⟩ := exists_standard_eq_grown
  refine ⟨⟨first, hnames, fun history => ?_⟩, fun history => ⟨?_, ?_, ?_, ?_⟩⟩
  · rw [hstandard, grown_append]
  · rw [← find?_grown_empty]
    exact shows_find? _
  · intro name f
    exact lastAdded_eq_some_iff
  · intro later name h
    rw [grown_append]
    exact contains_grown h later
  · intro source e h
    exact (Expr.ofSource_eq_ok_iff.1 h).2

/-- A root that was added in the place of the standard one is the root that is found and read,
and the other names are still there. -/
theorem grown_shows_root :
    let root : NamedFunction := ⟨"sqrt", fun _ => 1, by decide⟩
    let library := Library.standard.grown [.put root]
    library.contains "abs" ∧ library.find? "sqrt" = some root ∧
      Expr.ofSource library "x sqrt()" = .ok (.call root (.var ⟨"x", rfl⟩)) := by
  intro root library
  obtain ⟨⟨first, -, hfirst⟩, hall⟩ := grown_shows_lastAdded
  have hroot : (Expr.call root (.var ⟨"x", rfl⟩)).Resolved library :=
    Expr.resolved_call.2 ⟨Expr.resolved_var _, Library.standard.find?_insert_self root⟩
  have hread : Expr.ofSource library "x sqrt()" = .ok (.call root (.var ⟨"x", rfl⟩)) :=
    Expr.ofSource_toPostfix hroot (List.forall_mem_singleton.2 (sep_eq_false_of_all (by decide)))
  obtain ⟨-, -, hkept, -⟩ := hall first
  obtain ⟨-, -, -, hresolved⟩ := hall (first ++ [.put root])
  rw [← hfirst] at hresolved
  have hstandard := hfirst []
  rw [List.append_nil] at hstandard
  rw [← hstandard] at hkept
  have habs := hkept [.put root] "abs" rfl
  rw [← hfirst] at habs
  exact ⟨habs, hresolved _ _ hread root List.mem_cons_self, hread⟩

end Library

end ReversePolish
