import ReversePolish.Bindings

/-!
# Bindings laid over others

`t.overlay u` binds what `t` binds as `t` does, and what `t` leaves open as `u` does
(`value?_overlay`).  It changes nothing about `u` when `u` agrees with `t` wherever `t`
says something (`value?_overlay_of_agree`).
-/

namespace ReversePolish.Bindings

/-! ## One collection -/

/-- Looking a name up gives a value when one is bound. -/
theorem toOption_get (b : Bindings) (name : String) : (b.get name).toOption = b.value? name := by
  rw [get]
  cases b.value? name with
  | none => rfl
  | some v => rfl

/-- What is bound is bound to a variable name. -/
theorem exists_name_of_value? {b : Bindings} {name : String} {v : Double}
    (h : b.value? name = some v) : ∃ n : VariableName, n.text = name := by
  obtain ⟨x, hx, -⟩ := Option.map_eq_some_iff.1 h
  have hlabel : x.label = name := Catalog.label_of_find?_eq_some hx
  exact ⟨x.name, hlabel⟩

/-! ## One over the other -/

/-- All bindings of the first, and those of the second that they leave standing. -/
def overlay (t u : Bindings) : Bindings := t.entries.foldr (fun x b => b.bind x.name x.value) u

theorem value?_foldr_bind (l : List Binding) (u : Bindings) (name : String) :
    value? (l.foldr (fun x b => b.bind x.name x.value) u) name =
      ((l.find? fun x => x.label == name).map Binding.value).or (u.value? name) := by
  induction l with
  | nil => rfl
  | cons x l ih =>
    rw [List.foldr_cons]
    by_cases hx : x.label = name
    · rw [List.find?_cons_of_pos (by simpa using hx), ← hx, Binding.label, value?_bind_self]
      rfl
    · rw [value?_bind_of_ne _ _ hx, ih, List.find?_cons_of_neg (by simpa using hx)]

/-- **What is laid over comes first.** -/
theorem value?_overlay (t u : Bindings) (name : String) :
    (t.overlay u).value? name = (t.value? name).or (u.value? name) :=
  value?_foldr_bind t.entries u name

/-- Nothing changes where both agree. -/
theorem value?_overlay_of_agree {t u : Bindings}
    (h : ∀ name v, t.value? name = some v → u.value? name = some v) (name : String) :
    (t.overlay u).value? name = u.value? name := by
  rw [value?_overlay]
  cases hv : t.value? name with
  | none => rfl
  | some v => rw [h name v hv, Option.some_or]

end ReversePolish.Bindings
