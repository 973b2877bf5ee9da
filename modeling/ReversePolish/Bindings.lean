import ReversePolish.Catalog
import ReversePolish.VariableName

/-!
# Bindings

The values of variables: a catalog of bindings, labelled by name.  Values are
looked up under any text; only a variable name can be bound.
-/

namespace ReversePolish

/-- A variable with its value. -/
structure Binding where
  name : VariableName
  value : Double

/-- The label of a binding is the text of its name. -/
def Binding.label (b : Binding) : String := b.name.text

/-- Bindings of distinct variables, in ascending order of their names. -/
abbrev Bindings := Catalog Binding Binding.label

/-- A variable was looked up that has no value. -/
structure UnboundName where
  name : String
deriving DecidableEq, Repr

/-- The sentence that reports a variable without value. -/
def UnboundName.message (e : UnboundName) : String :=
  "variable '" ++ e.name ++ "' is not defined"

namespace Bindings

/-- The value bound to a name, if any. -/
def value? (b : Bindings) (name : String) : Option Double :=
  (b.find? name).map Binding.value

/-- The value bound to a name, or the report that there is none. -/
def get (b : Bindings) (name : String) : Except UnboundName Double :=
  match b.value? name with
  | some v => .ok v
  | none => .error ⟨name⟩

/-- The bindings with one variable bound anew. -/
def bind (b : Bindings) (name : VariableName) (value : Double) : Bindings :=
  b.insert ⟨name, value⟩

/-- The bindings of one variable alone. -/
def single (name : VariableName) (value : Double) : Bindings := bind Catalog.empty name value

/-- Binds a name, if it can be bound, and tells which value it had before. -/
def set (b : Bindings) (name : String) (value : Double) :
    Except NameError (Option Double) × Bindings :=
  match VariableName.ofString name with
  | .ok n => (.ok (b.value? name), b.bind n value)
  | .error e => (.error e, b)

/-- Takes the value of a name away, and tells which it was. -/
def unset (b : Bindings) (name : String) : Option Double × Bindings :=
  (b.value? name, b.erase name)

/-- Whether two collections bind the same names to values that compare equal as
numbers. -/
def same (a b : Bindings) : Bool :=
  a.labels == b.labels &&
    (a.entries.zip b.entries).all fun (x, y) => x.value.equals y.value

@[simp] theorem value?_empty (name : String) : value? Catalog.empty name = none := rfl

@[simp] theorem value?_bind_self (b : Bindings) (name : VariableName) (value : Double) :
    (b.bind name value).value? name.text = some value := by
  have := Catalog.find?_insert_self b (⟨name, value⟩ : Binding)
  simp only [Binding.label] at this
  simp [value?, bind, this]

theorem value?_bind_of_ne (b : Bindings) {name : VariableName} (value : Double) {other : String}
    (h : name.text ≠ other) : (b.bind name value).value? other = b.value? other := by
  rw [value?, bind, Catalog.find?_insert_of_ne b (a := (⟨name, value⟩ : Binding)) h, value?]

@[simp] theorem value?_erase_self (b : Bindings) (name : String) :
    value? (b.erase name) name = none := by
  simp [value?]

theorem value?_erase_of_ne (b : Bindings) {name other : String} (h : name ≠ other) :
    value? (b.erase name) other = b.value? other := by
  simp [value?, Catalog.find?_erase_of_ne b h]

end Bindings

end ReversePolish
