import ReversePolish.Catalog
import ReversePolish.Number.Double
import ReversePolish.VariableName

/-!
# Functions and the library they are found in

A function takes one number to one number and has a name.  Two functions count
as the same when their names are; what they compute is not compared.  A library
is a catalog of functions labelled by their own names, so a function cannot be
stored under a name that is not its own.
-/

namespace ReversePolish

/-- A function of one number, known by name. -/
structure NamedFunction where
  name : String
  body : Double → Double
  named : name ≠ ""

namespace NamedFunction

/-- The function with a given name and body; the name must not be empty. -/
def ofName (name : String) (body : Double → Double) : Except NameError NamedFunction :=
  if h : name = "" then .error .emptyFunction else .ok ⟨name, body, h⟩

/-- Functions are told apart by name. -/
instance : BEq NamedFunction := ⟨fun f g => f.name == g.name⟩

theorem beq_iff_name_eq {f g : NamedFunction} : f == g ↔ f.name = g.name :=
  beq_iff_eq (α := String)

end NamedFunction

/-- Functions with distinct names, in ascending order of their names. -/
abbrev Library := Catalog NamedFunction NamedFunction.name

/-- Adds a function, in the place of the one of its name if there is one, and tells which that
was. -/
def Library.put (library : Library) (f : NamedFunction) : Option NamedFunction × Library :=
  (library.find? f.name, library.insert f)

/-- A function that binary64 computes. -/
def NamedFunction.computed [NaNRule] (name : String) (f : Float → Float) (named : name ≠ "") :
    NamedFunction :=
  ⟨name, fun x => .result name [x] (f x.toFloat), named⟩

/-- The functions that every session begins with.  `log` is the natural logarithm, and `round`
takes a half away from zero.  `abs` computes nothing: it takes the sign away, also from a
not-a-number. -/
def Library.standard [NaNRule] : Library :=
  [ NamedFunction.computed "sqrt" Float.sqrt (by decide),
    ⟨"abs", Double.abs, by decide⟩,
    .computed "exp" Float.exp (by decide),
    .computed "log" Float.log (by decide),
    .computed "sin" Float.sin (by decide),
    .computed "cos" Float.cos (by decide),
    .computed "tan" Float.tan (by decide),
    .computed "floor" Float.floor (by decide),
    .computed "ceil" Float.ceil (by decide),
    .computed "round" Float.round (by decide) ].foldl Catalog.insert Catalog.empty

end ReversePolish
