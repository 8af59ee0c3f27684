import NilFlow.Text.Enumeration
import NilFlow.Span

/-!
# Variables

The elements of the analysis: declared variables that can hold nil.

* `ElementKind`: field, variable, parameter or result.
* `PackageRef`: the package a variable belongs to.
* `Variable`: a declared variable; `Variable.compare` is the order of reports, by position, name and package.
* `Candidate`, `Discovery`: variables found together, generic in what names a variable.
-/

namespace NilFlow

/-- What a variable is declared as. -/
inductive ElementKind where
  | field
  | var
  | parameter
  | result
deriving DecidableEq, Repr, Inhabited

namespace ElementKind

def all : List ElementKind := [field, var, parameter, result]

def names : Enumeration := ⟨"Kind", ["field", "variable", "parameter", "result"]⟩

def name : ElementKind → String
  | field => "field"
  | var => "variable"
  | parameter => "parameter"
  | result => "result"

def ofNumber? (n : Nat) : Option ElementKind := all[n]?

end ElementKind

/-- A package, by its number in the program and its import path. -/
structure PackageRef where
  number : Nat
  path : String
deriving DecidableEq, Repr, Inhabited

/-- A declared variable. Its `id` tells it from every other variable of the program; `path` is its export path within
its package, when it can be named from outside. -/
structure Variable where
  id : Nat
  name : String
  pos : Pos
  package : Option PackageRef
  kind : ElementKind
  path : Option String
deriving DecidableEq, Repr, Inhabited

namespace Variable

/-- The import path of the variable's package, empty without one. -/
def packagePath (v : Variable) : String := v.package.elim "" (·.path)

/-- Whether `a` is declared before `b`: by position, at the same position by name. -/
def less (a b : Variable) : Bool := if a.pos ≠ b.pos then a.pos < b.pos else a.name < b.name

/-- The order of variables in reports: by position, then name, then package path. -/
def compare (a b : Variable) : Ordering :=
  (Ord.compare a.pos b.pos).then ((Ord.compare a.name b.name).then (Ord.compare a.packagePath b.packagePath))

/-- Whether `a` does not come after `b` in reports. -/
def le (a b : Variable) : Bool := (a.compare b).isLE

/-- Whether the variable is declared at a position, which variables without source are not. -/
def located (v : Variable) : Bool := v.pos ≠ 0

end Variable

/-! ## Discoveries -/

/-- A variable found to carry nil. It is `implicit` when it is nil only for want of an initializer. -/
structure Candidate (α : Type) where
  var : α
  implicit : Bool
deriving DecidableEq, Repr

/-- Variables found together. A `joint` discovery has co-equal members, like the parameters of overriding methods. -/
structure Discovery (α : Type) where
  candidates : List (Candidate α)
  joint : Bool
deriving DecidableEq, Repr

namespace Discovery

/-- The variables of a discovery, in order. -/
def vars {α : Type} (d : Discovery α) : List α := d.candidates.map (·.var)

end Discovery

end NilFlow
