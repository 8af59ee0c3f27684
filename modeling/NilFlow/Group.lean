import NilFlow.Flow.Basic
import NilFlow.Text.Path
import NilFlow.Text.Uuid

/-!
# Groups

The final partition: elements that must change their type together.

* `Element`, `Group`: a member with its kind, and the group with its occurrences and findings.
* `elementKey`: a text that names an element the same way in every run.
* `Group.occurrencesOf`: the occurrences of all members, sorted and without repetition.
* `GroupInput.build`: one group per component.
-/

namespace NilFlow

structure Element where
  var : Variable
  kind : ElementKind
  implicit : Bool
deriving DecidableEq, Repr, Inhabited

/-- A maximal set of elements connected by the flow of values. -/
structure Group where
  id : Uuid
  elements : List Element
  occurrences : List Occurrence
  status : Status
deriving DecidableEq, Repr, Inhabited

namespace Group

def vars (g : Group) : List Variable := g.elements.map (·.var)

def contains (g : Group) (v : Variable) : Bool := g.elements.any (·.var = v)

def idSpace : Uuid := .ofName .urlNamespace "https://fillmore-labs.com/nilopt"

end Group

/-! ## Keys -/

/-- A text that names an element the same way in every run: by its export path, else by its place. Without files there
are no places. -/
def elementKey (files : Option (List SourceFile)) (v : Variable) : String :=
  match v.package with
  | none => v.name
  | some package =>
    match v.path with
    | some path => package.path ++ "." ++ path
    | none =>
      match files with
      | none => package.path ++ ":" ++ v.name
      | some files =>
        if v.located then
          let l := locate files v.pos
          package.path ++ ":" ++ Path.baseName l.file ++ ":" ++ l.line.repr ++ ":" ++ l.column.repr ++ ":" ++ v.name
        else package.path ++ ":" ++ v.name

/-- The text that identifies a group: the keys of its elements, one a line. -/
def groupKey (files : Option (List SourceFile)) (vs : List Variable) : String :=
  "\n".intercalate (vs.map (elementKey files))

/-! ## Occurrences -/

/-- Whether an occurrence does not start, or else end, after another. -/
def Occurrence.le (a b : Occurrence) : Bool :=
  a.span.start < b.span.start || a.span.start = b.span.start && a.span.stop ≤ b.span.stop

/-- A list without repetitions of neighbours. -/
def dropRepeats {α : Type} [DecidableEq α] : List α → List α
  | a :: b :: rest => if a = b then dropRepeats (b :: rest) else a :: dropRepeats (b :: rest)
  | l => l

namespace Group

/-- The occurrences of some variables, by position and without repetition of neighbours. -/
def occurrencesOf (all : List Occurrence) (vs : List Variable) : List Occurrence :=
  dropRepeats ((vs.flatMap fun v => all.filter (·.var = v)).mergeSort Occurrence.le)

end Group

/-! ## Findings -/

/-- What speaks against converting an element: its category, or, when groups stay within the root packages, its
package. -/
def elementFailures (settings : Settings) (roots : List PackageRef) (e : Element) : List Failure :=
  let category : List Failure :=
    if !settings.allows (.ofKind e.kind) then [⟨.ineligible, some e.var, .point e.var.pos, e.kind.name⟩]
    else if e.implicit && !settings.allows .implicitFields then
      [⟨.ineligible, some e.var, .point e.var.pos, "implicit " ++ e.kind.name⟩]
    else []
  let package : List Failure :=
    if settings.has .crossPackage || e.var.package.any roots.contains then []
    else [⟨.foreignPackage, some e.var, .point e.var.pos, e.var.packagePath⟩]
  category ++ package

/-- The state of a finished search, from which groups are built. -/
structure GroupInput where
  files : Option (List SourceFile)
  components : List (List Variable)
  implicit : Variable → Bool
  occurrences : List Occurrence
  roots : List PackageRef

namespace GroupInput

def group (settings : Settings) (input : GroupInput) (component : List Variable) : Group :=
  let elements := component.map fun v => ⟨v, v.kind, input.implicit v⟩
  { id := .ofName Group.idSpace (groupKey input.files component)
    elements := elements
    occurrences := Group.occurrencesOf input.occurrences component
    status := ⟨(elements.flatMap (elementFailures settings input.roots)).map settings.entry⟩ }

def build (settings : Settings) (input : GroupInput) : List Group := input.components.map (input.group settings)

end GroupInput

end NilFlow
