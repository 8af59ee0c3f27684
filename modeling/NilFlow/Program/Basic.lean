import NilFlow.Failure
import NilFlow.Program.Index

/-!
# Programs

The search scope of the analysis: packages in scope, with their types, files and occurrences.

* `Program`: built by `Program.ofPackages`, which indexes the packages.
* `Program.fileAt?`, `Program.locate`: the file and the place of a position.
* `Program.obstacle?`: why the source at a position must not be edited.
* `Program.search`: all occurrences of a variable, when all of them may be edited.
-/

namespace NilFlow

/-- The packages in scope with what type checking found out about them. The files outside the scope only give places to
positions. -/
structure Program where
  typing : Typing
  files : List SourceFile
  packages : List Package
  /-- Whether generated files may be edited. -/
  generated : Bool
  index : Index

namespace Program

/-- The program of some packages, with their occurrences indexed. -/
def ofPackages (typing : Typing) (files : List SourceFile) (packages : List Package) (generated : Bool) : Program :=
  ⟨typing, files, packages, generated, Index.ofPackages typing packages⟩

/-! ## Positions -/

def locate (p : Program) (pos : Pos) : Location := NilFlow.locate p.files pos

/-- The file in scope that a position belongs to, with its package. -/
def fileAt? (p : Program) (pos : Pos) : Option (Package × SourceFile) :=
  match NilFlow.fileAt? p.files pos with
  | none => none
  | some file => (p.packages.find? (·.ref.number = file.package)).map (·, file)

def owner? (p : Program) (v : Variable) : Option Owner := p.index.owner? v

/-- Whether a variable is declared in scope. -/
def declares (p : Program) (v : Variable) : Bool := (p.fileAt? v.pos).isSome

/-! ## Writable source -/

/-- Why the source at a position must not be edited, as a failure about a variable: it is out of scope, read-only or
generated. -/
def obstacle? (p : Program) (v : Variable) (pos : Pos) (span : Span) : Option Failure :=
  match p.fileAt? pos with
  | none => some ⟨.binary, some v, span, ""⟩
  | some (package, file) =>
    if package.readOnly then some ⟨.nonWritable, some v, span, "package " ++ package.ref.path⟩
    else if file.generated && !p.generated then some ⟨.generated, some v, span, ""⟩
    else none

def declarationObstacle? (p : Program) (v : Variable) : Option Failure :=
  if v.located then p.obstacle? v v.pos (.point v.pos) else some ⟨.binary, some v, .none, ""⟩

/-! ## Search -/

/-- Whether a parameter or result belongs to no declared function, so that its calls cannot be found. -/
def ofLiteral (p : Program) (v : Variable) : Bool :=
  (v.kind = .parameter || v.kind = .result) && (p.owner? v).isNone

/-- All occurrences of a variable. The search fails when its declaration or an occurrence outside doc comments must not
be edited, and for parameters and results of function literals. -/
def search (p : Program) (v : Variable) : Except Failure (List Match) :=
  match p.declarationObstacle? v with
  | some f => .error f
  | none =>
    if p.ofLiteral v then .error ⟨.unclassifiable, some v, .none, "belongs to a function literal"⟩
    else
      let occurrences := p.index.occurrencesOf v
      match (occurrences.filter (!·.inDocComment)).findSome? fun m => p.obstacle? v m.span.start m.span with
      | some f => .error f
      | none => .ok occurrences

end Program

end NilFlow
