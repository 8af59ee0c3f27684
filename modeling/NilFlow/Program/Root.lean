import NilFlow.Program.Basic
import NilFlow.Text.Quoted

/-!
# Seeding roots

The part of a program in which the search for nil values starts.

* `RootNode`, `Root`: subtrees of packages in scope.
* `Program.wholeRoot`, `Program.declarationRoot?`: all seedable files of some packages, or a single declaration.
* `RootError`, `Program.selectRoot`: the root that a user names.
-/

namespace NilFlow

/-- A subtree to seed from, with its package. -/
structure RootNode where
  package : PackageRef
  cursor : Cursor

/-- The subtrees to seed from. -/
structure Root where
  nodes : List RootNode

namespace Root

/-- The packages of a root, each once. -/
def packages (r : Root) : List PackageRef := (r.nodes.map (·.package)).eraseDups

end Root

inductive RootError where
  | unknownPackage (path : String)
  /-- A declaration that is not written as package and name. -/
  | malformedDeclaration (text : String)
  | unknownDeclaration (text : String)
deriving DecidableEq, Repr

namespace RootError

def message : RootError → String
  | unknownPackage path => "unknown root: package " ++ quoted path
  | malformedDeclaration text => "unknown root: declaration " ++ quoted text ++ ", want package.Name"
  | unknownDeclaration text => "unknown root: declaration " ++ quoted text

end RootError

namespace Program

/-- Whether a file is searched for nil values: not when it is generated and must stay so, nor when it is silenced. -/
def seedable (p : Program) (f : SourceFile) : Bool := !(f.generated && !p.generated) && !f.suppressed

/-- The seedable files of some packages. -/
def wholeRoot (p : Program) (packages : List Package) : Root where
  nodes := packages.flatMap fun package =>
    (package.files.filter p.seedable).filterMap fun f => f.tree.map fun t => ⟨package.ref, .root t⟩

def declaredNames (n : Node) : List Node :=
  match n.kind with
  | .funcDecl | .typeSpec => (n.child? .name).toList
  | .valueSpec => n.childrenAt .names
  | _ => []

/-- The declaration of an object, as a root. -/
def declarationRoot? (p : Program) (o : ObjectId) : Option Root :=
  match ((p.typing.object? o).bind (·.package)).bind fun ref => p.packages.find? (·.ref.number = ref.number) with
  | none => none
  | some package =>
    (package.cursors.find? fun c => (declaredNames c.node).any fun n => n.facts.declares = some o).map fun c =>
      ⟨[⟨package.ref, c⟩]⟩

def packagesAt (p : Program) : List String → Except RootError (List Package)
  | [] => .ok []
  | path :: paths =>
    match p.packages.find? (·.ref.path = path) with
    | none => .error (.unknownPackage path)
    | some package => (p.packagesAt paths).map (package :: ·)

/-- A qualified name cut at its last point, unless nothing stands before it. -/
def cutName? (text : String) : Option (String × String) :=
  let last := text.toList.reverse.takeWhile (· ≠ '.')
  match text.toList.reverse.dropWhile (· ≠ '.') with
  | '.' :: c :: front => some (String.ofList (c :: front).reverse, String.ofList last.reverse)
  | _ => none

/-- The root of the package-level declaration with a qualified name: the first package with that path in which the name
is unknown ends the search. -/
def declarationNamed (p : Program) (text path name : String) : List Package → Except RootError Root
  | [] => .error (.unknownDeclaration text)
  | package :: rest =>
    if package.ref.path ≠ path then p.declarationNamed text path name rest
    else match p.typing.lookup? package.ref.number name with
      | none => .error (.unknownDeclaration text)
      | some o =>
        match p.declarationRoot? o with
        | some root => .ok root
        | none => p.declarationNamed text path name rest

/-- The root that a user names: a declaration when one is given, else some packages, else everything. -/
def selectRoot (p : Program) (paths : List String) (declaration : String) : Except RootError Root :=
  if declaration.isEmpty then
    if paths.isEmpty then .ok (p.wholeRoot p.packages) else (p.packagesAt paths).map p.wholeRoot
  else match cutName? declaration with
    | none => .error (.malformedDeclaration declaration)
    | some (path, name) => p.declarationNamed declaration path name p.packages

end Program

end NilFlow
