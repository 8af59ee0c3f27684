import NilFlow.Program.Basic
import NilFlow.Text.Path

/-!
# Loading programs

From packages as a loader delivers them to a program.

* `LoadedPackage`: a package with what the loader knows about it.
* `LoadedPackage.readOnly`: packages outside the main module and those of the standard library stay as they are.
* `Program.ofChecked`, `Program.ofLoaded`: the program of checked or loaded packages.
* `ProgramError`: why there is none.
-/

namespace NilFlow

inductive ProgramError where
  | noPackages
  /-- A package came without type information. -/
  | noTypes
  /-- Indexing was cancelled before it began. -/
  | cancelled
deriving DecidableEq, Repr

namespace ProgramError

def message : ProgramError → String
  | noPackages => "no packages"
  | noTypes => "nilopt: package without type information: no packages"
  | cancelled => "nilopt: indexing: context canceled"

end ProgramError

/-- A package as delivered by a loader. `mainModule` tells whether its module is the main one, when it has a module. -/
structure LoadedPackage where
  ref : PackageRef
  files : List SourceFile
  readOnly : Bool
  mainModule : Option Bool
  goFiles : List String
  hasTypes : Bool
  hasSyntax : Bool

abbrev LibraryRoot := String

/-- Whether a file lies in the standard library: seen from its directory, the way does not lead up. -/
def inLibrary (library : LibraryRoot) (file : String) : Bool :=
  if library.isEmpty then false
  else match (Path.ofText library).relative? (Path.ofText file) with
    | none => false
    | some way => !(List.isPrefixOf ['.', '.'] way.toList)

namespace LoadedPackage

/-- Whether a loaded package must not be edited: it belongs to another module, or, having none, its first file lies
in the standard library. -/
def outside (library : LibraryRoot) (p : LoadedPackage) : Bool :=
  match p.mainModule with
  | some main => !main
  | none => p.goFiles.head?.any (inLibrary library)

def toPackage (p : LoadedPackage) (readOnly : Bool) : Package := ⟨p.ref, p.files, readOnly⟩

end LoadedPackage

namespace Program

/-- The program of checked packages, each of which states whether it is read-only. -/
def ofChecked (typing : Typing) (files : List SourceFile) (packages : List LoadedPackage) (generated cancelled : Bool) :
    Except ProgramError Program :=
  if packages.isEmpty then .error .noPackages
  else if packages.any (!·.hasTypes) then .error .noTypes
  else if cancelled then .error .cancelled
  else .ok (.ofPackages typing files (packages.map fun p => p.toPackage p.readOnly) generated)

/-- The program of loaded packages: those without types or syntax are left out, and where a package comes from decides
whether it is read-only. -/
def ofLoaded (library : LibraryRoot) (typing : Typing) (files : List SourceFile) (packages : List LoadedPackage)
    (generated cancelled : Bool) : Except ProgramError Program :=
  let usable := packages.filter fun p => p.hasTypes && p.hasSyntax && !p.files.isEmpty
  ofChecked typing files (usable.map fun p => { p with readOnly := p.outside library }) generated cancelled

end Program

end NilFlow
