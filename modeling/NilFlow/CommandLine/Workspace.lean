import NilFlow.Program.Loading

/-!
# Workspaces

What commands see of their surroundings: files, and packages that a loader delivers.

* `FileProblem`: why a file cannot be used.
* `LoadedProgram`, `LoadError`: what a loader delivers, or why it does not.
* `Workspace`: a working directory with its files and its loader.
* `FileTree`: files held in memory; `FileTree.read`, `FileTree.creationProblem?` and `FileTree.put` follow the names of
  files through directories, one component at a time.
-/

namespace NilFlow

inductive FileProblem where
  | missing
  | isDirectory
  /-- A file stands where the path needs a directory. -/
  | notDirectory
  /-- No file can have the name. -/
  | badName
  | nameTooLong
deriving DecidableEq, Repr

namespace FileProblem

def message : FileProblem → String
  | missing => "no such file or directory"
  | isDirectory => "is a directory"
  | notDirectory => "not a directory"
  | badName => "invalid argument"
  | nameTooLong => "file name too long"

end FileProblem

/-- Packages with their files and types, as a loader delivers them. -/
structure LoadedProgram where
  library : LibraryRoot
  typing : Typing
  files : List SourceFile
  packages : List LoadedPackage

/-- Why packages could not be loaded: some have errors, or the loader itself failed. -/
inductive LoadError where
  | errors (count : Nat)
  | failed (cause : String)
deriving DecidableEq, Repr

namespace LoadError

def message : LoadError → String
  | errors count => "package load failed: " ++ count.repr ++ " errors"
  | failed cause => "package load failed: " ++ cause

end LoadError

/-- The surroundings of a command: the working directory, the contents of files, whether a file can be created, and the
packages that patterns name in a directory, with or without their tests. -/
structure Workspace where
  directory : String
  read : String → Except FileProblem String
  creationProblem? : String → Option FileProblem
  load : String → Bool → List String → Except LoadError LoadedProgram

/-! ## Files in memory -/

/-- What stands at a place in a tree: a directory or a file, by its components from the root on. -/
inductive TreeEntry where
  | directory (parts : List String)
  | file (parts : List String)
deriving DecidableEq, Repr

/-- Files and directories by their components from the root on, and the working directory. The directories above a file
or directory are there as well. -/
structure FileTree where
  base : List String
  directories : List (List String)
  files : List (List String × String)

namespace FileTree

/-- The greatest length of a name between slashes, in bytes. -/
def maxComponent : Nat := 255

/-- The least length of a whole name that is refused, in bytes. -/
def maxName : Nat := 4096

/-- The tree with files of the given names, which are taken from the working directory unless they start at the root. -/
def ofFiles (base : String) (directories : List String) (files : List (String × String)) : FileTree :=
  let parts (name : String) : List String :=
    (Path.ofText (if (Path.ofText name).rooted then name else base ++ "/" ++ name)).parts
  ⟨parts base, directories.map parts, files.map fun (name, text) => (parts name, text)⟩

def content? (t : FileTree) (parts : List String) : Option String := t.files.lookup parts

/-- Whether a place is a directory: the working directory, a given one, or one above those or above a file. -/
def isDirectory (t : FileTree) (parts : List String) : Bool :=
  (t.base :: t.directories).any parts.isPrefixOf || t.files.any fun f => parts ≠ f.1 && parts.isPrefixOf f.1

/-- What stands under a name in a directory. -/
def lookup (t : FileTree) (directory : List String) (name : String) : Except FileProblem TreeEntry :=
  let parts := directory ++ [name]
  if maxComponent < name.utf8ByteSize then .error .nameTooLong
  else if (t.content? parts).isSome then .ok (.file parts)
  else if t.isDirectory parts then .ok (.directory parts)
  else .error .missing

/-- What one more component leads to. Nothing lies below a file, and above the root lies the root. -/
def step (t : FileTree) (entry : TreeEntry) (part : String) : Except FileProblem TreeEntry :=
  match entry with
  | .file _ => .error .notDirectory
  | .directory parts =>
    if part.isEmpty || part = "." then .ok entry
    else if part = ".." then .ok (.directory parts.dropLast)
    else t.lookup parts part

/-- Where a name starts: at the root or in the working directory. -/
def start (t : FileTree) (name : String) : TreeEntry :=
  .directory (if (Path.ofText name).rooted then [] else t.base)

/-- Why a name is refused before it is looked up. -/
def nameProblem? (name : String) : Option FileProblem :=
  if name.toList.contains '\x00' then some .badName
  else if maxName ≤ name.utf8ByteSize then some .nameTooLong
  else if name.isEmpty then some .missing
  else none

def find (t : FileTree) (name : String) : Except FileProblem TreeEntry :=
  match nameProblem? name with
  | some p => .error p
  | none => (Path.components name).foldlM t.step (t.start name)

def read (t : FileTree) (name : String) : Except FileProblem String :=
  match t.find name with
  | .error p => .error p
  | .ok (.directory _) => .error .isDirectory
  | .ok (.file parts) => .ok ((t.content? parts).getD "")

/-- The place of a file that is created or overwritten. Its last component has to be the name of a file, without a slash
behind it. -/
def creation (t : FileTree) (name : String) : Except FileProblem (List String) :=
  match nameProblem? name with
  | some p => .error p
  | none =>
    let parts := (Path.components name).reverse
    match parts.dropWhile String.isEmpty with
    | [] => .error .isDirectory
    | last :: before =>
      match before.reverse.foldlM t.step (t.start name) with
      | .error p => .error p
      | .ok (.file _) => .error .notDirectory
      | .ok (.directory directory) =>
        if parts.head? ≠ some last || last = "." || last = ".." then .error .isDirectory
        else match t.lookup directory last with
          | .ok (.directory _) => .error .isDirectory
          | .ok (.file parts) => .ok parts
          | .error .missing => .ok (directory ++ [last])
          | .error p => .error p

def creationProblem? (t : FileTree) (name : String) : Option FileProblem :=
  match t.creation name with
  | .ok _ => none
  | .error p => some p

/-- The tree with a file of some content, if it can be created. -/
def put (t : FileTree) (name text : String) : FileTree :=
  match t.creation name with
  | .ok parts => { t with files := (parts, text) :: t.files }
  | .error _ => t

end FileTree

end NilFlow
