import NilFlow.Text.Enumeration
import NilFlow.Text.Template
import NilFlow.Variable

/-!
# Failures

Why a nil value or a variable cannot be followed or converted.

* `FailureKind`: the kinds of failure, with their codes, names and wording; `FailureKind.fatal` ends a run.
* `Failure`: a kind, the variable and source it is about, and a detail; `Failure.message` is its text.
-/

namespace NilFlow

/-- The kinds of failure. Numbers beyond the listed kinds are kept as they are. -/
inductive FailureKind where
  /-- A nil value in a syntactic context that the analysis does not know. -/
  | unclassifiable
  /-- A context that is valid but never convertible, like a conversion of nil. -/
  | disallowed
  /-- The source lies in a package that must not be edited. -/
  | nonWritable
  /-- The source lies in a generated file. -/
  | generated
  /-- The declaration has no source in scope. -/
  | binary
  /-- An identifier that names no object. -/
  | missingBinding
  /-- Type information that contradicts the source. -/
  | modelError
  /-- A group member of a category not eligible for conversion. -/
  | ineligible
  /-- A group member declared outside the root packages. -/
  | foreignPackage
  /-- No usable nil value at all. -/
  | noCandidates
  /-- A number that is no kind. -/
  | unlisted (number : Nat)
deriving DecidableEq, Repr, Inhabited

namespace FailureKind

/-- The listed kinds, in the order of their numbers. -/
def all : List FailureKind :=
  [unclassifiable, disallowed, nonWritable, generated, binary, missingBinding, modelError, ineligible, foreignPackage,
    noCandidates]

def ofNumber (n : Nat) : FailureKind := all.getD n (unlisted n)

def number : FailureKind → Nat
  | unclassifiable => 0
  | disallowed => 1
  | nonWritable => 2
  | generated => 3
  | binary => 4
  | missingBinding => 5
  | modelError => 6
  | ineligible => 7
  | foreignPackage => 8
  | noCandidates => 9
  | unlisted n => n

/-- The codes of the kinds; the number after the last kind is written as a dash. -/
def codes : Enumeration :=
  ⟨"Kind", ["ctx", "cnv", "ro", "gen", "bin", "bnd", "mdl", "cat", "pkg", "nil", "-"]⟩

def code (k : FailureKind) : String := codes.name k.number

def optionNames : List String :=
  ["unclassifiable", "disallowed", "non-writable", "generated", "binary", "missing-binding", "model-error",
    "ineligible", "foreign-package", "no-candidates"]

/-- The option name of a kind; a number that is no kind goes by its code. -/
def name (k : FailureKind) : String := optionNames.getD k.number k.code

/-- The listed kind that a word names, by its code or its option name. -/
def ofName? (w : String) : Option FailureKind := all.find? fun k => k.code = w || k.name = w

/-- Whether a failure of this kind ends the run. -/
def fatal : FailureKind → Bool
  | missingBinding | modelError | noCandidates => true
  | _ => false

/-- Whether a failure of this kind concerns the whole search rather than one place. -/
def searchWide : FailureKind → Bool
  | nonWritable | generated | binary => true
  | _ => false

def describe : FailureKind → String
  | unclassifiable => "unsupported nil context"
  | disallowed => "nil value is converted"
  | nonWritable => "declared in read-only code"
  | generated => "used in generated code"
  | binary => "declared outside the analyzed sources"
  | missingBinding => "unresolved identifier"
  | modelError => "inconsistent type information"
  | ineligible => "category not eligible"
  | foreignPackage => "declared in another package"
  | noCandidates => "no nil value passed the preconditions"
  | unlisted n => codes.name n

end FailureKind

/-- A failure of a kind at a stretch of source, attributed to a variable when one is known. -/
structure Failure where
  kind : FailureKind
  var : Option Variable
  span : Span
  detail : String
deriving DecidableEq, Repr, Inhabited

namespace Failure

def ofTemplate (kind : FailureKind) (span : Span) (var : Option Variable) (template : String) (args : List String) :
    Failure :=
  ⟨kind, var, span, if template.isEmpty then "" else fillTemplate template args⟩

/-- The text of a failure: its wording, the variable's name and the detail, each when there is one. -/
def message (f : Failure) : String :=
  let named := match f.var with
    | some v => if v.name.isEmpty then f.kind.describe else f.kind.describe ++ ": '" ++ v.name ++ "'"
    | none => f.kind.describe
  if f.detail.isEmpty then named else named ++ " (" ++ f.detail ++ ")"

def fatal (f : Failure) : Bool := f.kind.fatal

/-- The failure, attributed to a variable unless it already has one. -/
def attributedTo (f : Failure) (v : Variable) : Failure := { f with var := f.var.or (some v) }

/-- The failure, placed at a span unless it already has a place. -/
def placedAt (f : Failure) (s : Span) : Failure := { f with span := f.span.orElse s }

end Failure

end NilFlow
