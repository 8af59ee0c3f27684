import NilFlow.BinarySearch
import NilFlow.NoLint
import NilFlow.Program.LineDirective
import NilFlow.Tree.Cursor

/-!
# Source files

* `SourceFile`: a file of a program, with its place among the positions, its lines, comments, tree and line directives.
* `Location`: file, line and column, with the written form `Location.text`.
* `SourceFile.place`, `SourceFile.locate`: where a position is, as the file itself counts, and as its line directives
  say.
* `SourceFile.suppressed`, `SourceFile.suppressedAt`: what suppressing comments silence.
* `locate`: the location of a position among several files.
-/

namespace NilFlow

structure Comment where
  pos : Pos
  text : String
deriving DecidableEq, Repr, Inhabited

/-- A file. Its positions run from `base` to `base + size`; `lineStarts` are the offsets at which lines start, in
increasing order. Files outside the analysed packages have no tree. -/
structure SourceFile where
  name : String
  package : Nat
  base : Nat
  size : Nat
  lineStarts : List Nat
  generated : Bool
  comments : List (List Comment)
  tree : Option Node
  lineDirectives : List LineDirective := []
deriving Inhabited

/-- A place in a file: line and column count from one, columns in bytes, and column zero is unknown. Other numbers can
be given too. -/
structure Location where
  file : String
  line : Int
  column : Int
deriving DecidableEq, Repr, Inhabited

namespace Location

def unknown : Location := ⟨"", 0, 0⟩

/-- File, line and column joined by colons, without a column that is unknown; an unknown place is a dash. -/
def text (l : Location) : String :=
  if l.line ≤ 0 then (if l.file.isEmpty then "-" else l.file)
  else
    let place := if l.column = 0 then l.line.repr else l.line.repr ++ ":" ++ l.column.repr
    if l.file.isEmpty then place else l.file ++ ":" ++ place

end Location

namespace SourceFile

/-- The offsets at which the lines of a text start, after `offset` bytes. -/
def startsAfter : Nat → List UInt8 → List Nat
  | _, [] => []
  | offset, b :: bs => if b = 10 then (offset + 1) :: startsAfter (offset + 1) bs else startsAfter (offset + 1) bs

def startsOfText (text : String) : List Nat := 0 :: startsAfter 0 text.toUTF8.toList

/-- Whether offsets increase from one to the next. -/
def increasing : List Nat → Bool
  | a :: b :: rest => a < b && increasing (b :: rest)
  | _ => true

/-- The line starts of a file of some size, as they are given; offsets that do not increase or lie behind the file are
not taken, and the file is a single line. -/
def startsOfTable (size : Nat) (starts : List Nat) : List Nat :=
  if increasing starts && starts.all (· < size) then starts else [0]

def holds (f : SourceFile) (p : Pos) : Bool := f.base ≤ p && p ≤ f.base + f.size

def offset (f : SourceFile) (p : Pos) : Nat := (p - f.base).toNat

/-- The line that an offset lies on; zero before the first. -/
def lineAt (f : SourceFile) (offset : Nat) : Nat := f.lineStarts.countP (· ≤ offset)

/-- The line of a position of the file, whatever the directives say. -/
def line (f : SourceFile) (p : Pos) : Nat := f.lineAt (f.offset p)

/-- The place of a position as the file itself counts; before the first line there is none but the file. -/
def place (f : SourceFile) (p : Pos) : Location :=
  match (f.lineStarts.filter (· ≤ f.offset p)).getLast? with
  | some start => ⟨f.name, f.line p, f.offset p - start + 1⟩
  | none => ⟨f.name, 0, 0⟩

/-- The last line directive ahead of a position of the file. -/
def directive? (f : SourceFile) (p : Pos) : Option LineDirective :=
  (f.lineDirectives.filter (·.offset ≤ f.offset p)).getLast?

/-- The place of a position as its directive says. Lines go on from the directive's. On the first of them columns go on
from the directive's too, and behind a directive without a column none is known. -/
def locate (f : SourceFile) (p : Pos) : Location :=
  match f.directive? p with
  | none => f.place p
  | some d =>
    let first := f.lineAt d.offset
    if first = 0 then { f.place p with file := d.file }
    else
      { file := d.file
        line := d.line + (f.line p - first)
        column := d.column.elim 0 fun column =>
          if f.line p = first then column + (f.offset p - d.offset) else (f.place p).column }

/-- Whether the last comment above the package clause silences the whole file. -/
def suppressed (f : SourceFile) : Bool :=
  match ((f.tree.bind (·.child? .doc)).bind fun doc => doc.children.getLast?) with
  | some comment => NoLint.suppresses comment.facts.text
  | none => false

/-- The comments that the comment groups start with. -/
def groupHeads (f : SourceFile) : List Comment := f.comments.filterMap List.head?

/-- The comment that the next group at or after a position starts with, searched among groups in order. -/
def nextHead? (f : SourceFile) (p : Pos) : Option Comment :=
  f.groupHeads[lowerBound (fun i => f.groupHeads[i]?.any (·.pos < p)) 0 f.groupHeads.length]?

/-- Whether the next comment group at or after a position starts on its line, with a comment that silences it. -/
def suppressedAt (f : SourceFile) (p : Pos) : Bool :=
  match f.nextHead? p with
  | some comment => f.line comment.pos = f.line p && NoLint.suppresses comment.text
  | none => false

end SourceFile

def fileAt? (files : List SourceFile) (p : Pos) : Option SourceFile :=
  if p = 0 then none else files.find? (·.holds p)

def locate (files : List SourceFile) (p : Pos) : Location :=
  (fileAt? files p).elim Location.unknown (·.locate p)

end NilFlow
