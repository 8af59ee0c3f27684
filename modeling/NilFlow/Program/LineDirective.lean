import NilFlow.Text.Path

/-!
# Line directives

Comments that say which file and line the text behind them comes from.

* `Remark.ofText`: the comments of a text.
* `LineDirective`: the file, line and column that a comment names, and the offset from which on it holds.
* `LineDirective.ofText`: the directives of a file, in order.
-/

namespace NilFlow

/-- A comment: whether it is closed by a mark, not by the end of its line; whether it starts its line; its text between
the marks; and the offset behind it, or behind the end of its line. -/
structure Remark where
  closed : Bool
  leading : Bool
  text : List Char
  stop : Nat
deriving DecidableEq, Repr

namespace Remark

/-- Where in a text the reading is. -/
inductive State where
  | code (lineStart : Bool)
  /-- Behind a slash. -/
  | slash (lineStart : Bool)
  | literal (quote : Char)
  /-- Behind a backslash in a literal. -/
  | escape (quote : Char)
  /-- In a comment; the characters so far are held last first. -/
  | remark (closed leading : Bool) (done : List Char)
deriving DecidableEq, Repr

def State.behind (lineStart : Bool) (c : Char) : State :=
  if c = '/' then .slash lineStart
  else if c = '"' || c = '`' || c = '\'' then .literal c
  else .code (c = '\n')

/-- The comments of a text that is read from an offset on. -/
def read : State → Nat → List Char → List Remark
  | .remark false leading done, offset, [] => [⟨false, leading, done.reverse, offset⟩]
  | _, _, [] => []
  | .code lineStart, offset, c :: rest => read (.behind lineStart c) (offset + c.utf8Size) rest
  | .slash lineStart, offset, c :: rest =>
    if c = '/' then read (.remark false lineStart []) (offset + 1) rest
    else if c = '*' then read (.remark true lineStart []) (offset + 1) rest
    else read (.behind false c) (offset + c.utf8Size) rest
  | .literal quote, offset, c :: rest =>
    if c = quote then read (.code false) (offset + 1) rest
    else if c = '\\' && quote ≠ '`' then read (.escape quote) (offset + 1) rest
    else read (.literal quote) (offset + c.utf8Size) rest
  | .escape quote, offset, c :: rest => read (.literal quote) (offset + c.utf8Size) rest
  | .remark false leading done, offset, c :: rest =>
    if c = '\n' then ⟨false, leading, done.reverse, offset + 1⟩ :: read (.code true) (offset + 1) rest
    else read (.remark false leading (c :: done)) (offset + c.utf8Size) rest
  | .remark true leading done, offset, c :: rest =>
    if c = '/' && done.head? = some '*' then
      ⟨true, leading, done.tail.reverse, offset + 1⟩ :: read (.code false) (offset + 1) rest
    else read (.remark true leading (c :: done)) (offset + c.utf8Size) rest

def ofText (text : String) : List Remark := read (.code true) 0 text.toList

/-- What a comment says as a directive. One up to the end of the line counts only from the start of the line on, and
without the carriage return at its end. -/
def directive? (r : Remark) : Option (List Char) :=
  let text := if !r.closed && r.text.getLast? = some '\r' then r.text.dropLast else r.text
  if (r.closed || r.leading) && "line ".toList.isPrefixOf text then some (text.drop 5) else none

end Remark

/-- The file and line, and the column if there is one, that hold from an offset on. -/
structure LineDirective where
  offset : Nat
  file : String
  line : Int
  column : Option Int
deriving DecidableEq, Repr, Inhabited

namespace LineDirective

/-- An unsigned number of 64 bits, read as a signed one. -/
def number? (digits : List Char) : Option Int :=
  let n := Nat.ofDigitChars 10 digits 0
  if !digits.isEmpty && digits.all Char.isDigit && n < 1 <<< 64 then some (Int.bmod n (1 <<< 64)) else none

/-- What stands before the last colon of a text, and the number behind it. -/
def lastNumber? (text : List Char) : Option (List Char × Option Int) :=
  match text.reverse.dropWhile (· ≠ ':') with
  | [] => none
  | _ :: before => some (before.reverse, number? (text.reverse.takeWhile (· ≠ ':')).reverse)

/-- The file as it is written, the line and the column of a directive. Numbers are neither zero nor above a limit. -/
def parts? (text : List Char) : Option (String × Int × Option Int) := do
  let fits (n : Int) : Bool := n ≠ 0 && n ≤ (1 <<< 30 : Nat)
  let (before, last) ← lastNumber? text
  let last ← last
  match lastNumber? before with
  | some (file, some line) =>
    guard (fits line && fits last)
    return (String.ofList file, line, some last)
  | _ =>
    guard (fits last)
    return (String.ofList before, last, none)

/-- The file that a directive means: a relative one lies beside the file with the directive. Where a column is given, no
file is the file so far. -/
def fileOf (name soFar written : String) (column : Option Int) : String :=
  if written.isEmpty then (if column.isSome then soFar else "")
  else
    let path := Path.ofText written
    if path.rooted then path.text
    else
      let directory := (name.toList.reverse.dropWhile (· ≠ '/')).reverse
      (Path.ofText (String.ofList directory ++ path.text)).text

/-- The directives so far and the one of a comment; it has to lie behind the others, and before the end of the file. -/
def add (name : String) (size : Nat) (ds : List LineDirective) (r : Remark) : List LineDirective :=
  match r.directive?.bind parts? with
  | none => ds
  | some (written, line, column) =>
    let file := fileOf name (ds.getLast?.elim name (·.file)) written column
    if ds.getLast?.all (·.offset < r.stop) && r.stop < size then ds ++ [⟨r.stop, file, line, column⟩] else ds

def ofText (name text : String) : List LineDirective :=
  (Remark.ofText text).foldl (add name text.utf8ByteSize) []

end LineDirective

end NilFlow
