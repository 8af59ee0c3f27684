import NilFlow.Text.Lowercase

/-!
# Suppressing comments

A line comment `// nolint:a,b` asks the named linters to stay silent.

* `directiveList?`: the list of a suppressing comment.
* `suppresses`: whether a comment's list names this linter or all linters.
-/

namespace NilFlow

def linterName : String := "nilopt"

namespace NoLint

/-- The blanks allowed before the directive word. -/
def blank (c : Char) : Bool := c = ' ' || c = '\t' || c = '\n' || c = '\x0c' || c = '\r'

def listChar (c : Char) : Bool := c.isAlphanum || c = ',' || c = '_' || c = '-'

def after? : List Char → List Char → Option (List Char)
  | [], t => some t
  | _ :: _, [] => none
  | w :: ws, c :: t => if w = c then after? ws t else none

/-- The linter list of a comment: a line comment that starts with the directive word and a non-empty list. -/
def directiveList? (comment : String) : Option (List Char) :=
  match after? ['/', '/'] comment.toList with
  | none => none
  | some t =>
    match after? "nolint:".toList (t.dropWhile blank) with
    | none => none
    | some l =>
      let list := l.takeWhile listChar
      if list.isEmpty then none else some list

def items (list : List Char) : List String := (list.splitOn ',').map String.ofList

def suppresses (comment : String) : Bool :=
  match directiveList? comment with
  | none => false
  | some list => (items list).any fun l => lowercase l = linterName || lowercase l = "all"

end NoLint

end NilFlow
