/-!
# Comma-separated values

* `Csv.record`: the fields of the first record of a text. A field may be quoted, and a quote inside is written twice.
* `CsvError`: what is wrong with a record.
-/

namespace NilFlow

/-- What is wrong with a record: where it starts, and where the fault is found, columns counted in bytes. -/
inductive CsvError where
  | noRecord
  /-- A quote within a field that does not start with one. -/
  | bareQuote (start line column : Nat)
  /-- A quoted field that is not closed, or not followed by a comma. -/
  | badQuote (start line column : Nat)
deriving DecidableEq, Repr

namespace CsvError

def place (start line column : Nat) : String :=
  (if start = line then "" else "record on line " ++ start.repr ++ "; ") ++
    "parse error on line " ++ line.repr ++ ", column " ++ column.repr ++ ": "

def message : CsvError → String
  | noRecord => "EOF"
  | bareQuote start line column => place start line column ++ "bare \" in non-quoted field"
  | badQuote start line column => place start line column ++ "extraneous or missing \" in quoted-field"

end CsvError

namespace Csv

inductive State where
  | start
  | plain
  | quoted
  /-- Behind a quote in a quoted field. -/
  | closed
deriving DecidableEq, Repr

/-- Reads the fields of a record; the characters of the field so far are held last first. -/
def fields (start : Nat) : State → List Char → Nat → Nat → List Char → Except CsvError (List String)
  | .quoted, [], line, column, _ => .error (.badQuote start line column)
  | _, [], _, _, done => .ok [String.ofList done.reverse]
  | .start, c :: rest, line, column, done =>
    if c = '"' then fields start .quoted rest line (column + 1) done
    else if c = ',' then
      (fields start .start rest line (column + 1) []).map (String.ofList done.reverse :: ·)
    else if c = '\n' then .ok [String.ofList done.reverse]
    else fields start .plain rest line (column + c.utf8Size) (c :: done)
  | .plain, c :: rest, line, column, done =>
    if c = '"' then .error (.bareQuote start line column)
    else if c = ',' then
      (fields start .start rest line (column + 1) []).map (String.ofList done.reverse :: ·)
    else if c = '\n' then .ok [String.ofList done.reverse]
    else fields start .plain rest line (column + c.utf8Size) (c :: done)
  | .quoted, c :: rest, line, column, done =>
    if c = '"' then fields start .closed rest line (column + 1) done
    else if c = '\n' && !rest.isEmpty then fields start .quoted rest (line + 1) 1 (c :: done)
    else fields start .quoted rest line (column + c.utf8Size) (c :: done)
  | .closed, c :: rest, line, column, done =>
    if c = '"' then fields start .quoted rest line (column + 1) (c :: done)
    else if c = ',' then
      (fields start .start rest line (column + 1) []).map (String.ofList done.reverse :: ·)
    else if c = '\n' then .ok [String.ofList done.reverse]
    else .error (.badQuote start line (column - 1))

/-- A text with line ends of two characters written as one, and none of the two at its end. -/
def unifyLines : List Char → List Char
  | ['\r'] => []
  | '\r' :: '\n' :: rest => '\n' :: unifyLines rest
  | c :: rest => c :: unifyLines rest
  | [] => []

/-- The fields of the first record of a text; empty lines before it are skipped. -/
def record (text : String) : Except CsvError (List String) :=
  let chars := unifyLines text.toList
  let blank := (chars.takeWhile (· = '\n')).length
  match chars.drop blank with
  | [] => .error .noRecord
  | chars => fields (blank + 1) .start chars (blank + 1) 1 []

end Csv

end NilFlow
