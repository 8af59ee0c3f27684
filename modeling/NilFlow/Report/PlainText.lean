import NilFlow.Report.Basic

/-!
# Reports as text

* `Report.squared`: a text as a block of equally wide lines.
* `Report.text`: a report for people, one line for every group, element and finding.
-/

namespace NilFlow

namespace Report

/-! ## Setting texts -/

/-- A text on a terminal: a tab is as wide as four blanks. -/
def widenTabs (s : String) : String :=
  String.ofList (s.toList.flatMap fun c => if c = '\t' then [' ', ' ', ' ', ' '] else [c])

/-- The characters that take two columns: those of East Asian scripts, and pictures. -/
def wideRanges : List (Nat × Nat) :=
  [(0x1100, 0x115f), (0x2e80, 0xa4cf), (0xac00, 0xd7a3), (0xf900, 0xfaff), (0xfe30, 0xfe6f), (0xff00, 0xff60),
    (0xffe0, 0xffe6), (0x1f300, 0x1faff), (0x20000, 0x3fffd)]

/-- The number of columns that a character takes. Control characters and accents take none. -/
def columns (c : Char) : Nat :=
  let n := c.toNat
  if n < 0x20 || n = 0x7f || (0x300 ≤ n && n ≤ 0x36f) then 0
  else if wideRanges.any fun (first, last) => first ≤ n && n ≤ last then 2
  else 1

def lineWidth (line : String) : Nat := line.toList.foldl (fun n c => n + columns c) 0

/-- A text as a block: all its lines are filled up with blanks to the width of the widest. -/
def squared (s : String) : String :=
  let lines := (s.replace "\r\n" "\n").splitOn "\n"
  let width := (lines.map lineWidth).foldl max 0
  "\n".intercalate (lines.map fun l => l ++ String.ofList (List.replicate (width - lineWidth l) ' '))

/-- A text set in a style, of which nothing shows away from a terminal but that the text is a block; or set in none. -/
def setText (styled : Bool) (s : String) : String := if styled then squared (widenTabs s) else widenTabs s

/-! ## Lines -/

/-- File, line and column; a dash without a file. -/
def placeText (l : Location) : String :=
  if l.file.isEmpty then "-" else l.file ++ ":" ++ l.line.repr ++ ":" ++ l.column.repr

def Element.line (styled : Bool) (e : Element) : String :=
  "  " ++ widenTabs e.description ++ (if e.implicit then " (implicit)" else "") ++ "  " ++
    setText styled (placeText e.position) ++ "\n"

def Entry.line (styled : Bool) (e : Entry) : String :=
  "  " ++ e.severity ++ " " ++ e.message ++ " (" ++ e.code ++ ")" ++
    e.position.elim "" (fun l => "  " ++ setText styled (placeText l)) ++ "\n"

/-- The lines of a group with its number. -/
def Group.lines (styled : Bool) (g : Group) (number : Nat) : List String :=
  ("Group " ++ number.repr ++ " " ++ g.severity ++ " " ++ setText styled g.id ++ "\n") ::
    (g.elementList.map (Element.line styled) ++ g.status.map (Entry.line styled))

def ruledOutLines (styled : Bool) (r : Report) : List String :=
  if r.ruledOut.isEmpty then [] else "Not refactorable\n" :: r.ruledOut.map (Element.line styled)

/-- The lines about the findings, also written for an incomplete report without findings. -/
def statusLines (styled : Bool) (r : Report) : List String :=
  if r.status.isEmpty && r.complete then []
  else ("Status " ++ r.severity ++ "\n") :: r.status.map (Entry.line styled)

/-- A report as text, set in styles or without them. -/
def text (r : Report) (styled : Bool) : String :=
  "".intercalate
    (r.groupList.zipIdx.flatMap (fun (g, i) => g.lines styled (i + 1)) ++ r.ruledOutLines styled ++
      r.statusLines styled ++ if r.complete then [] else ["fatal harvest incomplete\n"])

end Report

end NilFlow
