import NilFlow.Text.Quoted

/-!
# Log lines

* `LogLine`: a level, a message and attributes.
* `LogLine.text`: `key=value` pairs separated by blanks; what could be misread is quoted.
-/

namespace NilFlow

inductive LogLevel where
  | debug
  | info
deriving DecidableEq, Repr

namespace LogLevel

def name : LogLevel → String
  | debug => "DEBUG"
  | info => "INFO"

end LogLevel

/-- A line of a log. Attributes are written in order, below an optional group. -/
structure LogLine where
  level : LogLevel
  message : String
  group : String
  attributes : List (String × String)
deriving DecidableEq, Repr

namespace LogLine

/-- Whether a character of a value makes it necessary to quote the value. -/
def delicate (c : Char) : Bool :=
  if c.toNat < 0x80 then c.toNat < 0x20 || c = ' ' || c = '=' || c = '"'
  else c = '\ufffd' || !printable c

def needsQuotes (s : String) : Bool := s.isEmpty || s.toList.any delicate

def valueText (s : String) : String := if needsQuotes s then quoted s else s

/-- The written form of a key below a group, which ends in a point when there is one. -/
def keyText (group key : String) : String :=
  if group.isEmpty then valueText key
  else if needsQuotes group || needsQuotes key then quoted (group ++ key)
  else group ++ key

def text (l : LogLine) : String :=
  " ".intercalate
    (("level=" ++ l.level.name) :: ("msg=" ++ valueText l.message) ::
      l.attributes.map fun (k, v) => keyText l.group k ++ "=" ++ valueText v)

end LogLine

end NilFlow
