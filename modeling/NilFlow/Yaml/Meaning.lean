import NilFlow.Text.Base64
import NilFlow.Text.Utf8
import NilFlow.Yaml.Source

/-!
# What scalars mean

A plain text in YAML can be a null, a truth value, a number or a date as well as a string, and a tag can ask for one of
them.

* `integer?`, `float?`, `isTimestamp`: the written forms of numbers and dates.
* `Meaning`: what a scalar stands for, as far as settings care; `Meaning.ofPlain` decides it for a plain text and
  `Meaning.ofTagged` for a text under a tag.
* `shortTag`: a tag in its usual form.
-/

namespace NilFlow.Yaml

/-! ## Numbers -/

/-- The value of digits in a base, when there are any and all of them belong to it. -/
def digitsValue? (base : Nat) (digits : List Char) : Option Nat :=
  let value (c : Char) : Nat :=
    if c.isDigit then c.toNat - '0'.toNat else if c.isAlpha then c.toLower.toNat - 'a'.toNat + 10 else base
  if digits.isEmpty || digits.any (base ≤ value ·) then none else some (digits.foldl (fun n c => base * n + value c) 0)

/-- The value of an unsigned whole number in the usual notations: a leading zero tells the base. -/
def wholeValue? : List Char → Option Nat
  | '0' :: b :: rest =>
    if b = 'x' || b = 'X' then digitsValue? 16 rest
    else if b = 'b' || b = 'B' then digitsValue? 2 rest
    else if b = 'o' || b = 'O' then digitsValue? 8 rest
    else digitsValue? 8 (b :: rest)
  | digits => digitsValue? 10 digits

/-- Whole numbers of 64 bits, with a sign or without. -/
inductive Whole where
  | signed
  /-- A number too great for a sign. -/
  | unsigned
deriving DecidableEq, Repr

def signedWhole? (negative : Bool) (value : Option Nat) : Option Whole :=
  if value.any fun n => n < 0x8000000000000000 || (negative && n = 0x8000000000000000) then some .signed else none

/-- The kind of a whole number in the usual notations. Behind the small letters for bases two and eight, a number may
have its sign. -/
def integer? : List Char → Option Whole
  | '-' :: rest => signedWhole? true (wholeValue? rest)
  | '+' :: rest => signedWhole? false (wholeValue? rest)
  | '0' :: 'b' :: '-' :: rest => signedWhole? true (digitsValue? 2 rest)
  | '0' :: 'b' :: '+' :: rest => signedWhole? false (digitsValue? 2 rest)
  | '0' :: 'o' :: '-' :: rest => signedWhole? true (digitsValue? 8 rest)
  | '0' :: 'o' :: '+' :: rest => signedWhole? false (digitsValue? 8 rest)
  | cs =>
    match wholeValue? cs with
    | some n =>
      if n < 0x8000000000000000 then some .signed else if n < 0x10000000000000000 then some .unsigned else none
    | none => none

/-! ### Fractions -/

/-- A decimal number: a whole number times a power of ten. -/
structure Decimal where
  mantissa : Nat
  exponent : Int
deriving DecidableEq, Repr

namespace Decimal

/-- The least number that is too great for 64 bits with a binary point: halfway to the next power of two. -/
def bound : Nat := (1 <<< 1024) - (1 <<< 970)

/-- Whether a number is below the bound. The number of its digits mostly tells. -/
def inRange (d : Decimal) : Bool :=
  let size := (Nat.toDigits 10 d.mantissa).length + d.exponent
  d.mantissa = 0 || size < 300 ||
    (size < 320 && d.mantissa * Nat.pow 10 d.exponent.toNat < bound * Nat.pow 10 (-d.exponent).toNat)

end Decimal

def withoutSign : List Char → List Char
  | '+' :: rest | '-' :: rest => rest
  | cs => cs

/-- The exponent that a text is, which may be left out. -/
def exponent? : List Char → Option Int
  | [] => some 0
  | e :: rest =>
    if e = 'e' || e = 'E' then
      (digitsValue? 10 (withoutSign rest)).map fun n => if rest.head? = some '-' then -(n : Int) else n
    else none

/-- The decimal number with an optional fraction and exponent that a text is, without its sign. -/
def decimal? (cs : List Char) : Option Decimal :=
  let cs := withoutSign cs
  let whole := cs.takeWhile Char.isDigit
  let (fraction, tail) := match cs.dropWhile Char.isDigit with
    | '.' :: rest => (rest.takeWhile Char.isDigit, rest.dropWhile Char.isDigit)
    | rest => ([], rest)
  match digitsValue? 10 (whole ++ fraction), exponent? tail with
  | some mantissa, some exponent => some ⟨mantissa, exponent - fraction.length⟩
  | _, _ => none

/-- Whether a text is a number with a fraction or exponent that is not too great. -/
def isFloat (cs : List Char) : Bool := (decimal? cs).any Decimal.inRange

/-- Whether underscores stand only between digits; `digit` tells whether one stands before the text. -/
def underscoresFit (digit : Bool) : List Char → Bool
  | [] => true
  | c :: rest =>
    (c ≠ '_' || (digit && rest.head?.any Char.isDigit)) && underscoresFit c.isDigit rest

/-! ## Dates -/

/-- A number of one or two digits at the start of a text, and the rest. -/
def shortNumber? : List Char → Option (Nat × List Char)
  | a :: b :: rest =>
    if a.isDigit && b.isDigit then some (10 * (a.toNat - '0'.toNat) + (b.toNat - '0'.toNat), rest)
    else if a.isDigit then some (a.toNat - '0'.toNat, b :: rest)
    else none
  | [a] => if a.isDigit then some (a.toNat - '0'.toNat, []) else none
  | [] => none

/-- What follows a character at the start of a text. -/
def after? (c : Char) : List Char → Option (List Char)
  | d :: rest => if c = d then some rest else none
  | [] => none

def daysIn (year month : Nat) : Nat :=
  if month = 2 then (if year % 4 = 0 && (year % 100 ≠ 0 || year % 400 = 0) then 29 else 28)
  else if [4, 6, 9, 11].contains month then 30
  else 31

def afterDate? (cs : List Char) : Option (List Char) := do
  let year ← digitsValue? 10 (cs.takeWhile Char.isDigit)
  guard ((cs.takeWhile Char.isDigit).length = 4)
  let rest ← after? '-' (cs.dropWhile Char.isDigit)
  let (month, rest) ← shortNumber? rest
  let rest ← after? '-' rest
  let (day, rest) ← shortNumber? rest
  guard (1 ≤ month && month ≤ 12 && 1 ≤ day && day ≤ daysIn year month)
  return rest

/-- What follows a fraction of a second at the start of a text, which may be missing. -/
def afterFraction : List Char → List Char
  | p :: d :: rest => if (p = '.' || p = ',') && d.isDigit then rest.dropWhile Char.isDigit else p :: d :: rest
  | cs => cs

def afterTime? (cs : List Char) : Option (List Char) := do
  let (hour, rest) ← shortNumber? cs
  let rest ← after? ':' rest
  let (minute, rest) ← shortNumber? rest
  let rest ← after? ':' rest
  let (second, rest) ← shortNumber? rest
  guard (hour < 24 && minute < 60 && second < 60)
  return afterFraction rest

/-- Whether a text is the name of a time zone: a letter, or an offset of at most 24 hours and 60 minutes. -/
def isZone : List Char → Bool
  | ['Z'] => true
  | [s, a, b, ':', c, d] =>
    (s = '+' || s = '-') && (digitsValue? 10 [a, b]).any (· ≤ 24) && (digitsValue? 10 [c, d]).any (· ≤ 60)
  | _ => false

/-- Whether a text is a date, or a date and a time of day: with a zone behind a letter, without one behind blanks. -/
def isTimestamp (cs : List Char) : Bool :=
  match afterDate? cs with
  | none => false
  | some [] => true
  | some (t :: rest) =>
    if t = ' ' then (afterTime? (rest.dropWhile (· = ' '))).any List.isEmpty
    else (t = 'T' || t = 't') && (afterTime? rest).any isZone

/-! ## Meanings -/

inductive Meaning where
  | null
  | bool (b : Bool)
  | integer (kind : Whole)
  | float
  | timestamp
  | text (s : String)
deriving DecidableEq, Repr

def textTag : String := "!!str"

def binaryTag : String := "!!binary"

def mergeTag : String := "!!merge"

namespace Meaning

def tag : Meaning → String
  | null => "!!null"
  | bool _ => "!!bool"
  | integer _ => "!!int"
  | float => "!!float"
  | timestamp => "!!timestamp"
  | text _ => textTag

def tags : List String := ["!!null", "!!bool", "!!int", "!!float", "!!timestamp"]

/-- The words with a meaning of their own. -/
def ofWord? (s : String) : Option Meaning :=
  if ["true", "True", "TRUE"].contains s then some (bool true)
  else if ["false", "False", "FALSE"].contains s then some (bool false)
  else if ["", "~", "null", "Null", "NULL"].contains s then some null
  else if [".nan", ".NaN", ".NAN", ".inf", ".Inf", ".INF", "+.inf", "+.Inf", "+.INF", "-.inf", "-.Inf",
    "-.INF"].contains s then some float
  else none

/-- What a text that starts with a digit or a sign stands for. Underscores do not count in numbers, and dates are looked
for only where they may stand. -/
def ofNumeral (dates : Bool) (s : String) : Meaning :=
  let digits := s.toList.filter (· ≠ '_')
  if dates && isTimestamp s.toList then timestamp
  else match integer? digits with
    | some kind => integer kind
    | none => if isFloat digits then float else text s

def ofText (dates : Bool) (s : String) : Meaning :=
  match ofWord? s with
  | some m => m
  | none =>
    match s.toList with
    | [] => null
    | c :: rest =>
      if c = '.' then
        if underscoresFit false (c :: rest) && isFloat ((c :: rest).filter (· ≠ '_')) then float else text s
      else if c.isDigit || c = '+' || c = '-' then ofNumeral dates s
      else text s

def ofPlain (s : String) : Meaning := ofText true s

def ofBinary (s : String) : Except SyntaxError Meaning :=
  match base64Decode? s with
  | some bytes => .ok (text (String.ofList (decodeUtf8 bytes)))
  | none => .error (.general "!!binary value contains invalid base64 data")

/-- What a text under a tag stands for. A tag for one of the meanings has to fit, and whole numbers with a sign may be
read as floats; under all other tags a text is a string. -/
def ofTagged (tag s : String) : Except SyntaxError Meaning :=
  if tag = binaryTag then ofBinary s
  else if !tags.contains tag then .ok (text s)
  else
    let m := ofText (tag = timestamp.tag) s
    if m.tag = tag then .ok m
    else if tag = float.tag && m = integer .signed then .ok float
    else .error (.general ("cannot decode " ++ m.tag ++ " \x60" ++ s ++ "\x60 as a " ++ tag))

end Meaning

def coreLead : String := "tag:yaml.org,2002:"

/-- A tag with the format's own lead written as two exclamation marks. -/
def shortTag (tag : String) : String :=
  if coreLead.toList.isPrefixOf tag.toList then "!!" ++ String.ofList (tag.toList.drop coreLead.length) else tag

end NilFlow.Yaml
