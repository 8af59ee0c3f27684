import NilFlow.Text.Quoted
import NilFlow.Yaml.Node

/-!
# YAML mappings as records

What reading a document into a record of known shape needs: aliases are followed, merged mappings are laid under the
mapping that merges them, and what does not fit is complained about without ending the reading.

* `Complaint`: what does not fit, `Complaint.text` its wording.
* `Reader`: reading with complaints, which also guards against texts that unfold without end.
* `Reader.follow`: the node that a node stands for.
* `Reader.text?`, `Reader.switch?`: texts and switches.
* `Shape`: how the fields of a mapping are taken in; `Reader.mapping` reads them with those that are merged in, and
  `Reader.record` reads records.
-/

namespace NilFlow.Yaml

/-! ## Complaints -/

/-- What does not fit the shape that is read. -/
inductive Complaint where
  /-- A value of the wrong kind for a target. -/
  | mismatch (line : Nat) (tag value target : String)
  | unknownField (line : Nat) (name target : String)
  | repeatedField (line : Nat) (name target : String)
  | repeatedKey (line : Nat) (key : String) (firstLine : Nat)
deriving DecidableEq, Repr

namespace Complaint

/-- The first bytes of a text; a character cut in the middle leaves replacement characters. -/
def firstBytes : Nat → List Char → List Char
  | _, [] => []
  | n, c :: rest => if c.utf8Size ≤ n then c :: firstBytes (n - c.utf8Size) rest else List.replicate n '\ufffd'

/-- A value as complaints show it: long ones are cut. -/
def shown (value : String) : String :=
  if value.utf8ByteSize ≤ 10 then value else String.ofList (firstBytes 7 value.toList) ++ "..."

def text : Complaint → String
  | mismatch line tag value target =>
    let value := if tag = "!!seq" || tag = "!!map" then value else " \x60" ++ shown value ++ "\x60"
    "line " ++ line.repr ++ ": cannot unmarshal " ++ tag ++ value ++ " into " ++ target
  | unknownField line name target =>
    "line " ++ line.repr ++ ": field " ++ name ++ " not found in type " ++ target
  | repeatedField line name target =>
    "line " ++ line.repr ++ ": field " ++ name ++ " already set in type " ++ target
  | repeatedKey line key firstLine =>
    "line " ++ line.repr ++ ": mapping key " ++ quoted key ++ " already defined at line " ++ firstLine.repr

end Complaint

/-! ## Keys -/

namespace Node

/-- The text by which keys are told apart; collections have none. -/
def keyText : Node → String
  | scalar _ _ text => text
  | reference _ name _ _ => name
  | sequence _ _ _ | mapping _ _ _ => ""

/-- Whether two keys are the same: of the same kind and text. -/
def sameKey : Node → Node → Bool
  | scalar _ _ s, scalar _ _ t => s = t
  | reference _ s _ _, reference _ t _ _ => s = t
  | sequence _ _ _, sequence _ _ _ => true
  | mapping _ _ _, mapping _ _ _ => true
  | _, _ => false

/-- Whether a key merges the mapping it stands before. -/
def isMerge : Node → Bool
  | scalar _ tag text => tag = mergeTag && text = "<<"
  | _ => false

/-- The tag of a node; aliases have none of their own. -/
def tag : Node → String
  | scalar _ tag _ | sequence _ tag _ | mapping _ tag _ => tag
  | reference _ _ _ _ => ""

end Node

def clashes : List (Node × Node) → List Complaint
  | [] => []
  | (k, _) :: rest =>
    (rest.filter fun p => k.sameKey p.1).map (fun p => .repeatedKey p.1.line p.1.keyText k.line) ++ clashes rest

/-! ## Reading -/

/-- What reading has done so far: its complaints, last first, how many nodes it visited, and how many of them inside
aliases. -/
structure Progress where
  complaints : List Complaint
  visits : Nat
  aliased : Nat

namespace Progress

def start : Progress := ⟨[], 0, 0⟩

/-- Whether too many visits are due to aliases. Small documents may be nearly all aliases, large ones a tenth, and in
between the share shrinks evenly. -/
def excessive (p : Progress) : Bool :=
  100 < p.aliased && 1000 < p.visits &&
    if p.visits ≤ 400000 then 99 * p.visits < 100 * p.aliased
    else if 4000000 ≤ p.visits then p.visits < 10 * p.aliased
    else (99 * 3600000 - 89 * (p.visits - 400000)) * p.visits < 360000000 * p.aliased

end Progress

/-- Reading a document into a record. -/
abbrev Reader := StateT Progress (Except SyntaxError)

/-- A pair of a mapping, with the aliases that led to it. -/
structure Field where
  key : Node
  value : Node
  via : List Nat

def badMerge : SyntaxError := .general "map merge requires map or sequence of maps as the value"

def Document.namesMapping (d : Document) : Node → Bool
  | .mapping _ _ _ => true
  | .reference _ _ _ target =>
    match d.anchored.lookup target with
    | some (.mapping _ _ _) => true
    | some _ => false
    | none => true
  | _ => false

/-- The tag of a node, or of what it is an alias of. -/
def Document.tagOf (d : Document) : Node → String
  | .reference _ _ _ target => ((d.anchored.lookup target).map Node.tag).getD ""
  | n => n.tag

/-- A bound on the length of chains of merges: a chain passes each alias at most once and goes deeper in between. -/
def Document.chainBound (d : Document) : Nat := (d.aliases + 1) * (d.depth + 1)

namespace Reader

def complain (cs : List Complaint) : Reader Unit := modify fun p => { p with complaints := cs.reverse ++ p.complaints }

/-- Counts a visit to a node that some aliases led to. -/
def visit (via : List Nat) : Reader Unit := do
  let p ← get
  let p := { p with visits := p.visits + 1, aliased := if via.isEmpty then p.aliased else p.aliased + 1 }
  set p
  if p.excessive then throw (.general "document contains excessive aliasing")

/-- Visits the node that a node stands for, with the aliases that led to it. An alias must not lead to itself. -/
def follow (d : Document) (via : List Nat) (n : Node) : Reader (Node × List Nat) := do
  visit via
  match n with
  | .reference _ name number target =>
    if via.contains number then throw (.general ("anchor '" ++ name ++ "' value contains itself"))
    match d.anchored.lookup target with
    | some n =>
      visit (number :: via)
      return (n, number :: via)
    | none => throw (.general ("anchor '" ++ name ++ "' value contains itself"))
  | n => return (n, via)

def misfit (n : Node) (target : String) : List Complaint :=
  match n with
  | .mapping line tag pairs => if (clashes pairs).isEmpty then [.mismatch line tag "" target] else clashes pairs
  | .sequence line tag _ => [.mismatch line tag "" target]
  | .scalar line tag text => [.mismatch line tag text target]
  | .reference line _ _ _ => [.mismatch line "" "" target]

inductive TextRead where
  | null
  | text (s : String)
  | unfit

/-- Reads a text: any scalar but a null is one. -/
def text? (d : Document) (via : List Nat) (n : Node) : Reader TextRead := do
  match ← follow d via n with
  | (.scalar _ tag text, _) =>
    match ← Meaning.ofTagged tag text with
    | .null => return .null
    | .text s => return .text s
    | _ => return .text text
  | (n, _) =>
    complain (misfit n "string")
    return .unfit

def truthOf? (word : String) : Option Bool :=
  if ["y", "Y", "yes", "Yes", "YES", "on", "On", "ON"].contains word then some true
  else if ["n", "N", "no", "No", "NO", "off", "Off", "OFF"].contains word then some false
  else none

/-- Reads a switch; a null leaves it open. -/
def switch? (d : Document) (via : List Nat) (n : Node) : Reader (Option Bool) := do
  match ← follow d via n with
  | (n@(.scalar _ tag text), _) =>
    match ← Meaning.ofTagged tag text with
    | .null => return none
    | .bool b => return some b
    | .text s =>
      match truthOf? s with
      | some b => return some b
      | none =>
        complain (misfit n "bool")
        return none
    | _ =>
      complain (misfit n "bool")
      return none
  | (n, _) =>
    complain (misfit n (if n.tag = Meaning.null.tag then "*bool" else "bool"))
    return none

/-- The error of a collection where keys are told apart by their values. -/
def unhashable (type : String) : SyntaxError := .general ("runtime error: hash of unhashable type " ++ type)

def hasStringKeys (d : Document) (pairs : List (Node × Node)) : Bool :=
  pairs.all fun (k, _) => [textTag, mergeTag].contains (d.tagOf k)

/-- The keys of a mapping that are strings. None may be a collection. -/
def stringKeys (d : Document) (via : List Nat) : List (Node × Node) → Reader (List String)
  | [] => return []
  | (k, _) :: rest => do
    match ← follow d via k with
    | (.scalar _ tag text, _) =>
      match ← Meaning.ofTagged tag text with
      | .text s => return s :: (← stringKeys d via rest)
      | _ => stringKeys d via rest
    | (.mapping _ _ pairs, _) =>
      if (clashes pairs).isEmpty then
        throw (unhashable (if hasStringKeys d pairs then "map[string]interface \x7b\x7d"
          else "map[interface \x7b\x7d]interface \x7b\x7d"))
      complain (clashes pairs)
      stringKeys d via rest
    | _ => throw (unhashable "[]interface \x7b\x7d")

end Reader

/-! ## Mappings -/

/-- How a mapping is taken into a value: what its start changes, and how a field is read. -/
structure Shape (α : Type) where
  enter : α → α
  field : α → String → Field → Reader α

namespace Reader

/-- Reads the fields of a mapping in order, each with the text of its key. Names that are `taken` are passed over, and
those that are read join them; for a mapping that is not merged into another there is no such list. -/
def eachField {α : Type} (d : Document) (shape : Shape α) (via : List Nat) :
    List (Node × Node) → Option (List String) → α → Reader (α × Option (List String))
  | [], taken, a => return (a, taken)
  | (k, v) :: rest, taken, a => do
    if k.isMerge then eachField d shape via rest taken a
    else
      match ← text? d via k with
      | .text name =>
        if taken.any (·.contains name) then eachField d shape via rest taken a
        else
          let a ← shape.field a name ⟨k, v, via⟩
          eachField d shape via rest (taken.map (name :: ·)) a
      | _ => eachField d shape via rest taken a

/-- Reads a mapping: its own fields, then those of the mappings that its last merge names. A mapping with repeated keys
gives only complaints. -/
def mapping {α : Type} (d : Document) (shape : Shape α) (fuel : Nat) (pairs : List (Node × Node)) (via : List Nat)
    (taken : Option (List String)) (a : α) : Reader (α × Option (List String)) := do
  match fuel with
  | 0 => throw .overlong
  | fuel + 1 =>
    if !(clashes pairs).isEmpty then
      complain (clashes pairs)
      return (a, taken)
    else
      let (a, taken) ← eachField d shape via pairs taken (shape.enter a)
      match (pairs.filter (·.1.isMerge)).getLast? with
      | none => return (a, taken)
      | some (_, source) =>
        let names ← match taken with
          | some names => pure names
          | none => stringKeys d via pairs
        let merge (state : α × List String) (n : Node) : Reader (α × List String) := do
          if !d.namesMapping n then throw badMerge
          match ← follow d via n with
          | (.mapping _ _ pairs, via) =>
            let (a, names) ← mapping d shape fuel pairs via (some state.2) state.1
            return (a, names.getD state.2)
          | _ => throw badMerge
        let (a, names) ← match source with
          | .sequence _ _ items => items.foldlM merge (a, names)
          | n => merge (a, names) n
        return (a, taken.map fun _ => names)

/-- Reads what should be a mapping; a null has no fields. -/
def fields {α : Type} (d : Document) (via : List Nat) (n : Node) (target : String) (shape : Shape α) (a : α) :
    Reader α := do
  match ← follow d via n with
  | (.mapping _ _ pairs, via) => return (← mapping d shape d.chainBound pairs via none a).1
  | (n@(.scalar _ tag text), _) =>
    if (← Meaning.ofTagged tag text) ≠ .null then complain (misfit n target)
    return a
  | (n, _) =>
    complain (misfit n target)
    return a

/-- Reads a record from a mapping, noting the fields that were set; `set` refuses the names it does not know. -/
def record {α : Type} (d : Document) (via : List Nat) (n : Node) (target : String)
    (set : α → String → Field → Option (Reader α)) (a : α) : Reader α := do
  let field (state : α × List String) (name : String) (f : Field) : Reader (α × List String) := do
    match set state.1 name f with
    | none =>
      complain [.unknownField f.key.line name target]
      return state
    | some read =>
      if state.2.contains name then
        complain [.repeatedField f.key.line name target]
        return state
      else return (← read, name :: state.2)
  return (← fields d via n target ⟨fun state => (state.1, []), field⟩ (a, [])).1

end Reader

end NilFlow.Yaml
