import NilFlow.Yaml.Meaning
import NilFlow.Yaml.Scanner

/-!
# YAML nodes

The tree of a YAML document.

* `Node`: scalars, sequences, mappings and aliases, with their lines and tags.
* `Document`: the root with the nodes that aliases refer to.
* `Document.ofText`: the first document of a text.
-/

namespace NilFlow.Yaml

/-- A node of a document. An alias has a number of its own and names the anchored node it stands for. -/
inductive Node where
  | scalar (line : Nat) (tag text : String)
  | sequence (line : Nat) (tag : String) (items : List Node)
  | mapping (line : Nat) (tag : String) (pairs : List (Node × Node))
  | reference (line : Nat) (name : String) (number target : Nat)
deriving Inhabited

/-- A document with the nodes that aliases may stand for, by their numbers, how many aliases there are, and a bound on
the depth of its nodes. -/
structure Document where
  root : Node
  anchored : List (Nat × Node)
  aliases : Nat
  depth : Nat

namespace Node

def line : Node → Nat
  | scalar l _ _ | sequence l _ _ | mapping l _ _ | reference l _ _ _ => l

/-- An empty node: a null at a place. -/
def empty (m : Mark) : Node := scalar (m.line + 1) Meaning.null.tag ""

/-- The tag of a scalar: the given one, else what its style or its text imply. -/
def scalarTag (given text : String) (style : ScalarStyle) : String :=
  if given ≠ "" && given ≠ "!" then shortTag given
  else match style with
    | .quoted => textTag
    | .plain => if text = "<<" then mergeTag else (Meaning.ofPlain text).tag

/-- The tag of a collection: the given one, else its own. -/
def collectionTag (given own : String) : String := if given ≠ "" && given ≠ "!" then shortTag given else own

end Node

/-! ## The state of reading nodes -/

/-- The scan of the tokens still to be read, the tag handles of the document, and the anchors and aliases met so far. -/
structure Reading where
  scanner : Scanner
  handles : List (String × String)
  names : List (String × Nat)
  anchors : Nat
  anchored : List (Nat × Node)
  aliases : Nat

/-- A step of reading nodes. -/
abbrev Reads := StateT Reading (Except SyntaxError)

/-- The tag handles that every document knows. -/
def standardHandles : List (String × String) := [("!", "!"), ("!!", coreLead)]

def next : Reads Token := do
  let s ← get
  let scanner ← s.scanner.ready
  set { s with scanner := scanner }
  match scanner.queue with
  | t :: _ => return t
  | [] => throw .overlong

def advance : Reads Unit := modify fun s => { s with scanner := s.scanner.advance }

/-- The token after the next, as the next. -/
def advanceTo : Reads Token := do
  advance
  next

/-- The anchor and tag before a node, with the place of the first of them. -/
structure Properties where
  anchor : Option String
  tag : String
  mark : Mark

def fullTag (began found : Mark) (handle rest : String) : Reads String := do
  if handle.isEmpty then return rest
  else match (← get).handles.lookup handle with
    | some lead => return lead ++ rest
    | none => throw (.arranging began found "found undefined tag handle")

/-- Reads the anchor and tag before a node, in any order. -/
def properties : Reads Properties := do
  let t ← next
  match t.kind with
  | .anchor name =>
    let u ← advanceTo
    match u.kind with
    | .tag handle rest =>
      let _ ← advanceTo
      return ⟨some name, ← fullTag t.mark u.mark handle rest, t.mark⟩
    | _ => return ⟨some name, "", t.mark⟩
  | .tag handle rest =>
    let u ← advanceTo
    match u.kind with
    | .anchor name =>
      let _ ← advanceTo
      return ⟨some name, ← fullTag t.mark t.mark handle rest, t.mark⟩
    | _ => return ⟨none, ← fullTag t.mark t.mark handle rest, t.mark⟩
  | _ => return ⟨none, "", t.mark⟩

/-- Gives a node's anchor its number, before the node is read. -/
def openAnchor (anchor : Option String) : Reads (Option Nat) := do
  match anchor with
  | none => return none
  | some name =>
    let s ← get
    set { s with names := (name, s.anchors) :: s.names, anchors := s.anchors + 1 }
    return some s.anchors

/-- Keeps an anchored node, after it was read. -/
def closeAnchor (number : Option Nat) (n : Node) : Reads Node := do
  match number with
  | none => return n
  | some i =>
    modify fun s => { s with anchored := (i, n) :: s.anchored }
    return n

/-- The alias node of a name, which an anchor before it has to define. -/
def aliasNode (m : Mark) (name : String) : Reads Node := do
  let s ← get
  match s.names.lookup name with
  | none => throw (.general ("unknown anchor '" ++ name ++ "' referenced"))
  | some target =>
    set { s with aliases := s.aliases + 1 }
    return .reference (m.line + 1) name s.aliases target

/-! ## Nodes -/

mutual

/-- Reads a node; `block` allows blocks, `indentless` a sequence whose dashes are not indented. -/
def node (fuel : Nat) (block indentless : Bool) : Reads Node := do
  match fuel with
  | 0 => throw .overlong
  | fuel + 1 =>
    let first ← next
    match first.kind with
    | .reference name =>
      advance
      aliasNode first.mark name
    | _ =>
      let p ← properties
      let t ← next
      let anchor ← openAnchor p.anchor
      let line := p.mark.line + 1
      let sequence (items : Reads (List Node)) : Reads Node := do
        closeAnchor anchor (.sequence line (Node.collectionTag p.tag "!!seq") (← items))
      let mapping (pairs : Reads (List (Node × Node))) : Reads Node := do
        closeAnchor anchor (.mapping line (Node.collectionTag p.tag "!!map") (← pairs))
      match t.kind with
      | .scalar text style =>
        advance
        closeAnchor anchor (.scalar line (Node.scalarTag p.tag text style) text)
      | .flowSequenceStart =>
        advance
        sequence (flowItems fuel t.mark [])
      | .flowMappingStart =>
        advance
        mapping (flowPairs fuel t.mark [])
      | kind =>
        if indentless && kind = .blockEntry then sequence (looseItems fuel [])
        else if block && kind = .blockSequenceStart then
          advance
          sequence (blockItems fuel t.mark [])
        else if block && kind = .blockMappingStart then
          advance
          mapping (blockPairs fuel t.mark [])
        else if p.anchor.isSome || !p.tag.isEmpty then
          closeAnchor anchor (.scalar line (Node.scalarTag p.tag "" .plain) "")
        else throw (.arranging p.mark t.mark "did not find expected node content")

/-- Reads the items of an indented sequence. Those so far are held last first, here and below. -/
def blockItems (fuel : Nat) (began : Mark) (done : List Node) : Reads (List Node) := do
  match fuel with
  | 0 => throw .overlong
  | fuel + 1 =>
    let t ← next
    match t.kind with
    | .blockEntry =>
      let u ← advanceTo
      let item ← if [.blockEntry, .blockEnd].contains u.kind then pure (.empty t.mark) else node fuel true false
      blockItems fuel began (item :: done)
    | .blockEnd =>
      advance
      return done.reverse
    | _ => throw (.arranging began t.mark "did not find expected '-' indicator")

/-- Reads the items of a sequence that is not indented further than its key. -/
def looseItems (fuel : Nat) (done : List Node) : Reads (List Node) := do
  match fuel with
  | 0 => throw .overlong
  | fuel + 1 =>
    let t ← next
    match t.kind with
    | .blockEntry =>
      let u ← advanceTo
      let item ←
        if [.blockEntry, .key, .value, .blockEnd].contains u.kind then pure (.empty t.mark) else node fuel true false
      looseItems fuel (item :: done)
    | _ => return done.reverse

def blockPairs (fuel : Nat) (began : Mark) (done : List (Node × Node)) : Reads (List (Node × Node)) := do
  match fuel with
  | 0 => throw .overlong
  | fuel + 1 =>
    let t ← next
    match t.kind with
    | .key =>
      let u ← advanceTo
      let key ← if [.key, .value, .blockEnd].contains u.kind then pure (.empty t.mark) else node fuel true true
      let value ← blockValue fuel
      blockPairs fuel began ((key, value) :: done)
    | .blockEnd =>
      advance
      return done.reverse
    | _ => throw (.arranging began t.mark "did not find expected key")

def blockValue (fuel : Nat) : Reads Node := do
  match fuel with
  | 0 => throw .overlong
  | fuel + 1 =>
    let t ← next
    match t.kind with
    | .value =>
      let u ← advanceTo
      if [.key, .value, .blockEnd].contains u.kind then return .empty t.mark else node fuel true true
    | _ => return .empty t.mark

/-- Reads the items of a bracketed sequence. A pair may stand for a mapping with nothing else. -/
def flowItems (fuel : Nat) (began : Mark) (done : List Node) : Reads (List Node) := do
  match fuel with
  | 0 => throw .overlong
  | fuel + 1 =>
    let t ← next
    let t ←
      if done.isEmpty || t.kind = .flowSequenceEnd then pure t
      else if t.kind = .flowEntry then advanceTo
      else throw (.arranging began t.mark "did not find expected ',' or ']'")
    match t.kind with
    | .flowSequenceEnd =>
      advance
      return done.reverse
    | .key =>
      advance
      let pair ← singlePair fuel
      flowItems fuel began (.mapping (t.mark.line + 1) "!!map" [pair] :: done)
    | _ =>
      let item ← node fuel false false
      flowItems fuel began (item :: done)

def singlePair (fuel : Nat) : Reads (Node × Node) := do
  match fuel with
  | 0 => throw .overlong
  | fuel + 1 =>
    let t ← next
    let key ←
      if [.value, .flowEntry, .flowSequenceEnd].contains t.kind then do
        advance
        pure (.empty t.mark)
      else node fuel false false
    let u ← next
    if u.kind = .value then
      let w ← advanceTo
      if [.flowEntry, .flowSequenceEnd].contains w.kind then return (key, .empty w.mark)
      else return (key, ← node fuel false false)
    else return (key, .empty u.mark)

/-- Reads the pairs of a bracketed mapping. A key may come without a value. -/
def flowPairs (fuel : Nat) (began : Mark) (done : List (Node × Node)) : Reads (List (Node × Node)) := do
  match fuel with
  | 0 => throw .overlong
  | fuel + 1 =>
    let t ← next
    let t ←
      if done.isEmpty || t.kind = .flowMappingEnd then pure t
      else if t.kind = .flowEntry then advanceTo
      else throw (.arranging began t.mark "did not find expected ',' or '\x7d'")
    match t.kind with
    | .flowMappingEnd =>
      advance
      return done.reverse
    | .key =>
      let u ← advanceTo
      let key ←
        if [.value, .flowEntry, .flowMappingEnd].contains u.kind then pure (.empty u.mark) else node fuel false false
      let value ← flowValue fuel
      flowPairs fuel began ((key, value) :: done)
    | _ =>
      let key ← node fuel false false
      let u ← next
      flowPairs fuel began ((key, .empty u.mark) :: done)

def flowValue (fuel : Nat) : Reads Node := do
  match fuel with
  | 0 => throw .overlong
  | fuel + 1 =>
    let t ← next
    if t.kind = .value then
      let u ← advanceTo
      if [.flowEntry, .flowMappingEnd].contains u.kind then return .empty u.mark else node fuel false false
    else return .empty t.mark

end

/-! ## Documents -/

def directives (fuel : Nat) (versioned : Bool) (tags : List (String × String)) : Reads Unit := do
  match fuel with
  | 0 => throw .overlong
  | fuel + 1 =>
    let t ← next
    match t.kind with
    | .version major minor =>
      if versioned then throw (.arranging .start t.mark "found duplicate %YAML directive")
      else if major ≠ 1 || minor ≠ 1 then throw (.arranging .start t.mark "found incompatible YAML document")
      else
        advance
        directives fuel true tags
    | .tagDirective handle lead =>
      if tags.any (·.1 = handle) then throw (.arranging .start t.mark "found duplicate %TAG directive")
      else
        advance
        directives fuel versioned ((handle, lead) :: tags)
    | _ => modify fun s => { s with handles := tags ++ standardHandles }

def boundsDocument : TokenKind → Bool
  | .version _ _ | .tagDirective _ _ | .documentStart | .documentEnd | .streamEnd => true
  | _ => false

/-- Reads the first document up to its end; there is none in an empty text. -/
def document (fuel : Nat) : Reads (Option Node) := do
  let t ← next
  match t.kind with
  | .streamEnd => return none
  | .version _ _ | .tagDirective _ _ | .documentStart =>
    directives fuel false []
    let u ← next
    if u.kind ≠ .documentStart then throw (.arranging .start u.mark "did not find expected <document start>")
    let w ← advanceTo
    let root ← if boundsDocument w.kind then pure (.empty w.mark) else node fuel true false
    let _ ← next
    return some root
  | _ =>
    let root ← node fuel true false
    let _ ← next
    return some root

namespace Document

/-- The first document of a text. Every character gives at most a few tokens, and every token a few steps. -/
def ofText (text : String) : Except SyntaxError (Option Document) := do
  let i ← Input.ofText text
  let size := i.rest.length + 4
  let start : Reading := ⟨.start i (2 * size), standardHandles, [], 0, [], 0⟩
  match ← (document (16 * size)).run start with
  | (none, _) => return none
  | (some root, s) => return some ⟨root, s.anchored, s.aliases, 16 * size⟩

end Document

end NilFlow.Yaml
