/-!
# Kinds of nodes and edges

The vocabulary of a syntax tree: what a node is, and the field of its parent that holds it.

* `NodeKind`: the kinds of nodes, with their names; `NodeKind.isExpr` picks the expressions.
* `FieldName`: the fields that hold child nodes.
* `Edge`: a field of a parent kind, such as `CallExpr.Args`; `Edge.isList` says which fields hold lists.
-/

namespace NilFlow

inductive NodeKind where
  | comment
  | commentGroup
  | field
  | fieldList
  | badExpr
  | ident
  | ellipsis
  | basicLit
  | funcLit
  | compositeLit
  | parenExpr
  | selectorExpr
  | indexExpr
  | indexListExpr
  | sliceExpr
  | typeAssertExpr
  | callExpr
  | starExpr
  | unaryExpr
  | binaryExpr
  | keyValueExpr
  | arrayType
  | structType
  | funcType
  | interfaceType
  | mapType
  | chanType
  | badStmt
  | declStmt
  | emptyStmt
  | labeledStmt
  | exprStmt
  | sendStmt
  | incDecStmt
  | assignStmt
  | goStmt
  | deferStmt
  | returnStmt
  | branchStmt
  | blockStmt
  | ifStmt
  | caseClause
  | switchStmt
  | typeSwitchStmt
  | commClause
  | selectStmt
  | forStmt
  | rangeStmt
  | importSpec
  | valueSpec
  | typeSpec
  | badDecl
  | genDecl
  | funcDecl
  | file
deriving DecidableEq, Repr, Inhabited

namespace NodeKind

def name : NodeKind → String
  | comment => "Comment"
  | commentGroup => "CommentGroup"
  | field => "Field"
  | fieldList => "FieldList"
  | badExpr => "BadExpr"
  | ident => "Ident"
  | ellipsis => "Ellipsis"
  | basicLit => "BasicLit"
  | funcLit => "FuncLit"
  | compositeLit => "CompositeLit"
  | parenExpr => "ParenExpr"
  | selectorExpr => "SelectorExpr"
  | indexExpr => "IndexExpr"
  | indexListExpr => "IndexListExpr"
  | sliceExpr => "SliceExpr"
  | typeAssertExpr => "TypeAssertExpr"
  | callExpr => "CallExpr"
  | starExpr => "StarExpr"
  | unaryExpr => "UnaryExpr"
  | binaryExpr => "BinaryExpr"
  | keyValueExpr => "KeyValueExpr"
  | arrayType => "ArrayType"
  | structType => "StructType"
  | funcType => "FuncType"
  | interfaceType => "InterfaceType"
  | mapType => "MapType"
  | chanType => "ChanType"
  | badStmt => "BadStmt"
  | declStmt => "DeclStmt"
  | emptyStmt => "EmptyStmt"
  | labeledStmt => "LabeledStmt"
  | exprStmt => "ExprStmt"
  | sendStmt => "SendStmt"
  | incDecStmt => "IncDecStmt"
  | assignStmt => "AssignStmt"
  | goStmt => "GoStmt"
  | deferStmt => "DeferStmt"
  | returnStmt => "ReturnStmt"
  | branchStmt => "BranchStmt"
  | blockStmt => "BlockStmt"
  | ifStmt => "IfStmt"
  | caseClause => "CaseClause"
  | switchStmt => "SwitchStmt"
  | typeSwitchStmt => "TypeSwitchStmt"
  | commClause => "CommClause"
  | selectStmt => "SelectStmt"
  | forStmt => "ForStmt"
  | rangeStmt => "RangeStmt"
  | importSpec => "ImportSpec"
  | valueSpec => "ValueSpec"
  | typeSpec => "TypeSpec"
  | badDecl => "BadDecl"
  | genDecl => "GenDecl"
  | funcDecl => "FuncDecl"
  | file => "File"

def all : List NodeKind :=
  [comment, commentGroup, field, fieldList, badExpr, ident, ellipsis, basicLit, funcLit, compositeLit, parenExpr,
    selectorExpr, indexExpr, indexListExpr, sliceExpr, typeAssertExpr, callExpr, starExpr, unaryExpr, binaryExpr,
    keyValueExpr, arrayType, structType, funcType, interfaceType, mapType, chanType, badStmt, declStmt,
    emptyStmt, labeledStmt, exprStmt, sendStmt, incDecStmt, assignStmt, goStmt, deferStmt, returnStmt,
    branchStmt, blockStmt, ifStmt, caseClause, switchStmt, typeSwitchStmt, commClause, selectStmt, forStmt,
    rangeStmt, importSpec, valueSpec, typeSpec, badDecl, genDecl, funcDecl, file]

def ofName? (s : String) : Option NodeKind := all.find? fun k => k.name = s

def isExpr : NodeKind → Bool
  | badExpr | ident | ellipsis | basicLit | funcLit | compositeLit | parenExpr | selectorExpr | indexExpr
  | indexListExpr | sliceExpr | typeAssertExpr | callExpr | starExpr | unaryExpr | binaryExpr | keyValueExpr
  | arrayType | structType | funcType | interfaceType | mapType | chanType => true
  | _ => false

end NodeKind

inductive FieldName where
  | doc
  | comment
  | list
  | names
  | typeExpr
  | tag
  | elt
  | body
  | elts
  | x
  | sel
  | index
  | indices
  | low
  | high
  | max
  | callee
  | args
  | y
  | key
  | value
  | len
  | fields
  | typeParams
  | params
  | results
  | methods
  | decl
  | label
  | stmt
  | chan
  | lhs
  | rhs
  | call
  | init
  | cond
  | elseBranch
  | assign
  | comm
  | post
  | name
  | path
  | values
  | specs
  | recv
  | decls
deriving DecidableEq, Repr, Inhabited

namespace FieldName

def spelling : FieldName → String
  | doc => "Doc"
  | comment => "Comment"
  | list => "List"
  | names => "Names"
  | typeExpr => "Type"
  | tag => "Tag"
  | elt => "Elt"
  | body => "Body"
  | elts => "Elts"
  | x => "X"
  | sel => "Sel"
  | index => "Index"
  | indices => "Indices"
  | low => "Low"
  | high => "High"
  | max => "Max"
  | callee => "Fun"
  | args => "Args"
  | y => "Y"
  | key => "Key"
  | value => "Value"
  | len => "Len"
  | fields => "Fields"
  | typeParams => "TypeParams"
  | params => "Params"
  | results => "Results"
  | methods => "Methods"
  | decl => "Decl"
  | label => "Label"
  | stmt => "Stmt"
  | chan => "Chan"
  | lhs => "Lhs"
  | rhs => "Rhs"
  | call => "Call"
  | init => "Init"
  | cond => "Cond"
  | elseBranch => "Else"
  | assign => "Assign"
  | comm => "Comm"
  | post => "Post"
  | name => "Name"
  | path => "Path"
  | values => "Values"
  | specs => "Specs"
  | recv => "Recv"
  | decls => "Decls"

def all : List FieldName :=
  [doc, comment, list, names, typeExpr, tag, elt, body, elts, x, sel, index, indices, low, high, max, callee,
    args, y, key, value, len, fields, typeParams, params, results, methods, decl, label, stmt, chan, lhs, rhs,
    call, init, cond, elseBranch, assign, comm, post, name, path, values, specs, recv, decls]

def ofSpelling? (s : String) : Option FieldName := all.find? fun f => f.spelling = s

end FieldName

/-- A field of nodes of some kind. -/
structure Edge where
  parent : NodeKind
  field : FieldName
deriving DecidableEq, Repr

namespace Edge

/-- The name of an edge: kind and field, joined by a point. -/
def name (e : Edge) : String := e.parent.name ++ "." ++ e.field.spelling

/-- Whether the field holds a list of nodes. -/
def isList (e : Edge) : Bool :=
  match e.parent, e.field with
  | .file, .decls
  | .genDecl, .specs
  | .fieldList, .list
  | .field, .names
  | .valueSpec, .names
  | .valueSpec, .values
  | .assignStmt, .lhs
  | .assignStmt, .rhs
  | .blockStmt, .list
  | .returnStmt, .results
  | .callExpr, .args
  | .compositeLit, .elts
  | .caseClause, .list
  | .caseClause, .body
  | .commClause, .body
  | .indexListExpr, .indices
  | .commentGroup, .list => true
  | _, _ => false

end Edge

end NilFlow
