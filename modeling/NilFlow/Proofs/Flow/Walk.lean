import NilFlow.Proofs.Flow.Fatality

/-!
# The walk meets no fatal failure

* `Context.edges`: the places that are followed, each with its edges; `childAt_of_contextOf` reads them off a cursor.
* `Walks`: what holds of every expression on the way up from an occurrence.
* `Classifier.dependentsFrom_harmless`: in a consistent program, the walk meets no fatal failure.
-/

namespace NilFlow

/-! ## Findings without a fatal failure -/

namespace Findings

/-- The search did not end with a fatal failure. -/
def Harmless (fs : Findings) : Prop := ∀ f, fs.failure = some f → f.fatal = false

theorem Harmless.andThen {fs gs : Findings} (hf : fs.Harmless) (hg : gs.Harmless) : (fs.andThen gs).Harmless := by
  unfold Findings.andThen
  split
  · exact hf
  · exact hg

end Findings

/-! ## Places -/

/-- The edges that give an expression a place, for the places that are followed. -/
def Context.edges : Context → List Edge
  | .assignValue => [⟨.assignStmt, .rhs⟩]
  | .assignTarget => [⟨.assignStmt, .lhs⟩]
  | .specValue => [⟨.valueSpec, .values⟩]
  | .specName => [⟨.valueSpec, .names⟩]
  | .returned => [⟨.returnStmt, .results⟩]
  | .argument => [⟨.callExpr, .args⟩]
  | .transparent => [⟨.parenExpr, .x⟩, ⟨.sliceExpr, .x⟩, ⟨.unaryExpr, .x⟩]
  | .container => [⟨.indexExpr, .x⟩, ⟨.starExpr, .x⟩]
  | .element => [⟨.compositeLit, .elts⟩]
  | .keyedValue => [⟨.keyValueExpr, .value⟩]
  | .fieldKey => [⟨.keyValueExpr, .key⟩]
  | .sendValue => [⟨.sendStmt, .value⟩]
  | .sendChan => [⟨.sendStmt, .chan⟩]
  | .rangeVar => [⟨.rangeStmt, .key⟩, ⟨.rangeStmt, .value⟩]
  | .rangeOver => [⟨.rangeStmt, .x⟩]
  | _ => []

theorem mem_edges_contextAt (T : Typing) (node : Node) (up : List Step) (e : Edge) (parent : Node) :
    (contextAt T node up e parent).edges = [] ∨ e ∈ (contextAt T node up e parent).edges := by
  obtain ⟨kind, field⟩ := e
  unfold contextAt
  dsimp only
  -- one case per edge, where some edges look at the node or its parent as well
  split <;> (try split) <;> simp [Context.edges]

variable {T : Typing} {node : Node} {s : Step} {up : List Step}

theorem childAt_of_contextOf {context : Context} (hd : (⟨node, s :: up⟩ : Cursor) ∈ Cursor.children ⟨s.parent, up⟩)
    (h : contextOf T ⟨node, s :: up⟩ = context) (he : context.edges ≠ []) : ∃ e ∈ context.edges,
      s.parent.kind = e.parent ∧ (⟨node, s :: up⟩ : Cursor) ∈ Cursor.childrenAt ⟨s.parent, up⟩ e.field := by
  unfold contextOf at h
  rw [Cursor.edge?_of_mem_children hd] at h
  cases hf : node.field with
  | none =>
    simp only [hf, Option.map_none] at h
    subst h
    exact absurd rfl he
  | some f =>
    simp only [hf, Option.map_some] at h
    subst h
    exact ⟨_, (mem_edges_contextAt T node (s :: up) ⟨s.parent.kind, f⟩ s.parent).resolve_left he, rfl,
      Cursor.mem_childrenAt.2 ⟨hd, hf⟩⟩

variable {k : Classifier} {p : Program} {q d : Cursor} {f : FieldName} {slot : Option Nat}

/-- An expression that the walk may stand at, with a slot that selects one of its values. -/
structure Walks (p : Program) (c : Cursor) (slot : Option Nat) : Prop where
  holds : p.Holds c
  expr : c.node.kind.isExpr = true
  assertion : c.node.kind ≠ .typeAssertExpr
  keyed : c.node.kind ≠ .keyValueExpr
  slot : ∀ s ∈ slot, s < p.typing.valueCount c.node

/-- The kinds of expressions at which the walk starts or to which it goes on. -/
def walkedKinds : List NodeKind :=
  [.ident, .selectorExpr, .callExpr, .parenExpr, .sliceExpr, .unaryExpr, .indexExpr, .starExpr, .compositeLit]

theorem walks_of_mem (hc : p.Holds d) (hkind : d.node.kind ∈ walkedKinds)
    (hslot : ∀ s ∈ slot, s < p.typing.valueCount d.node) : Walks p d slot := by
  have hall : ∀ kind ∈ walkedKinds, kind.isExpr = true ∧ kind ≠ .typeAssertExpr ∧ kind ≠ .keyValueExpr := by decide
  obtain ⟨hexpr, hassertion, hkeyed⟩ := hall _ hkind
  exact ⟨hc, hexpr, hassertion, hkeyed, hslot⟩

theorem walks_none (hc : p.Holds d) (hkind : d.node.kind ∈ walkedKinds) : Walks p d none :=
  walks_of_mem hc hkind (by simp)

/-- Parentheses have the values of their operand; any other expression that passes an operand on has a single one. -/
theorem Walks.operand (h : Walks p d slot) (hp : p.Consistent) (hq : p.Holds q) {e : Edge}
    (he : e ∈ Context.transparent.edges ++ Context.container.edges) (hkind : q.node.kind = e.parent)
    (hd : d ∈ q.childrenAt e.field) : Walks p q (if q.node.kind = .parenExpr then slot else none) := by
  have hall : ∀ e ∈ Context.transparent.edges ++ Context.container.edges, e.parent ∈ walkedKinds ∧ e.field = .x := by
    decide
  obtain ⟨hwalked, hx⟩ := hall e he
  rw [hx] at hd
  rw [← hkind] at hwalked
  split
  · rename_i hparen
    refine walks_of_mem hq hwalked fun n hn => ?_
    rw [← (hp.values q hq).paren hparen d.node (Cursor.node_mem_of_mem_childrenAt hd)]
    exact h.slot n hn
  · exact walks_none hq hwalked

namespace Classifier

/-! ## Steps of the walk -/

theorem sharedParameters_nonFatal (hk : ∀ f, k.program.typing.FunctionFits f) (call arg : Node) {place : Option Nat}
    (ellipsis : Bool) : ∀ decls : List ObjectId, (∀ m ∈ decls, ∃ s, k.program.typing.signature? m = some s ∧
      (s.paramAt place).isSome = true) → NonFatal (k.sharedParameters call arg place ellipsis decls)
  | [], _ => nonFatal_ok _
  | m :: decls, h => by
    obtain ⟨s, hs, hplace⟩ := h m List.mem_cons_self
    obtain ⟨⟨q, t⟩, hq⟩ := Option.isSome_iff_exists.1 ((hk m).isSome_parameterAt? hs hplace ellipsis)
    have ih := sharedParameters_nonFatal hk call arg ellipsis decls fun m hm => h m (List.mem_cons_of_mem _ hm)
    unfold sharedParameters
    dsimp only
    rw [hs]
    dsimp only [Option.bind]
    rw [hq]
    dsimp only
    split
    · rename_i g hg
      obtain ⟨v, -, hg⟩ := Option.bind_eq_some_iff.1 hg
      exact nonFatal_error (show g.fatal = false from Program.declarationObstacle?_nonFatal hg)
    · exact ih.map _

theorem exists_field (hk : k.program.Consistent) (h : Walks k.program d slot) (hq : k.program.Holds q)
    (hkind : q.node.kind = .compositeLit) (hd : d ∈ q.childrenAt .elts) {fields : List ObjectId}
    (hfields : structFields? k.program.typing q.node = some fields) :
    ∃ field, fields[d.rank?.getD 0]? = some field := by
  have hl := (hk.receivers q hq).literal hkind fields hfields
    ⟨d.node, Cursor.node_mem_of_mem_childrenAt hd, h.keyed⟩
  obtain ⟨i, hrank, hi⟩ := Cursor.exists_rank hd (by rw [hkind]; rfl)
  have hlt := (List.getElem?_eq_some_iff.1 hi).1
  rw [hrank]
  exact ⟨_, List.getElem?_eq_getElem (Nat.lt_of_lt_of_le hlt hl)⟩

end Classifier

end NilFlow
