import Mathlib.Data.List.Nodup
import Mathlib.Logic.Relation
import NilFlow.Proofs.Flow.Starts

/-!
# How the walk climbs

* `Cursor.rank?_of_getElem?`: the rank of a child is its place in the list that holds it.
* `Classifier.dependents_child`: the walk from a child, by the place that its parent gives it.
* `Lift`: a step of the walk that finds nothing by itself; `Classifier.dependents_lift` says so.
* `Climbs`, `Arrives`: the walk from a match comes to an expression.
* `Classifier.discoveries_of_arrives`: what a match discovers is then what is found from that expression.
-/

namespace NilFlow

namespace Cursor

variable {c d : Cursor} {f : FieldName} {i : Nat}

/-! ## Children and their places -/

theorem nodup_children (c : Cursor) : c.children.Nodup := by
  have hindices : c.children.map (fun d => d.ancestors.head?.map Step.index) =
      (List.range' 0 c.node.children.length).map some := by
    unfold children
    rw [List.map_map, ← List.zipIdx_map_snd 0 c.node.children, List.map_map]
    rfl
  refine List.Nodup.of_map (fun d => d.ancestors.head?.map Step.index) ?_
  rw [hindices]
  exact List.Nodup.map (fun _ _ h => Option.some.inj h) List.nodup_range'

theorem nodup_childrenAt (c : Cursor) (f : FieldName) : (c.childrenAt f).Nodup := c.nodup_children.filter _

theorem getElem?_children {j : Nat} (hn : c.node.children[j]? = some d.node)
    (ha : d.ancestors = ⟨c.node, j⟩ :: c.ancestors) : c.children[j]? = some d := by
  obtain ⟨node, up⟩ := d
  obtain rfl : up = ⟨c.node, j⟩ :: c.ancestors := ha
  have hn : c.node.children[j]? = some node := hn
  unfold children
  rw [List.getElem?_map, List.getElem?_zipIdx, hn]
  simp

theorem rank?_of_getElem? (h : (c.childrenAt f)[i]? = some d) (hl : Edge.isList ⟨c.node.kind, f⟩ = true) :
    d.rank? = some i := by
  have hmem := List.mem_of_getElem? h
  obtain ⟨hd, hf⟩ := mem_childrenAt.1 hmem
  obtain ⟨j, hj, ha⟩ := mem_children_iff.1 hd
  have hplace := getElem?_filter_countP (p := fun d : Cursor => d.node.field = some f) (by simpa using hf)
    (getElem?_children hj ha)
  -- the list has no duplicates, so the place that counting gives is the place itself
  have hi : (c.children.take j).countP (fun d => d.node.field = some f) = i := by
    obtain ⟨hlt, -⟩ := List.getElem?_eq_some_iff.1 hplace
    exact (List.getElem?_inj hlt (c.nodup_childrenAt f)).1 (hplace.trans h.symm)
  have hcount : (c.node.children.take j).countP (fun n => n.field = some f) = i := by
    rw [← hi, ← map_node_children, ← List.map_take, List.countP_map]
    rfl
  unfold rank?
  rw [ha, edge?_of_mem_childrenAt hmem]
  show (if Edge.isList ⟨c.node.kind, f⟩ = true then _ else _) = _
  rw [if_pos hl, hf, hcount]

theorem childrenAt_eq_singleton (hl : (c.childrenAt f).length = 1) (hd : d ∈ c.childrenAt f) :
    c.childrenAt f = [d] := by
  obtain ⟨e, he⟩ := List.length_eq_one_iff.1 hl
  rw [he] at hd ⊢
  rw [List.mem_singleton.1 hd]

theorem child?_of_childrenAt (h : c.childrenAt f = [d]) : c.node.child? f = some d.node := by
  rw [← head?_childrenAt, h]
  rfl

end Cursor

/-! ## Places of children -/

variable {T : Typing} {c d : Cursor} {f : FieldName}

theorem contextOf_child (h : d ∈ c.childrenAt f) :
    contextOf T d = contextAt T d.node d.ancestors ⟨c.node.kind, f⟩ c.node := by
  obtain ⟨hd, -⟩ := Cursor.mem_childrenAt.1 h
  obtain ⟨i, -, ha⟩ := Cursor.mem_children_iff.1 hd
  unfold contextOf
  rw [Cursor.edge?_of_mem_childrenAt h, ha]

/-- An expression at a followed place is held by a field that makes the place. -/
theorem exists_edge_of_contextOf {context : Context} (hd : d ∈ c.children) (h : contextOf T d = context)
    (he : context.edges ≠ []) : ∃ e ∈ context.edges, c.node.kind = e.parent ∧ d ∈ c.childrenAt e.field := by
  obtain ⟨i, -, ha⟩ := Cursor.mem_children_iff.1 hd
  obtain ⟨node, up⟩ := d
  obtain rfl : up = ⟨c.node, i⟩ :: c.ancestors := ha
  exact childAt_of_contextOf hd h he

namespace Classifier

variable {k : Classifier} {slot : Option Nat}

theorem dependents_child (hd : d ∈ c.children) (he : d.node.kind.isExpr = true) : k.dependents d slot =
    match contextOf k.program.typing d with
    | .assignValue => k.assignedValue c.node (d.rank?.getD 0) slot (valueType? k.program.typing d.node slot)
    | .assignTarget => k.assignedTarget c.node (d.rank?.getD 0) d.node.facts.type
    | .specValue => k.specValue c.node (d.rank?.getD 0) slot (valueType? k.program.typing d.node slot)
    | .specName => k.specName c.node (d.rank?.getD 0) d.node.facts.type
    | .fieldName => .one ⟨.fieldName, c.node.span,
        definedVars k.program.typing (c.node.childrenAt .names) (some (d.rank?.getD 0)), false⟩
    | .returned => k.returned d c.node d.node (d.rank?.getD 0) slot (valueType? k.program.typing d.node slot)
    | .argument =>
      match calleeOf k.program.typing c.node with
      | .builtin name => if name = "append" then k.dependents c none else .nothing
      | .func fn => k.passedTo c.node d.node fn (d.rank?.getD 0) slot (valueType? k.program.typing d.node slot)
      | .other => .fail (functionValueFailure c.node)
    | .conversion =>
      if c.node.facts.type.any k.program.typing.isInterface && !isNilLiteral k.program.typing d.node then .nothing
      else .fail (conversionFailure c.node)
    | .transparent | .container => k.dependents c (if c.node.kind = .parenExpr then slot else none)
    | .element =>
      match structFields? k.program.typing c.node with
      | none => k.dependents c none
      | some fields =>
        match fields[d.rank?.getD 0]? with
        | none => .fail ⟨.modelError, none, c.node.span, "struct literal arity"⟩
        | some field => k.stored .element d.node.span (valueType? k.program.typing d.node slot)
            (k.program.typing.varType? field) [field]
    | .keyedValue =>
      match c.parent? with
      | none => .nothing
      | some literal =>
        if isStructLiteral k.program.typing literal.node then
          k.keyedField c.node (valueType? k.program.typing d.node slot)
        else k.dependents literal none
    | .fieldKey => (c.node.child? .value).elim .nothing fun e => k.source .fieldKey e none d.node.facts.type
    | .sendValue => k.sent c.node (valueType? k.program.typing d.node slot)
    | .sendChan => (c.node.child? .value).elim .nothing fun e => k.source .sendChan e none none
    | .rangeVar =>
      match c.node.child? .x with
      | none => .nothing
      | some x => if x.facts.type.any k.program.typing.isContainer then k.source .rangeVar x none none else .nothing
    | .rangeOver => k.ranged c.node
    | .comparison | .use | .declaration => .nothing
    | .unknown | .call | .unlisted _ => .fail ⟨.unclassifiable, none, d.node.span, d.edge?.elim "" Edge.name⟩ := by
  obtain ⟨i, -, ha⟩ := Cursor.mem_children_iff.1 hd
  obtain ⟨node, up⟩ := d
  obtain ⟨parent, up'⟩ := c
  obtain rfl : up = ⟨parent, i⟩ :: up' := ha
  have he : (!node.kind.isExpr) = false := by simpa using he
  show k.dependentsFrom node (⟨parent, i⟩ :: up') slot = _
  rw [dependentsFrom.eq_def]
  dsimp only
  rw [he]
  cases up' with
  | nil => rfl
  | cons s up => rfl

end Classifier

/-! ## Steps up -/

/-- The walk goes on from an expression to one that passes its value on or holds it: an operand, what is appended to a
slice, and the elements of arrays, slices and maps. Only parentheses keep the slot. -/
inductive Lift (T : Typing) : Cursor × Option Nat → Cursor × Option Nat → Prop where
  | operand {c d : Cursor} {slot : Option Nat} (hd : d ∈ c.children)
      (hctx : contextOf T d = .transparent ∨ contextOf T d = .container) :
      Lift T (d, slot) (c, if c.node.kind = .parenExpr then slot else none)
  | appended {c d : Cursor} {slot : Option Nat} (hd : d ∈ c.children) (hctx : contextOf T d = .argument)
      (hf : calleeOf T c.node = .builtin "append") : Lift T (d, slot) (c, none)
  | element {c d : Cursor} {slot : Option Nat} (hd : d ∈ c.children) (hctx : contextOf T d = .element)
      (hfields : structFields? T c.node = none) : Lift T (d, slot) (c, none)
  | keyed {c kv d : Cursor} {slot : Option Nat} (hkv : kv ∈ c.children) (hd : d ∈ kv.children)
      (hctx : contextOf T d = .keyedValue) (hlit : c.node.kind = .compositeLit)
      (hfields : structFields? T c.node = none) : Lift T (d, slot) (c, none)

theorem Lift.walked {s t : Cursor × Option Nat} (h : Lift T s t) : t.1.node.kind ∈ walkedKinds := by
  cases h with
  | operand hd hctx =>
    have hall : ∀ e ∈ Context.transparent.edges ++ Context.container.edges, e.parent ∈ walkedKinds := by decide
    rcases hctx with hctx | hctx
    · obtain ⟨e, he, hkind, -⟩ := exists_edge_of_contextOf hd hctx (by simp [Context.edges])
      exact hkind ▸ hall e (List.mem_append_left _ he)
    · obtain ⟨e, he, hkind, -⟩ := exists_edge_of_contextOf hd hctx (by simp [Context.edges])
      exact hkind ▸ hall e (List.mem_append_right _ he)
  | appended hd hctx _ =>
    obtain ⟨e, he, hkind, -⟩ := exists_edge_of_contextOf hd hctx (by simp [Context.edges])
    rw [hkind, List.mem_singleton.1 he]
    decide
  | element hd hctx _ =>
    obtain ⟨e, he, hkind, -⟩ := exists_edge_of_contextOf hd hctx (by simp [Context.edges])
    rw [hkind, List.mem_singleton.1 he]
    decide
  | keyed _ _ _ hlit _ =>
    rw [hlit]
    decide

theorem isExpr_of_walked {kind : NodeKind} (h : kind ∈ walkedKinds) : kind.isExpr = true := by
  have hall : ∀ kind ∈ walkedKinds, kind.isExpr = true := by decide
  exact hall kind h

/-- The walk comes from one expression to another without a finding. -/
def Climbs (T : Typing) : Cursor × Option Nat → Cursor × Option Nat → Prop := Relation.ReflTransGen (Lift T)

theorem Climbs.walked {s t : Cursor × Option Nat} (h : Climbs T s t) (hs : s.1.node.kind ∈ walkedKinds) :
    t.1.node.kind ∈ walkedKinds := by
  induction h with
  | refl => exact hs
  | tail _ hlift _ => exact hlift.walked

namespace Classifier

variable {k : Classifier} {m : Match}

/-- A step up finds nothing by itself. -/
theorem dependents_lift {s t : Cursor × Option Nat} (h : Lift k.program.typing s t)
    (hs : s.1.node.kind ∈ walkedKinds) : k.dependents s.1 s.2 = k.dependents t.1 t.2 := by
  have he := isExpr_of_walked hs
  cases h with
  | operand hd hctx =>
    rw [dependents_child hd he]
    rcases hctx with hctx | hctx <;> rw [hctx]
  | appended hd hctx hf =>
    rw [dependents_child hd he, hctx]
    dsimp only
    rw [hf]
    dsimp only
    rw [if_pos rfl]
  | element hd hctx hfields =>
    rw [dependents_child hd he, hctx]
    dsimp only
    rw [hfields]
  | @keyed c kv d slot hkv hd hctx _ hfields =>
    rw [dependents_child hd he, hctx]
    dsimp only
    rw [Cursor.parent?_of_mem_children hkv]
    dsimp only
    rw [if_neg (by simp [isStructLiteral, hfields])]

/-- All that is found on the way up is found from where it leads. -/
theorem dependents_climbs {s t : Cursor × Option Nat} (h : Climbs k.program.typing s t)
    (hs : s.1.node.kind ∈ walkedKinds) : k.dependents s.1 s.2 = k.dependents t.1 t.2 := by
  induction h with
  | refl => rfl
  | tail hclimbs hlift ih => rw [ih, dependents_lift hlift (Climbs.walked hclimbs hs)]

end Classifier

/-! ## Matches -/

/-- Where the walk from a match starts: at the identifier, or the selector whose name it is, and at the call that
produces a result. -/
inductive Starts (m : Match) : Cursor × Option Nat → Prop where
  | name {c : Cursor} (hk : m.kind = .definition ∨ m.kind = .use) (hc : m.cursor = some c)
      (hi : c.node.kind = .ident) : Starts m (Classifier.wholeSelector c, none)
  | call {c call : Cursor} (hk : m.kind = .call) (hc : m.cursor = some c) (hcall : callOf? c = some call)
      (hi : call.node.kind = .callExpr) : Starts m (call, m.slot)

theorem Starts.walked {m : Match} {start : Cursor × Option Nat} (h : Starts m start) :
    start.1.node.kind ∈ walkedKinds := by
  cases h with
  | name _ _ hi => exact Classifier.kind_wholeSelector hi
  | call _ _ _ hi => simp [hi, walkedKinds]

/-- The walk from a match comes to an expression, with the slot of the value it follows. -/
def Arrives (T : Typing) (m : Match) (c : Cursor) (slot : Option Nat) : Prop :=
  ∃ start, Starts m start ∧ Climbs T start (c, slot)

theorem Arrives.walked {m : Match} {slot : Option Nat} (h : Arrives T m c slot) : c.node.kind ∈ walkedKinds := by
  obtain ⟨start, hstart, hclimbs⟩ := h
  exact Climbs.walked hclimbs hstart.walked

theorem Arrives.lift {m : Match} {slot slot' : Option Nat} (h : Arrives T m c slot) (hl : Lift T (c, slot) (d, slot')) :
    Arrives T m d slot' := by
  obtain ⟨start, hstart, hclimbs⟩ := h
  exact ⟨start, hstart, hclimbs.tail hl⟩

namespace Classifier

variable {k : Classifier} {m : Match} {slot : Option Nat}

theorem follow_of_starts {start : Cursor × Option Nat} (h : Starts m start) : ∃ c context, m.cursor = some c ∧
    m.kind ≠ .docLink ∧ m.kind ≠ .funcValue ∧ k.follow m c = (context, k.dependents start.1 start.2) := by
  cases h with
  | @name c hk hc _ =>
    refine ⟨c, contextOf k.program.typing (wholeSelector c), hc, ?_, ?_, ?_⟩
    · rcases hk with hk | hk <;> simp [hk]
    · rcases hk with hk | hk <;> simp [hk]
    · unfold follow
      rcases hk with hk | hk <;> rw [hk]
  | @call c call hk hc hcall _ =>
    refine ⟨c, .call, hc, by simp [hk], by simp [hk], ?_⟩
    unfold follow
    rw [hk]
    dsimp only
    rw [hcall]

theorem discoveries_of_follow {context : Context} {fs : Findings} (hc : m.cursor = some c) (hdoc : m.kind ≠ .docLink)
    (hfunc : m.kind ≠ .funcValue) (h : k.follow m c = (context, fs)) :
    (k.propagate m).1.discoveries = (k.flowOf fs.found).discoveries ∧
      (k.propagate m).2 = fs.failure.map fun f => (f.attributedTo m.var).placedAt m.span := by
  unfold propagate
  rw [hc]
  split
  · exact absurd ‹_› hdoc
  · exact absurd ‹_› hfunc
  · rename_i hnone _ _
    cases hnone
  · rename_i d hd _ _
    cases hd
    rw [h]
    refine ⟨?_, rfl⟩
    show [] ++ (k.flowOf fs.found).discoveries = _
    exact List.nil_append _

theorem propagate_of_follow {context : Context} {fs : Findings} (hc : m.cursor = some c) (hdoc : m.kind ≠ .docLink)
    (hfunc : m.kind ≠ .funcValue) (h : k.follow m c = (context, fs)) :
    (k.propagate m).1.vars = (k.flowOf fs.found).vars ∧
      (k.propagate m).2 = fs.failure.map fun f => (f.attributedTo m.var).placedAt m.span := by
  obtain ⟨hdiscoveries, hfailure⟩ := discoveries_of_follow (k := k) hc hdoc hfunc h
  unfold Flow.vars
  rw [hdiscoveries]
  exact ⟨rfl, hfailure⟩

/-- A match whose walk comes to an expression discovers what is found from there. -/
theorem discoveries_of_arrives (h : Arrives k.program.typing m c slot) :
    (k.propagate m).1.discoveries = (k.flowOf (k.dependents c slot).found).discoveries ∧
      (k.propagate m).2 = (k.dependents c slot).failure.map fun f => (f.attributedTo m.var).placedAt m.span := by
  obtain ⟨start, hstart, hclimbs⟩ := h
  obtain ⟨d, context, hd, hdoc, hfunc, hfollow⟩ := follow_of_starts (k := k) hstart
  rw [dependents_climbs hclimbs hstart.walked] at hfollow
  exact discoveries_of_follow hd hdoc hfunc hfollow

theorem propagate_of_arrives (h : Arrives k.program.typing m c slot) :
    (k.propagate m).1.vars = (k.flowOf (k.dependents c slot).found).vars ∧
      (k.propagate m).2 = (k.dependents c slot).failure.map fun f => (f.attributedTo m.var).placedAt m.span := by
  obtain ⟨hdiscoveries, hfailure⟩ := discoveries_of_arrives (k := k) h
  unfold Flow.vars
  rw [hdiscoveries]
  exact ⟨rfl, hfailure⟩

end Classifier

end NilFlow
