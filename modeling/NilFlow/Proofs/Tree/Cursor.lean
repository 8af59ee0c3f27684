import NilFlow.Tree.Cursor

/-!
# Nodes below a node

* `Cursor.Below`: the nodes that children lead to, one step at a time; `mem_preorder_iff` ties it to the traversal.
* `Cursor.Below.parent`: in a whole tree, a node is a child of its parent.
* `Cursor.exists_child`, `Cursor.map_node_childrenAt`: the children that a field holds, as cursors.
* `Cursor.exists_rank`: the place of a node in the list that holds it.
* `Cursor.induction_children`: induction from the leaves up.
* `Node.pointerType`, `Node.pointerConversion`: pieces of syntax that samples are made of.
-/

namespace NilFlow

namespace Cursor

variable {c d e t : Cursor} {f : FieldName} {n : Node}

/-! ## Children -/

theorem mem_children_iff :
    d ∈ c.children ↔ ∃ i, c.node.children[i]? = some d.node ∧ d.ancestors = ⟨c.node, i⟩ :: c.ancestors := by
  unfold children
  rw [List.mem_map]
  constructor
  · rintro ⟨⟨n, i⟩, hn, rfl⟩
    exact ⟨i, List.mk_mem_zipIdx_iff_getElem?.1 hn, rfl⟩
  · rintro ⟨i, hn, ha⟩
    refine ⟨(d.node, i), List.mk_mem_zipIdx_iff_getElem?.2 hn, ?_⟩
    show Cursor.mk d.node (⟨c.node, i⟩ :: c.ancestors) = d
    rw [← ha]

theorem parent?_of_mem_children (h : d ∈ c.children) : d.parent? = some c := by
  obtain ⟨i, -, ha⟩ := mem_children_iff.1 h
  unfold parent?
  rw [ha]

theorem edge?_of_mem_children (h : d ∈ c.children) : d.edge? = d.node.field.map (⟨c.node.kind, ·⟩) := by
  obtain ⟨i, -, ha⟩ := mem_children_iff.1 h
  unfold edge?
  rw [ha]

theorem node_mem_of_mem_children (h : d ∈ c.children) : d.node ∈ c.node.children := by
  obtain ⟨i, hn, -⟩ := mem_children_iff.1 h
  exact List.mem_of_getElem? hn

theorem exists_mem_children (h : n ∈ c.node.children) : ∃ d ∈ c.children, d.node = n := by
  obtain ⟨i, hi⟩ := List.getElem?_of_mem h
  exact ⟨⟨n, ⟨c.node, i⟩ :: c.ancestors⟩, mem_children_iff.2 ⟨i, hi, rfl⟩, rfl⟩

theorem mem_childrenAt : d ∈ c.childrenAt f ↔ d ∈ c.children ∧ d.node.field = some f := by
  unfold childrenAt
  rw [List.mem_filter, decide_eq_true_iff]

theorem edge?_of_mem_childrenAt (h : d ∈ c.childrenAt f) : d.edge? = some ⟨c.node.kind, f⟩ := by
  obtain ⟨hd, hf⟩ := mem_childrenAt.1 h
  rw [edge?_of_mem_children hd, hf]
  rfl

theorem exists_mem_childrenAt (h : n ∈ c.node.childrenAt f) : ∃ d ∈ c.childrenAt f, d.node = n := by
  obtain ⟨hn, hf⟩ := List.mem_filter.1 h
  obtain ⟨d, hd, rfl⟩ := exists_mem_children hn
  exact ⟨d, mem_childrenAt.2 ⟨hd, of_decide_eq_true hf⟩, rfl⟩

theorem mem_childrenAt_of_child? {m : Node} (h : m.child? f = some n) : n ∈ m.childrenAt f := by
  unfold Node.child? at h
  exact List.mem_filter.2 ⟨List.mem_of_find?_eq_some h, by simpa using List.find?_some h⟩

theorem exists_child (h : c.node.child? f = some n) : ∃ d ∈ c.childrenAt f, d.node = n :=
  exists_mem_childrenAt (mem_childrenAt_of_child? h)

theorem map_node_children (c : Cursor) : c.children.map node = c.node.children := by
  calc c.children.map node = c.node.children.zipIdx.map Prod.fst := by
        unfold children
        rw [List.map_map]
        exact List.map_congr_left fun _ _ => rfl
    _ = c.node.children := List.zipIdx_map_fst 0 c.node.children

theorem map_node_childrenAt (c : Cursor) (f : FieldName) : (c.childrenAt f).map node = c.node.childrenAt f := by
  unfold childrenAt Node.childrenAt
  rw [← map_node_children, List.filter_map]
  rfl

theorem head?_childrenAt (c : Cursor) (f : FieldName) : (c.childrenAt f).head?.map node = c.node.child? f := by
  rw [← List.head?_map, map_node_childrenAt]
  unfold Node.child? Node.childrenAt
  rw [List.head?_filter]

theorem node_mem_of_mem_childrenAt (h : d ∈ c.childrenAt f) : d.node ∈ c.node.childrenAt f := by
  rw [← map_node_childrenAt]
  exact List.mem_map_of_mem h

/-- The function around a node is the node itself, or the one around its parent. -/
theorem enclosing?_of_mem_children (h : d ∈ c.children) :
    d.enclosing? = if d.node.kind = .funcDecl ∨ d.node.kind = .funcLit then some d.node else c.enclosing? := by
  obtain ⟨i, -, ha⟩ := mem_children_iff.1 h
  unfold enclosing? nodesUp
  rw [ha]
  by_cases hf : d.node.kind = .funcDecl ∨ d.node.kind = .funcLit
  · rw [if_pos hf, List.find?_cons_of_pos (by simpa using hf)]
  · rw [if_neg hf, List.find?_cons_of_neg (by simpa using hf)]
    rfl

theorem getElem?_filter_countP {α : Type} {p : α → Bool} {x : α} (hp : p x = true) : ∀ {l : List α} {j : Nat},
    l[j]? = some x → (l.filter p)[(l.take j).countP p]? = some x
  | [], j, h => by simp at h
  | y :: l, 0, h => by
    cases h
    simp [hp]
  | y :: l, j + 1, h => by
    have ih := getElem?_filter_countP hp (l := l) (j := j) h
    cases hy : p y with
    | true => simpa [hy] using ih
    | false => simpa [hy] using ih

/-- At an edge, a node has a parent of the kind that the edge names, which holds it in the field of the edge. -/
theorem exists_parent_of_edge? {e : Edge} (h : d.edge? = some e) :
    ∃ c, d.parent? = some c ∧ c.node.kind = e.parent ∧ d.node.field = some e.field := by
  obtain ⟨node, up⟩ := d
  cases up with
  | nil => cases h
  | cons s up =>
    obtain ⟨f, hf, rfl⟩ := Option.map_eq_some_iff.1 h
    exact ⟨_, rfl, rfl, hf⟩

theorem exists_rank (h : d ∈ c.childrenAt f) (hl : Edge.isList ⟨c.node.kind, f⟩ = true) :
    ∃ i, d.rank? = some i ∧ (c.node.childrenAt f)[i]? = some d.node := by
  obtain ⟨hd, hf⟩ := mem_childrenAt.1 h
  obtain ⟨j, hj, ha⟩ := mem_children_iff.1 hd
  refine ⟨_, ?_, getElem?_filter_countP (by simpa using hf) hj⟩
  unfold rank?
  rw [ha, edge?_of_mem_childrenAt h]
  show (if Edge.isList ⟨c.node.kind, f⟩ = true then _ else _) = _
  rw [if_pos hl, hf]

theorem sizeOf_lt_of_mem_children (h : d ∈ c.children) : sizeOf d.node < sizeOf c.node := by
  have hn := node_mem_of_mem_children h
  obtain ⟨⟨l, cs⟩, up⟩ := c
  have hlt := List.sizeOf_lt_of_mem hn
  show sizeOf d.node < sizeOf (Node.mk l cs)
  simp only [Node.mk.sizeOf_spec]
  exact Nat.lt_of_lt_of_le hlt (Nat.le_add_left _ _)

theorem induction_children {P : Cursor → Prop} (h : ∀ c : Cursor, (∀ d ∈ c.children, P d) → P c) (c : Cursor) : P c :=
  h c fun d hd =>
    have := sizeOf_lt_of_mem_children hd
    induction_children h d
termination_by sizeOf c.node

/-! ## Below a node -/

/-- A node is reached from another one through children. -/
inductive Below (t : Cursor) : Cursor → Prop where
  | self : Below t t
  | child {c d : Cursor} (h : Below t c) (hd : d ∈ c.children) : Below t d

theorem Below.trans (h : t.Below c) (hd : c.Below d) : t.Below d := by
  induction hd with
  | self => exact h
  | child _ hd ih => exact .child ih hd

mutual

theorem below_of_mem_preorderFrom {up : List Step} : ∀ {n : Node}, d ∈ preorderFrom up n → Below ⟨n, up⟩ d
  | .mk l cs, h => by
    unfold preorderFrom at h
    rcases List.mem_cons.1 h with rfl | h
    · exact .self
    · obtain ⟨i, n, hn, hd⟩ := below_of_mem_preorderList h
      have hc : (⟨n, ⟨.mk l cs, 0 + i⟩ :: up⟩ : Cursor) ∈ children ⟨.mk l cs, up⟩ :=
        mem_children_iff.2 ⟨i, hn, by rw [Nat.zero_add]⟩
      exact Below.trans (.child .self hc) hd

theorem below_of_mem_preorderList {up : List Step} {parent : Node} : ∀ {i : Nat} {ns : List Node},
    d ∈ preorderList up parent i ns → ∃ j n, ns[j]? = some n ∧ Below ⟨n, ⟨parent, i + j⟩ :: up⟩ d
  | i, [], h => by simp [preorderList] at h
  | i, n :: ns, h => by
    unfold preorderList at h
    rcases List.mem_append.1 h with h | h
    · exact ⟨0, n, rfl, below_of_mem_preorderFrom h⟩
    · obtain ⟨j, n', hn, hd⟩ := below_of_mem_preorderList h
      refine ⟨j + 1, n', hn, ?_⟩
      rwa [← Nat.add_assoc, Nat.add_right_comm]

end

theorem mem_preorderList_of_getElem? {up : List Step} {parent : Node} : ∀ {ns : List Node} {i j : Nat},
    ns[j]? = some n → d ∈ preorderFrom (⟨parent, i + j⟩ :: up) n → d ∈ preorderList up parent i ns
  | [], i, j, hn, _ => by simp at hn
  | n' :: ns, i, 0, hn, h => by
    cases hn
    unfold preorderList
    exact List.mem_append_left _ h
  | n' :: ns, i, j + 1, hn, h => by
    unfold preorderList
    refine List.mem_append_right _ (mem_preorderList_of_getElem? (j := j) hn ?_)
    rwa [Nat.add_right_comm]

theorem self_mem_preorder (c : Cursor) : c ∈ c.preorder := by
  obtain ⟨⟨l, cs⟩, up⟩ := c
  unfold preorder preorderFrom
  exact List.mem_cons_self

theorem mem_preorder_of_child (hd : d ∈ c.children) (h : e ∈ d.preorder) : e ∈ c.preorder := by
  obtain ⟨⟨l, cs⟩, up⟩ := c
  obtain ⟨i, hn, ha⟩ := mem_children_iff.1 hd
  unfold preorder preorderFrom
  refine List.mem_cons_of_mem _ (mem_preorderList_of_getElem? (j := i) hn ?_)
  rw [Nat.zero_add, ← ha]
  exact h

theorem mem_preorder_iff : d ∈ c.preorder ↔ c.Below d := by
  refine ⟨below_of_mem_preorderFrom, fun h => ?_⟩
  -- the steps lead down, so what lies below the last of them is added from the bottom
  have key : ∀ e ∈ d.preorder, e ∈ c.preorder := by
    induction h with
    | self => exact fun e he => he
    | child _ hd ih => exact fun e he => ih e (mem_preorder_of_child hd he)
  exact key d d.self_mem_preorder

/-- In a whole tree, a node with a way up is a child of its parent. -/
theorem Below.of_parent? {root : Node} (h : (Cursor.root root).Below d) (hc : d.parent? = some c) :
    (Cursor.root root).Below c ∧ d ∈ c.children := by
  cases h with
  | self => cases hc
  | @child e _ he hd =>
    obtain rfl : e = c := Option.some.inj ((parent?_of_mem_children hd).symm.trans hc)
    exact ⟨he, hd⟩

theorem Below.parent {node root : Node} {s : Step} {up : List Step} (h : (Cursor.root root).Below ⟨node, s :: up⟩) :
    (Cursor.root root).Below ⟨s.parent, up⟩ ∧ (⟨node, s :: up⟩ : Cursor) ∈ children ⟨s.parent, up⟩ :=
  h.of_parent? rfl

theorem Below.getD_parent? {root : Node} (h : (Cursor.root root).Below d) :
    (Cursor.root root).Below (d.parent?.getD d) := by
  cases hc : d.parent? with
  | none => exact h
  | some c => exact (h.of_parent? hc).1

theorem Below.of_mem_children {root : Node} (h : (Cursor.root root).Below d) (hd : d ∈ c.children) :
    (Cursor.root root).Below c := (h.of_parent? (parent?_of_mem_children hd)).1

end Cursor

/-! ## Samples of syntax -/

namespace Node

/-- The syntax of `*int`, with its type, and the object and type of `int`. -/
def pointerType (field : FieldName) (pos : Pos) (type : TypeId) (object : ObjectId) (int : TypeId) : Node :=
  .mk ⟨some field, .starExpr, ⟨pos, pos + 4⟩, { type := some type, isType := true }⟩ [
    .mk ⟨some .x, .ident, ⟨pos + 1, pos + 4⟩,
      { name := "int", uses := some object, type := some int, isType := true }⟩ []]

/-- The syntax of `(*int)(…)` around an operand. -/
def pointerConversion (field : FieldName) (span : Span) (type : TypeId) (object : ObjectId) (int : TypeId)
    (operand : Node) : Node :=
  .mk ⟨some field, .callExpr, span, { text := "(*int)", type := some type }⟩ [
    .mk ⟨some .callee, .parenExpr, ⟨span.start, span.start + 6⟩, { type := some type, isType := true }⟩ [
      pointerType .x (span.start + 1) type object int],
    operand]

end Node

end NilFlow
