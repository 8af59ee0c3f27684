import NilFlow.Flow.Basic

/-!
# Propagation

From one occurrence of a variable to the variables that its value flows to or comes from.

* `Classifier.argumentType?`: the type that an argument passed to a parameter is assigned to.
* `Classifier.propagate`: the flow of an occurrence, with the failure that ended it.
-/

namespace NilFlow

namespace Classifier

/-- The type that an argument passed to a parameter is assigned to: an element of a variadic parameter, unless the last
argument is spread. -/
def argumentType? (k : Classifier) (v : Variable) (arg : Cursor) : Option TypeId :=
  let T := k.program.typing
  let declared := T.varType? v.id
  match arg.ancestors with
  | [] => declared
  | s :: _ =>
    if s.parent.kind ≠ .callExpr || s.parent.facts.ellipsis then declared
    else match k.program.owner? v with
      | none => declared
      | some owner =>
        match T.signature? owner.func with
        | none => declared
        | some sig =>
          if sig.variadic && owner.place.map (· + 1) = some sig.params.length then
            match declared.map T.under with
            | some (.slice e) => some e
            | _ => declared
          else declared

/-- The slot of an expression that stands for several values. -/
def tupleSlot (k : Classifier) (e : Node) (slot : Option Nat) : Option Nat :=
  if (e.facts.type.bind k.program.typing.tuple?).isSome then slot else none

/-- The cursor of a selector, when the node at a cursor is the name it selects. -/
def wholeSelector (c : Cursor) : Cursor :=
  if c.edge? = some ⟨.selectorExpr, .sel⟩ then (c.parent?).getD c else c

/-- The context in which a variable occurs at a node, and what is found from there. -/
def follow (k : Classifier) (m : Match) (c : Cursor) : Context × Findings :=
  match m.kind with
  | .call =>
    (.call, match callOf? c with
      | some call => k.dependents call m.slot
      | none => .fail ⟨.modelError, none, c.node.span, kindText c.node ++ " is not an expression"⟩)
  | .returned =>
    (.returned, k.source .returned c.node (k.tupleSlot c.node m.slot) (k.program.typing.varType? m.var.id))
  | .argument => (.argument, k.source .argument c.node (k.tupleSlot c.node m.slot) (k.argumentType? m.var c))
  | _ =>
    let c := wholeSelector c
    (contextOf k.program.typing c, k.dependents c none)

/-- The flow of an occurrence: the occurrence itself, then everything that must share the variable's type. A failure is
attributed to the variable and placed at the occurrence, unless it says otherwise. -/
def propagate (k : Classifier) (m : Match) : Flow × Option Failure :=
  match m.kind, m.cursor with
  | .docLink, _ => (.empty, none)
  | .funcValue, _ => (.empty, some ⟨.unclassifiable, some m.var, m.span, "function used as a value"⟩)
  | kind, none => (.empty, some ⟨.modelError, some m.var, m.span, kind.name ++ " match without syntax"⟩)
  | _, some c =>
    let (context, findings) := k.follow m c
    ((Flow.occurring m.var context m.span).append (k.flowOf findings.found),
      findings.failure.map fun f => (f.attributedTo m.var).placedAt m.span)

theorem within_propagate {k : Classifier} {l : List Variable} (hflow : ∀ fs, (k.flowOf fs).Within l) (m : Match) :
    (k.propagate m).1.Within l := by
  unfold propagate
  split
  · exact Flow.within_empty _
  · exact Flow.within_empty _
  · exact Flow.within_empty _
  · refine Flow.Within.append ?_ (hflow _)
    intro v hv
    simp [Flow.vars, Flow.occurring] at hv

end Classifier

end NilFlow
