import NilFlow.Proofs.Flow.Climbing
import NilFlow.Proofs.Program.Typed

/-!
# Stores

* `Paired`: values and what receives them, one each or a tuple for all.
* `Stores`: the stores of a program, with the value, what receives it and the type of the place.
* `Stores.dependents_value`: what is found from the value of a store.
* `Stores.dependents_target`: what is found from the expression that is stored into.
* `follow_returned`, `follow_argument`: the same for results and parameters.
* `Meets`, `Stores.propagate_meets`: what a match discovers that is followed through a store.
-/

namespace NilFlow

/-! ## Slots -/

variable {T : Typing} {slot slot' : Option Nat}

theorem valueType?_slot (e : Node) (h : slot.getD 0 = slot'.getD 0) : valueType? T e slot = valueType? T e slot' := by
  unfold valueType?
  rw [h]

theorem producer_slot (c : Cursor) : ∀ {slot slot' : Option Nat}, slot.getD 0 = slot'.getD 0 →
    producer T c.node slot = producer T c.node slot' := by
  induction c using Cursor.induction_children with
  | h c ih =>
    intro slot slot' h
    have hdown : ∀ f, (c.node.child? f).elim (.ok none) (producer T · slot) =
        (c.node.child? f).elim (.ok none) (producer T · slot') := by
      intro f
      cases hf : c.node.child? f with
      | none => rfl
      | some n =>
        obtain ⟨d, hd, rfl⟩ := Cursor.exists_child hf
        exact ih d (Cursor.mem_childrenAt.1 hd).1 h
    rw [producer_eq, producer_eq]
    cases hk : c.node.kind with
    | parenExpr => exact hdown .x
    | selectorExpr =>
      dsimp only
      split
      · rfl
      · exact hdown .sel
    | callExpr =>
      dsimp only
      unfold producedResult
      rw [h]
    | _ => rfl

theorem Classifier.source_slot {k : Classifier} (context : Context) (c : Cursor) (dst : Option TypeId)
    (h : slot.getD 0 = slot'.getD 0) : k.source context c.node slot dst = k.source context c.node slot' dst := by
  unfold source
  rw [valueType?_slot c.node h, producer_slot c h]

/-! ## Boxing -/

/-- A store boxes a value into every place that holds interface values as another one does. -/
theorem boxes_mono {src : Option ValueType} {dst dst' : Option TypeId} (h : boxes T src dst = true)
    (hdst : T.boxed dst = true → T.boxed dst' = true) : boxes T src dst' = true := by
  unfold boxes at h
  split at h
  · rename_i s d
    simp only [Bool.and_eq_true] at h
    obtain ⟨⟨hd, hform⟩, hs⟩ := h
    have hboxed : T.boxed dst' = true := hdst hd
    cases dst' with
    | none => cases hboxed
    | some d' =>
      have hd' : T.isInterface d' = true := hboxed
      unfold boxes
      simp only [Bool.and_eq_true]
      exact ⟨⟨hd', hform⟩, hs⟩
  · cases h

/-! ## Values and their receivers -/

/-- A value meets a receiver, with the number of the component that it receives: there is one value each, or a single
tuple for all receivers. -/
inductive Paired {α β : Type} (receivers : List α) (values : List β) (r : α) (v : β) : Nat → Prop where
  | each {i : Nat} (hl : values.length = receivers.length) (hv : values[i]? = some v) (hr : receivers[i]? = some r) :
      Paired receivers values r v 0
  | component {i : Nat} (hl : values.length ≠ receivers.length) (hv : values = [v]) (hr : receivers[i]? = some r) :
      Paired receivers values r v i

variable {k : Classifier} {q d t : Cursor} {f g : FieldName} {n : Nat}

theorem Paired.mem_values {α β : Type} {receivers : List α} {values : List β} {r : α} {v : β}
    (h : Paired receivers values r v n) : v ∈ values := by
  cases h with
  | each _ hv _ => exact List.mem_of_getElem? hv
  | component _ hv _ => simp [hv]

theorem Paired.mem_receivers {α β : Type} {receivers : List α} {values : List β} {r : α} {v : β}
    (h : Paired receivers values r v n) : r ∈ receivers := by
  cases h with
  | each _ _ hr => exact List.mem_of_getElem? hr
  | component _ _ hr => exact List.mem_of_getElem? hr

theorem Paired.map_receivers {α β γ : Type} {receivers : List α} {values : List β} {r : α} {v : β}
    (h : Paired receivers values r v n) (g : α → γ) : Paired (receivers.map g) values (g r) v n := by
  cases h with
  | @each i hl hv hr => exact .each (by simpa using hl) hv (by rw [List.getElem?_map, hr]; rfl)
  | component hl hv hr => exact .component (by simpa using hl) hv (by rw [List.getElem?_map, hr]; rfl)

theorem length_childrenAt (q : Cursor) (f : FieldName) : (q.node.childrenAt f).length = (q.childrenAt f).length := by
  rw [← Cursor.map_node_childrenAt, List.length_map]

theorem Paired.receiver? {α : Type} {receivers : List α} {r : α} (h : Paired receivers (q.childrenAt f) r d n)
    (hl : Edge.isList ⟨q.node.kind, f⟩ = true) (hslot : slot.getD 0 = n) :
    NilFlow.receiver? (d.rank?.getD 0) slot receivers (q.node.childrenAt f) = some r := by
  unfold NilFlow.receiver? spread
  rw [length_childrenAt]
  cases h with
  | @each i hlen hv hr =>
    rw [Cursor.rank?_of_getElem? hv hl, if_pos (by omega)]
    simpa using hr
  | component hlen hv hr =>
    have hone : (q.childrenAt f).length = 1 := by rw [hv]; rfl
    have hlt := (List.getElem?_eq_some_iff.1 hr).1
    rw [if_neg (by omega), if_pos (by omega)]
    cases slot with
    | none =>
      have hzero : n = 0 := hslot.symm
      subst hzero
      simpa using hr
    | some s =>
      have hs : s = n := hslot
      subst hs
      dsimp only
      rw [if_pos (by omega)]
      simpa using hr

theorem Paired.sourceAt (h : Paired (q.childrenAt g) (q.childrenAt f) t d n)
    (hl : Edge.isList ⟨q.node.kind, g⟩ = true) (context : Context) (dst : Option TypeId) (otherwise : Findings) :
    k.sourceAt context (t.rank?.getD 0) (q.node.childrenAt g).length (q.node.childrenAt f) dst otherwise =
      k.source context d.node (some n) dst := by
  unfold Classifier.sourceAt
  rw [length_childrenAt, length_childrenAt, ← Cursor.map_node_childrenAt q f]
  cases h with
  | @each i hlen hv hr =>
    rw [Cursor.rank?_of_getElem? hr hl, if_pos hlen, List.getElem?_map]
    dsimp only [Option.getD]
    rw [hv]
    exact Classifier.source_slot context d dst rfl
  | component hlen hv hr =>
    rw [Cursor.rank?_of_getElem? hr hl, if_neg hlen, hv]
    rfl

/-! ## The stores of a program -/

/-- The forms of stores. -/
inductive StoreForm where
  | assignment
  | declaration
  | returned
  | argument (method : Bool)
  | keyed
  | positional
  | sent
deriving DecidableEq, Repr

/-- A value of a program, with the number of a component, is stored: by which form, through which expression when there
is one, into which object, and into a place of which type. -/
inductive Stores (p : Program) : StoreForm → Cursor → Nat → Option Cursor → ObjectId → Option TypeId → Prop where
  /-- An assignment `target = value`. -/
  | assignment {q target value : Cursor} {n : Nat} {o : ObjectId} (hq : p.Holds q) (hk : q.node.kind = .assignStmt)
      (hplain : plainAssign q.node = true) (hp : Paired (q.childrenAt .lhs) (q.childrenAt .rhs) target value n)
      (ho : resolve p.typing target.node = .ok (some o)) :
      Stores p .assignment value n (some target) o target.node.facts.type
  /-- A declaration `var name = value`. -/
  | declaration {q name value : Cursor} {n : Nat} {o : ObjectId} (hq : p.Holds q) (hk : q.node.kind = .valueSpec)
      (hp : Paired (q.childrenAt .names) (q.childrenAt .values) name value n)
      (ho : resolve p.typing name.node = .ok (some o)) :
      Stores p .declaration value n (some name) o name.node.facts.type
  /-- A statement of a declared function that returns the value. -/
  | returned {q value : Cursor} {fn : Node} {n : Nat} {sig : Signature} {o : ObjectId} (hq : p.Holds q)
      (hk : q.node.kind = .returnStmt) (hfn : q.enclosing? = some fn) (hdecl : fn.kind = .funcDecl)
      (hs : enclosingSignature? p.typing q = some sig) (hp : Paired sig.results (q.childrenAt .results) o value n) :
      Stores p .returned value n none o (p.typing.varType? o)
  /-- A call of a declared function that passes the value. -/
  | argument {call value : Cursor} {n j i : Nat} {fn o : ObjectId} {sig : Signature} {dst : TypeId}
      (hq : p.Holds call) (hk : call.node.kind = .callExpr) (hconversion : isConversion call.node = false)
      (hfn : calleeOf p.typing call.node = .func fn)
      (hs : p.typing.signature? (p.typing.originFunc fn) = some sig) (hp : Passed p.typing call value j)
      (hn : n = if (p.typing.tupleOf? value.node).isSome then j else 0)
      (hplace : argumentPlace (isMethodExprCall call.node) j = some i)
      (ho : parameterAt? p.typing sig (some i) call.node.facts.ellipsis = some (o, dst)) :
      Stores p (.argument sig.receiver.isSome) value n none o (some dst)
  /-- An element `key: value` of a struct literal. -/
  | keyed {lit kv key value : Cursor} {fields : List ObjectId} {o : ObjectId} (hq : p.Holds lit)
      (hk : lit.node.kind = .compositeLit) (hfields : structFields? p.typing lit.node = some fields)
      (hkv : kv ∈ lit.childrenAt .elts) (hkind : kv.node.kind = .keyValueExpr) (hkey : kv.childrenAt .key = [key])
      (hvalue : kv.childrenAt .value = [value]) (ho : resolve p.typing key.node = .ok (some o)) :
      Stores p .keyed value 0 (some key) o key.node.facts.type
  /-- An element of a struct literal without keys. -/
  | positional {lit value : Cursor} {fields : List ObjectId} {i : Nat} {o : ObjectId} (hq : p.Holds lit)
      (hk : lit.node.kind = .compositeLit) (hfields : structFields? p.typing lit.node = some fields)
      (hvalue : (lit.childrenAt .elts)[i]? = some value) (hkeyed : value.node.kind ≠ .keyValueExpr)
      (ho : fields[i]? = some o) : Stores p .positional value 0 none o (p.typing.varType? o)
  /-- A statement `chan <- value`. -/
  | sent {q chan value : Cursor} {o : ObjectId} {t dst : TypeId} (hq : p.Holds q) (hk : q.node.kind = .sendStmt)
      (hchan : q.childrenAt .chan = [chan]) (hvalue : q.childrenAt .value = [value])
      (ho : resolve p.typing chan.node = .ok (some o)) (ht : chan.node.facts.type = some t)
      (hdst : p.typing.under t = .chan dst) : Stores p .sent value 0 (some chan) o (some dst)

/-! ### From the value -/

theorem mem_definedVars_of_getElem? {names : List Node} {skip : Option Nat} {i : Nat} {x : Node} {o : ObjectId}
    (hi : names[i]? = some x) (hskip : some i ≠ skip) (hname : x.facts.name ≠ "_")
    (hdeclares : x.facts.declares = some o) (ho : T.isVar o = true) : o ∈ definedVars T names skip := by
  unfold definedVars
  refine List.mem_filterMap.2 ⟨(x, i), List.mk_mem_zipIdx_iff_getElem?.2 hi, ?_⟩
  dsimp only
  rw [if_neg (by simp [hname, hskip]), hdeclares]
  simp [ho]

theorem mem_definedVars {names : List Node} {x : Node} {o : ObjectId} (hx : x ∈ names) (hname : x.facts.name ≠ "_")
    (hdeclares : x.facts.declares = some o) (ho : T.isVar o = true) : o ∈ definedVars T names none := by
  obtain ⟨i, hi⟩ := List.getElem?_of_mem hx
  exact mem_definedVars_of_getElem? hi (by simp) hname hdeclares ho

theorem exists_name_of_mem_definedVars {names : List Node} {skip : Option Nat} {o : ObjectId}
    (h : o ∈ definedVars T names skip) : ∃ n ∈ names, n.facts.declares = some o := by
  obtain ⟨⟨n, i⟩, hn, ho⟩ := List.mem_filterMap.1 h
  dsimp only at ho
  split at ho
  · cases ho
  · exact ⟨n, List.mem_of_getElem? (List.mk_mem_zipIdx_iff_getElem?.1 hn), (Option.filter_eq_some_iff.1 ho).1⟩

theorem of_resolve_ident {x : Node} {o : ObjectId} (hk : x.kind = .ident) (h : resolve T x = .ok (some o)) :
    x.facts.name ≠ "_" ∧ x.object? = some o ∧ T.isVar o = true := by
  rw [resolve_eq, hk] at h
  dsimp only at h
  unfold resolveIdent at h
  split at h
  · cases h
  · rename_i hname
    split at h
    · cases h
    · rename_i o' ho
      split at h
      · rename_i hvar
        cases h
        exact ⟨hname, ho, hvar⟩
      · cases h

section Value

variable {value target : Cursor} {o : ObjectId}

theorem target_eq {context : Context} {e : Node} {src : Option ValueType} {dst : Option TypeId}
    (ho : resolve k.program.typing e = .ok (some o)) :
    k.target context e src dst = k.stored context e.span src (dst.or e.facts.type) [o] := by
  unfold Classifier.target
  rw [ho]

theorem dependents_assigned (hk : q.node.kind = .assignStmt) (hplain : plainAssign q.node = true)
    (hp : Paired (q.childrenAt .lhs) (q.childrenAt .rhs) target value n)
    (ho : resolve k.program.typing target.node = .ok (some o)) (he : value.node.kind.isExpr = true)
    (hslot : slot.getD 0 = n) : k.dependents value slot = k.stored .assignValue target.node.span
      (valueType? k.program.typing value.node slot) target.node.facts.type [o] := by
  have hctx : contextOf k.program.typing value = .assignValue := by
    rw [contextOf_child hp.mem_values, hk]
    exact if_pos hplain
  have hr := (hp.map_receivers Cursor.node).receiver? (by rw [hk]; rfl) hslot
  rw [Cursor.map_node_childrenAt] at hr
  rw [Classifier.dependents_child (Cursor.mem_childrenAt.1 hp.mem_values).1 he, hctx]
  dsimp only
  unfold Classifier.assignedValue
  dsimp only
  rw [hr]
  exact target_eq ho

theorem context_specValue (hk : q.node.kind = .valueSpec) (hd : value ∈ q.childrenAt .values) :
    contextOf T value = .specValue := by
  rw [contextOf_child hd, hk]
  rfl

/-- Without a declared type, an initializer reaches its name. -/
theorem dependents_initializer (hk : q.node.kind = .valueSpec) (htype : (q.node.child? .typeExpr).isSome = false)
    (hp : Paired (q.childrenAt .names) (q.childrenAt .values) target value n)
    (ho : resolve k.program.typing target.node = .ok (some o)) (he : value.node.kind.isExpr = true)
    (hslot : slot.getD 0 = n) : k.dependents value slot = k.stored .specValue target.node.span
      (valueType? k.program.typing value.node slot) target.node.facts.type [o] := by
  have hr := (hp.map_receivers Cursor.node).receiver? (by rw [hk]; rfl) hslot
  rw [Cursor.map_node_childrenAt] at hr
  rw [Classifier.dependents_child (Cursor.mem_childrenAt.1 hp.mem_values).1 he, context_specValue hk hp.mem_values]
  dsimp only
  unfold Classifier.specValue
  dsimp only
  rw [htype, if_neg (by simp), hr]
  exact target_eq ho

/-- Under a declared type, an initializer reaches all names. -/
theorem dependents_typed_initializer {v : ObjectId} {vs : List ObjectId} (hk : q.node.kind = .valueSpec)
    (htype : (q.node.child? .typeExpr).isSome = true) (hd : value ∈ q.childrenAt .values)
    (he : value.node.kind.isExpr = true)
    (hvars : definedVars k.program.typing (q.node.childrenAt .names) none = v :: vs) :
    k.dependents value slot = k.stored .specValue q.node.span (valueType? k.program.typing value.node slot)
      (k.program.typing.varType? v) (v :: vs) := by
  rw [Classifier.dependents_child (Cursor.mem_childrenAt.1 hd).1 he, context_specValue hk hd]
  dsimp only
  unfold Classifier.specValue
  dsimp only
  rw [htype, if_pos rfl, hvars]

theorem dependents_returned {fn : Node} {sig : Signature} (hk : q.node.kind = .returnStmt)
    (hfn : q.enclosing? = some fn) (hdecl : fn.kind = .funcDecl)
    (hs : enclosingSignature? k.program.typing q = some sig)
    (hp : Paired sig.results (q.childrenAt .results) o value n) (hvalue : value.node.kind ∈ walkedKinds)
    (hslot : slot.getD 0 = n) : k.dependents value slot = k.stored .returned value.node.span
      (valueType? k.program.typing value.node slot) (k.program.typing.varType? o) [o] := by
  have hd := (Cursor.mem_childrenAt.1 hp.mem_values).1
  have hctx : contextOf k.program.typing value = .returned := by
    rw [contextOf_child hp.mem_values, hk]
    rfl
  have henclosing : value.enclosing? = some fn := by
    have hall : ∀ kind ∈ walkedKinds, ¬ (kind = .funcDecl ∨ kind = .funcLit) := by decide
    rw [Cursor.enclosing?_of_mem_children hd, if_neg (hall _ hvalue)]
    exact hfn
  rw [enclosingSignature?_of_decl hfn hdecl] at hs
  rw [Classifier.dependents_child hd (isExpr_of_walked hvalue), hctx]
  dsimp only
  unfold Classifier.returned
  dsimp only
  rw [henclosing]
  dsimp only
  rw [if_neg (by simp [hdecl]), hs]
  dsimp only
  rw [hp.receiver? (by rw [hk]; rfl) hslot]

theorem dependents_keyed {lit kv key : Cursor} {fields : List ObjectId} (hk : lit.node.kind = .compositeLit)
    (hfields : structFields? k.program.typing lit.node = some fields) (hkv : kv ∈ lit.childrenAt .elts)
    (hkind : kv.node.kind = .keyValueExpr) (hkey : kv.childrenAt .key = [key])
    (hd : value ∈ kv.childrenAt .value) (ho : resolve k.program.typing key.node = .ok (some o))
    (he : value.node.kind.isExpr = true) : k.dependents value slot = k.stored .keyedValue kv.node.span
      (valueType? k.program.typing value.node slot) (k.program.typing.varType? (k.program.typing.originVar o)) [o] := by
  have hctx : contextOf k.program.typing value = .keyedValue := by
    rw [contextOf_child hd, hkind]
    rfl
  have hlit : isStructLiteral k.program.typing lit.node = true := by simp [isStructLiteral, hk, hfields]
  rw [Classifier.dependents_child (Cursor.mem_childrenAt.1 hd).1 he, hctx]
  dsimp only
  rw [Cursor.parent?_of_mem_children (Cursor.mem_childrenAt.1 hkv).1]
  dsimp only
  rw [if_pos hlit]
  unfold Classifier.keyedField
  rw [Cursor.child?_of_childrenAt hkey]
  dsimp only [Option.elim]
  rw [ho]

theorem dependents_positional {lit : Cursor} {fields : List ObjectId} {i : Nat} (hk : lit.node.kind = .compositeLit)
    (hfields : structFields? k.program.typing lit.node = some fields)
    (hvalue : (lit.childrenAt .elts)[i]? = some value) (ho : fields[i]? = some o)
    (he : value.node.kind.isExpr = true) : k.dependents value slot = k.stored .element value.node.span
      (valueType? k.program.typing value.node slot) (k.program.typing.varType? o) [o] := by
  have hd := List.mem_of_getElem? hvalue
  have hctx : contextOf k.program.typing value = .element := by
    rw [contextOf_child hd, hk]
    rfl
  rw [Classifier.dependents_child (Cursor.mem_childrenAt.1 hd).1 he, hctx]
  dsimp only
  rw [hfields, Cursor.rank?_of_getElem? hvalue (by rw [hk]; rfl)]
  dsimp only [Option.getD]
  rw [ho]

theorem dependents_sent {chan : Cursor} {t dst : TypeId} (hk : q.node.kind = .sendStmt)
    (hchan : q.childrenAt .chan = [chan]) (hd : value ∈ q.childrenAt .value)
    (ho : resolve k.program.typing chan.node = .ok (some o)) (ht : chan.node.facts.type = some t)
    (hdst : k.program.typing.under t = .chan dst) (he : value.node.kind.isExpr = true) :
    k.dependents value slot = k.stored .sendValue chan.node.span (valueType? k.program.typing value.node slot)
      (some dst) [o] := by
  have hctx : contextOf k.program.typing value = .sendValue := by
    rw [contextOf_child hd, hk]
    rfl
  rw [Classifier.dependents_child (Cursor.mem_childrenAt.1 hd).1 he, hctx]
  dsimp only
  unfold Classifier.sent
  rw [Cursor.child?_of_childrenAt hchan]
  dsimp only
  rw [ht]
  dsimp only [Option.map]
  rw [hdst]
  exact target_eq ho

/-- The walk from a passed value finds its number among the values of the call. -/
theorem Passed.receivingPlace_eq {call : Cursor} {j : Nat} (h : Passed T call value j)
    (hk : call.node.kind = .callExpr) (hslot : slot.getD 0 = if (T.tupleOf? value.node).isSome then j else 0) :
    receivingPlace call.node (value.rank?.getD 0) slot = argumentPlace (isMethodExprCall call.node) j := by
  unfold receivingPlace
  congr 1
  have hl : Edge.isList ⟨call.node.kind, .args⟩ = true := by
    rw [hk]
    rfl
  rw [length_childrenAt]
  cases h with
  | single hj ht =>
    have hlt := (List.getElem?_eq_some_iff.1 hj).1
    have hfirst : slot.getD 0 = 0 := by simpa [Typing.tupleOf?, ht] using hslot
    rw [Cursor.rank?_of_getElem? hj hl]
    split
    · rename_i hone
      have hzero : j = 0 := by omega
      subst hzero
      exact hfirst
    · rfl
  | component ha ht hj =>
    have hslot : slot.getD 0 = j := by simpa [Typing.tupleOf?, ht] using hslot
    have hfirst : (call.childrenAt .args)[0]? = some value := by rw [ha]; rfl
    rw [Cursor.rank?_of_getElem? hfirst hl, ha]
    exact hslot

theorem Passed.mem {call : Cursor} {j : Nat} (h : Passed T call value j) : value ∈ call.childrenAt .args := by
  cases h with
  | single hj _ => exact List.mem_of_getElem? hj
  | component ha _ _ => simp [ha]

/-- What is found from an argument are the parameters of all declarations that share them. -/
theorem dependents_passed {call : Cursor} {j i : Nat} {fn : ObjectId} {sig : Signature} {dst : TypeId}
    (hk : call.node.kind = .callExpr) (hconversion : isConversion call.node = false)
    (hfn : calleeOf k.program.typing call.node = .func fn)
    (hs : k.program.typing.signature? (k.program.typing.originFunc fn) = some sig)
    (hp : Passed k.program.typing call value j) (hplace : argumentPlace (isMethodExprCall call.node) j = some i)
    (ho : parameterAt? k.program.typing sig (some i) call.node.facts.ellipsis = some (o, dst))
    (he : value.node.kind.isExpr = true)
    (hslot : slot.getD 0 = if (k.program.typing.tupleOf? value.node).isSome then j else 0) :
    k.dependents value slot =
      if boxes k.program.typing (valueType? k.program.typing value.node slot) (some dst) || !k.accepts dst then .nothing
      else match k.sharedParameters call.node value.node (some i) call.node.facts.ellipsis
          (k.program.declarations k.settings.overrides fn) with
        | .error f => .fail f
        | .ok params => .one ⟨.argument, value.node.span, params, true⟩ := by
  have hctx : contextOf k.program.typing value = .argument := by
    rw [contextOf_child hp.mem, hk]
    exact if_neg (by simp [hconversion])
  rw [Classifier.dependents_child (Cursor.mem_childrenAt.1 hp.mem).1 he, hctx]
  dsimp only
  rw [hfn]
  dsimp only
  have hreceiving : k.receiving? call.node fn (value.rank?.getD 0) slot = some (o, dst) := by
    unfold Classifier.receiving?
    dsimp only
    rw [hp.receivingPlace_eq hk hslot, hplace, hs]
    exact ho
  unfold Classifier.passedTo
  rw [hp.receivingPlace_eq hk hslot, hplace]
  exact hreceiving ▸ rfl

theorem context_fieldKey {lit kv key : Cursor} {fields : List ObjectId} (hk : lit.node.kind = .compositeLit)
    (hfields : structFields? T lit.node = some fields) (hkv : kv ∈ lit.childrenAt .elts)
    (hkind : kv.node.kind = .keyValueExpr) (hkey : key ∈ kv.childrenAt .key) : contextOf T key = .fieldKey := by
  obtain ⟨i, -, ha⟩ := Cursor.mem_children_iff.1 (Cursor.mem_childrenAt.1 hkey).1
  obtain ⟨j, -, hb⟩ := Cursor.mem_children_iff.1 (Cursor.mem_childrenAt.1 hkv).1
  have hlit : isStructLiteral T lit.node = true := by simp [isStructLiteral, hk, hfields]
  rw [contextOf_child hkey, hkind, ha, hb]
  exact if_pos hlit

theorem Typing.not_typeParam_of_nilable {t : TypeId} (h : T.nilable t = true) (hi : T.isInterface t = true) :
    T.isTypeParam t = false := by
  unfold Typing.isInterface at hi
  unfold Typing.nilable at h
  split at hi
  · rename_i hform
    rw [hform] at h
    simpa using h
  · cases hi

/-- A store other than by a call is found from its value, unless it boxes. The place that decides holds interface values
as the one that is stored into does, except for a type parameter. -/
theorem Stores.dependents_value {form : StoreForm} {target : Option Cursor} {dst : Option TypeId}
    (hw : k.program.WellTyped) (h : Stores k.program form value n target o dst)
    (hform : ∀ method, form ≠ .argument method) (hvalue : value.node.kind ∈ walkedKinds) (hslot : slot.getD 0 = n) :
    ∃ context span dst' objects, k.dependents value slot =
      k.stored context span (valueType? k.program.typing value.node slot) dst' objects ∧ o ∈ objects ∧
      (k.program.typing.boxed dst = true → k.program.typing.boxed dst' = true) ∧
      ((∀ t ∈ k.program.typing.varType? (k.program.typing.originVar o), k.program.typing.nilable t = true) →
        k.program.typing.boxed dst' = true → k.program.typing.boxed dst = true) := by
  have he := isExpr_of_walked hvalue
  cases h with
  | assignment hq hk hplain hp ho =>
    exact ⟨_, _, _, _, dependents_assigned hk hplain hp ho he hslot, List.mem_cons_self, id, fun _ => id⟩
  | @declaration q name value n o hq hk hp ho =>
    cases htype : (q.node.child? .typeExpr).isSome with
    | false => exact ⟨_, _, _, _, dependents_initializer hk htype hp ho he hslot, List.mem_cons_self, id, fun _ => id⟩
    | true =>
      -- all names hold interface values together, so the first one decides as well as any other
      have hname := Cursor.node_mem_of_mem_childrenAt hp.mem_receivers
      obtain ⟨hident, hdeclared⟩ := (hw.types q hq).declared hk name.node hname
      obtain ⟨hblank, hobject, hvar⟩ := of_resolve_ident hident ho
      obtain ⟨hdeclares, hboxed⟩ := hdeclared hblank
      have hmem := mem_definedVars hname hblank (hdeclares.symm.trans hobject) hvar
      cases hvars : definedVars k.program.typing (q.node.childrenAt .names) none with
      | nil => simp [hvars] at hmem
      | cons v vs =>
        have hfirst := hboxed htype v (by simp [hvars])
        rw [hvars] at hmem
        exact ⟨_, _, _, _, dependents_typed_initializer hk htype hp.mem_values he hvars, hmem,
          fun h => hfirst.trans h, fun _ h => hfirst.symm.trans h⟩
  | returned hq hk hfn hdecl hs hp =>
    exact ⟨_, _, _, _, dependents_returned hk hfn hdecl hs hp hvalue hslot, List.mem_cons_self, id, fun _ => id⟩
  | argument => exact absurd rfl (hform _)
  | @keyed lit kv key value fields o hq hk hfields hkv hkind hkey hval ho =>
    have hkeymem : key ∈ kv.childrenAt .key := by simp [hkey]
    have hholds : k.program.Holds key := (hq.child hkv).child hkeymem
    obtain ⟨hident, hboxed⟩ := (hw.objects key hholds).key (context_fieldKey hk hfields hkv hkind hkeymem)
    obtain ⟨-, hobject, -⟩ := of_resolve_ident hident ho
    have hfield := hboxed o hobject
    refine ⟨_, _, _, _, dependents_keyed hk hfields hkv hkind hkey (by simp [hval]) ho he, List.mem_cons_self,
      fun h => (hw.instances o).generic (hfield.trans h), fun hnilable h => ?_⟩
    unfold Typing.boxed at h
    obtain ⟨t, ht, hi⟩ := (Option.any_eq_true _ _).1 h
    exact hfield.symm.trans ((hw.instances o).instance_ t ht (Typing.not_typeParam_of_nilable (hnilable t ht) hi) hi)
  | positional hq hk hfields hval hkeyed ho =>
    exact ⟨_, _, _, _, dependents_positional hk hfields hval ho he, List.mem_cons_self, id, fun _ => id⟩
  | sent hq hk hchan hval ho ht hdst =>
    exact ⟨_, _, _, _, dependents_sent hk hchan (by simp [hval]) ho ht hdst he, List.mem_cons_self, id, fun _ => id⟩

end Value

/-! ### From the expression that is stored into -/

/-- A name and a variable are declared together, under a declared type. -/
def DeclaredWith (T : Typing) (name : Cursor) (o : ObjectId) : Prop :=
  ∃ spec : Cursor, spec.node.kind = .valueSpec ∧ (spec.node.child? .typeExpr).isSome = true ∧
    name ∈ spec.childrenAt .names ∧ o ∈ definedVars T (spec.node.childrenAt .names) none

theorem mem_definedVars_of_skip {names : List Node} {skip : Option Nat} {o : ObjectId}
    (h : o ∈ definedVars T names skip) : o ∈ definedVars T names none := by
  obtain ⟨⟨x, i⟩, hx, ho⟩ := List.mem_filterMap.1 h
  refine List.mem_filterMap.2 ⟨(x, i), hx, ?_⟩
  dsimp only at ho ⊢
  split at ho
  · cases ho
  · rename_i hskip
    simp only [Bool.or_eq_true, decide_eq_true_eq, not_or] at hskip
    rw [if_neg (by simp [hskip.1])]
    exact ho

/-- From the expression that is stored into, the source of the value is found, after what is declared together. -/
theorem Stores.dependents_target {form : StoreForm} {value target : Cursor} {o : ObjectId} {dst : Option TypeId}
    (h : Stores k.program form value n (some target) o dst) (hform : form ≠ .sent)
    (he : target.node.kind.isExpr = true) (slot : Option Nat) : ∃ (context : Context) (siblings : Findings),
      siblings.failure = none ∧
      (∀ f ∈ siblings.found, ∀ x ∈ f.objects, DeclaredWith k.program.typing target x) ∧
      k.dependents target slot = siblings.andThen (k.source context value.node (some n) dst) := by
  have hnone : ∀ f ∈ Findings.nothing.found, ∀ x ∈ f.objects, DeclaredWith k.program.typing target x := by
    intro f hf
    cases hf
  cases h with
  | @assignment q _ _ n o hq hk hplain hp ho =>
    have hctx : contextOf k.program.typing target = .assignTarget := by
      rw [contextOf_child hp.mem_receivers, hk]
      exact if_pos hplain
    refine ⟨.assignTarget, .nothing, rfl, hnone, ?_⟩
    rw [Classifier.dependents_child (Cursor.mem_childrenAt.1 hp.mem_receivers).1 he, hctx]
    dsimp only
    unfold Classifier.assignedTarget
    rw [hp.sourceAt (by rw [hk]; rfl)]
    rfl
  | @declaration q _ _ n o hq hk hp ho =>
    have hctx : contextOf k.program.typing target = .specName := by
      rw [contextOf_child hp.mem_receivers, hk]
      rfl
    rw [Classifier.dependents_child (Cursor.mem_childrenAt.1 hp.mem_receivers).1 he, hctx]
    dsimp only
    unfold Classifier.specName
    dsimp only
    rw [hp.sourceAt (by rw [hk]; rfl)]
    cases htype : (q.node.child? .typeExpr).isSome with
    | false => exact ⟨.specName, .nothing, rfl, hnone, rfl⟩
    | true =>
      refine ⟨.specName, _, rfl, ?_, rfl⟩
      intro f hf x hx
      obtain rfl := List.mem_singleton.1 hf
      exact ⟨q, hk, htype, hp.mem_receivers, mem_definedVars_of_skip hx⟩
  | @keyed lit kv _ _ fields o hq hk hfields hkv hkind hkey hval ho =>
    have hmem : target ∈ kv.childrenAt .key := by simp [hkey]
    refine ⟨.fieldKey, .nothing, rfl, hnone, ?_⟩
    rw [Classifier.dependents_child (Cursor.mem_childrenAt.1 hmem).1 he, context_fieldKey hk hfields hkv hkind hmem]
    dsimp only
    rw [Cursor.child?_of_childrenAt hval]
    exact Classifier.source_slot .fieldKey value _ rfl
  | sent => exact absurd rfl hform

/-! ### Results and parameters -/

theorem Typing.isVar_of_variableOf? {o : ObjectId} {v : Variable} (h : T.variableOf? o = some v) :
    T.isVar o = true := by
  unfold variableOf? at h
  split at h
  · assumption
  · cases h

theorem Typing.id_of_variableOf? {o : ObjectId} {v : Variable} (h : T.variableOf? o = some v) :
    v.id = T.originVar o := by
  unfold variableOf? at h
  split at h
  · unfold exactVariable? at h
    split at h <;> cases h
    rfl
  · cases h

section Matches

variable {value : Cursor} {m : Match} {o : ObjectId} {x : Variable} {dst : Option TypeId}

/-- A match of a result at a returned value is followed to what holds the value. -/
theorem follow_returned (hw : k.program.WellTyped) (h : Stores k.program .returned value n none o dst)
    (hx : k.program.typing.variableOf? o = some x) (hvar : m.var = x) (hk : m.kind = .returned)
    (hn : (k.tupleSlot value.node m.slot).getD 0 = n) :
    k.follow m value = (.returned, k.source .returned value.node (some n) dst) := by
  cases h with
  | @returned q _ fn n sig o hq hkind hfn hdecl hs hp =>
    have hid : m.var.id = o := by
      -- the function is declared, so its results are no instances
      rw [enclosingSignature?_of_decl hfn hdecl] at hs
      obtain ⟨f, hname, hsig⟩ := Option.bind_eq_some_iff.1 hs
      obtain ⟨name, hchild, hdeclares⟩ := Option.bind_eq_some_iff.1 hname
      have horigin := (hw.types q hq).returned hkind fn hfn name hchild f hdeclares
      have hown := (hw.owners f).own sig (horigin.symm ▸ hsig) o (List.mem_append_right _ hp.mem_receivers)
      rw [hvar, Typing.id_of_variableOf? hx, hown]
    unfold Classifier.follow
    rw [hk]
    dsimp only
    rw [hid]
    exact congrArg (Prod.mk _) (Classifier.source_slot .returned value _ hn)

theorem exists_place_of_parameterAt? {sig : Signature} {i : Nat} {ellipsis : Bool} {dst : TypeId}
    (h : parameterAt? T sig (some i) ellipsis = some (o, dst)) : sig.paramAt (some i) = some o ∧
      ∃ j t, sig.params[j]? = some o ∧ T.varType? o = some t ∧
      ((sig.variadic = true ∧ j + 1 = sig.params.length ∧ ellipsis = false ∧ T.under t = .slice dst) ∨
        (¬ (sig.variadic = true ∧ j + 1 = sig.params.length ∧ ellipsis = false) ∧ dst = t)) := by
  unfold parameterAt? at h
  unfold Signature.paramAt
  dsimp only at h ⊢
  split at h
  · rename_i hlast
    rw [if_pos hlast]
    simp only [Bool.and_eq_true, decide_eq_true_eq] at hlast
    obtain ⟨q, hq, h⟩ := Option.bind_eq_some_iff.1 h
    obtain ⟨t, ht, h⟩ := Option.bind_eq_some_iff.1 h
    have hplace := hq
    rw [List.getLast?_eq_getElem?] at hplace
    have hlt := (List.getElem?_eq_some_iff.1 hplace).1
    cases ellipsis with
    | true =>
      rw [if_pos rfl] at h
      cases h
      exact ⟨hq, _, _, hplace, ht, Or.inr ⟨by simp, rfl⟩⟩
    | false =>
      rw [if_neg (by simp)] at h
      split at h
      · rename_i e he
        cases h
        exact ⟨hq, _, t, hplace, ht, Or.inl ⟨hlast.1, by omega, rfl, he⟩⟩
      · cases h
  · rename_i hlast
    rw [if_neg hlast]
    simp only [Bool.and_eq_true, decide_eq_true_eq] at hlast
    obtain ⟨q, hq, h⟩ := Option.bind_eq_some_iff.1 h
    obtain ⟨t, ht, h⟩ := Option.map_eq_some_iff.1 h
    cases h
    refine ⟨hq, i, _, hq, ht, Or.inr ⟨fun hvariadic => hlast ⟨hvariadic.1, ?_⟩, rfl⟩⟩
    omega

theorem paramAt_of_parameterAt? {sig : Signature} {place : Option Nat} {ellipsis : Bool} {dst : TypeId}
    (h : parameterAt? T sig place ellipsis = some (o, dst)) : sig.paramAt place = some o := by
  cases place with
  | none =>
    obtain ⟨r, hr, h⟩ := Option.bind_eq_some_iff.1 h
    obtain ⟨t, -, h⟩ := Option.map_eq_some_iff.1 h
    cases h
    exact hr
  | some i => exact (exists_place_of_parameterAt? h).1

theorem argumentType?_of_owner {call : Cursor} {owner : Owner} {sig : Signature} {t dst : TypeId}
    (hk : call.node.kind = .callExpr) (hmem : value ∈ call.childrenAt .args) (hx : k.program.owner? x = some owner)
    (hs : k.program.typing.signature? owner.func = some sig) (ht : k.program.typing.varType? x.id = some t)
    (hdst : (sig.variadic = true ∧ owner.place.map (· + 1) = some sig.params.length ∧
        call.node.facts.ellipsis = false ∧ k.program.typing.under t = .slice dst) ∨
      (¬ (sig.variadic = true ∧ owner.place.map (· + 1) = some sig.params.length ∧
        call.node.facts.ellipsis = false) ∧ dst = t)) : k.argumentType? x value = some dst := by
  obtain ⟨index, -, ha⟩ := Cursor.mem_children_iff.1 (Cursor.mem_childrenAt.1 hmem).1
  unfold Classifier.argumentType?
  dsimp only
  rw [ha, ht]
  dsimp only
  rw [hk, hx]
  dsimp only
  rw [hs]
  dsimp only
  rcases hdst with ⟨hvariadic, hlast, hellipsis, hslice⟩ | ⟨hnot, rfl⟩
  · rw [if_neg (by simp [hellipsis]), if_pos (by simp [hvariadic, hlast])]
    dsimp only [Option.map]
    rw [hslice]
  · split
    · rfl
    · rename_i hellipsis
      rw [if_neg]
      simp only [Bool.and_eq_true, decide_eq_true_eq]
      intro hvariadic
      exact hnot ⟨hvariadic.1, hvariadic.2, by simpa using hellipsis⟩

/-- The type that an argument is assigned to is the same from the parameter as from the call. -/
theorem argumentType?_eq {call : Cursor} {fn : ObjectId} {sig : Signature} {i : Nat} {dst : TypeId}
    (hw : k.program.WellTyped) (hk : call.node.kind = .callExpr)
    (hs : k.program.typing.signature? (k.program.typing.originFunc fn) = some sig)
    (hmem : value ∈ call.childrenAt .args)
    (ho : parameterAt? k.program.typing sig (some i) call.node.facts.ellipsis = some (o, dst))
    (hx : k.program.typing.variableOf? o = some x) (hsearch : k.program.ofLiteral x = false) :
    k.argumentType? x value = some dst := by
  obtain ⟨-, j, t, hj, ht, hdst⟩ := exists_place_of_parameterAt? ho
  have hparam : o ∈ sig.params := List.mem_of_getElem? hj
  have hid : x.id = o := by
    rw [Typing.id_of_variableOf? hx]
    exact (hw.owners fn).own sig hs o (List.mem_append_left _ hparam)
  obtain ⟨hkind, howner⟩ := (hw.owners fn).owner sig hs (o, j) (List.mk_mem_zipIdx_iff_getElem?.2 hj) x hx
  obtain ⟨owner, hfound⟩ : ∃ owner, k.program.owner? x = some owner := by
    cases hfound : k.program.owner? x with
    | none => simp [Program.ofLiteral, hkind, hfound] at hsearch
    | some owner => exact ⟨owner, rfl⟩
  obtain rfl := howner owner hfound
  exact argumentType?_of_owner hk hmem hfound hs (hid ▸ ht) (by simpa using hdst)

/-- A match of a parameter at an argument is followed to what holds the argument. -/
theorem follow_argument {method : Bool} (hw : k.program.WellTyped)
    (h : Stores k.program (.argument method) value n none o dst) (hx : k.program.typing.variableOf? o = some x)
    (hsearch : k.program.ofLiteral x = false) (hvar : m.var = x) (hk : m.kind = .argument)
    (hn : (k.tupleSlot value.node m.slot).getD 0 = n) :
    k.follow m value = (.argument, k.source .argument value.node (some n) dst) := by
  cases h with
  | @argument call _ n j i fn o sig dst hq hkind hconversion hfn hs hp hnum hplace ho =>
    unfold Classifier.follow
    rw [hk]
    dsimp only
    rw [hvar, argumentType?_eq hw hkind hs hp.mem ho hx hsearch]
    exact congrArg (Prod.mk _) (Classifier.source_slot .argument value _ hn)

/-! ### Matches of what is stored into -/

/-- A match of what is stored into is followed through the store: the walk from it comes to the target, or it is the
value that is returned or passed. -/
inductive Meets (k : Classifier) (m : Match) (value : Cursor) (n : Nat) : StoreForm → Option Cursor → Prop where
  | target {form : StoreForm} {t : Cursor} {slot : Option Nat} (h : Arrives k.program.typing m t slot) :
      Meets k m value n form (some t)
  | returned (hk : m.kind = .returned) (hc : m.cursor = some value)
      (hn : (k.tupleSlot value.node m.slot).getD 0 = n) : Meets k m value n .returned none
  | argument {method : Bool} (hk : m.kind = .argument) (hc : m.cursor = some value)
      (hn : (k.tupleSlot value.node m.slot).getD 0 = n) : Meets k m value n (.argument method) none

/-- Such a match discovers the source of the value, after what is declared together with the target. -/
theorem Stores.propagate_meets {form : StoreForm} {target : Option Cursor} (hw : k.program.WellTyped)
    (h : Stores k.program form value n target o dst) (hform : form ≠ .sent)
    (hx : k.program.typing.variableOf? o = some x) (hl : k.program.ofLiteral x = false) (hvar : m.var = x)
    (hm : Meets k m value n form target) : ∃ (context : Context) (siblings : Findings), siblings.failure = none ∧
      (∀ f ∈ siblings.found, ∀ y ∈ f.objects, ∃ t ∈ target, DeclaredWith k.program.typing t y) ∧
      (k.propagate m).1.vars =
        (k.flowOf (siblings.andThen (k.source context value.node (some n) dst)).found).vars ∧
      (k.propagate m).2 = (siblings.andThen (k.source context value.node (some n) dst)).failure.map fun f =>
        (f.attributedTo m.var).placedAt m.span := by
  have hnone : ∀ f ∈ Findings.nothing.found, ∀ y ∈ f.objects, ∃ t ∈ target, DeclaredWith k.program.typing t y := by
    intro f hf
    cases hf
  cases hm with
  | @target _ t slot harrives =>
    obtain ⟨context, siblings, hfailure, hdeclared, hfound⟩ :=
      h.dependents_target hform (isExpr_of_walked harrives.walked) slot
    obtain ⟨hvars, hfail⟩ := Classifier.propagate_of_arrives (k := k) harrives
    rw [hfound] at hvars hfail
    exact ⟨context, siblings, hfailure, fun f hf y hy => ⟨t, rfl, hdeclared f hf y hy⟩, hvars, hfail⟩
  | returned hk hc hn =>
    exact ⟨_, .nothing, rfl, hnone, Classifier.propagate_of_follow hc (by simp [hk]) (by simp [hk])
      (follow_returned hw h hx hvar hk hn)⟩
  | argument hk hc hn =>
    exact ⟨_, .nothing, rfl, hnone, Classifier.propagate_of_follow hc (by simp [hk]) (by simp [hk])
      (follow_argument hw h hx hl hvar hk hn)⟩

end Matches

end NilFlow
