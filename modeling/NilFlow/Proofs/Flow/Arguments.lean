import NilFlow.Proofs.Flow.Descent

/-!
# Arguments and their parameters

The index and the walk look for the parameter of an argument independently of each other.

* `Program.OwnersFit`: each receiver and parameter of a declared function is owned by it alone; it can be decided.
* `Program.RecordsArgument`: the index lists an argument as an occurrence of a parameter.
* `Program.RecordsArgument.exists_paramAt`, `recordsArgument_of_paramAt`: what the index lists, by place.
* `Classifier.argument_lookups_agree`: both find the same parameter, and the same type that the argument is assigned to.
-/

namespace NilFlow

/-! ## Owners -/

/-- The receiver, or the parameter at a place. -/
def Signature.declaredAt (s : Signature) : Option Nat → Option ObjectId
  | none => s.receiver
  | some j => s.params[j]?

theorem Signature.mem_of_declaredAt {s : Signature} {place : Option Nat} {o : ObjectId}
    (h : s.declaredAt place = some o) : o ∈ s.receiver.toList ++ s.params := by
  cases place with
  | none => exact List.mem_append_left _ (Option.mem_toList.2 h)
  | some j => exact List.mem_append_right _ (List.mem_of_getElem? h)

namespace Program

variable {p : Program} {v : Variable} {f o : ObjectId} {sig : Signature} {place : Option Nat}

/-- Declared functions own their receivers and parameters. -/
@[mk_iff]
structure OwnersFit (p : Program) : Prop where
  /-- They are no instances. -/
  own : ∀ f ∈ p.index.functions, ∀ sig ∈ p.typing.signature? f, ∀ o ∈ sig.receiver.toList ++ sig.params,
    p.typing.originVar o = o
  /-- A variable has one owner. -/
  once : ∀ a ∈ p.index.owners, ∀ b ∈ p.index.owners, a.1 = b.1 → a.2 = b.2

instance decidableOwnersFit (p : Program) : Decidable p.OwnersFit := decidable_of_iff _ p.ownersFit_iff.symm

theorem OwnersFit.owner?_eq {owner : Owner} (h : p.OwnersFit) (hm : (v, owner) ∈ p.index.owners) :
    p.owner? v = some owner := by
  have hsome : (p.index.owners.reverse.find? (·.1 = v)).isSome = true := by
    rw [List.find?_isSome]
    exact ⟨(v, owner), List.mem_reverse.2 hm, by simp⟩
  obtain ⟨entry, hentry⟩ := Option.isSome_iff_exists.1 hsome
  have hmem : entry ∈ p.index.owners := List.mem_reverse.1 (List.mem_of_find?_eq_some hentry)
  have hvar : entry.1 = v := by simpa using List.find?_some hentry
  have howner : entry.2 = owner := h.once entry hmem (v, owner) hm hvar
  unfold owner? Index.owner?
  rw [hentry]
  exact congrArg some howner

theorem mem_owners (hi : p.Indexed) (hf : f ∈ p.index.functions) (hs : p.typing.signature? f = some sig)
    (ho : sig.declaredAt place = some o) (hv : p.typing.variableOf? o = some v) :
    (v, ⟨f, place⟩) ∈ p.index.owners := by
  have howners : p.index.owners = p.index.functions.flatMap (Index.ownedBy p.typing) := by
    rw [hi]
    rfl
  rw [howners]
  refine List.mem_flatMap.2 ⟨f, hf, ?_⟩
  unfold Index.ownedBy
  rw [hs]
  refine List.mem_append_left _ ?_
  cases place with
  | none =>
    have hr : sig.receiver = some o := ho
    refine List.mem_append_left _ (List.mem_map.2 ⟨v, ?_, rfl⟩)
    simp [hr, hv]
  | some j =>
    refine List.mem_append_right _ (List.mem_filterMap.2 ⟨(o, j), List.mk_mem_zipIdx_iff_getElem?.2 ho, ?_⟩)
    simp [hv]

end Program

/-! ## Parameters by place -/

section Places

variable {T : Typing} {sig : Signature} {place : Option Nat} {ellipsis : Bool} {o : ObjectId} {dst : TypeId}

/-- What takes an argument is declared at a place of the signature, which decides the type of the argument. -/
theorem exists_declaredAt (h : parameterAt? T sig place ellipsis = some (o, dst)) :
    ∃ (own : Option Nat) (t : TypeId), sig.declaredAt own = some o ∧ T.varType? o = some t ∧
      ((sig.variadic = true ∧ own.map (· + 1) = some sig.params.length ∧ ellipsis = false ∧ T.under t = .slice dst) ∨
        (¬ (sig.variadic = true ∧ own.map (· + 1) = some sig.params.length ∧ ellipsis = false) ∧ dst = t)) := by
  cases place with
  | none =>
    obtain ⟨r, hr, h⟩ := Option.bind_eq_some_iff.1 h
    obtain ⟨t, ht, h⟩ := Option.map_eq_some_iff.1 h
    cases h
    exact ⟨none, _, hr, ht, Or.inr ⟨by simp, rfl⟩⟩
  | some i =>
    obtain ⟨-, j, t, hj, ht, hdst⟩ := exists_place_of_parameterAt? h
    exact ⟨some j, t, hj, ht, by simpa using hdst⟩

theorem Typing.exists_variableOf? {t : TypeId} (ht : T.varType? o = some t) (ho : T.originVar o = o) :
    ∃ v, T.variableOf? o = some v ∧ v.id = o := by
  have hform : ∃ kind origin path, T.objectForm? o = some (.var t kind origin path) := by
    unfold varType? at ht
    split at ht
    · cases ht
      exact ⟨_, _, _, ‹_›⟩
    · cases ht
  obtain ⟨kind, origin, path, hform⟩ := hform
  obtain ⟨⟨name, pos, package, form⟩, hobject, hform'⟩ := Option.map_eq_some_iff.1 hform
  obtain rfl : form = .var t kind origin path := hform'
  refine ⟨⟨o, name, pos, package, kind, path⟩, ?_, rfl⟩
  unfold variableOf? isVar exactVariable?
  rw [hform, ho, hobject]
  rfl

end Places

/-! ## What the index lists -/

section Recorded

variable {p : Program} {v : Variable} {call arg : Cursor} {fn : ObjectId} {sig : Signature} {j : Nat}

/-- The index lists an argument, or a component of it, as an occurrence of a parameter. -/
def Program.RecordsArgument (p : Program) (v : Variable) (arg : Cursor) (slot : Option Nat) : Prop :=
  ∃ m ∈ p.index.occurrencesOf v, m.kind = .argument ∧ m.cursor = some arg ∧ m.slot = slot

/-- The number of a value among those of its call is settled by the argument and the component. -/
theorem Passed.eq_number {i : Nat} (h : Passed p.typing call arg j)
    (ha : (call.childrenAt .args)[i]? = some arg ∧ passedSlot p.typing arg j = none ∨
      call.childrenAt .args = [arg] ∧ passedSlot p.typing arg j = some i) : i = j := by
  unfold passedSlot at ha
  cases h with
  | single hj ht =>
    rw [ht] at ha
    obtain ⟨hi, -⟩ := ha.resolve_right (by simp)
    obtain ⟨hlt, -⟩ := List.getElem?_eq_some_iff.1 hi
    exact (List.getElem?_inj hlt (call.nodup_childrenAt .args)).1 (hi.trans hj.symm)
  | component _ ht _ =>
    rw [ht] at ha
    obtain ⟨-, hslot⟩ := ha.resolve_left (by simp)
    exact (Option.some.inj hslot).symm

theorem callee_unique (hw : p.Resolved) {c : Cursor} {f : ObjectId} (hc : p.Holds c) (hf : UsesFunction p.typing c f)
    (hs : p.typing.signature? f = some sig) (hcall : callOf? c = some call)
    (hfn : calleeOf p.typing call.node = .func fn) : f = p.typing.originFunc fn := by
  obtain ⟨g, huses, rfl⟩ := hf.object
  obtain ⟨t, origin, hform⟩ := Typing.exists_func_of_signature? hs
  have hsignature : (p.typing.signatureType? g).isSome = true := by simp [Typing.signatureType?, hform]
  have hcalled := (hw.names c hc).callee hf.used g huses hsignature call hcall
  rw [Typing.called?_of_func hfn] at hcalled
  rw [Option.some.inj hcalled]

theorem Program.RecordsArgument.exists_paramAt (hi : p.Indexed) (hw : p.Resolved)
    (hfn : calleeOf p.typing call.node = .func fn) (hp : Passed p.typing call arg j)
    (h : p.RecordsArgument v arg (passedSlot p.typing arg j)) :
    ∃ sig q, p.typing.signature? (p.typing.originFunc fn) = some sig ∧
      sig.paramAt (argumentPlace (isMethodExprCall call.node) j) = some q ∧ p.typing.variableOf? q = some v := by
  obtain ⟨m, hm, hkind, hcursor, hslot⟩ := h
  obtain ⟨hvar, package, hpackage, c, hc, hmatch⟩ := (Program.mem_occurrencesOf_iff hi).1 hm
  cases matchFrom_of_mem hmatch with
  | @argument call' arg' f q sig i w slot hf hs hcall ha hq hv =>
    cases hvar
    cases hcursor
    cases hslot
    have hmem : arg ∈ call'.childrenAt .args := by
      rcases ha with ⟨ha, -⟩ | ⟨ha, -⟩
      · exact List.mem_of_getElem? ha
      · simp [ha]
    -- the call is the parent of its argument
    obtain rfl : call' = call := by
      have hparent := Cursor.parent?_of_mem_children (Cursor.mem_childrenAt.1 hmem).1
      rw [Cursor.parent?_of_mem_children (Cursor.mem_childrenAt.1 hp.mem).1] at hparent
      exact (Option.some.inj hparent).symm
    obtain rfl := callee_unique hw ⟨package, hpackage, hc⟩ hf hs hcall hfn
    obtain rfl : i = j := hp.eq_number (ha.imp_right fun h => ⟨h.1, h.2.1⟩)
    exact ⟨sig, q, hs, hq, hv⟩
  | ident _ _ _ hk => rcases hk with rfl | rfl <;> cases hkind
  | docLink _ _ hk =>
    rw [hk] at hkind
    cases hkind
  | call => cases hkind
  | funcValue => cases hkind
  | returned => cases hkind

theorem recordsArgument_of_paramAt (hi : p.Indexed) (hw : p.Resolved) (hq : p.Holds call)
    (hk : call.node.kind = .callExpr) (hfn : calleeOf p.typing call.node = .func fn)
    (hp : Passed p.typing call arg j) (hs : p.typing.signature? (p.typing.originFunc fn) = some sig) {o : ObjectId}
    (ho : sig.paramAt (argumentPlace (isMethodExprCall call.node) j) = some o)
    (hv : p.typing.variableOf? o = some v) : p.RecordsArgument v arg (passedSlot p.typing arg j) := by
  obtain ⟨c, ⟨package, hpackage, hmem⟩, hcalls, huses⟩ := exists_callee hw hq hk hfn
  have hm := mem_matchesAt_argument huses hs hcalls hp ho hv package.ref.number
  exact ⟨_, (Program.mem_occurrencesOf_iff hi).2 ⟨rfl, package, hpackage, c, hmem, hm⟩, rfl, rfl, rfl⟩

end Recorded

/-! ## What the walk looks up -/

namespace Classifier

variable {k : Classifier} {call arg : Cursor} {fn : ObjectId} {j : Nat} {slot : Option Nat}

theorem receiving?_eq (hk : call.node.kind = .callExpr) (hp : Passed k.program.typing call arg j)
    (hslot : slot.getD 0 = (passedSlot k.program.typing arg j).getD 0) :
    k.receiving? call.node fn (arg.rank?.getD 0) slot =
      (k.program.typing.signature? (k.program.typing.originFunc fn)).bind fun sig => parameterAt? k.program.typing sig
        (argumentPlace (isMethodExprCall call.node) j) call.node.facts.ellipsis := by
  have hnumber : slot.getD 0 = if (k.program.typing.tupleOf? arg.node).isSome then j else 0 := by
    rw [hslot]
    unfold passedSlot Typing.tupleOf?
    split <;> rfl
  unfold receiving?
  dsimp only
  rw [hp.receivingPlace_eq hk hnumber]

/-- The index and the walk agree on the parameter of an argument, and on the type that the argument is assigned to. -/
theorem argument_lookups_agree (hi : k.program.Indexed) (hw : k.program.Resolved) (ho : k.program.OwnersFit)
    (hq : k.program.Holds call) (hk : call.node.kind = .callExpr)
    (hfn : calleeOf k.program.typing call.node = .func fn)
    (hdeclared : k.program.typing.originFunc fn ∈ k.program.index.functions)
    (hfits : k.program.typing.FunctionFits (k.program.typing.originFunc fn))
    (hp : Passed k.program.typing call arg j) (hslot : slot.getD 0 = (passedSlot k.program.typing arg j).getD 0) :
    (∀ v, k.program.RecordsArgument v arg (passedSlot k.program.typing arg j) ↔
      k.program.typing.variableOf? v.id = some v ∧
        ∃ dst, k.receiving? call.node fn (arg.rank?.getD 0) slot = some (v.id, dst)) ∧
    ∀ q dst, k.receiving? call.node fn (arg.rank?.getD 0) slot = some (q, dst) →
      ∃ v, k.program.typing.variableOf? q = some v ∧ v.id = q ∧ k.argumentType? v arg = some dst := by
  rw [receiving?_eq hk hp hslot]
  refine ⟨fun v => ⟨fun h => ?_, ?_⟩, ?_⟩
  · obtain ⟨sig, q, hs, hparam, hv⟩ := h.exists_paramAt hi hw hfn hp
    obtain ⟨⟨q', dst⟩, hlookup⟩ := Option.isSome_iff_exists.1
      (hfits.isSome_parameterAt? hs (by rw [hparam]; rfl) call.node.facts.ellipsis)
    obtain rfl : q' = q := Option.some.inj ((paramAt_of_parameterAt? hlookup).symm.trans hparam)
    obtain ⟨own, t, hown, -, -⟩ := exists_declaredAt hlookup
    have hid : v.id = q' := by
      rw [Typing.id_of_variableOf? hv]
      exact ho.own _ hdeclared sig hs q' (Signature.mem_of_declaredAt hown)
    rw [hid, hs]
    exact ⟨hv, dst, hlookup⟩
  · rintro ⟨hv, dst, hlookup⟩
    obtain ⟨sig, hs, hlookup⟩ := Option.bind_eq_some_iff.1 hlookup
    exact recordsArgument_of_paramAt hi hw hq hk hfn hp hs (paramAt_of_parameterAt? hlookup) hv
  · intro q dst hlookup
    obtain ⟨sig, hs, hlookup⟩ := Option.bind_eq_some_iff.1 hlookup
    obtain ⟨own, t, hown, ht, hdst⟩ := exists_declaredAt hlookup
    obtain ⟨v, hv, hid⟩ := Typing.exists_variableOf? ht
      (ho.own _ hdeclared sig hs q (Signature.mem_of_declaredAt hown))
    have howner := ho.owner?_eq (Program.mem_owners hi hdeclared hs hown hv)
    exact ⟨v, hv, hid, argumentType?_of_owner hk hp.mem howner hs (hid ▸ ht) hdst⟩

end Classifier

/-! ## A tuple for a receiver and a variadic parameter -/

namespace Spreading

def receiverM : Variable := ⟨1, "", 35, some ⟨0, "p"⟩, .parameter, none⟩

def varX : Variable := ⟨2, "x", 40, some ⟨0, "p"⟩, .parameter, some "T.M0.PA0"⟩

/-- The call `T.m(g())` passes the first component to the receiver of `m`, and the second one to an element of `x`. -/
theorem tuple_spread : ∃ arg, classifier.program.RecordsArgument receiverM arg (some 0) ∧
    classifier.program.RecordsArgument varX arg (some 1) ∧ classifier.argumentType? varX arg = some 4 := by
  have h : ∃ call ∈ packages[0].cursors, (call.node.kind = .callExpr ∧ calleeOf typing call.node = .func 3) ∧
      (call.childrenAt .args).length = 1 ∧ ∃ arg ∈ call.childrenAt .args,
        arg.node.facts.type.bind typing.tuple? = some [5, 6] ∧
        classifier.receiving? call.node 3 (arg.rank?.getD 0) (some 0) = some (1, 0) ∧
        classifier.receiving? call.node 3 (arg.rank?.getD 0) (some 1) = some (2, 4) := by decide
  obtain ⟨call, hcall, ⟨hk, hfn⟩, hone, arg, harg, htuple, hfirst, hsecond⟩ := h
  have hholds : classifier.program.Holds call := ⟨packages[0], List.mem_cons_self, hcall⟩
  have hargs := Cursor.childrenAt_eq_singleton hone harg
  have hslot : ∀ j, passedSlot typing arg j = some j := fun j => by simp [passedSlot, htuple]
  have hagree := fun (j : Nat) (hj : j < 2) => Classifier.argument_lookups_agree (k := classifier)
    (Program.indexed_ofPackages ..) resolved (by decide) hholds hk hfn (by decide) (by decide)
    (.component hargs htuple hj) (congrArg (·.getD 0) (hslot j).symm)
  obtain ⟨hreceiver, -⟩ := hagree 0 (by decide)
  obtain ⟨hvariadic, htype⟩ := hagree 1 (by decide)
  obtain ⟨v, hv, -, htype⟩ := htype 2 4 hsecond
  obtain rfl : v = varX := Option.some.inj (hv.symm.trans (by decide))
  refine ⟨arg, ?_, ?_, htype⟩
  · rw [← hslot 0]
    exact (hreceiver receiverM).2 ⟨by decide, 0, hfirst⟩
  · rw [← hslot 1]
    exact (hvariadic varX).2 ⟨by decide, 4, hsecond⟩

end Spreading

end NilFlow
