import NilFlow.Proofs.Flow.Arrivals
import NilFlow.Proofs.Harvest.Halting
import NilFlow.Proofs.Harvest.Writable

/-!
# Names that are declared together

* `Program.SharesType`, `Program.Declares`: a declaration that gives one type to all its names, and what these declare.
* `Program.SharesType.exists_siblings`: the walk from a name finds what the other names declare.
* `Classifier.Completes.accepted`: the members of groups have accepted types.
* `Classifier.Completes.sameGroup_of_discovery`: what the search of a member discovers, other than jointly, stays in one
  group with it.
* `Classifier.declared_together`: members of groups that one declaration declares are in one group.
-/

namespace NilFlow

variable {k : Classifier} {p : Program} {d name other : Cursor} {a b v : Variable} {i : Nat}

/-! ## Declarations -/

namespace Program

/-- A declaration gives one type to all its names: it declares variables under a type, or fields of a struct. -/
inductive SharesType (p : Program) : Cursor → Prop where
  | spec {d : Cursor} (hd : p.Holds d) (hk : d.node.kind = .valueSpec)
      (htype : (d.node.child? .typeExpr).isSome = true) : SharesType p d
  | field {struct list d : Cursor} (hs : p.Holds struct) (hstruct : struct.node.kind = .structType)
      (hlist : list ∈ struct.childrenAt .fields) (hd : d ∈ list.childrenAt .list) (hk : d.node.kind = .field) :
      SharesType p d

/-- An identifier, not the blank one, declares a variable. -/
@[mk_iff]
structure Names (p : Program) (name : Cursor) (v : Variable) : Prop where
  ident : name.node.kind = .ident
  named : name.node.facts.name ≠ "_"
  declares : ∃ o ∈ name.node.facts.declares, p.typing.variableOf? o = some v

/-- One of the names of a declaration declares a variable. -/
def Declares (p : Program) (d : Cursor) (v : Variable) : Prop := ∃ name ∈ d.childrenAt .names, p.Names name v

instance decidableNames (p : Program) (name : Cursor) (v : Variable) : Decidable (p.Names name v) :=
  decidable_of_iff _ (p.names_iff name v).symm

instance decidableDeclares (p : Program) (d : Cursor) (v : Variable) : Decidable (p.Declares d v) :=
  inferInstanceAs (Decidable (∃ _ ∈ _, _))

/-- Instances of generic declarations have no names of their own in the source: what a name declares is its own
origin. -/
def NamesOrigins (p : Program) : Prop :=
  ∀ c, p.Holds c → ∀ n ∈ c.node.childrenAt .names, ∀ o ∈ n.facts.declares, p.typing.originVar o = o

theorem namesOrigins_iff (p : Program) : p.NamesOrigins ↔ ∀ package ∈ p.packages, ∀ c ∈ package.cursors,
    ∀ n ∈ c.node.childrenAt .names, ∀ o ∈ n.facts.declares, p.typing.originVar o = o :=
  ⟨fun h package hpackage c hc => h c ⟨package, hpackage, hc⟩,
    fun h c ⟨package, hpackage, hc⟩ => h package hpackage c hc⟩

instance decidableNamesOrigins (p : Program) : Decidable p.NamesOrigins := decidable_of_iff _ p.namesOrigins_iff.symm

theorem SharesType.holds (h : p.SharesType d) : p.Holds d := by
  cases h with
  | spec hd _ _ => exact hd
  | field hs _ hlist hd _ => exact (hs.child hlist).child hd

theorem SharesType.kind (h : p.SharesType d) : d.node.kind = .valueSpec ∨ d.node.kind = .field := by
  cases h with
  | spec _ hk _ => exact Or.inl hk
  | field _ _ _ _ hk => exact Or.inr hk

theorem SharesType.isList (h : p.SharesType d) : Edge.isList ⟨d.node.kind, .names⟩ = true := by
  rcases h.kind with hk | hk <;> rw [hk] <;> rfl

theorem Names.unique (ha : p.Names name a) (hb : p.Names name b) : a = b := by
  obtain ⟨x, hx, ha⟩ := ha.declares
  obtain ⟨y, hy, hb⟩ := hb.declares
  obtain rfl := Option.some.inj (hx.symm.trans hy)
  exact Option.some.inj (ha.symm.trans hb)

theorem Names.exists_mem_definedVars {skip : Option Nat} (h : p.Names name v)
    (hi : (d.childrenAt .names)[i]? = some name) (hskip : some i ≠ skip) :
    ∃ o ∈ definedVars p.typing (d.node.childrenAt .names) skip, p.typing.variableOf? o = some v := by
  obtain ⟨o, ho, hv⟩ := h.declares
  have hnode : (d.node.childrenAt .names)[i]? = some name.node := by
    rw [← Cursor.map_node_childrenAt, List.getElem?_map, hi]
    rfl
  exact ⟨o, mem_definedVars_of_getElem? hnode hskip h.named ho (Typing.isVar_of_variableOf? hv), hv⟩

end Program

/-! ## The walk from a name -/

theorem Findings.mem_found_andThen {fs gs : Findings} {f : Finding} (h : f ∈ fs.found) :
    f ∈ (fs.andThen gs).found := by
  unfold andThen
  split
  · exact h
  · exact List.mem_append_left _ h

theorem isStructField_of_child {list struct : Cursor} (hlist : list ∈ struct.childrenAt .fields)
    (hd : d ∈ list.childrenAt .list) (hname : name ∈ d.childrenAt .names) (hk : struct.node.kind = .structType) :
    isStructField name.ancestors = true := by
  obtain ⟨hlist, hfield⟩ := Cursor.mem_childrenAt.1 hlist
  obtain ⟨_, -, hlist⟩ := Cursor.mem_children_iff.1 hlist
  obtain ⟨_, -, hd⟩ := Cursor.mem_children_iff.1 (Cursor.mem_childrenAt.1 hd).1
  obtain ⟨_, -, hname⟩ := Cursor.mem_children_iff.1 (Cursor.mem_childrenAt.1 hname).1
  rw [hname, hd, hlist]
  simp [isStructField, hfield, hk]

/-- The walk from a name finds what the other names of the declaration declare. -/
theorem Program.SharesType.exists_siblings (h : k.program.SharesType d) (hident : name.node.kind = .ident)
    (hi : (d.childrenAt .names)[i]? = some name) : ∃ f ∈ (k.dependents name none).found, f.joint = false ∧
      f.objects = definedVars k.program.typing (d.node.childrenAt .names) (some i) := by
  have hmem := List.mem_of_getElem? hi
  rw [Classifier.dependents_child (Cursor.mem_childrenAt.1 hmem).1 (by rw [hident]; rfl),
    Cursor.rank?_of_getElem? hi h.isList, contextOf_child hmem]
  cases h with
  | spec _ hk htype =>
    rw [hk]
    dsimp only [contextAt]
    unfold Classifier.specName
    dsimp only [Option.getD]
    rw [if_pos htype]
    exact ⟨_, Findings.mem_found_andThen (List.mem_singleton_self _), rfl, rfl⟩
  | field _ hstruct hlist hd hk =>
    rw [hk]
    dsimp only [contextAt]
    rw [if_pos (isStructField_of_child hlist hd hmem hstruct)]
    exact ⟨_, List.mem_singleton_self _, rfl, rfl⟩

namespace Classifier

variable {root : Root} {polls : Option Nat} {served : List Variable} {last : Run} {h : Harvest}
  {disc : Discovery Variable}

/-! ## Accepted types -/

def acceptedVars (k : Classifier) : List Variable :=
  k.program.typing.vars.filter fun v => (k.program.typing.varType? v.id).any k.accepts

theorem flowOf_accepted (k : Classifier) (fs : List Finding) : (k.flowOf fs).Within k.acceptedVars := by
  intro v hv
  obtain ⟨f, -, o, -, ho⟩ := mem_vars_flowOf.1 hv
  exact List.mem_filter.2 ⟨accepted?_mem ho, (Option.filter_eq_some_iff.1 ho).2⟩

/-- Names without initializer discover only variables of accepted types, since these are no instances. -/
theorem implicitFlow_accepted (hn : k.program.NamesOrigins) (hd : k.program.Holds d) (span : Span) :
    (k.implicitFlow span (d.node.childrenAt .names)).Within k.acceptedVars := by
  refine within_implicitFlow (fun o ho haccepts v hv => ?_) span
  obtain ⟨n, hname, hdeclares⟩ := exists_name_of_mem_definedVars ho
  refine List.mem_filter.2 ⟨Typing.variableOf?_mem hv, ?_⟩
  rwa [Typing.id_of_variableOf? hv, hn d hd n hname o hdeclares]

theorem Completes.accepted (hc : k.Completes root polls served last h) (hn : k.program.NamesOrigins)
    (hr : k.program.Makes root) (hv : h.Grouped v) : v ∈ k.acceptedVars := by
  obtain ⟨first, hb, -⟩ := hc.rounds
  exact hc.trace.mem_of_within k.flowOf_accepted
    (fun node hnode d hd => implicitFlow_accepted hn ((hr.holds hnode).trans hd)) (begins_cases hb).1
    ((Forest.elements_trim_sublist _ _).mem (hc.mem_trim_iff.1 hv))

/-! ## Discoveries of a member -/

/-- Members that the search of a member discovers, other than jointly, are in its group: no union stands in between that
could be lost. -/
theorem Completes.sameGroup_of_discovery (hc : k.Completes root polls served last h) (ha : h.Grouped a)
    (hb : h.Grouped b) (hd : disc ∈ k.discoveries a) (hjoint : disc.joint = false) (hvar : b ∈ disc.vars) :
    h.SameGroup a b := by
  obtain ⟨e, he, hsource, rfl⟩ := WorkList.exists_insertion_of_mem _ .empty (hc.discovery_mem_calls ha hd)
  have hlost : ¬ e.Lost (WorkList.Survives (k.calls (k.seed root).1 served) last.ruledOut) := by
    rintro ⟨hgathers, -⟩
    -- the source has a node, and so only co-equal candidates would hang from a union
    obtain ⟨n, hn, -⟩ := (WorkList.grown_ofCalls hc.trace.rooted).exists_parent he hsource
    simp [Insertion.gathers, Forest.gathers, hjoint, hn] at hgathers
  rw [hc.grouped_iff] at ha hb
  refine hc.sameGroup_iff.2 ((WorkList.joined_iff hc.trace.rooted ha hb).2 (.rel _ _ ?_))
  exact ⟨ha, hb, e, he, hlost, Or.inl hsource, Or.inr hvar⟩

/-! ## Names of one declaration -/

/-- The search of a declared variable discovers the others of its declaration, each for itself. -/
theorem Passes.exists_siblings (hp : k.Passes a) (hi : k.program.Indexed) (hd : k.program.SharesType d)
    (hname : name ∈ d.childrenAt .names) (hother : other ∈ d.childrenAt .names) (hne : name ≠ other)
    (ha : k.program.Names name a) (hb : k.program.Names other b) (haccepted : b ∈ k.acceptedVars) :
    ∃ disc ∈ k.discoveries a, disc.joint = false ∧ b ∈ disc.vars := by
  obtain ⟨i, hi'⟩ := List.getElem?_of_mem hname
  obtain ⟨j, hj⟩ := List.getElem?_of_mem hother
  have hskip : some j ≠ some i := by
    rintro ⟨⟩
    exact hne (Option.some.inj (hi'.symm.trans hj))
  obtain ⟨f, hf, hjoint, hobjects⟩ := hd.exists_siblings (k := k) ha.ident hi'
  -- the other variable is among what is found, and its type is accepted
  obtain ⟨o, ho, hb⟩ := hb.exists_mem_definedVars hj hskip
  have haccepts : k.accepted? o = some b := Option.filter_eq_some_iff.2 ⟨hb, (List.mem_filter.1 haccepted).2⟩
  obtain ⟨disc, hdisc, hvar⟩ := exists_discovery?_iff.2 ⟨o, hobjects ▸ ho, haccepts⟩
  -- the name is itself a match, from which the walk starts and ends there
  obtain ⟨x, hx, hvx⟩ := ha.declares
  have hedge : name.edge? ≠ some ⟨.selectorExpr, .sel⟩ := by
    rw [Cursor.edge?_of_mem_childrenAt hname]
    rcases hd.kind with hk | hk <;> simp [hk]
  obtain ⟨m, hm, hdoc, harrives⟩ := Program.Reaches.of_ident hi (hd.holds.child hname) hedge ha.ident
    (by rw [Node.object?, Option.mem_def.1 hx]; rfl) hvx
  refine ⟨disc, hp.mem_discoveries.2 ⟨m, hm, hi.exact hm, hdoc, ?_⟩, joint_of_discovery? hdisc hjoint, hvar⟩
  rw [(discoveries_of_arrives harrives).1]
  exact mem_discoveries_flowOf.2 ⟨f, hf, hdisc⟩

/-- Names that are declared with one type stay together. When a variable declaration under a type, or a declaration of
struct fields, declares two members of groups of a complete harvest, then these are members of one group. -/
theorem declared_together (hi : k.program.Indexed) (hn : k.program.NamesOrigins) (hr : k.program.Makes root)
    (hh : k.harvest root polls = .ok h) (hcomplete : h.complete = true) (hd : k.program.SharesType d)
    (ha : k.program.Declares d a) (hb : k.program.Declares d b) (hga : h.Grouped a) (hgb : h.Grouped b) :
    h.SameGroup a b := by
  obtain ⟨served, last, hc⟩ := harvest_complete_iff.1 ⟨hh, hcomplete⟩
  obtain ⟨name, hname, ha⟩ := ha
  obtain ⟨other, hother, hb⟩ := hb
  by_cases hne : name = other
  · subst hne
    obtain rfl := ha.unique hb
    obtain ⟨g, hg, hmem⟩ := hga
    exact ⟨g, hg, hmem, hmem⟩
  · obtain ⟨disc, hdisc, hjoint, hvar⟩ :=
      (hc.served_once hga).2.exists_siblings hi hd hname hother hne ha hb (hc.accepted hn hr hgb)
    exact hc.sameGroup_of_discovery hga hgb hdisc hjoint hvar

end Classifier

/-! ## Two declarations -/

namespace DeclaredTogether

/-- The syntax of `var A, B, C *int`. -/
def declared : Node :=
  .mk ⟨some .specs, .valueSpec, ⟨16, 28⟩, {}⟩ [
    .mk ⟨some .names, .ident, ⟨16, 17⟩, { name := "A", declares := some 0, type := some 0 }⟩ [],
    .mk ⟨some .names, .ident, ⟨19, 20⟩, { name := "B", declares := some 2, type := some 2 }⟩ [],
    .mk ⟨some .names, .ident, ⟨22, 23⟩, { name := "C", declares := some 3, type := some 3 }⟩ [],
    .pointerType .typeExpr 24 3 1 1]

/-- The syntax of `struct{ F, G *int }`. -/
def struct : Node :=
  .mk ⟨some .typeExpr, .structType, ⟨37, 56⟩, { type := some 5, isType := true }⟩ [
    .mk ⟨some .fields, .fieldList, ⟨43, 56⟩, {}⟩ [
      .mk ⟨some .list, .field, ⟨45, 54⟩, {}⟩ [
        .mk ⟨some .names, .ident, ⟨45, 46⟩, { name := "F", declares := some 5, type := some 6 }⟩ [],
        .mk ⟨some .names, .ident, ⟨48, 49⟩, { name := "G", declares := some 6, type := some 6 }⟩ [],
        .pointerType .typeExpr 50 6 1 1]]]

/-- The syntax of the variables, of `type T struct{ F, G *int }`, and of `func f() { _ = (*int)(C) }`. -/
def source : Node :=
  .mk ⟨none, .file, ⟨1, 84⟩, {}⟩ [
    .mk ⟨some .name, .ident, ⟨9, 10⟩, { name := "p" }⟩ [],
    .mk ⟨some .decls, .genDecl, ⟨12, 28⟩, {}⟩ [declared],
    .mk ⟨some .decls, .genDecl, ⟨30, 56⟩, {}⟩ [
      .mk ⟨some .specs, .typeSpec, ⟨35, 56⟩, {}⟩ [
        .mk ⟨some .name, .ident, ⟨35, 36⟩, { name := "T", declares := some 4, type := some 4 }⟩ [],
        struct]],
    .mk ⟨some .decls, .funcDecl, ⟨58, 84⟩, {}⟩ [
      .mk ⟨some .name, .ident, ⟨63, 64⟩, { name := "f", declares := some 7, type := some 7 }⟩ [],
      .mk ⟨some .typeExpr, .funcType, ⟨58, 66⟩, {}⟩ [.mk ⟨some .params, .fieldList, ⟨64, 66⟩, {}⟩ []],
      .mk ⟨some .body, .blockStmt, ⟨67, 84⟩, {}⟩ [
        .mk ⟨some .list, .assignStmt, ⟨69, 82⟩, { operator := "=" }⟩ [
          .mk ⟨some .lhs, .ident, ⟨69, 70⟩, { name := "_" }⟩ [],
          .pointerConversion .rhs ⟨73, 82⟩ 8 1 1
            (.mk ⟨some .args, .ident, ⟨80, 81⟩, { name := "C", uses := some 3, type := some 3 }⟩ [])]]]]

def typing : Typing where
  types := #[⟨.pointer 1, none⟩, ⟨.basic "int", none⟩, ⟨.pointer 1, some 0⟩, ⟨.pointer 1, some 0⟩,
    ⟨.named 4 5 false, none⟩, ⟨.struct [5, 6], none⟩, ⟨.pointer 1, some 0⟩,
    ⟨.signature ⟨none, [], [], false⟩, none⟩, ⟨.pointer 1, some 0⟩]
  objects := #[⟨"A", 16, some ⟨0, "p"⟩, .var 0 .var none (some "A")⟩, ⟨"int", 0, none, .typeName 1⟩,
    ⟨"B", 19, some ⟨0, "p"⟩, .var 2 .var none (some "B")⟩, ⟨"C", 22, some ⟨0, "p"⟩, .var 3 .var none (some "C")⟩,
    ⟨"T", 35, some ⟨0, "p"⟩, .typeName 4⟩, ⟨"F", 45, some ⟨0, "p"⟩, .var 6 .field none (some "T.UF0")⟩,
    ⟨"G", 48, some ⟨0, "p"⟩, .var 6 .field none (some "T.UF1")⟩, ⟨"f", 63, some ⟨0, "p"⟩, .func 7 none⟩]
  scope := [⟨0, "A", "", 0⟩, ⟨0, "B", "", 2⟩, ⟨0, "C", "", 3⟩, ⟨0, "T", "", 4⟩, ⟨0, "f", "", 7⟩]
  impls := []

def files : List SourceFile := [⟨"p", 0, 1, 84, [0, 10, 11, 28, 29, 56, 57, 84], false, [], some source, []⟩]

def packages : List Package := [⟨⟨0, "p"⟩, files, false⟩]

def classifier : Classifier := ⟨.ofPackages typing files packages false, .standard⟩

def root : Root := classifier.program.wholeRoot packages

def varA : Variable := ⟨0, "A", 16, some ⟨0, "p"⟩, .var, some "A"⟩

def varB : Variable := ⟨2, "B", 19, some ⟨0, "p"⟩, .var, some "B"⟩

def varC : Variable := ⟨3, "C", 22, some ⟨0, "p"⟩, .var, some "C"⟩

def varF : Variable := ⟨5, "F", 45, some ⟨0, "p"⟩, .field, some "T.UF0"⟩

def varG : Variable := ⟨6, "G", 48, some ⟨0, "p"⟩, .field, some "T.UF1"⟩

theorem namesOrigins : classifier.program.NamesOrigins := by decide

/-- The conversion rules `C` out; all other variables are in groups. -/
theorem completes : ∃ served last h, classifier.Completes root none served last h ∧ last.ruledOut = [varC] ∧
    (last.work.forest.trim last.ruledOut).elements = [varA, varB, varF, varG] := by
  have h : (classifier.evaluate root 6).map (fun out =>
      (out.2.ruledOut, (out.2.work.forest.trim out.2.ruledOut).elements)) =
        some ([varC], [varA, varB, varF, varG]) := by decide +kernel
  obtain ⟨⟨served, last⟩, he, hout⟩ := Option.map_eq_some_iff.1 h
  obtain ⟨hruled, helements⟩ := Prod.mk.inj hout
  exact ⟨served, last, _, Classifier.completes_of_evaluate he, hruled, helements⟩

/-- Without `C`, which is declared with them, `A` and `B` still are in one group, and so are the fields. -/
theorem siblings_remain : ∃ h, classifier.harvest root none = .ok h ∧ h.complete = true ∧ varC ∈ h.ruledOut ∧
    h.SameGroup varA varB ∧ h.SameGroup varF varG := by
  obtain ⟨served, last, h, hc, hruled, helements⟩ := completes
  obtain ⟨hh, hcomplete⟩ := Classifier.harvest_complete_iff.2 ⟨_, last, hc⟩
  have hi : classifier.program.Indexed := Program.indexed_ofPackages ..
  have hr : classifier.program.Makes root := .whole fun _ hq => hq
  have hgrouped : ∀ v ∈ [varA, varB, varF, varG], h.Grouped v := fun v hv => hc.mem_trim_iff.2 (by rwa [helements])
  refine ⟨h, hh, hcomplete, hc.mem_ruledOut_iff.2 (Or.inl (by simp [hruled])), ?_, ?_⟩
  · have hspec : ∃ d ∈ packages[0].cursors, (d.node.kind = .valueSpec ∧ (d.node.child? .typeExpr).isSome = true) ∧
        classifier.program.Declares d varA ∧ classifier.program.Declares d varB := by decide
    obtain ⟨d, hd, ⟨hk, htype⟩, hA, hB⟩ := hspec
    exact Classifier.declared_together hi namesOrigins hr hh hcomplete
      (.spec ⟨packages[0], List.mem_cons_self, hd⟩ hk htype) hA hB (hgrouped _ (by simp)) (hgrouped _ (by simp))
  · have hfield : ∃ s ∈ packages[0].cursors, s.node.kind = .structType ∧ ∃ list ∈ s.childrenAt .fields,
        ∃ d ∈ list.childrenAt .list, d.node.kind = .field ∧ classifier.program.Declares d varF ∧
          classifier.program.Declares d varG := by decide
    obtain ⟨s, hs, hstruct, list, hlist, d, hd, hk, hF, hG⟩ := hfield
    exact Classifier.declared_together hi namesOrigins hr hh hcomplete
      (.field ⟨packages[0], List.mem_cons_self, hs⟩ hstruct hlist hd hk) hF hG (hgrouped _ (by simp))
      (hgrouped _ (by simp))

end DeclaredTogether

end NilFlow
