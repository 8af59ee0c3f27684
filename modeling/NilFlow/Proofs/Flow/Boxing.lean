import NilFlow.Proofs.Flow.Arrivals

/-!
# Boxed values

* `Stores.dependents_boxed`: from a value that a store wraps into an interface, nothing is found.
* `Classifier.boxing_apart`: such a store connects neither the value to what it is stored into nor, except for channels,
  the other way round.
-/

namespace NilFlow

variable {k : Classifier} {form : StoreForm} {value : Cursor} {target : Option Cursor} {n : Nat} {o : ObjectId}
  {dst : Option TypeId} {slot : Option Nat}

/-- From a value that is boxed, nothing is found. -/
theorem Stores.dependents_boxed (hw : k.program.WellTyped) (h : Stores k.program form value n target o dst)
    (hb : boxes k.program.typing (valueType? k.program.typing value.node (some n)) dst = true)
    (hvalue : value.node.kind ∈ walkedKinds) (hslot : slot.getD 0 = n) : k.dependents value slot = .nothing := by
  have htype : valueType? k.program.typing value.node slot = valueType? k.program.typing value.node (some n) :=
    valueType?_slot value.node hslot
  by_cases hform : ∃ method, form = .argument method
  · obtain ⟨method, rfl⟩ := hform
    cases h with
    | argument hq hk hconversion hfn hs hp hn hplace ho =>
      rw [dependents_passed hk hconversion hfn hs hp hplace ho (isExpr_of_walked hvalue) (hslot.trans hn), htype, hb]
      rfl
  · obtain ⟨context, span, dst', objects, hfound, -, hboxed, -⟩ :=
      h.dependents_value (k := k) hw (fun method heq => hform ⟨method, heq⟩) hvalue hslot
    rw [hfound, htype]
    exact if_pos (boxes_mono hb hboxed)

namespace Classifier

/-- A store that wraps its value into an interface connects nothing. A match whose walk comes to the value discovers
nothing, and a match of what is stored into discovers no more than the variables that are declared with it. Only the
channel of a send statement does discover the value. -/
theorem boxing_apart (hw : k.program.WellTyped) (h : Stores k.program form value n target o dst)
    (hb : boxes k.program.typing (valueType? k.program.typing value.node (some n)) dst = true) :
    (∀ m slot, Arrives k.program.typing m value slot → slot.getD 0 = n →
      (k.propagate m).1.vars = [] ∧ (k.propagate m).2 = none) ∧
    (form ≠ .sent → ∀ x, k.program.typing.variableOf? o = some x → k.program.ofLiteral x = false →
      ∀ m, m.var = x → Meets k m value n form target → (k.propagate m).2 = none ∧
        ∀ y ∈ (k.propagate m).1.vars, ∃ t ∈ target, ∃ o', DeclaredWith k.program.typing t o' ∧
          k.accepted? o' = some y) := by
  refine ⟨fun m slot harrives hslot => ?_, fun hform x hx hl m hvar hm => ?_⟩
  · obtain ⟨hvars, hfailure⟩ := propagate_of_arrives (k := k) harrives
    rw [h.dependents_boxed hw hb harrives.walked hslot] at hvars hfailure
    exact ⟨hvars, hfailure⟩
  · obtain ⟨context, siblings, hnone, hdeclared, hvars, hfailure⟩ := h.propagate_meets hw hform hx hl hvar hm
    -- the source is not looked up, which leaves what is declared together with the target
    have hsource : k.source context value.node (some n) dst = .nothing := if_pos hb
    have hfound : siblings.andThen .nothing = ⟨siblings.found, none⟩ := by
      unfold Findings.andThen
      rw [hnone]
      exact congrArg (Findings.mk · none) (List.append_nil _)
    rw [hsource, hfound] at hvars hfailure
    refine ⟨hfailure, fun y hy => ?_⟩
    rw [hvars] at hy
    obtain ⟨f, hf, o', ho', hy⟩ := mem_vars_flowOf.1 hy
    obtain ⟨t, ht, hwith⟩ := hdeclared f hf o' ho'
    exact ⟨t, ht, o', hwith, hy⟩

/-- A match of a variable at some place discovers another variable. -/
def Discovers (k : Classifier) (v : Variable) (s : Span) (w : Variable) : Prop :=
  ∃ m ∈ (k.program.search v).toOption.getD [], m.span = s ∧ w ∈ (k.propagate m).1.vars

instance decidableDiscovers (k : Classifier) (v : Variable) (s : Span) (w : Variable) : Decidable (k.Discovers v s w) :=
  inferInstanceAs (Decidable (∃ m ∈ _, _))

end Classifier

/-! ## Stores into interfaces -/

namespace Boxed

def named (field : FieldName) (pos : Pos) (name : String) (o : ObjectId) (type : TypeId) : Node :=
  .mk ⟨some field, .ident, ⟨pos, pos + 1⟩, { name, uses := some o, type := some type }⟩ []

def typeName (field : FieldName) (pos : Pos) (name : String) (o : ObjectId) (type : TypeId) : Node :=
  .mk ⟨some field, .ident, ⟨pos, pos + 3⟩, { name, uses := some o, type := some type, isType := true }⟩ []

def declared (pos stop : Pos) (name : String) (o : ObjectId) (type : TypeId) (typeExpr : Node) : Node :=
  .mk ⟨some .decls, .genDecl, ⟨pos, stop⟩, {}⟩ [
    .mk ⟨some .specs, .valueSpec, ⟨pos + 4, stop⟩, {}⟩ [
      .mk ⟨some .names, .ident, ⟨pos + 4, pos + 5⟩, { name, declares := some o, type := some type }⟩ [], typeExpr]]

/-- The syntax of `var X *int`, `var C chan any`, `var S []any`, `var R any`, `var L []*int`, and a function with the
statements `R = X`, `C <- X`, `S = []any{X}`, `S = append(S, X)` and `for _, R = range L {}`. -/
def source : Node :=
  .mk ⟨none, .file, ⟨1, 162⟩, {}⟩ [
    .mk ⟨some .name, .ident, ⟨9, 10⟩, { name := "p" }⟩ [],
    declared 12 22 "X" 0 0 (.pointerType .typeExpr 18 0 1 1),
    declared 24 38 "C" 3 2 (.mk ⟨some .typeExpr, .chanType, ⟨30, 38⟩, { type := some 2, isType := true }⟩ [
      typeName .value 35 "any" 2 3]),
    declared 40 51 "S" 4 5 (.mk ⟨some .typeExpr, .arrayType, ⟨46, 51⟩, { type := some 5, isType := true }⟩ [
      typeName .elt 48 "any" 2 3]),
    declared 53 62 "R" 5 3 (typeName .typeExpr 59 "any" 2 3),
    declared 64 76 "L" 6 6 (.mk ⟨some .typeExpr, .arrayType, ⟨70, 76⟩, { type := some 6, isType := true }⟩ [
      .pointerType .elt 72 7 1 1]),
    .mk ⟨some .decls, .funcDecl, ⟨78, 162⟩, {}⟩ [
      .mk ⟨some .name, .ident, ⟨83, 84⟩, { name := "f", declares := some 7, type := some 8 }⟩ [],
      .mk ⟨some .typeExpr, .funcType, ⟨78, 86⟩, {}⟩ [.mk ⟨some .params, .fieldList, ⟨84, 86⟩, {}⟩ []],
      .mk ⟨some .body, .blockStmt, ⟨87, 162⟩, {}⟩ [
        .mk ⟨some .list, .assignStmt, ⟨90, 95⟩, { operator := "=" }⟩ [named .lhs 90 "R" 5 3, named .rhs 94 "X" 0 0],
        .mk ⟨some .list, .sendStmt, ⟨97, 103⟩, {}⟩ [named .chan 97 "C" 3 2, named .value 102 "X" 0 0],
        .mk ⟨some .list, .assignStmt, ⟨105, 117⟩, { operator := "=" }⟩ [
          named .lhs 105 "S" 4 5,
          .mk ⟨some .rhs, .compositeLit, ⟨109, 117⟩, { type := some 9 }⟩ [
            .mk ⟨some .typeExpr, .arrayType, ⟨109, 114⟩, { type := some 9, isType := true }⟩ [
              typeName .elt 111 "any" 2 3],
            named .elts 115 "X" 0 0]],
        .mk ⟨some .list, .assignStmt, ⟨119, 135⟩, { operator := "=" }⟩ [
          named .lhs 119 "S" 4 5,
          .mk ⟨some .rhs, .callExpr, ⟨123, 135⟩, { type := some 5 }⟩ [
            .mk ⟨some .callee, .ident, ⟨123, 129⟩, { name := "append", uses := some 11, type := some 10 }⟩ [],
            named .args 130 "S" 4 5, named .args 133 "X" 0 0]],
        .mk ⟨some .list, .rangeStmt, ⟨137, 160⟩, {}⟩ [
          .mk ⟨some .key, .ident, ⟨141, 142⟩, { name := "_" }⟩ [],
          named .value 144 "R" 5 3, named .x 154 "L" 6 6, .mk ⟨some .body, .blockStmt, ⟨156, 160⟩, {}⟩ []]]]]

def typing : Typing where
  types := #[⟨.pointer 1, none⟩, ⟨.basic "int", none⟩, ⟨.chan 3, none⟩, ⟨.aliased 2 4 4, none⟩,
    ⟨.interface [] [], some 3⟩, ⟨.slice 3, none⟩, ⟨.slice 7, none⟩, ⟨.pointer 1, some 0⟩,
    ⟨.signature ⟨none, [], [], false⟩, none⟩, ⟨.slice 3, some 5⟩, ⟨.signature ⟨none, [8, 9], [10], true⟩, none⟩,
    ⟨.slice 3, some 5⟩]
  objects := #[⟨"X", 16, some ⟨0, "p"⟩, .var 0 .var none (some "X")⟩, ⟨"int", 0, none, .typeName 1⟩,
    ⟨"any", 0, none, .typeName 3⟩, ⟨"C", 28, some ⟨0, "p"⟩, .var 2 .var none (some "C")⟩,
    ⟨"S", 44, some ⟨0, "p"⟩, .var 5 .var none (some "S")⟩, ⟨"R", 57, some ⟨0, "p"⟩, .var 3 .var none (some "R")⟩,
    ⟨"L", 68, some ⟨0, "p"⟩, .var 6 .var none (some "L")⟩, ⟨"f", 83, some ⟨0, "p"⟩, .func 8 none⟩,
    ⟨"", 0, none, .var 5 .parameter none none⟩, ⟨"", 0, none, .var 11 .parameter none none⟩,
    ⟨"", 0, none, .var 5 .result none none⟩, ⟨"append", 0, none, .builtin⟩]
  scope := [⟨0, "C", "", 3⟩, ⟨0, "L", "", 6⟩, ⟨0, "R", "", 5⟩, ⟨0, "S", "", 4⟩, ⟨0, "X", "", 0⟩, ⟨0, "f", "", 7⟩]
  impls := []

def files : List SourceFile :=
  [⟨"p", 0, 1, 162, [0, 10, 11, 22, 23, 38, 39, 51, 52, 62, 63, 76, 77, 88, 95, 103, 117, 135, 157, 160, 162], false,
    [], some source, []⟩]

def packages : List Package := [⟨⟨0, "p"⟩, files, false⟩]

def classifier : Classifier := ⟨.ofPackages typing files packages false, .standard⟩

def varX : Variable := ⟨0, "X", 16, some ⟨0, "p"⟩, .var, some "X"⟩

def varC : Variable := ⟨3, "C", 28, some ⟨0, "p"⟩, .var, some "C"⟩

def varS : Variable := ⟨4, "S", 44, some ⟨0, "p"⟩, .var, some "S"⟩

def varR : Variable := ⟨5, "R", 57, some ⟨0, "p"⟩, .var, some "R"⟩

def varL : Variable := ⟨6, "L", 68, some ⟨0, "p"⟩, .var, some "L"⟩

theorem wellTyped : classifier.program.WellTyped := by decide +kernel

/-- A node is a name of the variable with a number. -/
def Names (c : Cursor) (o : ObjectId) : Prop :=
  (c.node.kind = .ident ∧ c.node.facts.name ≠ "_" ∧ c.node.object? = some o) ∧ typing.isVar o = true ∧
    c.node.facts.type = typing.varType? o

instance decidableNames (c : Cursor) (o : ObjectId) : Decidable (Names c o) := inferInstanceAs (Decidable (_ ∧ _))

theorem Names.resolve {c : Cursor} {o : ObjectId} (h : Names c o) : resolve typing c.node = .ok (some o) := by
  obtain ⟨⟨hk, hname, ho⟩, hvar, -⟩ := h
  rw [resolve_eq, hk]
  dsimp only
  unfold resolveIdent
  rw [if_neg hname, ho]
  exact if_pos hvar

theorem Names.reaches {q c : Cursor} {f : FieldName} {o : ObjectId} {v : Variable} (h : Names c o)
    (hq : classifier.program.Holds q) (hc : c ∈ q.childrenAt f) (hk : q.node.kind ≠ .selectorExpr)
    (hv : typing.variableOf? o = some v) : classifier.program.Reaches v c none := by
  refine .of_ident (Program.indexed_ofPackages ..) (hq.child hc) ?_ h.1.1 h.1.2.2 hv
  simp [Cursor.edge?_of_mem_childrenAt hc, hk]

/-- The statement `R = X` boxes, and so neither of the two matches there discovers anything. -/
theorem assigned_apart : ∃ value target, Stores classifier.program .assignment value 0 (some target) 5 (some 3) ∧
    boxes typing (valueType? typing value.node (some 0)) (some 3) = true ∧
    (∃ m ∈ classifier.program.index.occurrencesOf varX, Arrives typing m value none ∧
      (classifier.propagate m).1.vars = []) ∧
    ∃ m ∈ classifier.program.index.occurrencesOf varR, Arrives typing m target none ∧
      ∀ y ∈ (classifier.propagate m).1.vars, ∃ o, DeclaredWith typing target o ∧ classifier.accepted? o = some y := by
  have h : ∃ q ∈ packages[0].cursors, (q.node.kind = .assignStmt ∧ plainAssign q.node = true) ∧
      ((q.childrenAt .lhs).length = 1 ∧ (q.childrenAt .rhs).length = 1) ∧ ∃ target ∈ q.childrenAt .lhs,
        ∃ value ∈ q.childrenAt .rhs, Names target 5 ∧ Names value 0 ∧
          boxes typing (valueType? typing value.node (some 0)) (some 3) = true := by decide +kernel
  obtain ⟨q, hq, ⟨hk, hplain⟩, ⟨hlhs, hrhs⟩, target, htarget, value, hvalue, hR, hX, hboxes⟩ := h
  have hholds : classifier.program.Holds q := ⟨packages[0], List.mem_cons_self, hq⟩
  have hpaired : Paired (q.childrenAt .lhs) (q.childrenAt .rhs) target value 0 := by
    refine .each (i := 0) (hrhs.trans hlhs.symm) ?_ ?_
    · rw [Cursor.childrenAt_eq_singleton hrhs hvalue]
      rfl
    · rw [Cursor.childrenAt_eq_singleton hlhs htarget]
      rfl
  have hstore := Stores.assignment (p := classifier.program) hholds hk hplain hpaired hR.resolve
  rw [hR.2.2] at hstore
  obtain ⟨hfrom, hto⟩ := Classifier.boxing_apart (k := classifier) wellTyped hstore hboxes
  obtain ⟨m, hm, -, hm'⟩ := hX.reaches (v := varX) hholds hvalue (by simp [hk]) (by decide +kernel)
  obtain ⟨l, hl, -, hl'⟩ := hR.reaches (v := varR) hholds htarget (by simp [hk]) (by decide +kernel)
  refine ⟨value, target, hstore, hboxes, ⟨m, hm, hm', (hfrom m none hm' rfl).1⟩, l, hl, hl', fun y hy => ?_⟩
  have hvar : l.var = varR := ((Program.mem_occurrencesOf_iff (Program.indexed_ofPackages ..)).1 hl).1
  obtain ⟨-, hdeclared⟩ := hto (by decide) varR (by decide +kernel) (by decide +kernel) l hvar (.target hl')
  obtain ⟨t, ht, o, hwith, ho⟩ := hdeclared y hy
  cases ht
  exact ⟨o, hwith, ho⟩

/-- Other stores box, and are followed all the same: from a channel to the value that is sent, from an element of a
literal and from what is appended to the slice, and through a range clause both ways. -/
theorem boxed_discovered : classifier.program.WellTyped ∧
    (∃ value chan, Stores classifier.program .sent value 0 (some chan) 3 (some 3) ∧
      boxes typing (valueType? typing value.node (some 0)) (some 3) = true ∧
      ∃ m ∈ classifier.program.index.occurrencesOf varC, Arrives typing m chan none ∧
        varX ∈ (classifier.propagate m).1.vars) ∧
    boxes typing (some (.typed 0)) (some 3) = true ∧ classifier.Discovers varX ⟨115, 116⟩ varS ∧
    classifier.Discovers varX ⟨133, 134⟩ varS ∧
    boxes typing (some (.typed 7)) (some 3) = true ∧ classifier.Discovers varR ⟨144, 145⟩ varL ∧
    classifier.Discovers varL ⟨154, 155⟩ varR := by
  have h : ∃ q ∈ packages[0].cursors, (q.node.kind = .sendStmt ∧ (q.childrenAt .chan).length = 1 ∧
      (q.childrenAt .value).length = 1) ∧ ∃ chan ∈ q.childrenAt .chan, ∃ value ∈ q.childrenAt .value, Names chan 3 ∧
        boxes typing (valueType? typing value.node (some 0)) (some 3) = true ∧
        varX ∈ (classifier.flowOf (classifier.dependents chan none).found).vars := by decide +kernel
  obtain ⟨q, hq, ⟨hk, hchans, hvalues⟩, chan, hchan, value, hvalue, hC, hboxes, hfound⟩ := h
  have hholds : classifier.program.Holds q := ⟨packages[0], List.mem_cons_self, hq⟩
  have hstore : Stores classifier.program .sent value 0 (some chan) 3 (some 3) :=
    .sent hholds hk (Cursor.childrenAt_eq_singleton hchans hchan) (Cursor.childrenAt_eq_singleton hvalues hvalue)
      hC.resolve (t := 2) hC.2.2 rfl
  obtain ⟨m, hm, -, hm'⟩ := hC.reaches (v := varC) hholds hchan (by simp [hk]) (by decide +kernel)
  refine ⟨wellTyped, ⟨value, chan, hstore, hboxes, m, hm, hm', ?_⟩, by decide +kernel⟩
  rw [(Classifier.propagate_of_arrives (k := classifier) hm').1]
  exact hfound

end Boxed

end NilFlow
