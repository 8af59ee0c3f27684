import NilFlow.Proofs.Tree.Cursor
import NilFlow.Program.Basic

/-!
# What the index lists

* `Cursor.Calls`: a call calls the function named at a node, through parentheses, instantiations and selectors.
* `callOf?_of_calls`, `calls_of_callOf?`: the index looks upwards for the call, and finds exactly that one.
* `MatchFrom`: everything that the index can list at a node; `Index.exact_of_mem` is a consequence.
* `Passed`, `Returned`: the values of a call's arguments and of a return statement, with their places.
* `Program.Appears`: the appearances of a variable in the source of a program.
* `Program.Appears.exists_match`: each of them is indexed, with its source.
-/

namespace NilFlow

/-! ## Calls -/

/-- The edges from a function expression to what names the function: parentheses, instantiations and selectors. -/
def functionEdges : List Edge := [⟨.parenExpr, .x⟩, ⟨.indexExpr, .x⟩, ⟨.indexListExpr, .x⟩, ⟨.selectorExpr, .sel⟩]

/-- A node is the function expression of a call, or what names the function in it. -/
inductive Cursor.Calls (call : Cursor) : Cursor → Prop where
  | callee {d : Cursor} (hc : call.node.kind = .callExpr) (hd : d ∈ call.children) (hf : d.node.field = some .callee) :
      Calls call d
  | inner {c d : Cursor} {f : FieldName} (h : Calls call c) (hd : d ∈ c.children) (hf : d.node.field = some f)
      (he : ⟨c.node.kind, f⟩ ∈ functionEdges) : Calls call d

theorem calleeEdge_iff (e : Edge) : calleeEdge e = true ↔ e ∈ functionEdges := by
  obtain ⟨kind, field⟩ := e
  unfold calleeEdge functionEdges
  constructor
  · intro h
    split at h <;> simp_all
  · intro h
    simp only [List.mem_cons, List.not_mem_nil, or_false] at h
    rcases h with h | h | h | h <;> cases h <;> rfl

variable {c call : Cursor}

theorem callOf?_of_mem_children {d : Cursor} {f : FieldName} (hd : d ∈ c.children) (hf : d.node.field = some f) :
    callOf? d = if ⟨c.node.kind, f⟩ ∈ functionEdges then callOf? c
      else if c.node.kind = .callExpr ∧ f = .callee then some c else none := by
  obtain ⟨i, -, ha⟩ := Cursor.mem_children_iff.1 hd
  unfold callOf?
  rw [ha, calledFrom, hf]
  dsimp only
  simp only [calleeEdge_iff, Bool.and_eq_true, decide_eq_true_eq]

theorem callOf?_of_calls (h : call.Calls c) : callOf? c = some call := by
  induction h with
  | callee hc hd hf =>
    rw [callOf?_of_mem_children hd hf, if_neg (by simp [functionEdges]), if_pos ⟨hc, rfl⟩]
  | inner _ hd hf he ih => rw [callOf?_of_mem_children hd hf, if_pos he, ih]

theorem calls_of_callOf? {n : Node} (hc : (Cursor.root n).Below c) (h : callOf? c = some call) : call.Calls c := by
  induction hc with
  | self => cases h
  | @child c d _ hd ih =>
    cases hf : d.node.field with
    | none =>
      obtain ⟨i, -, ha⟩ := Cursor.mem_children_iff.1 hd
      unfold callOf? at h
      rw [ha, calledFrom, hf] at h
      cases h
    | some f =>
      rw [callOf?_of_mem_children hd hf] at h
      split at h
      · rename_i he
        exact .inner (ih h) hd hf he
      · split at h
        · rename_i hcall
          cases h
          exact .callee hcall.1 hd (hf.trans (congrArg some hcall.2))
        · cases h

theorem Cursor.Calls.below_call {n : Node} (h : call.Calls c) (hc : (Cursor.root n).Below c) :
    (Cursor.root n).Below call := by
  induction h with
  | callee _ hd _ => exact hc.of_mem_children hd
  | inner _ hd _ _ ih => exact ih (hc.of_mem_children hd)

variable {T : Typing} {v : Variable}

/-- Value `j` of a call is an argument, or a component of a tuple that is the only argument. -/
inductive Passed (T : Typing) (call arg : Cursor) (j : Nat) : Prop where
  | single (hj : (call.childrenAt .args)[j]? = some arg) (ht : arg.node.facts.type.bind T.tuple? = none)
  | component {vars : List ObjectId} (ha : call.childrenAt .args = [arg])
      (ht : arg.node.facts.type.bind T.tuple? = some vars) (hj : j < vars.length)

/-- A return statement returns a value into a result: one value each, or one for all of them. -/
inductive Returned (ret value : Cursor) (sig : Signature) (r : ObjectId) : Prop where
  | single {i : Nat} (hl : (ret.childrenAt .results).length = sig.results.length)
      (hv : (ret.childrenAt .results)[i]? = some value) (hr : sig.results[i]? = some r)
  | all (hv : ret.childrenAt .results = [value]) (hr : r ∈ sig.results)

theorem Match.at?_of_variableOf? {o : ObjectId} (h : T.variableOf? o = some v) (kind : MatchKind) (c : Cursor)
    (slot : Option Nat) : Match.at? T o kind c slot = some ⟨v, kind, some c, slot, c.node.span, .exact, false⟩ := by
  unfold Match.at?
  rw [h]
  rfl

/-- The component that an argument passes, when it is a tuple. -/
def passedSlot (T : Typing) (arg : Cursor) (j : Nat) : Option Nat :=
  if (arg.node.facts.type.bind T.tuple?).isSome then some j else none

theorem mem_argumentMatches {arg : Cursor} {sig : Signature} {j : Nat} {q : ObjectId} (hp : Passed T call arg j)
    (hq : sig.paramAt (argumentPlace (isMethodExprCall call.node) j) = some q) (hv : T.variableOf? q = some v) :
    ⟨v, .argument, some arg, passedSlot T arg j, arg.node.span, .exact, false⟩ ∈ argumentMatches T call sig := by
  unfold argumentMatches passedSlot
  dsimp only
  cases hp with
  | single hj ht =>
    rw [ht]
    split
    · rename_i a n hs
      split at hs
      · rename_i b hargs
        rw [hargs] at hj
        obtain rfl : b = arg := List.mem_singleton.1 (List.mem_of_getElem? hj) ▸ rfl
        rw [ht] at hs
        cases hs
      · cases hs
    · refine List.mem_filterMap.2 ⟨(arg, j), List.mk_mem_zipIdx_iff_getElem?.2 hj, ?_⟩
      dsimp only
      rw [hq]
      exact Match.at?_of_variableOf? hv _ _ _
  | @component vars ha ht hj =>
    rw [ha, ht]
    dsimp only
    rw [ht]
    refine List.mem_filterMap.2 ⟨j, List.mem_range.2 hj, ?_⟩
    rw [hq]
    exact Match.at?_of_variableOf? hv _ _ _

/-- A return statement returns a value into the result at a place. -/
def ReturnsAt (ret value : Cursor) (sig : Signature) (i : Nat) : Prop :=
  (ret.childrenAt .results).length = sig.results.length ∧ (ret.childrenAt .results)[i]? = some value ∨
    ret.childrenAt .results = [value]

theorem Returned.exists_place {value : Cursor} {sig : Signature} {r : ObjectId} (h : Returned c value sig r) :
    ∃ i : Nat, sig.results[i]? = some r ∧ ReturnsAt c value sig i := by
  cases h with
  | single hl hvalue hr => exact ⟨_, hr, Or.inl ⟨hl, hvalue⟩⟩
  | all hvalue hr =>
    obtain ⟨i, hi⟩ := List.getElem?_of_mem hr
    exact ⟨i, hi, Or.inr hvalue⟩

theorem enclosingSignature?_of_decl {fn : Node} (hfn : c.enclosing? = some fn) (hdecl : fn.kind = .funcDecl) :
    enclosingSignature? T c = ((fn.child? .name).bind (·.facts.declares)).bind T.signature? := by
  unfold enclosingSignature?
  rw [hfn]
  exact if_pos hdecl

theorem mem_returnMatches {value : Cursor} {sig : Signature} {r : ObjectId} {i : Nat}
    (hs : enclosingSignature? T c = some sig) (hr : sig.results[i]? = some r) (h : ReturnsAt c value sig i)
    (hv : T.variableOf? r = some v) :
    ⟨v, .returned, some value, some i, value.node.span, .exact, false⟩ ∈ returnMatches T c := by
  have hlt := (List.getElem?_eq_some_iff.1 hr).1
  have hsome : ¬ (c.childrenAt .results).length = 0 := by
    rcases h with ⟨hl, -⟩ | hone
    · omega
    · simp [hone]
  unfold returnMatches
  rw [hs]
  dsimp only
  rw [if_neg hsome]
  split
  · rename_i hl
    have hat : (c.childrenAt .results)[i]? = some value := by
      rcases h with ⟨-, hat⟩ | hone
      · exact hat
      · have hzero : i = 0 := by
          rw [hone, List.length_singleton] at hl
          omega
        rw [hone, hzero]
        rfl
    refine List.mem_filterMap.2 ⟨((value, r), i), List.mk_mem_zipIdx_iff_getElem?.2 ?_, ?_⟩
    · exact List.getElem?_zip_eq_some.2 ⟨hat, hr⟩
    · exact Match.at?_of_variableOf? hv _ _ _
  · rename_i hl
    rw [h.resolve_left fun h => hl h.1]
    refine List.mem_filterMap.2 ⟨(r, i), List.mk_mem_zipIdx_iff_getElem?.2 hr, ?_⟩
    exact Match.at?_of_variableOf? hv _ _ _

/-! ## Uses of functions -/

/-- An identifier uses a function, or an instance of it, without declaring it. -/
structure UsesFunction (T : Typing) (c : Cursor) (fn : ObjectId) : Prop where
  ident : c.node.kind = .ident
  used : c.node.facts.declares = none
  object : ∃ f, c.node.facts.uses = some f ∧ T.originFunc f = fn

theorem Typing.exists_func_of_signature? {f : ObjectId} {sig : Signature}
    (h : T.signature? (T.originFunc f) = some sig) : ∃ t o, T.objectForm? f = some (.func t o) := by
  cases ho : T.objectForm? f with
  | none => simp [Typing.signature?, Typing.signatureType?, Typing.originFunc, ho] at h
  | some form =>
    cases form with
    | func t o => exact ⟨t, o, rfl⟩
    | _ => simp [Typing.signature?, Typing.signatureType?, Typing.originFunc, ho] at h

theorem matchesAt_of_usesFunction {fn : ObjectId} {sig : Signature} (h : UsesFunction T c fn)
    (hs : T.signature? fn = some sig) (package : Nat) :
    ∃ f, T.originFunc f = fn ∧ matchesAt T package c = functionMatches T c f := by
  obtain ⟨f, hu, hf⟩ := h.object
  refine ⟨f, hf, ?_⟩
  obtain ⟨t, o, ho⟩ := Typing.exists_func_of_signature? (hf ▸ hs)
  unfold matchesAt identMatches Node.object?
  rw [h.ident, h.used, hu]
  dsimp only [Option.or]
  rw [ho]
  rfl

theorem mem_matchesAt_ident {o : ObjectId} (hi : c.node.kind = .ident) (ho : c.node.object? = some o)
    (hv : T.variableOf? o = some v) (package : Nat) :
    ⟨v, if c.node.facts.declares.isSome then .definition else .use, some c, none, c.node.span, .exact, false⟩ ∈
      matchesAt T package c := by
  have hform : ∃ t k g path, T.objectForm? o = some (.var t k g path) := by
    unfold Typing.variableOf? Typing.isVar at hv
    split at hv
    · split at hv <;> simp_all
    · cases hv
  obtain ⟨t, k, g, path, hform⟩ := hform
  unfold matchesAt identMatches
  rw [hi, ho]
  dsimp only
  rw [hform]
  exact Option.mem_toList.2 (Match.at?_of_variableOf? hv _ _ _)

theorem mem_matchesAt_returned {value : Cursor} {sig : Signature} {r : ObjectId} {i : Nat}
    (hk : c.node.kind = .returnStmt) (hs : enclosingSignature? T c = some sig) (hr : sig.results[i]? = some r)
    (h : ReturnsAt c value sig i) (hv : T.variableOf? r = some v) (package : Nat) :
    ⟨v, .returned, some value, some i, value.node.span, .exact, false⟩ ∈ matchesAt T package c := by
  unfold matchesAt
  rw [hk]
  exact mem_returnMatches hs hr h hv

theorem mem_matchesAt_call {fn r : ObjectId} {sig : Signature} {i : Nat} (hf : UsesFunction T c fn)
    (hs : T.signature? fn = some sig) (hcall : call.Calls c) (hr : sig.results[i]? = some r)
    (hv : T.variableOf? r = some v) (package : Nat) :
    ⟨v, .call, some c, some i, c.node.span, .exact, false⟩ ∈ matchesAt T package c := by
  obtain ⟨f, hfn, hmatches⟩ := matchesAt_of_usesFunction hf hs package
  rw [hmatches]
  unfold functionMatches
  rw [hfn, hs]
  dsimp only
  rw [callOf?_of_calls hcall]
  refine List.mem_append_left _ (List.mem_filterMap.2 ⟨(r, i), List.mk_mem_zipIdx_iff_getElem?.2 hr, ?_⟩)
  exact Match.at?_of_variableOf? hv _ _ _

theorem mem_matchesAt_argument {arg : Cursor} {fn q : ObjectId} {sig : Signature} {j : Nat} (hf : UsesFunction T c fn)
    (hs : T.signature? fn = some sig) (hcall : call.Calls c) (hp : Passed T call arg j)
    (hq : sig.paramAt (argumentPlace (isMethodExprCall call.node) j) = some q) (hv : T.variableOf? q = some v)
    (package : Nat) :
    ⟨v, .argument, some arg, passedSlot T arg j, arg.node.span, .exact, false⟩ ∈ matchesAt T package c := by
  obtain ⟨f, hfn, hmatches⟩ := matchesAt_of_usesFunction hf hs package
  rw [hmatches]
  unfold functionMatches
  rw [hfn, hs]
  dsimp only
  rw [callOf?_of_calls hcall]
  exact List.mem_append_right _ (mem_argumentMatches hp hq hv)

/-! ## All matches of a node -/

/-- Everything that the index can list at a node. -/
inductive MatchFrom (T : Typing) (c : Cursor) : Match → Prop where
  | ident {o : ObjectId} {v : Variable} {kind : MatchKind} (hi : c.node.kind = .ident) (ho : c.node.object? = some o)
      (hv : T.variableOf? o = some v) (hk : kind = .definition ∨ kind = .use) :
      MatchFrom T c ⟨v, kind, some c, none, c.node.span, .exact, false⟩
  | call {call : Cursor} {fn r : ObjectId} {sig : Signature} {i : Nat} {v : Variable} (hf : UsesFunction T c fn)
      (hs : T.signature? fn = some sig) (hc : callOf? c = some call) (hr : sig.results[i]? = some r)
      (hv : T.variableOf? r = some v) : MatchFrom T c ⟨v, .call, some c, some i, c.node.span, .exact, false⟩
  | argument {call arg : Cursor} {fn q : ObjectId} {sig : Signature} {j : Nat} {v : Variable} {slot : Option Nat}
      (hf : UsesFunction T c fn) (hs : T.signature? fn = some sig) (hc : callOf? c = some call)
      (ha : (call.childrenAt .args)[j]? = some arg ∧ slot = none ∨ call.childrenAt .args = [arg] ∧ slot = some j ∧
        ∃ vars, arg.node.facts.type.bind T.tuple? = some vars ∧ j < vars.length)
      (hq : sig.paramAt (argumentPlace (isMethodExprCall call.node) j) = some q) (hv : T.variableOf? q = some v) :
      MatchFrom T c ⟨v, .argument, some arg, slot, arg.node.span, .exact, false⟩
  | funcValue {v : Variable} {slot : Option Nat} :
      MatchFrom T c ⟨v, .funcValue, some c, slot, c.node.span, .exact, false⟩
  | returned {value : Cursor} {sig : Signature} {i : Nat} {v : Variable} (hk : c.node.kind = .returnStmt)
      (hs : enclosingSignature? T c = some sig) (hi : i < sig.results.length)
      (hvalue : (c.childrenAt .results).length = sig.results.length ∧ value ∈ c.childrenAt .results ∨
        c.childrenAt .results = [value]) :
      MatchFrom T c ⟨v, .returned, some value, some i, value.node.span, .exact, false⟩
  | docLink {m : Match} (h : m.inDocComment = true) (he : m.accuracy = .exact) (hk : m.kind = .docLink) :
      MatchFrom T c m

/-- An argument at which a match is listed is one of the call, whether it stands for one value or for all. -/
theorem mem_of_argument {args : List Cursor} {arg : Cursor} {j : Nat} {single all : Prop}
    (h : args[j]? = some arg ∧ single ∨ args = [arg] ∧ all) : arg ∈ args := by
  rcases h with ⟨harg, -⟩ | ⟨harg, -⟩
  · exact List.mem_of_getElem? harg
  · simp [harg]

/-- A value at which a match is listed is one of the return statement, whether it stands for one result or for all. -/
theorem mem_of_returned {values : List Cursor} {value : Cursor} {single : Prop}
    (h : single ∧ value ∈ values ∨ values = [value]) : value ∈ values := by
  rcases h with ⟨-, hvalue⟩ | hvalue
  · exact hvalue
  · simp [hvalue]

theorem Match.at?_eq_some {o : ObjectId} {kind : MatchKind} {slot : Option Nat} {m : Match}
    (h : Match.at? T o kind c slot = some m) :
    ∃ v, T.variableOf? o = some v ∧ m = ⟨v, kind, some c, slot, c.node.span, .exact, false⟩ := by
  obtain ⟨v, hv, rfl⟩ := Option.map_eq_some_iff.1 h
  exact ⟨v, hv, rfl⟩

variable {m : Match}

theorem matchFrom_argumentMatches {fn : ObjectId} {sig : Signature} (hf : UsesFunction T c fn)
    (hs : T.signature? fn = some sig) (hc : callOf? c = some call) (h : m ∈ argumentMatches T call sig) :
    MatchFrom T c m := by
  unfold argumentMatches at h
  dsimp only at h
  split at h
  · rename_i arg n hsingle
    obtain ⟨j, hj, hm⟩ := List.mem_filterMap.1 h
    obtain ⟨q, hq, hm⟩ := Option.bind_eq_some_iff.1 hm
    obtain ⟨v, hv, rfl⟩ := Match.at?_eq_some hm
    split at hsingle
    · rename_i b hargs
      obtain ⟨vars, hvars, heq⟩ := Option.map_eq_some_iff.1 hsingle
      cases heq
      exact .argument hf hs hc (Or.inr ⟨hargs, rfl, vars, hvars, List.mem_range.1 hj⟩) hq hv
    · cases hsingle
  · obtain ⟨⟨arg, j⟩, hj, hm⟩ := List.mem_filterMap.1 h
    obtain ⟨q, hq, hm⟩ := Option.bind_eq_some_iff.1 hm
    obtain ⟨v, hv, rfl⟩ := Match.at?_eq_some hm
    exact .argument hf hs hc (Or.inl ⟨List.mk_mem_zipIdx_iff_getElem?.1 hj, rfl⟩) hq hv

theorem matchFrom_functionMatches {f : ObjectId} (hf : UsesFunction T c (T.originFunc f))
    (h : m ∈ functionMatches T c f) : MatchFrom T c m := by
  unfold functionMatches at h
  split at h
  · exact absurd h (by simp)
  · rename_i sig hs
    split at h
    · rename_i call hc
      rcases List.mem_append.1 h with h | h
      · obtain ⟨⟨r, i⟩, hr, hm⟩ := List.mem_filterMap.1 h
        obtain ⟨v, hv, rfl⟩ := Match.at?_eq_some hm
        exact .call hf hs hc (List.mk_mem_zipIdx_iff_getElem?.1 hr) hv
      · exact matchFrom_argumentMatches hf hs hc h
    · rcases List.mem_append.1 h with h | h
      · obtain ⟨_, -, hm⟩ := List.mem_filterMap.1 h
        obtain ⟨v, -, rfl⟩ := Match.at?_eq_some hm
        exact .funcValue
      · obtain ⟨_, -, hm⟩ := List.mem_filterMap.1 h
        obtain ⟨v, -, rfl⟩ := Match.at?_eq_some hm
        exact .funcValue

theorem matchFrom_identMatches (hi : c.node.kind = .ident) (h : m ∈ identMatches T c) : MatchFrom T c m := by
  unfold identMatches at h
  dsimp only at h
  split at h
  · exact absurd h (by simp)
  · rename_i o ho
    split at h
    · obtain ⟨v, hv, rfl⟩ := Match.at?_eq_some (Option.mem_toList.1 h)
      exact .ident hi ho hv (by split <;> simp)
    · split at h
      · exact absurd h (by simp)
      · rename_i hkind
        have hdeclares : c.node.facts.declares = none := by
          cases hd : c.node.facts.declares with
          | none => rfl
          | some d => simp [hd] at hkind
        refine matchFrom_functionMatches ⟨hi, hdeclares, o, ?_, rfl⟩ h
        unfold Node.object? at ho
        rwa [hdeclares] at ho
    · exact absurd h (by simp)

theorem matchFrom_returnMatches (hk : c.node.kind = .returnStmt) (h : m ∈ returnMatches T c) : MatchFrom T c m := by
  unfold returnMatches at h
  split at h
  · exact absurd h (by simp)
  · rename_i sig hs
    dsimp only at h
    split at h
    · exact absurd h (by simp)
    · split at h
      · rename_i hlen
        obtain ⟨⟨⟨value, r⟩, i⟩, hi, hm⟩ := List.mem_filterMap.1 h
        obtain ⟨v, -, rfl⟩ := Match.at?_eq_some hm
        obtain ⟨hvalue, hr⟩ := List.getElem?_zip_eq_some.1 (List.mk_mem_zipIdx_iff_getElem?.1 hi)
        exact .returned hk hs (List.getElem?_eq_some_iff.1 hr).1 (Or.inl ⟨hlen, List.mem_of_getElem? hvalue⟩)
      · split at h
        · rename_i value hvalue
          obtain ⟨⟨r, i⟩, hi, hm⟩ := List.mem_filterMap.1 h
          obtain ⟨v, -, rfl⟩ := Match.at?_eq_some hm
          have hr := List.mk_mem_zipIdx_iff_getElem?.1 hi
          exact .returned hk hs (List.getElem?_eq_some_iff.1 hr).1 (Or.inr hvalue)
        · exact absurd h (by simp)

/-- Whatever the index lists at a node comes from it in one of these ways. -/
theorem matchFrom_of_mem {package : Nat} (h : m ∈ matchesAt T package c) : MatchFrom T c m := by
  unfold matchesAt at h
  split at h
  · exact matchFrom_identMatches ‹_› h
  · exact matchFrom_returnMatches ‹_› h
  · unfold docMatches at h
    split at h
    · exact absurd h (by simp)
    · exact absurd h (by simp)
    · obtain ⟨comment, -, h⟩ := List.mem_flatMap.1 h
      obtain ⟨link, -, h⟩ := List.mem_filterMap.1 h
      obtain ⟨v, -, rfl⟩ := Option.map_eq_some_iff.1 h
      exact .docLink rfl rfl rfl
  · exact absurd h (by simp)

theorem MatchFrom.exact (h : MatchFrom T c m) : m.accuracy = .exact := by
  cases h with
  | docLink _ he _ => exact he
  | _ => rfl

theorem Index.exact_of_mem {packages : List Package} (h : m ∈ (Index.ofPackages T packages).occurrencesOf v) :
    m.accuracy = .exact := by
  obtain ⟨h, -⟩ := List.mem_filter.1 h
  obtain ⟨p, -, h⟩ := List.mem_flatMap.1 h
  obtain ⟨c, -, h⟩ := List.mem_flatMap.1 h
  exact (matchFrom_of_mem h).exact

/-! ## Appearances -/

namespace Program

variable {p : Program} {s : Span}

/-- A node belongs to a package in scope. -/
def Holds (p : Program) (c : Cursor) : Prop := ∃ package ∈ p.packages, c ∈ package.cursors

theorem holds_iff : p.Holds c ↔ ∃ package ∈ p.packages, ∃ file ∈ package.files, ∃ n,
    file.tree = some n ∧ (Cursor.root n).Below c := by
  constructor
  · rintro ⟨package, hpackage, hc⟩
    obtain ⟨t, ht, hc⟩ := List.mem_flatMap.1 hc
    obtain ⟨n, hn, rfl⟩ := List.mem_map.1 ht
    obtain ⟨file, hfile, hn⟩ := List.mem_filterMap.1 hn
    exact ⟨package, hpackage, file, hfile, n, hn, Cursor.mem_preorder_iff.1 hc⟩
  · rintro ⟨package, hpackage, file, hfile, n, hn, hc⟩
    refine ⟨package, hpackage, List.mem_flatMap.2 ⟨.root n, ?_, Cursor.mem_preorder_iff.2 hc⟩⟩
    exact List.mem_map_of_mem (List.mem_filterMap.2 ⟨file, hfile, hn⟩)

theorem Holds.of_below {d : Cursor} (h : p.Holds c)
    (hd : ∀ n, (Cursor.root n).Below c → (Cursor.root n).Below d) : p.Holds d := by
  obtain ⟨package, hpackage, file, hfile, n, hn, hc⟩ := holds_iff.1 h
  exact holds_iff.2 ⟨package, hpackage, file, hfile, n, hn, hd n hc⟩

theorem Holds.below (h : p.Holds c) : ∃ n, (Cursor.root n).Below c := by
  obtain ⟨package, -, file, -, n, -, hc⟩ := holds_iff.1 h
  exact ⟨n, hc⟩

theorem Holds.trans {d : Cursor} (h : p.Holds c) (hd : c.Below d) : p.Holds d := h.of_below fun _ hc => hc.trans hd

theorem Holds.child {d : Cursor} {f : FieldName} (h : p.Holds c) (hd : d ∈ c.childrenAt f) : p.Holds d :=
  h.trans (.child .self (Cursor.mem_childrenAt.1 hd).1)

theorem Holds.of_parent? {d : Cursor} (h : p.Holds d) (hc : d.parent? = some c) : p.Holds c ∧ d ∈ c.children := by
  obtain ⟨n, hd⟩ := h.below
  exact ⟨h.of_below fun _ hd => (hd.of_parent? hc).1, (hd.of_parent? hc).2⟩

theorem Holds.parent {node : Node} {step : Step} {up : List Step} (h : p.Holds ⟨node, step :: up⟩) :
    p.Holds ⟨step.parent, up⟩ ∧ (⟨node, step :: up⟩ : Cursor) ∈ Cursor.children ⟨step.parent, up⟩ :=
  h.of_parent? rfl

/-- A function is used as a value: an identifier in scope uses it, and no call calls it there. -/
def UsedAsValue (p : Program) (fn : ObjectId) : Prop :=
  ∃ c, p.Holds c ∧ UsesFunction p.typing c fn ∧ ∀ call : Cursor, ¬ call.Calls c

/-- The appearances of a variable in scope, with their source. -/
inductive Appears (p : Program) (v : Variable) : Span → Prop where
  /-- An identifier declares or uses the variable. -/
  | identifier {c : Cursor} {o : ObjectId} (hc : p.Holds c) (hi : c.node.kind = .ident) (ho : c.node.object? = some o)
      (hv : p.typing.variableOf? o = some v) : Appears p v c.node.span
  /-- A call passes an argument to the variable. -/
  | argument {c call arg : Cursor} {fn q : ObjectId} {sig : Signature} {j : Nat} (hc : p.Holds c)
      (hf : UsesFunction p.typing c fn) (hcall : call.Calls c) (hs : p.typing.signature? fn = some sig)
      (hp : Passed p.typing call arg j) (hq : sig.paramAt (argumentPlace (isMethodExprCall call.node) j) = some q)
      (hv : p.typing.variableOf? q = some v) : Appears p v arg.node.span
  /-- A statement returns a value into the variable. -/
  | returned {c value : Cursor} {sig : Signature} {r : ObjectId} (hc : p.Holds c) (hk : c.node.kind = .returnStmt)
      (hs : enclosingSignature? p.typing c = some sig) (hr : Returned c value sig r)
      (hv : p.typing.variableOf? r = some v) : Appears p v value.node.span
  /-- A call produces the variable: the appearance is the name of the function. -/
  | call {c call : Cursor} {fn r : ObjectId} {sig : Signature} (hc : p.Holds c) (hf : UsesFunction p.typing c fn)
      (hcall : call.Calls c) (hs : p.typing.signature? fn = some sig) (hr : r ∈ sig.results)
      (hv : p.typing.variableOf? r = some v) : Appears p v c.node.span

/-- The index has been built from the packages. -/
def Indexed (p : Program) : Prop := p.index = Index.ofPackages p.typing p.packages

theorem indexed_ofPackages (typing : Typing) (files : List SourceFile) (packages : List Package) (generated : Bool) :
    (ofPackages typing files packages generated).Indexed := rfl

theorem Indexed.exact (hp : p.Indexed) {m : Match} (hm : m ∈ p.index.occurrencesOf v) : m.accuracy = .exact := by
  rw [hp] at hm
  exact Index.exact_of_mem hm

theorem mem_occurrencesOf_iff (hp : p.Indexed) {m : Match} : m ∈ p.index.occurrencesOf v ↔
    m.var = v ∧ ∃ package ∈ p.packages, ∃ c ∈ package.cursors, m ∈ matchesAt p.typing package.ref.number c := by
  unfold Index.occurrencesOf
  rw [hp, List.mem_filter, and_comm]
  simp [Index.ofPackages]

theorem Appears.exists_match (hp : p.Indexed) (h : p.Appears v s) :
    ∃ m ∈ p.index.occurrencesOf v, m.span = s ∧ m.inDocComment = false ∧ m.kind ≠ .docLink := by
  -- it is enough to find the match at some node in scope
  suffices hm : ∃ c, p.Holds c ∧ ∃ kind d slot, kind ≠ MatchKind.docLink ∧
      ∀ n, (⟨v, kind, some d, slot, s, .exact, false⟩ : Match) ∈ matchesAt p.typing n c by
    obtain ⟨c, ⟨package, hpackage, hc⟩, kind, d, slot, hkind, hm⟩ := hm
    exact ⟨_, (mem_occurrencesOf_iff hp).2 ⟨rfl, package, hpackage, c, hc, hm _⟩, rfl, rfl, hkind⟩
  cases h with
  | @identifier c o hc hi ho hv =>
    exact ⟨c, hc, if c.node.facts.declares.isSome then .definition else .use, c, none, by split <;> simp,
      mem_matchesAt_ident hi ho hv⟩
  | @argument c call arg fn q sig j hc hf hcall hs hpassed hq hv =>
    exact ⟨c, hc, .argument, arg, passedSlot p.typing arg j, by simp, mem_matchesAt_argument hf hs hcall hpassed hq hv⟩
  | @returned c value sig r hc hk hs hr hv =>
    obtain ⟨i, hi, hvalue⟩ := hr.exists_place
    exact ⟨c, hc, .returned, value, some i, by simp, mem_matchesAt_returned hk hs hi hvalue hv⟩
  | @call c call fn r sig hc hf hcall hs hr hv =>
    obtain ⟨i, hi⟩ := List.getElem?_of_mem hr
    exact ⟨c, hc, .call, c, some i, by simp, mem_matchesAt_call hf hs hcall hi hv⟩

/-- A function that is used as a value is an occurrence of its results and parameters that cannot be followed. -/
theorem UsedAsValue.exists_match (hp : p.Indexed) {fn o : ObjectId} {sig : Signature} (h : p.UsedAsValue fn)
    (hs : p.typing.signature? fn = some sig) (ho : o ∈ sig.results ++ sig.params)
    (hv : p.typing.variableOf? o = some v) :
    ∃ m ∈ p.index.occurrencesOf v, m.kind = .funcValue ∧ m.accuracy = .exact ∧ m.inDocComment = false := by
  obtain ⟨c, ⟨package, hpackage, hc⟩, hf, hcalls⟩ := h
  obtain ⟨n, hbelow⟩ := Holds.below ⟨package, hpackage, hc⟩
  have hnone : callOf? c = none := by
    cases hcall : callOf? c with
    | none => rfl
    | some call => exact absurd (calls_of_callOf? hbelow hcall) (hcalls call)
  obtain ⟨f, hfn, hmatches⟩ := matchesAt_of_usesFunction hf hs package.ref.number
  have hm : ∃ slot, (⟨v, .funcValue, some c, slot, c.node.span, .exact, false⟩ : Match) ∈
      functionMatches p.typing c f := by
    unfold functionMatches
    rw [hfn, hs]
    dsimp only
    rw [hnone]
    rcases List.mem_append.1 ho with ho | ho
    · obtain ⟨i, hi⟩ := List.getElem?_of_mem ho
      refine ⟨some i, List.mem_append_left _ (List.mem_filterMap.2 ⟨(o, i), List.mk_mem_zipIdx_iff_getElem?.2 hi, ?_⟩)⟩
      exact Match.at?_of_variableOf? hv _ _ _
    · refine ⟨none, List.mem_append_right _ (List.mem_filterMap.2 ⟨o, ho, ?_⟩)⟩
      exact Match.at?_of_variableOf? hv _ _ _
  obtain ⟨slot, hm⟩ := hm
  rw [← hmatches] at hm
  exact ⟨_, (mem_occurrencesOf_iff hp).2 ⟨rfl, package, hpackage, c, hc, hm⟩, rfl, rfl, rfl⟩

end Program

end NilFlow
