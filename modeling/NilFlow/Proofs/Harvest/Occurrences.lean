import NilFlow.Proofs.Harvest.Certificate
import NilFlow.Proofs.Program.Index

/-!
# The occurrences of a group

* `Classifier.Recorded`: an occurrence that seeding or the successful search of a served variable recorded.
* `Classifier.Tracks`: as long as a variable is not ruled out, a run keeps exactly its recorded occurrences.
* `Classifier.occurrences_faithful`: a group keeps exactly the recorded occurrences of its members, and every appearance
  of a member is among them.
* `Classifier.values_not_grouped`: results and parameters of functions that are used as values are in no group.
-/

namespace NilFlow

namespace Classifier

variable {k : Classifier} {root : Root} {polls : Option Nat} {served vs : List Variable} {s : Seeds} {r r' last : Run}
  {h : Harvest} {v x : Variable} {o : Occurrence}

/-! ## Occurrences of a search -/

/-- A classification without a failure gathers the flows of the exact matches outside doc comments. -/
theorem flow_of_classifyAll : ∀ {ms : List Match} {flow out : Flow} {first : Option Failure},
    k.classifyAll ms flow first = .ok (out, none) →
      out = ((ms.filter fun m => m.accuracy = .exact && !m.inDocComment).map (k.propagate · |>.1)).foldl .append flow
  | [], flow, out, first, h => by
    cases h
    rfl
  | m :: ms, flow, out, first, h => by
    unfold classifyAll at h
    split at h
    · rename_i hskip
      rw [List.filter_cons_of_neg (by grind)]
      exact flow_of_classifyAll h
    · rename_i hskip
      rw [List.filter_cons_of_pos (by simpa using hskip)]
      split at h
      · rename_i f hp
        rw [flow_of_classifyAll h, List.map_cons, List.foldl_cons, hp]
      · split at h
        · cases h
        · -- a failure stays the first one, so the outcome would have it
          obtain ⟨hf, -⟩ := classifyAll_eq_ok h
          cases first <;> simp at hf

/-- A successful search gathers the flows of the exact matches outside doc comments. -/
theorem Passes.flow_eq (hv : k.Passes v) : (k.searchVariable v).flow =
    (((k.program.index.occurrencesOf v).filter fun m => m.accuracy = .exact && !m.inDocComment).map
      (k.propagate · |>.1)).foldl .append .empty := by
  unfold Passes searchVariable at hv
  unfold searchVariable
  split at hv
  · cases hv
  · rename_i ms hs
    obtain ⟨-, -, -, rfl⟩ := Program.search_eq_ok_iff.1 hs
    split at hv
    · cases hv
    · rename_i flow first hcl
      have hv : first = none := hv
      subst hv
      exact flow_of_classifyAll hcl

theorem Passes.mem_occurrences (hv : k.Passes v) : o ∈ (k.searchVariable v).flow.occurrences ↔
    ∃ m ∈ k.program.index.occurrencesOf v, m.accuracy = .exact ∧ m.inDocComment = false ∧
      o ∈ (k.propagate m).1.occurrences := by
  rw [hv.flow_eq, Flow.mem_occurrences_foldl]
  simp [Flow.empty, and_assoc]

theorem Passes.mem_discoveries {d : Discovery Variable} (hv : k.Passes v) : d ∈ k.discoveries v ↔
    ∃ m ∈ k.program.index.occurrencesOf v, m.accuracy = .exact ∧ m.inDocComment = false ∧
      d ∈ (k.propagate m).1.discoveries := by
  unfold discoveries
  rw [hv.flow_eq, Flow.mem_discoveries_foldl]
  simp [Flow.empty, and_assoc]

theorem Passes.propagate_eq (hv : k.Passes v) {m : Match} (hm : m ∈ k.program.index.occurrencesOf v)
    (he : m.accuracy = .exact) (hd : m.inDocComment = false) : (k.propagate m).2 = none := by
  obtain ⟨ms, hs, hms⟩ := hv.exists_matches
  obtain ⟨-, -, -, rfl⟩ := Program.search_eq_ok_iff.1 hs
  exact (hms m hm he hd).1

theorem exists_mem_propagate {m : Match} (h : (k.propagate m).2 = none) (hkind : m.kind ≠ .docLink) :
    ∃ context, ⟨m.var, context, m.span⟩ ∈ (k.propagate m).1.occurrences := by
  unfold propagate at h ⊢
  split
  · exact absurd ‹_› hkind
  · simp_all
  · simp_all
  · exact ⟨_, List.mem_append_left _ List.mem_cons_self⟩

/-! ## Occurrences along a run -/

/-- Seeding or the successful search of a served variable recorded an occurrence. -/
def Recorded (k : Classifier) (s : Seeds) (served : List Variable) (o : Occurrence) : Prop :=
  o ∈ s.flow.occurrences ∨ ∃ v ∈ served, k.Passes v ∧ o ∈ (k.searchVariable v).flow.occurrences

/-- A run keeps exactly the recorded occurrences of the variables that it has not ruled out. -/
def Tracks (k : Classifier) (s : Seeds) (served : List Variable) (r : Run) : Prop :=
  ∀ o : Occurrence, o.var ∉ r.ruledOut → (o ∈ r.occurrences ↔ k.Recorded s served o)

theorem recorded_snoc : k.Recorded s (served ++ [v]) o ↔
    k.Recorded s served o ∨ k.Passes v ∧ o ∈ (k.searchVariable v).flow.occurrences := by
  unfold Recorded
  simp only [List.mem_append, List.mem_singleton, or_and_right, exists_or, exists_eq_left, or_assoc]

theorem occurrences_foldl_record (k : Classifier) : ∀ (fs : List Failure) (r : Run),
    (fs.foldl k.record r).occurrences = r.occurrences
  | [], _ => rfl
  | f :: fs, r => occurrences_foldl_record k fs (k.record r f)

theorem occurrences_logSearch (k : Classifier) (r : Run) (v : Variable) (s : SearchResult) :
    (k.logSearch r v s).occurrences = r.occurrences := by
  unfold logSearch
  split <;> rfl

theorem mem_occurrences_enter (ho : o.var ∉ (k.enter r s).ruledOut) :
    o ∈ (k.enter r s).occurrences ↔ o ∈ r.occurrences ∨ o ∈ s.flow.occurrences := by
  show o ∈ (s.failures.foldl k.record r).occurrences ++
    s.flow.occurrences.filter (fun o => !(k.enter r s).ruledOut.contains o.var) ↔ _
  rw [occurrences_foldl_record, List.mem_append, List.mem_filter]
  simp [ho]

theorem mem_occurrences_accept {flow : Flow} (ho : o.var ∉ r.ruledOut) :
    o ∈ (accept r v flow).occurrences ↔ o ∈ r.occurrences ∨ o ∈ flow.occurrences := by
  show o ∈ r.occurrences ++ flow.occurrences.filter (fun o => !r.ruledOut.contains o.var) ↔ _
  rw [List.mem_append, List.mem_filter]
  simp [ho]

theorem mem_occurrences_reject {flow : Flow} {f : Failure} (ho : o.var ∉ Classifier.rejected r v flow) :
    o ∈ (k.reject r v flow f).occurrences ↔ o ∈ r.occurrences := by
  show o ∈ r.occurrences.filter (fun o => !(Classifier.rejected r v flow).contains o.var) ↔ _
  rw [List.mem_filter]
  simp [ho]

theorem Run.occurrences_of_poll? {polled : Run} (h : r.poll? = some polled) : polled.occurrences = r.occurrences := by
  unfold Run.poll? at h
  split at h <;> cases h <;> rfl

namespace Tracks

theorem begin (h : k.Begins root polls r) : Tracks k (k.seed root).1 [] r := by
  obtain ⟨polled, hp, hb⟩ := h
  have hocc : polled.occurrences = [] := Run.occurrences_of_poll? hp
  unfold Classifier.begin at hb
  split at hb
  · exact absurd (congrArg Prod.snd hb) (by simp)
  · rename_i s hs
    obtain rfl := congrArg Prod.fst hb
    intro o ho
    rw [hs]
    show o ∈ (k.enter polled s).occurrences ↔ _
    rw [mem_occurrences_enter ho, hocc]
    simp [Recorded]

/-- Every round keeps track: a successful search adds its occurrences, a failed one removes those of the variables that
it rules out. -/
theorem round (h : Tracks k s served r) (hr : k.Round r v r') : Tracks k s (served ++ [v]) r' := by
  obtain ⟨polled, work, hp, -, hs⟩ := hr
  have hout := (Run.poll?_eq_some hp).2
  have hocc := Run.occurrences_of_poll? hp
  intro o ho
  rw [recorded_snoc]
  rcases serve_cases hs with ⟨hpass, rfl⟩ | ⟨hfail, f, rfl⟩
  · have ho : o.var ∉ (k.logSearch { polled with work := work } v (k.searchVariable v)).ruledOut := ho
    rw [mem_occurrences_accept ho, occurrences_logSearch]
    rw [ruledOut_logSearch] at ho
    show o ∈ polled.occurrences ∨ _ ↔ _
    rw [hocc, h o (hout ▸ ho)]
    simp [hpass]
  · rw [mem_ruledOut_reject, ruledOut_logSearch] at ho
    obtain ⟨ho, hrej⟩ := not_or.1 ho
    rw [mem_occurrences_reject hrej, occurrences_logSearch]
    show o ∈ polled.occurrences ↔ _
    rw [hocc, h o (hout ▸ ho)]
    simp [hfail]

theorem rounds (h : Tracks k s served r) (hr : k.Rounds r vs r') : Tracks k s (served ++ vs) r' := by
  induction hr generalizing served with
  | none => rwa [List.append_nil]
  | @more r r₁ r₂ v vs hv _ ih =>
    have hs := ih (h.round hv)
    rwa [List.append_assoc] at hs

end Tracks

theorem Completes.tracks (hc : k.Completes root polls served last h) : Tracks k (k.seed root).1 served last := by
  obtain ⟨first, hb, hr⟩ := hc.rounds
  exact (Tracks.begin hb).rounds hr

/-! ## Occurrences of groups -/

theorem occurrences_of_mem_finish {g : Group} (hg : g ∈ (k.finish r root).groups) :
    g.occurrences = Group.occurrencesOf r.occurrences g.vars :=
  GroupInput.occurrences_of_mem_build hg

/-- A group keeps exactly the recorded occurrences of its members. -/
theorem Completes.mem_occurrences_iff (hc : k.Completes root polls served last h) {g : Group} (hg : g ∈ h.groups) :
    o ∈ g.occurrences ↔ o.var ∈ g.vars ∧ k.Recorded (k.seed root).1 served o := by
  have hfinish : g ∈ (k.finish last root).groups := hc.outcome ▸ hg
  rw [occurrences_of_mem_finish hfinish, Group.mem_occurrencesOf, and_comm]
  refine and_congr_right fun hv => hc.tracks o fun hout => ?_
  exact hc.not_mem_ruledOut ⟨g, hg, hv⟩ (hc.mem_ruledOut_iff.2 (Or.inl hout))

/-- What a member's search records is kept by its group. -/
theorem Completes.mem_occurrences_of_match (hc : k.Completes root polls served last h) {g : Group} (hg : g ∈ h.groups)
    (hv : v ∈ g.vars) {m : Match} (hm : m ∈ k.program.index.occurrencesOf v) (he : m.accuracy = .exact)
    (hd : m.inDocComment = false) (ho : o ∈ (k.propagate m).1.occurrences) (hvar : o.var = v) :
    o ∈ g.occurrences := by
  obtain ⟨-, hp⟩ := hc.served_once ⟨g, hg, hv⟩
  refine (hc.mem_occurrences_iff hg).2 ⟨hvar ▸ hv, Or.inr ⟨v, hc.mem_served ⟨g, hg, hv⟩, hp, ?_⟩⟩
  exact hp.mem_occurrences.2 ⟨m, hm, he, hd, ho⟩

/-- No occurrence is lost or misattributed. A group of a complete harvest keeps exactly those occurrences of its members
that seeding and the successful searches recorded, and they cover every appearance of a member in scope: the identifiers
that name it, the arguments passed and the values returned into it, and the names of the functions that produce it. -/
theorem occurrences_faithful (hk : k.program.Indexed) (hh : k.harvest root polls = .ok h)
    (hcomplete : h.complete = true) : ∃ served last, k.Completes root polls served last h ∧ ∀ g ∈ h.groups,
      (∀ o, o ∈ g.occurrences ↔ o.var ∈ g.vars ∧ k.Recorded (k.seed root).1 served o) ∧
      ∀ v ∈ g.vars, ∀ span, k.program.Appears v span → ∃ o ∈ g.occurrences, o.var = v ∧ o.span = span := by
  obtain ⟨served, last, hc⟩ := harvest_complete_iff.1 ⟨hh, hcomplete⟩
  refine ⟨served, last, hc, fun g hg => ⟨fun o => hc.mem_occurrences_iff hg, fun v hv span ha => ?_⟩⟩
  obtain ⟨m, hm, rfl, hd, hkind⟩ := ha.exists_match hk
  obtain ⟨hvar, -⟩ := (Program.mem_occurrencesOf_iff hk).1 hm
  have he : m.accuracy = .exact := Index.exact_of_mem (by rw [← hk]; exact hm)
  obtain ⟨-, hp⟩ := hc.served_once ⟨g, hg, hv⟩
  obtain ⟨context, ho⟩ := exists_mem_propagate (hp.propagate_eq hm he hd) hkind
  exact ⟨_, hc.mem_occurrences_of_match hg hv hm he hd ho hvar, hvar, rfl⟩

/-! ## Functions used as values -/

/-- Functions that are used as values are not converted: no result and no parameter of theirs is a member of a group of
a complete harvest. -/
theorem values_not_grouped (hk : k.program.Indexed) (hh : k.harvest root polls = .ok h) (hcomplete : h.complete = true)
    {fn : ObjectId} {sig : Signature} (hfn : k.program.UsedAsValue fn)
    (hs : k.program.typing.signature? fn = some sig) :
    ∀ o ∈ sig.results ++ sig.params, ∀ v, k.program.typing.variableOf? o = some v → ¬ h.Grouped v := by
  intro o ho v hv hgroup
  obtain ⟨served, last, hc⟩ := harvest_complete_iff.1 ⟨hh, hcomplete⟩
  obtain ⟨-, hp⟩ := hc.served_once hgroup
  obtain ⟨m, hm, hkind, he, hd⟩ := hfn.exists_match hk hs ho hv
  have hfails : (k.propagate m).2 ≠ none := by
    unfold propagate
    simp [hkind]
  exact hfails (hp.propagate_eq hm he hd)

end Classifier

/-! ## Calls and a function value -/

namespace Forwarding

/-- The syntax of a function such as `func f(x *int) *int { return x }`. -/
def forwarding (pos : Pos) (name param : String) (fn x : ObjectId) (type : TypeId) : Node :=
  .mk ⟨some .decls, .funcDecl, ⟨pos, pos + 32⟩, {}⟩ [
    .mk ⟨some .name, .ident, ⟨pos + 5, pos + 6⟩, { name, declares := some fn, type := some type }⟩ [],
    .mk ⟨some .typeExpr, .funcType, ⟨pos, pos + 19⟩, {}⟩ [
      .mk ⟨some .params, .fieldList, ⟨pos + 6, pos + 14⟩, {}⟩ [
        .mk ⟨some .list, .field, ⟨pos + 7, pos + 13⟩, {}⟩ [
          .mk ⟨some .names, .ident, ⟨pos + 7, pos + 8⟩, { name := param, declares := some x, type := some 0 }⟩ [],
          .pointerType .typeExpr (pos + 9) 0 1 1]],
      .mk ⟨some .results, .fieldList, ⟨pos + 15, pos + 19⟩, {}⟩ [
        .mk ⟨some .list, .field, ⟨pos + 15, pos + 19⟩, {}⟩ [.pointerType .typeExpr (pos + 15) 0 1 1]]],
    .mk ⟨some .body, .blockStmt, ⟨pos + 20, pos + 32⟩, {}⟩ [
      .mk ⟨some .list, .returnStmt, ⟨pos + 22, pos + 30⟩, {}⟩ [
        .mk ⟨some .results, .ident, ⟨pos + 29, pos + 30⟩, { name := param, uses := some x, type := some 0 }⟩ []]]]

/-- The syntax of a statement such as `A = f(A)`. -/
def calling (pos : Pos) (name : String) (fn : ObjectId) (type : TypeId) : Node :=
  .mk ⟨some .list, .assignStmt, ⟨pos, pos + 8⟩, { operator := "=" }⟩ [
    .mk ⟨some .lhs, .ident, ⟨pos, pos + 1⟩, { name := "A", uses := some 0, type := some 0 }⟩ [],
    .mk ⟨some .rhs, .callExpr, ⟨pos + 4, pos + 8⟩, { type := some 0 }⟩ [
      .mk ⟨some .callee, .ident, ⟨pos + 4, pos + 5⟩, { name, uses := some fn, type := some type }⟩ [],
      .mk ⟨some .args, .ident, ⟨pos + 6, pos + 7⟩, { name := "A", uses := some 0, type := some 0 }⟩ []]]

/-- The syntax of `var A *int`, of `f` and `g`, which forward `x` and `y`, and of
`func h() { A = f(A); A = g(A); _ = g }`. -/
def source : Node :=
  .mk ⟨none, .file, ⟨1, 130⟩, {}⟩ [
    .mk ⟨some .name, .ident, ⟨9, 10⟩, { name := "p" }⟩ [],
    .mk ⟨some .decls, .genDecl, ⟨12, 22⟩, {}⟩ [
      .mk ⟨some .specs, .valueSpec, ⟨16, 22⟩, {}⟩ [
        .mk ⟨some .names, .ident, ⟨16, 17⟩, { name := "A", declares := some 0, type := some 0 }⟩ [],
        .pointerType .typeExpr 18 0 1 1]],
    forwarding 24 "f" "x" 4 2 2,
    forwarding 58 "g" "y" 7 5 3,
    .mk ⟨some .decls, .funcDecl, ⟨92, 130⟩, {}⟩ [
      .mk ⟨some .name, .ident, ⟨97, 98⟩, { name := "h", declares := some 8, type := some 4 }⟩ [],
      .mk ⟨some .typeExpr, .funcType, ⟨92, 100⟩, {}⟩ [.mk ⟨some .params, .fieldList, ⟨98, 100⟩, {}⟩ []],
      .mk ⟨some .body, .blockStmt, ⟨101, 130⟩, {}⟩ [
        calling 103 "f" 4 2,
        calling 113 "g" 7 3,
        .mk ⟨some .list, .assignStmt, ⟨123, 128⟩, { operator := "=" }⟩ [
          .mk ⟨some .lhs, .ident, ⟨123, 124⟩, { name := "_" }⟩ [],
          .mk ⟨some .rhs, .ident, ⟨127, 128⟩, { name := "g", uses := some 7, type := some 3 }⟩ []]]]]

def typing : Typing where
  types := #[⟨.pointer 1, none⟩, ⟨.basic "int", none⟩, ⟨.signature ⟨none, [2], [3], false⟩, none⟩,
    ⟨.signature ⟨none, [5], [6], false⟩, some 2⟩, ⟨.signature ⟨none, [], [], false⟩, none⟩]
  objects := #[⟨"A", 16, some ⟨0, "p"⟩, .var 0 .var none (some "A")⟩, ⟨"int", 0, none, .typeName 1⟩,
    ⟨"x", 31, some ⟨0, "p"⟩, .var 0 .parameter none none⟩, ⟨"", 39, some ⟨0, "p"⟩, .var 0 .result none none⟩,
    ⟨"f", 29, some ⟨0, "p"⟩, .func 2 none⟩,
    ⟨"y", 65, some ⟨0, "p"⟩, .var 0 .parameter none none⟩, ⟨"", 73, some ⟨0, "p"⟩, .var 0 .result none none⟩,
    ⟨"g", 63, some ⟨0, "p"⟩, .func 3 none⟩, ⟨"h", 97, some ⟨0, "p"⟩, .func 4 none⟩]
  scope := [⟨0, "A", "", 0⟩, ⟨0, "f", "", 4⟩, ⟨0, "g", "", 7⟩, ⟨0, "h", "", 8⟩]
  impls := []

def files : List SourceFile := [⟨"p", 0, 1, 130, [0, 10, 11, 22, 23, 56, 57, 90, 91, 130], false, [], some source, []⟩]

def packages : List Package := [⟨⟨0, "p"⟩, files, false⟩]

def classifier : Classifier := ⟨.ofPackages typing files packages false, .standard⟩

def root : Root := classifier.program.wholeRoot packages

def varA : Variable := ⟨0, "A", 16, some ⟨0, "p"⟩, .var, some "A"⟩

def varX : Variable := ⟨2, "x", 31, some ⟨0, "p"⟩, .parameter, none⟩

def varY : Variable := ⟨5, "y", 65, some ⟨0, "p"⟩, .parameter, none⟩

def resultF : Variable := ⟨3, "", 39, some ⟨0, "p"⟩, .result, none⟩

def resultG : Variable := ⟨6, "", 73, some ⟨0, "p"⟩, .result, none⟩

/-- All variables are served; the result and the parameter of `g`, which is used as a value, are ruled out. -/
theorem completes : ∃ last h, classifier.Completes root none [varA, resultF, varX, resultG, varY] last h ∧
    (last.work.forest.trim last.ruledOut).elements = [varA, resultF, varX] := by
  have h : (classifier.evaluate root 6).map (fun out => (out.1, (out.2.work.forest.trim out.2.ruledOut).elements)) =
      some ([varA, resultF, varX, resultG, varY], [varA, resultF, varX]) := by decide +kernel
  obtain ⟨⟨served, last⟩, he, hout⟩ := Option.map_eq_some_iff.1 h
  cases (Prod.mk.inj hout).1
  exact ⟨last, _, Classifier.completes_of_evaluate he, (Prod.mk.inj hout).2⟩

/-- The call `f(A)` passes its argument to `x`. -/
theorem appears_argument : classifier.program.Appears varX ⟨109, 110⟩ := by
  have h : (packages[0].cursors.find? fun c => c.node.span = ⟨107, 108⟩).bind (fun c => (callOf? c).bind fun call =>
      (call.childrenAt .args)[0]?.map fun arg => ((c.node.kind, c.node.facts.declares, c.node.facts.uses),
        (isMethodExprCall call.node, arg.node.facts.type.bind typing.tuple?, arg.node.span))) =
      some ((.ident, none, some 4), (false, none, ⟨109, 110⟩)) := by decide
  obtain ⟨c, hc, h⟩ := Option.bind_eq_some_iff.1 h
  obtain ⟨call, hcall, h⟩ := Option.bind_eq_some_iff.1 h
  obtain ⟨arg, harg, h⟩ := Option.map_eq_some_iff.1 h
  simp only [Prod.mk.injEq] at h
  obtain ⟨⟨hkind, hdeclares, huses⟩, hexpr, htuple, hspan⟩ := h
  have hholds : classifier.program.Holds c := ⟨packages[0], List.mem_cons_self, List.mem_of_find?_eq_some hc⟩
  obtain ⟨n, hbelow⟩ := hholds.below
  rw [← hspan]
  refine .argument hholds ⟨hkind, hdeclares, 4, huses, rfl⟩ (calls_of_callOf? hbelow hcall) rfl (.single harg htuple)
    (q := 2) ?_ (by decide)
  rw [hexpr]
  rfl

/-- `x` is in a group, and the argument passed to it is an occurrence there. -/
theorem occurs_argument : ∃ h, classifier.harvest root none = .ok h ∧ h.complete = true ∧
    ∃ g ∈ h.groups, varX ∈ g.vars ∧ ∃ o ∈ g.occurrences, o.var = varX ∧ o.span = ⟨109, 110⟩ := by
  obtain ⟨last, h, hc, helements⟩ := completes
  obtain ⟨hh, hcomplete⟩ := Classifier.harvest_complete_iff.2 ⟨_, last, hc⟩
  have hgroup : h.Grouped varX := hc.mem_trim_iff.2 (by simp [helements])
  obtain ⟨g, hg, hx⟩ := hgroup
  have hk : classifier.program.Indexed := Program.indexed_ofPackages ..
  obtain ⟨_, _, -, hall⟩ := Classifier.occurrences_faithful hk hh hcomplete
  exact ⟨h, hh, hcomplete, g, hg, hx, (hall g hg).2 varX hx _ appears_argument⟩

/-- The statement `_ = g` uses `g` as a value. -/
theorem usedAsValue : classifier.program.UsedAsValue 7 := by
  have h : (packages[0].cursors.find? fun c => c.node.span = ⟨127, 128⟩).map (fun c => ((callOf? c).isNone,
      c.node.kind, c.node.facts.declares, c.node.facts.uses)) = some (true, .ident, none, some 7) := by decide
  obtain ⟨c, hc, h⟩ := Option.map_eq_some_iff.1 h
  simp only [Prod.mk.injEq] at h
  obtain ⟨hcall, hkind, hdeclares, huses⟩ := h
  refine ⟨c, ⟨packages[0], List.mem_cons_self, List.mem_of_find?_eq_some hc⟩,
    ⟨hkind, hdeclares, 7, huses, rfl⟩, fun call h => ?_⟩
  rw [callOf?_of_calls h] at hcall
  cases hcall

/-- The call `g(A)` reaches the parameter of `g`, which is nevertheless in no group. -/
theorem value_not_grouped : ∃ h, classifier.harvest root none = .ok h ∧ h.complete = true ∧
    varY ∈ classifier.finds varA ∧ ¬ h.Grouped varY := by
  obtain ⟨last, h, hc, -⟩ := completes
  obtain ⟨hh, hcomplete⟩ := Classifier.harvest_complete_iff.2 ⟨_, last, hc⟩
  have hk : classifier.program.Indexed := Program.indexed_ofPackages ..
  have hs : typing.signature? 7 = some ⟨none, [5], [6], false⟩ := by decide +kernel
  refine ⟨h, hh, hcomplete, by decide +kernel, ?_⟩
  exact Classifier.values_not_grouped hk hh hcomplete usedAsValue hs 5 (by simp) varY (by decide +kernel)

end Forwarding

end NilFlow
