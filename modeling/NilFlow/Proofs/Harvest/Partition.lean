import Mathlib.Data.List.Nodup
import Mathlib.Data.List.Pairwise
import NilFlow.Proofs.Group
import NilFlow.Proofs.Harvest.Trace
import NilFlow.Proofs.Tree.Cursor

/-!
# Groups part what was found

* `Harvest.Grouped`: a variable is a member of a group.
* `Classifier.Completes.grouped_iff`: the members of groups are the survivors of trimming.
* `Classifier.Served`, `Classifier.Noded`: a variable is searched, or gets a node, at some time of a harvest.
* `Classifier.harvest_partitions`: every variable that ever gets a node ends in one group, or is ruled out.
-/

namespace NilFlow

/-! ## Members of groups -/

namespace Harvest

/-- A variable is a member of a group. -/
def Grouped (h : Harvest) (v : Variable) : Prop := ∃ g ∈ h.groups, v ∈ g.vars

/-- Two variables are members of one group. -/
def SameGroup (h : Harvest) (a b : Variable) : Prop := ∃ g ∈ h.groups, a ∈ g.vars ∧ b ∈ g.vars

end Harvest

namespace Classifier

variable {k : Classifier} {root : Root} {polls : Option Nat} {served : List Variable} {last : Run} {h : Harvest}
  {v x a b : Variable}

theorem map_vars_finish (k : Classifier) (r : Run) (root : Root) :
    (k.finish r root).groups.map Group.vars = (r.work.forest.trim r.ruledOut).components Variable.le :=
  GroupInput.map_vars_build _ _

theorem mem_ruledOut_finish (k : Classifier) (r : Run) (root : Root) (x : Variable) :
    x ∈ (k.finish r root).ruledOut ↔ x ∈ r.ruledOut ∨ x ∈ r.work.forest.trimmed r.ruledOut := by
  show x ∈ (r.condemn (r.work.forest.trimmed r.ruledOut)).ruledOut.mergeSort Variable.le ↔ _
  rw [List.mem_mergeSort, Run.mem_ruledOut_condemn]

namespace Completes

theorem sameGroup_iff (hc : k.Completes root polls served last h) :
    h.SameGroup a b ↔ WorkList.Joined (k.calls (k.seed root).1 served) last.ruledOut Variable.le a b := by
  have hgroups := k.map_vars_finish last root
  rw [← hc.outcome, hc.trace.forest] at hgroups
  unfold WorkList.Joined Forest.Together Harvest.SameGroup
  rw [← hgroups]
  constructor
  · rintro ⟨g, hg, ha, hb⟩
    exact ⟨g.vars, List.mem_map_of_mem hg, ha, hb⟩
  · rintro ⟨c, hcomp, ha, hb⟩
    obtain ⟨g, hg, rfl⟩ := List.mem_map.1 hcomp
    exact ⟨g, hg, ha, hb⟩

theorem flatMap_vars_perm (hc : k.Completes root polls served last h) :
    (h.groups.flatMap Group.vars).Perm (last.work.forest.trim last.ruledOut).elements := by
  rw [List.flatMap_def, hc.outcome, map_vars_finish]
  exact (Forest.sound_trim _ _).components_flatten_perm _

theorem mem_ruledOut_iff (hc : k.Completes root polls served last h) :
    x ∈ h.ruledOut ↔ x ∈ last.ruledOut ∨ x ∈ last.work.forest.trimmed last.ruledOut := by
  rw [hc.outcome]
  exact k.mem_ruledOut_finish last root x

theorem mem_trim_iff (hc : k.Completes root polls served last h) :
    h.Grouped x ↔ x ∈ (last.work.forest.trim last.ruledOut).elements := by
  rw [← hc.flatMap_vars_perm.mem_iff, List.mem_flatMap]
  rfl

theorem grouped_iff (hc : k.Completes root polls served last h) :
    h.Grouped x ↔ WorkList.Survives (k.calls (k.seed root).1 served) last.ruledOut x := by
  rw [hc.mem_trim_iff, hc.trace.forest, WorkList.mem_elements_trim_iff hc.trace.rooted]

theorem not_mem_ruledOut (hc : k.Completes root polls served last h) (hg : h.Grouped x) : x ∉ h.ruledOut := by
  have hn := hc.trace.grown.nodup
  rw [hc.mem_trim_iff] at hg
  rw [hc.mem_ruledOut_iff, Forest.mem_trimmed_iff hn]
  rintro (hx | ⟨-, hx⟩)
  · exact Forest.not_mem_elements_trim hn hx hg
  · exact hx hg

theorem nodup_vars (hc : k.Completes root polls served last h) : (h.groups.flatMap Group.vars).Nodup :=
  hc.flatMap_vars_perm.nodup_iff.2 (hc.trace.grown.nodup.sublist (Forest.elements_trim_sublist _ _))

theorem vars_ne_nil (hc : k.Completes root polls served last h) {g : Group} (hg : g ∈ h.groups) : g.vars ≠ [] := by
  have hm := List.mem_map_of_mem (f := Group.vars) hg
  rw [hc.outcome, map_vars_finish] at hm
  exact (Forest.sound_trim _ _).ne_nil_of_mem_components hm

theorem group_unique (hc : k.Completes root polls served last h) {g g' : Group} (hg : g ∈ h.groups)
    (hg' : g' ∈ h.groups) (hx : x ∈ g.vars) (hx' : x ∈ g'.vars) : g = g' := by
  by_contra hne
  have hsymm : Std.Symm (Function.onFun List.Disjoint Group.vars) := ⟨fun _ _ hab => hab.symm⟩
  exact (List.nodup_flatMap.1 hc.nodup_vars).2.forall hg hg' hne hx hx'

theorem grouped_or_ruledOut (hc : k.Completes root polls served last h) (hx : x ∈ last.work.forest.elements) :
    h.Grouped x ∨ x ∈ h.ruledOut := by
  rw [hc.mem_trim_iff, hc.mem_ruledOut_iff, Forest.mem_trimmed_iff hc.trace.grown.nodup]
  by_cases ht : x ∈ (last.work.forest.trim last.ruledOut).elements
  · exact Or.inl ht
  · exact Or.inr (Or.inr ⟨hx, ht⟩)

end Completes

/-! ## Nodes over time -/

/-- A variable is searched at some time of a harvest. -/
def Served (k : Classifier) (root : Root) (polls : Option Nat) (v : Variable) : Prop :=
  ∃ first vs r, k.Begins root polls first ∧ k.Rounds first vs r ∧ v ∈ vs

/-- A variable has a node at some time of a harvest. -/
def Noded (k : Classifier) (root : Root) (polls : Option Nat) (v : Variable) : Prop :=
  ∃ first vs r, k.Begins root polls first ∧ k.Rounds first vs r ∧ v ∈ r.work.forest.elements

theorem Begins.unique {r r' : Run} (hr : k.Begins root polls r) (hr' : k.Begins root polls r') : r = r' := by
  obtain ⟨p, hp, hb⟩ := hr
  obtain ⟨p', hp', hb'⟩ := hr'
  rw [hp] at hp'
  cases hp'
  rw [hb] at hb'
  exact (Prod.mk.inj hb').1

/-- From every state that a complete harvest passes through, rounds lead to its end. -/
theorem Completes.extend (hc : k.Completes root polls served last h) {first r : Run} {vs : List Variable}
    (hb : k.Begins root polls first) (hr : k.Rounds first vs r) :
    ∃ ws, k.Completes root polls (vs ++ ws) last h := by
  obtain ⟨first', hb', hr'⟩ := hc.rounds
  cases hb.unique hb'
  have he := exhaust_eq_ok_iff.2 ⟨served, hr', hc.next⟩
  rw [hr.exhaust_eq] at he
  obtain ⟨ws, hws, hn⟩ := exhaust_eq_ok_iff.1 he
  exact ⟨ws, ⟨first, hb, hr.append hws⟩, hn, hc.outcome⟩

/-- The variables that ever get a node are the seeds, and what the successful search of a served variable finds. -/
theorem noded_iff (hc : k.Completes root polls served last h) : k.Noded root polls x ↔
    x ∈ (k.seed root).1.flow.vars ∨ ∃ v, k.Served root polls v ∧ k.Passes v ∧ x ∈ k.finds v := by
  constructor
  · rintro ⟨first, vs, r, hb, hr, hx⟩
    have ht := (Trace.begin hb).rounds hr
    rcases ht.mem_elements.1 hx with hx | ⟨v, hv, hp, hx⟩
    · exact Or.inl hx
    · exact Or.inr ⟨v, ⟨first, vs, r, hb, hr, hv⟩, hp, hx⟩
  · rintro (hx | ⟨v, ⟨first, vs, r, hb, hr, hv⟩, hp, hx⟩)
    · obtain ⟨first, hb, -⟩ := hc.rounds
      exact ⟨first, [], first, hb, .none first, (Trace.begin hb).mem_elements.2 (Or.inl hx)⟩
    · have ht := (Trace.begin hb).rounds hr
      exact ⟨first, vs, r, hb, hr, ht.mem_elements.2 (Or.inr ⟨v, hv, hp, hx⟩)⟩

theorem Completes.mem_elements_of_noded (hc : k.Completes root polls served last h)
    (hx : k.Noded root polls x) : x ∈ last.work.forest.elements := by
  obtain ⟨first, vs, r, hb, hr, hx⟩ := hx
  obtain ⟨ws, hws⟩ := hc.extend hb hr
  have ht := (Trace.begin hb).rounds hr
  refine hws.trace.mem_elements.2 ((ht.mem_elements.1 hx).imp_right ?_)
  rintro ⟨v, hv, hp, hx⟩
  exact ⟨v, List.mem_append_left _ hv, hp, hx⟩

/-! ## The partition -/

/-- A complete harvest parts what was found: groups are nonempty, no variable is listed twice in them, and the variables
that ever got a node, seeds and what successful searches found, are each in exactly one group, or else ruled out. -/
theorem harvest_partitions (hh : k.harvest root polls = .ok h) (hcomplete : h.complete = true) :
    (∀ g ∈ h.groups, g.vars ≠ []) ∧ (h.groups.flatMap Group.vars).Nodup ∧
      (∀ g ∈ h.groups, ∀ v ∈ g.vars, v ∉ h.ruledOut) ∧
      (∀ v, k.Noded root polls v ↔
        v ∈ (k.seed root).1.flow.vars ∨ ∃ y, k.Served root polls y ∧ k.Passes y ∧ v ∈ k.finds y) ∧
      ∀ v, k.Noded root polls v → (v ∉ h.ruledOut ∧ ∃! g, g ∈ h.groups ∧ v ∈ g.vars) ∨
        (v ∈ h.ruledOut ∧ ∀ g ∈ h.groups, v ∉ g.vars) := by
  obtain ⟨served, last, hc⟩ := harvest_complete_iff.1 ⟨hh, hcomplete⟩
  refine ⟨fun g hg => hc.vars_ne_nil hg, hc.nodup_vars, fun g hg v hv => hc.not_mem_ruledOut ⟨g, hg, hv⟩,
    fun v => noded_iff hc, fun v hv => ?_⟩
  rcases hc.grouped_or_ruledOut (hc.mem_elements_of_noded hv) with hgroup | hout
  · refine Or.inl ⟨hc.not_mem_ruledOut hgroup, ?_⟩
    obtain ⟨g, hg, hvg⟩ := hgroup
    exact ⟨g, ⟨hg, hvg⟩, fun g' hg' => hc.group_unique hg'.1 hg hg'.2 hvg⟩
  · exact Or.inr ⟨hout, fun g hg hvg => hc.not_mem_ruledOut ⟨g, hg, hvg⟩ hout⟩

end Classifier

/-! ## Two packages -/

namespace TwoPackages

/-- The syntax of `var B *int` and `var C = B`. -/
def library : Node :=
  .mk ⟨none, .file, ⟨1, 33⟩, {}⟩ [
    .mk ⟨some .name, .ident, ⟨9, 10⟩, { name := "q" }⟩ [],
    .mk ⟨some .decls, .genDecl, ⟨12, 22⟩, {}⟩ [
      .mk ⟨some .specs, .valueSpec, ⟨16, 22⟩, {}⟩ [
        .mk ⟨some .names, .ident, ⟨16, 17⟩, { declares := some 0, name := "B", type := some 0 }⟩ [],
        .pointerType .typeExpr 18 0 1 1]],
    .mk ⟨some .decls, .genDecl, ⟨24, 33⟩, {}⟩ [
      .mk ⟨some .specs, .valueSpec, ⟨28, 33⟩, {}⟩ [
        .mk ⟨some .names, .ident, ⟨28, 29⟩, { declares := some 2, name := "C", type := some 0 }⟩ [],
        .mk ⟨some .values, .ident, ⟨32, 33⟩, { name := "B", type := some 0, uses := some 0 }⟩ []]]]

/-- The syntax of `var A *int` and `func f() { q.C = A; _ = (*int)(A) }`. -/
def client : Node :=
  .mk ⟨none, .file, ⟨35, 107⟩, {}⟩ [
    .mk ⟨some .name, .ident, ⟨43, 44⟩, { name := "p" }⟩ [],
    .mk ⟨some .decls, .genDecl, ⟨46, 58⟩, {}⟩ [
      .mk ⟨some .specs, .importSpec, ⟨53, 58⟩, {}⟩ [
        .mk ⟨some .path, .basicLit, ⟨53, 58⟩, {}⟩ []]],
    .mk ⟨some .decls, .genDecl, ⟨60, 70⟩, {}⟩ [
      .mk ⟨some .specs, .valueSpec, ⟨64, 70⟩, {}⟩ [
        .mk ⟨some .names, .ident, ⟨64, 65⟩, { declares := some 3, name := "A", type := some 2 }⟩ [],
        .pointerType .typeExpr 66 2 1 1]],
    .mk ⟨some .decls, .funcDecl, ⟨72, 107⟩, {}⟩ [
      .mk ⟨some .name, .ident, ⟨77, 78⟩, { declares := some 4, name := "f", type := some 3 }⟩ [],
      .mk ⟨some .typeExpr, .funcType, ⟨72, 80⟩, {}⟩ [
        .mk ⟨some .params, .fieldList, ⟨78, 80⟩, {}⟩ []],
      .mk ⟨some .body, .blockStmt, ⟨81, 107⟩, {}⟩ [
        .mk ⟨some .list, .assignStmt, ⟨83, 90⟩, { operator := "=" }⟩ [
          .mk ⟨some .lhs, .selectorExpr, ⟨83, 86⟩, { type := some 0 }⟩ [
            .mk ⟨some .x, .ident, ⟨83, 84⟩, { name := "q", type := some 4, uses := some 5 }⟩ [],
            .mk ⟨some .sel, .ident, ⟨85, 86⟩, { name := "C", type := some 0, uses := some 2 }⟩ []],
          .mk ⟨some .rhs, .ident, ⟨89, 90⟩, { name := "A", type := some 2, uses := some 3 }⟩ []],
        .mk ⟨some .list, .assignStmt, ⟨92, 105⟩, { operator := "=" }⟩ [
          .mk ⟨some .lhs, .ident, ⟨92, 93⟩, { name := "_" }⟩ [],
          .pointerConversion .rhs ⟨96, 105⟩ 5 1 1
            (.mk ⟨some .args, .ident, ⟨103, 104⟩, { name := "A", type := some 2, uses := some 3 }⟩ [])]]]]

def typing : Typing where
  types := #[⟨.pointer 1, none⟩, ⟨.basic "int", none⟩, ⟨.pointer 1, some 0⟩, ⟨.signature ⟨none, [], [], false⟩, none⟩,
    ⟨.basic "invalid type", none⟩, ⟨.pointer 1, some 0⟩]
  objects := #[⟨"B", 16, some ⟨0, "m/q"⟩, .var 0 .var none (some "B")⟩, ⟨"int", 0, none, .typeName 1⟩,
    ⟨"C", 28, some ⟨0, "m/q"⟩, .var 0 .var none (some "C")⟩, ⟨"A", 64, some ⟨1, "m/p"⟩, .var 2 .var none (some "A")⟩,
    ⟨"f", 77, some ⟨1, "m/p"⟩, .func 3 none⟩, ⟨"q", 53, some ⟨1, "m/p"⟩, .packageName⟩]
  scope := [⟨0, "B", "", 0⟩, ⟨0, "C", "", 2⟩, ⟨1, "A", "", 3⟩, ⟨1, "f", "", 4⟩]
  impls := []

def files : List SourceFile :=
  [⟨"q", 0, 1, 33, [0, 10, 11, 22, 23, 33], false, [], some library, []⟩,
    ⟨"p", 1, 35, 73, [0, 10, 11, 24, 25, 36, 37, 73], false, [], some client, []⟩]

def packages : List Package := [⟨⟨0, "m/q"⟩, files.take 1, false⟩, ⟨⟨1, "m/p"⟩, files.drop 1, false⟩]

def classifier : Classifier := ⟨.ofPackages typing files packages false, .standard⟩

/-- The library is scanned first. -/
def forward : Root := ⟨[⟨⟨0, "m/q"⟩, .root library⟩, ⟨⟨1, "m/p"⟩, .root client⟩]⟩

/-- The client is scanned first. -/
def backward : Root := ⟨[⟨⟨1, "m/p"⟩, .root client⟩, ⟨⟨0, "m/q"⟩, .root library⟩]⟩

def varA : Variable := ⟨3, "A", 64, some ⟨1, "m/p"⟩, .var, some "A"⟩

def varB : Variable := ⟨0, "B", 16, some ⟨0, "m/q"⟩, .var, some "B"⟩

def varC : Variable := ⟨2, "C", 28, some ⟨0, "m/q"⟩, .var, some "C"⟩

/-- The conversion rejects `A`, but not before `C` was found. -/
theorem searchA : classifier.discoveries varA = [⟨[⟨varC, false⟩], false⟩] ∧
    ∃ f, (classifier.searchVariable varA).failure = some f ∧ f.fatal = false := by
  have h : (classifier.searchVariable varA).failure.map Failure.fatal = some false := by decide +kernel
  exact ⟨by decide +kernel, Option.map_eq_some_iff.1 h⟩

theorem searchB : classifier.discoveries varB = [⟨[⟨varC, false⟩], false⟩] ∧ classifier.Passes varB := by
  decide +kernel

theorem searchB_finds : varC ∈ classifier.finds varB := by
  rw [Classifier.finds_eq, searchB.1]
  decide

theorem searchC : classifier.discoveries varC = [⟨[⟨varB, false⟩], false⟩, ⟨[⟨varA, false⟩], false⟩] ∧
    classifier.Passes varC := by
  decide +kernel

/-- With the library first, `C` has a node when `A` is rejected, and stays. -/
theorem completes_forward : ∃ last h, classifier.Completes forward none [varB, varA, varC] last h ∧
    last.ruledOut = [varA] ∧ last.work.forest.trimmed [varA] = [varA] := by
  have hseeds : (classifier.seed forward).1.flow.discoveries =
      [⟨[⟨varB, true⟩], false⟩, ⟨[⟨varA, true⟩], false⟩] := by decide +kernel
  have hout : (classifier.seed forward).1.ruledOut = [] := by decide +kernel
  obtain ⟨r₀, hb, hp₀, ho₀, hw₀⟩ := classifier.exists_begins forward (by decide +kernel)
    ⟨varB, by decide +kernel, by decide +kernel⟩
  have hn₀ : r₀.work.next? =
      some (varB, ⟨⟨[⟨.value varB true, none⟩, ⟨.value varA true, none⟩], []⟩, [varA], []⟩) := by
    rw [hw₀, hseeds, hout]
    rfl
  obtain ⟨r₁, hr₁, hp₁, ho₁, hw₁⟩ := Classifier.exists_round_of_passes hn₀ hp₀ searchB.2
  have hn₁ : r₁.work.next? = some (varA, ⟨⟨[⟨.value varB true, none⟩, ⟨.value varA true, none⟩,
      ⟨.value varC false, some 0⟩], []⟩, [varC], []⟩) := by
    rw [hw₁, Classifier.finds_eq, searchB.1, ho₀, hout]
    rfl
  obtain ⟨-, f, hf, hfatal⟩ := searchA
  obtain ⟨r₂, hr₂, hp₂, ho₂, hw₂⟩ := Classifier.exists_round_of_failure hn₁ hp₁ hf hfatal
  have hrej : Classifier.rejected { r₁ with work := ⟨⟨[⟨.value varB true, none⟩, ⟨.value varA true, none⟩,
      ⟨.value varC false, some 0⟩], []⟩, [varC], []⟩ } varA (classifier.searchVariable varA).flow = [varA] := by
    unfold Classifier.rejected
    dsimp only
    decide +kernel
  rw [hrej] at ho₂ hw₂
  have ho₂ : r₂.ruledOut = [varA] := by
    rw [ho₂, ho₁, ho₀, hout]
    rfl
  have hn₂ : r₂.work.next? = some (varC, ⟨⟨[⟨.value varB true, none⟩, ⟨.value varA true, none⟩,
      ⟨.value varC false, some 0⟩], []⟩, [], [varA]⟩) := by
    rw [hw₂]
    rfl
  obtain ⟨r₃, hr₃, hp₃, ho₃, hw₃⟩ := Classifier.exists_round_of_passes hn₂ hp₂ searchC.2
  rw [Classifier.finds_eq, searchC.1, ho₂] at hw₃
  refine ⟨r₃, _, ⟨⟨r₀, hb, .more hr₁ (.more hr₂ (.more hr₃ (.none r₃)))⟩, ?_, rfl⟩, ho₃.trans ho₂, ?_⟩
  · rw [hw₃]
    rfl
  · rw [hw₃]
    decide +kernel

/-- Of the variables of both packages, `B` and `C` are in a group, and `A` is ruled out. -/
theorem forward_partition : ∃ h, classifier.harvest forward none = .ok h ∧ h.complete = true ∧
    ∀ v ∈ [varA, varB, varC], (v ∉ h.ruledOut ∧ ∃! g, g ∈ h.groups ∧ v ∈ g.vars) ∨
      (v ∈ h.ruledOut ∧ ∀ g ∈ h.groups, v ∉ g.vars) := by
  obtain ⟨last, h, hc, -⟩ := completes_forward
  obtain ⟨hh, hcomplete⟩ := Classifier.harvest_complete_iff.2 ⟨_, last, hc⟩
  obtain ⟨first, hb, hr⟩ := hc.rounds
  obtain ⟨-, -, -, hnoded, hpart⟩ := Classifier.harvest_partitions hh hcomplete
  refine ⟨h, hh, hcomplete, fun v hv => hpart v ((hnoded v).2 ?_)⟩
  rcases List.mem_cons.1 hv with rfl | hv
  · exact Or.inl (by decide)
  · rcases List.mem_cons.1 hv with rfl | hv
    · exact Or.inl (by decide)
    · obtain rfl := List.mem_singleton.1 hv
      exact Or.inr ⟨varB, ⟨first, _, last, hb, hr, List.mem_cons_self⟩, searchB.2, searchB_finds⟩

end TwoPackages

end NilFlow
