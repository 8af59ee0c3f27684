import NilFlow.Proofs.Harvest.Certificate
import NilFlow.Proofs.Harvest.Halting
import NilFlow.Proofs.Keys

/-!
# Which groups can be told apart

* `Group.keys`: the keys of the elements; the identifier of a group is made of them.
* `Program.Spelled`, `Program.PathsDistinct`: what type checking promises of names, export paths and lines.
* `Classifier.groups_identified`: two groups of a complete harvest have the same keys exactly when their elements clash
  one by one.
-/

namespace NilFlow

/-- The keys of the elements of a group, in their order. -/
def Group.keys (files : List SourceFile) (g : Group) : List String := g.vars.map (elementKey (some files))

/-! ## Names and paths of a program -/

namespace Program

/-- Variables with a position belong to a package, names have no dots and colons, export paths have no colons, and the
first line of a file starts with it. -/
structure Spelled (p : Program) : Prop where
  package : ∀ v ∈ p.typing.vars, v.located = true → v.package.isSome = true
  name : ∀ v ∈ p.typing.vars, '.' ∉ v.name.toList ∧ ':' ∉ v.name.toList
  path : ∀ v ∈ p.typing.vars, ∀ path ∈ v.path, ':' ∉ path.toList
  lines : ∀ f ∈ p.files, 0 ∈ f.lineStarts

/-- Different variables of one package have different export paths, if any. -/
def PathsDistinct (p : Program) : Prop := ∀ a ∈ p.typing.vars, ∀ b ∈ p.typing.vars, a.package = b.package →
  a.path = b.path → a.path.isSome = true → a = b

instance (p : Program) : Decidable p.PathsDistinct :=
  inferInstanceAs (Decidable (∀ a ∈ p.typing.vars, ∀ b ∈ p.typing.vars, a.package = b.package →
    a.path = b.path → a.path.isSome = true → a = b))

/-- Variables whose declaration may be edited have keys that name their place. -/
theorem Spelled.keyed {p : Program} (hs : p.Spelled) {v : Variable} (hv : v ∈ p.typing.vars)
    (hl : v.located = true) (hw : p.Writable v.pos) : v.Keyed p.files := by
  obtain ⟨package, file, hf, -⟩ := hw
  refine ⟨hs.package v hv hl, ?_, hs.name v hv, hs.path v hv⟩
  unfold fileAt? at hf
  split at hf
  · cases hf
  · rename_i found hfound
    refine ⟨found, hfound, hs.lines found ?_⟩
    unfold NilFlow.fileAt? at hfound
    split at hfound
    · cases hfound
    · exact List.mem_of_find?_eq_some hfound

end Program

namespace Classifier

variable {k : Classifier} {root : Root} {polls : Option Nat} {served : List Variable} {last : Run} {h : Harvest}
  {x : Variable} {g g' : Group}

/-! ## Members of groups -/

namespace Completes

theorem mem_vars (hc : k.Completes root polls served last h) (hx : h.Grouped x) : x ∈ k.program.typing.vars := by
  obtain ⟨first, hb, -⟩ := hc.rounds
  exact hc.trace.mem_vars (begins_cases hb).1 ((Forest.elements_trim_sublist _ _).mem (hc.mem_trim_iff.1 hx))

theorem keyed (hc : k.Completes root polls served last h) (hs : k.program.Spelled) (hx : h.Grouped x) :
    x.Keyed k.program.files := by
  obtain ⟨ms, hsearch, -⟩ := (hc.served_once hx).2.exists_matches
  obtain ⟨⟨hl, hw⟩, -⟩ := Program.search_eq_ok_iff.1 hsearch
  exact hs.keyed (hc.mem_vars hx) hl hw

theorem id_eq (hc : k.Completes root polls served last h) (hg : g ∈ h.groups) :
    g.id = .ofName Group.idSpace (groupKey (some k.program.files) g.vars) := by
  rw [hc.outcome] at hg
  have hid := GroupInput.id_of_mem_build hg
  exact hid

/-- Members of different groups share a key exactly when they clash. -/
theorem elementKey_eq_iff (hc : k.Completes root polls served last h) (hs : k.program.Spelled)
    (hpaths : k.program.PathsDistinct) (hg : g ∈ h.groups) (hg' : g' ∈ h.groups) (hne : g ≠ g') {a b : Variable}
    (ha : a ∈ g.vars) (hb : b ∈ g'.vars) :
    elementKey (some k.program.files) a = elementKey (some k.program.files) b ↔ a.Clash k.program.files b := by
  have hga : h.Grouped a := ⟨g, hg, ha⟩
  have hgb : h.Grouped b := ⟨g', hg', hb⟩
  refine Variable.elementKey_eq_iff (hc.keyed hs hga) (hc.keyed hs hgb) fun hpackage hpath => ?_
  by_contra hsome
  have heq := hpaths a (hc.mem_vars hga) b (hc.mem_vars hgb) hpackage hpath (Option.isSome_iff_ne_none.2 hsome)
  exact hne (hc.group_unique hg hg' ha (heq ▸ hb))

theorem keys_eq_iff (hc : k.Completes root polls served last h) (hs : k.program.Spelled)
    (hpaths : k.program.PathsDistinct) (hg : g ∈ h.groups) (hg' : g' ∈ h.groups) (hne : g ≠ g') :
    g.keys k.program.files = g'.keys k.program.files ↔
      List.Forall₂ (fun a b => a.Clash k.program.files b) g.vars g'.vars :=
  map_eq_map_iff_forall₂ fun _ ha _ hb => hc.elementKey_eq_iff hs hpaths hg hg' hne ha hb

theorem nodup_groups (hc : k.Completes root polls served last h) : h.groups.Nodup := by
  refine (List.nodup_flatMap.1 hc.nodup_vars).2.imp_of_mem ?_
  rintro g g' hg - hdisjoint rfl
  obtain ⟨v, hv⟩ := List.exists_mem_of_ne_nil _ (hc.vars_ne_nil hg)
  exact hdisjoint hv hv

end Completes

/-! ## The identity of groups -/

/-- In a complete harvest, the identifier of a group is made of the keys of its elements, one a line. Two different
groups have the same keys exactly when their elements, one by one in their order, clash: they are declared by one name
at one place, or import path and export path together read the same. As long as no key has several lines, the text that
is hashed is the same only then. So the groups have different keys when no members of two of them clash. -/
theorem groups_identified (hs : k.program.Spelled) (hpaths : k.program.PathsDistinct)
    (hh : k.harvest root polls = .ok h) (hcomplete : h.complete = true) :
    (∀ g ∈ h.groups, g.id = .ofName Group.idSpace (groupKey (some k.program.files) g.vars) ∧
      ∀ g' ∈ h.groups, g ≠ g' →
        (g.keys k.program.files = g'.keys k.program.files ↔
          List.Forall₂ (fun a b => a.Clash k.program.files b) g.vars g'.vars) ∧
        ((∀ v ∈ g.vars ++ g'.vars, '\n' ∉ (elementKey (some k.program.files) v).toList) →
          (groupKey (some k.program.files) g.vars = groupKey (some k.program.files) g'.vars ↔
            g.keys k.program.files = g'.keys k.program.files))) ∧
    ((∀ a b, h.Grouped a → h.Grouped b → ¬ h.SameGroup a b → ¬ a.Clash k.program.files b) →
      (h.groups.map (Group.keys k.program.files)).Nodup) := by
  obtain ⟨served, last, hc⟩ := harvest_complete_iff.1 ⟨hh, hcomplete⟩
  refine ⟨fun g hg => ⟨hc.id_eq hg, fun g' hg' hne => ⟨hc.keys_eq_iff hs hpaths hg hg' hne, fun hline => ?_⟩⟩,
    fun hclash => ?_⟩
  · exact groupKey_eq_iff (hc.vars_ne_nil hg) (hc.vars_ne_nil hg') hline
  · refine List.Nodup.map_on (fun g hg g' hg' hkeys => ?_) hc.nodup_groups
    by_contra hne
    have hall := (hc.keys_eq_iff hs hpaths hg hg' hne).1 hkeys
    -- the first elements of both groups would clash
    obtain ⟨a, as, hvars⟩ := List.exists_cons_of_ne_nil (hc.vars_ne_nil hg)
    obtain ⟨b, bs, hvars'⟩ := List.exists_cons_of_ne_nil (hc.vars_ne_nil hg')
    have ha : a ∈ g.vars := hvars ▸ List.mem_cons_self
    have hb : b ∈ g'.vars := hvars' ▸ List.mem_cons_self
    rw [hvars, hvars', List.forall₂_cons] at hall
    refine hclash a b ⟨g, hg, ha⟩ ⟨g', hg', hb⟩ ?_ hall.1
    rintro ⟨common, hcommon, ha', hb'⟩
    exact hne ((hc.group_unique hg hcommon ha ha').trans (hc.group_unique hcommon hg' hb' hb))

end Classifier

/-! ## The clauses of a type switch -/

namespace TypeSwitch

def use (field : FieldName) (pos : Pos) (v : ObjectId) (type : TypeId) : Node :=
  .mk ⟨some field, .ident, ⟨pos, pos + 1⟩, { name := "v", uses := some v, type := some type }⟩ []

def assignment (pos : Pos) (v : ObjectId) (type : TypeId) : Node :=
  .mk ⟨some .body, .assignStmt, ⟨pos, pos + 7⟩, { operator := "=" }⟩ [
    use .lhs pos v type,
    .mk ⟨some .rhs, .ident, ⟨pos + 4, pos + 7⟩, { name := "nil", uses := some 5, type := some 5 }⟩ []]

/-- The syntax of `func f(i any) { switch v := i.(type) { case *int: v = nil; default: _ = v; v = nil } }`. -/
def source : Node :=
  .mk ⟨none, .file, ⟨1, 98⟩, {}⟩ [
    .mk ⟨some .name, .ident, ⟨9, 10⟩, { name := "p" }⟩ [],
    .mk ⟨some .decls, .funcDecl, ⟨12, 98⟩, {}⟩ [
      .mk ⟨some .name, .ident, ⟨17, 18⟩, { name := "f", declares := some 2, type := some 0 }⟩ [],
      .mk ⟨some .typeExpr, .funcType, ⟨12, 25⟩, {}⟩ [
        .mk ⟨some .params, .fieldList, ⟨18, 25⟩, {}⟩ [
          .mk ⟨some .list, .field, ⟨19, 24⟩, {}⟩ [
            .mk ⟨some .names, .ident, ⟨19, 20⟩, { name := "i", declares := some 0, type := some 1 }⟩ [],
            .mk ⟨some .typeExpr, .ident, ⟨21, 24⟩,
              { name := "any", uses := some 1, type := some 1, isType := true }⟩ []]]],
      .mk ⟨some .body, .blockStmt, ⟨26, 98⟩, {}⟩ [
        .mk ⟨some .list, .typeSwitchStmt, ⟨28, 96⟩, {}⟩ [
          .mk ⟨some .assign, .assignStmt, ⟨35, 48⟩, { operator := ":=" }⟩ [
            .mk ⟨some .lhs, .ident, ⟨35, 36⟩, { name := "v" }⟩ [],
            .mk ⟨some .rhs, .typeAssertExpr, ⟨40, 48⟩, {}⟩ [
              .mk ⟨some .x, .ident, ⟨40, 41⟩, { name := "i", uses := some 0, type := some 1 }⟩ []]],
          .mk ⟨some .body, .blockStmt, ⟨49, 96⟩, {}⟩ [
            .mk ⟨some .list, .caseClause, ⟨51, 69⟩, {}⟩ [
              .pointerType .list 56 3 3 4,
              assignment 62 4 3],
            .mk ⟨some .list, .caseClause, ⟨71, 94⟩, {}⟩ [
              .mk ⟨some .body, .assignStmt, ⟨80, 85⟩, { operator := "=" }⟩ [
                .mk ⟨some .lhs, .ident, ⟨80, 81⟩, { name := "_" }⟩ [],
                use .rhs 84 6 1],
              assignment 87 6 1]]]]]]

def typing : Typing where
  types := #[⟨.signature ⟨none, [0], [], false⟩, none⟩, ⟨.aliased 1 2 2, none⟩, ⟨.interface [] [], some 1⟩,
    ⟨.pointer 4, none⟩, ⟨.basic "int", none⟩, ⟨.basic "untyped nil", none⟩]
  objects := #[⟨"i", 19, some ⟨0, "p"⟩, .var 1 .parameter none none⟩, ⟨"any", 0, none, .typeName 1⟩,
    ⟨"f", 17, some ⟨0, "p"⟩, .func 0 none⟩, ⟨"int", 0, none, .typeName 4⟩,
    ⟨"v", 35, some ⟨0, "p"⟩, .var 3 .var none none⟩, ⟨"nil", 0, none, .nil⟩,
    ⟨"v", 35, some ⟨0, "p"⟩, .var 1 .var none none⟩]
  scope := [⟨0, "f", "", 2⟩]
  impls := []

def files : List SourceFile := [⟨"p.go", 0, 1, 98, [0, 10, 11], false, [], some source, []⟩]

def packages : List Package := [⟨⟨0, "p"⟩, files, false⟩]

def classifier : Classifier := ⟨.ofPackages typing files packages false, .standard⟩

def root : Root := classifier.program.wholeRoot packages

/-- The variable of the clause for `*int`. -/
def pointer : Variable := ⟨4, "v", 35, some ⟨0, "p"⟩, .var, none⟩

/-- The variable of the other clause. -/
def other : Variable := ⟨6, "v", 35, some ⟨0, "p"⟩, .var, none⟩

/-- Each of the two variables makes a group of its own. -/
theorem exists_groups : ∃ h, classifier.harvest root none = .ok h ∧ h.complete = true ∧
    ∃ g ∈ h.groups, ∃ g' ∈ h.groups, g.vars = [pointer] ∧ g'.vars = [other] := by
  have hevaluate : (classifier.evaluate root 3).map (fun out =>
      (out.2.work.forest.trim out.2.ruledOut).rawComponents.map (sortedBy Variable.le)) =
        some [[pointer], [other]] := by
    decide +kernel
  obtain ⟨⟨served, last⟩, he, hout⟩ := Option.map_eq_some_iff.1 hevaluate
  have hc := Classifier.completes_of_evaluate he
  obtain ⟨hh, hcomplete⟩ := Classifier.harvest_complete_iff.2 ⟨served, last, hc⟩
  have hmem : ∀ vs ∈ [[pointer], [other]], ∃ g ∈ (classifier.finish last root).groups, g.vars = vs := by
    intro vs hvs
    rw [← List.mem_map, Classifier.map_vars_finish, Forest.mem_components, ← List.mem_map]
    exact hout ▸ hvs
  obtain ⟨g, hg, hvars⟩ := hmem [pointer] (by simp)
  obtain ⟨g', hg', hvars'⟩ := hmem [other] (by simp)
  exact ⟨_, hh, hcomplete, g, hg, g', hg', hvars, hvars'⟩

theorem ne_of_vars {g g' : Group} (hvars : g.vars = [pointer]) (hvars' : g'.vars = [other]) : g ≠ g' := by
  rintro rfl
  exact absurd (hvars.symm.trans hvars') (by decide)

/-- The keys of both are the package, the place and the name. -/
theorem keys_eq {g g' : Group} (hvars : g.vars = [pointer]) (hvars' : g'.vars = [other]) :
    g.keys files = g'.keys files := by
  unfold Group.keys
  rw [hvars, hvars']
  rfl

theorem spelled : classifier.program.Spelled :=
  ⟨by decide, by decide, by decide, by decide⟩

theorem pathsDistinct : classifier.program.PathsDistinct := by decide

/-- Since the keys are the same, the two variables clash. -/
theorem clauses_clash : ∃ h, classifier.harvest root none = .ok h ∧ h.complete = true ∧
    ∃ g ∈ h.groups, ∃ g' ∈ h.groups, g ≠ g' ∧ List.Forall₂ (fun a b => a.Clash files b) g.vars g'.vars := by
  obtain ⟨h, hh, hcomplete, g, hg, g', hg', hvars, hvars'⟩ := exists_groups
  obtain ⟨hall, -⟩ := Classifier.groups_identified spelled pathsDistinct hh hcomplete
  have hne : g ≠ g' := ne_of_vars hvars hvars'
  obtain ⟨hkeys, -⟩ := (hall g hg).2 g' hg' hne
  exact ⟨h, hh, hcomplete, g, hg, g', hg', hne, hkeys.1 (keys_eq hvars hvars')⟩

/-- Although export paths tell variables apart, two different groups have the same keys, and so one identifier. -/
theorem identity_shared : classifier.program.PathsDistinct ∧ ∃ h, classifier.harvest root none = .ok h ∧
    h.complete = true ∧ ∃ g ∈ h.groups, ∃ g' ∈ h.groups, g ≠ g' ∧ g.keys files = g'.keys files ∧ g.id = g'.id := by
  obtain ⟨h, hh, hcomplete, g, hg, g', hg', hvars, hvars'⟩ := exists_groups
  obtain ⟨served, last, hc⟩ := Classifier.harvest_complete_iff.1 ⟨hh, hcomplete⟩
  refine ⟨pathsDistinct, h, hh, hcomplete, g, hg, g', hg', ne_of_vars hvars hvars', keys_eq hvars hvars', ?_⟩
  rw [hc.id_eq hg, hc.id_eq hg', hvars, hvars']
  rfl

end TypeSwitch

end NilFlow
