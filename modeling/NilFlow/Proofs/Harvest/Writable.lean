import NilFlow.Proofs.Flow.Spans
import NilFlow.Proofs.Harvest.Occurrences

/-!
# What a group proposes to edit

* `Program.Placed`: every node of a file starts in that file, as its positions are looked up.
* `Program.Makes`: the roots that a program offers, whole packages and single declarations.
* `Classifier.groups_writable`: the members of groups are declared in writable source, and so are their occurrences
  exactly when those that seeding recorded are.
* `Positional.occurrence_not_writable`: seeding also records occurrences in read-only packages.
-/

namespace NilFlow

namespace Program

variable {p : Program} {package : Package} {file : SourceFile} {n : Node} {s : Span} {root : Root}

/-- Every node of a file starts in that file. -/
def Placed (p : Program) : Prop :=
  ∀ package ∈ p.packages, ∀ file ∈ package.files, ∀ n, file.tree = some n → ∀ c, (Cursor.root n).Below c →
    p.fileAt? c.node.span.start = some (package, file)

theorem Placed.writable_iff (hp : p.Placed) (hpackage : package ∈ p.packages) (hfile : file ∈ package.files)
    (hn : file.tree = some n) (hs : (Cursor.root n).Spans s) :
    p.Writable s.start ↔ package.readOnly = false ∧ (file.generated = true → p.generated = true) := by
  obtain ⟨c, hc, rfl⟩ := hs
  have hat := hp package hpackage file hfile n hn c hc
  constructor
  · rintro ⟨package', file', hat', hwritable⟩
    rw [hat] at hat'
    cases hat'
    exact hwritable
  · exact fun hwritable => ⟨package, file, hat, hwritable⟩

/-! ## Roots -/

/-- The roots that a program offers: some of its packages, or the declaration of an object. -/
inductive Makes (p : Program) : Root → Prop where
  | whole {packages : List Package} (h : ∀ q ∈ packages, q ∈ p.packages) : Makes p (p.wholeRoot packages)
  | declaration {o : ObjectId} {root : Root} (h : p.declarationRoot? o = some root) : Makes p root

theorem mem_nodes_wholeRoot {packages : List Package} {node : RootNode} (h : node ∈ (p.wholeRoot packages).nodes) :
    ∃ package ∈ packages, ∃ file ∈ package.files, p.seedable file = true ∧ ∃ n, file.tree = some n ∧
      node.cursor = .root n := by
  obtain ⟨package, hpackage, h⟩ := List.mem_flatMap.1 h
  obtain ⟨file, hfile, h⟩ := List.mem_filterMap.1 h
  obtain ⟨hfile, hseed⟩ := List.mem_filter.1 hfile
  obtain ⟨n, hn, rfl⟩ := Option.map_eq_some_iff.1 h
  exact ⟨package, hpackage, file, hfile, hseed, n, hn, rfl⟩

theorem Makes.holds (h : p.Makes root) {node : RootNode} (hnode : node ∈ root.nodes) : p.Holds node.cursor := by
  cases h with
  | whole hsub =>
    obtain ⟨package, hpackage, file, hfile, -, n, hn, hcursor⟩ := mem_nodes_wholeRoot hnode
    rw [hcursor]
    exact holds_iff.2 ⟨package, hsub package hpackage, file, hfile, n, hn, .self⟩
  | declaration hdecl =>
    unfold declarationRoot? at hdecl
    split at hdecl
    · cases hdecl
    · rename_i package hpackage
      obtain ⟨ref, -, hfind⟩ := Option.bind_eq_some_iff.1 hpackage
      obtain ⟨c, hc, rfl⟩ := Option.map_eq_some_iff.1 hdecl
      obtain rfl := List.mem_singleton.1 hnode
      exact ⟨package, List.mem_of_find?_eq_some hfind, List.mem_of_find?_eq_some hc⟩

/-- The nodes of whole packages may be edited when no package is read-only: generated files that must stay as they are
are not searched. -/
theorem Placed.writable_wholeRoot (hp : p.Placed) {packages : List Package}
    (hsub : ∀ q ∈ packages, q ∈ p.packages) (hreadOnly : ∀ q ∈ packages, q.readOnly = false) {node : RootNode}
    (hnode : node ∈ (p.wholeRoot packages).nodes) : p.Writable node.cursor.node.span.start := by
  obtain ⟨package, hpackage, file, hfile, hseed, n, hn, hcursor⟩ := mem_nodes_wholeRoot hnode
  rw [hcursor]
  refine (hp.writable_iff (hsub package hpackage) hfile hn ⟨_, .self, rfl⟩).2 ⟨hreadOnly package hpackage, fun hg => ?_⟩
  unfold seedable at hseed
  cases hp : p.generated with
  | true => rfl
  | false => simp [hg, hp] at hseed

end Program

namespace Classifier

variable {k : Classifier} {root : Root} {polls : Option Nat} {h : Harvest} {v : Variable} {o : Occurrence}

/-! ## Occurrences -/

/-- The occurrences of a successful search may be edited: they lie in the files of the matches. -/
theorem Passes.writable (hk : k.program.Indexed) (hp : k.program.Placed) (hv : k.Passes v)
    (ho : o ∈ (k.searchVariable v).flow.occurrences) : k.program.Writable o.span.start := by
  obtain ⟨m, hm, -, hd, ho⟩ := hv.mem_occurrences.1 ho
  obtain ⟨ms, hs, -⟩ := hv.exists_matches
  obtain ⟨-, -, hwritable, -⟩ := Program.search_eq_ok_iff.1 hs
  have hwritable := hwritable m hm hd
  obtain ⟨-, package, hpackage, c, hc, hmatch⟩ := (Program.mem_occurrencesOf_iff hk).1 hm
  obtain ⟨package, hpackage, file, hfile, n, hn, hbelow⟩ := Program.holds_iff.1 ⟨package, hpackage, hc⟩
  obtain ⟨d, hdbelow, hcursor, hspan⟩ := exists_cursor_of_matchFrom hbelow (matchFrom_of_mem hmatch) hd
  -- match and occurrence lie in the same file
  rw [hp.writable_iff hpackage hfile hn ⟨d, hdbelow, hspan.symm⟩] at hwritable
  exact (hp.writable_iff hpackage hfile hn (propagate_inside hdbelow hcursor hspan ho)).2 hwritable

/-- A seeded occurrence may be edited when the root's node that it comes from may be. -/
theorem seed_writable (hp : k.program.Placed) (hr : k.program.Makes root)
    (hroot : ∀ node ∈ root.nodes, k.program.Writable node.cursor.node.span.start)
    (ho : o ∈ (k.seed root).1.flow.occurrences) : k.program.Writable o.span.start := by
  obtain ho | ⟨c, hc, s, hs, ho⟩ := exists_seedAt_of_mem_occurrences _ _ ho
  · exact absurd ho (by simp [Seeds.empty, Flow.empty])
  · obtain ⟨node, hnode, hc⟩ := List.mem_flatMap.1 hc
    obtain ⟨package, hpackage, file, hfile, n, hn, hbelow⟩ := Program.holds_iff.1 (hr.holds hnode)
    have hwritable := hroot node hnode
    rw [hp.writable_iff hpackage hfile hn ⟨_, hbelow, rfl⟩] at hwritable
    have hspan := seedAt_inside (hbelow.trans (Cursor.mem_preorder_iff.1 hc)) hs ho
    exact (hp.writable_iff hpackage hfile hn hspan).2 hwritable

/-- The members of the groups of a complete harvest are declared in writable source. Their occurrences lie in writable
source exactly when those that seeding recorded do, since searches only pass over what may be edited; and these do when
the root itself may be edited. -/
theorem groups_writable (hk : k.program.Indexed) (hp : k.program.Placed) (hr : k.program.Makes root)
    (hh : k.harvest root polls = .ok h) (hcomplete : h.complete = true) :
    (∀ g ∈ h.groups, ∀ v ∈ g.vars, k.program.Writable v.pos) ∧
      ((∀ g ∈ h.groups, ∀ o ∈ g.occurrences, k.program.Writable o.span.start) ↔
        ∀ o ∈ (k.seed root).1.flow.occurrences, h.Grouped o.var → k.program.Writable o.span.start) ∧
      ((∀ node ∈ root.nodes, k.program.Writable node.cursor.node.span.start) →
        ∀ g ∈ h.groups, ∀ o ∈ g.occurrences, k.program.Writable o.span.start) := by
  obtain ⟨served, last, hc⟩ := harvest_complete_iff.1 ⟨hh, hcomplete⟩
  have hseeded : (∀ o ∈ (k.seed root).1.flow.occurrences, h.Grouped o.var → k.program.Writable o.span.start) →
      ∀ g ∈ h.groups, ∀ o ∈ g.occurrences, k.program.Writable o.span.start := by
    intro hseeds g hg o ho
    obtain ⟨hv, ho | ⟨v, -, hpass, ho⟩⟩ := (hc.mem_occurrences_iff hg).1 ho
    · exact hseeds o ho ⟨g, hg, hv⟩
    · exact hpass.writable hk hp ho
  refine ⟨fun g hg v hv => ?_, ⟨fun hall o ho => ?_, hseeded⟩, fun hroot => hseeded fun o ho _ => ?_⟩
  · obtain ⟨ms, hs, -⟩ := (hc.served_once ⟨g, hg, hv⟩).2.exists_matches
    exact (Program.search_eq_ok_iff.1 hs).1.2
  · rintro ⟨g, hg, hv⟩
    exact hall g hg o ((hc.mem_occurrences_iff hg).2 ⟨hv, Or.inl ho⟩)
  · exact seed_writable hp hr hroot ho

end Classifier

namespace Forwarding

theorem placed : classifier.program.Placed := by
  intro package hpackage file hfile n hn c hc
  obtain rfl := List.mem_singleton.1 hpackage
  obtain rfl := List.mem_singleton.1 hfile
  cases hn
  have hall : ∀ c ∈ (Cursor.root source).preorder, c.node.span.start ≠ 0 ∧ files[0].holds c.node.span.start = true := by
    decide
  obtain ⟨hzero, hholds⟩ := hall c (Cursor.mem_preorder_iff.2 hc)
  have hfile : fileAt? classifier.program.files c.node.span.start = some files[0] := by
    unfold fileAt?
    rw [if_neg hzero]
    exact List.find?_cons_of_pos hholds
  unfold Program.fileAt?
  rw [hfile]
  rfl

/-- The package may be edited, and so may all occurrences in groups. -/
theorem occurrences_writable : ∃ h, classifier.harvest root none = .ok h ∧ h.complete = true ∧ h.Grouped varX ∧
    ∀ g ∈ h.groups, ∀ o ∈ g.occurrences, classifier.program.Writable o.span.start := by
  obtain ⟨last, h, hc, helements⟩ := completes
  obtain ⟨hh, hcomplete⟩ := Classifier.harvest_complete_iff.2 ⟨_, last, hc⟩
  have hk : classifier.program.Indexed := Program.indexed_ofPackages ..
  have hr : classifier.program.Makes root := .whole fun _ hq => hq
  refine ⟨h, hh, hcomplete, hc.mem_trim_iff.2 (by simp [helements]), ?_⟩
  refine (Classifier.groups_writable hk placed hr hh hcomplete).2.2 fun node hnode => ?_
  refine placed.writable_wholeRoot (fun _ hq => hq) (fun q hq => ?_) hnode
  obtain rfl := List.mem_singleton.1 hq
  rfl

end Forwarding

/-! ## A positional literal in a read-only package -/

namespace Positional

/-- The syntax of `type T struct{ F *int }`. -/
def library : Node :=
  .mk ⟨none, .file, ⟨1, 35⟩, {}⟩ [
    .mk ⟨some .name, .ident, ⟨9, 10⟩, { name := "q" }⟩ [],
    .mk ⟨some .decls, .genDecl, ⟨12, 35⟩, {}⟩ [
      .mk ⟨some .specs, .typeSpec, ⟨17, 35⟩, {}⟩ [
        .mk ⟨some .name, .ident, ⟨17, 18⟩, { name := "T", declares := some 0, type := some 0 }⟩ [],
        .mk ⟨some .typeExpr, .structType, ⟨19, 35⟩, { type := some 1, isType := true }⟩ [
          .mk ⟨some .fields, .fieldList, ⟨25, 35⟩, {}⟩ [
            .mk ⟨some .list, .field, ⟨27, 33⟩, {}⟩ [
              .mk ⟨some .names, .ident, ⟨27, 28⟩, { name := "F", declares := some 1, type := some 2 }⟩ [],
              .pointerType .typeExpr 29 2 2 3]]]]]]

/-- The syntax of `var V = q.T{nil}`. -/
def client : Node :=
  .mk ⟨none, .file, ⟨37, 78⟩, {}⟩ [
    .mk ⟨some .name, .ident, ⟨45, 46⟩, { name := "p" }⟩ [],
    .mk ⟨some .decls, .genDecl, ⟨48, 60⟩, {}⟩ [
      .mk ⟨some .specs, .importSpec, ⟨55, 60⟩, {}⟩ [.mk ⟨some .path, .basicLit, ⟨55, 60⟩, {}⟩ []]],
    .mk ⟨some .decls, .genDecl, ⟨62, 78⟩, {}⟩ [
      .mk ⟨some .specs, .valueSpec, ⟨66, 78⟩, {}⟩ [
        .mk ⟨some .names, .ident, ⟨66, 67⟩, { name := "V", declares := some 3, type := some 0 }⟩ [],
        .mk ⟨some .values, .compositeLit, ⟨70, 78⟩, { type := some 0 }⟩ [
          .mk ⟨some .typeExpr, .selectorExpr, ⟨70, 73⟩, { type := some 0, isType := true }⟩ [
            .mk ⟨some .x, .ident, ⟨70, 71⟩, { name := "q", type := some 4, uses := some 4 }⟩ [],
            .mk ⟨some .sel, .ident, ⟨72, 73⟩, { name := "T", type := some 0, uses := some 0 }⟩ []],
          .mk ⟨some .elts, .ident, ⟨74, 77⟩, { name := "nil", type := some 5, uses := some 5 }⟩ []]]]]

def typing : Typing where
  types := #[⟨.named 0 1 false, none⟩, ⟨.struct [1], none⟩, ⟨.pointer 3, none⟩, ⟨.basic "int", none⟩,
    ⟨.basic "invalid type", none⟩, ⟨.basic "untyped nil", none⟩]
  objects := #[⟨"T", 17, some ⟨0, "m/q"⟩, .typeName 0⟩, ⟨"F", 27, some ⟨0, "m/q"⟩, .var 2 .field none (some "T.UF0")⟩,
    ⟨"int", 0, none, .typeName 3⟩, ⟨"V", 66, some ⟨1, "m/p"⟩, .var 0 .var none (some "V")⟩,
    ⟨"q", 55, some ⟨1, "m/p"⟩, .packageName⟩, ⟨"nil", 0, none, .nil⟩]
  scope := [⟨0, "T", "", 0⟩, ⟨1, "V", "", 3⟩]
  impls := []

def files : List SourceFile :=
  [⟨"q/q.go", 0, 1, 35, [0, 10, 11, 35], false, [], some library, []⟩,
    ⟨"p/p.go", 1, 37, 42, [0, 10, 11, 24, 25, 42], false, [], some client, []⟩]

/-- The client is read-only. -/
def packages : List Package := [⟨⟨0, "m/q"⟩, files.take 1, false⟩, ⟨⟨1, "m/p"⟩, files.drop 1, true⟩]

def classifier : Classifier := ⟨.ofPackages typing files packages false, .standard⟩

def root : Root := classifier.program.wholeRoot packages

def varF : Variable := ⟨1, "F", 27, some ⟨0, "m/q"⟩, .field, some "T.UF0"⟩

/-- The field is in a group, though the literal that initializes it lies in a read-only package: seeding recorded the
element of the literal, and no identifier there names the field, so that the search of the field passes. -/
theorem occurrence_not_writable : classifier.program.Makes root ∧ ∃ h, classifier.harvest root none = .ok h ∧
    h.complete = true ∧ ∃ g ∈ h.groups, ⟨varF, .element, ⟨74, 77⟩⟩ ∈ g.occurrences ∧
      ¬ classifier.program.Writable 74 := by
  have he : (classifier.evaluate root 2).map (fun out => (out.2.work.forest.trim out.2.ruledOut).elements) =
      some [varF] := by decide +kernel
  obtain ⟨⟨served, last⟩, he, helements⟩ := Option.map_eq_some_iff.1 he
  have hc := Classifier.completes_of_evaluate he
  obtain ⟨hh, hcomplete⟩ := Classifier.harvest_complete_iff.2 ⟨_, last, hc⟩
  obtain ⟨g, hg, hv⟩ := hc.mem_trim_iff.2 (show varF ∈ _ by rw [helements]; exact List.mem_cons_self)
  have hseeded : (⟨varF, .element, ⟨74, 77⟩⟩ : Occurrence) ∈ (classifier.seed root).1.flow.occurrences := by
    decide +kernel
  refine ⟨.whole fun _ hq => hq, _, hh, hcomplete, g, hg, (hc.mem_occurrences_iff hg).2 ⟨hv, Or.inl hseeded⟩, ?_⟩
  rintro ⟨package, file, hat, hreadOnly, -⟩
  have hclient : (classifier.program.fileAt? 74).map (·.1.readOnly) = some true := by decide +kernel
  rw [hat] at hclient
  simp [hreadOnly] at hclient

end Positional

end NilFlow
