import Mathlib.Data.List.Nodup
import NilFlow.Proofs.Program.Consistency

/-!
# Methods that override each other

* `Program.DeclaresMethod`: a method is declared in scope.
* `Program.Overrides`: a step between methods of one name, from an interface method to one whose receiver implements
  the interface, or back.
* `Program.chain_symm`: steps lead back to where they started.
* `Program.declarations_partition`: what shares the parameters of a method is its class under these steps, in order.
-/

namespace NilFlow

theorem nodup_eraseDups {α : Type} [DecidableEq α] : ∀ l : List α, l.eraseDups.Nodup
  | [] => by simp
  | a :: l => by
    rw [List.eraseDups_cons, List.nodup_cons]
    exact ⟨by simp, nodup_eraseDups _⟩
termination_by l => l.length
decreasing_by exact Nat.lt_succ_of_le (List.length_filter_le _ _)

theorem Typing.related_comm (T : Typing) (a b : ObjectId) : T.related a b = T.related b a := by
  unfold related
  cases T.interfaceOf? a <;> cases T.interfaceOf? b <;> rfl

namespace Program

variable {p : Program} {policy : OverridePolicy} {fn m x : ObjectId} {name : String}

/-- A method is declared in scope. -/
def DeclaresMethod (p : Program) (fn : ObjectId) : Prop := fn ∈ p.index.methods p.typing (p.typing.nameOf fn)

/-- The functions declared in scope are no instances. -/
def DeclaresOrigins (p : Program) : Prop := ∀ f ∈ p.index.functions, p.typing.originFunc f = f

/-- A step from one method to another of a name in scope: one of them is an interface method that the receiver of the
other implements. -/
def Overrides (p : Program) (name : String) (a b : ObjectId) : Prop :=
  b ∈ p.index.methods p.typing name ∧ p.typing.related a b = true

/-! ## Chains of steps -/

theorem mem_methods_of_chain (h : fn ∈ p.index.methods p.typing name)
    (hchain : Relation.ReflTransGen (p.Overrides name) fn m) : m ∈ p.index.methods p.typing name := by
  rcases Relation.ReflTransGen.cases_tail hchain with rfl | ⟨_, -, hm, -⟩
  · exact h
  · exact hm

theorem chain_symm (h : fn ∈ p.index.methods p.typing name)
    (hchain : Relation.ReflTransGen (p.Overrides name) fn m) : Relation.ReflTransGen (p.Overrides name) m fn := by
  induction hchain with
  | refl => exact .refl
  | @tail a b hchain hab ih =>
    have hba : p.Overrides name b a := by
      refine ⟨mem_methods_of_chain h hchain, ?_⟩
      rw [Typing.related_comm]
      exact hab.2
    exact ih.head hba

/-! ## Declarations that share parameters -/

theorem declarations_of_method (ho : p.DeclaresOrigins) (h : p.DeclaresMethod fn) : p.declarations policy fn =
    sortedBy (fun a b => p.typing.posOf a ≤ p.typing.posOf b) (p.sharing policy fn) := by
  obtain ⟨-, sig, hs, hr⟩ := of_mem_methods h
  obtain ⟨r, hr⟩ := Option.isSome_iff_exists.1 hr
  have hown : p.typing.originFunc fn = fn := ho fn (List.mem_filter.1 h).1
  unfold declarations
  dsimp only
  rw [hown, hs]
  dsimp only [Option.bind]
  rw [hr]

theorem declarations_perm_sharing (ho : p.DeclaresOrigins) (h : p.DeclaresMethod fn) :
    (p.declarations policy fn).Perm (p.sharing policy fn) := by
  rw [declarations_of_method ho h]
  exact sortedBy_perm _ _

theorem mem_declarations_iff (ho : p.DeclaresOrigins) (h : p.DeclaresMethod fn) :
    m ∈ p.declarations policy fn ↔ m ∈ p.sharing policy fn := (declarations_perm_sharing ho h).mem_iff

theorem mem_declarations_implements_iff (ho : p.DeclaresOrigins) (h : p.DeclaresMethod fn) :
    m ∈ p.declarations .implements fn ↔ Relation.ReflTransGen (p.Overrides (p.typing.nameOf fn)) fn m := by
  rw [mem_declarations_iff ho h]
  exact mem_sharing_implements_iff

theorem nodup_declarations_implements (ho : p.DeclaresOrigins) (h : p.DeclaresMethod fn) :
    (p.declarations .implements fn).Nodup := by
  refine (declarations_perm_sharing ho h).nodup_iff.2 ?_
  exact nodup_closure (nodup_eraseDups _) (List.nodup_singleton fn)

theorem pairwise_declarations (ho : p.DeclaresOrigins) (h : p.DeclaresMethod fn) :
    (p.declarations policy fn).Pairwise fun a b => p.typing.posOf a ≤ p.typing.posOf b := by
  have htrans : ∀ a b c, decide (p.typing.posOf a ≤ p.typing.posOf b) → decide (p.typing.posOf b ≤ p.typing.posOf c) →
      decide (p.typing.posOf a ≤ p.typing.posOf c) := by
    intro a b c hab hbc
    simp only [decide_eq_true_eq] at hab hbc ⊢
    exact Int.le_trans hab hbc
  have htotal : ∀ a b, decide (p.typing.posOf a ≤ p.typing.posOf b) ||
      decide (p.typing.posOf b ≤ p.typing.posOf a) := by
    intro a b
    simp only [Bool.or_eq_true, decide_eq_true_eq]
    exact Int.le_total _ _
  rw [declarations_of_method ho h]
  exact (pairwise_sortedBy htrans htotal (p.sharing policy fn)).imp of_decide_eq_true

/-- Without two methods at one position, their order is settled. -/
theorem declarations_eq_of_perm {l : List ObjectId} (ho : p.DeclaresOrigins) (h : p.DeclaresMethod fn)
    (hl : l.Perm (p.sharing policy fn)) (hsorted : l.Pairwise fun a b => p.typing.posOf a ≤ p.typing.posOf b)
    (hapart : ∀ a ∈ l, ∀ b ∈ l, p.typing.posOf a = p.typing.posOf b → a = b) : p.declarations policy fn = l := by
  have hperm : (p.declarations policy fn).Perm l := (declarations_perm_sharing ho h).trans hl.symm
  refine hperm.eq_of_pairwise ?_ (pairwise_declarations ho h) hsorted
  intro a b ha hb hab hba
  exact hapart a (hperm.mem_iff.1 ha) b hb (Int.le_antisymm hab hba)

/-- What a method shares its parameters with is a method in scope, and shares them with the same ones. -/
theorem declarations_perm (ho : p.DeclaresOrigins) (h : p.DeclaresMethod fn)
    (hm : m ∈ p.declarations .implements fn) :
    p.DeclaresMethod m ∧ (p.declarations .implements m).Perm (p.declarations .implements fn) := by
  have hchain := (mem_declarations_implements_iff ho h).1 hm
  have hmethod := mem_methods_of_chain h hchain
  have hname : p.typing.nameOf m = p.typing.nameOf fn := (of_mem_methods hmethod).1
  have hdeclares : p.DeclaresMethod m := by
    unfold DeclaresMethod
    rw [hname]
    exact hmethod
  refine ⟨hdeclares, ?_⟩
  rw [List.perm_ext_iff_of_nodup (nodup_declarations_implements ho hdeclares) (nodup_declarations_implements ho h)]
  intro x
  rw [mem_declarations_implements_iff ho hdeclares, mem_declarations_implements_iff ho h, hname]
  exact ⟨fun hx => hchain.trans hx, fun hx => (chain_symm h hchain).trans hx⟩

/-- The declarations that share the parameters of a method are its class under the steps between methods of its name,
each once and by position. The classes of two methods have the same members or none in common. -/
theorem declarations_partition (ho : p.DeclaresOrigins) (h : p.DeclaresMethod fn) :
    (p.declarations .implements fn).Nodup ∧
    ((p.declarations .implements fn).Pairwise fun a b => p.typing.posOf a ≤ p.typing.posOf b) ∧
    fn ∈ p.declarations .implements fn ∧
    (∀ m, m ∈ p.declarations .implements fn ↔ Relation.ReflTransGen (p.Overrides (p.typing.nameOf fn)) fn m) ∧
    (∀ m ∈ p.declarations .implements fn, p.DeclaresMethod m ∧
      (p.declarations .implements m).Perm (p.declarations .implements fn) ∧
      ((∀ a ∈ p.declarations .implements fn, ∀ b ∈ p.declarations .implements fn,
        p.typing.posOf a = p.typing.posOf b → a = b) →
          p.declarations .implements m = p.declarations .implements fn)) ∧
    ∀ m, p.DeclaresMethod m → (p.declarations .implements m).Perm (p.declarations .implements fn) ∨
      (p.declarations .implements m).Disjoint (p.declarations .implements fn) := by
  have hmem : ∀ m, m ∈ p.declarations .implements fn ↔
      Relation.ReflTransGen (p.Overrides (p.typing.nameOf fn)) fn m := fun m => mem_declarations_implements_iff ho h
  refine ⟨nodup_declarations_implements ho h, pairwise_declarations ho h, (hmem fn).2 .refl, hmem, ?_, ?_⟩
  · intro m hm
    obtain ⟨hdeclares, hperm⟩ := declarations_perm ho h hm
    have hsharing : (p.declarations .implements fn).Perm (p.sharing .implements m) :=
      hperm.symm.trans (declarations_perm_sharing ho hdeclares)
    exact ⟨hdeclares, hperm, declarations_eq_of_perm ho hdeclares hsharing (pairwise_declarations ho h)⟩
  · intro m hm
    by_cases hcommon : ∃ x ∈ p.declarations .implements m, x ∈ p.declarations .implements fn
    · obtain ⟨x, hxm, hxfn⟩ := hcommon
      exact Or.inl ((declarations_perm ho hm hxm).2.symm.trans (declarations_perm ho h hxfn).2)
    · exact Or.inr fun x hxm hxfn => hcommon ⟨x, hxm, hxfn⟩

end Program

/-! ## An unexported name in two packages -/

namespace Unexported

/-- The syntax of `type I interface{ m(x *int) }`, `type B struct{}`, `func (B) m(x *int) {}` and
`func f(i I) { i.m(nil) }`. -/
def library : Node :=
  .mk ⟨none, .file, ⟨1, 107⟩, {}⟩ [
    .mk ⟨some .name, .ident, ⟨9, 10⟩, { name := "p" }⟩ [],
    .mk ⟨some .decls, .genDecl, ⟨12, 41⟩, {}⟩ [
      .mk ⟨some .specs, .typeSpec, ⟨17, 41⟩, {}⟩ [
        .mk ⟨some .name, .ident, ⟨17, 18⟩, { name := "I", declares := some 0, type := some 0 }⟩ [],
        .mk ⟨some .typeExpr, .interfaceType, ⟨19, 41⟩, { type := some 1, isType := true }⟩ [
          .mk ⟨some .methods, .fieldList, ⟨28, 41⟩, {}⟩ [
            .mk ⟨some .list, .field, ⟨30, 39⟩, {}⟩ [
              .mk ⟨some .names, .ident, ⟨30, 31⟩, { name := "m", declares := some 1, type := some 2 }⟩ [],
              .mk ⟨some .typeExpr, .funcType, ⟨31, 39⟩, { type := some 2, isType := true }⟩ [
                .mk ⟨some .params, .fieldList, ⟨31, 39⟩, {}⟩ [
                  .mk ⟨some .list, .field, ⟨32, 38⟩, {}⟩ [
                    .mk ⟨some .names, .ident, ⟨32, 33⟩, { name := "x", declares := some 3, type := some 3 }⟩ [],
                    .pointerType .typeExpr 34 3 4 4]]]]]]]],
    .mk ⟨some .decls, .genDecl, ⟨43, 58⟩, {}⟩ [
      .mk ⟨some .specs, .typeSpec, ⟨48, 58⟩, {}⟩ [
        .mk ⟨some .name, .ident, ⟨48, 49⟩, { name := "B", declares := some 5, type := some 5 }⟩ [],
        .mk ⟨some .typeExpr, .structType, ⟨50, 58⟩, { type := some 6, isType := true }⟩ [
          .mk ⟨some .fields, .fieldList, ⟨56, 58⟩, {}⟩ []]]],
    .mk ⟨some .decls, .funcDecl, ⟨60, 81⟩, {}⟩ [
      .mk ⟨some .recv, .fieldList, ⟨65, 68⟩, {}⟩ [
        .mk ⟨some .list, .field, ⟨66, 67⟩, {}⟩ [
          .mk ⟨some .typeExpr, .ident, ⟨66, 67⟩, { name := "B", uses := some 5, type := some 5, isType := true }⟩ []]],
      .mk ⟨some .name, .ident, ⟨69, 70⟩, { name := "m", declares := some 8, type := some 7 }⟩ [],
      .mk ⟨some .typeExpr, .funcType, ⟨60, 78⟩, {}⟩ [
        .mk ⟨some .params, .fieldList, ⟨70, 78⟩, {}⟩ [
          .mk ⟨some .list, .field, ⟨71, 77⟩, {}⟩ [
            .mk ⟨some .names, .ident, ⟨71, 72⟩, { name := "x", declares := some 7, type := some 8 }⟩ [],
            .pointerType .typeExpr 73 8 4 4]]],
      .mk ⟨some .body, .blockStmt, ⟨79, 81⟩, {}⟩ []],
    .mk ⟨some .decls, .funcDecl, ⟨83, 107⟩, {}⟩ [
      .mk ⟨some .name, .ident, ⟨88, 89⟩, { name := "f", declares := some 10, type := some 9 }⟩ [],
      .mk ⟨some .typeExpr, .funcType, ⟨83, 94⟩, {}⟩ [
        .mk ⟨some .params, .fieldList, ⟨89, 94⟩, {}⟩ [
          .mk ⟨some .list, .field, ⟨90, 93⟩, {}⟩ [
            .mk ⟨some .names, .ident, ⟨90, 91⟩, { name := "i", declares := some 9, type := some 0 }⟩ [],
            .mk ⟨some .typeExpr, .ident, ⟨92, 93⟩,
              { name := "I", uses := some 0, type := some 0, isType := true }⟩ []]]],
      .mk ⟨some .body, .blockStmt, ⟨95, 107⟩, {}⟩ [
        .mk ⟨some .list, .exprStmt, ⟨97, 105⟩, {}⟩ [
          .mk ⟨some .x, .callExpr, ⟨97, 105⟩, { type := some 10 }⟩ [
            .mk ⟨some .callee, .selectorExpr, ⟨97, 100⟩, { type := some 11, selection := some ⟨.method, 1⟩ }⟩ [
              .mk ⟨some .x, .ident, ⟨97, 98⟩, { name := "i", uses := some 9, type := some 0 }⟩ [],
              .mk ⟨some .sel, .ident, ⟨99, 100⟩, { name := "m", uses := some 1, type := some 2 }⟩ []],
            .mk ⟨some .args, .ident, ⟨101, 104⟩, { name := "nil", uses := some 11, type := some 12 }⟩ []]]]]]

/-- The syntax of `type R struct{ p.B }` and `func (R) m() {}`. -/
def client : Node :=
  .mk ⟨none, .file, ⟨109, 171⟩, {}⟩ [
    .mk ⟨some .name, .ident, ⟨117, 118⟩, { name := "q" }⟩ [],
    .mk ⟨some .decls, .genDecl, ⟨120, 132⟩, {}⟩ [
      .mk ⟨some .specs, .importSpec, ⟨127, 132⟩, {}⟩ [
        .mk ⟨some .path, .basicLit, ⟨127, 132⟩, {}⟩ []]],
    .mk ⟨some .decls, .genDecl, ⟨134, 154⟩, {}⟩ [
      .mk ⟨some .specs, .typeSpec, ⟨139, 154⟩, {}⟩ [
        .mk ⟨some .name, .ident, ⟨139, 140⟩, { name := "R", declares := some 12, type := some 13 }⟩ [],
        .mk ⟨some .typeExpr, .structType, ⟨141, 154⟩, { type := some 14, isType := true }⟩ [
          .mk ⟨some .fields, .fieldList, ⟨147, 154⟩, {}⟩ [
            .mk ⟨some .list, .field, ⟨149, 152⟩, {}⟩ [
              .mk ⟨some .typeExpr, .selectorExpr, ⟨149, 152⟩, { type := some 5, isType := true }⟩ [
                .mk ⟨some .x, .ident, ⟨149, 150⟩, { name := "p", uses := some 14, type := some 15 }⟩ [],
                .mk ⟨some .sel, .ident, ⟨151, 152⟩,
                  { name := "B", declares := some 13, uses := some 5, type := some 5 }⟩ []]]]]]],
    .mk ⟨some .decls, .funcDecl, ⟨156, 171⟩, {}⟩ [
      .mk ⟨some .recv, .fieldList, ⟨161, 164⟩, {}⟩ [
        .mk ⟨some .list, .field, ⟨162, 163⟩, {}⟩ [
          .mk ⟨some .typeExpr, .ident, ⟨162, 163⟩,
            { name := "R", uses := some 12, type := some 13, isType := true }⟩ []]],
      .mk ⟨some .name, .ident, ⟨165, 166⟩, { name := "m", declares := some 16, type := some 16 }⟩ [],
      .mk ⟨some .typeExpr, .funcType, ⟨156, 168⟩, {}⟩ [
        .mk ⟨some .params, .fieldList, ⟨166, 168⟩, {}⟩ []],
      .mk ⟨some .body, .blockStmt, ⟨169, 171⟩, {}⟩ []]]

/-- The types and objects of both packages. `R` implements `I` by the method of the embedded `B`, not by its own. -/
def typing : Typing where
  types := #[⟨.named 0 1 false, none⟩, ⟨.interface [1] [], none⟩, ⟨.signature ⟨some 2, [3], [], false⟩, none⟩,
    ⟨.pointer 4, none⟩, ⟨.basic "int", none⟩, ⟨.named 5 6 false, none⟩, ⟨.struct [], none⟩,
    ⟨.signature ⟨some 6, [7], [], false⟩, some 2⟩, ⟨.pointer 4, some 3⟩, ⟨.signature ⟨none, [9], [], false⟩, none⟩,
    ⟨.tuple [], none⟩, ⟨.signature ⟨none, [3], [], false⟩, some 2⟩, ⟨.basic "untyped nil", none⟩,
    ⟨.named 12 14 false, none⟩, ⟨.struct [13], none⟩, ⟨.basic "invalid type", none⟩,
    ⟨.signature ⟨some 15, [], [], false⟩, none⟩]
  objects := #[⟨"I", 17, some ⟨0, "m/p"⟩, .typeName 0⟩, ⟨"m", 30, some ⟨0, "m/p"⟩, .func 2 none⟩,
    ⟨"", 30, some ⟨0, "m/p"⟩, .var 0 .parameter none none⟩,
    ⟨"x", 32, some ⟨0, "m/p"⟩, .var 3 .parameter none (some "I.UM0.PA0")⟩, ⟨"int", 0, none, .typeName 4⟩,
    ⟨"B", 48, some ⟨0, "m/p"⟩, .typeName 5⟩, ⟨"", 66, some ⟨0, "m/p"⟩, .var 5 .parameter none none⟩,
    ⟨"x", 71, some ⟨0, "m/p"⟩, .var 8 .parameter none (some "B.M0.PA0")⟩, ⟨"m", 69, some ⟨0, "m/p"⟩, .func 7 none⟩,
    ⟨"i", 90, some ⟨0, "m/p"⟩, .var 0 .parameter none none⟩, ⟨"f", 88, some ⟨0, "m/p"⟩, .func 9 none⟩,
    ⟨"nil", 0, none, .nil⟩, ⟨"R", 139, some ⟨1, "m/q"⟩, .typeName 13⟩,
    ⟨"B", 151, some ⟨1, "m/q"⟩, .var 5 .field none (some "R.UF0")⟩, ⟨"p", 127, some ⟨1, "m/q"⟩, .packageName⟩,
    ⟨"", 162, some ⟨1, "m/q"⟩, .var 13 .parameter none none⟩, ⟨"m", 165, some ⟨1, "m/q"⟩, .func 16 none⟩]
  scope := [⟨0, "B", "", 5⟩, ⟨0, "I", "", 0⟩, ⟨0, "f", "", 10⟩, ⟨1, "R", "", 12⟩]
  impls := [⟨5, 1, true, true⟩, ⟨13, 1, true, true⟩]

def files : List SourceFile :=
  [⟨"p/p.go", 0, 1, 107, [0, 10, 11, 41, 42, 58, 59, 81, 82, 107], false, [], some library, []⟩,
    ⟨"q/q.go", 1, 109, 63, [0, 10, 11, 24, 25, 46, 47, 63], false, [], some client, []⟩]

def packages : List Package := [⟨⟨0, "m/p"⟩, files.take 1, false⟩, ⟨⟨1, "m/q"⟩, files.drop 1, false⟩]

def program : Program := .ofPackages typing files packages false

theorem declaresOrigins : program.DeclaresOrigins := by
  unfold Program.DeclaresOrigins
  decide

/-- The methods of `B` and `R` share their parameters through the interface between them. -/
theorem class_of_methods : program.DeclaresOrigins ∧ program.DeclaresMethod 8 ∧
    program.declarations .implements 8 = [1, 8, 16] ∧ program.declarations .implements 16 = [1, 8, 16] := by
  have h : program.DeclaresMethod 8 := by
    unfold Program.DeclaresMethod
    decide +kernel
  have hshared : program.sharing .implements 8 = [8, 1, 16] := by decide +kernel
  have hclass : program.declarations .implements 8 = [1, 8, 16] := by
    refine Program.declarations_eq_of_perm declaresOrigins h ?_ (by decide +kernel) (by decide +kernel)
    rw [hshared]
    exact .swap 8 1 [16]
  obtain ⟨-, -, -, -, hall, -⟩ := Program.declarations_partition declaresOrigins h
  obtain ⟨-, -, heq⟩ := hall 16 (by simp [hclass])
  rw [heq (by rw [hclass]; decide +kernel)]
  exact ⟨declaresOrigins, h, hclass, hclass⟩

end Unexported

end NilFlow
