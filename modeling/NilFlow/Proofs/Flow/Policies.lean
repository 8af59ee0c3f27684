import Mathlib.Tactic.MkIffOfInductiveProp
import NilFlow.Proofs.Flow.Stores
import NilFlow.Proofs.Program.Overriding

/-!
# Override policies

* `Typing.SameName`: two methods have the same name; one that is not exported belongs to its package.
* `Typing.MethodsFit`, `Typing.OverridingFits`: methods of one name that override each other have the same signature;
  it can be decided.
* `Program.OneName`: whatever overrides a method has its name in this sense.
* `Classifier.policies_nested`: then each policy finds what the stricter ones find, and an argument that one of the
  declarations takes is taken by all of them.
-/

namespace NilFlow

namespace Typing

variable {T : Typing} {f g : ObjectId} {exported : String → Bool}

def packageOf? (T : Typing) (o : ObjectId) : Option PackageRef := (T.object? o).bind (·.package)

/-- Two methods have the same name. A name that is not exported is that of its package only. -/
def SameName (T : Typing) (exported : String → Bool) (f g : ObjectId) : Prop :=
  T.nameOf f = T.nameOf g ∧ (exported (T.nameOf f) = true ∨ T.packageOf? f = T.packageOf? g)

instance decidableSameName (T : Typing) (exported : String → Bool) (f g : ObjectId) :
    Decidable (T.SameName exported f g) := inferInstanceAs (Decidable (_ ∧ _))

/-- The signatures of two methods fit the interfaces that they are declared in or implement. -/
@[mk_iff]
structure MethodsFit (T : Typing) (exported : String → Bool) (f g : ObjectId) : Prop where
  /-- Identical signatures have the same number of parameters. -/
  identical : T.sameSignature f g = true → ∀ s ∈ T.signature? f, ∀ t ∈ T.signature? g,
    s.params.length = t.params.length ∧ s.variadic = t.variadic
  /-- A receiver implements an interface by methods of identical signatures. -/
  implements : T.SameName exported f g → T.related f g = true → T.sameSignature f g = true

instance decidableMethodsFit (T : Typing) (exported : String → Bool) (f g : ObjectId) :
    Decidable (T.MethodsFit exported f g) := decidable_of_iff _ (methodsFit_iff T exported f g).symm

/-- Functions take arguments as their signatures say, and methods fit together. -/
structure OverridingFits (T : Typing) (exported : String → Bool) : Prop where
  functions : ∀ f, T.FunctionFits f
  methods : ∀ f g, T.MethodsFit exported f g

theorem overridingFits_iff (T : Typing) (exported : String → Bool) : T.OverridingFits exported ↔
    (∀ f < T.objects.size, T.FunctionFits f) ∧
      ∀ f < T.objects.size, ∀ g < T.objects.size, T.MethodsFit exported f g := by
  rw [← T.functionFits_iff_table]
  constructor
  · intro h
    exact ⟨h.functions, fun f _ g _ => h.methods f g⟩
  · rintro ⟨hfunctions, h⟩
    refine ⟨hfunctions, fun f g => ⟨fun hsame => ?_, fun hname hrel => ?_⟩⟩
    · obtain ⟨hf, hg⟩ := lt_of_sameSignature hsame
      exact (h f hf g hg).identical hsame
    · obtain ⟨hf, hg⟩ := lt_of_related hrel
      exact (h f hf g hg).implements hname hrel

instance decidableOverridingFits (T : Typing) (exported : String → Bool) : Decidable (T.OverridingFits exported) :=
  decidable_of_iff _ (T.overridingFits_iff exported).symm

end Typing

namespace Program

variable {p : Program} {policy : OverridePolicy} {fn m : ObjectId} {exported : String → Bool}

/-- Whatever overrides a method, or is overridden by it, has the same name. -/
def OneName (p : Program) (exported : String → Bool) (fn : ObjectId) : Prop :=
  ∀ m ∈ p.declarations .implements fn, p.typing.SameName exported m fn

theorem declarations_exact_subset (ho : p.DeclaresOrigins) (h : p.DeclaresMethod fn) :
    p.declarations .exact fn ⊆ p.declarations .implements fn := by
  intro m hm
  obtain rfl := List.mem_singleton.1 ((mem_declarations_iff ho h).1 hm)
  exact (mem_declarations_implements_iff ho h).2 .refl

theorem declarations_subset_signature (hT : p.typing.OverridingFits exported) (ho : p.DeclaresOrigins)
    (h : p.DeclaresMethod fn) (hname : policy = .implements → p.OneName exported fn) :
    p.declarations policy fn ⊆ p.declarations .signature fn := by
  intro m hm
  rw [mem_declarations_iff ho h] at hm ⊢
  refine sharing_subset_signature (fun hpolicy f hf g hg hrel => ?_) hm
  have hnames := hname hpolicy
  obtain ⟨hfn, hpackage⟩ := hnames f ((mem_declarations_iff ho h).2 hf)
  obtain ⟨hgn, hpackage'⟩ := hnames g ((mem_declarations_iff ho h).2 hg)
  refine (hT.methods f g).implements ⟨hfn.trans hgn.symm, ?_⟩ hrel
  rcases hpackage with hexported | hpackage
  · exact Or.inl hexported
  · rcases hpackage' with hexported | hpackage'
    · rw [hfn, ← hgn]
      exact Or.inl hexported
    · exact Or.inr (hpackage.trans hpackage'.symm)

/-- An argument that a method takes is taken by all that share its parameters. -/
theorem isSome_parameterAt?_of_mem (hT : p.typing.OverridingFits exported) (ho : p.DeclaresOrigins)
    (h : p.DeclaresMethod fn) (hname : policy = .implements → p.OneName exported fn) {sig : Signature}
    (hs : p.typing.signature? fn = some sig) {place : Option Nat} {ellipsis : Bool}
    (hplace : (parameterAt? p.typing sig place ellipsis).isSome = true) (hm : m ∈ p.declarations policy fn) :
    ∃ s, p.typing.signature? m = some s ∧ (s.paramAt place).isSome = true ∧
      (parameterAt? p.typing s place ellipsis).isSome = true := by
  obtain ⟨⟨o, dst⟩, hparam⟩ := Option.isSome_iff_exists.1 hplace
  have hparam := paramAt_of_parameterAt? hparam
  obtain ⟨-, sig', hs', hr⟩ := of_mem_methods h
  obtain rfl : sig' = sig := Option.some.inj (hs'.symm.trans hs)
  have hsignature := (mem_declarations_iff ho h).1 (declarations_subset_signature hT ho h hname hm)
  obtain ⟨s, hsm, halike⟩ := alike_of_mem_signature (fun f g => (hT.methods f g).identical) hs hr hsignature
  have hplace : (s.paramAt place).isSome = true := by
    rw [halike.isSome_paramAt, hparam]
    rfl
  exact ⟨s, hsm, hplace, (hT.functions m).isSome_parameterAt? hsm hplace ellipsis⟩

end Program

namespace Classifier

variable {k : Classifier} {fn : ObjectId} {exported : String → Bool}

/-- The exact declaration of a method is among those that override it, and these are among those of its signature,
provided that they all have the same name. An argument that the method takes is then taken by all declarations that
share its parameters, so that looking for them never fails for lack of a parameter. -/
theorem policies_nested (hT : k.program.typing.OverridingFits exported) (ho : k.program.DeclaresOrigins)
    (h : k.program.DeclaresMethod fn) :
    k.program.declarations .exact fn ⊆ k.program.declarations .implements fn ∧
    (k.program.OneName exported fn →
      k.program.declarations .implements fn ⊆ k.program.declarations .signature fn) ∧
    ∀ policy, (policy = .implements → k.program.OneName exported fn) → ∀ sig place ellipsis,
      k.program.typing.signature? fn = some sig →
      (parameterAt? k.program.typing sig place ellipsis).isSome = true →
      (∀ m ∈ k.program.declarations policy fn, ∃ s, k.program.typing.signature? m = some s ∧
        (parameterAt? k.program.typing s place ellipsis).isSome = true) ∧
      ∀ call arg, NonFatal (k.sharedParameters call arg place ellipsis (k.program.declarations policy fn)) := by
  refine ⟨Program.declarations_exact_subset ho h, fun hname => ?_, ?_⟩
  · exact Program.declarations_subset_signature hT ho h fun _ => hname
  · intro policy hname sig place ellipsis hs hplace
    have hall := fun m hm => Program.isSome_parameterAt?_of_mem (m := m) hT ho h hname hs hplace hm
    constructor
    · intro m hm
      obtain ⟨s, hsm, -, hparam⟩ := hall m hm
      exact ⟨s, hsm, hparam⟩
    · intro call arg
      refine sharedParameters_nonFatal hT.functions call arg ellipsis _ fun m hm => ?_
      obtain ⟨s, hsm, hplace, -⟩ := hall m hm
      exact ⟨s, hsm, hplace⟩

end Classifier

/-! ## A method of the same spelling -/

namespace Unexported

/-- Exported names start with a capital letter. -/
def exported (name : String) : Bool := name.toList.head?.any Char.isUpper

theorem overridingFits : typing.OverridingFits exported := by decide

/-- The library alone, without the package that embeds its type. -/
def alone : Classifier := ⟨.ofPackages typing files (packages.take 1) false, .standard⟩

/-- In the library the method of `B` overrides that of `I`, has its signature and takes its argument. -/
theorem library_nested : alone.program.DeclaresMethod 1 ∧ 8 ∈ alone.program.declarations .implements 1 ∧
    8 ∈ alone.program.declarations .signature 1 ∧
    ∃ s, typing.signature? 8 = some s ∧ (parameterAt? typing s (some 0) false).isSome = true := by
  have ho : alone.program.DeclaresOrigins := by
    unfold Program.DeclaresOrigins
    decide +kernel
  have h : alone.program.DeclaresMethod 1 := by
    unfold Program.DeclaresMethod
    decide +kernel
  have hshared : alone.program.sharing .implements 1 = [1, 8] := by decide +kernel
  have hmem : ∀ m, m ∈ alone.program.declarations .implements 1 ↔ m ∈ [1, 8] := by
    intro m
    rw [Program.mem_declarations_iff ho h, hshared]
  have hname : alone.program.OneName exported 1 := by
    intro m hm
    have hall : ∀ m ∈ [1, 8], alone.program.typing.SameName exported m 1 := by decide +kernel
    exact hall m ((hmem m).1 hm)
  have h8 : 8 ∈ alone.program.declarations .implements 1 := (hmem 8).2 (by simp)
  obtain ⟨-, hsubset, hpolicies⟩ := Classifier.policies_nested overridingFits ho h
  have hs : alone.program.typing.signature? 1 = some ⟨some 2, [3], [], false⟩ := by decide +kernel
  obtain ⟨hall, -⟩ := hpolicies .implements (fun _ => hname) _ (some 0) false hs (by decide +kernel)
  exact ⟨h, h8, hsubset hname h8, hall 8 h8⟩

def classifier : Classifier := ⟨program, .standard⟩

theorem declaresMethod : program.DeclaresMethod 1 := by
  unfold Program.DeclaresMethod
  decide

theorem declarations_interface : program.declarations .implements 1 = [1, 8, 16] := by
  have hshared : program.sharing .implements 1 = [1, 8, 16] := by decide +kernel
  exact Program.declarations_eq_of_perm declaresOrigins declaresMethod (.of_eq hshared.symm) (by decide +kernel)
    (by decide +kernel)

/-- The call `i.m(nil)` is taken to pass its argument to the method of `R` as well. -/
theorem call_fails : ∃ arg, program.Holds arg ∧ classifier.dependents arg none =
    .fail ⟨.modelError, none, ⟨97, 105⟩, "argument arity of m"⟩ := by
  have hcall : ∃ call ∈ packages[0].cursors, (call.node.kind = .callExpr ∧ isConversion call.node = false ∧
      calleeOf typing call.node = .func 1) ∧ (isMethodExprCall call.node = false ∧ call.node.facts.ellipsis = false) ∧
      (call.childrenAt .args).length = 1 ∧ ∃ arg ∈ call.childrenAt .args, arg.node.kind.isExpr = true ∧
        typing.tupleOf? arg.node = none ∧ boxes typing (valueType? typing arg.node none) (some 3) = false ∧
        classifier.sharedParameters call.node arg.node (some 0) false [1, 8, 16] =
          .error ⟨.modelError, none, ⟨97, 105⟩, "argument arity of m"⟩ := by decide
  obtain ⟨call, hcall, ⟨hk, hconversion, hfn⟩, ⟨hexpr, hellipsis⟩, hone, arg, harg, he, htuple, hboxes, hfail⟩ := hcall
  have hholds : program.Holds call := ⟨packages[0], List.mem_cons_self, hcall⟩
  have hfirst : (call.childrenAt .args)[0]? = some arg := by
    rw [Cursor.childrenAt_eq_singleton hone harg]
    rfl
  have hs : typing.signature? (typing.originFunc 1) = some ⟨some 2, [3], [], false⟩ := by decide
  have hparam : parameterAt? typing ⟨some 2, [3], [], false⟩ (some 0) call.node.facts.ellipsis = some (3, 3) := by
    rw [hellipsis]
    decide
  have haccepts : classifier.accepts 3 = true := by decide
  refine ⟨arg, hholds.child harg, ?_⟩
  have hdependents : classifier.dependents arg none = _ := dependents_passed (k := classifier) (j := 0) (i := 0) hk
    hconversion hfn hs (.single hfirst htuple) (by rw [hexpr]; rfl) hparam he (by split <;> rfl)
  have hshared : classifier.sharedParameters call.node arg.node (some 0) false
      (classifier.program.declarations classifier.settings.overrides 1) =
        .error ⟨.modelError, none, ⟨97, 105⟩, "argument arity of m"⟩ :=
    (congrArg (classifier.sharedParameters call.node arg.node (some 0) false) declarations_interface).trans hfail
  rw [hdependents, if_neg (by simp [haccepts]; exact hboxes), hellipsis, hshared]

/-- The method of `R` is no implementation of the one of `I`, but counts as one: it has another signature and takes no
argument, so that the call `i.m(nil)` fails. -/
theorem override_without_parameter : typing.OverridingFits exported ∧ program.DeclaresOrigins ∧
    program.DeclaresMethod 1 ∧ 16 ∈ program.declarations .implements 1 ∧ 16 ∉ program.declarations .signature 1 ∧
    ((typing.signature? 1).bind fun s => parameterAt? typing s (some 0) false).isSome = true ∧
    ((typing.signature? 16).bind fun s => parameterAt? typing s (some 0) false) = none ∧
    ∃ arg, program.Holds arg ∧ classifier.dependents arg none =
      .fail ⟨.modelError, none, ⟨97, 105⟩, "argument arity of m"⟩ := by
  have hsignature : program.sharing .signature 1 = [1, 8] := by decide
  refine ⟨overridingFits, declaresOrigins, declaresMethod, by simp [declarations_interface], ?_, by decide,
    by decide, call_fails⟩
  rw [Program.mem_declarations_iff declaresOrigins declaresMethod, hsignature]
  decide

end Unexported

end NilFlow
