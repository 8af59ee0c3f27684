import NilFlow.Flow.Dependents

/-!
# Flows

The variables that a value flows through, as discoveries for the work list and as occurrences for the report.

* `Occurrence`: an appearance of a variable in a context.
* `Flow`: discoveries and occurrences; `Flow.append` puts them one after the other.
* `Classifier.flowOf`: the flow of some findings; only variables of accepted types count.
* `Classifier.mem_discoveries_flowOf`, `Classifier.mem_vars_flowOf`: what some findings discover.
-/

namespace NilFlow

/-- An appearance of a variable in a context. -/
structure Occurrence where
  var : Variable
  context : Context
  span : Span
deriving DecidableEq, Repr, Inhabited

/-- Variables found while following values, in the order they were found. -/
structure Flow where
  discoveries : List (Discovery Variable)
  occurrences : List Occurrence
deriving DecidableEq, Repr, Inhabited

namespace Flow

def empty : Flow := ⟨[], []⟩

def append (a b : Flow) : Flow := ⟨a.discoveries ++ b.discoveries, a.occurrences ++ b.occurrences⟩

/-- The discovered variables, in order. -/
def vars (f : Flow) : List Variable := f.discoveries.flatMap (·.vars)

def occurring (v : Variable) (context : Context) (span : Span) : Flow := ⟨[], [⟨v, context, span⟩]⟩

/-- The flow of a single discovery, whose variables occur at a span. -/
def discovering (d : Discovery Variable) (context : Context) (span : Span) : Flow :=
  ⟨[d], d.vars.map (⟨·, context, span⟩)⟩

end Flow

namespace Classifier

/-- The variable of an object, when its type is accepted. -/
def accepted? (k : Classifier) (o : ObjectId) : Option Variable :=
  (k.program.typing.variableOf? o).filter fun v => (k.program.typing.varType? v.id).any k.accepts

/-- The discovery of a finding, unless no variable of it is accepted. -/
def discovery? (k : Classifier) (f : Finding) : Option (Discovery Variable) :=
  match f.objects.filterMap k.accepted? with
  | [] => none
  | vs => some ⟨vs.map (⟨·, false⟩), f.joint && 1 < vs.length⟩

def flowOfFinding (k : Classifier) (f : Finding) : Flow :=
  (k.discovery? f).elim .empty fun d => .discovering d f.context f.span

def flowOf (k : Classifier) (fs : List Finding) : Flow := (fs.map k.flowOfFinding).foldl .append .empty

/-! ## Discovered variables belong to the program -/

theorem accepted?_mem {k : Classifier} {o : ObjectId} {v : Variable} (h : k.accepted? o = some v) :
    v ∈ k.program.typing.vars := by
  simp only [accepted?, Option.filter_eq_some_iff] at h
  exact Typing.variableOf?_mem h.1

end Classifier

namespace Flow

/-- Every discovered variable lies in a list. -/
def Within (f : Flow) (l : List Variable) : Prop := ∀ v ∈ f.vars, v ∈ l

theorem within_empty (l : List Variable) : Flow.empty.Within l := by
  intro v hv
  simp [vars, Flow.empty] at hv

theorem Within.append {a b : Flow} {l : List Variable} (ha : a.Within l) (hb : b.Within l) : (a.append b).Within l := by
  intro v hv
  simp only [vars, Flow.append, List.flatMap_append, List.mem_append] at hv
  exact hv.elim (ha v) (hb v)

theorem within_foldl {l : List Variable} : ∀ (fs : List Flow) (a : Flow), a.Within l → (∀ f ∈ fs, f.Within l) →
    (fs.foldl Flow.append a).Within l
  | [], _, ha, _ => ha
  | f :: fs, a, ha, h =>
    within_foldl fs (a.append f) (ha.append (h f (by simp))) fun g hg => h g (by simp [hg])

theorem mem_discoveries_foldl {d : Discovery Variable} : ∀ (fs : List Flow) (a : Flow),
    d ∈ (fs.foldl .append a).discoveries ↔ d ∈ a.discoveries ∨ ∃ f ∈ fs, d ∈ f.discoveries
  | [], a => by simp
  | f :: fs, a => by
    rw [List.foldl_cons, mem_discoveries_foldl fs]
    simp [Flow.append, or_assoc]

theorem mem_occurrences_foldl {o : Occurrence} : ∀ (fs : List Flow) (a : Flow),
    o ∈ (fs.foldl .append a).occurrences ↔ o ∈ a.occurrences ∨ ∃ f ∈ fs, o ∈ f.occurrences
  | [], a => by simp
  | f :: fs, a => by
    rw [List.foldl_cons, mem_occurrences_foldl fs]
    simp [Flow.append, or_assoc]

end Flow

namespace Classifier

variable {k : Classifier} {f : Finding} {fs : List Finding} {d : Discovery Variable} {v : Variable}

theorem exists_discovery?_iff :
    (∃ d, k.discovery? f = some d ∧ v ∈ d.vars) ↔ ∃ o ∈ f.objects, k.accepted? o = some v := by
  unfold discovery?
  rw [← List.mem_filterMap]
  generalize f.objects.filterMap k.accepted? = vs
  have hvars : (vs.map fun v => (⟨v, false⟩ : Candidate Variable)).map (·.var) = vs := by
    rw [List.map_map]
    exact List.map_id vs
  split
  · simp
  · simp only [Option.some.injEq, exists_eq_left', Discovery.vars, hvars]

theorem joint_of_discovery? (h : k.discovery? f = some d) (hj : f.joint = false) : d.joint = false := by
  unfold discovery? at h
  split at h
  · cases h
  · cases h
    simp [hj]

theorem mem_discoveries_flowOf : d ∈ (k.flowOf fs).discoveries ↔ ∃ f ∈ fs, k.discovery? f = some d := by
  have hfinding (f : Finding) : d ∈ (k.flowOfFinding f).discoveries ↔ k.discovery? f = some d := by
    unfold flowOfFinding
    cases k.discovery? f with
    | none => simp [Flow.empty]
    | some found => simp [Flow.discovering, eq_comm]
  unfold flowOf
  rw [Flow.mem_discoveries_foldl, or_iff_right (by simp [Flow.empty])]
  constructor
  · rintro ⟨flow, hflow, hd⟩
    obtain ⟨f, hf, rfl⟩ := List.mem_map.1 hflow
    exact ⟨f, hf, (hfinding f).1 hd⟩
  · rintro ⟨f, hf, hd⟩
    exact ⟨_, List.mem_map_of_mem hf, (hfinding f).2 hd⟩

theorem mem_vars_flowOf : v ∈ (k.flowOf fs).vars ↔ ∃ f ∈ fs, ∃ o ∈ f.objects, k.accepted? o = some v := by
  unfold Flow.vars
  rw [List.mem_flatMap]
  simp only [mem_discoveries_flowOf, ← exists_discovery?_iff]
  constructor
  · rintro ⟨d, ⟨f, hf, hd⟩, hv⟩
    exact ⟨f, hf, d, hd, hv⟩
  · rintro ⟨f, hf, d, hd, hv⟩
    exact ⟨d, ⟨f, hf, hd⟩, hv⟩

theorem within_flowOf (k : Classifier) (fs : List Finding) : (k.flowOf fs).Within k.program.typing.vars := by
  intro v hv
  obtain ⟨f, -, o, -, ho⟩ := mem_vars_flowOf.1 hv
  exact accepted?_mem ho

end Classifier

end NilFlow
