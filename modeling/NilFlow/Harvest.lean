import NilFlow.Flow.Propagation
import NilFlow.Flow.Seeding
import NilFlow.Group
import NilFlow.Text.LogLine
import NilFlow.Text.Truth
import NilFlow.WorkList.Budget

/-!
# Harvesting

The search for all groups of a program: seed from the nil values of a root, search every variable they reach, and
follow its occurrences until nothing new is found.

* `Run`: the state of a search.
* `Classifier.begin`: the run after seeding.
* `Classifier.searchVariable`: all occurrences of a variable, classified.
* `Classifier.serve`: the run after one variable was searched, `Classifier.exhaust` after all of them.
* `Harvest`, `Classifier.harvest`: the outcome, with the final groups.
-/

namespace NilFlow

/-! ## The state of a run -/

/-- The state of a harvest: the work list, the variables ruled out, the occurrences of the others, the findings and the
log so far, and how many more times the run may ask whether to go on, when that is bounded. -/
structure Run where
  work : WorkList Variable
  ruledOut : List Variable
  occurrences : List Occurrence
  status : Status
  log : List LogLine
  polls : Option Nat

/-- The outcome of a harvest. It is incomplete when a fatal failure ended it. -/
structure Harvest where
  status : Status
  groups : List Group
  ruledOut : List Variable
  complete : Bool
  log : List LogLine

/-- Why a harvest has no outcome: it was told to stop. -/
inductive HarvestError where
  | cancelled (cause : String)
deriving DecidableEq, Repr

namespace HarvestError

def message : HarvestError → String
  | cancelled cause => "nilopt: harvest cancelled: " ++ cause

end HarvestError

namespace Run

def initial (polls : Option Nat) : Run := ⟨.empty, [], [], .empty, [], polls⟩

/-- Asks whether to go on: the run with one question less, or nothing when it has to stop. -/
def poll? (r : Run) : Option Run :=
  match r.polls with
  | none => some r
  | some 0 => none
  | some (n + 1) => some { r with polls := some n }

def logged (r : Run) (level : LogLevel) (message : String) (attributes : List (String × String)) : Run :=
  { r with log := r.log ++ [⟨level, message, "", attributes⟩] }

/-- Rules variables out, each once. -/
def condemn (r : Run) (vs : List Variable) : Run :=
  { r with ruledOut := vs.foldl (fun out v => if out.contains v then out else out ++ [v]) r.ruledOut }

/-- Keeps the occurrences of variables that are not ruled out. -/
def occur (r : Run) (os : List Occurrence) : Run :=
  { r with occurrences := r.occurrences ++ os.filter fun o => !r.ruledOut.contains o.var }

/-- Evicts those of some variables that are ruled out. -/
def evictCondemned (r : Run) (vs : List Variable) : Run :=
  { r with work := r.work.removeAll (vs.filter r.ruledOut.contains) }

/-- The variables ruled out, in the order of reports. -/
def sortedOut (r : Run) : List Variable := r.ruledOut.mergeSort Variable.le

end Run

namespace Classifier

/-! ## Findings of a run -/

def describe (k : Classifier) (v : Variable) : String :=
  v.name ++ " (" ++ v.kind.name ++ " at " ++ (k.program.locate v.pos).text ++ ")"

/-- Records a failure as a finding and in the log. -/
def record (k : Classifier) (r : Run) (f : Failure) : Run :=
  let e := k.settings.entry f
  ({ r with status := r.status.add e }).logged .info "Precondition failed"
    [("kind", f.kind.code), ("severity", e.severity.name), ("message", e.message),
      ("position", (k.program.locate f.span.start).text)]

/-- The incomplete outcome of a run that a fatal failure ended. -/
def abort (k : Classifier) (r : Run) (f : Failure) : Harvest :=
  let r := k.record r f
  ⟨r.status, [], r.sortedOut, false, r.log⟩

/-! ## Seeding -/

def enter (k : Classifier) (r : Run) (s : Seeds) : Run :=
  let r := (s.failures.foldl k.record r).condemn s.ruledOut
  let r := { r with work := r.work.addAll none s.flow.discoveries }.occur s.flow.occurrences
  { r with work := r.work.removeAll r.ruledOut }

/-- How many elements of the forest are not ruled out. -/
def usable (r : Run) : Nat := (r.work.forest.elements.filter fun v => !r.ruledOut.contains v).length

/-- The run after seeding, and the fatal failure that ends it: a failed scan, or no usable element. -/
def begin (k : Classifier) (r : Run) (root : Root) : Run × Option Failure :=
  match k.seed root with
  | (_, some f) => (r, some f)
  | (s, none) =>
    let r := k.enter r s
    let r := r.logged .debug "Seeded" [("candidates", (usable r).repr), ("failures", s.failures.length.repr)]
    (r, if usable r = 0 then some ⟨.noCandidates, none, .none, ""⟩ else none)

/-! ## Searching -/

/-- The flow of a variable's occurrences outside doc comments, with the first failure; occurrences that fail add nothing
to the flow. A fatal failure ends the search at once. -/
def classifyAll (k : Classifier) : List Match → Flow → Option Failure → Except Failure (Flow × Option Failure)
  | [], flow, first => .ok (flow, first)
  | m :: ms, flow, first =>
    if m.accuracy ≠ .exact || m.inDocComment then k.classifyAll ms flow first
    else match k.propagate m with
      | (f, none) => k.classifyAll ms (flow.append f) first
      | (_, some f) => if f.fatal then .error f else k.classifyAll ms flow (first.or (some f))

/-- The result of searching a variable: what was found, the failure that rejects it, and how many occurrences there
were when all of them were classified. -/
structure SearchResult where
  flow : Flow
  failure : Option Failure
  classified : Option Nat

/-- Finds and classifies all occurrences of a variable. -/
def searchVariable (k : Classifier) (v : Variable) : SearchResult :=
  match k.program.search v with
  | .error f => ⟨.empty, some f, none⟩
  | .ok occurrences =>
    match k.classifyAll occurrences .empty none with
    | .error f => ⟨.empty, some f, none⟩
    | .ok (flow, first) => ⟨flow, first, some occurrences.length⟩

/-- The run with the log line of a search, when all occurrences were classified. -/
def logSearch (k : Classifier) (r : Run) (v : Variable) (s : SearchResult) : Run :=
  match s.classified with
  | none => r
  | some n => r.logged .debug "Searched"
      [("element", k.describe v), ("matches", n.repr), ("discovered", s.flow.discoveries.length.repr),
        ("rejected", boolText s.failure.isSome)]

/-- What the rejection of a variable rules out: everything discovered through it, and what the failed search found that
has no node yet. -/
def rejected (r : Run) (v : Variable) (flow : Flow) : List Variable :=
  let sub := r.work.subtree v
  (flow.vars.filter fun w => !r.work.forest.contains w).foldl (fun sub w => if sub.contains w then sub else sub ++ [w])
    sub

def reject (k : Classifier) (r : Run) (v : Variable) (flow : Flow) (f : Failure) : Run :=
  let out := rejected r v flow
  let r := r.condemn out
  k.record
    { r with work := r.work.removeAll out, occurrences := r.occurrences.filter fun o => !out.contains o.var } f

def accept (r : Run) (v : Variable) (flow : Flow) : Run :=
  ({ r with work := r.work.addAll (some v) flow.discoveries }.occur flow.occurrences).evictCondemned flow.vars

/-- The run after a variable was searched, or the fatal failure of its search. -/
def serve (k : Classifier) (r : Run) (v : Variable) : Except Failure Run :=
  let s := k.searchVariable v
  let r := k.logSearch r v s
  match s.failure with
  | none => .ok (accept r v s.flow)
  | some f => if f.fatal then .error f else .ok (k.reject r v s.flow f)

/-! ## Serving ends -/

theorem within_classifyAll {k : Classifier} {l : List Variable} (hflow : ∀ fs, (k.flowOf fs).Within l) :
    ∀ (ms : List Match) (flow : Flow) (first : Option Failure) {out : Flow × Option Failure}, flow.Within l →
      k.classifyAll ms flow first = .ok out → out.1.Within l
  | [], _, _, _, h, ho => by cases ho; exact h
  | m :: ms, flow, first, out, h, ho => by
    rw [classifyAll] at ho
    split at ho
    · exact within_classifyAll hflow ms flow first h ho
    · split at ho
      · rename_i f hp
        have hm := within_propagate hflow m
        rw [hp] at hm
        exact within_classifyAll hflow ms _ first (h.append hm) ho
      · split at ho
        · cases ho
        · exact within_classifyAll hflow ms flow _ h ho

theorem within_searchVariable {k : Classifier} {l : List Variable} (hflow : ∀ fs, (k.flowOf fs).Within l)
    (v : Variable) : (k.searchVariable v).flow.Within l := by
  unfold searchVariable
  split
  · exact Flow.within_empty _
  · split
    · exact Flow.within_empty _
    · rename_i hc
      exact within_classifyAll hflow _ _ _ (Flow.within_empty _) hc

@[simp] theorem work_logSearch (k : Classifier) (r : Run) (v : Variable) (s : SearchResult) :
    (k.logSearch r v s).work = r.work := by
  unfold logSearch
  split <;> rfl

theorem budget_serve_le {k : Classifier} {r r' : Run} {v : Variable} (h : k.serve r v = .ok r') :
    r'.work.budget k.program.typing.vars ≤ r.work.budget k.program.typing.vars := by
  have hw := within_searchVariable k.within_flowOf v
  simp only [serve] at h
  split at h
  · cases h
    have hb := WorkList.budget_addAll_le (k.searchVariable v).flow.discoveries r.work (some v)
      fun d hd w hm => hw w (List.mem_flatMap.2 ⟨d, hd, hm⟩)
    simpa [accept, Run.evictCondemned, Run.occur] using hb
  · split at h
    · cases h
    · cases h
      simp [reject, record, Run.condemn, Run.logged]

/-- Why serving stopped before the work list was empty. -/
inductive Stop where
  | cancelled
  /-- A fatal failure, with the run that met it. -/
  | fatal (r : Run) (f : Failure)

def exhaust (k : Classifier) (r : Run) : Except Stop Run :=
  match _ : r.work.next? with
  | none => .ok r
  | some (v, work) =>
    match r.poll? with
    | none => .error .cancelled
    | some polled =>
      match _ : k.serve { polled with work := work } v with
      | .error f => .error (.fatal { polled with work := work } f)
      | .ok served => k.exhaust served
termination_by r.work.budget k.program.typing.vars
decreasing_by
  rename_i hn hs
  exact Nat.lt_of_le_of_lt (budget_serve_le hs) (WorkList.budget_next?_lt hn)

/-! ## The outcome -/

/-- The outcome of a run in which nothing is left to search: the forest without what was ruled out falls into groups. -/
def finish (k : Classifier) (r : Run) (root : Root) : Harvest :=
  let forest := r.work.forest.trim r.ruledOut
  let r := r.condemn (r.work.forest.trimmed r.ruledOut)
  let groups := GroupInput.build k.settings
    { files := some k.program.files
      components := forest.components Variable.le
      implicit := forest.implicit
      occurrences := r.occurrences
      roots := root.packages }
  let status := (groups.map (·.status)).foldl .merge r.status
  let r := r.logged .debug "Harvested" [("groups", groups.length.repr), ("notRefactorable", r.ruledOut.length.repr)]
  ⟨status, groups, r.sortedOut, true, r.log⟩

/-- Harvests the groups that the nil values of a root reach. With a bound on the questions whether to go on, the run is
cancelled when it asks once more. -/
def harvest (k : Classifier) (root : Root) (polls : Option Nat) : Except HarvestError Harvest :=
  match (Run.initial polls).poll? with
  | none => .error (.cancelled "polled out")
  | some r =>
    match k.begin r root with
    | (r, some f) => .ok (k.abort r f)
    | (r, none) =>
      match k.exhaust r with
      | .ok r => .ok (k.finish r root)
      | .error .cancelled => .error (.cancelled "polled out")
      | .error (.fatal r f) => .ok (k.abort r f)

end Classifier

end NilFlow
