import NilFlow.Harvest
import NilFlow.Proofs.WorkList

/-!
# The rounds of a harvest

A harvest serves one variable a round, until none is left.

* `Classifier.Passes`, `Classifier.finds`: the verdict of a variable's search, and the variables it discovers.
* `Classifier.Round`: one round; `round_cases` says all that it can do.
* `Classifier.Rounds`: a sequence of rounds, with the variables served in them.
* `Classifier.exhaust_eq_ok_iff`, `Classifier.harvest_complete_iff`: a complete harvest is a finished sequence of rounds
  after seeding.
* `Classifier.evaluate`, `Classifier.completes_of_evaluate`: a harvest with a bound on the rounds, for evaluation.
-/

namespace NilFlow

theorem Run.mem_ruledOut_condemn (r : Run) (vs : List Variable) (x : Variable) :
    x ∈ (r.condemn vs).ruledOut ↔ x ∈ r.ruledOut ∨ x ∈ vs :=
  mem_foldl_once x vs r.ruledOut

theorem Run.poll?_eq_some {r polled : Run} (h : r.poll? = some polled) :
    polled.work = r.work ∧ polled.ruledOut = r.ruledOut := by
  unfold Run.poll? at h
  split at h
  · cases h
    exact ⟨rfl, rfl⟩
  · exact absurd h (by simp)
  · cases h
    exact ⟨rfl, rfl⟩

theorem Run.poll?_of_polls_eq_none {r : Run} (h : r.polls = none) : r.poll? = some r := by
  unfold Run.poll?
  rw [h]

namespace Classifier

variable {k : Classifier} {r r' r'' : Run} {v x : Variable} {vs ws : List Variable}

/-! ## Searches -/

/-- The search of a variable succeeds. -/
def Passes (k : Classifier) (v : Variable) : Prop := (k.searchVariable v).failure = none

/-- What the search of a variable discovers, also when it fails. -/
def discoveries (k : Classifier) (v : Variable) : List (Discovery Variable) := (k.searchVariable v).flow.discoveries

/-- The variables that the search of a variable discovers, also when it fails. -/
def finds (k : Classifier) (v : Variable) : List Variable := (k.searchVariable v).flow.vars

theorem finds_eq (k : Classifier) (v : Variable) : k.finds v = (k.discoveries v).flatMap Discovery.vars := rfl

theorem mem_finds : x ∈ k.finds v ↔ ∃ d ∈ k.discoveries v, x ∈ d.vars := List.mem_flatMap

/-! ## One round -/

/-- The next variable is taken from the work list and searched, and its search is no fatal failure. -/
def Round (k : Classifier) (r : Run) (v : Variable) (r' : Run) : Prop :=
  ∃ polled work, r.poll? = some polled ∧ r.work.next? = some (v, work) ∧ k.serve { polled with work := work } v = .ok r'

/-- What the rejection of a variable rules out. -/
def Condemns (k : Classifier) (r : Run) (v x : Variable) : Prop :=
  x ∈ r.work.subtree v ∨ x ∈ k.finds v ∧ x ∉ r.work.forest.elements

theorem mem_rejected {r₁ : Run} (hf : r₁.work.forest = r.work.forest) :
    x ∈ rejected r₁ v (k.searchVariable v).flow ↔ k.Condemns r v x := by
  unfold rejected Condemns WorkList.subtree
  rw [mem_foldl_once, List.mem_filter, hf]
  have hc : (!r.work.forest.contains x) = true ↔ x ∉ r.work.forest.elements := by
    rw [← Forest.contains_iff, Bool.not_eq_true', Bool.not_eq_true]
  rw [hc]
  rfl

theorem ruledOut_logSearch (k : Classifier) (r : Run) (v : Variable) (s : SearchResult) :
    (k.logSearch r v s).ruledOut = r.ruledOut := by
  unfold logSearch
  split <;> rfl

theorem serve_cases (h : k.serve r v = .ok r') :
    (k.Passes v ∧ r' = accept (k.logSearch r v (k.searchVariable v)) v (k.searchVariable v).flow) ∨
      (¬ k.Passes v ∧ ∃ f,
        r' = k.reject (k.logSearch r v (k.searchVariable v)) v (k.searchVariable v).flow f) := by
  unfold serve at h
  dsimp only at h
  split at h
  · rename_i hf
    cases h
    exact Or.inl ⟨hf, rfl⟩
  · rename_i f hf
    split at h
    · cases h
    · cases h
      refine Or.inr ⟨fun hp => ?_, f, rfl⟩
      exact absurd (hf.symm.trans hp) (by simp)

theorem mem_evicted_accept (r : Run) (v : Variable) (flow : Flow) (x : Variable) :
    x ∈ (accept r v flow).work.evicted ↔ x ∈ r.work.evicted ∨ x ∈ flow.vars ∧ x ∈ r.ruledOut := by
  show x ∈ ((r.work.addAll (some v) flow.discoveries).removeAll (flow.vars.filter r.ruledOut.contains)).evicted ↔ _
  rw [WorkList.mem_evicted_removeAll, WorkList.evicted_addAll, List.mem_filter, List.contains_iff_mem]

theorem mem_ruledOut_reject (k : Classifier) (r : Run) (v : Variable) (flow : Flow) (f : Failure) (x : Variable) :
    x ∈ (k.reject r v flow f).ruledOut ↔ x ∈ r.ruledOut ∨ x ∈ rejected r v flow :=
  r.mem_ruledOut_condemn (rejected r v flow) x

theorem mem_evicted_reject (k : Classifier) (r : Run) (v : Variable) (flow : Flow) (f : Failure) (x : Variable) :
    x ∈ (k.reject r v flow f).work.evicted ↔ x ∈ r.work.evicted ∨ x ∈ rejected r v flow :=
  r.work.mem_evicted_removeAll (rejected r v flow) x

/-- All that a round can do: the variable is the first in the frontier that was not evicted. When its search succeeds,
the discoveries are entered; when it fails, variables are ruled out. -/
theorem round_cases (h : k.Round r v r') : v ∉ r.work.evicted ∧ ∃ skipped rest,
    r.work.frontier = skipped ++ v :: rest ∧ (∀ x ∈ skipped, x ∈ r.work.evicted) ∧
      ((k.Passes v ∧ r'.ruledOut = r.ruledOut ∧
          r'.work.forest = (r.work.addAll (some v) (k.discoveries v)).forest ∧
          r'.work.frontier = rest ++ r.work.addedBy (some v) (k.discoveries v) ∧
          ∀ x, x ∈ r'.work.evicted ↔ x ∈ r.work.evicted ∨ x ∈ k.finds v ∧ x ∈ r.ruledOut) ∨
        (¬ k.Passes v ∧ r'.work.forest = r.work.forest ∧ r'.work.frontier = rest ∧
          (∀ x, x ∈ r'.ruledOut ↔ x ∈ r.ruledOut ∨ k.Condemns r v x) ∧
          ∀ x, x ∈ r'.work.evicted ↔ x ∈ r.work.evicted ∨ k.Condemns r v x)) := by
  obtain ⟨polled, work, hp, hn, hs⟩ := h
  obtain ⟨-, hout⟩ := Run.poll?_eq_some hp
  obtain ⟨hforest, hev, hv, skipped, hfront, hskip⟩ := WorkList.next?_eq_some hn
  refine ⟨hv, skipped, work.frontier, hfront, hskip, ?_⟩
  rcases serve_cases hs with ⟨hpass, rfl⟩ | ⟨hfail, f, rfl⟩
  · refine Or.inl ⟨hpass, (ruledOut_logSearch k _ v _).trans hout, ?_, ?_, ?_⟩
    · show ((k.logSearch { polled with work := work } v _).work.addAll (some v) (k.discoveries v)).forest = _
      rw [work_logSearch]
      exact WorkList.forest_addAll_congr _ _ hforest
    · show ((k.logSearch { polled with work := work } v _).work.addAll (some v) (k.discoveries v)).frontier = _
      rw [work_logSearch, WorkList.frontier_addAll, WorkList.addedBy_congr _ _ hforest]
    · intro x
      rw [mem_evicted_accept, work_logSearch, ruledOut_logSearch, hev, hout]
      rfl
  · have hmem : ∀ x, x ∈ rejected (k.logSearch { polled with work := work } v (k.searchVariable v)) v
        (k.searchVariable v).flow ↔ k.Condemns r v x := by
      intro x
      refine mem_rejected ?_
      rw [work_logSearch]
      exact hforest
    refine Or.inr ⟨hfail, ?_, ?_, ?_, ?_⟩
    · show (k.logSearch { polled with work := work } v _).work.forest = _
      rw [work_logSearch]
      exact hforest
    · show (k.logSearch { polled with work := work } v _).work.frontier = _
      rw [work_logSearch]
    · intro x
      rw [mem_ruledOut_reject, hmem, ruledOut_logSearch, hout]
    · intro x
      rw [mem_evicted_reject, hmem, work_logSearch, hev]

/-! ## All rounds -/

/-- Rounds one after the other, with the variables served in them. -/
inductive Rounds (k : Classifier) : Run → List Variable → Run → Prop where
  | none (r : Run) : Rounds k r [] r
  | more {r r' r'' : Run} {v : Variable} {vs : List Variable} (h : k.Round r v r') (hs : Rounds k r' vs r'') :
      Rounds k r (v :: vs) r''

theorem Rounds.append (h : k.Rounds r vs r') (h' : k.Rounds r' ws r'') : k.Rounds r (vs ++ ws) r'' := by
  induction h with
  | none => exact h'
  | more hr _ ih => exact .more hr (ih h')

/-- After a round, the run goes on as if it had begun there. -/
theorem Round.exhaust_eq (h : k.Round r v r') : k.exhaust r = k.exhaust r' := by
  obtain ⟨polled, work, hp, hn, hs⟩ := h
  rw [exhaust]
  split
  · rename_i hn'
    rw [hn] at hn'
    cases hn'
  · rename_i v' work' hn'
    rw [hn] at hn'
    cases hn'
    rw [hp]
    dsimp only
    split
    · rename_i hs'
      rw [hs] at hs'
      cases hs'
    · rename_i hs'
      rw [hs] at hs'
      cases hs'
      rfl

theorem Rounds.exhaust_eq (h : k.Rounds r vs r') : k.exhaust r = k.exhaust r' := by
  induction h with
  | none => rfl
  | more hr _ ih => rw [hr.exhaust_eq, ih]

theorem exists_rounds_of_exhaust (h : k.exhaust r = .ok r') : ∃ vs, k.Rounds r vs r' ∧ r'.work.next? = none := by
  fun_induction exhaust k r with
  | case1 r hn =>
    cases h
    exact ⟨[], .none _, hn⟩
  | case2 => cases h
  | case3 => cases h
  | case4 r v work hn polled hp served hs ih =>
    obtain ⟨vs, hr, hlast⟩ := ih h
    exact ⟨v :: vs, .more ⟨polled, work, hp, hn, hs⟩ hr, hlast⟩

/-- Serving ends in a run exactly when rounds lead there and nothing is left then. -/
theorem exhaust_eq_ok_iff : k.exhaust r = .ok r' ↔ ∃ vs, k.Rounds r vs r' ∧ r'.work.next? = none := by
  constructor
  · exact exists_rounds_of_exhaust
  · rintro ⟨vs, hr, hlast⟩
    rw [hr.exhaust_eq, exhaust]
    split
    · rfl
    · rename_i hn
      rw [hlast] at hn
      cases hn

/-! ## Complete harvests -/

variable {root : Root} {polls : Option Nat} {h : Harvest}

/-- The run with which serving begins, when seeding found something to serve. -/
def Begins (k : Classifier) (root : Root) (polls : Option Nat) (r : Run) : Prop :=
  ∃ polled, (Run.initial polls).poll? = some polled ∧ k.begin polled root = (r, none)

/-- A harvest that serves some variables and ends in a run with nothing left. -/
structure Completes (k : Classifier) (root : Root) (polls : Option Nat) (served : List Variable) (last : Run)
    (h : Harvest) : Prop where
  rounds : ∃ first, k.Begins root polls first ∧ k.Rounds first served last
  next : last.work.next? = none
  outcome : h = k.finish last root

theorem complete_abort (r : Run) (f : Failure) : (k.abort r f).complete = false := rfl

/-- A harvest is complete exactly when it serves variables until nothing is left. -/
theorem harvest_complete_iff : k.harvest root polls = .ok h ∧ h.complete = true ↔
    ∃ served last, k.Completes root polls served last h := by
  constructor
  · rintro ⟨hh, hc⟩
    unfold harvest at hh
    split at hh
    · cases hh
    · rename_i polled hp
      split at hh
      · cases hh
        exact absurd hc (by simp [complete_abort])
      · rename_i first hb
        split at hh
        · rename_i last he
          cases hh
          obtain ⟨served, hr, hlast⟩ := exhaust_eq_ok_iff.1 he
          exact ⟨served, last, ⟨first, ⟨polled, hp, hb⟩, hr⟩, hlast, rfl⟩
        · cases hh
        · cases hh
          exact absurd hc (by simp [complete_abort])
  · rintro ⟨served, last, ⟨first, ⟨polled, hp, hb⟩, hr⟩, hlast, rfl⟩
    have he : k.exhaust first = .ok last := exhaust_eq_ok_iff.2 ⟨served, hr, hlast⟩
    refine ⟨?_, rfl⟩
    unfold harvest
    rw [hp]
    dsimp only
    rw [hb]
    dsimp only
    rw [he]

/-! ## Progress -/

/-- Rules variables out, each once. -/
def condemning (out vs : List Variable) : List Variable :=
  vs.foldl (fun out v => if out.contains v then out else out ++ [v]) out

theorem polls_logSearch (k : Classifier) (r : Run) (v : Variable) (s : SearchResult) :
    (k.logSearch r v s).polls = r.polls := by
  unfold logSearch
  split <;> rfl

/-- Without a bound on the questions, the next variable is served when its search succeeds. -/
theorem exists_round_of_passes {work : WorkList Variable} (hn : r.work.next? = some (v, work))
    (hpolls : r.polls = none) (hp : k.Passes v) : ∃ r', k.Round r v r' ∧ r'.polls = none ∧
      r'.ruledOut = r.ruledOut ∧
      r'.work = (work.addAll (some v) (k.discoveries v)).removeAll ((k.finds v).filter r.ruledOut.contains) := by
  refine ⟨accept (k.logSearch { r with work := work } v (k.searchVariable v)) v (k.searchVariable v).flow,
    ⟨r, work, Run.poll?_of_polls_eq_none hpolls, hn, ?_⟩, ?_, ruledOut_logSearch k _ v _, ?_⟩
  · unfold serve
    dsimp only
    rw [show (k.searchVariable v).failure = none from hp]
  · exact (polls_logSearch k _ v _).trans hpolls
  · show ((k.logSearch { r with work := work } v _).work.addAll (some v) _).removeAll
      ((k.searchVariable v).flow.vars.filter (k.logSearch { r with work := work } v _).ruledOut.contains) = _
    rw [work_logSearch, ruledOut_logSearch]
    rfl

/-- Without a bound on the questions, the next variable is served when its search is no fatal failure. -/
theorem exists_round_of_failure {work : WorkList Variable} (hn : r.work.next? = some (v, work))
    (hpolls : r.polls = none) {f : Failure} (hf : (k.searchVariable v).failure = some f) (hfatal : f.fatal = false) :
    ∃ r', k.Round r v r' ∧ r'.polls = none ∧
      r'.ruledOut = condemning r.ruledOut (rejected { r with work := work } v (k.searchVariable v).flow) ∧
      r'.work = work.removeAll (rejected { r with work := work } v (k.searchVariable v).flow) := by
  have hrej : ∀ {r₁ r₂ : Run}, r₁.work = r₂.work → ∀ flow, rejected r₁ v flow = rejected r₂ v flow := by
    intro r₁ r₂ hw flow
    unfold rejected
    rw [hw]
  refine ⟨k.reject (k.logSearch { r with work := work } v (k.searchVariable v)) v (k.searchVariable v).flow f,
    ⟨r, work, Run.poll?_of_polls_eq_none hpolls, hn, ?_⟩, ?_, ?_, ?_⟩
  · unfold serve
    dsimp only
    rw [hf]
    dsimp only
    rw [hfatal]
    rfl
  · exact (polls_logSearch k _ v _).trans hpolls
  · show condemning (k.logSearch { r with work := work } v _).ruledOut (rejected _ v _) = _
    rw [ruledOut_logSearch, hrej (work_logSearch k { r with work := work } v (k.searchVariable v))]
  · show (k.logSearch { r with work := work } v _).work.removeAll (rejected _ v _) = _
    rw [work_logSearch, hrej (work_logSearch k { r with work := work } v (k.searchVariable v))]

/-! ## Evaluation -/

/-- Serves fewer variables than a bound: those served, and the run in which nothing is left. -/
def serveAll (k : Classifier) : Nat → Run → Option (List Variable × Run)
  | 0, _ => none
  | n + 1, r =>
    match r.work.next? with
    | none => some ([], r)
    | some (v, work) =>
      match k.serve { r with work := work } v with
      | .error _ => none
      | .ok r' => (k.serveAll n r').map fun out => (v :: out.1, out.2)

/-- A harvest that serves fewer variables than a bound, with no bound on the questions. -/
def evaluate (k : Classifier) (root : Root) (n : Nat) : Option (List Variable × Run) :=
  match k.begin (.initial none) root with
  | (_, some _) => none
  | (r, none) => k.serveAll n r

theorem polls_serve (hs : k.serve r v = .ok r') : r'.polls = r.polls := by
  rcases serve_cases hs with ⟨-, rfl⟩ | ⟨-, f, rfl⟩
  · exact polls_logSearch k r v _
  · exact polls_logSearch k r v _

theorem rounds_of_serveAll : ∀ {n : Nat} {r last : Run} {served : List Variable}, r.polls = none →
    k.serveAll n r = some (served, last) → k.Rounds r served last ∧ last.work.next? = none
  | 0, _, _, _, _, h => by cases h
  | n + 1, r, last, served, hpolls, h => by
    unfold serveAll at h
    split at h
    · rename_i hn
      cases h
      exact ⟨.none r, hn⟩
    · rename_i v work hn
      split at h
      · cases h
      · rename_i r' hs
        obtain ⟨⟨vs, last'⟩, hrest, hout⟩ := Option.map_eq_some_iff.1 h
        cases hout
        obtain ⟨hr, hlast⟩ := rounds_of_serveAll ((polls_serve hs).trans hpolls) hrest
        exact ⟨.more ⟨r, work, Run.poll?_of_polls_eq_none hpolls, hn, hs⟩ hr, hlast⟩

theorem polls_foldl_record (k : Classifier) : ∀ (fs : List Failure) (r : Run),
    (fs.foldl k.record r).polls = r.polls
  | [], _ => rfl
  | f :: fs, r => polls_foldl_record k fs (k.record r f)

theorem polls_begin (k : Classifier) (r : Run) (root : Root) : (k.begin r root).1.polls = r.polls := by
  unfold begin
  split
  · rfl
  · exact k.polls_foldl_record _ r

/-- A harvest that ends within a bound is complete. -/
theorem completes_of_evaluate {n : Nat} {served : List Variable} {last : Run}
    (h : k.evaluate root n = some (served, last)) : k.Completes root none served last (k.finish last root) := by
  unfold evaluate at h
  split at h
  · cases h
  · rename_i r hb
    have hpolls : r.polls = none := by
      have hb' := k.polls_begin (.initial none) root
      rw [hb] at hb'
      exact hb'
    obtain ⟨hr, hlast⟩ := rounds_of_serveAll hpolls h
    exact ⟨⟨r, ⟨_, rfl, hb⟩, hr⟩, hlast, rfl⟩

end Classifier

end NilFlow
