import NilFlow.Proofs.Forest.CoDiscovery
import NilFlow.Proofs.Harvest.Rounds

/-!
# What holds all along a harvest

* `Classifier.calls`: what the work list is told while some variables are served.
* `Classifier.Tainted`: what can be ruled out, whatever the order in which variables are served.
* `Trace`: the invariant that ties the forest, the frontier and the variables ruled out to the variables served.
* `Trace.begin`, `Trace.round`: it holds when serving begins, and every round keeps it.
* `Completes.trace`: so it holds when a harvest is complete.
-/

namespace NilFlow

namespace Classifier

variable {k : Classifier} {s : Seeds} {r r' : Run} {v x : Variable} {served vs : List Variable}

/-! ## Entering the seeds -/

theorem foldl_record (k : Classifier) : ∀ (fs : List Failure) (r : Run),
    (fs.foldl k.record r).work = r.work ∧ (fs.foldl k.record r).ruledOut = r.ruledOut
  | [], _ => ⟨rfl, rfl⟩
  | f :: fs, r => foldl_record k fs (k.record r f)

theorem mem_ruledOut_enter (k : Classifier) (r : Run) (s : Seeds) (x : Variable) :
    x ∈ (k.enter r s).ruledOut ↔ x ∈ r.ruledOut ∨ x ∈ s.ruledOut := by
  show x ∈ ((s.failures.foldl k.record r).condemn s.ruledOut).ruledOut ↔ _
  rw [Run.mem_ruledOut_condemn, (foldl_record k s.failures r).2]

theorem mem_evicted_enter (k : Classifier) (r : Run) (s : Seeds) (x : Variable) :
    x ∈ (k.enter r s).work.evicted ↔ x ∈ r.work.evicted ∨ x ∈ (k.enter r s).ruledOut := by
  show x ∈ (((s.failures.foldl k.record r).work.addAll none s.flow.discoveries).removeAll
    (k.enter r s).ruledOut).evicted ↔ _
  rw [WorkList.mem_evicted_removeAll, WorkList.evicted_addAll, (foldl_record k s.failures r).1]

theorem forest_enter (k : Classifier) (r : Run) (s : Seeds) :
    (k.enter r s).work.forest = (r.work.addAll none s.flow.discoveries).forest := by
  show ((s.failures.foldl k.record r).work.addAll none s.flow.discoveries).forest = _
  rw [(foldl_record k s.failures r).1]

theorem frontier_enter (k : Classifier) (r : Run) (s : Seeds) :
    (k.enter r s).work.frontier = (r.work.addAll none s.flow.discoveries).frontier := by
  show ((s.failures.foldl k.record r).work.addAll none s.flow.discoveries).frontier = _
  rw [(foldl_record k s.failures r).1]

/-- What seeding leaves behind: the work list with the seeds, where exactly the variables that seeding ruled out are
evicted. -/
theorem begins_cases {root : Root} {polls : Option Nat} (h : k.Begins root polls r) :
    (k.seed root).2 = none ∧ (∀ x, x ∈ r.ruledOut ↔ x ∈ (k.seed root).1.ruledOut) ∧
      r.work.forest = (WorkList.empty.addAll none (k.seed root).1.flow.discoveries).forest ∧
      r.work.frontier = r.work.forest.elements ∧ ∀ x, x ∈ r.work.evicted ↔ x ∈ r.ruledOut := by
  obtain ⟨polled, hp, hb⟩ := h
  obtain ⟨hwork, hout⟩ := Run.poll?_eq_some hp
  have hwork : polled.work = .empty := hwork
  have hout : polled.ruledOut = [] := hout
  unfold begin at hb
  split at hb
  · exact absurd (congrArg Prod.snd hb) (by simp)
  · rename_i s hs
    have hr : (k.enter polled s).logged .debug "Seeded"
        [("candidates", (usable (k.enter polled s)).repr), ("failures", s.failures.length.repr)] = r :=
      congrArg Prod.fst hb
    rw [hs, ← hr]
    refine ⟨rfl, fun x => ?_, ?_, ?_, fun x => ?_⟩
    · show x ∈ (k.enter polled s).ruledOut ↔ x ∈ s.ruledOut
      rw [mem_ruledOut_enter, hout]
      exact or_iff_right (by simp)
    · show (k.enter polled s).work.forest = _
      rw [forest_enter, hwork]
    · show (k.enter polled s).work.frontier = (k.enter polled s).work.forest.elements
      rw [frontier_enter, forest_enter, WorkList.frontier_addAll, WorkList.elements_addAll, hwork]
      rfl
    · show x ∈ (k.enter polled s).work.evicted ↔ x ∈ (k.enter polled s).ruledOut
      rw [mem_evicted_enter, hwork]
      exact or_iff_right (by simp [WorkList.empty])

/-- Without a bound on the questions, serving begins when the scan succeeds and a seed is not ruled out. -/
theorem exists_begins (k : Classifier) (root : Root) (hs : (k.seed root).2 = none)
    (hx : ∃ x ∈ (k.seed root).1.flow.vars, x ∉ (k.seed root).1.ruledOut) :
    ∃ r, k.Begins root none r ∧ r.polls = none ∧ r.ruledOut = condemning [] (k.seed root).1.ruledOut ∧
      r.work = (WorkList.empty.addAll none (k.seed root).1.flow.discoveries).removeAll
        (condemning [] (k.seed root).1.ruledOut) := by
  generalize hseed : k.seed root = out at hs hx ⊢
  obtain ⟨s, o⟩ := out
  cases hs
  obtain ⟨x, hx, hn⟩ := hx
  have hrec := foldl_record k s.failures (.initial none)
  have hout : (k.enter (.initial none) s).ruledOut = condemning [] s.ruledOut := by
    show condemning (s.failures.foldl k.record (.initial none)).ruledOut s.ruledOut = _
    rw [hrec.2]
    rfl
  have hwork : (k.enter (.initial none) s).work =
      (WorkList.empty.addAll none s.flow.discoveries).removeAll (condemning [] s.ruledOut) := by
    show ((s.failures.foldl k.record (.initial none)).work.addAll none s.flow.discoveries).removeAll
      (k.enter (.initial none) s).ruledOut = _
    rw [hout, hrec.1]
    rfl
  have hmem : x ∈ (k.enter (.initial none) s).work.forest.elements := by
    obtain ⟨d, hd, hx⟩ := List.mem_flatMap.1 hx
    rw [forest_enter, WorkList.addAll_eq_after, WorkList.mem_elements_after]
    exact Or.inr ⟨(none, d), List.mem_map_of_mem hd, hx⟩
  have husable : usable (k.enter (.initial none) s) ≠ 0 := by
    refine Nat.ne_of_gt (List.length_pos_of_mem (List.mem_filter.2 ⟨hmem, ?_⟩))
    have hx : x ∉ (k.enter (.initial none) s).ruledOut := by
      rw [mem_ruledOut_enter]
      exact fun h => h.elim (by simp [Run.initial]) hn
    simpa using hx
  have hbegin : k.begin (.initial none) root = ((k.enter (.initial none) s).logged .debug "Seeded"
      [("candidates", (usable (k.enter (.initial none) s)).repr), ("failures", s.failures.length.repr)], none) := by
    unfold begin
    rw [hseed]
    exact congrArg _ (if_neg husable)
  exact ⟨_, ⟨.initial none, rfl, hbegin⟩, polls_foldl_record k s.failures (.initial none), hout, hwork⟩

/-! ## What the work list is told -/

instance decidablePasses (k : Classifier) (v : Variable) : Decidable (k.Passes v) :=
  inferInstanceAs (Decidable ((k.searchVariable v).failure = none))

/-- The calls on the work list while some variables are served: the seeds, and what each successful search discovers. -/
def calls (k : Classifier) (s : Seeds) (served : List Variable) : List (Option Variable × Discovery Variable) :=
  s.flow.discoveries.map (none, ·) ++
    served.flatMap fun v => if k.Passes v then (k.discoveries v).map (some v, ·) else []

theorem calls_snoc (k : Classifier) (s : Seeds) (served : List Variable) (v : Variable) :
    k.calls s (served ++ [v]) =
      k.calls s served ++ if k.Passes v then (k.discoveries v).map (some v, ·) else [] := by
  unfold calls
  rw [List.flatMap_append, List.flatMap_singleton, List.append_assoc]

theorem mem_calls {source : Option Variable} {d : Discovery Variable} : (source, d) ∈ k.calls s served ↔
    (source = none ∧ d ∈ s.flow.discoveries) ∨
      ∃ v ∈ served, k.Passes v ∧ source = some v ∧ d ∈ k.discoveries v := by
  unfold calls
  rw [List.mem_append, List.mem_map, List.mem_flatMap]
  refine or_congr ?_ (exists_congr fun v => and_congr_right fun _ => ?_)
  · constructor
    · rintro ⟨_, hd, ⟨⟩⟩
      exact ⟨rfl, hd⟩
    · rintro ⟨rfl, hd⟩
      exact ⟨d, hd, rfl⟩
  · split
    · rename_i hv
      rw [List.mem_map]
      constructor
      · rintro ⟨_, hd, ⟨⟩⟩
        exact ⟨hv, rfl, hd⟩
      · rintro ⟨-, rfl, hd⟩
        exact ⟨d, hd, rfl⟩
    · rename_i hv
      simp [hv]

theorem insertion_cases {e : Insertion Variable} (he : e ∈ WorkList.empty.insertions (k.calls s served)) :
    (e.source = none ∧ e.discovery ∈ s.flow.discoveries) ∨
      ∃ v ∈ served, k.Passes v ∧ e.source = some v ∧ e.discovery ∈ k.discoveries v :=
  mem_calls.1 (WorkList.mem_insertions _ he).1

theorem mem_elements_calls : x ∈ (WorkList.ofCalls (k.calls s served)).forest.elements ↔
    x ∈ s.flow.vars ∨ ∃ v ∈ served, k.Passes v ∧ x ∈ k.finds v := by
  rw [WorkList.mem_elements_ofCalls]
  constructor
  · rintro ⟨⟨o, d⟩, hc, hx⟩
    rcases mem_calls.1 hc with ⟨-, hd⟩ | ⟨v, hv, hp, -, hd⟩
    · exact Or.inl (List.mem_flatMap.2 ⟨d, hd, hx⟩)
    · exact Or.inr ⟨v, hv, hp, mem_finds.2 ⟨d, hd, hx⟩⟩
  · rintro (hx | ⟨v, hv, hp, hx⟩)
    · obtain ⟨d, hd, hx⟩ := List.mem_flatMap.1 hx
      exact ⟨(none, d), mem_calls.2 (Or.inl ⟨rfl, hd⟩), hx⟩
    · obtain ⟨d, hd, hx⟩ := mem_finds.1 hx
      exact ⟨(some v, d), mem_calls.2 (Or.inr ⟨v, hv, hp, rfl, hd⟩), hx⟩

/-! ## What can be reached, and ruled out -/

/-- A variable can be reached from seeds through successful searches. -/
inductive Reachable (k : Classifier) (s : Seeds) : Variable → Prop where
  | seed {x : Variable} : x ∈ s.flow.vars → Reachable k s x
  | found {x y : Variable} : Reachable k s y → k.Passes y → x ∈ k.finds y → Reachable k s x

/-- A variable can be ruled out: seeding does it, or its search fails, or a variable that can be ruled out finds it or
is seeded together with it. -/
inductive Tainted (k : Classifier) (s : Seeds) : Variable → Prop where
  | seeded {x : Variable} : x ∈ s.ruledOut → Tainted k s x
  | failed {x : Variable} : Reachable k s x → ¬ k.Passes x → Tainted k s x
  | found {x y : Variable} : Tainted k s y → x ∈ k.finds y → Tainted k s x
  | together {x y : Variable} {d : Discovery Variable} : Tainted k s y → d ∈ s.flow.discoveries → y ∈ d.vars →
      x ∈ d.vars → Tainted k s x

theorem Tainted.leads {e : Insertion Variable} (he : e ∈ WorkList.empty.insertions (k.calls s served))
    (h : e.Leads v x) (hv : k.Tainted s v) : k.Tainted s x := by
  obtain ⟨hx, hs⟩ := h
  rcases insertion_cases he with ⟨hn, hd⟩ | ⟨w, -, -, hw, hd⟩
  · rcases hs with hs | ⟨-, hm⟩
    · rw [hn] at hs
      exact absurd hs (by simp)
    · exact hv.together hd hm hx
  · rcases hs with hs | ⟨hs, -⟩
    · rw [hw] at hs
      cases hs
      exact hv.found (mem_finds.2 ⟨e.discovery, hd, hx⟩)
    · rw [hw] at hs
      exact absurd hs (by simp)

/-! ## The invariant -/

/-- What holds after some variables were served. -/
structure Trace (k : Classifier) (s : Seeds) (served : List Variable) (r : Run) : Prop where
  forest : r.work.forest = (WorkList.ofCalls (k.calls s served)).forest
  rooted : WorkList.Rooted (k.calls s served)
  /-- The elements are those served or passed over, and then those in the frontier. -/
  queue : ∃ passed, r.work.forest.elements = passed ++ r.work.frontier ∧ served.Sublist passed ∧
    ∀ x ∈ passed, x ∈ served ∨ x ∈ r.ruledOut
  evicted : ∀ x, x ∈ r.work.evicted ↔ x ∈ r.ruledOut
  seeded : ∀ x ∈ s.ruledOut, x ∈ r.ruledOut
  failed : ∀ x ∈ served, ¬ k.Passes x → x ∈ r.ruledOut
  tainted : ∀ x ∈ r.ruledOut, k.Tainted s x

namespace Trace

theorem grown (h : Trace k s served r) :
    Forest.Grown (WorkList.empty.insertions (k.calls s served)) r.work.forest := by
  rw [h.forest]
  exact WorkList.grown_ofCalls h.rooted

theorem mem_elements (h : Trace k s served r) :
    x ∈ r.work.forest.elements ↔ x ∈ s.flow.vars ∨ ∃ v ∈ served, k.Passes v ∧ x ∈ k.finds v := by
  rw [h.forest]
  exact mem_elements_calls

theorem reachable (h : Trace k s served r) (hx : x ∈ r.work.forest.elements) : k.Reachable s x := by
  refine h.grown.elements_induction (fun e he x hx hsource => ?_) x hx
  rcases insertion_cases he with ⟨-, hd⟩ | ⟨y, -, hp, hs, hd⟩
  · exact .seed (List.mem_flatMap.2 ⟨e.discovery, hd, hx⟩)
  · exact (hsource y hs).found hp (mem_finds.2 ⟨e.discovery, hd, hx⟩)

theorem begin {root : Root} {polls : Option Nat} (h : k.Begins root polls r) : Trace k (k.seed root).1 [] r := by
  obtain ⟨-, hout, hforest, hfront, hev⟩ := begins_cases h
  have hcalls : k.calls (k.seed root).1 [] = (k.seed root).1.flow.discoveries.map (none, ·) := List.append_nil _
  constructor
  case forest =>
    rw [hforest, hcalls, WorkList.addAll_eq_after]
    rfl
  case rooted =>
    rw [hcalls]
    intro e he x hx
    have hc := (WorkList.mem_insertions _ he).1
    obtain ⟨d, -, hd⟩ := List.mem_map.1 hc
    rw [← (Prod.mk.inj hd).1] at hx
    exact absurd hx (by simp)
  case queue => exact ⟨[], hfront.symm, .slnil, by simp⟩
  case evicted => exact hev
  case seeded => exact fun x hx => (hout x).2 hx
  case failed => exact fun x hx => absurd hx (by simp)
  case tainted => exact fun x hx => .seeded ((hout x).1 hx)

/-- A round takes the variable that it serves off the frontier, with the evicted ones before it, and may append others
that it finds. -/
theorem queue_served (h : Trace k s served r) {skipped rest new : List Variable}
    (hfront : r.work.frontier = skipped ++ v :: rest) (hskip : ∀ x ∈ skipped, x ∈ r.work.evicted)
    (helements : r'.work.forest.elements = r.work.forest.elements ++ new) (hrest : r'.work.frontier = rest ++ new)
    (hout : r.ruledOut ⊆ r'.ruledOut) : ∃ passed, r'.work.forest.elements = passed ++ r'.work.frontier ∧
      (served ++ [v]).Sublist passed ∧ ∀ x ∈ passed, x ∈ served ++ [v] ∨ x ∈ r'.ruledOut := by
  obtain ⟨passed, hq, hsub, hpassed⟩ := h.queue
  refine ⟨passed ++ skipped ++ [v], ?_, ?_, ?_⟩
  · rw [helements, hq, hfront, hrest]
    simp
  · exact (hsub.trans (List.sublist_append_left _ _)).append (.refl _)
  · intro x hx
    rcases List.mem_append.1 hx with hx | hx
    · rcases List.mem_append.1 hx with hx | hx
      · exact (hpassed x hx).imp (List.mem_append_left _) fun hx => hout hx
      · exact Or.inr (hout ((h.evicted x).1 (hskip x hx)))
    · exact Or.inl (List.mem_append_right _ hx)

theorem mem_elements_of_frontier (h : Trace k s served r) (hx : x ∈ r.work.frontier) :
    x ∈ r.work.forest.elements := by
  obtain ⟨passed, hq, -⟩ := h.queue
  rw [hq]
  exact List.mem_append_right _ hx

/-- A round that accepts its variable keeps the invariant. -/
theorem accepted (h : Trace k s served r) {skipped rest : List Variable}
    (hfront : r.work.frontier = skipped ++ v :: rest) (hskip : ∀ x ∈ skipped, x ∈ r.work.evicted) (hp : k.Passes v)
    (hout : r'.ruledOut = r.ruledOut) (hforest : r'.work.forest = (r.work.addAll (some v) (k.discoveries v)).forest)
    (hrest : r'.work.frontier = rest ++ r.work.addedBy (some v) (k.discoveries v))
    (hev : ∀ x, x ∈ r'.work.evicted ↔ x ∈ r.work.evicted ∨ x ∈ k.finds v ∧ x ∈ r.ruledOut) :
    Trace k s (served ++ [v]) r' := by
  have hcalls : k.calls s (served ++ [v]) = k.calls s served ++ (k.discoveries v).map (some v, ·) := by
    rw [calls_snoc, if_pos hp]
  have hmem : v ∈ r.work.forest.elements := h.mem_elements_of_frontier (by simp [hfront])
  constructor
  case forest =>
    rw [hforest, hcalls, WorkList.addAll_eq_after, WorkList.forest_after_congr _ h.forest]
    exact congrArg WorkList.forest (WorkList.after_append _ _ _).symm
  case rooted =>
    rw [hcalls]
    refine h.rooted.append fun c hc x hx => ?_
    obtain ⟨d, -, rfl⟩ := List.mem_map.1 hc
    cases hx
    rw [← h.forest]
    exact hmem
  case queue =>
    have helements : r'.work.forest.elements =
        r.work.forest.elements ++ r.work.addedBy (some v) (k.discoveries v) := by
      rw [hforest, WorkList.elements_addAll]
    exact h.queue_served hfront hskip helements hrest (by rw [hout]; exact List.Subset.refl _)
  case evicted =>
    intro x
    rw [hev, hout, h.evicted]
    exact or_iff_left_of_imp fun hx => hx.2
  case seeded => exact fun x hx => hout ▸ h.seeded x hx
  case failed =>
    intro x hx hf
    rw [hout]
    rcases List.mem_append.1 hx with hx | hx
    · exact h.failed x hx hf
    · exact absurd (List.mem_singleton.1 hx ▸ hp) hf
  case tainted => exact fun x hx => h.tainted x (hout ▸ hx)

theorem rejected (h : Trace k s served r) {skipped rest : List Variable}
    (hfront : r.work.frontier = skipped ++ v :: rest) (hskip : ∀ x ∈ skipped, x ∈ r.work.evicted)
    (hp : ¬ k.Passes v) (hforest : r'.work.forest = r.work.forest) (hrest : r'.work.frontier = rest)
    (hout : ∀ x, x ∈ r'.ruledOut ↔ x ∈ r.ruledOut ∨ k.Condemns r v x)
    (hev : ∀ x, x ∈ r'.work.evicted ↔ x ∈ r.work.evicted ∨ k.Condemns r v x) : Trace k s (served ++ [v]) r' := by
  have hcalls : k.calls s (served ++ [v]) = k.calls s served := by
    rw [calls_snoc, if_neg hp, List.append_nil]
  have hmem : v ∈ r.work.forest.elements := h.mem_elements_of_frontier (by simp [hfront])
  have hself : v ∈ r'.ruledOut := (hout v).2 (Or.inr (Or.inl (Forest.self_mem_descendants hmem)))
  constructor
  case forest => rw [hforest, hcalls, h.forest]
  case rooted =>
    rw [hcalls]
    exact h.rooted
  case queue =>
    have helements : r'.work.forest.elements = r.work.forest.elements ++ [] := by rw [hforest, List.append_nil]
    have hrest : r'.work.frontier = rest ++ [] := by rw [hrest, List.append_nil]
    exact h.queue_served hfront hskip helements hrest fun x hx => (hout x).2 (Or.inl hx)
  case evicted =>
    intro x
    rw [hev, hout, h.evicted]
  case seeded => exact fun x hx => (hout x).2 (Or.inl (h.seeded x hx))
  case failed =>
    intro x hx hf
    rcases List.mem_append.1 hx with hx | hx
    · exact (hout x).2 (Or.inl (h.failed x hx hf))
    · rwa [List.mem_singleton.1 hx]
  case tainted =>
    have hv : k.Tainted s v := .failed (h.reachable hmem) hp
    intro x hx
    rcases (hout x).1 hx with hx | hx | ⟨hx, -⟩
    · exact h.tainted x hx
    · exact h.grown.descendants_induction hv (fun e he u x hl hu => hu.leads he hl) hx
    · exact hv.found hx

theorem round (h : Trace k s served r) (hr : k.Round r v r') : Trace k s (served ++ [v]) r' := by
  obtain ⟨-, skipped, rest, hfront, hskip, ⟨hp, hout, hforest, hrest, hev⟩ | ⟨hp, hforest, hrest, hout, hev⟩⟩ :=
    round_cases hr
  · exact h.accepted hfront hskip hp hout hforest hrest hev
  · exact h.rejected hfront hskip hp hforest hrest hout hev

theorem rounds (h : Trace k s served r) (hr : k.Rounds r vs r') : Trace k s (served ++ vs) r' := by
  induction hr generalizing served with
  | none => rwa [List.append_nil]
  | @more r r₁ r₂ v vs hv _ ih =>
    have hs := ih (h.round hv)
    rwa [List.append_assoc] at hs

end Trace

/-- The invariant holds when a harvest is complete. -/
theorem Completes.trace {root : Root} {polls : Option Nat} {last : Run} {h : Harvest}
    (hc : k.Completes root polls served last h) : Trace k (k.seed root).1 served last := by
  obtain ⟨first, hb, hr⟩ := hc.rounds
  exact (Trace.begin hb).rounds hr

end Classifier

end NilFlow
