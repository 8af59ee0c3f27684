import NilFlow.Proofs.Harvest.Partition
import NilFlow.Proofs.Program.Index
import NilFlow.Proofs.Program.Search

/-!
# What membership in a group certifies

* `Classifier.Passes.exists_matches`: a successful search classified every occurrence outside doc comments.
* `Classifier.Completes.served_once`: the members of groups were searched exactly once, with success.
* `Classifier.Completes.discovered`: they are seeds, or the search of another member found them.
* `Classifier.groups_certified`: the certificate of a group's member.
-/

namespace NilFlow

namespace Classifier

variable {k : Classifier} {root : Root} {polls : Option Nat} {served : List Variable} {last : Run} {h : Harvest}
  {v x : Variable}

/-! ## Successful searches -/

/-- When occurrences are classified without a failure, all exact ones outside doc comments are propagated, and what they
discover is part of the flow. -/
theorem classifyAll_eq_ok {k : Classifier} : ∀ {ms : List Match} {flow out : Flow} {first : Option Failure},
    k.classifyAll ms flow first = .ok (out, none) → first = none ∧ (∀ y ∈ flow.vars, y ∈ out.vars) ∧
      ∀ m ∈ ms, m.accuracy = .exact → m.inDocComment = false →
        (k.propagate m).2 = none ∧ ∀ y ∈ (k.propagate m).1.vars, y ∈ out.vars
  | [], flow, out, first, h => by
    cases h
    exact ⟨rfl, fun _ hy => hy, by simp⟩
  | m :: ms, flow, out, first, h => by
    unfold classifyAll at h
    split at h
    · rename_i hskip
      obtain ⟨hf, hflow, hms⟩ := classifyAll_eq_ok h
      refine ⟨hf, hflow, fun n hn he hd => ?_⟩
      rcases List.mem_cons.1 hn with rfl | hn
      · simp [he, hd] at hskip
      · exact hms n hn he hd
    · split at h
      · rename_i f hp
        obtain ⟨hf, hflow, hms⟩ := classifyAll_eq_ok h
        have happend : ∀ y, y ∈ (flow.append f).vars ↔ y ∈ flow.vars ∨ y ∈ f.vars := by
          intro y
          unfold Flow.vars Flow.append
          rw [List.flatMap_append, List.mem_append]
        refine ⟨hf, fun y hy => hflow y ((happend y).2 (Or.inl hy)), fun n hn he hd => ?_⟩
        rcases List.mem_cons.1 hn with rfl | hn
        · rw [hp]
          exact ⟨rfl, fun y hy => hflow y ((happend y).2 (Or.inr hy))⟩
        · exact hms n hn he hd
      · split at h
        · cases h
        · -- a failure stays the first one, so the outcome would have it
          obtain ⟨hf, -⟩ := classifyAll_eq_ok h
          cases first <;> simp at hf

theorem Passes.exists_matches (hv : k.Passes v) : ∃ ms, k.program.search v = .ok ms ∧
    ∀ m ∈ ms, m.accuracy = .exact → m.inDocComment = false →
      (k.propagate m).2 = none ∧ ∀ y ∈ (k.propagate m).1.vars, y ∈ k.finds v := by
  unfold Passes searchVariable at hv
  unfold finds searchVariable
  split at hv
  · cases hv
  · rename_i ms hs
    split at hv
    · cases hv
    · rename_i flow first hcl
      have hv : first = none := hv
      subst hv
      exact ⟨ms, hs, (classifyAll_eq_ok hcl).2.2⟩

/-! ## Members of groups -/

namespace Completes

theorem served_once (hc : k.Completes root polls served last h) (hx : h.Grouped x) :
    served.count x = 1 ∧ k.Passes x := by
  have ht := hc.trace
  have hn := ht.grown.nodup
  have hout : x ∉ last.ruledOut := fun hr => hc.not_mem_ruledOut hx (hc.mem_ruledOut_iff.2 (Or.inl hr))
  have hmem : x ∈ last.work.forest.elements := (Forest.elements_trim_sublist _ _).mem (hc.mem_trim_iff.1 hx)
  obtain ⟨passed, hq, hsub, hpassed⟩ := ht.queue
  rw [hq] at hmem hn
  have hserved : x ∈ served := by
    rcases List.mem_append.1 hmem with hp | hf
    · exact (hpassed x hp).resolve_right hout
    · exact absurd ((ht.evicted x).1 (WorkList.next?_eq_none hc.next hf)) hout
  refine ⟨List.count_eq_one_of_mem ?_ hserved, ?_⟩
  · exact (List.nodup_append.1 hn).1.sublist hsub
  · by_contra hp
    exact hout (ht.failed x hserved hp)

theorem mem_served (hc : k.Completes root polls served last h) (hx : h.Grouped x) : x ∈ served :=
  List.one_le_count_iff.1 (hc.served_once hx).1.ge

theorem discovery_mem_calls (hc : k.Completes root polls served last h) (hx : h.Grouped x) {d : Discovery Variable}
    (hd : d ∈ k.discoveries x) : (some x, d) ∈ k.calls (k.seed root).1 served :=
  mem_calls.2 (Or.inr ⟨x, hc.mem_served hx, (hc.served_once hx).2, rfl, hd⟩)

theorem found (hc : k.Completes root polls served last h) (hx : h.Grouped x) (hv : v ∈ k.finds x) :
    h.Grouped v ∨ v ∈ h.ruledOut :=
  hc.grouped_or_ruledOut (hc.trace.mem_elements.2 (Or.inr ⟨x, hc.mem_served hx, (hc.served_once hx).2, hv⟩))

/-- A member that is a candidate of an insertion is a seed, or the source is a member whose search found it. -/
theorem candidate_cases (hc : k.Completes root polls served last h) {e : Insertion Variable}
    (he : e ∈ WorkList.empty.insertions (k.calls (k.seed root).1 served)) (hv : x ∈ e.discovery.vars)
    (hx : h.Grouped x) : x ∈ (k.seed root).1.flow.vars ∨
      ∃ y ∈ served, e.source = some y ∧ h.Grouped y ∧ k.Passes y ∧ x ∈ k.finds y := by
  rcases insertion_cases he with ⟨-, hd⟩ | ⟨y, hy, hp, hs, hd⟩
  · exact Or.inl (List.mem_flatMap.2 ⟨e.discovery, hd, hv⟩)
  · have hcall := (WorkList.mem_insertions _ he).1
    rw [hs] at hcall
    have hgroup := (hc.grouped_iff.1 hx).source hc.trace.rooted hcall hv
    exact Or.inr ⟨y, hy, hs, hc.grouped_iff.2 hgroup, hp, mem_finds.2 ⟨e.discovery, hd, hv⟩⟩

/-- A member is a seed, or the search of another member found it. -/
theorem discovered (hc : k.Completes root polls served last h) (hx : h.Grouped x) :
    x ∈ (k.seed root).1.flow.vars ∨
      ∃ y ∈ served, y ≠ x ∧ h.Grouped y ∧ k.Passes y ∧ x ∈ k.finds y := by
  have ht := hc.trace
  have hmem : x ∈ last.work.forest.elements := (Forest.elements_trim_sublist _ _).mem (hc.mem_trim_iff.1 hx)
  -- the insertion that made the node has a source with a node, and so another one than the new element
  obtain ⟨e, he, hcreated⟩ := ht.grown.exists_created hmem
  obtain ⟨hvar, hnew⟩ := (Forest.mem_created _ _ _).1 hcreated
  rcases hc.candidate_cases he hvar hx with hseed | ⟨y, hy, hs, hfound⟩
  · exact Or.inl hseed
  · refine Or.inr ⟨y, hy, ?_, hfound⟩
    rintro rfl
    exact hnew (ht.rooted e he y hs)

end Completes

/-! ## The certificate -/

/-- Every member of a group of a complete harvest was taken and searched exactly once, and its search succeeded: its
declaration and all its occurrences outside doc comments may be edited, and each of these was propagated without a
failure to variables that are themselves members of groups or ruled out. Also, a member is a seed, or the successful
search of another member discovered it. -/
theorem groups_certified {T : Typing} {files : List SourceFile} {packages : List Package} {generated : Bool}
    (hk : k.program = .ofPackages T files packages generated) (hh : k.harvest root polls = .ok h)
    (hcomplete : h.complete = true) : ∃ served last, k.Completes root polls served last h ∧
      ∀ g ∈ h.groups, ∀ x ∈ g.vars, served.count x = 1 ∧
        (∃ ms, k.program.search x = .ok ms ∧ ms = k.program.index.occurrencesOf x ∧ k.program.Writable x.pos ∧
          ∀ m ∈ ms, m.inDocComment = false → k.program.Writable m.span.start ∧ (k.propagate m).2 = none ∧
            ∀ y ∈ (k.propagate m).1.vars, h.Grouped y ∨ y ∈ h.ruledOut) ∧
        (x ∈ (k.seed root).1.flow.vars ∨ ∃ y ∈ served, y ≠ x ∧ h.Grouped y ∧ k.Passes y ∧ x ∈ k.finds y) := by
  obtain ⟨served, last, hc⟩ := harvest_complete_iff.1 ⟨hh, hcomplete⟩
  refine ⟨served, last, hc, fun g hg x hx => ?_⟩
  have hx : h.Grouped x := ⟨g, hg, hx⟩
  obtain ⟨hcount, hp⟩ := hc.served_once hx
  obtain ⟨ms, hs, hms⟩ := hp.exists_matches
  obtain ⟨⟨-, hdecl⟩, -, hwritable, heq⟩ := Program.search_eq_ok_iff.1 hs
  refine ⟨hcount, ⟨ms, hs, heq, hdecl, fun m hm hd => ?_⟩, hc.discovered hx⟩
  have hexact : m.accuracy = .exact := by
    rw [heq, hk] at hm
    exact Index.exact_of_mem hm
  obtain ⟨hprop, hflow⟩ := hms m hm hexact hd
  rw [heq] at hm
  exact ⟨hwritable m hm hd, hprop, fun y hy => hc.found hx (hflow y hy)⟩

end Classifier

namespace TwoPackages

/-- `B` is in a group, so it was searched once, and its declaration may be edited. -/
theorem forward_certificate : ∃ h, classifier.harvest forward none = .ok h ∧ h.complete = true ∧ h.Grouped varB ∧
    ∃ served last, classifier.Completes forward none served last h ∧ served.count varB = 1 ∧
      classifier.program.Writable varB.pos := by
  obtain ⟨last, h, hc, hout, htrimmed⟩ := completes_forward
  obtain ⟨hh, hcomplete⟩ := Classifier.harvest_complete_iff.2 ⟨_, last, hc⟩
  have hB : h.Grouped varB := by
    refine (hc.grouped_or_ruledOut (hc.trace.mem_elements.2 (Or.inl (by decide)))).resolve_right ?_
    rw [hc.mem_ruledOut_iff, hout, htrimmed]
    decide
  obtain ⟨g, hg, hx⟩ := hB
  obtain ⟨served, last, hc, hall⟩ := Classifier.groups_certified (k := classifier) rfl hh hcomplete
  obtain ⟨hcount, ⟨ms, -, -, hdecl, -⟩, -⟩ := hall g hg varB hx
  exact ⟨h, hh, hcomplete, ⟨g, hg, hx⟩, served, last, hc, hcount, hdecl⟩

end TwoPackages

end NilFlow
