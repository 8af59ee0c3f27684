import NilFlow.Proofs.Flow.Seeding
import NilFlow.Proofs.Harvest.Occurrences

/-!
# How serving ends

* `Classifier.Halts`: the three ways in which serving ends; `exists_halts` says that it always does.
* `Classifier.Rounds.condemned`: what is ruled out stays so, and is not served any more.
* `Trace.served_sublist`: what is taken from the work list are elements of the forest, each taken once.
* `Trace.mem_vars`: these elements are variables of the program.
* `Classifier.rounds_bounded`: so serving ends after at most one search for each variable.
-/

namespace NilFlow

namespace Classifier

variable {k : Classifier} {root : Root} {polls : Option Nat} {s : Seeds} {r r' : Run} {v x : Variable}
  {served vs : List Variable} {work : WorkList Variable}

/-! ## Ends -/

/-- Serving ends with a run, since nothing is left, or it is told to stop, or the search of the next variable is a fatal
failure. The list holds the variable that is searched then. -/
inductive Halts (k : Classifier) (r : Run) : List Variable → Except Stop Run → Prop where
  | finished (hn : r.work.next? = none) : Halts k r [] (.ok r)
  | cancelled {v : Variable} {work : WorkList Variable} (hn : r.work.next? = some (v, work)) (hp : r.poll? = none) :
      Halts k r [] (.error .cancelled)
  | failed {v : Variable} {work : WorkList Variable} {polled : Run} {f : Failure}
      (hn : r.work.next? = some (v, work)) (hp : r.poll? = some polled)
      (hs : k.serve { polled with work := work } v = .error f) :
      Halts k r [v] (.error (.fatal { polled with work := work } f))

/-- After some rounds, serving ends. -/
theorem exists_halts (k : Classifier) (r : Run) :
    ∃ vs last tail, k.Rounds r vs last ∧ k.Halts last tail (k.exhaust r) := by
  fun_induction exhaust k r with
  | case1 r hn => exact ⟨[], r, [], .none r, .finished hn⟩
  | case2 r v work hn hp => exact ⟨[], r, [], .none r, .cancelled hn hp⟩
  | case3 r v work hn polled hp f hs => exact ⟨[], r, [v], .none r, .failed hn hp hs⟩
  | case4 r v work hn polled hp served hs ih =>
    obtain ⟨vs, last, tail, hr, hlast⟩ := ih
    exact ⟨v :: vs, last, tail, .more ⟨polled, work, hp, hn, hs⟩ hr, hlast⟩

/-! ## Variables ruled out -/

theorem Round.ruledOut_mono (h : k.Round r v r') (hx : x ∈ r.ruledOut) : x ∈ r'.ruledOut := by
  obtain ⟨-, skipped, rest, -, -, ⟨-, hout, -⟩ | ⟨-, -, -, hout, -⟩⟩ := round_cases h
  · rw [hout]
    exact hx
  · exact (hout x).2 (Or.inl hx)

/-- What is ruled out stays ruled out, and it is not served any more. -/
theorem Rounds.condemned (h : k.Rounds r vs r') (htrace : Trace k s served r) (hx : x ∈ r.ruledOut) :
    x ∈ r'.ruledOut ∧ x ∉ vs := by
  induction h generalizing served with
  | none => exact ⟨hx, by simp⟩
  | @more r r₁ r₂ v vs hround _ ih =>
    obtain ⟨hlast, hrest⟩ := ih (htrace.round hround) (hround.ruledOut_mono hx)
    refine ⟨hlast, fun hmem => ?_⟩
    rcases List.mem_cons.1 hmem with rfl | hmem
    · exact (round_cases hround).1 ((htrace.evicted x).2 hx)
    · exact hrest hmem

namespace Trace

theorem next_not_ruledOut (h : Trace k s served r) (hn : r.work.next? = some (v, work)) : v ∉ r.ruledOut := by
  obtain ⟨-, -, hv, -⟩ := WorkList.next?_eq_some hn
  exact fun hout => hv ((h.evicted v).2 hout)

theorem next_sublist (h : Trace k s served r) (hn : r.work.next? = some (v, work)) :
    (served ++ [v]).Sublist r.work.forest.elements := by
  obtain ⟨passed, hq, hsub, -⟩ := h.queue
  obtain ⟨-, -, -, skipped, hfront, -⟩ := WorkList.next?_eq_some hn
  rw [hq]
  refine hsub.append ?_
  rw [hfront, List.singleton_sublist]
  simp

/-- All that is taken from the work list until serving ends are elements, in the order of their nodes. -/
theorem served_sublist (h : Trace k s served r) {tail : List Variable} {out : Except Stop Run}
    (hr : k.Halts r tail out) : (served ++ tail).Sublist r.work.forest.elements := by
  have hserved : (served ++ []).Sublist r.work.forest.elements := by
    obtain ⟨passed, hq, hsub, -⟩ := h.queue
    rw [hq, List.append_nil]
    exact hsub.trans (List.sublist_append_left _ _)
  cases hr with
  | finished _ => exact hserved
  | cancelled _ _ => exact hserved
  | failed hn _ _ => exact h.next_sublist hn

end Trace

/-! ## Elements are variables of the program -/

variable {l : List Variable} {c : Cursor} {t : Seeds}

theorem within_implicitFlow {names : List Node} (hvars : ∀ o ∈ definedVars k.program.typing names none,
    (k.program.typing.varType? o).any k.accepts = true → ∀ v, k.program.typing.variableOf? o = some v → v ∈ l)
    (span : Span) : (k.implicitFlow span names).Within l := by
  refine Flow.within_foldl _ _ (Flow.within_empty _) fun f hf => ?_
  obtain ⟨o, ho, hf⟩ := List.mem_filterMap.1 hf
  split at hf
  · rename_i haccepts
    obtain ⟨v, hv, rfl⟩ := Option.map_eq_some_iff.1 hf
    intro x hx
    obtain rfl : x = v := by simpa [Flow.vars, Flow.discovering, Discovery.vars] using hx
    exact hvars o ho haccepts x hv
  · cases hf

theorem within_seedNil (hflow : ∀ fs, (k.flowOf fs).Within l) (h : k.seedNil .empty c = .ok t) : t.flow.Within l := by
  have hempty : Seeds.empty.flow.Within l := Flow.within_empty _
  unfold seedNil at h
  dsimp only at h
  split at h
  · cases h
    exact hempty.append (hflow _)
  · split at h
    · cases h
    · split at h
      · cases h
        exact hempty
      · split at h
        · cases h
        · split at h <;> cases h <;> exact hempty

/-- What a node seeds is found from nil literals, or named at the node or below it. -/
theorem within_seedAt (hflow : ∀ fs, (k.flowOf fs).Within l)
    (hnames : ∀ d, c.Below d → ∀ span, (k.implicitFlow span (d.node.childrenAt .names)).Within l)
    (h : k.seedAt .empty c = .ok t) : t.flow.Within l := by
  have hempty : Seeds.empty.flow.Within l := Flow.within_empty _
  unfold seedAt at h
  split at h
  · split at h
    · exact within_seedNil hflow h
    · cases h
      exact hempty
  · cases h
    refine hempty.append (Flow.within_foldl _ _ (Flow.within_empty _) fun f hf => ?_)
    obtain ⟨field, hfield, rfl⟩ := List.mem_map.1 hf
    cases hlist : c.node.child? .fields with
    | none => simp [hlist] at hfield
    | some list =>
      rw [hlist] at hfield
      obtain ⟨d, hd, rfl⟩ := Cursor.exists_child hlist
      obtain ⟨e, he, rfl⟩ := Cursor.exists_mem_childrenAt hfield
      exact hnames e (.child (.child .self (Cursor.mem_childrenAt.1 hd).1) (Cursor.mem_childrenAt.1 he).1) _
  · split at h
    · cases h
      exact hempty.append (hnames c .self _)
    · cases h
      exact hempty
  · cases h
    exact hempty

theorem within_seed (hflow : ∀ fs, (k.flowOf fs).Within l)
    (hnames : ∀ node ∈ root.nodes, ∀ d, node.cursor.Below d → ∀ span,
      (k.implicitFlow span (d.node.childrenAt .names)).Within l)
    (hs : (k.seed root).2 = none) : (k.seed root).1.flow.Within l := by
  intro x hx
  obtain ⟨d, hd, hx⟩ := List.mem_flatMap.1 hx
  rcases ((mem_seedAll _ _ hs).1 d).1 hd with hd | ⟨c, hc, t, ht, hd⟩
  · cases hd
  · obtain ⟨node, hnode, hc⟩ := List.mem_flatMap.1 hc
    have hbelow := fun d hd => hnames node hnode d ((Cursor.mem_preorder_iff.1 hc).trans hd)
    exact within_seedAt hflow hbelow ht x (List.mem_flatMap.2 ⟨d, hd, hx⟩)

theorem Trace.mem_of_within (h : Trace k (k.seed root).1 served r) (hflow : ∀ fs, (k.flowOf fs).Within l)
    (hnames : ∀ node ∈ root.nodes, ∀ d, node.cursor.Below d → ∀ span,
      (k.implicitFlow span (d.node.childrenAt .names)).Within l)
    (hs : (k.seed root).2 = none) (hx : x ∈ r.work.forest.elements) : x ∈ l := by
  rcases h.mem_elements.1 hx with hx | ⟨v, -, -, hx⟩
  · exact within_seed hflow hnames hs x hx
  · exact within_searchVariable hflow v x hx

theorem Trace.mem_vars (h : Trace k (k.seed root).1 served r) (hs : (k.seed root).2 = none)
    (hx : x ∈ r.work.forest.elements) : x ∈ k.program.typing.vars :=
  h.mem_of_within k.within_flowOf
    (fun _ _ _ _ => within_implicitFlow fun _ _ _ _ hv => Typing.variableOf?_mem hv) hs hx

/-! ## The bound -/

/-- In every state of the rounds, exactly the variables ruled out are evicted, the variables served are different, and
the next one is neither served nor ruled out. Variables ruled out stay so and are not served later. Serving ends, and
all searches together, also one that is a fatal failure, are at most as many as the program has variables. -/
theorem rounds_bounded {first : Run} (hb : k.Begins root polls first) (hr : k.Rounds first vs r) :
    (∀ x, x ∈ r.work.evicted ↔ x ∈ r.ruledOut) ∧
      (∀ v work, r.work.next? = some (v, work) → v ∉ r.ruledOut ∧ v ∉ vs) ∧
      (∀ ws r', k.Rounds r ws r' → ∀ x ∈ r.ruledOut, x ∈ r'.ruledOut ∧ x ∉ ws) ∧
      ∃ ws last tail, k.Rounds r ws last ∧ k.Halts last tail (k.exhaust first) ∧ (vs ++ ws ++ tail).Nodup ∧
        (vs ++ ws ++ tail).length ≤ k.program.typing.vars.dedup.length := by
  have htrace : Trace k (k.seed root).1 vs r := (Trace.begin hb).rounds hr
  refine ⟨htrace.evicted, fun v work hn => ⟨htrace.next_not_ruledOut hn, ?_⟩,
    fun ws r' hws x hx => hws.condemned htrace hx, ?_⟩
  · have hnodup := htrace.grown.nodup.sublist (htrace.next_sublist hn)
    exact fun hv => (List.disjoint_of_nodup_append hnodup) hv List.mem_cons_self
  · obtain ⟨ws, last, tail, hws, hlast⟩ := k.exists_halts r
    -- all that is served has a node of its own, and every node holds a variable of the program
    have hend := htrace.rounds hws
    have hsub := hend.served_sublist hlast
    have hnodup : (vs ++ ws ++ tail).Nodup := hend.grown.nodup.sublist hsub
    have hvars : ∀ x ∈ vs ++ ws ++ tail, x ∈ k.program.typing.vars.dedup := fun x hx =>
      List.mem_dedup.2 (hend.mem_vars (begins_cases hb).1 (hsub.subset hx))
    refine ⟨ws, last, tail, hws, ?_, hnodup, (hnodup.subperm hvars).length_le⟩
    rw [hr.exhaust_eq]
    exact hlast

end Classifier

namespace Forwarding

/-- Once all five variables are served, the bound leaves no further search. -/
theorem no_further_search : ∃ first last, classifier.Begins root none first ∧
    classifier.Rounds first [varA, resultF, varX, resultG, varY] last ∧
    classifier.program.typing.vars.dedup.length = 5 ∧ (∀ x, x ∈ last.work.evicted ↔ x ∈ last.ruledOut) ∧
      ∃ ws stop tail, classifier.Rounds last ws stop ∧ classifier.Halts stop tail (classifier.exhaust first) ∧
        ws ++ tail = [] := by
  obtain ⟨last, h, hc, -⟩ := completes
  obtain ⟨first, hb, hr⟩ := hc.rounds
  obtain ⟨hevicted, -, -, ws, stop, tail, hws, hstop, -, hlength⟩ := Classifier.rounds_bounded hb hr
  have hvars : classifier.program.typing.vars.dedup.length = 5 := by decide
  refine ⟨first, last, hb, hr, hvars, hevicted, ws, stop, tail, hws, hstop, ?_⟩
  rw [hvars] at hlength
  simp only [List.length_append, List.length_cons, List.length_nil] at hlength
  have hnone : (ws ++ tail).length = 0 := by
    rw [List.length_append]
    omega
  exact List.length_eq_zero_iff.1 hnone

end Forwarding

end NilFlow
