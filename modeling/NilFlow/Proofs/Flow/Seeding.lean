import NilFlow.Flow.Seeding

/-!
# Seeds, node by node

* `Classifier.seedAt_eq`: what a node adds to the seeds does not depend on the seeds before it.
* `Classifier.mem_seedAll`, `Classifier.exists_seedAt_of_mem_occurrences`: the seeds of some nodes are what each of them
  adds. `Classifier.exists_append_of_mem` says so of the seeds as a whole.
* `Seeds.Within`: some seeds are among others.
* `Classifier.seed_perm`: the order of nodes does not matter to what is seeded and ruled out.
-/

namespace NilFlow

namespace Seeds

def append (s t : Seeds) : Seeds := ⟨s.flow.append t.flow, s.ruledOut ++ t.ruledOut, s.failures ++ t.failures⟩

theorem append_empty (s : Seeds) : s.append .empty = s := by
  unfold append empty Flow.append Flow.empty
  simp only [List.append_nil]

theorem empty_append (s : Seeds) : empty.append s = s := by
  unfold append empty Flow.append Flow.empty
  simp only [List.nil_append]

theorem append_assoc (s t u : Seeds) : (s.append t).append u = s.append (t.append u) := by
  unfold append Flow.append
  simp only [List.append_assoc]

theorem addFlow_eq (s : Seeds) (f : Flow) : s.addFlow f = s.append (Seeds.empty.addFlow f) := by
  unfold append addFlow empty Flow.append Flow.empty
  simp only [List.nil_append, List.append_nil]

theorem addFailure_eq (s : Seeds) (f : Failure) (vars : List Variable) :
    s.addFailure f vars = s.append (Seeds.empty.addFailure f vars) := by
  unfold append addFailure empty Flow.append Flow.empty
  simp only [List.nil_append, List.append_nil, List.append_assoc]

/-- What some seeds discover and rule out, others do as well. -/
structure Within (s t : Seeds) : Prop where
  discoveries : ∀ d ∈ s.flow.discoveries, d ∈ t.flow.discoveries
  ruledOut : ∀ x ∈ s.ruledOut, x ∈ t.ruledOut

theorem Within.vars {s t : Seeds} (h : s.Within t) {x : Variable} (hx : x ∈ s.flow.vars) : x ∈ t.flow.vars := by
  obtain ⟨d, hd, hx⟩ := List.mem_flatMap.1 hx
  exact List.mem_flatMap.2 ⟨d, h.discoveries d hd, hx⟩

end Seeds

namespace Classifier

variable {k : Classifier} {root root' : Root}

theorem seedNil_eq (k : Classifier) (s : Seeds) (c : Cursor) :
    k.seedNil s c = (k.seedNil .empty c).map s.append := by
  unfold seedNil
  dsimp only
  split
  · exact congrArg Except.ok (s.addFlow_eq _)
  · split
    · rfl
    · split
      · exact congrArg Except.ok (s.addFailure_eq _ _)
      · split
        · rfl
        · split
          · exact congrArg Except.ok s.append_empty.symm
          · exact congrArg Except.ok (s.addFailure_eq _ _)

theorem seedAt_eq (k : Classifier) (s : Seeds) (c : Cursor) :
    k.seedAt s c = (k.seedAt .empty c).map s.append := by
  unfold seedAt
  split
  · split
    · exact k.seedNil_eq s c
    · exact congrArg Except.ok s.append_empty.symm
  · exact congrArg Except.ok (s.addFlow_eq _)
  · split
    · exact congrArg Except.ok (s.addFlow_eq _)
    · exact congrArg Except.ok s.append_empty.symm
  · exact congrArg Except.ok s.append_empty.symm

theorem mem_seedAll : ∀ (cs : List Cursor) (s : Seeds), (k.seedAll cs s).2 = none →
    (∀ d, d ∈ (k.seedAll cs s).1.flow.discoveries ↔ d ∈ s.flow.discoveries ∨
      ∃ c ∈ cs, ∃ t, k.seedAt .empty c = .ok t ∧ d ∈ t.flow.discoveries) ∧
    ∀ x, x ∈ (k.seedAll cs s).1.ruledOut ↔ x ∈ s.ruledOut ∨
      ∃ c ∈ cs, ∃ t, k.seedAt .empty c = .ok t ∧ x ∈ t.ruledOut
  | [], s, _ => by simp [seedAll]
  | c :: cs, s, h => by
    cases hc : k.seedAt .empty c with
    | error f =>
      have hs : k.seedAt s c = .error f := by
        rw [seedAt_eq, hc]
        rfl
      unfold seedAll at h
      rw [hs] at h
      exact absurd h (by simp)
    | ok t =>
      have hs : k.seedAt s c = .ok (s.append t) := by
        rw [seedAt_eq, hc]
        rfl
      have hall : k.seedAll (c :: cs) s = k.seedAll cs (s.append t) := by
        rw [seedAll, hs]
      rw [hall] at h ⊢
      obtain ⟨hd, hx⟩ := mem_seedAll cs (s.append t) h
      constructor
      · intro d
        rw [hd]
        show d ∈ s.flow.discoveries ++ t.flow.discoveries ∨ _ ↔ _
        rw [List.mem_append, or_assoc]
        simp [hc]
      · intro x
        rw [hx]
        show x ∈ s.ruledOut ++ t.ruledOut ∨ _ ↔ _
        rw [List.mem_append, or_assoc]
        simp [hc]

/-- A scan goes on from some seeds as from none. -/
theorem seedAll_eq : ∀ (cs : List Cursor) (s : Seeds),
    k.seedAll cs s = (s.append (k.seedAll cs .empty).1, (k.seedAll cs .empty).2)
  | [], s => by rw [seedAll, seedAll, Seeds.append_empty]
  | c :: cs, s => by
    rw [seedAll, seedAll, seedAt_eq]
    cases k.seedAt .empty c with
    | error f => exact congrArg (fun s => (s, some f)) s.append_empty.symm
    | ok t =>
      show k.seedAll cs (s.append t) = (s.append (k.seedAll cs t).1, (k.seedAll cs t).2)
      rw [seedAll_eq cs (s.append t), seedAll_eq cs t, Seeds.append_assoc]

theorem exists_append_of_mem {c : Cursor} : ∀ {cs : List Cursor}, c ∈ cs → (k.seedAll cs .empty).2 = none →
    ∃ s t s' : Seeds, k.seedAt .empty c = .ok t ∧ (k.seedAll cs .empty).1 = (s.append t).append s'
  | d :: cs, hc, h => by
    cases hd : k.seedAt .empty d with
    | error f =>
      rw [seedAll, hd] at h
      cases h
    | ok u =>
      have hall : k.seedAll (d :: cs) .empty = (u.append (k.seedAll cs .empty).1, (k.seedAll cs .empty).2) := by
        rw [seedAll, hd]
        exact seedAll_eq cs u
      rw [hall] at h ⊢
      rcases List.mem_cons.1 hc with rfl | hc
      · exact ⟨.empty, u, _, hd, by rw [Seeds.empty_append]⟩
      · obtain ⟨s, t, s', ht, hs⟩ := exists_append_of_mem hc h
        refine ⟨u.append s, t, s', ht, ?_⟩
        show u.append (k.seedAll cs .empty).1 = _
        rw [hs, Seeds.append_assoc, Seeds.append_assoc, Seeds.append_assoc]

theorem exists_seedAt_of_mem_occurrences {o : Occurrence} : ∀ (cs : List Cursor) (s : Seeds),
    o ∈ (k.seedAll cs s).1.flow.occurrences → o ∈ s.flow.occurrences ∨
      ∃ c ∈ cs, ∃ t, k.seedAt .empty c = .ok t ∧ o ∈ t.flow.occurrences
  | [], s, h => Or.inl h
  | c :: cs, s, h => by
    unfold seedAll at h
    rw [seedAt_eq] at h
    cases hc : k.seedAt .empty c with
    | error f =>
      rw [hc] at h
      exact Or.inl h
    | ok t =>
      rw [hc] at h
      rcases exists_seedAt_of_mem_occurrences cs (s.append t) h with h | ⟨d, hd, h⟩
      · rcases List.mem_append.1 h with h | h
        · exact Or.inl h
        · exact Or.inr ⟨c, List.mem_cons_self, t, hc, h⟩
      · exact Or.inr ⟨d, List.mem_cons_of_mem _ hd, h⟩

/-- Roots with the same nodes seed the same discoveries and rule out the same variables. -/
theorem seed_perm (hroot : root.nodes.Perm root'.nodes) (hs : (k.seed root).2 = none) (hs' : (k.seed root').2 = none) :
    (k.seed root).1.Within (k.seed root').1 := by
  have hcs : ∀ c ∈ root.nodes.flatMap (·.cursor.preorder), c ∈ root'.nodes.flatMap (·.cursor.preorder) := by
    intro c hc
    obtain ⟨n, hn, hc⟩ := List.mem_flatMap.1 hc
    exact List.mem_flatMap.2 ⟨n, hroot.mem_iff.1 hn, hc⟩
  obtain ⟨hd, hx⟩ := mem_seedAll _ _ hs
  obtain ⟨hd', hx'⟩ := mem_seedAll _ _ hs'
  unfold seed
  constructor
  · intro d
    rw [hd, hd']
    rintro (hd | ⟨c, hc, ht⟩)
    · exact Or.inl hd
    · exact Or.inr ⟨c, hcs c hc, ht⟩
  · intro x
    rw [hx, hx']
    rintro (hx | ⟨c, hc, ht⟩)
    · exact Or.inl hx
    · exact Or.inr ⟨c, hcs c hc, ht⟩

end Classifier

end NilFlow
