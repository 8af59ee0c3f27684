import NilFlow.Forest.Basic

/-!
# The elements of a forest

How the list of elements changes when a discovery is inserted.

* `Forest.contains_iff`: an element has a node exactly when it is listed.
* `Forest.elements_add`: inserting a discovery appends the elements it creates.
* `Forest.nodup_created`, `Forest.not_mem_of_mem_created`: those are distinct and new, so no element is listed twice.
-/

namespace NilFlow

namespace Forest

variable {α : Type} [DecidableEq α]

theorem contains_iff (f : Forest α) (v : α) : f.contains v = true ↔ v ∈ f.elements := by
  simp only [contains, idOf?, List.findIdx?_isSome, elements, List.any_eq_true, decide_eq_true_eq, List.mem_filterMap]

theorem var?_marked (n : ForestNode α) (cs : List (Candidate α)) :
    (match n.content with
      | .value v i => { n with content := .value v (i && !cs.any fun c => c.var = v && !c.implicit) }
      | .union => n : ForestNode α).var? = n.var? := by
  cases n with
  | mk content parent => cases content <;> rfl

theorem filterMap_var?_marked (f : Forest α) (cs : List (Candidate α)) :
    (f.marked cs).filterMap ForestNode.var? = f.elements := by
  simp only [marked, elements, List.filterMap_map]
  congr 1
  funext n
  exact var?_marked n cs

theorem elements_add (f : Forest α) (source : Option α) (d : Discovery α) :
    (f.add source d).elements = f.elements ++ f.created d := by
  have hv : ∀ (cs : List (Candidate α)) (p : Option Nat),
      (cs.map fun c => (⟨.value c.var c.implicit, p⟩ : ForestNode α)).filterMap ForestNode.var? = cs.map (·.var) := by
    intro cs p
    induction cs with
    | nil => rfl
    | cons c cs ih => simp only [List.map_cons, List.filterMap_cons, ForestNode.var?] at ih ⊢; rw [ih]
  simp only [elements, add, List.filterMap_append, hv, created]
  rw [filterMap_var?_marked]
  split
  · simp [ForestNode.var?, elements]
  · simp [elements]

/-- The state of `fresh` after some candidates: distinct and without a node. -/
def FreshState (f : Forest α) (acc : List (Candidate α)) : Prop :=
  (acc.map (·.var)).Nodup ∧ ∀ c ∈ acc, f.contains c.var = false

theorem freshState_foldl (f : Forest α) : ∀ (cs acc : List (Candidate α)), f.FreshState acc → f.FreshState
    (cs.foldl (fun acc c => if f.contains c.var || acc.any (·.var = c.var) then acc else acc ++ [c]) acc)
  | [], _, h => h
  | c :: cs, acc, h => by
    rw [List.foldl_cons]
    refine freshState_foldl f cs _ ?_
    split
    · exact h
    · rename_i hc
      simp only [Bool.or_eq_true, List.any_eq_true, decide_eq_true_eq, not_or, not_exists, not_and] at hc
      refine ⟨?_, ?_⟩
      · rw [List.map_append, List.nodup_append]
        refine ⟨h.1, by simp, ?_⟩
        intro a ha b hb
        simp only [List.map_cons, List.map_nil, List.mem_singleton] at hb
        obtain ⟨x, hx, rfl⟩ := List.mem_map.1 ha
        rw [hb]
        exact hc.2 x hx
      · intro x hx
        rcases List.mem_append.1 hx with hx | hx
        · exact h.2 x hx
        · rw [List.mem_singleton.1 hx]
          simpa using hc.1

theorem freshState_fresh (f : Forest α) (cs : List (Candidate α)) : f.FreshState (f.fresh cs) :=
  freshState_foldl f cs [] ⟨by simp, by simp⟩

theorem fresh_subset_foldl (f : Forest α) : ∀ (cs acc : List (Candidate α)) (x : Candidate α),
    x ∈ cs.foldl (fun acc c => if f.contains c.var || acc.any (·.var = c.var) then acc else acc ++ [c]) acc →
      x ∈ acc ∨ x ∈ cs
  | [], _, _, h => Or.inl h
  | c :: cs, acc, x, h => by
    rw [List.foldl_cons] at h
    rcases fresh_subset_foldl f cs _ x h with h | h
    · split at h
      · exact Or.inl h
      · rcases List.mem_append.1 h with h | h
        · exact Or.inl h
        · exact Or.inr (by rw [List.mem_singleton.1 h]; exact List.mem_cons_self)
    · exact Or.inr (List.mem_cons_of_mem _ h)

theorem nodup_created (f : Forest α) (d : Discovery α) : (f.created d).Nodup := (f.freshState_fresh d.candidates).1

theorem not_mem_of_mem_created {f : Forest α} {d : Discovery α} {v : α} (h : v ∈ f.created d) : v ∉ f.elements := by
  obtain ⟨c, hc, rfl⟩ := List.mem_map.1 h
  intro hv
  have := (f.freshState_fresh d.candidates).2 c hc
  rw [(f.contains_iff c.var).2 hv] at this
  exact Bool.noConfusion this

theorem nodup_elements_add {f : Forest α} (h : f.elements.Nodup) (source : Option α) (d : Discovery α) :
    (f.add source d).elements.Nodup := by
  rw [elements_add, List.nodup_append]
  refine ⟨h, f.nodup_created d, ?_⟩
  rintro v hv _ hv' rfl
  exact not_mem_of_mem_created hv' hv

theorem mem_vars_of_mem_created {f : Forest α} {d : Discovery α} {v : α} (h : v ∈ f.created d) : v ∈ d.vars := by
  obtain ⟨c, hc, rfl⟩ := List.mem_map.1 h
  rcases fresh_subset_foldl f d.candidates [] c hc with h | h
  · exact absurd h (by simp)
  · exact List.mem_map_of_mem h

end Forest

end NilFlow
