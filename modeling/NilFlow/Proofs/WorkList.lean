import Mathlib.Data.List.TakeWhile
import NilFlow.Proofs.Forest.Insertion
import NilFlow.WorkList

/-!
# Work lists over time

* `WorkList.next?_eq_some`, `WorkList.next?_eq_none`: what is taken, and what is skipped for it.
* `WorkList.elements_addAll`, `WorkList.frontier_addAll`: the elements that get a node are those enqueued.
* `WorkList.ofCalls`: a new work list after some calls; `Rooted`: every source has a node when it is used.
* `WorkList.grown_ofCalls`: its forest, as the outcome of one insertion a call.
-/

namespace NilFlow

variable {α : Type} [DecidableEq α]

theorem mem_foldl_once (x : α) : ∀ (vs out : List α),
    x ∈ vs.foldl (fun out v => if out.contains v then out else out ++ [v]) out ↔ x ∈ out ∨ x ∈ vs
  | [], out => by simp
  | v :: vs, out => by
    rw [List.foldl_cons, mem_foldl_once x vs, List.mem_cons]
    split
    · rename_i hv
      have hv : v ∈ out := by simpa using hv
      constructor
      · exact Or.imp_right Or.inr
      · rintro (h | rfl | h)
        · exact Or.inl h
        · exact Or.inl hv
        · exact Or.inr h
    · rw [List.mem_append, List.mem_singleton, or_assoc]

namespace WorkList

variable {w : WorkList α}

/-! ## Taking and evicting -/

theorem mem_evicted_removeAll (w : WorkList α) (vs : List α) (x : α) :
    x ∈ (w.removeAll vs).evicted ↔ x ∈ w.evicted ∨ x ∈ vs :=
  mem_foldl_once x vs w.evicted

theorem next?_eq_none (h : w.next? = none) {x : α} (hx : x ∈ w.frontier) : x ∈ w.evicted := by
  unfold next? skipEvicted at h
  split at h
  · rename_i hd
    have hall := List.dropWhile_eq_nil_iff.1 hd x hx
    simpa using hall
  · exact absurd h (by simp)

theorem next?_eq_some {v : α} {rest : WorkList α} (h : w.next? = some (v, rest)) :
    rest.forest = w.forest ∧ rest.evicted = w.evicted ∧ v ∉ w.evicted ∧
      ∃ skipped, w.frontier = skipped ++ v :: rest.frontier ∧ ∀ x ∈ skipped, x ∈ w.evicted := by
  unfold next? skipEvicted at h
  split at h
  · exact absurd h (by simp)
  · rename_i x xs hd
    cases h
    have hd : w.frontier.dropWhile (w.evicted.contains ·) = v :: xs := hd
    have hv : w.evicted.contains v = false := by
      have hne : w.frontier.dropWhile (w.evicted.contains ·) ≠ [] := by
        rw [hd]
        exact List.cons_ne_nil _ _
      have hnot := List.head_dropWhile_not (w.evicted.contains ·) hne
      simp only [hd, List.head_cons] at hnot
      exact hnot
    refine ⟨rfl, rfl, by simpa using hv, w.frontier.takeWhile (w.evicted.contains ·), ?_, ?_⟩
    · rw [← hd]
      exact (List.takeWhile_append_dropWhile).symm
    · intro x hx
      simpa using List.mem_takeWhile_imp hx

/-! ## Adding -/

theorem elements_addAll (source : Option α) : ∀ (ds : List (Discovery α)) (w : WorkList α),
    (w.addAll source ds).forest.elements = w.forest.elements ++ w.addedBy source ds
  | [], w => (List.append_nil _).symm
  | d :: ds, w => by
    have ih := elements_addAll source ds (w.add source d)
    have hadd : (w.add source d).forest.elements = w.forest.elements ++ w.forest.created d :=
      w.forest.elements_add source d
    unfold addedBy
    rw [← List.append_assoc, ← hadd, ← ih]
    rfl

theorem nodup_elements_addAll (source : Option α) : ∀ (ds : List (Discovery α)) {w : WorkList α},
    w.forest.elements.Nodup → (w.addAll source ds).forest.elements.Nodup
  | [], _, h => h
  | d :: ds, _, h => nodup_elements_addAll source ds (Forest.nodup_elements_add h source d)

theorem frontier_addAll (source : Option α) : ∀ (ds : List (Discovery α)) (w : WorkList α),
    (w.addAll source ds).frontier = w.frontier ++ w.addedBy source ds
  | [], w => (List.append_nil _).symm
  | d :: ds, w => by
    have ih := frontier_addAll source ds (w.add source d)
    unfold addedBy
    rw [← List.append_assoc]
    exact ih

theorem addedBy_congr (source : Option α) : ∀ (ds : List (Discovery α)) {w w' : WorkList α}, w.forest = w'.forest →
    w.addedBy source ds = w'.addedBy source ds
  | [], _, _, _ => rfl
  | d :: ds, w, w', h => by
    have ha : (w.add source d).forest = (w'.add source d).forest := by
      show w.forest.add source d = w'.forest.add source d
      rw [h]
    unfold addedBy
    rw [h, addedBy_congr source ds ha]

theorem evicted_addAll (source : Option α) : ∀ (ds : List (Discovery α)) (w : WorkList α),
    (w.addAll source ds).evicted = w.evicted
  | [], _ => rfl
  | d :: ds, w => evicted_addAll source ds (w.add source d)

/-! ## Calls on a new work list -/

variable {calls : List (Option α × Discovery α)}

/-- A work list after further calls, each with a source and a discovery. -/
def after (w : WorkList α) (calls : List (Option α × Discovery α)) : WorkList α :=
  calls.foldl (fun w c => w.addAll c.1 [c.2]) w

def ofCalls (calls : List (Option α × Discovery α)) : WorkList α := empty.after calls

def insertions (w : WorkList α) : List (Option α × Discovery α) → List (Insertion α)
  | [] => []
  | c :: calls => ⟨w.forest, c.1, c.2⟩ :: (w.addAll c.1 [c.2]).insertions calls

/-- Every source has a node when it is used. -/
def Rooted (calls : List (Option α × Discovery α)) : Prop :=
  ∀ e ∈ (empty : WorkList α).insertions calls, ∀ x, e.source = some x → x ∈ e.before.elements

theorem after_append (w : WorkList α) (calls more : List (Option α × Discovery α)) :
    w.after (calls ++ more) = (w.after calls).after more :=
  List.foldl_append

theorem addAll_eq_after (source : Option α) : ∀ (ds : List (Discovery α)) (w : WorkList α),
    w.addAll source ds = w.after (ds.map (source, ·))
  | [], _ => rfl
  | d :: ds, w => addAll_eq_after source ds (w.add source d)

theorem forest_after_congr : ∀ (calls : List (Option α × Discovery α)) {w w' : WorkList α}, w.forest = w'.forest →
    (w.after calls).forest = (w'.after calls).forest
  | [], _, _, h => h
  | c :: calls, w, w', h => by
    have hc : (w.addAll c.1 [c.2]).forest = (w'.addAll c.1 [c.2]).forest := by
      show w.forest.add c.1 c.2 = w'.forest.add c.1 c.2
      rw [h]
    exact forest_after_congr calls hc

theorem forest_addAll_congr (source : Option α) (ds : List (Discovery α)) {w w' : WorkList α}
    (h : w.forest = w'.forest) : (w.addAll source ds).forest = (w'.addAll source ds).forest := by
  rw [addAll_eq_after, addAll_eq_after]
  exact forest_after_congr _ h

theorem mem_elements_after (x : α) : ∀ (calls : List (Option α × Discovery α)) (w : WorkList α),
    x ∈ (w.after calls).forest.elements ↔ x ∈ w.forest.elements ∨ ∃ c ∈ calls, x ∈ c.2.vars
  | [], w => by simp [after]
  | c :: calls, w => by
    have ih := mem_elements_after x calls (w.addAll c.1 [c.2])
    have hadd : (w.addAll c.1 [c.2]).forest.elements = w.forest.elements ++ w.forest.created c.2 :=
      w.forest.elements_add c.1 c.2
    rw [hadd, List.mem_append, w.forest.mem_created] at ih
    refine ih.trans ?_
    simp only [List.mem_cons, exists_eq_or_imp]
    constructor
    · rintro ((h | ⟨h, -⟩) | h)
      · exact Or.inl h
      · exact Or.inr (Or.inl h)
      · exact Or.inr (Or.inr h)
    · rintro (h | h | h)
      · exact Or.inl (Or.inl h)
      · by_cases hx : x ∈ w.forest.elements
        · exact Or.inl (Or.inl hx)
        · exact Or.inl (Or.inr ⟨h, hx⟩)
      · exact Or.inr h

theorem mem_elements_ofCalls (x : α) :
    x ∈ (ofCalls calls).forest.elements ↔ ∃ c ∈ calls, x ∈ c.2.vars := by
  unfold ofCalls
  rw [mem_elements_after]
  exact or_iff_right (by simp [empty, Forest.empty, Forest.elements])

theorem insertions_append : ∀ (calls more : List (Option α × Discovery α)) (w : WorkList α),
    w.insertions (calls ++ more) = w.insertions calls ++ (w.after calls).insertions more
  | [], _, _ => rfl
  | c :: calls, more, w => congrArg (_ :: ·) (insertions_append calls more (w.addAll c.1 [c.2]))

/-- Insertions come with the calls, and their forests only grow. -/
theorem mem_insertions : ∀ (calls : List (Option α × Discovery α)) {w : WorkList α} {e : Insertion α},
    e ∈ w.insertions calls → (e.source, e.discovery) ∈ calls ∧ ∀ x ∈ w.forest.elements, x ∈ e.before.elements
  | [], w, e, he => absurd he (by simp [insertions])
  | c :: calls, w, e, he => by
    unfold insertions at he
    rcases List.mem_cons.1 he with rfl | he
    · exact ⟨List.mem_cons_self, fun _ hx => hx⟩
    · obtain ⟨hc, hgrow⟩ := mem_insertions calls he
      refine ⟨List.mem_cons_of_mem _ hc, fun x hx => hgrow x ?_⟩
      show x ∈ (w.forest.add c.1 c.2).elements
      rw [Forest.elements_add]
      exact List.mem_append_left _ hx

theorem Rooted.append (h : Rooted calls) {more : List (Option α × Discovery α)}
    (hm : ∀ c ∈ more, ∀ x, c.1 = some x → x ∈ (ofCalls calls).forest.elements) : Rooted (calls ++ more) := by
  intro e he x hx
  rw [insertions_append] at he
  rcases List.mem_append.1 he with he | he
  · exact h e he x hx
  · obtain ⟨hc, hgrow⟩ := mem_insertions more he
    exact hgrow x (hm _ hc x hx)

theorem grown_after : ∀ (calls : List (Option α × Discovery α)) {w : WorkList α} {es : List (Insertion α)},
    Forest.Grown es w.forest → (∀ e ∈ w.insertions calls, ∀ x, e.source = some x → x ∈ e.before.elements) →
      Forest.Grown (es ++ w.insertions calls) (w.after calls).forest
  | [], w, es, hg, _ => by
    unfold insertions
    rw [List.append_nil]
    exact hg
  | c :: calls, w, es, hg, hs => by
    unfold insertions at hs ⊢
    have ih := grown_after calls (w := w.addAll c.1 [c.2]) (hg.add c.1 c.2 fun x hx => hs _ List.mem_cons_self x hx)
      fun e he => hs e (List.mem_cons_of_mem _ he)
    rwa [List.append_assoc] at ih

theorem grown_ofCalls (h : Rooted calls) :
    Forest.Grown ((empty : WorkList α).insertions calls) (ofCalls calls).forest :=
  grown_after calls .empty h

theorem exists_insertion_of_mem {s : Option α} {d : Discovery α} : ∀ (calls : List (Option α × Discovery α))
    (w : WorkList α), (s, d) ∈ calls → ∃ e ∈ w.insertions calls, e.source = s ∧ e.discovery = d
  | [], _, h => absurd h (by simp)
  | c :: calls, w, h => by
    unfold insertions
    rcases List.mem_cons.1 h with rfl | h
    · exact ⟨_, List.mem_cons_self, rfl, rfl⟩
    · obtain ⟨e, he, hs, hd⟩ := exists_insertion_of_mem calls (w.addAll c.1 [c.2]) h
      exact ⟨e, List.mem_cons_of_mem _ he, hs, hd⟩

end WorkList

end NilFlow
