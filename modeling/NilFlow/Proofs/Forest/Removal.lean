import NilFlow.Proofs.Forest.WellFormed
import NilFlow.Proofs.WorkList

/-!
# What trimming removes and what it keeps

* `Forest.WellFormed.trimmed_eq_filter`, `Forest.WellFormed.elements_trim_eq_filter`: the removed elements and the
  survivors, each in the order of their discovery.
* `Forest.WellFormed.nodeOf?_trim`, `Forest.WellFormed.parent_moved`: the node of a survivor, and the node it hangs
  from, change in nothing but the numbers of parents.
* `WorkList.wellFormed_ofCalls`: the forest of every work list is well-formed, whatever the sources of its calls.
* `WorkList.trim_removes_downward_closure`: trimming removes what the given elements reach and changes nothing else.
-/

namespace NilFlow

/-- A sublist of a list without duplicates is what a test keeps that holds of its members alone. -/
theorem eq_filter_of_sublist {β : Type} {p : β → Bool} {s l : List β} (hs : s.Sublist l) (hl : l.Nodup)
    (hp : ∀ x ∈ l, p x = true ↔ x ∈ s) : s = l.filter p := by
  induction hs with
  | slnil => rfl
  | @cons s l a hs ih =>
    obtain ⟨ha, hl⟩ := List.nodup_cons.1 hl
    have hna : ¬ p a = true := fun h => ha (hs.subset ((hp a List.mem_cons_self).1 h))
    rw [List.filter_cons_of_neg hna]
    exact ih hl fun x hx => hp x (List.mem_cons_of_mem _ hx)
  | @cons_cons s l a hs ih =>
    obtain ⟨ha, hl⟩ := List.nodup_cons.1 hl
    rw [List.filter_cons_of_pos ((hp a List.mem_cons_self).2 List.mem_cons_self)]
    refine congrArg (a :: ·) (ih hl fun x hx => ?_)
    rw [hp x (List.mem_cons_of_mem _ hx), List.mem_cons]
    exact or_iff_right fun hxa => ha (hxa ▸ hx)

variable {α : Type} [DecidableEq α]

namespace Forest

variable {f : Forest α} {nr : List α} {v : α}

theorem trimmed_sublist (f : Forest α) (nr : List α) : (f.trimmed nr).Sublist f.elements := by
  have hout : f.trimmed nr = (f.nodes.zipIdx.filter fun c => !((f.surviving nr).map (·.2)).contains c.2).filterMap
      (fun c => c.1.var?) := by
    unfold trimmed
    rw [List.filterMap_filter]
    refine List.filterMap_congr ?_
    rintro ⟨n, i⟩ -
    dsimp only
    cases ((f.surviving nr).map (·.2)).contains i <;> rfl
  rw [hout, ← f.filterMap_var?_zipIdx]
  exact List.filter_sublist.filterMap _

namespace WellFormed

/-! ## Elements -/

open Classical in
theorem trimmed_eq_filter (h : f.WellFormed) (nr : List α) :
    f.trimmed nr = f.elements.filter fun v => ∃ u ∈ nr, f.Reaches u v := by
  refine eq_filter_of_sublist (f.trimmed_sublist nr) h.nodup fun v _ => ?_
  rw [decide_eq_true_eq, h.mem_trimmed_iff_reaches]

theorem elements_trim_eq_filter (h : f.WellFormed) (nr : List α) :
    (f.trim nr).elements = f.elements.filter fun v => v ∉ f.trimmed nr := by
  refine eq_filter_of_sublist (f.elements_trim_sublist nr) h.nodup fun v hv => ?_
  rw [decide_eq_true_eq, mem_trimmed_iff h.nodup]
  exact ⟨fun hn => not_not.1 fun hk => hn ⟨hv, hk⟩, fun hk hn => hn.2 hk⟩

/-! ## Nodes of survivors -/

theorem exists_id (h : f.WellFormed) (hv : v ∈ (f.trim nr).elements) : ∃ i x, f.idOf? v = some i ∧
    f.Alive nr i ∧ f.renumbered? nr i = some x ∧ (f.trim nr).idOf? v = some x := by
  obtain ⟨i, hi, hvar⟩ := (mem_elements_trim v).1 hv
  obtain ⟨x, hx⟩ := renumbered?_isSome.2 hi
  exact ⟨i, x, (idOf?_eq_some_iff h.nodup v i).2 hvar, hi, hx,
    (idOf?_eq_some_iff (h.trim nr).nodup v x).2 ((varAt?_trim hx).trans hvar)⟩

theorem nodeOf?_trim (h : f.WellFormed) (hv : v ∈ (f.trim nr).elements) :
    (f.trim nr).nodeOf? v = (f.nodeOf? v).map (f.moved nr) := by
  obtain ⟨i, x, hid, -, hx, hid'⟩ := h.exists_id hv
  unfold nodeOf?
  rw [hid, hid']
  exact getElem?_trim hx

theorem parent_moved (h : f.WellFormed) {i : Nat} {n : ForestNode α} (hi : f.Alive nr i) (hn : f.nodes[i]? = some n) :
    (f.moved nr n).parent.bind ((f.trim nr).nodes[·]?) = (n.parent.bind (f.nodes[·]?)).map (f.moved nr) := by
  unfold moved
  cases hp : n.parent with
  | none => rfl
  | some p =>
    have hpar : f.parentAt? i = some p := by
      unfold parentAt?
      rw [hn]
      exact hp
    obtain ⟨y, hy⟩ := renumbered?_isSome.2 (h.alive_parent hi hpar)
    simp only [Option.bind_some, hy]
    exact getElem?_trim hy

theorem parentNode?_trim (h : f.WellFormed) (hv : v ∈ (f.trim nr).elements) :
    (f.trim nr).parentNode? v = (f.parentNode? v).map (f.moved nr) := by
  obtain ⟨i, -, hid, hi, -⟩ := h.exists_id hv
  have hnode : f.nodeOf? v = f.nodes[i]? := by
    unfold nodeOf?
    rw [hid]
    rfl
  unfold parentNode?
  rw [h.nodeOf?_trim hv, hnode, List.getElem?_eq_getElem hi.lt]
  exact h.parent_moved hi (List.getElem?_eq_getElem hi.lt)

/-! ## Queries about survivors -/

theorem implicit_trim (h : f.WellFormed) (hv : v ∈ (f.trim nr).elements) : (f.trim nr).implicit v = f.implicit v := by
  unfold implicit
  rw [h.nodeOf?_trim hv, Option.map_map]
  rfl

theorem inUnion_trim (h : f.WellFormed) (hv : v ∈ (f.trim nr).elements) : (f.trim nr).inUnion v = f.inUnion v := by
  unfold inUnion
  rw [h.parentNode?_trim hv]
  cases f.parentNode? v <;> rfl

theorem exists_alive_parentNode (h : f.WellFormed) (hv : v ∈ (f.trim nr).elements) {p : ForestNode α}
    (hp : f.parentNode? v = some p) : ∃ j, f.Alive nr j ∧ f.nodes[j]? = some p := by
  obtain ⟨i, -, hid, hi, -⟩ := h.exists_id hv
  obtain ⟨j, hj, hnode⟩ := Option.bind_eq_some_iff.1 hp
  refine ⟨j, h.alive_parent hi ?_, hnode⟩
  unfold nodeOf? at hj
  rwa [hid] at hj

theorem parent?_trim (h : f.WellFormed) (hv : v ∈ (f.trim nr).elements) : (f.trim nr).parent? v = f.parent? v := by
  unfold parent?
  rw [h.parentNode?_trim hv]
  cases hp : f.parentNode? v with
  | none => rfl
  | some p =>
    obtain ⟨j, hj, hnode⟩ := h.exists_alive_parentNode hv hp
    have hvar : ∀ n : ForestNode α, (f.moved nr n).var? = n.var? := fun _ => rfl
    have hunion : (f.moved nr p).isUnion = p.isUnion := rfl
    simp only [Option.map_some, hunion, hvar, h.parent_moved hj hnode, Option.map_map, Function.comp_def]

/-- The element that a survivor was discovered from survives. -/
theorem parent_mem_elements_trim (h : f.WellFormed) (hv : v ∈ (f.trim nr).elements) {u : α}
    (hu : f.parent? v = some (some u)) : u ∈ (f.trim nr).elements := by
  have hmem : ∀ {j n}, f.Alive nr j → f.nodes[j]? = some n → n.var? = some u → u ∈ (f.trim nr).elements := by
    intro j n hj hn hvar
    refine (mem_elements_trim u).2 ⟨j, hj, ?_⟩
    unfold varAt?
    rw [hn]
    exact hvar
  unfold parent? at hu
  cases hp : f.parentNode? v with
  | none => simp [hp] at hu
  | some p =>
    obtain ⟨j, hj, hnode⟩ := h.exists_alive_parentNode hv hp
    simp only [hp] at hu
    split_ifs at hu with hunion
    · obtain ⟨n, hn, hvar⟩ := Option.map_eq_some_iff.1 hu
      obtain ⟨k, hk, hnk⟩ := Option.bind_eq_some_iff.1 hn
      have hpar : f.parentAt? j = some k := by
        unfold parentAt?
        rw [hnode]
        exact hk
      exact hmem (h.alive_parent hj hpar) hnk hvar
    · exact hmem hj hnode (Option.some.inj hu)

/-- What was removed is gone, so removing it again changes nothing. -/
theorem trim_trim (h : f.WellFormed) (nr : List α) : (f.trim nr).trim nr = f.trim nr :=
  (h.trim nr).trim_eq_self fun _ hv => not_mem_elements_trim h.nodup hv

theorem trimmed_trim (h : f.WellFormed) (nr : List α) : (f.trim nr).trimmed nr = [] := by
  refine List.eq_nil_iff_forall_not_mem.2 fun v hv => ?_
  rw [mem_trimmed_iff (h.trim nr).nodup, h.trim_trim] at hv
  exact hv.2 hv.1

end WellFormed

end Forest

/-! ## Every history of calls -/

namespace WorkList

theorem wellFormed_after : ∀ (calls : List (Option α × Discovery α)) {w : WorkList α}, w.forest.WellFormed →
    (w.after calls).forest.WellFormed
  | [], _, h => h
  | c :: calls, w, h => wellFormed_after calls (Insertion.wellFormed_after (e := ⟨w.forest, c.1, c.2⟩) h)

theorem wellFormed_ofCalls (calls : List (Option α × Discovery α)) : (ofCalls calls).forest.WellFormed :=
  wellFormed_after calls Forest.wellFormed_empty

open Classical in
/-- Trimming the forest of any calls removes, in the order of discovery, what the elements to remove reach over children
and links. The survivors keep their order and all that is known of them, and a survivor was discovered from a survivor.
Trimmed again, the forest stays as it is. -/
theorem trim_removes_downward_closure (calls : List (Option α × Discovery α)) (nr : List α) :
    let f := (ofCalls calls).forest
    f.trimmed nr = f.elements.filter (fun v => ∃ u ∈ nr, f.Reaches u v) ∧
      (f.trim nr).elements = f.elements.filter (fun v => v ∉ f.trimmed nr) ∧
      (∀ v ∈ (f.trim nr).elements, (f.trim nr).parent? v = f.parent? v ∧ (f.trim nr).inUnion v = f.inUnion v ∧
        (f.trim nr).implicit v = f.implicit v ∧
        ∀ u, f.parent? v = some (some u) → u ∈ (f.trim nr).elements) ∧
      (f.trim nr).trimmed nr = [] ∧ (f.trim nr).trim nr = f.trim nr := by
  intro f
  have h : f.WellFormed := wellFormed_ofCalls calls
  refine ⟨h.trimmed_eq_filter nr, ?_, fun v hv => ?_, h.trimmed_trim nr, h.trim_trim nr⟩
  · convert h.elements_trim_eq_filter nr
  · exact ⟨h.parent?_trim hv, h.inUnion_trim hv, h.implicit_trim hv, fun u => h.parent_mem_elements_trim hv⟩

end WorkList

end NilFlow
