import NilFlow.Proofs.WorkList

/-!
# Implicit elements

An element is found implicitly or explicitly, several times. Which candidates decide how it is marked in the end?

* `Forest.mark?`: how an element is marked, if it has a node; `Forest.implicit_eq` ties it to `Forest.implicit`.
* `Forest.mark?_add`: an insertion marks a new element as its first candidate says, and clears the mark of an old one
  that it has an explicit candidate for.
* `WorkList.Overlooked`: an element's explicit candidates all stand behind an implicit one, in the discovery that first
  names it.
* `WorkList.implicit_ofCalls_iff`: only these, and elements without explicit candidates, are marked implicit.
-/

namespace NilFlow

variable {α : Type} [DecidableEq α]

/-! ## Marks -/

/-- How a node marks an element, if it holds it. -/
def ForestNode.mark? (n : ForestNode α) (v : α) : Option Bool :=
  match n.content with
  | .value w i => if w = v then some i else none
  | .union => none

namespace Discovery

def explicit (d : Discovery α) (v : α) : Bool := d.candidates.any fun c => c.var = v && !c.implicit

/-- How the first candidate of an element is marked. -/
def firstMark? (d : Discovery α) (v : α) : Option Bool := (d.candidates.find? (·.var = v)).map (·.implicit)

variable {d : Discovery α} {v : α}

theorem explicit_eq_false_iff : d.explicit v = false ↔ ∀ c ∈ d.candidates, c.var = v → c.implicit = true := by
  simp [explicit]

theorem exists_firstMark? (h : v ∈ d.vars) : ∃ i, d.firstMark? v = some i := by
  obtain ⟨c, hc, rfl⟩ := List.mem_map.1 h
  have hfound : (d.candidates.find? (·.var = c.var)).isSome := List.find?_isSome.2 ⟨c, hc, by simp⟩
  obtain ⟨first, hfirst⟩ := Option.isSome_iff_exists.1 hfound
  exact ⟨first.implicit, by rw [firstMark?, hfirst]; rfl⟩

theorem firstMark?_eq_true (hv : v ∈ d.vars) (h : d.explicit v = false) : d.firstMark? v = some true := by
  obtain ⟨i, hi⟩ := exists_firstMark? hv
  obtain ⟨c, hc, rfl⟩ := Option.map_eq_some_iff.1 hi
  have hvar : c.var = v := by simpa using List.find?_some hc
  rw [hi, explicit_eq_false_iff.1 h c (List.mem_of_find?_eq_some hc) hvar]

end Discovery

namespace Forest

variable {f : Forest α} {v : α}

/-- How an element is marked, if it has a node. -/
def mark? (f : Forest α) (v : α) : Option Bool := f.nodes.findSome? (·.mark? v)

theorem implicit_eq (f : Forest α) (v : α) : f.implicit v = (f.mark? v).getD false := by
  unfold implicit nodeOf? idOf? mark?
  induction f.nodes with
  | nil => rfl
  | cons n ns ih =>
    obtain ⟨content, parent⟩ := n
    rw [List.findIdx?_cons, List.findSome?_cons]
    cases content with
    | union => simpa [ForestNode.var?, ForestNode.mark?, Option.bind_map, Function.comp_def] using ih
    | value w i =>
      by_cases hw : w = v
      · simp [ForestNode.var?, ForestNode.mark?, hw]
      · simpa [ForestNode.var?, ForestNode.mark?, hw, Option.bind_map, Function.comp_def] using ih

theorem mark?_eq_none_iff : f.mark? v = none ↔ v ∉ f.elements := by
  unfold mark? elements
  rw [List.findSome?_eq_none_iff, List.mem_filterMap]
  push Not
  refine forall₂_congr fun n _ => ?_
  obtain ⟨content, parent⟩ := n
  cases content <;> simp [ForestNode.mark?, ForestNode.var?]

theorem find?_fresh (hv : v ∉ f.elements) (cs : List (Candidate α)) :
    (f.fresh cs).find? (·.var = v) = cs.find? (·.var = v) := by
  have hnew : f.contains v = false := by
    rw [← Bool.not_eq_true, f.contains_iff]
    exact hv
  suffices h : ∀ cs acc : List (Candidate α), (cs.foldl
      (fun acc c => if f.contains c.var || acc.any (·.var = c.var) then acc else acc ++ [c]) acc).find? (·.var = v) =
        (acc.find? (·.var = v)).or (cs.find? (·.var = v)) from h cs []
  intro cs
  induction cs with
  | nil => simp
  | cons c cs ih =>
    intro acc
    rw [List.foldl_cons, ih, List.find?_cons]
    by_cases hc : c.var = v
    · by_cases hacc : acc.any (·.var = v) = true
      · -- an earlier candidate stays in front
        have hsome : (acc.find? (·.var = v)).isSome := by
          rw [List.find?_isSome]
          simpa using hacc
        obtain ⟨first, hfirst⟩ := Option.isSome_iff_exists.1 hsome
        simp [hc, hacc, hfirst]
      · simp [hc, hnew, hacc]
    · split <;> simp [hc]

/-- An insertion keeps the mark of an old element, unless it has an explicit candidate for it, and marks a new one as
its first candidate says. -/
theorem mark?_add (f : Forest α) (source : Option α) (d : Discovery α) (v : α) :
    (f.add source d).mark? v = ((f.mark? v).map (· && !d.explicit v)).or (d.firstMark? v) := by
  have hold : (f.marked d.candidates).findSome? (·.mark? v) = (f.mark? v).map (· && !d.explicit v) := by
    unfold marked mark? Discovery.explicit
    rw [List.findSome?_map, List.map_findSome?]
    congr 1
    funext n
    obtain ⟨content, parent⟩ := n
    cases content with
    | union => rfl
    | value w i => by_cases hw : w = v <;> simp [ForestNode.mark?, hw]
  have hnew : ∀ (cs : List (Candidate α)) (p : Option Nat), (cs.map fun c =>
      (⟨.value c.var c.implicit, p⟩ : ForestNode α)).findSome? (·.mark? v) =
        (cs.find? (·.var = v)).map (·.implicit) := by
    intro cs p
    induction cs with
    | nil => rfl
    | cons c cs ih => by_cases hc : c.var = v <;> simp_all [ForestNode.mark?]
  have htop : ∀ (b : Bool) (p : Option Nat),
      (if b then [(⟨.union, p⟩ : ForestNode α)] else []).findSome? (·.mark? v) = none := by
    intro b p
    cases b <;> rfl
  have happ : (f.add source d).mark? v = ((f.mark? v).map (· && !d.explicit v)).or
      (((f.fresh d.candidates).find? (·.var = v)).map (·.implicit)) := by
    rw [← hold, ← hnew _ _]
    unfold add mark?
    rw [List.findSome?_append, List.findSome?_append, htop, Option.or_none]
  rw [happ]
  by_cases hv : v ∈ f.elements
  · -- an old element has a mark, so no first candidate counts
    obtain ⟨i, hi⟩ := Option.ne_none_iff_exists'.1 (mt mark?_eq_none_iff.1 (not_not.2 hv))
    rw [hi]
    rfl
  · rw [find?_fresh hv]
    rfl

end Forest

/-! ## Marks along a history -/

namespace WorkList

variable {calls : List (Option α × Discovery α)} {v : α}

theorem mark?_after : ∀ (calls : List (Option α × Discovery α)) {w : WorkList α} {i : Bool},
    w.forest.mark? v = some i → (w.after calls).forest.mark? v = some (i && calls.all fun c => !c.2.explicit v)
  | [], _, _, h => by simpa [after] using h
  | c :: calls, w, i, h => by
    have hadd : (w.addAll c.1 [c.2]).forest.mark? v = some (i && !c.2.explicit v) := by
      show (w.forest.add c.1 c.2).mark? v = _
      rw [Forest.mark?_add, h]
      rfl
    rw [List.all_cons, ← Bool.and_assoc]
    exact mark?_after calls hadd

/-- The discovery that first names an element marks it, and later ones with an explicit candidate clear the mark. -/
theorem implicit_ofCalls_append {before later : List (Option α × Discovery α)} {call : Option α × Discovery α}
    {i : Bool} (hbefore : ∀ c ∈ before, v ∉ c.2.vars) (hcall : call.2.firstMark? v = some i) :
    (ofCalls (before ++ call :: later)).forest.implicit v = (i && later.all fun c => !c.2.explicit v) := by
  have hnone : (ofCalls before).forest.mark? v = none := by
    rw [Forest.mark?_eq_none_iff, mem_elements_ofCalls]
    rintro ⟨c, hc, hv⟩
    exact hbefore c hc hv
  have hadd : ((ofCalls before).addAll call.1 [call.2]).forest.mark? v = some i := by
    show ((ofCalls before).forest.add call.1 call.2).mark? v = _
    rw [Forest.mark?_add, hnone, hcall]
    rfl
  have hlater : (ofCalls (before ++ call :: later)).forest.mark? v =
      some (i && later.all fun c => !c.2.explicit v) := by
    unfold ofCalls
    rw [after_append]
    exact mark?_after later hadd
  rw [Forest.implicit_eq, hlater]
  rfl

/-- Every candidate of an element is implicit. -/
def OnlyImplicit (calls : List (Option α × Discovery α)) (v : α) : Prop :=
  ∀ call ∈ calls, ∀ c ∈ call.2.candidates, c.var = v → c.implicit = true

/-- The explicit candidates of an element all stand behind an implicit one, in the discovery that first names it. -/
def Overlooked (calls : List (Option α × Discovery α)) (v : α) : Prop :=
  ∃ before call later, calls = before ++ call :: later ∧ (∀ c ∈ before, v ∉ c.2.vars) ∧
    call.2.firstMark? v = some true ∧ call.2.explicit v = true ∧ ∀ c ∈ later, c.2.explicit v = false

theorem onlyImplicit_iff : OnlyImplicit calls v ↔ ∀ call ∈ calls, call.2.explicit v = false :=
  forall₂_congr fun _ _ => Discovery.explicit_eq_false_iff.symm

theorem exists_first_naming (hv : v ∈ (ofCalls calls).forest.elements) : ∃ before call later,
    calls = before ++ call :: later ∧ (∀ c ∈ before, v ∉ c.2.vars) ∧ v ∈ call.2.vars := by
  obtain ⟨named, hnamed, hin⟩ := (mem_elements_ofCalls v).1 hv
  have hfound : (calls.find? fun c => v ∈ c.2.vars).isSome := List.find?_isSome.2 ⟨named, hnamed, by simpa using hin⟩
  obtain ⟨call, hcall⟩ := Option.isSome_iff_exists.1 hfound
  obtain ⟨hfirst, before, later, heq, hbefore⟩ := List.find?_eq_some_iff_append.1 hcall
  exact ⟨before, call, later, heq, by simpa using hbefore, by simpa using hfirst⟩

theorem Overlooked.implicit (h : Overlooked calls v) : (ofCalls calls).forest.implicit v = true := by
  obtain ⟨before, call, later, rfl, hbefore, hcall, -, hlater⟩ := h
  rw [implicit_ofCalls_append hbefore hcall]
  simpa using hlater

theorem OnlyImplicit.implicit (h : OnlyImplicit calls v) (hv : v ∈ (ofCalls calls).forest.elements) :
    (ofCalls calls).forest.implicit v = true := by
  rw [onlyImplicit_iff] at h
  obtain ⟨before, call, later, rfl, hbefore, hin⟩ := exists_first_naming hv
  have hcall : call.2.firstMark? v = some true := Discovery.firstMark?_eq_true hin (h call (by simp))
  rw [implicit_ofCalls_append hbefore hcall]
  simpa using fun s d hc => h (s, d) (by simp [hc])

theorem onlyImplicit_or_overlooked (hv : v ∈ (ofCalls calls).forest.elements)
    (h : (ofCalls calls).forest.implicit v = true) : OnlyImplicit calls v ∨ Overlooked calls v := by
  obtain ⟨before, call, later, rfl, hbefore, hin⟩ := exists_first_naming hv
  obtain ⟨i, hi⟩ := Discovery.exists_firstMark? hin
  rw [implicit_ofCalls_append hbefore hi, Bool.and_eq_true] at h
  obtain ⟨rfl, hlater⟩ := h
  have hlater : ∀ c ∈ later, c.2.explicit v = false := by simpa using hlater
  cases hexplicit : call.2.explicit v with
  | true => exact Or.inr ⟨before, call, later, rfl, hbefore, hi, hexplicit, hlater⟩
  | false =>
    refine Or.inl (onlyImplicit_iff.2 fun c hc => ?_)
    rcases List.mem_append.1 hc with hc | hc
    · rw [Discovery.explicit_eq_false_iff]
      exact fun x hx hvar => absurd (hvar ▸ List.mem_map_of_mem hx) (hbefore c hc)
    · rcases List.mem_cons.1 hc with rfl | hc
      · exact hexplicit
      · exact hlater c hc

theorem OnlyImplicit.not_overlooked (h : OnlyImplicit calls v) : ¬ Overlooked calls v := by
  rintro ⟨before, call, later, rfl, -, -, hexplicit, -⟩
  rw [onlyImplicit_iff.1 h call (by simp)] at hexplicit
  cases hexplicit

/-- An element is marked implicit exactly when all its candidates are implicit or, which excludes this, its explicit
ones are overlooked. -/
theorem implicit_ofCalls_iff (hv : v ∈ (ofCalls calls).forest.elements) :
    ((ofCalls calls).forest.implicit v = true ↔ OnlyImplicit calls v ∨ Overlooked calls v) ∧
      ¬ (OnlyImplicit calls v ∧ Overlooked calls v) :=
  ⟨⟨onlyImplicit_or_overlooked hv, fun h => h.elim (·.implicit hv) (·.implicit)⟩, fun h => h.1.not_overlooked h.2⟩

/-- Two candidates for 0 come in different discoveries, the explicit one last. Those for 1 come in one discovery, the
implicit one first. -/
def spread : List (Option Nat × Discovery Nat) :=
  [(none, ⟨[⟨0, true⟩], false⟩), (none, ⟨[⟨1, true⟩, ⟨1, false⟩], false⟩), (some 1, ⟨[⟨0, false⟩, ⟨1, true⟩], false⟩)]

/-- The explicit candidate for 0 wins, that for 1 is overlooked. -/
theorem implicit_spread : 0 ∈ (ofCalls spread).forest.elements ∧ 1 ∈ (ofCalls spread).forest.elements ∧
    (ofCalls spread).forest.implicit 0 = false ∧ (ofCalls spread).forest.implicit 1 = true := by
  have h0 : 0 ∈ (ofCalls spread).forest.elements := by decide
  have h1 : 1 ∈ (ofCalls spread).forest.elements := by decide
  refine ⟨h0, h1, Bool.eq_false_iff.2 fun himplicit => ?_, ?_⟩
  · rcases (implicit_ofCalls_iff h0).1.1 himplicit with honly | ⟨before, call, later, heq, hbefore, -, hexplicit, -⟩
    · exact absurd (honly spread[2] (by simp [spread]) ⟨0, false⟩ (by simp [spread]) rfl) (by simp)
    · -- 0 is first named without an explicit candidate
      cases before with
      | nil =>
        obtain ⟨rfl, -⟩ := List.cons.inj heq
        exact absurd hexplicit (by decide)
      | cons b before =>
        obtain ⟨rfl, -⟩ := List.cons.inj heq
        exact hbefore _ List.mem_cons_self (by decide)
  · have hsplit : spread = [spread[0]] ++ spread[1] :: [spread[2]] := rfl
    exact (implicit_ofCalls_iff h1).1.2 (Or.inr ⟨_, _, _, hsplit, by decide, rfl, rfl, by decide⟩)

/-- An explicit candidate behind an implicit one in the same discovery does not count. -/
theorem explicit_overlooked : ¬ ∀ (calls : List (Option Nat × Discovery Nat)) (v : Nat),
    v ∈ (ofCalls calls).forest.elements → ((ofCalls calls).forest.implicit v = true ↔ OnlyImplicit calls v) := by
  intro h
  have honly := (h [(none, ⟨[⟨0, true⟩, ⟨0, false⟩], false⟩)] 0 (by decide)).1 (by decide)
  exact absurd (honly _ List.mem_cons_self ⟨0, false⟩ (by simp) rfl) (by simp)

end WorkList

end NilFlow
