import NilFlow.Proofs.Flow.Seeding
import NilFlow.Proofs.Harvest.Certificate

/-!
# The order of a root's nodes

* `Classifier.AtFault`: a variable is ruled out on its own account: by seeding, or by its own search.
* `Classifier.Collateral`: a variable is ruled out on the account of others.
* `Classifier.Completes.tainted`: whatever the order, only what can be ruled out is.
* `Classifier.OwnFaults`: what can be ruled out is so on its own account in every order;
  `Classifier.Completes.mem_ruledOut_iff_tainted` says that then all of it is.
* `Classifier.NothingLost`: no union that went with all its new elements leaves other members apart.
* `Classifier.harvest_order`: how the harvests for two orders of the same nodes compare.
-/

namespace NilFlow

/-- Two harvests have the same groups, as sets of variables. -/
def Harvest.SameGroups (h h' : Harvest) : Prop :=
  (∀ g ∈ h.groups, ∃ g' ∈ h'.groups, ∀ v, v ∈ g.vars ↔ v ∈ g'.vars) ∧
    ∀ g' ∈ h'.groups, ∃ g ∈ h.groups, ∀ v, v ∈ g.vars ↔ v ∈ g'.vars

namespace Classifier

variable {k : Classifier} {root root' : Root} {polls polls' : Option Nat} {served served' : List Variable}
  {last last' : Run} {h h' : Harvest} {x v a b : Variable}

/-! ## Members of groups -/

namespace Completes

/-- What holds of the members among the seeds, and of the members that the search of another such member finds, holds of
all members. -/
theorem grouped_induction {P : Variable → Prop} (hc : k.Completes root polls served last h)
    (hseed : ∀ x, h.Grouped x → x ∈ (k.seed root).1.flow.vars → P x)
    (hstep : ∀ y x, h.Grouped y → P y → h.Grouped x → x ∈ k.finds y → P x) (hx : h.Grouped x) : P x := by
  have ht := hc.trace
  have hmem : x ∈ last.work.forest.elements := (Forest.elements_trim_sublist _ _).mem (hc.mem_trim_iff.1 hx)
  refine ht.grown.elements_induction (P := fun x => h.Grouped x → P x) ?_ x hmem hx
  intro e he x hvar hsource hx
  rcases hc.candidate_cases he hvar hx with hs | ⟨y, -, hs, hy, -, hf⟩
  · exact hseed x hx hs
  · exact hstep y x hy (hsource y hs hy) hx hf

/-- Members of one harvest's groups that another one cannot rule out, and neither the members that lead to them, are
members there. -/
theorem grouped_mono {P : Variable → Prop} (hc : k.Completes root polls served last h)
    (hc' : k.Completes root' polls' served' last' h') (hs : (k.seed root).1.Within (k.seed root').1)
    (hback : ∀ y x, h.Grouped y → x ∈ k.finds y → P x → P y) (hout : ∀ x, P x → x ∉ h'.ruledOut)
    (hx : h.Grouped x) (hp : P x) : h'.Grouped x := by
  refine hc.grouped_induction (P := fun x => P x → h'.Grouped x) (fun x _ hseed hp => ?_)
    (fun y x hy ih _ hf hp => ?_) hx hp
  · exact (hc'.grouped_or_ruledOut (hc'.trace.mem_elements.2 (Or.inl (hs.vars hseed)))).resolve_right (hout x hp)
  · exact (hc'.found (ih (hback y x hy hf hp)) hf).resolve_right (hout x hp)

/-- Where neither of two harvests rules out what the other one groups, the members are the same. -/
theorem grouped_congr (hc : k.Completes root polls served last h) (hc' : k.Completes root' polls' served' last' h')
    (hs : (k.seed root).1.Within (k.seed root').1) (hs' : (k.seed root').1.Within (k.seed root).1)
    (hout : ∀ x, h.Grouped x → x ∉ h'.ruledOut) (hout' : ∀ x, h'.Grouped x → x ∉ h.ruledOut) (x : Variable) :
    h.Grouped x ↔ h'.Grouped x := by
  constructor
  · intro hx
    exact hc.grouped_mono hc' hs (fun _ _ hy _ _ => hy) hout hx hx
  · intro hx
    exact hc'.grouped_mono hc hs' (fun _ _ hy _ _ => hy) hout' hx hx

end Completes

/-! ## Ruled out on one's own account -/

/-- A variable is ruled out on its own account: by seeding, or because its search fails, where it is a seed or the
search of a group's member finds it. -/
def AtFault (k : Classifier) (root : Root) (h : Harvest) (x : Variable) : Prop :=
  x ∈ (k.seed root).1.ruledOut ∨
    ¬ k.Passes x ∧ (x ∈ (k.seed root).1.flow.vars ∨ ∃ y, h.Grouped y ∧ x ∈ k.finds y)

/-- A variable is ruled out on the account of others. -/
def Collateral (k : Classifier) (root : Root) (h : Harvest) (x : Variable) : Prop :=
  x ∈ h.ruledOut ∧ ¬ k.AtFault root h x

theorem Completes.mem_ruledOut_of_atFault (hc : k.Completes root polls served last h) (hx : k.AtFault root h x) :
    x ∈ h.ruledOut := by
  rcases hx with hx | ⟨hp, hx⟩
  · exact hc.mem_ruledOut_iff.2 (Or.inl (hc.trace.seeded x hx))
  · have hfound : h.Grouped x ∨ x ∈ h.ruledOut := by
      rcases hx with hx | ⟨y, hy, hx⟩
      · exact hc.grouped_or_ruledOut (hc.trace.mem_elements.2 (Or.inl hx))
      · exact hc.found hy hx
    exact hfound.resolve_left fun hg => hp (hc.served_once hg).2

theorem AtFault.mono (hs : (k.seed root).1.Within (k.seed root').1) (hgroup : ∀ x, h.Grouped x → h'.Grouped x)
    (hx : k.AtFault root h x) : k.AtFault root' h' x := by
  rcases hx with hx | ⟨hp, hx | ⟨y, hy, hx⟩⟩
  · exact Or.inl (hs.ruledOut x hx)
  · exact Or.inr ⟨hp, Or.inl (hs.vars hx)⟩
  · exact Or.inr ⟨hp, Or.inr ⟨y, hgroup y hy, hx⟩⟩

/-- A member of one harvest's groups that another one rules out is ruled out there on the account of others. -/
theorem Completes.collateral_of_grouped (hc : k.Completes root polls served last h)
    (hs : (k.seed root').1.Within (k.seed root).1) (hx : h.Grouped x) (hx' : x ∈ h'.ruledOut) :
    k.Collateral root' h' x := by
  refine ⟨hx', ?_⟩
  rintro (hx' | ⟨hp, -⟩)
  · exact hc.not_mem_ruledOut hx (hc.mem_ruledOut_of_atFault (Or.inl (hs.ruledOut x hx')))
  · exact hp (hc.served_once hx).2

/-- Where the members of groups are the same, what one harvest rules out another one does, if it does so with what the
first one rules out on the account of others. -/
theorem Completes.mem_ruledOut_mono (hc' : k.Completes root' polls' served' last' h')
    (hs : (k.seed root).1.Within (k.seed root').1) (hgroup : ∀ x, h.Grouped x → h'.Grouped x)
    (hcol : ∀ x, k.Collateral root h x → x ∈ h'.ruledOut) (hx : x ∈ h.ruledOut) : x ∈ h'.ruledOut := by
  by_cases hf : k.AtFault root h x
  · exact hc'.mem_ruledOut_of_atFault (hf.mono hs hgroup)
  · exact hcol x ⟨hx, hf⟩

/-! ## What no order rules out -/

theorem Reachable.mono {s t : Seeds} (hs : s.Within t) (hx : k.Reachable s x) : k.Reachable t x := by
  induction hx with
  | seed hx => exact .seed (hs.vars hx)
  | found _ hp hx ih => exact ih.found hp hx

theorem Tainted.mono {s t : Seeds} (hs : s.Within t) (hx : k.Tainted s x) : k.Tainted t x := by
  induction hx with
  | seeded hx => exact .seeded (hs.ruledOut _ hx)
  | failed hr hp => exact .failed (hr.mono hs) hp
  | found _ hx ih => exact ih.found hx
  | together _ hd hy hx ih => exact ih.together (hs.discoveries _ hd) hy hx

namespace Completes

theorem tainted (hc : k.Completes root polls served last h) (hx : x ∈ h.ruledOut) : k.Tainted (k.seed root).1 x := by
  have ht := hc.trace
  rcases hc.mem_ruledOut_iff.1 hx with hx | hx
  · exact ht.tainted x hx
  · obtain ⟨hmem, hr⟩ := (Forest.mem_trimmed_iff ht.grown.nodup x).1 hx
    exact ht.grown.removed_induction ht.tainted (fun e he u x hl hu => hu.leads he hl) hmem hr

/-- A member that another harvest with the same seeds cannot rule out is a member there. -/
theorem grouped_of_not_tainted (hc : k.Completes root polls served last h)
    (hc' : k.Completes root' polls' served' last' h') (hs : (k.seed root).1.Within (k.seed root').1)
    (hx : h.Grouped x) (ht : ¬ k.Tainted (k.seed root').1 x) : h'.Grouped x := by
  refine hc.grouped_mono (P := fun x => ¬ k.Tainted (k.seed root').1 x) hc' hs ?_ (fun x ht hx => ?_) hx ht
  -- a tainted member taints what it finds
  · intro y x _ hf ht hy
    exact ht (hy.found hf)
  · exact ht (hc'.tainted hx)

/-- What can be reached is a member of a group, if neither it nor what leads to it is ruled out. -/
theorem grouped_of_reachable_of {P : Variable → Prop} (hc : k.Completes root polls served last h)
    (hback : ∀ y x, x ∈ k.finds y → P x → P y) (hout : ∀ x, P x → x ∉ h.ruledOut)
    (hx : k.Reachable (k.seed root).1 x) (hp : P x) : h.Grouped x := by
  induction hx with
  | seed hx => exact (hc.grouped_or_ruledOut (hc.trace.mem_elements.2 (Or.inl hx))).resolve_right (hout _ hp)
  | @found x y _ _ hx ih => exact (hc.found (ih (hback y x hx hp)) hx).resolve_right (hout x hp)

/-- When nothing is ruled out, what can be reached is a member of a group. -/
theorem grouped_of_reachable (hc : k.Completes root polls served last h) (hnone : ∀ x, x ∉ h.ruledOut)
    (hx : k.Reachable (k.seed root).1 x) : h.Grouped x :=
  hc.grouped_of_reachable_of (P := fun _ => True) (fun _ _ _ h => h) (fun x _ => hnone x) hx trivial

theorem not_tainted (hc : k.Completes root polls served last h) (hnone : ∀ x, x ∉ h.ruledOut) :
    ¬ k.Tainted (k.seed root).1 x := by
  intro hx
  induction hx with
  | seeded hx => exact hnone _ (hc.mem_ruledOut_of_atFault (Or.inl hx))
  | failed hr hp => exact hp (hc.served_once (hc.grouped_of_reachable hnone hr)).2
  | found _ _ ih => exact ih
  | together _ _ _ _ ih => exact ih

end Completes

/-- Whatever can be ruled out is so on its own account, in every order: seeding rules it out, or its search fails, where
it is a seed or a variable finds it that can be reached and cannot be ruled out. -/
def OwnFaults (k : Classifier) (s : Seeds) : Prop := ∀ x, k.Tainted s x → x ∈ s.ruledOut ∨
  ¬ k.Passes x ∧ (x ∈ s.flow.vars ∨ ∃ y, k.Reachable s y ∧ ¬ k.Tainted s y ∧ x ∈ k.finds y)

theorem OwnFaults.congr {s t : Seeds} (hst : s.Within t) (hts : t.Within s) (h : k.OwnFaults s) : k.OwnFaults t := by
  intro x hx
  rcases h x (hx.mono hts) with hx | ⟨hp, hx | ⟨y, hy, ht, hx⟩⟩
  · exact Or.inl (hst.ruledOut x hx)
  · exact Or.inr ⟨hp, Or.inl (hst.vars hx)⟩
  · exact Or.inr ⟨hp, Or.inr ⟨y, hy.mono hst, fun hy => ht (hy.mono hts), hx⟩⟩

/-- Where whatever can be ruled out is so on its own account, all of it is ruled out. -/
theorem Completes.mem_ruledOut_iff_tainted (hc : k.Completes root polls served last h)
    (hown : k.OwnFaults (k.seed root).1) : x ∈ h.ruledOut ↔ k.Tainted (k.seed root).1 x := by
  refine ⟨hc.tainted, fun ht => hc.mem_ruledOut_of_atFault ?_⟩
  rcases hown x ht with hx | ⟨hp, hx | ⟨y, hy, ht, hx⟩⟩
  · exact Or.inl hx
  · exact Or.inr ⟨hp, Or.inl hx⟩
  · refine Or.inr ⟨hp, Or.inr ⟨y, ?_, hx⟩⟩
    exact hc.grouped_of_reachable_of (P := fun x => ¬ k.Tainted (k.seed root).1 x)
      (fun _ _ hf hx hy => hx (hy.found hf)) (fun _ hx hr => hx (hc.tainted hr)) hy ht

/-! ## Members of one group -/

/-- In the run that gave the harvest, no union that went with all its new elements left other members in different
groups. -/
def NothingLost (k : Classifier) (root : Root) (polls : Option Nat) (h : Harvest) : Prop :=
  ∃ served last, k.Completes root polls served last h ∧
    ∀ e ∈ WorkList.empty.insertions (k.calls (k.seed root).1 served), e.Lost h.Grouped →
      ∀ a b, e.Member a → e.Member b → h.Grouped a → h.Grouped b → h.SameGroup a b

namespace Completes

/-- A discovery of members is also made in another harvest where they are members. -/
theorem mem_calls_mono (hc : k.Completes root polls served last h) (hc' : k.Completes root' polls' served' last' h')
    (hs : (k.seed root).1.Within (k.seed root').1) (hgroup : ∀ x, h.Grouped x → h'.Grouped x)
    {c : Option Variable × Discovery Variable} (hcall : c ∈ k.calls (k.seed root).1 served) (hv : v ∈ c.2.vars)
    (hx : h.Grouped v) : c ∈ k.calls (k.seed root').1 served' := by
  obtain ⟨source, d⟩ := c
  rcases mem_calls.1 hcall with ⟨hn, hd⟩ | ⟨y, -, -, rfl, hd⟩
  · exact mem_calls.2 (Or.inl ⟨hn, hs.discoveries d hd⟩)
  · have hy : h.Grouped y := hc.grouped_iff.2 ((hc.grouped_iff.1 hx).source hc.trace.rooted hcall hv)
    exact hc'.discovery_mem_calls (hgroup y hy) hd

theorem bound_mono (hc : k.Completes root polls served last h) (hc' : k.Completes root' polls' served' last' h')
    (hs : (k.seed root).1.Within (k.seed root').1) (hgroup : ∀ x, h.Grouped x → h'.Grouped x)
    (hab : WorkList.Bound (k.calls (k.seed root).1 served) last.ruledOut a b) :
    WorkList.Bound (k.calls (k.seed root').1 served') last'.ruledOut a b := by
  obtain ⟨ha, hb, c, hcall, hmem⟩ := hab
  have hga := hc.grouped_iff.2 ha
  have hgb := hc.grouped_iff.2 hb
  refine ⟨hc'.grouped_iff.1 (hgroup a hga), hc'.grouped_iff.1 (hgroup b hgb), c, ?_, hmem⟩
  rcases hmem with ⟨hm, -⟩ | ⟨-, hm⟩ | ⟨hm, -⟩
  · exact hc.mem_calls_mono hc' hs hgroup hcall hm hga
  · exact hc.mem_calls_mono hc' hs hgroup hcall hm hgb
  · exact hc.mem_calls_mono hc' hs hgroup hcall hm hga

/-- Members of one group are members of one group in another harvest that has all members and lost nothing. -/
theorem sameGroup_mono (hc : k.Completes root polls served last h) (hlost : k.NothingLost root' polls' h')
    (hs : (k.seed root).1.Within (k.seed root').1) (hgroup : ∀ x, h.Grouped x → h'.Grouped x)
    (hab : h.SameGroup a b) : h'.SameGroup a b := by
  obtain ⟨served', last', hc', hlost⟩ := hlost
  have hlives : h'.Grouped = WorkList.Survives (k.calls (k.seed root').1 served') last'.ruledOut :=
    funext fun x => propext hc'.grouped_iff
  have hbound := WorkList.eqvGen_bound_of_joined hc.trace.rooted (hc.sameGroup_iff.1 hab)
  have hbound := hbound.mono fun a b => hc.bound_mono hc' hs hgroup
  obtain ⟨g, hg, ha, -⟩ := hab
  rw [hc'.sameGroup_iff]
  refine WorkList.joined_of_eqvGen_bound hc'.trace.rooted ?_ hbound (hc'.grouped_iff.1 (hgroup a ⟨g, hg, ha⟩))
  intro e he hl a b hma hmb ha hb
  rw [← hlives] at hl ha hb
  exact hc'.sameGroup_iff.1 (hlost e he hl a b hma hmb ha hb)

theorem nothingLost (hc : k.Completes root polls served last h) (hnone : ∀ x, x ∉ h.ruledOut) :
    k.NothingLost root polls h := by
  refine ⟨served, last, hc, fun e he hl => ?_⟩
  obtain ⟨v, hv⟩ := Insertion.exists_created_of_gathers hl.1
  have hcall := (WorkList.mem_insertions _ he).1
  have hmem : v ∈ last.work.forest.elements := by
    rw [hc.trace.forest, WorkList.mem_elements_ofCalls]
    exact ⟨_, hcall, Forest.mem_vars_of_mem_created hv⟩
  exact absurd ((hc.grouped_or_ruledOut hmem).resolve_right (hnone v)) (hl.2 v hv)

theorem exists_group (hc : k.Completes root polls served last h) (hc' : k.Completes root' polls' served' last' h')
    (hsame : ∀ a b, h.SameGroup a b ↔ h'.SameGroup a b) {g : Group} (hg : g ∈ h.groups) :
    ∃ g' ∈ h'.groups, ∀ v, v ∈ g.vars ↔ v ∈ g'.vars := by
  obtain ⟨a, ha⟩ := List.exists_mem_of_ne_nil _ (hc.vars_ne_nil hg)
  obtain ⟨g', hg', ha', -⟩ := (hsame a a).1 ⟨g, hg, ha, ha⟩
  refine ⟨g', hg', fun v => ⟨fun hv => ?_, fun hv => ?_⟩⟩
  · obtain ⟨g₁, hg₁, ha₁, hv₁⟩ := (hsame a v).1 ⟨g, hg, ha, hv⟩
    rwa [hc'.group_unique hg' hg₁ ha' ha₁]
  · obtain ⟨g₁, hg₁, ha₁, hv₁⟩ := (hsame a v).2 ⟨g', hg', ha', hv⟩
    rwa [hc.group_unique hg hg₁ ha ha₁]

theorem sameGroups (hc : k.Completes root polls served last h) (hc' : k.Completes root' polls' served' last' h')
    (hsame : ∀ a b, h.SameGroup a b ↔ h'.SameGroup a b) : h.SameGroups h' := by
  refine ⟨fun g hg => hc.exists_group hc' hsame hg, fun g' hg' => ?_⟩
  obtain ⟨g, hg, hv⟩ := hc'.exists_group hc (fun a b => (hsame a b).symm) hg'
  exact ⟨g, hg, fun v => (hv v).symm⟩

end Completes

/-! ## Two orders -/

namespace Completes

/-- Two harvests rule out the same variables when each rules out what the other one rules out on the account of
others. -/
theorem ruledOut_congr_iff (hc : k.Completes root polls served last h) (hc' : k.Completes root' polls' served' last' h')
    (hs : (k.seed root).1.Within (k.seed root').1) (hs' : (k.seed root').1.Within (k.seed root).1) :
    (∀ x, x ∈ h.ruledOut ↔ x ∈ h'.ruledOut) ↔
      (∀ x, k.Collateral root h x → x ∈ h'.ruledOut) ∧ ∀ x, k.Collateral root' h' x → x ∈ h.ruledOut := by
  constructor
  · intro hsame
    exact ⟨fun x hx => (hsame x).1 hx.1, fun x hx => (hsame x).2 hx.1⟩
  · rintro ⟨hkept, hkept'⟩ x
    -- what one order groups, the other one cannot rule out, for it would be on the account of others
    have hgroup := hc.grouped_congr hc' hs hs'
      (fun x hx hx' => hc.not_mem_ruledOut hx (hkept' x (hc.collateral_of_grouped hs' hx hx')))
      fun x hx hx' => hc'.not_mem_ruledOut hx (hkept x (hc'.collateral_of_grouped hs hx hx'))
    exact ⟨hc'.mem_ruledOut_mono hs (fun x => (hgroup x).1) hkept,
      hc.mem_ruledOut_mono hs' (fun x => (hgroup x).2) hkept'⟩

theorem groups_congr (hc : k.Completes root polls served last h) (hc' : k.Completes root' polls' served' last' h')
    (hs : (k.seed root).1.Within (k.seed root').1) (hs' : (k.seed root').1.Within (k.seed root).1)
    (hsame : ∀ x, x ∈ h.ruledOut ↔ x ∈ h'.ruledOut) : (∀ x, h.Grouped x ↔ h'.Grouped x) ∧
      (k.NothingLost root polls h → k.NothingLost root' polls' h' → h.SameGroups h') := by
  have hgroup := hc.grouped_congr hc' hs hs' (fun x hx hx' => hc.not_mem_ruledOut hx ((hsame x).2 hx'))
    fun x hx hx' => hc'.not_mem_ruledOut hx ((hsame x).1 hx')
  refine ⟨hgroup, fun hlost hlost' => hc.sameGroups hc' fun a b => ?_⟩
  exact ⟨hc.sameGroup_mono hlost' hs fun x => (hgroup x).1, hc'.sameGroup_mono hlost hs' fun x => (hgroup x).2⟩

end Completes

/-- For two orders of the same nodes, when the harvest is complete for both:

1. what cannot be ruled out is not ruled out, and is a member of a group for both orders or for none;
2. both rule out the same variables exactly when each rules out what the other one rules out on the account of others,
   and only on the account of others is a variable ruled out that the other order groups;
3. when both rule out the same variables, the members of groups are the same, and so are the groups if nothing was lost;
4. when one rules out nothing, neither does the other one, and the groups are the same;
5. when whatever can be ruled out is so on its own account, both rule out just that. -/
theorem harvest_order (hroot : root.nodes.Perm root'.nodes) (hh : k.harvest root polls = .ok h)
    (hcomplete : h.complete = true) (hh' : k.harvest root' polls' = .ok h') (hcomplete' : h'.complete = true) :
    (∀ x, ¬ k.Tainted (k.seed root).1 x → x ∉ h.ruledOut ∧ x ∉ h'.ruledOut ∧ (h.Grouped x ↔ h'.Grouped x)) ∧
    (((∀ x, x ∈ h.ruledOut ↔ x ∈ h'.ruledOut) ↔
        (∀ x, k.Collateral root h x → x ∈ h'.ruledOut) ∧ ∀ x, k.Collateral root' h' x → x ∈ h.ruledOut) ∧
      ∀ x, h.Grouped x → x ∈ h'.ruledOut → k.Collateral root' h' x) ∧
    ((∀ x, x ∈ h.ruledOut ↔ x ∈ h'.ruledOut) → (∀ x, h.Grouped x ↔ h'.Grouped x) ∧
      (k.NothingLost root polls h → k.NothingLost root' polls' h' → h.SameGroups h')) ∧
    ((∀ x, x ∉ h.ruledOut) → (∀ x, x ∉ h'.ruledOut) ∧ h.SameGroups h') ∧
    (k.OwnFaults (k.seed root).1 → ∀ x, (x ∈ h.ruledOut ↔ k.Tainted (k.seed root).1 x) ∧
      (x ∈ h'.ruledOut ↔ k.Tainted (k.seed root).1 x)) := by
  obtain ⟨served, last, hc⟩ := harvest_complete_iff.1 ⟨hh, hcomplete⟩
  obtain ⟨served', last', hc'⟩ := harvest_complete_iff.1 ⟨hh', hcomplete'⟩
  obtain ⟨first, hb, -⟩ := hc.rounds
  obtain ⟨first', hb', -⟩ := hc'.rounds
  have hs := seed_perm hroot (begins_cases hb).1 (begins_cases hb').1
  have hs' := seed_perm hroot.symm (begins_cases hb').1 (begins_cases hb).1
  refine ⟨fun x hx => ?_, ⟨hc.ruledOut_congr_iff hc' hs hs', fun x hx hx' => hc.collateral_of_grouped hs' hx hx'⟩,
    hc.groups_congr hc' hs hs', fun hnone => ?_, fun hown x => ?_⟩
  · have hx' : ¬ k.Tainted (k.seed root').1 x := fun ht => hx (ht.mono hs')
    exact ⟨fun hr => hx (hc.tainted hr), fun hr => hx' (hc'.tainted hr),
      fun hg => hc.grouped_of_not_tainted hc' hs hg hx', fun hg => hc'.grouped_of_not_tainted hc hs' hg hx⟩
  · have hnone' : ∀ x, x ∉ h'.ruledOut := fun x hx => hc.not_tainted hnone ((hc'.tainted hx).mono hs')
    have hgroups := hc.groups_congr hc' hs hs' fun x => iff_of_false (hnone x) (hnone' x)
    exact ⟨hnone', hgroups.2 (hc.nothingLost hnone) (hc'.nothingLost hnone')⟩
  · refine ⟨hc.mem_ruledOut_iff_tainted hown, (hc'.mem_ruledOut_iff_tainted (hown.congr hs hs')).trans ?_⟩
    exact ⟨fun hx => hx.mono hs', fun hx => hx.mono hs⟩

end Classifier

namespace TwoPackages

/-- With the client first, `C` has no node when `A` is rejected, and is ruled out with it. -/
theorem completes_backward : ∃ last h, classifier.Completes backward none [varA, varB] last h ∧
    last.ruledOut = [varA, varC] := by
  have hseeds : (classifier.seed backward).1.flow.discoveries =
      [⟨[⟨varA, true⟩], false⟩, ⟨[⟨varB, true⟩], false⟩] := by decide +kernel
  have hout : (classifier.seed backward).1.ruledOut = [] := by decide +kernel
  obtain ⟨r₀, hb, hp₀, ho₀, hw₀⟩ := classifier.exists_begins backward (by decide +kernel)
    ⟨varB, by decide +kernel, by decide +kernel⟩
  have hn₀ : r₀.work.next? =
      some (varA, ⟨⟨[⟨.value varA true, none⟩, ⟨.value varB true, none⟩], []⟩, [varB], []⟩) := by
    rw [hw₀, hseeds, hout]
    rfl
  obtain ⟨-, f, hf, hfatal⟩ := searchA
  obtain ⟨r₁, hr₁, hp₁, ho₁, hw₁⟩ := Classifier.exists_round_of_failure hn₀ hp₀ hf hfatal
  have hrej : Classifier.rejected { r₀ with work := ⟨⟨[⟨.value varA true, none⟩, ⟨.value varB true, none⟩], []⟩,
      [varB], []⟩ } varA (classifier.searchVariable varA).flow = [varA, varC] := by
    unfold Classifier.rejected
    dsimp only
    decide +kernel
  rw [hrej] at ho₁ hw₁
  have ho₁ : r₁.ruledOut = [varA, varC] := by
    rw [ho₁, ho₀, hout]
    rfl
  have hn₁ : r₁.work.next? =
      some (varB, ⟨⟨[⟨.value varA true, none⟩, ⟨.value varB true, none⟩], []⟩, [], [varA, varC]⟩) := by
    rw [hw₁]
    rfl
  obtain ⟨r₂, hr₂, hp₂, ho₂, hw₂⟩ := Classifier.exists_round_of_passes hn₁ hp₁ searchB.2
  rw [Classifier.finds_eq, searchB.1, ho₁] at hw₂
  refine ⟨r₂, _, ⟨⟨r₀, hb, .more hr₁ (.more hr₂ (.none r₂))⟩, ?_, rfl⟩, ho₂.trans ho₁⟩
  rw [hw₂]
  rfl

theorem forward_perm_backward : forward.nodes.Perm backward.nodes := .swap _ _ _

/-- `C` is in a group when the library is first, and ruled out when the client is. -/
theorem harvests : ∃ h h', (classifier.harvest forward none = .ok h ∧ h.complete = true ∧ h.Grouped varC) ∧
    classifier.harvest backward none = .ok h' ∧ h'.complete = true ∧ varC ∈ h'.ruledOut := by
  obtain ⟨last, h, hc, hout, htrimmed⟩ := completes_forward
  obtain ⟨last', h', hc', hout'⟩ := completes_backward
  obtain ⟨hh, hcomplete⟩ := Classifier.harvest_complete_iff.2 ⟨_, last, hc⟩
  obtain ⟨hh', hcomplete'⟩ := Classifier.harvest_complete_iff.2 ⟨_, last', hc'⟩
  refine ⟨h, h', ⟨hh, hcomplete, ?_⟩, hh', hcomplete', hc'.mem_ruledOut_iff.2 (Or.inl ?_)⟩
  · have hmem : varC ∈ last.work.forest.elements :=
      hc.trace.mem_elements.2 (Or.inr ⟨varB, List.mem_cons_self, searchB.2, searchB_finds⟩)
    refine (hc.grouped_or_ruledOut hmem).resolve_right ?_
    rw [hc.mem_ruledOut_iff, hout, htrimmed]
    decide
  · rw [hout']
    decide

/-- With the client first, `C` is ruled out on the account of others. -/
theorem backward_collateral : ∃ h h', forward.nodes.Perm backward.nodes ∧ classifier.harvest forward none = .ok h ∧
    h.complete = true ∧ classifier.harvest backward none = .ok h' ∧ h'.complete = true ∧
    classifier.Collateral backward h' varC := by
  obtain ⟨h, h', ⟨hh, hcomplete, hgroup⟩, hh', hcomplete', hout⟩ := harvests
  obtain ⟨-, ⟨-, hcol⟩, -⟩ := Classifier.harvest_order forward_perm_backward hh hcomplete hh' hcomplete'
  exact ⟨h, h', forward_perm_backward, hh, hcomplete, hh', hcomplete', hcol varC hgroup hout⟩

/-- The two orders of the same packages do not rule out the same variables, nor group the same ones. -/
theorem orders_differ : ∃ h h', forward.nodes.Perm backward.nodes ∧ classifier.harvest forward none = .ok h ∧
    h.complete = true ∧ classifier.harvest backward none = .ok h' ∧ h'.complete = true ∧
    (¬ ∀ x, x ∈ h.ruledOut ↔ x ∈ h'.ruledOut) ∧ ¬ h.SameGroups h' := by
  obtain ⟨h, h', ⟨hh, hcomplete, hgroup⟩, hh', hcomplete', hout⟩ := harvests
  obtain ⟨served, last, hc⟩ := Classifier.harvest_complete_iff.1 ⟨hh, hcomplete⟩
  obtain ⟨served', last', hc'⟩ := Classifier.harvest_complete_iff.1 ⟨hh', hcomplete'⟩
  refine ⟨h, h', forward_perm_backward, hh, hcomplete, hh', hcomplete', fun hsame => ?_, fun hsame => ?_⟩
  · exact hc.not_mem_ruledOut hgroup ((hsame varC).2 hout)
  · obtain ⟨g, hg, hv⟩ := hgroup
    obtain ⟨g', hg', hvars⟩ := hsame.1 g hg
    exact hc'.not_mem_ruledOut ⟨g', hg', (hvars varC).1 hv⟩ hout

end TwoPackages

end NilFlow
