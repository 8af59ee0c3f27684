import NilFlow.Forest.UnionFind
import Mathlib.Data.Finset.Card
import Mathlib.Data.Finset.Range

/-!
# Union-find keeps the classes of the united pairs

* `UnionFind.Represents u r x`: the way up from `x` ends at `r`, its own parent.
* `UnionFind.Falls u h`: along every way up the measure `h` falls, so no way is a cycle; `UnionFind.Proper` asks for
  such a measure, and that no way leaves the bound. Ranks play no part in either.
* `UnionFind.find_spec`: `find` answers the representative and changes no class.
* `UnionFind.union_spec`: `union` joins two classes and no others.
* `UnionFind.same_unionAll`: from singletons, the classes are those of `Connected`.
* `UnionFind.exists_gathered`: `classes` sorts numbered values by the representatives of their numbers.
-/

namespace NilFlow

namespace UnionFind

/-! ## Ways up -/

/-- The way up from one number leads to another. -/
inductive Leads (u : UnionFind) : Nat → Nat → Prop where
  | refl (x : Nat) : Leads u x x
  | up {x y : Nat} (h : Leads u (u.parentOf x) y) : Leads u x y

/-- The way up from `x` ends at `r`. -/
structure Represents (u : UnionFind) (r x : Nat) : Prop where
  leads : u.Leads x r
  top : u.parentOf r = r

/-- Two numbers have one representative. -/
def Same (u : UnionFind) (x y : Nat) : Prop := ∃ r, u.Represents r x ∧ u.Represents r y

/-- The measure falls on every way up. -/
def Falls (u : UnionFind) (h : Nat → Nat) : Prop := ∀ x, u.parentOf x ≠ x → h (u.parentOf x) < h x

/-- No way up leaves the bound. -/
def Within (u : UnionFind) : Prop := ∀ x < u.parent.size, u.parentOf x < u.parent.size

/-- Some measure falls on every way up, and no way leaves the bound. -/
structure Proper (u : UnionFind) : Prop where
  acyclic : ∃ h, u.Falls h
  within : u.Within

theorem Leads.eq_of_top {u : UnionFind} {x y : Nat} (h : u.Leads x y) (hx : u.parentOf x = x) : y = x := by
  induction h with
  | refl => rfl
  | up _ ih =>
    rw [hx] at ih
    exact ih hx

theorem represents_self {u : UnionFind} {x : Nat} (h : u.parentOf x = x) : u.Represents x x := ⟨.refl x, h⟩

theorem Represents.up {u : UnionFind} {r x : Nat} (h : u.Represents r (u.parentOf x)) : u.Represents r x :=
  ⟨h.leads.up, h.top⟩

theorem Represents.unique {u : UnionFind} {r s x : Nat} (h : u.Represents r x) (h' : u.Represents s x) : r = s := by
  obtain ⟨hl, ht⟩ := h
  induction hl with
  | refl x => exact (h'.leads.eq_of_top ht).symm
  | @up x y _ ih =>
    refine ih ⟨?_, h'.top⟩ ht
    cases h'.leads with
    | refl =>
      rw [h'.top]
      exact .refl _
    | up h => exact h

theorem Falls.exists_represents {u : UnionFind} {h : Nat → Nat} (hf : u.Falls h) (x : Nat) :
    ∃ r, u.Represents r x := by
  induction hn : h x using Nat.strong_induction_on generalizing x with
  | _ n ih =>
    by_cases hx : u.parentOf x = x
    · exact ⟨x, represents_self hx⟩
    · have hlt := hf x hx
      obtain ⟨r, hr⟩ := ih (h (u.parentOf x)) (by omega) _ rfl
      exact ⟨r, hr.up⟩

theorem Proper.exists_represents {u : UnionFind} (hu : u.Proper) (x : Nat) : ∃ r, u.Represents r x :=
  hu.acyclic.elim fun _ hf => hf.exists_represents x

theorem Represents.iff_eq {u : UnionFind} {r s x : Nat} (h : u.Represents r x) : u.Represents s x ↔ r = s :=
  ⟨fun h' => h.unique h', fun he => he ▸ h⟩

theorem Represents.same_iff {u : UnionFind} {r s x y : Nat} (h : u.Represents r x) (h' : u.Represents s y) :
    u.Same x y ↔ r = s := by
  constructor
  · rintro ⟨p, hp, hq⟩
    exact (h.unique hp).trans (hq.unique h')
  · rintro rfl
    exact ⟨r, h, h'⟩

theorem Represents.same_right {u : UnionFind} {r x y : Nat} (h : u.Represents r x) : u.Same y x ↔ u.Represents r y := by
  constructor
  · rintro ⟨p, hp, hq⟩
    rwa [h.unique hq]
  · intro h'
    exact ⟨r, h', h⟩

theorem Same.symm {u : UnionFind} {x y : Nat} (h : u.Same x y) : u.Same y x := h.imp fun _ h => h.symm

theorem Same.trans {u : UnionFind} {x y z : Nat} (h : u.Same x y) (h' : u.Same y z) : u.Same x z := by
  obtain ⟨r, hx, hy⟩ := h
  obtain ⟨s, hy', hz⟩ := h'
  exact ⟨r, hx, hy.unique hy' ▸ hz⟩

theorem Represents.lt_size {u : UnionFind} {r x : Nat} (h : u.Represents r x) (hu : u.Proper)
    (hx : x < u.parent.size) : r < u.parent.size := by
  obtain ⟨hl, -⟩ := h
  induction hl with
  | refl => exact hx
  | up _ ih => exact ih (hu.within _ hx)

theorem parentOf_of_le {u : UnionFind} {x : Nat} (h : u.parent.size ≤ x) : u.parentOf x = x := by
  unfold parentOf
  rw [Array.getD_eq_getD_getElem?, Array.getElem?_eq_none h, Option.getD_none]

theorem lt_size_of_ne {u : UnionFind} {x : Nat} (hx : u.parentOf x ≠ x) : x < u.parent.size := by
  by_contra hge
  exact hx (parentOf_of_le (by omega))

/-- A measure need not exceed the bound: it can count the numbers that do not lie above. -/
theorem Proper.exists_bounded {u : UnionFind} (hu : u.Proper) : ∃ h, u.Falls h ∧ ∀ x, h x ≤ u.parent.size := by
  obtain ⟨⟨h, hf⟩, -⟩ := hu
  refine ⟨fun x => ((Finset.range u.parent.size).filter (h · ≤ h x)).card, ?_, ?_⟩
  · intro x hx
    have hlt := hf x hx
    have hsize := lt_size_of_ne hx
    apply Finset.card_lt_card
    rw [Finset.ssubset_iff_of_subset]
    · refine ⟨x, by simp [hsize], ?_⟩
      simp only [Finset.mem_filter, not_and]
      omega
    · intro y hy
      simp only [Finset.mem_filter] at hy ⊢
      exact ⟨hy.1, hy.2.trans hlt.le⟩
  · intro x
    exact (Finset.card_filter_le _ _).trans (Finset.card_range _).le

/-! ## Pointing a number at another -/

theorem parentOf_attach (u : UnionFind) (c t x : Nat) :
    (u.attach c t).parentOf x = if x = c ∧ c < u.parent.size then t else u.parentOf x := by
  unfold parentOf attach
  simp only [Array.getD_eq_getD_getElem?, Array.getElem?_setIfInBounds]
  by_cases hx : c = x
  · subst hx
    by_cases hc : c < u.parent.size <;> simp [hc]
  · simp [hx, Ne.symm hx]

theorem size_attach (u : UnionFind) (c t : Nat) : (u.attach c t).parent.size = u.parent.size := by
  unfold attach
  simp

section Halving

variable {u : UnionFind} {h : Nat → Nat} {x : Nat}

theorem Falls.grand (hf : u.Falls h) (hx : u.parentOf x ≠ x) : h (u.parentOf (u.parentOf x)) < h x := by
  have h₁ := hf x hx
  by_cases h₂ : u.parentOf (u.parentOf x) = u.parentOf x
  · rw [h₂]
    exact h₁
  · have := hf _ h₂
    omega

theorem Falls.halve (hf : u.Falls h) (hx : u.parentOf x ≠ x) :
    (u.attach x (u.parentOf (u.parentOf x))).Falls h := by
  intro y hy
  rw [parentOf_attach] at hy ⊢
  split_ifs at hy ⊢ with hc
  · obtain ⟨rfl, -⟩ := hc
    exact hf.grand hx
  · exact hf y hy

theorem Within.halve (hw : u.Within) (hx : u.parentOf x ≠ x) :
    (u.attach x (u.parentOf (u.parentOf x))).Within := by
  intro y hy
  rw [size_attach] at hy ⊢
  rw [parentOf_attach]
  split_ifs
  · exact hw _ (hw _ (lt_size_of_ne hx))
  · exact hw y hy

theorem Leads.of_halve {y r : Nat} (hl : (u.attach x (u.parentOf (u.parentOf x))).Leads y r) : u.Leads y r := by
  induction hl with
  | refl y => exact .refl y
  | up _ ih =>
    rw [parentOf_attach] at ih
    split_ifs at ih with hc
    · obtain ⟨rfl, -⟩ := hc
      exact ih.up.up
    · exact ih.up

/-- Pointing a number at its grandparent shortens ways up and changes no representative. -/
theorem represents_halve (hf : u.Falls h) (hx : u.parentOf x ≠ x) (r y : Nat) :
    (u.attach x (u.parentOf (u.parentOf x))).Represents r y ↔ u.Represents r y := by
  have hto : ∀ {r y}, (u.attach x (u.parentOf (u.parentOf x))).Represents r y → u.Represents r y := by
    intro r y hr
    refine ⟨hr.leads.of_halve, ?_⟩
    have ht := hr.top
    rw [parentOf_attach] at ht
    split_ifs at ht with hc
    · have := hf.grand hx
      rw [ht, hc.1] at this
      omega
    · exact ht
  refine ⟨hto, fun hr => ?_⟩
  obtain ⟨s, hs⟩ := (hf.halve hx).exists_represents y
  rwa [hr.unique (hto hs)]

end Halving

/-! ## Finding -/

/-- Another state of the same classes. -/
structure Keeps (u u' : UnionFind) : Prop where
  size : u'.parent.size = u.parent.size
  rank : u'.rank = u.rank
  represents : ∀ r x, u'.Represents r x ↔ u.Represents r x

theorem Keeps.refl (u : UnionFind) : u.Keeps u := ⟨rfl, rfl, fun _ _ => Iff.rfl⟩

theorem Keeps.trans {u v w : UnionFind} (h : u.Keeps v) (h' : v.Keeps w) : u.Keeps w :=
  ⟨h'.size.trans h.size, h'.rank.trans h.rank, fun r x => (h'.represents r x).trans (h.represents r x)⟩

theorem Keeps.same {u u' : UnionFind} (h : u.Keeps u') (x y : Nat) : u'.Same x y ↔ u.Same x y := by
  unfold Same
  simp only [h.represents]

theorem climb_spec {h : Nat → Nat} : ∀ (hops : Nat) (u : UnionFind) (x : Nat), u.Falls h → u.Within → h x ≤ hops →
    u.Keeps (climb hops u x).2 ∧ ((climb hops u x).2.Falls h ∧ (climb hops u x).2.Within) ∧
      u.Represents (climb hops u x).1 x
  | 0, u, x, hf, hw, hx => by
    refine ⟨.refl u, ⟨hf, hw⟩, represents_self ?_⟩
    by_contra hp
    have := hf x hp
    omega
  | hops + 1, u, x, hf, hw, hx => by
    rw [climb]
    split_ifs with hp
    · exact ⟨.refl u, ⟨hf, hw⟩, represents_self hp⟩
    · have hg := hf.grand hp
      obtain ⟨hk, hf', hr⟩ := climb_spec hops (u.attach x (u.parentOf (u.parentOf x))) _ (hf.halve hp) (hw.halve hp)
        (show h (u.parentOf (u.parentOf x)) ≤ hops by omega)
      have hh : u.Keeps (u.attach x (u.parentOf (u.parentOf x))) :=
        ⟨size_attach _ _ _, rfl, represents_halve hf hp⟩
      exact ⟨hh.trans hk, hf', ((represents_halve hf hp _ _).1 hr).up.up⟩

/-- Finding answers the representative. It shortens ways up, but changes no class and no rank. -/
theorem find_spec {u : UnionFind} (hu : u.Proper) (x : Nat) :
    u.Keeps (u.find x).2 ∧ (u.find x).2.Proper ∧ u.Represents (u.find x).1 x := by
  obtain ⟨h, hf, hb⟩ := hu.exists_bounded
  obtain ⟨hk, ⟨hf', hw'⟩, hr⟩ := climb_spec u.parent.size u x hf hu.within (hb x)
  exact ⟨hk, ⟨⟨h, hf'⟩, hw'⟩, hr⟩

theorem find_eq_iff {u : UnionFind} (hu : u.Proper) (x y : Nat) : (u.find x).1 = (u.find y).1 ↔ u.Same x y :=
  ((find_spec hu x).2.2.same_iff (find_spec hu y).2.2).symm

theorem find_find {u : UnionFind} (hu : u.Proper) (x y : Nat) : ((u.find x).2.find y).1 = (u.find y).1 := by
  obtain ⟨hk, hu', -⟩ := find_spec hu x
  obtain ⟨-, -, hy⟩ := find_spec hu y
  obtain ⟨-, -, hy'⟩ := find_spec hu' y
  exact ((hk.represents _ _).1 hy').unique hy

/-! ## Uniting -/

section Attaching

variable {u : UnionFind} {c t : Nat}

/-- The class of `c` goes over to `t`. -/
theorem Represents.attach {r x : Nat} (hr : u.Represents r x) (hc : u.parentOf c = c) (ht : u.parentOf t = t)
    (hlt : c < u.parent.size) (hne : c ≠ t) : (u.attach c t).Represents (if r = c then t else r) x := by
  have htop : (u.attach c t).parentOf t = t := by
    rw [parentOf_attach, if_neg (fun h => hne h.1.symm), ht]
  have hct : (u.attach c t).Represents t c := by
    refine Represents.up ?_
    rw [parentOf_attach, if_pos ⟨rfl, hlt⟩]
    exact represents_self htop
  obtain ⟨hl, hr⟩ := hr
  induction hl with
  | refl x =>
    split_ifs with hx
    · rw [hx]
      exact hct
    · refine represents_self ?_
      rw [parentOf_attach, if_neg (fun h => hx h.1), hr]
  | @up x y hl ih =>
    by_cases hx : x = c
    · subst hx
      rw [hc] at hl
      rw [if_pos (hl.eq_of_top hc)]
      exact hct
    · have hp : (u.attach c t).parentOf x = u.parentOf x := by
        rw [parentOf_attach, if_neg (fun h => hx h.1)]
      refine Represents.up ?_
      rw [hp]
      exact ih hr

open Classical in
theorem Proper.attach (hu : u.Proper) (hc : u.parentOf c = c) (ht : u.parentOf t = t) (hlt : t < u.parent.size)
    (hne : c ≠ t) : (u.attach c t).Proper := by
  obtain ⟨⟨h, hf⟩, hw⟩ := hu
  refine ⟨?_, fun x hx => ?_⟩
  · -- the class of `c` is lifted above `t`
    refine ⟨fun x => if u.Represents c x then h x + h t + 1 else h x, fun x hx => ?_⟩
    have htc : ¬ u.Represents c t := fun hr => hne (hr.unique (represents_self ht))
    by_cases hxc : x = c ∧ c < u.parent.size
    · have hp : (u.attach c t).parentOf x = t := by rw [parentOf_attach, if_pos hxc]
      have hcx : u.Represents c x := by
        rw [hxc.1]
        exact represents_self hc
      simp only [hp, if_neg htc, if_pos hcx]
      omega
    · have hp : (u.attach c t).parentOf x = u.parentOf x := by rw [parentOf_attach, if_neg hxc]
      rw [hp] at hx
      have hlt := hf x hx
      have hiff : u.Represents c (u.parentOf x) ↔ u.Represents c x := by
        refine ⟨Represents.up, fun hr => ?_⟩
        obtain ⟨r, hr'⟩ := hf.exists_represents (u.parentOf x)
        rwa [hr.unique hr'.up]
      simp only [hp, hiff]
      split_ifs <;> omega
  · rw [size_attach] at hx ⊢
    rw [parentOf_attach]
    split_ifs
    · exact hlt
    · exact hw x hx

/-- Two numbers have one representative after attaching when they had, or when they were in the two classes. -/
theorem same_attach (hu : u.Proper) (hc : u.parentOf c = c) (ht : u.parentOf t = t) (hlt : c < u.parent.size)
    (hne : c ≠ t) (x y : Nat) : (u.attach c t).Same x y ↔
      u.Same x y ∨ (u.Represents c x ∧ u.Represents t y) ∨ (u.Represents t x ∧ u.Represents c y) := by
  obtain ⟨r, hr⟩ := hu.exists_represents x
  obtain ⟨s, hs⟩ := hu.exists_represents y
  have hr' := hr.attach hc ht hlt hne
  have hs' := hs.attach hc ht hlt hne
  rw [hr'.same_iff hs', hr.same_iff hs, hr.iff_eq, hr.iff_eq, hs.iff_eq, hs.iff_eq]
  split_ifs with h₁ h₂ h₂ <;> grind

end Attaching

/-- What one union does: it joins the classes of its two numbers. -/
structure Joins (u u' : UnionFind) (a b : Nat) : Prop where
  size : u'.parent.size = u.parent.size
  same : ∀ x y, u'.Same x y ↔ u.Same x y ∨ (u.Same x a ∧ u.Same y b) ∨ (u.Same x b ∧ u.Same y a)

theorem Represents.joins_attach {u : UnionFind} {a b ra rb : Nat} (hu : u.Proper) (ha : u.Represents ra a)
    (hb : u.Represents rb b) (hlt : ra < u.parent.size) (hne : ra ≠ rb) : u.Joins (u.attach ra rb) a b := by
  refine ⟨size_attach _ _ _, fun x y => ?_⟩
  rw [same_attach hu ha.top hb.top hlt hne, ha.same_right, hb.same_right, ha.same_right, hb.same_right]

theorem Joins.symm {u u' : UnionFind} {a b : Nat} (h : u.Joins u' a b) : u.Joins u' b a :=
  ⟨h.size, fun x y => by rw [h.same, or_comm (a := u.Same x a ∧ _)]⟩

theorem Leads.congr {u v : UnionFind} (h : u.parent = v.parent) {x y : Nat} (hl : u.Leads x y) : v.Leads x y := by
  have hp : ∀ z, u.parentOf z = v.parentOf z := fun z => by unfold parentOf; rw [h]
  induction hl with
  | refl x => exact .refl x
  | up _ ih =>
    rw [hp] at ih
    exact ih.up

/-- Ranks tell nothing about classes. -/
theorem represents_congr {u v : UnionFind} (h : v.parent = u.parent) (r x : Nat) :
    v.Represents r x ↔ u.Represents r x := by
  have hp : v.parentOf r = u.parentOf r := by
    unfold parentOf
    rw [h]
  constructor
  · exact fun hr => ⟨hr.leads.congr h, hp ▸ hr.top⟩
  · exact fun hr => ⟨hr.leads.congr h.symm, hp ▸ hr.top⟩

/-- Searches before a join change nothing about it. -/
theorem Keeps.joins {u v w : UnionFind} {a b : Nat} (hk : u.Keeps v) (hj : v.Joins w a b) : u.Joins w a b := by
  refine ⟨hj.size.trans hk.size, fun x y => ?_⟩
  rw [hj.same]
  simp only [hk.same]

theorem Keeps.joins_of_same {u v : UnionFind} {a b : Nat} (hk : u.Keeps v) (hab : u.Same a b) : u.Joins v a b := by
  refine ⟨hk.size, fun x y => ?_⟩
  rw [hk.same]
  refine ⟨Or.inl, ?_⟩
  rintro (h | ⟨hx, hy⟩ | ⟨hx, hy⟩)
  · exact h
  · exact (hx.trans hab).trans hy.symm
  · exact (hx.trans hab.symm).trans hy.symm

theorem Joins.congr {u v v' : UnionFind} {a b : Nat} (h : v'.parent = v.parent) (hj : u.Joins v a b) :
    u.Joins v' a b := by
  refine ⟨(congrArg Array.size h).trans hj.size, fun x y => ?_⟩
  rw [← hj.same]
  exact exists_congr fun r => and_congr (represents_congr h r x) (represents_congr h r y)

theorem union_spec {u : UnionFind} (hu : u.Proper) {a b : Nat} (ha : a < u.parent.size) (hb : b < u.parent.size) :
    (u.union a b).Proper ∧ u.Joins (u.union a b) a b := by
  obtain ⟨hk, hu₁, hra⟩ := find_spec hu a
  obtain ⟨hk', hu₂, hrb⟩ := find_spec hu₁ b
  have hkk := hk.trans hk'
  have hra' := (hkk.represents _ _).2 hra
  have hrb' := (hkk.represents _ _).2 ((hk.represents _ _).1 hrb)
  have hla : (u.find a).1 < ((u.find a).2.find b).2.parent.size := by
    rw [hkk.size]
    exact hra.lt_size hu ha
  have hlb : ((u.find a).2.find b).1 < ((u.find a).2.find b).2.parent.size := by
    rw [hkk.size, ← hk.size]
    exact hrb.lt_size hu₁ (by rwa [hk.size])
  unfold union
  simp only
  split_ifs with h₀ h₁ h₂
  · have hab : u.Same a b := by
      refine ⟨_, hra, ?_⟩
      rw [h₀]
      exact (hk.represents _ _).1 hrb
    exact ⟨hu₂, hkk.joins_of_same hab⟩
  · exact ⟨hu₂.attach hra'.top hrb'.top hlb h₀, hkk.joins (hra'.joins_attach hu₂ hrb' hla h₀)⟩
  · exact ⟨hu₂.attach hrb'.top hra'.top hla (Ne.symm h₀),
      hkk.joins (hrb'.joins_attach hu₂ hra' hlb (Ne.symm h₀)).symm⟩
  · -- the rank that grows says nothing about the classes
    have hp := hu₂.attach hrb'.top hra'.top hla (Ne.symm h₀)
    have hj := hkk.joins (hrb'.joins_attach hu₂ hra' hlb (Ne.symm h₀)).symm
    refine ⟨⟨hp.acyclic, hp.within⟩, hj.congr ?_⟩
    rfl

/-! ## All pairs -/

theorem parentOf_singletons (n x : Nat) : (singletons n).parentOf x = x := by
  unfold parentOf singletons
  rw [Array.getD_eq_getD_getElem?]
  by_cases hx : x < n
  · simp [hx]
  · simp [Nat.le_of_not_lt hx]

theorem proper_singletons (n : Nat) : (singletons n).Proper := by
  refine ⟨⟨fun _ => 0, fun x hx => absurd (parentOf_singletons n x) hx⟩, fun x hx => ?_⟩
  rwa [parentOf_singletons]

theorem same_singletons (n x y : Nat) : (singletons n).Same x y ↔ x = y := by
  have hx := represents_self (parentOf_singletons n x)
  have hy := represents_self (parentOf_singletons n y)
  exact hx.same_iff hy

end UnionFind

theorem Connected.mono {ps qs : List (Nat × Nat)} (h : ∀ p ∈ ps, p ∈ qs) {x y : Nat} (hc : Connected ps x y) :
    Connected qs x y := by
  induction hc with
  | refl a => exact .refl a
  | pair hp => exact .pair (h _ hp)
  | symm _ ih => exact ih.symm
  | trans _ _ ih ih' => exact ih.trans ih'

theorem connected_nil {x y : Nat} : Connected [] x y ↔ x = y := by
  constructor
  · intro h
    induction h with
    | refl => rfl
    | pair h => simp at h
    | symm _ ih => exact ih.symm
    | trans _ _ ih ih' => exact ih.trans ih'
  · rintro rfl
    exact .refl x

theorem connected_snoc (ps : List (Nat × Nat)) (a b x y : Nat) : Connected (ps ++ [(a, b)]) x y ↔
    Connected ps x y ∨ (Connected ps x a ∧ Connected ps y b) ∨ (Connected ps x b ∧ Connected ps y a) := by
  have hsub : ∀ {x y}, Connected ps x y → Connected (ps ++ [(a, b)]) x y :=
    fun h => h.mono fun p hp => List.mem_append_left _ hp
  have hab : Connected (ps ++ [(a, b)]) a b := .pair (by simp)
  constructor
  · intro h
    induction h with
    | refl x => exact Or.inl (.refl x)
    | @pair x y h =>
      rcases List.mem_append.1 h with h | h
      · exact Or.inl (.pair h)
      · obtain ⟨rfl, rfl⟩ : x = a ∧ y = b := by simpa using h
        exact Or.inr (Or.inl ⟨.refl x, .refl y⟩)
    | symm _ ih =>
      rcases ih with h | ⟨h, h'⟩ | ⟨h, h'⟩
      · exact Or.inl h.symm
      · exact Or.inr (Or.inr ⟨h', h⟩)
      · exact Or.inr (Or.inl ⟨h', h⟩)
    | trans _ _ ih ih' =>
      rcases ih with h | ⟨h, h'⟩ | ⟨h, h'⟩ <;> rcases ih' with k | ⟨k, k'⟩ | ⟨k, k'⟩
      · exact Or.inl (h.trans k)
      · exact Or.inr (Or.inl ⟨h.trans k, k'⟩)
      · exact Or.inr (Or.inr ⟨h.trans k, k'⟩)
      · exact Or.inr (Or.inl ⟨h, k.symm.trans h'⟩)
      · exact Or.inr (Or.inl ⟨h, k'⟩)
      · exact Or.inl (h.trans k'.symm)
      · exact Or.inr (Or.inr ⟨h, k.symm.trans h'⟩)
      · exact Or.inl (h.trans k'.symm)
      · exact Or.inr (Or.inr ⟨h, k'⟩)
  · rintro (h | ⟨h, h'⟩ | ⟨h, h'⟩)
    · exact hsub h
    · exact ((hsub h).trans hab).trans (hsub h').symm
    · exact ((hsub h).trans hab.symm).trans (hsub h').symm

namespace UnionFind

theorem unionAll_spec {u : UnionFind} (past : List (Nat × Nat)) (hu : u.Proper)
    (hs : ∀ x y, u.Same x y ↔ Connected past x y) : ∀ (pairs : List (Nat × Nat)),
      (∀ p ∈ pairs, p.1 < u.parent.size ∧ p.2 < u.parent.size) →
      (u.unionAll pairs).Proper ∧ ∀ x y, (u.unionAll pairs).Same x y ↔ Connected (past ++ pairs) x y
  | [], _ => by
    rw [List.append_nil]
    exact ⟨hu, hs⟩
  | (a, b) :: pairs, h => by
    obtain ⟨hp, hj⟩ := union_spec hu (h (a, b) (by simp)).1 (h (a, b) (by simp)).2
    have hs' : ∀ x y, (u.union a b).Same x y ↔ Connected (past ++ [(a, b)]) x y := by
      intro x y
      rw [hj.same, connected_snoc]
      simp only [hs]
    have ih := unionAll_spec _ hp hs' pairs fun p hp => by
      rw [hj.size]
      exact h p (by simp [hp])
    rw [List.append_assoc] at ih
    exact ih

theorem same_unionAll (n : Nat) (pairs : List (Nat × Nat)) (h : ∀ p ∈ pairs, p.1 < n ∧ p.2 < n) :
    ((singletons n).unionAll pairs).Proper ∧
      ∀ x y, ((singletons n).unionAll pairs).Same x y ↔ Connected pairs x y := by
  refine unionAll_spec [] (proper_singletons n) (fun x y => ?_) pairs ?_
  · rw [same_singletons, connected_nil]
  · simpa [singletons] using h

/-! ## Sorting into classes -/

section Gathering

variable {α : Type} {rep : Nat → Nat} {seen : List (Nat × α)} {groups : List (Nat × List α)}

/-- The groups of some numbered values under a choice of representatives: one group for each representative, with the
values of its class in their order. -/
structure Gathered (rep : Nat → Nat) (seen : List (Nat × α)) (groups : List (Nat × List α)) : Prop where
  nodup : (groups.map (·.1)).Nodup
  keys : ∀ r, r ∈ groups.map (·.1) ↔ ∃ p ∈ seen, rep p.1 = r
  values : ∀ g ∈ groups, g.2 = (seen.filter (rep ·.1 = g.1)).map (·.2)

def place (r : Nat) (a : α) (groups : List (Nat × List α)) : List (Nat × List α) :=
  if groups.any (·.1 = r) then groups.map fun g => if g.1 = r then (g.1, g.2 ++ [a]) else g else groups ++ [(r, [a])]

theorem keys_place_of_mem (r : Nat) (a : α) (groups : List (Nat × List α)) :
    (groups.map fun g => if g.1 = r then (g.1, g.2 ++ [a]) else g).map (·.1) = groups.map (·.1) := by
  rw [List.map_map]
  refine List.map_congr_left fun g _ => ?_
  simp only [Function.comp_apply]
  split_ifs <;> rfl

theorem filter_snoc_values (r x : Nat) (a : α) :
    ((seen ++ [(x, a)]).filter (rep ·.1 = r)).map (·.2) =
      (seen.filter (rep ·.1 = r)).map (·.2) ++ if rep x = r then [a] else [] := by
  rw [List.filter_append, List.map_append]
  congr 1
  by_cases h : rep x = r <;> simp [h]

theorem exists_mem_snoc_iff (r x : Nat) (a : α) :
    (∃ p ∈ seen ++ [(x, a)], rep p.1 = r) ↔ (∃ p ∈ seen, rep p.1 = r) ∨ rep x = r := by
  simp [or_and_right, exists_or]

/-- A value whose class has a group joins this group. -/
theorem Gathered.join (hg : Gathered rep seen groups) (x : Nat) (a : α) (hmem : rep x ∈ groups.map (·.1)) :
    Gathered rep (seen ++ [(x, a)]) (groups.map fun g => if g.1 = rep x then (g.1, g.2 ++ [a]) else g) := by
  refine ⟨?_, fun r => ?_, fun g hmem => ?_⟩
  · rw [keys_place_of_mem]
    exact hg.nodup
  · rw [keys_place_of_mem, hg.keys, exists_mem_snoc_iff]
    refine (or_iff_left_of_imp ?_).symm
    rintro rfl
    exact (hg.keys _).1 hmem
  · obtain ⟨g', hg', rfl⟩ := List.mem_map.1 hmem
    have hv := hg.values g' hg'
    split_ifs with hr
    · rw [filter_snoc_values, if_pos hr.symm, ← hv]
    · rw [filter_snoc_values, if_neg (Ne.symm hr), List.append_nil, ← hv]

/-- A value whose class has no group yet gets one of its own. -/
theorem Gathered.found (hg : Gathered rep seen groups) (x : Nat) (a : α) (hnew : rep x ∉ groups.map (·.1)) :
    Gathered rep (seen ++ [(x, a)]) (groups ++ [(rep x, [a])]) := by
  refine ⟨?_, fun r => ?_, fun g hmem => ?_⟩
  · rw [List.map_append, List.nodup_append]
    refine ⟨hg.nodup, by simp, fun k hk k' hk' => ?_⟩
    rintro rfl
    have hk' : k = rep x := by simpa using hk'
    exact hnew (hk' ▸ hk)
  · rw [List.map_append, List.mem_append, hg.keys, exists_mem_snoc_iff, List.map_singleton, List.mem_singleton]
    exact or_congr_right eq_comm
  · rcases List.mem_append.1 hmem with hmem | hmem
    · have hr : rep x ≠ g.1 := fun h => hnew (h ▸ List.mem_map_of_mem hmem)
      rw [filter_snoc_values, if_neg hr, List.append_nil]
      exact hg.values g hmem
    · rw [List.mem_singleton.1 hmem, filter_snoc_values, if_pos rfl]
      have hnone : seen.filter (rep ·.1 = rep x) = [] := by
        rw [List.filter_eq_nil_iff]
        intro p hp
        have hother := mt (hg.keys (rep x)).2 hnew
        simpa using fun h => hother ⟨p, hp, h⟩
      simp only [hnone, List.map_nil, List.nil_append]

theorem any_key_iff {r : Nat} : groups.any (·.1 = r) = true ↔ r ∈ groups.map (·.1) := by
  simp

theorem Gathered.place (hg : Gathered rep seen groups) (x : Nat) (a : α) :
    Gathered rep (seen ++ [(x, a)]) (place (rep x) a groups) := by
  unfold UnionFind.place
  split_ifs with hany
  · exact hg.join x a (any_key_iff.1 hany)
  · exact hg.found x a (mt any_key_iff.2 hany)

/-- Placing a value adds it to all values, whatever group takes it. -/
theorem flatMap_place_perm (hn : (groups.map (·.1)).Nodup) (r : Nat) (a : α) :
    ((place r a groups).flatMap (·.2)).Perm (groups.flatMap (·.2) ++ [a]) := by
  unfold place
  split_ifs with hany
  · induction groups with
    | nil => simp at hany
    | cons g groups ih =>
      rw [List.map_cons, List.nodup_cons] at hn
      simp only [List.map_cons, List.flatMap_cons]
      by_cases hr : g.1 = r
      · have hrest : (groups.map fun g => if g.1 = r then (g.1, g.2 ++ [a]) else g) = groups := by
          conv_rhs => rw [← List.map_id groups]
          refine List.map_congr_left fun k hk => ?_
          rw [if_neg fun h => hn.1 (by rw [hr, ← h]; exact List.mem_map_of_mem hk)]
          rfl
        rw [if_pos hr, hrest]
        simp only [List.append_assoc]
        exact List.Perm.append_left _ List.perm_append_comm
      · have hany' : groups.any (·.1 = r) = true := by simpa [hr] using hany
        rw [if_neg hr, List.append_assoc]
        exact List.Perm.append_left _ (ih hn.2 hany')
  · simp

theorem Gathered.ne_nil (hg : Gathered rep seen groups) {g : Nat × List α} (hmem : g ∈ groups) : g.2 ≠ [] := by
  obtain ⟨p, hp, hr⟩ := (hg.keys g.1).1 (List.mem_map_of_mem hmem)
  rw [hg.values g hmem]
  intro h
  have := List.filter_eq_nil_iff.1 (List.map_eq_nil_iff.1 h) p hp
  exact this (by simpa using hr)

theorem Gathered.mem_iff (hg : Gathered rep seen groups) {g : Nat × List α} (hmem : g ∈ groups) (a : α) :
    a ∈ g.2 ↔ ∃ x, (x, a) ∈ seen ∧ rep x = g.1 := by
  rw [hg.values g hmem]
  simp [and_comm]

/-- The classes of some numbered values: the groups that placing one after the other gives. -/
theorem exists_gathered {u : UnionFind} (hu : u.Proper) (hrep : ∀ x, (u.find x).1 = rep x) (rest : List (Nat × α))
    (hg : Gathered rep seen groups) : ∃ out, classes rest u groups = out.map (·.2) ∧
      Gathered rep (seen ++ rest) out ∧ (out.flatMap (·.2)).Perm (groups.flatMap (·.2) ++ rest.map (·.2)) := by
  induction rest generalizing u seen groups with
  | nil => exact ⟨groups, rfl, by simpa using hg, by simp⟩
  | cons p rest ih =>
    obtain ⟨x, a⟩ := p
    have hrep' : ∀ y, ((u.find x).2.find y).1 = rep y := fun y => by rw [find_find hu, hrep]
    obtain ⟨out, he, hout, hperm⟩ := ih (find_spec hu x).2.1 hrep' (hg.place x a)
    refine ⟨out, ?_, by simpa using hout, hperm.trans ?_⟩
    · rw [← he, ← hrep x]
      rfl
    · have := (flatMap_place_perm hg.nodup (rep x) a).append_right (rest.map (·.2))
      simpa using this

end Gathering

end UnionFind

end NilFlow
