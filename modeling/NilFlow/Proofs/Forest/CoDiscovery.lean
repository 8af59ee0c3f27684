import Mathlib.Tactic.ByContra
import NilFlow.Proofs.Forest.Components
import NilFlow.Proofs.Forest.Provenance
import NilFlow.Proofs.WorkList

/-!
# Components are what discoveries hold together

* `Insertion.Lost`: an insertion that gathered its new elements under a union, none of which lives on. With the union go
  its links, so the insertion holds nothing together any more.
* `Held`: two living elements are members of one insertion that is not lost.
* `Forest.Grown.together_iff`: after trimming, two elements lie in one component exactly when chains of `Held` connect
  them.
* `WorkList.CoDiscovered`: what some calls discover together.
* `WorkList.components_connect_survivors`: how the components of the survivors relate to co-discovery.
-/

namespace NilFlow

variable {α : Type} [DecidableEq α]

namespace Insertion

/-- The new elements of an insertion hung from a union, and none of them lives on. -/
def Lost (e : Insertion α) (lives : α → Prop) : Prop := e.gathers = true ∧ ∀ v ∈ e.created, ¬ lives v

theorem exists_created_of_gathers {e : Insertion α} (hg : e.gathers = true) : ∃ v, v ∈ e.created := by
  unfold gathers Forest.gathers at hg
  have hlen : 1 < e.fresh.length := of_decide_eq_true (Bool.and_eq_true_iff.1 hg).1
  obtain ⟨c, hc⟩ := List.exists_mem_of_length_pos (Nat.lt_trans Nat.zero_lt_one hlen)
  exact ⟨c.var, List.mem_map_of_mem hc⟩

end Insertion

theorem iff_of_eqvGen {β : Type} {r : β → β → Prop} {P : β → Prop} (hr : ∀ a b, r a b → P a ∧ P b) {a b : β}
    (h : Relation.EqvGen r a b) : P a ↔ P b := by
  induction h with
  | rel a b h => exact ⟨fun _ => (hr a b h).2, fun _ => (hr a b h).1⟩
  | refl => exact Iff.rfl
  | symm _ _ _ ih => exact ih.symm
  | trans _ _ _ _ _ ih ih' => exact ih.trans ih'

/-- Two living elements are members of an insertion that is not lost. -/
def Held (es : List (Insertion α)) (lives : α → Prop) (a b : α) : Prop :=
  lives a ∧ lives b ∧ ∃ e ∈ es, ¬ e.Lost lives ∧ e.Member a ∧ e.Member b

namespace Forest

namespace Grown

variable {es : List (Insertion α)} {f : Forest α} {nr : List α} {le : α → α → Bool}

/-! ## Nodes and the elements they speak for -/

/-- The elements that a surviving node speaks for: its own, or for a union the living members of its insertion. -/
def SpeaksFor (es : List (Insertion α)) (f : Forest α) (nr : List α) (i : Nat) (v : α) : Prop :=
  f.Alive nr i ∧ v ∈ (f.trim nr).elements ∧
    (f.varAt? i = some v ∨ ∃ e ∈ es, e.gathers = true ∧ i = e.top ∧ e.Member v)

theorem speaksFor_of_varAt? {i : Nat} {v : α} (hi : f.Alive nr i) (hv : f.varAt? i = some v) :
    SpeaksFor es f nr i v :=
  ⟨hi, (mem_elements_trim v).2 ⟨i, hi, hv⟩, Or.inl hv⟩

/-- The union of an insertion survives only with one of the new elements. -/
theorem not_lost_of_alive (h : Grown es f) {e : Insertion α} (he : e ∈ es) (hg : e.gathers = true)
    (ha : f.Alive nr e.top) : ¬ e.Lost (· ∈ (f.trim nr).elements) := by
  rintro ⟨-, hlost⟩
  obtain ⟨c, hc, hp⟩ := ha.exists_child (h.varAt?_top he hg)
  obtain ⟨v, hv, hvar⟩ := h.exists_created_of_parentAt? he hg hp
  exact hlost v hv ((mem_elements_trim v).2 ⟨c, hc, hvar⟩)

theorem exists_speaksFor (h : Grown es f) {i : Nat} (hi : f.Alive nr i) : ∃ v, SpeaksFor es f nr i v := by
  cases hv : f.varAt? i with
  | some v => exact ⟨v, speaksFor_of_varAt? hi hv⟩
  | none =>
    obtain ⟨c, hc, hp⟩ := hi.exists_child hv
    obtain ⟨e, he, hadds⟩ := h.exists_adds ((f.leadsTo_iff i c).2 (Or.inl hp))
    rcases h.adds_cases he hadds with ⟨-, -, x, -, hx⟩ | ⟨v, hm, hvar, ⟨hg, rfl⟩ | ⟨-, u, -, hu⟩⟩
    · rw [hv] at hx
      exact absurd hx (by simp)
    · exact ⟨v, hi, (mem_elements_trim v).2 ⟨c, hc, hvar⟩, Or.inr ⟨e, he, hg, rfl, Or.inr hm⟩⟩
    · rw [hv] at hu
      exact absurd hu (by simp)

/-- All that one node speaks for is held together. -/
theorem held_of_speaksFor (h : Grown es f) {i : Nat} {v w : α} (hv : SpeaksFor es f nr i v)
    (hw : SpeaksFor es f nr i w) : Relation.EqvGen (Held es (· ∈ (f.trim nr).elements)) v w := by
  obtain ⟨ha, hlv, hv⟩ := hv
  obtain ⟨-, hlw, hw⟩ := hw
  rcases hv with hv | ⟨e, he, hg, hi, hm⟩ <;> rcases hw with hw | ⟨e', he', hg', hi', hm'⟩
  · rw [hv] at hw
    rw [Option.some.inj hw]
    exact .refl _
  · rw [hi', h.varAt?_top he' hg'] at hv
    exact absurd hv (by simp)
  · rw [hi, h.varAt?_top he hg] at hw
    exact absurd hw (by simp)
  · obtain rfl := h.top_inj he he' hg hg' (hi.symm.trans hi')
    exact .rel _ _ ⟨hlv, hlw, e, he, h.not_lost_of_alive he hg (hi ▸ ha), hm, hm'⟩

/-- The two ends of a surviving step speak for elements that are held together. -/
theorem held_of_aliveStep (h : Grown es f) {i j : Nat} (hs : f.AliveStep nr i j) : ∃ v w,
    SpeaksFor es f nr i v ∧ SpeaksFor es f nr j w ∧ Relation.EqvGen (Held es (· ∈ (f.trim nr).elements)) v w := by
  obtain ⟨hi, hj, hij⟩ := hs
  obtain ⟨e, he, hadds⟩ := h.exists_adds hij
  rcases h.adds_cases he hadds with ⟨hg, rfl, x, hx, hvar⟩ | ⟨v, hm, hvar, ⟨hg, rfl⟩ | ⟨hg, u, hu, hvar'⟩⟩
  · have hs : SpeaksFor es f nr i x := speaksFor_of_varAt? hi hvar
    exact ⟨x, x, hs, ⟨hj, hs.2.1, Or.inr ⟨e, he, hg, rfl, Or.inl hx⟩⟩, .refl _⟩
  · have hs : SpeaksFor es f nr j v := speaksFor_of_varAt? hj hvar
    exact ⟨v, v, ⟨hi, hs.2.1, Or.inr ⟨e, he, hg, rfl, Or.inr hm⟩⟩, hs, .refl _⟩
  · have hs : SpeaksFor es f nr i u := speaksFor_of_varAt? hi hvar'
    have hs' : SpeaksFor es f nr j v := speaksFor_of_varAt? hj hvar
    refine ⟨u, v, hs, hs', .rel _ _ ⟨hs.2.1, hs'.2.1, e, he, ?_, Insertion.member_of_holder? hu, Or.inr hm⟩⟩
    rintro ⟨hg', -⟩
    rw [hg] at hg'
    exact Bool.noConfusion hg'

theorem held_of_eqvGen (h : Grown es f) {i j : Nat} (hc : Relation.EqvGen (f.AliveStep nr) i j) {v w : α}
    (hv : SpeaksFor es f nr i v) (hw : SpeaksFor es f nr j w) :
    Relation.EqvGen (Held es (· ∈ (f.trim nr).elements)) v w := by
  induction hc generalizing v w with
  | rel i j hs =>
    obtain ⟨v', w', hv', hw', hh⟩ := h.held_of_aliveStep hs
    exact ((h.held_of_speaksFor hv hv').trans _ _ _ hh).trans _ _ _ (h.held_of_speaksFor hw' hw)
  | refl => exact h.held_of_speaksFor hv hw
  | symm _ _ _ ih => exact .symm _ _ (ih hw hv)
  | trans i j k hij _ ih ih' =>
    obtain ⟨u, hu⟩ := h.exists_speaksFor ((iff_of_eqvGen (fun _ _ hs => ⟨hs.1, hs.2.1⟩) hij).1 hv.1)
    exact (ih hv hu).trans _ _ _ (ih' hu hw)

/-! ## Members of an insertion that is not lost -/

theorem alive_of_varAt? (h : Grown es f) {i : Nat} {v : α} (hv : f.varAt? i = some v)
    (hl : v ∈ (f.trim nr).elements) : f.Alive nr i := by
  obtain ⟨j, hj, hv'⟩ := (mem_elements_trim v).1 hl
  rwa [varAt?_inj h.nodup hv hv']

theorem alive_top (h : Grown es f) {e : Insertion α} (he : e ∈ es) (hg : e.gathers = true)
    (hl : ¬ e.Lost (· ∈ (f.trim nr).elements)) : f.Alive nr e.top := by
  obtain ⟨v, hv, hlive⟩ : ∃ v ∈ e.created, v ∈ (f.trim nr).elements := by
    by_contra hno
    exact hl ⟨hg, fun v hv hlive => hno ⟨v, hv, hlive⟩⟩
  obtain ⟨c, j, hc, hvar, hp⟩ := h.exists_fresh he hv
  have hp : f.parentAt? (e.first + j) = some e.top := hp.trans (if_pos hg)
  have ha := h.alive_of_varAt? hvar hlive
  have hlt : e.top < e.first + j := by
    unfold Insertion.first
    rw [if_pos hg]
    omega
  refine alive_of_child (h.top_lt he hg) (fun hd => ?_) ha hp hlt
  exact ha.not_dead (dead_closed hd ha.lt ((f.leadsTo_iff _ _).2 (Or.inl hp)))

/-- Living members of an insertion with a union are a step away from the union. -/
theorem aliveStep_of_union (h : Grown es f) {e : Insertion α} (he : e ∈ es) (hg : e.gathers = true)
    (hl : ¬ e.Lost (· ∈ (f.trim nr).elements)) {b : α} (hb : e.Member b) (hlb : b ∈ (f.trim nr).elements) :
    ∃ j, f.Alive nr j ∧ f.varAt? j = some b ∧ Relation.EqvGen (f.AliveStep nr) e.top j := by
  have htop := h.alive_top he hg hl
  obtain ⟨hvars, hsource⟩ := h.leadsTo_top he hg
  rcases hb with hb | hb
  · obtain ⟨j, hj, hs⟩ := hsource _ hb
    have haj := h.alive_of_varAt? hj hlb
    exact ⟨j, haj, hj, .symm _ _ (.rel _ _ ⟨haj, htop, hs⟩)⟩
  · obtain ⟨j, hj, hs⟩ := hvars _ hb
    have haj := h.alive_of_varAt? hj hlb
    exact ⟨j, haj, hj, .rel _ _ ⟨htop, haj, hs⟩⟩

/-- Living members of an insertion without a union are at most a step away from its hub, which would otherwise take them
with it. -/
theorem aliveStep_of_hub (h : Grown es f) {e : Insertion α} {i : Nat} {u : α} (hi : f.varAt? i = some u)
    (hu : e.holder? = some u)
    (hvars : ∀ v ∈ e.discovery.vars, ∃ b, f.varAt? b = some v ∧ (b = i ∨ f.leadsTo i b = true)) {b : α}
    (hb : e.Member b) (hlb : b ∈ (f.trim nr).elements) :
    ∃ j, f.Alive nr j ∧ f.varAt? j = some b ∧ Relation.EqvGen (f.AliveStep nr) i j := by
  rcases hb with hb | hb
  · have hi : f.varAt? i = some b := by rw [hi, ← hu, Insertion.holder?_of_source hb]
    exact ⟨i, h.alive_of_varAt? hi hlb, hi, .refl _⟩
  · obtain ⟨j, hj, hs⟩ := hvars b hb
    have haj := h.alive_of_varAt? hj hlb
    rcases hs with rfl | hs
    · exact ⟨j, haj, hj, .refl _⟩
    · have hai : f.Alive nr i := (alive_iff_of_varAt? hi).2 fun hd => haj.not_dead (dead_closed hd haj.lt hs)
      exact ⟨j, haj, hj, .rel _ _ ⟨hai, haj, hs⟩⟩

theorem aliveStep_of_member (h : Grown es f) {e : Insertion α} (he : e ∈ es)
    (hl : ¬ e.Lost (· ∈ (f.trim nr).elements)) {a : α} (hm : e.Member a) (ha : a ∈ (f.trim nr).elements) :
    ∃ i, f.Alive nr i ∧ f.varAt? i = some a ∧ ∀ {b : α}, e.Member b → b ∈ (f.trim nr).elements →
      ∃ j, f.Alive nr j ∧ f.varAt? j = some b ∧ Relation.EqvGen (f.AliveStep nr) i j := by
  -- every living member is a step away from one surviving node
  obtain ⟨c, hspoke⟩ : ∃ c, ∀ {b : α}, e.Member b → b ∈ (f.trim nr).elements →
      ∃ j, f.Alive nr j ∧ f.varAt? j = some b ∧ Relation.EqvGen (f.AliveStep nr) c j := by
    cases hg : e.gathers with
    | true => exact ⟨e.top, h.aliveStep_of_union he hg hl⟩
    | false =>
      obtain ⟨i, u, hi, hu, hvars⟩ := h.exists_hub he hg hm
      exact ⟨i, h.aliveStep_of_hub hi hu hvars⟩
  obtain ⟨i, hai, hi, hci⟩ := hspoke hm ha
  refine ⟨i, hai, hi, fun hb hlb => ?_⟩
  obtain ⟨j, haj, hj, hcj⟩ := hspoke hb hlb
  exact ⟨j, haj, hj, .trans _ _ _ (.symm _ _ hci) hcj⟩

theorem eqvGen_of_held (h : Grown es f) {a b : α} (hh : Relation.EqvGen (Held es (· ∈ (f.trim nr).elements)) a b)
    {i j : Nat} (hi : f.Alive nr i) (hj : f.Alive nr j) (ha : f.varAt? i = some a) (hb : f.varAt? j = some b) :
    Relation.EqvGen (f.AliveStep nr) i j := by
  induction hh generalizing i j with
  | rel a b hab =>
    obtain ⟨hla, hlb, e, he, hl, hma, hmb⟩ := hab
    obtain ⟨i', -, hi', hstep⟩ := h.aliveStep_of_member he hl hma hla
    obtain ⟨j', -, hj', hij⟩ := hstep hmb hlb
    rwa [varAt?_inj h.nodup ha hi', varAt?_inj h.nodup hb hj']
  | refl a =>
    rw [varAt?_inj h.nodup ha hb]
    exact .refl _
  | symm _ _ _ ih => exact .symm _ _ (ih hj hi hb ha)
  | trans a c b hac _ ih ih' =>
    have hlc := (iff_of_eqvGen (fun _ _ hs => ⟨hs.1, hs.2.1⟩) hac).1 ((mem_elements_trim a).2 ⟨i, hi, ha⟩)
    obtain ⟨m, hm, hc⟩ := (mem_elements_trim c).1 hlc
    exact (ih hi hm ha hc).trans _ _ _ (ih' hm hj hc hb)

/-- After trimming, the components are what insertions that are not lost hold together. -/
theorem together_iff (h : Grown es f) {a b : α} (ha : a ∈ (f.trim nr).elements) (hb : b ∈ (f.trim nr).elements) :
    (f.trim nr).Together le a b ↔ Relation.EqvGen (Held es (· ∈ (f.trim nr).elements)) a b := by
  obtain ⟨i, hi, hva⟩ := (mem_elements_trim a).1 ha
  obtain ⟨j, hj, hvb⟩ := (mem_elements_trim b).1 hb
  rw [together_trim_iff h.nodup hi hj hva hvb]
  constructor
  · intro hc
    exact h.held_of_eqvGen hc (speaksFor_of_varAt? hi hva) (speaksFor_of_varAt? hj hvb)
  · intro hh
    exact h.eqvGen_of_held hh hi hj hva hvb

end Grown

end Forest

/-! ## What calls discover together -/

namespace WorkList

variable {calls : List (Option α × Discovery α)}

/-- Two elements are candidates of one discovery, or one is its source and the other a candidate. -/
def CoDiscovered (calls : List (Option α × Discovery α)) (a b : α) : Prop :=
  ∃ c ∈ calls, (a ∈ c.2.vars ∧ b ∈ c.2.vars) ∨ (c.1 = some a ∧ b ∈ c.2.vars) ∨ (a ∈ c.2.vars ∧ c.1 = some b)

/-- Two members of one insertion are one, or they were discovered together. -/
theorem eq_or_coDiscovered {e : Insertion α} (he : e ∈ (empty : WorkList α).insertions calls) {a b : α}
    (ha : e.Member a) (hb : e.Member b) : a = b ∨ CoDiscovered calls a b := by
  have hc := (mem_insertions calls he).1
  rcases ha with ha | ha <;> rcases hb with hb | hb
  · exact Or.inl (Option.some.inj (ha.symm.trans hb))
  · exact Or.inr ⟨_, hc, Or.inr (Or.inl ⟨ha, hb⟩)⟩
  · exact Or.inr ⟨_, hc, Or.inr (Or.inr ⟨ha, hb⟩)⟩
  · exact Or.inr ⟨_, hc, Or.inl ⟨ha, hb⟩⟩

theorem CoDiscovered.exists_insertion {a b : α} (h : CoDiscovered calls a b) :
    ∃ e ∈ (empty : WorkList α).insertions calls, e.Member a ∧ e.Member b := by
  obtain ⟨⟨s, d⟩, hc, h⟩ := h
  obtain ⟨e, he, rfl, rfl⟩ := exists_insertion_of_mem calls empty hc
  refine ⟨e, he, ?_⟩
  rcases h with ⟨ha, hb⟩ | ⟨ha, hb⟩ | ⟨ha, hb⟩
  · exact ⟨Or.inr ha, Or.inr hb⟩
  · exact ⟨Or.inl ha, Or.inr hb⟩
  · exact ⟨Or.inr ha, Or.inl hb⟩

/-! ## Components of the survivors -/

variable {nr : List α} {le : α → α → Bool}

/-- An element has a node, and trimming does not remove it. -/
def Survives (calls : List (Option α × Discovery α)) (nr : List α) (v : α) : Prop :=
  v ∈ (ofCalls calls).forest.elements ∧ v ∉ (ofCalls calls).forest.trimmed nr

/-- Two survivors that were discovered together. -/
def Bound (calls : List (Option α × Discovery α)) (nr : List α) (a b : α) : Prop :=
  Survives calls nr a ∧ Survives calls nr b ∧ CoDiscovered calls a b

/-- Two survivors lie in one component after trimming. -/
abbrev Joined (calls : List (Option α × Discovery α)) (nr : List α) (le : α → α → Bool) (a b : α) : Prop :=
  ((ofCalls calls).forest.trim nr).Together le a b

theorem mem_elements_trim_iff (h : Rooted calls) (v : α) :
    v ∈ ((ofCalls calls).forest.trim nr).elements ↔ Survives calls nr v := by
  unfold Survives
  rw [Forest.mem_trimmed_iff (grown_ofCalls h).nodup]
  constructor
  · intro hv
    exact ⟨((ofCalls calls).forest.elements_trim_sublist nr).mem hv, fun hn => hn.2 hv⟩
  · rintro ⟨hv, hn⟩
    by_contra ht
    exact hn ⟨hv, ht⟩

/-- Only a survivor has discovered survivors. -/
theorem Survives.source (h : Rooted calls) {x v : α} {d : Discovery α} (hc : (some x, d) ∈ calls) (hv : v ∈ d.vars)
    (hs : Survives calls nr v) : Survives calls nr x := by
  obtain ⟨e, he, hx, rfl⟩ := exists_insertion_of_mem calls empty hc
  rw [← mem_elements_trim_iff h] at hs ⊢
  by_contra hr
  exact (grown_ofCalls h).removed_of_source he hx hr hv hs

theorem joined_iff (h : Rooted calls) {a b : α} (ha : Survives calls nr a) (hb : Survives calls nr b) :
    Joined calls nr le a b ↔ Relation.EqvGen (Held (empty.insertions calls) (Survives calls nr)) a b := by
  have hlives : (· ∈ ((ofCalls calls).forest.trim nr).elements) = Survives calls nr :=
    funext fun v => propext (mem_elements_trim_iff h v)
  rw [← hlives]
  exact (grown_ofCalls h).together_iff ((mem_elements_trim_iff h a).2 ha) ((mem_elements_trim_iff h b).2 hb)

theorem Joined.survives (h : Rooted calls) {a b : α} (hj : Joined calls nr le a b) :
    Survives calls nr a ∧ Survives calls nr b := by
  obtain ⟨c, hc, ha, hb⟩ := hj
  have hp := ((ofCalls calls).forest.sound_trim nr).components_flatten_perm le
  exact ⟨(mem_elements_trim_iff h a).1 (hp.mem_iff.1 (List.mem_flatten.2 ⟨c, hc, ha⟩)),
    (mem_elements_trim_iff h b).1 (hp.mem_iff.1 (List.mem_flatten.2 ⟨c, hc, hb⟩))⟩

theorem eqvGen_bound_of_joined (h : Rooted calls) {a b : α} (hj : Joined calls nr le a b) :
    Relation.EqvGen (Bound calls nr) a b := by
  obtain ⟨ha, hb⟩ := hj.survives h
  have hh := (joined_iff h ha hb).1 hj
  clear hj ha hb
  induction hh with
  | rel a b hab =>
    obtain ⟨ha, hb, e, he, -, hma, hmb⟩ := hab
    rcases eq_or_coDiscovered he hma hmb with rfl | hc
    · exact .refl _
    · exact .rel _ _ ⟨ha, hb, hc⟩
  | refl => exact .refl _
  | symm _ _ _ ih => exact ih.symm
  | trans _ _ _ _ _ ih ih' => exact ih.trans _ _ _ ih'

/-- Survivors connected by co-discovery are joined, when the members that each lost insertion leaves are. -/
theorem joined_of_eqvGen_bound (h : Rooted calls)
    (hlost : ∀ e ∈ empty.insertions calls, e.Lost (Survives calls nr) → ∀ a b, e.Member a → e.Member b →
      Survives calls nr a → Survives calls nr b → Joined calls nr le a b)
    {a b : α} (hab : Relation.EqvGen (Bound calls nr) a b) (ha : Survives calls nr a) : Joined calls nr le a b := by
  have hb := (iff_of_eqvGen (fun _ _ hs => ⟨hs.1, hs.2.1⟩) hab).1 ha
  rw [joined_iff h ha hb]
  clear ha hb
  induction hab with
  | rel a b hab =>
    obtain ⟨ha, hb, hc⟩ := hab
    obtain ⟨e, he, hma, hmb⟩ := hc.exists_insertion
    by_cases hl : e.Lost (Survives calls nr)
    · exact (joined_iff h ha hb).1 (hlost e he hl a b hma hmb ha hb)
    · exact .rel _ _ ⟨ha, hb, e, he, hl, hma, hmb⟩
  | refl => exact .refl _
  | symm _ _ _ ih => exact ih.symm
  | trans _ _ _ _ _ ih ih' => exact ih.trans _ _ _ ih'

/-- The components are nonempty and part the survivors, and two survivors in one of them are connected by co-discovery.
They are in one component exactly when insertions that are not lost connect them. So the components are the connected
survivors exactly when what each lost insertion leaves of its members stays in one component. -/
theorem components_connect_survivors (h : Rooted calls) (nr : List α) (le : α → α → Bool) :
    ((∀ c ∈ ((ofCalls calls).forest.trim nr).components le, c ≠ []) ∧
      (((ofCalls calls).forest.trim nr).components le).flatten.Nodup ∧
      ∀ v, v ∈ (((ofCalls calls).forest.trim nr).components le).flatten ↔ Survives calls nr v) ∧
    (∀ a b, Joined calls nr le a b → Relation.EqvGen (Bound calls nr) a b) ∧
    (∀ a b, Survives calls nr a → Survives calls nr b →
      (Joined calls nr le a b ↔ Relation.EqvGen (Held (empty.insertions calls) (Survives calls nr)) a b)) ∧
    ((∀ a b, Survives calls nr a → Survives calls nr b →
      (Joined calls nr le a b ↔ Relation.EqvGen (Bound calls nr) a b)) ↔
        ∀ e ∈ empty.insertions calls, e.Lost (Survives calls nr) → ∀ a b, e.Member a → e.Member b →
          Survives calls nr a → Survives calls nr b → Joined calls nr le a b) := by
  have hs := (ofCalls calls).forest.sound_trim nr
  have hp := hs.components_flatten_perm le
  have hn := (grown_ofCalls h).nodup.sublist ((ofCalls calls).forest.elements_trim_sublist nr)
  refine ⟨⟨fun c hc => hs.ne_nil_of_mem_components hc, hp.nodup_iff.2 hn, fun v => ?_⟩,
    fun a b hj => eqvGen_bound_of_joined h hj, fun a b ha hb => joined_iff h ha hb, ?_⟩
  · rw [hp.mem_iff, mem_elements_trim_iff h]
  · constructor
    · intro hall e he _ a b hma hmb ha hb
      rcases eq_or_coDiscovered he hma hmb with rfl | hc
      · exact (hall a a ha ha).2 (.refl a)
      · exact (hall a b ha hb).2 (.rel _ _ ⟨ha, hb, hc⟩)
    · intro hlost a b ha hb
      exact ⟨fun hj => eqvGen_bound_of_joined h hj, fun hab => joined_of_eqvGen_bound h hlost hab ha⟩

/-- Three seeds, and a joint discovery of two new elements beside two of the seeds. -/
def rediscovery : List (Option Nat × Discovery Nat) :=
  [(none, ⟨[⟨0, false⟩], false⟩), (none, ⟨[⟨1, false⟩], false⟩), (none, ⟨[⟨2, false⟩], false⟩),
    (some 0, ⟨[⟨3, false⟩, ⟨4, false⟩, ⟨1, false⟩, ⟨2, false⟩], true⟩)]

theorem rooted_rediscovery : Rooted rediscovery := by
  intro e he x hx
  unfold rediscovery at he
  simp only [insertions, List.mem_cons, List.not_mem_nil, or_false] at he
  rcases he with rfl | rfl | rfl | rfl
  · cases hx
  · cases hx
  · cases hx
  · cases hx
    decide

/-- With one of the new elements left, the union holds all survivors together. -/
theorem components_connect_rediscovery : Rooted rediscovery ∧ ∀ a b,
    Survives rediscovery [3] a → Survives rediscovery [3] b →
      (Joined rediscovery [3] (fun a b => decide (a ≤ b)) a b ↔ Relation.EqvGen (Bound rediscovery [3]) a b) := by
  refine ⟨rooted_rediscovery, (components_connect_survivors rooted_rediscovery [3] _).2.2.2.2 ?_⟩
  have hlives : Survives rediscovery [3] 4 := by
    unfold Survives
    have he : (ofCalls rediscovery).forest.elements = [0, 1, 2, 3, 4] := by decide +kernel
    have ht : (ofCalls rediscovery).forest.trimmed [3] = [3] := by decide +kernel
    rw [he, ht]
    decide
  intro e he hl
  have hlast : e.gathers = true → 4 ∈ e.created := by
    unfold rediscovery at he
    simp only [insertions, List.mem_cons, List.not_mem_nil, or_false] at he
    rcases he with rfl | rfl | rfl | rfl <;> decide
  exact absurd hlives (hl.2 4 (hlast hl.1))

/-- Without both new elements the union goes, and with it the links to the seeds discovered together with them. -/
theorem rediscovered_fall_apart : ¬ ∀ a b, Survives rediscovery [3, 4] a → Survives rediscovery [3, 4] b →
    (Joined rediscovery [3, 4] (fun a b => decide (a ≤ b)) a b ↔ Relation.EqvGen (Bound rediscovery [3, 4]) a b) := by
  intro h
  have hlives : ∀ v ∈ [1, 2], Survives rediscovery [3, 4] v := by
    unfold Survives
    have he : (ofCalls rediscovery).forest.elements = [0, 1, 2, 3, 4] := by decide +kernel
    have ht : (ofCalls rediscovery).forest.trimmed [3, 4] = [3, 4] := by decide +kernel
    rw [he, ht]
    decide
  have h1 := hlives 1 (by decide)
  have h2 := hlives 2 (by decide)
  have hc : CoDiscovered rediscovery 1 2 := ⟨_, List.getLast_mem (List.cons_ne_nil _ _), Or.inl (by decide)⟩
  have hj := (h 1 2 h1 h2).2 (.rel _ _ ⟨h1, h2, hc⟩)
  have hraw : ((ofCalls rediscovery).forest.trim [3, 4]).rawComponents = [[0], [1], [2]] := by decide +kernel
  rw [Joined, Forest.together_iff_raw, hraw] at hj
  revert hj
  decide

end WorkList

end NilFlow
