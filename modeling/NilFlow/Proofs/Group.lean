import Mathlib.Data.List.Nodup
import Mathlib.Data.List.Pairwise
import NilFlow.Group

/-!
# Groups, and the order of their occurrences

* `filter_mergeSort`: sorting keeps entries that it does not tell apart in their order.
* `nodup_dropRepeats_iff`: dropping repetitions of neighbours leaves none at all exactly when equal entries have nothing
  else between them.
* `Group.listed`: the occurrences listed for some variables, one variable after the other.
* `GroupInput.id_of_mem_build`, `GroupInput.exists_failure_of_mem_build`: identifier and findings of a group.
* `GroupInput.occurrences_ordered`: the occurrences of a group are sorted, they are those listed for its members, and
  when none of them is repeated.
-/

namespace NilFlow

/-! ## Sorting -/

/-- Sorting keeps entries in their order when it does not tell them apart. -/
theorem filter_mergeSort {α : Type} {le : α → α → Bool}
    (htrans : ∀ a b c, le a b = true → le b c = true → le a c = true)
    (htotal : ∀ a b, (le a b || le b a) = true) {p : α → Bool} (hp : ∀ a b, p a = true → p b = true → le a b = true)
    (l : List α) : (l.mergeSort le).filter p = l.filter p := by
  have hsorted : (l.filter p).Pairwise fun a b => le a b = true := by
    refine List.pairwise_of_forall_mem_list fun a ha b hb => ?_
    exact hp a b (List.mem_filter.1 ha).2 (List.mem_filter.1 hb).2
  have hsub := (List.sublist_mergeSort htrans htotal hsorted List.filter_sublist).filter p
  rw [List.filter_filter, funext fun a => Bool.and_self (p a)] at hsub
  exact (hsub.eq_of_length ((List.mergeSort_perm l le).filter p).length_eq.symm).symm

namespace Occurrence

variable {a b : Occurrence}

theorem le_iff : a.le b = true ↔
    a.span.start < b.span.start ∨ a.span.start = b.span.start ∧ a.span.stop ≤ b.span.stop := by
  unfold le
  simp

theorem le_trans (a b c : Occurrence) (hab : a.le b = true) (hbc : b.le c = true) : a.le c = true := by
  rw [le_iff] at *
  grind

theorem le_total (a b : Occurrence) : (a.le b || b.le a) = true := by
  rw [Bool.or_eq_true, le_iff, le_iff]
  grind

theorem le_of_span_eq (h : a.span = b.span) : a.le b = true := by
  rw [le_iff, h]
  exact Or.inr ⟨rfl, Int.le_refl _⟩

/-- Occurrences that do not come after each other have the same source. -/
theorem span_eq_of_le (hab : a.le b = true) (hba : b.le a = true) : a.span = b.span := by
  rw [le_iff] at hab hba
  have hstart : a.span.start = b.span.start := by grind
  have hstop : a.span.stop = b.span.stop := by grind
  exact congrArg₂ Span.mk hstart hstop

end Occurrence

/-! ## Dropping repetitions -/

variable {α : Type}

/-- Nothing else stands between equal entries. -/
def Contiguous (l : List α) : Prop := ∀ a b, [a, b, a].Sublist l → b = a

theorem contiguous_cons_self (a : α) (l : List α) : Contiguous (a :: a :: l) ↔ Contiguous (a :: l) := by
  constructor
  · exact fun h x y hxy => h x y (hxy.cons a)
  · intro h x y hxy
    cases hxy with
    | cons _ hxy => exact h x y hxy
    | cons_cons _ hy =>
      cases hy with
      | cons _ hy => exact h a y (hy.cons_cons a)
      | cons_cons => rfl

theorem contiguous_cons_ne {a b : α} (hne : a ≠ b) (l : List α) :
    Contiguous (a :: b :: l) ↔ a ∉ b :: l ∧ Contiguous (b :: l) := by
  constructor
  · intro h
    refine ⟨fun ha => ?_, fun x y hxy => h x y (hxy.cons a)⟩
    have ha : a ∈ l := (List.mem_cons.1 ha).resolve_left hne
    exact hne (h a b (((List.singleton_sublist.2 ha).cons_cons b).cons_cons a)).symm
  · rintro ⟨ha, h⟩ x y hxy
    cases hxy with
    | cons _ hxy => exact h x y hxy
    | cons_cons _ hy => exact absurd (hy.subset (by simp)) ha

theorem mem_dropRepeats [DecidableEq α] (x : α) (l : List α) : x ∈ dropRepeats l ↔ x ∈ l := by
  fun_induction dropRepeats l with
  | case1 a rest ih => simp [ih]
  | case2 a b rest _ ih => rw [List.mem_cons, ih, ← List.mem_cons]
  | case3 => rfl

theorem dropRepeats_sublist [DecidableEq α] (l : List α) : (dropRepeats l).Sublist l := by
  fun_induction dropRepeats l with
  | case1 a rest ih => exact ih.cons a
  | case2 a b rest _ ih => exact ih.cons_cons a
  | case3 l _ => exact .refl l

/-- Dropping repetitions of neighbours leaves none at all exactly when nothing else stands between equal entries. -/
theorem nodup_dropRepeats_iff [DecidableEq α] (l : List α) : (dropRepeats l).Nodup ↔ Contiguous l := by
  fun_induction dropRepeats l with
  | case1 a rest ih => rw [ih, contiguous_cons_self]
  | case2 a b rest hne ih => rw [List.nodup_cons, mem_dropRepeats, ih, contiguous_cons_ne hne]
  | case3 l hl =>
    have hshort : l.length ≤ 1 := by
      match l, hl with
      | [], _ => exact Nat.zero_le 1
      | [a], _ => exact Nat.le_refl 1
      | a :: b :: rest, hl => exact absurd rfl (hl a b rest)
    constructor
    · intro _ a b hab
      have hlong := hab.length_le
      simp at hlong
      omega
    · intro _
      match l, hshort with
      | [], _ => exact List.nodup_nil
      | [a], _ => exact List.nodup_singleton a

/-! ## The occurrences of a group -/

namespace Group

variable {all : List Occurrence} {vs : List Variable} {o : Occurrence}

/-- The occurrences listed for some variables, one variable after the other. -/
def listed (all : List Occurrence) (vs : List Variable) : List Occurrence :=
  vs.flatMap fun v => all.filter (·.var = v)

theorem mem_occurrencesOf : o ∈ occurrencesOf all vs ↔ o ∈ all ∧ o.var ∈ vs := by
  unfold occurrencesOf
  rw [mem_dropRepeats, List.mem_mergeSort, List.mem_flatMap]
  constructor
  · rintro ⟨v, hv, ho⟩
    obtain ⟨ho, heq⟩ := List.mem_filter.1 ho
    exact ⟨ho, of_decide_eq_true heq ▸ hv⟩
  · rintro ⟨ho, hv⟩
    exact ⟨o.var, hv, List.mem_filter.2 ⟨ho, decide_eq_true rfl⟩⟩

theorem pairwise_occurrencesOf (all : List Occurrence) (vs : List Variable) :
    (occurrencesOf all vs).Pairwise fun a b => a.le b = true :=
  (List.pairwise_mergeSort Occurrence.le_trans Occurrence.le_total _).sublist (dropRepeats_sublist _)

/-- An occurrence is repeated exactly when two listings of it have one with the same source, but another context or
variable, between them. -/
theorem nodup_occurrencesOf_iff : (occurrencesOf all vs).Nodup ↔
    ∀ a b, [a, b, a].Sublist (listed all vs) → b.span = a.span → b = a := by
  have hsorted := List.pairwise_mergeSort Occurrence.le_trans Occurrence.le_total (listed all vs)
  show (dropRepeats ((listed all vs).mergeSort Occurrence.le)).Nodup ↔ _
  rw [nodup_dropRepeats_iff]
  constructor
  · intro h a b hab hspan
    refine h a b (List.sublist_mergeSort Occurrence.le_trans Occurrence.le_total ?_ hab)
    refine List.pairwise_of_forall_mem_list fun x hx y hy => Occurrence.le_of_span_eq ?_
    have hsame : ∀ o ∈ [a, b, a], o.span = a.span := by simp [hspan]
    rw [hsame x hx, hsame y hy]
  · intro h a b hab
    have hle := hsorted.sublist hab
    simp only [List.pairwise_cons, List.mem_cons, List.not_mem_nil, or_false] at hle
    have hspan : b.span = a.span := Occurrence.span_eq_of_le (hle.2.1 a rfl) (hle.1 b (Or.inl rfl))
    -- sorting does not tell the three apart, so they are listed in this order
    have hsub := hab.filter fun o => o.span = a.span
    rw [filter_mergeSort Occurrence.le_trans Occurrence.le_total fun x y hx hy => Occurrence.le_of_span_eq
      ((of_decide_eq_true hx).trans (of_decide_eq_true hy).symm)] at hsub
    have hthree : [a, b, a].filter (fun o => o.span = a.span) = [a, b, a] := by simp [hspan]
    rw [hthree] at hsub
    exact h a b (hsub.trans List.filter_sublist) hspan

end Group

/-! ## Groups of components -/

theorem kind_of_mem_elementFailures {settings : Settings} {roots : List PackageRef} {e : Element} {f : Failure}
    (hf : f ∈ elementFailures settings roots e) : f.kind = .ineligible ∨ f.kind = .foreignPackage := by
  unfold elementFailures at hf
  rcases List.mem_append.1 hf with hf | hf
  · split at hf
    · exact Or.inl (by rw [List.mem_singleton.1 hf])
    · split at hf
      · exact Or.inl (by rw [List.mem_singleton.1 hf])
      · cases hf
  · split at hf
    · cases hf
    · exact Or.inr (by rw [List.mem_singleton.1 hf])

namespace GroupInput

variable {settings : Settings} {input : GroupInput}

theorem vars_group (settings : Settings) (input : GroupInput) (component : List Variable) :
    (input.group settings component).vars = component := by
  unfold group Group.vars
  rw [List.map_map]
  exact List.map_id component

theorem map_vars_build (settings : Settings) (input : GroupInput) :
    (input.build settings).map Group.vars = input.components := by
  unfold build
  rw [List.map_map]
  conv_rhs => rw [← List.map_id input.components]
  exact List.map_congr_left fun c _ => vars_group settings input c

theorem occurrences_of_mem_build {g : Group} (hg : g ∈ input.build settings) :
    g.occurrences = Group.occurrencesOf input.occurrences g.vars := by
  obtain ⟨component, -, rfl⟩ := List.mem_map.1 hg
  rw [vars_group]
  rfl

theorem id_of_mem_build {g : Group} (hg : g ∈ input.build settings) :
    g.id = .ofName Group.idSpace (groupKey input.files g.vars) := by
  obtain ⟨component, -, rfl⟩ := List.mem_map.1 hg
  rw [vars_group]
  rfl

/-- A finding of a group grades a failure of one of the two kinds that speak against an element. -/
theorem exists_failure_of_mem_build {g : Group} {e : Entry} (hg : g ∈ input.build settings)
    (he : e ∈ g.status.entries) : ∃ f, e = settings.entry f ∧ (f.kind = .ineligible ∨ f.kind = .foreignPackage) := by
  obtain ⟨component, -, rfl⟩ := List.mem_map.1 hg
  obtain ⟨f, hf, rfl⟩ := List.mem_map.1 he
  obtain ⟨element, -, hf⟩ := List.mem_flatMap.1 hf
  exact ⟨f, rfl, kind_of_mem_elementFailures hf⟩

/-- One group is built for each component. Its occurrences are sorted by start and stop, and they are those listed for
its members. None of them is repeated exactly when nothing else with the same source is listed between two listings of
one occurrence. -/
theorem occurrences_ordered (settings : Settings) (input : GroupInput) :
    (input.build settings).map Group.vars = input.components ∧ ∀ g ∈ input.build settings,
      g.occurrences.Pairwise (fun a b =>
        a.span.start < b.span.start ∨ a.span.start = b.span.start ∧ a.span.stop ≤ b.span.stop) ∧
      (∀ o, o ∈ g.occurrences ↔ o ∈ input.occurrences ∧ o.var ∈ g.vars) ∧
      (g.occurrences.Nodup ↔
        ∀ a b, [a, b, a].Sublist (Group.listed input.occurrences g.vars) → b.span = a.span → b = a) := by
  refine ⟨map_vars_build settings input, fun g hg => ?_⟩
  rw [occurrences_of_mem_build hg]
  refine ⟨?_, fun o => Group.mem_occurrencesOf, Group.nodup_occurrencesOf_iff⟩
  exact (Group.pairwise_occurrencesOf _ _).imp Occurrence.le_iff.1

end GroupInput

/-! ## Two names of one declaration -/

namespace Initialized

/-- The variable `a` of `var a, b *int = nil, x`. -/
def varA : Variable := ⟨1, "a", 44, some ⟨0, "p"⟩, .var, none⟩

/-- The whole specification initializes `a`. -/
def initialized : Occurrence := ⟨varA, .specValue, ⟨44, 62⟩⟩

/-- The whole specification declares `a` together with another name. -/
def named : Occurrence := ⟨varA, .specName, ⟨44, 62⟩⟩

/-- The occurrences of `a`, as they are listed when it has been searched once. -/
def searched : GroupInput := ⟨none, [[varA]], fun _ => false, [initialized, initialized, named], []⟩

/-- The occurrences of `a`, as they are listed when the second value is found after the names. -/
def interleaved : GroupInput := ⟨none, [[varA]], fun _ => false, [initialized, named, initialized], []⟩

/-- Listed one after the other, the repetition is dropped. -/
theorem occurrences_searched : ∃ g, searched.build .standard = [g] ∧ g.occurrences.Perm [initialized, named] := by
  obtain ⟨-, hall⟩ := GroupInput.occurrences_ordered .standard searched
  refine ⟨searched.group .standard [varA], rfl, ?_⟩
  obtain ⟨-, hmem, hnodup⟩ := hall _ List.mem_cons_self
  have hvars : (searched.group .standard [varA]).vars = [varA] := GroupInput.vars_group ..
  rw [hvars] at hmem hnodup
  have hlisted : Group.listed searched.occurrences [varA] = [initialized, initialized, named] := by decide
  have honce : (searched.group .standard [varA]).occurrences.Nodup := by
    refine hnodup.2 fun a b hab _ => ?_
    rw [hlisted] at hab
    have heq : [a, b, a] = [initialized, initialized, named] := hab.eq_of_length rfl
    simp only [List.cons.injEq] at heq
    rw [heq.1, heq.2.1]
  refine (List.perm_ext_iff_of_nodup honce (by decide)).2 fun o => (hmem o).trans ?_
  simp only [searched, List.mem_cons, List.not_mem_nil, or_false]
  constructor
  · rintro ⟨rfl | rfl | rfl, -⟩ <;> simp
  · rintro (rfl | rfl) <;> simp [initialized, named]

/-- With the other occurrence in between, it stays. -/
theorem occurrence_repeated : ∃ g, interleaved.build .standard = [g] ∧ ¬ g.occurrences.Nodup := by
  refine ⟨interleaved.group .standard [varA], rfl, ?_⟩
  have hlisted : Group.listed interleaved.occurrences [varA] = [initialized, named, initialized] := by decide
  show ¬ (Group.occurrencesOf interleaved.occurrences [varA]).Nodup
  rw [Group.nodup_occurrencesOf_iff, hlisted]
  intro h
  exact absurd (h initialized named (.refl _) rfl) (by decide)

end Initialized

end NilFlow
