import NilFlow.Proofs.Forest.Representation
import Mathlib.Algebra.Group.Nat.Defs
import Mathlib.Data.Finset.Card

/-!
# Union-find under any calls

* `UnionFind.Climbs u x out`: the loop that looks for a representative, over parents that are there and with no bound
  on its hops. `UnionFind.climbs_iff`: in proper classes it ends, and answers as `find` does.
* `UnionFind.Hangs u v c t`: one representative was hung from another. `UnionFind.union_cases`: a union hangs the
  representative of lower rank, or the second of two of one rank, after the two searches.
* `UnionFind.Weighted`: a representative of rank `k` has a class of `2 ^ k` numbers or more.
* `UnionFind.Sound u n pairs`: what every call keeps; `UnionFind.Sound.call?`, `UnionFind.Sound.calls?`.
* `UnionFind.Partitions u n pairs`: what a user of the classes relies on; `UnionFind.partitions_ofCalls`.
-/

namespace NilFlow

namespace UnionFind

/-! ## The loop -/

/-- One hop after the other over parents that are there, up to a number that is its own parent: each number passed is
pointed at its grandparent. -/
inductive Climbs : UnionFind → Nat → Nat × UnionFind → Prop where
  | stop {u : UnionFind} {x : Nat} (h : u.parent[x]? = some x) : Climbs u x (x, u)
  | hop {u : UnionFind} {x parent grand : Nat} {out : Nat × UnionFind} (hp : u.parent[x]? = some parent)
      (hne : parent ≠ x) (hg : u.parent[parent]? = some grand) (rest : Climbs (u.attach x grand) grand out) :
      Climbs u x out

theorem Climbs.unique {u : UnionFind} {x : Nat} {out out' : Nat × UnionFind} (h : u.Climbs x out)
    (h' : u.Climbs x out') : out = out' := by
  induction h with
  | stop h =>
    cases h' with
    | stop => rfl
    | hop hp hne =>
      rw [h] at hp
      exact absurd (Option.some.inj hp).symm hne
  | hop hp hne hg _ ih =>
    cases h' with
    | stop h =>
      rw [hp] at h
      exact absurd (Option.some.inj h) hne
    | hop hp' _ hg' rest =>
      obtain rfl := Option.some.inj (hp.symm.trans hp')
      obtain rfl := Option.some.inj (hg.symm.trans hg')
      exact ih rest

/-- A number whose measure is within the hops is climbed from to the end. -/
theorem climbs_climb {h : Nat → Nat} : ∀ (hops : Nat) (u : UnionFind) (x : Nat), u.Falls h → u.Within →
    x < u.parent.size → h x ≤ hops → u.Climbs x (climb hops u x)
  | 0, u, x, hf, _, hx, hh => by
    have hp : u.parentOf x = x := by
      by_contra hp
      have := hf x hp
      omega
    refine .stop ?_
    rw [getElem?_parent hx, hp]
  | hops + 1, u, x, hf, hw, hx, hh => by
    have hparent := hw x hx
    rw [climb]
    split_ifs with hp
    · refine .stop ?_
      rw [getElem?_parent hx, hp]
    · have hg := hf.grand hp
      refine .hop (getElem?_parent hx) hp (getElem?_parent hparent) ?_
      refine climbs_climb hops _ _ (hf.halve hp) (hw.halve hp) ?_ (by omega)
      rw [size_attach]
      exact hw _ hparent

/-- In proper classes the loop ends, with what `find` answers. -/
theorem climbs_iff {u : UnionFind} (hu : u.Proper) {x : Nat} (hx : x < u.parent.size) (out : Nat × UnionFind) :
    u.Climbs x out ↔ out = u.find x := by
  obtain ⟨h, hf, hb⟩ := hu.exists_bounded
  have hc : u.Climbs x (u.find x) := climbs_climb u.parent.size u x hf hu.within hx (hb x)
  constructor
  · exact fun h => h.unique hc
  · rintro rfl
    exact hc

/-! ## Other states of the same classes -/

theorem Keeps.rankOf {u v : UnionFind} (h : u.Keeps v) (r : Nat) : v.rankOf r = u.rankOf r := by
  unfold UnionFind.rankOf
  rw [h.rank]

theorem Keeps.parentOf_eq_iff {u v : UnionFind} (h : u.Keeps v) (r : Nat) : v.parentOf r = r ↔ u.parentOf r = r := by
  constructor
  · exact fun hr => ((h.represents r r).1 (represents_self hr)).top
  · exact fun hr => ((h.represents r r).2 (represents_self hr)).top

/-! ## Hanging one representative from another -/

/-- Two different representatives in range. -/
structure Apart (u : UnionFind) (c t : Nat) : Prop where
  left : u.parentOf c = c
  right : u.parentOf t = t
  left_lt : c < u.parent.size
  right_lt : t < u.parent.size
  ne : c ≠ t

theorem Apart.symm {u : UnionFind} {c t : Nat} (h : u.Apart c t) : u.Apart t c :=
  ⟨h.right, h.left, h.right_lt, h.left_lt, h.ne.symm⟩

/-- The number `c` was pointed at `t`, whose rank grew by one if the two had one rank. No other rank changed. -/
structure Hangs (u v : UnionFind) (c t : Nat) : Prop where
  parent : v.parent = (u.attach c t).parent
  rankOf : ∀ r, v.rankOf r = if r = t ∧ u.rankOf c = u.rankOf t then u.rankOf r + 1 else u.rankOf r

theorem hangs_attach {u : UnionFind} {c t : Nat} (h : u.rankOf c ≠ u.rankOf t) : u.Hangs (u.attach c t) c t := by
  refine ⟨rfl, fun r => ?_⟩
  rw [if_neg fun hr => h hr.2]
  rfl

theorem hangs_grow {u : UnionFind} {c t : Nat} (h : u.rankOf c = u.rankOf t) (ht : t < u.rank.size) :
    u.Hangs { u.attach c t with rank := u.rank.setIfInBounds t (u.rankOf t + 1) } c t := by
  refine ⟨rfl, fun r => ?_⟩
  show (u.rank.setIfInBounds t (u.rankOf t + 1)).getD r 0 = _
  rw [Array.getD_eq_getD_getElem?, Array.getElem?_setIfInBounds]
  by_cases hr : t = r
  · subst hr
    simp [ht, h]
  · rw [if_neg hr, if_neg fun h => hr h.1.symm, ← Array.getD_eq_getD_getElem?]
    rfl

/-- What a union does after the searches for its two numbers: nothing where these have one representative, and else it
hangs the representative of lower rank, or the second of two of one rank. -/
theorem union_cases {u : UnionFind} (hu : u.Proper) (hr : u.Ranked) {a b : Nat} (ha : a < u.parent.size)
    (hb : b < u.parent.size) : ∃ v, u.Keeps v ∧ v.Proper ∧
      ((u.find a).1 = (u.find b).1 ∧ u.union a b = v ∨
        v.Apart (u.find a).1 (u.find b).1 ∧
          (u.rankOf (u.find a).1 < u.rankOf (u.find b).1 ∧ v.Hangs (u.union a b) (u.find a).1 (u.find b).1 ∨
            u.rankOf (u.find b).1 ≤ u.rankOf (u.find a).1 ∧ v.Hangs (u.union a b) (u.find b).1 (u.find a).1)) := by
  obtain ⟨hk, hu₁, hra⟩ := find_spec hu a
  obtain ⟨hk', hu₂, -⟩ := find_spec hu₁ b
  have hrb := (find_spec hu b).2.2
  have hkk := hk.trans hk'
  have hla := hra.lt_size hu ha
  have hranked : (u.find a).1 < ((u.find a).2.find b).2.rank.size := by rwa [hkk.ranked hr, hkk.size]
  have hapart : (u.find a).1 ≠ (u.find b).1 → ((u.find a).2.find b).2.Apart (u.find a).1 (u.find b).1 :=
    fun hne => ⟨(hkk.parentOf_eq_iff _).2 hra.top, (hkk.parentOf_eq_iff _).2 hrb.top, hkk.size.symm ▸ hla,
      hkk.size.symm ▸ hrb.lt_size hu hb, hne⟩
  refine ⟨_, hkk, hu₂, ?_⟩
  unfold union
  simp only [find_find hu, ← hkk.rankOf]
  split_ifs with h₀ h₁ h₂
  · exact Or.inl ⟨h₀, rfl⟩
  · exact Or.inr ⟨hapart h₀, Or.inl ⟨h₁, hangs_attach (UInt8.ne_of_lt h₁)⟩⟩
  · exact Or.inr ⟨hapart h₀, Or.inr ⟨UInt8.le_of_lt h₂, hangs_attach (UInt8.ne_of_lt h₂)⟩⟩
  · have he := UInt8.le_antisymm (UInt8.not_lt.1 h₁) (UInt8.not_lt.1 h₂)
    exact Or.inr ⟨hapart h₀, Or.inr ⟨UInt8.not_lt.1 h₁, hangs_grow he hranked⟩⟩

/-- The rank that grows in a union is that of the first of two representatives of one rank. -/
theorem rankOf_union {u : UnionFind} (hu : u.Proper) (hr : u.Ranked) {a b : Nat} (ha : a < u.parent.size)
    (hb : b < u.parent.size) (r : Nat) : (u.union a b).rankOf r =
      if (u.find a).1 = r ∧ (u.find b).1 ≠ r ∧ u.rankOf (u.find b).1 = u.rankOf r then u.rankOf r + 1
      else u.rankOf r := by
  obtain ⟨v, hk, -, ⟨he, hv⟩ | ⟨hapart, ⟨hlt, hh⟩ | ⟨-, hh⟩⟩⟩ := union_cases hu hr ha hb
  · rw [hv, hk.rankOf, if_neg]
    rintro ⟨rfl, hb, -⟩
    exact hb he.symm
  · rw [hh.rankOf, hk.rankOf, hk.rankOf, hk.rankOf, if_neg fun h => UInt8.ne_of_lt hlt h.2, if_neg]
    rintro ⟨rfl, -, h⟩
    exact UInt8.ne_of_lt hlt h.symm
  · rw [hh.rankOf, hk.rankOf, hk.rankOf, hk.rankOf]
    refine if_congr ?_ rfl rfl
    constructor
    · rintro ⟨rfl, h⟩
      exact ⟨rfl, hapart.ne.symm, h⟩
    · rintro ⟨rfl, -, h⟩
      exact ⟨rfl, h⟩

/-! ## Ranks and sizes -/

open Classical in
/-- The numbers in range that a number represents. -/
noncomputable def members (u : UnionFind) (r : Nat) : Finset Nat :=
  (Finset.range u.parent.size).filter fun x => u.Represents r x

theorem mem_members {u : UnionFind} {r x : Nat} : x ∈ u.members r ↔ x < u.parent.size ∧ u.Represents r x := by
  simp [members]

theorem card_members_le (u : UnionFind) (r : Nat) : (u.members r).card ≤ u.parent.size := by
  calc (u.members r).card ≤ (Finset.range u.parent.size).card :=
        Finset.card_le_card fun _ hx => Finset.mem_range.2 (mem_members.1 hx).1
    _ = u.parent.size := Finset.card_range _

theorem Keeps.members {u v : UnionFind} (h : u.Keeps v) (r : Nat) : v.members r = u.members r := by
  ext x
  rw [mem_members, mem_members, h.size, h.represents]

/-- A representative of rank `k` represents `2 ^ k` numbers or more. -/
def Weighted (u : UnionFind) : Prop :=
  ∀ r < u.parent.size, u.parentOf r = r → 2 ^ (u.rankOf r).toNat ≤ (u.members r).card

theorem weighted_singletons (n : Nat) : (singletons n).Weighted := by
  intro r hr ht
  have hrank : (singletons n).rankOf r = 0 := by
    unfold rankOf singletons
    rw [Array.getD_eq_getD_getElem?, Array.getElem?_replicate]
    split_ifs <;> rfl
  rw [hrank]
  exact Finset.card_pos.2 ⟨r, mem_members.2 ⟨hr, represents_self ht⟩⟩

theorem Keeps.weighted {u v : UnionFind} (h : u.Keeps v) (hw : u.Weighted) : v.Weighted := by
  intro r hr ht
  rw [h.size] at hr
  rw [h.parentOf_eq_iff] at ht
  rw [h.rankOf, h.members]
  exact hw r hr ht

section Hanging

variable {u v : UnionFind} {c t r : Nat}

theorem Hangs.size (h : u.Hangs v c t) : v.parent.size = u.parent.size := by rw [h.parent, size_attach]

theorem Hangs.represents_iff (h : u.Hangs v c t) (hu : u.Proper) (ha : u.Apart c t) (r x : Nat) :
    v.Represents r x ↔ r ≠ c ∧ u.Represents r x ∨ r = t ∧ u.Represents c x := by
  obtain ⟨s, hs⟩ := hu.exists_represents x
  rw [represents_congr h.parent, (hs.attach ha.left ha.right ha.left_lt ha.ne).iff_eq, hs.iff_eq, hs.iff_eq]
  split_ifs <;> grind

theorem Hangs.top (h : u.Hangs v c t) (hu : u.Proper) (ha : u.Apart c t) (hr : v.parentOf r = r) :
    r ≠ c ∧ u.parentOf r = r := by
  rcases (h.represents_iff hu ha r r).1 (represents_self hr) with ⟨hne, hr⟩ | ⟨rfl, hr⟩
  · exact ⟨hne, hr.top⟩
  · exact absurd (hr.unique (represents_self ha.right)) ha.ne

theorem Hangs.members_of_ne (h : u.Hangs v c t) (hu : u.Proper) (ha : u.Apart c t) (hrc : r ≠ c) (hrt : r ≠ t) :
    v.members r = u.members r := by
  ext x
  rw [mem_members, mem_members, h.size, h.represents_iff hu ha]
  tauto

theorem Hangs.card_members (h : u.Hangs v c t) (hu : u.Proper) (ha : u.Apart c t) :
    (v.members t).card = (u.members t).card + (u.members c).card := by
  have hdisjoint : Disjoint (u.members t) (u.members c) := by
    rw [Finset.disjoint_left]
    intro x hx hx'
    exact ha.ne ((mem_members.1 hx').2.unique (mem_members.1 hx).2)
  have hunion : v.members t = u.members t ∪ u.members c := by
    ext x
    rw [Finset.mem_union, mem_members, mem_members, mem_members, h.size, h.represents_iff hu ha]
    have := ha.ne.symm
    tauto
  rw [hunion, Finset.card_union_of_disjoint hdisjoint]

/-- Where a rank grows, two classes of the weight of that rank came together. -/
theorem Hangs.weighted (h : u.Hangs v c t) (hu : u.Proper) (ha : u.Apart c t) (hw : u.Weighted) : v.Weighted := by
  intro r hr htop
  rw [h.size] at hr
  obtain ⟨hrc, htop⟩ := h.top hu ha htop
  have hwr := hw r hr htop
  rw [h.rankOf]
  by_cases hrt : r = t
  · subst hrt
    rw [h.card_members hu ha]
    split_ifs with hrank
    · have hwc := hw c ha.left_lt ha.left
      have hgrown : (u.rankOf r + 1).toNat ≤ (u.rankOf r).toNat + 1 := by
        rw [UInt8.toNat_add]
        exact Nat.mod_le _ _
      calc 2 ^ (u.rankOf r + 1).toNat ≤ 2 ^ ((u.rankOf r).toNat + 1) := Nat.pow_le_pow_right (by decide) hgrown
        _ = 2 ^ (u.rankOf r).toNat + 2 ^ (u.rankOf c).toNat := by rw [hrank.2, Nat.pow_succ, Nat.mul_two]
        _ ≤ (u.members r).card + (u.members c).card := Nat.add_le_add hwr hwc
    · exact hwr.trans (Nat.le_add_right _ _)
  · rw [if_neg fun h => hrt h.1, h.members_of_ne hu ha hrc hrt]
    exact hwr

end Hanging

theorem Weighted.union {u : UnionFind} (hw : u.Weighted) (hu : u.Proper) (hr : u.Ranked) {a b : Nat}
    (ha : a < u.parent.size) (hb : b < u.parent.size) : (u.union a b).Weighted := by
  obtain ⟨v, hk, hv, ⟨-, he⟩ | ⟨hapart, ⟨-, hh⟩ | ⟨-, hh⟩⟩⟩ := union_cases hu hr ha hb
  · rw [he]
    exact hk.weighted hw
  · exact hh.weighted hv hapart (hk.weighted hw)
  · exact hh.weighted hv hapart.symm (hk.weighted hw)

/-! ## Calls -/

/-- A search for a representative, or a union of two classes. -/
inductive Call where
  | find (x : Nat)
  | union (a b : Nat)
deriving Repr, DecidableEq

namespace Call

/-- The numbers of the call lie below the bound. -/
def Within (n : Nat) : Call → Prop
  | find x => x < n
  | union a b => a < n ∧ b < n

def pair? : Call → Option (Nat × Nat)
  | find _ => none
  | union a b => some (a, b)

end Call

def call? (u : UnionFind) : Call → Option UnionFind
  | .find x => (u.find? x).map (·.2)
  | .union a b => u.union? a b

def ofCalls? (n : Nat) (calls : List Call) : Option UnionFind := calls.foldlM call? (singletons n)

/-- What calls keep, when they united these pairs of the numbers below `n`. -/
structure Sound (u : UnionFind) (n : Nat) (pairs : List (Nat × Nat)) : Prop where
  size : u.parent.size = n
  proper : u.Proper
  ranked : u.Ranked
  weighted : u.Weighted
  same : ∀ x y, u.Same x y ↔ Connected pairs x y

theorem sound_singletons (n : Nat) : (singletons n).Sound n [] where
  size := by simp [singletons]
  proper := proper_singletons n
  ranked := ranked_singletons n
  weighted := weighted_singletons n
  same x y := by rw [same_singletons, connected_nil]

section Calling

variable {u : UnionFind} {n : Nat} {pairs : List (Nat × Nat)}

theorem Sound.find (h : u.Sound n pairs) (x : Nat) : (u.find x).2.Sound n pairs := by
  obtain ⟨hk, hu, -⟩ := find_spec h.proper x
  refine ⟨hk.size.trans h.size, hu, hk.ranked h.ranked, hk.weighted h.weighted, fun x y => ?_⟩
  rw [hk.same, h.same]

theorem Sound.union (h : u.Sound n pairs) {a b : Nat} (ha : a < n) (hb : b < n) :
    (u.union a b).Sound n (pairs ++ [(a, b)]) := by
  rw [← h.size] at ha hb
  obtain ⟨hu, hj⟩ := union_spec h.proper ha hb
  refine ⟨hj.size.trans h.size, hu, h.ranked.union h.proper a b, h.weighted.union h.proper h.ranked ha hb,
    fun x y => ?_⟩
  rw [hj.same, connected_snoc]
  simp only [h.same]

/-- A call in range leads to classes in which its pair is united too. -/
theorem Sound.call? (h : u.Sound n pairs) {c : Call} (hc : c.Within n) :
    ∃ v, u.call? c = some v ∧ v.Sound n (pairs ++ c.pair?.toList) := by
  cases c with
  | find x =>
    refine ⟨(u.find x).2, ?_, ?_⟩
    · show (u.find? x).map (·.2) = _
      rw [find?_eq h.proper.within (h.size ▸ hc), Option.map_some]
    · rw [Call.pair?, Option.toList_none, List.append_nil]
      exact h.find x
  | union a b =>
    obtain ⟨ha, hb⟩ := hc
    refine ⟨u.union a b, ?_, h.union ha hb⟩
    exact union?_eq h.proper h.ranked (h.size ▸ ha) (h.size ▸ hb)

theorem Sound.calls? : ∀ (calls : List Call) {u : UnionFind} {pairs : List (Nat × Nat)}, u.Sound n pairs →
    (∀ c ∈ calls, c.Within n) →
    ∃ v, calls.foldlM UnionFind.call? u = some v ∧ v.Sound n (pairs ++ calls.filterMap Call.pair?)
  | [], u, pairs, h, _ => ⟨u, rfl, by rwa [List.filterMap_nil, List.append_nil]⟩
  | c :: calls, u, pairs, h, hcs => by
    obtain ⟨v, hv, hsound⟩ := h.call? (hcs c List.mem_cons_self)
    obtain ⟨w, hw, hsound'⟩ := Sound.calls? calls hsound fun d hd => hcs d (List.mem_cons_of_mem _ hd)
    refine ⟨w, ?_, ?_⟩
    · rw [List.foldlM_cons, hv, Option.bind_eq_bind, Option.bind_some, hw]
    · have hpairs : pairs ++ (c :: calls).filterMap Call.pair? =
          pairs ++ c.pair?.toList ++ calls.filterMap Call.pair? := by
        rw [List.append_assoc]
        cases c <;> rfl
      rwa [hpairs]

end Calling

/-! ## The promise -/

open Classical in
noncomputable def connectedWith (n : Nat) (pairs : List (Nat × Nat)) (r : Nat) : Finset Nat :=
  (Finset.range n).filter fun x => Connected pairs r x

theorem mem_connectedWith {n : Nat} {pairs : List (Nat × Nat)} {r x : Nat} :
    x ∈ connectedWith n pairs r ↔ x < n ∧ Connected pairs r x := by
  simp [connectedWith]

/-- The classes of the numbers below `n` are those of the united pairs. -/
structure Partitions (u : UnionFind) (n : Nat) (pairs : List (Nat × Nat)) : Prop where
  /-- No search in range reads out of bounds. -/
  find?_eq : ∀ x < n, u.find? x = some (u.find x)
  /-- No union in range reads out of bounds. -/
  union?_eq : ∀ a < n, ∀ b < n, u.union? a b = some (u.union a b)
  /-- The loop that looks for a representative ends, and leaves one answer and one state. -/
  climbs_iff : ∀ x < n, ∀ out, u.Climbs x out ↔ out = u.find x
  /-- What a search answers is its own parent, before the search and after it. -/
  fixed : ∀ x < n, u.parent[(u.find x).1]? = some (u.find x).1 ∧
    (u.find x).2.parent[(u.find x).1]? = some (u.find x).1
  /-- Two searches have one answer exactly when the numbers are connected. -/
  find_eq_iff : ∀ a < n, ∀ b < n, (u.find a).1 = (u.find b).1 ↔ Connected pairs a b
  /-- No search changes the answer of another. -/
  find_find : ∀ x < n, ∀ y < n, ((u.find x).2.find y).1 = (u.find y).1
  /-- A representative of rank `k` is connected with `2 ^ k` numbers or more, itself among them. -/
  two_pow_rank_le : ∀ r < n, u.parent[r]? = some r → 2 ^ (u.rankOf r).toNat ≤ (connectedWith n pairs r).card
  /-- No union wraps a rank around: that of the first of two representatives of one rank grows by one. -/
  rank_union : ∀ a < n, ∀ b < n, ∀ r, ((u.union a b).rankOf r).toNat = (u.rankOf r).toNat +
    if (u.find a).1 = r ∧ (u.find b).1 ≠ r ∧ u.rankOf (u.find b).1 = u.rankOf r then 1 else 0

section Promise

variable {u : UnionFind} {n : Nat} {pairs : List (Nat × Nat)}

theorem Sound.members_eq (h : u.Sound n pairs) {r : Nat} (hr : u.parentOf r = r) :
    u.members r = connectedWith n pairs r := by
  ext x
  rw [mem_members, mem_connectedWith, h.size, ← h.same]
  refine and_congr_right fun _ => ?_
  rw [← (represents_self hr).same_right]
  exact ⟨Same.symm, Same.symm⟩

/-- Ranks of representatives stay below the number of bits of the bound. -/
theorem Sound.rank_lt (h : u.Sound n pairs) {k r : Nat} (hn : n < 2 ^ k) (hr : r < n) (ht : u.parentOf r = r) :
    (u.rankOf r).toNat < k := by
  have hpow : 2 ^ (u.rankOf r).toNat < 2 ^ k := by
    calc 2 ^ (u.rankOf r).toNat ≤ (u.members r).card := h.weighted r (h.size ▸ hr) ht
      _ ≤ n := h.size ▸ u.card_members_le r
      _ < 2 ^ k := hn
  exact (Nat.pow_lt_pow_iff_right (by decide)).1 hpow

theorem Sound.partitions (h : u.Sound n pairs) (hn : n < 2 ^ 31) : u.Partitions n pairs where
  find?_eq x hx := UnionFind.find?_eq h.proper.within (h.size ▸ hx)
  union?_eq a ha b hb := UnionFind.union?_eq h.proper h.ranked (h.size ▸ ha) (h.size ▸ hb)
  climbs_iff x hx := UnionFind.climbs_iff h.proper (h.size ▸ hx)
  fixed x hx := by
    obtain ⟨hk, hu, hr⟩ := find_spec h.proper x
    have hlt := hr.lt_size h.proper (h.size ▸ hx)
    rw [getElem?_parent hlt, getElem?_parent (hk.size.symm ▸ hlt), hr.top, (hk.parentOf_eq_iff _).2 hr.top]
    exact ⟨rfl, rfl⟩
  find_eq_iff a _ b _ := by rw [UnionFind.find_eq_iff h.proper, h.same]
  find_find x _ y _ := UnionFind.find_find h.proper x y
  two_pow_rank_le r hr ht := by
    have hr' : r < u.parent.size := h.size ▸ hr
    rw [getElem?_parent hr'] at ht
    have ht := Option.some.inj ht
    rw [← h.members_eq ht]
    exact h.weighted r hr' ht
  rank_union a ha b hb r := by
    have ha' : a < u.parent.size := h.size ▸ ha
    rw [rankOf_union h.proper h.ranked ha' (h.size ▸ hb)]
    split_ifs with hgrows
    · obtain ⟨rfl, -, -⟩ := hgrows
      have hra := (find_spec h.proper a).2.2
      have hlt := h.rank_lt hn (h.size ▸ hra.lt_size h.proper ha') hra.top
      rw [UInt8.toNat_add]
      exact Nat.mod_eq_of_lt (by simp; omega)
    · rfl

end Promise

/-- Any unions of the numbers below a bound, with any searches between them, stay within the bound and leave the classes
of the united pairs. With numbers of 31 bits, ranks are far from the end of their byte. -/
theorem partitions_ofCalls {n : Nat} (hn : n < 2 ^ 31) (calls : List Call) (h : ∀ c ∈ calls, c.Within n) :
    ∃ u, ofCalls? n calls = some u ∧ u.Partitions n (calls.filterMap Call.pair?) := by
  obtain ⟨u, hu, hsound⟩ := (sound_singletons n).calls? calls h
  exact ⟨u, hu, hsound.partitions hn⟩

/-- The classes of 0, 1 and of 2, 3 come together, and the last search halves the way from 3. -/
def doubling : List Call := [.union 0 1, .union 2 3, .find 3, .union 1 3, .find 3]

theorem partitions_doubling : ofCalls? 5 doubling = some ⟨#[0, 0, 0, 0, 4], #[2, 0, 1, 0, 0]⟩ ∧
    Partitions ⟨#[0, 0, 0, 0, 4], #[2, 0, 1, 0, 0]⟩ 5 [(0, 1), (2, 3), (1, 3)] := by
  have he : ofCalls? 5 doubling = some ⟨#[0, 0, 0, 0, 4], #[2, 0, 1, 0, 0]⟩ := by rfl
  obtain ⟨u, hu, hp⟩ := partitions_ofCalls (n := 5) (by decide) doubling (by simp [doubling, Call.Within])
  obtain rfl := Option.some.inj (he.symm.trans hu)
  exact ⟨he, hp⟩

end UnionFind

end NilFlow
