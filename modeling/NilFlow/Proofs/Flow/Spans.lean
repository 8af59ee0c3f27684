import NilFlow.Flow.Propagation
import NilFlow.Flow.Seeding
import NilFlow.Proofs.Flow.Seeding
import NilFlow.Proofs.Program.Index

/-!
# Where findings lie

Values are followed inside one file: whatever is found there has the source of a node of the same tree.

* `Cursor.Spans`: the source of a node below another one.
* `Findings.Inside`: all findings lie in a tree.
* `Classifier.dependents_inside`: so do those of the walk up from an expression.
* `Classifier.propagate_inside`, `Classifier.seedAt_inside`: and the occurrences that matches and seeds record.
-/

namespace NilFlow

/-- A stretch of source is that of a node below another one. -/
def Cursor.Spans (t : Cursor) (s : Span) : Prop := ∃ c, t.Below c ∧ c.node.span = s

/-- All findings lie in a tree. -/
def Findings.Inside (t : Cursor) (fs : Findings) : Prop := ∀ f ∈ fs.found, t.Spans f.span

namespace Findings

variable {t : Cursor} {fs gs : Findings}

theorem inside_nothing (t : Cursor) : nothing.Inside t := fun f hf => absurd hf (by simp [nothing])

theorem inside_fail (t : Cursor) (f : Failure) : (fail f).Inside t := fun f hf => absurd hf (by simp [fail])

theorem inside_one {f : Finding} (h : t.Spans f.span) : (one f).Inside t := by
  intro g hg
  obtain rfl := List.mem_singleton.1 hg
  exact h

theorem Inside.andThen (hf : fs.Inside t) (hg : gs.Inside t) : (fs.andThen gs).Inside t := by
  unfold Findings.andThen
  split
  · exact hf
  · intro f h
    rcases List.mem_append.1 h with h | h
    · exact hf f h
    · exact hg f h

end Findings

namespace Classifier

variable {k : Classifier} {t : Cursor}

/-! ## Steps of the walk -/

theorem stored_inside {context : Context} {span : Span} (h : t.Spans span) (src : Option ValueType)
    (dst : Option TypeId) (objects : List ObjectId) : (k.stored context span src dst objects).Inside t := by
  unfold stored
  split
  · exact Findings.inside_nothing t
  · exact Findings.inside_one h

theorem target_inside {lhs : Node} (h : t.Spans lhs.span) (context : Context) (src : Option ValueType)
    (dst : Option TypeId) : (k.target context lhs src dst).Inside t := by
  unfold target
  split
  · exact Findings.inside_fail t _
  · exact Findings.inside_nothing t
  · exact stored_inside h _ _ _

theorem source_inside {e : Node} (h : t.Spans e.span) (context : Context) (slot : Option Nat) (dst : Option TypeId) :
    (k.source context e slot dst).Inside t := by
  unfold source
  split
  · exact Findings.inside_nothing t
  · split
    · exact Findings.inside_fail t _
    · exact Findings.inside_nothing t
    · exact Findings.inside_one h

theorem sourceAt_inside {values : List Node} (h : ∀ e ∈ values, t.Spans e.span) (context : Context) (i receivers : Nat)
    (dst : Option TypeId) {otherwise : Findings} (ho : otherwise.Inside t) :
    (k.sourceAt context i receivers values dst otherwise).Inside t := by
  unfold sourceAt
  split
  · cases hi : values[i]? with
    | none => exact ho
    | some e => exact source_inside (h e (List.mem_of_getElem? hi)) _ _ _
  · split
    · exact source_inside (h _ List.mem_cons_self) _ _ _
    · exact ho

theorem receiver?_mem {α : Type} {i : Nat} {slot : Option Nat} {receivers : List α} {values : List Node} {x : α}
    (h : receiver? i slot receivers values = some x) : x ∈ receivers := by
  obtain ⟨j, -, hx⟩ := Option.bind_eq_some_iff.1 h
  exact List.mem_of_getElem? hx

/-- The parent of an expression in a tree, and the children of the parent. -/
structure Around (t : Cursor) (parent : Node) : Prop where
  self : t.Spans parent.span
  child : ∀ n ∈ parent.children, t.Spans n.span

theorem Around.childrenAt {parent : Node} (h : Around t parent) {f : FieldName} :
    ∀ n ∈ parent.childrenAt f, t.Spans n.span :=
  fun n hn => h.child n (List.mem_filter.1 hn).1

theorem Around.child? {parent n : Node} (h : Around t parent) {f : FieldName} (hn : parent.child? f = some n) :
    t.Spans n.span :=
  h.child n (List.mem_of_find?_eq_some hn)

theorem around_of_below {c : Cursor} (h : t.Below c) : Around t c.node where
  self := ⟨c, h, rfl⟩
  child n hn := by
    obtain ⟨d, hd, rfl⟩ := Cursor.exists_mem_children hn
    exact ⟨d, .child h hd, rfl⟩

variable {parent : Node}

theorem assignedValue_inside (h : Around t parent) (i : Nat) (slot : Option Nat) (src : Option ValueType) :
    (k.assignedValue parent i slot src).Inside t := by
  unfold assignedValue
  dsimp only
  cases hr : receiver? i slot (parent.childrenAt .lhs) (parent.childrenAt .rhs) with
  | none => exact Findings.inside_fail t _
  | some e => exact target_inside (h.childrenAt e (receiver?_mem hr)) _ _ _

theorem specValue_inside (h : Around t parent) (i : Nat) (slot : Option Nat) (src : Option ValueType) :
    (k.specValue parent i slot src).Inside t := by
  unfold specValue
  dsimp only
  split
  · split
    · exact Findings.inside_nothing t
    · exact stored_inside h.self _ _ _
  · cases hr : receiver? i slot (parent.childrenAt .names) (parent.childrenAt .values) with
    | none => exact Findings.inside_fail t _
    | some e => exact target_inside (h.childrenAt e (receiver?_mem hr)) _ _ _

theorem specName_inside (h : Around t parent) (i : Nat) (dst : Option TypeId) :
    (k.specName parent i dst).Inside t := by
  unfold specName
  dsimp only
  refine Findings.Inside.andThen ?_ (sourceAt_inside h.childrenAt _ _ _ _ (Findings.inside_nothing t))
  split
  · exact Findings.inside_one h.self
  · exact Findings.inside_nothing t

theorem returned_inside {value : Node} (h : t.Spans value.span) (c : Cursor) (i : Nat) (slot : Option Nat)
    (src : Option ValueType) : (k.returned c parent value i slot src).Inside t := by
  unfold returned
  dsimp only
  split
  · exact Findings.inside_fail t _
  · split
    · exact Findings.inside_fail t _
    · split
      · exact Findings.inside_fail t _
      · split
        · exact Findings.inside_fail t _
        · exact stored_inside h _ _ _

theorem passedTo_inside {arg : Node} (h : t.Spans arg.span) (fn : ObjectId) (i : Nat) (slot : Option Nat)
    (src : Option ValueType) : (k.passedTo parent arg fn i slot src).Inside t := by
  unfold passedTo
  split
  · exact Findings.inside_fail t _
  · split
    · exact Findings.inside_nothing t
    · split
      · exact Findings.inside_fail t _
      · exact Findings.inside_one h

theorem child?_inside (h : Around t parent) (f : FieldName) {follow : Node → Findings}
    (hfollow : ∀ e : Node, t.Spans e.span → (follow e).Inside t) :
    ((parent.child? f).elim .nothing follow).Inside t := by
  cases hf : parent.child? f with
  | none => exact Findings.inside_nothing t
  | some e => exact hfollow e (h.child? hf)

theorem sent_inside (h : Around t parent) (src : Option ValueType) : (k.sent parent src).Inside t := by
  unfold sent
  split
  · exact Findings.inside_nothing t
  · rename_i chan hchan
    exact target_inside (h.child? hchan) _ _ _

theorem ranged_inside (h : Around t parent) : (k.ranged parent).Inside t := by
  unfold ranged
  split
  · exact (child?_inside h .key fun e he => target_inside he _ _ _).andThen
      (child?_inside h .value fun e he => target_inside he _ _ _)
  · exact Findings.inside_nothing t

theorem keyedField_inside (h : t.Spans parent.span) (src : Option ValueType) : (k.keyedField parent src).Inside t := by
  unfold keyedField
  split
  · exact Findings.inside_fail t _
  · exact Findings.inside_nothing t
  · exact stored_inside h _ _ _

/-! ## The walk -/

theorem dependentsFrom_inside {n : Node} : ∀ {node : Node} {up : List Step} {slot : Option Nat},
    (Cursor.root n).Below ⟨node, up⟩ → (k.dependentsFrom node up slot).Inside (Cursor.root n)
  | node, [], slot, _ => by
    unfold dependentsFrom
    exact Findings.inside_fail _ _
  | node, s :: up, slot, h => by
    obtain ⟨hparent, -⟩ := h.parent
    have hself : (Cursor.root n).Spans node.span := ⟨_, h, rfl⟩
    have haround : Around (Cursor.root n) s.parent := around_of_below hparent
    have hup : ∀ slot, (k.dependentsFrom s.parent up slot).Inside (Cursor.root n) :=
      fun _ => dependentsFrom_inside hparent
    unfold dependentsFrom
    dsimp only
    split
    · exact Findings.inside_fail _ _
    · cases contextOf k.program.typing ⟨node, s :: up⟩ with
      | assignValue => exact assignedValue_inside haround _ _ _
      | assignTarget => exact sourceAt_inside haround.childrenAt _ _ _ _ (Findings.inside_fail _ _)
      | specValue => exact specValue_inside haround _ _ _
      | specName => exact specName_inside haround _ _
      | fieldName => exact Findings.inside_one haround.self
      | returned => exact returned_inside hself _ _ _ _
      | argument =>
        dsimp only
        split
        · split
          · exact hup _
          · exact Findings.inside_nothing _
        · exact passedTo_inside hself _ _ _ _
        · exact Findings.inside_fail _ _
      | conversion =>
        dsimp only
        split
        · exact Findings.inside_nothing _
        · exact Findings.inside_fail _ _
      | transparent | container => exact hup _
      | element =>
        dsimp only
        split
        · exact hup _
        · split
          · exact Findings.inside_fail _ _
          · exact stored_inside hself _ _ _
      | keyedValue =>
        -- the literal around a keyed element is two steps up
        dsimp only
        split
        · exact Findings.inside_nothing _
        · split
          · exact keyedField_inside haround.self _
          · exact dependentsFrom_inside hparent.parent.1
      | fieldKey => exact child?_inside haround _ fun e he => source_inside he _ _ _
      | sendValue => exact sent_inside haround _
      | sendChan => exact child?_inside haround _ fun e he => source_inside he _ _ _
      | rangeVar =>
        dsimp only
        split
        · exact Findings.inside_nothing _
        · rename_i x hx
          split
          · exact source_inside (haround.child? hx) _ _ _
          · exact Findings.inside_nothing _
      | rangeOver => exact ranged_inside haround
      | comparison | use | declaration => exact Findings.inside_nothing _
      | unknown | call | unlisted => exact Findings.inside_fail _ _
  termination_by _ up => up.length

/-! ## Occurrences -/

theorem flowOf_inside {fs : Findings} (h : fs.Inside t) {o : Occurrence} (ho : o ∈ (k.flowOf fs.found).occurrences) :
    t.Spans o.span := by
  obtain ho | ⟨flow, hflow, ho⟩ := (Flow.mem_occurrences_foldl _ _).1 ho
  · exact absurd ho (by simp [Flow.empty])
  · obtain ⟨f, hf, rfl⟩ := List.mem_map.1 hflow
    unfold flowOfFinding at ho
    cases hd : k.discovery? f with
    | none => simp [hd, Flow.empty] at ho
    | some d =>
      rw [hd] at ho
      obtain ⟨v, -, rfl⟩ := List.mem_map.1 ho
      exact h f hf

variable {n : Node} {c : Cursor} {m : Match} {T : Typing}

theorem exists_cursor_of_matchFrom (hc : (Cursor.root n).Below c) (hm : MatchFrom T c m)
    (hd : m.inDocComment = false) :
    ∃ d, (Cursor.root n).Below d ∧ m.cursor = some d ∧ m.span = d.node.span := by
  have hchild : ∀ {d e : Cursor} {f : FieldName}, (Cursor.root n).Below d → e ∈ d.childrenAt f →
      (Cursor.root n).Below e := fun hd he => .child hd (Cursor.mem_childrenAt.1 he).1
  cases hm with
  | ident => exact ⟨c, hc, rfl, rfl⟩
  | call => exact ⟨c, hc, rfl, rfl⟩
  | @argument call arg fn q sig j v slot _ _ hcall harg _ _ =>
    have hbelow := (calls_of_callOf? hc hcall).below_call hc
    exact ⟨arg, hchild (f := .args) hbelow (mem_of_argument harg), rfl, rfl⟩
  | funcValue => exact ⟨c, hc, rfl, rfl⟩
  | @returned value sig i v hk hs hi hvalue =>
    exact ⟨value, hchild (f := .results) hc (mem_of_returned hvalue), rfl, rfl⟩
  | docLink h _ _ => simp [h] at hd

theorem wholeSelector_below {d : Cursor} (h : (Cursor.root n).Below d) : (Cursor.root n).Below (wholeSelector d) := by
  unfold wholeSelector
  split
  · exact h.getD_parent?
  · exact h

theorem propagate_inside {d : Cursor} (hd : (Cursor.root n).Below d) (hcursor : m.cursor = some d)
    (hspan : m.span = d.node.span) {o : Occurrence} (ho : o ∈ (k.propagate m).1.occurrences) :
    (Cursor.root n).Spans o.span := by
  have hself : (Cursor.root n).Spans d.node.span := ⟨d, hd, rfl⟩
  have hfollow : (k.follow m d).2.Inside (Cursor.root n) := by
    unfold follow
    split
    · dsimp only
      split
      · rename_i call hcall
        exact dependentsFrom_inside ((calls_of_callOf? hd hcall).below_call hd)
      · exact Findings.inside_fail _ _
    · exact source_inside hself _ _ _
    · exact source_inside hself _ _ _
    · exact dependentsFrom_inside (wholeSelector_below hd)
  unfold propagate at ho
  rw [hcursor] at ho
  split at ho
  · exact absurd ho (by simp [Flow.empty])
  · exact absurd ho (by simp [Flow.empty])
  · exact absurd ho (by simp [Flow.empty])
  · rename_i e he _ _
    cases he
    rcases List.mem_append.1 ho with ho | ho
    · obtain rfl := List.mem_singleton.1 ho
      exact hspan ▸ hself
    · exact flowOf_inside hfollow ho

/-! ## Seeds -/

theorem implicitFlow_inside {span : Span} (h : t.Spans span) {names : List Node} {o : Occurrence}
    (ho : o ∈ (k.implicitFlow span names).occurrences) : t.Spans o.span := by
  obtain ho | ⟨flow, hflow, ho⟩ := (Flow.mem_occurrences_foldl _ _).1 ho
  · exact absurd ho (by simp [Flow.empty])
  · obtain ⟨object, -, hflow⟩ := List.mem_filterMap.1 hflow
    split at hflow
    · obtain ⟨v, -, rfl⟩ := Option.map_eq_some_iff.1 hflow
      obtain ⟨w, -, rfl⟩ := List.mem_map.1 ho
      exact h
    · cases hflow

theorem seedNil_inside (hc : (Cursor.root n).Below c) {s : Seeds} (h : k.seedNil .empty c = .ok s) {o : Occurrence}
    (ho : o ∈ s.flow.occurrences) : (Cursor.root n).Spans o.span := by
  have hempty : ∀ {s : Seeds}, s.flow.occurrences = [] → o ∉ s.flow.occurrences := by
    intro s hs
    simp [hs]
  unfold seedNil at h
  dsimp only at h
  split at h
  · cases h
    exact flowOf_inside (dependentsFrom_inside hc) ho
  · split at h
    · cases h
    · split at h
      · cases h
        exact absurd ho (hempty rfl)
      · split at h
        · cases h
        · split at h <;> cases h
          · exact absurd ho (hempty rfl)
          · exact absurd ho (hempty rfl)

theorem seedAt_inside (hc : (Cursor.root n).Below c) {s : Seeds} (h : k.seedAt .empty c = .ok s) {o : Occurrence}
    (ho : o ∈ s.flow.occurrences) : (Cursor.root n).Spans o.span := by
  have hempty : ∀ {s : Seeds}, s = .empty → o ∉ s.flow.occurrences := by
    rintro s rfl
    simp [Seeds.empty, Flow.empty]
  unfold seedAt at h
  split at h
  · split at h
    · exact seedNil_inside hc h ho
    · cases h
      exact absurd ho (hempty rfl)
  · cases h
    obtain ho | ⟨flow, hflow, ho⟩ := (Flow.mem_occurrences_foldl _ _).1 ho
    · exact absurd ho (by simp [Flow.empty])
    · obtain ⟨field, hfield, rfl⟩ := List.mem_map.1 hflow
      cases hfields : c.node.child? .fields with
      | none => simp [hfields] at hfield
      | some list =>
        rw [hfields] at hfield
        obtain ⟨d, hd, rfl⟩ := Cursor.exists_child hfields
        have hbelow : (Cursor.root n).Below d := .child hc (Cursor.mem_childrenAt.1 hd).1
        exact implicitFlow_inside ((around_of_below hbelow).childrenAt field hfield) ho
  · split at h <;> cases h
    · exact implicitFlow_inside ⟨c, hc, rfl⟩ ho
    · exact absurd ho (hempty rfl)
  · cases h
    exact absurd ho (hempty rfl)

end Classifier

end NilFlow
