import NilFlow.Proofs.WorkList

/-!
# Work lists as queues

What a work list replies to any sequence of requests.

* `WorkList.Request`, `WorkList.Reply`: the four requests, and the replies to them.
* `WorkList.answer`, `WorkList.replies`, `WorkList.asked`: the reply to one request, the replies to some, and the work
  list after them.
* `WorkList.waiting`: the elements still to be taken.
* `WorkList.Queue`: what every request keeps: elements leave the frontier at its front, taken or evicted.
* `WorkList.disciplined`: elements are taken once, in the order of their creation, and never after their eviction.
-/

namespace NilFlow

namespace WorkList

/-! ## Requests -/

/-- What a work list can be asked: to insert discoveries, to evict elements, whether an element waits, and for the next
one. -/
inductive Request (α : Type) where
  | add (source : Option α) (ds : List (Discovery α))
  | remove (vs : List α)
  | hasNext
  | next
deriving DecidableEq, Repr

/-- What a work list replies: the new elements, that it is done, whether an element waits, and which one is taken. -/
inductive Reply (α : Type) where
  | created (vs : List α)
  | done
  | waits (b : Bool)
  | taken (v? : Option α)
deriving DecidableEq, Repr

variable {α : Type}

/-- The elements that a request names as candidates. -/
def Request.named : Request α → List α
  | .add _ ds => ds.flatMap Discovery.vars
  | _ => []

def Request.removed : Request α → List α
  | .remove vs => vs
  | _ => []

def Reply.new : Reply α → List α
  | .created vs => vs
  | _ => []

def Reply.out : Reply α → List α
  | .taken v? => v?.toList
  | _ => []

variable [DecidableEq α]

/-- The reply to a request, and the work list after it. Evicted elements at the front are dropped on the way. -/
def answer (w : WorkList α) : Request α → Reply α × WorkList α
  | .add source ds => (.created (w.addedBy source ds), w.addAll source ds)
  | .remove vs => (.done, w.removeAll vs)
  | .hasNext => (.waits w.hasNext, w.skipEvicted)
  | .next =>
    match w.next? with
    | some (v, rest) => (.taken (some v), rest)
    | none => (.taken none, w.skipEvicted)

def replies (w : WorkList α) : List (Request α) → List (Reply α)
  | [] => []
  | q :: qs => (w.answer q).1 :: (w.answer q).2.replies qs

def asked (w : WorkList α) (qs : List (Request α)) : WorkList α := qs.foldl (fun w q => (w.answer q).2) w

/-- The elements created by some requests, in order. -/
def created (w : WorkList α) (qs : List (Request α)) : List α := (w.replies qs).flatMap Reply.new

/-- The elements taken by some requests, in order. -/
def taken (w : WorkList α) (qs : List (Request α)) : List α := (w.replies qs).flatMap Reply.out

/-- The elements that wait to be taken. -/
def waiting (w : WorkList α) : List α := w.frontier.filter (!w.evicted.contains ·)

def named (qs : List (Request α)) : List α := qs.flatMap Request.named

def removed (qs : List (Request α)) : List α := qs.flatMap Request.removed

variable {w : WorkList α} {qs : List (Request α)} {made out gone : List α} {x : α}

/-! ## Waiting elements -/

theorem mem_waiting : x ∈ w.waiting ↔ x ∈ w.frontier ∧ x ∉ w.evicted := by simp [waiting]

theorem exists_skipped (w : WorkList α) :
    ∃ skipped, w.frontier = skipped ++ w.skipEvicted.frontier ∧ ∀ x ∈ skipped, x ∈ w.evicted :=
  ⟨w.frontier.takeWhile (w.evicted.contains ·), List.takeWhile_append_dropWhile.symm,
    fun x hx => by simpa using List.mem_takeWhile_imp hx⟩

theorem waiting_skipEvicted (w : WorkList α) : w.skipEvicted.waiting = w.waiting := by
  obtain ⟨skipped, hfront, hskip⟩ := w.exists_skipped
  have hdrop : skipped.filter (!w.evicted.contains ·) = [] := by simpa using hskip
  unfold waiting
  rw [hfront, List.filter_append, hdrop]
  rfl

theorem skipEvicted_of_next? {v : α} {rest : WorkList α} (h : w.next? = some (v, rest)) :
    w.skipEvicted = { rest with frontier := v :: rest.frontier } := by
  unfold next? at h
  split at h
  · cases h
  · rename_i v rest hfront
    cases h
    rw [← hfront]
    rfl

theorem waiting_of_next? {v : α} {rest : WorkList α} (h : w.next? = some (v, rest)) :
    w.waiting = v :: rest.waiting := by
  obtain ⟨-, hev, hv, -⟩ := next?_eq_some h
  rw [← waiting_skipEvicted, skipEvicted_of_next? h]
  exact List.filter_cons_of_pos (by simpa [hev] using hv)

theorem waiting_eq_nil (h : w.next? = none) : w.waiting = [] := by
  unfold waiting
  simpa using fun x hx => next?_eq_none h hx

theorem answer_next (w : WorkList α) :
    (w.answer .next).1 = .taken w.waiting.head? ∧ (w.answer .next).2.waiting = w.waiting.tail := by
  unfold answer
  cases h : w.next? with
  | none => simp [waiting_skipEvicted, waiting_eq_nil h]
  | some taken => simp [waiting_of_next? h]

theorem hasNext_eq (w : WorkList α) : w.hasNext = w.waiting.head?.isSome := by
  have hnext : w.hasNext = w.next?.isSome := by
    unfold hasNext next?
    split <;> simp_all
  rw [hnext]
  cases h : w.next? with
  | none => simp [waiting_eq_nil h]
  | some taken => simp [waiting_of_next? h]

/-- Asking for the next element some times hands out the waiting ones from the front. -/
theorem taken_replicate : ∀ (n : Nat) (w : WorkList α), w.taken (List.replicate n .next) = w.waiting.take n
  | 0, _ => rfl
  | n + 1, w => by
    obtain ⟨hout, hrest⟩ := w.answer_next
    have ih := taken_replicate n (w.answer .next).2
    unfold taken at ih ⊢
    rw [List.replicate_succ, replies, List.flatMap_cons, ih, hout, hrest]
    cases w.waiting <;> simp [Reply.out]

/-! ## Evicted elements -/

theorem evicted_answer (h : x ∈ w.evicted) (q : Request α) : x ∈ (w.answer q).2.evicted := by
  cases q with
  | add source ds => exact (evicted_addAll source ds w).symm ▸ h
  | remove vs => exact (mem_evicted_removeAll w vs x).2 (Or.inl h)
  | hasNext => exact h
  | next =>
    cases hnext : w.next? with
    | none =>
      rw [answer, hnext]
      exact h
    | some taken =>
      rw [answer, hnext]
      exact (next?_eq_some hnext).2.1 ▸ h

theorem not_mem_out (h : x ∈ w.evicted) (q : Request α) : x ∉ (w.answer q).1.out := by
  cases q with
  | next =>
    rw [w.answer_next.1]
    intro hx
    have hhead : w.waiting.head? = some x := by simpa [Reply.out] using hx
    exact (mem_waiting.1 (List.mem_of_mem_head? hhead)).2 h
  | _ => simp [answer, Reply.out]

theorem not_mem_taken : ∀ (qs : List (Request α)) {w : WorkList α}, x ∈ w.evicted → x ∉ w.taken qs
  | [], _, _ => by simp [taken, replies]
  | q :: qs, w, h => by
    have ih := not_mem_taken qs (evicted_answer h q)
    unfold taken at ih ⊢
    rw [replies, List.flatMap_cons, List.mem_append]
    exact fun hx => hx.elim (not_mem_out h q) ih

/-! ## What every request keeps -/

/-- A work list after requests that created, handed out and evicted some elements: what has left the frontier, at its
front, was handed out or evicted. -/
structure Queue (made out gone : List α) (w : WorkList α) : Prop where
  elements : w.forest.elements = made
  nodup : made.Nodup
  evicted : ∀ x, x ∈ w.evicted ↔ x ∈ gone
  parted : ∃ left, made = left ++ w.frontier ∧ out.Sublist left ∧ ∀ x ∈ left, x ∈ out ∨ x ∈ gone

namespace Queue

theorem addAll (h : Queue made out gone w) (source : Option α) (ds : List (Discovery α)) :
    Queue (made ++ w.addedBy source ds) out gone (w.addAll source ds) := by
  have helements : (w.addAll source ds).forest.elements = made ++ w.addedBy source ds := by
    rw [elements_addAll, h.elements]
  obtain ⟨left, hmade, hsub, hleft⟩ := h.parted
  constructor
  case elements => exact helements
  case nodup =>
    rw [← helements]
    exact nodup_elements_addAll source ds (h.elements ▸ h.nodup)
  case evicted =>
    rw [evicted_addAll]
    exact h.evicted
  case parted =>
    refine ⟨left, ?_, hsub, hleft⟩
    rw [frontier_addAll, hmade, List.append_assoc]

theorem removeAll (h : Queue made out gone w) (vs : List α) : Queue made out (gone ++ vs) (w.removeAll vs) where
  elements := h.elements
  nodup := h.nodup
  evicted x := by rw [mem_evicted_removeAll, h.evicted, List.mem_append]
  parted := by
    obtain ⟨left, hmade, hsub, hleft⟩ := h.parted
    exact ⟨left, hmade, hsub, fun x hx => (hleft x hx).imp_right (List.mem_append_left _)⟩

theorem skipEvicted (h : Queue made out gone w) : Queue made out gone w.skipEvicted where
  elements := h.elements
  nodup := h.nodup
  evicted := h.evicted
  parted := by
    obtain ⟨left, hmade, hsub, hleft⟩ := h.parted
    obtain ⟨skipped, hfront, hskip⟩ := w.exists_skipped
    refine ⟨left ++ skipped, ?_, hsub.trans (List.sublist_append_left _ _), fun x hx => ?_⟩
    · rw [hmade, hfront, List.append_assoc]
    · rcases List.mem_append.1 hx with hx | hx
      · exact hleft x hx
      · exact Or.inr ((h.evicted x).1 (hskip x hx))

theorem next (h : Queue made out gone w) {v : α} {rest : WorkList α} (hnext : w.next? = some (v, rest)) :
    Queue made (out ++ [v]) gone rest := by
  -- without the evicted elements at the front, only the first one leaves the frontier
  have hskipped := h.skipEvicted
  rw [skipEvicted_of_next? hnext] at hskipped
  obtain ⟨left, hmade, hsub, hleft⟩ := hskipped.parted
  constructor
  case elements => exact hskipped.elements
  case nodup => exact h.nodup
  case evicted => exact hskipped.evicted
  case parted =>
    refine ⟨left ++ [v], ?_, hsub.append (.refl _), fun x hx => ?_⟩
    · rw [hmade, List.append_assoc]
      rfl
    · rcases List.mem_append.1 hx with hx | hx
      · exact (hleft x hx).imp_left (List.mem_append_left _)
      · exact Or.inl (List.mem_append_right _ hx)

theorem answer (h : Queue made out gone w) (q : Request α) :
    Queue (made ++ (w.answer q).1.new) (out ++ (w.answer q).1.out) (gone ++ q.removed) (w.answer q).2 := by
  cases q with
  | add source ds => simpa [WorkList.answer, Reply.new, Reply.out, Request.removed] using h.addAll source ds
  | remove vs => simpa [WorkList.answer, Reply.new, Reply.out, Request.removed] using h.removeAll vs
  | hasNext => simpa [WorkList.answer, Reply.new, Reply.out, Request.removed] using h.skipEvicted
  | next =>
    cases hnext : w.next? with
    | none => simpa [WorkList.answer, hnext, Reply.new, Reply.out, Request.removed] using h.skipEvicted
    | some taken => simpa [WorkList.answer, hnext, Reply.new, Reply.out, Request.removed] using h.next hnext

theorem asked (h : Queue made out gone w) (qs : List (Request α)) :
    Queue (made ++ w.created qs) (out ++ w.taken qs) (gone ++ removed qs) (w.asked qs) := by
  induction qs generalizing w made out gone with
  | nil => simpa [created, taken, removed, replies, WorkList.asked] using h
  | cons q qs ih =>
    have hrest := ih (h.answer q)
    simp only [List.append_assoc] at hrest
    exact hrest

end Queue

theorem queue_asked (qs : List (Request α)) :
    Queue (empty.created qs) (empty.taken qs) (removed qs) ((empty : WorkList α).asked qs) := by
  have hempty : Queue [] [] [] (empty : WorkList α) := ⟨rfl, .nil, fun _ => .rfl, [], rfl, .slnil, by simp⟩
  simpa using hempty.asked qs

theorem mem_elements_answer (w : WorkList α) (q : Request α) :
    x ∈ (w.answer q).2.forest.elements ↔ x ∈ w.forest.elements ∨ x ∈ q.named := by
  cases q with
  | add source ds =>
    show x ∈ (w.addAll source ds).forest.elements ↔ _
    rw [addAll_eq_after, mem_elements_after]
    simp [Request.named]
  | next =>
    cases hnext : w.next? with
    | none => simp [answer, hnext, Request.named, skipEvicted]
    | some taken => simp [answer, hnext, Request.named, (next?_eq_some hnext).1]
  | _ => simp [answer, Request.named, skipEvicted, removeAll]

theorem mem_elements_asked : ∀ (qs : List (Request α)) (w : WorkList α),
    x ∈ (w.asked qs).forest.elements ↔ x ∈ w.forest.elements ∨ x ∈ named qs
  | [], w => by simp [asked, named]
  | q :: qs, w => by
    have ih := mem_elements_asked qs (w.answer q).2
    unfold asked named at ih ⊢
    rw [List.foldl_cons, ih, mem_elements_answer, List.flatMap_cons, List.mem_append, or_assoc]

/-! ## The discipline -/

/-- How a new work list treats elements, whatever it is asked. -/
structure Disciplined (qs : List (Request α)) : Prop where
  /-- An element is created at most once. -/
  nodup_created : (empty.created qs).Nodup
  /-- The elements created are the candidates. -/
  mem_created_iff : ∀ x, x ∈ empty.created qs ↔ x ∈ named qs
  /-- An element is taken at most once. -/
  nodup_taken : (empty.taken qs).Nodup
  /-- Elements are taken in the order of their creation, and those that still wait come after them in this order. -/
  in_order : (empty.taken qs ++ (empty.asked qs).waiting).Sublist (empty.created qs)
  /-- An element that was created was taken, or still waits, or was evicted without being taken. -/
  accounted : ∀ x ∈ empty.created qs, x ∈ empty.taken qs ∨ x ∈ (empty.asked qs).waiting ∨
    x ∈ removed qs ∧ x ∉ empty.taken qs ∧ x ∉ (empty.asked qs).waiting
  /-- An element that was evicted, before or after its creation, is never taken afterwards. -/
  never_taken : ∀ earlier later, qs = earlier ++ later → ∀ x ∈ removed earlier, x ∉ (empty.asked earlier).taken later
  /-- The waiting elements are those that will be taken, as often as the next one is asked for. -/
  taken_next : ∀ n, (empty.asked qs).taken (List.replicate n .next) = (empty.asked qs).waiting.take n
  /-- An element waits exactly when the next request for one is granted. -/
  hasNext_next : ∃ v?, (empty.asked qs).replies [.hasNext, .next] = [.waits v?.isSome, .taken v?]

/-- Whatever a work list is asked, in whatever order: it creates each candidate once, hands out each element at most
once and in the order of creation, keeps those that wait, loses none but those evicted, and hands out none of these. -/
theorem disciplined (qs : List (Request α)) : Disciplined qs := by
  have hq := queue_asked qs
  obtain ⟨left, hmade, hsub, hleft⟩ := hq.parted
  have horder : (empty.taken qs ++ (empty.asked qs).waiting).Sublist (empty.created qs) := by
    rw [hmade]
    exact hsub.append List.filter_sublist
  constructor
  case nodup_created => exact hq.nodup
  case mem_created_iff =>
    intro x
    rw [← hq.elements, mem_elements_asked]
    exact or_iff_right (by simp [empty, Forest.empty, Forest.elements])
  case nodup_taken => exact ((List.sublist_append_left _ _).trans horder).nodup hq.nodup
  case in_order => exact horder
  case accounted =>
    intro x hx
    by_cases htaken : x ∈ empty.taken qs
    · exact Or.inl htaken
    · by_cases hwaits : x ∈ (empty.asked qs).waiting
      · exact Or.inr (Or.inl hwaits)
      · refine Or.inr (Or.inr ⟨?_, htaken, hwaits⟩)
        rw [hmade] at hx
        rcases List.mem_append.1 hx with hx | hx
        · exact (hleft x hx).resolve_left htaken
        · rw [← hq.evicted]
          by_contra hev
          exact hwaits (mem_waiting.2 ⟨hx, hev⟩)
  case never_taken =>
    rintro earlier later - x hx
    exact not_mem_taken later (((queue_asked earlier).evicted x).2 hx)
  case taken_next => exact fun n => taken_replicate n _
  case hasNext_next =>
    refine ⟨(empty.asked qs).waiting.head?, ?_⟩
    have hnext := (empty.asked qs).skipEvicted.answer_next.1
    rw [waiting_skipEvicted] at hnext
    show [.waits _, ((empty.asked qs).skipEvicted.answer .next).1] = _
    rw [hasNext_eq, hnext]

/-- 2 is evicted before it is created and 3 while it waits, and 1 is found again after it was taken. -/
def interleaved : List (Request Nat) :=
  [.remove [2], .add none [⟨[⟨1, false⟩], false⟩, ⟨[⟨2, false⟩, ⟨3, false⟩], true⟩], .next, .remove [3],
    .add (some 1) [⟨[⟨1, false⟩, ⟨4, true⟩], false⟩], .hasNext, .next]

/-- 1 and 4 are taken, and whatever comes later, 2 and 3 are not. -/
theorem taken_interleaved : empty.replies interleaved =
      [.done, .created [1, 2, 3], .taken (some 1), .done, .created [4], .waits true, .taken (some 4)] ∧
    ∀ later, 2 ∉ (empty.asked interleaved).taken later ∧ 3 ∉ (empty.asked interleaved).taken later := by
  refine ⟨by decide, fun later => ?_⟩
  have hnever := (disciplined (interleaved ++ later)).never_taken interleaved later rfl
  exact ⟨hnever 2 (by decide), hnever 3 (by decide)⟩

end WorkList

end NilFlow
