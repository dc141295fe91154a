import Replica.CallQueue

/-! # What the call queue does

The queue keeps every invocation under its number and, beside it, who waits for each reference. A
reference that is counted off leaves every invocation, and the invocations that have lost their last
reference are handed back.

Main definitions:
* `CallQueue.Indexed` — who waits for a reference is found under it.
* `CallQueue.get?_resolve`, `CallQueue.ready_resolve` — what counting a reference off does.
* `CallQueue.get?_drain` — what handing back does. -/

namespace Replica

/-- An invocation after `r` is counted off for it. -/
def ParkedCall.without (c : ParkedCall) (r : Reference) : ParkedCall :=
  { c with missing := c.missing.erase r }

namespace CallQueue

variable {q : CallQueue}

/-! ## Parking -/

@[simp] theorem get?_empty (t : Ticket) : empty.get? t = none := by simp [get?, empty]

/-- An invocation that is parked waits for what it misses, and the others wait as before. -/
theorem mem_waiting_enqueue {call : ParkedCall} {r : Reference} {t : Ticket} :
    t ∈ (q.enqueue call).2.waiting.of r ↔ r ∈ call.missing ∧ q.next = t ∨ t ∈ q.waiting.of r := by
  simp only [enqueue, Waiters.mem_of_enterAll, Std.ExtTreeSet.mem_toList]

/-! ## Counting off -/

/-- Whether an invocation of the queue waits for `r` and nothing else. -/
def isFreedBy (q : CallQueue) (r : Reference) (t : Ticket) : Bool :=
  match q.get? t with
  | some call => call.missing.contains r && (call.missing.erase r).isEmpty
  | none => false

/-- Those who stop waiting when `r` is counted off, in the order of their arrival. -/
def freed (q : CallQueue) (r : Reference) : List Ticket :=
  (q.waiting.of r).toList.filter (q.isFreedBy r)

/-- A reference is counted off for one ticket, and every other call stays as it is. -/
theorem get?_countOff (r : Reference) (n : Nat) (t u : Ticket) :
    (countOff r (n, q) t).2.get? u =
      (q.get? u).map fun c => if u = t then c.without r else c := by
  unfold countOff get?
  dsimp only
  split
  · rename_i none
    by_cases same : u = t
    · simp [same, none]
    · simp [same]
  · rename_i call found
    -- Whether the invocation is freed or not, its entry is the only one that changes.
    have either : ∀ (q' : CallQueue),
        q'.pending = q.pending.insert t { call with missing := call.missing.erase r } →
        q'.pending[u]? = q.pending[u]?.map fun c => if u = t then c.without r else c := by
      intro q' same
      rw [same, Std.ExtTreeMap.getElem?_insert]
      by_cases eq : u = t
      · subst u
        simp [found, ParkedCall.without]
      · have ne : t ≠ u := fun h => eq h.symm
        simp [eq, ne]
    split
    · exact either _ rfl
    · exact either _ rfl

/-- Counting off for one invocation changes its own entry alone, and notes whether it is freed. -/
theorem countOff_parts (r : Reference) (n : Nat) (t : Ticket) :
    (countOff r (n, q) t).2.next = q.next ∧ (countOff r (n, q) t).2.waiting = q.waiting ∧
      (countOff r (n, q) t).2.ready = q.ready ++ [t].filter (q.isFreedBy r) ∧
      (countOff r (n, q) t).1 = n + ([t].filter (q.isFreedBy r)).length := by
  unfold countOff isFreedBy get?
  dsimp only
  split
  · rename_i none
    simp [none]
  · rename_i call found
    by_cases freed : (call.missing.contains r && (call.missing.erase r).isEmpty) = true
    · simp [found, freed]
    · simp [found, freed]

/-- Counting off for several invocations, each once. -/
theorem foldl_countOff (r : Reference) (ts : List Ticket) (nodup : ts.Nodup) (n : Nat)
    (q : CallQueue) :
    (ts.foldl (countOff r) (n, q)).2.next = q.next ∧
      (ts.foldl (countOff r) (n, q)).2.waiting = q.waiting ∧
      (ts.foldl (countOff r) (n, q)).2.ready = q.ready ++ ts.filter (q.isFreedBy r) ∧
      (ts.foldl (countOff r) (n, q)).1 = n + (ts.filter (q.isFreedBy r)).length ∧
      ∀ u, (ts.foldl (countOff r) (n, q)).2.get? u =
        (q.get? u).map fun c => if u ∈ ts then c.without r else c := by
  induction ts generalizing n q with
  | nil => simp
  | cons t ts ih =>
    obtain ⟨fresh, nodup⟩ := List.nodup_cons.mp nodup
    obtain ⟨next₁, waiting₁, ready₁, count₁⟩ := countOff_parts (q := q) r n t
    have get₁ := get?_countOff (q := q) r n t
    rw [List.foldl_cons]
    generalize step : countOff r (n, q) t = result at *
    obtain ⟨n₁, q₁⟩ := result
    -- The others are counted off in the queue that the first one leaves behind.
    obtain ⟨next₂, waiting₂, ready₂, count₂, get₂⟩ := ih nodup n₁ q₁
    -- No later invocation is `t`, so whether it is freed can still be read off `q`.
    have later : ts.filter (q₁.isFreedBy r) = ts.filter (q.isFreedBy r) := by
      refine List.filter_congr ?_
      intro u mem
      have ne : u ≠ t := by
        rintro rfl
        exact fresh mem
      simp [isFreedBy, get₁, ne]
    have whole : (t :: ts).filter (q.isFreedBy r) =
        [t].filter (q.isFreedBy r) ++ ts.filter (q.isFreedBy r) := List.filter_append [t] ts
    refine ⟨next₂.trans next₁, waiting₂.trans waiting₁, ?_, ?_, ?_⟩
    · rw [ready₂, ready₁, later, whole, List.append_assoc]
    · simp only at count₁
      rw [count₂, count₁, later, whole, List.length_append, Nat.add_assoc]
    · intro u
      rw [get₂, get₁, Option.map_map]
      by_cases same : u = t
      · subst u
        simp [Function.comp_def, fresh]
      · simp [Function.comp_def, same]

/-- A ticket waits for a reference once. -/
theorem nodup_waiting (w : Waiters Ticket) (r : Reference) : (w.of r).toList.Nodup :=
  (Std.ExtTreeSet.distinct_toList (t := w.of r)).imp fun h same => by simp [same] at h

variable (q) (r : Reference)

/-- What counting `r` off does to each part of a queue. -/
theorem resolve_spec :
    (q.resolve r).2.next = q.next ∧ (q.resolve r).2.waiting = q.waiting.clear r ∧
      (q.resolve r).2.ready = q.ready ++ q.freed r ∧ (q.resolve r).1 = (q.freed r).length ∧
      ∀ t, (q.resolve r).2.get? t =
        (q.get? t).map fun c => if t ∈ (q.waiting.of r).toList then c.without r else c := by
  obtain ⟨next, waiting, ready, count, get⟩ := foldl_countOff r _ (nodup_waiting q.waiting r) 0
    { q with waiting := q.waiting.clear r }
  exact ⟨next, waiting, ready, count.trans (Nat.zero_add _), get⟩

/-- Counting `r` off takes it from every invocation that is entered under it. -/
theorem get?_resolve (t : Ticket) :
    (q.resolve r).2.get? t =
      (q.get? t).map fun c => if t ∈ q.waiting.of r then c.without r else c := by
  simpa only [Std.ExtTreeSet.mem_toList] using (q.resolve_spec r).2.2.2.2 t

/-- Counting a reference off gives out no ticket. -/
theorem next_resolve : (q.resolve r).2.next = q.next := (q.resolve_spec r).1

/-- Nobody waits any more for a reference that is counted off. -/
theorem waiting_resolve : (q.resolve r).2.waiting = q.waiting.clear r := (q.resolve_spec r).2.1

/-- Those who are freed are handed back behind those who are ready already. -/
theorem ready_resolve : (q.resolve r).2.ready = q.ready ++ q.freed r := (q.resolve_spec r).2.2.1

/-- An arrival reports how many calls it frees. -/
theorem count_resolve : (q.resolve r).1 = (q.freed r).length := (q.resolve_spec r).2.2.2.1

/-- A call is freed once. -/
theorem nodup_freed : (q.freed r).Nodup := (nodup_waiting q.waiting r).filter _

/-- Those who are freed come in the order of their arrival. -/
theorem pairwise_freed : (q.freed r).Pairwise (· < ·) := by
  refine List.Pairwise.filter _ (Std.ExtTreeSet.ordered_toList.imp fun ascends => ?_)
  exact compareOfLessAndEq_eq_lt.mp ascends

variable {q r}

/-! ## Handing back -/

/-- What was ready is gone after the queue has handed it back. -/
theorem get?_drain (q : CallQueue) (t : Ticket) :
    q.drain.2.get? t = if t ∈ q.ready then none else q.get? t := by
  unfold drain get?
  dsimp only
  generalize q.pending = pending
  -- The entries are erased one by one, so the induction runs over what is ready.
  induction q.ready generalizing pending with
  | nil => simp
  | cons u rest ih =>
    rw [List.foldl_cons, ih, Std.ExtTreeMap.getElem?_erase]
    by_cases later : t ∈ rest
    · simp [later]
    · by_cases same : u = t
      · simp [same]
      · have ne : t ≠ u := fun h => same h.symm
        simp [later, same, ne]

/-- Where nothing is ready, nothing is handed back. -/
theorem drain_of_ready (none : q.ready = []) : q.drain = ([], q) := by
  obtain ⟨next, pending, waiting, ready⟩ := q
  cases none
  rfl

/-! ## The index -/

/-- Who waits for a reference is **indexed** under it. -/
def Indexed (q : CallQueue) : Prop :=
  ∀ (t : Ticket) (call : ParkedCall) (r : Reference), q.get? t = some call → r ∈ call.missing →
    t ∈ q.waiting.of r

namespace Indexed

/-- A queue that holds nothing is indexed. -/
theorem empty : CallQueue.empty.Indexed := by
  intro t call r found
  simp at found

/-- A call that enters is indexed under what it misses. -/
theorem enqueue (h : q.Indexed) (call : ParkedCall) : (q.enqueue call).2.Indexed := by
  intro t c r found missing
  rw [mem_waiting_enqueue]
  rw [get?_enqueue] at found
  split at found
  · cases found
    exact .inl ⟨missing, ‹_›⟩
  · exact .inr (h t c r found missing)

/-- A queue stays indexed when a reference is counted off. -/
theorem resolve (h : q.Indexed) (r : Reference) : (q.resolve r).2.Indexed := by
  intro t c s found missing
  rw [get?_resolve] at found
  obtain ⟨before, was, rfl⟩ := Option.map_eq_some_iff.mp found
  rw [waiting_resolve, Waiters.of_clear]
  -- An invocation that was counted off waits for its other references still.
  split at missing
  · obtain ⟨ne, still⟩ := Std.ExtTreeSet.mem_erase.mp missing
    have differs : r ≠ s := by simpa using ne
    rw [if_neg differs]
    exact h t before s was still
  · rename_i absent
    have here := h t before s was missing
    have differs : r ≠ s := by
      rintro rfl
      exact absent here
    rw [if_neg differs]
    exact here

/-- Counting `r` off takes it from every invocation: who is not found under it does not wait for it,
and has nothing to lose. -/
theorem get?_resolve (h : q.Indexed) (r : Reference) (t : Ticket) :
    (q.resolve r).2.get? t = (q.get? t).map (·.without r) := by
  rw [CallQueue.get?_resolve]
  refine Option.map_congr fun c found => ?_
  split
  · rfl
  · rename_i unlisted
    have absent : r ∉ c.missing := fun waits => unlisted (h t c r found waits)
    have same : c.missing.erase r = c.missing := by
      refine Std.ExtTreeSet.ext_mem fun s => ?_
      simp only [Std.ExtTreeSet.mem_erase, Std.compare_eq_iff_eq, ne_eq, and_iff_right_iff_imp]
      rintro waits rfl
      exact absent waits
    rw [ParkedCall.without, same]

/-- A queue stays indexed when it hands back what is ready. -/
theorem drain (h : q.Indexed) : q.drain.2.Indexed := by
  intro t c r found missing
  rw [get?_drain] at found
  split at found
  · cases found
  · exact h t c r found missing

end Indexed

end CallQueue

end Replica
