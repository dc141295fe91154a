import Replica.Proofs.CallQueue.History

/-! # A call queue is faithful

A call that enters a queue is handed back once, as soon as its last reference has been counted off
and the queue is next asked, unless it is taken out before. The queue keeps four notes of its calls,
and they agree with each other and with the uses that were made of it.

Main definitions:
* `CallQueue.IsExact` — the index lists just those who wait.
* `CallQueue.Remembers` — what the queue holds is what remains by its uses; every use keeps it so.
* `CallQueue.Faithful`, `CallQueue.faithful_of_few` — what a queue does after fewer entries than
  there are tickets. -/

namespace Replica.CallQueue

/-! ## The index -/

/-- The index of a queue is **exact** if it lists under a reference just the calls that wait for it,
and holds no empty entry. -/
structure IsExact (q : CallQueue) : Prop where
  /-- Just those who wait are listed. -/
  mem_iff : ∀ t r, t ∈ q.waiting.of r ↔ ∃ c, q.get? t = some c ∧ r ∈ c.missing
  /-- No entry is empty. -/
  tight : q.waiting.IsTight

namespace IsExact

variable {q : CallQueue}

/-- A queue that holds nothing is exact. -/
theorem empty : CallQueue.empty.IsExact where
  mem_iff t r := by
    rw [get?_empty]
    simp [CallQueue.empty]
  tight := Waiters.isTight_empty

/-- A queue stays exact when a call enters under a new ticket. -/
theorem enqueue (exact : q.IsExact) (fresh : q.get? q.next = none) (call : ParkedCall) :
    (q.enqueue call).2.IsExact where
  mem_iff t r := by
    rw [mem_waiting_enqueue, get?_enqueue, exact.mem_iff]
    split
    · subst t
      simp [fresh]
    · rename_i other
      simp [other]
  tight := exact.tight.enterAll _ _

/-- An exact queue is indexed. -/
theorem indexed (exact : q.IsExact) : q.Indexed :=
  fun t c r found waits => (exact.mem_iff t r).mpr ⟨c, found, waits⟩

/-- A queue stays exact when a reference is counted off. -/
theorem resolve (exact : q.IsExact) (r : Reference) : (q.resolve r).2.IsExact where
  mem_iff t s := by
    rw [waiting_resolve, Waiters.of_clear, exact.indexed.get?_resolve]
    split
    · subst s
      simp [ParkedCall.without]
    · rename_i other
      rw [exact.mem_iff]
      simp [ParkedCall.without, other]
  tight := by
    rw [waiting_resolve]
    exact exact.tight.clear r

/-- Those are freed that wait for something, and for nothing else. -/
theorem mem_freed (exact : q.IsExact) {r : Reference} {t : Ticket} :
    t ∈ q.freed r ↔
      ∃ c, q.get? t = some c ∧ c.missing ≠ ∅ ∧ (c.without r).missing = ∅ := by
  rw [freed, List.mem_filter, Std.ExtTreeSet.mem_toList, exact.mem_iff, isFreedBy]
  constructor
  · rintro ⟨⟨c, found, waits⟩, last⟩
    rw [found] at last
    simp only [Bool.and_eq_true, Std.ExtTreeSet.isEmpty_iff] at last
    refine ⟨c, found, fun none => ?_, last.2⟩
    rw [none] at waits
    simp at waits
  · rintro ⟨c, found, some, last⟩
    -- It waits for `r`, or it would wait for the same as before.
    have waits : r ∈ c.missing := by
      by_contra absent
      refine some (Std.ExtTreeSet.ext_mem fun s => ⟨fun mem => ?_, fun mem => by simp at mem⟩)
      rw [← last, ParkedCall.without, Std.ExtTreeSet.mem_erase]
      refine ⟨fun same => ?_, mem⟩
      rw [Std.compare_eq_iff_eq.mp same] at absent
      exact absent mem
    refine ⟨⟨c, found, waits⟩, ?_⟩
    rw [found]
    simpa [waits, ParkedCall.without] using last

/-- Those who are handed back wait for nothing. -/
theorem drain (exact : q.IsExact)
    (rested : ∀ t ∈ q.ready, ∀ c, q.get? t = some c → c.missing = ∅) : q.drain.2.IsExact where
  mem_iff t r := by
    rw [get?_drain]
    refine (exact.mem_iff t r).trans ?_
    split
    · rename_i ready
      refine iff_of_false ?_ (by simp)
      rintro ⟨c, found, waits⟩
      rw [rested t ready c found] at waits
      simp at waits
    · rfl
  tight := exact.tight

/-- A queue stays exact when a call is taken out. -/
theorem remove (exact : q.IsExact) (t : Ticket) : (q.remove t).IsExact := by
  cases found : q.get? t with
  | none =>
    have same : q.remove t = q := by
      rw [CallQueue.remove, show q.pending[t]? = none from found]
    rwa [same]
  | some call =>
    have struck : (q.remove t).waiting = q.waiting.strikeAll t call.missing.toList := by
      rw [CallQueue.remove, show q.pending[t]? = some call from found]
    constructor
    · intro u r
      rw [struck, Waiters.mem_of_strikeAll, Std.ExtTreeSet.mem_toList, get?_remove, exact.mem_iff]
      split
      · subst u
        simp [found]
      · rename_i other
        simp [other]
    · rw [struck]
      exact exact.tight.strikeAll _ _

end IsExact

/-- Who is taken out is no longer ready. -/
theorem ready_remove {q : CallQueue} {t : Ticket} (known : q.get? t = none → t ∉ q.ready) :
    (q.remove t).ready = q.ready.filter (· != t) := by
  unfold CallQueue.remove
  split
  · rename_i none
    refine (List.filter_eq_self.mpr fun u mem => ?_).symm
    rw [bne_iff_ne]
    rintro rfl
    exact known none mem
  · rfl

/-! ## What the queue holds -/

/-- A queue **remembers** its uses if it holds just what remains by them, and has noted what is due.
-/
structure Remembers (h : List Use) : Prop where
  /-- The next ticket comes after those that were given out. -/
  next : (after h).next = .ofNat (entries h)
  /-- Just what remains is in the queue. -/
  pending : ∀ t c, (after h).get? t = some c ↔ Remains h t c
  /-- The index is exact. -/
  exact : (after h).IsExact
  /-- What is due is ready, in the order in which it became due. -/
  ready : ∃ order, IsAgenda h order ∧ (after h).ready = order.map (ticketAt h)

namespace Remembers

variable {h : List Use}

/-- A queue that was not used remembers all its uses. -/
theorem nil : Remembers [] where
  next := rfl
  pending t c := by
    refine iff_of_false (by simp [after]) ?_
    rintro ⟨p, -, ⟨inside, -⟩, -⟩
    exact Nat.not_lt_zero p inside
  exact := .empty
  ready := ⟨[], ⟨.nil, fun p => by simp [Due, IsRipe]⟩, rfl⟩

variable (remembers : Remembers h)

include remembers

/-- What is ready is in the queue, and waits for nothing. -/
theorem mem_ready {t : Ticket} :
    t ∈ (after h).ready ↔ ∃ c, (after h).get? t = some c ∧ c.missing = ∅ := by
  obtain ⟨order, agenda, ready⟩ := remembers.ready
  rw [ready, List.mem_map]
  constructor
  · rintro ⟨p, mem, rfl⟩
    obtain ⟨ripe, stays⟩ := (agenda.mem_iff p).mp mem
    obtain ⟨inside, call, entered, -⟩ := id ripe
    obtain ⟨c, holds⟩ := exists_holds entered h.length
    exact ⟨c, (remembers.pending _ c).mpr ⟨p, rfl, stays, holds⟩, (holds.isRipe_iff inside).mp ripe⟩
  · rintro ⟨c, found, none⟩
    obtain ⟨p, rfl, stays, holds⟩ := (remembers.pending t c).mp found
    exact ⟨p, (agenda.mem_iff p).mpr ⟨(holds.isRipe_iff stays.1).mpr none, stays⟩, rfl⟩

/-- What is ready misses nothing. -/
theorem missing_of_mem_ready {t : Ticket} (ready : t ∈ (after h).ready) (c : ParkedCall)
    (found : (after h).get? t = some c) : c.missing = ∅ := by
  obtain ⟨c', found', none⟩ := remembers.mem_ready.mp ready
  cases found.symm.trans found'
  exact none

/-- Nothing is ready twice. -/
theorem nodup_ready (few : entries h < 2 ^ 64) : (after h).ready.Nodup := by
  obtain ⟨order, agenda, ready⟩ := remembers.ready
  have nodup : order.Nodup := agenda.sorted.imp fun sooner same => by
    subst same
    exact sooner.irrefl _
  have entered {p : Nat} (mem : p ∈ order) : ∃ call, h[p]? = some (.enqueue call) := by
    obtain ⟨⟨-, call, at_p, -⟩, -⟩ := (agenda.mem_iff p).mp mem
    exact ⟨call, at_p⟩
  rw [ready]
  refine nodup.map_on fun p mem p' mem' same => ?_
  obtain ⟨call, at_p⟩ := entered mem
  obtain ⟨call', at_p'⟩ := entered mem'
  exact ticketAt_inj few at_p at_p' same

/-- The next ticket is not in use. -/
theorem get?_next (few : entries h < 2 ^ 64) : (after h).get? (after h).next = none := by
  rw [Option.eq_none_iff_forall_ne_some]
  intro c found
  exact ((remembers.pending _ c).mp found).ne_next few remembers.next

/-- A queue remembers a call that enters. -/
theorem enqueue (few : entries h < 2 ^ 64) (call : ParkedCall) :
    Remembers (h ++ [.enqueue call]) where
  next := by
    rw [after_concat, entries_concat]
    show (after h).next + 1 = _
    rw [remembers.next]
    exact (UInt64.ofNat_add _ _).symm
  pending t c := by
    rw [after_concat, remains_enqueue few, ← remembers.next]
    show (((after h).enqueue call).2.get? t = some c) ↔ _
    rw [get?_enqueue]
    split
    · simp [eq_comm]
    · exact remembers.pending t c
  exact := by
    rw [after_concat]
    exact remembers.exact.enqueue (remembers.get?_next few) call
  ready := by
    obtain ⟨order, agenda, ready⟩ := remembers.ready
    have last : ticketAt (h ++ [.enqueue call]) h.length = (after h).next := by
      rw [ticketAt_concat (Nat.le_refl _), ticketAt_length, remembers.next]
    have entered : (after (h ++ [.enqueue call])).ready =
        if call.missing.isEmpty then (after h).ready ++ [(after h).next] else (after h).ready := by
      rw [after_concat]
      rfl
    by_cases none : call.missing = ∅
    · refine ⟨order ++ [h.length], agenda.enqueue_ripe none, ?_⟩
      rw [entered, if_pos (Std.ExtTreeSet.isEmpty_iff.mpr none), List.map_append,
        agenda.map_concat, List.map_singleton, last, ready]
    · refine ⟨order, agenda.enqueue_unripe none, ?_⟩
      rw [entered, if_neg (fun empty => none (Std.ExtTreeSet.isEmpty_iff.mp empty)),
        agenda.map_concat, ready]

/-- The calls that stay and ripen as `r` is counted off, in the order of their entry, are freed. -/
theorem exists_ripening (few : entries h < 2 ^ 64) (r : Reference) :
    ∃ ripening : List Nat, ripening.Pairwise (· < ·) ∧
      (∀ p, p ∈ ripening ↔ Stays h p h.length ∧ RipensBy (h ++ [.resolve r]) p h.length) ∧
      (after h).freed r = ripening.map (ticketAt h) := by
  classical
  -- A call ripens if it waited for something, and is left with nothing.
  have ripens {p : Nat} {c : ParkedCall} (stays : Stays h p h.length)
      (holds : Holds h p h.length c) : RipensBy (h ++ [.resolve r]) p h.length ↔
        c.missing ≠ ∅ ∧ (c.without r).missing = ∅ := by
    have then_holds := (holds_resolve (r := r) stays.1).mpr ⟨c, holds, rfl⟩
    rw [RipensBy, isRipe_concat_of_le (Nat.le_refl _), holds.isRipe_iff stays.1,
      then_holds.isRipe_iff (Nat.lt_succ_of_lt stays.1), and_comm]
  let ripening := (List.range h.length).filter fun p =>
    decide (Stays h p h.length ∧ RipensBy (h ++ [.resolve r]) p h.length)
  have mem (p : Nat) : p ∈ ripening ↔
      Stays h p h.length ∧ RipensBy (h ++ [.resolve r]) p h.length := by
    simp only [ripening, List.mem_filter, List.mem_range, decide_eq_true_eq, and_iff_right_iff_imp]
    exact fun both => both.1.1
  have ascending : ripening.Pairwise (· < ·) := List.pairwise_lt_range.filter _
  have entered {p : Nat} (here : p ∈ ripening) : ∃ call, h[p]? = some (.enqueue call) := by
    obtain ⟨stays, ⟨-, call, entered, -⟩, -⟩ := (mem p).mp here
    exact ⟨call, (getElem?_concat stays.1).symm.trans entered⟩
  refine ⟨ripening, ascending, mem, ?_⟩
  -- Both lists ascend, so they are the same if they have the same members.
  have sorted : (ripening.map (ticketAt h)).Pairwise (· < ·) := by
    refine List.pairwise_map.mpr (List.Pairwise.imp_of_mem (fun here _ less => ?_) ascending)
    obtain ⟨call, at_p⟩ := entered here
    exact ticketAt_lt few at_p less
  refine (pairwise_freed (after h) r).eq_of_mem_iff sorted fun t => ?_
  rw [remembers.exact.mem_freed, List.mem_map]
  constructor
  · rintro ⟨c, found, freed⟩
    obtain ⟨p, rfl, stays, holds⟩ := (remembers.pending t c).mp found
    exact ⟨p, (mem p).mpr ⟨stays, (ripens stays holds).mpr freed⟩, rfl⟩
  · rintro ⟨p, here, rfl⟩
    obtain ⟨call, at_p⟩ := entered here
    obtain ⟨c, holds⟩ := exists_holds at_p h.length
    obtain ⟨stays, ripe⟩ := (mem p).mp here
    exact ⟨c, (remembers.pending _ c).mpr ⟨p, rfl, stays, holds⟩, (ripens stays holds).mp ripe⟩

/-- A queue remembers a reference that is counted off. -/
theorem resolve (few : entries h < 2 ^ 64) (r : Reference) : Remembers (h ++ [.resolve r]) where
  next := by
    rw [after_concat, entries_concat]
    exact (next_resolve _ r).trans remembers.next
  pending t c := by
    rw [after_concat, remains_resolve]
    show (((after h).resolve r).2.get? t = some c) ↔ _
    simp only [remembers.exact.indexed.get?_resolve, Option.map_eq_some_iff, remembers.pending,
      @eq_comm _ c]
  exact := by
    rw [after_concat]
    exact remembers.exact.resolve r
  ready := by
    obtain ⟨order, agenda, ready⟩ := remembers.ready
    obtain ⟨ripening, ascending, mem, freed⟩ := remembers.exists_ripening few r
    refine ⟨order ++ ripening, agenda.resolve ascending mem, ?_⟩
    have found : ripening.map (ticketAt (h ++ [.resolve r])) = ripening.map (ticketAt h) :=
      List.map_congr_left fun p here => ticketAt_concat (Nat.le_of_lt ((mem p).mp here).1.1)
    rw [List.map_append, agenda.map_concat, found, ← ready, ← freed, after_concat]
    exact ready_resolve _ r

/-- A queue remembers that it handed back what was ready. -/
theorem drain : Remembers (h ++ [.drain]) where
  next := by
    rw [after_concat, entries_concat]
    exact remembers.next
  pending t c := by
    rw [after_concat, remains_drain]
    show (after h).drain.2.get? t = some c ↔ _
    rw [get?_drain, ← remembers.pending]
    split
    · rename_i ready
      refine iff_of_false (by simp) ?_
      rintro ⟨found, waits⟩
      exact waits (remembers.missing_of_mem_ready ready c found)
    · rename_i unready
      refine ⟨fun found => ⟨found, fun none => ?_⟩, And.left⟩
      exact unready (remembers.mem_ready.mpr ⟨c, found, none⟩)
  exact := by
    rw [after_concat]
    exact remembers.exact.drain fun t ready => remembers.missing_of_mem_ready ready
  ready := ⟨[], .drain, by rw [after_concat]; rfl⟩

/-- A queue remembers a call that is taken out. -/
theorem remove (t : Ticket) : Remembers (h ++ [.remove t]) where
  next := by
    rw [after_concat, entries_concat]
    refine Eq.trans ?_ remembers.next
    show ((after h).remove t).next = _
    unfold CallQueue.remove
    split <;> rfl
  pending u c := by
    rw [after_concat, remains_remove]
    show ((after h).remove t).get? u = some c ↔ _
    rw [get?_remove, ← remembers.pending]
    split
    · rename_i same
      simp [same]
    · rename_i other
      simp [other]
  exact := by
    rw [after_concat]
    exact remembers.exact.remove t
  ready := by
    obtain ⟨order, agenda, ready⟩ := remembers.ready
    refine ⟨order.filter (ticketAt h · != t), agenda.remove t, ?_⟩
    have taken : ((after h).remove t).ready = (after h).ready.filter (· != t) := by
      refine ready_remove fun none mem => ?_
      obtain ⟨c, found, -⟩ := remembers.mem_ready.mp mem
      rw [none] at found
      cases found
    have same : (order.filter (ticketAt h · != t)).map (ticketAt (h ++ [.remove t])) =
        (order.filter (ticketAt h · != t)).map (ticketAt h) :=
      List.map_congr_left fun p mem =>
        ticketAt_concat (Nat.le_of_lt (agenda.lt_length (List.mem_filter.mp mem).1))
    rw [same, after_concat]
    refine taken.trans ?_
    rw [ready, List.filter_map]
    rfl

/-- Handing back what is ready hands back what is left of the calls that are due. -/
theorem forall₂_drain {order : List Nat} (agenda : IsAgenda h order)
    (ready : (after h).ready = order.map (ticketAt h)) :
    List.Forall₂ (Holds h · h.length) order (after h).drain.1 := by
  have found : ∀ p ∈ order, ∃ c, (after h).pending[ticketAt h p]? = some c ∧
      Holds h p h.length c := by
    intro p mem
    obtain ⟨⟨inside, call, entered, -⟩, stays⟩ := (agenda.mem_iff p).mp mem
    obtain ⟨c, holds⟩ := exists_holds entered h.length
    exact ⟨c, (remembers.pending _ c).mpr ⟨p, rfl, stays, holds⟩, holds⟩
  show List.Forall₂ _ order ((after h).ready.filterMap ((after h).pending[·]?))
  rw [ready]
  clear agenda ready
  induction order with
  | nil => exact .nil
  | cons p rest ih =>
    obtain ⟨c, here, holds⟩ := found p List.mem_cons_self
    rw [List.map_cons, List.filterMap_cons_some here]
    exact .cons holds (ih fun q mem => found q (List.mem_cons_of_mem p mem))

end Remembers

/-- A queue remembers its uses as long as there are tickets left. -/
theorem remembers_of_few {h : List Use} (few : entries h < 2 ^ 64) : Remembers h := by
  induction h using List.reverseRecOn with
  | nil => exact .nil
  | append_singleton h u ih =>
    have before : entries h < 2 ^ 64 :=
      Nat.lt_of_le_of_lt (List.sublist_append_left h [u]).countP_le few
    cases u with
    | enqueue call => exact (ih before).enqueue before call
    | resolve r => exact (ih before).resolve before r
    | drain => exact (ih before).drain
    | remove t => exact (ih before).remove t

/-! ## What a queue does -/

/-- A queue is **faithful** after some uses if it holds the calls that have not left, finds them
under what they wait for, and hands back just those that wait for nothing, in the order in which
they have lost what they waited for. -/
structure Faithful (h : List Use) : Prop where
  /-- A call that enters now is given the ticket of its use. -/
  given : ∀ call, ((after h).enqueue call).1 = ticketAt h h.length
  /-- No two calls have one ticket. -/
  tickets : ∀ p p' call call', h[p]? = some (.enqueue call) → h[p']? = some (.enqueue call') →
    ticketAt h p = ticketAt h p' → p = p'
  /-- A call is pending, with what is left of it, until a use lets it leave. -/
  pending : ∀ t c, (after h).get? t = some c ↔
    ∃ p, ticketAt h p = t ∧ Stays h p h.length ∧ Holds h p h.length c
  /-- A ticket is indexed under a reference if its call is pending and waits for that reference. -/
  indexed : ∀ t r, t ∈ (after h).waiting.of r ↔ ∃ c, (after h).get? t = some c ∧ r ∈ c.missing
  /-- No index entry is empty. -/
  tight : (after h).waiting.IsTight
  /-- What is ready is pending and waits for nothing. -/
  ready : ∀ t, t ∈ (after h).ready ↔ ∃ c, (after h).get? t = some c ∧ c.missing = ∅
  /-- It is ready once. -/
  once : (after h).ready.Nodup
  /-- Counting a reference off tells how many calls have become ready by it. -/
  counted : ∀ r, ∃ made, (after (h ++ [.resolve r])).ready = (after h).ready ++ made ∧
    (∀ t ∈ made, t ∉ (after h).ready) ∧ ((after h).resolve r).1 = made.length
  /-- Handing back gives what is left of the calls that are ripe and have not left, the one first
  that was ripe sooner. -/
  handed : ∃ order : List Nat, order.Pairwise (Sooner h) ∧
    (∀ p, p ∈ order ↔ IsRipe h p h.length ∧ Stays h p h.length) ∧
    (after h).ready = order.map (ticketAt h) ∧
    List.Forall₂ (Holds h · h.length) order (after h).drain.1

/-- **A queue is faithful** after every sequence of uses by which fewer calls have entered than
there are tickets. -/
theorem faithful_of_few {h : List Use} (few : entries h < 2 ^ 64) : Faithful h := by
  have remembers := remembers_of_few few
  obtain ⟨order, agenda, ready⟩ := remembers.ready
  exact {
    given := fun call => remembers.next.trans ticketAt_length.symm
    tickets := fun p p' call call' => ticketAt_inj few
    pending := remembers.pending
    indexed := remembers.exact.mem_iff
    tight := remembers.exact.tight
    ready := fun t => remembers.mem_ready
    once := remembers.nodup_ready few
    counted := by
      intro r
      refine ⟨(after h).freed r, by rw [after_concat]; exact ready_resolve _ r, ?_,
        count_resolve _ r⟩
      intro t freed ready
      obtain ⟨c, found, waits, -⟩ := remembers.exact.mem_freed.mp freed
      exact waits (remembers.missing_of_mem_ready ready c found)
    handed := ⟨order, agenda.sorted, agenda.mem_iff, ready, remembers.forall₂_drain agenda ready⟩ }

/-- Five calls enter; the fourth waits for nothing, and the fifth is taken out when it has one
reference left. One reference frees the third call, and the next one the first and the second. -/
def mixedUses : List Use :=
  let call (function : FunctionIndex) (missing : List Reference) : Use :=
    .enqueue ⟨⟨1, 0⟩, 1, 0, ⟨function, [], 0⟩, .ofList missing⟩
  [call 0 [.root 2, .root 3], call 1 [.root 3], call 2 [.root 2], call 3 [],
    call 4 [.root 2, .root 3], .resolve (.root 2), .remove 4, .resolve (.root 3)]

theorem faithful_of_few_mixedUses :
    entries mixedUses < 2 ^ 64 ∧ Faithful mixedUses ∧
      (after mixedUses).drain.1.map (·.invocation.function) = [3, 2, 0, 1] ∧
      (after mixedUses).drain.2.isEmpty = true :=
  ⟨by decide +kernel, faithful_of_few (by decide +kernel), by decide +kernel, by decide +kernel⟩

end Replica.CallQueue
