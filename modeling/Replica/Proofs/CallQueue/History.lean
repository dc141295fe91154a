import Mathlib.Algebra.GroupWithZero.Nat
import Mathlib.Data.List.Induction
import Mathlib.Data.List.Sort
import Replica.Proofs.CallQueue

/-! # Uses of a call queue

A queue is used in four ways, and what it should hold after any uses can be read off the uses
themselves: which calls have entered, which references were counted off since, and who was taken out
or handed back. Uses are numbered, and a call goes by the number of the use by which it has entered.

Main definitions:
* `CallQueue.Use`, `CallQueue.after` — uses of a queue, and what they lead to.
* `CallQueue.IsRipe`, `CallQueue.Stays`, `CallQueue.Holds` — a call that has nothing to wait for, a
  call that has not left, and what is left of a call.
* `CallQueue.Remains` — what should be found under a ticket; how each use changes it.
* `CallQueue.IsAgenda` — the calls that are due, in order; how each use changes them. -/

namespace Replica.CallQueue

/-! ## Uses -/

/-- A **use** of a call queue. -/
inductive Use where
  /-- A call enters. -/
  | enqueue (call : ParkedCall)
  /-- A reference is counted off. -/
  | resolve (r : Reference)
  /-- What is ready is handed back. -/
  | drain
  /-- A call is taken out. -/
  | remove (t : Ticket)

/-- A queue after one use. -/
def use (q : CallQueue) : Use → CallQueue
  | .enqueue call => (q.enqueue call).2
  | .resolve r => (q.resolve r).2
  | .drain => q.drain.2
  | .remove t => q.remove t

/-- The queue **after** some uses. -/
def after (h : List Use) : CallQueue := h.foldl use empty

/-- Whether a call enters. -/
def Use.enters : Use → Bool
  | .enqueue _ => true
  | _ => false

/-- How many calls have entered. -/
def entries (h : List Use) : Nat := h.countP Use.enters

/-- The ticket of the call that enters by the use number `p`. -/
def ticketAt (h : List Use) (p : Nat) : Ticket := .ofNat (entries (h.take p))

/-- A reference is **counted off** after the use number `p` and before the use number `k`. -/
def CountedOff (h : List Use) (p k : Nat) (r : Reference) : Prop :=
  ∃ m, p < m ∧ m < k ∧ h[m]? = some (.resolve r)

/-- The call that enters by the use number `p` is **ripe** before the use number `k`: each of its
references has been counted off since. -/
def IsRipe (h : List Use) (p k : Nat) : Prop :=
  p < k ∧ ∃ call, h[p]? = some (.enqueue call) ∧ ∀ r ∈ call.missing, CountedOff h p k r

/-- The use number `m` lets the call that enters by the use number `p` **leave**: it takes it out,
or hands it back because it is ripe. -/
def Leaves (h : List Use) (p m : Nat) : Prop :=
  h[m]? = some (.remove (ticketAt h p)) ∨ h[m]? = some .drain ∧ IsRipe h p m

/-- What enters by the use number `p` **stays** up to the use number `k`: no use in between lets it
leave. -/
def Stays (h : List Use) (p k : Nat) : Prop := p < k ∧ ∀ m, p < m → m < k → ¬Leaves h p m

/-- What is left before the use number `k` of the call that enters by the use number `p`: it waits
for what has not been counted off. -/
def Holds (h : List Use) (p k : Nat) (c : ParkedCall) : Prop :=
  ∃ call, h[p]? = some (.enqueue call) ∧ c = { call with missing := c.missing } ∧
    ∀ r, r ∈ c.missing ↔ r ∈ call.missing ∧ ¬CountedOff h p k r

/-- A call **ripens** by the use number `m`. -/
def RipensBy (h : List Use) (p m : Nat) : Prop := IsRipe h p (m + 1) ∧ ¬IsRipe h p m

/-- One call is ripe **sooner** than another: it ripens by an earlier use, or by the same use and
has entered earlier. -/
def Sooner (h : List Use) (p p' : Nat) : Prop :=
  ∃ m m', RipensBy h p m ∧ RipensBy h p' m' ∧ (m < m' ∨ m = m' ∧ p < p')

/-! ## One more use -/

section Concat

variable {h : List Use} {u : Use} {p k m : Nat} {r : Reference}

/-- One more use is made of the queue that the others have led to. -/
theorem after_concat : after (h ++ [u]) = (after h).use u := by simp [after]

/-- One more call has entered just if the last use lets one enter. -/
theorem entries_concat : entries (h ++ [u]) = entries h + if u.enters then 1 else 0 := by
  simp [entries, List.countP_append, List.countP_singleton]

/-- The uses before the last one keep their numbers. -/
theorem getElem?_concat (inside : m < h.length) : (h ++ [u])[m]? = h[m]? :=
  List.getElem?_append_left inside

/-- A ticket depends on the uses before it alone. -/
theorem ticketAt_concat (inside : p ≤ h.length) : ticketAt (h ++ [u]) p = ticketAt h p := by
  rw [ticketAt, List.take_append_of_le_length inside, ticketAt]

/-- Before the last use nothing else is counted off. -/
theorem countedOff_concat_of_le (inside : k ≤ h.length) :
    CountedOff (h ++ [u]) p k r ↔ CountedOff h p k r := by
  refine exists_congr fun m => and_congr_right fun _ => and_congr_right fun before => ?_
  rw [getElem?_concat (Nat.lt_of_lt_of_le before inside)]

/-- With the last use, just its reference is counted off besides. -/
theorem countedOff_concat :
    CountedOff (h ++ [u]) p (h.length + 1) r ↔
      CountedOff h p h.length r ∨ p < h.length ∧ u = .resolve r := by
  constructor
  · rintro ⟨m, after, before, at_m⟩
    rcases Nat.lt_succ_iff_lt_or_eq.mp before with inside | rfl
    · exact .inl ⟨m, after, inside, (getElem?_concat inside).symm.trans at_m⟩
    · exact .inr ⟨after, by simpa using at_m⟩
  · rintro (⟨m, after, before, at_m⟩ | ⟨inside, rfl⟩)
    · exact ⟨m, after, Nat.lt_succ_of_lt before, (getElem?_concat before).trans at_m⟩
    · exact ⟨h.length, inside, Nat.lt_succ_self _, by simp⟩

/-- Before the last use nothing else is ripe. -/
theorem isRipe_concat_of_le (inside : k ≤ h.length) : IsRipe (h ++ [u]) p k ↔ IsRipe h p k := by
  refine and_congr_right fun before => exists_congr fun call => ?_
  rw [getElem?_concat (Nat.lt_of_lt_of_le before inside)]
  exact and_congr_right fun _ => forall₂_congr fun _ _ => countedOff_concat_of_le inside

/-- What is ripe stays so. -/
theorem IsRipe.concat (ripe : IsRipe h p h.length) (u : Use) :
    IsRipe (h ++ [u]) p (h.length + 1) := by
  obtain ⟨inside, call, entered, counted⟩ := ripe
  exact ⟨Nat.lt_succ_of_lt inside, call, (getElem?_concat inside).trans entered,
    fun r mem => countedOff_concat.mpr (.inl (counted r mem))⟩

/-- Whether a use lets a call leave does not depend on later uses. -/
theorem leaves_concat_of_lt (inside : m < h.length) (entered : p ≤ h.length) :
    Leaves (h ++ [u]) p m ↔ Leaves h p m := by
  rw [Leaves, getElem?_concat inside, ticketAt_concat entered,
    isRipe_concat_of_le (Nat.le_of_lt inside), Leaves]

/-- What stays past the last use has stayed up to it and does not leave by it, or enters by it. -/
theorem stays_concat :
    Stays (h ++ [u]) p (h.length + 1) ↔
      Stays h p h.length ∧ ¬Leaves (h ++ [u]) p h.length ∨ p = h.length := by
  constructor
  · rintro ⟨inside, stays⟩
    rcases Nat.lt_succ_iff_lt_or_eq.mp inside with before | last
    · refine .inl ⟨⟨before, fun m after within leaves => ?_⟩, ?_⟩
      · exact stays m after (Nat.lt_succ_of_lt within)
          ((leaves_concat_of_lt within (Nat.le_of_lt before)).mpr leaves)
      · exact stays h.length before (Nat.lt_succ_self _)
    · exact .inr last
  · rintro (⟨⟨before, stays⟩, last⟩ | rfl)
    · refine ⟨Nat.lt_succ_of_lt before, fun m after within leaves => ?_⟩
      rcases Nat.lt_succ_iff_lt_or_eq.mp within with inside | rfl
      · exact stays m after inside
          ((leaves_concat_of_lt inside (Nat.le_of_lt before)).mp leaves)
      · exact last leaves
    · exact ⟨Nat.lt_succ_self _, fun m after within => absurd after (by omega)⟩

/-- A call ripens by a use that was made. -/
theorem RipensBy.lt (ripens : RipensBy h p m) : m < h.length := by
  obtain ⟨⟨inside, call, entered, counted⟩, unripe⟩ := ripens
  by_contra beyond
  have entry : p < h.length := (List.getElem?_eq_some_iff.mp entered).1
  refine unripe ⟨by omega, call, entered, fun r mem => ?_⟩
  obtain ⟨k, after, before, at_k⟩ := counted r mem
  have made : k < h.length := (List.getElem?_eq_some_iff.mp at_k).1
  exact ⟨k, after, by omega, at_k⟩

/-- A call that has ripened by a use has done so whatever comes later. -/
theorem RipensBy.concat (ripens : RipensBy h p m) (u : Use) : RipensBy (h ++ [u]) p m := by
  have inside := ripens.lt
  rwa [RipensBy, isRipe_concat_of_le inside, isRipe_concat_of_le (Nat.le_of_lt inside)]

/-- Which of two calls was ripe sooner does not depend on later uses. -/
theorem Sooner.concat {p' : Nat} (sooner : Sooner h p p') (u : Use) :
    Sooner (h ++ [u]) p p' := by
  obtain ⟨m, m', ripens, ripens', order⟩ := sooner
  exact ⟨m, m', ripens.concat u, ripens'.concat u, order⟩

/-- A call that is ripe stays ripe. -/
theorem IsRipe.mono (ripe : IsRipe h p k) {k' : Nat} (later : k ≤ k') : IsRipe h p k' := by
  obtain ⟨entry, call, entered, counted⟩ := ripe
  refine ⟨Nat.lt_of_lt_of_le entry later, call, entered, fun r mem => ?_⟩
  obtain ⟨m, after, before, at_m⟩ := counted r mem
  exact ⟨m, after, Nat.lt_of_lt_of_le before later, at_m⟩

/-- A call ripens once, so it is not ripe sooner than itself. -/
theorem Sooner.irrefl (p : Nat) : ¬Sooner h p p := by
  rintro ⟨m, m', ⟨ripe, -⟩, ⟨-, unripe⟩, earlier | ⟨-, less⟩⟩
  · exact unripe (ripe.mono earlier)
  · exact Nat.lt_irrefl p less

/-- A ripe call has ripened. -/
theorem IsRipe.exists_ripensBy (ripe : IsRipe h p k) : ∃ m, RipensBy h p m := by
  induction k with
  | zero => exact absurd ripe.1 (Nat.not_lt_zero p)
  | succ k ih =>
    by_cases before : IsRipe h p k
    · exact ih before
    · exact ⟨k, ripe, before⟩

end Concat

/-! ## What is left of a call -/

section Holds

variable {h : List Use} {p k : Nat} {c : ParkedCall}

/-- There is something left of every call. -/
theorem exists_holds {call : ParkedCall} (entered : h[p]? = some (.enqueue call)) (k : Nat) :
    ∃ c, Holds h p k c := by
  classical
  refine ⟨{ call with missing := call.missing.filter fun r => !decide (CountedOff h p k r) },
    call, entered, rfl, fun r => ?_⟩
  simp [Std.ExtTreeSet.mem_filter]

/-- A call is ripe just if nothing is left to wait for. -/
theorem Holds.isRipe_iff (holds : Holds h p k c) (inside : p < k) :
    IsRipe h p k ↔ c.missing = ∅ := by
  obtain ⟨call, entered, -, missing⟩ := holds
  constructor
  · rintro ⟨-, call', entered', counted⟩
    cases entered.symm.trans entered'
    refine Std.ExtTreeSet.ext_mem fun r => ?_
    rw [missing]
    simp only [Std.ExtTreeSet.not_mem_empty, iff_false, not_and, not_not]
    exact counted r
  · intro none
    refine ⟨inside, call, entered, fun r mem => ?_⟩
    by_contra uncounted
    have left : r ∈ c.missing := (missing r).mpr ⟨mem, uncounted⟩
    rw [none] at left
    simp at left

/-- A use that counts nothing off leaves calls as they are. -/
theorem holds_concat {u : Use} (inside : p < h.length) (other : ∀ r, u ≠ .resolve r) :
    Holds (h ++ [u]) p (h.length + 1) c ↔ Holds h p h.length c := by
  rw [Holds, getElem?_concat inside, Holds]
  refine exists_congr fun call => and_congr_right fun _ => and_congr_right fun _ =>
    forall_congr' fun r => ?_
  rw [countedOff_concat]
  simp [other r]

/-- What is counted off is left away. -/
theorem holds_resolve {r : Reference} (inside : p < h.length) :
    Holds (h ++ [.resolve r]) p (h.length + 1) c' ↔
      ∃ c, Holds h p h.length c ∧ c' = c.without r := by
  constructor
  · rintro ⟨call, entered, shape, missing⟩
    rw [getElem?_concat inside] at entered
    obtain ⟨c, holds⟩ := exists_holds entered h.length
    refine ⟨c, holds, ?_⟩
    obtain ⟨call', entered', shape', missing'⟩ := holds
    cases entered.symm.trans entered'
    have same : c'.missing = c.missing.erase r := by
      refine Std.ExtTreeSet.ext_mem fun q => ?_
      rw [missing, Std.ExtTreeSet.mem_erase, missing', countedOff_concat]
      simp only [inside, Use.resolve.injEq, true_and, not_or, Std.compare_eq_iff_eq, ne_eq]
      tauto
    rw [shape, same, ParkedCall.without, shape']
  · rintro ⟨c, ⟨call, entered, shape, missing⟩, rfl⟩
    refine ⟨call, (getElem?_concat inside).trans entered, ?_, fun q => ?_⟩
    · rw [ParkedCall.without, shape]
    · rw [ParkedCall.without, Std.ExtTreeSet.mem_erase, missing, countedOff_concat]
      simp only [inside, Use.resolve.injEq, true_and, not_or, Std.compare_eq_iff_eq, ne_eq]
      tauto

/-- Of a call that has just entered everything is left. -/
theorem holds_enqueue {call : ParkedCall} :
    Holds (h ++ [.enqueue call]) h.length (h.length + 1) c ↔ c = call := by
  have uncounted (r : Reference) :
      ¬CountedOff (h ++ [.enqueue call]) h.length (h.length + 1) r := by
    rintro ⟨m, after, before, -⟩
    omega
  constructor
  · rintro ⟨call', entered, shape, missing⟩
    have same : call = call' := by simpa using entered
    subst same
    have whole : c.missing = call.missing :=
      Std.ExtTreeSet.ext_mem fun r => (missing r).trans (and_iff_left (uncounted r))
    rw [shape, whole]
  · rintro rfl
    exact ⟨c, by simp, rfl, fun r => (and_iff_left (uncounted r)).symm⟩

end Holds

/-! ## Tickets -/

section Ticket

variable {h : List Use} {u : Use} {p p' k k' : Nat} {t : Ticket} {c : ParkedCall}

/-- What is held has entered. -/
theorem Holds.entered (holds : Holds h p k c) : ∃ call, h[p]? = some (.enqueue call) := by
  obtain ⟨call, entered, -⟩ := holds
  exact ⟨call, entered⟩

/-- No fewer calls have entered later. -/
theorem entries_take_le (later : k ≤ k') : entries (h.take k) ≤ entries (h.take k') :=
  (List.take_prefix_take_left later).sublist.countP_le

/-- Tickets are counted up from one entry to the next. -/
theorem entries_take_lt {call : ParkedCall} (entered : h[p]? = some (.enqueue call))
    (later : p < k) : entries (h.take p) < entries (h.take k) := by
  obtain ⟨inside, at_p⟩ := List.getElem?_eq_some_iff.mp entered
  have next : entries (h.take (p + 1)) = entries (h.take p) + 1 := by
    rw [List.take_succ_eq_append_getElem inside, at_p, entries_concat]
    rfl
  exact Nat.lt_of_lt_of_le (next ▸ Nat.lt_succ_self _) (entries_take_le later)

/-- As long as there are tickets left, a later one is larger. -/
theorem ticketAt_lt (few : entries h < 2 ^ 64) {call : ParkedCall}
    (entered : h[p]? = some (.enqueue call)) (later : p < k) : ticketAt h p < ticketAt h k := by
  have bound (n : Nat) : entries (h.take n) < 2 ^ 64 :=
    Nat.lt_of_le_of_lt (List.take_sublist n h).countP_le few
  rw [UInt64.lt_iff_toNat_lt, ticketAt, ticketAt, UInt64.toNat_ofNat_of_lt' (bound p),
    UInt64.toNat_ofNat_of_lt' (bound k)]
  exact entries_take_lt entered later

/-- So no two calls share one. -/
theorem ticketAt_inj (few : entries h < 2 ^ 64) {call call' : ParkedCall}
    (entered : h[p]? = some (.enqueue call)) (entered' : h[p']? = some (.enqueue call'))
    (same : ticketAt h p = ticketAt h p') : p = p' := by
  rcases Nat.lt_trichotomy p p' with less | eq | more
  · exact absurd same (UInt64.ne_of_lt (ticketAt_lt few entered less))
  · exact eq
  · exact absurd same.symm (UInt64.ne_of_lt (ticketAt_lt few entered' more))

/-- The next ticket counts the calls that have entered. -/
theorem ticketAt_length : ticketAt h h.length = .ofNat (entries h) := by
  rw [ticketAt, List.take_length]

end Ticket

/-! ## What remains -/

/-- Of the call that has entered under a ticket and stays, something **remains**. -/
def Remains (h : List Use) (t : Ticket) (c : ParkedCall) : Prop :=
  ∃ p, ticketAt h p = t ∧ Stays h p h.length ∧ Holds h p h.length c

section Remains

variable {h : List Use} {t : Ticket} {c : ParkedCall}

/-- Nothing remains under a ticket that has not been given out. -/
theorem Remains.ne_next (few : entries h < 2 ^ 64) (remains : Remains h t c) :
    t ≠ .ofNat (entries h) := by
  obtain ⟨p, rfl, ⟨inside, -⟩, holds⟩ := remains
  obtain ⟨call, entered⟩ := holds.entered
  rw [← ticketAt_length]
  exact UInt64.ne_of_lt (ticketAt_lt few entered inside)

/-- What remains has stayed up to the last use and does not leave by it, or enters by it. -/
theorem remains_concat {u : Use} :
    Remains (h ++ [u]) t c ↔
      (∃ p, ticketAt h p = t ∧ Stays h p h.length ∧ ¬Leaves (h ++ [u]) p h.length ∧
        Holds (h ++ [u]) p (h.length + 1) c) ∨
      ticketAt h h.length = t ∧ Holds (h ++ [u]) h.length (h.length + 1) c := by
  rw [Remains, List.length_append, List.length_singleton]
  constructor
  · rintro ⟨p, ticket, stays, holds⟩
    rcases stays_concat.mp stays with ⟨stays, last⟩ | rfl
    · rw [ticketAt_concat (Nat.le_of_lt stays.1)] at ticket
      exact .inl ⟨p, ticket, stays, last, holds⟩
    · rw [ticketAt_concat (Nat.le_refl _)] at ticket
      exact .inr ⟨ticket, holds⟩
  · rintro (⟨p, ticket, stays, last, holds⟩ | ⟨ticket, holds⟩)
    · exact ⟨p, (ticketAt_concat (Nat.le_of_lt stays.1)).trans ticket,
        stays_concat.mpr (.inl ⟨stays, last⟩), holds⟩
    · exact ⟨h.length, (ticketAt_concat (Nat.le_refl _)).trans ticket,
        stays_concat.mpr (.inr rfl), holds⟩

/-- By a use that lets no call enter, what remains has remained before. -/
theorem remains_concat_of_not_enters {u : Use} (other : ∀ call, u ≠ .enqueue call) :
    Remains (h ++ [u]) t c ↔
      ∃ p, ticketAt h p = t ∧ Stays h p h.length ∧ ¬Leaves (h ++ [u]) p h.length ∧
        Holds (h ++ [u]) p (h.length + 1) c := by
  rw [remains_concat]
  refine or_iff_left ?_
  rintro ⟨-, holds⟩
  obtain ⟨call, entered⟩ := holds.entered
  exact other call (by simpa using entered)

/-- A call that enters is found under the next ticket, and under every other what was found there.
-/
theorem remains_enqueue (few : entries h < 2 ^ 64) {call : ParkedCall} :
    Remains (h ++ [.enqueue call]) t c ↔
      if UInt64.ofNat (entries h) = t then c = call else Remains h t c := by
  have stay (p : Nat) : ¬Leaves (h ++ [.enqueue call]) p h.length := by simp [Leaves]
  have old : (∃ p, ticketAt h p = t ∧ Stays h p h.length ∧
      ¬Leaves (h ++ [.enqueue call]) p h.length ∧
        Holds (h ++ [.enqueue call]) p (h.length + 1) c) ↔ Remains h t c := by
    refine exists_congr fun p => and_congr_right fun _ => and_congr_right fun stays => ?_
    rw [holds_concat stays.1 (by simp)]
    exact and_iff_right (stay p)
  rw [remains_concat, old, ticketAt_length, holds_enqueue]
  split
  · rename_i fresh
    simp only [fresh, true_and]
    exact or_iff_right fun remains => remains.ne_next few fresh.symm
  · rename_i other
    simp [other]

/-- A reference that is counted off is missing nowhere any more. -/
theorem remains_resolve {r : Reference} :
    Remains (h ++ [.resolve r]) t c ↔ ∃ c', Remains h t c' ∧ c = c'.without r := by
  rw [remains_concat_of_not_enters (by simp)]
  constructor
  · rintro ⟨p, ticket, stays, -, holds⟩
    obtain ⟨c', before, rfl⟩ := (holds_resolve stays.1).mp holds
    exact ⟨c', ⟨p, ticket, stays, before⟩, rfl⟩
  · rintro ⟨c', ⟨p, ticket, stays, holds⟩, rfl⟩
    exact ⟨p, ticket, stays, by simp [Leaves], (holds_resolve stays.1).mpr ⟨c', holds, rfl⟩⟩

/-- What is handed back is what misses nothing. -/
theorem remains_drain : Remains (h ++ [.drain]) t c ↔ Remains h t c ∧ c.missing ≠ ∅ := by
  have leaves (p : Nat) : Leaves (h ++ [.drain]) p h.length ↔ IsRipe h p h.length := by
    simp [Leaves, isRipe_concat_of_le]
  rw [remains_concat_of_not_enters (by simp)]
  constructor
  · rintro ⟨p, ticket, stays, unripe, holds⟩
    rw [holds_concat stays.1 (by simp)] at holds
    rw [leaves, holds.isRipe_iff stays.1] at unripe
    exact ⟨⟨p, ticket, stays, holds⟩, unripe⟩
  · rintro ⟨⟨p, ticket, stays, holds⟩, waits⟩
    refine ⟨p, ticket, stays, ?_, (holds_concat stays.1 (by simp)).mpr holds⟩
    rwa [leaves, holds.isRipe_iff stays.1]

/-- What is taken out is not found any more. -/
theorem remains_remove {t' : Ticket} :
    Remains (h ++ [.remove t']) t c ↔ t' ≠ t ∧ Remains h t c := by
  have leaves {p : Nat} (inside : p < h.length) :
      Leaves (h ++ [.remove t']) p h.length ↔ t' = ticketAt h p := by
    simp [Leaves, ticketAt_concat (Nat.le_of_lt inside)]
  rw [remains_concat_of_not_enters (by simp)]
  constructor
  · rintro ⟨p, ticket, stays, last, holds⟩
    rw [holds_concat stays.1 (by simp)] at holds
    rw [leaves stays.1, ticket] at last
    exact ⟨last, p, ticket, stays, holds⟩
  · rintro ⟨other, p, ticket, stays, holds⟩
    refine ⟨p, ticket, stays, ?_, (holds_concat stays.1 (by simp)).mpr holds⟩
    rwa [leaves stays.1, ticket]

end Remains

/-! ## What is due -/

/-- A call is **due** if it is ripe and stays. -/
def Due (h : List Use) (p : Nat) : Prop := IsRipe h p h.length ∧ Stays h p h.length

/-- A list of the calls that are due, the one first that is ripe sooner. -/
structure IsAgenda (h : List Use) (order : List Nat) : Prop where
  /-- Who is ripe sooner comes first. -/
  sorted : order.Pairwise (Sooner h)
  /-- Just the calls that are due are listed. -/
  mem_iff : ∀ p, p ∈ order ↔ Due h p

section Due

variable {h : List Use} {u : Use} {p : Nat} {order : List Nat}

/-- A use that counts nothing off makes no earlier call ripe. -/
theorem isRipe_concat (inside : p < h.length) (other : ∀ r, u ≠ .resolve r) :
    IsRipe (h ++ [u]) p (h.length + 1) ↔ IsRipe h p h.length := by
  rw [IsRipe, getElem?_concat inside, IsRipe]
  simp only [inside, Nat.lt_succ_of_lt inside, true_and]
  refine exists_congr fun call => and_congr_right fun _ => forall₂_congr fun r _ => ?_
  rw [countedOff_concat]
  simp [other r]

/-- No call is ripe that enters by a use of another kind. -/
theorem not_isRipe_length (other : ∀ call, u ≠ .enqueue call) (k : Nat) :
    ¬IsRipe (h ++ [u]) h.length k := by
  rintro ⟨-, call, entered, -⟩
  exact other call (by simpa using entered)

/-- Of calls that had entered before, those are due after a use that stay and are ripe by then. -/
theorem Due.concat_iff (other : ∀ call, u ≠ .enqueue call) :
    Due (h ++ [u]) p ↔ Stays h p h.length ∧ ¬Leaves (h ++ [u]) p h.length ∧
      IsRipe (h ++ [u]) p (h.length + 1) := by
  rw [Due, List.length_append, List.length_singleton, stays_concat]
  constructor
  · rintro ⟨ripe, ⟨stays, last⟩ | rfl⟩
    · exact ⟨stays, last, ripe⟩
    · exact absurd ripe (not_isRipe_length other _)
  · rintro ⟨stays, last, ripe⟩
    exact ⟨ripe, .inl ⟨stays, last⟩⟩

/-- A call that enters is due if it misses nothing. -/
theorem due_enqueue {call : ParkedCall} :
    Due (h ++ [.enqueue call]) p ↔ Due h p ∨ p = h.length ∧ call.missing = ∅ := by
  have stay : ¬Leaves (h ++ [.enqueue call]) p h.length := by simp [Leaves]
  rw [Due, List.length_append, List.length_singleton, stays_concat]
  constructor
  · rintro ⟨ripe, ⟨stays, -⟩ | rfl⟩
    · exact .inl ⟨(isRipe_concat stays.1 (by simp)).mp ripe, stays⟩
    · exact .inr ⟨rfl, ((holds_enqueue.mpr rfl).isRipe_iff (Nat.lt_succ_self _)).mp ripe⟩
  · rintro (⟨ripe, stays⟩ | ⟨rfl, none⟩)
    · exact ⟨ripe.concat _, .inl ⟨stays, stay⟩⟩
    · exact ⟨((holds_enqueue.mpr rfl).isRipe_iff (Nat.lt_succ_self _)).mpr none, .inr rfl⟩

/-- A reference that is counted off makes those due that ripen by it. -/
theorem due_resolve {r : Reference} :
    Due (h ++ [.resolve r]) p ↔
      Due h p ∨ Stays h p h.length ∧ RipensBy (h ++ [.resolve r]) p h.length := by
  have stay : ¬Leaves (h ++ [.resolve r]) p h.length := by simp [Leaves]
  rw [Due.concat_iff (by simp), RipensBy, isRipe_concat_of_le (Nat.le_refl _)]
  constructor
  · rintro ⟨stays, -, ripe⟩
    by_cases before : IsRipe h p h.length
    · exact .inl ⟨before, stays⟩
    · exact .inr ⟨stays, ripe, before⟩
  · rintro (⟨ripe, stays⟩ | ⟨stays, ripe, -⟩)
    · exact ⟨stays, stay, ripe.concat _⟩
    · exact ⟨stays, stay, ripe⟩

/-- Nothing is due once the queue has handed back what was. -/
theorem not_due_drain : ¬Due (h ++ [.drain]) p := by
  rw [Due.concat_iff (by simp)]
  rintro ⟨stays, last, ripe⟩
  rw [isRipe_concat stays.1 (by simp)] at ripe
  exact last (.inr ⟨by simp, (isRipe_concat_of_le (Nat.le_refl _)).mpr ripe⟩)

/-- A call that is taken out is not due any more. -/
theorem due_remove {t : Ticket} :
    Due (h ++ [.remove t]) p ↔ Due h p ∧ ticketAt h p ≠ t := by
  rw [Due.concat_iff (by simp)]
  constructor
  · rintro ⟨stays, last, ripe⟩
    refine ⟨⟨(isRipe_concat stays.1 (by simp)).mp ripe, stays⟩, ?_⟩
    rintro rfl
    exact last (.inl (by simp [ticketAt_concat (Nat.le_of_lt stays.1)]))
  · rintro ⟨⟨ripe, stays⟩, other⟩
    refine ⟨stays, ?_, ripe.concat _⟩
    simp [Leaves, ticketAt_concat (Nat.le_of_lt stays.1), other.symm]

/-! ### Agendas -/

namespace IsAgenda

/-- An agenda stays in order with one more use. -/
theorem pairwise_concat (agenda : IsAgenda h order) (u : Use) :
    order.Pairwise (Sooner (h ++ [u])) := agenda.sorted.imp fun sooner => sooner.concat u

/-- What is on an agenda has entered. -/
theorem lt_length (agenda : IsAgenda h order) (mem : p ∈ order) : p < h.length :=
  ((agenda.mem_iff p).mp mem).1.1

/-- What was due before ripens sooner than what ripens by the last use. -/
theorem sooner (agenda : IsAgenda h order) {p' : Nat} (mem : p ∈ order)
    (ripens : RipensBy (h ++ [u]) p' h.length) : Sooner (h ++ [u]) p p' := by
  obtain ⟨m, ripened⟩ := ((agenda.mem_iff p).mp mem).1.exists_ripensBy
  exact ⟨m, h.length, ripened.concat u, ripens, .inl ripened.lt⟩

/-- Tickets are found where they were given out. -/
theorem map_concat (agenda : IsAgenda h order) (u : Use) :
    order.map (ticketAt (h ++ [u])) = order.map (ticketAt h) :=
  List.map_congr_left fun _ mem => ticketAt_concat (Nat.le_of_lt (agenda.lt_length mem))

/-- A call with nothing to wait for is due as it enters. -/
theorem enqueue_ripe (agenda : IsAgenda h order) {call : ParkedCall} (none : call.missing = ∅) :
    IsAgenda (h ++ [.enqueue call]) (order ++ [h.length]) where
  sorted := by
    have ripens : RipensBy (h ++ [.enqueue call]) h.length h.length := by
      refine ⟨?_, fun ripe => Nat.lt_irrefl _ ripe.1⟩
      exact ((holds_enqueue.mpr rfl).isRipe_iff (Nat.lt_succ_self _)).mpr none
    refine List.pairwise_append.mpr ⟨agenda.pairwise_concat _, List.pairwise_singleton _ _, ?_⟩
    intro p mem p' last
    rw [List.mem_singleton.mp last]
    exact agenda.sooner mem ripens
  mem_iff p := by simp [due_enqueue, agenda.mem_iff, none]

/-- Any other is not. -/
theorem enqueue_unripe (agenda : IsAgenda h order) {call : ParkedCall}
    (waits : call.missing ≠ ∅) : IsAgenda (h ++ [.enqueue call]) order where
  sorted := agenda.pairwise_concat _
  mem_iff p := by simp [due_enqueue, agenda.mem_iff, waits]

/-- Those that ripen as a reference is counted off come last, in the order of their entry. -/
theorem resolve (agenda : IsAgenda h order) {r : Reference} {ripening : List Nat}
    (ascending : ripening.Pairwise (· < ·))
    (mem : ∀ p, p ∈ ripening ↔
      Stays h p h.length ∧ RipensBy (h ++ [.resolve r]) p h.length) :
    IsAgenda (h ++ [.resolve r]) (order ++ ripening) where
  sorted := by
    refine List.pairwise_append.mpr ⟨agenda.pairwise_concat _, ?_, ?_⟩
    · refine List.Pairwise.imp_of_mem (fun here there less => ?_) ascending
      exact ⟨h.length, h.length, ((mem _).mp here).2, ((mem _).mp there).2, .inr ⟨rfl, less⟩⟩
    · exact fun p old p' new => agenda.sooner old ((mem p').mp new).2
  mem_iff p := by rw [List.mem_append, due_resolve, agenda.mem_iff, mem]

/-- What is handed back is no longer due. -/
theorem drain : IsAgenda (h ++ [.drain]) [] where
  sorted := .nil
  mem_iff p := by simp [not_due_drain]

/-- What is taken out is no longer due. -/
theorem remove (agenda : IsAgenda h order) (t : Ticket) :
    IsAgenda (h ++ [.remove t]) (order.filter (ticketAt h · != t)) where
  sorted := (agenda.pairwise_concat _).filter _
  mem_iff p := by simp [due_remove, agenda.mem_iff]

end IsAgenda

end Due

end Replica.CallQueue
