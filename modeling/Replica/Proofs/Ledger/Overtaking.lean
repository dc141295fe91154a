import Mathlib.Data.List.Nodup
import Replica.Proofs.Ledger.Accounts

/-! # Calls do not overtake each other

The order of parked calls is stored nowhere. It comes from the tickets: a call that is parked later
has a larger one, the calls that an arrival frees come in the order of their tickets, and what is
freed runs at once. So a call that waits for all that an earlier one still waits for is freed with
it or after it, and never runs before it.

Main definitions:
* `Errand.unresolved`, `Errand.awaited` — what a call misses as it is delivered, and what it still
  waits for at a later moment.
* `Ledger.Precedes` — one call comes to an end before another runs.
* `Ledger.Ahead` — it does so far, and will; every move keeps it so.
* `InTurn`, `Session.no_overtaking` — the order in which calls run. -/

namespace Replica

/-! ## Waiting -/

/-- What an errand misses as it is delivered. -/
def Errand.unresolved (e : Errand) (course : List Moment) : ReferenceSet :=
  match course[e.number]? with
  | some m => Value.missingAll m.session.resolver e.call.args
  | none => ∅

/-- What an errand still waits for before the moment `k`: nothing, unless it is parked. -/
def Errand.awaited (e : Errand) (course : List Moment) (k : Nat) : ReferenceSet :=
  match course[k]?, (Ledger.ofCourse (course.take k)).parked.find? (·.2 == e) with
  | some m, some (t, _) => ((m.session.calls.get? t).map (·.missing)).getD ∅
  | _, _ => ∅

/-- Moments that are still to come change nothing. -/
theorem Errand.unresolved_append {e : Errand} {course : List Moment}
    (inside : e.number < course.length) (more : List Moment) :
    e.unresolved (course ++ more) = e.unresolved course := by
  rw [unresolved, List.getElem?_append_left inside, unresolved]

theorem Errand.awaited_append {e : Errand} {course : List Moment} {k : Nat}
    (inside : k < course.length) (more : List Moment) :
    e.awaited (course ++ more) k = e.awaited course k := by
  rw [awaited, List.getElem?_append_left inside,
    List.take_append_of_le_length (Nat.le_of_lt inside), awaited]

/-! ## The order of two errands -/

namespace Ledger

/-- One errand **precedes** another if it has come to an end whenever the other is executed: it was
executed before, or dropped because its object was gone. -/
def Precedes (l : Ledger) (i j : Errand) : Prop :=
  ∀ before y after, l.executed = before ++ y :: after → y.errand = j →
    (∃ x ∈ before, x.errand = i) ∨
      ∃ x ∈ l.dropped, x.errand = i ∧ x.isAlive = false ∧ x.number ≤ y.number

/-- An errand is **done** if it was executed or dropped. -/
def IsDone (l : Ledger) (i : Errand) : Prop :=
  (∃ x ∈ l.executed, x.errand = i) ∨ ∃ x ∈ l.dropped, x.errand = i

/-- One errand stands **in line** before another if both are parked, the first one under the smaller
ticket, and the other waits for all that the first one waits for. -/
def InLine (l : Ledger) (q : CallQueue) (i j : Errand) : Prop :=
  ∃ t u waits waits', (t, i) ∈ l.parked ∧ (u, j) ∈ l.parked ∧ t < u ∧
    q.get? t = some (i.call.parked waits) ∧ q.get? u = some (j.call.parked waits') ∧
    ∀ r ∈ waits, r ∈ waits'

/-- One errand is **ahead** of another if it precedes it so far, and is done or stands in line
before it. -/
structure Ahead (l : Ledger) (q : CallQueue) (i j : Errand) : Prop where
  /-- It precedes the other so far. -/
  precedes : l.Precedes i j
  /-- It is done or in line. -/
  line : l.IsDone i ∨ l.InLine q i j

/-- The order of what is executed now is all that has to be looked at. -/
theorem Precedes.append {l l' : Ledger} {i j : Errand} (precedes : l.Precedes i j)
    (new : List Outcome) (executed : l'.executed = l.executed ++ new)
    (dropped : ∀ x ∈ l.dropped, x ∈ l'.dropped)
    (now : ∀ before y after, new = before ++ y :: after → y.errand = j →
      (∃ x ∈ l.executed ++ before, x.errand = i) ∨
        ∃ x ∈ l'.dropped, x.errand = i ∧ x.isAlive = false ∧ x.number ≤ y.number) :
    l'.Precedes i j := by
  intro before y after split same
  rw [executed] at split
  rcases List.append_eq_append_iff.mp split with ⟨rest, rfl, new_eq⟩ | ⟨rest, old_eq, rest_eq⟩
  · exact now rest y after new_eq same
  · cases rest with
    | nil =>
      rw [List.append_nil] at old_eq
      have here := now [] y after (by simpa using rest_eq.symm) same
      rwa [List.append_nil, old_eq] at here
    | cons z rest =>
      obtain ⟨rfl, -⟩ := List.cons.inj rest_eq
      refine (precedes before y rest old_eq same).imp id ?_
      rintro ⟨x, mem, rest⟩
      exact ⟨x, dropped x mem, rest⟩

/-! ## What a sound ledger says of tickets -/

section

variable {l : Ledger} {w : Work} {past : List Moment} {i j : Errand} {t u : Ticket}

/-- Errands are told apart by their numbers. -/
theorem Sound.nodup_errands (h : l.Sound w past) : (errands past).Nodup :=
  h.ascending.imp fun less same => by
    rw [same] at less
    exact Nat.lt_irrefl _ less

/-- An errand has one ticket. -/
theorem Sound.ticket_unique (h : l.Sound w past) (mem : (t, i) ∈ l.parked)
    (mem' : (u, i) ∈ l.parked) : t = u := by
  have nodup : (l.parked.map (·.2)).Nodup :=
    ((h.balance.nodup_iff.mp h.nodup_errands).of_append_right).of_append_left
  exact congrArg Prod.fst (List.inj_on_of_nodup_map nodup mem mem' rfl)

/-- What is parked is found by its errand. -/
theorem Sound.find?_errand (h : l.Sound w past) (mem : (t, i) ∈ l.parked) :
    l.parked.find? (·.2 == i) = some (t, i) := by
  obtain ⟨⟨u, e⟩, found⟩ : ∃ x, l.parked.find? (·.2 == i) = some x :=
    Option.isSome_iff_exists.mp (List.find?_isSome.mpr ⟨(t, i), mem, by simp⟩)
  have same : e = i := by simpa using List.find?_some found
  subst same
  rw [found, h.ticket_unique mem (List.mem_of_find?_eq_some found)]

/-- What an errand waits for is what its entry in the queue misses. -/
theorem Sound.awaited_eq (h : l.Sound w past) (course : l = ofCourse past)
    (mem : (t, i) ∈ l.parked) {waits : ReferenceSet}
    (found : w.session.calls.get? t = some (i.call.parked waits)) (move : Move) :
    i.awaited (past ++ [⟨w.session, move⟩]) past.length = waits := by
  have listed := h.find?_errand mem
  rw [course] at listed
  simp [Errand.awaited, listed, found, Delivered.parked]

/-- An errand that was executed or dropped was delivered. -/
theorem Sound.mem_errands_of_executed (h : l.Sound w past) {x : Outcome}
    (mem : x ∈ l.executed) : x.errand ∈ errands past := by
  refine h.balance.mem_iff.mpr (List.mem_append_left _ ?_)
  exact List.mem_map.mpr ⟨x, mem, rfl⟩

/-- What was dropped was dropped in an earlier moment. -/
theorem Sound.dropped_lt (h : l.Sound w past) {x : Outcome} (mem : x ∈ l.dropped) :
    x.number < l.clock := by
  obtain ⟨-, m, -, -, at_number, -⟩ := h.dropped x mem
  rw [h.clock]
  exact (List.getElem?_eq_some_iff.mp at_number).1

/-- A ticket that is in use is smaller than the next one. -/
theorem Sound.lt_next (h : l.Sound w past) (few : l.parkings < 2 ^ 64)
    (mem : (t, i) ∈ l.parked) : t < w.session.calls.next := by
  rw [h.next, UInt64.lt_iff_toNat_lt, UInt64.toNat_ofNat_of_lt' few]
  exact h.issued few t i mem

/-- A parked errand that waits for nothing but `r` is freed by it. -/
theorem Sound.mem_freed (h : l.Sound w past) (mem : (t, i) ∈ l.parked) {waits : ReferenceSet}
    (found : w.session.calls.get? t = some (i.call.parked waits)) {r : Reference}
    (only : ∀ q ∈ waits, q = r) : t ∈ w.session.calls.freed r := by
  obtain ⟨waits', found', some, -⟩ := h.parked t i mem
  cases found.symm.trans found'
  have here : r ∈ waits := by
    obtain ⟨q, mem⟩ : ∃ q, q ∈ waits := by
      by_contra none
      refine some (Std.ExtTreeSet.ext_mem fun q => ?_)
      simpa using fun mem => none ⟨q, mem⟩
    rwa [only q mem] at mem
  have none : waits.erase r = ∅ := by
    refine Std.ExtTreeSet.ext_mem fun q => ?_
    simp only [Std.ExtTreeSet.mem_erase, Std.compare_eq_iff_eq, ne_eq, Std.ExtTreeSet.not_mem_empty,
      iff_false, not_and]
    exact fun other mem => other (only q mem).symm
  refine List.mem_filter.mpr ⟨Std.ExtTreeSet.mem_toList.mpr (h.indexed t _ r found here), ?_⟩
  simp [CallQueue.isFreedBy, found, Delivered.parked, here, none]

/-- A parked errand comes to an end when its ticket is freed. -/
theorem Sound.mem_outcomes_of_freed (h : l.Sound w past) (mem : (t, i) ∈ l.parked)
    {r : Reference} (freed : t ∈ w.session.calls.freed r) :
    ⟨i, l.clock, w.session⟩ ∈ l.outcomes w.session (w.session.calls.freed r) := by
  refine List.mem_map.mpr ⟨i, List.mem_filterMap.mpr ⟨t, freed, ?_⟩, rfl⟩
  simp [waiting?, h.find?_parked mem]

/-- The errands that an arrival ends come in the order of their tickets. -/
theorem Sound.pairwise_outcomes (h : l.Sound w past) (r : Reference) :
    (l.outcomes w.session (w.session.calls.freed r)).Pairwise fun x y =>
      ∀ t u, (t, x.errand) ∈ l.parked → (u, y.errand) ∈ l.parked → t < u := by
  have parked {t : Ticket} {e : Errand} (waits : l.waiting? t = some e) : (t, e) ∈ l.parked := by
    obtain ⟨⟨u, e'⟩, found, rfl⟩ := Option.map_eq_some_iff.mp waits
    have same : u = t := by simpa using List.find?_some found
    exact same ▸ List.mem_of_find?_eq_some found
  rw [outcomes, List.pairwise_map, List.pairwise_filterMap]
  refine (w.session.calls.pairwise_freed r).imp ?_
  intro t u less i waits j waits' t' u' mem mem'
  rwa [h.ticket_unique mem (parked waits), h.ticket_unique mem' (parked waits')]

end

/-! ## One more moment -/

theorem parkings_le_enter (l : Ledger) (m : Moment) : l.parkings ≤ (l.enter m).parkings := by
  unfold enter
  dsimp only
  split
  · split
    · exact Nat.le_refl _
    · exact Nat.le_succ _
  · exact Nat.le_refl _
  · exact Nat.le_refl _

/-- A call that misses nothing leaves the queue as it is, and any other is parked. -/
theorem calls_deliver (w : Work) (call : Delivered) :
    (w.perform (.deliver call)).session.calls =
      if (Value.missingAll w.session.resolver call.args).isEmpty then w.session.calls
      else (w.session.calls.enqueue
        (call.parked (Value.missingAll w.session.resolver call.args))).2 := by
  cases ready : (Value.missingAll w.session.resolver call.args).isEmpty with
  | true =>
    obtain ⟨world, same⟩ := w.session.execute_eq call.target call.invocation
    simp only [Work.perform, Session.deliverCall, Session.dispatch, Incoming.isReady, ready,
      if_true, same]
  | false => rw [perform_deliver_of_waits w ready, if_neg Bool.false_ne_true]

section

variable {l : Ledger} {w : Work} {past : List Moment} {i j : Errand}

/-- A delivery adds a ticket to those in use, if the call misses something. -/
theorem Sound.inLine_deliver (h : l.Sound w past) (few : l.parkings < 2 ^ 64)
    (line : l.InLine w.session.calls i j) (call : Delivered) :
    (l.enter ⟨w.session, .deliver call⟩).InLine (w.perform (.deliver call)).session.calls i j := by
  obtain ⟨t, u, waits, waits', first, second, less, found, found', covers⟩ := line
  rw [calls_deliver]
  cases ready : (Value.missingAll w.session.resolver call.args).isEmpty with
  | true =>
    have entered : (l.enter ⟨w.session, .deliver call⟩).parked = l.parked := by
      simp only [enter, ready, if_true]
    exact ⟨t, u, waits, waits', entered ▸ first, entered ▸ second, less, found, found', covers⟩
  | false =>
    have entered : (l.enter ⟨w.session, .deliver call⟩).parked =
        l.parked.filter (·.1 != w.session.calls.next) ++
          [(w.session.calls.next, ⟨l.clock, call⟩)] := by
      simp only [enter, ready, Bool.false_eq_true, if_false]
    -- The ticket that is given out is larger than both.
    have kept {t : Ticket} {e : Errand} (mem : (t, e) ∈ l.parked) :
        (t, e) ∈ (l.enter ⟨w.session, .deliver call⟩).parked := by
      rw [entered]
      refine List.mem_append_left _ (List.mem_filter.mpr ⟨mem, ?_⟩)
      simpa using UInt64.ne_of_lt (h.lt_next few mem)
    have get {t : Ticket} {e : Errand} (mem : (t, e) ∈ l.parked) :
        (w.session.calls.enqueue
          (call.parked (Value.missingAll w.session.resolver call.args))).2.get? t =
            w.session.calls.get? t := by
      rw [CallQueue.get?_enqueue, if_neg (UInt64.ne_of_lt (h.lt_next few mem)).symm]
    simp only [Bool.false_eq_true, if_false]
    exact ⟨t, u, waits, waits', kept first, kept second, less, (get first).trans found,
      (get second).trans found', covers⟩

/-- What a moment adds to the outcomes leaves done what is done. -/
theorem IsDone.enter (done : l.IsDone i) (m : Moment) : (l.enter m).IsDone i := by
  unfold Ledger.enter
  dsimp only
  rcases done with ⟨x, mem, same⟩ | ⟨x, mem, same⟩
  · split
    · split
      · exact .inl ⟨x, List.mem_append_left _ mem, same⟩
      · exact .inl ⟨x, mem, same⟩
    · exact .inl ⟨x, List.mem_append_left _ mem, same⟩
    · exact .inl ⟨x, mem, same⟩
  · split
    · split
      · exact .inr ⟨x, mem, same⟩
      · exact .inr ⟨x, mem, same⟩
    · exact .inr ⟨x, List.mem_append_left _ mem, same⟩
    · exact .inr ⟨x, mem, same⟩

/-- An errand that is done comes before whatever is executed now. -/
theorem Sound.before_now (h : l.Sound w past) (done : l.IsDone i) {dropped : List Outcome}
    (kept : ∀ x ∈ l.dropped, x ∈ dropped) {before : List Outcome} {y : Outcome}
    (now : y.number = l.clock) : (∃ x ∈ l.executed ++ before, x.errand = i) ∨
      ∃ x ∈ dropped, x.errand = i ∧ x.isAlive = false ∧ x.number ≤ y.number := by
  rcases done with ⟨x, mem, same⟩ | ⟨x, mem, same⟩
  · exact .inl ⟨x, List.mem_append_left _ mem, same⟩
  · refine .inr ⟨x, kept x mem, same, (h.dropped x mem).1, ?_⟩
    rw [now]
    exact Nat.le_of_lt (h.dropped_lt mem)

/-- A quiet moment keeps who is ahead. -/
theorem Ahead.quiet {w' : Work} (ahead : l.Ahead w.session.calls i j) {move : Move}
    (quiet : move.IsQuiet) (calls : w'.session.calls = w.session.calls) :
    (l.enter ⟨w.session, move⟩).Ahead w'.session.calls i j := by
  rw [enter_quiet quiet, calls]
  exact ⟨ahead.precedes, ahead.line⟩

/-- A delivery keeps who is ahead of an earlier errand. -/
theorem Ahead.deliver (ahead : l.Ahead w.session.calls i j) (h : l.Sound w past)
    (few : l.parkings < 2 ^ 64) (known : j ∈ errands past) (call : Delivered) :
    (l.enter ⟨w.session, .deliver call⟩).Ahead (w.perform (.deliver call)).session.calls i j where
  precedes := by
    cases ready : (Value.missingAll w.session.resolver call.args).isEmpty with
    | true =>
      refine ahead.precedes.append [⟨⟨l.clock, call⟩, l.clock, w.session⟩]
        (by simp only [enter, ready, if_true]) (by simp [enter, ready]) ?_
      -- The errand that runs now is the last one delivered.
      intro before y after split same
      have here : y ∈ [(⟨⟨l.clock, call⟩, l.clock, w.session⟩ : Outcome)] := by simp [split]
      have earlier := h.number_lt known
      rw [← same, List.mem_singleton.mp here, h.clock] at earlier
      exact absurd earlier (Nat.lt_irrefl _)
    | false =>
      simp only [enter, ready, Bool.false_eq_true, if_false]
      exact ahead.precedes
  line := ahead.line.imp (·.enter _) (h.inLine_deliver few · call)

/-- Whoever was delivered before a call is ahead of it, if the call misses all that the other still
waits for. -/
theorem Sound.ahead_deliver (h : l.Sound w past) (few : l.parkings < 2 ^ 64)
    (known : i ∈ errands past) (call : Delivered)
    (covers : ∀ t waits, (t, i) ∈ l.parked →
      w.session.calls.get? t = some (i.call.parked waits) →
        ∀ r ∈ waits, r ∈ Value.missingAll w.session.resolver call.args) :
    (l.enter ⟨w.session, .deliver call⟩).Ahead (w.perform (.deliver call)).session.calls i
      ⟨l.clock, call⟩ := by
  -- The new errand has not run before, for those that have run are earlier ones.
  have fresh : l.Precedes i ⟨l.clock, call⟩ := by
    intro before y after split same
    have ran : y ∈ l.executed := by simp [split]
    have earlier := h.number_lt (h.mem_errands_of_executed ran)
    rw [same, h.clock] at earlier
    exact absurd earlier (Nat.lt_irrefl _)
  have fate : l.IsDone i ∨ ∃ t, (t, i) ∈ l.parked := by
    have mem := h.balance.mem_iff.mp known
    have none : l.displaced = [] := by
      by_contra some
      exact absurd (h.displaced some) (Nat.not_le.mpr few)
    simp only [none, List.append_nil, List.mem_append, List.mem_map] at mem
    rcases mem with executed | ⟨⟨t, e⟩, waits, rfl⟩ | dropped
    · exact .inl (.inl executed)
    · exact .inr ⟨t, waits⟩
    · exact .inl (.inr dropped)
  cases ready : (Value.missingAll w.session.resolver call.args).isEmpty with
  | true =>
    -- A call that runs at once misses nothing, so the other waits for nothing, and is not parked.
    have done : l.IsDone i := by
      refine fate.resolve_right ?_
      rintro ⟨t, mem⟩
      obtain ⟨waits, found, some, -⟩ := h.parked t i mem
      refine some (Std.ExtTreeSet.ext_mem fun r =>
        ⟨fun here => ?_, fun absurd => by simp at absurd⟩)
      have missing := covers t waits mem found r here
      rwa [Std.ExtTreeSet.isEmpty_iff.mp ready] at missing
    refine ⟨?_, .inl (done.enter _)⟩
    refine fresh.append [⟨⟨l.clock, call⟩, l.clock, w.session⟩]
      (by simp only [enter, ready, if_true]) (by simp [enter, ready]) ?_
    intro before y after split same
    have here : y ∈ [(⟨⟨l.clock, call⟩, l.clock, w.session⟩ : Outcome)] := by simp [split]
    refine h.before_now done (by simp [enter, ready]) ?_
    rw [List.mem_singleton.mp here]
  | false =>
    refine ⟨?_, ?_⟩
    · simp only [enter, ready, Bool.false_eq_true, if_false]
      exact fresh
    · rcases fate with done | ⟨t, mem⟩
      · exact .inl (done.enter _)
      · obtain ⟨waits, found, -⟩ := h.parked t i mem
        have less := h.lt_next few mem
        refine .inr ⟨t, w.session.calls.next, waits, _, ?_, ?_, less, ?_, ?_,
          covers t waits mem found⟩
        · simp only [enter, ready, Bool.false_eq_true, if_false]
          refine List.mem_append_left _ (List.mem_filter.mpr ⟨mem, ?_⟩)
          simpa using UInt64.ne_of_lt less
        · simp [enter, ready]
        · rw [calls_deliver, ready, if_neg Bool.false_ne_true, CallQueue.get?_enqueue,
            if_neg (UInt64.ne_of_lt less).symm]
          exact found
        · rw [calls_deliver, ready, if_neg Bool.false_ne_true, CallQueue.get?_enqueue, if_pos rfl]

/-- The queue after an arrival: what is freed is gone, and the others wait for it no longer. -/
theorem Sound.get?_replay (h : l.Sound w past) (a : Arrival) {t : Ticket}
    (stays : t ∉ w.session.calls.freed a.reference) :
    (w.perform (.replay a)).session.calls.get? t =
      (w.session.calls.get? t).map (·.without a.reference) := by
  rw [h.get?_perform_replay, if_neg stays, h.indexed.get?_resolve]

/-- In line, the second errand is freed only together with the first one. -/
theorem Sound.freed_of_inLine (h : l.Sound w past) {r : Reference} {t u : Ticket}
    {waits waits' : ReferenceSet} (first : (t, i) ∈ l.parked)
    (found : w.session.calls.get? t = some (i.call.parked waits))
    (found' : w.session.calls.get? u = some (j.call.parked waits'))
    (covers : ∀ q ∈ waits, q ∈ waits') (freed : u ∈ w.session.calls.freed r) :
    t ∈ w.session.calls.freed r := by
  obtain ⟨e, -, -, missing, missed, only, -⟩ := h.freed freed
  have same : waits' = missing :=
    congrArg ParkedCall.missing (Option.some.inj (found'.symm.trans missed))
  subst same
  exact h.mem_freed first found fun q mem => (only q).mp (covers q mem)

/-- An errand that is freed is executed or dropped. -/
theorem Sound.isDone_of_freed (h : l.Sound w past) {t : Ticket} (mem : (t, i) ∈ l.parked)
    {a : Arrival} (freed : t ∈ w.session.calls.freed a.reference) :
    (l.enter ⟨w.session, .replay a⟩).IsDone i := by
  have ended := h.mem_outcomes_of_freed mem freed
  cases alive : (⟨i, l.clock, w.session⟩ : Outcome).isAlive with
  | true =>
    exact .inl ⟨_, List.mem_append_right _ (List.mem_filter.mpr ⟨ended, alive⟩), rfl⟩
  | false =>
    exact .inr ⟨_, List.mem_append_right _ (List.mem_filter.mpr ⟨ended, by simp [alive]⟩), rfl⟩

/-- Of two errands that are freed together, the one with the smaller ticket is executed first, or
dropped. -/
theorem Sound.freed_in_order (h : l.Sound w past) {r : Reference} {t u : Ticket}
    (first : (t, i) ∈ l.parked) (second : (u, j) ∈ l.parked) (less : t < u)
    (freed : t ∈ w.session.calls.freed r) {before after : List Outcome} {y : Outcome}
    (split : (l.outcomes w.session (w.session.calls.freed r)).filter (·.isAlive) =
      before ++ y :: after) (same : y.errand = j) :
    (∃ x ∈ before, x.errand = i) ∨
      ∃ x ∈ (l.outcomes w.session (w.session.calls.freed r)).filter (!·.isAlive),
        x.errand = i ∧ x.isAlive = false ∧ x.number = l.clock := by
  have ended := h.mem_outcomes_of_freed first freed
  cases alive : (⟨i, l.clock, w.session⟩ : Outcome).isAlive with
  | true =>
    have run : (⟨i, l.clock, w.session⟩ : Outcome) ∈ before ++ y :: after := by
      rw [← split]
      exact List.mem_filter.mpr ⟨ended, alive⟩
    have ordered := (h.pairwise_outcomes r).filter (·.isAlive)
    rw [split, List.pairwise_append, List.pairwise_cons] at ordered
    rw [← same] at second
    -- It stands before the other one, or its ticket would not be the smaller one.
    rcases List.mem_append.mp run with here | there
    · exact .inl ⟨_, here, rfl⟩
    · rcases List.mem_cons.mp there with rfl | later
      · cases h.ticket_unique first second
        exact absurd less (UInt64.lt_irrefl _)
      · have more := ordered.2.1.1 _ later u t second first
        exact absurd less (UInt64.not_lt.mpr (UInt64.le_of_lt more))
  | false =>
    exact .inr ⟨_, List.mem_filter.mpr ⟨ended, by simp [alive]⟩, rfl, alive, rfl⟩

/-- An arrival keeps who is in line, unless it ends the first one. -/
theorem Sound.inLine_replay (h : l.Sound w past) (line : l.InLine w.session.calls i j)
    (a : Arrival) : (l.enter ⟨w.session, .replay a⟩).IsDone i ∨
      (l.enter ⟨w.session, .replay a⟩).InLine (w.perform (.replay a)).session.calls i j := by
  obtain ⟨t, u, waits, waits', first, second, less, found, found', covers⟩ := line
  by_cases freed : t ∈ w.session.calls.freed a.reference
  · exact .inl (h.isDone_of_freed first freed)
  · have stays : u ∉ w.session.calls.freed a.reference := fun ends =>
      freed (h.freed_of_inLine first found found' covers ends)
    refine .inr ⟨t, u, waits.erase a.reference, waits'.erase a.reference,
      List.mem_filter.mpr ⟨first, by simpa using freed⟩,
      List.mem_filter.mpr ⟨second, by simpa using stays⟩, less, ?_, ?_, fun r mem => ?_⟩
    · rw [h.get?_replay a freed, found]
      rfl
    · rw [h.get?_replay a stays, found']
      rfl
    · obtain ⟨other, mem⟩ := Std.ExtTreeSet.mem_erase.mp mem
      exact Std.ExtTreeSet.mem_erase.mpr ⟨other, covers r mem⟩

/-- An arrival keeps who is ahead: whoever stands in line before an errand that ends, ends before
it. -/
theorem Ahead.replay (ahead : l.Ahead w.session.calls i j) (h : l.Sound w past) (a : Arrival) :
    (l.enter ⟨w.session, .replay a⟩).Ahead (w.perform (.replay a)).session.calls i j where
  precedes := by
    have kept : ∀ x ∈ l.dropped, x ∈ (l.enter ⟨w.session, .replay a⟩).dropped :=
      fun x mem => List.mem_append_left _ mem
    refine ahead.precedes.append _ rfl kept ?_
    intro before y after split same
    have ends : y ∈ (l.outcomes w.session (w.session.calls.freed a.reference)).filter
        (·.isAlive) := by rw [split]; simp
    obtain ⟨now, -, u, second, missing, found', only, -⟩ :=
      h.mem_outcomes (List.mem_filter.mp ends).1
    rcases ahead.line with
      done | ⟨t, u', waits, waits', first, second', less, found, missed, covers⟩
    · exact h.before_now done kept now
    · rw [same] at second found'
      cases h.ticket_unique second second'
      have freed : t ∈ w.session.calls.freed a.reference :=
        h.freed_of_inLine first found missed covers
          (h.mem_freed second found' fun q mem => (only q).mp mem)
      refine (h.freed_in_order first second less freed split same).imp ?_ ?_
      · rintro ⟨x, mem, same⟩
        exact ⟨x, List.mem_append_right _ mem, same⟩
      · rintro ⟨x, mem, same, dead, then_⟩
        exact ⟨x, List.mem_append_right _ mem, same, dead, Nat.le_of_eq (then_.trans now.symm)⟩
  line := by
    rcases ahead.line with done | line
    · exact .inl (done.enter _)
    · exact h.inLine_replay line a

/-- Parked errands wait for what they missed as they were delivered, or for less. -/
def Shrinks (l : Ledger) (q : CallQueue) (past : List Moment) : Prop :=
  ∀ t e waits, (t, e) ∈ l.parked → q.get? t = some (e.call.parked waits) →
    ∀ r ∈ waits, r ∈ e.unresolved past

/-- Every apt move keeps it so. -/
theorem Shrinks.perform (shrinks : l.Shrinks w.session.calls past) (h : l.Sound w past) (m : Move) :
    (l.enter ⟨w.session, m⟩).Shrinks (w.perform m).session.calls (past ++ [⟨w.session, m⟩]) := by
  have old {t : Ticket} {e : Errand} (mem : (t, e) ∈ l.parked) :
      e.unresolved (past ++ [⟨w.session, m⟩]) = e.unresolved past :=
    Errand.unresolved_append (h.number_lt (h.mem_errands mem)) _
  by_cases quiet : m.IsQuiet
  · rw [(w.perform_of_isQuiet quiet).1, enter_quiet quiet]
    intro t e waits mem found
    rw [old mem]
    exact shrinks t e waits mem found
  · cases m with
    | deliver call =>
      rw [calls_deliver]
      cases ready : (Value.missingAll w.session.resolver call.args).isEmpty with
      | true =>
        simp only [enter, ready, if_true]
        intro t e waits mem found
        rw [old mem]
        exact shrinks t e waits mem found
      | false =>
        simp only [enter, ready, Bool.false_eq_true, if_false]
        intro t e waits mem found
        rw [CallQueue.get?_enqueue] at found
        rcases List.mem_append.mp mem with there | new
        · obtain ⟨mem, other⟩ := List.mem_filter.mp there
          have other : w.session.calls.next ≠ t := by simpa using Ne.symm (bne_iff_ne.mp other)
          rw [if_neg other] at found
          rw [old mem]
          exact shrinks t e waits mem found
        -- The call that is parked waits for just what it misses now.
        · cases List.mem_singleton.mp new
          rw [if_pos rfl] at found
          have same : Value.missingAll w.session.resolver call.args = waits :=
            congrArg ParkedCall.missing (Option.some.inj found)
          simp [Errand.unresolved, h.clock, same]
    | replay a =>
      intro t e waits mem found r here
      obtain ⟨mem, unfreed⟩ := List.mem_filter.mp mem
      have unfreed : t ∉ w.session.calls.freed a.reference := by simpa using unfreed
      rw [h.get?_replay a unfreed] at found
      obtain ⟨c, found, less⟩ := Option.map_eq_some_iff.mp found
      obtain ⟨missing, found', -⟩ := h.parked t e mem
      cases found.symm.trans found'
      have same : missing.erase a.reference = waits := congrArg ParkedCall.missing less
      rw [← same] at here
      rw [old mem]
      exact shrinks t e missing mem found r (Std.ExtTreeSet.mem_erase.mp here).2
    | _ => exact absurd trivial quiet

end

end Ledger

/-! ## Whole runs -/

/-- Among the errands of some moments, everyone is **in order** who was delivered before an errand
that missed all that the other still waited for: it is ahead, unless the tickets have run out. -/
def Ledger.InOrder (l : Ledger) (q : CallQueue) (past : List Moment) : Prop :=
  l.parkings < 2 ^ 64 → ∀ i ∈ errands past, ∀ j ∈ errands past, i.number < j.number →
    (∀ r ∈ i.awaited past j.number, r ∈ j.unresolved past) → l.Ahead q i j

/-- Every apt move keeps errands in order. -/
theorem Ledger.InOrder.perform {l : Ledger} {w : Work} {past : List Moment}
    (order : l.InOrder w.session.calls past) (h : l.Sound w past) (course : l = ofCourse past)
    (m : Move) :
    (l.enter ⟨w.session, m⟩).InOrder (w.perform m).session.calls (past ++ [⟨w.session, m⟩]) := by
  intro few' i first j second less covers
  have few : l.parkings < 2 ^ 64 := Nat.lt_of_le_of_lt (l.parkings_le_enter _) few'
  rw [errands_concat, List.mem_append] at first second
  -- The errand of this moment has the largest number of all.
  have number {e : Errand} (new : e ∈ (⟨w.session, m⟩ : Moment).errands past.length) :
      ∃ call, m = .deliver call ∧ e = ⟨past.length, call⟩ := by
    unfold Moment.errands at new
    split at new
    · rename_i call same
      exact ⟨call, same, List.mem_singleton.mp new⟩
    · cases new
  have bound : j.number ≤ past.length := by
    rcases second with known | new
    · exact Nat.le_of_lt (h.number_lt known)
    · obtain ⟨call, -, rfl⟩ := number new
      exact Nat.le_refl _
  have delivered : i ∈ errands past := by
    refine first.resolve_right fun new => ?_
    obtain ⟨call, -, rfl⟩ := number new
    exact absurd (Nat.lt_of_lt_of_le less bound) (Nat.lt_irrefl _)
  rcases second with known | new
  · have inside := h.number_lt known
    rw [Errand.awaited_append inside, Errand.unresolved_append inside] at covers
    have ahead := order few i delivered j known less covers
    by_cases quiet : m.IsQuiet
    · exact ahead.quiet quiet (w.perform_of_isQuiet quiet).1
    · cases m with
      | deliver call => exact ahead.deliver h few known call
      | replay a => exact ahead.replay h a
      | _ => exact absurd trivial quiet
  · obtain ⟨call, rfl, rfl⟩ := number new
    rw [← h.clock]
    refine h.ahead_deliver few delivered call fun t waits mem found r here => ?_
    have missing := covers r (by rwa [h.awaited_eq course mem found])
    simpa [Errand.unresolved] using missing

/-- Calls take their **turns** in a course that has led to `s`. -/
structure InTurn (course : List Moment) (s : Session) : Prop where
  /-- The calls that the ledger lists were executed, in this order. -/
  executed : s.world.journal.executed =
    (Ledger.ofCourse course).executed.map (·.execution)
  /-- A call that misses, as it is delivered, all that an earlier one still waits for, does not
  overtake it. -/
  turns : ∀ i ∈ errands course, ∀ j ∈ errands course, i.number < j.number →
    (∀ r ∈ i.awaited course j.number, r ∈ j.unresolved course) →
      (Ledger.ofCourse course).Precedes i j ∨ 2 ^ 64 ≤ (errands course).length
  /-- Nor does one that misses the same as the earlier one did. -/
  alike : ∀ i ∈ errands course, ∀ j ∈ errands course, i.number < j.number →
    i.unresolved course = j.unresolved course →
      (Ledger.ofCourse course).Precedes i j ∨ 2 ^ 64 ≤ (errands course).length

namespace Session

variable {settings : Settings} {protocol : Protocol} {acts : List Act} {s : Session}

/-- At every moment of a run, parked errands wait for what they missed at first, or for less. -/
theorem awaited_subset (ok : (start settings protocol).run acts = .ok s) (e : Errand) (k : Nat) :
    ∀ r ∈ e.awaited ((start settings protocol).course acts) k,
      r ∈ e.unresolved ((start settings protocol).course acts) := by
  intro r awaits
  unfold Errand.awaited at awaits
  split at awaits
  · rename_i m t e' at_k found
    obtain ⟨w, same, sound, shrinks⟩ := prefix_induction
      (I := fun w past => (Ledger.ofCourse past).Sound w past ∧
        (Ledger.ofCourse past).Shrinks w.session.calls past)
      (fun w past m _ apt h => by
        rw [Ledger.ofCourse_concat]
        exact ⟨h.1.perform apt, h.2.perform h.1 m⟩)
      (tidy_start settings protocol)
      ⟨Ledger.sound_start settings protocol, by simp [Ledger.Shrinks, Ledger.ofCourse]⟩
      (fun a _ => a.within_all) ok at_k
    have mem := List.mem_of_find?_eq_some found
    have eq : e' = e := by simpa using List.find?_some found
    subst eq
    obtain ⟨waits, here, -⟩ := sound.parked t e' mem
    rw [← same, here] at awaits
    have missed := shrinks t e' waits mem here r (by simpa [Delivered.parked] using awaits)
    have known := sound.number_lt (sound.mem_errands mem)
    rw [← List.take_append_drop k ((start settings protocol).course acts),
      Errand.unresolved_append known]
    exact missed
  · simp at awaits

/-- **Calls do not overtake each other**: after every run, a call that was delivered later than
another, and missed all that the other still waited for, has not been executed before the other came
to an end. The only way out would be that all tickets were given out. -/
theorem no_overtaking (ok : (start settings protocol).run acts = .ok s) :
    InTurn ((start settings protocol).course acts) s := by
  obtain ⟨⟨sound, order⟩, -⟩ := run_induction
    (I := fun w past => (Ledger.ofCourse past).Sound w past ∧
      (Ledger.ofCourse past).InOrder w.session.calls past)
    (fun w past m _ apt h => by
      rw [Ledger.ofCourse_concat]
      exact ⟨h.1.perform apt, h.2.perform h.1 rfl m⟩)
    (tidy_start settings protocol)
    ⟨Ledger.sound_start settings protocol, fun _ i mem => by simp [errands] at mem⟩
    (fun a _ => a.within_all) ok
  have turns : ∀ i ∈ errands ((start settings protocol).course acts),
      ∀ j ∈ errands ((start settings protocol).course acts), i.number < j.number →
        (∀ r ∈ i.awaited ((start settings protocol).course acts) j.number,
          r ∈ j.unresolved ((start settings protocol).course acts)) →
        (Ledger.ofCourse ((start settings protocol).course acts)).Precedes i j ∨
          2 ^ 64 ≤ (errands ((start settings protocol).course acts)).length := by
    intro i first j second less covers
    by_cases few : (Ledger.ofCourse ((start settings protocol).course acts)).parkings < 2 ^ 64
    · exact .inl (order few i first j second less covers).precedes
    · exact .inr (Nat.le_trans (Nat.le_of_not_lt few) sound.parkings)
  exact {
    executed := sound.executed
    turns := turns
    alike := fun i first j second less same => turns i first j second less fun r awaits =>
      same ▸ awaited_subset ok i j.number r awaits }

/-- Two crates are called with objects that are still to come. One of these comes, and a third call
is delivered that names the other one; a fourth one names none. Then the other one comes. -/
def callsInLine : List Act :=
  let build (entity : EntityId) := (Blueprint.ofClass entity "Crate").operations
  (build 1 ++ build 3 ++
    [Operation.multicast 1 [⟨0, [.ref (.root 2), .ref (.root 4)]⟩],
      Operation.multicast 3 [⟨1, [.ref (.root 4), .ref (.root 2)]⟩]] ++
    build 2 ++
    [Operation.multicast 1 [⟨2, [.ref (.root 4)]⟩], Operation.multicast 3 [⟨3, [.int 7]⟩]] ++
    build 4).map .receive

theorem no_overtaking_callsInLine :
    ∃ s course, (start {} Stock.protocol).run callsInLine = .ok s ∧
      course = (start {} Stock.protocol).course callsInLine ∧ InTurn course s ∧
      (errands course).map (·.number) = [16, 17, 26, 27] ∧
      (errands course).map (fun e => (e.awaited course 26).toList) =
        [[.root 4], [.root 4], [], []] ∧
      (Ledger.ofCourse course).executed.map (·.errand.number) = [27, 16, 17, 26] := by
  obtain ⟨s, ok, -⟩ := exists_run (start {} Stock.protocol) callsInLine (fun _ => true)
    (by decide +kernel)
  exact ⟨s, _, ok, rfl, no_overtaking ok, by decide +kernel, by decide +kernel, by decide +kernel⟩

end Session

end Replica
