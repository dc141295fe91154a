import Mathlib.Data.List.Nodup
import Replica.Proofs.Ledger

/-! # Every call is accounted for

An arrival counts its reference off for every call that waits for it, and ends those that wait for
nothing else: they are executed, or dropped where the object is gone. This is the last move that
concerns calls, so a ledger stays sound over every run.

Main definitions:
* `Session.counted` — the session of an arrival just before calls run.
* `Ledger.Sound.perform` — every apt move keeps a ledger sound.
* `Ledger.Accounts`, `Session.calls_accounted` — where every delivered call is after a run. -/

namespace Replica

namespace Ledger

/-! ## Arrivals -/

/-- Calls that can be read run one after the other, those with a live object. -/
theorem foldl_execute (calls : List Delivered)
    (spelt : ∀ d ∈ calls, Wire.decodeArgs d.payload = .ok d.args) (s : Session) :
    (calls.foldl (fun s d => s.execute d.target d.invocation) s).world.journal.executed =
      s.world.journal.executed ++
        (calls.filter (s.world.isAlive ·.target)).map (·.execution s.resolver) := by
  induction calls generalizing s with
  | nil => simp
  | cons d rest ih =>
    have spelt_rest := fun d' mem => spelt d' (List.mem_cons_of_mem d mem)
    rw [List.foldl_cons]
    -- A call changes neither the resolver nor who is alive, so the others run as they would first.
    cases alive : s.world.isAlive d.target with
    | true =>
      have routine := Session.routine_execute s d.target d.invocation
      have same : ∀ d' : Delivered, (s.execute d.target d.invocation).world.isAlive d'.target =
          s.world.isAlive d'.target := fun d' => routine.isAlive d'.target
      rw [ih spelt_rest, routine.resolver, List.filter_congr fun d' _ => same d',
        execute_delivered alive (spelt d List.mem_cons_self)]
      simp [alive]
    | false =>
      rw [execute_dead alive, ih spelt_rest]
      simp [alive]

/-- What is found under one of some distinct tickets is its entry. -/
theorem find?_ticket {entries : List (Ticket × Errand)} (keys : (entries.map (·.1)).Nodup)
    (t : Ticket) (x : Ticket × Errand) :
    entries.find? (·.1 == t) = some x ↔ x ∈ entries ∧ x.1 = t := by
  constructor
  · intro found
    exact ⟨List.mem_of_find?_eq_some found, by simpa using List.find?_some found⟩
  · rintro ⟨mem, rfl⟩
    obtain ⟨y, found⟩ : ∃ y, entries.find? (·.1 == x.1) = some y :=
      Option.isSome_iff_exists.mp (List.find?_isSome.mpr ⟨x, mem, by simp⟩)
    have same : y.1 = x.1 := by simpa using List.find?_some found
    rw [found, List.inj_on_of_nodup_map keys (List.mem_of_find?_eq_some found) mem same]

/-- The entries under distinct tickets are those asked for and the others. -/
theorem perm_lookup {entries : List (Ticket × Errand)} (keys : (entries.map (·.1)).Nodup)
    {ts : List Ticket} (nodup : ts.Nodup) :
    ((ts.filterMap fun t => entries.find? (·.1 == t)) ++
      entries.filter (!ts.contains ·.1)).Perm entries := by
  have distinct : entries.Nodup := List.Nodup.of_map _ keys
  have find := find?_ticket keys
  -- Both lists have no duplicates, so it is enough that they have the same members.
  refine (List.perm_ext_iff_of_nodup ?_ distinct).mpr ?_
  · rw [List.nodup_append]
    refine ⟨?_, distinct.filter _, ?_⟩
    · refine nodup.filterMap ?_
      intro t t' x here there
      exact ((find t x).mp here).2.symm.trans ((find t' x).mp there).2
    · intro x here y there same
      subst y
      obtain ⟨t, mem, found⟩ := List.mem_filterMap.mp here
      have absent := (List.mem_filter.mp there).2
      rw [((find t x).mp found).2] at absent
      simp [mem] at absent
  · intro x
    simp only [List.mem_append, List.mem_filterMap, List.mem_filter, find]
    constructor
    · rintro (⟨t, -, mem, -⟩ | ⟨mem, -⟩) <;> exact mem
    · intro mem
      by_cases asked : x.1 ∈ ts
      · exact .inl ⟨x.1, asked, mem, rfl⟩
      · exact .inr ⟨mem, by simpa using asked⟩

end Ledger

/-- A session in which fields are filled and a reference is counted off, before the calls run that
have become ready. -/
def Session.counted (s : Session) (a : Arrival) : Session :=
  { s with
    world := (Update.resolve s.world s.waitlist s.resolver a.reference a.object).world
    waitlist := (Update.resolve s.world s.waitlist s.resolver a.reference a.object).waitlist
    calls := (s.calls.resolve a.reference).2
    events := s.events ++ (Update.resolve s.world s.waitlist s.resolver a.reference
      a.object).complete.map .referencesResolved }

/-- Where nothing is ready before, an arrival counts its reference off and runs what is ready then,
if only nothing. -/
theorem Session.resolveNow_eq_dispatchReady {s : Session} (none : s.calls.ready = [])
    (a : Arrival) : s.resolveNow a = (s.counted a).dispatchReady := by
  have count := s.calls.count_resolve a.reference
  have ready := s.calls.ready_resolve a.reference
  rw [none, List.nil_append] at ready
  unfold resolveNow
  dsimp only
  split
  -- Running what is ready does nothing where nothing was freed.
  · rename_i zero
    have freed : s.calls.freed a.reference = [] :=
      List.length_eq_zero_iff.mp (count.symm.trans zero)
    rw [freed] at ready
    simp only [dispatchReady, counted, CallQueue.drain_of_ready ready, List.foldl_nil]
    rfl
  · rfl

namespace Ledger

variable {l : Ledger} {w w' : Work} {past : List Moment}

/-- What waits after an arrival is what it does not free. -/
theorem mem_parked_replay {s : Session} {a : Arrival} {t : Ticket} {e : Errand} :
    (t, e) ∈ (l.enter ⟨s, .replay a⟩).parked ↔
      (t, e) ∈ l.parked ∧ t ∉ s.calls.freed a.reference := by
  simp [enter]

section

variable (h : l.Sound w past)

include h

/-- The entry of a ticket, if it has one, is the one found. -/
theorem Sound.find?_parked {t : Ticket} {e : Errand} (mem : (t, e) ∈ l.parked) :
    l.parked.find? (·.1 == t) = some (t, e) := (find?_ticket h.tickets t _).mpr ⟨mem, rfl⟩

/-- A ticket that an arrival frees stands for an errand that waits for the arrival alone. -/
theorem Sound.freed {r : Reference} {t : Ticket} (freed : t ∈ w.session.calls.freed r) :
    ∃ e, (t, e) ∈ l.parked ∧ l.waiting? t = some e ∧
      ∃ missing, w.session.calls.get? t = some (e.call.parked missing) ∧
        (∀ q, q ∈ missing ↔ q = r) ∧
        ∀ q ∈ Value.referencesAll e.call.args,
          q = r ∨ FoundBetween past e.number past.length q := by
  have isFreed := (List.mem_filter.mp freed).2
  unfold CallQueue.isFreedBy at isFreed
  split at isFreed
  · rename_i call found
    obtain ⟨e, mem⟩ := h.pending t (by rw [found]; nofun)
    obtain ⟨missing, found', -, -, others⟩ := h.parked t e mem
    rw [found] at found'
    cases found'
    obtain ⟨waits, alone⟩ := Bool.and_eq_true_iff.mp isFreed
    -- The reference is missing, and nothing is left once it is counted off.
    have only : ∀ q, q ∈ missing ↔ q = r := by
      intro q
      constructor
      · intro waits
        by_cases same : q = r
        · exact same
        · have left : q ∈ missing.erase r := Std.ExtTreeSet.mem_erase.mpr
            ⟨by simpa using Ne.symm same, waits⟩
          have none : missing.erase r = ∅ := Std.ExtTreeSet.isEmpty_iff.mp alone
          rw [none] at left
          simp at left
      · rintro rfl
        exact Std.ExtTreeSet.contains_iff_mem.mp waits
    refine ⟨e, mem, by simp [waiting?, h.find?_parked mem], missing, found, only, fun q refs => ?_⟩
    rcases others q refs with still | finds
    · exact .inl ((only q).mp still)
    · exact .inr finds
  · cases isFreed

/-- An errand that an arrival does not free waits for the others of its arguments after it. -/
theorem Sound.unfreed {r : Reference} {t : Ticket} {e : Errand} (mem : (t, e) ∈ l.parked)
    (stays : t ∉ w.session.calls.freed r) :
    ∃ missing, (w.session.calls.resolve r).2.get? t = some (e.call.parked missing) ∧ missing ≠ ∅ ∧
      (∀ q ∈ missing, q ∈ Value.referencesAll e.call.args) ∧
      ∀ q ∈ Value.referencesAll e.call.args,
        q ∈ missing ∨ q = r ∨ FoundBetween past e.number past.length q := by
  obtain ⟨missing, found, some, own, others⟩ := h.parked t e mem
  by_cases waits : t ∈ w.session.calls.waiting.of r
  · refine ⟨missing.erase r, ?_, ?_, ?_, ?_⟩
    · rw [CallQueue.get?_resolve, found]
      simp [waits, ParkedCall.without, Delivered.parked]
    · intro none
      -- Were nothing left, the ticket would have been freed, or have waited for nothing before.
      have alone : (missing.erase r).isEmpty = true := Std.ExtTreeSet.isEmpty_iff.mpr none
      have absent : missing.contains r = false := by
        refine Bool.eq_false_iff.mpr fun has => stays (List.mem_filter.mpr ⟨?_, ?_⟩)
        · exact Std.ExtTreeSet.mem_toList.mpr waits
        · simp only [CallQueue.isFreedBy, found, Delivered.parked, has, alone, Bool.and_self]
      have same : missing.erase r = missing := by
        refine Std.ExtTreeSet.ext_mem ?_
        intro q
        rw [Std.ExtTreeSet.mem_erase]
        refine ⟨And.right, fun mem => ⟨?_, mem⟩⟩
        intro eq
        have eq : r = q := by simpa using eq
        rw [eq, Std.ExtTreeSet.contains_iff_mem.mpr mem] at absent
        cases absent
      exact some (same.symm.trans none)
    · exact fun q mem => own q (Std.ExtTreeSet.mem_erase.mp mem).2
    · intro q refs
      by_cases same : q = r
      · exact .inr (.inl same)
      · rcases others q refs with still | finds
        · exact .inl (Std.ExtTreeSet.mem_erase.mpr ⟨by simpa using Ne.symm same, still⟩)
        · exact .inr (.inr finds)
  · refine ⟨missing, ?_, some, own, ?_⟩
    · rw [CallQueue.get?_resolve, found]
      simp [waits]
    · intro q refs
      rcases others q refs with still | finds
      · exact .inl still
      · exact .inr (.inr finds)

/-- The errands that an arrival ends, each with what is known of it. -/
theorem Sound.mem_outcomes {r : Reference} {x : Outcome}
    (mem : x ∈ l.outcomes w.session (w.session.calls.freed r)) :
    x.number = l.clock ∧ x.session = w.session ∧ ∃ t, (t, x.errand) ∈ l.parked ∧
      ∃ missing, w.session.calls.get? t = some (x.errand.call.parked missing) ∧
        (∀ q, q ∈ missing ↔ q = r) ∧
        ∀ q ∈ Value.referencesAll x.errand.call.args,
          q = r ∨ FoundBetween past x.errand.number past.length q := by
  obtain ⟨e, listed, rfl⟩ := List.mem_map.mp mem
  obtain ⟨t, freed, waits⟩ := List.mem_filterMap.mp listed
  obtain ⟨e', known, waits', rest⟩ := h.freed freed
  rw [waits] at waits'
  cases waits'
  exact ⟨rfl, rfl, t, known, rest⟩

/-- The calls that an arrival makes ready are those of the errands that it ends. -/
theorem Sound.ready_calls (r : Reference) :
    ((w.session.calls.resolve r).2.drain.1.map fun c => (c.target, c.invocation)) =
      ((w.session.calls.freed r).filterMap l.waiting?).map fun e =>
        (e.call.target, e.call.invocation) := by
  have ready := w.session.calls.ready_resolve r
  rw [h.ready, List.nil_append] at ready
  rw [CallQueue.drain, ready, List.map_filterMap, List.map_filterMap]
  refine List.filterMap_congr ?_
  intro t freed
  obtain ⟨e, -, waits, missing, found, -⟩ := h.freed freed
  have after := w.session.calls.get?_resolve r t
  rw [found, Option.map_some] at after
  have pending : (w.session.calls.resolve r).2.pending[t]? = some _ := after
  rw [pending, waits, Option.map_some, Option.map_some]
  split <;> rfl

/-- The calls executed up to an arrival are those that the ledger lists then. -/
theorem Sound.executed_replay (a : Arrival) :
    (w.session.resolveNow a).world.journal.executed =
      (l.executed ++ (l.outcomes w.session (w.session.calls.freed a.reference)).filter
        (·.isAlive)).map (·.execution) := by
  have rewrites := Update.rewrites_resolve w.session.world w.session.waitlist w.session.resolver
    a.reference a.object
  have spelt : ∀ d ∈ ((w.session.calls.freed a.reference).filterMap l.waiting?).map (·.call),
      Wire.decodeArgs d.payload = .ok d.args := by
    intro d mem
    obtain ⟨e, listed, rfl⟩ := List.mem_map.mp mem
    obtain ⟨t, freed, waits⟩ := List.mem_filterMap.mp listed
    obtain ⟨e', known, waits', -⟩ := h.freed freed
    rw [waits] at waits'
    cases waits'
    exact (h.delivered e (h.mem_errands known)).1
  have run := foldl_execute _ spelt
    { w.session.counted a with calls := (w.session.counted a).calls.drain.2 }
  -- The queue hands back the calls of the errands that end, in the order in which they end.
  have same : (w.session.resolveNow a) =
      (((w.session.calls.freed a.reference).filterMap l.waiting?).map (·.call)).foldl
        (fun s d => s.execute d.target d.invocation)
        { w.session.counted a with calls := (w.session.counted a).calls.drain.2 } := by
    have calls := congrArg (List.foldl (fun (s : Session) (c : Handle × Invocation) =>
      s.execute c.1 c.2) { w.session.counted a with calls := (w.session.counted a).calls.drain.2 })
      (h.ready_calls a.reference)
    rw [List.foldl_map, List.foldl_map] at calls
    rw [Session.resolveNow_eq_dispatchReady h.ready, List.foldl_map]
    exact calls
  rw [same, run, List.map_append, ← h.executed]
  congr 1
  · exact rewrites.executed
  · have alive : ∀ d : Delivered, (w.session.counted a).world.isAlive d.target =
        w.session.world.isAlive d.target := fun d => rewrites.isAlive d.target
    rw [List.filter_congr fun d _ => alive d]
    simp only [outcomes, List.filter_map, List.map_map]
    rfl

/-- The queue after an arrival: its reference is counted off, and what became ready is taken out. -/
theorem Sound.calls_replay (a : Arrival) : (w.perform (.replay a)).session.calls =
    (w.session.calls.resolve a.reference).2.drain.2 := by
  show (w.session.resolveNow a).calls = _
  rw [Session.resolveNow_eq_dispatchReady h.ready]
  obtain ⟨world, same⟩ := Session.dispatchReady_eq (w.session.counted a)
  rw [same]
  rfl

/-- A ticket is looked up after an arrival: what is freed is gone. -/
theorem Sound.get?_perform_replay (a : Arrival) (t : Ticket) :
    (w.perform (.replay a)).session.calls.get? t =
      if t ∈ w.session.calls.freed a.reference then none
      else (w.session.calls.resolve a.reference).2.get? t := by
  rw [h.calls_replay, CallQueue.get?_drain, CallQueue.ready_resolve, h.ready, List.nil_append]

/-- The parked errands are those that an arrival ends and those that stay, and an errand that ends
is executed or dropped. -/
theorem Sound.balance_replay (a : Arrival) : (errands (past ++ [⟨w.session, .replay a⟩])).Perm
    (l.enter ⟨w.session, .replay a⟩).listed := by
  rw [errands_concat]
  refine List.perm_iff_count.mpr ?_
  intro e
  have before := h.balance.count_eq e
  have parked := ((perm_lookup h.tickets (w.session.calls.nodup_freed a.reference)).map
    (fun x : Ticket × Errand => x.2)).count_eq e
  have ended := ((List.filter_append_perm (fun x : Outcome => x.isAlive)
    (l.outcomes w.session (w.session.calls.freed a.reference))).map (·.errand)).count_eq e
  have freed : (l.outcomes w.session (w.session.calls.freed a.reference)).map (·.errand) =
      ((w.session.calls.freed a.reference).filterMap fun t =>
        l.parked.find? (·.1 == t)).map (·.2) := by
    have asked : (l.outcomes w.session (w.session.calls.freed a.reference)).map (·.errand) =
        (w.session.calls.freed a.reference).filterMap l.waiting? := by
      rw [outcomes, List.map_map]
      exact List.map_id _
    exact asked.trans List.map_filterMap.symm
  simp only [Moment.errands, enter, listed, List.append_nil, List.map_append, List.count_append,
    freed] at before parked ended ⊢
  omega

/-- No errand ends before its delivery. -/
theorem Sound.since_replay (a : Arrival) :
    ∀ x ∈ (l.enter ⟨w.session, .replay a⟩).executed, x.errand.number ≤ x.number := by
  intro x mem
  rcases List.mem_append.mp mem with old | new
  · exact h.since x old
  · obtain ⟨number, -, t, known, -⟩ := h.mem_outcomes (List.mem_filter.mp new).1
    rw [number, h.clock]
    exact Nat.le_of_lt (h.number_lt (h.mem_errands known))

/-- An errand that is executed finds its last reference in the arrival, and the others before. -/
theorem Sound.ran_replay (a : Arrival) :
    ∀ x ∈ (l.enter ⟨w.session, .replay a⟩).executed, x.isAlive = true ∧
      (∃ m, (past ++ [⟨w.session, .replay a⟩])[x.number]? = some m ∧ m.session = x.session) ∧
      ∀ r ∈ Value.referencesAll x.errand.call.args,
        FoundBetween (past ++ [⟨w.session, .replay a⟩]) x.errand.number x.number r := by
  intro x mem
  rcases List.mem_append.mp mem with old | new
  · exact h.ran_concat _ x old
  · obtain ⟨ended, alive⟩ := List.mem_filter.mp new
    obtain ⟨number, session, t, known, missing, -, -, others⟩ := h.mem_outcomes ended
    rw [number, h.clock]
    refine ⟨alive, ⟨⟨w.session, .replay a⟩, by simp, session.symm⟩, ?_⟩
    intro r refs
    have after : x.errand.number ≤ past.length :=
      Nat.le_of_lt (h.number_lt (h.mem_errands known))
    rcases others r refs with rfl | finds
    · exact foundBetween_concat after (.inr ⟨a, rfl, rfl⟩)
    · exact finds.append (Nat.le_refl _) _

/-- An errand that is dropped waited for the arrival alone, and its object is gone. -/
theorem Sound.dropped_replay (a : Arrival) :
    ∀ x ∈ (l.enter ⟨w.session, .replay a⟩).dropped, x.isAlive = false ∧
      ∃ m arrival t, (past ++ [⟨w.session, .replay a⟩])[x.number]? = some m ∧
        m.session = x.session ∧ m.move = .replay arrival ∧
        ∃ missing, x.session.calls.get? t = some (x.errand.call.parked missing) ∧
          ∀ r, r ∈ missing ↔ r = arrival.reference := by
  intro x mem
  rcases List.mem_append.mp mem with old | new
  · exact h.dropped_concat _ x old
  · obtain ⟨ended, dead⟩ := List.mem_filter.mp new
    obtain ⟨number, session, t, -, missing, found, only, -⟩ := h.mem_outcomes ended
    rw [number, session, h.clock]
    exact ⟨by simpa using dead, ⟨w.session, .replay a⟩, a, t, by simp, rfl, rfl, missing, found,
      only⟩

/-- An errand that stays waits for the others of its arguments, and the arrival is found. -/
theorem Sound.parked_replay (a : Arrival) {t : Ticket} {e : Errand}
    (mem : (t, e) ∈ (l.enter ⟨w.session, .replay a⟩).parked) :
    ∃ missing, (w.perform (.replay a)).session.calls.get? t = some (e.call.parked missing) ∧
      missing ≠ ∅ ∧ (∀ r ∈ missing, r ∈ Value.referencesAll e.call.args) ∧
      ∀ r ∈ Value.referencesAll e.call.args, r ∈ missing ∨
        FoundBetween (past ++ [⟨w.session, .replay a⟩]) e.number
          (past ++ [(⟨w.session, .replay a⟩ : Moment)]).length r := by
  obtain ⟨known, unfreed⟩ := mem_parked_replay.mp mem
  obtain ⟨missing, found, some, own, others⟩ := h.unfreed known unfreed
  rw [h.get?_perform_replay, if_neg unfreed]
  refine ⟨missing, found, some, own, ?_⟩
  intro r refs
  have after : e.number ≤ past.length := Nat.le_of_lt (h.number_lt (h.mem_errands known))
  rcases others r refs with still | rfl | finds
  · exact .inl still
  · have now : FoundBetween (past ++ [⟨w.session, .replay a⟩]) e.number past.length
        a.reference := foundBetween_concat after (.inr ⟨a, rfl, rfl⟩)
    exact .inr (by simpa using now.append (Nat.le_succ _) [])
  · exact .inr (finds.append (by simp) _)

/-- What is still in the queue after an arrival waits. -/
theorem Sound.pending_replay (a : Arrival) {t : Ticket}
    (found : (w.perform (.replay a)).session.calls.get? t ≠ none) :
    ∃ e, (t, e) ∈ (l.enter ⟨w.session, .replay a⟩).parked := by
  rw [h.get?_perform_replay] at found
  split at found
  · exact absurd rfl found
  · rename_i unfreed
    obtain ⟨e, known⟩ := h.pending t fun none => found (by
      rw [CallQueue.get?_resolve, none]
      rfl)
    exact ⟨e, mem_parked_replay.mpr ⟨known, unfreed⟩⟩

/-- An arrival ends the errands that wait for it alone, and keeps a ledger sound. -/
theorem Sound.replay (a : Arrival) :
    (l.enter ⟨w.session, .replay a⟩).Sound (w.perform (.replay a))
      (past ++ [⟨w.session, .replay a⟩]) where
  clock := by simp [enter, h.clock]
  balance := h.balance_replay a
  ascending := h.ascending_concat _
  delivered := h.delivered_concat _ fun call move => by cases move
  executed := h.executed_replay a
  timed := h.timed_concat _ _ fun x mem =>
    (h.mem_outcomes (List.mem_filter.mp mem).1).1.trans h.clock
  since := h.since_replay a
  ran := h.ran_replay a
  dropped := h.dropped_replay a
  tickets := h.tickets.sublist (List.filter_sublist.map _)
  parked t e mem := h.parked_replay a mem
  pending t found := h.pending_replay a found
  ready := by rw [h.calls_replay]; rfl
  indexed := by
    rw [h.calls_replay]
    exact (h.indexed.resolve _).drain
  next := by
    rw [h.calls_replay]
    exact (CallQueue.next_resolve _ _).trans h.next
  parkings := h.parkings_concat _
  issued few t e mem := h.issued few t e (mem_parked_replay.mp mem).1
  displaced := h.displaced

/-- **Every apt move keeps a ledger sound.** -/
theorem Sound.perform {m : Move} (apt : m.Apt .all w) :
    (l.enter ⟨w.session, m⟩).Sound (w.perform m) (past ++ [⟨w.session, m⟩]) := by
  -- Only deliveries and arrivals concern calls; every other move is quiet.
  by_cases quiet : m.IsQuiet
  · obtain ⟨calls, journal⟩ := w.perform_of_isQuiet quiet
    exact h.quiet quiet calls journal
  · cases m with
    | deliver call =>
      cases waits : (Value.missingAll w.session.resolver call.args).isEmpty with
      | true => exact h.deliver_ready apt waits
      | false => exact h.deliver_parked apt waits
    | replay a => exact h.replay a
    | _ => exact absurd trivial quiet

end

/-! ## After a run -/

/-- A ledger **accounts** for the calls that were delivered in a course, which has led to `s`. -/
structure Accounts (l : Ledger) (course : List Moment) (s : Session) : Prop where
  /-- Every errand was executed, waits, was dropped or was displaced. -/
  complete : (errands course).Perm (l.executed.map (·.errand) ++
    (l.parked.map (·.2) ++ (l.dropped.map (·.errand) ++ l.displaced)))
  /-- It is one of these, and only once. -/
  once : (errands course).Nodup
  /-- Its arguments can be read whenever it is executed. -/
  readable : ∀ e ∈ errands course, Wire.decodeArgs e.call.payload = .ok e.call.args
  /-- The objects have seen just the executions that are listed, in this order. -/
  executed : s.world.journal.executed = l.executed.map (·.execution)
  /-- They had seen just those with a lower number at every moment before. -/
  timed : ∀ k m, course[k]? = some m → m.session.world.journal.executed =
    (l.executed.filter (·.number < k)).map (·.execution)
  /-- Each was executed in a moment of its number, not before its delivery and on a live object. -/
  ran : ∀ x ∈ l.executed, x.errand.number ≤ x.number ∧ x.isAlive = true ∧
    ∃ m, course[x.number]? = some m ∧ m.session = x.session
  /-- What waits is in the queue under its ticket, with some of its arguments still missing: they
  are not local, or their arrivals are held back by the open section. -/
  waits : ∀ t e, (t, e) ∈ l.parked →
    ∃ missing, s.calls.get? t = some (e.call.parked missing) ∧ missing ≠ ∅ ∧
      ∀ r ∈ missing, r ∈ Value.referencesAll e.call.args ∧ (s.resolver r = none ∨
        s.held.isOpen = true ∧ ∃ arrival ∈ s.held.burst.arrivals, arrival.reference = r)
  /-- The queue holds nothing else. -/
  queue : ∀ t, s.calls.get? t ≠ none → ∃! e, (t, e) ∈ l.parked
  /-- What was dropped waited for one reference, whose arrival came when the object was gone. -/
  dropped : ∀ x ∈ l.dropped, x.isAlive = false ∧
    ∃ m arrival t, course[x.number]? = some m ∧ m.session = x.session ∧ m.move = .replay arrival ∧
      ∃ missing, x.session.calls.get? t = some (x.errand.call.parked missing) ∧
        ∀ r, r ∈ missing ↔ r = arrival.reference
  /-- An errand loses its ticket to another one only when all tickets have been given out. -/
  displaced : l.displaced ≠ [] → 2 ^ 64 ≤ (errands course).length

/-- A sound ledger accounts for all calls where the session is alert. -/
theorem Sound.accounts {s : Session} {course : List Moment} (h : l.Sound s.idle course)
    (alert : s.idle.Alert) : l.Accounts course s where
  complete := h.balance
  once := h.ascending.imp fun less same => by
    rw [same] at less
    exact Nat.lt_irrefl _ less
  readable e mem := (h.delivered e mem).1
  executed := h.executed
  timed := h.timed
  ran x mem := ⟨h.since x mem, (h.ran x mem).1, (h.ran x mem).2.1⟩
  waits t e mem := by
    obtain ⟨missing, found, some, own, -⟩ := h.parked t e mem
    refine ⟨missing, found, some, fun r waits => ⟨own r waits, ?_⟩⟩
    by_cases known : s.resolver r = none
    · exact .inl known
    · rcases alert.expects (.call t _ found waits) known with ⟨a, due, -⟩ | held
      · cases due
      · exact .inr held
  queue t found := by
    obtain ⟨e, mem⟩ := h.pending t found
    refine ⟨e, mem, ?_⟩
    intro e' mem'
    have same := (h.find?_parked mem').symm.trans (h.find?_parked mem)
    exact congrArg Prod.snd (Option.some.inj same)
  dropped := h.dropped
  displaced some := Nat.le_trans (h.displaced some) h.parkings

end Ledger

namespace Session

/-- The ledger of a run is sound for what the run ends with. -/
theorem sound_ofCourse {settings : Settings} {protocol : Protocol} {acts : List Act} {s : Session}
    (ok : (start settings protocol).run acts = .ok s) :
    (Ledger.ofCourse ((start settings protocol).course acts)).Sound s.idle
      ((start settings protocol).course acts) := by
  refine (run_induction (I := fun w past => (Ledger.ofCourse past).Sound w past)
    (fun w past m _ apt sound => ?_) (tidy_start settings protocol)
    (Ledger.sound_start settings protocol) (fun a _ => a.within_all) ok).1
  rw [Ledger.ofCourse_concat]
  exact sound.perform apt

/-- **Every call is accounted for**: after every run, a call that was delivered has been executed
once, on its object, with its function and with its arguments as they were local at that moment; or
it is still parked and misses an argument; or it was dropped because its object was gone when its
last argument came. -/
theorem calls_accounted {settings : Settings} {protocol : Protocol} {acts : List Act}
    {s : Session} (ok : (start settings protocol).run acts = .ok s) :
    (Ledger.ofCourse ((start settings protocol).course acts)).Accounts
      ((start settings protocol).course acts) s :=
  (sound_ofCourse ok).accounts (alert_of_run ok)

/-- Two crates are called, with an object that is still to come; it comes when one of them is gone.
A last call names an object that never comes. -/
def callsOfEveryFate : List Act :=
  let build (entity : EntityId) := (Blueprint.ofClass entity "Crate").operations
  (build 1 ++ build 3 ++
    [Operation.multicast 1 [⟨0, [.int 7]⟩, ⟨1, [.ref (.root 2)]⟩],
      Operation.multicast 3 [⟨2, [.ref (.root 2)]⟩], Operation.removeEntity 3] ++
    build 2 ++ [Operation.multicast 2 [⟨3, [.ref (.root 4)]⟩]]).map .receive

theorem calls_accounted_callsOfEveryFate :
    ∃ s l, (start {} Stock.protocol).run callsOfEveryFate = .ok s ∧
      l = Ledger.ofCourse ((start {} Stock.protocol).course callsOfEveryFate) ∧
      l.Accounts ((start {} Stock.protocol).course callsOfEveryFate) s ∧
      l.executed.length = 2 ∧ l.parked.length = 1 ∧ l.dropped.length = 1 := by
  obtain ⟨s, ok, -⟩ := exists_run (start {} Stock.protocol) callsOfEveryFate (fun _ => true)
    (by decide +kernel)
  exact ⟨s, _, ok, rfl, calls_accounted ok, by decide +kernel, by decide +kernel,
    by decide +kernel⟩

end Session

end Replica
