import Replica.Blueprint
import Replica.Proofs.CallQueue
import Replica.Proofs.Course.Carries
import Replica.Proofs.Directory
import Replica.Proofs.Waitlist

/-! # Nobody waits in vain

A field or an invocation that waits for a reference goes on once the reference is local. References
become local in three ways — an entity is built, an object is reported, or it is reported while a
section holds arrivals back — and cease to be in two. Whoever waits for a reference that is local is
about to be served: the arrival of the reference is due, or an open section holds it back.

Main definitions:
* `Session.Awaits` — somebody waits for a reference, on any side of the waitlist or the call queue.
* `Work.Alert` — whoever waits for what is local is about to be served, which every move keeps.
* `Session.awaited_only_if_held` — after a run, nobody waits for what is local, except for arrivals
  that the open section holds back. -/

namespace Replica

/-- Somebody **awaits** a reference. Each way to find out is a case of its own. -/
inductive Session.Awaits (s : Session) (r : Reference) : Prop where
  /-- A field of a subscriber waits. -/
  | field (subscriber : Subscriber) (waits : r ∈ (s.waitlist.parkedOf subscriber).references)
  /-- A subscriber is noted to wait. -/
  | entry (subscriber : Subscriber) (waits : r ∈ s.waitlist.missingOf subscriber)
  /-- A subscriber is found under the reference. -/
  | subscriber (subscriber : Subscriber) (waits : subscriber ∈ s.waitlist.subscribersOf r)
  /-- A parked invocation waits. -/
  | call (ticket : Ticket) (call : ParkedCall) (found : s.calls.get? ticket = some call)
    (waits : r ∈ call.missing)
  /-- A parked invocation is found under the reference. -/
  | ticket (ticket : Ticket) (waits : ticket ∈ s.calls.waiting.of r)

namespace Work

/-- A reference is **expected** if one of its arrivals is due, or held back by an open section. -/
def Expects (w : Work) (r : Reference) : Prop :=
  (∃ a ∈ w.due, a.reference = r) ∨
    w.session.held.isOpen = true ∧ ∃ a ∈ w.session.held.burst.arrivals, a.reference = r

/-- Work is **alert** if the waitlist and the call queue are in order, and whatever is awaited and
local is expected. -/
structure Alert (w : Work) : Prop where
  /-- The sides of the waitlist agree. -/
  coherent : w.session.waitlist.Coherent
  /-- Parked invocations are found under what they wait for. -/
  indexed : w.session.calls.Indexed
  /-- A field waits for what is not local, or is expected. -/
  fields : ∀ {r : Reference} {t : Subscriber},
    r ∈ (w.session.waitlist.parkedOf t).references → w.session.resolver r ≠ none → w.Expects r
  /-- An invocation waits for what is not local, or is expected. -/
  calls : ∀ {r : Reference} {t : Ticket},
    t ∈ w.session.calls.waiting.of r → w.session.resolver r ≠ none → w.Expects r

namespace Alert

variable {w w' : Work}

/-- Whatever is awaited and local is expected, in whichever way it is found out. -/
theorem expects (h : w.Alert) {r : Reference} (awaited : w.session.Awaits r)
    (known : w.session.resolver r ≠ none) : w.Expects r := by
  cases awaited with
  | field t waits => exact h.fields waits known
  | entry t waits =>
    rw [h.coherent.missing] at waits
    exact h.fields waits known
  | subscriber t waits =>
    rw [h.coherent.mem_subscribersOf]
      at waits
    exact h.fields waits known
  | call t c found waits => exact h.calls (h.indexed t c r found waits) known
  | ticket t waits => exact h.calls waits known

/-- Work stays alert where nobody waits for more, nothing more is local and nothing less is
expected. -/
theorem of_same (h : w.Alert) (waitlist : w'.session.waitlist = w.session.waitlist)
    (queue : w'.session.calls = w.session.calls)
    (known : ∀ r, w'.session.resolver r ≠ none → w.session.resolver r ≠ none ∨ w'.Expects r)
    (expected : ∀ r, w.Expects r → w'.Expects r) : w'.Alert where
  coherent := by rw [waitlist]; exact h.coherent
  indexed := by rw [queue]; exact h.indexed
  fields {r t} waits found := by
    rw [waitlist] at waits
    -- Either it was known and waited for before, or it is expected now.
    rcases known r found with before | already
    · exact expected r (h.fields waits before)
    · exact already
  calls {r t} waits found := by
    rw [queue] at waits
    rcases known r found with before | already
    · exact expected r (h.calls waits before)
    · exact already

/-- A session that has received nothing is alert. -/
theorem start (settings : Settings) (protocol : Protocol) :
    (Session.start settings protocol).idle.Alert where
  coherent := Waitlist.coherent_empty
  indexed := CallQueue.Indexed.empty
  fields {r t} waits _ := by
    simp [Session.idle, Session.start, Waitlist.parkedOf, Waitlist.empty] at waits
  calls {r t} waits _ := by simp [Session.idle, Session.start, CallQueue.empty] at waits

/-! ## Moves -/

/-- The end of a section makes what it held back due. -/
theorem mark (h : w.Alert) (opens : Bool) : (w.perform (.mark opens)).Alert := by
  cases opens with
  | true =>
    refine h.of_same rfl rfl (fun _ known => .inl known) ?_
    rintro r (due | ⟨-, held⟩)
    · exact .inl due
    · exact .inr ⟨Section.isOpen_enter _, held⟩
  | false =>
    simp only [Work.perform]
    -- Only the end of the outermost section yields a burst, whose arrivals are due from then on.
    rcases w.session.held.leave_cases with
      ⟨-, left⟩ | ⟨-, left⟩ | ⟨isOpen, inner, still, same, left⟩
    · rw [left]
      exact h.of_same rfl rfl (fun _ known => .inl known) fun _ expected => expected
    · rw [left]
      refine h.of_same rfl rfl (fun _ known => .inl known) ?_
      rintro r (⟨a, due, names⟩ | ⟨-, a, held, names⟩)
      · exact .inl ⟨a, List.mem_append_right _ due, names⟩
      · exact .inl ⟨a, List.mem_append_left _ held, names⟩
    · rw [left]
      refine h.of_same rfl rfl (fun _ known => .inl known) ?_
      rintro r (due | ⟨-, held⟩)
      · exact .inl due
      · exact .inr ⟨still, same ▸ held⟩

/-- Operations that are held back are no arrivals. -/
theorem hold (h : w.Alert) (operation : Operation) : (w.perform (.hold operation)).Alert := by
  refine h.of_same rfl rfl (fun _ known => .inl known) ?_
  rintro r (due | ⟨isOpen, a, held, same⟩)
  · exact .inl due
  · exact .inr ⟨isOpen, a, (Burst.arrivals_keep _ operation).symm ▸ held, same⟩

/-- What is learnt is due or held back. -/
theorem learn (h : w.Alert) (arrival : Arrival) : (w.perform (.learn arrival)).Alert := by
  -- A reference other than that of the arrival was known before.
  have register : ∀ {r : Reference}, r ≠ arrival.reference →
      (w.session.directory.register arrival.reference arrival.object).handle? r ≠ none →
        w.session.resolver r ≠ none := by
    intro r differs known none
    obtain ⟨k, found⟩ := Option.ne_none_iff_exists'.mp known
    rw [Session.resolver, Directory.handle?_of_register (Ne.symm differs) found] at none
    cases none
  simp only [Work.perform]
  split
  · rename_i holds
    have isOpen : w.session.held.isOpen = true := (Bool.and_eq_true_iff.mp holds).1
    refine h.of_same rfl rfl (fun r known => ?_) ?_
    · by_cases same : r = arrival.reference
      · exact .inr (.inr ⟨isOpen, arrival, List.mem_append_right _ List.mem_cons_self, same.symm⟩)
      · exact .inl (register same known)
    · rintro r (due | ⟨-, a, held, names⟩)
      · exact .inl due
      · exact .inr ⟨isOpen, a, List.mem_append_left _ held, names⟩
  · refine h.of_same rfl rfl (fun r known => ?_) ?_
    · by_cases same : r = arrival.reference
      · exact .inr (.inl ⟨arrival, List.mem_cons_self, same.symm⟩)
      · exact .inl (register same known)
    · rintro r (⟨a, due, names⟩ | held)
      · exact .inl ⟨a, List.mem_cons_of_mem _ due, names⟩
      · exact .inr held

/-- The objects of a channel are due as soon as they are known. -/
theorem found (h : w.Alert) (draft : Draft) : (w.perform (.found draft)).Alert := by
  simp only [Work.perform]
  cases step : w.session.found draft with
  | mk built s =>
    cases built with
    | none =>
      rcases Session.found_eq_none step with rfl | ⟨-, world, rfl⟩
      · exact h.of_same rfl rfl (fun _ known => .inl known) fun _ expected => expected
      · exact h.of_same rfl rfl (fun _ known => .inl known) fun _ expected => expected
    | some channel =>
      obtain ⟨spawn, assembly, world, channels, -, -, -, rfl⟩ := Session.found_eq_some.mp step
      -- A reference that has become known names an object of the channel, whose arrival is due.
      refine h.of_same rfl rfl (fun r known => ?_) ?_
      · obtain ⟨k, named⟩ := Option.ne_none_iff_exists'.mp known
        rcases Directory.handle?_of_foldl_register _ named with ⟨object, member⟩ | before
        · exact .inr (.inl ⟨⟨object, r⟩, List.mem_append_left _
            (List.mem_map.mpr ⟨(r, object), member, rfl⟩), rfl⟩)
        · exact .inl (by simp [Session.resolver, before])
      · rintro r (⟨a, due, names⟩ | held)
        · exact .inl ⟨a, List.mem_append_right _ due, names⟩
        · exact .inr held

/-- A payload lets fields wait only for what is not local. -/
theorem writes (h : w.Alert) {s : Session} (written : w.session.Writes s) :
    Alert { w with session := s } := by
  cases written with
  | refused => exact h
  | applied ok =>
    exact {
      coherent := Update.coherent_of_apply h.coherent ok
      indexed := h.indexed
      fields := fun waits known => by
        rcases Update.waits_of_apply ok waits with before | missing
        · exact h.fields before known
        · exact absurd missing known
      calls := fun waits known => h.calls waits known }

theorem populate (h : w.Alert) (channel : Channel) (data : ComponentData) :
    (w.perform (.populate channel data)).Alert :=
  h.writes (Session.writes_populate channel w.session data)

theorem write (h : w.Alert) (entity : EntityId) (data : ComponentData) :
    (w.perform (.write entity data)).Alert :=
  h.writes (Session.writes_write w.session entity data)

theorem authorize (h : w.Alert) (change : AuthorityChange) :
    (w.perform (.authorize change)).Alert := by
  simp only [Work.perform, Session.changeAuthority]
  split
  · exact h.of_same rfl rfl (fun _ known => .inl known) fun _ expected => expected
  · exact h.of_same rfl rfl (fun _ known => .inl known) fun _ expected => expected

/-- A call is parked only for what is not local. -/
theorem deliver (h : w.Alert) (call : Delivered) : (w.perform (.deliver call)).Alert := by
  simp only [Work.perform, Session.deliverCall, Session.dispatch]
  split
  · unfold Session.execute
    split
    · exact h.of_same rfl rfl (fun _ known => .inl known) fun _ expected => expected
    · exact h
  · refine ⟨h.coherent, h.indexed.enqueue _, h.fields, fun waits known => ?_⟩
    rcases CallQueue.mem_waiting_enqueue.mp waits with ⟨missing, -⟩ | before
    · exact absurd (Resolver.mem_missing.mp missing).2 known
    · exact h.calls before known

/-- After a replay nobody waits for what was replayed, and it needs no further arrival. -/
theorem replay (h : w.Alert) (arrival : Arrival) : (w.perform (.replay arrival)).Alert := by
  obtain ⟨world, events, calls, same, queue⟩ := w.session.resolveNow_eq arrival
  simp only [Work.perform, same]
  -- Other references are expected as before: only arrivals of this one may be missing now.
  have others : ∀ {r : Reference}, r ≠ arrival.reference → w.Expects r →
      (∃ a ∈ w.due.erase arrival, a.reference = r) ∨
        w.session.held.isOpen = true ∧ ∃ a ∈ w.session.held.burst.arrivals, a.reference = r := by
    rintro r differs (⟨a, due, names⟩ | held)
    · refine .inl ⟨a, (List.mem_erase_of_ne fun eq => differs ?_).mpr due, names⟩
      rw [← names, eq]
    · exact .inr held
  -- The queue has struck the reference out, whether calls have run or not.
  have waiting : calls.waiting = w.session.calls.waiting.clear arrival.reference := by
    rcases queue with rfl | rfl <;> exact CallQueue.waiting_resolve _ _
  have indexed : calls.Indexed := by
    rcases queue with rfl | rfl
    · exact h.indexed.resolve _
    · exact (h.indexed.resolve _).drain
  refine ⟨Update.coherent_resolve h.coherent _ _ _, indexed, fun waits known => ?_,
    fun waits known => ?_⟩
  · rcases Update.waits_of_resolve h.coherent waits with ⟨before, differs⟩ | missing
    · exact others differs (h.fields before known)
    · exact absurd missing known
  · simp only [waiting, Waiters.of_clear] at waits
    split at waits
    · simp at waits
    · rename_i differs
      exact others (Ne.symm differs) (h.calls waits known)

/-- What is taken down is neither local nor waited for. -/
theorem remove (h : w.Alert) (entity : EntityId) : (w.perform (.remove entity)).Alert := by
  rw [Work.perform]
  rcases w.session.remove_cases entity with ⟨-, same⟩ | ⟨-, same⟩ | ⟨channel, -, same⟩
  · rw [same]
    exact h.of_same rfl rfl (fun _ known => .inl known) fun _ expected => expected
  · rw [same]
    exact h
  · rw [same]
    -- No reference becomes local by an entity being taken down.
    have before : ∀ {r : Reference},
        (w.session.directory.unregisterEntity entity).handle? r ≠ none →
        w.session.resolver r ≠ none := by
      intro r known
      rw [Directory.handle?_unregisterEntity] at known
      split at known
      · exact absurd rfl known
      · exact known
    refine ⟨Waitlist.coherent_removeChannel h.coherent _, h.indexed, fun waits known => ?_,
      fun waits known => ?_⟩
    · exact h.fields (Waitlist.waits_of_removeChannel waits) (before known)
    · exact h.calls waits (before known)

end Alert

/-- Every move keeps work alert. -/
theorem Alert.perform {w : Work} (h : w.Alert) (m : Move) : (w.perform m).Alert := by
  cases m with
  | mark opens => exact h.mark opens
  | hold operation => exact h.hold operation
  | draft drafts => exact ⟨h.coherent, h.indexed, h.fields, h.calls⟩
  | settle requests events deliveries => exact ⟨h.coherent, h.indexed, h.fields, h.calls⟩
  | alter change => exact ⟨h.coherent, h.indexed, h.fields, h.calls⟩
  | learn arrival => exact h.learn arrival
  | found draft => exact h.found draft
  | populate channel data => exact h.populate channel data
  | complete channel => exact ⟨h.coherent, h.indexed, h.fields, h.calls⟩
  | authorize change => exact h.authorize change
  | write entity data => exact h.write entity data
  | deliver call => exact h.deliver call
  | replay arrival => exact h.replay arrival
  | remove entity => exact h.remove entity

end Work

namespace Session

/-- A session is alert after every run. -/
theorem alert_of_run {settings : Settings} {protocol : Protocol} {acts : List Act} {s : Session}
    (ok : (start settings protocol).run acts = .ok s) : s.idle.Alert :=
  (run_induction (I := fun w _ => w.Alert) (fun _ _ m _ _ h => h.perform m)
    (tidy_start settings protocol) (.start settings protocol) (fun a _ => a.within_all) ok).1

/-- **No lost wake-up**: after every run, whoever waits for a reference that is local waits for an
arrival of it that the open section holds back; where no section is open, nobody waits for anything
that is local. -/
theorem awaited_only_if_held {settings : Settings} {protocol : Protocol} {acts : List Act}
    {s : Session} (ok : (start settings protocol).run acts = .ok s) :
    (∀ r, s.Awaits r → s.resolver r ≠ none →
      s.held.isOpen = true ∧ ∃ arrival ∈ s.held.burst.arrivals, arrival.reference = r) ∧
    (s.held.isOpen = false → ∀ r, s.Awaits r → s.resolver r = none) := by
  have held : ∀ r, s.Awaits r → s.resolver r ≠ none →
      s.held.isOpen = true ∧ ∃ arrival ∈ s.held.burst.arrivals, arrival.reference = r := by
    intro r awaited known
    rcases (alert_of_run ok).expects awaited known with ⟨a, due, -⟩ | held
    · cases due
    · exact held
  refine ⟨held, fun shut r awaited => ?_⟩
  by_cases known : s.resolver r = none
  · exact known
  · exact absurd ((held r awaited known).1.symm.trans shut) (by decide)

/-- A crate waits for an object, which is reported while a section is open. -/
def reportInSection : List Act :=
  ((Blueprint.ofClass 1 "Crate").withFields Stock.rootDataComponent
      [.at 5 (.ref (.root 2))]).sectionOperations.map .receive ++
    [.alter (.placeLocal "Lever"), .receive (.criticalSection true), .announce ⟨⟨1, 0⟩, .root 2⟩]

theorem awaited_reportInSection :
    ∃ s, (start {} Stock.protocol).run reportInSection = .ok s ∧
      s.Awaits (.root 2) ∧ s.resolver (.root 2) ≠ none ∧
      s.held.isOpen = true ∧ ∃ arrival ∈ s.held.burst.arrivals, arrival.reference = .root 2 := by
  obtain ⟨s, ok, test⟩ := exists_run (start {} Stock.protocol) reportInSection
    (fun s => s.waitlist.isSubscribed (.root 2) ⟨⟨1, 0⟩, ⟨0, 0⟩⟩ &&
      s.resolver (.root 2) == some ⟨1, 0⟩) (by decide +kernel)
  rw [Bool.and_eq_true, beq_iff_eq] at test
  have awaited : s.Awaits (.root 2) := .subscriber _ (Waitlist.isSubscribed_iff.mp test.1)
  have known : s.resolver (.root 2) ≠ none := by rw [test.2]; nofun
  exact ⟨s, ok, awaited, known, (awaited_only_if_held ok).1 _ awaited known⟩

end Session

end Replica
