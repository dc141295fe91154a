import Replica.Proofs.Graph.Fill
import Replica.Proofs.Section
import Replica.Proofs.Wakeup

/-! # Announcing an object again

An arrival strikes its reference from whatever waits for it: every shape of position at every depth,
the subscribers whose object is gone, and the parked invocations. Where no section holds it back,
nobody is left to be served by the same arrival a second time, and the session stays as it is.

Main definitions:
* `Directory.register_register`, `Session.resolveNow_of_unawaited` — a pair that is registered
  already, and an arrival that nobody waits for.
* `Session.announce_unawaits` — nobody waits for what has been announced.
* `Session.announce_twice` — an arrival that is reported again changes nothing. -/

namespace Replica

/-! ## Parts that are settled already -/

/-- To register a pair again changes nothing. -/
theorem Directory.register_register (d : Directory) (r : Reference) (h : Handle) :
    (d.register r h).register r h = d.register r h := by
  have named : (d.register r h).handles[r]? = some h := handle?_register_self d r h
  have names : (d.register r h).references[h]? = some r := reference?_register_self d r h
  generalize d.register r h = e at named names
  simp only [register, named, if_pos, names]
  rw [insert_of_getElem? named, insert_of_getElem? names]

/-- To strike a reference out again changes nothing. -/
@[simp] theorem Waiters.clear_clear {α : Type} [Ord α] (w : Waiters α) (r : Reference) :
    (w.clear r).clear r = w.clear r := by
  simp only [clear, Waiters.mk.injEq]
  refine Std.ExtTreeMap.ext_getElem? fun q => ?_
  simp only [Std.ExtTreeMap.getElem?_erase]
  split <;> rfl

/-- Where no invocation stands under a reference, counting it off frees none and changes nothing. -/
theorem CallQueue.resolve_of_cleared {q : CallQueue} {r : Reference}
    (cleared : q.waiting.clear r = q.waiting) : q.resolve r = (0, q) := by
  have nobody : (q.waiting.of r).toList = [] := by
    rw [← cleared, Waiters.of_clear, if_pos rfl]
    rfl
  simp only [resolve, nobody, cleared, List.foldl_nil]

/-- Where no subscriber stands under a reference, its replay changes nothing. -/
theorem Update.resolve_of_unawaited (w : World) {l : Waitlist} {r : Reference}
    (nobody : l.subscribersOf r = []) (resolve : Resolver) (resolved : Handle) :
    Update.resolve w l resolve r resolved = ⟨w, l, []⟩ := by
  rw [Update.resolve, nobody, List.foldl_nil]

namespace Session

variable {s : Session} {a : Arrival}

/-- An arrival that nobody waits for changes nothing. -/
theorem resolveNow_of_unawaited (nobody : s.waitlist.subscribersOf a.reference = [])
    (cleared : s.calls.waiting.clear a.reference = s.calls.waiting) : s.resolveNow a = s := by
  simp [resolveNow, Update.resolve_of_unawaited s.world nobody,
    CallQueue.resolve_of_cleared cleared, report]

/-! ## The second report -/

/-- Outside a section an arrival is replayed as soon as its object has a name. -/
theorem announce_of_closed (closed : s.held.isOpen = false) (a : Arrival) :
    s.announce a =
      { s with directory := s.directory.register a.reference a.object }.resolveNow a := by
  simp [announce, closed]

/-- A report outside a section leaves the object known under its reference, and the queue without
the reference. -/
theorem announce_settles (closed : s.held.isOpen = false) (a : Arrival) :
    (s.announce a).held = s.held ∧
      (s.announce a).directory = s.directory.register a.reference a.object ∧
      (s.announce a).calls.waiting.clear a.reference = (s.announce a).calls.waiting := by
  rw [announce_of_closed closed a]
  obtain ⟨world, events, calls, same, queue⟩ :=
    resolveNow_eq { s with directory := s.directory.register a.reference a.object } a
  have waiting : calls.waiting = s.calls.waiting.clear a.reference := by
    rcases queue with rfl | rfl
    · exact CallQueue.waiting_resolve _ _
    · exact CallQueue.waiting_resolve _ _
  rw [same]
  exact ⟨rfl, rfl, by simp [waiting]⟩

/-- After a report outside a section **nobody awaits** its reference: the reference is local, and
whoever waits for what is local is yet to be served by an arrival that is due or held back. -/
theorem announce_unawaits {settings : Settings} {protocol : Protocol} {acts : List Act}
    (ok : (start settings protocol).run acts = .ok s) (closed : s.held.isOpen = false)
    (a : Arrival) : ¬(s.announce a).Awaits a.reference := by
  obtain ⟨held, directory, -⟩ := announce_settles closed a
  have reported : (start settings protocol).run (acts ++ [.announce a]) = .ok (s.announce a) := by
    rw [run_append, ok]
    rfl
  intro awaited
  have known : (s.announce a).resolver a.reference ≠ none := by
    simp [resolver, directory]
  rcases (alert_of_run reported).expects awaited known with ⟨b, due, -⟩ | ⟨isOpen, -⟩
  · cases due
  · change (s.announce a).held.isOpen = true at isOpen
    rw [held, closed] at isOpen
    cases isOpen

/-- **Reports are idempotent**: after every run that leaves no section open, whatever object is
reported under whatever reference, nobody waits for the reference any more, neither a field on any
side of the waitlist nor a parked invocation, and the same report made again leaves the session and
its world exactly as they are. -/
theorem announce_twice {settings : Settings} {protocol : Protocol} {acts : List Act}
    (ok : (start settings protocol).run acts = .ok s) (closed : s.held.isOpen = false)
    (a : Arrival) :
    ¬(s.announce a).Awaits a.reference ∧ (s.announce a).announce a = s.announce a := by
  have unawaited := announce_unawaits ok closed a
  obtain ⟨held, directory, cleared⟩ := announce_settles closed a
  refine ⟨unawaited, ?_⟩
  have nobody : (s.announce a).waitlist.subscribersOf a.reference = [] :=
    List.eq_nil_iff_forall_not_mem.mpr fun t waits => unawaited (.subscriber t waits)
  -- The pair is registered already, so only the replay could change something.
  have registered : (s.announce a).directory.register a.reference a.object =
      (s.announce a).directory := by
    rw [directory, Directory.register_register]
  rw [announce_of_closed (held ▸ closed), registered]
  exact resolveNow_of_unawaited nobody cleared

/-- A crate whose fields wait in every shape for an object, which a call waits for as well, and
another crate that has waited for it and is gone from the world. -/
def expectantCrates : List Act :=
  let missing : Value := .ref (.root 7)
  let waiting := ((Blueprint.ofClass 1 "Crate").withFields Stock.rootDataComponent
    [.at 5 missing, .at 6 (.struct [missing, .ref (.root 8)]),
      .at 8 (.array [.null, .array [missing]])]).sectionOperations
  let gone := ((Blueprint.ofClass 2 "Crate").withFields Stock.rootDataComponent
    [.at 5 missing]).sectionOperations
  (waiting ++ gone ++ [Operation.multicast 1 [⟨3, [missing]⟩]]).map .receive ++
    [.alter (.placeLocal "Lever"), .alter (.destroy ⟨1, 0⟩)]

theorem announce_twice_expectantCrates :
    ∃ s, (start {} Stock.protocol).run expectantCrates = .ok s ∧ s.held.isOpen = false ∧
      (∀ t ∈ [⟨⟨1, 0⟩, ⟨0, 0⟩⟩, ⟨⟨2, 1⟩, ⟨1, 0⟩⟩], t ∈ s.waitlist.subscribersOf (.root 7)) ∧
      0 ∈ s.calls.waiting.of (.root 7) ∧
      ¬(s.announce ⟨⟨2, 0⟩, .root 7⟩).Awaits (.root 7) ∧
      (s.announce ⟨⟨2, 0⟩, .root 7⟩).announce ⟨⟨2, 0⟩, .root 7⟩ =
        s.announce ⟨⟨2, 0⟩, .root 7⟩ := by
  obtain ⟨s, ok, test⟩ := exists_run (start {} Stock.protocol) expectantCrates
    (fun s => !s.held.isOpen &&
      [⟨⟨1, 0⟩, ⟨0, 0⟩⟩, ⟨⟨2, 1⟩, ⟨1, 0⟩⟩].all (s.waitlist.isSubscribed (.root 7)) &&
      (s.calls.waiting.of (.root 7)).contains 0) (by decide +kernel)
  simp only [Bool.and_eq_true, List.all_eq_true, Bool.not_eq_true', Waitlist.isSubscribed_iff]
    at test
  obtain ⟨⟨closed, fields⟩, call⟩ := test
  exact ⟨s, ok, closed, fields, call, announce_twice ok closed ⟨⟨2, 0⟩, .root 7⟩⟩

end Session

end Replica
