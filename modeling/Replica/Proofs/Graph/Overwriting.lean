import Replica.Blueprint
import Replica.Proofs.Graph.Catchup
import Replica.Proofs.Pursuit
import Replica.Proofs.Section

/-! # Fields written more than once

Of several assignments that a payload makes to one field, the last one decides what the field
holds. What is parked for the field is decided by the last one that waits for anything, since an
assignment that waits for nothing takes nothing back. The two are the same one unless the last
assignment waits for nothing and an earlier one does: then the field is taken for one that still
waits, and a later arrival is written over what the payload had put there.

Main definitions:
* `Assignment.leftAt` — what some assignments leave parked for a field.
* `Update.last_waiting_write_parks` — what a payload writes and leaves, for every field. -/

namespace Replica

/-- What some assignments **leave** parked for a field: what the last of them to the field does that
waits for anything. -/
def Assignment.leftAt (resolve : Resolver) (as : List Assignment) (k : Offset) :
    Option Outstanding :=
  (as.filter (·.offset == k)).reverse.findSome? fun a => a.value.outstanding resolve a.rep

namespace Assignment

variable {resolve : Resolver} {as : List Assignment} {k : Offset} {a : Assignment}

/-- Nothing is left parked just if no assignment to the field waits for anything. -/
theorem leftAt_eq_none : leftAt resolve as k = none ↔
    ∀ b ∈ as, b.offset = k → b.value.outstanding resolve b.rep = none := by
  simp [leftAt]

/-- What is left parked is what the last assignment leaves, if that waits for anything. -/
theorem leftAt_of_waits (last : lastTo as k = some a) {o : Outstanding}
    (waits : a.value.outstanding resolve a.rep = some o) : leftAt resolve as k = some o := by
  obtain ⟨front, split⟩ := List.getLast?_eq_some_iff.mp last
  rw [leftAt, split, List.reverse_append, List.reverse_singleton, List.singleton_append,
    List.findSome?_cons, waits]

/-- **What is left parked is what the last assignment leaves**, unless that waits for nothing and an
earlier one to the field waits for something. -/
theorem leftAt_eq_last_iff (last : lastTo as k = some a) :
    leftAt resolve as k = a.value.outstanding resolve a.rep ↔
      (a.value.outstanding resolve a.rep = none →
        ∀ b ∈ as, b.offset = k → b.value.outstanding resolve b.rep = none) := by
  cases waits : a.value.outstanding resolve a.rep with
  | none => simp [leftAt_eq_none]
  | some o => simp [leftAt_of_waits last waits]

end Assignment

namespace Update

open Assignment (leftAt leftAt_eq_last_iff)

variable {resolve : Resolver} {t : Subscriber}

/-- A field that waits for a reference is overwritten with the object that is found. -/
theorem field_resolve_of_parked {w : World} {l : Waitlist} (h : Keeps w l t) {k : Offset}
    {rep : RepIndex} {r : Reference} {old : Localized}
    (parked : (l.parkedOf t)[k]? = some (.single rep r)) (shown : w.field? t.object k = some old)
    (resolve : Resolver) (resolved : Handle) :
    (Update.resolve w l resolve r resolved).world.field? t.object k =
      some (.object (some resolved)) := by
  have served : (t ∉ l.subscribersOf r ∧ Untouched t w l _ _) ∨ _ :=
    exists_served resolve resolved (h.alone.eq_of_subscribed h.coherent)
  rcases served with ⟨out, -⟩ | ⟨-, state, before, after⟩
  · refine absurd ?_ out
    rw [h.coherent.mem_subscribersOf, Parked.mem_references]
    exact ⟨k, _, parked, List.mem_singleton.mpr rfl⟩
  · have waits : (state.waitlist.parkedOf t)[k]? = some (.single rep r) := by
      rw [before.parked t rfl, parked]
    exact (after.field k).trans (fill_serve waits ((before.field k).trans shown)).1

/-- **The last write that waits is what is parked.** A payload that can be read is applied to a live
object, whatever its fields hold and wait for. A field that it does not assign stays as it is, and
so does what is parked there. Any other field holds what its last assignment makes of it, and for it
is parked what the last assignment leaves that waits for anything: this is what the last one leaves,
just if no assignment waits where the last one does not. If nobody else waits with the object, later
arrivals leave the field alone that are not waited for by what is parked, and a reference that is
parked as such is written over the field when its object arrives. -/
theorem last_waiting_write_parks {w : World} {l : Waitlist} {object : Object}
    (found : w.object? t.object = some object) {role : Role} (data : role ≠ .spawn)
    (component : ComponentId) {payload : Bytes} {as : List Assignment}
    (decoded : Wire.decodeFields payload = .ok as) (resolve : Resolver) :
    ∃ w' l', apply w l resolve t role component payload = .ok (w', l') ∧
      (∀ k, lastTo as k = none → w'.field? t.object k = w.field? t.object k ∧
        (l'.parkedOf t)[k]? = (l.parkedOf t)[k]?) ∧
      ∀ k a, lastTo as k = some a →
        w'.field? t.object k = some (a.value.localize resolve) ∧
        (l'.parkedOf t)[k]? = leftAt resolve as k ∧
        ((l'.parkedOf t)[k]? = a.value.outstanding resolve a.rep ↔
          (a.value.outstanding resolve a.rep = none →
            ∀ b ∈ as, b.offset = k → b.value.outstanding resolve b.rep = none)) ∧
        (l.Coherent → l.StandsAlone t → ∀ resolve' : Resolver,
          (∀ arrivals : List Arrival, (∀ o, leftAt resolve as k = some o →
              ∀ b ∈ arrivals, b.reference ∉ o.references) →
            (resolveEach resolve' arrivals ⟨w', l', []⟩).world.field? t.object k =
              w'.field? t.object k) ∧
          ∀ rep r resolved, leftAt resolve as k = some (.single rep r) →
            (Update.resolve w' l' resolve' r resolved).world.field? t.object k =
              some (.object (some resolved))) := by
  obtain ⟨w', l', ok, each⟩ := fields_apply_of_decoded found data decoded l resolve component
  refine ⟨w', l', ok, fun k unassigned => ?_, fun k a last => ?_⟩
  · obtain ⟨field, parked⟩ := each k
    -- A field without an assignment keeps what it shows and what is parked for it.
    have unwritten := lastTo_eq_none.mp unassigned
    have none : leftAt resolve as k = none := by
      rw [Assignment.leftAt_eq_none]
      exact fun b mem same => absurd (List.mem_map.mpr ⟨b, mem, same⟩) unwritten
    rw [unassigned] at field
    rw [if_neg unwritten, ← leftAt, none, Option.none_or] at parked
    exact ⟨field, parked⟩
  · obtain ⟨field, parked⟩ := each k
    obtain ⟨mem, same⟩ := mem_of_lastTo last
    rw [last] at field
    rw [if_pos (List.mem_map.mpr ⟨a, mem, same⟩), Option.or_none, ← leftAt] at parked
    refine ⟨field, parked, ?_, fun coherent alone resolve' => ?_⟩
    · rw [parked]
      exact leftAt_eq_last_iff last
    · have kept : Keeps w' l' t := .apply found coherent alone ok
      refine ⟨fun arrivals free => ?_, fun rep r resolved waits => ?_⟩
      · refine (field_resolveEach resolve' arrivals ⟨w', l', []⟩ kept ?_).1
        rw [parked]
        exact free
      · exact field_resolve_of_parked kept (parked.trans waits) field resolve' resolved

/-- A field is named an object and then given a number, another the other way round. -/
def rewrites : List Assignment :=
  [.at 5 (.ref (.root 2)), .at 6 (.int 7), .at 5 (.int 7), .at 6 (.ref (.root 3))]

/-- In a world of one object, the field that ends as a number is given up to the object that it was
named before. -/
theorem last_waiting_write_parks_rewrites :
    ∃ w' l', apply (World.initial.placeLocal "Crate").2 .empty (fun _ => none) firstObject .data
        Stock.rootDataComponent (Wire.fields rewrites) = .ok (w', l') ∧
      w'.field? firstObject.object 5 = some (.int 7) ∧
      (l'.parkedOf firstObject)[(5 : Offset)]? = some (.single 5 (.root 2)) ∧
      w'.field? firstObject.object 6 = some (.object none) ∧
      (l'.parkedOf firstObject)[(6 : Offset)]? = some (.single 6 (.root 3)) ∧
      (Update.resolve w' l' bothKnown (.root 2) ⟨9, 0⟩).world.field? firstObject.object 5 =
        some (.object (some ⟨9, 0⟩)) := by
  obtain ⟨object, found⟩ := Option.isSome_iff_exists.mp
    (show ((World.initial.placeLocal "Crate").2.object? firstObject.object).isSome = true by
      decide +kernel)
  have readable : Wire.decodeFields (Wire.fields rewrites) = .ok rewrites := by decide +kernel
  have idle (t : Subscriber) : Waitlist.empty.parkedOf t = ∅ := by
    simp [Waitlist.parkedOf, Waitlist.empty]
  obtain ⟨w', l', ok, -, each⟩ := last_waiting_write_parks found (by decide : Role.data ≠ .spawn)
    Stock.rootDataComponent readable fun _ => none
  obtain ⟨field, parked, -, later⟩ := each 5 (.at 5 (.int 7)) rfl
  obtain ⟨field', parked', -⟩ := each 6 (.at 6 (.ref (.root 3))) rfl
  exact ⟨w', l', ok, field, parked, field', parked',
    (later Waitlist.coherent_empty (fun t _ _ => idle t) bothKnown).2 5 (.root 2) ⟨9, 0⟩ rfl⟩

end Update

namespace Session

/-- A crate has a field named after a second one and then given a number by one payload, and the
second crate is built. -/
def renumberedCrate : List Act :=
  ((Blueprint.ofClass 1 "Crate").operations ++
    [Operation.fieldUpdate 1 Stock.rootDataComponent [.at 5 (.ref (.root 2)), .at 5 (.int 7)]] ++
    (Blueprint.ofClass 2 "Crate").operations).map .receive

/-- The second crate is written over the number. -/
theorem field_renumberedCrate :
    ∃ s, (start {} Stock.protocol).run renumberedCrate = .ok s ∧
      lastApplied ((start {} Stock.protocol).course renumberedCrate) ⟨0, 0⟩ 5 =
        some (.at 5 (.int 7)) ∧
      s.memberAt? (.root 2) = some ⟨1, 0⟩ ∧
      s.world.field? ⟨0, 0⟩ 5 = some (.object (some ⟨1, 0⟩)) := by
  obtain ⟨s, ok, test⟩ := exists_run (start {} Stock.protocol) renumberedCrate
    (fun s => s.memberAt? (.root 2) == some ⟨1, 0⟩ &&
      s.world.field? ⟨0, 0⟩ 5 == some (.object (some ⟨1, 0⟩))) (by decide +kernel)
  simp only [Bool.and_eq_true, beq_iff_eq] at test
  exact ⟨s, ok, by decide +kernel, test.1, test.2⟩

end Session

end Replica
