import Replica.Outstanding
import Replica.Waiters

/-! # The waitlist

The waitlist keeps, for every subscriber with holes in its fields, what the holes wait for, and for
every reference who waits for it. A subscriber stands in the waitlist only while it waits for
something.

Main definitions:
* `Waitlist.parkedOf`, `Waitlist.missingOf`, `Waitlist.subscribersOf` — the views.
* `Waitlist.store` — replaces what a subscriber waits for, on both sides.
* `Waitlist.remove`, `Waitlist.removeChannel` — forget a subscriber, or all of a channel. -/

namespace Replica

/-- A **waitlist**. -/
structure Waitlist where
  /-- Who waits for each reference. -/
  subscribers : Waiters Subscriber
  /-- What each subscriber waits for, by field. -/
  parked : Std.ExtTreeMap Subscriber Parked
  /-- The references that each subscriber waits for. -/
  missing : Std.ExtTreeMap Subscriber ReferenceSet

namespace Waitlist

/-- Nobody waits. -/
def empty : Waitlist := ⟨.empty, ∅, ∅⟩

/-- Who waits for `r`, in ascending order. -/
def subscribersOf (l : Waitlist) (r : Reference) : List Subscriber := (l.subscribers.of r).toList

/-- Whether `s` waits for `r`. -/
def isSubscribed (l : Waitlist) (r : Reference) (s : Subscriber) : Bool :=
  (l.subscribers.of r).contains s

/-- What `s` waits for, by field. -/
def parkedOf (l : Waitlist) (s : Subscriber) : Parked := l.parked[s]?.getD ∅

/-- The references that `s` waits for. -/
def missingOf (l : Waitlist) (s : Subscriber) : ReferenceSet := l.missing[s]?.getD ∅

/-- The number of references waited for. -/
def referenceCount (l : Waitlist) : Nat := l.subscribers.size

/-- The number of subscribers that wait. -/
def subscriberCount (l : Waitlist) : Nat := l.parked.size

/-- Whether nobody waits. -/
def isEmpty (l : Waitlist) : Bool := l.subscribers.isEmpty && l.parked.isEmpty

/-- Replaces what `s` waits for. Only the references that come or go are entered or struck. -/
def store (l : Waitlist) (s : Subscriber) (parked : Parked) : Waitlist :=
  let current := parked.references
  let previous := l.missingOf s
  let gone := previous.toList.filter (!current.contains ·)
  let come := current.toList.filter (!previous.contains ·)
  { subscribers := (l.subscribers.strikeAll s gone).enterAll s come
    parked := if parked.isEmpty then l.parked.erase s else l.parked.insert s parked
    missing := if parked.isEmpty then l.missing.erase s else l.missing.insert s current }

/-- Forgets that `s` waits. -/
def remove (l : Waitlist) (s : Subscriber) : Waitlist := l.store s ∅

/-- The subscribers of a channel that wait. -/
def subscribersIn (l : Waitlist) (channel : ChannelId) : List Subscriber :=
  l.missing.keys.filter (·.channel == channel)

/-- Forgets that the subscribers of a channel wait. -/
def removeChannel (l : Waitlist) (channel : ChannelId) : Waitlist :=
  (l.subscribersIn channel).foldl remove l

theorem isSubscribed_iff {l : Waitlist} {r : Reference} {s : Subscriber} :
    l.isSubscribed r s = true ↔ s ∈ l.subscribersOf r := by
  simp [isSubscribed, subscribersOf, Std.ExtTreeSet.mem_toList]

@[simp] theorem parkedOf_store (l : Waitlist) (s t : Subscriber) (p : Parked) :
    (l.store s p).parkedOf t = if s = t then p else l.parkedOf t := by
  simp only [store, parkedOf]
  split
  · simp only [Std.ExtTreeMap.getElem?_erase]
    split <;> simp_all
  · simp only [Std.ExtTreeMap.getElem?_insert]
    split <;> simp_all

@[simp] theorem missingOf_store (l : Waitlist) (s t : Subscriber) (p : Parked) :
    (l.store s p).missingOf t = if s = t then p.references else l.missingOf t := by
  simp only [store, missingOf]
  split
  · rename_i none
    rw [Std.ExtTreeMap.isEmpty_iff.mp none]
    simp only [Std.ExtTreeMap.getElem?_erase]
    split <;> simp_all
  · simp only [Std.ExtTreeMap.getElem?_insert]
    split <;> simp_all

/-- Storing keeps the index of subscribers free of empty entries. -/
theorem isTight_store {l : Waitlist} (h : l.subscribers.IsTight) (s : Subscriber) (p : Parked) :
    (l.store s p).subscribers.IsTight :=
  (h.strikeAll s _).enterAll s _

end Waitlist

end Replica
