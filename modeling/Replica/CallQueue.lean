import Replica.Waiters
import Replica.World.Call

/-! # The call queue

An invocation with missing arguments is parked until the last of them is found. Parked invocations
are numbered in the order of their arrival, and handed back in the order in which they become ready.

Main definitions:
* `ParkedCall` — an invocation with the references that it still waits for.
* `CallQueue.enqueue`, `CallQueue.resolve`, `CallQueue.drain` — park, count a reference off, and
  hand back what is ready.
* `CallQueue.remove` — takes an invocation out before its time. -/

namespace Replica

/-- The number of a parked invocation. -/
abbrev Ticket := UInt64

/-- A **parked** invocation. -/
structure ParkedCall where
  /-- The object it is addressed to. -/
  target : Handle
  /-- The entity it is addressed to. -/
  entity : EntityId
  /-- The component it came through. -/
  component : ComponentId
  /-- The invocation. -/
  invocation : Invocation
  /-- The references it still waits for. -/
  missing : ReferenceSet

/-- A **call queue**. -/
structure CallQueue where
  /-- The number of the next arrival. -/
  next : Ticket
  /-- The invocations that are parked or ready. -/
  pending : Std.ExtTreeMap Ticket ParkedCall
  /-- Who waits for each reference. -/
  waiting : Waiters Ticket
  /-- Those who wait for nothing, the first one first. -/
  ready : List Ticket

namespace CallQueue

/-- A queue that nothing has entered. -/
def empty : CallQueue := ⟨0, ∅, .empty, []⟩

/-- The invocation of a number. -/
def get? (q : CallQueue) (t : Ticket) : Option ParkedCall := q.pending[t]?

/-- The number of invocations in the queue. -/
def size (q : CallQueue) : Nat := q.pending.size

/-- Whether the queue holds nothing. -/
def isEmpty (q : CallQueue) : Bool := q.pending.isEmpty

/-- How many invocations wait for `r`. -/
def waitingOn (q : CallQueue) (r : Reference) : Nat := (q.waiting.of r).size

/-- Parks an invocation; one that waits for nothing is ready at once. -/
def enqueue (q : CallQueue) (call : ParkedCall) : Ticket × CallQueue :=
  (q.next,
    { next := q.next + 1
      pending := q.pending.insert q.next call
      waiting := q.waiting.enterAll q.next call.missing.toList
      ready := if call.missing.isEmpty then q.ready ++ [q.next] else q.ready })

/-- Counts `r` off for one invocation. One that waited for nothing else becomes ready, and counts as
one more. -/
def countOff (r : Reference) (state : Nat × CallQueue) (t : Ticket) : Nat × CallQueue :=
  let (freed, q) := state
  match q.pending[t]? with
  | none => (freed, q)
  | some call =>
    let missing := call.missing.erase r
    let q' := { q with pending := q.pending.insert t { call with missing } }
    if call.missing.contains r && missing.isEmpty then
      (freed + 1, { q' with ready := q'.ready ++ [t] })
    else (freed, q')

/-- Counts `r` off for all who wait for it, in the order of their arrival, and tells how many have
become ready. -/
def resolve (q : CallQueue) (r : Reference) : Nat × CallQueue :=
  (q.waiting.of r).toList.foldl (countOff r) (0, { q with waiting := q.waiting.clear r })

/-- Hands back what is ready, in the order in which it became ready. A ticket does not repeat before
`2 ^ 64` calls have come, more than a session receives; so none is listed twice, and no call is
handed back twice. -/
def drain (q : CallQueue) : List ParkedCall × CallQueue :=
  (q.ready.filterMap (q.pending[·]?),
    { q with pending := q.ready.foldl Std.ExtTreeMap.erase q.pending, ready := [] })

/-- Takes an invocation out, ready or not. -/
def remove (q : CallQueue) (t : Ticket) : CallQueue :=
  match q.pending[t]? with
  | none => q
  | some call =>
    { q with
      pending := q.pending.erase t
      waiting := q.waiting.strikeAll t call.missing.toList
      ready := q.ready.filter (· != t) }

@[simp] theorem get?_enqueue (q : CallQueue) (call : ParkedCall) (t : Ticket) :
    (q.enqueue call).2.get? t = if q.next = t then some call else q.get? t := by
  simp [get?, enqueue, Std.ExtTreeMap.getElem?_insert]

@[simp] theorem get?_remove (q : CallQueue) (t u : Ticket) :
    (q.remove t).get? u = if t = u then none else q.get? u := by
  unfold remove get?
  split
  · split <;> simp_all
  · simp [Std.ExtTreeMap.getElem?_erase]

end CallQueue

end Replica
