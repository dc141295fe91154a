import Replica.Error
import Replica.Operation
import Replica.World.Call

/-! # Outstanding requests

A request to the worker is outstanding until its answer arrives or nobody wants it any more. Each
kind of request has a table of its own, by request id, and an entry leaves its table once.

Main definitions:
* `RequestTable` — the outstanding requests of one kind.
* `RequestTable.issue` — the next id under which nothing is outstanding.
* `Continuation`, `Awaiting` — where an answer goes, and which object asked for it.
* `ReliableCommand` — a command that is sent again if it fails.
* `Requests` — the tables of the four kinds. -/

namespace Replica

/-- A table of **outstanding requests** of one kind. -/
structure RequestTable (α : Type) where
  /-- The name of the kind. -/
  domain : String
  /-- Where the search for a free id begins. -/
  next : RequestId := 1
  /-- What is outstanding. -/
  entries : Std.ExtTreeMap RequestId α := ∅

namespace RequestTable

variable {α : Type}

/-- What is outstanding under an id. -/
def get? (t : RequestTable α) (id : RequestId) : Option α := t.entries[id]?

/-- Whether something is outstanding under an id. -/
def contains (t : RequestTable α) (id : RequestId) : Bool := t.entries.contains id

/-- The number of requests outstanding. -/
def size (t : RequestTable α) : Nat := t.entries.size

/-- Whether nothing is outstanding. -/
def isEmpty (t : RequestTable α) : Bool := t.entries.isEmpty

/-- The first of the ids from `id` on under which nothing is outstanding, or the id after `tries`
that are taken. -/
def freeFrom (t : RequestTable α) : (tries : Nat) → (id : RequestId) → RequestId
  | 0, id => id
  | tries + 1, id => if t.contains id then t.freeFrom tries (id + 1) else id

/-- Hands out an id under which nothing is outstanding. Of one more ids than there are entries, one
is free. -/
def issue (t : RequestTable α) : RequestId × RequestTable α :=
  let id := t.freeFrom t.size t.next
  (id, { t with next := id + 1 })

/-- Enters a request under an id that is free. -/
def register (t : RequestTable α) (id : RequestId) (entry : α) :
    Except RequestError (RequestTable α) :=
  if t.contains id then .error (.duplicateRequest t.domain id)
  else .ok { t with entries := t.entries.insert id entry }

/-- Takes away what is outstanding under an id. -/
def erase (t : RequestTable α) (id : RequestId) : RequestTable α :=
  { t with entries := t.entries.erase id }

/-- Takes away what satisfies `p`. -/
def dropWhere (t : RequestTable α) (p : α → Bool) : RequestTable α :=
  { t with entries := t.entries.filter fun _ entry => !p entry }

@[simp] theorem get?_issue (t : RequestTable α) (k : RequestId) :
    t.issue.2.get? k = t.get? k := rfl

@[simp] theorem get?_erase (t : RequestTable α) (id k : RequestId) :
    (t.erase id).get? k = if id = k then none else t.get? k := by
  simp [get?, erase, Std.ExtTreeMap.getElem?_erase]

@[simp] theorem get?_dropWhere (t : RequestTable α) (p : α → Bool) (k : RequestId) :
    (t.dropWhere p).get? k = (t.get? k).filter (!p ·) := by
  simp [get?, dropWhere]

end RequestTable

/-! ## Continuations -/

/-- How an answer travels to whoever waits for it. -/
inductive Route where
  /-- A handler is called with the answer. -/
  | callback
  /-- The answer is put into a channel that somebody reads. -/
  | channel
  /-- The answer would be put into a channel that nobody reads any more. -/
  | closedChannel
deriving DecidableEq

/-- A **continuation**: a token by which the waiting side knows itself, and the way to it. -/
structure Continuation where
  /-- The token. -/
  token : Int
  /-- The way. -/
  route : Route
deriving DecidableEq

/-- Whether an answer arrives at the other end. -/
def Continuation.isHeard (c : Continuation) : Bool := c.route != .closedChannel

/-- A continuation **awaiting** an answer, on behalf of a local object if it has an owner. -/
structure Awaiting where
  /-- The object without which the answer is not wanted. -/
  owner : Option Handle
  /-- Where the answer goes. -/
  continuation : Continuation
deriving DecidableEq

/-- Whether one of some objects is the owner. -/
def Awaiting.isOwnedBy (a : Awaiting) (objects : List Handle) : Bool :=
  a.owner.any objects.contains

/-- A **reliable command**: what is needed to send a command again. -/
structure ReliableCommand where
  /-- The object that sends it. -/
  target : Handle
  /-- The entity it is sent to. -/
  entity : EntityId
  /-- The component it is sent through. -/
  component : ComponentId
  /-- The command. -/
  command : CommandIndex
  /-- Its function and arguments. -/
  invocation : Invocation
  /-- How often it has been sent. -/
  attempts : UInt32 := 1
deriving DecidableEq

/-- An **answer** that is delivered to a continuation. -/
inductive Answer where
  /-- An entity was created, or not. -/
  | created (result : Except Failure EntityId)
  /-- Ids were reserved, or not. -/
  | reserved (result : Except Failure IdBlock)
  /-- Entities were found, or the query failed. -/
  | queried (result : Except Failure (List QueriedEntity))

/-- An answer that has arrived at a continuation. -/
structure Delivery where
  /-- The token of the continuation. -/
  token : Int
  /-- The answer. -/
  answer : Answer

/-- The deliveries that an answer makes: one, where the other end hears it. -/
def Continuation.deliver (c : Continuation) (answer : Answer) : List Delivery :=
  if c.isHeard then [⟨c.token, answer⟩] else []

/-! ## The four kinds -/

/-- The outstanding **requests** of all kinds. -/
structure Requests where
  /-- Entities to be created. -/
  constructions : RequestTable Awaiting := { domain := "entity creation" }
  /-- Ids to be reserved. -/
  reservations : RequestTable Awaiting := { domain := "entity id reservation" }
  /-- Queries to be answered. -/
  queries : RequestTable Awaiting := { domain := "entity query" }
  /-- Commands to be acknowledged. -/
  commands : RequestTable ReliableCommand := { domain := "reliable command" }

namespace Requests

/-- The number of requests outstanding. -/
def size (r : Requests) : Nat :=
  r.constructions.size + r.reservations.size + r.queries.size + r.commands.size

/-- Whether nothing is outstanding. -/
def isEmpty (r : Requests) : Bool := r.size == 0

/-- Takes away the requests of some objects: those they own, and the commands they send. -/
def dropOwned (r : Requests) (objects : List Handle) : Requests where
  constructions := r.constructions.dropWhere (·.isOwnedBy objects)
  reservations := r.reservations.dropWhere (·.isOwnedBy objects)
  queries := r.queries.dropWhere (·.isOwnedBy objects)
  commands := r.commands.dropWhere fun command => objects.contains command.target

end Requests

end Replica
