import Replica.CallQueue
import Replica.Directory
import Replica.Draft
import Replica.Event
import Replica.Section
import Replica.Update

/-! # Sessions

A session follows the operations of a worker and keeps a world in step with them. Whatever cannot be
applied yet is parked in one of its parts and taken up by a later operation.

Main definitions:
* `Session` — the parts of a session and its world.
* `Session.target` — the object that a component of an entity is bound to. -/

namespace Replica

/-- A **session** with the world that it keeps. -/
structure Session where
  /-- The settings. -/
  settings : Settings
  /-- The bindings of components, locked. -/
  protocol : Protocol
  /-- The open critical section and what it holds back. -/
  held : Section
  /-- The entities that are not built yet. -/
  drafts : Drafts
  /-- The entities that are built. -/
  channels : Channels
  /-- The objects that are known by name. -/
  directory : Directory
  /-- Whose fields wait for missing objects. -/
  waitlist : Waitlist
  /-- The invocations that wait for missing objects. -/
  calls : CallQueue
  /-- The requests that wait for answers. -/
  requests : Requests
  /-- What has been reported and not taken yet, the oldest first. -/
  events : List Event
  /-- The answers that have reached whoever waited for them, the oldest first. -/
  deliveries : List Delivery
  /-- The local objects. -/
  world : World

namespace Session

/-- The session that has received nothing yet. The protocol is locked if it is not. -/
def start (settings : Settings) (protocol : Protocol) : Session where
  settings
  protocol := protocol.locked
  held := {}
  drafts := .empty
  channels := .empty
  directory := .empty
  waitlist := .empty
  calls := .empty
  requests := {}
  events := []
  deliveries := []
  world := .initial

/-- What is local in a session. -/
def resolver (s : Session) : Resolver := s.directory.handle?

/-- Adds to what is reported. -/
def report (s : Session) (events : List Event) : Session := { s with events := s.events ++ events }

/-- Hands over what has been reported. -/
def takeEvents (s : Session) : List Event × Session := (s.events, { s with events := [] })

/-- The outcome of an operation that may be refused: a refused operation changes nothing. -/
def accept (s : Session) : Except RoutingError Session → Session
  | .ok s' => s'
  | .error _ => s

/-- The binding of a component. -/
def binding (s : Session) (component : ComponentId) : Except RoutingError Binding :=
  match s.protocol.binding? component with
  | some b => .ok b
  | none => .error (.noBinding component)

/-- The live object of a built entity that a component is bound to. -/
def target (s : Session) (entity : EntityId) (component : ComponentId) :
    Except RoutingError (Binding × Subscriber) := do
  let b ← s.binding component
  match s.channels.get? entity with
  | none => throw (.unknownEntity entity)
  | some channel =>
    match channel.objectAt? b.offset with
    | none => throw (.noTargetObject entity b.offset)
    | some h =>
      if s.world.isAlive h then return (b, channel.subscriber h)
      else throw (.targetDestroyed entity)

end Session

end Replica
