import Replica.Requests
import Replica.Settings

/-! # Events

What the embedding program should observe or act on, in the order in which it came about.

Main definition:
* `Event` — everything that a session reports. -/

namespace Replica

/-- An **event** that a session reports. -/
inductive Event where
  /-- An entity was built, with this root object. -/
  | entityConstructed (entity : EntityId) (object : Handle)
  /-- An entity that had been built was taken down. -/
  | entityRemoved (entity : EntityId)
  /-- Authority over a component of a built entity has changed. -/
  | authorityChanged (entity : EntityId) (component : ComponentId) (authority : Authority)
  /-- The object no longer waits for any reference. -/
  | referencesResolved (subscriber : Subscriber)
  /-- A command request was handled and has to be acknowledged. -/
  | sendCommandResponse (request : RequestId) (entity : EntityId) (component : ComponentId)
  /-- A reliable command has failed and is to be sent again after the delay. -/
  | retryCommand (command : ReliableCommand) (delay : Duration)
deriving DecidableEq

end Replica
