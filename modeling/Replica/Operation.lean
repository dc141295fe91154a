import Replica.IdBlock
import Replica.World.Payload

/-! # Operations

What a worker delivers, one operation after the other: markers of critical sections, changes of
entities, and answers to requests.

Main definitions:
* `Operation` — everything that can be delivered.
* `Status`, `Failure` — how a request has failed. -/

namespace Replica

/-- The **status** of an answer. -/
inductive Status where
  /-- The request was served. -/
  | success
  /-- No answer came in time. -/
  | timeout
  /-- What was asked for does not exist. -/
  | notFound
  /-- Authority changed hands meanwhile. -/
  | authorityLost
  /-- The request is not allowed. -/
  | permissionDenied
  /-- The program that was asked refused. -/
  | applicationError
  /-- The network failed. -/
  | internalError
deriving DecidableEq

/-- The name of a status. -/
def Status.name : Status → String
  | .success => "Success"
  | .timeout => "Timeout"
  | .notFound => "NotFound"
  | .authorityLost => "AuthorityLost"
  | .permissionDenied => "PermissionDenied"
  | .applicationError => "ApplicationError"
  | .internalError => "InternalError"

/-- A **failure** that comes as the answer to a request. -/
structure Failure where
  /-- The kind of failure. -/
  status : Status
  /-- What the other side says about it. -/
  detail : String
deriving DecidableEq

/-- The wording of a failure. -/
def Failure.message (f : Failure) : String :=
  s!"worker request failed with {f.status.name}: {f.detail}"

/-- An entity that a query has found, with its components. -/
structure QueriedEntity where
  /-- The entity. -/
  entity : EntityId
  /-- Its components. -/
  components : List ComponentData
deriving DecidableEq

/-- A request for a command of a component. -/
structure CommandRequest where
  /-- The component. -/
  component : ComponentId
  /-- The command. -/
  command : CommandIndex
  /-- The argument payload. -/
  payload : Bytes
deriving DecidableEq

/-- An **operation** that a worker delivers. -/
inductive Operation where
  /-- A critical section opens or closes. -/
  | criticalSection (opens : Bool)
  /-- An entity comes into view. -/
  | addEntity (entity : EntityId)
  /-- An entity goes out of view. -/
  | removeEntity (entity : EntityId)
  /-- An entity has a component. -/
  | addComponent (entity : EntityId) (data : ComponentData)
  /-- Authority over a component changes. -/
  | authorityChange (entity : EntityId) (component : ComponentId) (authority : Authority)
  /-- A component changes. -/
  | componentUpdate (entity : EntityId) (update : ComponentData)
  /-- A command is requested of an entity. -/
  | commandRequest (request : RequestId) (entity : EntityId) (command : CommandRequest)
  /-- A command was answered. -/
  | commandResponse (request : RequestId) (result : Except Failure Bytes)
  /-- Entity ids were reserved. -/
  | reserveResponse (request : RequestId) (result : Except Failure IdBlock)
  /-- An entity was created. -/
  | createResponse (request : RequestId) (result : Except Failure EntityId)
  /-- A query was answered. -/
  | queryResponse (request : RequestId) (result : Except Failure (List QueriedEntity))

namespace Operation

/-- The name of an operation. -/
def name : Operation → String
  | .criticalSection _ => "CriticalSection"
  | .addEntity _ => "AddEntity"
  | .removeEntity _ => "RemoveEntity"
  | .addComponent _ _ => "AddComponent"
  | .authorityChange _ _ _ => "AuthorityChange"
  | .componentUpdate _ _ => "ComponentUpdate"
  | .commandRequest _ _ _ => "CommandRequest"
  | .commandResponse _ _ => "CommandResponse"
  | .reserveResponse _ _ => "ReserveEntityIdsResponse"
  | .createResponse _ _ => "CreateEntityResponse"
  | .queryResponse _ _ => "EntityQueryResponse"

/-- The entity that an operation is addressed to, if it is addressed to one. -/
def entity? : Operation → Option EntityId
  | .addEntity entity | .removeEntity entity | .addComponent entity _
  | .authorityChange entity _ _ | .componentUpdate entity _ | .commandRequest _ entity _ =>
    some entity
  | .criticalSection _ | .commandResponse _ _ | .reserveResponse _ _ | .createResponse _ _
  | .queryResponse _ _ => none

end Operation

end Replica
