import Replica.Ident

/-! # Errors

What can be wrong with an operation, by the part that notices it. An error costs only the operation
that it belongs to.

Main definitions:
* `PayloadError` — a payload does not fit the object it is addressed to.
* `BuildError` — no object can be built for an entity.
* `RoutingError` — an operation does not reach an object.
* `RequestError`, `ProtocolError` — a registration or a binding is refused.

Each type names its causes in one function `name` and has their wording in another, `message`. -/

namespace Replica

/-- A path of offsets in text. -/
def pathText (path : List Offset) : String :=
  "[" ++ String.intercalate ", " (path.map toString) ++ "]"

/-- Why a payload does not fit the object it is addressed to. -/
inductive PayloadError where
  /-- The bytes of a component cannot be read. -/
  | malformedPayload (component : ComponentId) (reason : String)
  /-- The bytes kept for a position cannot be read again. -/
  | malformedBuffer (path : List Offset) (reason : String)
  /-- The component declares no such command. -/
  | unknownCommand (component : ComponentId) (command : CommandIndex)
  /-- The object has no value at the path. -/
  | unknownField (path : List Offset)
  /-- The object does not exist. -/
  | unknownObject
deriving DecidableEq

/-- The name of a payload error. -/
def PayloadError.name : PayloadError → String
  | .malformedPayload _ _ => "MalformedPayload"
  | .malformedBuffer _ _ => "MalformedBuffer"
  | .unknownCommand _ _ => "UnknownCommand"
  | .unknownField _ => "UnknownField"
  | .unknownObject => "UnknownObject"

/-- The wording of a payload error. -/
def PayloadError.message : PayloadError → String
  | .malformedPayload component reason =>
    s!"Malformed payload for component {component}: {reason}"
  | .malformedBuffer path reason =>
    "Malformed stored buffer at field path " ++ pathText path ++ ": " ++ reason
  | .unknownCommand component command => s!"Component {component} has no command {command}"
  | .unknownField path => "Field path " ++ pathText path ++ " does not exist on target object"
  | .unknownObject => "Target object is not known to the world"

/-- Why no object can be built for an entity. -/
inductive BuildError where
  /-- No class has the name that the spawn data gives. -/
  | classNotFound (entity : EntityId) (className : String)
  /-- No pre-placed object stands at the stable path. -/
  | templateNotFound (entity : EntityId) (path : String)
  /-- No component of the entity carries spawn data. -/
  | spawnDataMissing (entity : EntityId)
  /-- The spawn data cannot be read. -/
  | malformedSpawnData (entity : EntityId) (source : PayloadError)
deriving DecidableEq

/-- The name of a build error. -/
def BuildError.name : BuildError → String
  | .classNotFound _ _ => "ClassNotFound"
  | .templateNotFound _ _ => "TemplateNotFound"
  | .spawnDataMissing _ => "SpawnDataMissing"
  | .malformedSpawnData _ _ => "MalformedSpawnData"

/-- The wording of a build error. -/
def BuildError.message : BuildError → String
  | .classNotFound entity className =>
    s!"Class `{className}` could not be resolved for entity {entity}"
  | .templateNotFound entity path => s!"No template found at `{path}` for entity {entity}"
  | .spawnDataMissing entity => s!"Entity {entity} has no spawn data among its components"
  | .malformedSpawnData entity source =>
    s!"Spawn data for entity {entity} is malformed: {source.message}"

/-- Why an operation does not reach an object. -/
inductive RoutingError where
  /-- The entity is not constructed. -/
  | unknownEntity (entity : EntityId)
  /-- The protocol does not bind the component. -/
  | noBinding (component : ComponentId)
  /-- The component is bound to an object that the entity does not have. -/
  | noTargetObject (entity : EntityId) (offset : Offset)
  /-- The object is no longer alive. -/
  | targetDestroyed (entity : EntityId)
  /-- The payload does not fit the object. -/
  | payload (error : PayloadError)
deriving DecidableEq

/-- The name of a routing error; a payload error keeps its own. -/
def RoutingError.name : RoutingError → String
  | .unknownEntity _ => "UnknownEntity"
  | .noBinding _ => "NoBinding"
  | .noTargetObject _ _ => "NoTargetObject"
  | .targetDestroyed _ => "TargetDestroyed"
  | .payload error => error.name

/-- The wording of a routing error. -/
def RoutingError.message : RoutingError → String
  | .unknownEntity entity => s!"Entity {entity} is not known to the receiver"
  | .noBinding component => s!"Component {component} has no binding in the protocol"
  | .noTargetObject entity offset => s!"Entity {entity} has no object at offset {offset}"
  | .targetDestroyed entity => s!"Target object of entity {entity} is no longer alive"
  | .payload error => error.message

/-- Why a continuation is refused. -/
inductive RequestError where
  /-- The request has a continuation already. -/
  | duplicateRequest (domain : String) (request : RequestId)
deriving DecidableEq

/-- The name of a request error. -/
def RequestError.name : RequestError → String
  | .duplicateRequest _ _ => "DuplicateRequest"

/-- The wording of a request error. -/
def RequestError.message : RequestError → String
  | .duplicateRequest domain request =>
    s!"Request {request} already has a pending {domain} continuation"

/-- Why a binding is refused. -/
inductive ProtocolError where
  /-- The protocol is locked. -/
  | alreadyLocked
  /-- The component has a binding already. -/
  | duplicateComponent (component : ComponentId)
deriving DecidableEq

/-- The name of a protocol error. -/
def ProtocolError.name : ProtocolError → String
  | .alreadyLocked => "AlreadyLocked"
  | .duplicateComponent _ => "DuplicateComponent"

/-- The wording of a protocol error. -/
def ProtocolError.message : ProtocolError → String
  | .alreadyLocked =>
    "Protocol is already locked and cannot be modified. " ++
      "Protocol.lock() has been called and no further changes are allowed"
  | .duplicateComponent component => s!"Component {component} is already bound in this protocol"

end Replica
