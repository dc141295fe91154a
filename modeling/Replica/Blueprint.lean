import Replica.Operation
import Replica.Stock

/-! # Blueprints

A blueprint lists what makes an entity visible and turns it into the operations that a worker would
deliver.

Main definitions:
* `Blueprint` — spawn data and components.
* `Blueprint.operations`, `Blueprint.sectionOperations` — the operations, bare and as one critical
  section. -/

namespace Replica

/-- A **blueprint** of an entity. -/
structure Blueprint where
  /-- The entity. -/
  entity : EntityId
  /-- The spawn data, if it has any. -/
  spawn : Option Spawn
  /-- The components besides spawn data, in order. -/
  extra : List ComponentData := []
deriving DecidableEq

namespace Blueprint

/-- The blueprint of an entity of a class. -/
def ofClass (entity : EntityId) (className : String) : Blueprint :=
  { entity, spawn := some { className } }

/-- The blueprint of an entity without spawn data. -/
def withoutSpawn (entity : EntityId) : Blueprint := { entity, spawn := none }

/-- Puts the spawn point into a container. -/
def inContainer (b : Blueprint) (c : Container) : Blueprint :=
  { b with spawn := b.spawn.map ({ · with container := some c }) }

/-- Lets the entity adopt a pre-placed object. -/
def atStablePath (b : Blueprint) (path : String) : Blueprint :=
  { b with spawn := b.spawn.map ({ · with stablePath := some path }) }

/-- Places the spawn point, unturned. -/
def placed (b : Blueprint) (location : Location) : Blueprint :=
  { b with spawn := b.spawn.map ({ · with location, rotation := {} }) }

/-- Adds a component in bytes. -/
def withPayload (b : Blueprint) (component : ComponentId) (payload : Bytes) : Blueprint :=
  { b with extra := b.extra ++ [⟨component, payload⟩] }

/-- Adds a component of properties. -/
def withFields (b : Blueprint) (component : ComponentId) (fields : List Assignment) : Blueprint :=
  b.withPayload component (Wire.fields fields)

/-- All components, spawn data first. -/
def components (b : Blueprint) : List ComponentData :=
  (b.spawn.map fun spawn => ⟨Stock.spawnComponent, Wire.spawn spawn⟩).toList ++ b.extra

/-- The operations that make the entity visible. -/
def operations (b : Blueprint) : List Operation :=
  .addEntity b.entity :: b.components.map (.addComponent b.entity)

/-- The operations that make the entity visible, as one critical section. -/
def sectionOperations (b : Blueprint) : List Operation :=
  .criticalSection true :: b.operations ++ [.criticalSection false]

end Blueprint

namespace Operation

/-- An update that assigns fields. -/
def fieldUpdate (entity : EntityId) (component : ComponentId) (fields : List Assignment) :
    Operation :=
  .componentUpdate entity ⟨component, Wire.fields fields⟩

/-- An update that calls functions of every replica. -/
def multicast (entity : EntityId) (calls : List Call) : Operation :=
  .componentUpdate entity ⟨Stock.multicastComponent, Wire.calls calls⟩

/-- A request for a stock command. -/
def command (request : RequestId) (entity : EntityId) (index : CommandIndex) (args : List Value) :
    Operation :=
  .commandRequest request entity ⟨Stock.commandComponent, index, Wire.args args⟩

end Operation

end Replica
