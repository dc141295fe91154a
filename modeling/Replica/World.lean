import Replica.Error
import Replica.HandlePool
import Replica.Channel
import Replica.Stock
import Replica.Value

/-! # The world

The world holds the local objects. Objects are built from classes, with parts of their own, and are
plain maps from fields to localized values. What the rest of a program would observe of the world is
noted in a journal.

Main definitions:
* `Object`, `World` — local objects, and all of them with what they are built from.
* `World.object?` — the view of the world: the object of a handle that is in use.
* `World.instantiate`, `World.destroy` — build an entity's objects and take them away.
* `Journal` — notifications, calls and changes so far, the oldest first. -/

namespace Replica

/-- A local **object**. -/
structure Object where
  /-- The entity that the object replicates, if any. -/
  entity : Option EntityId
  /-- The class that the object was built from. -/
  className : String
  /-- The place of the object inside its entity. -/
  offset : Offset
  /-- The fields that were ever written. -/
  fields : Std.ExtTreeMap Offset Localized
  /-- Whether the object has received all it was built with. -/
  finalized : Bool
  /-- The parts that are destroyed along with the object. -/
  children : List Handle

/-- A call that was **executed** on an object. -/
structure Execution where
  /-- The object. -/
  object : Handle
  /-- The function. -/
  function : FunctionIndex
  /-- The arguments, in local form. -/
  args : List Localized
deriving DecidableEq

/-- The **journal** of a world: what was done with its objects, in order. -/
structure Journal where
  /-- Objects whose properties were announced as changed. -/
  notified : List (Handle × List RepIndex) := []
  /-- Calls executed. -/
  executed : List Execution := []
  /-- Changes of authority announced to objects. -/
  authority : List (Handle × ComponentId × Authority) := []
  /-- Entities built, with their root objects. -/
  instantiated : List (EntityId × Handle) := []
  /-- Objects completed. -/
  finalized : List Handle := []
  /-- Objects destroyed. -/
  destroyed : List Handle := []

/-- A **world** of local objects. -/
structure World where
  /-- The handles in use. -/
  pool : HandlePool
  /-- The objects. -/
  objects : Std.ExtTreeMap Handle Object
  /-- The classes, each with the offsets of the parts it is built with. -/
  classes : Std.ExtTreeMap String (List Offset)
  /-- The paths at which pre-placed objects stand. -/
  startup : Std.ExtTreeSet String
  /-- What was done so far. -/
  journal : Journal

namespace World

/-- A world of the stock classes without an object. -/
def initial : World := ⟨.empty, ∅, Stock.classes, ∅, {}⟩

/-! ## Views -/

/-- Whether `h` names a live object. -/
def isAlive (w : World) (h : Handle) : Bool := w.pool.isAlive h

/-- The live object that `h` names. -/
def object? (w : World) (h : Handle) : Option Object := if w.isAlive h then w.objects[h]? else none

/-- What a field of a live object holds. -/
def field? (w : World) (h : Handle) (offset : Offset) : Option Localized := do
  (← w.object? h).fields[offset]?

/-- The root objects ever built for an entity, the oldest first. -/
def rootsOf (w : World) (entity : EntityId) : List Handle :=
  (w.journal.instantiated.filter (·.1 == entity)).map (·.2)

/-- The live root objects of an entity. -/
def liveRootsOf (w : World) (entity : EntityId) : List Handle :=
  (w.rootsOf entity).filter w.isAlive

/-- The calls executed on an object. -/
def executedOn (w : World) (h : Handle) : List Execution :=
  w.journal.executed.filter (·.object == h)

/-- The object that `h` names, or the error that there is none. -/
def target (w : World) (h : Handle) : Except PayloadError Object :=
  match w.object? h with
  | some o => .ok o
  | none => .error .unknownObject

/-! ## What objects are built from -/

/-- Makes a class known, in place of one of the same name. -/
def addClass (w : World) (className : String) (parts : List Offset) : World :=
  { w with classes := w.classes.insert className parts }

/-- Makes a pre-placed object known. -/
def addStartup (w : World) (path : String) : World := { w with startup := w.startup.insert path }

/-! ## Birth and death of objects -/

/-- Puts an object under a new handle. -/
def place (w : World) (o : Object) : Handle × World :=
  let (h, pool) := w.pool.allocate
  (h, { w with pool, objects := w.objects.insert h o })

/-- Makes an object that belongs to no entity. -/
def placeLocal (w : World) (className : String) : Handle × World :=
  w.place {
    entity := none, className, offset := Reference.rootOffset, fields := ∅, finalized := true
    children := [] }

/-- Makes the parts at some offsets, in order. -/
def placeParts (w : World) (entity : EntityId) (className : String) :
    List Offset → List (Offset × Handle) × World
  | [] => ([], w)
  | offset :: rest =>
    let (h, w) := w.place {
      entity := some entity, className := s!"{className}.{offset}", offset, fields := ∅
      finalized := false, children := [] }
    let (parts, w) := w.placeParts entity className rest
    ((offset, h) :: parts, w)

/-- Builds the objects of an entity: the root, which gets the first handle, and the parts that its
class lists. An unknown class goes before a missing pre-placed object. -/
def instantiate (w : World) (entity : EntityId) (spawn : Spawn) :
    Except BuildError (Assembly × World) :=
  match w.classes[spawn.className]? with
  | none => .error (.classNotFound entity spawn.className)
  | some offsets =>
    match spawn.stablePath.filter (!w.startup.contains ·) with
    | some path => .error (.templateNotFound entity path)
    | none =>
      let (root, pool) := w.pool.allocate
      let (parts, w) := { w with pool }.placeParts entity spawn.className offsets
      let object := {
        entity := some entity, className := spawn.className, offset := Reference.rootOffset
        fields := ∅, finalized := false, children := parts.map (·.2) }
      .ok (⟨root, parts⟩, { w with
        objects := w.objects.insert root object
        journal.instantiated := w.journal.instantiated ++ [(entity, root)] })

/-- Marks an object as complete. -/
def finalize (w : World) (h : Handle) : World :=
  match w.objects[h]? with
  | some o => { w with
      objects := w.objects.insert h { o with finalized := true }
      journal.finalized := w.journal.finalized ++ [h] }
  | none => w

/-- Takes an object and its handle away. -/
def discard (w : World) (h : Handle) : World :=
  { w with objects := w.objects.erase h, pool := w.pool.release h }

/-- Destroys a live object, its parts first. -/
def destroy (w : World) (h : Handle) : World :=
  match w.object? h with
  | none => w
  | some o =>
    let w := (o.children.foldl discard w).discard h
    { w with journal.destroyed := w.journal.destroyed ++ [h] }

/-! ## Announcements -/

/-- Announces to an object that some of its properties have changed. -/
def notify (w : World) (h : Handle) (reps : List RepIndex) : World :=
  { w with journal.notified := w.journal.notified ++ [(h, reps)] }

/-- Announces to an object who may write a component. -/
def announceAuthority (w : World) (h : Handle) (component : ComponentId) (authority : Authority) :
    World :=
  { w with journal.authority := w.journal.authority ++ [(h, component, authority)] }

end World

end Replica
