import Replica.Localize
import Replica.World

/-! # Payloads on objects

Property payloads are written into objects field by field. A field is written at once, whether or
not its references are local; what it waits for is handed back to the caller, who later fills the
holes through the two functions that write at a path.

Main definitions:
* `World.readSpawn` — the spawn data among the components of an entity.
* `World.applyPayload` — writes a payload, and `Applied` says what it wrote and what is outstanding.
* `World.writeReference`, `World.reapplyStruct` — fill a hole. -/

namespace Replica

/-- A component with its payload. -/
structure ComponentData where
  /-- The component. -/
  component : ComponentId
  /-- Its bytes. -/
  payload : Bytes
deriving DecidableEq

/-- What a payload has **applied** to an object. -/
structure Applied where
  /-- The fields written, in order, repeated if written repeatedly. -/
  written : List Offset
  /-- The fields written that wait for references. -/
  unresolved : Parked

/-- The effect of a payload that writes nothing. -/
def Applied.nothing : Applied := ⟨[], ∅⟩

/-- Whether nothing is outstanding. -/
def Applied.isFullyResolved (a : Applied) : Bool := a.unresolved.isEmpty

/-- Notes an assignment as written. What it waits for takes the place of what an earlier one at the
same field waits for; one that waits for nothing leaves that in place. -/
def Applied.note (resolve : Resolver) (a : Applied) (w : Assignment) : Applied where
  written := a.written ++ [w.offset]
  unresolved :=
    match w.value.outstanding resolve w.rep with
    | some o => a.unresolved.insert w.offset o
    | none => a.unresolved

/-- The fields of an object after an assignment. -/
def Object.assign (resolve : Resolver) (o : Object) (w : Assignment) : Object :=
  { o with fields := o.fields.insert w.offset (w.value.localize resolve) }

/-- Replaces what stands at a path: a field, then indices into arrays. -/
def Object.replaceAt (o : Object) (new : Localized) : List Offset → Option Object
  | [] => none
  | field :: path => do
    let old ← o.fields[field]?
    let changed ← Localized.replaceAt new path old
    return { o with fields := o.fields.insert field changed }

namespace World

/-- The spawn data of an entity, which the first component that is for spawn data carries. -/
def readSpawn (entity : EntityId) (components : List ComponentData) : Except BuildError Spawn :=
  match components.find? (·.component == Stock.spawnComponent) with
  | none => .error (.spawnDataMissing entity)
  | some data =>
    match Wire.decodeSpawn data.payload with
    | .ok spawn => .ok spawn
    | .error flaw =>
      .error (.malformedSpawnData entity (.malformedPayload Stock.spawnComponent flaw.message))

/-- Writes a component payload into an object. Spawn data is only read; other payloads are lists of
assignments, and a payload that cannot be read goes before an object that does not exist. -/
def applyPayload (w : World) (resolve : Resolver) (h : Handle) (role : Role)
    (component : ComponentId) (payload : Bytes) : Except PayloadError (Applied × World) :=
  if role = .spawn then
    match Wire.decodeSpawn payload with
    | .ok _ => .ok (.nothing, w)
    | .error flaw => .error (.malformedPayload Stock.spawnComponent flaw.message)
  else
    match Wire.decodeFields payload with
    | .error flaw => .error (.malformedPayload component flaw.message)
    | .ok assignments => do
      let o ← w.target h
      return (assignments.foldl (Applied.note resolve) .nothing,
        { w with objects := w.objects.insert h (assignments.foldl (Object.assign resolve) o) })

/-- Puts a value at a path of an object. -/
def writeAt (w : World) (h : Handle) (path : List Offset) (new : Localized) :
    Except PayloadError World := do
  let o ← w.target h
  match o.replaceAt new path with
  | some o => return { w with objects := w.objects.insert h o }
  | none => throw (.unknownField path)

/-- Lets the position at a path name a local object. -/
def writeReference (w : World) (h : Handle) (path : List Offset) (target : Handle) :
    Except PayloadError World :=
  w.writeAt h path (.object (some target))

/-- Writes a struct again from its bytes and hands back what is still missing. Bytes that cannot be
read go before an object or a field that does not exist. -/
def reapplyStruct (w : World) (resolve : Resolver) (h : Handle) (path : List Offset)
    (buffer : Bytes) : Except PayloadError (ReferenceSet × World) :=
  match Wire.decodeValue buffer with
  | .error flaw => .error (.malformedBuffer path flaw.message)
  | .ok v => do
    let w ← w.writeAt h path (v.localize resolve)
    return (v.missing resolve, w)

end World

end Replica
