import Replica.World.Payload

/-! # Drafts

An entity that is not built yet exists as a draft, which collects what arrives for it. A draft whose
spawn data lies in a streaming container that is not loaded waits for the container.

Main definitions:
* `Draft`, `Stage` — an entity to be built, and how far it has come.
* `Streaming` — the containers that are loaded, and who waits for those that are not.
* `Drafts` — all drafts together with the containers they wait for. -/

namespace Replica

/-! ## Containers -/

/-- The state of **streaming**: containers that are loaded, and entities that wait for others. -/
structure Streaming where
  /-- The loaded containers. -/
  loaded : Std.ExtTreeSet Container
  /-- The entities waiting for each container, in the order in which they began to wait. -/
  waiting : Std.ExtTreeMap Container (List EntityId)

namespace Streaming

/-- Nothing is loaded and nobody waits. -/
def empty : Streaming := ⟨∅, ∅⟩

/-- Whether a container is loaded. -/
def isLoaded (s : Streaming) (c : Container) : Bool := s.loaded.contains c

/-- The entities that wait for a container. -/
def waitingOn (s : Streaming) (c : Container) : List EntityId := s.waiting[c]?.getD []

/-- How many entities wait, counted once per container they wait for. -/
def waitingCount (s : Streaming) : Nat :=
  s.waiting.foldl (fun count _ entities => count + entities.length) 0

/-- Lets an entity wait for a container, behind those who do already. -/
def defer (s : Streaming) (c : Container) (entity : EntityId) : Streaming :=
  let waiting := s.waitingOn c
  let grown := if waiting.contains entity then waiting else waiting ++ [entity]
  { s with waiting := s.waiting.insert c grown }

/-- Marks a container as loaded; nobody waits for it any more. -/
def load (s : Streaming) (c : Container) : Streaming :=
  ⟨s.loaded.insert c, s.waiting.erase c⟩

/-- Marks a container as not loaded. -/
def unload (s : Streaming) (c : Container) : Streaming := { s with loaded := s.loaded.erase c }

/-- Lets an entity no longer wait for a container; a container that nobody waits for is not kept. -/
def forget (s : Streaming) (c : Container) (entity : EntityId) : Streaming :=
  let left := (s.waitingOn c).filter (· != entity)
  { s with waiting := if left.isEmpty then s.waiting.erase c else s.waiting.insert c left }

@[simp] theorem isLoaded_load {s : Streaming} {c k : Container} :
    (s.load c).isLoaded k = true ↔ c = k ∨ s.isLoaded k = true := by
  simp [isLoaded, load, Std.ExtTreeSet.contains_insert]

@[simp] theorem isLoaded_unload {s : Streaming} {c k : Container} :
    (s.unload c).isLoaded k = true ↔ c ≠ k ∧ s.isLoaded k = true := by
  simp [isLoaded, unload, Std.ExtTreeSet.contains_erase]

@[simp] theorem waitingOn_load (s : Streaming) (c k : Container) :
    (s.load c).waitingOn k = if c = k then [] else s.waitingOn k := by
  simp only [waitingOn, load, Std.ExtTreeMap.getElem?_erase]
  split <;> simp_all

@[simp] theorem waitingOn_defer (s : Streaming) (c k : Container) (entity : EntityId) :
    (s.defer c entity).waitingOn k =
      if c = k ∧ entity ∉ s.waitingOn c then s.waitingOn c ++ [entity] else s.waitingOn k := by
  by_cases same : c = k
  · subst same
    by_cases known : entity ∈ s.waitingOn c <;> simp_all [defer, waitingOn]
  · simp [defer, waitingOn, Std.ExtTreeMap.getElem?_insert, same]

@[simp] theorem waitingOn_forget (s : Streaming) (c k : Container) (entity : EntityId) :
    (s.forget c entity).waitingOn k =
      if c = k then (s.waitingOn c).filter (· != entity) else s.waitingOn k := by
  unfold forget
  generalize (s.waitingOn c).filter (· != entity) = left
  dsimp only [waitingOn]
  split
  · rename_i none
    rw [List.isEmpty_iff.mp none]
    simp only [Std.ExtTreeMap.getElem?_erase]
    split <;> simp_all
  · simp only [Std.ExtTreeMap.getElem?_insert]
    split <;> simp_all

end Streaming

/-! ## Drafts -/

/-- How far a draft has come. -/
inductive Stage where
  /-- Spawn data has not arrived. -/
  | collecting
  /-- The container of the spawn point is not loaded. -/
  | waiting (container : Container)
  /-- The entity can be built. -/
  | ready
deriving DecidableEq

/-- A **draft** of an entity. -/
structure Draft where
  /-- The entity. -/
  entity : EntityId
  /-- The components that have arrived, in order. -/
  components : List ComponentData := []
  /-- The changes of authority that have arrived, in order. -/
  authority : List (ComponentId × Authority) := []
  /-- The spawn data, once it has been read. -/
  spawn : Option Spawn := none
  /-- How far the draft has come. -/
  stage : Stage := .collecting
deriving DecidableEq

/-- The **drafts** and the containers they may wait for. -/
structure Drafts where
  /-- The draft of each entity that has one. -/
  records : Std.ExtTreeMap EntityId Draft
  /-- The containers. -/
  streaming : Streaming

namespace Drafts

/-- No draft. -/
def empty : Drafts := ⟨∅, .empty⟩

/-- The draft of an entity. -/
def get? (ds : Drafts) (entity : EntityId) : Option Draft := ds.records[entity]?

/-- Whether an entity has a draft. -/
def contains (ds : Drafts) (entity : EntityId) : Bool := ds.records.contains entity

/-- How far the draft of an entity has come. -/
def stage? (ds : Drafts) (entity : EntityId) : Option Stage := (ds.get? entity).map Draft.stage

/-- The number of drafts. -/
def size (ds : Drafts) : Nat := ds.records.size

/-- Whether there is no draft. -/
def isEmpty (ds : Drafts) : Bool := ds.records.isEmpty

/-- Changes the draft of an entity that has one. -/
def modify (ds : Drafts) (entity : EntityId) (f : Draft → Draft) : Drafts :=
  match ds.records[entity]? with
  | some draft => { ds with records := ds.records.insert entity (f draft) }
  | none => ds

/-- Begins the draft of an entity that has none. -/
def begin (ds : Drafts) (entity : EntityId) : Drafts :=
  if ds.contains entity then ds else { ds with records := ds.records.insert entity { entity } }

/-- Adds a component to the draft of an entity. -/
def addComponent (ds : Drafts) (entity : EntityId) (data : ComponentData) : Drafts :=
  ds.modify entity fun draft => { draft with components := draft.components ++ [data] }

/-- Adds a change of authority to the draft of an entity. -/
def addAuthority (ds : Drafts) (entity : EntityId) (component : ComponentId)
    (authority : Authority) : Drafts :=
  ds.modify entity fun draft =>
    { draft with authority := draft.authority ++ [(component, authority)] }

/-- The stage of a draft with some spawn data: it waits for a container that is not loaded. -/
def stageFor (ds : Drafts) (spawn : Spawn) : Stage :=
  match spawn.container with
  | some c => if ds.streaming.isLoaded c then .ready else .waiting c
  | none => .ready

/-- Gives the draft of an entity its spawn data and the stage that follows from it. -/
def setSpawn (ds : Drafts) (entity : EntityId) (spawn : Spawn) : Drafts :=
  if ds.contains entity then
    let stage := ds.stageFor spawn
    let ds := ds.modify entity ({ · with spawn := some spawn, stage })
    match stage with
    | .waiting c => { ds with streaming := ds.streaming.defer c entity }
    | _ => ds
  else ds

/-- Takes the draft of an entity out if it is ready. -/
def takeReady (ds : Drafts) (entity : EntityId) : Option (Draft × Drafts) := do
  let draft ← ds.get? entity
  guard (draft.stage = .ready)
  return (draft, { ds with records := ds.records.erase entity })

/-- Whether the draft of an entity waits for a container. -/
def isWaitingOn (ds : Drafts) (c : Container) (entity : EntityId) : Bool :=
  ds.stage? entity == some (.waiting c)

/-- Marks a container as loaded. The drafts that wait for it become ready, and their entities are
handed back in the order in which they began to wait. -/
def load (ds : Drafts) (c : Container) : List EntityId × Drafts :=
  let freed := (ds.streaming.waitingOn c).filter (ds.isWaitingOn c)
  (freed, freed.foldl (·.modify · ({ · with stage := .ready }))
    { ds with streaming := ds.streaming.load c })

/-- Marks a container as not loaded. -/
def unload (ds : Drafts) (c : Container) : Drafts :=
  { ds with streaming := ds.streaming.unload c }

/-- Takes the draft of an entity away; it no longer waits for a container. -/
def remove (ds : Drafts) (entity : EntityId) : Drafts :=
  match ds.get? entity with
  | none => ds
  | some draft =>
    { records := ds.records.erase entity
      streaming :=
        match draft.stage with
        | .waiting c => ds.streaming.forget c entity
        | _ => ds.streaming }

@[simp] theorem get?_modify (ds : Drafts) (entity k : EntityId) (f : Draft → Draft) :
    (ds.modify entity f).get? k = if entity = k then (ds.get? k).map f else ds.get? k := by
  unfold modify get?
  split
  · simp only [Std.ExtTreeMap.getElem?_insert]
    split <;> simp_all
  · split <;> simp_all

@[simp] theorem get?_begin (ds : Drafts) (entity k : EntityId) :
    (ds.begin entity).get? k =
      if entity = k then some ((ds.get? k).getD { entity }) else ds.get? k := by
  by_cases known : ds.records.contains entity = true
  · by_cases same : entity = k
    · subst same
      obtain ⟨draft, found⟩ := Option.isSome_iff_exists.mp
        (Std.ExtTreeMap.contains_eq_isSome_getElem?.symm.trans known)
      simp [begin, contains, get?, known, found]
    · simp [begin, contains, known, same]
  · by_cases same : entity = k
    · subst same
      simp [begin, contains, get?, known, Std.ExtTreeMap.getElem?_eq_none_of_contains_eq_false]
    · simp [begin, contains, get?, known, same, Std.ExtTreeMap.getElem?_insert]

@[simp] theorem get?_remove (ds : Drafts) (entity k : EntityId) :
    (ds.remove entity).get? k = if entity = k then none else ds.get? k := by
  unfold remove
  split
  · split <;> simp_all
  · simp [get?, Std.ExtTreeMap.getElem?_erase]

end Drafts

end Replica
