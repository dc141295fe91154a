import Replica.Ident

/-! # Channels

A channel replicates one constructed entity: its root object, the objects at further offsets, and
who may write its components.

Main definitions:
* `Assembly` — the objects that were built for an entity.
* `Channel` — an open channel, with `Channel.objectAt?` and `Channel.members` as views.
* `Channels` — at most one open channel per entity. -/

namespace Replica

/-- An **assembly**: the objects built for one entity. -/
structure Assembly where
  /-- The root object. -/
  root : Handle
  /-- The objects at further offsets, in the order in which they were built. -/
  parts : List (Offset × Handle)
deriving DecidableEq

/-- An open **channel**. -/
structure Channel where
  /-- The opening that this is. -/
  id : ChannelId
  /-- The root object. -/
  root : Handle
  /-- The objects at offsets other than the root's. -/
  parts : Std.ExtTreeMap Offset Handle
  /-- The authority over components that was ever set. -/
  authorities : Std.ExtTreeMap ComponentId Authority

namespace Channel

/-- The channel of a new assembly. A part at the root's offset is ignored, and of several parts at
one offset the last counts. -/
def ofAssembly (id : ChannelId) (a : Assembly) : Channel where
  id
  root := a.root
  parts := .ofList (a.parts.filter (·.1 != Reference.rootOffset))
  authorities := ∅

/-- The entity that the channel replicates. -/
def entity (c : Channel) : EntityId := c.id.entity

/-- The object at an offset of the entity. -/
def objectAt? (c : Channel) (offset : Offset) : Option Handle :=
  if offset = Reference.rootOffset then some c.root else c.parts[offset]?

/-- Every object of the channel under the reference that names it, by ascending offset. -/
def members (c : Channel) : List (Reference × Handle) :=
  (.root c.entity, c.root) :: c.parts.toList.map fun (offset, h) => (⟨c.entity, offset⟩, h)

/-- One object seen through the channel. -/
def subscriber (c : Channel) (object : Handle) : Subscriber := ⟨c.id, object⟩

/-- The authority over a component, none if it was never set. -/
def authority (c : Channel) (component : ComponentId) : Authority :=
  c.authorities[component]?.getD .notAuthoritative

/-- Sets the authority over a component. -/
def setAuthority (c : Channel) (component : ComponentId) (authority : Authority) : Channel :=
  { c with authorities := c.authorities.insert component authority }

@[simp] theorem authority_setAuthority (c : Channel) (k l : ComponentId) (a : Authority) :
    (c.setAuthority k a).authority l = if k = l then a else c.authority l := by
  simp only [authority, setAuthority, Std.ExtTreeMap.getElem?_insert]
  split <;> simp_all

end Channel

/-- The open **channels**, and the number of the next opening. -/
structure Channels where
  /-- The open channel of each entity that has one. -/
  byEntity : Std.ExtTreeMap EntityId Channel
  /-- The generation of the next opening. -/
  generation : UInt32

namespace Channels

/-- No channel, and none opened before. -/
def empty : Channels := ⟨∅, 0⟩

/-- The open channel of an entity. -/
def get? (cs : Channels) (entity : EntityId) : Option Channel := cs.byEntity[entity]?

/-- Whether an entity has an open channel. -/
def contains (cs : Channels) (entity : EntityId) : Bool := cs.byEntity.contains entity

/-- Opens a channel for an entity that has none. -/
def open? (cs : Channels) (entity : EntityId) (a : Assembly) : Option (Channel × Channels) :=
  if cs.contains entity then none
  else
    let channel := Channel.ofAssembly ⟨entity, cs.generation⟩ a
    some (channel, ⟨cs.byEntity.insert entity channel, cs.generation + 1⟩)

/-- Closes the channel of an entity. -/
def close (cs : Channels) (entity : EntityId) : Channels :=
  { cs with byEntity := cs.byEntity.erase entity }

/-- Puts a changed channel in the place of the one its entity has. -/
def update (cs : Channels) (channel : Channel) : Channels :=
  { cs with byEntity := cs.byEntity.insert channel.entity channel }

/-- Whether `id` names the channel that its entity has open now. -/
def isOpen (cs : Channels) (id : ChannelId) : Bool :=
  (cs.get? id.entity).any (·.id == id)

theorem get?_of_open? {cs cs' : Channels} {entity : EntityId} {a : Assembly} {c : Channel}
    (h : cs.open? entity a = some (c, cs')) (k : EntityId) :
    cs'.get? k = if entity = k then some c else cs.get? k := by
  unfold open? at h
  split at h
  · cases h
  · cases h
    simp [get?, Std.ExtTreeMap.getElem?_insert]

@[simp] theorem get?_close (cs : Channels) (entity k : EntityId) :
    (cs.close entity).get? k = if entity = k then none else cs.get? k := by
  simp [get?, close, Std.ExtTreeMap.getElem?_erase]

@[simp] theorem get?_update (cs : Channels) (c : Channel) (k : EntityId) :
    (cs.update c).get? k = if c.entity = k then some c else cs.get? k := by
  simp [get?, update, Std.ExtTreeMap.getElem?_insert]

end Channels

end Replica
