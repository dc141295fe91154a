import Std.Data.ExtTreeMap
import Std.Data.ExtTreeSet

/-! # Identities

The names by which a worker and the local object graph speak of the same things. Every name is a
machine word of a fixed width, so arithmetic on names wraps.

Main definitions:
* `Reference` — an object as the network names it: an entity and an offset inside it.
* `Handle` — an object as the local graph names it: a slot and the slot's generation.
* `ChannelId`, `Subscriber` — one opening of an entity's channel, and one object seen through it.
* `Container` — a streaming container, ordered by its path.
* `Authority` — who may write a component.

Each compound name is ordered by its parts from left to right, which `compare` states directly; the
instances `Std.TransOrd` and `Std.LawfulEqOrd` make them keys of `Std.ExtTreeMap`. -/

namespace Replica

/-- A replicated entity. -/
abbrev EntityId := Int64

/-- A component of an entity. -/
abbrev ComponentId := UInt32

/-- An outstanding request to the worker. -/
abbrev RequestId := Int64

/-- A command declared on a component. -/
abbrev CommandIndex := UInt32

/-- A remotely callable function. -/
abbrev FunctionIndex := UInt32

/-- A position: of an object inside an entity, of a field inside an object, or of an element inside
an array. -/
abbrev Offset := UInt32

/-- A replicated property, as change notifications name it. -/
abbrev RepIndex := UInt16

/-- Octets in the order in which they travel. -/
abbrev Bytes := List UInt8

/-! ## References -/

/-- A **reference**: the object at `offset` inside a remote entity. -/
structure Reference where
  /-- The entity that owns the object. -/
  entity : EntityId
  /-- Where in the entity the object sits. -/
  offset : Offset
deriving DecidableEq

namespace Reference

/-- The offset of an entity's root object. -/
def rootOffset : Offset := 0

/-- The reference to an entity's root object. -/
def root (entity : EntityId) : Reference := ⟨entity, rootOffset⟩

/-- Whether the reference names a root object. -/
def isRoot (r : Reference) : Bool := r.offset == rootOffset

/-- A reference in text: entity and offset in parentheses. -/
def text (r : Reference) : String := s!"({r.entity}:{r.offset})"

instance : Ord Reference := ⟨compareLex (compareOn entity) (compareOn offset)⟩

instance : Std.TransOrd Reference :=
  inferInstanceAs (Std.TransCmp (compareLex (compareOn entity) (compareOn offset)))

instance : Std.LawfulEqOrd Reference where
  eq_of_compare {a b} h := by
    obtain ⟨h₁, h₂⟩ := compareLex_eq_eq.mp h
    cases a; cases b
    congr
    · exact Std.LawfulEqOrd.eq_of_compare h₁
    · exact Std.LawfulEqOrd.eq_of_compare h₂

@[simp] theorem isRoot_root (entity : EntityId) : (root entity).isRoot = true := rfl

end Reference

/-! ## Handles -/

/-- A **handle**: a slot of the local object graph and the generation of its occupant. -/
structure Handle where
  /-- The slot. -/
  index : UInt32
  /-- How often the slot had been vacated when the handle was issued. -/
  generation : UInt32
deriving DecidableEq

namespace Handle

instance : Ord Handle := ⟨compareLex (compareOn index) (compareOn generation)⟩

instance : Std.TransOrd Handle :=
  inferInstanceAs (Std.TransCmp (compareLex (compareOn index) (compareOn generation)))

instance : Std.LawfulEqOrd Handle where
  eq_of_compare {a b} h := by
    obtain ⟨h₁, h₂⟩ := compareLex_eq_eq.mp h
    cases a; cases b
    congr
    · exact Std.LawfulEqOrd.eq_of_compare h₁
    · exact Std.LawfulEqOrd.eq_of_compare h₂

end Handle

/-! ## Channels -/

/-- A **channel name**: one opening of an entity's channel. Opening the entity again gives another
generation, so what was noted against the old opening never matches the new one. -/
structure ChannelId where
  /-- The entity that the channel replicates. -/
  entity : EntityId
  /-- The number of the opening. -/
  generation : UInt32
deriving DecidableEq

namespace ChannelId

instance : Ord ChannelId := ⟨compareLex (compareOn entity) (compareOn generation)⟩

instance : Std.TransOrd ChannelId :=
  inferInstanceAs (Std.TransCmp (compareLex (compareOn entity) (compareOn generation)))

instance : Std.LawfulEqOrd ChannelId where
  eq_of_compare {a b} h := by
    obtain ⟨h₁, h₂⟩ := compareLex_eq_eq.mp h
    cases a; cases b
    congr
    · exact Std.LawfulEqOrd.eq_of_compare h₁
    · exact Std.LawfulEqOrd.eq_of_compare h₂

end ChannelId

/-- A **subscriber**: one object seen through the channel that replicates it, the unit that waits on
missing references. -/
structure Subscriber where
  /-- The channel through which the object is replicated. -/
  channel : ChannelId
  /-- The object whose fields wait. -/
  object : Handle
deriving DecidableEq

namespace Subscriber

instance : Ord Subscriber := ⟨compareLex (compareOn channel) (compareOn object)⟩

instance : Std.TransOrd Subscriber :=
  inferInstanceAs (Std.TransCmp (compareLex (compareOn channel) (compareOn object)))

instance : Std.LawfulEqOrd Subscriber where
  eq_of_compare {a b} h := by
    obtain ⟨h₁, h₂⟩ := compareLex_eq_eq.mp h
    cases a; cases b
    congr
    · exact Std.LawfulEqOrd.eq_of_compare h₁
    · exact Std.LawfulEqOrd.eq_of_compare h₂

end Subscriber

/-! ## Containers -/

/-- A **container**: a part of the local scene that is streamed in and out, named by its path. -/
structure Container where
  /-- The path that names the container. -/
  path : String
deriving DecidableEq

namespace Container

instance : Ord Container := ⟨compareOn path⟩

instance : Std.TransOrd Container := inferInstanceAs (Std.TransCmp (compareOn path))

instance : Std.LawfulEqOrd Container where
  eq_of_compare {a b} h := by
    cases a; cases b
    exact congrArg _ (Std.LawfulEqOrd.eq_of_compare (α := String) h)

end Container

/-! ## Authority -/

/-- **Authority** over a component: who may write it. -/
inductive Authority where
  /-- Another worker writes the component. -/
  | notAuthoritative
  /-- This worker writes the component. -/
  | authoritative
  /-- This worker still writes the component and is about to lose it. -/
  | lossImminent
deriving DecidableEq

/-- The name of an authority. -/
def Authority.name : Authority → String
  | .notAuthoritative => "NotAuthoritative"
  | .authoritative => "Authoritative"
  | .lossImminent => "AuthorityLossImminent"

/-- Whether this worker may write now; a loss that is only announced does not count yet. -/
def Authority.isAuthoritative : Authority → Bool
  | .notAuthoritative => false
  | .authoritative | .lossImminent => true

end Replica
