import Replica.World.Payload

/-! # Critical sections

Operations that arrive as one burst are held back until the burst is complete. Sections nest, and
only the end of the outermost one yields the burst.

Main definitions:
* `Burst` — what is held back, sorted by kind.
* `Burst.removeEntity` — cancels what the same burst has held back for an entity it has added.
* `Section.enter`, `Section.leave` — open and close a section. -/

namespace Replica

/-- A component that is to be added to an entity. -/
structure AddedComponent where
  /-- The entity. -/
  entity : EntityId
  /-- The component with its payload. -/
  data : ComponentData
deriving DecidableEq

/-- A change of authority over a component of an entity. -/
structure AuthorityChange where
  /-- The entity. -/
  entity : EntityId
  /-- The component. -/
  component : ComponentId
  /-- Who may write it from now on. -/
  authority : Authority
deriving DecidableEq

/-- A local object that is to be known under a reference. -/
structure Arrival where
  /-- The object. -/
  object : Handle
  /-- Its name on the network. -/
  reference : Reference
deriving DecidableEq

/-- A **burst**: the operations held back in a section, each kind in the order of arrival. -/
structure Burst where
  /-- Entities to be removed, each once. -/
  removed : List EntityId := []
  /-- Entities to be added. -/
  added : List EntityId := []
  /-- Components to be added. -/
  components : List AddedComponent := []
  /-- Authority to be changed. -/
  authority : List AuthorityChange := []
  /-- Objects to be made known. -/
  arrivals : List Arrival := []
deriving DecidableEq

namespace Burst

/-- Whether nothing is held back. -/
def isEmpty (b : Burst) : Bool :=
  b.removed.isEmpty && b.added.isEmpty && b.components.isEmpty && b.authority.isEmpty
    && b.arrivals.isEmpty

/-- Holds back the addition of an entity. -/
def addEntity (b : Burst) (entity : EntityId) : Burst := { b with added := b.added ++ [entity] }

/-- Cancels the addition of an entity and all that is held back for it. -/
def cancel (b : Burst) (entity : EntityId) : Burst :=
  { b with
    added := b.added.filter (· != entity)
    components := b.components.filter (·.entity != entity)
    authority := b.authority.filter (·.entity != entity) }

/-- Holds back the removal of an entity. If the burst has added the entity, the addition is
cancelled with all that belongs to it. -/
def removeEntity (b : Burst) (entity : EntityId) : Burst :=
  let b := if b.added.contains entity then b.cancel entity else b
  if b.removed.contains entity then b else { b with removed := b.removed ++ [entity] }

/-- Holds back a component. -/
def addComponent (b : Burst) (component : AddedComponent) : Burst :=
  { b with components := b.components ++ [component] }

/-- Holds back a change of authority. -/
def changeAuthority (b : Burst) (change : AuthorityChange) : Burst :=
  { b with authority := b.authority ++ [change] }

/-- Holds back that an object is known. -/
def announce (b : Burst) (arrival : Arrival) : Burst :=
  { b with arrivals := b.arrivals ++ [arrival] }

end Burst

/-- A **section**: how many sections are open inside each other, and what they hold back. -/
structure Section where
  /-- How many sections are open. -/
  depth : Nat := 0
  /-- What is held back. -/
  burst : Burst := {}
deriving DecidableEq

namespace Section

/-- Whether a section is open. -/
def isOpen (s : Section) : Bool := s.depth != 0

/-- Opens a section inside those that are open. -/
def enter (s : Section) : Section := { s with depth := s.depth + 1 }

/-- Closes the innermost section. The outermost one yields the burst; where none is open nothing
happens. -/
def leave (s : Section) : Option Burst × Section :=
  match s.depth with
  | 0 => (none, s)
  | 1 => (some s.burst, {})
  | depth + 2 => (none, { s with depth := depth + 1 })

/-- Changes what is held back. -/
def hold (s : Section) (f : Burst → Burst) : Section := { s with burst := f s.burst }

@[simp] theorem isOpen_enter (s : Section) : s.enter.isOpen = true := by simp [isOpen, enter]

end Section

end Replica
