import Replica.Session.Construction
import Replica.Session.Response

/-! # Processing operations

A session takes operations one by one. Inside a critical section, additions, removals and changes of
authority are held back until the outermost section closes; everything else takes effect at once.

Main definitions:
* `Session.process` — carries one operation out.
* `Session.processAll` — carries several out, until one is a fault. -/

namespace Replica.Session

/-- Opens or closes a critical section. Closing the outermost one carries its burst out. -/
def markSection (s : Session) (opens : Bool) : Session :=
  if opens then { s with held := s.held.enter }
  else
    match s.held.leave with
    | (some burst, held) => { s with held }.drain burst
    | (none, held) => { s with held }

/-- Adds an entity, at the end of the open section if there is one. -/
def addEntity (s : Session) (entity : EntityId) : Session :=
  if s.held.isOpen then { s with held := s.held.hold (·.addEntity entity) }
  else s.drain { added := [entity] }

/-- Removes an entity, at the end of the open section if there is one. -/
def removeEntity (s : Session) (entity : EntityId) : Session :=
  if s.held.isOpen then { s with held := s.held.hold (·.removeEntity entity) }
  else s.remove entity

/-- Adds a component, at the end of the open section if there is one. -/
def addComponent (s : Session) (added : AddedComponent) : Session :=
  if s.held.isOpen then { s with held := s.held.hold (·.addComponent added) }
  else
    let (s, touched) := route (s, []) added
    touched.foldl advance s

/-- Changes authority, at the end of the open section if there is one. -/
def authorityChange (s : Session) (change : AuthorityChange) : Session :=
  if s.held.isOpen then { s with held := s.held.hold (·.changeAuthority change) }
  else s.changeAuthority change

/-- Carries one operation out. Only the delay of a command that is to be sent again can be a
fault. -/
def process (s : Session) : Operation → Except Fault Session
  | .criticalSection opens => .ok (s.markSection opens)
  | .addEntity entity => .ok (s.addEntity entity)
  | .removeEntity entity => .ok (s.removeEntity entity)
  | .addComponent entity data => .ok (s.addComponent ⟨entity, data⟩)
  | .authorityChange entity component authority =>
    .ok (s.authorityChange ⟨entity, component, authority⟩)
  | .componentUpdate entity update => .ok (s.update entity update)
  | .commandRequest request entity command => .ok (s.command request entity command)
  | .commandResponse request result => s.commandResponse request result
  | .reserveResponse request result => .ok (s.reserveResponse request result)
  | .createResponse request result => .ok (s.createResponse request result)
  | .queryResponse request result => .ok (s.queryResponse request result)

/-- Carries several operations out in order. -/
def processAll (s : Session) (operations : List Operation) : Except Fault Session :=
  operations.foldlM process s

end Replica.Session
