import Replica.Error
import Replica.Fault

/-! # Protocols

A protocol binds each component to the object that it targets and to a role. It is put together
binding by binding and then locked.

Main definitions:
* `Role`, `Binding` — what is done with a component's payloads, and to which object.
* `Protocol` — bindings and a lock.
* `Protocol.add?`, `Protocol.lock?` — building steps that refuse.
* `Protocol.install` — several bindings in a row, which faults midway and keeps what it has made. -/

namespace Replica

/-- A component's **role**: what is done with its payloads. -/
inductive Role where
  /-- Spawn data, read when the entity is built. -/
  | spawn
  /-- Replicated properties. -/
  | data
  /-- Properties that are handed over between authoritative workers. -/
  | handover
  /-- Batches of calls to every replica. -/
  | multicast
  /-- Command requests. -/
  | command
deriving DecidableEq

/-- The name of a role. -/
def Role.name : Role → String
  | .spawn => "Spawn"
  | .data => "Data"
  | .handover => "Handover"
  | .multicast => "MulticastRpc"
  | .command => "CommandRpc"

/-- Whether the payloads of a role are properties that an object keeps. -/
def Role.carriesProperties : Role → Bool
  | .spawn | .data | .handover => true
  | .multicast | .command => false

/-- A **binding** of a component: its role and the object it targets. -/
structure Binding where
  /-- The role. -/
  role : Role
  /-- The offset of the targeted object inside the entity. -/
  offset : Offset
deriving DecidableEq

/-- The object that a binding targets in a given entity. -/
def Binding.target (b : Binding) (entity : EntityId) : Reference := ⟨entity, b.offset⟩

/-- A **protocol**: the bindings of components, open to additions until it is locked. -/
structure Protocol where
  /-- The binding of each bound component. -/
  bindings : Std.ExtTreeMap ComponentId Binding := ∅
  /-- Whether the bindings are final. -/
  isLocked : Bool := false

/-- The fault of a call that takes a refusal for impossible. -/
def ProtocolError.fault : ProtocolError → Fault
  | .alreadyLocked => .protocolLocked
  | .duplicateComponent component => .componentBound component

namespace Protocol

/-- The binding of a component. -/
def binding? (p : Protocol) (component : ComponentId) : Option Binding := p.bindings[component]?

/-- Whether a component is bound. -/
def contains (p : Protocol) (component : ComponentId) : Bool := p.bindings.contains component

/-- The number of bound components. -/
def size (p : Protocol) : Nat := p.bindings.size

/-- Refuses a locked protocol. -/
def checkOpen (p : Protocol) : Except ProtocolError Unit :=
  if p.isLocked then .error .alreadyLocked else .ok ()

/-- Binds a component that has no binding. -/
def add? (p : Protocol) (component : ComponentId) (b : Binding) :
    Except ProtocolError Protocol := do
  p.checkOpen
  if p.contains component then throw (.duplicateComponent component)
  return { p with bindings := p.bindings.insert component b }

theorem binding?_of_add? {p q : Protocol} {component : ComponentId} {b : Binding}
    (h : p.add? component b = .ok q) (k : ComponentId) :
    q.binding? k = if component = k then some b else p.binding? k := by
  unfold add? checkOpen at h
  split at h
  · cases h
  · simp only [bind, Except.bind] at h
    split at h
    · cases h
    · cases h
      simp [binding?, Std.ExtTreeMap.getElem?_insert]

/-- Binds a component that carries spawn data to the root object. -/
def addSpawn? (p : Protocol) (component : ComponentId) : Except ProtocolError Protocol :=
  p.add? component ⟨.spawn, Reference.rootOffset⟩

/-- Makes the bindings final. -/
def lock? (p : Protocol) : Except ProtocolError Protocol := do
  p.checkOpen
  return { p with isLocked := true }

/-- The protocol with final bindings, whether or not they were final before. -/
def locked (p : Protocol) : Protocol := { p with isLocked := true }

/-- Several bindings that belong together. -/
abbrev Extension := List (ComponentId × Binding)

/-- Makes bindings one after the other. The first that is refused is a fault, and those before it
remain. -/
def addAll (p : Protocol) : Extension → Option Fault × Protocol
  | [] => (none, p)
  | (component, b) :: rest =>
    match p.add? component b with
    | .ok p => p.addAll rest
    | .error error => (some error.fault, p)

/-- Makes the bindings of an extension; a locked protocol is a fault even if there are none. -/
def install (p : Protocol) (extension : Extension) : Option Fault × Protocol :=
  match p.checkOpen with
  | .ok () => p.addAll extension
  | .error error => (some error.fault, p)

/-- Makes the bindings of an extension in a protocol that is not locked. A component that is bound
already is a fault here too. -/
def install? (p : Protocol) (extension : Extension) :
    Except ProtocolError (Option Fault × Protocol) := do
  p.checkOpen
  return p.addAll extension

end Protocol

end Replica
