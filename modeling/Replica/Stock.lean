import Replica.Protocol

/-! # The stock protocol

The components and classes that every world knows from the start: characters, which hold a weapon at
an offset of its own, and crates.

Main definitions:
* `Stock.spawnComponent` and the other component ids.
* `Stock.extension`, `Stock.protocol` — their bindings, alone and as a locked protocol.
* `Stock.classes` — the classes, with the offsets of their parts. -/

namespace Replica.Stock

/-- The component that carries spawn data. -/
def spawnComponent : ComponentId := 1

/-- The properties of the root object. -/
def rootDataComponent : ComponentId := 10

/-- The properties of a character's weapon. -/
def weaponDataComponent : ComponentId := 11

/-- The properties of the root object that are handed over. -/
def handoverComponent : ComponentId := 12

/-- Calls to every replica of the root object. -/
def multicastComponent : ComponentId := 20

/-- Commands to the root object. -/
def commandComponent : ComponentId := 21

/-- The offset of a character's weapon. -/
def weaponOffset : Offset := 2

/-- The bindings of the stock components. -/
def extension : Protocol.Extension :=
  [(spawnComponent, ⟨.spawn, Reference.rootOffset⟩),
   (rootDataComponent, ⟨.data, Reference.rootOffset⟩),
   (weaponDataComponent, ⟨.data, weaponOffset⟩),
   (handoverComponent, ⟨.handover, Reference.rootOffset⟩),
   (multicastComponent, ⟨.multicast, Reference.rootOffset⟩),
   (commandComponent, ⟨.command, Reference.rootOffset⟩)]

/-- The stock components, bound and locked. -/
def protocol : Protocol := (Protocol.install {} extension).2.locked

/-- The stock classes, each with the offsets of its parts. -/
def classes : Std.ExtTreeMap String (List Offset) :=
  .ofList [("Character", [weaponOffset]), ("Crate", [])]

/-- Commands have indices below this one. -/
def commandLimit : CommandIndex := 16

end Replica.Stock
