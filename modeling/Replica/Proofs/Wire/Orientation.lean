import Replica.Proofs.Wire.Formats
import Replica.Session.Construction

/-! # Spawn data on its way

Spawn data whose texts can be counted arrives with its class, its place and its paths, bit for bit.
Its orientation is neither written nor read, so it arrives at rest, and this is the spawn data from
which a draft goes on.

Main definitions:
* `Spawn.IsCountable` — spawn data whose texts can be counted.
* `Spawn.atRest` — spawn data without its orientation.
* `Session.spawn_arrives_at_rest` — what becomes of spawn data on its way to a draft. -/

namespace Replica

namespace Spawn

/-- Spawn data is **countable** if its texts are. -/
structure IsCountable (s : Spawn) : Prop where
  /-- The name of the class. -/
  className : Wire.IsCountable s.className
  /-- The path of the object to adopt. -/
  stablePath : ∀ path, s.stablePath = some path → Wire.IsCountable path
  /-- The path of the container. -/
  container : ∀ c, s.container = some c → Wire.IsCountable c.path

/-- The spawn data without its orientation. -/
def atRest (s : Spawn) : Spawn := { s with rotation := {} }

/-- Spawn data is at rest just if its orientation is. -/
theorem atRest_eq_self {s : Spawn} : s.atRest = s ↔ s.rotation = {} := by
  refine ⟨fun same => ?_, fun still => ?_⟩
  · rw [← same]
    rfl
  · rw [atRest, ← still]

/-- Countable spawn data can be written in full once it is at rest. -/
theorem IsCountable.isWritable_atRest {s : Spawn} (h : s.IsCountable) : s.atRest.IsWritable where
  className := h.className
  rotation := rfl
  stablePath := h.stablePath
  container := h.container

end Spawn

namespace Wire

/-- The orientation leaves no trace in the bytes. -/
theorem spawn_atRest (s : Spawn) : spawn s.atRest = spawn s := rfl

/-- What is written of countable spawn data is read at rest. -/
theorem decodeSpawn_spawn {s : Spawn} (countable : s.IsCountable) :
    decodeSpawn (spawn s) = .ok s.atRest :=
  decodeSpawn_eq_ok.mpr ⟨countable.isWritable_atRest, (spawn_atRest s).symm⟩

end Wire

/-- The spawn data of an entity is that of the first component that is for it. -/
theorem World.readSpawn_of_first {s s' : Spawn} {components before after : List ComponentData}
    (decoded : Wire.decodeSpawn (Wire.spawn s) = .ok s')
    (split : components = before ++ ⟨Stock.spawnComponent, Wire.spawn s⟩ :: after)
    (first : ∀ data ∈ before, data.component ≠ Stock.spawnComponent) (entity : EntityId) :
    World.readSpawn entity components = .ok s' := by
  have none : before.find? (·.component == Stock.spawnComponent) = none := by
    simpa using first
  simp [World.readSpawn, split, List.find?_append, none, decoded]

namespace Session

/-- **Spawn data arrives at rest**: if its texts can be counted, it is read with all its parts as
they were written, only the orientation is lost; so it survives just if it was at rest. A draft
goes on from what was read. -/
theorem spawn_arrives_at_rest {d : Spawn} (countable : d.IsCountable) :
    Wire.decodeSpawn (Wire.spawn d) = .ok d.atRest ∧
      (Wire.decodeSpawn (Wire.spawn d) = .ok d ↔ d.rotation = {}) ∧
      ∀ (s : Session) (entity : EntityId) (draft : Draft) (before after : List ComponentData),
        s.drafts.get? entity = some draft → draft.stage = .collecting →
        draft.components = before ++ ⟨Stock.spawnComponent, Wire.spawn d⟩ :: after →
        (∀ data ∈ before, data.component ≠ Stock.spawnComponent) →
        s.advance entity =
          { s with drafts := s.drafts.setSpawn entity d.atRest }.constructReady entity := by
  have decoded := Wire.decodeSpawn_spawn countable
  refine ⟨decoded, ?_, fun s entity draft before after found collecting split first => ?_⟩
  · rw [decoded, Except.ok.injEq]
    exact Spawn.atRest_eq_self
  · have read := World.readSpawn_of_first decoded split first entity
    simp only [advance, found, collecting, read]

end Session

namespace Wire

/-- A crate that stands somewhere and is turned. -/
def turnedCrate : Spawn where
  className := "Crate"
  location := ⟨0x3FF0000000000000, 0xC004000000000000, 0⟩
  rotation := ⟨0x3FC00000, 0, 0x42B40000⟩
  container := some ⟨"Levels/Harbor"⟩

theorem isCountable_turnedCrate : turnedCrate.IsCountable := by
  constructor
  case className => decide
  case stablePath =>
    intro path same
    cases same
  case container =>
    intro c same
    cases same
    decide

theorem spawn_arrives_at_rest_turnedCrate :
    turnedCrate.IsCountable ∧
      decodeSpawn (spawn turnedCrate) = .ok { turnedCrate with rotation := {} } := by
  obtain ⟨decoded, -, -⟩ := Session.spawn_arrives_at_rest isCountable_turnedCrate
  exact ⟨isCountable_turnedCrate, decoded⟩

/-- A turned crate is read unturned. -/
theorem decodeSpawn_turnedCrate : decodeSpawn (spawn turnedCrate) ≠ .ok turnedCrate := by
  rw [decodeSpawn_spawn isCountable_turnedCrate, ne_eq, Except.ok.injEq, Spawn.atRest_eq_self]
  decide

end Wire

end Replica
