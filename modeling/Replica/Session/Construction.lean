import Replica.Session.Arrival

/-! # Construction and removal

An entity is built once its spawn data has arrived and the container of its spawn point is loaded.
It is then populated with what its draft has collected, and everything that waits for one of its
objects goes on.

Main definitions:
* `Session.advance` — takes a draft as far as it can go.
* `Session.construct` — builds and populates the entity of a draft.
* `Session.load`, `Session.unload` — a container comes and goes.
* `Session.remove` — takes an entity down.
* `Session.drain` — carries a burst out. -/

namespace Replica.Session

/-! ## Authority -/

/-- The object that hears of authority over a component: the one that the component is bound to, or
the root. -/
def authorityTarget (s : Session) (channel : Channel) (component : ComponentId) : Handle :=
  ((s.protocol.binding? component).bind (channel.objectAt? ·.offset)).getD channel.root

/-- Changes authority over a component. A draft holds the change until the entity is built; for an
unknown entity it is dropped. -/
def changeAuthority (s : Session) (change : AuthorityChange) : Session :=
  match s.channels.get? change.entity with
  | some channel =>
    { s with
      channels := s.channels.update (channel.setAuthority change.component change.authority)
      world := s.world.announceAuthority (s.authorityTarget channel change.component)
        change.component change.authority
      events := s.events ++ [.authorityChanged change.entity change.component change.authority] }
  | none =>
    { s with drafts := s.drafts.addAuthority change.entity change.component change.authority }

/-! ## Construction -/

/-- Applies a collected component to the objects of a channel. A component that carries no
properties, has no object or cannot be read is passed over. -/
def populate (channel : Channel) (s : Session) (data : ComponentData) : Session :=
  match s.protocol.binding? data.component with
  | none => s
  | some b =>
    if !b.role.carriesProperties then s
    else
      match channel.objectAt? b.offset with
      | none => s
      | some h =>
        match Update.apply s.world s.waitlist s.resolver (channel.subscriber h) b.role
            data.component data.payload with
        | .ok (world, waitlist) => { s with world, waitlist }
        | .error _ => s

/-- Builds the entity of a draft that has its spawn data: makes its objects, opens its channel,
makes the objects known, populates them, and lets everything go on that waits for them. An entity
that cannot be built is dropped. -/
def construct (s : Session) (draft : Draft) : Session :=
  match draft.spawn with
  | none => s
  | some spawn =>
    match s.world.instantiate draft.entity spawn with
    | .error _ => s
    | .ok (assembly, world) =>
      match s.channels.open? draft.entity assembly with
      | none => { s with world := world.destroy assembly.root }
      | some (channel, channels) =>
        let directory := channel.members.foldl (fun d (r, h) => d.register r h) s.directory
        let s := draft.components.foldl (populate channel) { s with world, channels, directory }
        let s := { s with world := s.world.finalize channel.root }
        let s := s.report [.entityConstructed draft.entity channel.root]
        let s := draft.authority.foldl
          (fun s (component, authority) => s.changeAuthority ⟨draft.entity, component, authority⟩) s
        channel.members.foldl (fun s (r, h) => s.resolveNow ⟨h, r⟩) s

/-- Builds the entity of a draft that is ready. -/
def constructReady (s : Session) (entity : EntityId) : Session :=
  match s.drafts.takeReady entity with
  | some (draft, drafts) => { s with drafts }.construct draft
  | none => s

/-- Takes the draft of an entity as far as it can go. A draft whose spawn data cannot be read is
dropped. -/
def advance (s : Session) (entity : EntityId) : Session :=
  match s.drafts.get? entity with
  | none => s
  | some draft =>
    match draft.stage with
    | .waiting _ => s
    | .ready => s.constructReady entity
    | .collecting =>
      match World.readSpawn entity draft.components with
      | .ok spawn => { s with drafts := s.drafts.setSpawn entity spawn }.constructReady entity
      | .error (.spawnDataMissing _) => s
      | .error _ => { s with drafts := s.drafts.remove entity }

/-- Marks a container as loaded and builds the entities that have waited for it, in the order in
which they began to wait. -/
def load (s : Session) (c : Container) : Session :=
  let (freed, drafts) := s.drafts.load c
  freed.foldl advance { s with drafts }

/-- Marks a container as not loaded; entities that spawn there later wait again. -/
def unload (s : Session) (c : Container) : Session := { s with drafts := s.drafts.unload c }

/-! ## Removal -/

/-- Takes an entity down, or drops its draft. What its objects wait for, their names and their
requests go with them. -/
def remove (s : Session) (entity : EntityId) : Session :=
  if s.drafts.contains entity then { s with drafts := s.drafts.remove entity }
  else
    match s.channels.get? entity with
    | none => s
    | some channel =>
      { s with
        channels := s.channels.close entity
        waitlist := s.waitlist.removeChannel channel.id
        directory := s.directory.unregisterEntity entity
        requests := s.requests.dropOwned (channel.members.map (·.2))
        world := s.world.destroy channel.root
        events := s.events ++ [.entityRemoved entity] }

/-! ## Bursts -/

/-- Enters an entity among those `touched`, once. -/
def touch (touched : List EntityId) (entity : EntityId) : List EntityId :=
  if touched.contains entity then touched else touched ++ [entity]

/-- Begins the draft of an entity that is not built. -/
def begin (state : Session × List EntityId) (entity : EntityId) : Session × List EntityId :=
  let (s, touched) := state
  if s.channels.contains entity then state
  else ({ s with drafts := s.drafts.begin entity }, touch touched entity)

/-- Adds a component to the draft of its entity, or else applies it to the built entity. -/
def route (state : Session × List EntityId) (added : AddedComponent) :
    Session × List EntityId :=
  let (s, touched) := state
  if s.drafts.contains added.entity then
    ({ s with drafts := s.drafts.addComponent added.entity added.data },
      touch touched added.entity)
  else (s.accept (s.applyToLive added.entity added.data.component added.data.payload), touched)

/-- Carries a burst out: removals, additions, authority, arrivals. Drafts go on once all additions
have been made, in the order in which they were first touched. -/
def drain (s : Session) (burst : Burst) : Session :=
  let s := burst.removed.foldl remove s
  let (s, touched) := burst.components.foldl route (burst.added.foldl begin (s, []))
  let s := touched.foldl advance s
  let s := burst.authority.foldl changeAuthority s
  burst.arrivals.foldl resolveNow s

end Replica.Session
