import Replica.Session

/-! # Courses of a session

A host hands operations to a session, reports containers and objects, and changes the world beside
it. Each of these acts makes the session do a number of things one after the other. This file takes
an act apart into **moves**, each of which is a single call of one part, so that what holds between
two moves can be said, and what every move keeps holds after every run.

Main definitions:
* `Act`, `Session.act`, `Session.run` — what a host does, and what comes of it.
* `Move`, `Work.perform` — one thing that a session does, with the arrivals it has still to replay.
* `Session.moves` — the moves of an act; `Carries` in `Replica.Proofs.Course.Carries` says that they
  lead where the act leads.
* `Session.course` — every move of a run, each with the session in which it was made. -/

namespace Replica

/-! ## Acts of a host -/

/-- A **change** that the host makes to the world beside the session. -/
inductive WorldChange where
  /-- A class becomes known. -/
  | addClass (className : String) (parts : List Offset)
  /-- A pre-placed object becomes known. -/
  | addStartup (path : String)
  /-- An object is made that belongs to no entity. -/
  | placeLocal (className : String)
  /-- An object is destroyed. -/
  | destroy (object : Handle)

/-- The world after a change of the host. -/
def World.alter (w : World) : WorldChange → World
  | .addClass className parts => w.addClass className parts
  | .addStartup path => w.addStartup path
  | .placeLocal className => (w.placeLocal className).2
  | .destroy object => w.destroy object

/-- A **registration**: a request whose answer the host waits for. -/
inductive Registration where
  /-- An entity is to be created. -/
  | creation (id : RequestId) (awaiting : Awaiting)
  /-- Ids are to be reserved. -/
  | reservation (id : RequestId) (awaiting : Awaiting)
  /-- A query is to be answered. -/
  | query (id : RequestId) (awaiting : Awaiting)
  /-- A command is to be acknowledged. -/
  | command (id : RequestId) (command : ReliableCommand)

/-- An **act**: one call that a host makes. -/
inductive Act where
  /-- An operation of the worker is handed over. -/
  | receive (operation : Operation)
  /-- An update is handed over by itself, for its outcome to be seen. -/
  | tryUpdate (entity : EntityId) (update : ComponentData)
  /-- A command request is handed over by itself, without an acknowledgement. -/
  | tryCommand (entity : EntityId) (request : CommandRequest)
  /-- A container was loaded. -/
  | load (container : Container)
  /-- A container was unloaded. -/
  | unload (container : Container)
  /-- An object is known under a reference. -/
  | announce (arrival : Arrival)
  /-- An answer is waited for. -/
  | register (registration : Registration)
  /-- The events are taken. -/
  | takeEvents
  /-- The world is changed. -/
  | alter (change : WorldChange)

namespace Session

/-- Registers a request; one that is refused is dropped. -/
def await (s : Session) (registration : Registration) : Session :=
  match match registration with
    | .creation id awaiting => s.awaitCreation id awaiting
    | .reservation id awaiting => s.awaitReservation id awaiting
    | .query id awaiting => s.awaitQuery id awaiting
    | .command id command => s.awaitCommand id command with
  | .ok s' => s'
  | .error _ => s

/-- Carries one act out. -/
def act (s : Session) : Act → Except Fault Session
  | .receive operation => s.process operation
  | .tryUpdate entity update => .ok (s.update entity update)
  | .tryCommand entity request => .ok (s.accept (s.tryCommand entity request))
  | .load container => .ok (s.load container)
  | .unload container => .ok (s.unload container)
  | .announce arrival => .ok (s.announce arrival)
  | .register registration => .ok (s.await registration)
  | .takeEvents => .ok s.takeEvents.2
  | .alter change => .ok { s with world := s.world.alter change }

/-- A **run**: acts carried out in order, until one is a fault. -/
def run (s : Session) (acts : List Act) : Except Fault Session := acts.foldlM act s

end Session

/-! ## Moves -/

/-- What a burst holds back after an operation that is held back; any other leaves it as it is. -/
def Burst.keep (b : Burst) : Operation → Burst
  | .addEntity entity => b.addEntity entity
  | .removeEntity entity => b.removeEntity entity
  | .addComponent entity data => b.addComponent ⟨entity, data⟩
  | .authorityChange entity component authority => b.changeAuthority ⟨entity, component, authority⟩
  | _ => b

/-- What an operation cancels in a burst are entities and components, never an arrival. -/
theorem Burst.arrivals_keep (b : Burst) (operation : Operation) :
    (b.keep operation).arrivals = b.arrivals := by
  cases operation with
  | removeEntity entity =>
    simp only [keep, removeEntity, cancel]
    split <;> split <;> rfl
  | _ => rfl

/-- A call as it was **delivered** to a live object. The payload is what the invocation carries. -/
structure Delivered where
  /-- The object. -/
  target : Handle
  /-- The entity it was addressed to. -/
  entity : EntityId
  /-- The component it came through. -/
  component : ComponentId
  /-- The function. -/
  function : FunctionIndex
  /-- The arguments. -/
  args : List Value
  /-- The arguments in bytes. -/
  payload : Bytes
deriving DecidableEq

/-- A decoded call as it is delivered; its arguments are written anew. -/
def Delivered.ofCall (target : Handle) (entity : EntityId) (component : ComponentId) (c : Call) :
    Delivered where
  target
  entity
  component
  function := c.function
  args := c.args
  payload := Wire.args c.args

/-- The invocation of a delivered call. -/
def Delivered.invocation (d : Delivered) : Invocation := .ofPayload d.function d.payload

/-- A **move**: one thing that a session does. -/
inductive Move where
  /-- A section opens or closes; the end of the outermost one makes its arrivals due. -/
  | mark (opens : Bool)
  /-- An operation is held back. -/
  | hold (operation : Operation)
  /-- The drafts change. -/
  | draft (drafts : Drafts)
  /-- Requests are entered or answered, and events reported or taken. -/
  | settle (requests : Requests) (events : List Event) (deliveries : List Delivery)
  /-- The host changes the world. -/
  | alter (change : WorldChange)
  /-- An arrival becomes known; it is due, or held back. -/
  | learn (arrival : Arrival)
  /-- The objects of a draft are made and known; their arrivals are due. -/
  | found (draft : Draft)
  /-- A collected component is applied to the objects of a channel. -/
  | populate (channel : Channel) (data : ComponentData)
  /-- The objects of a channel are complete. -/
  | complete (channel : Channel)
  /-- Authority changes. -/
  | authorize (change : AuthorityChange)
  /-- A payload is written into an object of a built entity. -/
  | write (entity : EntityId) (data : ComponentData)
  /-- A call is executed or parked. -/
  | deliver (call : Delivered)
  /-- Everything goes on that waits for an arrival. -/
  | replay (arrival : Arrival)
  /-- An entity is taken down. -/
  | remove (entity : EntityId)

/-- The changes of authority that a draft has collected. -/
def Draft.changes (d : Draft) : List AuthorityChange :=
  d.authority.map fun (component, authority) => ⟨d.entity, component, authority⟩

/-- The objects of a channel as arrivals. -/
def Channel.arrivals (c : Channel) : List Arrival := c.members.map fun (r, h) => ⟨h, r⟩

namespace Session

/-- Makes the objects of a draft, opens its channel and makes the objects known, which is how
`Session.construct` begins. Gives no channel where the entity cannot be built. -/
def found (s : Session) (draft : Draft) : Option Channel × Session :=
  match draft.spawn with
  | none => (none, s)
  | some spawn =>
    match s.world.instantiate draft.entity spawn with
    | .error _ => (none, s)
    | .ok (assembly, world) =>
      match s.channels.open? draft.entity assembly with
      | none => (none, { s with world := world.destroy assembly.root })
      | some (channel, channels) =>
        (some channel, { s with
          world, channels
          directory := channel.members.foldl (fun d (r, h) => d.register r h) s.directory })

/-- Marks the objects of a channel as complete and reports the entity as built. -/
def complete (s : Session) (channel : Channel) : Session :=
  { s with world := s.world.finalize channel.root }.report
    [.entityConstructed channel.entity channel.root]

/-- Writes properties into an object of a built entity; a payload that is refused is dropped. -/
def write (s : Session) (entity : EntityId) (data : ComponentData) : Session :=
  match s.target entity data.component with
  | .error _ => s
  | .ok (b, subscriber) =>
    match Update.apply s.world s.waitlist s.resolver subscriber b.role data.component
        data.payload with
    | .ok (world, waitlist) => { s with world, waitlist }
    | .error _ => s

/-- Executes or parks a delivered call. -/
def deliverCall (s : Session) (d : Delivered) : Session :=
  s.dispatch d.target d.entity d.component ⟨d.invocation, Value.missingAll s.resolver d.args⟩

end Session

/-- A session at **work**: the act under way has still to replay the arrivals that are `due`. -/
structure Work where
  /-- The session. -/
  session : Session
  /-- The arrivals that are to be replayed before the act ends, the first one first. -/
  due : List Arrival

/-- A session that has nothing to replay. -/
def Session.idle (s : Session) : Work := ⟨s, []⟩

/-- Makes one move. -/
def Work.perform (w : Work) : Move → Work
  | .mark true => { w with session.held := w.session.held.enter }
  | .mark false =>
    match w.session.held.leave with
    | (some burst, held) => ⟨{ w.session with held }, burst.arrivals ++ w.due⟩
    | (none, held) => { w with session.held := held }
  | .hold operation => { w with session.held := w.session.held.hold (·.keep operation) }
  | .draft drafts => { w with session.drafts := drafts }
  | .settle requests events deliveries =>
    { w with session := { w.session with requests, events, deliveries } }
  | .alter change => { w with session.world := w.session.world.alter change }
  | .learn arrival =>
    let s :=
      { w.session with
        directory := w.session.directory.register arrival.reference arrival.object }
    if s.held.isOpen && s.settings.holdArrivals then
      { w with session := { s with held := s.held.hold (·.announce arrival) } }
    else ⟨s, arrival :: w.due⟩
  | .found draft =>
    match w.session.found draft with
    | (some channel, s) => ⟨s, channel.arrivals ++ w.due⟩
    | (none, s) => { w with session := s }
  | .populate channel data => { w with session := Session.populate channel w.session data }
  | .complete channel => { w with session := w.session.complete channel }
  | .authorize change => { w with session := w.session.changeAuthority change }
  | .write entity data => { w with session := w.session.write entity data }
  | .deliver call => { w with session := w.session.deliverCall call }
  | .replay arrival => ⟨w.session.resolveNow arrival, w.due.erase arrival⟩
  | .remove entity => { w with session := w.session.remove entity }

/-- A mark changes nothing but what is held back. -/
theorem Work.exists_perform_mark (w : Work) (opens : Bool) :
    ∃ held, (w.perform (.mark opens)).session = { w.session with held } := by
  cases opens with
  | true => exact ⟨_, rfl⟩
  | false =>
    simp only [perform]
    split
    · exact ⟨_, rfl⟩
    · exact ⟨_, rfl⟩

/-- An arrival that becomes known is entered, and may be held back. -/
theorem Work.exists_perform_learn (w : Work) (arrival : Arrival) :
    ∃ held, (w.perform (.learn arrival)).session =
      { w.session with
        held
        directory := w.session.directory.register arrival.reference arrival.object } := by
  simp only [perform]
  split
  · exact ⟨_, rfl⟩
  · exact ⟨_, rfl⟩

/-! ## The moves of an act -/

namespace Session

/-- The moves of several steps, each of which depends on where the ones before it have led. -/
def movesAlong {σ α : Type} (step : σ → α → σ) (moves : σ → α → List Move) :
    σ → List α → List Move
  | _, [] => []
  | s, a :: as => moves s a ++ movesAlong step moves (step s a) as

/-- The moves of a call payload: every call that it spells is delivered. -/
def callMoves (target : Handle) (entity : EntityId) (data : ComponentData) : List Move :=
  match Wire.decodeCalls data.payload with
  | .error _ => []
  | .ok calls => (calls.map (Delivered.ofCall target entity data.component)).map .deliver

/-- The moves of a component payload for a built entity. -/
def applyMoves (s : Session) (entity : EntityId) (data : ComponentData) : List Move :=
  match s.target entity data.component with
  | .error _ => []
  | .ok (b, subscriber) =>
    match b.role with
    | .spawn | .data | .handover => [.write entity data]
    | .multicast => callMoves subscriber.object entity data
    | .command => []

/-- The moves of an update. -/
def updateMoves (s : Session) (entity : EntityId) (update : ComponentData) : List Move :=
  if s.drafts.contains entity then
    match s.binding update.component with
    | .error _ => []
    | .ok b =>
      if b.role.carriesProperties then [.draft (s.drafts.addComponent entity update)] else []
  else s.applyMoves entity update

/-- The moves of a command request: the command is delivered if it is declared and spelt right. -/
def commandMoves (s : Session) (entity : EntityId) (request : CommandRequest) : List Move :=
  match s.target entity request.component with
  | .error _ => []
  | .ok (_, subscriber) =>
    if Stock.commandLimit ≤ request.command then []
    else
      match Wire.decodeArgs request.payload with
      | .error _ => []
      | .ok args => [.deliver {
          target := subscriber.object, entity, component := request.component
          function := request.command, args, payload := request.payload }]

/-- The moves that build an entity. -/
def constructMoves (s : Session) (draft : Draft) : List Move :=
  .found draft ::
    match (s.found draft).1 with
    | none => []
    | some channel =>
      draft.components.map (.populate channel) ++
        .complete channel :: draft.changes.map .authorize ++ channel.arrivals.map .replay

/-- The moves that build the entity of a draft that is ready. -/
def constructReadyMoves (s : Session) (entity : EntityId) : List Move :=
  match s.drafts.takeReady entity with
  | some (draft, drafts) => .draft drafts :: { s with drafts }.constructMoves draft
  | none => []

/-- The moves that take the draft of an entity as far as it can go. -/
def advanceMoves (s : Session) (entity : EntityId) : List Move :=
  match s.drafts.get? entity with
  | none => []
  | some draft =>
    match draft.stage with
    | .waiting _ => []
    | .ready => s.constructReadyMoves entity
    | .collecting =>
      match World.readSpawn entity draft.components with
      | .ok spawn =>
        let drafts := s.drafts.setSpawn entity spawn
        .draft drafts :: { s with drafts }.constructReadyMoves entity
      | .error (.spawnDataMissing _) => []
      | .error _ => [.draft (s.drafts.remove entity)]

/-- The moves that begin a draft. -/
def beginMoves (state : Session × List EntityId) (entity : EntityId) : List Move :=
  if state.1.channels.contains entity then [] else [.draft (state.1.drafts.begin entity)]

/-- The moves that route a component. -/
def routeMoves (state : Session × List EntityId) (added : AddedComponent) : List Move :=
  if state.1.drafts.contains added.entity then
    [.draft (state.1.drafts.addComponent added.entity added.data)]
  else state.1.applyMoves added.entity added.data

/-- The moves that carry a burst out. -/
def drainMoves (s : Session) (burst : Burst) : List Move :=
  let cleared := burst.removed.foldl remove s
  let begun := burst.added.foldl begin (cleared, [])
  let routed := burst.components.foldl route begun
  burst.removed.map .remove ++
    (movesAlong begin beginMoves (cleared, []) burst.added ++
      (movesAlong route routeMoves begun burst.components ++
        (movesAlong advance advanceMoves routed.1 routed.2 ++
          (burst.authority.map .authorize ++ burst.arrivals.map .replay))))

/-- The moves of an operation that may be held back: it is, or it makes the moves `now`. -/
def heldMoves (s : Session) (operation : Operation) (now : List Move) : List Move :=
  if s.held.isOpen then [.hold operation] else now

/-- The moves of an operation. -/
def processMoves (s : Session) : Operation → List Move
  | .criticalSection true => [.mark true]
  | .criticalSection false =>
    .mark false ::
      match s.held.leave with
      | (some burst, held) => { s with held }.drainMoves burst
      | (none, _) => []
  | .addEntity entity => s.heldMoves (.addEntity entity) (s.drainMoves { added := [entity] })
  | .removeEntity entity => s.heldMoves (.removeEntity entity) [.remove entity]
  | .addComponent entity data =>
    let routed := route (s, []) ⟨entity, data⟩
    s.heldMoves (.addComponent entity data) (routeMoves (s, []) ⟨entity, data⟩ ++
      movesAlong advance advanceMoves routed.1 routed.2)
  | .authorityChange entity component authority =>
    s.heldMoves (.authorityChange entity component authority)
      [.authorize ⟨entity, component, authority⟩]
  | .componentUpdate entity update => s.updateMoves entity update
  | .commandRequest request entity command =>
    let s' := s.command request entity command
    s.commandMoves entity command ++ [.settle s'.requests s'.events s'.deliveries]
  | .commandResponse request result =>
    match s.commandResponse request result with
    | .ok s' => [.settle s'.requests s'.events s'.deliveries]
    | .error _ => []
  | .reserveResponse request result =>
    let s' := s.reserveResponse request result
    [.settle s'.requests s'.events s'.deliveries]
  | .createResponse request result =>
    let s' := s.createResponse request result
    [.settle s'.requests s'.events s'.deliveries]
  | .queryResponse request result =>
    let s' := s.queryResponse request result
    [.settle s'.requests s'.events s'.deliveries]

/-- The **moves of an act**. -/
def moves (s : Session) : Act → List Move
  | .receive operation => s.processMoves operation
  | .tryUpdate entity update => s.updateMoves entity update
  | .tryCommand entity request => s.commandMoves entity request
  | .load container =>
    let (freed, drafts) := s.drafts.load container
    .draft drafts :: movesAlong advance advanceMoves { s with drafts } freed
  | .unload container => [.draft (s.drafts.unload container)]
  | .announce arrival =>
    .learn arrival ::
      if s.held.isOpen && s.settings.holdArrivals then [] else [.replay arrival]
  | .register registration =>
    let s' := s.await registration
    [.settle s'.requests s'.events s'.deliveries]
  | .takeEvents => [.settle s.requests [] s.deliveries]
  | .alter change => [.alter change]

end Session

/-! ## Courses -/

/-- A **moment**: a move, and the session in which it is made. -/
structure Moment where
  /-- The session before the move. -/
  session : Session
  /-- The move. -/
  move : Move

/-- The moments of some moves, in order. -/
def Work.trail (w : Work) : List Move → List Moment
  | [] => []
  | m :: ms => ⟨w.session, m⟩ :: (w.perform m).trail ms

/-- The **course** of a run: its moments, in order. -/
def Session.course (s : Session) : List Act → List Moment
  | [] => []
  | a :: acts =>
    match s.act a with
    | .ok s' => s.idle.trail (s.moves a) ++ s'.course acts
    | .error _ => []

end Replica
