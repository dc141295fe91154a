import Replica.Session.Basic

/-! # Updates and invocations in a session

Components of built entities reach their objects here: properties are written, and invocations are
executed or parked. An entity that is not built yet collects properties in its draft.

Main definitions:
* `Session.applyToLive` — a component payload for a built entity.
* `Session.tryUpdate`, `Session.tryCommand` — an update and a command request, which may be refused.
* `Session.dispatch`, `Session.dispatchReady` — execute invocations with nothing to wait for. -/

namespace Replica.Session

/-- Executes an invocation; one that its object cannot execute is dropped. -/
def execute (s : Session) (target : Handle) (invocation : Invocation) : Session :=
  match s.world.execute s.resolver target invocation with
  | .ok world => { s with world }
  | .error _ => s

/-- Executes an invocation at once if no argument is missing, and parks it otherwise. -/
def dispatch (s : Session) (target : Handle) (entity : EntityId) (component : ComponentId)
    (incoming : Incoming) : Session :=
  if incoming.isReady then s.execute target incoming.invocation
  else
    let call := ⟨target, entity, component, incoming.invocation, incoming.missing⟩
    { s with calls := (s.calls.enqueue call).2 }

/-- Executes the parked invocations that have become ready. -/
def dispatchReady (s : Session) : Session :=
  let (ready, calls) := s.calls.drain
  ready.foldl (fun s call => s.execute call.target call.invocation) { s with calls }

/-- Applies a component payload to a built entity. -/
def applyToLive (s : Session) (entity : EntityId) (component : ComponentId) (payload : Bytes) :
    Except RoutingError Session := do
  let (b, subscriber) ← s.target entity component
  match b.role with
  | .spawn | .data | .handover =>
    let (world, waitlist) ←
      (Update.apply s.world s.waitlist s.resolver subscriber b.role component payload).mapError
        RoutingError.payload
    return { s with world, waitlist }
  | .multicast =>
    let calls ←
      (s.world.readMulticast s.resolver subscriber.object component payload).mapError
        RoutingError.payload
    return calls.foldl (dispatch · subscriber.object entity component) s
  | .command => return s

/-- Applies an update to a built entity. Properties of an entity that is still a draft are collected
there; for anything else such an entity is unknown. -/
def tryUpdate (s : Session) (entity : EntityId) (update : ComponentData) :
    Except RoutingError Session :=
  if s.drafts.contains entity then do
    let b ← s.binding update.component
    if b.role.carriesProperties then
      return { s with drafts := s.drafts.addComponent entity update }
    else throw (.unknownEntity entity)
  else s.applyToLive entity update.component update.payload

/-- Serves a command request to a built entity. -/
def tryCommand (s : Session) (entity : EntityId) (request : CommandRequest) :
    Except RoutingError Session := do
  let (_, subscriber) ← s.target entity request.component
  let incoming ←
    (s.world.readCommand s.resolver subscriber.object request.component request.command
      request.payload).mapError RoutingError.payload
  return s.dispatch subscriber.object entity request.component incoming

/-- An update; one that is refused is dropped. -/
def update (s : Session) (entity : EntityId) (update : ComponentData) : Session :=
  s.accept (s.tryUpdate entity update)

/-- A command request. It is acknowledged whether or not it is refused. -/
def command (s : Session) (request : RequestId) (entity : EntityId) (command : CommandRequest) :
    Session :=
  (s.accept (s.tryCommand entity command)).report
    [.sendCommandResponse request entity command.component]

end Replica.Session
