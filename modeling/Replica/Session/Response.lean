import Replica.Session.Basic

/-! # Requests in a session

Answers find the request that they belong to by its id. An answer that nobody waits for is dropped,
and so is one whose owner is gone; a reliable command that has failed is sent again while its budget
lasts.

Main definitions:
* `Session.awaitCreation`, `Session.awaitReservation`, `Session.awaitQuery`,
  `Session.awaitCommand` — register a request.
* `Session.deliver` — an answer meets its continuation.
* `Session.commandResponse` — the answer to a reliable command. -/

namespace Replica.Session

/-! ## Registration -/

/-- Changes the outstanding requests, unless the change is refused. -/
def withRequests (s : Session) (requests : Except RequestError Requests) :
    Except RequestError Session :=
  requests.map fun requests => { s with requests }

/-- Waits for the creation of an entity. -/
def awaitCreation (s : Session) (id : RequestId) (a : Awaiting) : Except RequestError Session :=
  s.withRequests <| (s.requests.constructions.register id a).map
    ({ s.requests with constructions := · })

/-- Waits for a reservation of ids. -/
def awaitReservation (s : Session) (id : RequestId) (a : Awaiting) : Except RequestError Session :=
  s.withRequests <| (s.requests.reservations.register id a).map
    ({ s.requests with reservations := · })

/-- Waits for the result of a query. -/
def awaitQuery (s : Session) (id : RequestId) (a : Awaiting) : Except RequestError Session :=
  s.withRequests <| (s.requests.queries.register id a).map ({ s.requests with queries := · })

/-- Waits for the acknowledgement of a command. -/
def awaitCommand (s : Session) (id : RequestId) (command : ReliableCommand) :
    Except RequestError Session :=
  s.withRequests <| (s.requests.commands.register id command).map
    ({ s.requests with commands := · })

/-! ## Answers -/

/-- Hands an answer to a continuation whose owner, if it has one, is alive. -/
def deliver (s : Session) (a : Option Awaiting) (answer : Answer) : Session :=
  match a with
  | none => s
  | some a =>
    if a.owner.all s.world.isAlive then
      { s with deliveries := s.deliveries ++ a.continuation.deliver answer }
    else s

/-- The answer to a creation. -/
def createResponse (s : Session) (id : RequestId) (result : Except Failure EntityId) : Session :=
  { s with requests.constructions := s.requests.constructions.erase id }.deliver
    (s.requests.constructions.get? id) (.created result)

/-- The answer to a reservation. -/
def reserveResponse (s : Session) (id : RequestId) (result : Except Failure IdBlock) : Session :=
  { s with requests.reservations := s.requests.reservations.erase id }.deliver
    (s.requests.reservations.get? id) (.reserved result)

/-- The answer to a query. -/
def queryResponse (s : Session) (id : RequestId)
    (result : Except Failure (List QueriedEntity)) : Session :=
  { s with requests.queries := s.requests.queries.erase id }.deliver
    (s.requests.queries.get? id) (.queried result)

/-- The answer to a reliable command. A command that has failed is to be sent again if its sender is
alive and fewer attempts were made than allowed; a delay that is too long is a fault. -/
def commandResponse (s : Session) (id : RequestId) (result : Except Failure Bytes) :
    Except Fault Session :=
  let done := { s with requests.commands := s.requests.commands.erase id }
  match s.requests.commands.get? id, result with
  | some command, .error _ =>
    if s.world.isAlive command.target && command.attempts < s.settings.maxAttempts then do
      let delay ← s.settings.retryDelay command.attempts
      return done.report
        [.retryCommand { command with attempts := command.attempts + 1 } delay]
    else .ok done
  | _, _ => .ok done

end Replica.Session
