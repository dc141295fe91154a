import Replica.World.Payload

/-! # Calls on objects

Commands and multicasts arrive encoded and are executed with their arguments in local form. An
invocation keeps its bytes, so its arguments can be localized again when it is executed.

Main definitions:
* `Invocation` — a function and its encoded arguments.
* `Incoming` — an invocation as it was received, with the references that were missing then.
* `World.readCommand`, `World.readMulticast` — what a payload asks for.
* `World.execute` — runs an invocation. -/

namespace Replica

/-- An **invocation**: a function and its arguments in bytes. -/
structure Invocation where
  /-- The function. -/
  function : FunctionIndex
  /-- The argument payload. -/
  payload : Bytes
  /-- The length of the payload in bits. -/
  bits : UInt64
deriving DecidableEq

/-- The invocation of a function on an argument payload. -/
def Invocation.ofPayload (function : FunctionIndex) (payload : Bytes) : Invocation :=
  ⟨function, payload, .ofNat (payload.length * 8)⟩

/-- An **incoming** invocation. -/
structure Incoming where
  /-- The invocation. -/
  invocation : Invocation
  /-- The references among its arguments that are not local. -/
  missing : ReferenceSet

/-- Whether an invocation can be executed at once. -/
def Incoming.isReady (i : Incoming) : Bool := i.missing.isEmpty

namespace World

/-- Reads a command request to a live object. The command has to be declared before its arguments
are looked at. -/
def readCommand (w : World) (resolve : Resolver) (h : Handle) (component : ComponentId)
    (command : CommandIndex) (payload : Bytes) : Except PayloadError Incoming :=
  if !w.isAlive h then .error .unknownObject
  else if Stock.commandLimit ≤ command then .error (.unknownCommand component command)
  else
    match Wire.decodeArgs payload with
    | .error flaw => .error (.malformedPayload component flaw.message)
    | .ok args => .ok ⟨.ofPayload command payload, Value.missingAll resolve args⟩

/-- Reads the calls of a multicast to a live object. -/
def readMulticast (w : World) (resolve : Resolver) (h : Handle) (component : ComponentId)
    (payload : Bytes) : Except PayloadError (List Incoming) :=
  if !w.isAlive h then .error .unknownObject
  else
    match Wire.decodeCalls payload with
    | .error flaw => .error (.malformedPayload component flaw.message)
    | .ok calls => .ok (calls.map fun c =>
        ⟨.ofPayload c.function (Wire.args c.args), Value.missingAll resolve c.args⟩)

/-- Executes an invocation on a live object. -/
def execute (w : World) (resolve : Resolver) (h : Handle) (i : Invocation) :
    Except PayloadError World :=
  if !w.isAlive h then .error .unknownObject
  else
    match Wire.decodeArgs i.payload with
    | .error flaw => .error (.malformedBuffer [] flaw.message)
    | .ok args =>
      let execution := ⟨h, i.function, Value.localizeAll resolve args⟩
      .ok { w with journal.executed := w.journal.executed ++ [execution] }

end World

end Replica
