import Replica.Wire.Writer

/-! # Reading payloads

A reader takes bytes from the front of its input. A read that fails keeps what its parts have
consumed, so reading can go on from there; a payload as a whole is accepted only if nothing remains.

Main definitions:
* `Wire.Cursor`, `Wire.Reader` — what is left of the input, and readers over it.
* `Wire.Reader.value`, `Wire.Reader.values` — read a value and a counted list of values.
* `Wire.decodeFields`, `Wire.decodeValue`, `Wire.decodeArgs`, `Wire.decodeCalls`,
  `Wire.decodeSpawn` — read a whole payload.
* `Wire.Flaw` — the causes of failure. -/

namespace Replica.Wire

/-- A **flaw**: why a payload is refused. -/
inductive Flaw where
  /-- Of the `needed` bytes at `position` only some are there. -/
  | short (needed position available : Nat)
  /-- No value begins with this tag. -/
  | unknownTag (tag : UInt8)
  /-- An optional text is neither absent nor present. -/
  | badFlag (flag : UInt8)
  /-- The payload has ended and bytes remain. -/
  | trailing (remaining : Nat)
  /-- The bytes of a text are no text. -/
  | text (flaw : Utf8.Flaw)
deriving DecidableEq

/-- The wording of a flaw. -/
def Flaw.message : Flaw → String
  | .short needed position available =>
    s!"needed {needed} bytes at {position}, only {available} available"
  | .unknownTag tag => s!"unknown value tag {tag}"
  | .badFlag flag => s!"bad option flag {flag}"
  | .trailing remaining => s!"{remaining} trailing bytes"
  | .text flaw => flaw.message

/-- A **cursor**: how many bytes have been read, and the ones to come. -/
structure Cursor where
  /-- The number of bytes read. -/
  position : Nat
  /-- The bytes to come. -/
  rest : Bytes
deriving DecidableEq

/-- The cursor before the first byte. -/
def Cursor.start (bytes : Bytes) : Cursor := ⟨0, bytes⟩

/-- A **reader** moves a cursor, also when it fails. -/
abbrev Reader := EStateM Flaw Cursor

namespace Reader

/-! ## Words and texts -/

/-- Reads exactly `n` bytes, or nothing. -/
def bytes (n : Nat) : Reader Bytes := fun c =>
  let (taken, rest) := c.rest.splitAt n
  if taken.length = n then .ok taken ⟨c.position + n, rest⟩
  else .error (.short n c.position taken.length) c

/-- Reads the number that the next `width` bytes spell. -/
def word (width : Nat) : Reader Nat := return ofWord (← bytes width)

/-- Reads a byte. -/
def u8 : Reader UInt8 := return .ofNat (← word 1)

/-- Reads an unsigned number of two bytes. -/
def u16 : Reader UInt16 := return .ofNat (← word 2)

/-- Reads an unsigned number of four bytes. -/
def u32 : Reader UInt32 := return .ofNat (← word 4)

/-- Reads an unsigned number of eight bytes. -/
def u64 : Reader UInt64 := return .ofNat (← word 8)

/-- Reads a signed number of four bytes. -/
def i32 : Reader Int32 := return (← u32).toInt32

/-- Reads a signed number of eight bytes. -/
def i64 : Reader Int64 := return (← u64).toInt64

/-- Reads a text after its length. -/
def string : Reader String := do
  let length ← u16
  let read ← bytes length.toNat
  match Utf8.decode read with
  | .ok text => return text
  | .error flaw => throw (.text flaw)

/-- Reads a reference. -/
def reference : Reader Reference := do
  let entity ← i64
  let offset ← u32
  return ⟨entity, offset⟩

/-! ## Lists and values -/

/-- Reads `n` items behind those `done`, which stand last first. -/
def itemsOnto (item : Reader α) : (n : Nat) → (done : List α) → Reader (List α)
  | 0, done => return done.reverse
  | n + 1, done => do itemsOnto item n ((← item) :: done)

/-- Reads a list of items after their count. -/
def counted (item : Reader α) : Reader (List α) := do
  let n ← u16
  itemsOnto item n.toNat []

/-- Reads a value that is nested less than `depth` deep. -/
def valueWithin : (depth : Nat) → Reader Value
  | 0 => do throw (.unknownTag (← u8))
  | depth + 1 => do
    match (← u8) with
    | 0 => return .int (← i32)
    | 1 => return .ref (← reference)
    | 2 => return .null
    | 3 => return .struct (← counted (valueWithin depth))
    | 4 => return .array (← counted (valueWithin depth))
    | tag => throw (.unknownTag tag)

/-- Reads a value. Each level of nesting takes at least one byte, so the bytes to come bound the
depth, and only the end of the input is met at depth zero. -/
def value : Reader Value := fun c => valueWithin c.rest.length c

/-- Reads a counted list of values. -/
def values : Reader (List Value) := fun c => counted (valueWithin c.rest.length) c

/-- Succeeds where nothing remains. -/
def finish : Reader Unit := fun c =>
  if c.rest.isEmpty then .ok () c else .error (.trailing c.rest.length) c

/-! ## Payloads -/

/-- Reads one assignment, whose value is nested less than `depth` deep. -/
def assignmentWithin (depth : Nat) : Reader Assignment := do
  let offset ← u32
  let rep ← u16
  let value ← valueWithin depth
  return ⟨offset, rep, value⟩

/-- Reads a counted list of assignments. -/
def fields : Reader (List Assignment) := fun c => counted (assignmentWithin c.rest.length) c

/-- Reads one call, whose arguments are nested less than `depth` deep. -/
def callWithin (depth : Nat) : Reader Call := do
  let function ← u32
  let args ← counted (valueWithin depth)
  return ⟨function, args⟩

/-- Reads a counted list of calls. -/
def calls : Reader (List Call) := fun c => counted (callWithin c.rest.length) c

/-- Reads a text that may be absent. -/
def optional : Reader (Option String) := do
  match (← u8) with
  | 0 => return none
  | 1 => return some (← string)
  | flag => throw (.badFlag flag)

/-- Reads spawn data, whose orientation does not travel and is left at rest. -/
def spawn : Reader Spawn := do
  let className ← string
  let x ← u64
  let y ← u64
  let z ← u64
  let stablePath ← optional
  let container ← optional
  return { className, location := ⟨x, y, z⟩, stablePath, container := container.map Container.mk }

/-- What `reader` makes of a whole payload. -/
def decode (reader : Reader α) (payload : Bytes) : Except Flaw α :=
  match (do let a ← reader; finish; return a : Reader α) (.start payload) with
  | .ok a _ => .ok a
  | .error flaw _ => .error flaw

end Reader

/-- The assignments of a property payload. -/
def decodeFields (payload : Bytes) : Except Flaw (List Assignment) := Reader.fields.decode payload

/-- The value that a buffer holds. -/
def decodeValue (buffer : Bytes) : Except Flaw Value := Reader.value.decode buffer

/-- The values of an argument payload. -/
def decodeArgs (payload : Bytes) : Except Flaw (List Value) := Reader.values.decode payload

/-- The calls of a multicast payload. -/
def decodeCalls (payload : Bytes) : Except Flaw (List Call) := Reader.calls.decode payload

/-- The spawn data of a payload. -/
def decodeSpawn (payload : Bytes) : Except Flaw Spawn := Reader.spawn.decode payload

end Replica.Wire
