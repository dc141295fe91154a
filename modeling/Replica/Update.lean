import Replica.Waitlist
import Replica.World.Payload

/-! # Updates and replays

An update writes a payload into an object and enters what is outstanding into the waitlist. When a
missing reference becomes local, the positions that wait for it are replayed: each is written again,
and what it still waits for remains.

Main definitions:
* `Update.apply` — an update of one subscriber.
* `Replay.position`, `Replay.positions` — fill the holes of one position and of several.
* `Update.resolve` — a replay for all who wait for a reference. -/

namespace Replica

/-! ## Replays -/

/-- A **replay**: whose fields are written, what has become local, and how references are resolved
meanwhile. -/
structure Replay where
  /-- The object that is written. -/
  object : Handle
  /-- The reference that has become local. -/
  reference : Reference
  /-- The object that it names now. -/
  resolved : Handle
  /-- What is local. -/
  resolve : Resolver

namespace Replay

mutual

/-- Replays one position at a path. Gives the world, the properties that were written, and what the
position still waits for. A position that cannot be written any more waits for nothing. -/
def position (replay : Replay) (w : World) (path : List Offset) :
    Outstanding → World × List RepIndex × Option Outstanding
  | .single rep r =>
    if r = replay.reference then
      match w.writeReference replay.object path replay.resolved with
      | .ok w => (w, [rep], none)
      | .error _ => (w, [], none)
    else (w, [], some (.single rep r))
  | .struct rep buffer bits missing =>
    if missing.contains replay.reference then
      match w.reapplyStruct replay.resolve replay.object path buffer with
      | .ok (missing, w) =>
        (w, [rep], if missing.isEmpty then none else some (.struct rep buffer bits missing))
      | .error _ => (w, [], none)
    else (w, [], some (.struct rep buffer bits missing))
  | .array rep elements =>
    if Outstanding.anyWaitsOn replay.reference elements then
      let (w, changed, elements) := positions replay w path elements
      (w, if changed.isEmpty then [] else [rep],
        if elements.isEmpty then none else some (.array rep elements))
    else (w, [], some (.array rep elements))

/-- Replays positions below a path one after the other, with the properties written in order and the
positions that still wait. -/
def positions (replay : Replay) (w : World) (path : List Offset) :
    List (Offset × Outstanding) → World × List RepIndex × List (Offset × Outstanding)
  | [] => (w, [], [])
  | (offset, o) :: rest =>
    let (w, changed, left) := position replay w (path ++ [offset]) o
    let (w, changedRest, leftRest) := positions replay w path rest
    (w, changed ++ changedRest,
      match left with
      | some o => (offset, o) :: leftRest
      | none => leftRest)

end

end Replay

/-! ## Updates -/

namespace Update

/-- Announces changed properties in ascending order, each once, and nothing if there are none. -/
def announce (w : World) (h : Handle) (changed : List RepIndex) : World :=
  if changed.isEmpty then w else w.notify h (Std.ExtTreeSet.ofList changed).toList

/-- What is parked after a payload was applied: a field that was written waits for what the payload
left outstanding there, the others wait as before. -/
def merge (parked : Parked) (a : Applied) : Parked :=
  a.unresolved.toList.foldl (fun parked (offset, o) => parked.insert offset o)
    ((a.written.filter (!a.unresolved.contains ·)).foldl Std.ExtTreeMap.erase parked)

/-- The properties whose parked fields a payload has written without leaving them outstanding. -/
def settled (parked : Parked) (a : Applied) : List RepIndex :=
  (a.written.filter (!a.unresolved.contains ·)).filterMap fun offset =>
    parked[offset]?.map Outstanding.rep

/-- Writes a payload into the object of a subscriber and brings the waitlist in line. Properties
whose parked fields are settled by it are announced as changed. -/
def apply (w : World) (l : Waitlist) (resolve : Resolver) (s : Subscriber) (role : Role)
    (component : ComponentId) (payload : Bytes) : Except PayloadError (World × Waitlist) := do
  let (applied, w) ← w.applyPayload resolve s.object role component payload
  let parked := l.parkedOf s
  return (announce w s.object (settled parked applied), l.store s (merge parked applied))

/-- The **resolution** of a reference: a world, a waitlist, and the subscribers so far that were
left with nothing to wait for. -/
structure Resolution where
  /-- The world. -/
  world : World
  /-- The waitlist. -/
  waitlist : Waitlist
  /-- Those who wait no more, in the order in which they were served. -/
  complete : List Subscriber

/-- Serves one subscriber: one whose object is gone is forgotten, any other is replayed. -/
def serve (resolve : Resolver) (r : Reference) (resolved : Handle) (state : Resolution)
    (s : Subscriber) : Resolution :=
  if !state.world.isAlive s.object then { state with waitlist := state.waitlist.remove s }
  else
    let replay := ⟨s.object, r, resolved, resolve⟩
    let parked := state.waitlist.parkedOf s
    let (w, changed, left) := Replay.positions replay state.world [] parked.toList
    { world := announce w s.object changed
      waitlist := state.waitlist.store s (.ofList left)
      complete := if left.isEmpty then state.complete ++ [s] else state.complete }

/-- Replays the positions of all who wait for `r`, which now names `resolved`, in ascending order of
subscribers. -/
def resolve (w : World) (l : Waitlist) (resolve : Resolver) (r : Reference) (resolved : Handle) :
    Resolution :=
  (l.subscribersOf r).foldl (serve resolve r resolved) ⟨w, l, []⟩

end Update

end Replica
