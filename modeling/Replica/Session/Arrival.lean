import Replica.Session.Update

/-! # Arrivals

When an object becomes known under a reference, everything that waits for the reference goes on:
fields are filled first, then invocations are executed that have nothing left to wait for.

Main definitions:
* `Session.resolveNow` — what waits for an arrival goes on.
* `Session.announce` — an arrival reported from outside, which an open section may hold back. -/

namespace Replica.Session

/-- Lets everything go on that waits for an arrival. -/
def resolveNow (s : Session) (arrival : Arrival) : Session :=
  let resolution :=
    Update.resolve s.world s.waitlist s.resolver arrival.reference arrival.object
  let s := { s with world := resolution.world, waitlist := resolution.waitlist }
  let s := s.report (resolution.complete.map .referencesResolved)
  let (freed, calls) := s.calls.resolve arrival.reference
  let s := { s with calls }
  if freed = 0 then s else s.dispatchReady

/-- Makes an object known under a reference. What waits for it goes on now, or after the open
section. -/
def announce (s : Session) (arrival : Arrival) : Session :=
  let s := { s with directory := s.directory.register arrival.reference arrival.object }
  if s.held.isOpen && s.settings.holdArrivals then
    { s with held := s.held.hold (·.announce arrival) }
  else s.resolveNow arrival

end Replica.Session
