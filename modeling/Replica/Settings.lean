import Replica.Fault

/-! # Settings

How often a reliable command is sent, how long to wait in between, and whether what becomes known in
a critical section waits for its end.

Main definitions:
* `Duration` — a length of time in whole nanoseconds, of less than `UInt64.size` seconds.
* `Settings.retryDelay` — the delay before the next attempt, doubled from attempt to attempt. -/

namespace Replica

/-- The nanoseconds of a second. -/
def nanosPerSecond : Nat := 1000000000

/-- A **duration**, less than `UInt64.size` seconds long. -/
structure Duration where
  /-- The length in nanoseconds. -/
  nanoseconds : Nat
  /-- Whole seconds fit a word. -/
  inRange : nanoseconds < UInt64.size * nanosPerSecond
deriving DecidableEq

namespace Duration

/-- The duration of some seconds and a part of a second, of which whole seconds are carried; nothing
if that is too long. -/
def ofParts? (seconds nanoseconds : Nat) : Option Duration :=
  let total := seconds * nanosPerSecond + nanoseconds
  if h : total < UInt64.size * nanosPerSecond then some ⟨total, h⟩ else none

/-- The whole seconds of a duration. -/
def seconds (d : Duration) : Nat := d.nanoseconds / nanosPerSecond

/-- What a duration has beyond whole seconds, in nanoseconds. -/
def subsecond (d : Duration) : Nat := d.nanoseconds % nanosPerSecond

/-- A multiple of a duration, if it is not too long. -/
def scale (d : Duration) (factor : Nat) : Except Fault Duration :=
  if h : d.nanoseconds * factor < UInt64.size * nanosPerSecond then
    .ok ⟨d.nanoseconds * factor, h⟩
  else .error .delayOverflow

/-- A duration is its seconds and the rest. -/
theorem seconds_add_subsecond (d : Duration) :
    d.seconds * nanosPerSecond + d.subsecond = d.nanoseconds := by
  rw [seconds, subsecond, Nat.mul_comm, Nat.div_add_mod]

theorem seconds_lt (d : Duration) : d.seconds < UInt64.size :=
  Nat.div_lt_of_lt_mul (Nat.mul_comm _ _ ▸ d.inRange)

end Duration

/-- The **settings** of a session. -/
structure Settings where
  /-- How often a reliable command is sent before its failure counts. -/
  maxAttempts : UInt32 := 5
  /-- The delay before the second attempt. -/
  baseDelay : Duration := ⟨200000000, by decide⟩
  /-- Whether what becomes known in a critical section is held back until the section ends. -/
  holdArrivals : Bool := true
deriving DecidableEq

namespace Settings

/-- The delay after `attempts` attempts: the base delay, doubled with each attempt after the first,
sixteen times at most. -/
def retryDelay (s : Settings) (attempts : UInt32) : Except Fault Duration :=
  s.baseDelay.scale (1 <<< min (attempts.toNat - 1) 16)

end Settings

end Replica
