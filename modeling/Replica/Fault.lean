import Replica.Ident

/-! # Faults

A **fault** ends the call that meets it: the call was made against its contract, or its arithmetic
leaves the range of its words. Errors that a caller is expected to handle have types of their own.

Main definitions:
* `Fault` — the causes, with their wording in `Fault.message`.
* `addChecked` — addition that faults instead of wrapping. -/

namespace Replica

/-- The causes for which a call cannot go on. -/
inductive Fault where
  /-- A locked protocol was to be changed. -/
  | protocolLocked
  /-- The component has a binding already. -/
  | componentBound (component : ComponentId)
  /-- A sum leaves the range of entity ids. -/
  | sumOverflow
  /-- A delay is too long to be represented. -/
  | delayOverflow
deriving DecidableEq

/-- The wording of a fault. -/
def Fault.message : Fault → String
  | .protocolLocked => "Protocol already locked!"
  | .componentBound component => s!"Component {component} is already bound in this protocol"
  | .sumOverflow => "attempt to add with overflow"
  | .delayOverflow => "overflow when multiplying duration by scalar"

/-- The sum of two ids, if it is an id again. -/
def addChecked (a b : EntityId) : Except Fault EntityId :=
  let sum := a.toInt + b.toInt
  if Int64.minValue.toInt ≤ sum ∧ sum ≤ Int64.maxValue.toInt then .ok (.ofInt sum)
  else .error .sumOverflow

end Replica
