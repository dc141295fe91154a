import Replica.Fault

/-! # Blocks of entity ids

A worker reserves entity ids in blocks of consecutive numbers. A block may start anywhere, so its
end need not be representable; the two ways to look at a block then fault at different points.

Main definitions:
* `IdBlock` — a first id and a count.
* `IdBlock.contains` — membership by comparison with both ends.
* `IdBlock.ids` — the ids one by one. -/

namespace Replica

/-- An **id block**: `count` consecutive ids from `first` on. -/
structure IdBlock where
  /-- The lowest id of the block. -/
  first : EntityId
  /-- How many ids the block holds. -/
  count : UInt32
deriving DecidableEq

namespace IdBlock

/-- The block of one id. -/
def single (entity : EntityId) : IdBlock := ⟨entity, 1⟩

/-- Whether `entity` lies in the block. The upper end is formed only for an id that has passed the
lower one. -/
def contains (b : IdBlock) (entity : EntityId) : Except Fault Bool :=
  if entity < b.first then .ok false
  else (addChecked b.first (.ofNat b.count.toNat)).map (decide <| entity < ·)

/-- The first `n` ids of the block, in ascending order. -/
def ids (b : IdBlock) (n : Nat) : Except Fault (List EntityId) :=
  (List.range (min n b.count.toNat)).mapM fun i => addChecked b.first (.ofNat i)

end IdBlock

end Replica
