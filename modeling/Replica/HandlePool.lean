import Replica.Ident

/-! # The handle pool

Handles are issued from numbered slots. A slot that is vacated is used again, under the next
generation, so a handle that somebody kept never names the later occupant.

Main definitions:
* `HandlePool.allocate`, `HandlePool.release?` — issue a handle and take one back.
* `HandlePool.isAlive` — the view of the pool: which handles are in use. -/

namespace Replica

/-- A **slot** of the pool. -/
structure Slot where
  /-- How often the slot has been vacated. -/
  generation : UInt32
  /-- Whether the slot is in use. -/
  occupied : Bool
deriving DecidableEq

/-- A **handle pool**: all slots ever opened, and the vacated ones with the latest on top. -/
structure HandlePool where
  /-- The slots, by index. -/
  slots : Array Slot
  /-- The indices of vacated slots, the next one to be used first. -/
  free : List UInt32
  /-- How many handles are in use. -/
  live : Nat
deriving DecidableEq

namespace HandlePool

/-- A pool that has issued nothing. -/
def empty : HandlePool := ⟨#[], [], 0⟩

/-- Whether `h` is in use: its slot is occupied, in the generation that `h` names. -/
def isAlive (p : HandlePool) (h : Handle) : Bool :=
  match p.slots[h.index.toNat]? with
  | some slot => slot.occupied && slot.generation == h.generation
  | none => false

/-- Issues a handle: the slot vacated last, or a new slot if none is vacant. -/
def allocate (p : HandlePool) : Handle × HandlePool :=
  match p.free with
  | index :: free =>
    let generation := (p.slots[index.toNat]?.map Slot.generation).getD 0
    (⟨index, generation⟩,
      { slots := p.slots.modify index.toNat ({ · with occupied := true })
        free, live := p.live + 1 })
  | [] =>
    (⟨.ofNat p.slots.size, 0⟩, { p with slots := p.slots.push ⟨0, true⟩, live := p.live + 1 })

/-- Takes back a handle that is in use; any other handle is refused. -/
def release? (p : HandlePool) (h : Handle) : Option HandlePool :=
  if p.isAlive h then
    some {
      slots := p.slots.modify h.index.toNat fun slot => ⟨slot.generation + 1, false⟩
      free := h.index :: p.free
      live := p.live - 1 }
  else none

/-- Takes back a handle if it is in use. -/
def release (p : HandlePool) (h : Handle) : HandlePool := (p.release? h).getD p

/-- Whether no handle is in use. -/
def isEmpty (p : HandlePool) : Bool := p.live == 0

@[simp] theorem isAlive_empty (h : Handle) : empty.isAlive h = false := by simp [isAlive, empty]

theorem isSome_release? (p : HandlePool) (h : Handle) : (p.release? h).isSome = p.isAlive h := by
  unfold release?
  split <;> simp_all

theorem release_of_not_isAlive {p : HandlePool} {h : Handle} (dead : p.isAlive h = false) :
    p.release h = p := by
  simp [release, release?, dead]

end HandlePool

end Replica
