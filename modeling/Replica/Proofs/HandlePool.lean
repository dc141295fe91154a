import Mathlib.Algebra.Order.BigOperators.Group.List
import Mathlib.Algebra.Order.Group.Nat
import Replica.Proofs.Graph.Growth

/-! # Handles are not issued twice

A slot counts its generations, so a pool that has issued fewer handles than there are generations
never issues a handle again. A handle that was issued stays *known* after it was taken back, and a
new handle is always one that was not known.

Main definitions:
* `HandlePool.Knows` — a handle was issued, whether or not it is still in use.
* `HandlePool.Sound` — slots and the list of vacant ones agree.
* `HandlePool.Occupies`, `HandlePool.Vacates` — a slot that was free is in use for a handle, and one
  that was in use is free for the next.
* `HandlePool.Sound.allocate`, `HandlePool.Sound.release` — what issuing a handle and taking one
  back does. -/

namespace Replica

/-! ## Slots -/

/-- How many handles a slot has given out. -/
def Slot.issued (slot : Slot) : Nat := slot.generation.toNat + slot.occupied.toNat

/-- A change of one item of a list changes a sum over it by the difference at the item. -/
theorem List.sum_map_modify {α : Type} (g : α → Nat) (f : α → α) {l : List α} {i : Nat} {a : α}
    (found : l[i]? = some a) :
    ((l.modify i f).map g).sum + g a = (l.map g).sum + g (f a) := by
  induction l generalizing i with
  | nil => cases found
  | cons b l ih =>
    cases i with
    | zero =>
      cases found
      simp only [List.modify_zero_cons, List.map_cons, List.sum_cons]
      omega
    | succ i =>
      have rest := ih (i := i) (by simpa using found)
      simp only [List.modify_succ_cons, List.map_cons, List.sum_cons]
      omega

namespace HandlePool

variable {p : HandlePool}

/-- A pool **knows** a handle that was issued: its slot has given out more handles than those before
it. -/
def Knows (p : HandlePool) (h : Handle) : Prop :=
  ∃ slot, p.slots[h.index.toNat]? = some slot ∧ h.generation.toNat < slot.issued

/-- A pool is **sound** if its list of vacant slots names each at most once, and every slot was in
use. -/
structure Sound (p : HandlePool) : Prop where
  /-- No slot is listed twice. -/
  nodup : p.free.Nodup
  /-- What is listed is a vacant slot. -/
  vacant : ∀ index ∈ p.free, ∃ slot, p.slots[index.toNat]? = some slot ∧ slot.occupied = false
  /-- Every slot has given out a handle. -/
  used : ∀ (i : Nat) (slot : Slot), p.slots[i]? = some slot → 0 < slot.issued

theorem sound_empty : empty.Sound := ⟨List.nodup_nil, by simp [empty], by simp [empty]⟩

/-- A handle is in use if its slot is occupied in the same generation. -/
theorem isAlive_iff {h : Handle} : p.isAlive h = true ↔
    ∃ slot, p.slots[h.index.toNat]? = some slot ∧ slot.occupied = true ∧
      slot.generation = h.generation := by
  unfold isAlive
  cases p.slots[h.index.toNat]? <;> simp

/-- A handle in use is known. -/
theorem knows_of_isAlive {h : Handle} (alive : p.isAlive h = true) : p.Knows h := by
  obtain ⟨slot, found, occupied, generation⟩ := isAlive_iff.mp alive
  refine ⟨slot, found, ?_⟩
  rw [Slot.issued, occupied, generation]
  exact Nat.lt_succ_self _

/-- A slot has given out no more handles than the pool. -/
theorem issued_le {i : Nat} {slot : Slot} (found : p.slots[i]? = some slot) :
    slot.issued ≤ p.issued := by
  have mem : slot ∈ p.slots.toList := Array.mem_toList_iff.mpr (Array.mem_of_getElem? found)
  exact List.le_sum_of_mem (List.mem_map.mpr ⟨slot, mem, rfl⟩)

/-! ## A change of one slot -/

section Change

variable {p' : HandlePool} {i : Nat} {new : Slot}

/-- The slots after one of them is changed. -/
theorem getElem?_modify_slot {f : Slot → Slot} {slot : Slot} (found : p.slots[i]? = some slot)
    (j : Nat) : (p.slots.modify i f)[j]? = if i = j then some (f slot) else p.slots[j]? := by
  rw [Array.getElem?_modify]
  split
  · subst j
    rw [found]
    rfl
  · rfl

/-- How many handles are issued after a change of one slot. -/
theorem issued_modify_slot {f : Slot → Slot} {slot : Slot} (found : p.slots[i]? = some slot)
    (free : List UInt32) (live : Nat) :
    (HandlePool.mk (p.slots.modify i f) free live).issued + slot.issued =
      p.issued + (f slot).issued := by
  unfold HandlePool.issued
  rw [Array.toList_modify]
  exact List.sum_map_modify Slot.issued f (by simpa using found)

/-- What is known after a change of one slot. -/
theorem knows_of_slot (slots : ∀ j, p'.slots[j]? = if i = j then some new else p.slots[j]?)
    (h : Handle) : p'.Knows h ↔
      if i = h.index.toNat then h.generation.toNat < new.issued else p.Knows h := by
  unfold Knows
  rw [slots]
  split <;> simp

/-- What is in use after a change of one slot. -/
theorem isAlive_of_slot (slots : ∀ j, p'.slots[j]? = if i = j then some new else p.slots[j]?)
    (h : Handle) : p'.isAlive h = true ↔
      if i = h.index.toNat then new.occupied = true ∧ new.generation = h.generation
      else p.isAlive h = true := by
  rw [isAlive_iff, isAlive_iff, slots]
  split <;> simp

end Change

/-- A handle is told apart by its slot and its generation. -/
theorem handle_eq_iff {h k : Handle} (index : k.index.toNat = h.index.toNat) :
    h = k ↔ h.generation = k.generation := by
  constructor
  · exact congrArg Handle.generation
  · intro generation
    obtain ⟨i, g⟩ := h
    obtain ⟨i', g'⟩ := k
    have index : i = i' := (UInt32.toNat_inj.mp index).symm
    have generation : g = g' := generation
    rw [index, generation]

/-- A pool **occupies** a slot for a handle. The slot was vacant in the generation of the handle, or
was not there, and is in use afterwards; no other slot changes. -/
structure Occupies (p : HandlePool) (h : Handle) (p' : HandlePool) : Prop where
  /-- The slot was free. -/
  free : p.slots[h.index.toNat]? = some ⟨h.generation, false⟩ ∨
    p.slots[h.index.toNat]? = none ∧ h.generation = 0
  /-- It is in use, and the others are as they were. -/
  slots : ∀ j, p'.slots[j]? = if h.index.toNat = j then some ⟨h.generation, true⟩ else p.slots[j]?

namespace Occupies

variable {h k : Handle} {p' : HandlePool}

/-- Nothing that names the slot was in use. -/
theorem idle (o : p.Occupies h p') (here : h.index.toNat = k.index.toNat) :
    p.isAlive k = false := by
  rw [isAlive, ← here]
  rcases o.free with vacant | ⟨none, -⟩
  · rw [vacant]
    rfl
  · rw [none]

/-- What names the slot was known if its generation is over. -/
theorem knows_before (o : p.Occupies h p') (here : h.index.toNat = k.index.toNat) :
    p.Knows k ↔ k.generation.toNat < h.generation.toNat := by
  rw [Knows, ← here]
  rcases o.free with vacant | ⟨none, zero⟩
  · rw [vacant]
    simp [Slot.issued]
  · rw [none, zero]
    simp

/-- The handle was not known. -/
theorem unknown (o : p.Occupies h p') : ¬p.Knows h := by
  rw [o.knows_before rfl]
  exact Nat.lt_irrefl _

/-- The handle is in use, and so is what was in use before. -/
theorem isAlive (o : p.Occupies h p') (k : Handle) :
    p'.isAlive k = true ↔ k = h ∨ p.isAlive k = true := by
  rw [isAlive_of_slot o.slots]
  split
  · rename_i here
    rw [o.idle here, or_iff_left Bool.false_ne_true, handle_eq_iff here, and_iff_right rfl, eq_comm]
  · rename_i apart
    rw [or_iff_right]
    rintro rfl
    exact apart rfl

/-- The handle is known, and so is what was known before. -/
theorem knows (o : p.Occupies h p') (k : Handle) : p'.Knows k ↔ k = h ∨ p.Knows k := by
  rw [knows_of_slot o.slots]
  split
  · rename_i here
    have counts : (⟨h.generation, true⟩ : Slot).issued = h.generation.toNat + 1 := rfl
    rw [o.knows_before here, handle_eq_iff here, counts, ← UInt32.toNat_inj]
    omega
  · rename_i apart
    rw [or_iff_right]
    rintro rfl
    exact apart rfl

/-- Every slot has given out a handle, if every slot had before. -/
theorem used (o : p.Occupies h p')
    (used : ∀ (i : Nat) (slot : Slot), p.slots[i]? = some slot → 0 < slot.issued) (i : Nat)
    (slot : Slot) (stored : p'.slots[i]? = some slot) : 0 < slot.issued := by
  rw [o.slots] at stored
  split at stored
  · cases stored
    exact Nat.succ_pos _
  · exact used i slot stored

end Occupies

/-- A pool **vacates** the slot of a handle that was in use. The next generation of the slot is free
afterwards; no other slot changes. -/
structure Vacates (p : HandlePool) (h : Handle) (p' : HandlePool) : Prop where
  /-- The slot was in use. -/
  taken : p.slots[h.index.toNat]? = some ⟨h.generation, true⟩
  /-- There is a next generation. -/
  next : h.generation.toNat + 1 < 2 ^ 32
  /-- It is free, and the others are as they were. -/
  slots : ∀ j, p'.slots[j]? =
    if h.index.toNat = j then some ⟨h.generation + 1, false⟩ else p.slots[j]?

namespace Vacates

variable {h k : Handle} {p' : HandlePool}

/-- The slot has given out no handle more. -/
theorem issued (v : p.Vacates h p') :
    (⟨h.generation + 1, false⟩ : Slot).issued = (⟨h.generation, true⟩ : Slot).issued := by
  rw [Slot.issued, UInt32.toNat_add]
  exact Nat.mod_eq_of_lt v.next

/-- The handle is not in use any more, and the others are if they were. -/
theorem isAlive (v : p.Vacates h p') (k : Handle) :
    p'.isAlive k = true ↔ k ≠ h ∧ p.isAlive k = true := by
  rw [isAlive_of_slot v.slots]
  split
  · rename_i here
    constructor
    · rintro ⟨⟨⟩, -⟩
    · rintro ⟨differs, used⟩
      obtain ⟨other, stored, -, same⟩ := isAlive_iff.mp used
      rw [← here, v.taken] at stored
      cases stored
      exact absurd ((handle_eq_iff here).mpr same.symm) differs
  · rename_i apart
    refine (and_iff_right ?_).symm
    rintro rfl
    exact apart rfl

/-- What was known is known. -/
theorem knows (v : p.Vacates h p') (k : Handle) : p'.Knows k ↔ p.Knows k := by
  rw [knows_of_slot v.slots]
  split
  · rename_i here
    rw [Knows, ← here, v.taken, v.issued]
    simp
  · rfl

/-- Every slot has given out a handle, if every slot had before. -/
theorem used (v : p.Vacates h p')
    (used : ∀ (i : Nat) (slot : Slot), p.slots[i]? = some slot → 0 < slot.issued) (i : Nat)
    (slot : Slot) (stored : p'.slots[i]? = some slot) : 0 < slot.issued := by
  rw [v.slots] at stored
  split at stored
  · cases stored
    rw [v.issued]
    exact Nat.succ_pos _
  · exact used i slot stored

end Vacates

/-- A handle in use is taken back: its slot is vacated, and listed as vacant. -/
theorem release_of_isAlive {h : Handle} (alive : p.isAlive h = true) : p.release h =
    ⟨p.slots.modify h.index.toNat fun slot => ⟨slot.generation + 1, false⟩, h.index :: p.free,
      p.live - 1⟩ := by
  rw [HandlePool.release, release?, if_pos alive, Option.getD_some]

/-- The slot of a handle in use. -/
theorem taken_of_isAlive {h : Handle} (alive : p.isAlive h = true) :
    p.slots[h.index.toNat]? = some ⟨h.generation, true⟩ := by
  obtain ⟨⟨generation, occupied⟩, found, rfl, rfl⟩ := isAlive_iff.mp alive
  exact found

/-- A handle that is taken back leaves its slot to the next generation. -/
theorem vacates_release (few : p.issued < 2 ^ 32) {h : Handle} (alive : p.isAlive h = true) :
    p.Vacates h (p.release h) := by
  have found := taken_of_isAlive alive
  rw [release_of_isAlive alive]
  -- The generation does not wrap, because the slot has not given out so many handles.
  exact ⟨found, Nat.lt_of_le_of_lt (issued_le found) few,
    getElem?_modify_slot (f := fun slot => ⟨slot.generation + 1, false⟩) found⟩

/-- The pool counts as many handles as before. -/
theorem issued_release (few : p.issued < 2 ^ 32) {h : Handle} (alive : p.isAlive h = true) :
    (p.release h).issued = p.issued := by
  have counts := (vacates_release few alive).issued
  have sum := issued_modify_slot (f := fun slot => ⟨slot.generation + 1, false⟩)
    (taken_of_isAlive alive) (h.index :: p.free) (p.live - 1)
  rw [release_of_isAlive alive]
  dsimp only at sum
  omega

namespace Sound

/-- A sound pool has no more slots than it has issued handles. -/
theorem size_le (sound : p.Sound) : p.slots.size ≤ p.issued := by
  have each : ∀ slot ∈ p.slots.toList, 1 ≤ slot.issued := by
    intro slot mem
    obtain ⟨i, found⟩ := List.getElem?_of_mem mem
    exact sound.used i slot (by simpa using found)
  have counted := List.card_nsmul_le_sum (p.slots.toList.map Slot.issued) 1 (by simpa using each)
  have times : p.slots.size • 1 = p.slots.size := by simp
  rw [List.length_map, Array.length_toList, times] at counted
  exact counted

/-- The slot that was vacated last is used again, in the generation that it has. -/
theorem allocate_of_free (sound : p.Sound) {index : UInt32} {rest : List UInt32}
    (free : p.free = index :: rest) : ∃ generation,
      p.slots[index.toNat]? = some ⟨generation, false⟩ ∧
        p.allocate = (⟨index, generation⟩,
          ⟨p.slots.modify index.toNat ({ · with occupied := true }), rest, p.live + 1⟩) := by
  obtain ⟨⟨generation, occupied⟩, found, vacant⟩ := sound.vacant index (by simp [free])
  cases vacant
  refine ⟨generation, found, ?_⟩
  simp only [HandlePool.allocate, free, found, Option.map_some, Option.getD_some]

/-- A handle is issued for a slot that is vacant, or new. -/
theorem occupies_allocate (sound : p.Sound) (few : p.issued < 2 ^ 32) :
    p.Occupies p.allocate.1 p.allocate.2 := by
  cases free : p.free with
  | cons index rest =>
    obtain ⟨generation, found, issued⟩ := sound.allocate_of_free free
    rw [issued]
    exact ⟨.inl found, getElem?_modify_slot (f := ({ · with occupied := true })) found⟩
  | nil =>
    -- The new slot is beyond all that any known handle names.
    have bound : p.slots.size < 2 ^ 32 := Nat.lt_of_le_of_lt sound.size_le few
    have index : (UInt32.ofNat p.slots.size).toNat = p.slots.size :=
      UInt32.toNat_ofNat_of_lt' bound
    have issued : p.allocate =
        (⟨.ofNat p.slots.size, 0⟩, ⟨p.slots.push ⟨0, true⟩, [], p.live + 1⟩) := by
      rw [HandlePool.allocate, free]
    rw [issued]
    refine ⟨.inr ⟨by simp [index], rfl⟩, fun j => ?_⟩
    rw [Array.getElem?_push, index]
    simp only [eq_comm]

/-- The pool counts one handle more. -/
theorem issued_allocate (sound : p.Sound) : p.allocate.2.issued = p.issued + 1 := by
  cases free : p.free with
  | cons index rest =>
    obtain ⟨generation, found, issued⟩ := sound.allocate_of_free free
    have sum := issued_modify_slot (f := ({ · with occupied := true })) found rest (p.live + 1)
    have counts : (⟨generation, true⟩ : Slot).issued =
        (⟨generation, false⟩ : Slot).issued + 1 := rfl
    rw [issued]
    dsimp only at sum ⊢
    omega
  | nil =>
    rw [HandlePool.allocate, free]
    simp [HandlePool.issued]

/-- What is listed as vacant after a handle was issued is vacant, and listed once. -/
theorem vacant_allocate (sound : p.Sound) : p.allocate.2.free.Nodup ∧
    ∀ index ∈ p.allocate.2.free, ∃ slot,
      p.allocate.2.slots[index.toNat]? = some slot ∧ slot.occupied = false := by
  cases free : p.free with
  | cons index rest =>
    obtain ⟨generation, found, issued⟩ := sound.allocate_of_free free
    have listed := sound.nodup
    rw [free, List.nodup_cons] at listed
    rw [issued]
    refine ⟨listed.2, fun other mem => ?_⟩
    obtain ⟨kept, stored, unused⟩ := sound.vacant other (by simp [free, mem])
    have apart : index.toNat ≠ other.toNat := fun same =>
      listed.1 (UInt32.toNat_inj.mp same ▸ mem)
    refine ⟨kept, ?_, unused⟩
    rw [getElem?_modify_slot (f := ({ · with occupied := true })) found, if_neg apart, stored]
  | nil =>
    rw [HandlePool.allocate, free]
    exact ⟨List.nodup_nil, fun _ mem => absurd mem List.not_mem_nil⟩

/-- **A handle that is issued was not known**, and nothing else changes. -/
theorem allocate (sound : p.Sound) (few : p.issued < 2 ^ 32) :
    p.allocate.2.Sound ∧ p.allocate.2.issued = p.issued + 1 ∧ ¬p.Knows p.allocate.1 ∧
      (∀ h, p.allocate.2.isAlive h = true ↔ h = p.allocate.1 ∨ p.isAlive h = true) ∧
      ∀ h, p.allocate.2.Knows h ↔ h = p.allocate.1 ∨ p.Knows h := by
  have occupies := sound.occupies_allocate few
  obtain ⟨nodup, vacant⟩ := sound.vacant_allocate
  exact ⟨⟨nodup, vacant, occupies.used sound.used⟩, sound.issued_allocate, occupies.unknown,
    occupies.isAlive, occupies.knows⟩

/-- What is listed as vacant after a handle was taken back is vacant, and listed once. -/
theorem vacant_release (sound : p.Sound) (few : p.issued < 2 ^ 32) {h : Handle}
    (alive : p.isAlive h = true) : (p.release h).free.Nodup ∧
      ∀ index ∈ (p.release h).free, ∃ slot,
        (p.release h).slots[index.toNat]? = some slot ∧ slot.occupied = false := by
  have vacates := vacates_release few alive
  have free : (p.release h).free = h.index :: p.free := by rw [release_of_isAlive alive]
  rw [free]
  refine ⟨List.nodup_cons.mpr ⟨?_, sound.nodup⟩, ?_⟩
  · intro listed
    obtain ⟨slot, stored, vacant⟩ := sound.vacant h.index listed
    cases vacates.taken.symm.trans stored
    cases vacant
  · intro index mem
    by_cases here : h.index.toNat = index.toNat
    · exact ⟨_, (vacates.slots _).trans (if_pos here), rfl⟩
    · rcases List.mem_cons.mp mem with rfl | listed
      · exact absurd rfl here
      · obtain ⟨slot, stored, vacant⟩ := sound.vacant index listed
        exact ⟨slot, (vacates.slots _).trans ((if_neg here).trans stored), vacant⟩

/-- **A handle that is taken back stays known**, and is not in use any more. -/
theorem release (sound : p.Sound) (few : p.issued < 2 ^ 32) (h : Handle) :
    (p.release h).Sound ∧ (p.release h).issued = p.issued ∧
      (∀ k, (p.release h).isAlive k = true ↔ k ≠ h ∧ p.isAlive k = true) ∧
      ∀ k, (p.release h).Knows k ↔ p.Knows k := by
  cases alive : p.isAlive h with
  | false =>
    rw [release_of_not_isAlive alive]
    refine ⟨sound, rfl, fun k => (and_iff_right_of_imp ?_).symm, fun _ => Iff.rfl⟩
    rintro used rfl
    rw [alive] at used
    cases used
  | true =>
    have vacates := vacates_release few alive
    obtain ⟨nodup, vacant⟩ := sound.vacant_release few alive
    exact ⟨⟨nodup, vacant, vacates.used sound.used⟩, issued_release few alive, vacates.isAlive,
      vacates.knows⟩

end Sound

end HandlePool

end Replica
