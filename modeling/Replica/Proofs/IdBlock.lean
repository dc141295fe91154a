import Mathlib.Algebra.Group.Nat.Defs
import Mathlib.Algebra.Group.Int.Defs
import Replica.IdBlock

/-! # Membership in a block of ids

A block can list its ids and can compare an id with its two ends. Where all its ids are ids, the
list is complete and the comparison agrees with it, except for a block that reaches up to the
highest id: there the upper end, which lies one behind the last id, is no id any more, and the
comparison faults for every id that has passed the lower end.

Main definitions:
* `IdBlock.IsRepresentable` — all ids of a block are ids.
* `IdBlock.members` — the ids of a block, as sums that need no check.
* `IdBlock.ReachesTop` — the last id of a block is the highest.
* `IdBlock.agrees_unless_top` — the two ways to look at a block. -/

namespace Replica.IdBlock

variable {b : IdBlock} {entity : EntityId} {n : Nat}

/-- A block is **representable** if all of its ids are ids: it is empty, or its last id is one. -/
def IsRepresentable (b : IdBlock) : Prop :=
  b.count = 0 ∨ b.first.toInt + b.count.toNat - 1 ≤ Int64.maxValue.toInt

/-- A block **reaches the top** if its last id is the highest of all. -/
def ReachesTop (b : IdBlock) : Prop := b.first.toInt + b.count.toNat - 1 = Int64.maxValue.toInt

instance : Decidable b.IsRepresentable := inferInstanceAs (Decidable (_ ∨ _))

instance : Decidable b.ReachesTop := inferInstanceAs (Decidable (_ = _))

/-- The **members** of a block, in ascending order. -/
def members (b : IdBlock) : List EntityId :=
  (List.range b.count.toNat).map fun i : Nat => .ofInt (b.first.toInt + i)

/-- Adding a count to an id is exact as long as the sum is an id. -/
theorem addChecked_ofNat (a : EntityId) (small : n < 2 ^ 63) :
    addChecked a (.ofNat n) =
      if a.toInt + n ≤ Int64.maxValue.toInt then .ok (.ofInt (a.toInt + n))
      else .error .sumOverflow := by
  have above : Int64.minValue.toInt ≤ a.toInt + n := by
    have low := Int64.minValue_le_toInt a
    omega
  rw [addChecked, Int64.toInt_ofNat_of_lt small]
  simp only [above, true_and]

/-- The count of a block is far from the end of the range. -/
theorem count_lt (b : IdBlock) : b.count.toNat < 2 ^ 63 :=
  Nat.lt_trans b.count.toNat_lt (by decide)

/-- In a representable block the upper end is at most one behind the highest id. -/
theorem IsRepresentable.le (fits : b.IsRepresentable) :
    b.first.toInt + b.count.toNat - 1 ≤ Int64.maxValue.toInt := by
  rcases fits with empty | last
  · have below := Int64.toInt_le b.first
    have none : b.count.toNat = 0 := by rw [empty]; rfl
    omega
  · exact last

/-- The members of a representable block are consecutive. -/
theorem map_toInt_members (fits : b.IsRepresentable) :
    b.members.map Int64.toInt =
      (List.range b.count.toNat).map fun i : Nat => b.first.toInt + i := by
  have last := fits.le
  have low := Int64.le_toInt b.first
  rw [Int64.toInt_maxValue] at last
  rw [members, List.map_map]
  refine List.map_congr_left fun i mem => ?_
  rw [List.mem_range] at mem
  exact Int64.toInt_ofInt_of_le (by omega) (by omega)

/-- An id is a member of a representable block if it lies between its ends. -/
theorem mem_members (fits : b.IsRepresentable) :
    entity ∈ b.members ↔
      b.first.toInt ≤ entity.toInt ∧ entity.toInt < b.first.toInt + b.count.toNat := by
  have listed : entity ∈ b.members ↔ entity.toInt ∈ b.members.map Int64.toInt := by
    simp [Int64.toInt_inj]
  rw [listed, map_toInt_members fits]
  simp only [List.mem_map, List.mem_range]
  constructor
  · rintro ⟨i, below, same⟩
    omega
  · rintro ⟨above, below⟩
    exact ⟨(entity.toInt - b.first.toInt).toNat, by omega, by omega⟩

/-- Steps that all succeed give the list of their results. -/
theorem mapM_eq_ok {α β ε : Type} {f : α → Except ε β} {g : α → β} {l : List α}
    (each : ∀ a ∈ l, f a = .ok (g a)) : l.mapM f = .ok (l.map g) := by
  induction l with
  | nil => rfl
  | cons a l ih =>
    rw [List.forall_mem_cons] at each
    rw [List.mapM_cons, each.1, ih each.2]
    rfl

/-- A representable block lists its members. -/
theorem ids_eq (fits : b.IsRepresentable) (n : Nat) : b.ids n = .ok (b.members.take n) := by
  have last := fits.le
  rw [members, ← List.map_take, List.take_range]
  refine mapM_eq_ok fun i mem => ?_
  have below : i < b.count.toNat :=
    Nat.lt_of_lt_of_le (List.mem_range.mp mem) (Nat.min_le_right n _)
  rw [addChecked_ofNat b.first (Nat.lt_trans below b.count_lt), if_pos (by omega)]

/-- The comparison with both ends agrees with the members, unless the block reaches the top and the
id has passed the lower end. -/
theorem contains_eq (fits : b.IsRepresentable) (entity : EntityId) :
    b.contains entity =
      if b.ReachesTop ∧ b.first ≤ entity then .error .sumOverflow
      else .ok (decide (entity ∈ b.members)) := by
  have last := fits.le
  rw [contains, addChecked_ofNat b.first b.count_lt]
  simp only [Int64.lt_iff_toInt_lt, Int64.le_iff_toInt_le, ReachesTop, mem_members fits]
  by_cases below : entity.toInt < b.first.toInt
  · -- The upper end is not looked at.
    rw [if_pos below, if_neg (by omega), decide_eq_false (by omega)]
  · have passed : b.first.toInt ≤ entity.toInt := Int.not_lt.mp below
    rw [if_neg below]
    by_cases top : b.first.toInt + b.count.toNat - 1 = Int64.maxValue.toInt
    · rw [if_neg (by omega), if_pos ⟨top, passed⟩]
      rfl
    · rw [if_pos (by omega), if_neg (fun both => top both.1)]
      have low := Int64.le_toInt b.first
      rw [Int64.toInt_maxValue] at last top
      have upper : (Int64.ofInt (b.first.toInt + b.count.toNat)).toInt =
          b.first.toInt + b.count.toNat := Int64.toInt_ofInt_of_le (by omega) (by omega)
      simp only [Except.map, upper, passed, true_and]

/-- **The two ways to look at a block agree unless it reaches the top.** A representable block lists
as many ids as it counts, one after the other, and an id is found between its ends just if it is
listed; but where the last id is the highest, the comparison faults for every id from the first one
on. -/
theorem agrees_unless_top (fits : b.IsRepresentable) :
    (∀ n, b.ids n = .ok (b.members.take n)) ∧ b.members.length = b.count.toNat ∧
      b.members.map Int64.toInt =
        ((List.range b.count.toNat).map fun i : Nat => b.first.toInt + i) ∧
      ∀ entity, b.contains entity =
        if b.ReachesTop ∧ b.first ≤ entity then .error .sumOverflow
        else .ok (decide (entity ∈ b.members)) :=
  ⟨ids_eq fits, by simp [members], map_toInt_members fits, contains_eq fits⟩

/-- The four highest ids. -/
def highestFour : IdBlock := ⟨Int64.maxValue - 3, 4⟩

theorem agrees_unless_top_highestFour :
    highestFour.IsRepresentable ∧ highestFour.ReachesTop ∧
      (∀ n, highestFour.ids n = .ok (highestFour.members.take n)) ∧
      highestFour.contains (Int64.maxValue - 4) = .ok false ∧
      highestFour.contains Int64.maxValue = .error .sumOverflow := by
  have fits : highestFour.IsRepresentable := by decide
  obtain ⟨ids, -, -, found⟩ := agrees_unless_top fits
  exact ⟨fits, by decide, ids, (found _).trans (by rfl), (found _).trans (by rfl)⟩

/-- A block that lists its ids does not find one of them between its ends. -/
theorem contains_highestFour :
    highestFour.IsRepresentable ∧
      highestFour.ids 4 = .ok [Int64.maxValue - 3, Int64.maxValue - 2, Int64.maxValue - 1,
        Int64.maxValue] ∧
      highestFour.contains (Int64.maxValue - 1) = .error .sumOverflow :=
  ⟨by decide, by rfl, by rfl⟩

end Replica.IdBlock
