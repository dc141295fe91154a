import Replica.Ident

/-! # Waiters

Several parts keep note of who waits for which reference. The note is indexed by reference, so that
all who wait for one are found at once, and a reference that nobody waits for has no entry.

Main definitions:
* `Waiters.of` — the view of a note: those who wait for a reference.
* `Waiters.enter`, `Waiters.strike`, `Waiters.clear` — somebody begins to wait, stops, and all stop.
* `Waiters.enterAll`, `Waiters.strikeAll` — the same for one who waits for several references.
* `Waiters.IsTight` — no entry is empty, which every operation keeps. -/

namespace Replica

/-- The **waiters** of each reference that is waited for. -/
structure Waiters (α : Type) [Ord α] where
  /-- Those who wait, by reference. -/
  entries : Std.ExtTreeMap Reference (Std.ExtTreeSet α)

namespace Waiters

variable {α : Type} [Ord α]

/-- Nobody waits. -/
def empty : Waiters α := ⟨∅⟩

/-- Those who wait for `r`. -/
def of (w : Waiters α) (r : Reference) : Std.ExtTreeSet α := w.entries[r]?.getD ∅

/-- The number of references waited for. -/
def size (w : Waiters α) : Nat := w.entries.size

/-- Whether nobody waits. -/
def isEmpty (w : Waiters α) : Bool := w.entries.isEmpty

/-- No entry is empty: who looks a reference up finds somebody. -/
def IsTight (w : Waiters α) : Prop := ∀ r : Reference, w.entries[r]? ≠ some ∅

/-- Nobody waits for `r` any more. -/
def clear (w : Waiters α) (r : Reference) : Waiters α := ⟨w.entries.erase r⟩

@[simp] theorem of_empty (r : Reference) : (empty : Waiters α).of r = ∅ := by simp [of, empty]

@[simp] theorem of_clear (w : Waiters α) (r q : Reference) :
    (w.clear r).of q = if r = q then ∅ else w.of q := by
  simp only [of, clear, Std.ExtTreeMap.getElem?_erase]
  split <;> simp_all

theorem isTight_empty : (empty : Waiters α).IsTight := fun r => by simp [empty]

theorem IsTight.clear {w : Waiters α} (h : w.IsTight) (r : Reference) : (w.clear r).IsTight := by
  intro q
  simp only [Waiters.clear, Std.ExtTreeMap.getElem?_erase]
  split
  · nofun
  · exact h q

variable [Std.TransOrd α]

/-- Enters `a` among those who wait for `r`. -/
def enter (w : Waiters α) (a : α) (r : Reference) : Waiters α :=
  ⟨w.entries.insert r ((w.of r).insert a)⟩

/-- Strikes `a` from those who wait for `r`. -/
def strike (w : Waiters α) (a : α) (r : Reference) : Waiters α :=
  let left := (w.of r).erase a
  ⟨if left.isEmpty then w.entries.erase r else w.entries.insert r left⟩

@[simp] theorem of_enter (w : Waiters α) (a : α) (r q : Reference) :
    (w.enter a r).of q = if r = q then (w.of r).insert a else w.of q := by
  unfold enter
  generalize (w.of r).insert a = grown
  simp only [of, Std.ExtTreeMap.getElem?_insert]
  split <;> simp_all

@[simp] theorem of_strike (w : Waiters α) (a : α) (r q : Reference) :
    (w.strike a r).of q = if r = q then (w.of r).erase a else w.of q := by
  unfold strike
  generalize (w.of r).erase a = left
  dsimp only [of]
  split
  · rename_i none
    rw [Std.ExtTreeSet.isEmpty_iff.mp none]
    simp only [Std.ExtTreeMap.getElem?_erase]
    split <;> simp_all
  · simp only [Std.ExtTreeMap.getElem?_insert]
    split <;> simp_all

theorem IsTight.enter {w : Waiters α} (h : w.IsTight) (a : α) (r : Reference) :
    (w.enter a r).IsTight := by
  intro q
  simp only [Waiters.enter, Std.ExtTreeMap.getElem?_insert]
  split
  · simp
  · exact h q

theorem IsTight.strike {w : Waiters α} (h : w.IsTight) (a : α) (r : Reference) :
    (w.strike a r).IsTight := by
  intro q
  unfold Waiters.strike
  dsimp only
  split
  · exact h.clear r q
  · rename_i some
    simp only [Std.ExtTreeMap.getElem?_insert]
    split
    · simp_all
    · exact h q

/-- Enters `a` among those who wait for each of some references. -/
def enterAll (w : Waiters α) (a : α) (rs : List Reference) : Waiters α := rs.foldl (·.enter a) w

/-- Strikes `a` from those who wait for each of some references. -/
def strikeAll (w : Waiters α) (a : α) (rs : List Reference) : Waiters α := rs.foldl (·.strike a) w

@[simp] theorem enterAll_nil (w : Waiters α) (a : α) : w.enterAll a [] = w := rfl

@[simp] theorem enterAll_cons (w : Waiters α) (a : α) (r : Reference) (rs : List Reference) :
    w.enterAll a (r :: rs) = (w.enter a r).enterAll a rs := rfl

@[simp] theorem strikeAll_nil (w : Waiters α) (a : α) : w.strikeAll a [] = w := rfl

@[simp] theorem strikeAll_cons (w : Waiters α) (a : α) (r : Reference) (rs : List Reference) :
    w.strikeAll a (r :: rs) = (w.strike a r).strikeAll a rs := rfl

theorem IsTight.enterAll {w : Waiters α} (h : w.IsTight) (a : α) (rs : List Reference) :
    (w.enterAll a rs).IsTight := by
  induction rs generalizing w with
  | nil => exact h
  | cons r rs ih => exact ih (h.enter a r)

theorem IsTight.strikeAll {w : Waiters α} (h : w.IsTight) (a : α) (rs : List Reference) :
    (w.strikeAll a rs).IsTight := by
  induction rs generalizing w with
  | nil => exact h
  | cons r rs ih => exact ih (h.strike a r)

variable [Std.LawfulEqOrd α]

theorem mem_of_enterAll {w : Waiters α} {a b : α} {rs : List Reference} {q : Reference} :
    b ∈ (w.enterAll a rs).of q ↔ q ∈ rs ∧ a = b ∨ b ∈ w.of q := by
  induction rs generalizing w with
  | nil => simp
  | cons r rs ih =>
    rw [enterAll_cons, ih, of_enter]
    split
    · subst r; simp [Std.ExtTreeSet.mem_insert]; grind
    · simp; grind

theorem mem_of_strikeAll {w : Waiters α} {a b : α} {rs : List Reference} {q : Reference} :
    b ∈ (w.strikeAll a rs).of q ↔ ¬(q ∈ rs ∧ a = b) ∧ b ∈ w.of q := by
  induction rs generalizing w with
  | nil => simp
  | cons r rs ih =>
    rw [strikeAll_cons, ih, of_strike]
    split
    · subst r; simp [Std.ExtTreeSet.mem_erase]; grind
    · simp; grind

end Waiters

end Replica
