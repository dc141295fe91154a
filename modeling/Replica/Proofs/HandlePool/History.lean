import Mathlib.Data.List.Induction
import Replica.Proofs.HandlePool

/-! # Uses of a handle pool

A pool issues handles and takes them back, and callers may hand in any handle: a stale one, one that
was handed in before, one that was never issued. Which handles are in use can be read off the
answers alone, as long as fewer handles are issued than a slot has generations.

Main definitions:
* `HandlePool.Use`, `HandlePool.after`, `HandlePool.answers` — uses of a pool, what they lead to,
  and what they are told.
* `HandlePool.Stands` — a handle that was issued and has not been taken back since.
* `HandlePool.Clear`, `HandlePool.clear_of_few` — what a pool says about its handles after any
  uses. -/

namespace Replica.HandlePool

/-! ## Uses and answers -/

/-- A **use** of a pool. -/
inductive Use where
  /-- A handle is asked for. -/
  | allocate
  /-- A handle is handed in. -/
  | release (h : Handle)
deriving DecidableEq

/-- What a use is **told**. -/
inductive Answer where
  /-- This handle is issued. -/
  | issued (h : Handle)
  /-- The handle is taken back. -/
  | taken (h : Handle)
  /-- The handle is not in use, and not taken back. -/
  | refused (h : Handle)
deriving DecidableEq

/-- A pool after one use. -/
def use (p : HandlePool) : Use → HandlePool
  | .allocate => p.allocate.2
  | .release h => p.release h

/-- What one use of a pool is told. -/
def answer (p : HandlePool) : Use → Answer
  | .allocate => .issued p.allocate.1
  | .release h => if (p.release? h).isSome then .taken h else .refused h

/-- The pool **after** some uses. -/
def after (us : List Use) : HandlePool := us.foldl use empty

/-- What further uses of a pool are told, one after the other. -/
def answersFrom (p : HandlePool) : List Use → List Answer
  | [] => []
  | u :: us => p.answer u :: answersFrom (p.use u) us

/-- The **answers** to some uses. -/
def answers (us : List Use) : List Answer := answersFrom empty us

/-- The handles that are issued by some answers. -/
def issuedIn (log : List Answer) : List Handle :=
  log.filterMap fun
    | .issued h => some h
    | _ => none

/-- A handle **stands** if it was issued and has not been taken back since. -/
def Stands (log : List Answer) (h : Handle) : Prop :=
  ∃ front back, log = front ++ .issued h :: back ∧ .taken h ∉ back

/-! ## One more use -/

section Concat

variable {us : List Use} {u : Use} {log : List Answer} {a : Answer} {h : Handle}

theorem after_concat : after (us ++ [u]) = (after us).use u := by simp [after]

/-- One more use is answered by the pool that the others have led to. -/
theorem answersFrom_concat (p : HandlePool) :
    answersFrom p (us ++ [u]) = answersFrom p us ++ [(us.foldl use p).answer u] := by
  induction us generalizing p with
  | nil => rfl
  | cons v us ih => rw [List.cons_append, answersFrom, ih, answersFrom, List.cons_append,
      List.foldl_cons]

/-- One more use has one more answer. -/
theorem answers_concat : answers (us ++ [u]) = answers us ++ [(after us).answer u] :=
  answersFrom_concat empty

/-- Just the handles are issued that an answer hands out. -/
theorem mem_issuedIn : h ∈ issuedIn log ↔ .issued h ∈ log := by
  simp only [issuedIn, List.mem_filterMap]
  constructor
  · rintro ⟨a, mem, same⟩
    split at same
    · cases same
      exact mem
    · cases same
  · exact fun mem => ⟨.issued h, mem, rfl⟩

/-- What stands after one more answer was issued by it, or stood before and is not taken back. -/
theorem stands_concat : Stands (log ++ [a]) h ↔ a = .issued h ∨ a ≠ .taken h ∧ Stands log h := by
  constructor
  · rintro ⟨front, back, same, kept⟩
    rcases List.eq_nil_or_concat back with rfl | ⟨back, b, rfl⟩
    · exact .inl (List.append_inj_right' same rfl |> List.singleton_inj.mp)
    · rw [List.concat_eq_append, ← List.cons_append, ← List.append_assoc] at same
      obtain ⟨rfl, last⟩ := List.append_inj' same rfl
      obtain rfl := List.singleton_inj.mp last
      rw [List.concat_eq_append, List.mem_append, not_or, List.mem_singleton] at kept
      exact .inr ⟨Ne.symm kept.2, front, back, rfl, kept.1⟩
  · rintro (rfl | ⟨other, front, back, rfl, kept⟩)
    · exact ⟨log, [], rfl, List.not_mem_nil⟩
    · refine ⟨front, back ++ [a], by simp, ?_⟩
      rw [List.mem_append, List.mem_singleton, not_or]
      exact ⟨kept, Ne.symm other⟩

end Concat

/-! ## Counting -/

/-- A pool **counts** its handles if it counts each one in use, once. -/
def CountsLive (p : HandlePool) : Prop :=
  ∃ hs : List Handle, hs.Nodup ∧ (∀ h, h ∈ hs ↔ p.isAlive h = true) ∧ p.live = hs.length

section Counting

variable {p : HandlePool}

/-- One handle more is in use after one was issued. -/
theorem live_allocate (p : HandlePool) : p.allocate.2.live = p.live + 1 := by
  unfold allocate
  split <;> rfl

/-- One handle less is in use after one was taken back. -/
theorem live_release {h : Handle} (alive : p.isAlive h = true) :
    (p.release h).live = p.live - 1 := by
  rw [release, release?, if_pos alive]
  rfl

/-- A handle that is issued is counted. -/
theorem CountsLive.allocate (c : p.CountsLive) (sound : p.Sound) (few : p.issued < 2 ^ 32) :
    p.allocate.2.CountsLive := by
  obtain ⟨hs, nodup, mem, counted⟩ := c
  obtain ⟨-, -, new, alive, -⟩ := sound.allocate few
  have unlisted : p.allocate.1 ∉ hs := fun listed => new (knows_of_isAlive ((mem _).mp listed))
  refine ⟨p.allocate.1 :: hs, List.nodup_cons.mpr ⟨unlisted, nodup⟩, fun h => ?_, ?_⟩
  · rw [alive, List.mem_cons, mem]
  · rw [live_allocate, counted, List.length_cons]

/-- A handle that is taken back is not counted any more. -/
theorem CountsLive.release (c : p.CountsLive) (sound : p.Sound) (few : p.issued < 2 ^ 32)
    (h : Handle) : (p.release h).CountsLive := by
  obtain ⟨hs, nodup, mem, counted⟩ := c
  obtain ⟨-, -, alive, -⟩ := sound.release few h
  refine ⟨hs.erase h, nodup.erase h, fun k => ?_, ?_⟩
  · rw [alive, nodup.mem_erase_iff, mem]
  · cases used : p.isAlive h with
    | true => rw [live_release used, List.length_erase_of_mem ((mem h).mpr used), counted]
    | false =>
      have unlisted : h ∉ hs := fun listed => by
        rw [(mem h).mp listed] at used
        cases used
      rw [release_of_not_isAlive used, List.erase_of_not_mem unlisted, counted]

end Counting

/-! ## What a pool recalls -/

/-- A pool **recalls** its uses: it has issued as many handles as were asked for, no two alike,
knows those, and keeps the ones that stand in use. -/
structure Recalls (us : List Use) : Prop where
  /-- The pool is sound. -/
  sound : (after us).Sound
  /-- It has issued what was asked for. -/
  issued : (after us).issued = us.count .allocate
  /-- It knows what it has issued. -/
  knows : ∀ h, (after us).Knows h ↔ h ∈ issuedIn (answers us)
  /-- It has issued nothing twice. -/
  nodup : (issuedIn (answers us)).Nodup
  /-- What stands is in use. -/
  stands : ∀ h, (after us).isAlive h = true ↔ Stands (answers us) h
  /-- What is in use is counted. -/
  live : (after us).CountsLive

namespace Recalls

variable {us : List Use}

/-- A pool that was not used recalls all its uses. -/
theorem nil : Recalls [] where
  sound := sound_empty
  issued := rfl
  knows h := by simp [Knows, after, empty, answers, answersFrom, issuedIn]
  nodup := List.nodup_nil
  stands h := by
    refine ⟨fun alive => ?_, ?_⟩
    · rw [after, List.foldl_nil, isAlive_empty] at alive
      cases alive
    · rintro ⟨front, back, same, -⟩
      exact absurd same.symm (by simp [answers, answersFrom])
  live := ⟨[], List.nodup_nil, fun h => by simp [after], rfl⟩

/-- A pool recalls that it was asked for a handle. -/
theorem allocate (r : Recalls us) (few : us.count .allocate < 2 ^ 32) :
    Recalls (us ++ [.allocate]) := by
  obtain ⟨sound, issued, new, alive, knows⟩ := r.sound.allocate (r.issued ▸ few)
  have state : after (us ++ [.allocate]) = (after us).allocate.2 := after_concat
  have told : answers (us ++ [.allocate]) = answers us ++ [.issued (after us).allocate.1] :=
    answers_concat
  have handles : issuedIn (answers us ++ [.issued (after us).allocate.1]) =
      issuedIn (answers us) ++ [(after us).allocate.1] := by
    simp [issuedIn]
  constructor
  case sound => rw [state]; exact sound
  case issued => rw [state, issued, r.issued, List.count_append, List.count_singleton_self]
  case knows =>
    intro h
    rw [state, told, handles, knows, r.knows, List.mem_append, List.mem_singleton, or_comm]
  case nodup =>
    rw [told, handles]
    rw [r.knows] at new
    refine List.nodup_append'.mpr ⟨r.nodup, List.nodup_singleton _, ?_⟩
    exact List.disjoint_singleton.mpr new
  case stands =>
    intro h
    rw [state, told, stands_concat, alive, r.stands, Answer.issued.injEq, eq_comm]
    simp
  case live =>
    rw [state]
    exact r.live.allocate r.sound (r.issued ▸ few)

/-- A pool recalls that a handle was handed in. -/
theorem release (r : Recalls us) (few : us.count .allocate < 2 ^ 32) (h : Handle) :
    Recalls (us ++ [.release h]) := by
  obtain ⟨sound, issued, alive, knows⟩ := r.sound.release (r.issued ▸ few) h
  have state : after (us ++ [.release h]) = (after us).release h := after_concat
  have told : answers (us ++ [.release h]) =
      answers us ++ [if (after us).isAlive h then .taken h else .refused h] := by
    rw [answers_concat, answer, isSome_release?]
  have handles : issuedIn (answers (us ++ [.release h])) = issuedIn (answers us) := by
    rw [told]
    split <;> simp [issuedIn]
  constructor
  case sound => rw [state]; exact sound
  case issued =>
    rw [state, issued, r.issued, List.count_append, List.count_singleton]
    rfl
  case knows =>
    intro k
    rw [state, handles, knows, r.knows]
  case nodup =>
    rw [handles]
    exact r.nodup
  case stands =>
    intro k
    rw [state, told, stands_concat, alive, r.stands]
    cases used : (after us).isAlive h with
    | true => simp [eq_comm]
    | false =>
      -- A handle that is refused did not stand.
      have other : Stands (answers us) k → k ≠ h := by
        rintro stands rfl
        rw [(r.stands k).mpr stands] at used
        cases used
      simpa using other
  case live =>
    rw [state]
    exact r.live.release r.sound (r.issued ▸ few) h

end Recalls

/-- A pool recalls its uses as long as there are generations left. -/
theorem recalls_of_few {us : List Use} (few : us.count .allocate < 2 ^ 32) : Recalls us := by
  induction us using List.reverseRecOn with
  | nil => exact .nil
  | append_singleton us u ih =>
    have before : us.count .allocate < 2 ^ 32 :=
      Nat.lt_of_le_of_lt ((List.sublist_append_left us [u]).count_le _) few
    cases u with
    | allocate => exact (ih before).allocate before
    | release h => exact (ih before).release before h

/-! ## Handles are told apart -/

/-- A pool is **clear** about its handles after some uses if it has issued no handle twice, has
those in use that stand, takes back just those, and counts them. -/
structure Clear (us : List Use) : Prop where
  /-- A handle that is issued was not issued before. -/
  fresh : ∀ front h back, answers us = front ++ .issued h :: back → .issued h ∉ front
  /-- A handle is in use if it was issued and has not been taken back since. -/
  alive : ∀ h, (after us).isAlive h = true ↔ Stands (answers us) h
  /-- A handle is taken back just if it is in use. -/
  taken : ∀ h, ((after us).release? h).isSome = (after us).isAlive h
  /-- A handle that is not in use leaves the pool as it is. -/
  refused : ∀ h, (after us).isAlive h = false → (after us).release h = after us
  /-- The handles in use are counted. -/
  counted : (after us).CountsLive

/-- **A pool never confuses handles**, whatever handles are handed in, as long as fewer are asked
for than there are generations. -/
theorem clear_of_few {us : List Use} (few : us.count .allocate < 2 ^ 32) : Clear us := by
  have recalls := recalls_of_few few
  refine ⟨fun front h back same earlier => ?_, recalls.stands, isSome_release? _,
    fun h => release_of_not_isAlive, recalls.live⟩
  have split : issuedIn (answers us) = issuedIn front ++ h :: issuedIn back := by
    rw [same]
    simp [issuedIn]
  have nodup := recalls.nodup
  rw [split] at nodup
  exact List.disjoint_of_nodup_append nodup (mem_issuedIn.mpr earlier) List.mem_cons_self

/-- Two handles are issued, one of them is handed in twice, and its slot is issued again; then the
stale handle is handed in once more, and one that was never issued. -/
def staleHandles : List Use :=
  [.allocate, .allocate, .release ⟨0, 0⟩, .release ⟨0, 0⟩, .allocate, .release ⟨0, 0⟩,
    .release ⟨7, 0⟩]

theorem clear_of_few_staleHandles :
    staleHandles.count .allocate < 2 ^ 32 ∧ Clear staleHandles ∧
      answers staleHandles =
        [.issued ⟨0, 0⟩, .issued ⟨1, 0⟩, .taken ⟨0, 0⟩, .refused ⟨0, 0⟩, .issued ⟨0, 1⟩,
          .refused ⟨0, 0⟩, .refused ⟨7, 0⟩] ∧
      (after staleHandles).live = 2 :=
  ⟨by decide, clear_of_few (by decide), by decide, by decide⟩

end Replica.HandlePool
