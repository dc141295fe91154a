import Replica.Proofs.Ownership
import Replica.Proofs.Section

/-! # Handles that come round

A slot counts its generations with 32 bits. If an object is placed in a vacant slot and destroyed
again as often as there are generations, then the slot has the generation from before, and whoever
has kept a handle from that time names the next object with it. That is why so many theorems here
ask for fewer handles than there are generations. Such a run is too long to be carried out, but it
changes nothing except the slot and the journal, so what follows it can be told from the session
before it.

Main definitions:
* `Handle.later` — the handle that a slot gives out some generations later.
* `World.Offers` — a world gives out a handle next.
* `HandlePool.wear`, `World.wear` — a slot that has been through some more generations.
* `rounds`, `Session.run_rounds` — an object is placed and destroyed some times, and what comes of
  it.
* `Session.leadsTo` — a test of where a run ends.
* `Session.exists_run_rounds` — such rounds at the end of a run. -/

namespace Replica

/-- The handle that the slot of a handle gives out some generations **later**. -/
def Handle.later (h : Handle) (n : Nat) : Handle := ⟨h.index, h.generation + .ofNat n⟩

theorem Handle.later_zero (h : Handle) : h.later 0 = h := by
  have none : UInt32.ofNat 0 = 0 := rfl
  rw [later, none, UInt32.add_zero]

/-! ## Worn slots -/

namespace HandlePool

variable {p : HandlePool} {h : Handle}

/-- The pool after some more generations of the slot of a handle. -/
def wear (p : HandlePool) (h : Handle) (n : Nat) : HandlePool where
  slots := p.slots.modify h.index.toNat fun slot =>
    { slot with generation := slot.generation + .ofNat n }
  free := p.free
  live := p.live

theorem getElem?_wear (p : HandlePool) (h : Handle) (n i : Nat) :
    (p.wear h n).slots[i]? = if h.index.toNat = i then
      p.slots[i]?.map fun slot => { slot with generation := slot.generation + .ofNat n }
    else p.slots[i]? :=
  Array.getElem?_modify

/-- A pool is worn if its slots are, and nothing else has changed. -/
theorem eq_wear {q : HandlePool} {n : Nat} (free : q.free = p.free) (live : q.live = p.live)
    (slots : ∀ i : Nat, q.slots[i]? = (p.wear h n).slots[i]?) : q = p.wear h n := by
  obtain ⟨slots', free', live'⟩ := q
  cases free
  cases live
  cases Array.ext_getElem? slots
  rfl

/-- Nothing is worn by no generation. -/
theorem wear_zero (p : HandlePool) (h : Handle) : p.wear h 0 = p := by
  refine (eq_wear rfl rfl fun i => ?_).symm
  have none : UInt32.ofNat 0 = 0 := rfl
  rw [getElem?_wear]
  cases p.slots[i]? <;> simp [none]

/-- A slot is worn by one generation more. -/
theorem wear_succ (p : HandlePool) (h : Handle) (n : Nat) :
    (p.wear h n).wear (h.later n) 1 = p.wear h (n + 1) := by
  refine eq_wear rfl rfl fun i => ?_
  simp only [getElem?_wear, Handle.later]
  split
  · cases p.slots[i]? <;> simp [UInt32.ofNat_add, UInt32.add_assoc]
  · rfl

/-- A handle that a vacant slot gives out and that is taken back wears the slot by one
generation. -/
theorem release_allocate {rest : List UInt32} (first : p.free = h.index :: rest)
    (vacant : p.slots[h.index.toNat]? = some ⟨h.generation, false⟩) :
    p.allocate.1 = h ∧ p.allocate.2.isAlive h = true ∧ p.allocate.2.release h = p.wear h 1 := by
  have issued : p.allocate = (h, ⟨p.slots.modify h.index.toNat ({ · with occupied := true }), rest,
      p.live + 1⟩) := by
    simp only [allocate, first, vacant, Option.map_some, Option.getD_some]
  have stands : (p.slots.modify h.index.toNat ({ · with occupied := true }))[h.index.toNat]? =
      some ⟨h.generation, true⟩ := by
    rw [Array.getElem?_modify, if_pos rfl, vacant]
    rfl
  have alive : p.allocate.2.isAlive h = true := by simp [isAlive, issued, stands]
  refine ⟨by rw [issued], alive, ?_⟩
  rw [release, release?, if_pos alive, Option.getD_some, issued]
  refine eq_wear first.symm (Nat.add_sub_cancel _ _) fun i => ?_
  rw [getElem?_wear, Array.getElem?_modify]
  by_cases here : h.index.toNat = i
  · subst here
    rw [if_pos rfl, if_pos rfl, stands, vacant]
    rfl
  · rw [if_neg here, if_neg here, Array.getElem?_modify, if_neg here]

end HandlePool

namespace World

/-- The world after some rounds in which an object was placed under a handle, and then under the
later ones, and destroyed again. -/
def wear (w : World) (h : Handle) (n : Nat) : World :=
  { w with
    pool := w.pool.wear h n
    journal.destroyed := w.journal.destroyed ++ (List.range n).map h.later }

/-- A world **offers** a handle if it gives this handle out next, out of a vacant slot. -/
structure Offers (w : World) (h : Handle) : Prop where
  /-- The slot is the one vacated last. -/
  first : ∃ rest, w.pool.free = h.index :: rest
  /-- It is vacant, in the generation of the handle. -/
  vacant : w.pool.slots[h.index.toNat]? = some ⟨h.generation, false⟩
  /-- No object stands in it. -/
  absent : ∀ k : Handle, k.index = h.index → w.objects[k]? = none

variable {w : World} {h : Handle}

theorem wear_zero (w : World) (h : Handle) : w.wear h 0 = w := by
  rw [wear, HandlePool.wear_zero, List.range_zero, List.map_nil, List.append_nil]

/-- A slot is worn by one round more. -/
theorem wear_succ (w : World) (h : Handle) (n : Nat) :
    (w.wear h n).wear (h.later n) 1 = w.wear h (n + 1) := by
  have destroyed : (List.range n).map h.later ++ (List.range 1).map (h.later n).later =
      (List.range (n + 1)).map h.later := by
    rw [List.range_one, List.range_succ, List.map_append, List.map_singleton, Handle.later_zero,
      List.map_singleton]
  simp only [wear, HandlePool.wear_succ, List.append_assoc, destroyed]

namespace Offers

/-- A worn slot offers a later handle. -/
theorem wear (offers : w.Offers h) (n : Nat) : (w.wear h n).Offers (h.later n) where
  first := offers.first
  vacant := by
    show (w.pool.wear h n).slots[h.index.toNat]? = _
    rw [HandlePool.getElem?_wear, if_pos rfl, offers.vacant]
    rfl
  absent := offers.absent

/-- An object that is placed under the handle offered and destroyed again leaves nothing but a worn
slot, and a note in the journal. -/
theorem round (offers : w.Offers h) (className : String) :
    (w.placeLocal className).2.destroy h = w.wear h 1 := by
  obtain ⟨rest, first⟩ := offers.first
  obtain ⟨issued, alive, pool⟩ := HandlePool.release_allocate first offers.vacant
  let o : Object := ⟨none, className, Reference.rootOffset, ∅, true, []⟩
  have placed : (w.placeLocal className).2 =
      { w with pool := w.pool.allocate.2, objects := w.objects.insert h o } := by
    simp only [placeLocal, place, issued]
    rfl
  have found : (w.placeLocal className).2.object? h = some o := by
    rw [placed, object?, isAlive, if_pos alive, Std.ExtTreeMap.getElem?_insert_self]
  have objects : (w.objects.insert h o).erase h = w.objects :=
    Std.ExtTreeMap.ext_getElem? fun k => by
      rw [Std.ExtTreeMap.getElem?_erase, Std.ExtTreeMap.getElem?_insert]
      by_cases same : h = k
      · subst same
        simp [offers.absent h rfl]
      · simp [same]
  unfold destroy
  rw [found, placed]
  simp only [o, List.foldl_nil, discard, objects, pool]
  rw [World.wear, List.range_one, List.map_singleton, h.later_zero]

end Offers

end World

/-! ## Rounds -/

/-- The **rounds** in which an object is placed under a handle, and then under the later ones, and
destroyed again. -/
def rounds (h : Handle) (n : Nat) : List Act :=
  (List.range n).flatMap fun k => [.alter (.placeLocal "Crate"), .alter (.destroy (h.later k))]

namespace Session

variable {s : Session} {h : Handle}

/-- **Rounds wear a slot**, and change nothing else. -/
theorem run_rounds (offers : s.world.Offers h) (n : Nat) :
    s.run (rounds h n) = .ok { s with world := s.world.wear h n } := by
  induction n with
  | zero =>
    rw [World.wear_zero]
    rfl
  | succ n ih =>
    rw [rounds, List.range_succ, List.flatMap_append, List.flatMap_singleton, run_append,
      ← rounds, ih]
    have round := (offers.wear n).round "Crate"
    rw [World.wear_succ] at round
    show Except.ok { s with world := ((s.world.wear h n).placeLocal "Crate").2.destroy _ } = _
    rw [round]

/-- Whether a world gives out a handle next, out of a slot that it lists as vacant. -/
def offersNext (s : Session) (h : Handle) : Bool :=
  s.world.pool.free.head? == some h.index &&
    s.world.pool.slots[h.index.toNat]? == some ⟨h.generation, false⟩

/-- What a session offers next after a run that issues few handles, its world offers. -/
theorem offers_of_run {settings : Settings} {protocol : Protocol} {acts : List Act}
    (ok : (start settings protocol).run acts = .ok s)
    (few : allocations ((start settings protocol).course acts) < 2 ^ 32)
    (next : s.offersNext h = true) : s.world.Offers h := by
  obtain ⟨first, vacant⟩ : s.world.pool.free.head? = some h.index ∧
      s.world.pool.slots[h.index.toNat]? = some ⟨h.generation, false⟩ := by
    simpa [offersNext] using next
  refine ⟨List.head?_eq_some_iff.mp first, vacant, fun k same => ?_⟩
  refine Std.ExtTreeMap.getElem?_eq_none fun stored => ?_
  have alive := ((owned_of_run ok few).exact k).mp stored
  obtain ⟨slot, found, occupied, -⟩ := HandlePool.isAlive_iff.mp alive
  rw [same, vacant] at found
  cases found
  cases occupied

/-- Whether some acts lead to a session that passes a test. -/
def leadsTo (s : Session) (acts : List Act) (test : Session → Bool) : Bool :=
  match s.run acts with
  | .ok s' => test s'
  | .error _ => false

theorem exists_of_leadsTo {acts : List Act} {test : Session → Bool}
    (leads : s.leadsTo acts test = true) : ∃ s', s.run acts = .ok s' ∧ test s' = true :=
  exists_run s acts test leads

/-- **Rounds at the end of a run**: it is enough to test the session with a worn slot. -/
theorem exists_run_rounds (settings : Settings) (protocol : Protocol) (acts : List Act) (h : Handle)
    (n : Nat) (test : Session → Bool)
    (few : allocations ((start settings protocol).course acts) < 2 ^ 32)
    (passes : (start settings protocol).leadsTo acts (fun s =>
      s.offersNext h && test { s with world := s.world.wear h n }) = true) :
    ∃ s, (start settings protocol).run (acts ++ rounds h n) = .ok s ∧ test s = true := by
  obtain ⟨s, ok, passed⟩ := exists_of_leadsTo passes
  obtain ⟨next, tested⟩ := Bool.and_eq_true_iff.mp passed
  exact ⟨_, run_append_eq_ok.mpr ⟨s, ok, run_rounds (offers_of_run ok few next) n⟩, tested⟩

end Session

end Replica
