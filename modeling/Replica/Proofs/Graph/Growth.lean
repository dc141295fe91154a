import Mathlib.Algebra.GroupWithZero.Nat
import Mathlib.Data.List.Nodup
import Replica.Proofs.Waitlist

/-! # A world that only grows

As long as nothing is destroyed, handles are issued one after the other and stay in use. Then a
handle that is issued was never in use before, so making objects leaves all others as they are.

Main definitions:
* `HandlePool.issued` — how many handles were ever issued.
* `HandlePool.Dense` — no handle was ever taken back.
* `World.place_spec`, `World.instantiate_spec` — what making objects does. -/

namespace Replica

/-! ## Handles -/

/-- The handle of the object that is made when `n` others have been. -/
def Handle.nth (n : Nat) : Handle := ⟨.ofNat n, 0⟩

/-- As many handles as there are indices are told apart. -/
theorem Handle.nth_inj {n m : Nat} (hn : n < 2 ^ 32) (hm : m < 2 ^ 32) :
    nth n = nth m ↔ n = m := by
  constructor
  · intro same
    have index : (UInt32.ofNat n).toNat = (UInt32.ofNat m).toNat :=
      congrArg (fun h => h.index.toNat) same
    rwa [UInt32.toNat_ofNat_of_lt' hn, UInt32.toNat_ofNat_of_lt' hm] at index
  · exact congrArg nth

namespace HandlePool

variable {p : HandlePool}

/-- How many handles were ever **issued**: each slot counts the handles that it has given out. -/
def issued (p : HandlePool) : Nat :=
  (p.slots.toList.map fun slot => slot.generation.toNat + slot.occupied.toNat).sum

/-- A pool is **dense** if no handle was ever taken back. -/
structure Dense (p : HandlePool) : Prop where
  /-- No slot is vacant. -/
  free : p.free = []
  /-- Every slot is in use for the first time. -/
  slots : ∀ slot ∈ p.slots.toList, slot = ⟨0, true⟩

theorem dense_empty : empty.Dense := ⟨rfl, by simp [empty]⟩

namespace Dense

/-- As many handles were issued as there are slots. -/
theorem issued (h : p.Dense) : p.issued = p.slots.size := by
  have each : (p.slots.toList.map fun slot => slot.generation.toNat + slot.occupied.toNat) =
      p.slots.toList.map fun _ => 1 :=
    List.map_congr_left fun slot mem => by rw [h.slots slot mem]; rfl
  rw [HandlePool.issued, each]
  simp

/-- The handles in use are the first ones. -/
theorem isAlive_iff (h : p.Dense) {k : Handle} :
    p.isAlive k = true ↔ ∃ n, n < p.slots.size ∧ n < 2 ^ 32 ∧ k = .nth n := by
  unfold isAlive
  constructor
  · intro alive
    -- A slot in use has generation zero, so the index alone names the handle.
    split at alive
    · rename_i slot found
      rw [h.slots slot (Array.mem_toList_iff.mpr (Array.mem_of_getElem? found)),
        Bool.true_and] at alive
      refine ⟨k.index.toNat, (Array.getElem?_eq_some_iff.mp found).1, k.index.toNat_lt, ?_⟩
      have generation : 0 = k.generation := eq_of_beq alive
      rw [Handle.nth, UInt32.ofNat_toNat, generation]
    · cases alive
  · rintro ⟨n, inside, few, rfl⟩
    have index : (Handle.nth n).index.toNat = n := UInt32.toNat_ofNat_of_lt' few
    have slot := h.slots p.slots[n] (Array.mem_toList_iff.mpr (Array.getElem_mem inside))
    rw [index, Array.getElem?_eq_getElem inside, slot]
    rfl

/-- The next handle is the next one in order. -/
theorem allocate_eq (h : p.Dense) : p.allocate =
    (.nth p.slots.size, { p with slots := p.slots.push ⟨0, true⟩, live := p.live + 1 }) := by
  unfold allocate
  rw [h.free]
  rfl

theorem allocate (h : p.Dense) : p.allocate.2.Dense := by
  rw [h.allocate_eq]
  refine ⟨h.free, ?_⟩
  intro slot mem
  rw [Array.toList_push] at mem
  rcases List.mem_append.mp mem with old | new
  · exact h.slots slot old
  · exact List.mem_singleton.mp new

theorem size_allocate (h : p.Dense) : p.allocate.2.slots.size = p.slots.size + 1 := by
  rw [h.allocate_eq]
  simp

end Dense

end HandlePool

/-! ## Making objects -/

namespace World

variable {w : World}

/-- What making an object does: it gets the next handle, and the others stay. -/
theorem place_spec (dense : w.pool.Dense) (o : Object) :
    (w.place o).1 = .nth w.pool.slots.size ∧ (w.place o).2.pool.Dense ∧
      (w.place o).2.pool.slots.size = w.pool.slots.size + 1 ∧
      (w.pool.slots.size < 2 ^ 32 →
        (w.place o).2.objects[Handle.nth w.pool.slots.size]? = some o ∧
        ∀ n, n < w.pool.slots.size →
          (w.place o).2.objects[Handle.nth n]? = w.objects[Handle.nth n]?) := by
  have placed : w.place o = (.nth w.pool.slots.size, { w with
      pool := w.pool.allocate.2, objects := w.objects.insert (.nth w.pool.slots.size) o }) := by
    rw [place, dense.allocate_eq]
  rw [placed]
  refine ⟨rfl, dense.allocate, dense.size_allocate, fun few => ⟨?_, ?_⟩⟩
  · exact Std.ExtTreeMap.getElem?_insert_self
  · intro n less
    -- Indices below `2 ^ 32` are told apart, so the new object replaces none.
    have apart : Handle.nth w.pool.slots.size ≠ .nth n := fun same =>
      Nat.ne_of_gt less ((Handle.nth_inj few (Nat.lt_trans less few)).mp same)
    simp [Std.ExtTreeMap.getElem?_insert, apart]

/-- What making parts does: they get the next handles, and the others stay. -/
theorem placeParts_spec (entity : EntityId) (className : String) (offsets : List Offset)
    (dense : w.pool.Dense) :
    (w.placeParts entity className offsets).2.pool.Dense ∧
      (w.placeParts entity className offsets).2.pool.slots.size =
        w.pool.slots.size + offsets.length ∧
      (w.placeParts entity className offsets).1.map (·.2) =
        (List.range' w.pool.slots.size offsets.length).map .nth ∧
      (w.pool.slots.size + offsets.length < 2 ^ 32 →
        (∀ n, n < w.pool.slots.size →
          (w.placeParts entity className offsets).2.objects[Handle.nth n]? =
            w.objects[Handle.nth n]?) ∧
        ∀ n, w.pool.slots.size ≤ n → n < w.pool.slots.size + offsets.length →
          ∃ o, (w.placeParts entity className offsets).2.objects[Handle.nth n]? = some o ∧
            o.fields = ∅) := by
  induction offsets generalizing w with
  | nil =>
    refine ⟨dense, rfl, rfl, fun _ => ⟨fun _ _ => rfl, ?_⟩⟩
    intro n low high
    exact absurd low (Nat.not_le_of_lt high)
  | cons offset rest ih =>
    obtain ⟨o, blank, made⟩ : ∃ o : Object, o.fields = ∅ ∧
        w.placeParts entity className (offset :: rest) =
          ((offset, (w.place o).1) :: ((w.place o).2.placeParts entity className rest).1,
            ((w.place o).2.placeParts entity className rest).2) := ⟨_, rfl, rfl⟩
    -- The first part takes the next handle, and the others go on from there.
    obtain ⟨handle, dense₁, size₁, objects₁⟩ := place_spec dense o
    obtain ⟨dense₂, size₂, handles₂, objects₂⟩ := ih dense₁
    rw [size₁] at size₂ handles₂ objects₂
    rw [made, List.length_cons]
    refine ⟨dense₂, by rw [size₂]; omega, ?_, ?_⟩
    · rw [List.map_cons, handle, handles₂, List.range'_succ, List.map_cons]
    · intro few
      obtain ⟨kept, blanks⟩ := objects₂ (by omega)
      obtain ⟨here, before⟩ := objects₁ (by omega)
      refine ⟨?_, ?_⟩
      · intro n less
        rw [kept n (by omega), before n less]
      · intro n low high
        by_cases first : n = w.pool.slots.size
        · subst n
          exact ⟨o, (kept _ (Nat.lt_succ_self _)).trans here, blank⟩
        · exact blanks n (by omega) (by omega)

/-- The objects of an entity are its parts and, put under a handle taken before, its root. -/
theorem instantiate_eq_ok {w' : World} {entity : EntityId} {spawn : Spawn} {assembly : Assembly}
    (ok : w.instantiate entity spawn = .ok (assembly, w')) :
    ∃ offsets object, object.fields = ∅ ∧ object.children = assembly.parts.map (·.2) ∧
      object.entity = some entity ∧
      assembly = ⟨w.pool.allocate.1,
        ({ w with pool := w.pool.allocate.2 }.placeParts entity spawn.className offsets).1⟩ ∧
      w' = { ({ w with pool := w.pool.allocate.2 }.placeParts entity spawn.className offsets).2 with
        objects := ({ w with pool := w.pool.allocate.2 }.placeParts entity spawn.className
          offsets).2.objects.insert w.pool.allocate.1 object
        journal.instantiated := ({ w with pool := w.pool.allocate.2 }.placeParts entity
          spawn.className offsets).2.journal.instantiated ++ [(entity, w.pool.allocate.1)] } := by
  unfold instantiate at ok
  split at ok
  · cases ok
  · rename_i offsets _
    split at ok
    · cases ok
    · cases ok
      exact ⟨offsets, _, rfl, rfl, rfl, rfl, rfl⟩

/-- What building an entity's objects does: the root and the parts get the next handles, in this
order, each with no field, and the others stay. -/
theorem instantiate_spec {w' : World} {entity : EntityId} {spawn : Spawn} {assembly : Assembly}
    (dense : w.pool.Dense) (ok : w.instantiate entity spawn = .ok (assembly, w')) :
    ∃ parts, w'.pool.Dense ∧ w'.pool.slots.size = w.pool.slots.size + (parts + 1) ∧
      assembly.root :: assembly.parts.map (·.2) =
        (List.range' w.pool.slots.size (parts + 1)).map .nth ∧
      (w'.pool.slots.size < 2 ^ 32 →
        (∀ n, n < w.pool.slots.size → w'.objects[Handle.nth n]? = w.objects[Handle.nth n]?) ∧
        ∀ n, w.pool.slots.size ≤ n → n < w'.pool.slots.size →
          ∃ o, w'.objects[Handle.nth n]? = some o ∧ o.fields = ∅) := by
  obtain ⟨offsets, object, blank, -, -, rfl, made⟩ := instantiate_eq_ok ok
  have pool := congrArg World.pool made
  have objects := congrArg World.objects made
  -- The handle of the root is taken before those of the parts, and its object is put last.
  obtain ⟨dense₂, size₂, handles₂, objects₂⟩ :=
    placeParts_spec (w := { w with pool := w.pool.allocate.2 }) entity spawn.className offsets
      dense.allocate
  rw [show ({ w with pool := w.pool.allocate.2 } : World).pool = w.pool.allocate.2 from rfl,
    dense.size_allocate] at size₂ handles₂ objects₂
  have root : w.pool.allocate.1 = .nth w.pool.slots.size := by rw [dense.allocate_eq]
  rw [root] at objects ⊢
  rw [pool, objects]
  refine ⟨offsets.length, dense₂, size₂.trans (by omega), ?_, ?_⟩
  · rw [handles₂, List.range'_succ, List.map_cons]
  · intro few
    have count : w.pool.slots.size + 1 + offsets.length < 2 ^ 32 := by rwa [← size₂]
    obtain ⟨kept, blanks⟩ := objects₂ count
    have apart : ∀ n, n < 2 ^ 32 → n ≠ w.pool.slots.size →
        Handle.nth w.pool.slots.size ≠ .nth n := fun n bound differs same =>
      differs ((Handle.nth_inj (by omega) bound).mp same).symm
    refine ⟨?_, ?_⟩
    · intro n less
      have ne := apart n (by omega) (by omega)
      simpa [Std.ExtTreeMap.getElem?_insert, ne] using kept n (by omega)
    · intro n low high
      by_cases first : n = w.pool.slots.size
      · subst n
        exact ⟨_, Std.ExtTreeMap.getElem?_insert_self, blank⟩
      · have ne := apart n (Nat.lt_trans high few) first
        have below : n < w.pool.slots.size + 1 + offsets.length :=
          Nat.lt_of_lt_of_eq high size₂
        simpa [Std.ExtTreeMap.getElem?_insert, ne] using blanks n (by omega) below

/-- Objects that stand where handles are in use are found. -/
theorem object?_nth (dense : w.pool.Dense) {n : Nat} (inside : n < w.pool.slots.size)
    (few : w.pool.slots.size < 2 ^ 32) : w.object? (.nth n) = w.objects[Handle.nth n]? := by
  have alive : w.isAlive (.nth n) = true :=
    dense.isAlive_iff.mpr ⟨n, inside, Nat.lt_trans inside few, rfl⟩
  rw [object?, if_pos alive]

/-- A world to which objects are added keeps those it has. -/
theorem object?_of_grows {w' : World} (dense : w.pool.Dense) (dense' : w'.pool.Dense)
    (size : w.pool.slots.size ≤ w'.pool.slots.size) (few : w'.pool.slots.size < 2 ^ 32)
    (kept : ∀ n, n < w.pool.slots.size → w'.objects[Handle.nth n]? = w.objects[Handle.nth n]?)
    {h : Handle} (alive : w.isAlive h = true) :
    w'.isAlive h = true ∧ w'.object? h = w.object? h := by
  obtain ⟨n, inside, bound, rfl⟩ := dense.isAlive_iff.mp alive
  have inside' := Nat.lt_of_lt_of_le inside size
  refine ⟨dense'.isAlive_iff.mpr ⟨n, inside', bound, rfl⟩, ?_⟩
  rw [object?_nth dense' inside' few, object?_nth dense inside (Nat.lt_of_le_of_lt size few),
    kept n inside]

/-- An object that is made beside the others leaves them as they are. -/
theorem placeLocal_grows (dense : w.pool.Dense) (className : String)
    (few : (w.placeLocal className).2.pool.slots.size < 2 ^ 32) {h : Handle}
    (alive : w.isAlive h = true) : (w.placeLocal className).2.isAlive h = true ∧
      (w.placeLocal className).2.object? h = w.object? h := by
  obtain ⟨-, dense', size, objects⟩ := place_spec dense
    ⟨none, className, Reference.rootOffset, ∅, true, []⟩
  have less : w.pool.slots.size < (w.placeLocal className).2.pool.slots.size :=
    Nat.lt_of_lt_of_eq (Nat.lt_succ_self _) size.symm
  exact object?_of_grows dense dense' (Nat.le_of_lt less) few
    (objects (Nat.lt_trans less few)).2 alive

/-- The handles of some objects made one after the other are told apart. -/
theorem nodup_range'_nth {first count : Nat} (few : first + count ≤ 2 ^ 32) :
    ((List.range' first count).map Handle.nth).Nodup := by
  refine List.Nodup.map_on ?_ List.nodup_range'
  intro n hn m hm same
  have bound_n := List.mem_range'_1.mp hn
  have bound_m := List.mem_range'_1.mp hm
  exact (Handle.nth_inj (by omega) (by omega)).mp same

/-- **What an entity is built from was not there before**: its objects are told apart, are new and
have no field, and the others are kept. -/
theorem instantiate_grows {w' : World} {entity : EntityId} {spawn : Spawn} {assembly : Assembly}
    (dense : w.pool.Dense) (ok : w.instantiate entity spawn = .ok (assembly, w'))
    (few : w'.pool.slots.size < 2 ^ 32) :
    (assembly.root :: assembly.parts.map (·.2)).Nodup ∧
      (∀ h ∈ assembly.root :: assembly.parts.map (·.2),
        w.isAlive h = false ∧ ∃ o, w'.object? h = some o ∧ o.fields = ∅) ∧
      ∀ h, w.isAlive h = true → w'.isAlive h = true ∧ w'.object? h = w.object? h := by
  obtain ⟨parts, dense', size, handles, objects⟩ := instantiate_spec dense ok
  obtain ⟨kept, blanks⟩ := objects few
  rw [handles]
  refine ⟨nodup_range'_nth (by omega), fun h mem => ?_, fun h alive =>
    object?_of_grows dense dense' (by omega) few kept alive⟩
  obtain ⟨n, within, rfl⟩ := List.mem_map.mp mem
  have bounds := List.mem_range'_1.mp within
  refine ⟨Bool.eq_false_iff.mpr ?_, ?_⟩
  · intro alive
    -- A handle in use is one of the first, and the new ones come after those.
    obtain ⟨m, inside, bound, same⟩ := dense.isAlive_iff.mp alive
    have eq := (Handle.nth_inj (by omega) bound).mp same
    omega
  · obtain ⟨o, found, blank⟩ := blanks n (by omega) (by omega)
    exact ⟨o, (object?_nth dense' (by omega) few).trans found, blank⟩

end World

/-! ## Channels of new objects -/

namespace Channel

variable {id : ChannelId} {a : Assembly}

/-- An object of a new channel is the root or one of the parts. -/
theorem objectAt?_ofAssembly {offset : Offset} {h : Handle}
    (found : (ofAssembly id a).objectAt? offset = some h) :
    offset = Reference.rootOffset ∧ h = a.root ∨
      offset ≠ Reference.rootOffset ∧ (offset, h) ∈ a.parts := by
  unfold objectAt? at found
  split at found
  · rename_i root
    cases found
    exact .inl ⟨root, rfl⟩
  · rename_i part
    exact .inr ⟨part, (List.mem_filter.mp (Update.mem_of_getElem?_ofList found)).1⟩

theorem mem_of_objectAt?_ofAssembly {offset : Offset} {h : Handle}
    (found : (ofAssembly id a).objectAt? offset = some h) : h ∈ a.root :: a.parts.map (·.2) := by
  rcases objectAt?_ofAssembly found with ⟨-, rfl⟩ | ⟨-, part⟩
  · exact List.mem_cons_self
  · exact List.mem_cons_of_mem _ (List.mem_map.mpr ⟨(offset, h), part, rfl⟩)

/-- Where the root and the parts are told apart, no object stands at two offsets. -/
theorem offset_injective_ofAssembly (distinct : (a.root :: a.parts.map (·.2)).Nodup)
    {o o' : Offset} {h : Handle} (first : (ofAssembly id a).objectAt? o = some h)
    (second : (ofAssembly id a).objectAt? o' = some h) : o = o' := by
  obtain ⟨apart, parts⟩ := List.nodup_cons.mp distinct
  rcases objectAt?_ofAssembly first with ⟨rfl, rfl⟩ | ⟨-, part⟩
  · rcases objectAt?_ofAssembly second with ⟨rfl, -⟩ | ⟨-, part⟩
    · rfl
    · exact absurd (List.mem_map.mpr ⟨(o', a.root), part, rfl⟩) apart
  · rcases objectAt?_ofAssembly second with ⟨rfl, rfl⟩ | ⟨-, part'⟩
    · exact absurd (List.mem_map.mpr ⟨(o, a.root), part, rfl⟩) apart
    · exact congrArg Prod.fst (List.inj_on_of_nodup_map parts part part' rfl)

/-- The objects of a channel go by references of its entity. -/
theorem entity_of_mem_members {c : Channel} {x : Reference × Handle} (mem : x ∈ c.members) :
    x.1.entity = c.entity := by
  rcases List.mem_cons.mp mem with rfl | part
  · rfl
  · obtain ⟨_, -, rfl⟩ := List.mem_map.mp part
    rfl

/-- The members of a new channel are its objects under their references. -/
theorem mem_members_ofAssembly {r : Reference} {h : Handle} :
    (r, h) ∈ (ofAssembly id a).members ↔
      r.entity = id.entity ∧ (ofAssembly id a).objectAt? r.offset = some h := by
  have root : (ofAssembly id a).objectAt? Reference.rootOffset = some a.root := by
    simp [objectAt?, ofAssembly]
  rw [members, List.mem_cons, List.mem_map]
  constructor
  · rintro (here | ⟨⟨offset, k⟩, listed, here⟩)
    · cases here
      exact ⟨rfl, root⟩
    · cases here
      have found : (ofAssembly id a).parts[offset]? = some h :=
        Std.ExtTreeMap.mem_toList_iff_getElem?_eq_some.mp listed
      have kept := (List.mem_filter.mp (Update.mem_of_getElem?_ofList found)).2
      have part : offset ≠ Reference.rootOffset := by simpa using kept
      exact ⟨rfl, by rw [objectAt?, if_neg part]; exact found⟩
  · obtain ⟨entity, offset⟩ := r
    rintro ⟨rfl, found⟩
    -- The root is listed by itself, and parts at its offset are ignored.
    by_cases part : offset = Reference.rootOffset
    · subst offset
      rw [root] at found
      cases found
      exact .inl rfl
    · rw [objectAt?, if_neg part] at found
      exact .inr ⟨(offset, h), Std.ExtTreeMap.mem_toList_iff_getElem?_eq_some.mpr found, rfl⟩

/-- The members of a new channel have different references. -/
theorem nodup_references_ofAssembly : ((ofAssembly id a).members.map (·.1)).Nodup := by
  rw [members, List.map_cons, List.map_map, List.nodup_cons]
  refine ⟨?_, ?_⟩
  · intro mem
    obtain ⟨⟨offset, k⟩, listed, same⟩ := List.mem_map.mp mem
    have found : (ofAssembly id a).parts[offset]? = some k :=
      Std.ExtTreeMap.mem_toList_iff_getElem?_eq_some.mp listed
    have kept := (List.mem_filter.mp (Update.mem_of_getElem?_ofList found)).2
    have root : offset = Reference.rootOffset := congrArg Reference.offset same
    simp [root] at kept
  · refine List.pairwise_map.mpr
      (Std.ExtTreeMap.distinct_keys_toList.imp fun differ same => differ ?_)
    have offsets := congrArg Reference.offset same
    exact Std.LawfulEqOrd.compare_eq_iff_eq.mpr offsets

/-- Where the root and the parts are told apart, the members have different objects. -/
theorem nodup_handles_ofAssembly (distinct : (a.root :: a.parts.map (·.2)).Nodup) :
    ((ofAssembly id a).members.map (·.2)).Nodup := by
  refine List.Nodup.map_on ?_ (List.Nodup.of_map _ nodup_references_ofAssembly)
  rintro ⟨⟨entity, offset⟩, h⟩ mem ⟨⟨entity', offset'⟩, h'⟩ mem' same
  obtain ⟨rfl, found⟩ := mem_members_ofAssembly.mp mem
  obtain ⟨rfl, found'⟩ := mem_members_ofAssembly.mp mem'
  have eq : h = h' := same
  subst h'
  have offsets : offset = offset' := offset_injective_ofAssembly distinct found found'
  rw [offsets]

end Channel

/-- A channel opens for an entity that has none, on the objects that were built for it. -/
theorem Channels.open?_eq_some {cs cs' : Channels} {entity : EntityId} {a : Assembly} {c : Channel}
    (opened : cs.open? entity a = some (c, cs')) :
    cs.get? entity = none ∧ ∃ id, id.entity = entity ∧ Channel.ofAssembly id a = c := by
  unfold open? at opened
  split at opened
  · cases opened
  · rename_i absent
    cases opened
    refine ⟨Std.ExtTreeMap.getElem?_eq_none fun mem => absent ?_, ⟨entity, cs.generation⟩, rfl, rfl⟩
    exact Std.ExtTreeMap.contains_iff_mem.mpr mem

end Replica
