import Mathlib.Data.List.Nodup
import Mathlib.Data.Prod.Basic
import Replica.Proofs.Directory

/-! # Changes of the directory

Whatever is registered and taken out, in whatever order, the directory stays one to one: each side
finds the partner that the other side gives it, and both sides have the same size. What a change
does to the pairs is said of both sides at once: a registered pair displaces the pairs of its
reference and of its object, and an entity that is taken out loses its own references, in whatever
order they are visited.

Main definitions:
* `Directory.Change`, `Directory.after` — changes of a directory, and what they lead to.
* `Directory.Paired.size_references` — the two sides have the same size.
* `Directory.Paired.foldl_unregister_of_perm` — the order of visits does not matter.
* `Directory.one_to_one` — what is related after any changes, and after one more. -/

namespace Replica.Directory

variable {d : Directory}

/-! ## Changes -/

/-- A **change** of a directory. -/
inductive Change where
  /-- A reference and an object are related. -/
  | register (r : Reference) (h : Handle)
  /-- A reference is parted from its object. -/
  | unregister (r : Reference)
  /-- All references of an entity are parted from their objects. -/
  | unregisterEntity (entity : EntityId)

/-- A directory after one change. -/
def change (d : Directory) : Change → Directory
  | .register r h => d.register r h
  | .unregister r => d.unregister r
  | .unregisterEntity entity => d.unregisterEntity entity

/-- The directory **after** some changes. -/
def after (cs : List Change) : Directory := cs.foldl change empty

/-- Every change keeps a directory paired. -/
theorem Paired.change (p : d.Paired) (c : Change) : (d.change c).Paired := by
  cases c with
  | register r h => exact p.register r h
  | unregister r => exact p.unregister r
  | unregisterEntity entity => exact p.unregisterEntity entity

/-- After any changes the directory is paired. -/
theorem paired_after (cs : List Change) : (after cs).Paired :=
  List.foldlRecOn cs change paired_empty fun _ paired c _ => paired.change c

/-! ## Both sides -/

/-- The two sides of a paired directory list the same pairs. -/
theorem Paired.perm_toList (p : d.Paired) :
    (d.handles.toList.map Prod.swap).Perm d.references.toList := by
  have once {α β : Type} [Ord α] [Std.TransOrd α] (m : Std.ExtTreeMap α β) : m.toList.Nodup := by
    refine List.Nodup.of_map Prod.fst ?_
    rw [Std.ExtTreeMap.map_fst_toList_eq_keys]
    exact Std.ExtTreeMap.nodup_keys
  refine (List.perm_ext_iff_of_nodup ((once _).map Prod.swap_injective) (once _)).mpr ?_
  rintro ⟨h, r⟩
  rw [List.mem_map, Std.ExtTreeMap.mem_toList_iff_getElem?_eq_some]
  constructor
  · rintro ⟨⟨r, h⟩, mem, ⟨⟩⟩
    exact (p r h).mp (Std.ExtTreeMap.mem_toList_iff_getElem?_eq_some.mp mem)
  · intro named
    exact ⟨(r, h), Std.ExtTreeMap.mem_toList_iff_getElem?_eq_some.mpr ((p r h).mpr named), rfl⟩

/-- The two sides of a paired directory have the same size. -/
theorem Paired.size_references (p : d.Paired) : d.references.size = d.size := by
  have same := p.perm_toList.length_eq
  rw [List.length_map, Std.ExtTreeMap.length_toList, Std.ExtTreeMap.length_toList] at same
  exact same.symm

/-- A paired directory is determined by one of its sides. -/
theorem Paired.ext {d' : Directory} (p : d.Paired) (p' : d'.Paired)
    (same : ∀ r, d.handle? r = d'.handle? r) : d = d' := by
  have named : ∀ h, d.reference? h = d'.reference? h := by
    intro h
    refine Option.ext fun r => ?_
    rw [← p r h, ← p' r h, same]
  obtain ⟨handles, references⟩ := d
  obtain ⟨handles', references'⟩ := d'
  congr
  · exact Std.ExtTreeMap.ext_getElem? fun {r} => same r
  · exact Std.ExtTreeMap.ext_getElem? fun {h} => named h

/-! ## What a change does to the pairs -/

/-- The pairs after one was registered: it, and those that have neither its reference nor its
object. -/
theorem Paired.handle?_register_eq_some (p : d.Paired) {r q : Reference} {h k : Handle} :
    (d.register r h).handle? q = some k ↔
      q = r ∧ k = h ∨ q ≠ r ∧ k ≠ h ∧ d.handle? q = some k := by
  rw [p.handle?_register]
  by_cases same : r = q
  · subst q
    simp [eq_comm]
  · by_cases taken : d.handle? q = some h
    · simp [same, Ne.symm same, taken, eq_comm]
    · have other : d.handle? q = some k → k ≠ h := by
        rintro found rfl
        exact taken found
      simpa [same, Ne.symm same, taken] using other

/-- The references of an entity that are listed are those that are related. -/
theorem mem_referencesOf {entity : EntityId} {r : Reference} :
    r ∈ d.referencesOf entity ↔ r.entity = entity ∧ (d.handle? r).isSome = true := by
  simp [referencesOf, handle?, and_comm]

/-- **The order of visits does not matter** when the references of an entity are taken out one by
one. -/
theorem Paired.foldl_unregister_of_perm (p : d.Paired) {entity : EntityId} {order : List Reference}
    (perm : order.Perm (d.referencesOf entity)) :
    order.foldl Directory.unregister d = d.unregisterEntity entity := by
  have paired : (order.foldl Directory.unregister d).Paired :=
    List.foldlRecOn order Directory.unregister p fun _ paired r _ => paired.unregister r
  refine paired.ext (p.unregisterEntity entity) fun q => ?_
  rw [Directory.unregisterEntity, handle?_foldl_unregister, handle?_foldl_unregister]
  simp only [perm.mem_iff]

/-! ## One to one -/

/-- A directory is **one to one**, and stays so, if its sides agree, have the same size, and let
each change touch just the pairs that it is about. -/
structure OneToOne (d : Directory) : Prop where
  /-- Each side finds the partner that the other side gives it. -/
  paired : ∀ r h, d.handle? r = some h ↔ d.reference? h = some r
  /-- So it does after one more change. -/
  kept : ∀ c r h, (d.change c).handle? r = some h ↔ (d.change c).reference? h = some r
  /-- Both sides have the size of the directory. -/
  size : d.handles.size = d.size ∧ d.references.size = d.size
  /-- Registering relates a pair, and keeps each other pair that shares nothing with it. -/
  registered : ∀ r h q k, (d.register r h).handle? q = some k ↔
    q = r ∧ k = h ∨ q ≠ r ∧ k ≠ h ∧ d.handle? q = some k
  /-- A reference that loses its object is the one that named the registered object before. -/
  unnamed : ∀ r h q k, d.handle? q = some k →
    ((d.register r h).handle? q = none ↔ q ≠ r ∧ k = h)
  /-- An object that loses its name is the one that the registered reference named before. -/
  unlinked : ∀ r h q k, d.reference? k = some q →
    ((d.register r h).reference? k = none ↔ k ≠ h ∧ q = r)
  /-- Taking an entity out takes its pairs and no others. -/
  cleared : ∀ entity q k, (d.unregisterEntity entity).handle? q = some k ↔
    d.handle? q = some k ∧ q.entity ≠ entity
  /-- Just the related references of an entity are visited when it is taken out. -/
  visited : ∀ entity q,
    q ∈ d.referencesOf entity ↔ q.entity = entity ∧ (d.handle? q).isSome = true
  /-- They may be visited in any order. -/
  reordered : ∀ entity (order : List Reference), order.Perm (d.referencesOf entity) →
    order.foldl unregister d = d.unregisterEntity entity

/-- **The directory stays one to one** under any changes. -/
theorem one_to_one (cs : List Change) : OneToOne (after cs) := by
  have p := paired_after cs
  refine ⟨p, p.change, ⟨rfl, p.size_references⟩, fun r h q k => p.handle?_register_eq_some,
    ?unnamed, ?unlinked, ?cleared, fun entity q => mem_referencesOf,
    fun entity order => p.foldl_unregister_of_perm⟩
  case unnamed =>
    intro r h q k found
    rw [p.handle?_register, found]
    by_cases same : r = q
    · simp [same]
    · by_cases taken : k = h <;> simp [same, Ne.symm same, taken]
  case unlinked =>
    intro r h q k named
    have known : (after cs).handle? r = some k ↔ q = r := by
      rw [p r k, named, Option.some.injEq]
    rw [reference?_register, named]
    by_cases same : h = k
    · simp [same]
    · by_cases former : q = r <;> simp [same, Ne.symm same, known, former]
  case cleared =>
    intro entity q k
    rw [handle?_unregisterEntity]
    split <;> simp_all

/-- The object of one reference is registered under the reference of another: both lose a partner.
Then their entity is taken out. -/
def crossedPairs : List Change :=
  [.register (.root 5) ⟨0, 0⟩, .register ⟨5, 3⟩ ⟨1, 0⟩, .register (.root 6) ⟨2, 0⟩,
    .register (.root 5) ⟨1, 0⟩]

theorem one_to_one_crossedPairs :
    OneToOne (after crossedPairs) ∧ (after crossedPairs).size = 2 ∧
      (after crossedPairs).handle? (.root 5) = some ⟨1, 0⟩ ∧
      (after crossedPairs).handle? ⟨5, 3⟩ = none ∧
      (after crossedPairs).reference? ⟨0, 0⟩ = none ∧
      ((after crossedPairs).unregisterEntity 5).handle? (.root 6) = some ⟨2, 0⟩ ∧
      ((after crossedPairs).unregisterEntity 5).size = 1 :=
  ⟨one_to_one crossedPairs, by decide +kernel, by decide +kernel, by decide +kernel,
    by decide +kernel, by decide +kernel, by decide +kernel⟩

end Replica.Directory
