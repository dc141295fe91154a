import Replica.Proofs.Graph.Parts
import Replica.Proofs.Waitlist.Entries

/-! # What is parked is what is missing

A value is walked through twice when it is written. The walk that makes it local goes into structs
as well, and notes the references that are missing. The walk that finds what is to be parked stops
at structs, which are parked with their bytes. Both come to the same references, and each position
that is parked is what some part of the value leaves waiting, which stands in its place once the
value is written. So what is parked can be filled, position after position and in any order.

Main definitions:
* `Value.localizeNoting` — makes a value local and notes what is missing, in one walk.
* `Fill` — what can be done to a position that is parked.
* `Value.ParksMissing` — what is parked for a value is what is missing in it. -/

namespace Replica

variable {resolve : Resolver} {rep rep' : RepIndex} {path : List Offset} {inner : Outstanding}
  {v u : Value}

/-! ## One walk -/

mutual

/-- Makes a value local and **notes** the references that are missing, in one walk. -/
def Value.localizeNoting (resolve : Resolver) : Value → ReferenceSet → Localized × ReferenceSet
  | .int i, noted => (.int i, noted)
  | .null, noted => (.object none, noted)
  | .ref r, noted =>
    (.object (resolve r), if (resolve r).isNone then noted.insert r else noted)
  | .struct vs, noted =>
    let (ls, noted) := Value.localizeNotingAll resolve vs noted
    (.struct ls, noted)
  | .array vs, noted =>
    let (ls, noted) := Value.localizeNotingAll resolve vs noted
    (.array ls, noted)

/-- Makes a list of values local and notes the references that are missing. -/
def Value.localizeNotingAll (resolve : Resolver) :
    List Value → ReferenceSet → List Localized × ReferenceSet
  | [], noted => ([], noted)
  | v :: vs, noted =>
    let (l, noted) := v.localizeNoting resolve noted
    let (ls, noted) := Value.localizeNotingAll resolve vs noted
    (l :: ls, noted)

end

theorem Resolver.mem_union_missing {resolve : Resolver} {noted : ReferenceSet}
    {rs : List Reference} {r : Reference} :
    r ∈ noted ∪ resolve.missing rs ↔ r ∈ noted ∨ r ∈ rs ∧ resolve r = none := by
  rw [Std.ExtTreeSet.mem_union_iff, mem_missing]

mutual

/-- One walk makes a value local, and adds what is missing to what is noted. -/
theorem Value.localizeNoting_eq (resolve : Resolver) : (v : Value) → (noted : ReferenceSet) →
    v.localizeNoting resolve noted = (v.localize resolve, noted ∪ v.missing resolve)
  | .int _, noted | .null, noted => by
    refine Prod.ext rfl (Std.ExtTreeSet.ext_mem fun q => ?_)
    simp [localizeNoting, missing, references]
  | .ref r, noted => by
    refine Prod.ext rfl (Std.ExtTreeSet.ext_mem fun q => ?_)
    rw [missing, Resolver.mem_union_missing, references, List.mem_singleton, localizeNoting]
    dsimp only
    cases known : resolve r with
    | none =>
      rw [Option.isNone_none, if_pos rfl, Std.ExtTreeSet.mem_insert]
      constructor
      · rintro (same | mem)
        · obtain rfl := Std.LawfulEqCmp.eq_of_compare same
          exact .inr ⟨rfl, known⟩
        · exact .inl mem
      · rintro (mem | ⟨rfl, -⟩)
        · exact .inr mem
        · exact .inl Std.ReflCmp.compare_self
    | some h =>
      rw [Option.isNone_some, if_neg Bool.false_ne_true]
      constructor
      · exact .inl
      · rintro (mem | ⟨rfl, unknown⟩)
        · exact mem
        · rw [known] at unknown
          cases unknown
  | .struct vs, noted | .array vs, noted => by
    rw [localizeNoting, localizeNotingAll_eq resolve vs noted]
    rfl

/-- So does a walk through a list of values. -/
theorem Value.localizeNotingAll_eq (resolve : Resolver) :
    (vs : List Value) → (noted : ReferenceSet) → Value.localizeNotingAll resolve vs noted =
      (Value.localizeAll resolve vs, noted ∪ Value.missingAll resolve vs)
  | [], noted => by
    refine Prod.ext rfl (Std.ExtTreeSet.ext_mem fun q => ?_)
    simp [localizeNotingAll, missingAll, referencesAll]
  | v :: vs, noted => by
    rw [localizeNotingAll, localizeNoting_eq resolve v noted]
    dsimp only
    rw [localizeNotingAll_eq resolve vs]
    refine Prod.ext rfl (Std.ExtTreeSet.ext_mem fun q => ?_)
    simp only [missing, missingAll, referencesAll, Std.ExtTreeSet.mem_union_iff,
      Resolver.mem_missing, List.mem_append, or_and_right, or_assoc]

end

/-! ## Filling what is parked -/

/-- Replacing at a path keeps the places that are not inside what is replaced. -/
theorem Localized.isSome_at?_replaceAt {new l l' : Localized} {other : List Offset}
    (replaced : replaceAt new path l = some l') (there : (at? other l).isSome)
    (outside : path <+: other → other = path) : (at? other l').isSome := by
  induction path generalizing l l' other with
  | nil =>
    -- Any place is inside the whole, so there is only the whole to be kept.
    obtain rfl := outside List.nil_prefix
    rfl
  | cons i path ih =>
    cases other with
    | nil => rfl
    | cons j other =>
      cases l with
      | array ls =>
        obtain ⟨old, found, more⟩ := Option.bind_eq_some_iff.mp replaced
        obtain ⟨changed, inside, made⟩ := Option.bind_eq_some_iff.mp more
        cases made
        by_cases same : i = j
        · subst same
          obtain ⟨short, -⟩ := List.getElem?_eq_some_iff.mp found
          rw [at?, found] at there
          have kept := ih inside there fun front =>
            (List.cons.inj (outside (List.cons_prefix_cons.mpr ⟨rfl, front⟩))).2
          rwa [at?, List.getElem?_set_self short]
        · have apart : i.toNat ≠ j.toNat := fun equal => same (UInt32.toNat_inj.mp equal)
          rwa [at?, List.getElem?_set_ne apart]
      | int _ | object _ | struct _ => cases replaced

namespace World

variable {w w' : World} {h : Handle} {field : Offset}

/-- Writing at a path keeps the places of the field that are not inside what is written. -/
theorem isSome_at?_writeAt {new : Localized} {other : List Offset}
    (ok : w.writeAt h (field :: path) new = .ok w')
    (there : (w.at? h (field :: other)).isSome) (outside : path <+: other → other = path) :
    (w'.at? h (field :: other)).isSome := by
  obtain ⟨l, l', shown, replaced, shown'⟩ := field?_writeAt ok
  rw [at?, shown] at there
  rw [at?, shown']
  exact Localized.isSome_at?_replaceAt replaced there outside

/-- A field **has the places** of a value if each position that is parked for it has its place. -/
def HasPlaces (w : World) (h : Handle) (field : Offset) (resolve : Resolver) (rep : RepIndex)
    (v : Value) : Prop :=
  ∀ path inner, v.Parks resolve rep path inner → (w.at? h (field :: path)).isSome

/-- An assignment writes the local form of its value. -/
theorem field?_assign {object : Object} (found : w.object? h = some object) (resolve : Resolver)
    (a : Assignment) :
    (w.putObject h (object.assign resolve a)).field? h a.offset =
      some (a.value.localize resolve) := by
  have alive := isAlive_of_object? found
  simp [field?, object?_putObject alive, Object.assign]

/-- A field that has just been written has the places of its value. -/
theorem hasPlaces_of_fresh (addressable : v.IsAddressable)
    (fresh : w.field? h field = some (v.localize resolve)) :
    w.HasPlaces h field resolve rep v := by
  intro path inner parked
  obtain ⟨u, part, -⟩ := (Value.parks_iff addressable).mp parked
  rw [at?, fresh, Option.bind_some, Value.at?_localize, part]
  rfl

/-- Writing over a part that is no array leaves all places there. -/
theorem HasPlaces.writeAt (places : w.HasPlaces h field resolve rep v)
    (addressable : v.IsAddressable) (part : Value.at? path v = some u) (whole : ¬u.IsArray)
    {new : Localized} (ok : w.writeAt h (field :: path) new = .ok w') :
    w'.HasPlaces h field resolve rep v := by
  intro other inner parked
  refine isSome_at?_writeAt ok (places other inner parked) ?_
  -- What is parked beyond `path` would stand in a part of `u`, which has none.
  rintro ⟨rest, rfl⟩
  obtain ⟨u', part', -⟩ := (Value.parks_iff addressable).mp parked
  rw [Value.at?_append, part, Option.bind_some] at part'
  by_cases inside : rest = []
  · rw [inside, List.append_nil]
  · rw [Value.at?_eq_none whole inside] at part'
    cases part'

/-- A struct can be read again from its bytes into a place that is there. -/
theorem exists_reapplyStruct {old : Localized} {buffer : Bytes}
    (decoded : Wire.decodeValue buffer = .ok u) (there : w.at? h path = some old)
    (resolve : Resolver) :
    ∃ w', w.reapplyStruct resolve h path buffer = .ok (u.missing resolve, w') ∧
      w.writeAt h path (u.localize resolve) = .ok w' ∧
      w'.at? h path = some (u.localize resolve) := by
  obtain ⟨w', written, shown⟩ := exists_writeAt (u.localize resolve) there
  refine ⟨w', ?_, written, shown⟩
  rw [reapplyStruct, decoded]
  simp only [written, bind, Except.bind, pure, Except.pure]

/-- A field **can be filled** where anything is parked: a single reference is written over, and a
struct is read again. -/
structure CanFill (w : World) (h : Handle) (field : Offset) (resolve : Resolver) (rep : RepIndex)
    (v : Value) : Prop where
  /-- A single reference makes way for an object. -/
  single : ∀ path rep' r, v.Parks resolve rep path (.single rep' r) → ∀ target : Handle,
    ∃ w', w.writeReference h (field :: path) target = .ok w' ∧
      w'.at? h (field :: path) = some (.object (some target))
  /-- A struct is made local anew, and what is still missing in it is handed back. -/
  struct : ∀ path rep' buffer bits missing,
    v.Parks resolve rep path (.struct rep' buffer bits missing) → ∀ resolve' : Resolver,
      ∃ u w', Value.at? path v = some u ∧
        w.reapplyStruct resolve' h (field :: path) buffer = .ok (u.missing resolve', w') ∧
        w'.at? h (field :: path) = some (u.localize resolve')

/-- A field that has the places of its value can be filled. -/
theorem HasPlaces.canFill (places : w.HasPlaces h field resolve rep v) (writable : v.IsWritable) :
    w.CanFill h field resolve rep v where
  single path rep' r parked target := by
    obtain ⟨old, there⟩ := Option.isSome_iff_exists.mp (places path _ parked)
    exact exists_writeAt (.object (some target)) there
  struct path rep' buffer bits missing parked resolve' := by
    obtain ⟨old, there⟩ := Option.isSome_iff_exists.mp (places path _ parked)
    obtain ⟨-, vs, part, decoded, -⟩ := (Value.parks_struct_iff writable).mp parked
    obtain ⟨w', ok, -, shown⟩ := exists_reapplyStruct decoded there resolve'
    exact ⟨.struct vs, w', part, ok, shown⟩

end World

/-- What is done to **fill** a position that is parked. -/
inductive Fill where
  /-- An object is put where a single reference is parked. -/
  | reference (path : List Offset) (target : Handle)
  /-- A struct is read again from its bytes. -/
  | struct (path : List Offset) (resolve : Resolver) (buffer : Bytes)

namespace Fill

/-- The effect on a field of an object. -/
def write (w : World) (h : Handle) (field : Offset) : Fill → Except PayloadError World
  | .reference path target => w.writeReference h (field :: path) target
  | .struct path resolve buffer =>
    (w.reapplyStruct resolve h (field :: path) buffer).map (·.2)

/-- A fill is **due** if a position is parked that asks for it. -/
def IsDue (resolve : Resolver) (rep : RepIndex) (v : Value) : Fill → Prop
  | .reference path _ => ∃ rep' r, v.Parks resolve rep path (.single rep' r)
  | .struct path _ buffer =>
    ∃ rep' bits missing, v.Parks resolve rep path (.struct rep' buffer bits missing)

variable {w : World} {h : Handle} {field : Offset}

/-- A fill that is due succeeds, and keeps the places. -/
theorem IsDue.write {fill : Fill} (due : fill.IsDue resolve rep v) (writable : v.IsWritable)
    (places : w.HasPlaces h field resolve rep v) :
    ∃ w', fill.write w h field = .ok w' ∧ w'.HasPlaces h field resolve rep v := by
  have addressable := Value.IsWritable.isAddressable v writable
  cases fill with
  | reference path target =>
    obtain ⟨rep', r, parked⟩ := due
    obtain ⟨-, part, -⟩ := (Value.parks_single_iff addressable).mp parked
    obtain ⟨w', ok, -⟩ := (places.canFill writable).single path rep' r parked target
    exact ⟨w', ok, places.writeAt addressable part id ok⟩
  | struct path resolve' buffer =>
    obtain ⟨rep', bits, missing, parked⟩ := due
    obtain ⟨-, vs, part, decoded, -⟩ := (Value.parks_struct_iff writable).mp parked
    obtain ⟨old, there⟩ := Option.isSome_iff_exists.mp (places path _ parked)
    obtain ⟨w', ok, written, -⟩ := World.exists_reapplyStruct decoded there resolve'
    exact ⟨w', by rw [Fill.write, ok, Except.map], places.writeAt addressable part id written⟩

/-- So do several fills, one after the other. -/
theorem foldlM_write (fills : List Fill) (due : ∀ fill ∈ fills, fill.IsDue resolve rep v)
    (writable : v.IsWritable) (places : w.HasPlaces h field resolve rep v) :
    ∃ w', fills.foldlM (fun w fill => fill.write w h field) w = .ok w' ∧
      w'.HasPlaces h field resolve rep v := by
  induction fills generalizing w with
  | nil => exact ⟨w, rfl, places⟩
  | cons fill rest ih =>
    rw [List.forall_mem_cons] at due
    obtain ⟨w₁, ok, kept⟩ := due.1.write writable places
    obtain ⟨w₂, more, kept⟩ := ih due.2 kept
    refine ⟨w₂, ?_, kept⟩
    rw [List.foldlM_cons, ok]
    exact more

end Fill

/-! ## The two walks agree -/

namespace Value

/-- What is **parked** for a value is what is **missing** in it. -/
structure ParksMissing (resolve : Resolver) (rep : RepIndex) (v : Value) : Prop where
  /-- The walk that makes the value local notes what is waited for, and no other reference. -/
  noted : ∃ noted, v.localizeNoting resolve ∅ = (v.localize resolve, noted) ∧
    (∀ r, r ∈ noted ↔ ∃ o, v.outstanding resolve rep = some o ∧ r ∈ o.references) ∧
    (v.outstanding resolve rep = none ↔ noted = ∅)
  /-- Nothing that is parked is resolved, at any depth, and all of it belongs to the property. -/
  unresolved : ∀ path inner, v.Parks resolve rep path inner →
    inner.isResolved = false ∧ inner.rep = rep
  /-- Single references are parked where missing ones stand, behind arrays alone. -/
  single : v.IsAddressable → ∀ path rep' r, v.Parks resolve rep path (.single rep' r) ↔
    rep' = rep ∧ v.at? path = some (.ref r) ∧ resolve r = none
  /-- The local value has holes there. -/
  hole : v.IsAddressable → ∀ path rep' r, v.Parks resolve rep path (.single rep' r) →
    Localized.at? path (v.localize resolve) = some (.object none)
  /-- Arrays are parked where arrays stand. -/
  array : v.IsAddressable → ∀ path rep' elements,
    v.Parks resolve rep path (.array rep' elements) → ∃ vs, v.at? path = some (.array vs)
  /-- Structs are parked where structs stand in which something is missing, and can be read. -/
  struct : v.IsWritable → ∀ path rep' buffer bits missing,
    v.Parks resolve rep path (.struct rep' buffer bits missing) ↔
      rep' = rep ∧ ∃ vs, v.at? path = some (.struct vs) ∧
        Wire.decodeValue buffer = .ok (.struct vs) ∧ bits = .ofNat (buffer.length * 8) ∧
        missing = (Value.struct vs).missing resolve ∧ missing ≠ ∅
  /-- Whatever can be read can be written. -/
  decoded : (∃ buffer, Wire.decodeValue buffer = .ok v) ∨
    (∃ payload as a, Wire.decodeFields payload = .ok as ∧ a ∈ as ∧ a.value = v) → v.IsWritable
  /-- A field that has just been written can be filled wherever something is parked, whatever has
  been filled before. -/
  filled : v.IsWritable → ∀ (w : World) (h : Handle) (field : Offset),
    w.field? h field = some (v.localize resolve) →
      ∀ fills : List Fill, (∀ fill ∈ fills, fill.IsDue resolve rep v) →
        ∃ w', fills.foldlM (fun w fill => fill.write w h field) w = .ok w' ∧
          w'.CanFill h field resolve rep v

/-- A value leaves nothing outstanding just if nothing is missing in it. -/
theorem outstanding_eq_none : v.outstanding resolve rep = none ↔ v.missing resolve = ∅ := by
  constructor
  · intro idle
    refine Std.ExtTreeSet.eq_empty_iff_forall_not_mem.mpr fun r mem => ?_
    obtain ⟨o, left, -⟩ :=
      (references_outstanding resolve rep r v).mpr (Resolver.mem_missing.mp mem)
    rw [idle] at left
    cases left
  · intro nothing
    cases left : v.outstanding resolve rep with
    | none => rfl
    | some o =>
      obtain ⟨r, waits⟩ := (isPending_outstanding resolve rep v left).exists_reference
      have lacks := (references_outstanding resolve rep r v).mp ⟨o, left, waits⟩
      have mem : r ∈ v.missing resolve := Resolver.mem_missing.mpr lacks
      rw [nothing] at mem
      exact absurd mem Std.ExtTreeSet.not_mem_empty

/-- **What is parked is what is missing**, in every value. -/
theorem parked_is_missing (resolve : Resolver) (rep : RepIndex) (v : Value) :
    v.ParksMissing resolve rep where
  noted := by
    have all : (∅ : ReferenceSet) ∪ v.missing resolve = v.missing resolve :=
      Std.ExtTreeSet.ext_mem fun r => by simp [Std.ExtTreeSet.mem_union_iff]
    refine ⟨v.missing resolve, ?_, fun r => ?_, outstanding_eq_none⟩
    · rw [localizeNoting_eq, all]
    · exact Resolver.mem_missing.trans (references_outstanding resolve rep r v).symm
  unresolved _ _ parked := parked.unresolved
  single addressable _ _ _ := parks_single_iff addressable
  hole addressable path rep' r parked := by
    obtain ⟨-, part, unknown⟩ := (parks_single_iff addressable).mp parked
    rw [at?_localize, part, Option.map_some, localize, unknown]
  array addressable path rep' elements parked := by
    obtain ⟨u, part, leaves⟩ := (parks_iff addressable).mp parked
    cases leaves with
    | @array vs _ => exact ⟨vs, part⟩
  struct writable _ _ _ _ _ := parks_struct_iff writable
  decoded := by
    rintro (⟨buffer, read⟩ | ⟨payload, as, a, read, mem, rfl⟩)
    · exact (Wire.decodeValue_eq_ok.mp read).1
    · exact (Wire.decodeFields_eq_ok.mp read).1.2 a mem
  filled writable w h field fresh fills due := by
    have places : w.HasPlaces h field resolve rep v :=
      World.hasPlaces_of_fresh (IsWritable.isAddressable v writable) fresh
    obtain ⟨w', ok, places⟩ := Fill.foldlM_write fills due writable places
    exact ⟨w', ok, places.canFill writable⟩

/-- A list of an object that is known, one that is not, a record with a third one, and a list of the
second one. -/
def partlyKnown : Value :=
  .array [.ref (.root 1), .ref (.root 2), .struct [.ref (.root 3), .int 4], .array [.ref (.root 2)]]

/-- The first object is known. -/
def onlyFirst (r : Reference) : Option Handle := if r = .root 1 then some ⟨9, 0⟩ else none

/-- The list is written, and all that is parked for it is filled. -/
theorem parked_is_missing_partlyKnown :
    let record := Value.struct [.ref (.root 3), .int 4]
    ∃ w w' : World, w.field? ⟨0, 0⟩ 5 = some (partlyKnown.localize onlyFirst) ∧
      Localized.at? [1] (partlyKnown.localize onlyFirst) = some (.object none) ∧
      [Fill.struct [2] onlyFirst (Wire.value record), .reference [3, 0] ⟨8, 0⟩,
        .reference [1] ⟨8, 0⟩].foldlM (fun w fill => fill.write w ⟨0, 0⟩ 5) w = .ok w' ∧
      w'.CanFill ⟨0, 0⟩ 5 onlyFirst 5 partlyKnown := by
  intro record
  have writable : partlyKnown.IsWritable := by
    simp [partlyKnown, ListWritable, IsWritable, AllWritable, Wire.countLimit]
  have agree := parked_is_missing onlyFirst 5 partlyKnown
  have addressable := IsWritable.isAddressable partlyKnown writable
  have lacks : record.missing onlyFirst ≠ ∅ := fun none => by
    have mem : Reference.root 3 ∈ record.missing onlyFirst :=
      Resolver.mem_missing.mpr ⟨List.mem_singleton_self _, rfl⟩
    rw [none] at mem
    exact Std.ExtTreeSet.not_mem_empty mem
  have read : Wire.decodeValue (Wire.value record) = .ok record :=
    Wire.decodeValue_eq_ok.mpr ⟨writable.at? (show at? [2] partlyKnown = some record from rfl), rfl⟩
  obtain ⟨object, found⟩ := Option.isSome_iff_exists.mp
    (show ((World.initial.placeLocal "Crate").2.object? ⟨0, 0⟩).isSome = true by decide +kernel)
  have fresh := World.field?_assign found onlyFirst (.at 5 partlyKnown)
  have single := (agree.single addressable [1] 5 (.root 2)).mpr ⟨rfl, rfl, rfl⟩
  obtain ⟨w', ok, can⟩ := agree.filled writable _ ⟨0, 0⟩ 5 fresh
    [.struct [2] onlyFirst (Wire.value record), .reference [3, 0] ⟨8, 0⟩,
      .reference [1] ⟨8, 0⟩] (by
    rw [List.forall_mem_cons, List.forall_mem_cons, List.forall_mem_singleton]
    exact ⟨⟨5, _, _, (agree.struct writable [2] 5 _ _ _).mpr
        ⟨rfl, _, rfl, read, rfl, rfl, lacks⟩⟩,
      ⟨5, _, (agree.single addressable [3, 0] 5 (.root 2)).mpr ⟨rfl, rfl, rfl⟩⟩,
      ⟨5, _, single⟩⟩)
  exact ⟨_, w', fresh, agree.hole addressable [1] 5 _ single, ok, can⟩

end Value

end Replica
