import Replica.Proofs.Neighbours

/-! # Places and positions

A place in an object is a field, and below it an index for every array that is entered. What waits
for a reference is filed under the same paths: a single reference or a struct under the path of the
place that it is to fill. A replay writes each of these places and leaves the others alone, whatever
the order in which it walks through them.

Main definitions:
* `World.at?` — what stands in a place.
* `Outstanding.StandsAt` — a position stands at a path inside another one.
* `Outstanding.IsSound` — structs can be read, and arrays list each index once.
* `Outstanding.ParkedAt` — a position is parked for a place.
* `Update.fills_resolve` — what a resolution puts in a place that waits. -/

namespace Replica

/-! ## Places -/

/-- What stands **at** a path of array indices. -/
def Localized.at? : List Offset → Localized → Option Localized
  | [], l => some l
  | i :: path, .array ls => ls[i.toNat]?.bind (at? path)
  | _ :: _, _ => none

/-- What stands **at** a place of a live object: a field, then indices into arrays. -/
def World.at? (w : World) (h : Handle) : List Offset → Option Localized
  | [] => none
  | field :: path => (w.field? h field).bind (Localized.at? path)

namespace Localized

variable {new : Localized} {base path rest : List Offset} {i j : Offset}

/-- What is replaced at a path stands there then. -/
theorem at?_of_replaceAt {l l' : Localized} (replaced : replaceAt new path l = some l') :
    at? path l' = some new := by
  induction path generalizing l l' with
  | nil =>
    cases replaced
    rfl
  | cons i path ih =>
    cases l with
    | array ls =>
      obtain ⟨old, found, more⟩ := Option.bind_eq_some_iff.mp replaced
      obtain ⟨changed, inside, made⟩ := Option.bind_eq_some_iff.mp more
      cases made
      obtain ⟨short, -⟩ := List.getElem?_eq_some_iff.mp found
      simp [at?, List.getElem?_set_self short, ih inside]
    | int _ | object _ | struct _ => cases replaced

/-- What stands at a path can be replaced. -/
theorem exists_replaceAt (new : Localized) {l old : Localized} (there : at? path l = some old) :
    ∃ l', replaceAt new path l = some l' := by
  induction path generalizing l with
  | nil => exact ⟨new, rfl⟩
  | cons i path ih =>
    cases l with
    | array ls =>
      obtain ⟨element, found, below⟩ := Option.bind_eq_some_iff.mp there
      obtain ⟨changed, inside⟩ := ih below
      exact ⟨.array (ls.set i.toNat changed), by simp [replaceAt, found, inside]⟩
    | int _ | object _ | struct _ => cases there

/-- Replacing at a path leaves alone what stands where another path branches off. -/
theorem at?_replaceAt_of_ne (differ : i ≠ j) {l l' : Localized}
    (replaced : replaceAt new (base ++ i :: path) l = some l') :
    at? (base ++ j :: rest) l' = at? (base ++ j :: rest) l := by
  have apart : i.toNat ≠ j.toNat := fun same => differ (UInt32.toNat_inj.mp same)
  induction base generalizing l l' with
  | nil =>
    cases l with
    | array ls =>
      obtain ⟨old, found, more⟩ := Option.bind_eq_some_iff.mp replaced
      obtain ⟨changed, inside, made⟩ := Option.bind_eq_some_iff.mp more
      cases made
      simp [at?, List.getElem?_set_ne apart]
    | int _ | object _ | struct _ => cases replaced
  | cons b base ih =>
    cases l with
    | array ls =>
      obtain ⟨old, found, more⟩ := Option.bind_eq_some_iff.mp replaced
      obtain ⟨changed, inside, made⟩ := Option.bind_eq_some_iff.mp more
      cases made
      obtain ⟨short, -⟩ := List.getElem?_eq_some_iff.mp found
      simp [at?, List.getElem?_set_self short, found, ih inside]
    | int _ | object _ | struct _ => cases replaced

end Localized

namespace World

variable {w w' : World} {h : Handle} {new old : Localized} {base path rest : List Offset}
  {field i j : Offset}

/-- Places are those of live objects. -/
theorem isAlive_of_at? (there : w.at? h path = some old) : w.isAlive h = true := by
  cases path with
  | nil => cases there
  | cons field path =>
    obtain ⟨l, shown, -⟩ := Option.bind_eq_some_iff.mp there
    obtain ⟨object, found, -⟩ := Option.bind_eq_some_iff.mp shown
    exact isAlive_of_object? found

/-- A place depends on its field alone. -/
theorem at?_congr (same : w'.field? h field = w.field? h field) :
    w'.at? h (field :: path) = w.at? h (field :: path) := by
  rw [at?, at?, same]

/-- What writing at a path does to the field. -/
theorem field?_writeAt (ok : w.writeAt h (field :: path) new = .ok w') :
    ∃ l l', w.field? h field = some l ∧ Localized.replaceAt new path l = some l' ∧
      w'.field? h field = some l' := by
  unfold writeAt at ok
  cases found : w.object? h with
  | none => simp [target, found, bind, Except.bind] at ok
  | some object =>
    have alive := isAlive_of_object? found
    simp only [target, found, bind, Except.bind, pure, Except.pure] at ok
    split at ok
    · rename_i object' replaced
      obtain ⟨l, there, more⟩ := Option.bind_eq_some_iff.mp replaced
      obtain ⟨l', inside, made⟩ := Option.bind_eq_some_iff.mp more
      cases made
      cases ok
      refine ⟨l, l', ?_, inside, ?_⟩
      · rw [field?, found]
        exact there
      · show ((w.putObject h (object.putField field l')).object? h).bind (·.fields[field]?) = _
        rw [object?_putObject alive, if_pos rfl]
        simp [Object.putField]
    · cases ok

/-- What stands in a place can be overwritten. -/
theorem exists_writeAt (new : Localized) (there : w.at? h path = some old) :
    ∃ w', w.writeAt h path new = .ok w' ∧ w'.at? h path = some new := by
  cases path with
  | nil => cases there
  | cons field path =>
    obtain ⟨l, shown, below⟩ := Option.bind_eq_some_iff.mp there
    obtain ⟨object, found, stored⟩ := Option.bind_eq_some_iff.mp shown
    obtain ⟨l', replaced⟩ := Localized.exists_replaceAt new below
    have itself : w.putObject h (object.putField field l) = w := by
      rw [Object.putField_of_getElem? stored, putObject,
        insert_of_getElem? (getElem?_of_object? found)]
    have written := fits_field (isAlive_of_object? found) object field path l new l' replaced
    beta_reduce at written
    rw [itself] at written
    refine ⟨_, written, ?_⟩
    obtain ⟨x, x', shown', replaced', shown''⟩ := field?_writeAt written
    rw [at?, shown'', Option.bind_some]
    exact Localized.at?_of_replaceAt replaced'

/-- Writing in a place leaves alone what stands where another path branches off. -/
theorem at?_writeAt_of_ne (differ : i ≠ j) (ok : w.writeAt h (base ++ i :: path) new = .ok w') :
    w'.at? h (base ++ j :: rest) = w.at? h (base ++ j :: rest) := by
  cases base with
  | nil => exact at?_congr (field?_of_writeAt ok (Ne.symm differ))
  | cons field base =>
    obtain ⟨l, l', shown, replaced, shown'⟩ := field?_writeAt ok
    simp only [List.cons_append, at?, shown, shown', Option.bind_some]
    exact Localized.at?_replaceAt_of_ne differ replaced

end World

/-! ## Replays and places -/

namespace Replay

variable {replay : Replay} {base rest : List Offset} {i j : Offset}

/-- The replay of a position leaves alone what stands where another path branches off. -/
theorem at?_position (differ : i ≠ j) (w : World) (path : List Offset) (o : Outstanding) :
    (replay.position w (base ++ i :: path) o).1.at? replay.object (base ++ j :: rest) =
      w.at? replay.object (base ++ j :: rest) :=
  replay.position_keeps (P := fun w' => w'.at? replay.object (base ++ j :: rest) =
      w.at? replay.object (base ++ j :: rest))
    (fun _ before ok => by
      rw [List.append_assoc, List.cons_append] at ok
      exact (World.at?_writeAt_of_ne differ ok).trans before) rfl o

/-- Positions below other indices leave a place alone. -/
theorem at?_positions (replay : Replay) (w : World) (base rest : List Offset)
    {elements : List (Offset × Outstanding)} (others : j ∉ elements.map (·.1)) :
    (replay.positions w base elements).1.at? replay.object (base ++ j :: rest) =
      w.at? replay.object (base ++ j :: rest) := by
  induction elements generalizing w with
  | nil => rfl
  | cons e more ih =>
    rw [List.map_cons, List.mem_cons, not_or] at others
    rw [positions]
    exact (ih _ others.2).trans (at?_position (Ne.symm others.1) w [] e.2)

/-- Positions are replayed one after the other. -/
theorem positions_append (w : World) (path : List Offset)
    (front back : List (Offset × Outstanding)) :
    (replay.positions w path (front ++ back)).1 =
      (replay.positions (replay.positions w path front).1 path back).1 := by
  induction front generalizing w with
  | nil => rfl
  | cons e more ih =>
    rw [List.cons_append, positions, positions]
    exact ih _

end Replay

/-! ## Positions inside positions -/

namespace Outstanding

/-- A position **stands at** a path of array indices inside another one. -/
def StandsAt (inner : Outstanding) : List Offset → Outstanding → Prop
  | [], o => o = inner
  | i :: path, .array _ elements => ∃ o, (i, o) ∈ elements ∧ StandsAt inner path o
  | _ :: _, _ => False

/-- The value that a position spells; an array only collects its elements. -/
def value? : Outstanding → Option Value
  | .single _ r => some (.ref r)
  | .struct _ buffer _ _ => (Wire.decodeValue buffer).toOption
  | .array _ _ => none

/-- A position that collects the elements of an **array** and is filled through them. -/
def IsArray : Outstanding → Prop
  | .array _ _ => True
  | .single _ _ | .struct _ _ _ _ => False

/-- A position of a **struct**, which is filled as a whole. -/
def IsStruct : Outstanding → Prop
  | .struct _ _ _ _ => True
  | .single _ _ | .array _ _ => False

/-- What a position **takes** for local when an arrival is replayed: a single reference the object
that arrives, a struct what is known. -/
def takes (resolve : Resolver) (resolved : Handle) : Outstanding → Resolver
  | .single _ _ => fun _ => some resolved
  | .struct _ _ _ _ | .array _ _ => resolve

mutual

/-- A position is **sound** if its structs can be read and its arrays list each index once. -/
def IsSound : Outstanding → Prop
  | .single _ _ => True
  | .struct rep buffer bits missing => ((struct rep buffer bits missing).value?).isSome
  | .array _ elements => (elements.map (·.1)).Nodup ∧ AreSound elements

/-- Every one of some elements is sound. -/
def AreSound : List (Offset × Outstanding) → Prop
  | [] => True
  | (_, o) :: rest => o.IsSound ∧ AreSound rest

end

theorem areSound_iff {elements : List (Offset × Outstanding)} :
    AreSound elements ↔ ∀ e ∈ elements, e.2.IsSound := by
  induction elements with
  | nil => simp [AreSound]
  | cons e rest ih => simp [AreSound, ih]

variable {inner : Outstanding} {path : List Offset}

/-- What a position waits for, any position that it stands in waits for. -/
theorem StandsAt.references {o : Outstanding} (has : inner.StandsAt path o) {r : Reference}
    (waits : r ∈ inner.references) : r ∈ o.references := by
  induction path generalizing o with
  | nil =>
    obtain rfl : o = inner := has
    exact waits
  | cons i path ih =>
    cases o with
    | array rep elements =>
      obtain ⟨o, mem, below⟩ := has
      have within := ih below
      exact Update.mem_referencesAll.mpr ⟨(i, o), mem, within⟩
    | single _ _ | struct _ _ _ _ => exact has.elim

/-- What stands in a sound position is sound. -/
theorem StandsAt.isSound {o : Outstanding} (has : inner.StandsAt path o) (sound : o.IsSound) :
    inner.IsSound := by
  induction path generalizing o with
  | nil =>
    obtain rfl : o = inner := has
    exact sound
  | cons i path ih =>
    cases o with
    | array rep elements =>
      obtain ⟨o, mem, below⟩ := has
      exact ih below (areSound_iff.mp sound.2 _ mem)
    | single _ _ | struct _ _ _ _ => exact has.elim

/-- A sound position that is no array spells a value. -/
theorem exists_value (sound : inner.IsSound) (whole : ¬inner.IsArray) :
    ∃ v, inner.value? = some v := by
  cases inner with
  | single rep r => exact ⟨.ref r, rfl⟩
  | struct rep buffer bits missing => exact Option.isSome_iff_exists.mp sound
  | array _ _ => exact absurd trivial whole

/-- What a position takes for local makes of its value what the resolver makes of it, just if the
position is a struct, or the resolver gives the reference that it waits for the same object. -/
theorem localize_takes_iff {v : Value} (spells : inner.value? = some v) {r : Reference}
    (waits : r ∈ inner.references) (resolve : Resolver) (resolved : Handle) :
    v.localize (inner.takes resolve resolved) = v.localize resolve ↔
      inner.IsStruct ∨ resolve r = some resolved := by
  cases inner with
  | single rep q =>
    cases spells
    obtain rfl : r = q := List.mem_singleton.mp waits
    simp [takes, IsStruct, Value.localize, eq_comm]
  | struct rep buffer bits missing => simp [takes, IsStruct]
  | array _ _ => cases spells

end Outstanding

/-! ## Replays of positions inside positions -/

/-- The replay of a single reference or a struct fills its place. -/
theorem Replay.fills_leaf (replay : Replay) {o : Outstanding} {v : Value}
    (spells : o.value? = some v) (waits : replay.reference ∈ o.references) (w : World)
    {path : List Offset} {old : Localized} (there : w.at? replay.object path = some old) :
    (replay.position w path o).1.at? replay.object path =
      some (v.localize (o.takes replay.resolve replay.resolved)) := by
  cases o with
  | single rep r =>
    cases spells
    have same : r = replay.reference := (List.mem_singleton.mp waits).symm
    obtain ⟨w', written, holds⟩ := World.exists_writeAt (.object (some replay.resolved)) there
    rw [position, if_pos same, World.writeReference, written]
    exact holds
  | struct rep buffer bits missing =>
    have lacks : missing.contains replay.reference = true :=
      (Outstanding.waitsOn_iff _ (.struct rep buffer bits missing)).mpr waits
    have decoded : Wire.decodeValue buffer = .ok v := by
      rw [Outstanding.value?] at spells
      cases read : Wire.decodeValue buffer with
      | error flaw =>
        rw [read] at spells
        cases spells
      | ok v' =>
        rw [read] at spells
        cases spells
        rfl
    obtain ⟨w', written, holds⟩ := World.exists_writeAt (v.localize replay.resolve) there
    rw [position, if_pos lacks, World.reapplyStruct, decoded]
    simp only [written, bind, Except.bind, pure, Except.pure]
    exact holds
  | array rep elements => cases spells

/-- **A position inside another one is replayed as by itself**: its place ends up with what the
replay of the inner position alone puts there, where the place holds what it held. -/
theorem Replay.isolate_position (replay : Replay) {inner o : Outstanding} {path : List Offset}
    (stands : inner.StandsAt path o) (sound : o.IsSound) (w : World) (base : List Offset) :
    ∃ w₁ : World, w₁.at? replay.object (base ++ path) = w.at? replay.object (base ++ path) ∧
      (replay.position w base o).1.at? replay.object (base ++ path) =
        (replay.position w₁ (base ++ path) inner).1.at? replay.object (base ++ path) := by
  induction path generalizing o base w with
  | nil =>
    obtain rfl : o = inner := stands
    exact ⟨w, rfl, by rw [List.append_nil]⟩
  | cons i path ih =>
    by_cases waits : replay.reference ∈ o.references
    · cases o with
      | array rep elements =>
        obtain ⟨o, mem, below⟩ := stands
        -- The index is listed once, so what is replayed before and after it is elsewhere.
        obtain ⟨front, back, split⟩ := List.append_of_mem mem
        have once : i ∉ front.map (·.1) ∧ i ∉ back.map (·.1) := by
          have nodup := sound.1
          rw [split, List.map_append, List.map_cons] at nodup
          have apart := (List.nodup_middle.mp nodup).notMem
          rwa [List.mem_append, not_or] at apart
        obtain ⟨w₁, before, filled⟩ := ih below (Outstanding.areSound_iff.mp sound.2 _ mem)
          (replay.positions w base front).1 (base ++ [i])
        rw [List.append_assoc, List.singleton_append] at before filled
        refine ⟨w₁, before.trans (at?_positions replay w base path once.1), ?_⟩
        have lacks : Outstanding.anyWaitsOn replay.reference elements = true :=
          (Outstanding.anyWaitsOn_iff _ _).mpr waits
        rw [position, if_pos lacks]
        show (replay.positions w base elements).1.at? _ _ = _
        rw [split, positions_append, positions]
        exact (at?_positions replay _ base path once.2).trans filled
      | single _ _ | struct _ _ _ _ => exact stands.elim
    · have idle : replay.reference ∉ inner.references := fun within =>
        waits (Outstanding.StandsAt.references stands within)
      exact ⟨w, rfl, by rw [position_of_not_mem w _ waits, position_of_not_mem w _ idle]⟩

/-! ## Resolutions -/

/-- A position is **parked at** a place: at a path inside what is parked for the field. -/
def Outstanding.ParkedAt (inner : Outstanding) (p : Parked) : List Offset → Prop
  | [] => False
  | field :: path => ∃ o, p[field]? = some o ∧ inner.StandsAt path o

/-- What is parked is **sound** if every field of it is. -/
def Parked.IsSound (p : Parked) : Prop :=
  ∀ (field : Offset) (o : Outstanding), p[field]? = some o → o.IsSound

namespace Outstanding.ParkedAt

variable {inner : Outstanding} {p : Parked} {place : List Offset}

/-- Where a position is parked, something is. -/
theorem ne_empty (h : inner.ParkedAt p place) : p ≠ ∅ := by
  rintro rfl
  cases place with
  | nil => exact h
  | cons field path =>
    obtain ⟨o, found, -⟩ := h
    simp at found

/-- What is parked in what is sound is sound. -/
theorem isSound (h : inner.ParkedAt p place) (sound : p.IsSound) : inner.IsSound := by
  cases place with
  | nil => exact h.elim
  | cons field path =>
    obtain ⟨o, found, stands⟩ := h
    exact stands.isSound (sound field o found)

end Outstanding.ParkedAt

namespace Update

variable {inner : Outstanding} {v : Value} {r : Reference} {t : Subscriber} {place : List Offset}
  {old : Localized}

/-- Serving a subscriber fills the places of its object that wait. -/
theorem fills_serve {state : Resolution} (resolve : Resolver) (resolved : Handle)
    (spells : inner.value? = some v) (waits : r ∈ inner.references)
    (parked : inner.ParkedAt (state.waitlist.parkedOf t) place)
    (sound : (state.waitlist.parkedOf t).IsSound)
    (there : state.world.at? t.object place = some old) :
    (serve resolve r resolved state t).world.at? t.object place =
      some (v.localize (inner.takes resolve resolved)) := by
  cases place with
  | nil => exact parked.elim
  | cons field path =>
    obtain ⟨o, found, stands⟩ := parked
    -- The field is replayed on its own, in a world where it is as it was.
    obtain ⟨w₁, before, filled, -⟩ :=
      isolate_serve resolve r resolved (World.isAlive_of_at? there) found
    rw [World.at?_congr filled]
    rw [← World.at?_congr before] at there
    -- So is the position, in a world where its place is as it was.
    obtain ⟨w₂, before, filled⟩ := Replay.isolate_position ⟨t.object, r, resolved, resolve⟩ stands
      (sound field o found) w₁ [field]
    exact filled.trans (Replay.fills_leaf ⟨t.object, r, resolved, resolve⟩ spells waits w₂
      (before.trans there))

/-- **A resolution fills the places that wait** for the reference in the object of a subscriber that
stands alone: a single reference with the object that is resolved, and a struct with what is
known. -/
theorem fills_resolve {w : World} {l : Waitlist} (coherent : l.Coherent)
    (alone : l.StandsAlone t) (resolve : Resolver) (resolved : Handle)
    (spells : inner.value? = some v) (waits : r ∈ inner.references)
    (parked : inner.ParkedAt (l.parkedOf t) place) (sound : (l.parkedOf t).IsSound)
    (there : w.at? t.object place = some old) :
    (Update.resolve w l resolve r resolved).world.at? t.object place =
      some (v.localize (inner.takes resolve resolved)) := by
  have served : (t ∉ l.subscribersOf r ∧ Untouched t w l _ _) ∨ _ :=
    exists_served resolve resolved (alone.eq_of_subscribed coherent)
  cases place with
  | nil => exact parked.elim
  | cons field path =>
    rcases served with ⟨out, -⟩ | ⟨-, state, before, after⟩
    · obtain ⟨o, found, stands⟩ := parked
      refine absurd ?_ out
      rw [coherent.mem_subscribersOf, Parked.mem_references]
      exact ⟨field, o, found, stands.references waits⟩
    · rw [← before.parked t rfl] at parked sound
      rw [← World.at?_congr (before.field field)] at there
      rw [World.at?_congr (after.field field)]
      exact fills_serve resolve resolved spells waits parked sound there

end Update

end Replica
