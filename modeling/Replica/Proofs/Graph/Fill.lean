import Mathlib.Data.List.Nodup
import Replica.Proofs.Graph.Reflects

/-! # What a replay fills

A replay walks down the positions of an object that wait for its reference and writes each of them
again. Whatever a field reflects before, it reflects after, and the reference is no longer due.

Main definitions:
* `World.Fits` — a place in a world that can be written through a path.
* `Replay.position_reflects` — the replay of one position.
* `Replay.positions_fields` — the replay of the fields of an object. -/

namespace Replica

/-! ## Places -/

/-- A place **fits** a path of an object if what is written at the path, or further down, is what
stands in the place then. -/
def World.Fits (h : Handle) (path : List Offset) (put : Localized → World) : Prop :=
  ∀ (rest : List Offset) (old new changed : Localized),
    Localized.replaceAt new rest old = some changed →
    (put old).writeAt h (path ++ rest) new = .ok (put changed)

namespace World.Fits

variable {h : Handle} {path : List Offset} {put : Localized → World}

/-- Writing at the path itself. -/
theorem write (fits : Fits h path put) (old new : Localized) :
    (put old).writeAt h path new = .ok (put new) := by
  have written := fits [] old new new (Localized.replaceAt_nil new old)
  rwa [List.append_nil] at written

/-- The elements of an array fit their indices. -/
theorem element (fits : Fits h path put) (before after : List Localized) {i : Offset}
    (index : i.toNat = before.length) :
    Fits h (path ++ [i]) fun x => put (.array (before ++ x :: after)) := by
  intro rest old new changed replaced
  rw [List.append_assoc]
  refine fits _ _ _ _ ?_
  -- The index picks out the element between those before and after it.
  have here : (before ++ old :: after)[i.toNat]? = some old := by
    rw [index, List.getElem?_append_right (Nat.le_refl _), Nat.sub_self]
    rfl
  have set : (before ++ old :: after).set i.toNat changed = before ++ changed :: after := by
    rw [index, List.set_append_right _ _ (Nat.le_refl _), Nat.sub_self]
    rfl
  simp only [List.singleton_append, Localized.replaceAt, here, replaced, set, Option.bind_eq_bind,
    Option.bind_some, Option.pure_def]

end World.Fits

/-- An entry that is replaced twice is replaced by the last one. -/
theorem insert_insert {α β : Type} [Ord α] [Std.TransOrd α] [Std.LawfulEqOrd α]
    (m : Std.ExtTreeMap α β) (k : α) (a b : β) : (m.insert k a).insert k b = m.insert k b := by
  refine Std.ExtTreeMap.ext_getElem? ?_
  intro j
  rw [Std.ExtTreeMap.getElem?_insert, Std.ExtTreeMap.getElem?_insert,
    Std.ExtTreeMap.getElem?_insert]
  split
  · rfl
  · rfl

/-- An entry that is replaced by itself stays. -/
theorem insert_of_getElem? {α β : Type} [Ord α] [Std.TransOrd α] [Std.LawfulEqOrd α]
    {m : Std.ExtTreeMap α β} {k : α} {a : β} (found : m[k]? = some a) : m.insert k a = m := by
  refine Std.ExtTreeMap.ext_getElem? ?_
  intro j
  rw [Std.ExtTreeMap.getElem?_insert]
  split
  · rename_i same
    rw [← found, Std.LawfulEqOrd.eq_of_compare same]
  · rfl

/-- A world with an object in the place of the one it has. -/
def World.putObject (w : World) (h : Handle) (object : Object) : World :=
  { w with objects := w.objects.insert h object }

/-- An object with a field in the place of the one it has. -/
def Object.putField (object : Object) (field : Offset) (l : Localized) : Object :=
  { object with fields := object.fields.insert field l }

/-- Only a live object is found. -/
theorem World.isAlive_of_object? {w : World} {h : Handle} {object : Object}
    (found : w.object? h = some object) : w.isAlive h = true := by
  rw [object?] at found
  split at found
  · rename_i alive
    exact alive
  · cases found

/-- An object that is found is stored. -/
theorem World.getElem?_of_object? {w : World} {h : Handle} {object : Object}
    (found : w.object? h = some object) : w.objects[h]? = some object := by
  rw [object?] at found
  split at found
  · exact found
  · cases found

/-- An object that is put where a handle is in use is found there, and the others are as before. -/
theorem World.object?_putObject {w : World} {h : Handle} (alive : w.isAlive h = true)
    (object : Object) (k : Handle) :
    (w.putObject h object).object? k = if h = k then some object else w.object? k := by
  have same : (w.putObject h object).isAlive k = w.isAlive k := rfl
  rw [object?, same, object?, putObject, Std.ExtTreeMap.getElem?_insert]
  by_cases eq : h = k
  · subst k
    simp [alive]
  · simp [eq]

/-- A field of a live object fits its path. -/
theorem World.fits_field {w : World} {h : Handle} (alive : w.isAlive h = true) (object : Object)
    (field : Offset) : Fits h [field] fun l => w.putObject h (object.putField field l) := by
  intro rest old new changed replaced
  have there : (w.putObject h (object.putField field old)).target h =
      .ok (object.putField field old) := by
    rw [target, object?_putObject alive, if_pos rfl]
  have inside : (object.putField field old).replaceAt new (field :: rest) =
      some (object.putField field changed) := by
    simp [Object.replaceAt, Object.putField, replaced, insert_insert]
  -- The object is looked up, changed inside the field, and put back in its own place.
  simp only [writeAt, there, bind, Except.bind, List.singleton_append, inside]
  simp [putObject, pure, Except.pure, insert_insert]

/-! ## Positions -/

variable {due : Reference → Prop} {rep : RepIndex} {replay : Replay}

/-- What is due once the arrivals of a reference are over. -/
def AllBut (r : Reference) (due : Reference → Prop) (q : Reference) : Prop := due q ∧ q ≠ r

/-- What waits for another reference is passed over. -/
theorem Replay.position_of_not_mem (w : World) (path : List Offset) {o : Outstanding}
    (unawaited : replay.reference ∉ o.references) :
    replay.position w path o = (w, [], some o) := by
  have waits : o.waitsOn replay.reference = false :=
    Bool.eq_false_iff.mpr fun waits => unawaited ((Outstanding.waitsOn_iff _ _).mp waits)
  cases o with
  | single rep r =>
    have differs : r ≠ replay.reference := by simpa [Outstanding.waitsOn] using waits
    rw [position, if_neg differs]
  | struct rep buffer bits missing =>
    have lacks : missing.contains replay.reference = false := waits
    rw [position, lacks]
    rfl
  | array rep elements =>
    have lacks : Outstanding.anyWaitsOn replay.reference elements = false := waits
    rw [position, lacks]
    rfl

mutual

/-- **The replay of a position** leaves it reflected, and its reference no longer due. -/
theorem Replay.position_reflects (known : replay.resolve replay.reference = some replay.resolved) :
    (v : Value) → v.IsWritable → {path : List Offset} → {put : Localized → World} →
    World.Fits replay.object path put → {l : Localized} → {o : Outstanding} →
    replay.reference ∈ o.references → v.Reflects due replay.resolve rep l (some o) →
      ∃ l' changed left, replay.position (put l) path o = (put l', changed, left) ∧
        v.Reflects (AllBut replay.reference due) replay.resolve rep l' left
  | .int i, _, path, put, fits, l, o, _, h => by
    obtain ⟨old, -, -, none⟩ := h
    cases none
  | .null, _, path, put, fits, l, o, _, h => by
    obtain ⟨old, -, -, none⟩ := h
    cases none
  -- A single reference is the one that is replayed, and its field holds the object from now on.
  | .ref r, _, path, put, fits, l, o, waits, h => by
    obtain ⟨old, -, -, left⟩ := h
    rw [Value.outstanding] at left
    split at left
    · cases left
      have same : r = replay.reference := (List.mem_singleton.mp waits).symm
      refine ⟨.object (some replay.resolved), [rep], none, ?_, ?_⟩
      · rw [position, if_pos same, World.writeReference, fits.write]
      · refine ⟨replay.resolve, .refl _, ?_, ?_⟩
        · rw [Value.localize, same, known]
        · rw [Value.outstanding, same, known]
          rfl
    · cases left
  | .struct vs, writable, path, put, fits, l, o, waits, h => by
    obtain ⟨old, -, -, left⟩ := h
    rw [Value.outstanding] at left
    dsimp only at left
    split at left
    · cases left
    · cases left
      have lacks : ((Value.struct vs).missing old).contains replay.reference = true :=
        (Outstanding.waitsOn_iff _ _).mpr waits
      -- The buffer spells the struct, which is made local anew with all that is known by now.
      have decoded : Wire.decodeValue (Wire.value (.struct vs)) = .ok (.struct vs) :=
        Wire.decodeValue_eq_ok.mpr ⟨writable, rfl⟩
      refine ⟨(Value.struct vs).localize replay.resolve, [rep], _, ?_, replay.resolve, .refl _, rfl,
        rfl⟩
      rw [position, if_pos lacks, World.reapplyStruct, decoded]
      simp only [fits.write, bind, Except.bind, pure, Except.pure]
      rw [Value.outstanding]
  | .array vs, writable, path, put, fits, l, o, waits, h => by
    obtain ⟨ls, os, elements, rfl, left⟩ := h
    obtain ⟨short, parts⟩ := Value.isWritable_array.mp writable
    split at left
    · cases left
    · cases left
      have lacks : Outstanding.anyWaitsOn replay.reference os = true :=
        (Outstanding.anyWaitsOn_iff _ _).mpr waits
      -- The elements are walked through one by one, the first of them with none before it.
      obtain ⟨ls', changed, left, filled, reflects⟩ :=
        Replay.positions_reflect known vs (Value.allWritable_iff.mpr parts) fits []
          (i := 0) rfl (by simpa using short) elements
      refine ⟨.array ls', if changed.isEmpty then [] else [rep],
        if left.isEmpty then none else some (.array rep left), ?_, ls', left, reflects, rfl, rfl⟩
      rw [List.nil_append, List.nil_append] at filled
      rw [position, if_pos lacks, filled]

/-- The replay of the elements of an array, of which some come `before`. -/
theorem Replay.positions_reflect (known : replay.resolve replay.reference = some replay.resolved) :
    (vs : List Value) → Value.AllWritable vs → {path : List Offset} → {put : Localized → World} →
    World.Fits replay.object path put → (before : List Localized) → {i : Offset} →
    i.toNat = before.length → before.length + vs.length < Wire.countLimit →
    {ls : List Localized} → {os : List (Offset × Outstanding)} →
    Value.ReflectsFrom due replay.resolve rep i vs ls os →
      ∃ ls' changed left, replay.positions (put (.array (before ++ ls))) path os =
          (put (.array (before ++ ls')), changed, left) ∧
        Value.ReflectsFrom (AllBut replay.reference due) replay.resolve rep i vs ls' left
  | [], _, path, put, fits, before, i, index, short, ls, os, h => by
    obtain ⟨rfl, rfl⟩ := h
    exact ⟨[], [], [], rfl, rfl, rfl⟩
  | v :: vs, writable, path, put, fits, before, i, index, short, ls, os, h => by
    obtain ⟨l, o, ls', os', first, rest, rfl, rfl⟩ := h
    obtain ⟨writable_first, writable_rest⟩ := writable
    rw [List.length_cons] at short
    -- The first element is replayed, and the others then have one more before them.
    have next : (i + 1).toNat = before.length + 1 := by
      rw [UInt32.toNat_add, index]
      simp only [Wire.countLimit] at short
      have one : (1 : UInt32).toNat = 1 := rfl
      omega
    have later : ∀ l', ∃ ls'' changed left,
        replay.positions (put (.array (before ++ l' :: ls'))) path os' =
          (put (.array (before ++ l' :: ls'')), changed, left) ∧
        Value.ReflectsFrom (AllBut replay.reference due) replay.resolve rep (i + 1) vs ls''
          left := by
      intro l'
      have along := Replay.positions_reflect known vs writable_rest fits (before ++ [l'])
        (by rw [next, List.length_append, List.length_singleton])
        (by rw [List.length_append, List.length_singleton]; omega) rest
      simpa only [List.append_assoc, List.singleton_append] using along
    -- An element that waits for nothing stays, and so does one that waits for something else.
    cases o with
    | none =>
      obtain ⟨ls'', changed, left, filled, reflects⟩ := later l
      exact ⟨l :: ls'', changed, left, filled, l, none, ls'', left, first.spare nofun, reflects,
        rfl, rfl⟩
    | some o =>
      have filled_first : ∃ l' changed left, replay.position (put (.array (before ++ l :: ls')))
          (path ++ [i]) o = (put (.array (before ++ l' :: ls')), changed, left) ∧
          v.Reflects (AllBut replay.reference due) replay.resolve rep l' left := by
        by_cases waits : replay.reference ∈ o.references
        · exact Replay.position_reflects known v writable_first (fits.element before ls' index)
            waits first
        · exact ⟨l, [], some o, position_of_not_mem _ _ waits, first.spare fun x eq => by
            cases eq
            exact waits⟩
      obtain ⟨l', changed, left, filled, reflects⟩ := filled_first
      obtain ⟨ls'', changed', left', filled', reflects'⟩ := later l'
      refine ⟨l' :: ls'', changed ++ changed', _, ?_, l', left, ls'', left', reflects, reflects',
        rfl, rfl⟩
      rw [positions, filled]
      cases left with
      | none => simp only [filled']
      | some x => simp only [filled']

end

/-! ## Objects -/

/-- An object keeps what it is but for a field. -/
theorem Object.putField_of_getElem? {object : Object} {field : Offset} {l : Localized}
    (shown : object.fields[field]? = some l) : object.putField field l = object := by
  rw [putField, insert_of_getElem? shown]

/-- The replay of a field. -/
theorem Replay.position_field {w : World} {object : Object} {field : Offset} {o : Outstanding}
    {a : Assignment} {l : Localized}
    (known : replay.resolve replay.reference = some replay.resolved)
    (alive : w.isAlive replay.object = true) (writable : a.value.IsWritable)
    (shown : object.fields[field]? = some l)
    (reflects : a.value.Reflects due replay.resolve a.rep l (some o)) :
    ∃ l' changed left, replay.position (w.putObject replay.object object) [field] o =
        (w.putObject replay.object (object.putField field l'), changed, left) ∧
      a.value.Reflects (AllBut replay.reference due) replay.resolve a.rep l' left := by
  have itself := Object.putField_of_getElem? shown
  by_cases waits : replay.reference ∈ o.references
  · have filled := position_reflects known a.value writable (World.fits_field alive object field)
      waits reflects
    rwa [itself] at filled
  · refine ⟨l, [], some o, by rw [position_of_not_mem _ _ waits, itself], reflects.spare ?_⟩
    intro x same
    cases same
    exact waits

/-- The replay of several fields: each of them still reflects its last assignment, with what `left`
says in the place of what it has waited for, and the other fields are as before. -/
theorem Replay.positions_fields (replay : Replay) {w : World} {last : Offset → Option Assignment}
    (known : replay.resolve replay.reference = some replay.resolved)
    (alive : w.isAlive replay.object = true)
    (writable : ∀ k a, last k = some a → a.value.IsWritable)
    (entries : List (Offset × Outstanding)) (distinct : (entries.map (·.1)).Nodup)
    (object : Object) (reflected : ∀ k o, (k, o) ∈ entries → ∃ a l, last k = some a ∧
      object.fields[k]? = some l ∧ a.value.Reflects due replay.resolve a.rep l (some o)) :
    ∃ (fields : Std.ExtTreeMap Offset Localized) (changed : List RepIndex)
        (left : Offset → Option Outstanding),
      replay.positions (w.putObject replay.object object) [] entries =
        (w.putObject replay.object { object with fields }, changed,
          entries.filterMap fun e => (left e.1).map (e.1, ·)) ∧
      (∀ k, k ∉ entries.map (·.1) → fields[k]? = object.fields[k]?) ∧
      ∀ k o, (k, o) ∈ entries → ∃ a l, last k = some a ∧ fields[k]? = some l ∧
        a.value.Reflects (AllBut replay.reference due) replay.resolve a.rep l (left k) := by
  induction entries generalizing object with
  | nil => exact ⟨object.fields, [], fun _ => none, rfl, fun _ _ => rfl, nofun⟩
  | cons e rest ih =>
    obtain ⟨field, o⟩ := e
    obtain ⟨fresh, distinct⟩ := List.nodup_cons.mp distinct
    have elsewhere : ∀ k o, (k, o) ∈ rest → k ≠ field := fun k o mem same =>
      fresh (List.mem_map.mpr ⟨(k, o), mem, same⟩)
    obtain ⟨a, l, assigned, shown, reflects⟩ := reflected field o List.mem_cons_self
    obtain ⟨l', changed, left, filled, reflects'⟩ :=
      position_field known alive (writable field a assigned) shown reflects
    have others : ∀ k, k ≠ field → (object.putField field l').fields[k]? = object.fields[k]? := by
      intro k differs
      simp [Object.putField, Std.ExtTreeMap.getElem?_insert, Ne.symm differs]
    -- The others are replayed on the object that the first field leaves behind.
    obtain ⟨fields, changed', left', filled', same, each⟩ := ih distinct
      (object.putField field l') fun k o mem => by
        obtain ⟨a', l'', assigned', shown', later⟩ := reflected k o (List.mem_cons_of_mem _ mem)
        exact ⟨a', l'', assigned', (others k (elsewhere k o mem)).trans shown', later⟩
    -- Later fields are not `field`, so what is left of them can be told apart from its own.
    refine ⟨fields, changed ++ changed', fun k => if k = field then left else left' k, ?_,
      fun k out => ?_, fun k x mem => ?_⟩
    · have along :
          (rest.filterMap fun e => (if e.1 = field then left else left' e.1).map (e.1, ·)) =
          rest.filterMap fun e => (left' e.1).map (e.1, ·) :=
        List.filterMap_congr fun e mem => by rw [if_neg (elsewhere e.1 e.2 mem)]
      rw [positions, List.nil_append, filled]
      simp only [filled', List.filterMap_cons, if_true, along]
      cases left with
      | none => rfl
      | some x => rfl
    · rw [List.map_cons, List.mem_cons, not_or] at out
      exact (same k out.2).trans (others k out.1)
    · rcases List.mem_cons.mp mem with eq | later
      · cases eq
        refine ⟨a, l', assigned, ?_, ?_⟩
        · rw [same field fresh]
          simp [Object.putField]
        · simpa using reflects'
      · obtain ⟨a', l'', assigned', shown', reflects''⟩ := each k x later
        refine ⟨a', l'', assigned', shown', ?_⟩
        simpa [elsewhere k x later] using reflects''

/-- What is parked when each position is replaced by what is left of it. -/
theorem Parked.getElem?_ofList_filterMap (p : Parked) (left : Offset → Option Outstanding)
    (k : Offset) :
    (Std.ExtTreeMap.ofList (p.toList.filterMap fun e => (left e.1).map (e.1, ·)) : Parked)[k]? =
      p[k]?.bind fun _ => left k := by
  have listed : ∀ x, (k, x) ∈ (p.toList.filterMap fun e => (left e.1).map (e.1, ·)) ↔
      (∃ o, p[k]? = some o) ∧ left k = some x := by
    intro x
    rw [List.mem_filterMap]
    constructor
    · rintro ⟨e, mem, kept⟩
      obtain ⟨y, some, same⟩ := Option.map_eq_some_iff.mp kept
      cases same
      exact ⟨⟨e.2, Std.ExtTreeMap.mem_toList_iff_getElem?_eq_some.mp mem⟩, some⟩
    · rintro ⟨⟨o, found⟩, some⟩
      exact ⟨(k, o), Std.ExtTreeMap.mem_toList_iff_getElem?_eq_some.mpr found, by simp [some]⟩
  -- Each field is listed once, so what is found for it is what is listed.
  have distinct : (p.toList.filterMap fun e => (left e.1).map (e.1, ·)).Pairwise
      fun a b => ¬compare a.1 b.1 = .eq := by
    refine List.Pairwise.filterMap _ ?_ Std.ExtTreeMap.distinct_keys_toList
    intro a b differ x from_a y from_b
    obtain ⟨_, -, rfl⟩ := Option.map_eq_some_iff.mp from_a
    obtain ⟨_, -, rfl⟩ := Option.map_eq_some_iff.mp from_b
    exact differ
  refine Option.ext ?_
  intro x
  rw [Option.bind_eq_some_iff]
  constructor
  · intro found
    obtain ⟨⟨o, parked⟩, some⟩ := (listed x).mp (Update.mem_of_getElem?_ofList found)
    exact ⟨o, parked, some⟩
  · rintro ⟨o, parked, some⟩
    exact Std.ExtTreeMap.getElem?_ofList_of_mem Std.ReflCmp.compare_self distinct
      ((listed x).mpr ⟨⟨o, parked⟩, some⟩)

end Replica
