import Replica.Proofs.Frame
import Replica.Update

/-! # What the waitlist keeps

A waitlist keeps for each subscriber what its fields wait for, the references in it, and for each
reference its subscribers. The three agree at all times. A replay lets nobody wait for the reference
that is replayed, and lets subscribers wait for nothing new except what is not local.

Main definitions:
* `Waitlist.Coherent` — the three sides of a waitlist agree.
* `Waitlist.coherent_store` — replacing what a subscriber waits for keeps them so.
* `Update.waits_of_resolve` — what is waited for after a replay. -/

namespace Replica

/-! ## Agreement -/

/-- A waitlist is **coherent** if the references noted for each subscriber are those its fields wait
for, and the index finds the subscriber under just these. -/
structure Waitlist.Coherent (l : Waitlist) : Prop where
  /-- The references of a subscriber are those of its fields. -/
  missing : ∀ s, l.missingOf s = (l.parkedOf s).references
  /-- A subscriber is found under its references. -/
  index : ∀ (s : Subscriber) (r : Reference), s ∈ l.subscribers.of r ↔ r ∈ l.missingOf s

namespace Waitlist

variable {l : Waitlist}

/-- The waitlist of nobody is coherent. -/
theorem coherent_empty : empty.Coherent where
  missing s := by simp [missingOf, parkedOf, empty]
  index s r := by simp [missingOf, empty]

/-- Who is found under a reference waits for it. -/
theorem Coherent.mem_subscribersOf (h : l.Coherent) {s : Subscriber} {r : Reference} :
    s ∈ l.subscribersOf r ↔ r ∈ (l.parkedOf s).references := by
  rw [subscribersOf, Std.ExtTreeSet.mem_toList, h.index, h.missing]

/-- The index after a subscriber's references are replaced. -/
theorem mem_subscribers_store {s t : Subscriber} {p : Parked} {r : Reference}
    (index : s ∈ l.subscribers.of r ↔ r ∈ l.missingOf s) :
    t ∈ (l.store s p).subscribers.of r ↔
      if s = t then r ∈ p.references else t ∈ l.subscribers.of r := by
  simp only [store, Waiters.mem_of_enterAll, Waiters.mem_of_strikeAll, List.mem_filter,
    Std.ExtTreeSet.mem_toList, Bool.not_eq_true', ← Bool.not_eq_true,
    Std.ExtTreeSet.contains_iff_mem]
  -- Others stay where they were; for `s` itself only references that come or go are touched.
  by_cases same : s = t
  · subst t
    by_cases new : r ∈ p.references
    · by_cases old : r ∈ l.missingOf s <;> simp [new, old, index]
    · by_cases old : r ∈ l.missingOf s <;> simp [new, old, index]
  · simp [same]

/-- Replacing what a subscriber waits for keeps a waitlist coherent. -/
theorem coherent_store (h : l.Coherent) (s : Subscriber) (p : Parked) :
    (l.store s p).Coherent where
  missing t := by
    rw [missingOf_store, parkedOf_store]
    split
    · rfl
    · exact h.missing t
  index t r := by
    rw [mem_subscribers_store (h.index s r), missingOf_store]
    split
    · rfl
    · exact h.index t r

theorem coherent_remove (h : l.Coherent) (s : Subscriber) : (l.remove s).Coherent :=
  coherent_store h s ∅

@[simp] theorem parkedOf_remove (l : Waitlist) (s t : Subscriber) :
    (l.remove s).parkedOf t = if s = t then ∅ else l.parkedOf t :=
  parkedOf_store l s t ∅

/-- Forgetting the subscribers of a channel keeps a waitlist coherent. -/
theorem coherent_removeChannel (h : l.Coherent) (c : ChannelId) : (l.removeChannel c).Coherent := by
  unfold removeChannel
  generalize l.subscribersIn c = subscribers
  induction subscribers generalizing l with
  | nil => exact h
  | cons s rest ih => exact ih (coherent_remove h s)

/-- Those who are forgotten wait for nothing, and the others wait as before. -/
theorem parkedOf_foldl_remove (subscribers : List Subscriber) (l : Waitlist) (t : Subscriber) :
    (subscribers.foldl remove l).parkedOf t =
      if t ∈ subscribers then ∅ else l.parkedOf t := by
  induction subscribers generalizing l with
  | nil => simp
  | cons s rest ih =>
    rw [List.foldl_cons, ih, parkedOf_remove]
    by_cases later : t ∈ rest
    · simp [later]
    · by_cases same : s = t
      · simp [same]
      · have ne : t ≠ s := fun h => same h.symm
        simp [later, same, ne]

/-- Nobody waits for more after a channel is forgotten. -/
theorem waits_of_removeChannel {c : ChannelId} {s : Subscriber} {r : Reference}
    (waits : r ∈ ((l.removeChannel c).parkedOf s).references) : r ∈ (l.parkedOf s).references := by
  rw [removeChannel, parkedOf_foldl_remove] at waits
  split at waits
  · simp at waits
  · exact waits

end Waitlist

/-! ## Updates -/

namespace Update

/-- What is parked at a field after erasing some fields. -/
theorem getElem?_foldl_erase (offsets : List Offset) (p : Parked) (o : Offset) :
    (offsets.foldl Std.ExtTreeMap.erase p)[o]? = if o ∈ offsets then none else p[o]? := by
  induction offsets generalizing p with
  | nil => simp
  | cons a rest ih =>
    rw [List.foldl_cons, ih, Std.ExtTreeMap.getElem?_erase]
    by_cases later : o ∈ rest
    · simp [later]
    · by_cases same : a = o
      · simp [same]
      · have ne : o ≠ a := fun h => same h.symm
        simp [later, same, ne]

/-- What is parked at a field after entering distinct fields of another map. -/
theorem getElem?_foldl_insert (entries : List (Offset × Outstanding))
    (distinct : entries.Pairwise fun a b => a.1 ≠ b.1) (p : Parked) (o : Offset) :
    (entries.foldl (fun p (offset, x) => p.insert offset x) p)[o]? =
      ((entries.find? (·.1 == o)).map Prod.snd).or p[o]? := by
  induction entries generalizing p with
  | nil => simp
  | cons a rest ih =>
    obtain ⟨fresh, distinct⟩ := List.pairwise_cons.mp distinct
    rw [List.foldl_cons, ih distinct, Std.ExtTreeMap.getElem?_insert]
    by_cases same : a.1 = o
    · have none : rest.find? (·.1 == o) = none := by
        rw [List.find?_eq_none]
        intro b mem eq
        exact fresh b mem (same.trans (eq_of_beq eq).symm)
      simp [same, none]
    · simp [same]

/-- A field that a payload left outstanding waits for that, one that it has written and settled for
nothing, and the others as before. -/
theorem getElem?_merge (p : Parked) (a : Applied) (o : Offset) :
    (merge p a)[o]? =
      (a.unresolved[o]?).or (if o ∈ a.written then none else p[o]?) := by
  have entry : (a.unresolved.toList.find? (·.1 == o)).map Prod.snd = a.unresolved[o]? := by
    ext x
    simp only [Option.map_eq_some_iff, Prod.exists, exists_eq_right]
    rw [← Std.ExtTreeMap.mem_toList_iff_getElem?_eq_some]
    constructor
    · rintro ⟨b, found⟩
      have same : b = o := by simpa using List.find?_some found
      rw [← same]
      exact List.mem_of_find?_eq_some found
    · intro mem
      have some : (a.unresolved.toList.find? (·.1 == o)).isSome := by
        rw [List.find?_isSome]
        exact ⟨(o, x), mem, by simp⟩
      obtain ⟨⟨b, y⟩, found⟩ := Option.isSome_iff_exists.mp some
      have same : b = o := by simpa using List.find?_some found
      subst b
      have here :=
        Std.ExtTreeMap.mem_toList_iff_getElem?_eq_some.mp (List.mem_of_find?_eq_some found)
      rw [Std.ExtTreeMap.mem_toList_iff_getElem?_eq_some.mp mem] at here
      cases here
      exact ⟨o, found⟩
  -- The fields of a map are listed once each, so the order of the entries does not matter.
  have distinct : a.unresolved.toList.Pairwise fun b c => b.1 ≠ c.1 :=
    Std.ExtTreeMap.distinct_keys_toList.imp fun h same => by simp [same] at h
  unfold merge
  rw [getElem?_foldl_insert _ distinct, entry, getElem?_foldl_erase]
  cases found : a.unresolved[o]? with
  | some x => rfl
  | none =>
    have absent : a.unresolved.contains o = false := by
      rw [Std.ExtTreeMap.contains_eq_isSome_getElem?, found]
      rfl
    simp [absent]

end Update

/-! ## What payloads leave outstanding -/

mutual

/-- A value waits for the references inside it that are missing. -/
theorem Value.references_outstanding (resolve : Resolver) (rep : RepIndex) (r : Reference) :
    (v : Value) →
      ((∃ x, v.outstanding resolve rep = some x ∧ r ∈ x.references) ↔
        r ∈ v.references ∧ resolve r = none)
  | .int _ | .null => by simp [outstanding, references]
  | .ref q => by
    by_cases known : resolve q = none
    · simp only [outstanding, known, Option.isNone_none, if_true, Option.some.injEq,
        exists_eq_left', Outstanding.references, references, List.mem_singleton]
      constructor
      · rintro rfl
        exact ⟨rfl, known⟩
      · exact And.left
    · have some : (resolve q).isNone = false := by simpa [Option.isSome_iff_ne_none] using known
      simp only [outstanding, some, Bool.false_eq_true, if_false, reduceCtorEq, false_and,
        exists_false, references, List.mem_singleton, false_iff]
      rintro ⟨rfl, none⟩
      exact known none
  -- A struct keeps the set of what it misses, and waits for nothing if that is empty.
  | .struct vs => by
    rw [outstanding]
    dsimp only
    split
    · rename_i none
      simp only [reduceCtorEq, false_and, exists_false, false_iff]
      intro lacks
      have mem : r ∈ missing resolve (.struct vs) := Resolver.mem_missing.mpr lacks
      rw [Std.ExtTreeSet.isEmpty_iff.mp none] at mem
      simp at mem
    · simp [Outstanding.references, Value.missing]
  | .array vs => by
    have elements := references_outstandingFrom resolve rep r 0 vs
    rw [outstanding]
    split
    · rename_i none
      rw [none] at elements
      simpa [Outstanding.referencesAll, references] using elements
    · simpa [Outstanding.references, references] using elements

/-- The elements of an array wait for the references inside them that are missing. -/
theorem Value.references_outstandingFrom (resolve : Resolver) (rep : RepIndex) (r : Reference)
    (i : Offset) : (vs : List Value) →
      (r ∈ Outstanding.referencesAll (outstandingFrom resolve rep i vs) ↔
        r ∈ referencesAll vs ∧ resolve r = none)
  | [] => by simp [outstandingFrom, Outstanding.referencesAll, referencesAll]
  | v :: vs => by
    have first := references_outstanding resolve rep r v
    have rest := references_outstandingFrom resolve rep r (i + 1) vs
    rw [outstandingFrom, referencesAll, List.mem_append, or_and_right, ← first, ← rest]
    -- An element that waits for nothing is left out of the list.
    split
    · rename_i x found
      simp [Outstanding.referencesAll, found]
    · rename_i none
      simp [none]

end

namespace Applied

/-- The fields that a payload writes. -/
theorem written_foldl_note (resolve : Resolver) (as : List Assignment) (a : Applied) :
    (as.foldl (note resolve) a).written = a.written ++ as.map Assignment.offset := by
  induction as generalizing a with
  | nil => simp
  | cons w rest ih => rw [List.foldl_cons, ih]; simp [note]

/-- What a payload leaves outstanding at a field, one of its assignments leaves there. -/
theorem unresolved_foldl_note {resolve : Resolver} {as : List Assignment} {a : Applied}
    {o : Offset} {x : Outstanding} (h : (as.foldl (note resolve) a).unresolved[o]? = some x) :
    a.unresolved[o]? = some x ∨
      ∃ w ∈ as, w.offset = o ∧ w.value.outstanding resolve w.rep = some x := by
  induction as generalizing a with
  | nil => exact .inl h
  | cons w rest ih =>
    -- What is left at the end was left by a later assignment, or was there after the first one.
    rcases ih h with before | ⟨v, mem, leaves⟩
    · rw [note] at before
      split at before
      · rename_i y left
        rw [Std.ExtTreeMap.getElem?_insert] at before
        split at before
        · rename_i same
          cases before
          exact .inr ⟨w, by simp, by simpa using same, left⟩
        · exact .inl before
      · exact .inl before
    · exact .inr ⟨v, by simp [mem], leaves⟩

end Applied

namespace World

/-- What a payload that is applied leaves outstanding, some assignment that it spells does. -/
theorem leaves_of_applyPayload {w w' : World} {resolve : Resolver} {h : Handle} {role : Role}
    {component : ComponentId} {payload : Bytes} {applied : Applied}
    (ok : w.applyPayload resolve h role component payload = .ok (applied, w')) {o : Offset}
    {x : Outstanding} (left : applied.unresolved[o]? = some x) :
    ∃ as a, Wire.decodeFields payload = .ok as ∧ a ∈ as ∧
      a.value.outstanding resolve a.rep = some x := by
  unfold applyPayload at ok
  split at ok
  · split at ok
    · cases ok
      simp [Applied.nothing] at left
    · cases ok
  · split at ok
    · cases ok
    · rename_i as decoded
      cases target : w.target h with
      | error error => simp [target, bind, Except.bind] at ok
      | ok object =>
        simp only [target, bind, Except.bind, pure, Except.pure] at ok
        cases ok
        rcases Applied.unresolved_foldl_note left with before | ⟨a, mem, -, leaves⟩
        · simp [Applied.nothing] at before
        · exact ⟨as, a, decoded, mem, leaves⟩

/-- What a payload that is applied leaves outstanding is not local. -/
theorem missing_of_applyPayload {w w' : World} {resolve : Resolver} {h : Handle} {role : Role}
    {component : ComponentId} {payload : Bytes} {applied : Applied}
    (ok : w.applyPayload resolve h role component payload = .ok (applied, w')) {o : Offset}
    {x : Outstanding} (left : applied.unresolved[o]? = some x) {r : Reference}
    (waits : r ∈ x.references) : resolve r = none := by
  obtain ⟨as, a, -, -, leaves⟩ := leaves_of_applyPayload ok left
  exact ((Value.references_outstanding resolve a.rep r a.value).mp ⟨x, leaves, waits⟩).2

end World

namespace Update

/-- An update lets nobody wait for anything new that is local. -/
theorem waits_of_apply {w w' : World} {l l' : Waitlist} {resolve : Resolver} {s : Subscriber}
    {role : Role} {component : ComponentId} {payload : Bytes}
    (ok : apply w l resolve s role component payload = .ok (w', l')) {t : Subscriber}
    {r : Reference} (waits : r ∈ (l'.parkedOf t).references) :
    r ∈ (l.parkedOf t).references ∨ resolve r = none := by
  obtain ⟨applied, w₁, applied_ok, -, rfl⟩ := apply_eq_ok.mp ok
  rw [Waitlist.parkedOf_store] at waits
  split at waits
  · subst t
    obtain ⟨o, x, found, mem⟩ := Parked.mem_references.mp waits
    rw [getElem?_merge, Option.or_eq_some_iff] at found
    rcases found with left | ⟨-, before⟩
    · exact .inr (World.missing_of_applyPayload applied_ok left mem)
    · split at before
      · cases before
      · exact .inl (Parked.mem_references.mpr ⟨o, x, before, mem⟩)
  · exact .inl waits

/-- An update keeps a waitlist coherent. -/
theorem coherent_of_apply {w w' : World} {l l' : Waitlist} {resolve : Resolver} {s : Subscriber}
    {role : Role} {component : ComponentId} {payload : Bytes} (h : l.Coherent)
    (ok : apply w l resolve s role component payload = .ok (w', l')) : l'.Coherent := by
  obtain ⟨applied, w₁, -, -, rfl⟩ := apply_eq_ok.mp ok
  exact Waitlist.coherent_store h s _

end Update

/-! ## Replays -/

/-- What is still missing after a struct was written again. -/
theorem World.missing_of_reapplyStruct {w w' : World} {resolve : Resolver} {h : Handle}
    {path : List Offset} {buffer : Bytes} {missing : ReferenceSet}
    (ok : w.reapplyStruct resolve h path buffer = .ok (missing, w')) :
    ∃ v, Wire.decodeValue buffer = .ok v ∧ missing = v.missing resolve := by
  unfold reapplyStruct at ok
  split at ok
  · cases ok
  · rename_i v decoded
    cases written : w.writeAt h path (v.localize resolve) with
    | error error => simp [written, bind, Except.bind] at ok
    | ok w₁ =>
      simp only [written, bind, Except.bind, pure, Except.pure] at ok
      cases ok
      exact ⟨v, decoded, rfl⟩

mutual

/-- What a position still waits for after a replay it has waited for before, unless it is not local;
it never waits for the reference that was replayed. -/
theorem Replay.waits_of_position (replay : Replay) (w : World) (path : List Offset)
    {r : Reference} : (o : Outstanding) → {left : Outstanding} →
    (replay.position w path o).2.2 = some left → r ∈ left.references →
      r ∈ o.references ∧ r ≠ replay.reference ∨ replay.resolve r = none
  | .single rep q, left, kept, waits => by
    rw [position] at kept
    split at kept
    · split at kept <;> cases kept
    · rename_i differs
      cases kept
      refine .inl ⟨waits, fun same => differs ?_⟩
      rw [← same]
      exact (List.mem_singleton.mp waits).symm
  | .struct rep buffer bits missing, left, kept, waits => by
    rw [position] at kept
    split at kept
    · split at kept
      · rename_i again _ ok
        dsimp only at kept
        split at kept
        · cases kept
        · cases kept
          -- A struct that is written again waits for what is missing now, and for nothing else.
          obtain ⟨v, -, rfl⟩ := World.missing_of_reapplyStruct ok
          have mem : r ∈ v.missing replay.resolve := Std.ExtTreeSet.mem_toList.mp waits
          exact .inr (Resolver.mem_missing.mp mem).2
      · cases kept
    · rename_i absent
      cases kept
      refine .inl ⟨waits, fun same => absent ?_⟩
      rw [← same]
      simpa [Outstanding.references] using waits
  | .array rep elements, left, kept, waits => by
    rw [position] at kept
    split at kept
    · dsimp only at kept
      split at kept
      · cases kept
      · cases kept
        exact replay.waits_of_positions w path elements waits
    · rename_i absent
      cases kept
      refine .inl ⟨waits, fun same => absent ?_⟩
      rw [Outstanding.anyWaitsOn_iff, ← same]
      exact waits

/-- What positions still wait for after a replay. -/
theorem Replay.waits_of_positions (replay : Replay) (w : World) (path : List Offset)
    {r : Reference} : (elements : List (Offset × Outstanding)) →
    r ∈ Outstanding.referencesAll (replay.positions w path elements).2.2 →
      r ∈ Outstanding.referencesAll elements ∧ r ≠ replay.reference ∨ replay.resolve r = none
  | [], waits => by simp [positions, Outstanding.referencesAll] at waits
  | (offset, o) :: rest, waits => by
    -- The induction runs over the positions; each is replayed in the world the one before leaves.
    have first := fun left => @Replay.waits_of_position replay w (path ++ [offset]) r o left
    have others := replay.waits_of_positions (replay.position w (path ++ [offset]) o).1 path
      (r := r) rest
    rw [positions] at waits
    dsimp only at waits
    rw [Outstanding.referencesAll, List.mem_append]
    split at waits
    · rename_i left kept
      rw [Outstanding.referencesAll, List.mem_append] at waits
      rcases waits with here | later
      · rcases first left kept here with ⟨was, differs⟩ | missing
        · exact .inl ⟨.inl was, differs⟩
        · exact .inr missing
      · rcases others later with ⟨was, differs⟩ | missing
        · exact .inl ⟨.inr was, differs⟩
        · exact .inr missing
    · rcases others waits with ⟨was, differs⟩ | missing
      · exact .inl ⟨.inr was, differs⟩
      · exact .inr missing

end

namespace Update

theorem mem_referencesAll {entries : List (Offset × Outstanding)} {r : Reference} :
    r ∈ Outstanding.referencesAll entries ↔ ∃ e ∈ entries, r ∈ e.2.references := by
  induction entries with
  | nil => simp [Outstanding.referencesAll]
  | cons e rest ih => simp [Outstanding.referencesAll, ih]

/-- The references of parked positions, in whatever order they are listed. -/
theorem mem_references_iff {p : Parked} {r : Reference} :
    r ∈ p.references ↔ r ∈ Outstanding.referencesAll p.toList := by
  rw [mem_referencesAll, Parked.references, Std.ExtTreeSet.mem_ofList]
  simp

/-- What is found after several entries were made is one of them, or was there before. -/
theorem mem_of_insertMany {α β : Type} [Ord α] [Std.TransOrd α] [Std.LawfulEqOrd α]
    {entries : List (α × β)} {m : Std.ExtTreeMap α β} {k : α} {x : β}
    (h : (m.insertMany entries)[k]? = some x) : m[k]? = some x ∨ (k, x) ∈ entries := by
  induction entries generalizing m with
  | nil => exact .inl (by simpa using h)
  | cons e rest ih =>
    rw [Std.ExtTreeMap.insertMany_cons] at h
    rcases ih h with before | later
    · rw [Std.ExtTreeMap.getElem?_insert] at before
      split at before
      · rename_i same
        cases before
        rw [← Std.LawfulEqOrd.eq_of_compare same]
        exact .inr List.mem_cons_self
      · exact .inl before
    · exact .inr (List.mem_cons_of_mem e later)

/-- What is found in a map of entries is one of them. -/
theorem mem_of_getElem?_ofList {α β : Type} [Ord α] [Std.TransOrd α] [Std.LawfulEqOrd α]
    {entries : List (α × β)} {k : α} {x : β}
    (h : (Std.ExtTreeMap.ofList entries)[k]? = some x) : (k, x) ∈ entries := by
  rw [Std.ExtTreeMap.ofList_eq_insertMany_empty] at h
  rcases mem_of_insertMany h with none | listed
  · simp at none
  · exact listed

/-- Listed positions leave nothing parked just if none is listed. -/
theorem isEmpty_ofList (entries : List (Offset × Outstanding)) :
    (Std.ExtTreeMap.ofList entries : Parked).isEmpty = entries.isEmpty := by
  rw [Bool.eq_iff_iff, Std.ExtTreeMap.isEmpty_iff, Std.ExtTreeMap.ofList_eq_empty_iff,
    List.isEmpty_iff]

/-- The references of listed positions that are parked. -/
theorem mem_references_ofList {entries : List (Offset × Outstanding)} {r : Reference}
    (h : r ∈ (Parked.references (.ofList entries))) : r ∈ Outstanding.referencesAll entries := by
  obtain ⟨o, x, found, mem⟩ := Parked.mem_references.mp h
  exact mem_referencesAll.mpr ⟨(o, x), mem_of_getElem?_ofList found, mem⟩

/-- What is waited for after one subscriber was served: the subscriber waits for nothing that is
replayed, and nobody waits for anything new that is local. -/
theorem waits_of_serve {resolve : Resolver} {r q : Reference} {resolved : Handle}
    {state : Resolution} {s t : Subscriber}
    (waits : q ∈ ((serve resolve r resolved state s).waitlist.parkedOf t).references) :
    q ∈ (state.waitlist.parkedOf t).references ∧ (t = s → q ≠ r) ∨ resolve q = none := by
  unfold serve at waits
  split at waits
  · rw [Waitlist.parkedOf_remove] at waits
    split at waits
    · simp at waits
    · rename_i differs
      exact .inl ⟨waits, fun same => absurd same.symm differs⟩
  · dsimp only at waits
    rw [Waitlist.parkedOf_store] at waits
    split at waits
    · rename_i same
      rcases Replay.waits_of_positions _ _ _ _ (mem_references_ofList waits) with
        ⟨was, ne⟩ | missing
      · exact .inl ⟨mem_references_iff.mpr (same ▸ was), fun _ => ne⟩
      · exact .inr missing
    · rename_i differs
      exact .inl ⟨waits, fun same => absurd same.symm differs⟩

/-- Serving a subscriber keeps a waitlist coherent. -/
theorem coherent_serve {resolve : Resolver} {r : Reference} {resolved : Handle}
    {state : Resolution} (h : state.waitlist.Coherent) (s : Subscriber) :
    (serve resolve r resolved state s).waitlist.Coherent := by
  unfold serve
  split
  · exact Waitlist.coherent_remove h s
  · exact Waitlist.coherent_store h s _

/-- What is waited for after several subscribers were served. -/
theorem waits_of_serves {resolve : Resolver} {r q : Reference} {resolved : Handle}
    (subscribers : List Subscriber) {state : Resolution} {t : Subscriber}
    (waits : q ∈ ((subscribers.foldl (serve resolve r resolved) state).waitlist.parkedOf
      t).references) :
    q ∈ (state.waitlist.parkedOf t).references ∧ (t ∈ subscribers → q ≠ r) ∨ resolve q = none := by
  induction subscribers generalizing state with
  | nil => exact .inl ⟨waits, by simp⟩
  | cons s rest ih =>
    -- The first subscriber is served once, and no later one makes it wait for `r` again.
    rcases ih waits with ⟨between, later⟩ | missing
    · rcases waits_of_serve between with ⟨before, now⟩ | missing
      · refine .inl ⟨before, ?_⟩
        intro mem
        rcases List.mem_cons.mp mem with same | mem
        · exact now same
        · exact later mem
      · exact .inr missing
    · exact .inr missing

/-- **What is waited for after a replay**: nothing that was not waited for before, and not what was
replayed, except what is not local. -/
theorem waits_of_resolve {w : World} {l : Waitlist} (h : l.Coherent) {resolve : Resolver}
    {r q : Reference} {resolved : Handle} {t : Subscriber}
    (waits : q ∈ ((Update.resolve w l resolve r resolved).waitlist.parkedOf t).references) :
    q ∈ (l.parkedOf t).references ∧ q ≠ r ∨ resolve q = none := by
  rcases waits_of_serves (l.subscribersOf r) waits with ⟨before, served⟩ | missing
  · refine .inl ⟨before, ?_⟩
    intro same
    subst q
    -- Whoever waits for `r` is found by the index and so was served.
    have found : t ∈ l.subscribersOf r := by
      rw [h.mem_subscribersOf]
      exact before
    exact served found rfl
  · exact .inr missing

/-- A replay keeps a waitlist coherent. -/
theorem coherent_resolve {w : World} {l : Waitlist} (h : l.Coherent) (resolve : Resolver)
    (r : Reference) (resolved : Handle) :
    (Update.resolve w l resolve r resolved).waitlist.Coherent := by
  unfold Update.resolve
  suffices along : ∀ (subscribers : List Subscriber) (state : Resolution),
      state.waitlist.Coherent →
        (subscribers.foldl (serve resolve r resolved) state).waitlist.Coherent from
    along _ ⟨w, l, []⟩ h
  intro subscribers
  induction subscribers with
  | nil => exact fun _ h => h
  | cons s rest ih => exact fun _ h => ih _ (coherent_serve h s)

end Update

end Replica
