import Replica.Proofs.Graph.Fill

/-! # Objects mirror assignments

An object and what is parked for it show the last assignment to each field, up to what is due. A
payload makes its assignments the last ones, and a resolution leaves its reference no longer due;
both leave every other object as it is.

Main definitions:
* `Shows` — fields and parked positions show assignments.
* `Mirrors` — the object of a subscriber does.
* `Update.mirrors_resolve` — what a resolution does.
* `Update.exists_apply`, `Update.fields_apply_of_object?` — what a payload does. -/

namespace Replica

variable {due : Reference → Prop}

/-! ## Fields -/

/-- Fields and what is parked for them **show** assignments: a field that was assigned reflects its
last assignment, and any other is absent and waits for nothing. -/
def Shows (due : Reference → Prop) (resolve : Resolver) (last : Offset → Option Assignment)
    (fields : Std.ExtTreeMap Offset Localized) (parked : Parked) : Prop :=
  ∀ field, match last field with
    | some a => ∃ l, fields[field]? = some l ∧ a.value.Reflects due resolve a.rep l parked[field]?
    | none => fields[field]? = none ∧ parked[field]? = none

namespace Shows

variable {resolve : Resolver} {last : Offset → Option Assignment}
  {fields : Std.ExtTreeMap Offset Localized} {parked : Parked} {k : Offset}

/-- A field that was assigned reflects its last assignment. -/
theorem of_some (h : Shows due resolve last fields parked) {a : Assignment}
    (assigned : last k = some a) :
    ∃ l, fields[k]? = some l ∧ a.value.Reflects due resolve a.rep l parked[k]? := by
  have shown := h k
  rwa [assigned] at shown

/-- A field that was not assigned is absent and waits for nothing. -/
theorem of_none (h : Shows due resolve last fields parked) (unassigned : last k = none) :
    fields[k]? = none ∧ parked[k]? = none := by
  have shown := h k
  rwa [unassigned] at shown

/-- A field that waits was assigned. -/
theorem of_parked (h : Shows due resolve last fields parked) {o : Outstanding}
    (found : parked[k]? = some o) : ∃ a l, last k = some a ∧ fields[k]? = some l ∧
      a.value.Reflects due resolve a.rep l (some o) := by
  cases assigned : last k with
  | none =>
    rw [(h.of_none assigned).2] at found
    cases found
  | some a =>
    obtain ⟨l, shown, reflects⟩ := h.of_some assigned
    rw [found] at reflects
    exact ⟨a, l, rfl, shown, reflects⟩

/-- What shows where something more is due shows where nothing waits for it. -/
theorem spare {r : Reference} (h : Shows due resolve last fields parked)
    (unawaited : r ∉ parked.references) : Shows (AllBut r due) resolve last fields parked := by
  intro k
  split
  · rename_i a assigned
    obtain ⟨l, found, reflects⟩ := h.of_some assigned
    refine ⟨l, found, reflects.spare fun x here waits => unawaited ?_⟩
    exact Parked.mem_references.mpr ⟨k, x, here, waits⟩
  · rename_i unassigned
    exact h.of_none unassigned

/-- What shows keeps showing when more is due, and references become local whose arrivals are. -/
theorem grow {due' : Reference → Prop} {resolve' : Resolver}
    (h : Shows due resolve last fields parked) (later : ∀ q, due q → due' q)
    (known : ∀ q, resolve' q = resolve q ∨ resolve q = none ∧ due' q) :
    Shows due' resolve' last fields parked := by
  intro k
  split
  · rename_i a assigned
    obtain ⟨l, found, reflects⟩ := h.of_some assigned
    exact ⟨l, found, reflects.grow later known⟩
  · rename_i unassigned
    exact h.of_none unassigned

/-- Where nothing is due, fields and what is parked are what the resolver makes of the last
assignments. -/
theorem eq (h : Shows due resolve last fields parked) (done : ∀ r, ¬due r) (k : Offset) :
    fields[k]? = (last k).map (·.value.localize resolve) ∧
      parked[k]? = (last k).bind fun a => a.value.outstanding resolve a.rep := by
  cases assigned : last k with
  | none => exact h.of_none assigned
  | some a =>
    obtain ⟨l, found, reflects⟩ := h.of_some assigned
    obtain ⟨rfl, waits⟩ := reflects.eq done
    exact ⟨found, waits⟩

end Shows

/-! ## Resolutions -/

/-- The object of a subscriber **mirrors** assignments if its fields show the last ones. -/
def Mirrors (due : Reference → Prop) (resolve : Resolver)
    (last : Handle → Offset → Option Assignment) (w : World) (l : Waitlist) (s : Subscriber) :
    Prop :=
  ∃ object, w.object? s.object = some object ∧
    Shows due resolve (last s.object) object.fields (l.parkedOf s)

/-- What mirrors keeps mirroring in a world that keeps its object, when more is due, and references
become local whose arrivals are. -/
theorem Mirrors.grow {resolve resolve' : Resolver} {last : Handle → Offset → Option Assignment}
    {w w' : World} {l : Waitlist} {s : Subscriber} {due' : Reference → Prop}
    (h : Mirrors due resolve last w l s) (kept : w'.object? s.object = w.object? s.object)
    (later : ∀ q, due q → due' q)
    (known : ∀ q, resolve' q = resolve q ∨ resolve q = none ∧ due' q) :
    Mirrors due' resolve' last w' l s := by
  obtain ⟨object, found, shows⟩ := h
  exact ⟨object, kept.trans found, shows.grow later known⟩

namespace Update

variable {resolve : Resolver} {last : Handle → Offset → Option Assignment} {r : Reference}
  {resolved : Handle} {state : Resolution}

@[simp] theorem object?_announce (w : World) (h k : Handle) (changed : List RepIndex) :
    (announce w h changed).object? k = w.object? k := by
  unfold announce
  split
  · rfl
  · rfl

/-- A subscriber with a live object is served by a replay of what is parked for it. -/
theorem serve_of_isAlive (resolve : Resolver) (r : Reference) (resolved : Handle) {s : Subscriber}
    (alive : state.world.isAlive s.object = true) :
    (serve resolve r resolved state s).world =
        announce (Replay.positions ⟨s.object, r, resolved, resolve⟩ state.world []
          (state.waitlist.parkedOf s).toList).1 s.object
          (Replay.positions ⟨s.object, r, resolved, resolve⟩ state.world []
            (state.waitlist.parkedOf s).toList).2.1 ∧
      (serve resolve r resolved state s).waitlist = state.waitlist.store s
        (.ofList (Replay.positions ⟨s.object, r, resolved, resolve⟩ state.world []
          (state.waitlist.parkedOf s).toList).2.2) := by
  unfold serve
  rw [if_neg (by rw [alive]; decide)]
  exact ⟨rfl, rfl⟩

/-- What serving a subscriber does: only its own object and its own entry change, and they show the
assignments still, with nothing of the reference due. -/
theorem exists_serve (known : resolve r = some resolved) {s : Subscriber}
    (writable : ∀ k a, last s.object k = some a → a.value.IsWritable)
    (h : Mirrors due resolve last state.world state.waitlist s) :
    ∃ object parked,
      (∀ k, (serve resolve r resolved state s).world.object? k =
        if s.object = k then some object else state.world.object? k) ∧
      (serve resolve r resolved state s).waitlist = state.waitlist.store s parked ∧
      Shows (AllBut r due) resolve (last s.object) object.fields parked := by
  obtain ⟨object, found, shows⟩ := h
  have alive := World.isAlive_of_object? found
  have stored := World.getElem?_of_object? found
  have itself : state.world.putObject s.object object = state.world := by
    rw [World.putObject, insert_of_getElem? stored]
  have distinct : ((state.waitlist.parkedOf s).toList.map (·.1)).Nodup :=
    List.pairwise_map.mpr (Std.ExtTreeMap.distinct_keys_toList.imp fun differ same =>
      differ (by rw [same]; exact Std.ReflCmp.compare_self))
  -- All parked positions are replayed, each on the field that it is filed under.
  obtain ⟨fields, changed, left, filled, same, each⟩ :=
    Replay.positions_fields ⟨s.object, r, resolved, resolve⟩ known alive
      writable (state.waitlist.parkedOf s).toList distinct object fun k o mem => by
        exact shows.of_parked (Std.ExtTreeMap.mem_toList_iff_getElem?_eq_some.mp mem)
  rw [itself] at filled
  have listed : ∀ k, k ∈ (state.waitlist.parkedOf s).toList.map (·.1) ↔
      ∃ o, (state.waitlist.parkedOf s)[k]? = some o := by
    intro k
    constructor
    · intro mem
      obtain ⟨e, parked, eq⟩ := List.mem_map.mp mem
      rw [← eq]
      exact ⟨e.2, Std.ExtTreeMap.mem_toList_iff_getElem?_eq_some.mp parked⟩
    · rintro ⟨o, found⟩
      exact List.mem_map.mpr ⟨(k, o), Std.ExtTreeMap.mem_toList_iff_getElem?_eq_some.mpr found, rfl⟩
  obtain ⟨world, waitlist⟩ := serve_of_isAlive resolve r resolved alive
  rw [world, waitlist, filled]
  refine ⟨{ object with fields }, _, ?_, rfl, ?_⟩
  · intro k
    rw [object?_announce, World.object?_putObject alive]
  · intro k
    rw [Parked.getElem?_ofList_filterMap]
    -- A field that waits was replayed; any other is untouched and waits for nothing.
    cases parked : (state.waitlist.parkedOf s)[k]? with
    | some o =>
      obtain ⟨a, l, assigned, shown, reflects⟩ :=
        each k o (Std.ExtTreeMap.mem_toList_iff_getElem?_eq_some.mpr parked)
      rw [assigned]
      exact ⟨l, shown, reflects⟩
    | none =>
      have untouched : fields[k]? = object.fields[k]? := by
        refine same k ?_
        intro mem
        obtain ⟨o, found⟩ := (listed k).mp mem
        rw [parked] at found
        cases found
      have shown := shows k
      rw [untouched]
      split
      · rename_i a assigned
        obtain ⟨l, found, reflects⟩ := shows.of_some assigned
        rw [parked] at reflects
        exact ⟨l, found, reflects.spare (by simp)⟩
      · rename_i unassigned
        exact ⟨(shows.of_none unassigned).1, rfl⟩

/-- Who is not served waits as before. -/
theorem parkedOf_serve_of_ne {s t : Subscriber} (differs : s ≠ t) :
    (serve resolve r resolved state s).waitlist.parkedOf t = state.waitlist.parkedOf t := by
  unfold serve
  split
  · rw [Waitlist.parkedOf_remove, if_neg differs]
  · dsimp only
    rw [Waitlist.parkedOf_store, if_neg differs]

/-- Who does not wait for the reference that is resolved waits as before. -/
theorem parkedOf_resolve_of_not_mem {w : World} {l : Waitlist} {t : Subscriber}
    (out : t ∉ l.subscribersOf r) :
    (Update.resolve w l resolve r resolved).waitlist.parkedOf t = l.parkedOf t := by
  have along : ∀ (served : List Subscriber) (state : Resolution), t ∉ served →
      (served.foldl (serve resolve r resolved) state).waitlist.parkedOf t =
        state.waitlist.parkedOf t := by
    intro served
    induction served with
    | nil => exact fun _ _ => rfl
    | cons s rest ih =>
      intro state out
      rw [List.mem_cons, not_or] at out
      exact (ih _ out.2).trans (parkedOf_serve_of_ne (Ne.symm out.1))
  exact along _ ⟨w, l, []⟩ out

/-- When some subscribers with objects of their own are served one after the other, they mirror the
assignments with nothing of the reference due, and so does who has done so before. -/
theorem mirrors_foldl_serve (known : resolve r = some resolved) {members : Subscriber → Prop}
    (writable : ∀ h k a, last h k = some a → a.value.IsWritable)
    (apart : ∀ s t, members s → members t → s.object = t.object → s = t)
    (served : List Subscriber) (nodup : served.Nodup) (among : ∀ s ∈ served, members s) :
    ∀ state : Resolution,
      (∀ t, members t → Mirrors (if t ∈ served then due else AllBut r due) resolve last state.world
        state.waitlist t) →
      ∀ t, members t → Mirrors (AllBut r due) resolve last
        (served.foldl (serve resolve r resolved) state).world
        (served.foldl (serve resolve r resolved) state).waitlist t := by
  induction served with
  | nil => exact fun state h t member => h t member
  | cons s rest ih =>
    intro state h
    obtain ⟨fresh, nodup⟩ := List.nodup_cons.mp nodup
    have member_s := among s List.mem_cons_self
    have mirrors_s := h s member_s
    rw [if_pos List.mem_cons_self] at mirrors_s
    obtain ⟨object, parked, world, waitlist, shows⟩ :=
      exists_serve known (writable s.object) mirrors_s
    -- Who is served mirrors with nothing of `r` due, and leaves the object of anybody else alone.
    refine ih nodup (fun t mem => among t (List.mem_cons_of_mem _ mem)) _ ?_
    intro t member
    by_cases same : t = s
    · subst t
      rw [if_neg fresh]
      refine ⟨object, by rw [world, if_pos rfl], ?_⟩
      rw [waitlist, Waitlist.parkedOf_store, if_pos rfl]
      exact shows
    · obtain ⟨other, found, shows'⟩ := h t member
      have elsewhere : s.object ≠ t.object := fun eq => same (apart s t member_s member eq).symm
      refine ⟨other, by rw [world, if_neg elsewhere]; exact found, ?_⟩
      rw [waitlist, Waitlist.parkedOf_store, if_neg (Ne.symm same)]
      simpa [same] using shows'

/-- **A resolution leaves everything mirrored that was, with nothing of its reference due.** -/
theorem mirrors_resolve {w : World} {l : Waitlist} (known : resolve r = some resolved)
    {members : Subscriber → Prop} (writable : ∀ h k a, last h k = some a → a.value.IsWritable)
    (apart : ∀ s t, members s → members t → s.object = t.object → s = t)
    (coherent : l.Coherent) (waiting : ∀ s, s ∈ l.subscribersOf r → members s)
    (h : ∀ t, members t → Mirrors due resolve last w l t) (t : Subscriber) (member : members t) :
    Mirrors (AllBut r due) resolve last (Update.resolve w l resolve r resolved).world
      (Update.resolve w l resolve r resolved).waitlist t := by
  have nodup : (l.subscribersOf r).Nodup :=
    Std.ExtTreeSet.distinct_toList.imp fun differ same => by simp [same] at differ
  refine mirrors_foldl_serve known writable apart _ nodup waiting ⟨w, l, []⟩ ?_ t
    member
  intro t member
  split
  · exact h t member
  · rename_i unserved
    obtain ⟨object, found, shows⟩ := h t member
    -- Who is not served is not found under `r`, and so does not wait for it.
    refine ⟨object, found, shows.spare fun waits => unserved ?_⟩
    rw [coherent.mem_subscribersOf]
    exact waits

end Update

/-! ## Payloads -/

/-- The last of some assignments to a field. -/
def lastTo (as : List Assignment) (field : Offset) : Option Assignment :=
  (as.filter (·.offset == field)).getLast?

@[simp] theorem lastTo_nil (k : Offset) : lastTo [] k = none := rfl

theorem lastTo_cons (a : Assignment) (as : List Assignment) (k : Offset) :
    lastTo (a :: as) k = (lastTo as k).or (if a.offset = k then some a else none) := by
  -- Later assignments win, so the first one counts only where no other is to the same field.
  by_cases same : a.offset = k
  · rw [lastTo, List.filter_cons_of_pos (by simpa using same), List.getLast?_cons, if_pos same,
      lastTo]
    cases (as.filter (·.offset == k)).getLast? with
    | none => rfl
    | some b => rfl
  · rw [lastTo, List.filter_cons_of_neg (by simpa using same), if_neg same, Option.or_none, lastTo]

/-- The last assignment to a field is one of them, and is to that field. -/
theorem mem_of_lastTo {as : List Assignment} {k : Offset} {a : Assignment}
    (h : lastTo as k = some a) : a ∈ as ∧ a.offset = k := by
  obtain ⟨mem, same⟩ := List.mem_filter.mp (List.mem_of_getLast? h)
  exact ⟨mem, by simpa using same⟩

/-- A field to which no assignment is the last is not assigned. -/
theorem lastTo_eq_none {as : List Assignment} {k : Offset} :
    lastTo as k = none ↔ k ∉ as.map (·.offset) := by
  rw [lastTo, List.getLast?_eq_none_iff, List.filter_eq_nil_iff]
  simp only [beq_iff_eq, List.mem_map, not_exists, not_and]

/-- The fields after several assignments: those assigned hold what was assigned last. -/
theorem fields_foldl_assign (resolve : Resolver) (as : List Assignment) (object : Object)
    (k : Offset) :
    (as.foldl (Object.assign resolve) object).fields[k]? =
      ((lastTo as k).map (·.value.localize resolve)).or object.fields[k]? := by
  induction as generalizing object with
  | nil => rfl
  | cons a rest ih =>
    rw [List.foldl_cons, ih, lastTo_cons, Object.assign, Std.ExtTreeMap.getElem?_insert]
    -- A later assignment to the field covers that of `a`.
    cases lastTo rest k with
    | some b => rfl
    | none =>
      by_cases same : a.offset = k
      · simp [same]
      · simp [same]

/-- What several assignments leave outstanding at a field: what the last one does that waits for
anything, since one that waits for nothing takes nothing back. -/
theorem unresolved_foldl_note_eq (resolve : Resolver) (as : List Assignment) (applied : Applied)
    (k : Offset) : (as.foldl (Applied.note resolve) applied).unresolved[k]? =
      ((as.filter (·.offset == k)).reverse.findSome? fun a =>
        a.value.outstanding resolve a.rep).or applied.unresolved[k]? := by
  induction as generalizing applied with
  | nil => rfl
  | cons a rest ih =>
    rw [List.foldl_cons, ih, Applied.note]
    by_cases same : a.offset = k
    · rw [List.filter_cons_of_pos (by simpa using same), List.reverse_cons,
        List.findSome?_append, Option.or_assoc]
      cases left : a.value.outstanding resolve a.rep with
      | none => simp [left]
      | some o => simp [left, same]
    · rw [List.filter_cons_of_neg (by simpa using same)]
      cases a.value.outstanding resolve a.rep with
      | none => rfl
      | some o => simp [Std.ExtTreeMap.getElem?_insert, same]

/-- Of several assignments to different fields, the last one to a field is the only one to it. -/
theorem findSome?_filter_of_nodup {β : Type} {as : List Assignment}
    (distinct : (as.map (·.offset)).Nodup) (k : Offset) (f : Assignment → Option β) :
    (as.filter (·.offset == k)).reverse.findSome? f = (lastTo as k).bind f := by
  have once : (as.filter (·.offset == k)).length ≤ 1 := by
    have short := List.nodup_iff_count_le_one.mp distinct k
    rwa [List.count_eq_countP, List.countP_map, List.countP_eq_length_filter] at short
  rw [lastTo]
  generalize as.filter (·.offset == k) = assigned at once ⊢
  rcases assigned with - | ⟨a, - | ⟨b, rest⟩⟩
  · rfl
  · cases left : f a <;> simp [left]
  · simp at once

/-- What several assignments to different fields leave outstanding. -/
theorem unresolved_foldl_note_of_nodup (resolve : Resolver) (as : List Assignment)
    (distinct : (as.map (·.offset)).Nodup) (applied : Applied) (k : Offset) :
    (as.foldl (Applied.note resolve) applied).unresolved[k]? =
      ((lastTo as k).bind fun a => a.value.outstanding resolve a.rep).or
        applied.unresolved[k]? := by
  rw [unresolved_foldl_note_eq, findSome?_filter_of_nodup distinct]

namespace Update

variable {resolve : Resolver} {last : Handle → Offset → Option Assignment}

/-- The assignments that a payload makes; spawn data makes none. -/
def assignments (role : Role) (payload : Bytes) : List Assignment :=
  if role = .spawn then []
  else
    match Wire.decodeFields payload with
    | .ok as => as
    | .error _ => []

/-- The assignments of a payload can be written. -/
theorem isWritable_of_mem_assignments {role : Role} {payload : Bytes} {a : Assignment}
    (mem : a ∈ assignments role payload) : a.value.IsWritable := by
  unfold assignments at mem
  split at mem
  · cases mem
  · split at mem
    · rename_i as decoded
      exact (Wire.decodeFields_eq_ok.mp decoded).1.2 a mem
    · cases mem

/-- A payload is applied to a live object by making its assignments; one that cannot be read makes
none. -/
theorem applyPayload_of_object? {w : World} {h : Handle} {object : Object}
    (found : w.object? h = some object) (resolve : Resolver) (role : Role) (component : ComponentId)
    (payload : Bytes) :
    (∃ error, w.applyPayload resolve h role component payload = .error error ∧
        assignments role payload = []) ∨
      w.applyPayload resolve h role component payload =
        .ok ((assignments role payload).foldl (Applied.note resolve) .nothing,
          w.putObject h ((assignments role payload).foldl (Object.assign resolve) object)) := by
  have stored := World.getElem?_of_object? found
  unfold World.applyPayload assignments
  by_cases spawn : role = .spawn
  · rw [if_pos spawn, if_pos spawn]
    cases Wire.decodeSpawn payload with
    | error flaw => exact .inl ⟨_, rfl, rfl⟩
    | ok data =>
      refine .inr ?_
      simp only [List.foldl_nil, World.putObject, insert_of_getElem? stored]
  · rw [if_neg spawn, if_neg spawn]
    cases Wire.decodeFields payload with
    | error flaw => exact .inl ⟨_, rfl, rfl⟩
    | ok as =>
      refine .inr ?_
      simp only [World.target, found, bind, Except.bind, pure, Except.pure, World.putObject]

/-- What a payload does that assigns no field twice: only the object of the subscriber and its own
entry change, and they show the assignments of the payload in the place of earlier ones. -/
theorem exists_apply {w : World} {l : Waitlist} {s : Subscriber} {role : Role} {payload : Bytes}
    (distinct : ((assignments role payload).map (·.offset)).Nodup) (component : ComponentId)
    (h : Mirrors due resolve last w l s) :
    match apply w l resolve s role component payload with
    | .error _ => assignments role payload = []
    | .ok (w', l') => ∃ object parked,
        (∀ k, w'.object? k = if s.object = k then some object else w.object? k) ∧
        l' = l.store s parked ∧
        Shows due resolve (fun k => (lastTo (assignments role payload) k).or (last s.object k))
          object.fields parked := by
  obtain ⟨object, found, shows⟩ := h
  have alive := World.isAlive_of_object? found
  rcases applyPayload_of_object? found resolve role component payload with
    ⟨error, refused, none⟩ | applied
  · simp only [apply, refused, bind, Except.bind, none]
  · simp only [apply, applied, bind, Except.bind, pure, Except.pure]
    refine ⟨(assignments role payload).foldl (Object.assign resolve) object, _, ?_, rfl, ?_⟩
    · intro k
      rw [object?_announce, World.object?_putObject alive]
    · intro k
      beta_reduce
      rw [fields_foldl_assign, getElem?_merge,
        unresolved_foldl_note_of_nodup resolve _ distinct, Applied.written_foldl_note]
      -- A field that is written shows its new value as a whole, any other what it showed before.
      cases assigned : lastTo (assignments role payload) k with
      | some a =>
        have written : k ∈ (assignments role payload).map (·.offset) := by
          obtain ⟨mem, same⟩ := mem_of_lastTo assigned
          exact List.mem_map.mpr ⟨a, mem, same⟩
        refine ⟨a.value.localize resolve, rfl, ?_⟩
        have whole : a.value.Reflects due resolve a.rep _ _ := .refl a.value
        simpa [Applied.nothing, written] using whole
      | none =>
        have unwritten := lastTo_eq_none.mp assigned
        simpa [Applied.nothing, unwritten] using shows k

/-- A payload that cannot be applied to a live object assigns nothing; any other says of each field
what it holds and what it waits for. -/
theorem fields_apply_of_object? {w : World} {t : Subscriber} {object : Object}
    (found : w.object? t.object = some object) (l : Waitlist) (resolve : Resolver) (role : Role)
    (component : ComponentId) (payload : Bytes) :
    (∃ error, apply w l resolve t role component payload = .error error ∧
        assignments role payload = []) ∨
      ∃ w' l', apply w l resolve t role component payload = .ok (w', l') ∧ ∀ k : Offset,
        w'.field? t.object k =
            ((lastTo (assignments role payload) k).map (·.value.localize resolve)).or
              (w.field? t.object k) ∧
          (l'.parkedOf t)[k]? =
            (((assignments role payload).filter (·.offset == k)).reverse.findSome? fun a =>
              a.value.outstanding resolve a.rep).or
                (if k ∈ (assignments role payload).map (·.offset) then none
                  else (l.parkedOf t)[k]?) := by
  rcases applyPayload_of_object? found resolve role component payload with
    ⟨error, refused, idle⟩ | applied
  · exact .inl ⟨error, by simp only [apply, refused, bind, Except.bind], idle⟩
  · refine .inr ⟨_, _, apply_eq_ok.mpr ⟨_, _, applied, rfl, rfl⟩, fun k => ⟨?_, ?_⟩⟩
    · rw [World.field?, World.field?, object?_announce,
        World.object?_putObject (World.isAlive_of_object? found), if_pos rfl, found]
      exact fields_foldl_assign resolve _ object k
    · rw [Waitlist.parkedOf_store, if_pos rfl, getElem?_merge, unresolved_foldl_note_eq,
        Applied.written_foldl_note]
      simp [Applied.nothing]

/-- A payload that can be read is applied to a live object, and says of each field what it holds and
what it waits for. -/
theorem fields_apply_of_decoded {w : World} {t : Subscriber} {object : Object}
    (found : w.object? t.object = some object) {role : Role} (data : role ≠ .spawn)
    {payload : Bytes} {as : List Assignment} (decoded : Wire.decodeFields payload = .ok as)
    (l : Waitlist) (resolve : Resolver) (component : ComponentId) :
    ∃ w' l', apply w l resolve t role component payload = .ok (w', l') ∧ ∀ k : Offset,
      w'.field? t.object k =
          ((lastTo as k).map (·.value.localize resolve)).or (w.field? t.object k) ∧
        (l'.parkedOf t)[k]? =
          ((as.filter (·.offset == k)).reverse.findSome? fun a =>
            a.value.outstanding resolve a.rep).or
              (if k ∈ as.map (·.offset) then none else (l.parkedOf t)[k]?) := by
  have makes : assignments role payload = as := by
    rw [assignments, if_neg data, decoded]
  have written : w.applyPayload resolve t.object role component payload =
      .ok (as.foldl (Applied.note resolve) .nothing,
        w.putObject t.object (as.foldl (Object.assign resolve) object)) := by
    rw [World.applyPayload, if_neg data, decoded]
    simp only [World.target, found]
    rfl
  rcases fields_apply_of_object? found l resolve role component payload with
    ⟨error, refused, -⟩ | applied
  · rw [apply_eq_ok.mpr ⟨_, _, written, rfl, rfl⟩] at refused
    cases refused
  · rwa [makes] at applied

end Update

end Replica
