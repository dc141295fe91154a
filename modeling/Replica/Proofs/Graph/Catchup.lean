import Replica.Proofs.Neighbours

/-! # Replays catch up

An object that was written while some references were missing is brought up to date by their
replays, in any order and with repetitions: in the end it is what it would be if the same payload
had been written with all of them known. A single reference is filled by its own replay, while a
struct is written again as a whole and may run ahead of replays that are still to come; what is
written then is what those would have written.

Main definitions:
* `Resolver.Extends` — a resolver that knows some more references, and is the same elsewhere.
* `Assignment.ShownBy` — a field shows an assignment, up to what is due.
* `Update.resolveEach` — replays of several arrivals.
* `Update.replays_catch_up` — they leave what one update with the larger resolver leaves. -/

namespace Replica

/-- A resolver **extends** another by some arrivals if it knows these in addition, as the objects
that arrive, and is the same elsewhere. -/
structure Resolver.Extends (resolve' resolve : Resolver) (arrivals : List Arrival) : Prop where
  /-- The arrivals were not known before. -/
  missing : ∀ a ∈ arrivals, resolve a.reference = none
  /-- They are known now. -/
  known : ∀ a ∈ arrivals, resolve' a.reference = some a.object
  /-- Everything else is as before. -/
  same : ∀ r, (∀ a ∈ arrivals, a.reference ≠ r) → resolve' r = resolve r

/-! ## A field shows an assignment -/

/-- An assignment is **shown** by its field of an object, together with what is parked there, if
both reflect its value up to what is due. -/
def Assignment.ShownBy (due : Reference → Prop) (resolve : Resolver) (a : Assignment)
    (t : Subscriber) (w : World) (l : Waitlist) : Prop :=
  ∃ x, w.field? t.object a.offset = some x ∧
    a.value.Reflects due resolve a.rep x (l.parkedOf t)[a.offset]?

namespace Assignment.ShownBy

variable {due due' : Reference → Prop} {resolve resolve' : Resolver} {a : Assignment}
  {t : Subscriber} {w w' : World} {l l' : Waitlist}

theorem untouched (h : a.ShownBy due resolve t w l) (kept : Untouched t w l w' l') :
    a.ShownBy due resolve t w' l' := by
  obtain ⟨x, shown, reflects⟩ := h
  refine ⟨x, (kept.field a.offset).trans shown, ?_⟩
  rwa [kept.parked t rfl]

theorem mono (h : a.ShownBy due resolve t w l) (later : ∀ q, due q → due' q) :
    a.ShownBy due' resolve t w l := by
  obtain ⟨x, shown, reflects⟩ := h
  exact ⟨x, shown, reflects.grow later fun _ => .inl rfl⟩

/-- Where nothing is due, an assignment is shown by what the resolver makes of its value. -/
theorem eq (h : a.ShownBy due resolve t w l) (done : ∀ r, ¬due r) :
    w.field? t.object a.offset = some (a.value.localize resolve) ∧
      (l.parkedOf t)[a.offset]? = a.value.outstanding resolve a.rep := by
  obtain ⟨x, shown, reflects⟩ := h
  obtain ⟨rfl, waits⟩ := reflects.eq done
  exact ⟨shown, waits⟩

/-- An assignment that one resolver has made is shown to a larger one, with the difference due. -/
theorem of_extends {arrivals : List Arrival} (larger : resolve'.Extends resolve arrivals)
    (shown : w.field? t.object a.offset = some (a.value.localize resolve))
    (parked : (l.parkedOf t)[a.offset]? = a.value.outstanding resolve a.rep) :
    a.ShownBy (fun r => ∃ b ∈ arrivals, b.reference = r) resolve' t w l := by
  refine ⟨_, shown, ?_⟩
  rw [parked]
  have whole : a.value.Reflects (fun _ => False) resolve a.rep (a.value.localize resolve)
      (a.value.outstanding resolve a.rep) := .refl a.value
  refine whole.grow nofun fun r => ?_
  by_cases new : ∃ b ∈ arrivals, b.reference = r
  · obtain ⟨b, mem, rfl⟩ := new
    exact .inr ⟨larger.missing b mem, b, mem, rfl⟩
  · exact .inl (larger.same r fun b mem same => new ⟨b, mem, same⟩)

/-- Serving a subscriber leaves nothing of the reference due. -/
theorem served {state : Update.Resolution} {r : Reference} {resolved : Handle}
    (h : a.ShownBy due resolve t state.world state.waitlist) (known : resolve r = some resolved)
    (writable : a.value.IsWritable) :
    a.ShownBy (AllBut r due) resolve t (Update.serve resolve r resolved state t).world
      (Update.serve resolve r resolved state t).waitlist := by
  obtain ⟨x, shown, reflects⟩ := h
  obtain ⟨object, found, -⟩ := Option.bind_eq_some_iff.mp shown
  have alive := World.isAlive_of_object? found
  cases parked : (state.waitlist.parkedOf t)[a.offset]? with
  | none =>
    -- A field that waits for nothing does not wait for `r` either.
    have free : ∀ o, (state.waitlist.parkedOf t)[a.offset]? = some o → r ∉ o.references := by
      rw [parked]
      nofun
    obtain ⟨same, left⟩ := Update.field_serve resolve resolved alive free
    rw [parked] at reflects
    refine ⟨x, same.trans shown, ?_⟩
    rw [left, parked]
    exact reflects.spare nofun
  | some o =>
    rw [parked] at reflects
    obtain ⟨w₁, before, filled, left⟩ := Update.isolate_serve resolve r resolved alive parked
    let replay : Replay := ⟨t.object, r, resolved, resolve⟩
    have leads : replay.resolve replay.reference = some replay.resolved := known
    -- The field is replayed on its own, in a world where it is as it was.
    obtain ⟨object₁, found₁, field⟩ := Option.bind_eq_some_iff.mp (before.trans shown)
    have alive₁ := World.isAlive_of_object? found₁
    obtain ⟨x', changed, rest, replayed, reflects'⟩ :=
      Replay.position_field leads alive₁ writable field reflects
    have itself : w₁.putObject t.object object₁ = w₁ := by
      rw [World.putObject, insert_of_getElem? (World.getElem?_of_object? found₁)]
    rw [itself] at replayed
    rw [replayed] at filled left
    refine ⟨x', ?_, ?_⟩
    · rw [filled, World.field?, World.object?_putObject alive₁, if_pos rfl]
      simp [Object.putField]
    · rw [left]
      exact reflects'

/-- So does a resolution, whether or not the subscriber is served. -/
theorem resolved {r : Reference} {h : Handle} (shown : a.ShownBy due resolve t w l)
    (coherent : l.Coherent) (alone : l.StandsAlone t) (known : resolve r = some h)
    (writable : a.value.IsWritable) :
    a.ShownBy (AllBut r due) resolve t (Update.resolve w l resolve r h).world
      (Update.resolve w l resolve r h).waitlist := by
  rcases Update.exists_served resolve h (alone.eq_of_subscribed coherent) with
    ⟨out, kept⟩ | ⟨-, state, before, after⟩
  · obtain ⟨x, holds, reflects⟩ := shown.untouched kept
    refine ⟨x, holds, reflects.spare fun o left waits => out ?_⟩
    rw [kept.parked t rfl] at left
    rw [coherent.mem_subscribersOf]
    exact Parked.mem_references.mpr ⟨_, o, left, waits⟩
  · exact ((shown.untouched before).served known writable).untouched after

end Assignment.ShownBy

/-! ## Several replays -/

namespace Update

variable {resolve : Resolver} {t : Subscriber}

/-- Replays the **next** arrival and adds those who wait no more because of it. -/
def resolveNext (resolve : Resolver) (state : Resolution) (a : Arrival) : Resolution :=
  let next := Update.resolve state.world state.waitlist resolve a.reference a.object
  { next with complete := state.complete ++ next.complete }

/-- Replays **each** of some arrivals, one after the other. -/
def resolveEach (resolve : Resolver) (arrivals : List Arrival) (state : Resolution) : Resolution :=
  arrivals.foldl (resolveNext resolve) state

/-- The object of a subscriber is **kept** by a world and a waitlist if it is alive, and the
subscriber stands alone in a waitlist whose sides agree. -/
structure Keeps (w : World) (l : Waitlist) (t : Subscriber) : Prop where
  /-- The object is alive. -/
  alive : w.isAlive t.object = true
  /-- The sides of the waitlist agree. -/
  coherent : l.Coherent
  /-- Nobody else waits with the object. -/
  alone : l.StandsAlone t

/-- A payload keeps the object that it is applied to. -/
theorem Keeps.apply {w w' : World} {l l' : Waitlist} {object : Object}
    (found : w.object? t.object = some object) (coherent : l.Coherent) (alone : l.StandsAlone t)
    {role : Role} {component : ComponentId} {payload : Bytes}
    (ok : apply w l resolve t role component payload = .ok (w', l')) : Keeps w' l' t := by
  refine ⟨?_, coherent_of_apply coherent ok, fun t' same other => ?_⟩
  · rw [(rewrites_of_apply ok).isAlive, World.isAlive_of_object? found]
  · obtain ⟨_, _, -, -, rfl⟩ := apply_eq_ok.mp ok
    rw [Waitlist.parkedOf_store, if_neg (Ne.symm other), alone t' same other]

/-- The next replay keeps the objects that are kept. -/
theorem Keeps.next {state : Resolution} (h : Keeps state.world state.waitlist t) (a : Arrival) :
    Keeps (resolveNext resolve state a).world (resolveNext resolve state a).waitlist t := by
  have left : Leaves a.reference.entity t state.world state.waitlist
      (resolveNext resolve state a).world (resolveNext resolve state a).waitlist :=
    leaves_resolve (h.alone.eq_of_subscribed h.coherent)
  exact ⟨left.alive.trans h.alive, coherent_resolve h.coherent resolve a.reference a.object,
    fun t' same other => left.alone t' same other (h.alone t' same other)⟩

/-! ## Who waits no more -/

/-- Who is not served is not among those who wait no more because of it. -/
theorem count_serves {r : Reference} {resolved : Handle} (served : List Subscriber)
    (state : Resolution) (out : t ∉ served) :
    (served.foldl (serve resolve r resolved) state).complete.count t = state.complete.count t := by
  induction served generalizing state with
  | nil => rfl
  | cons s rest ih =>
    rw [List.mem_cons, not_or] at out
    rw [List.foldl_cons, ih _ out.2, serve]
    split
    · rfl
    · dsimp only
      split
      · rw [List.count_append, List.count_singleton, if_neg (by simpa using Ne.symm out.1),
          Nat.add_zero]
      · rfl

/-- Who is served waits no more just if nothing is parked for it then. -/
theorem count_serve {r : Reference} {resolved : Handle} {state : Resolution}
    (alive : state.world.isAlive t.object = true) :
    (serve resolve r resolved state t).complete.count t = state.complete.count t +
      if ((serve resolve r resolved state t).waitlist.parkedOf t).isEmpty then 1 else 0 := by
  rw [(serve_of_isAlive resolve r resolved alive).2, Waitlist.parkedOf_store, if_pos rfl, serve,
    if_neg (by rw [alive]; decide)]
  dsimp only
  rw [isEmpty_ofList]
  split
  · rw [List.count_append, List.count_singleton_self]
  · rfl

/-- **Who waits no more after a replay** is told so just if it has waited before. -/
theorem count_resolve {w : World} {l : Waitlist} (h : Keeps w l t) (r : Reference)
    (found : Handle) : (Update.resolve w l resolve r found).complete.count t =
      if !(l.parkedOf t).isEmpty &&
        ((Update.resolve w l resolve r found).waitlist.parkedOf t).isEmpty then 1 else 0 := by
  by_cases listed : t ∈ l.subscribersOf r
  · obtain ⟨before, after, split, first, last⟩ :=
      subscribersOf_split (h.alone.eq_of_subscribed h.coherent) listed
    have waits : (l.parkedOf t).isEmpty = false := by
      rw [← Bool.not_eq_true, Std.ExtTreeMap.isEmpty_iff]
      intro idle
      rw [h.coherent.mem_subscribersOf, idle] at listed
      simp at listed
    -- The subscriber is served once, and nobody before or after is that subscriber.
    have unserved : ∀ served : List Subscriber, (∀ s ∈ served, s.object ≠ t.object) → t ∉ served :=
      fun served others mem => others t mem rfl
    have alive : (before.foldl (serve resolve r found) ⟨w, l, []⟩).world.isAlive t.object = true :=
      (untouched_serves ⟨w, l, []⟩ first).alive.trans h.alive
    rw [Update.resolve, split, List.foldl_append, List.foldl_cons,
      count_serves after _ (unserved after last), count_serve alive,
      count_serves before _ (unserved before first), (untouched_serves _ last).parked t rfl, waits,
      List.count_nil, Nat.zero_add, Bool.not_false, Bool.true_and]
  · rw [parkedOf_resolve_of_not_mem listed, Update.resolve, count_serves _ _ listed]
    cases (l.parkedOf t).isEmpty <;> rfl

/-- Who waits for nothing is not made to wait by replays. -/
theorem parkedOf_resolveEach_of_isEmpty (resolve : Resolver) (arrivals : List Arrival)
    {state : Resolution} (h : Keeps state.world state.waitlist t)
    (idle : (state.waitlist.parkedOf t).isEmpty = true) :
    ((resolveEach resolve arrivals state).waitlist.parkedOf t).isEmpty = true := by
  induction arrivals generalizing state with
  | nil => exact idle
  | cons a rest ih =>
    refine ih (h.next a) ?_
    rw [resolveNext, parkedOf_resolve_of_not_mem]
    · exact idle
    · rw [h.coherent.mem_subscribersOf, Std.ExtTreeMap.isEmpty_iff.mp idle]
      simp

/-- Who turns idle and then stays so has turned idle once. -/
theorem count_twice {before now after : Bool} (idle : before = true → now = true)
    (stays : now = true → after = true) :
    (if !before && now then 1 else 0) + (if !now && after then 1 else 0) =
      if !before && after then 1 else 0 := by
  cases now with
  | true => simp [stays rfl]
  | false =>
    have waits : before = false := Bool.eq_false_iff.mpr fun was => nomatch idle was
    simp [waits]

/-- Over all the replays, who waits no more in the end is told so once if it has waited before, and
not otherwise. -/
theorem count_resolveEach (arrivals : List Arrival) {state : Resolution}
    (h : Keeps state.world state.waitlist t) :
    (resolveEach resolve arrivals state).complete.count t = state.complete.count t +
      if !(state.waitlist.parkedOf t).isEmpty &&
        ((resolveEach resolve arrivals state).waitlist.parkedOf t).isEmpty then 1 else 0 := by
  induction arrivals generalizing state with
  | nil => cases idle : (state.waitlist.parkedOf t).isEmpty <;> simp [resolveEach, idle]
  | cons a rest ih =>
    have idle : (state.waitlist.parkedOf t).isEmpty = true →
        ((resolveNext resolve state a).waitlist.parkedOf t).isEmpty = true :=
      parkedOf_resolveEach_of_isEmpty resolve [a] h
    have stays : ((resolveNext resolve state a).waitlist.parkedOf t).isEmpty = true →
        ((resolveEach resolve (a :: rest) state).waitlist.parkedOf t).isEmpty = true :=
      parkedOf_resolveEach_of_isEmpty resolve rest (h.next a)
    have next : (resolveNext resolve state a).complete.count t = state.complete.count t +
        if !(state.waitlist.parkedOf t).isEmpty &&
          ((resolveNext resolve state a).waitlist.parkedOf t).isEmpty then 1 else 0 := by
      rw [resolveNext, List.count_append, count_resolve h]
    rw [← count_twice idle stays, ← Nat.add_assoc, ← next]
    exact ih (h.next a)

/-! ## The replays and the update -/

/-- An assignment is shown after several replays with nothing of their references due. -/
theorem shownBy_resolveEach {a : Assignment} {due : Reference → Prop}
    (writable : a.value.IsWritable)
    (arrivals : List Arrival) (known : ∀ b ∈ arrivals, resolve b.reference = some b.object)
    (state : Resolution) (h : Keeps state.world state.waitlist t)
    (shown : a.ShownBy due resolve t state.world state.waitlist) :
    a.ShownBy (fun r => due r ∧ ∀ b ∈ arrivals, b.reference ≠ r) resolve t
      (resolveEach resolve arrivals state).world (resolveEach resolve arrivals state).waitlist := by
  induction arrivals generalizing state due with
  | nil => exact shown.mono fun q awaited => ⟨awaited, nofun⟩
  | cons b rest ih =>
    have first := shown.resolved h.coherent h.alone (known b List.mem_cons_self) writable
    refine (ih (fun b mem => known b (List.mem_cons_of_mem _ mem)) _ (h.next b) first).mono ?_
    rintro q ⟨⟨awaited, differs⟩, later⟩
    exact ⟨awaited, List.forall_mem_cons.mpr ⟨Ne.symm differs, later⟩⟩

/-- A field that waits for none of the references is left alone by their replays, and so is what is
parked there. -/
theorem field_resolveEach (resolve : Resolver) (arrivals : List Arrival) {k : Offset}
    (state : Resolution) (h : Keeps state.world state.waitlist t)
    (free : ∀ o, (state.waitlist.parkedOf t)[k]? = some o →
      ∀ b ∈ arrivals, b.reference ∉ o.references) :
    (resolveEach resolve arrivals state).world.field? t.object k = state.world.field? t.object k ∧
      ((resolveEach resolve arrivals state).waitlist.parkedOf t)[k]? =
        (state.waitlist.parkedOf t)[k]? := by
  induction arrivals generalizing state with
  | nil => exact ⟨rfl, rfl⟩
  | cons b rest ih =>
    obtain ⟨same, left⟩ := field_resolve resolve b.object (h.alone.eq_of_subscribed h.coherent)
      h.alive fun o parked => free o parked b List.mem_cons_self
    obtain ⟨same', left'⟩ := ih _ (h.next b)
      (by
        rw [resolveNext, left]
        exact fun o parked b mem => free o parked b (List.mem_cons_of_mem _ mem))
    exact ⟨same'.trans same, left'.trans left⟩

/-- **Replays catch up with an update.** A payload that assigns no field twice is written into a
live object while some references are missing, and their arrivals are replayed in any order, with
repetitions. In the end every field and all that is parked for the object are what the same payload
leaves where the arrivals are known beforehand, and over all the replays the subscriber is told once
that it waits no more, if it has waited before and waits for nothing then, and otherwise never. What
else is parked for the object does not wait for the arrivals. -/
theorem replays_catch_up {w : World} {l : Waitlist} {object : Object}
    (found : w.object? t.object = some object) (coherent : l.Coherent) (alone : l.StandsAlone t)
    {role : Role} (data : role ≠ .spawn) (component : ComponentId) {payload : Bytes}
    {as : List Assignment} (decoded : Wire.decodeFields payload = .ok as)
    (distinct : (as.map (·.offset)).Nodup) {resolve' : Resolver} {arrivals : List Arrival}
    (larger : resolve'.Extends resolve arrivals)
    (others : ∀ k, k ∉ as.map (·.offset) → ∀ o, (l.parkedOf t)[k]? = some o →
      ∀ a ∈ arrivals, a.reference ∉ o.references) :
    ∃ w₁ l₁ w₂ l₂, apply w l resolve t role component payload = .ok (w₁, l₁) ∧
      apply w l resolve' t role component payload = .ok (w₂, l₂) ∧
      (∀ k : Offset, (resolveEach resolve' arrivals ⟨w₁, l₁, []⟩).world.field? t.object k =
        w₂.field? t.object k) ∧
      (resolveEach resolve' arrivals ⟨w₁, l₁, []⟩).waitlist.parkedOf t = l₂.parkedOf t ∧
      (resolveEach resolve' arrivals ⟨w₁, l₁, []⟩).complete.count t =
        if !(l₁.parkedOf t).isEmpty && (l₂.parkedOf t).isEmpty then 1 else 0 := by
  obtain ⟨w₁, l₁, ok, first⟩ := fields_apply_of_decoded found data decoded l resolve component
  obtain ⟨w₂, l₂, ok', second⟩ := fields_apply_of_decoded found data decoded l resolve' component
  have kept : Keeps w₁ l₁ t := .apply found coherent alone ok
  have each : ∀ k : Offset,
      (resolveEach resolve' arrivals ⟨w₁, l₁, []⟩).world.field? t.object k =
          w₂.field? t.object k ∧
        ((resolveEach resolve' arrivals ⟨w₁, l₁, []⟩).waitlist.parkedOf t)[k]? =
          (l₂.parkedOf t)[k]? := by
    intro k
    obtain ⟨field, parked⟩ := first k
    obtain ⟨field', parked'⟩ := second k
    rw [findSome?_filter_of_nodup distinct] at parked parked'
    cases assigned : lastTo as k with
    | none =>
      -- The payload leaves the field alone, and so do the replays.
      have unwritten := lastTo_eq_none.mp assigned
      rw [assigned, if_neg unwritten] at parked parked'
      rw [assigned] at field field'
      obtain ⟨same, left⟩ := field_resolveEach resolve' arrivals ⟨w₁, l₁, []⟩ kept
        (by rw [parked]; exact others k unwritten)
      exact ⟨(same.trans field).trans field'.symm, (left.trans parked).trans parked'.symm⟩
    | some a =>
      obtain ⟨mem, rfl⟩ := mem_of_lastTo assigned
      have written : a.offset ∈ as.map (·.offset) := List.mem_map.mpr ⟨a, mem, rfl⟩
      rw [assigned, if_pos written] at parked parked'
      rw [assigned] at field field'
      have shown := shownBy_resolveEach ((Wire.decodeFields_eq_ok.mp decoded).1.2 a mem) arrivals
        larger.known ⟨w₁, l₁, []⟩ kept
        (Assignment.ShownBy.of_extends larger field (by simpa using parked))
      obtain ⟨holds, left⟩ := shown.eq fun r due => by
        obtain ⟨⟨b, mem, same⟩, spent⟩ := due
        exact spent b mem same
      exact ⟨holds.trans field'.symm, left.trans (by simpa using parked'.symm)⟩
  have parked : (resolveEach resolve' arrivals ⟨w₁, l₁, []⟩).waitlist.parkedOf t = l₂.parkedOf t :=
    Std.ExtTreeMap.ext_getElem? fun k => (each k).2
  refine ⟨w₁, l₁, w₂, l₂, ok, ok', fun k => (each k).1, parked, ?_⟩
  rw [count_resolveEach arrivals kept, parked]
  exact Nat.zero_add _

/-- Three fields that wait for two objects, in every shape. -/
def nestedWrites : List Assignment :=
  [.at 5 (.ref (.root 2)), .at 6 (.struct [.ref (.root 3), .ref (.root 2)]),
    .at 7 (.array [.ref (.root 3), .int 4, .array [.ref (.root 2)]])]

/-- The two objects arrive, one of them twice. -/
def twoArrivals : List Arrival :=
  [⟨⟨8, 0⟩, .root 3⟩, ⟨⟨9, 0⟩, .root 2⟩, ⟨⟨8, 0⟩, .root 3⟩]

/-- Just the two objects are known. -/
def bothKnown (r : Reference) : Option Handle :=
  if r = .root 2 then some ⟨9, 0⟩ else if r = .root 3 then some ⟨8, 0⟩ else none

/-- Where the first object of a world is replicated. -/
def firstObject : Subscriber := ⟨⟨0, 0⟩, ⟨0, 0⟩⟩

/-- What the three writes leave in a world with one object and nobody who waits. -/
def writeNested (resolve : Resolver) : Except PayloadError (World × Waitlist) :=
  apply (World.initial.placeLocal "Crate").2 .empty resolve firstObject .data
    Stock.rootDataComponent (Wire.fields nestedWrites)

theorem replays_catch_up_nestedWrites :
    ∃ w₁ l₁, writeNested (fun _ => none) = .ok (w₁, l₁) ∧
      (resolveEach bothKnown twoArrivals ⟨w₁, l₁, []⟩).world.field? firstObject.object 6 =
        some (.struct [.object (some ⟨8, 0⟩), .object (some ⟨9, 0⟩)]) ∧
      (resolveEach bothKnown twoArrivals ⟨w₁, l₁, []⟩).complete.count firstObject = 1 := by
  obtain ⟨object, found⟩ := Option.isSome_iff_exists.mp
    (show ((World.initial.placeLocal "Crate").2.object? firstObject.object).isSome = true by
      decide +kernel)
  have readable : Wire.decodeFields (Wire.fields nestedWrites) = .ok nestedWrites := by
    decide +kernel
  have larger : Resolver.Extends bothKnown (fun _ => none) twoArrivals := by
    refine ⟨fun _ _ => rfl, by decide, fun r apart => ?_⟩
    rw [bothKnown, if_neg, if_neg]
    · exact (apart ⟨⟨8, 0⟩, .root 3⟩ (by decide)).symm
    · exact (apart ⟨⟨9, 0⟩, .root 2⟩ (by decide)).symm
  have idle (t : Subscriber) : Waitlist.empty.parkedOf t = ∅ := by
    simp [Waitlist.parkedOf, Waitlist.empty]
  obtain ⟨w₁, l₁, w₂, l₂, ok, ok', fields, -, told⟩ :=
    replays_catch_up found Waitlist.coherent_empty (fun t _ _ => idle t)
      (by decide : Role.data ≠ .spawn) Stock.rootDataComponent readable (by decide) larger
      (fun k _ o => by simp [idle])
  have before : ((writeNested fun _ => none).toOption.any fun s =>
      !(s.2.parkedOf firstObject).isEmpty) = true := by decide +kernel
  have after : ((writeNested bothKnown).toOption.any fun s =>
      (s.2.parkedOf firstObject).isEmpty && s.1.field? firstObject.object 6 ==
        some (.struct [.object (some ⟨8, 0⟩), .object (some ⟨9, 0⟩)])) = true := by decide +kernel
  rw [writeNested, ok] at before
  rw [writeNested, ok'] at after
  simp only [Except.toOption, Option.any_some, Bool.and_eq_true, beq_iff_eq] at before after
  refine ⟨w₁, l₁, ok, (fields 6).trans after.2, ?_⟩
  rw [told, before, after.1]
  rfl

end Update

end Replica
