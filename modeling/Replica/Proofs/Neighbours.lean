import Replica.Proofs.Drain
import Replica.Proofs.Removal

/-! # What an operation reaches

An operation is addressed to one entity. The drafts, the channels and the objects of all others are
out of its reach, but for one thing: when objects of the entity become known, they are filled into
the fields that have waited for them. Such a field may hold references to other entities as well,
at any depth, and still the fields beside it stay as they are.

Main definitions:
* `Parked.Awaits` — a field waits for an object of an entity.
* `Untouched` — nothing of an object changes.
* `Leaves` — an object keeps its fields, but for those that await an entity.
* `Session.untouched_remove`, `Session.leaves_construct` and the others — what each step leaves.
* `Session.operation_stays_on_entity` — what an operation leaves as it is after every run. -/

namespace Replica

/-! ## A position and its field -/

/-- Writing inside a field leaves the other fields as they are. -/
theorem World.field?_of_writeAt {w w' : World} {h : Handle} {field k : Offset} {path : List Offset}
    {new : Localized} (ok : w.writeAt h (field :: path) new = .ok w') (other : k ≠ field) :
    w'.field? h k = w.field? h k := by
  unfold writeAt at ok
  cases found : w.object? h with
  | none => simp [target, found, bind, Except.bind] at ok
  | some object =>
    have alive := isAlive_of_object? found
    simp only [target, found, bind, Except.bind, pure, Except.pure] at ok
    split at ok
    · rename_i object' replaced
      obtain ⟨old, -, rest⟩ := Option.bind_eq_some_iff.mp replaced
      obtain ⟨changed, -, made⟩ := Option.bind_eq_some_iff.mp rest
      cases made
      cases ok
      show ((w.putObject h (object.putField field changed)).object? h).bind (·.fields[k]?) = _
      rw [object?_putObject alive, if_pos rfl, field?, found]
      simp [Object.putField, Std.ExtTreeMap.getElem?_insert, Ne.symm other]
    · cases ok

/-- The replay of a position leaves the fields alone that the position is not in. -/
theorem Replay.field?_position (replay : Replay) (w : World) (path : List Offset)
    {field k : Offset} (other : k ≠ field) (o : Outstanding) :
    (replay.position w (field :: path) o).1.field? replay.object k = w.field? replay.object k :=
  replay.position_keeps (P := fun w' => w'.field? replay.object k = w.field? replay.object k)
    (fun _ before ok => (World.field?_of_writeAt ok other).trans before) rfl o

/-- What is left of some positions stands where it stood. -/
theorem Replay.keys_positions (replay : Replay) (w : World) (path : List Offset)
    (entries : List (Offset × Outstanding)) :
    ((replay.positions w path entries).2.2.map (·.1)).Sublist (entries.map (·.1)) := by
  induction entries generalizing w with
  | nil => exact .slnil
  | cons e rest ih =>
    rw [positions]
    dsimp only
    split
    · exact (ih _).cons_cons _
    · exact (ih _).cons _

/-- **A field that does not wait for what is replayed** keeps what it holds and what it waits for,
whatever is replayed beside it. -/
theorem Replay.positions_apart (replay : Replay) (w : World) {k : Offset}
    (entries : List (Offset × Outstanding))
    (apart : ∀ o, (k, o) ∈ entries → replay.reference ∉ o.references) :
    (replay.positions w [] entries).1.field? replay.object k = w.field? replay.object k ∧
      ∀ o, (k, o) ∈ (replay.positions w [] entries).2.2 ↔ (k, o) ∈ entries := by
  induction entries generalizing w with
  | nil => exact ⟨rfl, fun _ => .rfl⟩
  | cons e rest ih =>
    obtain ⟨field, o⟩ := e
    have later := fun w => ih w fun x mem => apart x (List.mem_cons_of_mem _ mem)
    rw [positions, List.nil_append]
    by_cases waits : replay.reference ∈ o.references
    · -- The position is filled, and so it is in another field.
      have other : k ≠ field := by
        rintro rfl
        exact apart o List.mem_cons_self waits
      obtain ⟨same, left⟩ := later (replay.position w [field] o).1
      refine ⟨same.trans (replay.field?_position w [] other o), fun x => ?_⟩
      dsimp only
      split
      · simp [left, other]
      · simp [left, other]
    · rw [position_of_not_mem w [field] waits]
      obtain ⟨same, left⟩ := later w
      exact ⟨same, fun x => by simp [left]⟩

/-- **Each field is replayed on its own.** What a replay does to a field, and what it leaves parked
there, is what the replay of its position alone does, where the field holds what it held. -/
theorem Replay.positions_isolate (replay : Replay) (w : World) {k : Offset} {o : Outstanding}
    (entries : List (Offset × Outstanding)) (distinct : (entries.map (·.1)).Nodup)
    (mem : (k, o) ∈ entries) :
    ∃ w₁ : World, w₁.field? replay.object k = w.field? replay.object k ∧
      (replay.positions w [] entries).1.field? replay.object k =
        (replay.position w₁ [k] o).1.field? replay.object k ∧
      ∀ x, (k, x) ∈ (replay.positions w [] entries).2.2 ↔
        (replay.position w₁ [k] o).2.2 = some x := by
  induction entries generalizing w with
  | nil => cases mem
  | cons e rest ih =>
    obtain ⟨field, o'⟩ := e
    obtain ⟨fresh, distinct⟩ := List.nodup_cons.mp distinct
    rw [positions, List.nil_append]
    rcases List.mem_cons.mp mem with here | later
    · -- The field itself is listed only once, so nothing that follows reaches it.
      cases here
      have unlisted : ∀ x, (k, x) ∉ rest := fun x mem => fresh (List.mem_map.mpr ⟨_, mem, rfl⟩)
      obtain ⟨same, left⟩ := replay.positions_apart (replay.position w [k] o).1 rest
        fun x mem => absurd mem (unlisted x)
      refine ⟨w, rfl, same, fun x => ?_⟩
      dsimp only
      split
      · rename_i y kept
        rw [kept]
        simp [left, unlisted, eq_comm]
      · rename_i gone
        rw [gone]
        simp [left, unlisted]
    · have other : k ≠ field := by
        rintro rfl
        exact fresh (List.mem_map.mpr ⟨_, later, rfl⟩)
      obtain ⟨w₁, before, filled, left⟩ := ih (replay.position w [field] o').1 distinct later
      refine ⟨w₁, before.trans (replay.field?_position w [] other o'), filled, fun x => ?_⟩
      rw [← left x]
      dsimp only
      split
      · simp [other]
      · rfl

/-! ## What is left alone -/

/-- A parked field **awaits** an entity if it waits for one of its objects. -/
def Parked.Awaits (p : Parked) (field : Offset) (entity : EntityId) : Prop :=
  ∃ o, p[field]? = some o ∧ ∃ r ∈ o.references, r.entity = entity

/-- What is done for an entity **leaves** the object of a subscriber if the object keeps its fields
and what they wait for, but for those that await the entity. A dead object waits for nothing that
matters. -/
structure Leaves (entity : EntityId) (t : Subscriber) (w : World) (l : Waitlist) (w' : World)
    (l' : Waitlist) : Prop where
  /-- The object is alive if it was. -/
  alive : w'.isAlive t.object = w.isAlive t.object
  /-- The other fields hold what they held. -/
  field : ∀ k, ¬(l.parkedOf t).Awaits k entity → w'.field? t.object k = w.field? t.object k
  /-- They wait as before. -/
  parked : w.isAlive t.object = true → ∀ k, ¬(l.parkedOf t).Awaits k entity →
    (l'.parkedOf t)[k]? = (l.parkedOf t)[k]?
  /-- Nobody else begins to wait with the object. -/
  alone : ∀ t' : Subscriber, t'.object = t.object → t' ≠ t → l.parkedOf t' = ∅ →
    l'.parkedOf t' = ∅

/-- The object of a subscriber is **untouched** if it keeps all its fields, and whoever waits with
it waits as before. -/
structure Untouched (t : Subscriber) (w : World) (l : Waitlist) (w' : World) (l' : Waitlist) :
    Prop where
  /-- The object is alive if it was. -/
  alive : w'.isAlive t.object = w.isAlive t.object
  /-- It has the same fields. -/
  fields : (w'.object? t.object).map Object.fields = (w.object? t.object).map Object.fields
  /-- Whoever waits with it waits for the same. -/
  parked : ∀ t' : Subscriber, t'.object = t.object → l'.parkedOf t' = l.parkedOf t'

namespace Untouched

variable {entity : EntityId} {t : Subscriber} {w w₁ w₂ : World} {l l₁ l₂ : Waitlist}

theorem refl (t : Subscriber) (w : World) (l : Waitlist) : Untouched t w l w l :=
  ⟨rfl, rfl, fun _ _ => rfl⟩

theorem trans (h₁ : Untouched t w l w₁ l₁) (h₂ : Untouched t w₁ l₁ w₂ l₂) :
    Untouched t w l w₂ l₂ :=
  ⟨h₂.alive.trans h₁.alive, h₂.fields.trans h₁.fields,
    fun t' same => (h₂.parked t' same).trans (h₁.parked t' same)⟩

theorem field (h : Untouched t w l w₁ l₁) (k : Offset) :
    w₁.field? t.object k = w.field? t.object k := by
  have field (w : World) : w.field? t.object k =
      ((w.object? t.object).map Object.fields).bind (·[k]?) := by
    rw [Option.bind_map]
    rfl
  rw [field, field, h.fields]

/-- What is untouched is left. -/
theorem leaves (h : Untouched t w l w₁ l₁) : Leaves entity t w l w₁ l₁ where
  alive := h.alive
  field k _ := h.field k
  parked _ k _ := by rw [h.parked t rfl]
  alone t' same _ idle := by rw [h.parked t' same, idle]

end Untouched

namespace Leaves

variable {entity : EntityId} {t : Subscriber} {w w₁ w₂ : World} {l l₁ l₂ : Waitlist}

theorem refl (entity : EntityId) (t : Subscriber) (w : World) (l : Waitlist) :
    Leaves entity t w l w l :=
  (Untouched.refl t w l).leaves

/-- A dead object has no fields. -/
theorem field?_of_dead {h : Handle} (dead : w.isAlive h = false) (k : Offset) :
    w.field? h k = none := by
  rw [World.field?, World.object?, dead]
  rfl

theorem trans (h₁ : Leaves entity t w l w₁ l₁) (h₂ : Leaves entity t w₁ l₁ w₂ l₂) :
    Leaves entity t w l w₂ l₂ := by
  cases alive : w.isAlive t.object with
  | false =>
    have alive₁ := h₁.alive.trans alive
    have alive₂ := h₂.alive.trans alive₁
    refine ⟨alive₂.trans alive.symm, fun k _ => ?_, fun lives => ?_,
      fun t' same other idle => h₂.alone t' same other (h₁.alone t' same other idle)⟩
    · rw [field?_of_dead alive₂, field?_of_dead alive]
    · cases alive.symm.trans lives
  | true =>
    have alive₁ := h₁.alive.trans alive
    -- A field that does not await the entity does not begin to.
    have still : ∀ k, ¬(l.parkedOf t).Awaits k entity → ¬(l₁.parkedOf t).Awaits k entity := by
      intro k free waits
      obtain ⟨o, parked, waits⟩ := waits
      exact free ⟨o, (h₁.parked alive k free).symm.trans parked, waits⟩
    exact ⟨h₂.alive.trans h₁.alive,
      fun k free => (h₂.field k (still k free)).trans (h₁.field k free),
      fun _ k free => (h₂.parked alive₁ k (still k free)).trans (h₁.parked alive k free),
      fun t' same other idle => h₂.alone t' same other (h₁.alone t' same other idle)⟩

end Leaves

/-- A subscriber **stands alone** in a waitlist if nobody else waits there with its object. -/
def Waitlist.StandsAlone (l : Waitlist) (t : Subscriber) : Prop :=
  ∀ t' : Subscriber, t'.object = t.object → t' ≠ t → l.parkedOf t' = ∅

/-- Whoever is found under a reference with the object of a subscriber that stands alone is that
subscriber. -/
theorem Waitlist.StandsAlone.eq_of_subscribed {l : Waitlist} {t : Subscriber}
    (h : l.StandsAlone t) (coherent : l.Coherent) {r : Reference} :
    ∀ t' ∈ l.subscribersOf r, t'.object = t.object → t' = t := by
  intro t' listed same
  by_contra other
  rw [coherent.mem_subscribersOf, h t' same other] at listed
  simp at listed

namespace Update

variable {resolve : Resolver} {r : Reference} {resolved : Handle} {state : Resolution}
  {t s : Subscriber}

/-- Writing a payload into another object leaves an object alone. -/
theorem untouched_apply {w w' : World} {l l' : Waitlist} {role : Role} {component : ComponentId}
    {payload : Bytes} (ok : apply w l resolve s role component payload = .ok (w', l'))
    (other : s.object ≠ t.object) : Untouched t w l w' l' := by
  have rewritten := rewrites_of_apply ok
  obtain ⟨applied, w₁, -, -, rfl⟩ := apply_eq_ok.mp ok
  refine ⟨rewritten.isAlive _, ?_, fun t' same => ?_⟩
  · rw [World.object?, World.object?, rewritten.isAlive, rewritten.others _ (Ne.symm other)]
  · rw [Waitlist.parkedOf_store, if_neg]
    rintro rfl
    exact other same

/-- Serving a subscriber changes no field of its object that does not wait for what is served, and
not what such a field waits for. -/
theorem field_serve (resolve : Resolver) (resolved : Handle)
    (alive : state.world.isAlive t.object = true) {k : Offset}
    (free : ∀ o, (state.waitlist.parkedOf t)[k]? = some o → r ∉ o.references) :
    (serve resolve r resolved state t).world.field? t.object k = state.world.field? t.object k ∧
      ((serve resolve r resolved state t).waitlist.parkedOf t)[k]? =
        (state.waitlist.parkedOf t)[k]? := by
  obtain ⟨same, left⟩ := Replay.positions_apart ⟨t.object, r, resolved, resolve⟩ state.world
    (state.waitlist.parkedOf t).toList fun o mem =>
      free o (Std.ExtTreeMap.mem_toList_iff_getElem?_eq_some.mp mem)
  obtain ⟨world, waitlist⟩ := serve_of_isAlive resolve r resolved alive
  rw [world, waitlist, Waitlist.parkedOf_store, if_pos rfl, World.field?, object?_announce]
  refine ⟨same, Option.ext fun o => ⟨fun found => ?_, fun found => ?_⟩⟩
  · exact Std.ExtTreeMap.mem_toList_iff_getElem?_eq_some.mp
      ((left o).mp (mem_of_getElem?_ofList found))
  · -- Each field is listed once, so what is found for it is what is listed.
    have distinct : ((state.waitlist.parkedOf t).toList.map (·.1)).Pairwise
        fun a b => ¬compare a b = .eq :=
      List.pairwise_map.mpr Std.ExtTreeMap.distinct_keys_toList
    refine Std.ExtTreeMap.getElem?_ofList_of_mem Std.ReflCmp.compare_self ?_
      ((left o).mpr (Std.ExtTreeMap.mem_toList_iff_getElem?_eq_some.mpr found))
    exact List.pairwise_map.mp (distinct.sublist (Replay.keys_positions _ _ _ _))

/-- Serving a subscriber replays each field of its object on its own. -/
theorem isolate_serve (resolve : Resolver) (r : Reference) (resolved : Handle)
    (alive : state.world.isAlive t.object = true) {k : Offset} {o : Outstanding}
    (parked : (state.waitlist.parkedOf t)[k]? = some o) :
    ∃ w₁ : World, w₁.field? t.object k = state.world.field? t.object k ∧
      (serve resolve r resolved state t).world.field? t.object k =
        (Replay.position ⟨t.object, r, resolved, resolve⟩ w₁ [k] o).1.field? t.object k ∧
      ((serve resolve r resolved state t).waitlist.parkedOf t)[k]? =
        (Replay.position ⟨t.object, r, resolved, resolve⟩ w₁ [k] o).2.2 := by
  have apart : ((state.waitlist.parkedOf t).toList.map (·.1)).Pairwise
      fun a b => ¬compare a b = .eq :=
    List.pairwise_map.mpr Std.ExtTreeMap.distinct_keys_toList
  have distinct : ((state.waitlist.parkedOf t).toList.map (·.1)).Nodup :=
    apart.imp fun differ same => differ (by rw [same]; exact Std.ReflCmp.compare_self)
  obtain ⟨w₁, before, filled, left⟩ :=
    Replay.positions_isolate ⟨t.object, r, resolved, resolve⟩ state.world _ distinct
      (Std.ExtTreeMap.mem_toList_iff_getElem?_eq_some.mpr parked)
  obtain ⟨world, waitlist⟩ := serve_of_isAlive resolve r resolved alive
  refine ⟨w₁, before, ?_, Option.ext fun x => ?_⟩
  · rw [world, World.field?, object?_announce]
    exact filled
  rw [waitlist, Waitlist.parkedOf_store, if_pos rfl, ← left x]
  -- Each field is listed once among what is left, so what is found for it is what is listed.
  exact ⟨mem_of_getElem?_ofList, Std.ExtTreeMap.getElem?_ofList_of_mem Std.ReflCmp.compare_self
    (List.pairwise_map.mp (apart.sublist (Replay.keys_positions _ _ _ _)))⟩

/-- Serving another subscriber leaves an object alone. -/
theorem untouched_serve (other : s.object ≠ t.object) :
    Untouched t state.world state.waitlist (serve resolve r resolved state s).world
      (serve resolve r resolved state s).waitlist := by
  have rewritten := rewrites_serve resolve r resolved state s
  refine ⟨rewritten.isAlive _, ?_, fun t' same => parkedOf_serve_of_ne ?_⟩
  · rw [World.object?, World.object?, rewritten.isAlive, rewritten.others _ (Ne.symm other)]
  · rintro rfl
    exact other same

/-- Serving a subscriber changes the fields of its object only where they wait for what is served,
and serving another one does not change them. -/
theorem leaves_serve (alone : s.object = t.object → s = t) :
    Leaves r.entity t state.world state.waitlist (serve resolve r resolved state s).world
      (serve resolve r resolved state s).waitlist := by
  have rewritten := rewrites_serve resolve r resolved state s
  by_cases own : s = t
  · subst s
    have unawaited : ∀ k, ¬(state.waitlist.parkedOf t).Awaits k r.entity →
        ∀ o, (state.waitlist.parkedOf t)[k]? = some o → r ∉ o.references :=
      fun k free o parked waits => free ⟨o, parked, r, waits, rfl⟩
    refine ⟨rewritten.isAlive _, fun k free => ?_,
      fun alive k free => (field_serve resolve resolved alive (unawaited k free)).2,
      fun t' _ other idle => by rw [parkedOf_serve_of_ne (Ne.symm other), idle]⟩
    cases alive : state.world.isAlive t.object with
    | false =>
      rw [Leaves.field?_of_dead alive, Leaves.field?_of_dead ((rewritten.isAlive _).trans alive)]
    | true => exact (field_serve resolve resolved alive (unawaited k free)).1
  · exact (untouched_serve fun same => own (alone same)).leaves

/-- Serving others leaves an object alone. -/
theorem untouched_serves {served : List Subscriber} (state : Resolution)
    (others : ∀ s ∈ served, s.object ≠ t.object) :
    Untouched t state.world state.waitlist (served.foldl (serve resolve r resolved) state).world
      (served.foldl (serve resolve r resolved) state).waitlist := by
  induction served generalizing state with
  | nil => exact .refl ..
  | cons s rest ih =>
    exact (untouched_serve (others s List.mem_cons_self)).trans
      (ih _ fun s' mem => others s' (List.mem_cons_of_mem _ mem))

/-- Those who wait for a reference are served one by one, and among them a subscriber that stands
alone is the only one with its object. -/
theorem subscribersOf_split {l : Waitlist}
    (alone : ∀ s ∈ l.subscribersOf r, s.object = t.object → s = t)
    (listed : t ∈ l.subscribersOf r) :
    ∃ before after, l.subscribersOf r = before ++ t :: after ∧
      (∀ s ∈ before, s.object ≠ t.object) ∧ ∀ s ∈ after, s.object ≠ t.object := by
  have nodup : (l.subscribersOf r).Nodup :=
    Std.ExtTreeSet.distinct_toList.imp fun differ same => by simp [same] at differ
  obtain ⟨before, after, split⟩ := List.append_of_mem listed
  rw [split] at nodup alone
  have apart : ∀ s ∈ before ++ after, s.object ≠ t.object := by
    intro s mem same
    cases alone s (by simp only [List.mem_append, List.mem_cons] at mem ⊢; tauto) same
    exact (List.nodup_middle.mp nodup).notMem mem
  exact ⟨before, after, split, fun s mem => apart s (List.mem_append_left _ mem),
    fun s mem => apart s (List.mem_append_right _ mem)⟩

/-- A resolution serves a subscriber that waits for the reference once, and nothing before or after
that touches its object. -/
theorem exists_served (resolve : Resolver) (resolved : Handle) {w : World} {l : Waitlist}
    (alone : ∀ s ∈ l.subscribersOf r, s.object = t.object → s = t) :
    (t ∉ l.subscribersOf r ∧ Untouched t w l (Update.resolve w l resolve r resolved).world
        (Update.resolve w l resolve r resolved).waitlist) ∨
      t ∈ l.subscribersOf r ∧ ∃ state : Resolution, Untouched t w l state.world state.waitlist ∧
        Untouched t (serve resolve r resolved state t).world
          (serve resolve r resolved state t).waitlist
          (Update.resolve w l resolve r resolved).world
          (Update.resolve w l resolve r resolved).waitlist := by
  rw [Update.resolve]
  by_cases listed : t ∈ l.subscribersOf r
  · obtain ⟨before, after, split, first, last⟩ := subscribersOf_split alone listed
    rw [split, List.foldl_append, List.foldl_cons]
    exact .inr ⟨List.mem_append_right _ List.mem_cons_self, _, untouched_serves ⟨w, l, []⟩ first,
      untouched_serves _ last⟩
  · refine .inl ⟨listed, untouched_serves ⟨w, l, []⟩ fun s mem same => listed ?_⟩
    exact alone s mem same ▸ mem

/-- A resolution leaves a field alone that does not wait for the reference, and what is parked for
it. -/
theorem field_resolve (resolve : Resolver) (resolved : Handle) {w : World} {l : Waitlist}
    (alone : ∀ s ∈ l.subscribersOf r, s.object = t.object → s = t)
    (alive : w.isAlive t.object = true) {k : Offset}
    (free : ∀ o, (l.parkedOf t)[k]? = some o → r ∉ o.references) :
    (Update.resolve w l resolve r resolved).world.field? t.object k = w.field? t.object k ∧
      ((Update.resolve w l resolve r resolved).waitlist.parkedOf t)[k]? = (l.parkedOf t)[k]? := by
  rcases exists_served resolve resolved alone with ⟨-, kept⟩ | ⟨-, state, before, after⟩
  · exact ⟨kept.field k, by rw [kept.parked t rfl]⟩
  · rw [← before.parked t rfl] at free
    obtain ⟨same, left⟩ := field_serve resolve resolved (before.alive.trans alive) free
    rw [after.field, after.parked t rfl, same, left, before.field, before.parked t rfl]
    exact ⟨rfl, rfl⟩

/-- A resolution changes the fields of an object only where they wait for the entity. -/
theorem leaves_resolve {w : World} {l : Waitlist}
    (alone : ∀ s ∈ l.subscribersOf r, s.object = t.object → s = t) :
    Leaves r.entity t w l (Update.resolve w l resolve r resolved).world
      (Update.resolve w l resolve r resolved).waitlist := by
  rcases exists_served resolve resolved alone with ⟨-, untouched⟩ | ⟨-, state, before, after⟩
  · exact untouched.leaves
  · exact before.leaves.trans ((leaves_serve fun _ => rfl).trans after.leaves)

end Update

/-- The objects of a channel are announced under references of its entity. -/
theorem Channel.entity_of_mem_arrivals {c : Channel} {a : Arrival} (mem : a ∈ c.arrivals) :
    a.reference.entity = c.entity := by
  obtain ⟨x, listed, rfl⟩ := List.mem_map.mp mem
  exact entity_of_mem_members listed

/-- What stands at an offset of a channel is one of its objects. -/
theorem Channel.mem_handles_of_objectAt? {c : Channel} {offset : Offset} {h : Handle}
    (found : c.objectAt? offset = some h) : h ∈ c.handles := by
  unfold objectAt? at found
  split at found
  · cases found
    exact c.root_mem_handles
  · have listed := Std.ExtTreeMap.mem_toList_iff_getElem?_eq_some.mpr found
    exact List.mem_map.mpr
      ⟨(⟨c.entity, offset⟩, h), .tail _ (List.mem_map.mpr ⟨_, listed, rfl⟩), rfl⟩

namespace Session

variable {s s₁ : Session} {entity : EntityId} {t : Subscriber}

/-! ## Steps that leave the objects of others -/

/-- An object belongs to one member only. -/
theorem Owned.eq_of_member (h : s.Owned) {t' : Subscriber} (member : s.Member t)
    (member' : s.Member t') (same : t'.object = t.object) : t' = t := by
  obtain ⟨id, offset, found⟩ := member
  obtain ⟨id', offset', found'⟩ := member'
  have owner : t'.channel.entity = t.channel.entity := by
    by_contra differ
    obtain ⟨c, opened, found⟩ := Option.bind_eq_some_iff.mp found
    obtain ⟨c', opened', found'⟩ := Option.bind_eq_some_iff.mp found'
    exact h.disjoint opened' opened differ _ _ _ found' (same ▸ found)
  rw [owner] at id'
  obtain ⟨channel, object⟩ := t
  obtain ⟨channel', object'⟩ := t'
  cases same
  cases id.symm.trans id'
  rfl

/-- A subscriber stands **alone** if nobody else waits with its object. -/
def Alone (s : Session) (t : Subscriber) : Prop :=
  ∀ t' : Subscriber, t'.object = t.object → t' ≠ t → s.waitlist.parkedOf t' = ∅

/-- Every member does. -/
theorem alone_of_member (owned : s.Owned) (lists : s.ListsMembers) (member : s.Member t) :
    s.Alone t := by
  intro t' same other
  by_contra waits
  exact other (owned.eq_of_member member (lists.members t' waits) same)

/-- Whoever is found among those that wait for a reference with the object of a subscriber that
stands alone is that subscriber. -/
theorem Alone.eq_of_subscribed (h : s.Alone t) (coherent : s.waitlist.Coherent) {r : Reference} :
    ∀ t' ∈ s.waitlist.subscribersOf r, t'.object = t.object → t' = t :=
  Waitlist.StandsAlone.eq_of_subscribed h coherent

/-- A payload for the objects of a channel leaves the others. -/
theorem untouched_populate {channel : Channel}
    (apart : ∀ offset, channel.objectAt? offset ≠ some t.object) (data : ComponentData) :
    Untouched t s.world s.waitlist (populate channel s data).world
      (populate channel s data).waitlist := by
  unfold populate
  split
  · exact .refl ..
  · split
    · exact .refl ..
    · split
      · exact .refl ..
      · rename_i h found
        split
        · rename_i ok
          exact Update.untouched_apply ok fun same => apart _ (found.trans (congrArg some same))
        · exact .refl ..

theorem untouched_write
    (apart : ∀ c offset, s.channels.get? entity = some c → c.objectAt? offset ≠ some t.object)
    (data : ComponentData) : Untouched t s.world s.waitlist (s.write entity data).world
      (s.write entity data).waitlist := by
  unfold write
  split
  · exact .refl ..
  · rename_i b subscriber reached
    obtain ⟨c, h, -, opened, found, -, rfl⟩ := target_eq_ok.mp reached
    split
    · rename_i ok
      exact Update.untouched_apply ok fun same =>
        apart c _ opened (found.trans (congrArg some same))
    · exact .refl ..

/-- Calls leave every object. -/
theorem untouched_deliverCalls (calls : List Delivered) : Untouched t s.world s.waitlist
    (calls.foldl deliverCall s).world (calls.foldl deliverCall s).waitlist := by
  induction calls generalizing s with
  | nil => exact .refl ..
  | cons call rest ih =>
    obtain ⟨waitlist, objects⟩ := s.deliverCall_keeps call
    refine Untouched.trans ⟨(routine_deliverCall s call).isAlive _, ?_, fun t' _ => ?_⟩ ih
    · rw [objects]
    · rw [waitlist]

/-- A component for a built entity leaves the objects of others. -/
theorem untouched_applyToLive
    (apart : ∀ c offset, s.channels.get? entity = some c → c.objectAt? offset ≠ some t.object)
    (data : ComponentData) : Untouched t s.world s.waitlist
      (s.accept (s.applyToLive entity data.component data.payload)).world
      (s.accept (s.applyToLive entity data.component data.payload)).waitlist := by
  rw [accept_applyToLive]
  split
  · exact .refl ..
  · split
    · exact untouched_write apart data
    · exact untouched_write apart data
    · exact untouched_write apart data
    · split
      · exact .refl ..
      · exact untouched_deliverCalls _
    · exact .refl ..

/-- So does a command request. -/
theorem untouched_tryCommand (request : CommandRequest) : Untouched t s.world s.waitlist
    (s.accept (s.tryCommand entity request)).world
    (s.accept (s.tryCommand entity request)).waitlist := by
  unfold tryCommand
  cases s.target entity request.component with
  | error error => exact .refl ..
  | ok result =>
    obtain ⟨b, subscriber⟩ := result
    simp only [bind, Except.bind]
    cases s.world.readCommand s.resolver subscriber.object request.component request.command
      request.payload with
    | error error => exact .refl ..
    | ok incoming =>
      obtain ⟨waitlist, objects⟩ :=
        s.dispatch_keeps subscriber.object entity request.component incoming
      refine ⟨(routine_dispatch s _ _ _ incoming).isAlive _, ?_, fun _ _ => ?_⟩
      · exact congrArg _ (objects _)
      · exact congrArg (Waitlist.parkedOf · _) waitlist

/-- Changes of authority leave every object. -/
theorem untouched_authorities (changes : List AuthorityChange) : Untouched t s.world s.waitlist
    (changes.foldl changeAuthority s).world (changes.foldl changeAuthority s).waitlist := by
  induction changes generalizing s with
  | nil => exact .refl ..
  | cons change rest ih =>
    obtain ⟨-, waitlist, -, pool, objects⟩ := s.changeAuthority_keeps change
    refine Untouched.trans ⟨?_, ?_, fun t' _ => ?_⟩ ih
    · rw [World.isAlive, World.isAlive, pool]
    · rw [World.object?, World.object?, World.isAlive, World.isAlive, pool, objects]
    · rw [waitlist]

/-- So does the completion of an object. -/
theorem untouched_complete (s : Session) (channel : Channel) : Untouched t s.world s.waitlist
    (s.complete channel).world (s.complete channel).waitlist := by
  refine ⟨?_, fields_complete s channel t.object, fun _ _ => rfl⟩
  show (s.world.finalize channel.root).pool.isAlive t.object = _
  rw [(s.world.finalize_keeps channel.root).1, World.isAlive]

/-- The calls that become ready when a reference is resolved leave every object. -/
theorem untouched_resolveNow (s : Session) (a : Arrival) (t : Subscriber) : Untouched t
    (Update.resolve s.world s.waitlist s.resolver a.reference a.object).world
    (Update.resolve s.world s.waitlist s.resolver a.reference a.object).waitlist
    (s.resolveNow a).world (s.resolveNow a).waitlist := by
  obtain ⟨world, events, calls, same, -⟩ := s.resolveNow_eq a
  refine ⟨?_, by rw [object?_resolveNow], fun t' _ => by rw [same]⟩
  rw [(routine_resolveNow s a).isAlive, (Update.rewrites_resolve ..).isAlive]

/-- What goes on when an object becomes known leaves the others, but for what awaits the entity. -/
theorem leaves_resolveNow {a : Arrival} (coherent : s.waitlist.Coherent) (alone : s.Alone t) :
    Leaves a.reference.entity t s.world s.waitlist (s.resolveNow a).world
      (s.resolveNow a).waitlist := by
  have resolved : Leaves a.reference.entity t s.world s.waitlist
      (Update.resolve s.world s.waitlist s.resolver a.reference a.object).world
      (Update.resolve s.world s.waitlist s.resolver a.reference a.object).waitlist :=
    Update.leaves_resolve (alone.eq_of_subscribed coherent)
  exact resolved.trans (untouched_resolveNow s a t).leaves

/-- Alone it stays, as long as it is left. -/
theorem Alone.leaves (h : s.Alone t)
    (left : Leaves entity t s.world s.waitlist s₁.world s₁.waitlist) : s₁.Alone t :=
  fun t' same other => left.alone t' same other (h t' same other)

/-- The arrivals of all objects of an entity leave the others, but for what awaits the entity. -/
theorem leaves_replays {channel : Channel} (settled : s.Settled channel) (alone : s.Alone t)
    {arrivals : List Arrival} (mem : ∀ a ∈ arrivals, a ∈ channel.arrivals) :
    Leaves channel.entity t s.world s.waitlist (arrivals.foldl resolveNow s).world
      (arrivals.foldl resolveNow s).waitlist := by
  induction arrivals generalizing s with
  | nil => exact .refl ..
  | cons a rest ih =>
    have here := mem a List.mem_cons_self
    have first := leaves_resolveNow settled.coherent alone (a := a)
    rw [Channel.entity_of_mem_arrivals here] at first
    exact first.trans (ih (settled.replay here).1 (alone.leaves first)
      fun b later => mem b (List.mem_cons_of_mem _ later))

/-- The object of a member was issued. -/
theorem Issued.knows_of_member (h : s.Issued) (member : s.Member t) :
    s.world.pool.Knows t.object := by
  obtain ⟨-, offset, found⟩ := member
  obtain ⟨c, opened, found⟩ := Option.bind_eq_some_iff.mp found
  exact h.members opened found

/-- Objects that are born leave all that were issued. -/
theorem untouched_births {w w₁ : World} {born : List Handle} (births : w.Births w₁ born)
    (known : w.pool.Knows t.object) (l : Waitlist) : Untouched t w l w₁ l := by
  have alive : w₁.isAlive t.object = w.isAlive t.object :=
    Bool.eq_iff_iff.mpr ((births.alive _).trans (or_iff_right (births.not_mem known)))
  refine ⟨alive, ?_, fun _ _ => rfl⟩
  rw [World.object?, World.object?, alive, births.kept known]

/-- New objects are apart from all that were issued. -/
theorem Founds.untouched {id : ChannelId} {a : Assembly} (h : s.Founds s₁ entity id a)
    (known : s.world.pool.Knows t.object) :
    Untouched t s.world s.waitlist s₁.world s₁.waitlist ∧
      ∀ offset, (Channel.ofAssembly id a).objectAt? offset ≠ some t.object := by
  refine ⟨?_, fun offset here =>
    h.births.not_mem known (Channel.mem_of_objectAt?_ofAssembly here)⟩
  rw [h.waitlist]
  exact untouched_births h.births known s.waitlist

/-- **Building an entity** leaves the objects of all others, but for what awaits the entity. -/
theorem leaves_construct (h : s.Orderly) (owned : s.Owned) {draft : Draft}
    (unbuilt : s.channels.get? draft.entity = none)
    (few : s.world.pool.issued + (⟨s, .found draft⟩ : Moment).allocations ≤ 2 ^ 32)
    (member : s.Member t) : Leaves draft.entity t s.world s.waitlist
      (s.construct draft).world (s.construct draft).waitlist := by
  cases step : s.found draft with
  | mk built s₁ =>
    rw [construct_eq, step]
    cases built with
    | none =>
      obtain ⟨rfl, -⟩ := found_of_none unbuilt step
      exact .refl ..
    | some channel =>
      obtain ⟨populated, -⟩ := (Settled.found h step few).populates draft.components t.object
      obtain ⟨id, a, rfl, -, founds⟩ := founds_of_found h.issued.sound step few
      obtain ⟨founded, apart⟩ := founds.untouched (h.issued.knows_of_member member)
      have written : ∀ (components : List ComponentData) (u : Session),
          Untouched t u.world u.waitlist
            (components.foldl (populate (Channel.ofAssembly id a)) u).world
            (components.foldl (populate (Channel.ofAssembly id a)) u).waitlist := by
        intro components
        induction components with
        | nil => exact fun _ => .refl ..
        | cons data rest ih => exact fun u => (untouched_populate apart data).trans (ih _)
      have completed := founded.trans ((written draft.components s₁).trans
        (untouched_complete _ (Channel.ofAssembly id a)))
      have authorized : Leaves draft.entity t _ _ _ _ :=
        (completed.trans (untouched_authorities draft.changes)).leaves
      -- The arrivals are those of the entity, and they find the subscriber alone.
      have replayed := leaves_replays ((populated.complete _).authorized draft.changes)
        ((alone_of_member owned h.lists member).leaves authorized) fun _ mem => mem
      rw [show (Channel.ofAssembly id a).entity = draft.entity from founds.named] at replayed
      exact authorized.trans replayed

/-- Taking an entity down leaves the objects of all others. -/
theorem untouched_remove (h : s.Orderly) (owned : s.Owned) (housed : s.Housed)
    (few : s.world.pool.issued < 2 ^ 32) (member : s.Member t) (other : t.channel.entity ≠ entity) :
    Untouched t s.world s.waitlist (s.remove entity).world (s.remove entity).waitlist := by
  cases built : s.channels.get? entity with
  | none =>
    rcases s.remove_cases entity with ⟨-, same⟩ | ⟨-, same⟩ | ⟨c, opened, -⟩
    · rw [same]
      exact .refl ..
    · rw [same]
      exact .refl ..
    · cases built.symm.trans opened
  | some c =>
    have alone := alone_of_member owned h.lists member
    obtain ⟨-, offset, found⟩ := member
    obtain ⟨c', opened, found⟩ := Option.bind_eq_some_iff.mp found
    -- The object belongs to its own entity, so it is none of those that die.
    have same : (s.remove entity).world.object? t.object = s.world.object? t.object := by
      refine Option.ext fun o => (object?_remove h.tidy owned housed few built).trans
        (and_iff_left_of_imp fun stored => ?_)
      rw [housed.member opened _ (Channel.mem_handles_of_objectAt? found)
        (World.getElem?_of_object? stored)]
      exact fun own => other (Option.some.inj own)
    refine ⟨?_, congrArg _ same, fun t' alike => ?_⟩
    · have lives (w : World) (exact : w.Exact) :
          w.isAlive t.object = (w.object? t.object).isSome := by
        rw [exact.object?_eq, Bool.eq_iff_iff, ← exact t.object,
          Std.ExtTreeMap.mem_iff_isSome_getElem?]
      rw [lives _ (owned.remove few entity).exact, lives _ owned.exact, same]
    · rw [remove_of_built h.tidy built]
      refine (h.lists.exact.parkedOf_removeChannel c.id t').trans (ite_eq_right_iff.mpr ?_)
      intro gone
      refine (alone t' alike ?_).symm
      rintro rfl
      exact other ((congrArg ChannelId.entity gone).trans (h.tidy.channels entity c built))

/-! ## Operations -/

/-- What is done for an entity **stays on** it if the drafts and the channels of all others are the
same, and their objects are left. -/
structure StaysOn (entity : EntityId) (s s' : Session) : Prop where
  /-- The others have the same drafts. -/
  drafts : ∀ e, e ≠ entity → s'.drafts.get? e = s.drafts.get? e
  /-- They have the same channels, with the same authority. -/
  channels : ∀ e, e ≠ entity → s'.channels.get? e = s.channels.get? e
  /-- Their objects are left, but for what awaits the entity. -/
  objects : ∀ {e : EntityId} {c : Channel} {offset : Offset} {h : Handle}, e ≠ entity →
    s.channels.get? e = some c → c.objectAt? offset = some h →
      Leaves entity (c.subscriber h) s.world s.waitlist s'.world s'.waitlist

/-- The objects of channels are those of members. -/
theorem StaysOn.of_members (tidy : s.Tidy .all)
    (drafts : ∀ e, e ≠ entity → s₁.drafts.get? e = s.drafts.get? e)
    (channels : ∀ e, e ≠ entity → s₁.channels.get? e = s.channels.get? e)
    (objects : ∀ t, s.Member t → t.channel.entity ≠ entity →
      Leaves entity t s.world s.waitlist s₁.world s₁.waitlist) : StaysOn entity s s₁ := by
  refine ⟨drafts, channels, fun {e c offset h} other opened found => ?_⟩
  obtain rfl := tidy.channels e c opened
  exact objects _ (member_of_objectAt? opened found) other

/-- Drafts do not matter for the objects. -/
theorem StaysOn.drafted {drafts : Drafts}
    (others : ∀ e, e ≠ entity → drafts.get? e = s.drafts.get? e)
    (h : StaysOn entity { s with drafts } s₁) : StaysOn entity s s₁ :=
  ⟨fun e other => (h.drafts e other).trans (others e other), h.channels, h.objects⟩

theorem StaysOn.refl (entity : EntityId) (s : Session) : StaysOn entity s s :=
  ⟨fun _ _ => rfl, fun _ _ => rfl, fun _ _ _ => .refl ..⟩

/-- Changes of authority over an entity leave the other channels as they are. -/
theorem channels_authorities (tidy : s.Tidy .all) {changes : List AuthorityChange}
    (own : ∀ change ∈ changes, change.entity = entity) {e : EntityId} (other : e ≠ entity) :
    (changes.foldl changeAuthority s).channels.get? e = s.channels.get? e := by
  induction changes generalizing s with
  | nil => rfl
  | cons change rest ih =>
    rw [List.foldl_cons, ih (tidy.changeAuthority change) fun c later =>
      own c (List.mem_cons_of_mem _ later)]
    unfold changeAuthority
    split
    · rename_i channel opened
      have filed : (channel.setAuthority change.component change.authority).entity = entity :=
        (tidy.channels _ channel opened).trans (own change List.mem_cons_self)
      rw [Channels.get?_update, filed, if_neg (Ne.symm other)]
    · rfl

theorem staysOn_construct (h : s.Orderly) (owned : s.Owned) {draft : Draft}
    (unbuilt : s.channels.get? draft.entity = none)
    (undrafted : s.drafts.get? draft.entity = none)
    (few : s.world.pool.issued + (⟨s, .found draft⟩ : Moment).allocations ≤ 2 ^ 32) :
    StaysOn draft.entity s (s.construct draft) := by
  refine .of_members h.tidy (fun e other => ?_) (fun e other => ?_) fun t member _ =>
    leaves_construct h owned unbuilt few member
  · exact (spares_construct h.tidy unbuilt undrafted (Ne.symm other)).draft
  · cases step : s.found draft with
    | mk built s₁ =>
      cases built with
      | none =>
        obtain ⟨rfl, -⟩ := found_of_none unbuilt step
        rw [construct_eq, step]
      | some channel =>
        have tidy := h.tidy.found undrafted
        rw [step] at tidy
        rw [channels_construct step, channels_authorities tidy (fun change mem => ?_) other,
          (found_channels step).2.2, if_neg (Ne.symm other)]
        obtain ⟨x, -, rfl⟩ := List.mem_map.mp mem
        rfl

/-- **Taking a draft further** stays on its entity. -/
theorem staysOn_advance (h : s.Orderly) (owned : s.Owned)
    (few : s.world.pool.issued + allocations (s.idle.trail (s.advanceMoves entity)) ≤ 2 ^ 32) :
    StaysOn entity s (s.advance entity) := by
  rcases s.advance_cases entity with ⟨draft, builds⟩ | ⟨drafts, same, others⟩
  · obtain ⟨rfl, unbuilt⟩ := builds.filed h.tidy
    have counted := allocations_le_of_mem (builds.mem_trail [])
    rw [builds.advance]
    refine .drafted (fun e other => ?_) (staysOn_construct
      (h.draft (h.tidy.drafts.without draft.entity)) (owned.congr rfl rfl) unbuilt
      ((Drafts.get?_without _ _ _).trans (if_pos rfl))
      (Nat.le_trans (Nat.add_le_add_left counted _) few))
    rw [Drafts.get?_without, if_neg (Ne.symm other)]
  · rw [same]
    exact .drafted others (.refl _ _)

/-- A component for a built entity stays on it. -/
theorem staysOn_applyToLive (tidy : s.Tidy .all) (owned : s.Owned) (data : ComponentData) :
    StaysOn entity s (s.accept (s.applyToLive entity data.component data.payload)) := by
  have routine := routine_applyToLive s entity data
  refine .of_members tidy (fun e _ => by rw [routine.drafts]) (fun e _ => by rw [routine.channels])
    fun t member other => (untouched_applyToLive (fun c offset opened found => ?_) data).leaves
  -- The object would belong to two channels.
  obtain ⟨-, offset', found'⟩ := member
  obtain ⟨c', opened', found'⟩ := Option.bind_eq_some_iff.mp found'
  exact owned.disjoint opened' opened other _ _ _ found' found

/-- An update stays on its entity. -/
theorem staysOn_update (tidy : s.Tidy .all) (owned : s.Owned) (update : ComponentData) :
    StaysOn entity s (s.update entity update) := by
  unfold Session.update tryUpdate
  split
  · cases s.binding update.component with
    | error error => exact .refl entity s
    | ok b =>
      simp only [bind, Except.bind]
      split
      · refine .drafted (fun e other => ?_) (.refl _ _)
        rw [Drafts.get?_addComponent, if_neg (Ne.symm other)]
      · exact .refl entity s
  · exact staysOn_applyToLive tidy owned update

/-- Taking an entity down stays on it. -/
theorem staysOn_remove (h : s.Orderly) (owned : s.Owned) (housed : s.Housed)
    (few : s.world.pool.issued < 2 ^ 32) (entity : EntityId) :
    StaysOn entity s (s.remove entity) := by
  refine .of_members h.tidy (fun e other => (spares_remove (.inl (Ne.symm other))).draft)
    (fun e other => ?_) fun t member other =>
      (untouched_remove h owned housed few member other).leaves
  cases built : s.channels.get? entity with
  | none =>
    rcases s.remove_cases entity with ⟨-, same⟩ | ⟨-, same⟩ | ⟨c, opened, -⟩
    · rw [same]
    · rw [same]
    · cases built.symm.trans opened
  | some c => exact (keepsOthers_remove h owned housed few built).channels e other

/-- Authority over an entity stays on it. -/
theorem staysOn_changeAuthority (tidy : s.Tidy .all) (change : AuthorityChange) :
    StaysOn change.entity s (s.changeAuthority change) :=
  .of_members tidy (fun _ other => (spares_changeAuthority tidy (.inl (Ne.symm other))).draft)
    (fun _ other => channels_authorities tidy
      (fun _ mem => congrArg _ (List.mem_singleton.mp (mem : _ ∈ [change]))) other)
    fun _ _ _ => (untouched_authorities [change]).leaves

/-- Where no section is open, adding an entity begins its draft and takes it further. -/
theorem staysOn_addEntity (h : s.Orderly) (owned : s.Owned) (shut : s.held.isOpen = false)
    (few : s.world.pool.issued +
      allocations (s.idle.trail (s.processMoves (.addEntity entity))) ≤ 2 ^ 32) :
    StaysOn entity s (s.addEntity entity) := by
  rw [addEntity, if_neg (by rw [shut]; decide)]
  rw [processMoves, heldMoves, if_neg (by rw [shut]; decide)] at few
  by_cases built : s.channels.contains entity = true
  · have same : s.drain { added := [entity] } = s := by simp [drain, begin, built]
    rw [same]
    exact .refl entity s
  · have unbuilt : s.channels.get? entity = none := by simpa [Channels.contains_eq] using built
    have begun : [entity].foldl begin (s, []) =
        ({ s with drafts := s.drafts.begin entity }, [entity]) := by
      simp [begin, built, touch]
    have advanced : s.drain { added := [entity] } =
        ({ s with drafts := s.drafts.begin entity } : Session).advance entity := by
      simp [drain, begin, built, touch]
    have room := allocations_advances_le h.tidy { added := [entity] } begun
    simp only [movesAlong, List.append_nil] at room
    rw [advanced]
    refine .drafted (fun e other => ?_) (staysOn_advance (h.draft (h.tidy.drafts.begin unbuilt))
      (owned.congr rfl rfl) (Nat.le_trans (Nat.add_le_add_left room _) few))
    rw [Drafts.get?_begin, if_neg (Ne.symm other)]

/-- A component is collected by the draft of its entity, which is taken further, or applied. -/
theorem staysOn_addComponent (h : s.Orderly) (owned : s.Owned) (shut : s.held.isOpen = false)
    (data : ComponentData) (few : s.world.pool.issued +
      allocations (s.idle.trail (s.processMoves (.addComponent entity data))) ≤ 2 ^ 32) :
    StaysOn entity s (s.addComponent ⟨entity, data⟩) := by
  by_cases drafted : s.drafts.contains entity = true
  · let t : Session := { s with drafts := s.drafts.addComponent entity data }
    have advanced : s.addComponent ⟨entity, data⟩ = t.advance entity := by
      simp [addComponent, shut, route, drafted, touch, t]
    have moved : s.processMoves (.addComponent entity data) =
        .draft t.drafts :: t.advanceMoves entity := by
      simp [processMoves, heldMoves, shut, route, routeMoves, drafted, touch, movesAlong, t]
    have counted : allocations (s.idle.trail (s.processMoves (.addComponent entity data))) =
        0 + allocations (t.idle.trail (t.advanceMoves entity)) := by
      rw [moved]
      exact allocations_append [⟨s, .draft t.drafts⟩] _
    rw [counted, Nat.zero_add] at few
    rw [advanced]
    refine .drafted (fun e other => ?_) (staysOn_advance (s := t)
      (h.draft (h.tidy.drafts.addComponent _ trivial)) (owned.congr rfl rfl) few)
    rw [Drafts.get?_addComponent, if_neg (Ne.symm other)]
  · have applied : s.addComponent ⟨entity, data⟩ =
        s.accept (s.applyToLive entity data.component data.payload) := by
      simp [addComponent, shut, route, drafted]
    rw [applied]
    exact staysOn_applyToLive h.tidy owned data

/-- A command request stays on its entity. -/
theorem staysOn_command (tidy : s.Tidy .all) (request : RequestId) (command : CommandRequest) :
    StaysOn entity s (s.command request entity command) :=
  .of_members tidy
    (fun e _ => congrArg (Drafts.get? · e) (routine_tryCommand s entity command).drafts)
    (fun e _ => congrArg (Channels.get? · e) (routine_tryCommand s entity command).channels)
    fun _ _ _ => (untouched_tryCommand command).leaves

/-- **An operation stays on the entity that it is addressed to.** After every run that issues fewer
handles than there are generations, and with no section open, an operation for one entity leaves the
drafts, the channels and the objects of all others as they are. Of their fields it changes only
those that have waited for an object of the entity, and so it does with what they wait for. -/
theorem operation_stays_on_entity {settings : Settings} {protocol : Protocol} {past : List Act}
    (reached : (start settings protocol).run past = .ok s) (shut : s.held.isOpen = false)
    {operation : Operation} (addressed : operation.entity? = some entity)
    (few : allocations ((start settings protocol).course (past ++ [.receive operation])) < 2 ^ 32) :
    ∃ s', s.act (.receive operation) = .ok s' ∧ StaysOn entity s s' := by
  rw [course_append reached, allocations_append] at few
  have before := Nat.lt_of_le_of_lt (Nat.le_add_right _ _) few
  have h := orderly_of_run reached before
  obtain ⟨owned, housed⟩ := housed_of_run reached before
  rw [← (issued_of_run reached before).2] at few before
  -- The course of a single act is the trail of its moves.
  have counted {s' : Session} (ok : s.act (.receive operation) = .ok s') :
      s.course [.receive operation] = s.idle.trail (s.processMoves operation) := by
    simp only [course, ok, moves, List.append_nil]
  cases operation with
  | addEntity e =>
    cases addressed
    rw [counted rfl] at few
    exact ⟨_, rfl, staysOn_addEntity h owned shut (Nat.le_of_lt few)⟩
  | removeEntity e =>
    cases addressed
    refine ⟨s.removeEntity entity, rfl, ?_⟩
    rw [removeEntity, if_neg (by rw [shut]; decide)]
    exact staysOn_remove h owned housed before entity
  | addComponent e data =>
    cases addressed
    rw [counted rfl] at few
    exact ⟨_, rfl, staysOn_addComponent h owned shut data (Nat.le_of_lt few)⟩
  | authorityChange e component authority =>
    cases addressed
    refine ⟨s.authorityChange ⟨entity, component, authority⟩, rfl, ?_⟩
    rw [authorityChange, if_neg (by rw [shut]; decide)]
    exact staysOn_changeAuthority h.tidy ⟨entity, component, authority⟩
  | componentUpdate e update =>
    cases addressed
    exact ⟨_, rfl, staysOn_update h.tidy owned update⟩
  | commandRequest request e command =>
    cases addressed
    exact ⟨_, rfl, staysOn_command h.tidy request command⟩
  | criticalSection _ | commandResponse _ _ | reserveResponse _ _ | createResponse _ _
  | queryResponse _ _ => cases addressed

/-- A crate has fields that wait: for an entity that is added then, for another one, and for
both. -/
def waitingCrate : List Act :=
  ((Blueprint.ofClass 2 "Crate").withFields Stock.rootDataComponent
    [.at 5 (.ref (.root 1)), .at 6 (.ref (.root 9)),
      .at 7 (.array [.ref (.root 9), .ref (.root 1)])]).operations.map .receive ++
    [.receive (.addEntity 1)]

/-- The spawn data of another crate. -/
def spawnCrate : Operation :=
  .addComponent 1 ⟨Stock.spawnComponent, Wire.spawn { className := "Crate" }⟩

theorem operation_stays_on_entity_waitingCrate :
    ∃ s s', (start {} Stock.protocol).run waitingCrate = .ok s ∧
      s.act (.receive spawnCrate) = .ok s' ∧ StaysOn 1 s s' ∧
      s'.world.field? ⟨0, 0⟩ 5 = some (.object (some ⟨1, 0⟩)) ∧
      s'.world.field? ⟨0, 0⟩ 6 = s.world.field? ⟨0, 0⟩ 6 ∧
      s'.world.field? ⟨0, 0⟩ 7 = some (.array [.object none, .object (some ⟨1, 0⟩)]) := by
  obtain ⟨s, s', reached, ran, test⟩ := exists_runs (start {} Stock.protocol) waitingCrate
    [.receive spawnCrate] (fun s s' => !s.held.isOpen &&
      (s.channels.get? 2).any (fun c => c.root == ⟨0, 0⟩ &&
        ((s.waitlist.parkedOf (c.subscriber c.root))[(6 : Offset)]?).any fun o =>
          o.references == [.root 9]) &&
      s'.world.field? ⟨0, 0⟩ 5 == some (.object (some ⟨1, 0⟩)) &&
      s'.world.field? ⟨0, 0⟩ 7 == some (.array [.object none, .object (some ⟨1, 0⟩)]))
    (by decide +kernel)
  simp only [Bool.and_eq_true, Bool.not_eq_true', Option.any_eq_true, beq_iff_eq] at test
  obtain ⟨⟨⟨shut, c, opened, root, o, parked, waits⟩, filled⟩, half⟩ := test
  obtain ⟨s₁, acted, stays⟩ := operation_stays_on_entity reached shut
    (rfl : spawnCrate.entity? = some 1) (by decide +kernel)
  obtain ⟨s₂, acted', rest⟩ := run_cons.mp ran
  cases acted.symm.trans acted'
  cases rest
  have left := (stays.objects (e := 2) (by decide) opened c.objectAt?_root).field 6
  refine ⟨s, _, reached, acted, stays, filled, root ▸ left ?_, half⟩
  rintro ⟨o', parked', r, mem, own⟩
  cases parked.symm.trans parked'
  rw [waits, List.mem_singleton] at mem
  subst mem
  exact absurd own (by decide)

end Session

end Replica
