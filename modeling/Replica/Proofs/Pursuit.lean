import Replica.Blueprint
import Replica.Proofs.Course.Strides
import Replica.Proofs.Neighbours

/-! # A reference is found once

A field that was assigned a reference leads to an object from the moment on at which the reference
is found: at once, or when an object arrives under it. From then on it keeps the handle, whatever
becomes of the object. So when an entity is taken down and built again, the fields that have waited
all along lead to its new objects, and those that had found the old ones go on naming these.

Main definitions:
* `Move.brings?` — the object that arrives under a reference.
* `Move.builds?` — the entity that a move builds.
* `Moment.finds?` — the object under which a reference is found from a moment on.
* `Move.Apt.member_cases` — what a move does with the object of a member.
* `Session.Pursues` — a field waits for a reference, or names what was found.
* `Session.reference_found_once` — which object a field names, after every run. -/

namespace Replica

/-- The object that **arrives** under a reference in a move. -/
def Move.brings? (m : Move) (r : Reference) : Option Handle :=
  match m with
  | .replay arrival => if arrival.reference = r then some arrival.object else none
  | _ => none

/-- A payload that cannot be applied to a live object assigns nothing; any other says of each field
what it holds and what it waits for. -/
theorem Update.fields_apply {w : World} {t : Subscriber} (alive : w.isAlive t.object = true)
    (exact : w.Exact) (l : Waitlist) (resolve : Resolver) (role : Role) (component : ComponentId)
    (payload : Bytes) :
    (∃ error, apply w l resolve t role component payload = .error error ∧
        assignments role payload = []) ∨
      ∃ w' l', apply w l resolve t role component payload = .ok (w', l') ∧ ∀ k : Offset,
        w'.field? t.object k =
            ((lastTo (assignments role payload) k).map (·.value.localize resolve)).or
              (w.field? t.object k) ∧
          (l'.parkedOf t)[k]? =
            (((assignments role payload).filter (·.offset == k)).reverse.findSome? fun a =>
              a.value.outstanding resolve a.rep).or
                (if k ∈ (assignments role payload).map (·.offset) then none
                  else (l.parkedOf t)[k]?) := by
  obtain ⟨object, found⟩ : ∃ object, w.object? t.object = some object := by
    rw [exact.object?_eq, ← Option.isSome_iff_exists, ← Std.ExtTreeMap.mem_iff_isSome_getElem?]
    exact (exact _).mpr alive
  exact fields_apply_of_object? found l resolve role component payload

/-! ## Replays -/

/-- A reference that is written over a field stands there. -/
theorem World.writeReference_field {w : World} {h : Handle} {k : Offset} {old : Localized}
    (shown : w.field? h k = some old) (target : Handle) :
    ∃ w', w.writeReference h [k] target = .ok w' ∧
      w'.field? h k = some (.object (some target)) := by
  obtain ⟨object, found, field⟩ := Option.bind_eq_some_iff.mp shown
  have alive := isAlive_of_object? found
  have itself : w.putObject h (object.putField k old) = w := by
    rw [Object.putField_of_getElem? field, putObject,
      insert_of_getElem? (getElem?_of_object? found)]
  have written := (fits_field alive object k).write old (.object (some target))
  rw [itself] at written
  refine ⟨_, written, ?_⟩
  rw [field?, object?_putObject alive, if_pos rfl]
  simp [Object.putField]

namespace Update

variable {resolve : Resolver} {r : Reference} {resolved : Handle} {state : Resolution}
  {t s : Subscriber} {k : Offset}

/-- Serving a subscriber fills the field that waits. -/
theorem fill_serve {rep : RepIndex} {old : Localized}
    (parked : (state.waitlist.parkedOf t)[k]? = some (.single rep r))
    (shown : state.world.field? t.object k = some old) :
    (serve resolve r resolved state t).world.field? t.object k = some (.object (some resolved)) ∧
      ((serve resolve r resolved state t).waitlist.parkedOf t)[k]? = none := by
  obtain ⟨object, found, -⟩ := Option.bind_eq_some_iff.mp shown
  obtain ⟨w₁, before, filled, left⟩ :=
    isolate_serve resolve r resolved (World.isAlive_of_object? found) parked
  obtain ⟨w', written, holds⟩ := World.writeReference_field (before.trans shown) resolved
  rw [filled, left, Replay.position, if_pos rfl, written]
  exact ⟨holds, rfl⟩

end Update

/-! ## Channels -/

open Session in
/-- **What a move does with the channel of an entity**: it is left its name and its objects, it
opens, or it closes. -/
theorem Move.Apt.channel_cases {w : Work} {m : Move} (apt : m.Apt .all w)
    (tidy : w.session.Tidy .all) (entity : EntityId) :
    (∃ f : Channel → Channel, (∀ c, (f c).id = c.id ∧ (f c).objectAt? = c.objectAt?) ∧
        (w.perform m).session.channels.get? entity = (w.session.channels.get? entity).map f) ∨
      (∃ draft channel, m = .found draft ∧ draft.entity = entity ∧
        w.session.channels.get? entity = none ∧ (w.session.found draft).1 = some channel ∧
        (w.perform m).session.channels.get? entity = some channel) ∨
      m = .remove entity ∧ (w.perform m).session.channels.get? entity = none := by
  have same {s' : Session} (channels : s'.channels.get? entity = w.session.channels.get? entity) :
      ∃ f : Channel → Channel, (∀ c, (f c).id = c.id ∧ (f c).objectAt? = c.objectAt?) ∧
        s'.channels.get? entity = (w.session.channels.get? entity).map f :=
    ⟨id, fun _ => ⟨rfl, rfl⟩, by rw [channels, Option.map_id]; rfl⟩
  -- A channel opens where the object of its entity is founded, and closes where its entity is
  -- removed.
  cases m with
  | mark opens =>
    obtain ⟨held, marked⟩ := w.exists_perform_mark opens
    exact .inl (same (by rw [marked]))
  | learn arrival =>
    obtain ⟨held, learnt⟩ := w.exists_perform_learn arrival
    exact .inl (same (by rw [learnt]))
  | hold _ | draft _ | settle _ _ _ | alter _ | complete _ => exact .inl (same rfl)
  | found draft =>
    rcases apt.found_cases with ⟨channel, step⟩ | ⟨idle, -⟩
    · obtain ⟨-, unbuilt, get⟩ := found_channels step
      by_cases own : draft.entity = entity
      · subst own
        exact .inr (.inl ⟨draft, channel, rfl, rfl, unbuilt, by rw [step],
          (get _).trans (if_pos rfl)⟩)
      · exact .inl (same ((get entity).trans (if_neg own)))
    · exact .inl (same (by rw [idle]))
  | populate channel data =>
    exact .inl (same (by rw [Work.perform, (writes_populate channel _ data).routine.channels]))
  | authorize change => exact .inl (get?_changeAuthority tidy change entity)
  | write e data =>
    exact .inl (same (by rw [Work.perform, (writes_write _ e data).routine.channels]))
  | deliver call => exact .inl (same (by rw [Work.perform, (routine_deliverCall _ call).channels]))
  | replay arrival =>
    exact .inl (same (by rw [Work.perform, (routine_resolveNow _ arrival).channels]))
  | remove e =>
    rw [Work.perform]
    rcases w.session.remove_cases e with ⟨-, gone⟩ | ⟨-, gone⟩ | ⟨channel, -, gone⟩
    · rw [gone]
      exact .inl (same rfl)
    · rw [gone]
      exact .inl (same rfl)
    · rw [gone]
      by_cases own : e = entity
      · subst own
        exact .inr (.inr ⟨rfl, by rw [Channels.get?_close, if_pos rfl]⟩)
      · exact .inl (same (by rw [Channels.get?_close, if_neg own]))

namespace Session

variable {s s' : Session} {t : Subscriber} {k : Offset} {rep : RepIndex} {r : Reference}
  {found : Option Handle}

/-! ## Pursuing a reference -/

/-- A field of a member **pursues** a reference if it names what was found and waits for nothing, or
names nothing and waits for the reference. -/
structure Pursues (s : Session) (t : Subscriber) (k : Offset) (rep : RepIndex) (r : Reference)
    (found : Option Handle) : Prop where
  /-- The object is that of a member. -/
  member : s.Member t
  /-- The field names what was found. -/
  field : s.world.field? t.object k = some (.object found)
  /-- It waits for the reference if nothing was found. -/
  parked : (s.waitlist.parkedOf t)[k]? = if found.isNone then some (.single rep r) else none

namespace Pursues

theorem isAlive (h : s.Pursues t k rep r found) : s.world.isAlive t.object = true := by
  obtain ⟨object, found, -⟩ := Option.bind_eq_some_iff.mp h.field
  exact World.isAlive_of_object? found

/-- A field goes on pursuing where its object is untouched. -/
theorem untouched (h : s.Pursues t k rep r found)
    (kept : Untouched t s.world s.waitlist s'.world s'.waitlist) (member : s'.Member t) :
    s'.Pursues t k rep r found where
  member
  field := (kept.field k).trans h.field
  parked := by rw [kept.parked t rfl]; exact h.parked

/-- A payload that does not assign the field lets it go on. -/
theorem apply (h : s.Pursues t k rep r found) (exact : s.world.Exact) {role : Role}
    {component : ComponentId} {payload : Bytes} {world : World} {waitlist : Waitlist}
    (ok : Update.apply s.world s.waitlist s.resolver t role component payload =
      .ok (world, waitlist))
    (unassigned : ∀ b ∈ Update.assignments role payload, b.offset ≠ k) :
    Pursues { s with world, waitlist } t k rep r found := by
  rcases Update.fields_apply h.isAlive exact s.waitlist s.resolver role component payload with
    ⟨error, refused, -⟩ | ⟨world', waitlist', applied, fields⟩
  · cases refused.symm.trans ok
  · cases applied.symm.trans ok
    have none : (Update.assignments role payload).filter (·.offset == k) = [] :=
      List.filter_eq_nil_iff.mpr fun b mem => by simpa using unassigned b mem
    have unlisted : k ∉ (Update.assignments role payload).map (·.offset) := by
      rintro mem
      obtain ⟨b, listed, same⟩ := List.mem_map.mp mem
      exact unassigned b listed same
    obtain ⟨field, parked⟩ := fields k
    rw [lastTo, none] at field
    rw [none, if_neg unlisted] at parked
    exact ⟨ListsMembers.member_of_channels rfl h.member, field.trans h.field,
      parked.trans h.parked⟩

/-- **An arrival** is what the field names from then on, if it waits for it. -/
theorem resolveNow (h : s.Pursues t k rep r found) (coherent : s.waitlist.Coherent)
    (alone : s.Alone t) (a : Arrival) :
    (s.resolveNow a).Pursues t k rep r
      (found.or (if a.reference = r then some a.object else none)) := by
  have member : (s.resolveNow a).Member t :=
    ListsMembers.member_of_channels (routine_resolveNow s a).channels h.member
  have after := untouched_resolveNow s a t
  rcases Update.exists_served s.resolver a.object (w := s.world)
      (alone.eq_of_subscribed coherent (r := a.reference)) with
    ⟨out, kept⟩ | ⟨-, state, before, later⟩
  · -- Who is not served does not wait for the reference.
    have same : found.or (if a.reference = r then some a.object else none) = found := by
      cases found with
      | some x => rfl
      | none =>
        refine if_neg ?_
        rintro rfl
        refine out ?_
        rw [coherent.mem_subscribersOf]
        exact Parked.mem_references.mpr ⟨k, _, h.parked, by simp [Outstanding.references]⟩
    rw [same]
    exact h.untouched (kept.trans after) member
  · have shown := (before.field k).trans h.field
    have waits := (congrArg (·[k]?) (before.parked t rfl)).trans h.parked
    have kept := later.trans after
    by_cases fills : found = none ∧ a.reference = r
    · obtain ⟨rfl, rfl⟩ := fills
      rw [if_pos rfl]
      obtain ⟨filled, none⟩ := Update.fill_serve waits shown
      exact ⟨member, (kept.field k).trans filled, by rw [kept.parked t rfl]; exact none⟩
    · have same : found.or (if a.reference = r then some a.object else none) = found := by
        cases found with
        | some x => rfl
        | none => exact if_neg fun same => fills ⟨rfl, same⟩
      have alive : state.world.isAlive t.object = true := before.alive.trans h.isAlive
      -- The field waits for another reference, or for none.
      have free : ∀ o, (state.waitlist.parkedOf t)[k]? = some o → a.reference ∉ o.references := by
        intro o here awaits
        rw [waits] at here
        split at here
        · rename_i none
          cases here
          exact fills ⟨Option.isNone_iff_eq_none.mp none, List.mem_singleton.mp awaits⟩
        · cases here
      obtain ⟨field, parked⟩ := Update.field_serve s.resolver a.object alive free
      rw [same]
      refine ⟨member, (kept.field k).trans (field.trans shown), ?_⟩
      rw [kept.parked t rfl]
      exact parked.trans waits

/-- **A payload whose last assignment to a field is a reference** makes the field pursue it, unless
the reference is known and an earlier assignment to the field is left waiting. -/
theorem of_apply (owned : s.Owned) (member : s.Member t)
    (alive : s.world.isAlive t.object = true) {role : Role} {payload : Bytes} {a : Assignment}
    (assigned : lastTo (Update.assignments role payload) k = some a) (names : a.value = .ref r)
    (once : s.resolver r = none ∨
      (Update.assignments role payload).filter (·.offset == k) = [a]) (component : ComponentId) :
    ∃ world waitlist, Update.apply s.world s.waitlist s.resolver t role component payload =
      .ok (world, waitlist) ∧ Pursues { s with world, waitlist } t k a.rep r (s.resolver r) := by
  rcases Update.fields_apply alive owned.exact s.waitlist s.resolver role component payload with
    ⟨-, -, idle⟩ | ⟨world, waitlist, applied, fields⟩
  · rw [idle] at assigned
    cases assigned
  · obtain ⟨field, parked⟩ := fields k
    refine ⟨world, waitlist, applied, ListsMembers.member_of_channels rfl member, ?_, ?_⟩
    · rw [field, assigned, Option.map_some, names]
      rfl
    · obtain ⟨before, split⟩ := List.getLast?_eq_some_iff.mp assigned
      have listed : k ∈ (Update.assignments role payload).map (·.offset) := by
        obtain ⟨mem, same⟩ := mem_of_lastTo assigned
        exact List.mem_map.mpr ⟨a, mem, same⟩
      rw [parked, if_pos listed, Option.or_none]
      have waits : a.value.outstanding s.resolver a.rep =
          if (s.resolver r).isNone then some (.single a.rep r) else none := by
        rw [names, Value.outstanding]
      -- The last assignment leaves the reference waiting, or it is the only one.
      rcases once with missing | once
      · rw [missing] at waits ⊢
        simp [split, waits]
      · simp [once, waits]

end Pursues

/-- The object of a member dies when its entity is taken down. -/
theorem Member.dies (member : s.Member t) (order : s.Orderly) (owned : s.Owned)
    (housed : s.Housed) (few : s.world.pool.issued < 2 ^ 32) :
    (s.remove t.channel.entity).world.isAlive t.object = false := by
  obtain ⟨-, offset, found⟩ := member
  obtain ⟨c, opened, found⟩ := Option.bind_eq_some_iff.mp found
  exact isAlive_remove order.tidy owned housed few opened (Channel.mem_handles_of_objectAt? found)

/-- Where the channel of an entity keeps its name and its objects, the members are the same. -/
theorem member_iff_of_map {f : Channel → Channel}
    (same : ∀ c, (f c).id = c.id ∧ (f c).objectAt? = c.objectAt?)
    (get : s'.channels.get? t.channel.entity = (s.channels.get? t.channel.entity).map f) :
    s'.Member t ↔ s.Member t := by
  have id : s'.channelId? t.channel.entity = s.channelId? t.channel.entity := by
    rw [channelId?, channelId?, get, Option.map_map]
    exact congrArg (Option.map · _) (funext fun c => (same c).1)
  have objects (offset : Offset) : s'.memberAt? ⟨t.channel.entity, offset⟩ =
      s.memberAt? ⟨t.channel.entity, offset⟩ := by
    rw [memberAt?, memberAt?, get, Option.bind_map]
    exact congrArg (Option.bind _) (funext fun c => congrFun (same c).2 offset)
  simp only [Member, id, objects]

end Session

open Session in
/-- A member stays one as long as its object lives: the channel of its entity stays open, or its
objects die with it. -/
theorem Move.Apt.member_stays {w : Work} {m : Move} (apt : m.Apt .all w)
    (order : w.session.Orderly) (owned : w.session.Owned) (housed : w.session.Housed)
    (few : w.session.world.pool.issued < 2 ^ 32) {t : Subscriber} (member : w.session.Member t)
    (alive : (w.perform m).session.world.isAlive t.object = true) :
    (w.perform m).session.Member t := by
  rcases apt.channel_cases order.tidy t.channel.entity with
    ⟨f, same, get⟩ | ⟨-, -, -, -, unbuilt, -⟩ | ⟨rfl, -⟩
  · exact (member_iff_of_map same get).mpr member
  · exact absurd unbuilt member.opened
  · cases alive.symm.trans (member.dies order owned housed few)

section Members

variable {w : Work} {t : Subscriber}

open Session in
/-- The payload of a new entity is applied to the object of a member, or leaves it alone. -/
theorem Session.Owned.populate_cases (owned : w.session.Owned) (member : w.session.Member t)
    (lives : w.session.world.isAlive t.object = true) {channel : Channel}
    (opened : w.session.channels.get? channel.entity = some channel) (data : ComponentData) :
    Untouched t w.session.world w.session.waitlist (w.perform (.populate channel data)).session.world
        (w.perform (.populate channel data)).session.waitlist ∨
      ∃ role component payload world waitlist,
        Update.apply w.session.world w.session.waitlist w.session.resolver t role component
          payload = .ok (world, waitlist) ∧
        (w.perform (.populate channel data)).session = { w.session with world, waitlist } ∧
        (⟨w.session, .populate channel data⟩ : Moment).appliedTo t.object =
          Update.assignments role payload := by
  simp only [Work.perform, Session.populate]
  split
  · exact .inl (.refl ..)
  · rename_i b bound
    split
    · exact .inl (.refl ..)
    · rename_i carries
      split
      · exact .inl (.refl ..)
      · rename_i u there
        split
        · rename_i ok
          by_cases here : u = t.object
          · obtain rfl : channel.subscriber u = t :=
              owned.eq_of_member member (member_of_objectAt? opened there) here
            have properties : b.role.carriesProperties = true := by simpa using carries
            refine .inr ⟨_, _, _, _, _, ok, rfl, ?_⟩
            simp only [Moment.appliedTo, bound]
            exact if_pos ⟨properties, there, lives⟩
          · exact .inl (Update.untouched_apply ok here)
        · exact .inl (.refl ..)

open Session in
/-- A payload that is written is applied to the object of a member, or leaves it alone. -/
theorem Session.Owned.write_cases (owned : w.session.Owned) (tidy : w.session.Tidy .all)
    (member : w.session.Member t) (entity : EntityId) (data : ComponentData) :
    Untouched t w.session.world w.session.waitlist (w.perform (.write entity data)).session.world
        (w.perform (.write entity data)).session.waitlist ∨
      ∃ role component payload world waitlist,
        Update.apply w.session.world w.session.waitlist w.session.resolver t role component
          payload = .ok (world, waitlist) ∧
        (w.perform (.write entity data)).session = { w.session with world, waitlist } ∧
        (⟨w.session, .write entity data⟩ : Moment).appliedTo t.object =
          Update.assignments role payload := by
  simp only [Work.perform, Session.write]
  split
  · exact .inl (.refl ..)
  · rename_i b u reached
    split
    · rename_i ok
      by_cases here : u.object = t.object
      · obtain rfl : u = t := owned.eq_of_member member (member_of_target tidy reached).2 here
        refine .inr ⟨_, _, _, _, _, ok, rfl, ?_⟩
        simp only [Moment.appliedTo, reached, if_true]
      · exact .inl (Update.untouched_apply ok here)
    · exact .inl (.refl ..)

open Session in
/-- A change of the world leaves the object of a member alone if it lives on. -/
theorem Session.Owned.untouched_alter (owned : w.session.Owned)
    (few : w.session.world.pool.issued < 2 ^ 32) (member : w.session.Member t)
    (lives : w.session.world.isAlive t.object = true) (change : WorldChange)
    (alive : (w.perform (.alter change)).session.world.isAlive t.object = true) :
    Untouched t w.session.world w.session.waitlist (w.perform (.alter change)).session.world
      (w.perform (.alter change)).session.waitlist := by
  cases change with
  | addClass _ _ | addStartup _ => exact ⟨rfl, rfl, fun _ _ => rfl⟩
  | placeLocal className =>
    exact untouched_births (World.births_place owned.sound few
      (o := ⟨none, className, Reference.rootOffset, ∅, true, []⟩) rfl)
      (owned.toIssued.knows_of_member member) _
  | destroy object =>
    obtain ⟨died, deaths, -⟩ := owned.exact.deaths_destroy owned.sound few object
    have spared := ((deaths.alive _).mp alive).1
    refine ⟨alive.trans lives.symm, ?_, fun _ _ => rfl⟩
    rw [World.object?, World.object?, alive, lives]
    exact congrArg _ (deaths.objects _ spared)

open Session in
/-- **What an apt move does with the object of a member** that lives on: nothing; or a payload is
applied to it; or the move replays an arrival. -/
theorem Move.Apt.member_cases {m : Move} (apt : m.Apt .all w)
    (order : w.session.Orderly) (owned : w.session.Owned) (housed : w.session.Housed)
    (few : w.session.world.pool.issued + (⟨w.session, m⟩ : Moment).allocations < 2 ^ 32)
    (member : w.session.Member t) (lives : w.session.world.isAlive t.object = true)
    (alive : (w.perform m).session.world.isAlive t.object = true) :
    ((∀ arrival, m ≠ .replay arrival) ∧ Untouched t w.session.world w.session.waitlist
        (w.perform m).session.world (w.perform m).session.waitlist) ∨
      ((∀ arrival, m ≠ .replay arrival) ∧ ∃ role component payload world waitlist,
        Update.apply w.session.world w.session.waitlist w.session.resolver t role component
          payload = .ok (world, waitlist) ∧
        (w.perform m).session = { w.session with world, waitlist } ∧
        (⟨w.session, m⟩ : Moment).appliedTo t.object = Update.assignments role payload) ∨
      ∃ arrival, m = .replay arrival := by
  have left := Nat.lt_of_le_of_lt (Nat.le_add_right _ _) few
  cases m with
  | mark opens =>
    obtain ⟨held, marked⟩ := w.exists_perform_mark opens
    exact .inl ⟨by simp, by rw [marked]; exact .refl ..⟩
  | learn arrival =>
    obtain ⟨held, learnt⟩ := w.exists_perform_learn arrival
    exact .inl ⟨by simp, by rw [learnt]; exact .refl ..⟩
  | hold _ | draft _ | settle _ _ _ => exact .inl ⟨by simp, .refl ..⟩
  | alter change => exact .inl ⟨by simp, owned.untouched_alter left member lives change alive⟩
  | found draft =>
    refine .inl ⟨by simp, ?_⟩
    rcases apt.found_cases with ⟨channel, step⟩ | ⟨idle, -⟩
    -- The objects of a member are known, and those that are made are not.
    · obtain ⟨id, a, -, -, founds⟩ := founds_of_found owned.sound step (Nat.le_of_lt few)
      exact (founds.untouched (owned.toIssued.knows_of_member member)).1
    · rw [idle]
      exact .refl ..
  | populate channel data =>
    exact (owned.populate_cases member lives apt.1 data).imp (⟨by simp, ·⟩) fun applied =>
      .inl ⟨by simp, applied⟩
  | complete channel => exact .inl ⟨by simp, untouched_complete _ channel⟩
  | authorize change => exact .inl ⟨by simp, untouched_authorities [change]⟩
  | write entity data =>
    exact (owned.write_cases order.tidy member entity data).imp (⟨by simp, ·⟩) fun applied =>
      .inl ⟨by simp, applied⟩
  | deliver call => exact .inl ⟨by simp, untouched_deliverCalls [call]⟩
  | replay arrival => exact .inr (.inr ⟨arrival, rfl⟩)
  | remove entity =>
    by_cases own : t.channel.entity = entity
    -- Had its own entity been removed, the object would not live on.
    · subst own
      cases alive.symm.trans (member.dies order owned housed left)
    · exact .inl ⟨by simp, untouched_remove order owned housed left member own⟩

end Members

/-- What brings an object is the replay of its arrival. -/
theorem Move.brings?_eq_some {m : Move} {r : Reference} {h : Handle} :
    m.brings? r = some h ↔ m = .replay ⟨h, r⟩ := by
  constructor
  · intro brings
    unfold brings? at brings
    split at brings
    · split at brings
      · rename_i same
        cases same
        cases brings
        rfl
      · cases brings
    · cases brings
  · rintro rfl
    exact if_pos rfl

open Session in
/-- **Every apt move** lets a field go on that it does not assign, and brings it what it waits for,
as long as the object lives. -/
theorem Move.Apt.pursues {w : Work} {m : Move} (apt : m.Apt .all w) (order : w.session.Orderly)
    (owned : w.session.Owned) (housed : w.session.Housed)
    (few : w.session.world.pool.issued + (⟨w.session, m⟩ : Moment).allocations < 2 ^ 32)
    {t : Subscriber} {k : Offset} {rep : RepIndex} {r : Reference} {found : Option Handle}
    (h : w.session.Pursues t k rep r found)
    (unassigned : ∀ b ∈ (⟨w.session, m⟩ : Moment).appliedTo t.object, b.offset ≠ k)
    (alive : (w.perform m).session.world.isAlive t.object = true) :
    (w.perform m).session.Pursues t k rep r (found.or (m.brings? r)) := by
  have member := apt.member_stays order owned housed
    (Nat.lt_of_le_of_lt (Nat.le_add_right _ _) few) h.member alive
  have brings (other : ∀ arrival, m ≠ .replay arrival) : m.brings? r = none :=
    Option.eq_none_iff_forall_not_mem.mpr fun _ found => other _ (brings?_eq_some.mp found)
  rcases apt.member_cases order owned housed few h.member h.isAlive alive with
    ⟨other, kept⟩ | ⟨other, role, component, payload, world, waitlist, ok, same, applied⟩ |
      ⟨arrival, rfl⟩
  · rw [brings other, Option.or_none]
    exact h.untouched kept member
  · rw [brings other, Option.or_none, same]
    rw [applied] at unassigned
    exact h.apply owned.exact ok unassigned
  · exact h.resolveNow order.lists.exact.coherent (alone_of_member owned order.lists h.member)
      arrival

open Session in
/-- **A move that assigns a reference** to a field last makes the field pursue it. -/
theorem Move.Apt.begins {w : Work} {m : Move} (apt : m.Apt .all w) (tidy : w.session.Tidy .all)
    (owned : w.session.Owned) {h : Handle} {k : Offset} {a : Assignment} {r : Reference}
    (assigned : lastTo ((⟨w.session, m⟩ : Moment).appliedTo h) k = some a)
    (names : a.value = .ref r)
    (once : w.session.resolver r = none ∨
      ((⟨w.session, m⟩ : Moment).appliedTo h).filter (·.offset == k) = [a]) :
    w.session.world.isAlive h = true ∧ ∃ t : Subscriber, t.object = h ∧
      (w.perform m).session.Pursues t k a.rep r (w.session.resolver r) := by
  rcases (⟨w.session, m⟩ : Moment).appliedTo_cases h with
    idle | ⟨channel, data, b, rfl, bound, properties, there, alive, applied⟩ |
      ⟨entity, data, b, t, rfl, reached, rfl, applied⟩
  · rw [idle] at assigned
    cases assigned
  · rw [applied] at assigned once
    refine ⟨alive, channel.subscriber h, rfl, ?_⟩
    obtain ⟨world, waitlist, ok, pursues⟩ := Pursues.of_apply owned
      (member_of_objectAt? apt.1 there) alive assigned names once data.component
    have populated : (w.perform (.populate channel data)).session =
        { w.session with world, waitlist } := by
      simp only [Work.perform, Session.populate, bound, properties, there, ok]
      rfl
    rw [populated]
    exact pursues
  · rw [applied] at assigned once
    have alive := isAlive_of_target reached
    refine ⟨alive, t, rfl, ?_⟩
    obtain ⟨world, waitlist, ok, pursues⟩ := Pursues.of_apply owned
      (member_of_target tidy reached).2 alive assigned names once data.component
    have written : (w.perform (.write entity data)).session =
        { w.session with world, waitlist } := by
      simp only [Work.perform, Session.write, reached, ok]
    rw [written]
    exact pursues

namespace Session

variable {settings : Settings} {protocol : Protocol} {acts : List Act} {s : Session}

end Session

end Replica
