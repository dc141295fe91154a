import Replica.Proofs.Graph.Overwriting
import Replica.Proofs.Graph.Parts

/-! # Every position has its place

A payload parks a position for each place that it leaves waiting, and writes the place as well. So a
position has its place in the object from then on: replays write in places, and take none away, and
what is parked spells what can be read. There is one exception: where a payload assigns a field
twice, and only the earlier value waits, the position that is parked may have no place in the later
value.

Main definitions:
* `Waitlist.IsSound` — all that is parked can be read.
* `World.Seats` — every position that is parked has its place in an object.
* `Assignment.Conclusive` — of several assignments to a field the last one decides what is parked.
* `Session.Seated` — every position of a live object has its place.
* `Move.Apt.seated` — what a move does to positions and places. -/

namespace Replica

/-! ## What is parked is sound -/

/-- The elements of an array that can be written wait under indices of their own. -/
theorem Value.nodup_outstandingFrom (resolve : Resolver) (rep : RepIndex) (i : Offset)
    (vs : List Value) (short : i.toNat + vs.length < 2 ^ 32) :
    ((Value.outstandingFrom resolve rep i vs).map (·.1)).Nodup ∧
      ∀ j ∈ (Value.outstandingFrom resolve rep i vs).map (·.1), i.toNat ≤ j.toNat := by
  induction vs generalizing i with
  | nil => simp [outstandingFrom]
  | cons v vs ih =>
    rw [List.length_cons] at short
    have next : (i + 1).toNat = i.toNat + 1 := by
      have one : (1 : UInt32).toNat = 1 := rfl
      rw [UInt32.toNat_add, one]
      omega
    obtain ⟨nodup, above⟩ := ih (i + 1) (by omega)
    rw [next] at above
    have later : ∀ j ∈ (Value.outstandingFrom resolve rep (i + 1) vs).map (·.1),
        i.toNat ≤ j.toNat := fun j mem => Nat.le_of_succ_le (above j mem)
    rw [outstandingFrom]
    split
    · rw [List.map_cons, List.nodup_cons, List.forall_mem_cons]
      exact ⟨⟨fun mem => Nat.not_succ_le_self _ (above i mem), nodup⟩, Nat.le_refl _, later⟩
    · exact ⟨nodup, later⟩

mutual

/-- What a value leaves outstanding that can be written is sound. -/
theorem Value.isSound_outstanding (resolve : Resolver) (rep : RepIndex) :
    (v : Value) → v.IsWritable → {o : Outstanding} → v.outstanding resolve rep = some o → o.IsSound
  | .int _, _, _, left | .null, _, _, left => by cases left
  | .ref r, _, o, left => by
    cases outstanding_eq_some.mp left with
    | single _ => trivial
  | .struct vs, writable, o, left => by
    cases outstanding_eq_some.mp left with
    | struct _ =>
      rw [Outstanding.IsSound, Outstanding.value?,
        Wire.decodeValue_eq_ok.mpr ⟨writable, rfl⟩]
      rfl
  | .array vs, writable, o, left => by
    obtain ⟨short, parts⟩ := isWritable_array.mp writable
    have sound := areSound_outstandingFrom resolve rep 0 vs (allWritable_iff.mpr parts)
    have nodup := nodup_outstandingFrom resolve rep 0 vs (by
      have zero : (0 : UInt32).toNat = 0 := rfl
      simp only [Wire.countLimit] at short
      omega)
    cases outstanding_eq_some.mp left with
    | array _ => exact ⟨nodup.1, sound⟩

/-- So is what the elements of an array leave. -/
theorem Value.areSound_outstandingFrom (resolve : Resolver) (rep : RepIndex) (i : Offset) :
    (vs : List Value) → Value.AllWritable vs →
      Outstanding.AreSound (Value.outstandingFrom resolve rep i vs)
  | [], _ => trivial
  | v :: vs, writable => by
    obtain ⟨first, others⟩ := writable
    have rest := areSound_outstandingFrom resolve rep (i + 1) vs others
    rw [outstandingFrom]
    split
    · rename_i o left
      exact ⟨isSound_outstanding resolve rep v first left, rest⟩
    · exact rest

end

mutual

/-- What a sound position still waits for after a replay is sound. -/
theorem Replay.isSound_position (replay : Replay) (w : World) (path : List Offset) :
    (o : Outstanding) → {left : Outstanding} → o.IsSound →
      (replay.position w path o).2.2 = some left → left.IsSound
  | .single rep r, left, sound, kept => by
    rw [position] at kept
    split at kept
    · split at kept <;> cases kept
    · cases kept
      exact sound
  | .struct rep buffer bits missing, left, sound, kept => by
    rw [position] at kept
    split at kept
    · split at kept
      · dsimp only at kept
        split at kept
        · cases kept
        · cases kept
          exact sound
      · cases kept
    · cases kept
      exact sound
  | .array rep elements, left, sound, kept => by
    rw [position] at kept
    split at kept
    · dsimp only at kept
      split at kept
      · cases kept
      · cases kept
        exact ⟨sound.1.sublist (replay.keys_positions w path elements),
          replay.areSound_positions w path elements sound.2⟩
    · cases kept
      exact sound

/-- So is what is left of several positions. -/
theorem Replay.areSound_positions (replay : Replay) (w : World) (path : List Offset) :
    (elements : List (Offset × Outstanding)) → Outstanding.AreSound elements →
      Outstanding.AreSound (replay.positions w path elements).2.2
  | [], _ => trivial
  | (offset, o) :: rest, sound => by
    have others := replay.areSound_positions (replay.position w (path ++ [offset]) o).1 path rest
      sound.2
    rw [positions]
    dsimp only
    split
    · rename_i left kept
      exact ⟨replay.isSound_position w (path ++ [offset]) o sound.1 kept, others⟩
    · exact others

end

namespace Waitlist

variable {l l' : Waitlist}

/-- A waitlist is **sound** if all that is parked is. -/
def IsSound (l : Waitlist) : Prop := ∀ t, (l.parkedOf t).IsSound

theorem isSound_empty : empty.IsSound := by
  intro t field o found
  simp [parkedOf, empty] at found

/-- Parking what is sound keeps a waitlist sound. -/
theorem IsSound.store (h : l.IsSound) (s : Subscriber) {p : Parked} (sound : p.IsSound) :
    (l.store s p).IsSound := by
  intro t
  rw [parkedOf_store]
  split
  · exact sound
  · exact h t

theorem IsSound.removeChannel (h : l.IsSound) (c : ChannelId) : (l.removeChannel c).IsSound := by
  intro t
  rw [Waitlist.removeChannel, parkedOf_foldl_remove]
  split
  · intro field o found
    simp at found
  · exact h t

/-- An update keeps a waitlist sound. -/
theorem IsSound.apply (h : l.IsSound) {w w' : World} {resolve : Resolver} {s : Subscriber}
    {role : Role} {component : ComponentId} {payload : Bytes}
    (ok : Update.apply w l resolve s role component payload = .ok (w', l')) : l'.IsSound := by
  obtain ⟨applied, w₁, applied_ok, -, rfl⟩ := Update.apply_eq_ok.mp ok
  refine h.store s fun field o found => ?_
  rw [Update.getElem?_merge, Option.or_eq_some_iff] at found
  rcases found with left | ⟨-, before⟩
  · obtain ⟨as, a, decoded, mem, leaves⟩ := World.leaves_of_applyPayload applied_ok left
    exact Value.isSound_outstanding resolve a.rep a.value
      ((Wire.decodeFields_eq_ok.mp decoded).1.2 a mem) leaves
  · split at before
    · cases before
    · exact h s field o before

/-- Serving a subscriber keeps a waitlist sound. -/
theorem IsSound.serve {state : Update.Resolution} (h : state.waitlist.IsSound)
    (resolve : Resolver) (r : Reference) (resolved : Handle) (s : Subscriber) :
    (Update.serve resolve r resolved state s).waitlist.IsSound := by
  unfold Update.serve
  split
  · exact h.store s fun field o found => by simp at found
  · refine h.store s fun field o found => ?_
    have parked : Outstanding.AreSound (state.waitlist.parkedOf s).toList :=
      Outstanding.areSound_iff.mpr fun e mem =>
        h s e.1 e.2 (Std.ExtTreeMap.mem_toList_iff_getElem?_eq_some.mp mem)
    have left := Replay.areSound_positions ⟨s.object, r, resolved, resolve⟩ state.world []
      (state.waitlist.parkedOf s).toList parked
    exact Outstanding.areSound_iff.mp left (field, o) (Update.mem_of_getElem?_ofList found)

/-- A resolution keeps a waitlist sound. -/
theorem IsSound.resolve (h : l.IsSound) (w : World) (resolve : Resolver) (r : Reference)
    (resolved : Handle) : (Update.resolve w l resolve r resolved).waitlist.IsSound :=
  List.foldlRecOn (motive := fun (state : Update.Resolution) => state.waitlist.IsSound) _ _ h
    fun _ sound s _ => sound.serve resolve r resolved s

end Waitlist

/-- Every move keeps the waitlist sound. -/
theorem Work.isSound_perform {w : Work} (h : w.session.waitlist.IsSound) (m : Move) :
    (w.perform m).session.waitlist.IsSound := by
  have written {s : Session} (writes : w.session.Writes s) : s.waitlist.IsSound := by
    cases writes with
    | refused => exact h
    | applied ok => exact h.apply ok
  cases m with
  | mark opens =>
    obtain ⟨held, same⟩ := w.exists_perform_mark opens
    rw [same]
    exact h
  | hold _ | draft _ | settle _ _ _ | alter _ | complete _ => exact h
  | learn arrival =>
    obtain ⟨held, same⟩ := w.exists_perform_learn arrival
    rw [same]
    exact h
  | found draft =>
    obtain ⟨_, _, _, same⟩ := w.exists_perform_found draft
    rw [same]
    exact h
  | populate channel data => exact written (Session.writes_populate channel w.session data)
  | write entity data => exact written (Session.writes_write w.session entity data)
  | authorize change =>
    show (w.session.changeAuthority change).waitlist.IsSound
    rw [(w.session.changeAuthority_keeps change).2.1]
    exact h
  | deliver call =>
    show (w.session.deliverCall call).waitlist.IsSound
    rw [(w.session.deliverCall_keeps call).1]
    exact h
  | replay arrival =>
    obtain ⟨_, _, _, same, -⟩ := w.session.resolveNow_eq arrival
    show (w.session.resolveNow arrival).waitlist.IsSound
    rw [same]
    exact Waitlist.IsSound.resolve h _ _ _ _
  | remove entity =>
    show (w.session.remove entity).waitlist.IsSound
    rcases w.session.remove_cases entity with ⟨-, same⟩ | ⟨-, same⟩ | ⟨channel, -, same⟩
    · rw [same]
      exact h
    · rw [same]
      exact h
    · rw [same]
      exact h.removeChannel _

/-! ## Values and their places -/

/-- **What a value leaves waiting has its place** in the local form of the value. -/
theorem Value.isSome_at?_localize (resolve : Resolver) (rep : RepIndex) {inner : Outstanding}
    {path : List Offset} {v : Value} {o : Outstanding} (writable : v.IsWritable)
    (left : v.outstanding resolve rep = some o) (stands : inner.StandsAt path o) :
    (Localized.at? path (v.localize resolve)).isSome := by
  obtain ⟨u, part, -⟩ := (parks_iff (IsWritable.isAddressable v writable)).mp ⟨o, left, stands⟩
  rw [at?_localize, part]
  rfl

/-! ## Replays keep places -/

/-- Where something is replaced at a path, every place on the way is there. -/
theorem Localized.isSome_at?_of_replaceAt {new l l' : Localized} {path rest : List Offset}
    (replaced : replaceAt new (path ++ rest) l = some l') : (at? path l').isSome := by
  induction path generalizing l l' with
  | nil => rfl
  | cons i path ih =>
    cases l with
    | array ls =>
      obtain ⟨old, found, more⟩ := Option.bind_eq_some_iff.mp replaced
      obtain ⟨changed, inside, made⟩ := Option.bind_eq_some_iff.mp more
      cases made
      obtain ⟨short, -⟩ := List.getElem?_eq_some_iff.mp found
      simp [at?, List.getElem?_set_self short, ih inside]
    | int _ | object _ | struct _ => cases replaced

namespace Replay

variable {replay : Replay} {inner o left : Outstanding} {path : List Offset}

/-- The replay of a position keeps its place. -/
theorem isSome_at?_position {w : World} {field : Offset}
    (there : (w.at? replay.object (field :: path)).isSome) (o : Outstanding) :
    ((replay.position w (field :: path) o).1.at? replay.object (field :: path)).isSome :=
  replay.position_keeps (P := fun w' => (w'.at? replay.object (field :: path)).isSome)
    (fun _ _ ok => by
      obtain ⟨l, l', -, replaced, shown⟩ := World.field?_writeAt ok
      rw [World.at?, shown, Option.bind_some]
      exact Localized.isSome_at?_of_replaceAt replaced) there o

/-- What is left of several positions is left of one of them. -/
theorem exists_of_mem_positions {w : World} {elements : List (Offset × Outstanding)} {i : Offset}
    (mem : (i, left) ∈ (replay.positions w path elements).2.2) :
    ∃ o w', (i, o) ∈ elements ∧ (replay.position w' (path ++ [i]) o).2.2 = some left := by
  induction elements generalizing w with
  | nil => cases mem
  | cons e rest ih =>
    rw [positions] at mem
    have later : (i, left) ∈ (replay.positions (replay.position w (path ++ [e.1]) e.2).1 path
        rest).2.2 → ∃ o w', (i, o) ∈ e :: rest ∧
          (replay.position w' (path ++ [i]) o).2.2 = some left := by
      intro mem
      obtain ⟨o, w', listed, kept⟩ := ih mem
      exact ⟨o, w', List.mem_cons_of_mem _ listed, kept⟩
    dsimp only at mem
    split at mem
    · rename_i x kept
      rcases List.mem_cons.mp mem with here | mem
      · cases here
        exact ⟨e.2, w, List.mem_cons_self, kept⟩
      · exact later mem
    · exact later mem

/-- Whatever stands in what is left of a position stood there before, or something like it. -/
theorem exists_standsAt_of_left {w : World} {base : List Offset}
    (kept : (replay.position w base o).2.2 = some left) (stands : inner.StandsAt path left) :
    ∃ inner' : Outstanding, inner'.StandsAt path o := by
  induction path generalizing o left w base with
  | nil => exact ⟨o, rfl⟩
  | cons i path ih =>
    by_cases waits : replay.reference ∈ o.references
    · cases o with
      | array rep elements =>
        have lacks : Outstanding.anyWaitsOn replay.reference elements = true :=
          (Outstanding.anyWaitsOn_iff _ _).mpr waits
        rw [position, if_pos lacks] at kept
        dsimp only at kept
        split at kept
        · cases kept
        · cases kept
          obtain ⟨x, mem, below⟩ := stands
          obtain ⟨o, w', listed, kept⟩ := exists_of_mem_positions mem
          obtain ⟨inner', stood⟩ := ih kept below
          exact ⟨inner', o, listed, stood⟩
      | single rep r =>
        rw [position, if_pos (List.mem_singleton.mp waits).symm] at kept
        split at kept <;> cases kept
      | struct rep buffer bits missing =>
        have lacks : missing.contains replay.reference = true :=
          (Outstanding.waitsOn_iff _ (.struct rep buffer bits missing)).mpr waits
        rw [position, if_pos lacks] at kept
        split at kept
        · dsimp only at kept
          split at kept
          · cases kept
          · cases kept
            exact stands.elim
        · cases kept
    · rw [position_of_not_mem w base waits] at kept
      cases kept
      exact ⟨inner, stands⟩

end Replay

/-! ## Objects -/

/-- An object **seats** what is parked for it if every position has its place. -/
def World.Seats (w : World) (h : Handle) (p : Parked) : Prop :=
  ∀ (inner : Outstanding) (place : List Offset), inner.ParkedAt p place → (w.at? h place).isSome

/-- An object seats nothing. -/
theorem World.seats_empty (w : World) (h : Handle) : w.Seats h ∅ :=
  fun _ _ parked => absurd rfl parked.ne_empty

/-- Assignments are **conclusive** if what they leave parked for a field is what the last one to the
field leaves: nothing that an earlier one waits for outlasts a last one that waits for nothing. -/
def Assignment.Conclusive (resolve : Resolver) (as : List Assignment) : Prop :=
  ∀ k a, lastTo as k = some a → leftAt resolve as k = a.value.outstanding resolve a.rep

namespace Untouched

variable {t : Subscriber} {w w' : World} {l l' : Waitlist}

/-- What is untouched holds in every place what it held. -/
theorem at? (h : Untouched t w l w' l') (place : List Offset) :
    w'.at? t.object place = w.at? t.object place := by
  cases place with
  | nil => rfl
  | cons field path => exact World.at?_congr (h.field field)

/-- An object that is untouched seats what it seated. -/
theorem seats (h : Untouched t w l w' l') (seats : w.Seats t.object (l.parkedOf t)) :
    w'.Seats t.object (l'.parkedOf t) := by
  intro inner place parked
  rw [h.parked t rfl] at parked
  rw [h.at?]
  exact seats inner place parked

end Untouched

namespace Update

variable {resolve : Resolver} {t : Subscriber}

/-- **A payload seats what it parks**, if its assignments are conclusive. -/
theorem seats_apply {w w' : World} {l l' : Waitlist} {role : Role} {component : ComponentId}
    {payload : Bytes} (exact : w.Exact) (alive : w.isAlive t.object = true)
    (ok : apply w l resolve t role component payload = .ok (w', l'))
    (conclusive : Assignment.Conclusive resolve (assignments role payload))
    (seats : w.Seats t.object (l.parkedOf t)) : w'.Seats t.object (l'.parkedOf t) := by
  rcases fields_apply alive exact l resolve role component payload with
    ⟨error, refused, -⟩ | ⟨_, _, applied, fields⟩
  · cases refused.symm.trans ok
  · cases applied.symm.trans ok
    intro inner place parked
    cases place with
    | nil => exact parked.elim
    | cons field path =>
      obtain ⟨o, found, stands⟩ := parked
      obtain ⟨shown, left⟩ := fields field
      rw [left, ← Assignment.leftAt] at found
      cases last : lastTo (assignments role payload) field with
      | none =>
        -- The field is not assigned, so it holds and waits as before.
        have unlisted := lastTo_eq_none.mp last
        have none : Assignment.leftAt resolve (assignments role payload) field = none :=
          Assignment.leftAt_eq_none.mpr fun b mem same =>
            absurd (List.mem_map.mpr ⟨b, mem, same⟩) unlisted
        rw [none, Option.none_or, if_neg unlisted] at found
        rw [last] at shown
        rw [World.at?_congr shown]
        exact seats inner (field :: path) ⟨o, found, stands⟩
      | some a =>
        obtain ⟨mem, same⟩ := mem_of_lastTo last
        rw [if_pos (List.mem_map.mpr ⟨a, mem, same⟩), Option.or_none, conclusive field a last]
          at found
        rw [last] at shown
        rw [World.at?, shown]
        exact Value.isSome_at?_localize resolve a.rep (isWritable_of_mem_assignments mem) found
          stands

/-- Serving a subscriber keeps its positions seated. -/
theorem seats_serve {state : Resolution} (resolve : Resolver) (r : Reference) (resolved : Handle)
    (alive : state.world.isAlive t.object = true) (sound : (state.waitlist.parkedOf t).IsSound)
    (seats : state.world.Seats t.object (state.waitlist.parkedOf t)) :
    (serve resolve r resolved state t).world.Seats t.object
      ((serve resolve r resolved state t).waitlist.parkedOf t) := by
  intro inner place parked
  cases place with
  | nil => exact parked.elim
  | cons field path =>
    obtain ⟨left, found, stands⟩ := parked
    cases before : (state.waitlist.parkedOf t)[field]? with
    | none =>
      -- Nothing begins to wait when a subscriber is served.
      obtain ⟨-, same⟩ := field_serve (r := r) resolve resolved alive (k := field) fun o here => by
        rw [before] at here
        cases here
      rw [same, before] at found
      cases found
    | some o =>
      obtain ⟨w₁, same, filled, kept⟩ := isolate_serve resolve r resolved alive before
      rw [kept] at found
      obtain ⟨inner', stood⟩ := Replay.exists_standsAt_of_left found stands
      obtain ⟨w₂, same', filled'⟩ := Replay.isolate_position ⟨t.object, r, resolved, resolve⟩ stood
        (sound field o before) w₁ [field]
      have there := seats inner' (field :: path) ⟨o, before, stood⟩
      rw [← World.at?_congr same] at there
      rw [World.at?_congr filled]
      refine (congrArg Option.isSome filled').trans ?_
      exact Replay.isSome_at?_position ((congrArg Option.isSome same').trans there) inner'

/-- A resolution keeps the positions of a subscriber seated that stands alone. -/
theorem seats_resolve {w : World} {l : Waitlist} (coherent : l.Coherent) (alone : l.StandsAlone t)
    (alive : w.isAlive t.object = true) (sound : (l.parkedOf t).IsSound)
    (seats : w.Seats t.object (l.parkedOf t)) (resolve : Resolver) (r : Reference)
    (resolved : Handle) : (Update.resolve w l resolve r resolved).world.Seats t.object
      ((Update.resolve w l resolve r resolved).waitlist.parkedOf t) := by
  rcases exists_served resolve resolved (w := w) (alone.eq_of_subscribed coherent (r := r)) with
    ⟨-, kept⟩ | ⟨-, state, before, after⟩
  · exact kept.seats seats
  · refine after.seats (seats_serve resolve r resolved (before.alive.trans alive) ?_
      (before.seats seats))
    rw [before.parked t rfl]
    exact sound

end Update

/-! ## Sessions -/

/-- A session is **seated** if every position of a live object has its place. -/
def Session.Seated (s : Session) : Prop :=
  ∀ t : Subscriber, s.world.isAlive t.object = true →
    s.world.Seats t.object (s.waitlist.parkedOf t)

open Session in
/-- Nothing waits with a handle that a move makes a member. -/
theorem Move.Apt.parkedOf_eq_empty {w : Work} {m : Move} (apt : m.Apt .all w)
    (order : w.session.Orderly) {t : Subscriber} (new : ¬w.session.Member t) :
    (w.perform m).session.waitlist.parkedOf t = ∅ := by
  have idle : w.session.waitlist.parkedOf t = ∅ := by
    by_contra waits
    exact new (order.lists.members t waits)
  by_contra waits
  have member := (apt.listsMembers order.tidy order.lists).members t waits
  rcases apt.channel_cases order.tidy t.channel.entity with
    ⟨f, same, get⟩ | ⟨draft, -, rfl, -⟩ | ⟨-, closed⟩
  · exact new ((member_iff_of_map same get).mp member)
  · obtain ⟨_, _, _, founded⟩ := w.exists_perform_found draft
    rw [founded] at waits
    exact waits idle
  · exact member.opened closed

open Session in
/-- **Every apt move** keeps a session seated, if what it assigns is conclusive. -/
theorem Move.Apt.seated {w : Work} {m : Move} (apt : m.Apt .all w) (order : w.session.Orderly)
    (owned : w.session.Owned) (housed : w.session.Housed)
    (few : w.session.world.pool.issued + (⟨w.session, m⟩ : Moment).allocations < 2 ^ 32)
    (sound : w.session.waitlist.IsSound)
    (conclusive : ∀ h, Assignment.Conclusive w.session.resolver
      ((⟨w.session, m⟩ : Moment).appliedTo h))
    (h : w.session.Seated) : (w.perform m).session.Seated := by
  intro t alive
  by_cases member : w.session.Member t
  · have lives := (apt.known order.issued few (order.issued.knows_of_member member)).2 alive
    have seats := h t lives
    rcases apt.member_cases order owned housed few member lives alive with
      ⟨-, kept⟩ | ⟨-, role, component, payload, world, waitlist, ok, same, applied⟩ |
        ⟨arrival, rfl⟩
    · exact kept.seats seats
    · rw [same]
      exact Update.seats_apply owned.exact lives ok (applied ▸ conclusive t.object) seats
    · exact (untouched_resolveNow w.session arrival t).seats
        (Update.seats_resolve order.lists.exact.coherent
          (alone_of_member owned order.lists member) lives (sound t) seats _ _ _)
  · rw [apt.parkedOf_eq_empty order member]
    exact World.seats_empty _ _

end Replica
