import Replica.Blueprint
import Replica.Proofs.Graph.Members

/-! # The entries of the waitlist

The waitlist keeps three maps in step. Whoever stands in it waits for something, stands in all three
under the same references, and is an object of a channel that is open. Nothing that has been found
is left behind: not as a position that waits for nothing, at whatever depth of an array, and not as
an entry without a subscriber.

Main definitions:
* `Outstanding.IsPending` — a position waits for something, and so does every element inside it.
* `Waitlist.Exact` — the three maps say the same, and nothing that waits for nothing is kept.
* `Session.waitlist_exact` — after every run they do, for objects of open channels alone. -/

namespace Replica

/-! ## Positions that wait -/

namespace Outstanding

mutual

/-- A position is **pending** if it is not resolved and neither is any element inside it, at any
depth. -/
def IsPending : Outstanding → Prop
  | .single rep r => (single rep r).isResolved = false
  | .struct rep buffer bits missing => (struct rep buffer bits missing).isResolved = false
  | .array rep elements => (array rep elements).isResolved = false ∧ ArePending elements

/-- Every one of some elements is pending. -/
def ArePending : List (Offset × Outstanding) → Prop
  | [] => True
  | (_, o) :: rest => o.IsPending ∧ ArePending rest

end

theorem arePending_iff {elements : List (Offset × Outstanding)} :
    ArePending elements ↔ ∀ e ∈ elements, e.2.IsPending := by
  induction elements with
  | nil => simp [ArePending]
  | cons e rest ih => simp [ArePending, ih]

mutual

/-- A pending position waits for some reference. -/
theorem IsPending.exists_reference : (o : Outstanding) → o.IsPending → ∃ r, r ∈ o.references
  | .single _ r, _ => ⟨r, List.mem_singleton_self r⟩
  | .struct _ _ _ missing, pending => by
    obtain ⟨r, mem⟩ := List.exists_mem_of_ne_nil missing.toList fun none => by
      rw [Std.ExtTreeSet.toList_eq_nil_iff] at none
      simp [IsPending, isResolved, none] at pending
    exact ⟨r, mem⟩
  | .array _ elements, pending => by
    rw [IsPending] at pending
    have inhabited : elements ≠ [] := fun none => by simp [isResolved, none] at pending
    exact ArePending.exists_reference elements inhabited pending.2

/-- Elements that are pending wait for some reference, if there are any. -/
theorem ArePending.exists_reference : (elements : List (Offset × Outstanding)) → elements ≠ [] →
    ArePending elements → ∃ r, r ∈ referencesAll elements
  | [], inhabited, _ => absurd rfl inhabited
  | (_, o) :: _, _, pending => by
    obtain ⟨r, mem⟩ := IsPending.exists_reference o pending.1
    exact ⟨r, List.mem_append_left _ mem⟩

end

end Outstanding

mutual

/-- What a value leaves outstanding is pending. -/
theorem Value.isPending_outstanding (resolve : Resolver) (rep : RepIndex) :
    (v : Value) → {o : Outstanding} → v.outstanding resolve rep = some o → o.IsPending
  | .int _, _, left | .null, _, left => by cases left
  | .ref r, o, left => by
    rw [outstanding] at left
    split at left
    · cases left
      rfl
    · cases left
  | .struct vs, o, left => by
    rw [outstanding] at left
    dsimp only at left
    split at left
    · cases left
    · rename_i some
      cases left
      simpa [Outstanding.IsPending, Outstanding.isResolved] using some
  | .array vs, o, left => by
    have pending := isPending_outstandingFrom resolve rep 0 vs
    rw [outstanding] at left
    -- An array of which no element waits leaves nothing outstanding.
    split at left
    · cases left
    · rename_i some
      cases left
      refine ⟨?_, pending⟩
      simpa [Outstanding.isResolved] using some

/-- What the elements of an array leave outstanding is pending. -/
theorem Value.isPending_outstandingFrom (resolve : Resolver) (rep : RepIndex) (i : Offset) :
    (vs : List Value) → Outstanding.ArePending (Value.outstandingFrom resolve rep i vs)
  | [] => trivial
  | v :: vs => by
    have rest := isPending_outstandingFrom resolve rep (i + 1) vs
    rw [outstandingFrom]
    split
    · rename_i o left
      exact ⟨isPending_outstanding resolve rep v left, rest⟩
    · exact rest

end

mutual

/-- What a pending position still waits for after a replay is pending. -/
theorem Replay.isPending_position (replay : Replay) (w : World) (path : List Offset) :
    (o : Outstanding) → {left : Outstanding} → o.IsPending →
      (replay.position w path o).2.2 = some left → left.IsPending
  | .single rep r, left, pending, kept => by
    rw [position] at kept
    split at kept
    · split at kept <;> cases kept
    · cases kept
      exact pending
  | .struct rep buffer bits missing, left, pending, kept => by
    rw [position] at kept
    split at kept
    · split at kept
      · dsimp only at kept
        -- A struct is kept only while something is missing in it.
        split at kept
        · cases kept
        · rename_i some
          cases kept
          simpa [Outstanding.IsPending, Outstanding.isResolved] using some
      · cases kept
    · cases kept
      exact pending
  | .array rep elements, left, pending, kept => by
    rw [position] at kept
    split at kept
    · dsimp only at kept
      split at kept
      · cases kept
      · rename_i some
        cases kept
        refine ⟨?_, replay.arePending_positions w path elements pending.2⟩
        simpa [Outstanding.isResolved] using some
    · cases kept
      exact pending

/-- What pending positions still wait for after a replay is pending. -/
theorem Replay.arePending_positions (replay : Replay) (w : World) (path : List Offset) :
    (elements : List (Offset × Outstanding)) → Outstanding.ArePending elements →
      Outstanding.ArePending (replay.positions w path elements).2.2
  | [], _ => trivial
  | (offset, o) :: rest, pending => by
    have others := replay.arePending_positions (replay.position w (path ++ [offset]) o).1 path rest
      pending.2
    rw [positions]
    dsimp only
    split
    · rename_i left kept
      exact ⟨replay.isPending_position w (path ++ [offset]) o pending.1 kept, others⟩
    · exact others

end

/-- What a payload that is applied leaves outstanding is pending. -/
theorem World.isPending_of_applyPayload {w w' : World} {resolve : Resolver} {h : Handle}
    {role : Role} {component : ComponentId} {payload : Bytes} {applied : Applied}
    (ok : w.applyPayload resolve h role component payload = .ok (applied, w')) {offset : Offset}
    {o : Outstanding} (left : applied.unresolved[offset]? = some o) : o.IsPending := by
  obtain ⟨as, a, -, -, leaves⟩ := leaves_of_applyPayload ok left
  exact Value.isPending_outstanding resolve a.rep a.value leaves

/-! ## Entries -/

/-- Everything that is parked is pending. -/
def Parked.IsPending (p : Parked) : Prop :=
  ∀ (offset : Offset) (o : Outstanding), p[offset]? = some o → o.IsPending

/-- A waitlist is **exact** if its three maps say the same and each lists only those who wait. -/
structure Waitlist.Exact (l : Waitlist) : Prop where
  /-- References are noted for just those for whom fields are, and they are those of the fields. -/
  missing : ∀ s : Subscriber, l.missing[s]? = (l.parked[s]?).map Parked.references
  /-- Whoever is noted waits for something. -/
  nonempty : ∀ (s : Subscriber) (rs : ReferenceSet), l.missing[s]? = some rs → rs ≠ ∅
  /-- A subscriber is found under the references noted for it, and under no other. -/
  index : ∀ (s : Subscriber) (r : Reference), s ∈ l.subscribers.of r ↔ r ∈ l.missingOf s
  /-- No reference is kept that nobody waits for. -/
  tight : l.subscribers.IsTight
  /-- No position is kept that waits for nothing, at any depth. -/
  pending : ∀ (s : Subscriber) (p : Parked), l.parked[s]? = some p → p.IsPending

namespace Waitlist

variable {l : Waitlist}

/-- The waitlist of nobody is exact. -/
theorem exact_empty : empty.Exact where
  missing s := by simp [empty]
  nonempty s rs found := by simp [empty] at found
  index s r := by simp [empty, missingOf]
  tight := Waiters.isTight_empty
  pending s p found := by simp [empty] at found

/-- The sides of an exact waitlist agree. -/
theorem Exact.coherent (h : l.Exact) : l.Coherent where
  missing s := by
    rw [missingOf, parkedOf, h.missing]
    cases l.parked[s]? with
    | none => simp
    | some p => rfl
  index := h.index

theorem Exact.isPending_parkedOf (h : l.Exact) (s : Subscriber) : (l.parkedOf s).IsPending := by
  unfold parkedOf
  cases found : l.parked[s]? with
  | none => simp [Parked.IsPending]
  | some p => exact h.pending s p found

/-- Replacing what a subscriber waits for by what is pending keeps a waitlist exact. -/
theorem Exact.store (h : l.Exact) (s : Subscriber) {p : Parked} (pending : p.IsPending) :
    (l.store s p).Exact where
  missing t := by
    have before := h.missing t
    simp only [Waitlist.store]
    split <;> simp only [Std.ExtTreeMap.getElem?_erase, Std.ExtTreeMap.getElem?_insert] <;>
      split <;> simp [before]
  nonempty t rs found := by
    simp only [Waitlist.store] at found
    split at found
    · rw [Std.ExtTreeMap.getElem?_erase] at found
      split at found
      · cases found
      · exact h.nonempty t rs found
    · rename_i some
      rw [Std.ExtTreeMap.getElem?_insert] at found
      split at found
      · cases found
        -- A field that is parked is pending, so it waits for some reference.
        intro none
        obtain ⟨offset, mem⟩ : ∃ offset, offset ∈ p := by
          by_contra absent
          refine some (Std.ExtTreeMap.isEmpty_iff.mpr (Std.ExtTreeMap.ext_getElem? fun k => ?_))
          rw [Std.ExtTreeMap.getElem?_eq_none fun mem => absent ⟨k, mem⟩]
          simp
        have at_offset := Std.ExtTreeMap.getElem?_eq_some_getElem mem
        obtain ⟨r, waits⟩ := Outstanding.IsPending.exists_reference _ (pending offset _ at_offset)
        have noted : r ∈ p.references := Parked.mem_references.mpr ⟨offset, _, at_offset, waits⟩
        rw [none] at noted
        simp at noted
      · exact h.nonempty t rs found
  index t r := by
    rw [mem_subscribers_store (h.index s r), missingOf_store]
    split
    · rfl
    · exact h.index t r
  tight := isTight_store h.tight s p
  pending t q found := by
    simp only [Waitlist.store] at found
    split at found
    · rw [Std.ExtTreeMap.getElem?_erase] at found
      split at found
      · cases found
      · exact h.pending t q found
    · rw [Std.ExtTreeMap.getElem?_insert] at found
      split at found
      · cases found
        exact pending
      · exact h.pending t q found

theorem Exact.remove (h : l.Exact) (s : Subscriber) : (l.remove s).Exact :=
  h.store s (by simp [Parked.IsPending])

/-- Forgetting the subscribers of a channel keeps a waitlist exact. -/
theorem Exact.removeChannel (h : l.Exact) (c : ChannelId) : (l.removeChannel c).Exact := by
  unfold Waitlist.removeChannel
  generalize l.subscribersIn c = subscribers
  induction subscribers generalizing l with
  | nil => exact h
  | cons s rest ih => exact ih (h.remove s)

/-- **What is forgotten with a channel** are its subscribers; the others wait as before. -/
theorem Exact.parkedOf_removeChannel (h : l.Exact) (c : ChannelId) (t : Subscriber) :
    (l.removeChannel c).parkedOf t = if t.channel = c then ∅ else l.parkedOf t := by
  rw [Waitlist.removeChannel, parkedOf_foldl_remove]
  by_cases own : t.channel = c
  · rw [if_pos own]
    split
    · rfl
    · -- Whoever waits is noted, so it would have been found among the subscribers of the channel.
      rename_i unlisted
      have unnoted : l.missing[t]? = none := Std.ExtTreeMap.getElem?_eq_none fun noted =>
        unlisted (List.mem_filter.mpr ⟨Std.ExtTreeMap.mem_keys.mpr noted, by simp [own]⟩)
      have missing := h.missing t
      rw [unnoted] at missing
      rw [parkedOf, Option.map_eq_none_iff.mp missing.symm]
      rfl
  · have unlisted : t ∉ l.subscribersIn c := by simp [subscribersIn, own]
    rw [if_neg unlisted, if_neg own]

theorem Exact.missingOf_removeChannel (h : l.Exact) (c : ChannelId) (t : Subscriber) :
    (l.removeChannel c).missingOf t = if t.channel = c then ∅ else l.missingOf t := by
  rw [(h.removeChannel c).coherent.missing, h.parkedOf_removeChannel, h.coherent.missing]
  split
  · exact Parked.references_empty
  · rfl

theorem Exact.mem_subscribersOf_removeChannel (h : l.Exact) (c : ChannelId) (t : Subscriber)
    (r : Reference) : t ∈ (l.removeChannel c).subscribersOf r ↔
      t.channel ≠ c ∧ t ∈ l.subscribersOf r := by
  simp only [subscribersOf, Std.ExtTreeSet.mem_toList, h.index, (h.removeChannel c).index,
    h.missingOf_removeChannel]
  split <;> simp_all

/-- Whoever stands in an exact waitlist, in whichever map, waits for something. -/
theorem Exact.parkedOf_ne_empty (h : l.Exact) {s : Subscriber}
    (listed : l.parked[s]? ≠ none ∨ l.missing[s]? ≠ none ∨ ∃ r, s ∈ l.subscribersOf r) :
    l.parkedOf s ≠ ∅ := by
  intro none
  have unnoted : l.missing[s]? = .none := by
    cases noted : l.missing[s]? with
    | none => rfl
    | some rs =>
      have same := h.coherent.missing s
      rw [missingOf, noted, none, Parked.references_empty] at same
      exact absurd same (h.nonempty s rs noted)
  rcases listed with parked | missing | ⟨r, found⟩
  · have same := h.missing s
    rw [unnoted] at same
    exact parked (Option.map_eq_none_iff.mp same.symm)
  · exact missing unnoted
  · rw [subscribersOf, Std.ExtTreeSet.mem_toList, h.index, missingOf, unnoted] at found
    simp at found

end Waitlist

namespace Update

/-- An update keeps a waitlist exact. -/
theorem exact_of_apply {w w' : World} {l l' : Waitlist} {resolve : Resolver} {s : Subscriber}
    {role : Role} {component : ComponentId} {payload : Bytes} (h : l.Exact)
    (ok : apply w l resolve s role component payload = .ok (w', l')) : l'.Exact := by
  obtain ⟨applied, w₁, applied_ok, -, rfl⟩ := apply_eq_ok.mp ok
  refine h.store s ?_
  intro offset o found
  -- A field waits for what the payload has left there, or for what it waited for before.
  rw [getElem?_merge, Option.or_eq_some_iff] at found
  rcases found with left | ⟨-, before⟩
  · exact World.isPending_of_applyPayload applied_ok left
  · split at before
    · cases before
    · exact h.isPending_parkedOf s offset o before

/-- Serving a subscriber keeps a waitlist exact. -/
theorem exact_serve {resolve : Resolver} {r : Reference} {resolved : Handle} {state : Resolution}
    (h : state.waitlist.Exact) (s : Subscriber) :
    (serve resolve r resolved state s).waitlist.Exact := by
  unfold serve
  split
  · exact h.remove s
  · refine h.store s ?_
    have parked : Outstanding.ArePending (state.waitlist.parkedOf s).toList := by
      rw [Outstanding.arePending_iff]
      intro e mem
      exact h.isPending_parkedOf s e.1 e.2
        (Std.ExtTreeMap.mem_toList_iff_getElem?_eq_some.mp mem)
    have left := Replay.arePending_positions ⟨s.object, r, resolved, resolve⟩ state.world []
      (state.waitlist.parkedOf s).toList parked
    rw [Outstanding.arePending_iff] at left
    intro offset o found
    exact left (offset, o) (mem_of_getElem?_ofList found)

/-- A replay keeps a waitlist exact. -/
theorem exact_resolve {w : World} {l : Waitlist} (h : l.Exact) (resolve : Resolver)
    (r : Reference) (resolved : Handle) :
    (Update.resolve w l resolve r resolved).waitlist.Exact := by
  unfold Update.resolve
  suffices along : ∀ (subscribers : List Subscriber) (state : Resolution), state.waitlist.Exact →
      (subscribers.foldl (serve resolve r resolved) state).waitlist.Exact from
    along _ ⟨w, l, []⟩ h
  intro subscribers
  induction subscribers with
  | nil => exact fun _ h => h
  | cons s rest ih => exact fun _ h => ih _ (exact_serve h s)

/-- Nobody begins to wait in a replay. -/
theorem parkedOf_of_resolve {w : World} {l : Waitlist} (h : l.Exact) {resolve : Resolver}
    {r : Reference} {resolved : Handle} {s : Subscriber}
    (waits : (Update.resolve w l resolve r resolved).waitlist.parkedOf s ≠ ∅) :
    l.parkedOf s ≠ ∅ := by
  by_cases served : s ∈ l.subscribersOf r
  · exact h.parkedOf_ne_empty (.inr (.inr ⟨r, served⟩))
  · rwa [parkedOf_resolve_of_not_mem served] at waits

end Update

/-! ## Entries of a session -/

namespace Session

/-- The waitlist of a session is exact, and whoever stands in it is an object of an open channel. -/
structure ListsMembers (s : Session) : Prop where
  /-- The three maps of the waitlist agree. -/
  exact : s.waitlist.Exact
  /-- Whoever waits is an object of a channel that is open. -/
  members : ∀ t : Subscriber, s.waitlist.parkedOf t ≠ ∅ → s.Member t

namespace ListsMembers

variable {s s' : Session}

/-- A session that has received nothing lists nobody. -/
theorem start (settings : Settings) (protocol : Protocol) :
    (Session.start settings protocol).ListsMembers where
  exact := Waitlist.exact_empty
  members t waits := absurd (by simp [Session.start, Waitlist.parkedOf, Waitlist.empty]) waits

/-- Only the waitlist and the members decide who is listed. -/
theorem congr (h : s.ListsMembers) (waitlist : s'.waitlist = s.waitlist)
    (members : ∀ t, s.Member t → s'.Member t) : s'.ListsMembers where
  exact := by rw [waitlist]; exact h.exact
  members t waits := by
    rw [waitlist] at waits
    exact members t (h.members t waits)

/-- Where the channels are the same, so are the members. -/
theorem member_of_channels (same : s'.channels = s.channels) {t : Subscriber} (h : s.Member t) :
    s'.Member t := by
  simpa only [Member, channelId?, memberAt?, same] using h

/-- An update of a member lists nobody else. -/
theorem apply (h : s.ListsMembers) {t : Subscriber} (member : s.Member t) {role : Role}
    {component : ComponentId} {payload : Bytes} {world : World} {waitlist : Waitlist}
    (ok : Update.apply s.world s.waitlist s.resolver t role component payload =
      .ok (world, waitlist)) : ListsMembers { s with world, waitlist } where
  exact := Update.exact_of_apply h.exact ok
  members u waits := by
    refine member_of_channels (s := s) rfl ?_
    obtain ⟨applied, w₁, -, -, rfl⟩ := Update.apply_eq_ok.mp ok
    dsimp only at waits
    rw [Waitlist.parkedOf_store] at waits
    split at waits
    · subst u
      exact member
    · exact h.members u waits

theorem populate (h : s.ListsMembers) {channel : Channel} (data : ComponentData)
    (opened : s.channels.get? channel.entity = some channel) :
    (Session.populate channel s data).ListsMembers := by
  unfold Session.populate
  split
  · exact h
  · split
    · exact h
    · split
      · exact h
      · rename_i k found
        split
        · rename_i ok
          exact h.apply (member_of_objectAt? opened found) ok
        · exact h

theorem write (h : s.ListsMembers) {scope : Scope} (tidy : s.Tidy scope) (entity : EntityId)
    (data : ComponentData) : (s.write entity data).ListsMembers := by
  unfold Session.write
  split
  · exact h
  · rename_i b t reached
    split
    · rename_i ok
      exact h.apply (member_of_target tidy reached).2 ok
    · exact h

/-- Whoever is served by a replay was listed before. -/
theorem replay (h : s.ListsMembers) (a : Arrival) : (s.resolveNow a).ListsMembers := by
  obtain ⟨world, events, calls, same, -⟩ := s.resolveNow_eq a
  rw [same]
  exact {
    exact := Update.exact_resolve h.exact _ _ _
    members := fun t waits =>
      member_of_channels (s := s) rfl (h.members t (Update.parkedOf_of_resolve h.exact waits)) }

theorem found (h : s.ListsMembers) (draft : Draft) : (s.found draft).2.ListsMembers := by
  cases step : s.found draft with
  | mk built s' =>
    cases built with
    | none =>
      rcases found_eq_none step with rfl | ⟨-, world, rfl⟩
      · exact h
      · exact h.congr rfl fun t => member_of_channels rfl
    | some channel =>
      obtain ⟨filed, unbuilt, get⟩ := found_channels step
      rw [← filed] at unbuilt get
      obtain ⟨spawn, assembly, world, channels, -, -, -, rfl⟩ := found_eq_some.mp step
      exact h.congr rfl fun t member => (member_open unbuilt get t).mpr (.inr member)

theorem authorize (h : s.ListsMembers) {scope : Scope} (tidy : s.Tidy scope)
    (change : AuthorityChange) : (s.changeAuthority change).ListsMembers := by
  obtain ⟨ids, objects⟩ := members_changeAuthority tidy change
  refine h.congr (s.changeAuthority_keeps change).2.1 ?_
  intro t member
  simpa only [Member, ids, objects] using member

/-- Who waits in a channel is forgotten when its entity is taken down. -/
theorem remove (h : s.ListsMembers) (entity : EntityId) : (s.remove entity).ListsMembers := by
  rcases s.remove_cases entity with ⟨-, same⟩ | ⟨-, same⟩ | ⟨channel, opened, same⟩
  · rw [same]
    exact h.congr rfl fun t => member_of_channels rfl
  · rw [same]
    exact h
  · rw [same]
    refine ⟨h.exact.removeChannel channel.id, ?_⟩
    intro t waits
    rw [h.exact.parkedOf_removeChannel] at waits
    split at waits
    · exact absurd rfl waits
    · rename_i other
      have member := h.members t waits
      have elsewhere : entity ≠ t.channel.entity := by
        intro own
        have named := member.1
        rw [channelId?, ← own, opened] at named
        exact other (Option.some.inj named).symm
      simpa only [Member, channelId?, memberAt?, Channels.get?_close, if_neg elsewhere] using
        member

end ListsMembers

end Session

/-- Every apt move lists members alone. -/
theorem Move.Apt.listsMembers {scope : Scope} {w : Work} {m : Move} (apt : m.Apt scope w)
    (tidy : w.session.Tidy scope) (h : w.session.ListsMembers) :
    (w.perform m).session.ListsMembers := by
  have same {w' : Work} (waitlist : w'.session.waitlist = w.session.waitlist)
      (channels : w'.session.channels = w.session.channels) : w'.session.ListsMembers :=
    h.congr waitlist fun t => Session.ListsMembers.member_of_channels channels
  cases m with
  | mark opens =>
    obtain ⟨held, marked⟩ := w.exists_perform_mark opens
    exact same (congrArg (·.waitlist) marked) (congrArg (·.channels) marked)
  | hold operation | draft drafts | settle requests events deliveries | alter change
  | complete channel => exact same rfl rfl
  | learn arrival =>
    obtain ⟨held, learnt⟩ := w.exists_perform_learn arrival
    exact same (congrArg (·.waitlist) learnt) (congrArg (·.channels) learnt)
  | found draft =>
    have kept := h.found draft
    simp only [Work.perform]
    split
    · rename_i channel s' step
      rwa [step] at kept
    · rename_i s' step
      rwa [step] at kept
  | populate channel data => exact h.populate data apt.1
  | authorize change => exact h.authorize tidy change
  | write entity data => exact h.write tidy entity data
  | deliver call =>
    exact same (w.session.deliverCall_keeps call).1 (Session.routine_deliverCall _ call).channels
  | replay arrival => exact h.replay arrival
  | remove entity => exact h.remove entity

namespace Session

variable {settings : Settings} {protocol : Protocol} {acts : List Act} {s : Session}

/-- After every run the waitlist lists members alone. -/
theorem listsMembers_of_run (ok : (start settings protocol).run acts = .ok s) : s.ListsMembers :=
  (run_induction (I := fun w _ => w.session.ListsMembers)
    (fun _ _ _ tidy apt h => apt.listsMembers tidy h) (tidy_start settings protocol)
    (.start settings protocol) (fun a _ => a.within_all) ok).1

/-- **The waitlist is exact**: after every run its three maps say the same, none of them keeps a
reference that nobody waits for or a position that waits for nothing, and whoever stands in one of
them is an object of the channel that its entity has open. -/
theorem waitlist_exact (ok : (start settings protocol).run acts = .ok s) :
    s.waitlist.Exact ∧ ∀ t : Subscriber,
      s.waitlist.parked[t]? ≠ none ∨ s.waitlist.missing[t]? ≠ none ∨
          (∃ r, t ∈ s.waitlist.subscribersOf r) → s.Member t := by
  have lists := listsMembers_of_run ok
  exact ⟨lists.exact, fun t listed => lists.members t (lists.exact.parkedOf_ne_empty listed)⟩

/-- A crate holds an array in which one element waits for a crate that comes, and another, two
levels further down, waits for that crate and for one that never comes. -/
def nestedReferences : List Act :=
  let nested : Value :=
    .array [.ref (.root 2), .array [.int 1, .struct [.ref (.root 4), .ref (.root 2)]]]
  (((Blueprint.ofClass 1 "Crate").withFields Stock.rootDataComponent [.at 7 nested]).operations ++
    (Blueprint.ofClass 2 "Crate").operations).map .receive

theorem waitlist_exact_nestedReferences :
    ∃ s, (start {} Stock.protocol).run nestedReferences = .ok s ∧ s.waitlist.Exact ∧
      s.waitlist.subscribersOf (.root 2) = [] ∧
      s.waitlist.subscribersOf (.root 4) = [⟨⟨1, 0⟩, ⟨0, 0⟩⟩] ∧ s.Member ⟨⟨1, 0⟩, ⟨0, 0⟩⟩ := by
  obtain ⟨s, ok, test⟩ := exists_run (start {} Stock.protocol) nestedReferences
    (fun s => s.waitlist.subscribersOf (.root 2) == [] &&
      s.waitlist.subscribersOf (.root 4) == [⟨⟨1, 0⟩, ⟨0, 0⟩⟩]) (by decide +kernel)
  rw [Bool.and_eq_true, beq_iff_eq, beq_iff_eq] at test
  obtain ⟨exact, members⟩ := waitlist_exact ok
  exact ⟨s, ok, exact, test.1, test.2, members _ (.inr (.inr ⟨.root 4, by simp [test.2]⟩))⟩

end Session

end Replica
