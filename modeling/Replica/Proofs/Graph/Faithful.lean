import Replica.Proofs.Directory
import Replica.Proofs.Graph.Growth
import Replica.Proofs.Graph.Members

/-! # A session mirrors what was applied

Where the object graph only grows, the directory knows exactly the members, and each of them mirrors
the assignments that were applied to it. Building an entity makes its objects known and due all at
once; each of their arrivals is replayed on its own.

Main definitions:
* `Work.Faithful` — the directory knows the members, and they mirror what was applied.
* `Work.Faithful.perform` — every apt move keeps work faithful. -/

namespace Replica

namespace Work

variable {p : Protocol} {last : Handle → Offset → Option Assignment} {w w' : Work}

/-- A reference is **due** if one of its arrivals is. -/
def Due (w : Work) (r : Reference) : Prop := ∃ a ∈ w.due, a.reference = r

/-- Work is **faithful** to assignments if the directory knows just the members, whoever waits is a
member, and all members mirror the last assignments, up to what is due. -/
structure Faithful (p : Protocol) (last : Handle → Offset → Option Assignment) (w : Work) :
    Prop where
  /-- The bindings are those of the protocol. -/
  protocol : w.session.protocol = p.locked
  /-- The sides of the waitlist agree. -/
  coherent : w.session.waitlist.Coherent
  /-- The sides of the directory agree. -/
  paired : w.session.directory.Paired
  /-- The members are known, and nothing else. -/
  known : ∀ r, w.session.resolver r = w.session.memberAt? r
  /-- Members have objects of their own. -/
  apart : ∀ s t, w.session.Member s → w.session.Member t → s.object = t.object → s = t
  /-- Only members wait. -/
  waiting : ∀ (t : Subscriber) (k : Offset), (w.session.waitlist.parkedOf t)[k]? ≠ none →
    w.session.Member t
  /-- What was assigned can be written. -/
  writable : ∀ h k a, last h k = some a → a.value.IsWritable
  /-- Only live objects were assigned. -/
  placed : ∀ h k, last h k ≠ none → w.session.world.isAlive h = true
  /-- What is due is known. -/
  due : ∀ a ∈ w.due, w.session.resolver a.reference = some a.object
  /-- Members mirror the last assignments. -/
  mirrors : ∀ t, w.session.Member t →
    Mirrors w.Due w.session.resolver last w.session.world w.session.waitlist t

namespace Faithful

/-- What has received nothing is faithful to no assignments. -/
theorem start (settings : Settings) (p : Protocol) :
    Faithful p (fun _ _ => none) (Session.start settings p).idle where
  protocol := rfl
  coherent := Waitlist.coherent_empty
  paired := Directory.paired_empty
  known r := by
    simp [Session.idle, Session.start, Session.resolver, Session.memberAt?, Channels.get?,
      Channels.empty]
  apart s t member := by
    simp [Session.Member, Session.idle, Session.start, Session.channelId?, Channels.get?,
      Channels.empty] at member
  waiting t k waits := by
    simp [Session.idle, Session.start, Waitlist.parkedOf, Waitlist.empty] at waits
  writable h k a assigned := by cases assigned
  placed h k assigned := absurd rfl assigned
  due a mem := by cases mem
  mirrors t member := by
    simp [Session.Member, Session.idle, Session.start, Session.channelId?, Channels.get?,
      Channels.empty] at member

/-- Members have live objects. -/
theorem isAlive (h : w.Faithful p last) {t : Subscriber} (member : w.session.Member t) :
    w.session.world.isAlive t.object = true := by
  obtain ⟨object, found, -⟩ := h.mirrors t member
  exact World.isAlive_of_object? found

/-- Moves that leave the members, what they wait for and their fields as they are keep work
faithful. -/
theorem still (h : w.Faithful p last) (protocol : w'.session.protocol = w.session.protocol)
    (waitlist : w'.session.waitlist = w.session.waitlist)
    (directory : w'.session.directory = w.session.directory)
    (ids : ∀ e, w'.session.channelId? e = w.session.channelId? e)
    (members : ∀ r, w'.session.memberAt? r = w.session.memberAt? r)
    (due : w'.due = w.due)
    (objects : ∀ k object, w.session.world.object? k = some object →
      ∃ object', w'.session.world.object? k = some object' ∧ object'.fields = object.fields)
    (alive : ∀ k, w.session.world.isAlive k = true → w'.session.world.isAlive k = true) :
    w'.Faithful p last := by
  have member : ∀ t, w'.session.Member t ↔ w.session.Member t := by
    intro t
    rw [Session.Member, Session.Member, ids]
    simp only [members]
  have resolver : w'.session.resolver = w.session.resolver := by
    rw [Session.resolver, Session.resolver, directory]
  have same_due : w'.Due = w.Due := by
    funext r
    rw [Due, Due, due]
  -- Every part of the invariant speaks of members, the waitlist, fields or what is due.
  exact {
    protocol := protocol.trans h.protocol
    coherent := by rw [waitlist]; exact h.coherent
    paired := by rw [directory]; exact h.paired
    known := fun r => by rw [resolver, members]; exact h.known r
    apart := fun s t hs ht => h.apart s t ((member s).mp hs) ((member t).mp ht)
    waiting := fun t k waits => (member t).mpr (h.waiting t k (by rwa [waitlist] at waits))
    writable := h.writable
    placed := fun k f assigned => alive k (h.placed k f assigned)
    due := fun a mem => by rw [resolver]; exact h.due a (due ▸ mem)
    mirrors := by
      intro t ht
      obtain ⟨object, found, shows⟩ := h.mirrors t ((member t).mp ht)
      obtain ⟨object', found', fields⟩ := objects _ object found
      rw [same_due, resolver, waitlist]
      exact ⟨object', found', by rw [fields]; exact shows⟩ }

/-! ## Payloads -/

/-- A payload for a member makes its assignments the last ones. -/
theorem apply (h : w.Faithful p last) {t : Subscriber} (member : w.session.Member t) {role : Role}
    {payload : Bytes} (distinct : ((Update.assignments role payload).map (·.offset)).Nodup)
    {component : ComponentId} {world : World} {l : Waitlist}
    (ok : Update.apply w.session.world w.session.waitlist w.session.resolver t role component
      payload = .ok (world, l)) :
    Faithful p (fun k f =>
        (lastTo (if t.object = k then Update.assignments role payload else []) f).or (last k f))
      { w with session := { w.session with world, waitlist := l } } := by
  have rewrites := Update.rewrites_of_apply ok
  have applied := Update.exists_apply distinct component (h.mirrors t member)
  rw [ok] at applied
  obtain ⟨object, parked, objects, rfl, shows⟩ := applied
  -- Only the object and the entry of `t` have changed, and members have objects of their own.
  exact {
    protocol := h.protocol
    coherent := Waitlist.coherent_store h.coherent t parked
    paired := h.paired
    known := h.known
    apart := h.apart
    waiting := by
      intro u k waits
      rw [Waitlist.parkedOf_store] at waits
      split at waits
      · rename_i same
        rwa [← same]
      · exact h.waiting u k waits
    writable := by
      intro k f a assigned
      rw [Option.or_eq_some_iff] at assigned
      rcases assigned with new | ⟨-, old⟩
      · split at new
        · exact Update.isWritable_of_mem_assignments (mem_of_lastTo new).1
        · cases new
      · exact h.writable k f a old
    placed := by
      intro k f assigned
      have alive : world.isAlive k = w.session.world.isAlive k := rewrites.isAlive k
      rw [show World.isAlive _ k = world.isAlive k from rfl, alive]
      by_cases same : t.object = k
      · rw [← same]
        exact h.isAlive member
      · rw [if_neg same] at assigned
        exact h.placed k f assigned
    due := h.due
    mirrors := by
      intro u hu
      by_cases same : t = u
      · subst u
        refine ⟨object, by rw [objects, if_pos rfl], ?_⟩
        rw [Waitlist.parkedOf_store, if_pos rfl]
        beta_reduce
        rw [if_pos rfl]
        exact shows
      · have elsewhere : t.object ≠ u.object := fun eq => same (h.apart t u member hu eq)
        obtain ⟨other, found, shows'⟩ := h.mirrors u hu
        refine ⟨other, by rw [objects, if_neg elsewhere]; exact found, ?_⟩
        rw [Waitlist.parkedOf_store, if_neg same]
        beta_reduce
        rw [if_neg elsewhere]
        exact shows' }

/-- Assignments that are the same at every field are interchangeable. -/
theorem of_last {last' : Handle → Offset → Option Assignment} (h : w.Faithful p last)
    (same : ∀ k f, last' k f = last k f) : w.Faithful p last' := by
  have eq : last' = last := funext fun k => funext fun f => same k f
  rw [eq]
  exact h

/-- A payload for a member that cannot be applied makes no assignment. -/
theorem applyOr (h : w.Faithful p last) {t : Subscriber} (member : w.session.Member t) {role : Role}
    {payload : Bytes} (distinct : ((Update.assignments role payload).map (·.offset)).Nodup)
    (component : ComponentId) :
    Faithful p (fun k f =>
        (lastTo (if t.object = k then Update.assignments role payload else []) f).or (last k f))
      { w with session :=
        match (Update.apply w.session.world w.session.waitlist w.session.resolver t role component
          payload) with
        | .ok (world, waitlist) => { w.session with world, waitlist }
        | .error _ => w.session } := by
  cases applied : Update.apply w.session.world w.session.waitlist w.session.resolver t role
      component payload with
  | ok result => exact h.apply member distinct applied
  | error error =>
    have none := Update.exists_apply distinct component (h.mirrors t member)
    rw [applied] at none
    refine h.of_last ?_
    intro k f
    rw [show Update.assignments role payload = [] from none, ite_self]
    rfl

/-- A collected component of an open channel is applied. -/
theorem populate (h : w.Faithful p last) {channel : Channel} {data : ComponentData}
    (apt : (Move.populate channel data).Apt (.growing p) w) :
    Faithful p (fun k f =>
        (lastTo (Moment.appliedTo ⟨w.session, .populate channel data⟩ k) f).or (last k f))
      (w.perform (.populate channel data)) := by
  obtain ⟨opened, within⟩ := apt
  simp only [Work.perform, Session.populate, Moment.appliedTo]
  cases bound : w.session.protocol.binding? data.component with
  | none => exact h.of_last fun _ _ => rfl
  | some b =>
    dsimp only
    cases properties : b.role.carriesProperties with
    | false => exact h.of_last fun _ _ => rfl
    | true =>
      cases found : channel.objectAt? b.offset with
      | none => exact h.of_last fun _ _ => rfl
      | some o =>
        have member := Session.member_of_objectAt? opened found
        have bound_p : p.binding? data.component = some b := by
          rw [← bound, h.protocol]
          rfl
        have alive := h.isAlive member
        refine (h.applyOr member (within.nodup bound_p properties)
          data.component).of_last fun k f => ?_
        by_cases same : o = k
        · subst k
          have itself : (channel.subscriber o).object = o := rfl
          rw [if_pos ⟨rfl, rfl, alive⟩, if_pos itself]
        · have other : (channel.subscriber o).object ≠ k := same
          rw [if_neg fun all => same (Option.some.inj all.2.1), if_neg other]

/-- A payload for a built entity is applied. -/
theorem write (h : w.Faithful p last) (tidy : w.session.Tidy (.growing p)) {entity : EntityId}
    {data : ComponentData} (apt : (Move.write entity data).Apt (.growing p) w) :
    Faithful p (fun k f =>
        (lastTo (Moment.appliedTo ⟨w.session, .write entity data⟩ k) f).or (last k f))
      (w.perform (.write entity data)) := by
  obtain ⟨within, properties⟩ := apt
  simp only [Work.perform, Session.write, Moment.appliedTo]
  cases reached : w.session.target entity data.component with
  | error error => exact h.of_last fun _ _ => rfl
  | ok result =>
    obtain ⟨b, t⟩ := result
    obtain ⟨bound, member⟩ := Session.member_of_target tidy reached
    have bound_p : p.binding? data.component = some b := by
      rw [← bound, h.protocol]
      rfl
    exact h.applyOr member (within.nodup bound_p (properties b t reached))
      data.component

/-! ## Arrivals -/

/-- An arrival leaves its reference no longer due. -/
theorem replay (h : w.Faithful p last) {a : Arrival} (due : a ∈ w.due) :
    Faithful p last (w.perform (.replay a)) := by
  obtain ⟨world, events, calls, same, -⟩ := w.session.resolveNow_eq a
  have routine := Session.routine_resolveNow w.session a
  have objects := Session.object?_resolveNow w.session a
  have ids : ∀ e, (w.session.resolveNow a).channelId? e = w.session.channelId? e := by
    intro e
    rw [Session.channelId?, Session.channelId?, routine.channels]
  have members : ∀ r, (w.session.resolveNow a).memberAt? r = w.session.memberAt? r := by
    intro r
    rw [Session.memberAt?, Session.memberAt?, routine.channels]
  have member : ∀ t, (w.session.resolveNow a).Member t ↔ w.session.Member t := by
    intro t
    rw [Session.Member, Session.Member, ids]
    simp only [members]
  have waitlist : (w.session.resolveNow a).waitlist = (Update.resolve w.session.world
      w.session.waitlist w.session.resolver a.reference a.object).waitlist := by rw [same]
  have known := h.due a due
  -- Whoever is found under the reference waits for it in some field, and so is a member.
  have subscribed : ∀ t ∈ w.session.waitlist.subscribersOf a.reference, w.session.Member t := by
    intro t waits
    rw [Waitlist.subscribersOf, Std.ExtTreeSet.mem_toList, h.coherent.index,
      h.coherent.missing] at waits
    obtain ⟨k, o, found, -⟩ := Parked.mem_references.mp waits
    exact h.waiting t k (by simp [found])
  have mirrors := Update.mirrors_resolve known h.writable h.apart h.coherent subscribed h.mirrors
  -- What is due for other references is due still.
  have others : ∀ q, AllBut a.reference w.Due q → (w.perform (.replay a)).Due q := by
    rintro q ⟨⟨b, mem, names⟩, differs⟩
    refine ⟨b, (List.mem_erase_of_ne fun same => differs ?_).mpr mem, names⟩
    rw [← names, same]
  exact {
    protocol := routine.protocol.trans h.protocol
    coherent := by
      show (w.session.resolveNow a).waitlist.Coherent
      rw [waitlist]
      exact Update.coherent_resolve h.coherent _ _ _
    paired := by
      show (w.session.resolveNow a).directory.Paired
      rw [routine.directory]
      exact h.paired
    known := by
      intro r
      show (w.session.resolveNow a).resolver r = (w.session.resolveNow a).memberAt? r
      rw [routine.resolver, members]
      exact h.known r
    apart := fun s t hs ht => h.apart s t ((member s).mp hs) ((member t).mp ht)
    waiting := by
      intro t k waits
      refine (member t).mpr ?_
      have waits' : ((w.session.resolveNow a).waitlist.parkedOf t)[k]? ≠ none := waits
      by_cases served : t ∈ w.session.waitlist.subscribersOf a.reference
      · exact subscribed t served
      · rw [waitlist, Update.parkedOf_resolve_of_not_mem served] at waits'
        exact h.waiting t k waits'
    writable := h.writable
    placed := fun k f assigned => (routine.isAlive k).trans (h.placed k f assigned)
    due := by
      intro b mem
      show (w.session.resolveNow a).resolver b.reference = some b.object
      rw [routine.resolver]
      exact h.due b (List.mem_of_mem_erase mem)
    mirrors := by
      intro t ht
      obtain ⟨object, found, shows⟩ := mirrors t ((member t).mp ht)
      refine ⟨object, (objects t.object).trans found, ?_⟩
      show Shows _ (w.session.resolveNow a).resolver _ _
        ((w.session.resolveNow a).waitlist.parkedOf t)
      rw [routine.resolver, waitlist]
      exact shows.grow others fun _ => .inl rfl }

/-! ## New entities -/

/-- What is known in a tidy session is a live object. -/
theorem isAlive_of_known (h : w.Faithful p last) {scope : Scope} (tidy : w.session.Tidy scope)
    {r : Reference} {k : Handle} (known : w.session.resolver r = some k) :
    w.session.world.isAlive k = true := by
  rw [h.known] at known
  obtain ⟨t, member, rfl⟩ := Session.exists_member tidy known
  exact h.isAlive member

/-- What has no object yet mirrors no assignment. -/
theorem mirrors_of_blank (h : w.Faithful p last) {t : Subscriber}
    (new : w.session.world.isAlive t.object = false) {due : Reference → Prop} {resolve : Resolver}
    {world : World} {object : Object} (found : world.object? t.object = some object)
    (blank : object.fields = ∅) :
    Mirrors due resolve last world w.session.waitlist t := by
  have none : ∀ k, last t.object k = none := by
    intro k
    by_contra assigned
    have alive := h.placed t.object k assigned
    rw [new] at alive
    cases alive
  have parked : ∀ k : Offset, (w.session.waitlist.parkedOf t)[k]? = Option.none := by
    intro k
    by_contra waits
    have alive := h.isAlive (h.waiting t k waits)
    rw [new] at alive
    cases alive
  -- So nothing was assigned to it and nothing waits for it, and its fields are empty as well.
  refine ⟨object, found, ?_⟩
  intro k
  rw [none k, blank]
  exact ⟨by simp, parked k⟩

/-- Nothing of an entity that is not built is known. -/
theorem unknown (h : w.Faithful p last) {r : Reference}
    (unbuilt : w.session.channels.get? r.entity = none) : w.session.resolver r = none := by
  rw [h.known, Session.memberAt?, unbuilt]
  rfl

/-- An object that is not there yet has no name. -/
theorem unnamed (h : w.Faithful p last) {scope : Scope} (tidy : w.session.Tidy scope) {k : Handle}
    (new : w.session.world.isAlive k = false) : w.session.directory.reference? k = none := by
  by_contra named
  obtain ⟨q, named⟩ := Option.ne_none_iff_exists'.mp named
  have alive := h.isAlive_of_known tidy ((h.paired q k).mpr named)
  rw [new] at alive
  cases alive

section Open

variable {s : Session} {channel : Channel}

/-- Once a channel with new objects is open, members still have objects of their own. -/
theorem apart_open (h : w.Faithful p last)
    (new : ∀ o k, channel.objectAt? o = some k → w.session.world.isAlive k = false)
    (member : ∀ t, s.Member t ↔
      (∃ o, channel.objectAt? o = some t.object ∧ t = channel.subscriber t.object) ∨
        w.session.Member t) :
    ∀ t u, s.Member t → s.Member u → t.object = u.object → t = u := by
  have apart : ∀ (t u : Subscriber) (o : Offset), channel.objectAt? o = some t.object →
      w.session.Member u → t.object ≠ u.object := by
    intro t u o found hu same
    have alive := h.isAlive hu
    rw [← same, new o _ found] at alive
    cases alive
  intro t u ht hu same
  rcases (member t).mp ht with ⟨o, found, eq⟩ | before
  · rcases (member u).mp hu with ⟨o', found', eq'⟩ | before'
    · rw [eq, eq', same]
    · exact absurd same (apart t u o found before')
  · rcases (member u).mp hu with ⟨o', found', -⟩ | before'
    · exact absurd same.symm (apart u t o' found' before)
    · exact h.apart t u before before' same

/-- What a new channel makes known is due, so whoever waits for it need not have seen it yet. -/
theorem due_open {d : Directory} (fresh : ∀ x ∈ channel.members,
      w.session.directory.handle? x.1 = none)
    (registered : ∀ q k, d.handle? q = some k ↔
      (q, k) ∈ channel.members ∨ w.session.directory.handle? q = some k) (q : Reference) :
    d.handle? q = w.session.directory.handle? q ∨
      w.session.directory.handle? q = none ∧ ∃ a ∈ channel.arrivals ++ w.due, a.reference = q := by
  rcases Directory.handle?_eq_or_new registered fresh q with same | ⟨none, k, now⟩
  · exact .inl same
  · refine .inr ⟨none, ⟨k, q⟩, List.mem_append_left _ ?_, rfl⟩
    exact List.mem_map.mpr ⟨(q, k), now, rfl⟩

end Open

/-- **A new entity**: its objects become members, and their arrivals are due. -/
theorem opened (h : w.Faithful p last) {scope : Scope} (tidy : w.session.Tidy scope)
    (dense : w.session.world.pool.Dense) {entity : EntityId} {spawn : Spawn} {assembly : Assembly}
    {world : World} {channel : Channel} {channels : Channels}
    (built : w.session.world.instantiate entity spawn = .ok (assembly, world))
    (opened : w.session.channels.open? entity assembly = some (channel, channels))
    (few : world.pool.slots.size < 2 ^ 32) :
    Faithful p last ⟨{ w.session with
        world, channels
        directory := channel.members.foldl (fun d (r, h) => d.register r h) w.session.directory },
      channel.arrivals ++ w.due⟩ := by
  obtain ⟨unbuilt, id, rfl, rfl⟩ := Channels.open?_eq_some opened
  obtain ⟨distinct, new, kept⟩ := World.instantiate_grows dense built few
  have get : ∀ e, channels.get? e =
      if id.entity = e then some (.ofAssembly id assembly) else w.session.channels.get? e :=
    Channels.get?_of_open? opened
  -- The new references belong to an entity that was not built, and the new objects were not alive.
  have fresh : ∀ x ∈ (Channel.ofAssembly id assembly).members,
      w.session.directory.handle? x.1 = none ∧ w.session.directory.reference? x.2 = none := by
    rintro ⟨r, k⟩ mem
    obtain ⟨own, found⟩ := Channel.mem_members_ofAssembly.mp mem
    exact ⟨h.unknown (own ▸ unbuilt),
      h.unnamed tidy (new k (Channel.mem_of_objectAt?_ofAssembly found)).1⟩
  obtain ⟨paired, registered⟩ := h.paired.foldl_register _ Channel.nodup_references_ofAssembly
    (Channel.nodup_handles_ofAssembly distinct) fresh
  generalize named : (Channel.ofAssembly id assembly).members.foldl
    (fun d (r, h) => d.register r h) w.session.directory = directory at paired registered ⊢
  -- The members after the channel was opened are the new ones, with new objects, and the old ones.
  have member := @Session.member_open w.session { w.session with world, channels, directory }
    (.ofAssembly id assembly) unbuilt get
  exact {
    protocol := h.protocol
    coherent := h.coherent
    paired := paired
    known := by
      intro r
      refine Option.ext fun k => (registered r k).trans ?_
      rw [Channel.mem_members_ofAssembly]
      show _ ∨ w.session.resolver r = some k ↔ (channels.get? r.entity).bind _ = some k
      rw [get]
      by_cases own : r.entity = id.entity
      · rw [h.unknown (own ▸ unbuilt), own, if_pos rfl]
        simp
      · rw [if_neg (Ne.symm own), h.known]
        simp [own, Session.memberAt?]
    apart := h.apart_open
      (fun o k found => (new k (Channel.mem_of_objectAt?_ofAssembly found)).1) member
    waiting := fun t k waits => (member t).mpr (.inr (h.waiting t k waits))
    writable := h.writable
    placed := fun k f assigned => (kept k (h.placed k f assigned)).1
    due := fun a mem => (registered _ _).mpr (by
      rcases List.mem_append.mp mem with now | before
      · obtain ⟨⟨r, k⟩, listed, rfl⟩ := List.mem_map.mp now
        exact .inl listed
      · exact .inr (h.due a before))
    mirrors := by
      intro t ht
      rcases (member t).mp ht with ⟨o, found, -⟩ | before
      · obtain ⟨unused, object, here, blank⟩ := new _ (Channel.mem_of_objectAt?_ofAssembly found)
        exact h.mirrors_of_blank unused here blank
      · refine (h.mirrors t before).grow (kept _ (h.isAlive before)).2 ?_
          (due_open (fun x mem => (fresh x mem).1) registered)
        rintro q ⟨a, mem, names⟩
        exact ⟨a, List.mem_append_right _ mem, names⟩ }

/-- The objects of a draft are made. -/
theorem found (h : w.Faithful p last) {scope : Scope} (tidy : w.session.Tidy scope)
    (dense : w.session.world.pool.Dense) {draft : Draft} (apt : (Move.found draft).Apt scope w)
    (few : (w.perform (.found draft)).session.world.pool.slots.size < 2 ^ 32) :
    (w.perform (.found draft)).Faithful p last := by
  simp only [Work.perform] at few ⊢
  split at few
  · rename_i channel s' step
    obtain ⟨spawn, assembly, world, channels, -, built, opened, rfl⟩ :=
      Session.found_eq_some.mp step
    exact h.opened tidy dense built opened few
  · rename_i s' step
    rcases Session.found_eq_none step with rfl | ⟨already, -⟩
    · exact h
    · exact absurd apt.1 already

/-! ## Moves that assign nothing -/

/-- Moves that touch neither the members nor the world keep work faithful. -/
theorem aside (h : w.Faithful p last) (protocol : w'.session.protocol = w.session.protocol)
    (waitlist : w'.session.waitlist = w.session.waitlist)
    (directory : w'.session.directory = w.session.directory)
    (channels : w'.session.channels = w.session.channels)
    (world : w'.session.world = w.session.world) (due : w'.due = w.due) : w'.Faithful p last := by
  refine h.still protocol waitlist directory ?_ ?_ due ?_
    ?_
  · intro e
    rw [Session.channelId?, Session.channelId?, channels]
  · intro r
    rw [Session.memberAt?, Session.memberAt?, channels]
  · intro k o found
    exact ⟨o, by rw [world]; exact found, rfl⟩
  · intro k alive
    rw [world]
    exact alive

/-- The end of a section makes nothing due, because nothing is reported from outside. -/
theorem mark (h : w.Faithful p last) (tidy : w.session.Tidy (.growing p)) (opens : Bool) :
    (w.perform (.mark opens)).Faithful p last := by
  cases opens with
  | true => exact h.aside rfl rfl rfl rfl rfl rfl
  | false =>
    simp only [Work.perform]
    split
    · rename_i burst held yields
      have arrivals : burst.arrivals = [] :=
        List.eq_nil_iff_forall_not_mem.mpr (tidy.burst_of_leave yields).arrivals
      rw [arrivals]
      exact h.aside rfl rfl rfl rfl rfl rfl
    · exact h.aside rfl rfl rfl rfl rfl rfl

/-- The host adds to the world. -/
theorem alter (h : w.Faithful p last) (dense : w.session.world.pool.Dense) {change : WorldChange}
    (apt : (Move.alter change).Apt (.growing p) w)
    (few : (w.perform (.alter change)).session.world.pool.slots.size < 2 ^ 32) :
    (w.perform (.alter change)).Faithful p last := by
  cases change with
  | addClass className parts =>
    exact h.still rfl rfl rfl (fun _ => rfl) (fun _ => rfl) rfl (fun _ o found => ⟨o, found, rfl⟩)
      fun _ alive => alive
  | addStartup path =>
    exact h.still rfl rfl rfl (fun _ => rfl) (fun _ => rfl) rfl (fun _ o found => ⟨o, found, rfl⟩)
      fun _ alive => alive
  | placeLocal className =>
    refine h.still rfl rfl rfl (fun _ => rfl) (fun _ => rfl) rfl ?_ ?_
    · intro k o found
      have alive := World.isAlive_of_object? found
      exact ⟨o, (World.placeLocal_grows dense className few alive).2.trans found, rfl⟩
    · intro k alive
      exact (World.placeLocal_grows dense className few alive).1
  | destroy object => cases apt

/-- The objects of a channel are complete. -/
theorem complete (h : w.Faithful p last) (channel : Channel) :
    (w.perform (.complete channel)).Faithful p last := by
  obtain ⟨pool, objects⟩ := w.session.world.finalize_keeps channel.root
  refine h.still rfl rfl rfl (fun _ => rfl) (fun _ => rfl) rfl (fun _ _ found => objects found)
    fun k alive => ?_
  show (w.session.world.finalize channel.root).pool.isAlive k = true
  rw [pool]
  exact alive

/-- Authority changes. -/
theorem authorize (h : w.Faithful p last) (tidy : w.session.Tidy (.growing p))
    (change : AuthorityChange) : (w.perform (.authorize change)).Faithful p last := by
  obtain ⟨ids, members⟩ := Session.members_changeAuthority tidy change
  obtain ⟨protocol, waitlist, directory, pool, objects⟩ := w.session.changeAuthority_keeps change
  refine h.still protocol waitlist directory ids members rfl (fun k o found => ⟨o, ?_, rfl⟩)
    fun k alive => ?_
  · show (w.session.changeAuthority change).world.object? k = some o
    rw [World.object?, World.isAlive, pool, objects]
    exact found
  · show (w.session.changeAuthority change).world.pool.isAlive k = true
    rw [pool]
    exact alive

/-- A call changes no object. -/
theorem deliver (h : w.Faithful p last) (call : Delivered) :
    (w.perform (.deliver call)).Faithful p last := by
  have routine := w.session.routine_deliverCall call
  obtain ⟨waitlist, objects⟩ := w.session.deliverCall_keeps call
  refine h.still routine.protocol waitlist routine.directory ?_ ?_ rfl
    (fun k o found => ⟨o, (objects k).trans found, rfl⟩) fun k alive =>
      (routine.isAlive k).trans alive
  · intro e
    show (w.session.deliverCall call).channelId? e = _
    rw [Session.channelId?, routine.channels]
    rfl
  · intro r
    show (w.session.deliverCall call).memberAt? r = _
    rw [Session.memberAt?, routine.channels]
    rfl

/-! ## Every move -/

/-- **Every apt move of a growing graph keeps work faithful**, to the assignments that it applies
after those before. -/
theorem perform (h : w.Faithful p last) (tidy : w.session.Tidy (.growing p))
    (dense : w.session.world.pool.Dense) {m : Move} (apt : m.Apt (.growing p) w)
    (few : (w.perform m).session.world.pool.slots.size < 2 ^ 32) :
    Faithful p (fun k f => (lastTo (Moment.appliedTo ⟨w.session, m⟩ k) f).or (last k f))
      (w.perform m) := by
  -- Only payloads assign; after any other move the last assignments are those from before.
  have unassigned (same : ∀ k, Moment.appliedTo ⟨w.session, m⟩ k = [])
      (kept : (w.perform m).Faithful p last) :
      Faithful p (fun k f => (lastTo (Moment.appliedTo ⟨w.session, m⟩ k) f).or (last k f))
        (w.perform m) := kept.of_last fun k f => by rw [same]; rfl
  cases m with
  | mark opens => exact unassigned (fun _ => rfl) (h.mark tidy opens)
  | hold operation => exact unassigned (fun _ => rfl) (h.aside rfl rfl rfl rfl rfl rfl)
  | draft drafts => exact unassigned (fun _ => rfl) (h.aside rfl rfl rfl rfl rfl rfl)
  | settle requests events deliveries =>
    exact unassigned (fun _ => rfl) (h.aside rfl rfl rfl rfl rfl rfl)
  | alter change => exact unassigned (fun _ => rfl) (h.alter dense apt few)
  | learn arrival => cases apt
  | found draft => exact unassigned (fun _ => rfl) (h.found tidy dense apt few)
  | populate channel data => exact h.populate apt
  | complete channel => exact unassigned (fun _ => rfl) (h.complete channel)
  | authorize change => exact unassigned (fun _ => rfl) (h.authorize tidy change)
  | write entity data => exact h.write tidy apt
  | deliver call => exact unassigned (fun _ => rfl) (h.deliver call)
  | replay a => exact unassigned (fun _ => rfl) (h.replay apt)
  | remove entity => cases apt

end Faithful

end Work

end Replica
