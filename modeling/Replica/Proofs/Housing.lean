import Replica.Proofs.Ownership

/-! # Objects and the entities they belong to

An object that was built for an entity stands where the channel of the entity leads: it is the root
of the channel, or a part that this root has. So nothing of an entity is left when the root is
destroyed, and nothing of any other entity goes along.

Main definitions:
* `Channel.handles` — the objects of a channel.
* `Session.Housed` — objects and channels agree about the entities that objects belong to.
* `Session.housed_of_run` — they do after every run. -/

namespace Replica

/-! ## The objects of a channel -/

namespace Channel

/-- The objects of a channel. -/
def handles (c : Channel) : List Handle := c.members.map (·.2)

theorem root_mem_handles (c : Channel) : c.root ∈ c.handles := List.mem_cons_self

/-- The objects of a new channel are those it was made of. -/
theorem mem_of_mem_handles_ofAssembly {id : ChannelId} {a : Assembly} {h : Handle}
    (mem : h ∈ (ofAssembly id a).handles) : h ∈ a.handles := by
  obtain ⟨⟨r, _⟩, listed, rfl⟩ := List.mem_map.mp mem
  exact mem_of_objectAt?_ofAssembly (mem_members_ofAssembly.mp listed).2

end Channel

namespace Session

variable {s s' : Session}

/-- The objects of a session are **housed** if they belong to the entities whose channels lead to
them. -/
structure Housed (s : Session) : Prop where
  /-- The objects of a channel were issued. -/
  known : ∀ {e : EntityId} {c : Channel}, s.channels.get? e = some c → ∀ h ∈ c.handles,
    s.world.pool.Knows h
  /-- They belong to the entity of the channel. -/
  member : ∀ {e : EntityId} {c : Channel}, s.channels.get? e = some c → ∀ h ∈ c.handles,
    ∀ {o : Object}, s.world.objects[h]? = some o → o.entity = some e
  /-- Whatever belongs to an entity is the root of its channel, or a part that this root has. -/
  home : ∀ {h : Handle} {o : Object} {e : EntityId}, s.world.objects[h]? = some o →
    o.entity = some e → ∃ c root, s.channels.get? e = some c ∧
      s.world.objects[c.root]? = some root ∧ (h = c.root ∨ h ∈ root.children)
  /-- Parts were issued, belong to the entity of the object that has them, and have no parts. -/
  part : ∀ {h : Handle} {o : Object}, s.world.objects[h]? = some o → ∀ k ∈ o.children,
    s.world.pool.Knows k ∧ ∀ {p : Object}, s.world.objects[k]? = some p →
      p.entity = o.entity ∧ p.children = []

namespace Housed

/-- Where the world is steady and the channels have the same objects, these stay housed. -/
theorem steady (h : s.Housed) (world : s.world.Steady s'.world)
    (channels : ∀ e, ∃ f : Channel → Channel,
      (∀ c, (f c).root = c.root ∧ (f c).handles = c.handles) ∧
        s'.channels.get? e = (s.channels.get? e).map f) : s'.Housed := by
  have before {e : EntityId} {c' : Channel} (opened : s'.channels.get? e = some c') :
      ∃ c, s.channels.get? e = some c ∧ c.handles = c'.handles := by
    obtain ⟨f, same, get⟩ := channels e
    rw [get] at opened
    obtain ⟨c, here, rfl⟩ := Option.map_eq_some_iff.mp opened
    exact ⟨c, here, (same c).2.symm⟩
  refine ⟨?_, ?_, ?_, ?_⟩
  · intro e c' opened k mem
    obtain ⟨c, here, same⟩ := before opened
    rw [world.pool]
    exact h.known here k (same ▸ mem)
  · intro e c' opened k mem o stored
    obtain ⟨c, here, same⟩ := before opened
    obtain ⟨o', stored, -, owner⟩ := world.before stored
    exact owner.symm.trans (h.member here k (same ▸ mem) stored)
  · intro k o e stored owned
    obtain ⟨o', stored, -, owner⟩ := world.before stored
    obtain ⟨c, root, here, rooted, leads⟩ := h.home stored (owner.trans owned)
    obtain ⟨f, same, get⟩ := channels e
    obtain ⟨root', rooted, parts, -⟩ := world.symm.before rooted
    refine ⟨f c, root', by rw [get, here]; rfl, ?_, ?_⟩
    · rw [(same c).1]
      exact rooted
    · rw [(same c).1, parts]
      exact leads
  · intro k o stored j part
    obtain ⟨o', stored, parts, owner⟩ := world.before stored
    obtain ⟨issued, alike⟩ := h.part stored j (parts ▸ part)
    refine ⟨by rw [world.pool]; exact issued, fun {p} stored => ?_⟩
    obtain ⟨p', stored, parts', owner'⟩ := world.before stored
    obtain ⟨same, none⟩ := alike stored
    exact ⟨owner'.symm.trans (same.trans owner), parts'.symm.trans none⟩

/-- A routine keeps objects housed. -/
theorem routine (h : s.Housed) (r : s.Routine s') : s'.Housed :=
  h.steady r.world fun e => ⟨id, fun _ => ⟨rfl, rfl⟩, by rw [r.channels, Option.map_id]; rfl⟩

/-- Only the world and the channels decide whether objects are housed. -/
theorem congr (h : s.Housed) (world : s'.world = s.world) (channels : s'.channels = s.channels) :
    s'.Housed :=
  h.steady (by rw [world]; exact .refl _) fun e =>
    ⟨id, fun _ => ⟨rfl, rfl⟩, by rw [channels, Option.map_id]; rfl⟩

/-- What is born beside the channels, for no entity and without parts, leaves objects housed. -/
theorem births (h : s.Housed) (exact : s.world.Exact) {w : World} {born : List Handle}
    (births : s.world.Births w born)
    (alone : ∀ k ∈ born, ∀ {o : Object}, w.objects[k]? = some o →
      o.entity = none ∧ o.children = []) : { s with world := w }.Housed := by
  have stays {k : Handle} {o : Object} (stored : s.world.objects[k]? = some o) :
      w.objects[k]? = some o :=
    (births.kept (exact.knows stored)).trans stored
  refine ⟨?_, ?_, ?_, ?_⟩
  · exact fun opened k mem => births.known (h.known opened k mem)
  · intro e c opened k mem o stored
    exact h.member opened k mem ((births.kept (h.known opened k mem)).symm.trans stored)
  · intro k o e stored owned
    by_cases new : k ∈ born
    · rw [(alone k new stored).1] at owned
      cases owned
    · obtain ⟨c, root, here, rooted, leads⟩ :=
        h.home ((births.objects k new).symm.trans stored) owned
      exact ⟨c, root, here, stays rooted, leads⟩
  · intro k o stored j part
    by_cases new : k ∈ born
    · rw [(alone k new stored).2] at part
      cases part
    · obtain ⟨issued, alike⟩ := h.part ((births.objects k new).symm.trans stored) j part
      exact ⟨births.known issued, fun stored => alike ((births.kept issued).symm.trans stored)⟩

/-- The objects of an entity that is built are housed by its channel. -/
theorem found (h : s.Housed) (owned : s.Owned) {draft : Draft} {channel : Channel}
    (step : s.found draft = (some channel, s'))
    (few : s.world.pool.issued + (⟨s, .found draft⟩ : Moment).allocations ≤ 2 ^ 32) :
    s'.Housed := by
  obtain ⟨id, a, rfl, -, founds⟩ := founds_of_found owned.sound step few
  have births := founds.births
  obtain ⟨root, stored_root, parts⟩ := founds.root
  refine ⟨?_, ?_, ?_, ?_⟩
  · intro e c opened k mem
    rcases founds.new_or_before opened with ⟨-, rfl⟩ | ⟨-, before⟩
    · exact births.known_of_mem (Channel.mem_of_mem_handles_ofAssembly mem)
    · exact births.known (h.known before k mem)
  · intro e c opened k mem o stored
    rcases founds.new_or_before opened with ⟨rfl, rfl⟩ | ⟨-, before⟩
    · obtain ⟨o', stored', owner, -⟩ := founds.belong k (Channel.mem_of_mem_handles_ofAssembly mem)
      cases stored.symm.trans stored'
      exact owner
    · exact h.member before k mem ((births.kept (h.known before k mem)).symm.trans stored)
  · intro k o e stored owner
    by_cases new : k ∈ a.handles
    · obtain ⟨o', stored', owner', -⟩ := founds.belong k new
      cases stored.symm.trans stored'
      cases owner.symm.trans owner'
      refine ⟨_, root, founds.here, stored_root, ?_⟩
      rw [parts]
      exact List.mem_cons.mp new
    · obtain ⟨c, root', opened, rooted, leads⟩ :=
        h.home ((births.objects k new).symm.trans stored) owner
      exact ⟨c, root', founds.there opened,
        (births.kept (owned.exact.knows rooted)).trans rooted, leads⟩
  · intro k o stored j part
    by_cases new : k ∈ a.handles
    · obtain ⟨o', stored', owner, partless⟩ := founds.belong k new
      cases stored.symm.trans stored'
      by_cases rooted : k = a.root
      · subst rooted
        cases stored.symm.trans stored_root
        rw [parts] at part
        obtain ⟨p, stored_part, owner', none⟩ := founds.belong j (List.mem_cons_of_mem _ part)
        refine ⟨births.known_of_mem (List.mem_cons_of_mem _ part), fun {p'} stored => ?_⟩
        cases stored.symm.trans stored_part
        refine ⟨owner'.trans owner.symm, none ?_⟩
        rintro rfl
        exact (List.nodup_cons.mp births.nodup).1 part
      · rw [partless rooted] at part
        cases part
    · obtain ⟨issued, alike⟩ := h.part ((births.objects k new).symm.trans stored) j part
      exact ⟨births.known issued, fun stored => alike ((births.kept issued).symm.trans stored)⟩

/-- Destroying an object leaves the others housed, if no channel opens and a channel that closes has
it as its root. -/
theorem destroy (h : s.Housed) (owned : s.Owned) (few : s.world.pool.issued < 2 ^ 32) {k : Handle}
    (world : s'.world = s.world.destroy k)
    (sub : ∀ {e : EntityId} {c : Channel}, s'.channels.get? e = some c →
      s.channels.get? e = some c)
    (kept : ∀ {e : EntityId} {c : Channel}, s.channels.get? e = some c → c.root ≠ k →
      s'.channels.get? e = some c) : s'.Housed := by
  obtain ⟨-, -, knows⟩ := World.pool_destroy owned.sound few k
  have left {j : Handle} {o : Object} : s'.world.objects[j]? = some o ↔
      s.world.objects[j]? = some o ∧ j ≠ k ∧
        ∀ p, s.world.objects[k]? = some p → j ∉ p.children := by
    rw [world]
    exact owned.exact.getElem?_destroy owned.sound few k
  rw [← world] at knows
  refine ⟨?_, ?_, ?_, ?_⟩
  · exact fun opened j mem => (knows j).mpr (h.known (sub opened) j mem)
  · exact fun opened j mem o stored => h.member (sub opened) j mem (left.mp stored).1
  · intro j o e stored owner
    obtain ⟨stored, differs, apart⟩ := left.mp stored
    obtain ⟨c, root, here, rooted, leads⟩ := h.home stored owner
    -- A root that dies takes its parts along, and a root is no part of anything that has parts.
    have other : c.root ≠ k := by
      rintro rfl
      exact leads.elim differs (apart root rooted)
    refine ⟨c, root, kept here other, left.mpr ⟨rooted, other, fun p stored_k part => ?_⟩, leads⟩
    have partless := ((h.part stored_k c.root part).2 rooted).2
    rcases leads with rfl | leads
    · exact apart p stored_k part
    · rw [partless] at leads
      cases leads
  · intro j o stored i part
    obtain ⟨issued, alike⟩ := h.part (left.mp stored).1 i part
    exact ⟨(knows i).mpr issued, fun stored => alike (left.mp stored).1⟩

/-- An entity that is taken down takes its own objects along. -/
theorem remove (h : s.Housed) (owned : s.Owned) (few : s.world.pool.issued < 2 ^ 32)
    (entity : EntityId) : (s.remove entity).Housed := by
  rcases s.remove_cases entity with ⟨-, same⟩ | ⟨-, same⟩ | ⟨channel, here, same⟩
  · rw [same]
    exact h.congr rfl rfl
  · rw [same]
    exact h
  · rw [same]
    exact h.destroy owned few rfl (fun opened => (Channels.get?_of_close opened).2)
      (Channels.get?_close_of_root_ne here)

/-- The session that has received nothing houses nothing. -/
theorem start (settings : Settings) (protocol : Protocol) : (start settings protocol).Housed := by
  have unbuilt (e : EntityId) : (Session.start settings protocol).channels.get? e = none := by
    simp [Session.start, Channels.get?, Channels.empty]
  have empty (h : Handle) : (Session.start settings protocol).world.objects[h]? = none := by
    simp [Session.start, World.initial]
  refine ⟨?_, ?_, ?_, ?_⟩
  · intro e c opened
    cases (unbuilt e).symm.trans opened
  · intro e c opened
    cases (unbuilt e).symm.trans opened
  · intro h o e stored
    cases (empty h).symm.trans stored
  · intro h o stored
    cases (empty h).symm.trans stored

end Housed

end Session

open Session in
/-- **Every apt move keeps objects housed** while there are handles left. -/
theorem Move.Apt.housed {w : Work} {m : Move} (apt : m.Apt .all w)
    (tidy : w.session.Tidy .all) (owned : w.session.Owned) (h : w.session.Housed)
    (few : w.session.world.pool.issued + (⟨w.session, m⟩ : Moment).allocations < 2 ^ 32) :
    (w.perform m).session.Housed := by
  have left : w.session.world.pool.issued < 2 ^ 32 :=
    Nat.lt_of_le_of_lt (Nat.le_add_right _ _) few
  cases m with
  | mark opens =>
    obtain ⟨held, same⟩ := w.exists_perform_mark opens
    rw [same]
    exact h.congr rfl rfl
  | hold _ | draft _ | settle _ _ _ => exact h.congr rfl rfl
  | alter change =>
    cases change with
    | addClass _ _ | addStartup _ => exact ⟨h.known, h.member, h.home, h.part⟩
    | placeLocal className =>
      refine h.births owned.exact (World.births_place owned.sound left
        (o := ⟨none, className, Reference.rootOffset, ∅, true, []⟩) rfl) fun k mem o stored => ?_
      cases List.mem_singleton.mp mem
      cases stored.symm.trans Std.ExtTreeMap.getElem?_insert_self
      exact ⟨rfl, rfl⟩
    | destroy object => exact h.destroy owned left rfl id fun opened _ => opened
  | learn arrival =>
    obtain ⟨held, same⟩ := w.exists_perform_learn arrival
    rw [same]
    exact h.congr rfl rfl
  | found draft =>
    rcases apt.found_cases with ⟨channel, step⟩ | ⟨same, -⟩
    · exact h.found owned step (Nat.le_of_lt few)
    · rw [same]
      exact h
  | populate channel data => exact h.routine (writes_populate channel _ data).routine
  | complete channel =>
    exact h.steady (w.session.world.steady_finalize channel.root) fun e =>
      ⟨id, fun _ => ⟨rfl, rfl⟩, by rw [Option.map_id]; rfl⟩
  | authorize change =>
    refine h.steady (steady_changeAuthority w.session change) fun e => ?_
    rcases get?_changeAuthority_eq tidy change e with same | set
    · exact ⟨id, fun _ => ⟨rfl, rfl⟩, by rw [Option.map_id]; exact same⟩
    · exact ⟨(·.setAuthority change.component change.authority), fun _ => ⟨rfl, rfl⟩, set⟩
  | write entity data => exact h.routine (writes_write _ entity data).routine
  | deliver call => exact h.routine (routine_deliverCall _ call)
  | replay arrival => exact h.routine (routine_resolveNow _ arrival)
  | remove entity => exact h.remove owned left entity

namespace Session

variable {settings : Settings} {protocol : Protocol} {acts : List Act} {s : Session}

/-- **After every run** that issues fewer handles than there are generations, objects are owned and
housed. -/
theorem housed_of_run (ok : (start settings protocol).run acts = .ok s)
    (few : allocations ((start settings protocol).course acts) < 2 ^ 32) :
    s.Owned ∧ s.Housed :=
  (issued_induction (I := fun s => s.Owned ∧ s.Housed)
    (fun _ _ tidy apt _ few both =>
      ⟨apt.owned tidy both.1 few, apt.housed tidy both.1 both.2 few⟩)
    ⟨.start settings protocol, .start settings protocol⟩ (fun a _ => a.within_all) ok few).2

end Session

end Replica
