import Replica.Blueprint
import Replica.Proofs.Answers
import Replica.Proofs.Construction
import Replica.Proofs.Housing

/-! # Taking an entity down

What is known of an entity is kept in many places, each by keys of its own: channels by entity, the
waitlist by channel, the directory by reference, requests by the object that made them, and objects
under the root of the channel. Removing the entity clears all of them, and leaves everything else as
it was.

Main definitions:
* `Moment.misnames` — the host reports an object of an entity under a reference of another.
* `Session.OwnNames` — the objects of an entity go by its own references only.
* `Session.ClearOf` — nothing leads to an entity or to the objects it had.
* `Session.KeepsOthers` — everything else stays.
* `Session.remove_clears` — what a removal comes to after every run. -/

namespace Replica

/-! ## Names of objects -/

/-- Whether the host reports an object of an entity under a reference of another entity. -/
def Moment.misnames (m : Moment) (entity : EntityId) : Bool :=
  match m.move with
  | .learn arrival =>
    arrival.reference.entity != entity &&
      (m.session.channels.get? entity).any (·.handles.contains arrival.object)
  | _ => false

namespace Session

variable {s s' : Session} {entity : EntityId}

/-- The objects of an entity go by its **own names**: no reference of another leads to them. -/
def OwnNames (s : Session) (entity : EntityId) : Prop :=
  ∀ c : Channel, s.channels.get? entity = some c → ∀ (r : Reference) (h : Handle),
    s.directory.handle? r = some h → h ∈ c.handles → r.entity = entity

/-- Names stay own where no more are known and the channel of the entity has the same objects. -/
theorem OwnNames.sub (h : s.OwnNames entity)
    (directory : ∀ {r : Reference} {k : Handle}, s'.directory.handle? r = some k →
      s.directory.handle? r = some k)
    (channels : ∀ {c' : Channel}, s'.channels.get? entity = some c' →
      ∃ c, s.channels.get? entity = some c ∧ c.handles = c'.handles) : s'.OwnNames entity := by
  intro c' opened r k known mem
  obtain ⟨c, here, same⟩ := channels opened
  exact h c here r k (directory known) (same ▸ mem)

/-- A routine keeps names own. -/
theorem OwnNames.routine (h : s.OwnNames entity) (r : s.Routine s') : s'.OwnNames entity :=
  h.sub (fun known => by rwa [← r.directory])
    fun {c} opened => ⟨c, by rwa [← r.channels], rfl⟩

/-- The objects of an entity that is built go by its own names, whatever was known before. -/
theorem OwnNames.found (h : s.OwnNames entity) (owned : s.Owned) (housed : s.Housed)
    (paired : s.directory.Paired) {draft : Draft} {channel : Channel}
    (step : s.found draft = (some channel, s'))
    (few : s.world.pool.issued + (⟨s, .found draft⟩ : Moment).allocations ≤ 2 ^ 32) :
    s'.OwnNames entity := by
  obtain ⟨id, a, rfl, -, founds⟩ := founds_of_found owned.sound step few
  intro c opened r k known mine
  rw [founds.directory] at known
  rcases paired.handle?_of_foldl_register _ known with listed | ⟨before, apart⟩
  · -- A reference that is entered now belongs to the draft, and its object is new.
    have own := (Channel.mem_members_ofAssembly.mp listed).1
    rcases founds.new_or_before opened with ⟨same, -⟩ | ⟨-, there⟩
    · rw [own, ← same]
      exact founds.named
    · have new : k ∈ (Channel.ofAssembly id a).handles := List.mem_map.mpr ⟨(r, k), listed, rfl⟩
      exact absurd (housed.known there k mine)
        (founds.births.fresh k (Channel.mem_of_mem_handles_ofAssembly new))
  · rcases founds.new_or_before opened with ⟨-, rfl⟩ | ⟨-, there⟩
    · exact absurd mine apart
    · exact h c there r k before mine

end Session

open Session in
/-- Every apt move keeps names own, unless the host reports a wrong one. -/
theorem Move.Apt.ownNames {w : Work} {m : Move} {entity : EntityId} (apt : m.Apt .all w)
    (tidy : w.session.Tidy .all) (owned : w.session.Owned) (housed : w.session.Housed)
    (paired : w.session.directory.Paired) (h : w.session.OwnNames entity)
    (few : w.session.world.pool.issued + (⟨w.session, m⟩ : Moment).allocations < 2 ^ 32)
    (named : (⟨w.session, m⟩ : Moment).misnames entity = false) :
    (w.perform m).session.OwnNames entity := by
  cases m with
  | mark opens =>
    obtain ⟨held, same⟩ := w.exists_perform_mark opens
    rw [same]
    exact h.sub id fun {c} opened => ⟨c, opened, rfl⟩
  | hold _ | draft _ | settle _ _ _ | alter _ | complete _ =>
    exact h.sub id fun {c} opened => ⟨c, opened, rfl⟩
  | learn arrival =>
    -- A name is wrong only if the host reports it, and the host misnames nothing of the entity.
    have learnt : ({ w.session with
        directory := w.session.directory.register arrival.reference arrival.object } :
          Session).OwnNames entity := by
      intro c opened r k known mine
      rw [paired.handle?_register] at known
      split at known
      · rename_i same
        cases same
        cases known
        by_contra foreign
        simp [Moment.misnames, opened, mine, foreign] at named
      · split at known
        · cases known
        · exact h c opened r k known mine
    obtain ⟨held, same⟩ := w.exists_perform_learn arrival
    rw [same]
    exact learnt.sub id fun {c} opened => ⟨c, opened, rfl⟩
  | found draft =>
    rcases apt.found_cases with ⟨channel, step⟩ | ⟨same, -⟩
    · exact h.found owned housed paired step (Nat.le_of_lt few)
    · rw [same]
      exact h
  | populate channel data => exact h.routine (writes_populate channel _ data).routine
  | authorize change =>
    refine h.sub (fun known => ?_) fun {c'} opened => ?_
    · rwa [← (w.session.changeAuthority_keeps change).2.2.1]
    · rcases get?_changeAuthority_eq tidy change entity with same | set
      · exact ⟨c', same.symm.trans opened, rfl⟩
      · obtain ⟨c, here, rfl⟩ := Option.map_eq_some_iff.mp (set.symm.trans opened)
        exact ⟨c, here, rfl⟩
  | write entity data => exact h.routine (writes_write _ entity data).routine
  | deliver call => exact h.routine (routine_deliverCall _ call)
  | replay arrival => exact h.routine (routine_resolveNow _ arrival)
  | remove other =>
    rw [Work.perform]
    rcases w.session.remove_cases other with ⟨-, same⟩ | ⟨-, same⟩ | ⟨channel, -, same⟩
    · rw [same]
      exact h.sub id fun {c} opened => ⟨c, opened, rfl⟩
    · rw [same]
      exact h
    · rw [same]
      refine h.sub (fun {r k} known => ?_) fun {c} opened =>
        ⟨c, (Channels.get?_of_close opened).2, rfl⟩
      rw [Directory.handle?_unregisterEntity] at known
      split at known
      · cases known
      · exact known

namespace Session

variable {s s' : Session} {entity : EntityId} {c : Channel}

/-- After every run in which the host reports no object of an entity under a reference of another,
its objects go by its own names. -/
theorem ownNames_of_run {settings : Settings} {protocol : Protocol} {acts : List Act}
    (ok : (start settings protocol).run acts = .ok s)
    (few : allocations ((start settings protocol).course acts) < 2 ^ 32)
    (named : ∀ m ∈ (start settings protocol).course acts, m.misnames entity = false) :
    s.OwnNames entity :=
  (issued_moments_induction
    (I := fun s => (s.Owned ∧ s.Housed) ∧ s.directory.Paired ∧ s.OwnNames entity)
    (fun w m tidy apt _ few named ⟨⟨owned, housed⟩, paired, own⟩ =>
      ⟨⟨apt.owned tidy owned few, apt.housed tidy owned housed few⟩, w.paired_perform paired m,
        apt.ownNames tidy owned housed paired own few named⟩)
    ⟨⟨.start settings protocol, .start settings protocol⟩, Directory.paired_empty,
      fun c opened => by simp [start, Channels.get?, Channels.empty] at opened⟩
    (fun a _ => a.within_all) ok few named).2.2.2

/-! ## What a removal leaves -/

/-- A session is **clear of** an entity that had a channel if nothing leads to the entity or to an
object of the channel. -/
structure ClearOf (s : Session) (entity : EntityId) (c : Channel) : Prop where
  /-- The entity has no channel. -/
  channel : s.channels.get? entity = none
  /-- None of the subscribers of the channel waits. -/
  waits : ∀ t : Subscriber, t.channel = c.id → s.waitlist.parkedOf t = ∅ ∧
    s.waitlist.missingOf t = ∅ ∧ ∀ r, t ∉ s.waitlist.subscribersOf r
  /-- No reference of the entity is known, and none that leads to an object of the channel. -/
  handle : ∀ (r : Reference) (h : Handle), s.directory.handle? r = some h →
    r.entity ≠ entity ∧ h ∉ c.handles
  /-- No object of the channel has a name, and nothing has a name of the entity. -/
  reference : ∀ (r : Reference) (h : Handle), s.directory.reference? h = some r →
    r.entity ≠ entity ∧ h ∉ c.handles
  /-- Nobody waits for an answer on behalf of an object of the channel. -/
  awaiting : ∀ (k : RequestKey) (w : Awaiting), s.awaiting k = some w →
    ∀ h ∈ c.handles, w.owner ≠ some h
  /-- No command of an object of the channel is outstanding. -/
  commands : ∀ (id : RequestId) (command : ReliableCommand),
    s.requests.commands.get? id = some command → command.target ∉ c.handles
  /-- Nothing that is alive belongs to the entity. -/
  objects : ∀ (h : Handle) (o : Object), s.world.object? h = some o → o.entity ≠ some entity
  /-- The objects of the channel are dead. -/
  dead : ∀ h ∈ c.handles, s.world.isAlive h = false

/-- A later session **keeps the others** if whatever leads neither to an entity nor to the objects
of its channel is there as before, and nothing else is. -/
structure KeepsOthers (s s' : Session) (entity : EntityId) (c : Channel) : Prop where
  /-- The drafts are the same. -/
  drafts : s'.drafts = s.drafts
  /-- Other entities have the same channels, with the same authority. -/
  channels : ∀ e, e ≠ entity → s'.channels.get? e = s.channels.get? e
  /-- Other objects are alive as before, with all they hold. -/
  objects : ∀ (h : Handle) (o : Object), o.entity ≠ some entity →
    (s'.world.object? h = some o ↔ s.world.object? h = some o)
  /-- The subscribers of other channels wait as before. -/
  waits : ∀ t : Subscriber, t.channel ≠ c.id →
    s'.waitlist.parkedOf t = s.waitlist.parkedOf t ∧
      s'.waitlist.missingOf t = s.waitlist.missingOf t ∧
      ∀ r, t ∈ s'.waitlist.subscribersOf r ↔ t ∈ s.waitlist.subscribersOf r
  /-- Other references lead where they led. -/
  handle : ∀ r : Reference, r.entity ≠ entity → s'.directory.handle? r = s.directory.handle? r
  /-- Other names are the same. -/
  reference : ∀ (r : Reference) (h : Handle), r.entity ≠ entity →
    (s'.directory.reference? h = some r ↔ s.directory.reference? h = some r)
  /-- Whoever else waits for an answer does as before. -/
  awaiting : ∀ (k : RequestKey) (w : Awaiting), (∀ h ∈ c.handles, w.owner ≠ some h) →
    (s'.awaiting k = some w ↔ s.awaiting k = some w)
  /-- Other commands are outstanding as before. -/
  commands : ∀ (id : RequestId) (command : ReliableCommand), command.target ∉ c.handles →
    (s'.requests.commands.get? id = some command ↔ s.requests.commands.get? id = some command)
  /-- The same calls are parked. -/
  calls : s'.calls = s.calls

/-- Taking down an entity that is built. -/
theorem remove_of_built (tidy : s.Tidy .all) (built : s.channels.get? entity = some c) :
    s.remove entity = { s with
      channels := s.channels.close entity
      waitlist := s.waitlist.removeChannel c.id
      directory := s.directory.unregisterEntity entity
      requests := s.requests.dropOwned c.handles
      world := s.world.destroy c.root
      events := s.events ++ [.entityRemoved entity] } := by
  rcases s.remove_cases entity with ⟨drafted, -⟩ | ⟨absent, -⟩ | ⟨channel, opened, same⟩
  · obtain ⟨draft, found⟩ := Option.isSome_iff_exists.mp
      ((Drafts.contains_eq ..).symm.trans drafted)
    cases built.symm.trans (tidy.drafts entity draft found).2.1
  · cases built.symm.trans absent
  · cases built.symm.trans opened
    exact same

/-- **The objects of an entity** are those that die with the root of its channel. -/
theorem Housed.getElem?_destroy (h : s.Housed) (owned : s.Owned)
    (few : s.world.pool.issued < 2 ^ 32) (built : s.channels.get? entity = some c) {k : Handle}
    {o : Object} : (s.world.destroy c.root).objects[k]? = some o ↔
      s.world.objects[k]? = some o ∧ o.entity ≠ some entity := by
  rw [owned.exact.getElem?_destroy owned.sound few]
  refine and_congr_right fun stored => ⟨?_, fun other => ⟨?_, fun p rooted part => ?_⟩⟩
  · rintro ⟨differs, apart⟩ own
    obtain ⟨c', root, there, rooted, leads⟩ := h.home stored own
    cases built.symm.trans there
    exact leads.elim differs (apart root rooted)
  · rintro rfl
    exact other (h.member built c.root c.root_mem_handles stored)
  · have same := ((h.part rooted k part).2 stored).1
    exact other (same.trans (h.member built c.root c.root_mem_handles rooted))

/-- The objects after a removal are those that do not belong to the entity. -/
theorem object?_remove (tidy : s.Tidy .all) (owned : s.Owned) (housed : s.Housed)
    (few : s.world.pool.issued < 2 ^ 32) (built : s.channels.get? entity = some c) {h : Handle}
    {o : Object} : (s.remove entity).world.object? h = some o ↔
      s.world.object? h = some o ∧ o.entity ≠ some entity := by
  rw [(owned.remove few entity).exact.object?_eq, owned.exact.object?_eq,
    remove_of_built tidy built]
  exact housed.getElem?_destroy owned few built

/-- The objects of the channel are dead then. -/
theorem isAlive_remove (tidy : s.Tidy .all) (owned : s.Owned) (housed : s.Housed)
    (few : s.world.pool.issued < 2 ^ 32) (built : s.channels.get? entity = some c) {h : Handle}
    (mem : h ∈ c.handles) : (s.remove entity).world.isAlive h = false := by
  have kept := owned.remove few entity
  -- An object of the channel that were alive would belong to the entity.
  by_contra alive
  rw [Bool.not_eq_false] at alive
  obtain ⟨o, stored⟩ := Option.isSome_iff_exists.mp
    (Std.ExtTreeMap.mem_iff_isSome_getElem?.mp ((kept.exact h).mpr alive))
  obtain ⟨before, other⟩ := (object?_remove tidy owned housed few built).mp
    ((kept.exact.object?_eq h).trans stored)
  exact other (housed.member built h mem ((owned.exact.object?_eq h).symm.trans before))

/-- Nothing that some objects own waits after their requests were dropped, and the rest waits as
before. -/
theorem get?_table_dropOwned {r : Requests} {objects : List Handle} {kind : RequestKind}
    {id : RequestId} {w : Awaiting} : ((r.dropOwned objects).table kind).get? id = some w ↔
      (r.table kind).get? id = some w ∧ ∀ h ∈ objects, w.owner ≠ some h := by
  rw [Requests.table_dropOwned, RequestTable.get?_dropWhere, Option.filter_eq_some_iff,
    Bool.not_eq_true']
  refine and_congr_right fun _ => ?_
  cases owner : w.owner with
  | none => simp [Awaiting.isOwnedBy, owner]
  | some k =>
    simp only [Awaiting.isOwnedBy, owner, Option.any_some, Bool.eq_false_iff, ne_eq,
      List.contains_iff_mem, Option.some.injEq]
    exact ⟨fun out h mem same => out (same ▸ mem), fun apart mem => apart k mem rfl⟩

/-- No command of the objects is outstanding then, and every other is as before. -/
theorem get?_commands_dropOwned {r : Requests} {objects : List Handle} {id : RequestId}
    {command : ReliableCommand} : (r.dropOwned objects).commands.get? id = some command ↔
      r.commands.get? id = some command ∧ command.target ∉ objects := by
  show (r.commands.dropWhere _).get? id = some command ↔ _
  rw [RequestTable.get?_dropWhere, Option.filter_eq_some_iff, Bool.not_eq_true',
    Bool.eq_false_iff, ne_eq, List.contains_iff_mem]

/-- A removal leaves no trace. -/
theorem clearOf_remove (orderly : s.Orderly) (owned : s.Owned) (housed : s.Housed)
    (few : s.world.pool.issued < 2 ^ 32) (own : s.OwnNames entity)
    (built : s.channels.get? entity = some c) : (s.remove entity).ClearOf entity c := by
  have objects {h : Handle} {o : Object} := object?_remove orderly.tidy owned housed few built
    (h := h) (o := o)
  have dead {h : Handle} (mem : h ∈ c.handles) :=
    isAlive_remove orderly.tidy owned housed few built mem
  rw [remove_of_built orderly.tidy built] at objects dead ⊢
  have names {r : Reference} {h : Handle}
      (known : (s.directory.unregisterEntity entity).handle? r = some h) :
      r.entity ≠ entity ∧ h ∉ c.handles := by
    rw [Directory.handle?_unregisterEntity] at known
    split at known
    · cases known
    · rename_i other
      exact ⟨other, fun mem => other (own c built r h known mem)⟩
  constructor
  case channel => exact (Channels.get?_close _ _ _).trans (if_pos rfl)
  case waits =>
    intro t mine
    have exact := orderly.lists.exact
    refine ⟨?_, ?_, fun r mem => ?_⟩
    · exact (exact.parkedOf_removeChannel c.id t).trans (if_pos mine)
    · exact (exact.missingOf_removeChannel c.id t).trans (if_pos mine)
    · exact ((exact.mem_subscribersOf_removeChannel c.id t r).mp mem).1 mine
  case handle => exact fun r h => names
  case reference =>
    intro r h named
    exact names ((orderly.paired.unregisterEntity entity r h).mpr named)
  case awaiting => exact fun k w waits => (get?_table_dropOwned.mp waits).2
  case commands => exact fun id command sent => (get?_commands_dropOwned.mp sent).2
  case objects => exact fun h o stored => (objects.mp stored).2
  case dead => exact fun h mem => dead mem

/-- A removal touches nobody else. -/
theorem keepsOthers_remove (orderly : s.Orderly) (owned : s.Owned) (housed : s.Housed)
    (few : s.world.pool.issued < 2 ^ 32) (built : s.channels.get? entity = some c) :
    s.KeepsOthers (s.remove entity) entity c := by
  have objects {h : Handle} {o : Object} := object?_remove orderly.tidy owned housed few built
    (h := h) (o := o)
  rw [remove_of_built orderly.tidy built] at objects ⊢
  constructor
  case drafts => rfl
  case channels => exact fun e other => (Channels.get?_close _ _ _).trans (if_neg (Ne.symm other))
  case objects => exact fun h o other => objects.trans (and_iff_left other)
  case waits =>
    intro t other
    have exact := orderly.lists.exact
    refine ⟨?_, ?_, fun r => ?_⟩
    · exact (exact.parkedOf_removeChannel c.id t).trans (if_neg other)
    · exact (exact.missingOf_removeChannel c.id t).trans (if_neg other)
    · exact (exact.mem_subscribersOf_removeChannel c.id t r).trans (and_iff_right other)
  case handle =>
    exact fun r other => (Directory.handle?_unregisterEntity _ _ _).trans (if_neg other)
  case reference =>
    exact fun r h other => (orderly.paired.reference?_unregisterEntity entity).trans
      (and_iff_left other)
  case awaiting => exact fun k w other => get?_table_dropOwned.trans (and_iff_left other)
  case commands => exact fun id command other => get?_commands_dropOwned.trans (and_iff_left other)
  case calls => rfl

/-- **A removal leaves no trace and touches nobody else.** After every run that issues fewer handles
than there are generations, and in which the host reports no object of an entity under a reference
of another, an entity that is built can be removed outside a section. The session that this leaves
is clear of it, and keeps everything else. -/
theorem remove_clears {settings : Settings} {protocol : Protocol} {acts : List Act}
    (ok : (start settings protocol).run acts = .ok s)
    (few : allocations ((start settings protocol).course acts) < 2 ^ 32)
    (built : s.channels.get? entity = some c)
    (named : ∀ m ∈ (start settings protocol).course acts, m.misnames entity = false)
    (shut : s.held.isOpen = false) :
    ∃ s', s.act (.receive (.removeEntity entity)) = .ok s' ∧ s'.ClearOf entity c ∧
      s.KeepsOthers s' entity c := by
  obtain ⟨owned, housed⟩ := housed_of_run ok few
  have orderly := orderly_of_run ok few
  have left : s.world.pool.issued < 2 ^ 32 := by
    rw [(issued_of_run ok few).2]
    exact few
  refine ⟨s.remove entity, ?_,
    clearOf_remove orderly owned housed left (ownNames_of_run ok few named) built,
    keepsOthers_remove orderly owned housed left built⟩
  show Except.ok (s.removeEntity entity) = _
  rw [removeEntity, shut]
  rfl

/-- A character waits for an object, as a crate does. Both have requests outstanding, and the host
knows a further name of the character and one of an object of its own. -/
def sharedWorld : List Act :=
  let waiting (entity : EntityId) (className : String) : List Act :=
    ((Blueprint.ofClass entity className).withFields Stock.rootDataComponent
      [.at 5 (.ref (.root 9))]).operations.map .receive
  let owned (owner : Handle) (token : Int) : Awaiting := ⟨some owner, ⟨token, .callback⟩⟩
  let sent (target : Handle) (entity : EntityId) : ReliableCommand :=
    ⟨target, entity, Stock.commandComponent, 0, .ofPayload 0 [], 1⟩
  waiting 1 "Character" ++ waiting 2 "Crate" ++
    [.alter (.placeLocal "Lever"), .announce ⟨⟨3, 0⟩, .root 7⟩, .announce ⟨⟨1, 0⟩, ⟨1, 8⟩⟩,
      .register (.creation 1 (owned ⟨0, 0⟩ 10)), .register (.query 1 (owned ⟨2, 0⟩ 20)),
      .register (.command 1 (sent ⟨1, 0⟩ 2)), .register (.command 2 (sent ⟨2, 0⟩ 1)),
      .receive (Operation.multicast 2 [⟨0, [.ref (.root 9)]⟩])]

theorem remove_clears_sharedWorld :
    ∃ s c s', (start {} Stock.protocol).run sharedWorld = .ok s ∧ s.channels.get? 1 = some c ∧
      s.act (.receive (.removeEntity 1)) = .ok s' ∧ s'.ClearOf 1 c ∧ s.KeepsOthers s' 1 c ∧
      (s.directory.handle? ⟨1, 8⟩ = some ⟨1, 0⟩ ∧ s'.directory.handle? ⟨1, 8⟩ = none) ∧
      s'.directory.handle? (.root 7) = some ⟨3, 0⟩ ∧
      s'.waitlist.parkedOf ⟨⟨2, 1⟩, ⟨2, 0⟩⟩ ≠ ∅ ∧ s'.world.isAlive ⟨0, 0⟩ = false := by
  obtain ⟨s, ok, test⟩ := exists_run (start {} Stock.protocol) sharedWorld
    (fun s => (s.channels.get? 1).any (fun c => c.id == ⟨1, 0⟩ && c.root == ⟨0, 0⟩) &&
      !s.held.isOpen && s.directory.handle? ⟨1, 8⟩ == some ⟨1, 0⟩ &&
      s.directory.handle? (.root 7) == some ⟨3, 0⟩ &&
      !(s.waitlist.parkedOf ⟨⟨2, 1⟩, ⟨2, 0⟩⟩).isEmpty) (by decide +kernel)
  simp only [Bool.and_eq_true, Bool.not_eq_true', Option.any_eq_true, beq_iff_eq] at test
  obtain ⟨⟨⟨⟨⟨c, built, id, root⟩, shut⟩, further⟩, lever⟩, parked⟩ := test
  have few : allocations ((start {} Stock.protocol).course sharedWorld) < 2 ^ 32 := by
    decide +kernel
  have named : ((start {} Stock.protocol).course sharedWorld).all (!·.misnames 1) = true := by
    decide +kernel
  simp only [List.all_eq_true, Bool.not_eq_true'] at named
  obtain ⟨s', removed, clear, keeps⟩ := remove_clears ok few built named shut
  refine ⟨s, c, s', ok, built, removed, clear, keeps, ⟨further, ?_⟩, ?_, ?_, ?_⟩
  · exact Option.eq_none_iff_forall_ne_some.mpr fun h known => (clear.handle _ h known).1 rfl
  · rw [keeps.handle _ (by decide), lever]
  · rw [(keeps.waits ⟨⟨2, 1⟩, ⟨2, 0⟩⟩ (by rw [id]; decide)).1]
    rintro none
    simp [none] at parked
  · rw [← root]
    exact clear.dead _ c.root_mem_handles

end Session

end Replica
