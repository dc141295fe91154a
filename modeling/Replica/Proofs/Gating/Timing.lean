import Replica.Proofs.Alike
import Replica.Proofs.Gating.Loading
import Replica.Proofs.HandlePool.Rounds
import Replica.Proofs.Section.Unbuildable

/-! # Waiting for a container changes only the time

An entity whose container is not loaded collects what arrives for it, and is built from all of it
once the container is loaded. Had the container been loaded before, the entity would have been built
from what the section brought, and everything later would have been applied to its objects. Both
ways come to the same.

The objects of the entity are new, and wait for nothing that is local; so it makes no difference to
them whether a payload comes before the replays that end the construction or afterwards. All other
objects are changed by these replays alone, which do not look at the objects of the entity.

Main definitions:
* `Operation.Adds`, `Operation.Furnishes` — what adds an entity, and what comes for it later.
* `Session.InService` — a channel whose objects take what comes for them.
* `Session.SameOutcome` — everything that two sessions have to agree on.
* `Session.sameOutcome_construct` — an entity is built before or after the rest comes.
* `Session.waiting_changes_only_time` — a container is loaded before or after. -/

namespace Replica

/-- Loading a container empties the list of those who wait for it, whoever joined it last. -/
theorem Streaming.load_defer (s : Streaming) (c : Container) (entity : EntityId) :
    (s.defer c entity).load c = s.load c := by
  refine congrArg (Streaming.mk (s.loaded.insert c)) (Std.ExtTreeMap.ext_getElem? fun k => ?_)
  simp only [defer, Std.ExtTreeMap.getElem?_erase, Std.ExtTreeMap.getElem?_insert]
  split <;> simp_all

/-! ## Operations on an entity -/

/-- An operation **adds** to a section what an entity is built from: the entity, its components, or
authority over them. -/
def Operation.Adds (entity : EntityId) : Operation → Prop
  | .addEntity e | .addComponent e _ | .authorityChange e _ _ => e = entity
  | _ => False

/-- An operation **furnishes** an entity if it brings properties for one of its components, or
changes authority over them. -/
def Operation.Furnishes (protocol : Protocol) (entity : EntityId) : Operation → Prop
  | .addComponent e data | .componentUpdate e data =>
    e = entity ∧ ∃ b, protocol.binding? data.component = some b ∧ b.role.carriesProperties = true
  | .authorityChange e _ _ => e = entity
  | _ => False

/-- The entities that some operations add, in order. -/
def entitiesAdded (operations : List Operation) : List EntityId :=
  operations.filterMap fun
    | .addEntity entity => some entity
    | _ => none

/-- The changes of authority among some operations, in order. -/
def authorityChanged (operations : List Operation) : List AuthorityChange :=
  operations.filterMap fun
    | .authorityChange entity component authority => some ⟨entity, component, authority⟩
    | _ => none

/-- The components that some operations add or update, in order. -/
def propertiesOf (operations : List Operation) : List ComponentData :=
  operations.filterMap fun
    | .addComponent _ data | .componentUpdate _ data => some data
    | _ => none

/-- A change of authority as an operation. -/
def AuthorityChange.operation (change : AuthorityChange) : Operation :=
  .authorityChange change.entity change.component change.authority

/-- What a section holds back that adds an entity. -/
def addingBurst (entity : EntityId) (body : List Operation) : Burst where
  added := entitiesAdded body
  components := (componentsAdded entity body).map (⟨entity, ·⟩)
  authority := authorityChanged body

/-- What adds an entity is addressed to it. -/
theorem Operation.Adds.addressed {entity : EntityId} {operation : Operation}
    (h : operation.Adds entity) : operation.entity? = some entity := by
  cases operation with
  | addEntity e | addComponent e data | authorityChange e component authority =>
    exact congrArg some (h : e = entity)
  | _ => exact h.elim

/-- So is what furnishes it. -/
theorem Operation.Furnishes.addressed {protocol : Protocol} {entity : EntityId}
    {operation : Operation} (h : operation.Furnishes protocol entity) :
    operation.entity? = some entity := by
  cases operation with
  | addComponent e data | componentUpdate e data => exact congrArg some h.1
  | authorityChange e component authority => exact congrArg some (h : e = entity)
  | _ => exact h.elim

/-- Operations on one entity change authority over its components only. -/
theorem entity_of_mem_authorityChanged {entity : EntityId} {operations : List Operation}
    (own : ∀ operation ∈ operations, operation.entity? = some entity) {change : AuthorityChange}
    (mem : change ∈ authorityChanged operations) : change.entity = entity := by
  obtain ⟨operation, listed, same⟩ := List.mem_filterMap.mp mem
  have addressed := own operation listed
  split at same
  · cases same
    exact Option.some.inj addressed
  · cases same

/-- A draft that has collected the changes of authority among some operations on its entity makes
these changes. -/
theorem Draft.changes_of_collected {draft : Draft} {operations : List Operation}
    (own : ∀ operation ∈ operations, operation.entity? = some draft.entity)
    (collected : draft.authority =
      (authorityChanged operations).map fun change => (change.component, change.authority)) :
    draft.changes = authorityChanged operations := by
  rw [Draft.changes, collected, List.map_map]
  refine (List.map_congr_left fun change mem => ?_).trans (List.map_id _)
  show (⟨draft.entity, change.component, change.authority⟩ : AuthorityChange) = change
  rw [← entity_of_mem_authorityChanged own mem]

namespace Session

variable {s s' s₁ : Session} {entity : EntityId} {channel : Channel}

/-! ## Objects in service -/

/-- A channel is **in service** if no section is open, its entity has a channel of its name with its
objects, and these are alive. -/
structure InService (channel : Channel) (s : Session) : Prop where
  /-- No section is open. -/
  closed : s.held.isOpen = false
  /-- Drafts and channels are in order. -/
  tidy : s.Tidy .all
  /-- The channel is open. -/
  opened : ∃ c, s.channels.get? channel.entity = some c ∧ c.id = channel.id ∧
    c.objectAt? = channel.objectAt?
  /-- Its objects are alive. -/
  alive : ∀ {offset : Offset} {h : Handle}, channel.objectAt? offset = some h →
    s.world.isAlive h = true

/-- Only the name and the objects of a channel matter for what is written. -/
theorem populate_congr {c : Channel} (id : c.id = channel.id)
    (objects : c.objectAt? = channel.objectAt?) (s : Session) (data : ComponentData) :
    populate c s data = populate channel s data := by
  simp only [populate, Channel.subscriber, id, objects]

namespace InService

/-- An entity whose channel is in service has no draft. -/
theorem undrafted (h : s.InService channel) : s.drafts.get? channel.entity = none := by
  obtain ⟨c, opened, -⟩ := h.opened
  by_contra drafted
  obtain ⟨draft, found⟩ := Option.ne_none_iff_exists'.mp drafted
  cases (h.tidy.drafts _ draft found).2.1.symm.trans opened

/-- **Properties for a built entity** are written like those that its draft has collected. -/
theorem applyToLive (h : s.InService channel) {data : ComponentData} {b : Binding}
    (bound : s.protocol.binding? data.component = some b)
    (carries : b.role.carriesProperties = true) :
    s.accept (s.applyToLive channel.entity data.component data.payload) =
      populate channel s data := by
  obtain ⟨c, opened, id, objects⟩ := h.opened
  rw [← populate_congr id objects, accept_applyToLive]
  cases found : c.objectAt? b.offset with
  | none =>
    have missed : s.target channel.entity data.component =
        .error (.noTargetObject channel.entity b.offset) := by
      simp [target, binding, bound, opened, found, bind, Except.bind, throw, throwThe,
        MonadExceptOf.throw]
    simp [missed, populate, bound, carries, found]
  | some k =>
    have reached : s.target channel.entity data.component = .ok (b, c.subscriber k) :=
      target_eq_ok.mpr ⟨c, k, bound, opened, found, h.alive (objects ▸ found), rfl⟩
    have written : s.write channel.entity data = populate c s data := by
      simp only [write, reached, populate, bound, carries, found]
      rfl
    rw [reached]
    dsimp only
    cases role : b.role with
    | spawn | data | handover => exact written
    | multicast | command => simp [role, Role.carriesProperties] at carries

/-- A payload leaves the channel in service. -/
theorem populate (h : s.InService channel) (data : ComponentData) :
    (Session.populate channel s data).InService channel := by
  have routine := (writes_populate channel s data).routine
  exact ⟨by rw [routine.held]; exact h.closed, h.tidy.routine routine,
    by rw [routine.channels]; exact h.opened,
    fun found => (routine.isAlive _).trans (h.alive found)⟩

/-- So does a change of authority. -/
theorem changeAuthority (h : s.InService channel) (change : AuthorityChange) :
    (s.changeAuthority change).InService channel := by
  obtain ⟨c, opened, id, objects⟩ := h.opened
  obtain ⟨-, -, -, pool, -⟩ := s.changeAuthority_keeps change
  obtain ⟨f, same, get⟩ := get?_changeAuthority h.tidy change channel.entity
  refine ⟨?_, h.tidy.changeAuthority change,
    ⟨f c, by rw [get, opened]; rfl, (same c).1.trans id, (same c).2.trans objects⟩,
    fun found => ?_⟩
  · rw [held_changeAuthority]
    exact h.closed
  · rw [World.isAlive, pool]
    exact h.alive found

end InService

/-- A change of authority leaves every object alike. -/
theorem AlikeAt.changeAuthority (t : Subscriber) (s : Session) (change : AuthorityChange) :
    AlikeAt t s (s.changeAuthority change) := by
  obtain ⟨protocol, -, directory, -, -⟩ := s.changeAuthority_keeps change
  exact ⟨untouched_authorities [change], protocol, congrArg Directory.handle? directory⟩

/-- **What comes for a built entity** changes authority and, up to that, makes of every object what
the payloads alone make of it. -/
theorem InService.run_furnishing (h : s.InService channel) {operations : List Operation}
    (furnish : ∀ operation ∈ operations, operation.Furnishes s.protocol channel.entity) :
    ∃ s', s.run (operations.map .receive) = .ok s' ∧
      s'.channels = ((authorityChanged operations).foldl Session.changeAuthority s).channels ∧
      SameCalls s s' ∧
      ∀ t, AlikeAt t ((propertiesOf operations).foldl (Session.populate channel) s) s' := by
  induction operations generalizing s with
  | nil => exact ⟨s, rfl, rfl, .refl s, fun t => .refl t s⟩
  | cons operation rest ih =>
    have here := furnish operation List.mem_cons_self
    have later := fun o mem => furnish o (List.mem_cons_of_mem _ mem)
    -- A component that is added and one that is updated are written in the same way.
    have written {data : ComponentData}
        (step : s.act (.receive operation) = .ok (Session.populate channel s data)) :
        ∃ s', s.run ((operation :: rest).map .receive) = .ok s' ∧
          s'.channels = ((authorityChanged rest).foldl Session.changeAuthority s).channels ∧
          SameCalls s s' ∧
          ∀ t, AlikeAt t ((propertiesOf rest).foldl (Session.populate channel)
            (Session.populate channel s data)) s' := by
      have routine := (writes_populate channel s data).routine
      obtain ⟨s', ran, channels, calls, alike⟩ := ih (h.populate data) fun o mem => by
        rw [routine.protocol]
        exact later o mem
      exact ⟨s', run_cons.mpr ⟨_, step, ran⟩,
        channels.trans (channels_foldl_changeAuthority _ routine.channels),
        (SameCalls.populates channel [data] s).trans calls, alike⟩
    cases operation with
    | addComponent e data =>
      obtain ⟨rfl, b, bound, carries⟩ := here
      refine written (congrArg Except.ok ?_)
      exact (addAll_undrafted h.closed h.undrafted [data]).trans (h.applyToLive bound carries)
    | componentUpdate e data =>
      obtain ⟨rfl, b, bound, carries⟩ := here
      refine written (congrArg Except.ok ?_)
      exact (updateAll_undrafted h.undrafted [data]).trans (h.applyToLive bound carries)
    | authorityChange e component authority =>
      cases (here : e = channel.entity)
      let change : AuthorityChange := ⟨channel.entity, component, authority⟩
      have step : s.act (.receive (.authorityChange channel.entity component authority)) =
          .ok (s.changeAuthority change) :=
        congrArg Except.ok (if_neg (by rw [h.closed]; decide))
      obtain ⟨s', ran, channels, calls, alike⟩ := ih (h.changeAuthority change) fun o mem => by
        rw [(s.changeAuthority_keeps change).1]
        exact later o mem
      exact ⟨s', run_cons.mpr ⟨_, step, ran⟩, channels,
        (SameCalls.authorities [change] s).trans calls,
        fun t => ((AlikeAt.changeAuthority t s change).populates channel _).trans (alike t)⟩
    | _ => exact here.elim

/-! ## Drafts that wait -/

/-- **What comes for a draft that waits** is collected in order. -/
theorem run_collecting (closed : s.held.isOpen = false) (unbuilt : s.channels.get? entity = none)
    {draft : Draft} {c : Container} (found : s.drafts.get? entity = some draft)
    (waits : draft.stage = .waiting c) {operations : List Operation}
    (furnish : ∀ operation ∈ operations, operation.Furnishes s.protocol entity) :
    ∃ drafts, s.run (operations.map .receive) = .ok { s with drafts } ∧
      drafts.streaming = s.drafts.streaming ∧
      ∀ k, drafts.get? k = if entity = k then some { draft with
          components := draft.components ++ propertiesOf operations
          authority := draft.authority ++
            (authorityChanged operations).map fun change => (change.component, change.authority) }
        else s.drafts.get? k := by
  induction operations generalizing s draft with
  | nil =>
    refine ⟨s.drafts, rfl, rfl, fun k => ?_⟩
    simp only [propertiesOf, authorityChanged, List.filterMap_nil, List.map_nil, List.append_nil]
    split
    · rename_i own
      exact own ▸ found
    · rfl
  | cons operation rest ih =>
    have here := furnish operation List.mem_cons_self
    have later := fun o mem => furnish o (List.mem_cons_of_mem _ mem)
    -- Components that are added and updated are collected in the same way.
    have gathered {data : ComponentData}
        (step : s.act (.receive operation) = .ok (s.gather entity [data])) :
        ∃ drafts, s.run ((operation :: rest).map .receive) = .ok { s with drafts } ∧
          drafts.streaming = s.drafts.streaming ∧
          ∀ k, drafts.get? k = if entity = k then some { draft with
              components := draft.components ++ (data :: propertiesOf rest)
              authority := draft.authority ++
                (authorityChanged rest).map fun change => (change.component, change.authority) }
            else s.drafts.get? k := by
      obtain ⟨drafts, ran, streaming, get⟩ := ih (s := s.gather entity [data]) closed unbuilt
        (get?_gather found [data]) waits later
      refine ⟨drafts, run_cons.mpr ⟨_, step, ran⟩,
        streaming.trans (Drafts.streaming_modify _ _ _), fun k => ?_⟩
      rw [get, gather, Drafts.get?_modify]
      split
      · rw [List.append_assoc]
        rfl
      · rfl
    cases operation with
    | addComponent e data =>
      obtain ⟨rfl, -⟩ := here
      exact gathered (congrArg Except.ok (addAll_waiting closed found waits [data]))
    | componentUpdate e data =>
      obtain ⟨rfl, b, bound, carries⟩ := here
      refine gathered (congrArg Except.ok ?_)
      simp [Session.update, tryUpdate, Drafts.contains_eq, found, binding, bound, carries, accept,
        bind, Except.bind, pure, Except.pure]
      rfl
    | authorityChange e component authority =>
      cases (here : e = entity)
      have step : s.act (.receive (.authorityChange entity component authority)) =
          .ok { s with drafts := s.drafts.addAuthority entity component authority } := by
        refine congrArg Except.ok ?_
        simp [authorityChange, closed, changeAuthority, unbuilt]
      have added : (s.drafts.addAuthority entity component authority).get? entity =
          some { draft with authority := draft.authority ++ [(component, authority)] } := by
        rw [Drafts.get?_addAuthority, if_pos rfl, found]
        rfl
      obtain ⟨drafts, ran, streaming, get⟩ := ih
        (s := { s with drafts := s.drafts.addAuthority entity component authority }) closed unbuilt
        added waits later
      refine ⟨drafts, run_cons.mpr ⟨_, step, ran⟩,
        streaming.trans (Drafts.streaming_modify _ _ _), fun k => ?_⟩
      rw [get, Drafts.get?_addAuthority]
      split
      · rw [List.append_assoc]
        rfl
      · rfl
    | _ => exact here.elim

/-! ## Before and after the construction -/

/-- Two sessions have **the same outcome** if they have the same channels, with the same authority,
the same fields in all objects and the same parked positions; the same is known by name and alive,
and the same invocations are parked and have been executed. -/
structure SameOutcome (s s' : Session) : Prop extends SameCalls s s' where
  /-- The channels are the same. -/
  channels : s'.channels = s.channels
  /-- The objects have the same fields. -/
  fields : ∀ h, s'.fields? h = s.fields? h
  /-- Everybody waits for the same. -/
  parked : ∀ t, s'.waitlist.parkedOf t = s.waitlist.parkedOf t

/-- The completion of objects leaves every object alike. -/
theorem AlikeAt.complete (t : Subscriber) (s : Session) (channel : Channel) :
    AlikeAt t s (s.complete channel) := ⟨untouched_complete s channel, rfl, rfl⟩

/-- So do changes of authority. -/
theorem AlikeAt.authorities (t : Subscriber) (changes : List AuthorityChange) (s : Session) :
    AlikeAt t s (changes.foldl Session.changeAuthority s) := by
  induction changes generalizing s with
  | nil => exact .refl t s
  | cons change rest ih => exact (AlikeAt.changeAuthority t s change).trans (ih _)

/-- An entity that was just built is in service. -/
theorem inService_construct (closed : s.held.isOpen = false) (h : s.Orderly) {draft : Draft}
    (undrafted : s.drafts.get? draft.entity = none) (unbuilt : s.channels.get? draft.entity = none)
    (few : s.world.pool.issued + (⟨s, .found draft⟩ : Moment).allocations ≤ 2 ^ 32)
    (step : s.found draft = (some channel, s₁)) : (s.construct draft).InService channel := by
  refine ⟨by rw [held_construct]; exact closed,
    (carries_construct [] unbuilt undrafted fun _ _ => trivial).tidy h.tidy, ?_, fun found => ?_⟩
  · rw [(found_channels step).1]
    exact exists_channel_construct h.tidy undrafted step
  · obtain ⟨id, a, rfl, -, founds⟩ := founds_of_found h.issued.sound step few
    rw [World.isAlive, (steady_furnish step).pool]
    exact (founds.births.alive _).mpr (.inl (Channel.mem_of_objectAt?_ofAssembly found))

/-- The session in which new objects have their payloads and authority, and nobody has been told of
them yet. -/
def equipped (channel : Channel) (s₁ : Session) (draft : Draft) : Session :=
  draft.changes.foldl Session.changeAuthority
    ((draft.components.foldl (Session.populate channel) s₁).complete channel)

/-- The construction ends with telling those of the new objects who wait for them. -/
theorem construct_of_found {draft : Draft} (step : s.found draft = (some channel, s₁)) :
    s.construct draft = channel.arrivals.foldl resolveNow (equipped channel s₁ draft) := by
  rw [construct_eq, step]
  rfl

/-- The new objects wait for nothing that is local, whatever their payloads are. -/
theorem Settled.equipped (settled : s₁.Settled channel) (draft : Draft) :
    (equipped channel s₁ draft).Settled channel :=
  ((settled.populates draft.components channel.root).1.complete channel).authorized _

/-- Up to authority, payloads are all that the new objects get. -/
theorem AlikeAt.equipped (t : Subscriber) (s₁ : Session) (draft : Draft) :
    AlikeAt t (draft.components.foldl (Session.populate channel) s₁)
      (Session.equipped channel s₁ draft) :=
  (AlikeAt.complete t _ channel).trans (.authorities t _ _)

/-- **The new objects** are what the payloads make of them: nothing that they wait for is
replayed. -/
theorem alike_own {draft : Draft} (settled : s₁.Settled channel)
    (step : s.found draft = (some channel, s₁)) {t : Subscriber}
    (mine : t.object ∈ channel.members.map (·.2)) :
    AlikeAt t (draft.components.foldl (populate channel) s₁) (s.construct draft) := by
  rw [construct_of_found step]
  exact (AlikeAt.equipped t s₁ draft).trans
    ((settled.equipped draft).alike_replays (fun _ mem => mem) mine)

/-- **All other objects** are left by the payloads, and the replays find them alike. -/
theorem alike_others {draft draft' : Draft} (settled : s₁.Settled channel)
    (step : s.found draft = (some channel, s₁)) (step' : s.found draft' = (some channel, s₁))
    {t : Subscriber} (alone : s.Alone t) (other : t.object ∉ channel.members.map (·.2)) :
    AlikeAt t (s.construct draft) (s.construct draft') := by
  have apart : ∀ offset, channel.objectAt? offset ≠ some t.object := fun offset found =>
    other (mem_members_of_found step found)
  have left (d : Draft) : AlikeAt t s₁ (equipped channel s₁ d) :=
    .trans (.of_populates apart d.components s₁) (.equipped t s₁ d)
  have alone' : (equipped channel s₁ draft).Alone t := by
    obtain ⟨_, _, _, _, -, -, -, rfl⟩ := found_eq_some.mp step
    exact fun t' same differs => ((left draft).parked t' same).trans (alone t' same differs)
  rw [construct_of_found step, construct_of_found step']
  exact ((left draft).symm.trans (left draft')).replays (settled.equipped draft).coherent
    (settled.equipped draft').coherent alone' channel.arrivals

/-- Which invocations are executed does not depend on the payloads. -/
theorem sameCalls_construct {draft draft' : Draft} (step : s.found draft = (some channel, s₁))
    (step' : s.found draft' = (some channel, s₁)) :
    SameCalls (s.construct draft) (s.construct draft') := by
  have left (d : Draft) : SameCalls s₁ (equipped channel s₁ d) :=
    ((SameCalls.populates channel _ s₁).trans (.complete _ channel)).trans (.authorities _ _)
  rw [construct_of_found step, construct_of_found step']
  exact ((left draft).symm.trans (left draft')).replays channel.arrivals

/-- **It makes no difference whether an entity is built before or after the rest comes** for it. -/
theorem sameOutcome_construct (closed : s.held.isOpen = false) (h : s.Orderly) (owned : s.Owned)
    {draft : Draft} (fresh : draft.authority = [])
    (undrafted : s.drafts.get? draft.entity = none) (unbuilt : s.channels.get? draft.entity = none)
    (few : s.world.pool.issued + (⟨s, .found draft⟩ : Moment).allocations ≤ 2 ^ 32)
    (step : s.found draft = (some channel, s₁)) {operations : List Operation}
    (furnish : ∀ operation ∈ operations, operation.Furnishes s.protocol draft.entity) :
    ∃ s', (s.construct draft).run (operations.map .receive) = .ok s' ∧
      SameOutcome s' (s.construct { draft with
        components := draft.components ++ propertiesOf operations
        authority := (authorityChanged operations).map
          fun change => (change.component, change.authority) }) := by
  have service := inService_construct closed h undrafted unbuilt few step
  have sameProtocol : (s.construct draft).protocol = s.protocol := by
    refine (resolver_construct step).1.trans ?_
    obtain ⟨_, _, _, _, -, -, -, rfl⟩ := found_eq_some.mp step
    rfl
  obtain ⟨s', ran, channels, calls, alike⟩ := service.run_furnishing
    (fun o (mem : o ∈ operations) => by
      rw [sameProtocol, (found_channels step).1]
      exact furnish o mem)
  refine ⟨s', ran, ?_⟩
  let more : Draft := { draft with
    components := draft.components ++ propertiesOf operations
    authority :=
      (authorityChanged operations).map fun change => (change.component, change.authority) }
  have step' : s.found more = (some channel, s₁) := (found_congr s rfl rfl).trans step
  have settled : s₁.Settled channel := Settled.found h step few
  have everywhere (k : Handle) :
      ∃ t : Subscriber, t.object = k ∧ AlikeAt t s' (s.construct more) := by
    obtain ⟨t, rfl, alone⟩ := exists_alone owned h.lists k
    refine ⟨t, rfl, ?_⟩
    by_cases mine : t.object ∈ channel.members.map (·.2)
    · -- All payloads are written one after the other, with the replays in between or afterwards.
      have all : AlikeAt t (more.components.foldl (Session.populate channel) s₁) s' := by
        rw [List.foldl_append]
        exact ((alike_own settled step mine).populates channel _).trans (alike t)
      exact all.symm.trans (alike_own settled step' mine)
    · have apart : ∀ offset, channel.objectAt? offset ≠ some t.object := fun offset found =>
        mine (mem_members_of_found step found)
      have left : AlikeAt t (s.construct draft) s' := .trans (.of_populates apart _ _) (alike t)
      exact left.symm.trans (alike_others settled step step' alone mine)
  refine ⟨calls.symm.trans (sameCalls_construct step step'), ?_, fun k => ?_, fun t => ?_⟩
  · have opened : (s.construct draft).channels = s₁.channels := by
      rw [channels_construct step, Draft.changes, fresh]
      rfl
    have changes : more.changes = authorityChanged operations :=
      Draft.changes_of_collected (fun o mem => (furnish o mem).addressed) rfl
    refine (channels_construct step').trans ?_
    rw [changes, channels, channels_foldl_changeAuthority _ opened]
  · obtain ⟨t, rfl, alike⟩ := everywhere k
    exact alike.fields
  · obtain ⟨t', same, alike⟩ := everywhere t.object
    exact alike.parked t same.symm

/-! ## The section that adds the entity -/

/-- Inside a section everything is held back that adds the entity. -/
theorem run_adding (s : Session) {body : List Operation}
    (adds : ∀ operation ∈ body, operation.Adds entity) :
    (s.holding ⟨1, {}⟩).run (body.map .receive) =
      .ok (s.holding ⟨1, addingBurst entity body⟩) := by
  suffices along : ∀ b : Burst, (s.holding ⟨1, b⟩).run (body.map .receive) =
      .ok (s.holding ⟨1, { b with
        added := b.added ++ entitiesAdded body
        components := b.components ++ (componentsAdded entity body).map (⟨entity, ·⟩)
        authority := b.authority ++ authorityChanged body }⟩) from along {}
  induction body with
  | nil => exact fun b => by simp [entitiesAdded, componentsAdded, authorityChanged, run]; rfl
  | cons operation rest ih =>
    intro b
    have later := ih fun o mem => adds o (List.mem_cons_of_mem _ mem)
    have here := adds operation List.mem_cons_self
    cases operation with
    | addEntity e =>
      refine run_cons.mpr ⟨s.holding ⟨1, b.addEntity e⟩, rfl, (later _).trans ?_⟩
      simp [Burst.addEntity, entitiesAdded, componentsAdded, authorityChanged]
    | addComponent e data =>
      cases (here : e = entity)
      refine run_cons.mpr ⟨s.holding ⟨1, b.addComponent ⟨entity, data⟩⟩, rfl, (later _).trans ?_⟩
      simp [Burst.addComponent, entitiesAdded, componentsAdded, authorityChanged]
    | authorityChange e component authority =>
      refine run_cons.mpr
        ⟨s.holding ⟨1, b.changeAuthority ⟨e, component, authority⟩⟩, rfl, (later _).trans ?_⟩
      simp [Burst.changeAuthority, entitiesAdded, componentsAdded, authorityChanged]
    | _ => exact here.elim

/-- An entity that is added again has its draft already. -/
theorem foldl_begin_own (unbuilt : s.channels.get? entity = none) {es : List EntityId}
    (own : ∀ e ∈ es, e = entity) (added : es ≠ []) :
    es.foldl begin (s, []) = ({ s with drafts := s.drafts.begin entity }, [entity]) := by
  have again : (s.drafts.begin entity).begin entity = s.drafts.begin entity := by
    have there : (s.drafts.begin entity).contains entity = true := by
      simp [Drafts.contains_eq]
    rw [Drafts.begin, if_pos there]
  have first : begin (s, []) entity = ({ s with drafts := s.drafts.begin entity }, [entity]) := by
    simp [begin, Channels.contains_eq, unbuilt, touch]
  have later : begin ({ s with drafts := s.drafts.begin entity }, [entity]) entity =
      ({ s with drafts := s.drafts.begin entity }, [entity]) := by
    simp [begin, Channels.contains_eq, unbuilt, touch, again]
  have stays : ∀ es : List EntityId, (∀ e ∈ es, e = entity) →
      es.foldl begin ({ s with drafts := s.drafts.begin entity }, [entity]) =
        ({ s with drafts := s.drafts.begin entity }, [entity]) := by
    intro es
    induction es with
    | nil => exact fun _ => rfl
    | cons e rest ih =>
      intro own
      cases own e List.mem_cons_self
      rw [List.foldl_cons, later]
      exact ih fun e mem => own e (List.mem_cons_of_mem _ mem)
  cases es with
  | nil => exact absurd rfl added
  | cons e rest =>
    cases own e List.mem_cons_self
    rw [List.foldl_cons, first]
    exact stays rest fun e mem => own e (List.mem_cons_of_mem _ mem)

/-- The session in which the draft of an entity has just collected some components. -/
def drafting (s : Session) (entity : EntityId) (components : List ComponentData) : Session :=
  ({ s with drafts := s.drafts.begin entity } : Session).gather entity components

theorem get?_drafting (undrafted : s.drafts.get? entity = none) (components : List ComponentData) :
    (s.drafting entity components).drafts.get? entity = some { entity, components } := by
  have begun : (s.drafts.begin entity).get? entity = some { entity } := by
    rw [Drafts.get?_begin, if_pos rfl, undrafted]
    rfl
  exact get?_gather (s := { s with drafts := s.drafts.begin entity }) begun components

theorem get?_drafting_of_ne {k : EntityId} (other : entity ≠ k) (components : List ComponentData) :
    (s.drafting entity components).drafts.get? k = s.drafts.get? k := by
  show ((s.drafts.begin entity).modify entity _).get? k = _
  rw [Drafts.get?_modify, if_neg other, Drafts.get?_begin, if_neg other]

theorem streaming_drafting (s : Session) (entity : EntityId) (components : List ComponentData) :
    (s.drafting entity components).drafts.streaming = s.drafts.streaming :=
  (Drafts.streaming_modify _ _ _).trans (Drafts.streaming_begin _ _)

/-- The components of the burst are collected by the draft that it begins. -/
theorem routed_adding (unbuilt : s.channels.get? entity = none) {body : List Operation}
    (adds : ∀ operation ∈ body, operation.Adds entity) (added : .addEntity entity ∈ body) :
    (addingBurst entity body).components.foldl route
        ((addingBurst entity body).added.foldl begin (s, [])) =
      (s.drafting entity (componentsAdded entity body), [entity]) := by
  have own : ∀ e ∈ entitiesAdded body, e = entity := by
    intro e mem
    obtain ⟨operation, listed, same⟩ := List.mem_filterMap.mp mem
    have here := adds operation listed
    split at same
    · cases same
      exact here
    · cases same
  have listed : entity ∈ entitiesAdded body := List.mem_filterMap.mpr ⟨_, added, rfl⟩
  obtain ⟨draft, found⟩ : ∃ draft, (s.drafts.begin entity).get? entity = some draft :=
    ⟨_, (Drafts.get?_begin _ _ _).trans (if_pos rfl)⟩
  rw [addingBurst, foldl_begin_own unbuilt own (List.ne_nil_of_mem listed)]
  exact foldl_route_drafted (s := { s with drafts := s.drafts.begin entity }) found _

/-- **The burst that adds an entity** takes its draft further, and changes authority then. -/
theorem drain_adding (unbuilt : s.channels.get? entity = none) {body : List Operation}
    (adds : ∀ operation ∈ body, operation.Adds entity) (added : .addEntity entity ∈ body) :
    s.drain (addingBurst entity body) = (authorityChanged body).foldl changeAuthority
      ((s.drafting entity (componentsAdded entity body)).advance entity) := by
  have routed := routed_adding unbuilt adds added
  have kept : (addingBurst entity body).removed.foldl remove s = s := rfl
  simp only [drain, kept, routed]
  rfl

/-- The draft that has collected some components is of no account for the drafts of others. -/
theorem without_drafting (undrafted : s.drafts.get? entity = none)
    (components : List ComponentData) :
    (s.drafting entity components).drafts.without entity = s.drafts := by
  show ((s.drafts.begin entity).modify entity _).without entity = s.drafts
  rw [Drafts.without_modify, Drafts.without_begin, Drafts.without_of_undrafted undrafted]

/-- A draft that has collected spawn data which lets it wait for nothing is built. -/
theorem builds_drafting (undrafted : s.drafts.get? entity = none) {components : List ComponentData}
    {spawn : Spawn} (read : World.readSpawn entity components = .ok spawn)
    (free : s.drafts.stageFor spawn = .ready) :
    (s.drafting entity components).Builds entity
      { entity, components, spawn := some spawn, stage := .ready } := by
  refine .spawned (get?_drafting undrafted components) rfl read ?_
  rw [Drafts.stageFor, streaming_drafting]
  exact free

/-! ## Loading the container -/

/-- Where nobody waits, loading a container leaves every draft as it is. -/
theorem get?_load_of_nobody (gated : s.drafts.Gated []) {c : Container}
    (nobody : s.drafts.streaming.waitingOn c = []) (k : EntityId) :
    (s.drafts.load c).2.get? k = s.drafts.get? k := by
  rw [gated.get?_load, nobody, if_neg List.not_mem_nil]

/-- Nor does it change anything else. -/
theorem load_of_nobody (gated : s.drafts.Gated []) {c : Container}
    (nobody : s.drafts.streaming.waitingOn c = []) :
    s.load c = { s with drafts := (s.drafts.load c).2 } := by
  rw [load_eq gated, nobody]
  rfl

/-- **Loading the container** for which one entity has begun to wait builds it from all that its
draft has collected, as if nothing had happened in between. -/
theorem load_of_deferred (gated : s.drafts.Gated []) (undrafted : s.drafts.get? entity = none)
    {c : Container} (nobody : s.drafts.streaming.waitingOn c = []) {drafts : Drafts} {draft : Draft}
    (gated' : drafts.Gated []) (streaming : drafts.streaming = s.drafts.streaming.defer c entity)
    (get : ∀ k, drafts.get? k = if entity = k then some draft else s.drafts.get? k) :
    ({ s with drafts } : Session).load c =
      ({ s with drafts := (s.drafts.load c).2 } : Session).construct
        { draft with stage := .ready } := by
  have listed : drafts.streaming.waitingOn c = [entity] := by
    rw [streaming, Streaming.waitingOn_defer, nobody]
    simp
  have loaded := gated'.get?_load c
  rw [listed] at loaded
  have found : (drafts.load c).2.get? entity = some { draft with stage := .ready } := by
    rw [loaded, if_pos (List.mem_singleton_self _), get, if_pos rfl]
    rfl
  have rest : (drafts.load c).2.without entity = (s.drafts.load c).2 := by
    refine Drafts.ext_get? (fun k => ?_) ?_
    · rw [get?_load_of_nobody gated nobody, Drafts.get?_without]
      split
      · rename_i own
        rw [← own, undrafted]
      · rename_i other
        rw [loaded, if_neg fun mem => other (List.mem_singleton.mp mem).symm, get, if_neg other]
    · -- The list of those who wait is emptied, with or without the entity.
      show (drafts.load c).2.streaming = _
      rw [Drafts.streaming_load, Drafts.streaming_load, streaming, Streaming.load_defer]
  rw [load_eq gated', listed]
  refine (Builds.ready (s := { s with drafts := (drafts.load c).2 }) found rfl).advance.trans ?_
  rw [show ({ s with drafts := (drafts.load c).2 } : Session).drafts.without entity = _ from rest]

/-! ## Runs -/

/-- Where no section is open, changes of authority are made one after the other. -/
theorem run_authorities (closed : s.held.isOpen = false) (changes : List AuthorityChange) :
    s.run ((changes.map AuthorityChange.operation).map .receive) =
      .ok (changes.foldl changeAuthority s) := by
  induction changes generalizing s with
  | nil => rfl
  | cons change rest ih =>
    refine run_cons.mpr
      ⟨s.changeAuthority change, ?_, ih (by rw [held_changeAuthority]; exact closed)⟩
    exact congrArg Except.ok (if_neg (by rw [closed]; decide))

/-- **A section that adds an entity**, and what comes later, is the draft of the entity taken
further, and then the changes of authority and what comes later. -/
theorem run_section_adding (tidy : s.Tidy .all) (shut : s.held.isOpen = false)
    (unbuilt : s.channels.get? entity = none) {body : List Operation}
    (adds : ∀ operation ∈ body, operation.Adds entity) (added : .addEntity entity ∈ body)
    (later : List Operation) :
    s.run ((sectionOf body ++ later).map .receive) =
      ((s.drafting entity (componentsAdded entity body)).advance entity).run
        (((authorityChanged body).map AuthorityChange.operation ++ later).map .receive) := by
  have closed : ((s.drafting entity (componentsAdded entity body)).advance entity).held.isOpen =
      false := by
    rw [held_advance]
    exact shut
  rw [List.map_append, run_append, run_sectionOf tidy shut (run_adding s adds),
    tidy.holding_empty shut, drain_adding unbuilt adds added, List.map_append, run_append,
    run_authorities closed]

/-- The draft that has collected everything, for an entity that can be built. -/
def collected (entity : EntityId) (spawn : Spawn) (components : List ComponentData)
    (operations : List Operation) : Draft where
  entity
  components := components ++ propertiesOf operations
  authority := (authorityChanged operations).map fun change => (change.component, change.authority)
  spawn := some spawn
  stage := .ready

/-- Where the spawn data lets the entity wait for nothing, the section builds it, and what comes
later is applied; the outcome is that of building it from everything. -/
theorem sameOutcome_of_ready (h : s.Orderly) (owned : s.Owned) (shut : s.held.isOpen = false)
    (undrafted : s.drafts.get? entity = none) (unbuilt : s.channels.get? entity = none)
    {body : List Operation} (adds : ∀ operation ∈ body, operation.Adds entity)
    (added : .addEntity entity ∈ body) {spawn : Spawn}
    (read : World.readSpawn entity (componentsAdded entity body) = .ok spawn)
    (free : s.drafts.stageFor spawn = .ready) (resolves : s.world.resolves spawn = true)
    {operations : List Operation}
    (furnish : ∀ operation ∈ operations, operation.Furnishes s.protocol entity)
    (few : s.world.pool.issued +
      allocations (s.course ((sectionOf body).map .receive)) ≤ 2 ^ 32) :
    ∃ s', ((s.drafting entity (componentsAdded entity body)).advance entity).run
        (operations.map .receive) = .ok s' ∧
      SameOutcome s'
        (s.construct (collected entity spawn (componentsAdded entity body) operations)) := by
  let draft : Draft :=
    { entity, components := componentsAdded entity body, spawn := some spawn, stage := .ready }
  have builds : (s.drafting entity (componentsAdded entity body)).Builds entity draft :=
    builds_drafting undrafted read free
  have taken : ({ s.drafting entity (componentsAdded entity body) with
      drafts := (s.drafting entity (componentsAdded entity body)).drafts.without entity } :
        Session) = s :=
    congrArg (fun drafts => { s with drafts }) (without_drafting undrafted _)
  -- Making the objects is one of the moments of the section.
  have room : s.world.pool.issued + (⟨s, .found draft⟩ : Moment).allocations ≤ 2 ^ 32 := by
    have counted := allocations_le_of_mem (builds.mem_trail [])
    rw [taken] at counted
    have advanced := allocations_advances_le h.tidy (addingBurst entity body)
      (routed_adding unbuilt adds added)
    simp only [movesAlong, List.append_nil] at advanced
    have drained := allocations_section_le h.tidy shut (run_adding s adds) rfl
    rw [h.tidy.holding_empty shut] at drained
    exact (Nat.add_le_add_left (counted.trans (advanced.trans drained)) _).trans few
  rw [builds.advance, taken]
  have spawned : draft.spawn = some spawn := rfl
  rcases found_cases spawned unbuilt with ⟨-, channel, s₁, step⟩ | ⟨unable, -⟩
  · exact sameOutcome_construct shut h owned rfl undrafted unbuilt room step furnish
  · cases unable.symm.trans resolves

/-- Where the spawn data lets the entity wait, everything is collected until **the container is
loaded last**. -/
theorem run_loaded_last (tidy : s.Tidy .all) (gated : s.drafts.Gated [])
    (shut : s.held.isOpen = false) (undrafted : s.drafts.get? entity = none)
    (unbuilt : s.channels.get? entity = none) {c : Container}
    (unloaded : s.drafts.streaming.isLoaded c = false)
    (nobody : s.drafts.streaming.waitingOn c = []) {body : List Operation}
    (adds : ∀ operation ∈ body, operation.Adds entity) (added : .addEntity entity ∈ body)
    {spawn : Spawn} (read : World.readSpawn entity (componentsAdded entity body) = .ok spawn)
    (inside : spawn.container = some c) {later operations : List Operation}
    (all : operations = (authorityChanged body).map AuthorityChange.operation ++ later)
    (furnish : ∀ operation ∈ operations, operation.Furnishes s.protocol entity) :
    s.run ((sectionOf body ++ later).map .receive ++ [.load c]) =
      .ok (({ s with drafts := (s.drafts.load c).2 } : Session).construct
        (collected entity spawn (componentsAdded entity body) operations)) := by
  let begun := s.drafting entity (componentsAdded entity body)
  have same : begun.drafts.streaming = s.drafts.streaming := streaming_drafting ..
  have waits : begun.drafts.stageFor spawn = .waiting c := by
    simp [Drafts.stageFor, same, inside, unloaded]
  have drafted := get?_drafting undrafted (componentsAdded entity body)
  obtain ⟨advanced, entered⟩ := advance_of_deferred drafted rfl read waits
  -- The section leaves a draft that waits, and the draft collects what comes later.
  obtain ⟨drafts, ran, streaming, get⟩ := run_collecting
    (s := { begun with drafts := begun.drafts.setSpawn entity spawn }) shut unbuilt entered rfl
    furnish
  have collecting : s.run ((sectionOf body ++ later).map .receive) = .ok { s with drafts } := by
    rw [run_section_adding tidy shut unbuilt adds added, advanced, ← all]
    exact ran
  have deferred : drafts.streaming = s.drafts.streaming.defer c entity := by
    rw [streaming, Drafts.streaming_setSpawn_of_waiting drafted waits, same]
  let draft : Draft := { collected entity spawn (componentsAdded entity body) operations with
    stage := .waiting c }
  have others (k : EntityId) :
      drafts.get? k = if entity = k then some draft else s.drafts.get? k := by
    rw [get]
    split
    · rfl
    · rename_i other
      rw [Drafts.get?_setSpawn, if_neg other]
      exact get?_drafting_of_ne other _
  rw [run_append, collecting]
  exact congrArg Except.ok (load_of_deferred gated undrafted nobody
    (passes_run tidy gated collecting).2 deferred others)

/-- **Waiting for a container changes only the time.** After a run that issues fewer handles than
there are generations, nobody waits for a container that is not loaded, and a section adds an entity
that is not known and can be built inside this container; later its properties change and the
authority over it. It comes to the same whether the container is loaded before all this, so that the
section builds the entity and what comes later is applied to it, or after all this, so that
everything is collected and the entity is built from it. -/
theorem waiting_changes_only_time {settings : Settings} {protocol : Protocol} {past : List Act}
    (reached : (start settings protocol).run past = .ok s) (shut : s.held.isOpen = false)
    (undrafted : s.drafts.get? entity = none) (unbuilt : s.channels.get? entity = none)
    {c : Container} (unloaded : s.drafts.streaming.isLoaded c = false)
    (nobody : s.drafts.streaming.waitingOn c = [])
    {body : List Operation} (adds : ∀ operation ∈ body, operation.Adds entity)
    (added : .addEntity entity ∈ body) {data : ComponentData}
    (first : (componentsAdded entity body).find? (·.component == Stock.spawnComponent) = some data)
    {spawn : Spawn} (decoded : Wire.decodeSpawn data.payload = .ok spawn)
    (inside : spawn.container = some c) (resolves : s.world.resolves spawn = true)
    {later : List Operation}
    (furnish : ∀ operation ∈ later, operation.Furnishes s.protocol entity)
    (few : allocations ((start settings protocol).course
      (past ++ .load c :: (sectionOf body ++ later).map .receive)) < 2 ^ 32) :
    ∃ s₁ s₂, s.run (.load c :: (sectionOf body ++ later).map .receive) = .ok s₁ ∧
      s.run ((sectionOf body ++ later).map .receive ++ [.load c]) = .ok s₂ ∧
      SameOutcome s₁ s₂ := by
  have tidy := tidy_of_run reached
  have gated := (gated_of_run reached).2
  have read : World.readSpawn entity (componentsAdded entity body) = .ok spawn := by
    simp only [World.readSpawn, first, decoded]
  let operations := (authorityChanged body).map AuthorityChange.operation ++ later
  have brings : ∀ operation ∈ operations, operation.Furnishes s.protocol entity := by
    intro operation mem
    rcases List.mem_append.mp mem with early | late
    · obtain ⟨change, listed, rfl⟩ := List.mem_map.mp early
      exact entity_of_mem_authorityChanged (fun o mem => (adds o mem).addressed) listed
    · exact furnish operation late
  -- Loading the container first builds nobody.
  let u : Session := { s with drafts := (s.drafts.load c).2 }
  have loaded : s.act (.load c) = .ok u := congrArg Except.ok (load_of_nobody gated nobody)
  have tidy' : u.Tidy .all := ⟨tidy.drafts.load c, tidy.channels, tidy.burst, tidy.closed⟩
  have undrafted' : u.drafts.get? entity = none :=
    (get?_load_of_nobody gated nobody entity).trans undrafted
  have free : u.drafts.stageFor spawn = .ready := by
    have here : u.drafts.streaming.isLoaded c = true := by
      show (s.drafts.load c).2.streaming.isLoaded c = true
      rw [Drafts.streaming_load]
      exact Streaming.isLoaded_load.mpr (.inl rfl)
    simp [Drafts.stageFor, inside, here]
  have ran := run_section_adding tidy' shut unbuilt adds added
  rw [course_append reached, allocations_append] at few
  have before := Nat.lt_of_le_of_lt (Nat.le_add_right _ _) few
  have room : u.world.pool.issued +
      allocations (u.course ((sectionOf body).map .receive)) ≤ 2 ^ 32 := by
    have issued := (issued_of_run reached before).2
    have course : s.course (.load c :: (sectionOf body ++ later).map .receive) =
        s.idle.trail (s.moves (.load c)) ++ u.course ((sectionOf body ++ later).map .receive) := by
      simp only [course, loaded]
    rw [course, List.map_append, course_append (run_sectionOf tidy' shut (run_adding u adds)),
      allocations_append, allocations_append] at few
    show s.world.pool.issued + _ ≤ _
    omega
  have orderly : u.Orderly := (orderly_of_run reached before).draft tidy'.drafts
  have owned : u.Owned := (housed_of_run reached before).1.congr rfl rfl
  obtain ⟨s₁, built, same⟩ := sameOutcome_of_ready orderly owned shut undrafted' unbuilt adds added
    read free resolves brings room
  exact ⟨s₁, _, run_cons.mpr ⟨u, loaded, (ran later).trans built⟩,
    run_loaded_last tidy gated shut undrafted unbuilt unloaded nobody adds added read inside rfl
      brings, same⟩

/-- A crate has a field that waits for another crate. -/
def crateAwaiting : List Act :=
  ((Blueprint.ofClass 2 "Crate").withFields Stock.rootDataComponent
    [.at 5 (.ref (.root 1))]).operations.map .receive

/-- The other crate appears in the yard. Its fields refer to both, and to somebody unknown. -/
def crateOfYard : List Operation :=
  [.addEntity 1, .addComponent 1 ⟨Stock.spawnComponent, Wire.spawn inYard⟩,
    .authorityChange 1 Stock.rootDataComponent .authoritative,
    .addComponent 1 ⟨Stock.rootDataComponent,
      Wire.fields [.at 5 (.ref (.root 9)), .at 6 (.array [.ref (.root 1), .ref (.root 2)])]⟩]
where
  /-- Spawn data inside the yard. -/
  inYard : Spawn := { className := "Crate", container := some yard }

/-- A field of it is overwritten, a payload is malformed, and authority over it is to be lost. -/
def crateOfYardLater : List Operation :=
  [.componentUpdate 1 (fieldOf 7), .addComponent 1 ⟨Stock.rootDataComponent, [1]⟩,
    .authorityChange 1 Stock.rootDataComponent .lossImminent]

theorem waiting_changes_only_time_crateOfYard :
    ∃ s s₁ s₂, (start {} Stock.protocol).run crateAwaiting = .ok s ∧
      s.run (.load yard :: (sectionOf crateOfYard ++ crateOfYardLater).map .receive) = .ok s₁ ∧
      s.run ((sectionOf crateOfYard ++ crateOfYardLater).map .receive ++ [.load yard]) = .ok s₂ ∧
      SameOutcome s₁ s₂ ∧
      (s₂.fields? ⟨0, 0⟩).bind (·[(5 : Offset)]?) = some (.object (some ⟨1, 0⟩)) ∧
      (s₂.fields? ⟨1, 0⟩).bind (·[(5 : Offset)]?) = some (.int 7) ∧
      (s₂.fields? ⟨1, 0⟩).bind (·[(6 : Offset)]?) =
        some (.array [.object (some ⟨1, 0⟩), .object (some ⟨0, 0⟩)]) := by
  obtain ⟨s, s₁, reached, ran, test⟩ := exists_runs (start {} Stock.protocol) crateAwaiting
    (.load yard :: (sectionOf crateOfYard ++ crateOfYardLater).map .receive) (fun s s₁ =>
      !s.held.isOpen && (s.drafts.get? 1).isNone && (s.channels.get? 1).isNone &&
      !s.drafts.streaming.isLoaded yard && s.drafts.streaming.waitingOn yard == [] &&
      s.world.resolves crateOfYard.inYard &&
      (s.protocol.binding? Stock.rootDataComponent).any (·.role.carriesProperties) &&
      (s₁.fields? ⟨0, 0⟩).bind (·[(5 : Offset)]?) == some (.object (some ⟨1, 0⟩)) &&
      (s₁.fields? ⟨1, 0⟩).bind (·[(5 : Offset)]?) == some (.int 7) &&
      (s₁.fields? ⟨1, 0⟩).bind (·[(6 : Offset)]?) ==
        some (.array [.object (some ⟨1, 0⟩), .object (some ⟨0, 0⟩)]))
    (by decide +kernel)
  simp only [Bool.and_eq_true, Bool.not_eq_true', Option.any_eq_true, Option.isNone_iff_eq_none,
    beq_iff_eq] at test
  obtain ⟨⟨⟨⟨⟨⟨⟨⟨⟨shut, undrafted⟩, unbuilt⟩, unloaded⟩, nobody⟩, resolves⟩, b, bound, carries⟩,
    filled⟩, overwritten⟩, refers⟩ := test
  have adds : ∀ operation ∈ crateOfYard, operation.Adds 1 := by
    simp [crateOfYard, Operation.Adds]
  have furnish : ∀ operation ∈ crateOfYardLater, operation.Furnishes s.protocol 1 := by
    simp [crateOfYardLater, Operation.Furnishes, fieldOf, bound, carries]
  have first : (componentsAdded 1 crateOfYard).find? (·.component == Stock.spawnComponent) =
      some ⟨Stock.spawnComponent, Wire.spawn crateOfYard.inYard⟩ := by decide +kernel
  have decoded : Wire.decodeSpawn (Wire.spawn crateOfYard.inYard) = .ok crateOfYard.inYard := by
    decide +kernel
  obtain ⟨s₁', s₂, before, after, same⟩ := waiting_changes_only_time reached shut undrafted unbuilt
    unloaded nobody adds (by simp [crateOfYard]) first decoded rfl resolves furnish
    (by decide +kernel)
  cases ran.symm.trans before
  refine ⟨s, s₁, s₂, reached, ran, after, same, ?_, ?_, ?_⟩
  · rw [same.fields]
    exact filled
  · rw [same.fields]
    exact overwritten
  · rw [same.fields]
    exact refers

/-- A crate waits for another one in a field, and is destroyed by the host. -/
def crateGoneAwaiting : List Act := crateAwaiting ++ [.alter (.destroy ⟨0, 0⟩)]

/-- The other crate appears in the yard, with a value in that field. -/
def crateComing : List Operation :=
  [.addEntity 1, .addComponent 1 ⟨Stock.spawnComponent, Wire.spawn crateOfYard.inYard⟩,
    .addComponent 1 (fieldOf 1)]

/-- The field changes. -/
def crateComingLater : List Operation := [.componentUpdate 1 (fieldOf 2)]

/-- **Where a handle comes round the time matters.** The new crate gets the handle of the one that
has waited, so what this one has waited for is written into it when it is built: before the field
changes if the container is loaded first, and after that if it is loaded last. -/
theorem outcome_differs_comesRound :
    ∃ s s₁ s₂, (start {} Stock.protocol).run (crateGoneAwaiting ++ rounds ⟨0, 1⟩ (2 ^ 32 - 1)) =
        .ok s ∧ s.held.isOpen = false ∧ s.drafts.get? 1 = none ∧ s.channels.get? 1 = none ∧
      s.drafts.streaming.isLoaded yard = false ∧ s.drafts.streaming.waitingOn yard = [] ∧
      (∀ operation ∈ crateComing, operation.Adds 1) ∧ s.world.resolves crateOfYard.inYard = true ∧
      (∀ operation ∈ crateComingLater, operation.Furnishes s.protocol 1) ∧
      s.run (.load yard :: (sectionOf crateComing ++ crateComingLater).map .receive) = .ok s₁ ∧
      s.run ((sectionOf crateComing ++ crateComingLater).map .receive ++ [.load yard]) = .ok s₂ ∧
      (s₁.fields? ⟨0, 0⟩).bind (·[(5 : Offset)]?) = some (.int 2) ∧
      (s₂.fields? ⟨0, 0⟩).bind (·[(5 : Offset)]?) = some (.object (some ⟨0, 0⟩)) ∧
      ¬SameOutcome s₁ s₂ := by
  let loadedFirst : List Act :=
    .load yard :: (sectionOf crateComing ++ crateComingLater).map .receive
  let loadedLast : List Act :=
    (sectionOf crateComing ++ crateComingLater).map .receive ++ [.load yard]
  let holds (value : Localized) (s : Session) : Bool :=
    (s.fields? ⟨0, 0⟩).bind (·[(5 : Offset)]?) == some value
  obtain ⟨s, reached, test⟩ := exists_run_rounds {} Stock.protocol crateGoneAwaiting ⟨0, 1⟩
    (2 ^ 32 - 1) (fun s =>
      !s.held.isOpen && (s.drafts.get? 1).isNone && (s.channels.get? 1).isNone &&
      !s.drafts.streaming.isLoaded yard && s.drafts.streaming.waitingOn yard == [] &&
      s.world.resolves crateOfYard.inYard &&
      (s.protocol.binding? Stock.rootDataComponent).any (·.role.carriesProperties) &&
      s.leadsTo loadedFirst (holds (.int 2)) &&
      s.leadsTo loadedLast (holds (.object (some ⟨0, 0⟩))))
    (by decide +kernel) (by decide +kernel)
  simp only [Bool.and_eq_true, Bool.not_eq_true', Option.any_eq_true, Option.isNone_iff_eq_none,
    beq_iff_eq] at test
  obtain ⟨⟨⟨⟨⟨⟨⟨⟨shut, undrafted⟩, unbuilt⟩, unloaded⟩, nobody⟩, resolves⟩, b, bound, carries⟩,
    first⟩, last⟩ := test
  obtain ⟨s₁, ran₁, changed⟩ := exists_of_leadsTo first
  obtain ⟨s₂, ran₂, overwritten⟩ := exists_of_leadsTo last
  have changed := eq_of_beq changed
  have overwritten := eq_of_beq overwritten
  refine ⟨s, s₁, s₂, reached, shut, undrafted, unbuilt, unloaded, nobody, ?_, resolves, ?_, ran₁,
    ran₂, changed, overwritten, fun same => ?_⟩
  · simp [crateComing, Operation.Adds]
  · simp [crateComingLater, Operation.Furnishes, fieldOf, bound, carries]
  · rw [same.fields, changed] at overwritten
    cases overwritten

end Session

end Replica
