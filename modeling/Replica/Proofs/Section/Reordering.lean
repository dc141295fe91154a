import Replica.Proofs.Construction
import Replica.Proofs.Section.Existence

/-! # A section reorders the property data of an entity

Inside a section components are held back, but updates act at once. So a burst of both is carried
out as if all updates had come first, then the addition of the entity, and then its components. Up
to this order a section makes no difference to the entity: what is collected in a draft comes to the
same as what is written to the entity after it was built.

Main definitions:
* `Piece` — a component that is added to an entity, or an update.
* `delivered`, `updatesFirst` — the operations of some pieces, as they come and with updates first.
* `Session.Agree` — two sessions have the same draft, channel and fields for an entity.
* `Session.agree_advance` — a draft is taken further after each component, or after all of them.
* `Session.agree_updatesFirst` — a section does what its operations do with updates first. -/

namespace Replica

/-! ## Pieces of property data -/

/-- A **piece** of the property data of an entity. -/
inductive Piece where
  /-- A component is added. -/
  | added (data : ComponentData)
  /-- A component is updated. -/
  | updated (data : ComponentData)

/-- The operation that brings a piece to an entity. -/
def Piece.operation (entity : EntityId) : Piece → Operation
  | .added data => .addComponent entity data
  | .updated data => .componentUpdate entity data

/-- The components that are added, in order. -/
def additions (pieces : List Piece) : List ComponentData :=
  pieces.filterMap fun
    | .added data => some data
    | .updated _ => none

/-- The components that are updated, in order. -/
def updates (pieces : List Piece) : List ComponentData :=
  pieces.filterMap fun
    | .added _ => none
    | .updated data => some data

/-- The addition of the entity, if there is one. -/
def additionOf (entity : EntityId) (leads : Bool) : List Operation :=
  if leads then [.addEntity entity] else []

/-- The operations of some pieces as they come, behind the addition of the entity if there is
one. -/
def delivered (entity : EntityId) (leads : Bool) (pieces : List Piece) : List Operation :=
  additionOf entity leads ++ pieces.map (·.operation entity)

/-- The same operations with all updates first, before the addition of the entity. -/
def updatesFirst (entity : EntityId) (leads : Bool) (pieces : List Piece) : List Operation :=
  (updates pieces).map (.componentUpdate entity) ++
    (additionOf entity leads ++ (additions pieces).map (.addComponent entity))

namespace Session

variable {s s₁ s₂ : Session} {entity : EntityId}

/-! ## Agreement -/

/-- Two sessions **agree** on an entity if it has the same draft in both, or the same channel with
the same values in all fields of its objects. -/
structure Agree (entity : EntityId) (s s' : Session) : Prop where
  /-- The entity has the same draft. -/
  draft : s'.drafts.get? entity = s.drafts.get? entity
  /-- It has the same channel. -/
  channel : s'.channels.get? entity = s.channels.get? entity
  /-- The objects of the channel have the same fields. -/
  fields : ∀ {c : Channel} {offset : Offset} {h : Handle}, s.channels.get? entity = some c →
    c.objectAt? offset = some h → s'.fields? h = s.fields? h

theorem Agree.refl (entity : EntityId) (s : Session) : Agree entity s s :=
  ⟨rfl, rfl, fun _ _ => rfl⟩

/-- Where nothing is built, only the draft counts. -/
theorem Agree.of_unbuilt (unbuilt : s.channels.get? entity = none)
    (channel : s₁.channels.get? entity = none)
    (draft : s₁.drafts.get? entity = s.drafts.get? entity) : Agree entity s s₁ :=
  ⟨draft, channel.trans unbuilt.symm, fun opened => nomatch unbuilt.symm.trans opened⟩

/-! ## Components of a built entity -/

/-- Applies some components to a built entity. -/
def applyAll (s : Session) (entity : EntityId) (components : List ComponentData) : Session :=
  components.foldl (fun s data => s.accept (s.applyToLive entity data.component data.payload)) s

/-- They are routines. -/
theorem routine_applyAll (s : Session) (entity : EntityId) (components : List ComponentData) :
    s.Routine (s.applyAll entity components) :=
  .foldl (fun s data => routine_applyToLive s entity data) components s

/-- They write what they write, in order. -/
theorem fields_applyAll {channel : Channel} (opened : s.channels.get? entity = some channel)
    (components : List ComponentData) (h : Handle) :
    (s.applyAll entity components).fields? h = (s.fields? h).map
      (components.foldl (writtenBy s.protocol s.resolver channel.objectAt? h) ·) := by
  induction components generalizing s with
  | nil => exact Option.map_id'.symm
  | cons data rest ih =>
    have routine := routine_applyToLive s entity data
    refine (ih (by rw [routine.channels]; exact opened)).trans ?_
    rw [fields_applyToLive opened, Option.map_map, routine.protocol, routine.resolver]
    rfl

/-- A component for an entity that is not built is dropped. -/
theorem applyAll_unbuilt (unbuilt : s.channels.get? entity = none)
    (components : List ComponentData) : s.applyAll entity components = s := by
  have dropped (data : ComponentData) :
      s.accept (s.applyToLive entity data.component data.payload) = s := by
    rw [accept_applyToLive]
    have missed : ∃ error, s.target entity data.component = .error error := by
      unfold target
      rw [unbuilt]
      cases s.binding data.component with
      | error error => exact ⟨error, rfl⟩
      | ok b => exact ⟨_, rfl⟩
    obtain ⟨error, missed⟩ := missed
    rw [missed]
  induction components with
  | nil => rfl
  | cons data rest ih =>
    rw [applyAll, List.foldl_cons, dropped]
    exact ih

/-- Adds some components to an entity, one after the other. -/
def addAll (s : Session) (entity : EntityId) (components : List ComponentData) : Session :=
  components.foldl (fun s data => s.addComponent ⟨entity, data⟩) s

/-- Without a draft they are applied. -/
theorem addAll_undrafted (closed : s.held.isOpen = false)
    (undrafted : s.drafts.get? entity = none) (components : List ComponentData) :
    s.addAll entity components = s.applyAll entity components := by
  induction components generalizing s with
  | nil => rfl
  | cons data rest ih =>
    have routine := routine_applyToLive s entity data
    have first : s.addComponent ⟨entity, data⟩ =
        s.accept (s.applyToLive entity data.component data.payload) := by
      simp [addComponent, closed, route, Drafts.contains_eq, undrafted]
    rw [addAll, List.foldl_cons, first]
    exact ih (by rw [routine.held]; exact closed) (by rw [routine.drafts]; exact undrafted)

/-! ## Building from more components -/

theorem held_construct (s : Session) (draft : Draft) : (s.construct draft).held = s.held := by
  have same := congrArg Session.held (construct_holding s s.held draft)
  rwa [holding_self] at same

theorem held_advance (s : Session) (entity : EntityId) : (s.advance entity).held = s.held := by
  have same := congrArg Session.held (advance_holding s s.held entity)
  rwa [holding_self] at same

theorem held_changeAuthority (s : Session) (change : AuthorityChange) :
    (s.changeAuthority change).held = s.held := by
  have same := congrArg Session.held (changeAuthority_holding s s.held change)
  rwa [holding_self] at same

/-- **It makes no difference whether components are there when an entity is built, or come right
afterwards.** -/
theorem agree_construct (closed : s.held.isOpen = false) (h : s.Orderly) {draft : Draft}
    (undrafted : s.drafts.get? draft.entity = none) (unbuilt : s.channels.get? draft.entity = none)
    (few : s.world.pool.issued + (⟨s, .found draft⟩ : Moment).allocations ≤ 2 ^ 32)
    (components : List ComponentData) :
    Agree draft.entity
      (s.construct { draft with components := draft.components ++ components })
      ((s.construct draft).addAll draft.entity components) := by
  have alike : s.found { draft with components := draft.components ++ components } =
      s.found draft := found_congr s rfl rfl
  have closed' : (s.construct draft).held.isOpen = false := by
    rw [held_construct]
    exact closed
  cases step : s.found draft with
  | mk built s₁ =>
    rw [step] at alike
    cases built with
    | none =>
      -- Without objects there is nothing to write.
      obtain ⟨rfl, -⟩ := found_of_none unbuilt step
      have same : s₁.construct draft = s₁ := by rw [construct_eq, step]
      have same' : s₁.construct { draft with components := draft.components ++ components } =
          s₁ := by rw [construct_eq, alike]
      rw [same, same', addAll_undrafted closed undrafted, applyAll_unbuilt unbuilt]
      exact .refl _ _
    | some channel =>
      have furnished : Spares draft.entity s₁ (s.construct draft) :=
        spares_furnish h.tidy undrafted step
      have furnished' : Spares draft.entity s₁
          (s.construct { draft with components := draft.components ++ components }) :=
        spares_furnish h.tidy undrafted alike
      have left : (s.construct draft).drafts.get? draft.entity = none := by
        obtain ⟨_, _, _, _, -, -, -, rfl⟩ := found_eq_some.mp step
        exact furnished.draft.trans undrafted
      obtain ⟨c, opened, -, objects⟩ := exists_channel_construct h.tidy undrafted step
      have channels : (s.construct draft).channels =
          (s.construct { draft with components := draft.components ++ components }).channels :=
        (channels_construct step).trans (channels_construct alike).symm
      rw [addAll_undrafted closed' left]
      have routine := routine_applyAll (s.construct draft) draft.entity components
      refine ⟨?_, ?_, ?_⟩
      · rw [routine.drafts, furnished.draft, furnished'.draft]
      · rw [routine.channels, channels]
      · intro c' offset k opened' found
        rw [← channels, opened] at opened'
        cases opened'
        rw [objects] at found
        have mine := mem_members_of_found step found
        -- Both ways the objects are made blank, and the same components write them in order.
        obtain ⟨protocol, resolver⟩ := resolver_construct step
        rw [fields_applyAll opened, fields_construct h alike few mine,
          fields_construct h step few mine, protocol, resolver, objects, Option.map_map]
        refine congrArg (Option.map · (s₁.fields? k)) (funext fun fields => ?_)
        exact List.foldl_append.symm

/-! ## Drafts that collect more -/

/-- Adds components to the draft of an entity. -/
def gather (s : Session) (entity : EntityId) (components : List ComponentData) : Session :=
  { s with
    drafts := s.drafts.modify entity fun d => { d with components := d.components ++ components } }

theorem get?_gather {draft : Draft} (found : s.drafts.get? entity = some draft)
    (components : List ComponentData) : (s.gather entity components).drafts.get? entity =
      some { draft with components := draft.components ++ components } := by
  rw [gather, Drafts.get?_modify, if_pos rfl, found]
  rfl

theorem gather_nil (s : Session) (entity : EntityId) : s.gather entity [] = s := by
  have same : s.drafts.modify entity (fun d => { d with components := d.components ++ [] }) =
      s.drafts := by
    simp only [List.append_nil, Drafts.modify]
    split
    · rename_i found
      rw [insert_of_getElem? found]
    · rfl
  rw [gather, same]

theorem gather_gather (s : Session) (entity : EntityId) (first later : List ComponentData) :
    (s.gather entity first).gather entity later = s.gather entity (first ++ later) := by
  refine congrArg (fun drafts => { s with drafts }) ?_
  dsimp only [gather]
  cases found : s.drafts.records[entity]? with
  | none => simp only [Drafts.modify, found]
  | some draft =>
    simp only [Drafts.modify, found, Std.ExtTreeMap.getElem?_insert_self, insert_insert,
      List.append_assoc]

/-- A component for a drafted entity is collected, and the draft is taken further. -/
theorem addComponent_drafted (closed : s.held.isOpen = false) {draft : Draft}
    (found : s.drafts.get? entity = some draft) (data : ComponentData) :
    s.addComponent ⟨entity, data⟩ = (s.gather entity [data]).advance entity := by
  simp [addComponent, closed, route, Drafts.contains_eq, found, touch]
  rfl

/-- Components do not matter for the containers that are loaded. -/
theorem stageFor_gather (s : Session) (entity : EntityId) (components : List ComponentData)
    (spawn : Spawn) :
    (s.gather entity components).drafts.stageFor spawn = s.drafts.stageFor spawn := by
  rw [Drafts.stageFor, gather, Drafts.streaming_modify, Drafts.stageFor]

/-- Nor do they for the order of a session. -/
theorem Orderly.gather (h : s.Orderly) (entity : EntityId) (components : List ComponentData) :
    (s.gather entity components).Orderly :=
  h.draft (h.tidy.drafts.of_map (Drafts.get?_modify _ entity · _) (fun _ => rfl)
    fun _ _ _ _ => trivial)

/-- With more components, the entity is built from those as well. -/
theorem Builds.gather {draft : Draft} (h : s.Builds entity draft)
    (components : List ComponentData) :
    (s.gather entity components).Builds entity
      { draft with components := draft.components ++ components } := by
  cases h with
  | ready found ready => exact .ready (get?_gather found components) ready
  | spawned found collecting read free =>
    exact .spawned (get?_gather found components) collecting
      (readSpawn_append read nofun components) ((stageFor_gather s _ components _).trans free)

/-- While it waits for a container, a draft collects whatever comes. -/
theorem addAll_waiting (closed : s.held.isOpen = false) {draft : Draft} {c : Container}
    (found : s.drafts.get? entity = some draft) (waits : draft.stage = .waiting c)
    (components : List ComponentData) :
    s.addAll entity components = s.gather entity components := by
  induction components generalizing s draft with
  | nil => exact (gather_nil s entity).symm
  | cons data rest ih =>
    have collected := get?_gather found [data]
    have stays : (s.gather entity [data]).advance entity = s.gather entity [data] := by
      simp [Session.advance, collected, waits]
    rw [addAll, List.foldl_cons, addComponent_drafted closed found, stays]
    refine (ih (s := s.gather entity [data]) closed collected waits).trans ?_
    rw [gather_gather]
    rfl

/-- Where an entity is built, it may be built before or after the rest of its components come. -/
theorem Builds.agree (closed : s.held.isOpen = false) (h : s.Orderly) {draft : Draft}
    (builds : s.Builds entity draft) (components : List ComponentData)
    (few : s.world.pool.issued + allocations (Work.trail (s.gather entity components).idle
      ((s.gather entity components).advanceMoves entity)) ≤ 2 ^ 32) :
    Agree entity ((s.gather entity components).advance entity)
      ((s.advance entity).addAll entity components) := by
  obtain ⟨rfl, unbuilt⟩ := builds.filed h.tidy
  have more := builds.gather components
  have taken : ({ s.gather draft.entity components with
      drafts := (s.gather draft.entity components).drafts.without draft.entity } : Session) =
      { s with drafts := s.drafts.without draft.entity } :=
    congrArg (fun drafts => { s with drafts }) (Drafts.without_modify _ _ _)
  have counted := allocations_le_of_mem (more.mem_trail [])
  rw [builds.advance, more.advance, taken]
  exact agree_construct (s := { s with drafts := s.drafts.without draft.entity }) closed
    (h.draft (h.tidy.drafts.without draft.entity)) ((Drafts.get?_without _ _ _).trans (if_pos rfl))
    unbuilt (Nat.le_trans (Nat.add_le_add_left counted _) few) components

/-- A draft that begins to wait for a container collects what comes later, as it did before. -/
theorem agree_of_deferred (closed : s.held.isOpen = false) (unbuilt : s.channels.get? entity = none)
    {draft : Draft} (found : s.drafts.get? entity = some draft)
    (collecting : draft.stage = .collecting) {spawn : Spawn} {c : Container}
    (read : World.readSpawn entity draft.components = .ok spawn)
    (waits : s.drafts.stageFor spawn = .waiting c) (components : List ComponentData) :
    Agree entity ((s.gather entity components).advance entity)
      ((s.advance entity).addAll entity components) := by
  obtain ⟨early, entered⟩ := advance_of_deferred found collecting read waits
  obtain ⟨late, entered'⟩ := advance_of_deferred (get?_gather found components) collecting
    (readSpawn_append read (by simp) components)
    ((stageFor_gather s entity components spawn).trans waits)
  rw [early, late, addAll_waiting (s := { s with drafts := s.drafts.setSpawn entity spawn }) closed
    entered rfl]
  refine .of_unbuilt unbuilt unbuilt ?_
  exact (get?_gather (s := { s with drafts := s.drafts.setSpawn entity spawn }) entered
    components).trans entered'.symm

/-- A draft whose spawn data cannot be read is dropped, and so is what comes for it later. -/
theorem agree_of_flawed (closed : s.held.isOpen = false) (unbuilt : s.channels.get? entity = none)
    {draft : Draft} (found : s.drafts.get? entity = some draft)
    (collecting : draft.stage = .collecting) {error : BuildError}
    (read : World.readSpawn entity draft.components = .error error)
    (flawed : ∀ e, error ≠ .spawnDataMissing e) (components : List ComponentData) :
    Agree entity ((s.gather entity components).advance entity)
      ((s.advance entity).addAll entity components) := by
  have collected := get?_gather found components
  have read' : World.readSpawn entity (draft.components ++ components) = .error error :=
    readSpawn_append read (fun e same => flawed e (Except.error.inj same)) components
  have dropped {t : Session} {d : Draft} (found : t.drafts.get? entity = some d)
      (collecting : d.stage = .collecting)
      (read : World.readSpawn entity d.components = .error error) :
      t.advance entity = { t with drafts := t.drafts.remove entity } := by
    simp only [Session.advance, found, collecting, read]
  have gone (ds : Drafts) : (ds.remove entity).get? entity = none :=
    (Drafts.get?_remove ds entity entity).trans (if_pos rfl)
  rw [dropped found collecting read, dropped collected collecting read',
    addAll_undrafted (s := { s with drafts := s.drafts.remove entity }) closed (gone _),
    applyAll_unbuilt (s := { s with drafts := s.drafts.remove entity }) unbuilt]
  exact .of_unbuilt unbuilt unbuilt ((gone _).trans (gone _).symm)

/-- **Whether a draft is taken further after each component or after all of them**, the entity comes
out the same. -/
theorem agree_advance (closed : s.held.isOpen = false) (h : s.Orderly) {draft : Draft}
    (found : s.drafts.get? entity = some draft) (components : List ComponentData)
    (few : s.world.pool.issued + allocations (Work.trail (s.gather entity components).idle
      ((s.gather entity components).advanceMoves entity)) ≤ 2 ^ 32) :
    Agree entity ((s.gather entity components).advance entity)
      ((s.advance entity).addAll entity components) := by
  induction components generalizing s draft with
  | nil =>
    rw [gather_nil]
    exact .refl _ _
  | cons data rest ih =>
    obtain ⟨-, unbuilt, -⟩ := h.tidy.drafts entity draft found
    cases stage : draft.stage with
    | waiting c =>
      have stays : s.advance entity = s := by simp [Session.advance, found, stage]
      have stays' : (s.gather entity (data :: rest)).advance entity =
          s.gather entity (data :: rest) := by
        simp [Session.advance, get?_gather found, stage]
      rw [stays, stays', addAll_waiting closed found stage]
      exact .refl _ _
    | ready => exact (Builds.ready found stage).agree closed h _ few
    | collecting =>
      cases read : World.readSpawn entity draft.components with
      | ok spawn =>
        rcases s.drafts.stageFor_cases spawn with ⟨c, -, -, waits⟩ | ⟨free, -⟩
        · exact agree_of_deferred closed unbuilt found stage read waits _
        · exact (Builds.spawned found stage read free).agree closed h _ few
      | error error =>
        by_cases missing : ∃ e, error = .spawnDataMissing e
        · -- The draft goes on collecting, and the next component takes it as far as it can go.
          obtain ⟨e, rfl⟩ := missing
          have stays : s.advance entity = s := by simp [Session.advance, found, stage, read]
          have next := ih (s := s.gather entity [data]) closed (h.gather entity [data])
            (get?_gather found [data]) (by rw [gather_gather]; exact few)
          rw [gather_gather] at next
          rw [stays, addAll, List.foldl_cons, addComponent_drafted closed found]
          exact next
        · exact agree_of_flawed closed unbuilt found stage read
            (fun e same => missing ⟨e, same⟩) _

/-! ## Updates -/

/-- Updates an entity several times. -/
def updateAll (s : Session) (entity : EntityId) (updates : List ComponentData) : Session :=
  updates.foldl (·.update entity ·) s

/-- Updates of an entity that is not built change its draft alone, if it has one. -/
theorem updateAll_unbuilt (unbuilt : s.channels.get? entity = none)
    (updates : List ComponentData) :
    ∃ drafts, s.updateAll entity updates = { s with drafts } := by
  have each (drafts : Drafts) (data : ComponentData) :
      ∃ drafts',
        ({ s with drafts } : Session).update entity data = { s with drafts := drafts' } := by
    unfold Session.update tryUpdate
    split
    · cases ({ s with drafts } : Session).binding data.component with
      | error error => exact ⟨drafts, rfl⟩
      | ok b =>
        simp only [bind, Except.bind]
        split
        · exact ⟨_, rfl⟩
        · exact ⟨drafts, rfl⟩
    · exact ⟨drafts, applyAll_unbuilt (s := { s with drafts }) unbuilt [data]⟩
  suffices along : ∀ drafts, ∃ drafts',
      ({ s with drafts } : Session).updateAll entity updates = { s with drafts := drafts' } from
    along s.drafts
  induction updates with
  | nil => exact fun drafts => ⟨drafts, rfl⟩
  | cons data rest ih =>
    intro drafts
    obtain ⟨drafts', first⟩ := each drafts data
    rw [updateAll, List.foldl_cons, first]
    exact ih drafts'

/-- Updates of an entity without a draft are applied. -/
theorem updateAll_undrafted (undrafted : s.drafts.get? entity = none)
    (updates : List ComponentData) : s.updateAll entity updates = s.applyAll entity updates := by
  induction updates generalizing s with
  | nil => rfl
  | cons data rest ih =>
    have first : s.update entity data =
        s.accept (s.applyToLive entity data.component data.payload) := by
      simp [Session.update, tryUpdate, Drafts.contains_eq, undrafted]
    rw [updateAll, List.foldl_cons, first]
    exact ih (by rw [(routine_applyToLive s entity data).drafts]; exact undrafted)

theorem Tidy.updateAll (tidy : s.Tidy .all) (entity : EntityId) (updates : List ComponentData) :
    (s.updateAll entity updates).Tidy .all :=
  List.foldlRecOn (motive := Tidy .all) _ _ tidy
    fun _ tidy _ _ => (carries_update [] tidy entity trivial).tidy tidy

/-! ## The burst of an entity -/

/-- What is held back for an entity that may be added and gets some components. -/
def burstOf (entity : EntityId) (leads : Bool) (components : List ComponentData) : Burst where
  added := if leads then [entity] else []
  components := components.map (⟨entity, ·⟩)

/-- Components for a drafted entity that was touched are collected. -/
theorem foldl_route_drafted {draft : Draft} (found : s.drafts.get? entity = some draft)
    (components : List ComponentData) :
    (components.map (⟨entity, ·⟩)).foldl route (s, [entity]) =
      (s.gather entity components, [entity]) := by
  induction components generalizing s draft with
  | nil => rw [gather_nil]; rfl
  | cons data rest ih =>
    have first : route (s, [entity]) ⟨entity, data⟩ = (s.gather entity [data], [entity]) := by
      simp [route, Drafts.contains_eq, found, touch]
      rfl
    rw [List.map_cons, List.foldl_cons, first, ih (get?_gather found [data]), gather_gather]
    rfl

/-- Components for an entity without a draft are applied. -/
theorem foldl_route_undrafted (undrafted : s.drafts.get? entity = none)
    (components : List ComponentData) :
    (components.map (⟨entity, ·⟩)).foldl route (s, []) = (s.applyAll entity components, []) := by
  induction components generalizing s with
  | nil => rfl
  | cons data rest ih =>
    have first : route (s, []) ⟨entity, data⟩ =
        (s.accept (s.applyToLive entity data.component data.payload), []) := by
      simp [route, Drafts.contains_eq, undrafted]
    rw [List.map_cons, List.foldl_cons, first]
    exact ih (by rw [(routine_applyToLive s entity data).drafts]; exact undrafted)

/-- Carrying the burst of an entity out takes the drafts further that its components were added
to. -/
theorem drain_burstOf (leads : Bool) (components : List ComponentData)
    {x : Session × List EntityId}
    (routed : (components.map (⟨entity, ·⟩)).foldl route
      ((if leads then [entity] else []).foldl begin (s, [])) = x) :
    s.drain (burstOf entity leads components) = x.2.foldl advance x.1 := by
  rw [← routed]
  rfl

/-- An entity that is built, or is neither drafted nor added, gets the components as they come. -/
theorem drain_burstOf_applied (closed : s.held.isOpen = false)
    (undrafted : s.drafts.get? entity = none) {leads : Bool}
    (built : leads = true → s.channels.get? entity ≠ none) (components : List ComponentData) :
    s.drain (burstOf entity leads components) =
      (if leads then s.addEntity entity else s).addAll entity components := by
  have present : leads = true → s.channels.contains entity = true := fun l => by
    rw [Channels.contains_eq, Option.isSome_iff_ne_none]
    exact built l
  have begun : (if leads then [entity] else []).foldl begin (s, []) = (s, []) := by
    cases leads with
    | false => rfl
    | true => simp [begin, present rfl]
  have added : (if leads then s.addEntity entity else s) = s := by
    cases leads with
    | false => rfl
    | true => simp [addEntity, closed, drain, begin, present rfl]
  rw [added, addAll_undrafted closed undrafted]
  refine drain_burstOf leads components (x := (s.applyAll entity components, [])) ?_
  rw [begun, foldl_route_undrafted undrafted]

/-- **A burst of an entity that is not built** does what its operations do one after the other. -/
theorem agree_drain (closed : s.held.isOpen = false) (h : s.Orderly)
    (unbuilt : s.channels.get? entity = none) {leads : Bool}
    (awaited : leads = true ∨ s.drafts.get? entity ≠ none) (components : List ComponentData)
    (few : s.world.pool.issued + allocations (Work.trail s.idle
      (s.drainMoves (burstOf entity leads components))) ≤ 2 ^ 32) :
    Agree entity (s.drain (burstOf entity leads components))
      ((if leads then s.addEntity entity else s).addAll entity components) := by
  have advances := fun {x} =>
    allocations_advances_le h.tidy (burstOf entity leads components) (x := x)
  cases leads with
  | true =>
    -- The draft begins first, and then collects like one that was there.
    let t : Session := { s with drafts := s.drafts.begin entity }
    have begun : [entity].foldl begin (s, []) = (t, [entity]) := by
      simp [begin, Channels.contains_eq, unbuilt, touch, t]
    obtain ⟨draft, found⟩ : ∃ draft, t.drafts.get? entity = some draft :=
      ⟨_, (Drafts.get?_begin _ _ _).trans (if_pos rfl)⟩
    have routed : (components.map (⟨entity, ·⟩)).foldl route ([entity].foldl begin (s, [])) =
        (t.gather entity components, [entity]) := by
      rw [begun, foldl_route_drafted found]
    have added : s.addEntity entity = t.advance entity := by
      unfold addEntity
      rw [closed]
      exact drain_burstOf true [] begun
    rw [if_pos rfl, added, drain_burstOf true components routed]
    have room := advances routed
    simp only [movesAlong, List.append_nil] at room
    exact agree_advance (s := t) closed (h.draft (h.tidy.drafts.begin unbuilt)) found components
      (Nat.le_trans (Nat.add_le_add_left room _) few)
  | false =>
    obtain ⟨draft, found⟩ := Option.ne_none_iff_exists'.mp (awaited.resolve_left (by simp))
    cases components with
    | nil => exact .refl entity s
    | cons data rest =>
      -- The first component takes up the draft that is there.
      have collected := get?_gather found [data]
      have first : route (s, []) ⟨entity, data⟩ = (s.gather entity [data], [entity]) := by
        simp [route, Drafts.contains_eq, found, touch]
        rfl
      have routed : ((data :: rest).map (⟨entity, ·⟩)).foldl route ([].foldl begin (s, [])) =
          ((s.gather entity [data]).gather entity rest, [entity]) := by
        rw [List.map_cons, List.foldl_nil, List.foldl_cons, first, foldl_route_drafted collected]
      have added : s.addAll entity (data :: rest) =
          ((s.gather entity [data]).advance entity).addAll entity rest := by
        rw [addAll, List.foldl_cons, addComponent_drafted closed found]
        rfl
      rw [if_neg (by simp), added, drain_burstOf false (data :: rest) routed]
      have room := advances routed
      simp only [movesAlong, List.append_nil] at room
      exact agree_advance (s := s.gather entity [data]) closed (h.gather entity [data]) collected
        rest (Nat.le_trans (Nat.add_le_add_left room _) few)

/-! ## Runs -/

/-- Operations of one kind that are never a fault are carried out one after the other. -/
theorem run_map {α : Type} (operation : α → Operation) (step : Session → α → Session)
    (each : ∀ (s : Session) (x : α), s.process (operation x) = .ok (step s x)) (s : Session)
    (xs : List α) : s.run ((xs.map operation).map .receive) = .ok (xs.foldl step s) := by
  induction xs generalizing s with
  | nil => rfl
  | cons x rest ih => exact run_cons.mpr ⟨_, each s x, ih _⟩

theorem run_updatesFirst (s : Session) (entity : EntityId) (leads : Bool) (pieces : List Piece) :
    s.run ((updatesFirst entity leads pieces).map .receive) =
      .ok ((if leads then (s.updateAll entity (updates pieces)).addEntity entity
        else s.updateAll entity (updates pieces)).addAll entity (additions pieces)) := by
  have updated := run_map (.componentUpdate entity) (·.update entity ·) (fun _ _ => rfl) s
    (updates pieces)
  have led (t : Session) : t.run ((additionOf entity leads).map .receive) =
      .ok (if leads then t.addEntity entity else t) := by
    cases leads <;> rfl
  have added (t : Session) := run_map (.addComponent entity) (·.addComponent ⟨entity, ·⟩)
    (fun _ _ => rfl) t (additions pieces)
  rw [updatesFirst, List.map_append, List.map_append, run_append, updated, Except.bind, run_append,
    led, Except.bind, added]
  rfl

/-- Inside a section the updates act, and everything else is held back. -/
theorem run_delivered (s : Session) (entity : EntityId) (leads : Bool) (pieces : List Piece) :
    (s.holding ⟨1, {}⟩).run ((delivered entity leads pieces).map .receive) =
      .ok ((s.updateAll entity (updates pieces)).holding
        ⟨1, burstOf entity leads (additions pieces)⟩) := by
  have along : ∀ (pieces : List Piece) (s : Session) (b : Burst),
      (s.holding ⟨1, b⟩).run ((pieces.map (·.operation entity)).map .receive) =
        .ok ((s.updateAll entity (updates pieces)).holding
          ⟨1, { b with components := b.components ++ (additions pieces).map (⟨entity, ·⟩) }⟩) := by
    intro pieces
    induction pieces with
    | nil =>
      intro s b
      rw [show b.components ++ (additions []).map (AddedComponent.mk entity) = b.components from
        List.append_nil _]
      rfl
    | cons piece rest ih =>
      intro s b
      cases piece with
      | added data =>
        refine run_cons.mpr ⟨s.holding ⟨1, b.addComponent ⟨entity, data⟩⟩, rfl, (ih _ _).trans ?_⟩
        rw [Burst.addComponent, List.append_assoc]
        rfl
      | updated data =>
        exact run_cons.mpr ⟨(s.update entity data).holding ⟨1, b⟩,
          congrArg Except.ok (update_holding s _ entity data), ih _ _⟩
  have led : (s.holding ⟨1, {}⟩).run ((additionOf entity leads).map .receive) =
      .ok (s.holding ⟨1, { added := if leads then [entity] else [] }⟩) := by
    cases leads <;> rfl
  rw [delivered, List.map_append, run_append, led, Except.bind, along]
  rfl

theorem held_updateAll (s : Session) (entity : EntityId) (updates : List ComponentData) :
    (s.updateAll entity updates).held = s.held := by
  have each (s : Session) (data : ComponentData) : (s.update entity data).held = s.held := by
    have same := congrArg Session.held (update_holding s s.held entity data)
    rwa [holding_self] at same
  induction updates generalizing s with
  | nil => rfl
  | cons data rest ih => exact (ih (s.update entity data)).trans (each s data)

/-- Updates where no section is open leave none open. -/
theorem holding_updateAll (tidy : s.Tidy .all) (shut : s.held.isOpen = false) (entity : EntityId)
    (updates : List ComponentData) :
    (s.updateAll entity updates).holding {} = s.updateAll entity updates := by
  rw [← tidy.held_eq shut, ← held_updateAll s entity updates, holding_self]

/-- **A section** is what goes on inside it, and then its burst is carried out. -/
theorem run_sectionOf (tidy : s.Tidy .all) (shut : s.held.isOpen = false) {body : List Operation}
    {t : Session} {b : Burst}
    (inside : (s.holding ⟨1, {}⟩).run (body.map .receive) = .ok (t.holding ⟨1, b⟩)) :
    s.run ((sectionOf body).map .receive) = .ok ((t.holding {}).drain b) := by
  rw [map_receive_sectionOf, List.cons_append]
  refine run_cons.mpr ⟨_, act_enter tidy shut, ?_⟩
  rw [run_append, inside]
  rfl

/-- A section in which nothing arrives issues at least the handles that carrying its burst out
does. -/
theorem allocations_section_le (tidy : s.Tidy .all) (shut : s.held.isOpen = false)
    {body : List Operation} {t : Session} {b : Burst}
    (inside : (s.holding ⟨1, {}⟩).run (body.map .receive) = .ok (t.holding ⟨1, b⟩))
    (still : b.arrivals = []) :
    allocations (Work.trail (t.holding {}).idle ((t.holding {}).drainMoves b)) ≤
      allocations (s.course ((sectionOf body).map .receive)) := by
  have entered := run_cons.mpr ⟨_, act_enter tidy shut, inside⟩
  -- The last act of the section ends it, and its first move makes the burst due.
  have last : (t.holding ⟨1, b⟩).course [.receive (.criticalSection false)] =
      ⟨t.holding ⟨1, b⟩, .mark false⟩ :: Work.trail ⟨t.holding {}, b.arrivals ++ []⟩
        ((t.holding {}).drainMoves b) := List.append_nil _
  rw [still, List.nil_append] at last
  rw [map_receive_sectionOf, course_append entered, allocations_append, last]
  exact Nat.le_trans (Nat.le_add_left _ _) (Nat.le_add_left _ _)

/-- A section of pieces carries the updates out, and then the burst of everything else. -/
theorem run_sectionOf_delivered (tidy : s.Tidy .all) (shut : s.held.isOpen = false)
    (entity : EntityId) (leads : Bool) (pieces : List Piece) :
    s.run ((sectionOf (delivered entity leads pieces)).map .receive) =
      .ok ((s.updateAll entity (updates pieces)).drain
        (burstOf entity leads (additions pieces))) := by
  rw [run_sectionOf tidy shut (run_delivered s entity leads pieces), holding_updateAll tidy shut]

/-- **A section does what its operations do with all updates first.** Whether an entity is built,
not known, or a draft at any stage: after a section in which components of it are added and updated,
it has the draft, the channel and the fields that it has when the updates come first, then the
addition of the entity if there is one, and then the added components. -/
theorem agree_updatesFirst {settings : Settings} {protocol : Protocol} {past : List Act}
    (reached : (start settings protocol).run past = .ok s) (shut : s.held.isOpen = false)
    (entity : EntityId) (leads : Bool) (pieces : List Piece)
    (few : allocations ((start settings protocol).course
      (past ++ (sectionOf (delivered entity leads pieces)).map .receive)) < 2 ^ 32) :
    ∃ s₁ s₂, s.run ((sectionOf (delivered entity leads pieces)).map .receive) = .ok s₁ ∧
      s.run ((updatesFirst entity leads pieces).map .receive) = .ok s₂ ∧ Agree entity s₁ s₂ := by
  have tidy := tidy_of_run reached
  refine ⟨_, _, run_sectionOf_delivered tidy shut entity leads pieces,
    run_updatesFirst s entity leads pieces, ?_⟩
  have closed : (s.updateAll entity (updates pieces)).held.isOpen = false := by
    rw [held_updateAll]
    exact shut
  by_cases unbuilt : s.channels.get? entity = none
  · rw [course_append reached, allocations_append] at few
    have h := orderly_of_run reached (Nat.lt_of_le_of_lt (Nat.le_add_right _ _) few)
    have issued := (issued_of_run reached (Nat.lt_of_le_of_lt (Nat.le_add_right _ _) few)).2
    have room := allocations_section_le tidy shut (run_delivered s entity leads pieces) rfl
    rw [holding_updateAll tidy shut] at room
    have kept := tidy.updateAll entity (updates pieces)
    obtain ⟨drafts, same⟩ := updateAll_unbuilt unbuilt (updates pieces)
    rw [same] at closed room kept ⊢
    by_cases awaited : leads = true ∨ drafts.get? entity ≠ none
    · refine agree_drain closed (h.draft kept.drafts) unbuilt awaited _ ?_
      show s.world.pool.issued + _ ≤ _
      rw [issued]
      omega
    · rw [not_or, not_not] at awaited
      rw [drain_burstOf_applied (s := { s with drafts }) closed awaited.2 (absurd · awaited.1)]
      exact .refl _ _
  · -- An entity that is built has no draft, and takes updates and additions alike.
    have undrafted : s.drafts.get? entity = none := by
      by_contra drafted
      obtain ⟨draft, found⟩ := Option.ne_none_iff_exists'.mp drafted
      exact unbuilt (tidy.drafts entity draft found).2.1
    have routine := routine_applyAll s entity (updates pieces)
    rw [updateAll_undrafted undrafted] at closed ⊢
    rw [drain_burstOf_applied closed (by rw [routine.drafts]; exact undrafted)
      (fun _ => by rw [routine.channels]; exact unbuilt)]
    exact .refl _ _

/-- A component that writes one field of a crate. -/
def fieldOf (n : Int32) : ComponentData := ⟨Stock.rootDataComponent, Wire.fields [.at 5 (.int n)]⟩

/-- A field is written by a component that is added, and then by an update. -/
def lateUpdate : List Piece := [.added (fieldOf 1), .updated (fieldOf 2)]

theorem agree_updatesFirst_lateUpdate :
    ∃ s s₁ s₂, (start {} Stock.protocol).run crate = .ok s ∧
      s.run ((sectionOf (delivered 1 false lateUpdate)).map .receive) = .ok s₁ ∧
      s.run ((updatesFirst 1 false lateUpdate).map .receive) = .ok s₂ ∧ Agree 1 s₁ s₂ := by
  obtain ⟨s, reached, shut⟩ := exists_run (start {} Stock.protocol) crate (fun s => !s.held.isOpen)
    (by decide +kernel)
  obtain ⟨s₁, s₂, ran, ran', agree⟩ := agree_updatesFirst reached (by simpa using shut) 1 false
    lateUpdate (by decide +kernel)
  exact ⟨s, s₁, s₂, reached, ran, ran', agree⟩

/-- A crate is made, and then one of its fields is updated. -/
def updateOfNew : List Piece := [.added crateSpawn, .updated (fieldOf 2)]

/-- In a section the added component overwrites a later update, and an update of an entity that the
section adds is lost. Outside a section both updates are seen. -/
theorem field_lateUpdate :
    (∃ s s₁ s₂, (start {} Stock.protocol).run crate = .ok s ∧ s.held.isOpen = false ∧
      s.run ((sectionOf (delivered 1 false lateUpdate)).map .receive) = .ok s₁ ∧
      s.run ((delivered 1 false lateUpdate).map .receive) = .ok s₂ ∧
      s₁.world.liveRootsOf 1 = [⟨0, 0⟩] ∧ s₂.world.liveRootsOf 1 = [⟨0, 0⟩] ∧
      s₁.world.field? ⟨0, 0⟩ 5 = some (.int 1) ∧ s₂.world.field? ⟨0, 0⟩ 5 = some (.int 2)) ∧
    ∃ s₁ s₂,
      (start {} Stock.protocol).run ((sectionOf (delivered 1 true updateOfNew)).map .receive) =
        .ok s₁ ∧
      (start {} Stock.protocol).run ((delivered 1 true updateOfNew).map .receive) = .ok s₂ ∧
      s₁.world.liveRootsOf 1 = [⟨0, 0⟩] ∧ s₂.world.liveRootsOf 1 = [⟨0, 0⟩] ∧
      s₁.world.field? ⟨0, 0⟩ 5 = none ∧ s₂.world.field? ⟨0, 0⟩ 5 = some (.int 2) := by
  let shows (value : Option Localized) (s : Session) : Bool :=
    s.world.liveRootsOf 1 == [⟨0, 0⟩] && s.world.field? ⟨0, 0⟩ 5 == value
  have shown {value : Option Localized} {s : Session} (test : shows value s = true) :
      s.world.liveRootsOf 1 = [⟨0, 0⟩] ∧ s.world.field? ⟨0, 0⟩ 5 = value := by
    rwa [Bool.and_eq_true, beq_iff_eq, beq_iff_eq] at test
  constructor
  · obtain ⟨s, s₁, reached, ran, test⟩ := exists_runs (start {} Stock.protocol) crate
      ((sectionOf (delivered 1 false lateUpdate)).map .receive)
      (fun s s₁ => !s.held.isOpen && shows (some (.int 1)) s₁) (by decide +kernel)
    obtain ⟨t, s₂, reached', ran', test'⟩ := exists_runs (start {} Stock.protocol) crate
      ((delivered 1 false lateUpdate).map .receive) (fun _ s₂ => shows (some (.int 2)) s₂)
      (by decide +kernel)
    cases reached.symm.trans reached'
    rw [Bool.and_eq_true, Bool.not_eq_true'] at test
    obtain ⟨shut, test⟩ := test
    exact ⟨s, s₁, s₂, reached, shut, ran, ran', (shown test).1, (shown test').1, (shown test).2,
      (shown test').2⟩
  · obtain ⟨s₁, ran, test⟩ := exists_run (start {} Stock.protocol)
      ((sectionOf (delivered 1 true updateOfNew)).map .receive) (shows none) (by decide +kernel)
    obtain ⟨s₂, ran', test'⟩ := exists_run (start {} Stock.protocol)
      ((delivered 1 true updateOfNew).map .receive) (shows (some (.int 2))) (by decide +kernel)
    exact ⟨s₁, s₂, ran, ran', (shown test).1, (shown test').1, (shown test).2, (shown test').2⟩

end Session

end Replica
