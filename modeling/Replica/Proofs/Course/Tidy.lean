import Replica.Proofs.Course
import Replica.Proofs.Frame

/-! # Tidy sessions

Drafts, channels and the open section keep each other in order: an entity is a draft or built but
not both, and what is held back was handed over. A host may promise to hand over only what lies in
some **scope**; then drafts and sections hold nothing else. Every move keeps a session tidy.

Main definitions:
* `Scope` — a restriction on what a host does; `Scope.all` restricts nothing.
* `Session.Tidy` — the order between the parts of a session.
* `Move.Apt` — when a move is made by an act. -/

namespace Replica

/-! ## Scopes -/

/-- A **scope**: what a host may do. -/
structure Scope where
  /-- The components that may be handed over. -/
  data : ComponentData → Prop
  /-- The entities that may be removed. -/
  removal : EntityId → Prop
  /-- The objects that may be reported from outside. -/
  arrival : Arrival → Prop
  /-- The changes of the world. -/
  change : WorldChange → Prop

/-- The scope of a host that may do everything. -/
def Scope.all : Scope := ⟨fun _ => True, fun _ => True, fun _ => True, fun _ => True⟩

/-- An operation lies in a scope. -/
def Operation.Within (scope : Scope) : Operation → Prop
  | .removeEntity entity => scope.removal entity
  | .addComponent _ data | .componentUpdate _ data => scope.data data
  | _ => True

/-- An act lies in a scope. -/
def Act.Within (scope : Scope) : Act → Prop
  | .receive operation => operation.Within scope
  | .tryUpdate _ update => scope.data update
  | .announce arrival => scope.arrival arrival
  | .alter change => scope.change change
  | _ => True

/-- Every operation lies in the scope that restricts nothing. -/
theorem Operation.within_all (operation : Operation) : operation.Within .all := by
  cases operation <;> trivial

/-- So does every act. -/
theorem Act.within_all (a : Act) : a.Within .all := by
  cases a with
  | receive operation => exact operation.within_all
  | _ => trivial

/-! ## Drafts in order -/

variable {scope : Scope}

/-- An entity is built just if it has a channel. -/
theorem Channels.contains_eq (cs : Channels) (entity : EntityId) :
    cs.contains entity = (cs.get? entity).isSome :=
  Std.ExtTreeMap.contains_eq_isSome_getElem?

/-- An entity is being built just if it has a draft. -/
theorem Drafts.contains_eq (ds : Drafts) (entity : EntityId) :
    ds.contains entity = (ds.get? entity).isSome :=
  Std.ExtTreeMap.contains_eq_isSome_getElem?

/-- Drafts are **tidy** if each is filed under its entity, which is not built, and has collected
only what lies in the scope. -/
def Drafts.Tidy (scope : Scope) (channels : Channels) (ds : Drafts) : Prop :=
  ∀ (entity : EntityId) (draft : Draft), ds.get? entity = some draft →
    draft.entity = entity ∧ channels.get? entity = none ∧ ∀ data ∈ draft.components, scope.data data

namespace Drafts

variable {channels : Channels} {ds : Drafts}

/-- A component that is added waits at the end of the draft of its entity. -/
theorem get?_addComponent (ds : Drafts) (entity k : EntityId) (data : ComponentData) :
    (ds.addComponent entity data).get? k =
      if entity = k then
        (ds.get? k).map fun d => { d with components := d.components ++ [data] }
      else ds.get? k :=
  get?_modify ds entity k _

/-- An authority that is held back waits at the end of the draft of its entity. -/
theorem get?_addAuthority (ds : Drafts) (entity k : EntityId) (component : ComponentId)
    (authority : Authority) :
    (ds.addAuthority entity component authority).get? k =
      if entity = k then
        (ds.get? k).map fun d => { d with authority := d.authority ++ [(component, authority)] }
      else ds.get? k :=
  get?_modify ds entity k _

/-- Spawn data decides the stage of the draft of its entity. -/
theorem get?_setSpawn (ds : Drafts) (entity k : EntityId) (spawn : Spawn) :
    (ds.setSpawn entity spawn).get? k =
      if entity = k then
        (ds.get? k).map fun d => { d with spawn := some spawn, stage := ds.stageFor spawn }
      else ds.get? k := by
  unfold setSpawn
  split
  · rw [← get?_modify]
    dsimp only
    split <;> rfl
  · rename_i absent
    split
    · subst entity
      have none : ds.get? k = none := by simpa [contains_eq] using absent
      simp [none]
    · rfl

/-- Just the drafts that are ready are taken out. -/
theorem takeReady_eq_some {entity : EntityId} {draft : Draft} {ds' : Drafts} :
    ds.takeReady entity = some (draft, ds') ↔
      ds.get? entity = some draft ∧ draft.stage = .ready ∧
        ds' = { ds with records := ds.records.erase entity } := by
  have taken : ds.takeReady entity = (ds.get? entity).bind fun d =>
      (if d.stage = .ready then some () else none).bind fun _ =>
        some (d, { ds with records := ds.records.erase entity }) := rfl
  simp only [taken, Option.bind_eq_some_iff, Option.some.injEq, Prod.mk.injEq]
  constructor
  · rintro ⟨d, found, ⟨⟩, ready, rfl, rfl⟩
    -- The guard lets only a draft through that is ready.
    split at ready
    · rename_i is
      exact ⟨found, is, rfl⟩
    · cases ready
  · rintro ⟨found, ready, rfl⟩
    exact ⟨draft, found, (), by simp [ready], rfl, rfl⟩

/-- A draft that is not ready is not taken out. -/
theorem takeReady_of_unready {entity : EntityId} {draft : Draft}
    (found : ds.get? entity = some draft) (unready : draft.stage ≠ .ready) :
    ds.takeReady entity = none := by
  rw [Option.eq_none_iff_forall_ne_some]
  intro ⟨d, ds'⟩ taken
  obtain ⟨same, ready, -⟩ := takeReady_eq_some.mp taken
  cases found.symm.trans same
  exact unready ready

/-- A draft that is erased is not found, and every other is. -/
theorem get?_erased (ds : Drafts) (entity k : EntityId) :
    ({ ds with records := ds.records.erase entity } : Drafts).get? k =
      if entity = k then none else ds.get? k := by
  simp [get?, Std.ExtTreeMap.getElem?_erase]

/-- A change of one draft that leaves its entity alone and collects nothing outside the scope keeps
drafts tidy. -/
theorem Tidy.of_map (h : ds.Tidy scope channels) {ds' : Drafts} {entity : EntityId}
    {f : Draft → Draft}
    (get : ∀ k, ds'.get? k = if entity = k then (ds.get? k).map f else ds.get? k)
    (same : ∀ d, (f d).entity = d.entity)
    (good : ∀ d, (∀ data ∈ d.components, scope.data data) →
      ∀ data ∈ (f d).components, scope.data data) :
    ds'.Tidy scope channels := by
  intro k draft found
  rw [get] at found
  split at found
  · obtain ⟨d, before, rfl⟩ := Option.map_eq_some_iff.mp found
    obtain ⟨filed, unbuilt, within⟩ := h k d before
    exact ⟨(same d).trans filed, unbuilt, good d within⟩
  · exact h k draft found

/-- Drafts stay tidy when a component in the scope is added. -/
theorem Tidy.addComponent (h : ds.Tidy scope channels) (entity : EntityId) {data : ComponentData}
    (within : scope.data data) : (ds.addComponent entity data).Tidy scope channels := by
  refine h.of_map (get?_addComponent ds entity · data) (fun _ => rfl) ?_
  intro d good other mem
  rcases List.mem_append.mp mem with old | new
  · exact good other old
  · rw [List.mem_singleton.mp new]
    exact within

/-- Drafts stay tidy when an authority is held back. -/
theorem Tidy.addAuthority (h : ds.Tidy scope channels) (entity : EntityId)
    (component : ComponentId) (authority : Authority) :
    (ds.addAuthority entity component authority).Tidy scope channels :=
  h.of_map (get?_addAuthority ds entity · component authority) (fun _ => rfl) fun _ good => good

/-- Drafts stay tidy when spawn data comes. -/
theorem Tidy.setSpawn (h : ds.Tidy scope channels) (entity : EntityId) (spawn : Spawn) :
    (ds.setSpawn entity spawn).Tidy scope channels :=
  h.of_map (get?_setSpawn ds entity · spawn) (fun _ => rfl) fun _ good => good

/-- Drafts stay tidy when one is begun for an entity that is not built. -/
theorem Tidy.begin (h : ds.Tidy scope channels) {entity : EntityId}
    (unbuilt : channels.get? entity = none) : (ds.begin entity).Tidy scope channels := by
  intro k draft found
  rw [get?_begin] at found
  split at found
  · subst k
    cases before : ds.get? entity with
    | some d =>
      simp only [before, Option.getD_some, Option.some.injEq] at found
      exact found ▸ h entity d before
    | none =>
      simp only [before, Option.getD_none, Option.some.injEq] at found
      subst found
      exact ⟨rfl, unbuilt, by simp⟩
  · exact h k draft found

/-- Drafts of which some are dropped stay tidy. -/
theorem Tidy.of_subset (h : ds.Tidy scope channels) {ds' : Drafts}
    (sub : ∀ k draft, ds'.get? k = some draft → ds.get? k = some draft) :
    ds'.Tidy scope channels :=
  fun k draft found => h k draft (sub k draft found)

/-- Drafts stay tidy when one is dropped. -/
theorem Tidy.remove (h : ds.Tidy scope channels) (entity : EntityId) :
    (ds.remove entity).Tidy scope channels := by
  refine h.of_subset ?_
  intro k draft found
  rw [get?_remove] at found
  split at found
  · cases found
  · exact found

/-- Drafts stay tidy when one that is ready is taken out. -/
theorem Tidy.takeReady (h : ds.Tidy scope channels) {entity : EntityId} {draft : Draft}
    {ds' : Drafts} (taken : ds.takeReady entity = some (draft, ds')) :
    ds'.Tidy scope channels := by
  obtain ⟨-, -, rfl⟩ := takeReady_eq_some.mp taken
  refine h.of_subset ?_
  intro k draft found
  rw [get?_erased] at found
  split at found
  · cases found
  · exact found

/-- Drafts stay tidy when a container is loaded. -/
theorem Tidy.load (h : ds.Tidy scope channels) (c : Container) :
    (ds.load c).2.Tidy scope channels := by
  have started : ({ ds with streaming := ds.streaming.load c } : Drafts).Tidy scope channels := h
  unfold Drafts.load
  generalize (ds.streaming.waitingOn c).filter (ds.isWaitingOn c) = freed
  dsimp only
  revert started
  generalize ({ ds with streaming := ds.streaming.load c } : Drafts) = ds₁
  -- Each draft that is set free changes its stage and nothing else.
  induction freed generalizing ds₁ with
  | nil => exact id
  | cons entity freed ih =>
    exact fun tidy =>
      ih _ (tidy.of_map (get?_modify ds₁ entity · _) (fun _ => rfl) fun _ good => good)

/-- Drafts stay tidy while no further entity is built. -/
theorem Tidy.of_channels (h : ds.Tidy scope channels) {channels' : Channels}
    (unbuilt : ∀ k, ds.get? k ≠ none → channels.get? k = none → channels'.get? k = none) :
    ds.Tidy scope channels' := by
  intro k draft found
  obtain ⟨filed, none, good⟩ := h k draft found
  exact ⟨filed, unbuilt k (by simp [found]) none, good⟩

end Drafts

/-! ## Bursts in order -/

/-- A burst lies in a scope. -/
structure Burst.Within (scope : Scope) (b : Burst) : Prop where
  /-- The entities to be removed. -/
  removed : ∀ entity ∈ b.removed, scope.removal entity
  /-- The components to be added. -/
  components : ∀ added ∈ b.components, scope.data added.data
  /-- The objects to be made known. -/
  arrivals : ∀ arrival ∈ b.arrivals, scope.arrival arrival

namespace Burst.Within

variable {b : Burst}

/-- A burst that holds nothing back lies in every scope. -/
theorem empty : ({} : Burst).Within scope := ⟨by simp, by simp, by simp⟩

/-- A burst that adds an entity lies in every scope. -/
theorem added (entity : EntityId) : ({ added := [entity] } : Burst).Within scope :=
  ⟨by simp, by simp, by simp⟩

/-- Cancelling drops some of what is held back. -/
theorem cancel (h : b.Within scope) (entity : EntityId) : (b.cancel entity).Within scope :=
  ⟨h.removed, fun added mem => h.components added (List.mem_filter.mp mem).1, h.arrivals⟩

/-- An entity is entered among those to be removed. -/
theorem enter (h : b.Within scope) {entity : EntityId} (within : scope.removal entity) :
    (if b.removed.contains entity then b
      else { b with removed := b.removed ++ [entity] }).Within scope := by
  split
  · exact h
  · refine ⟨?_, h.components, h.arrivals⟩
    intro k mem
    rcases List.mem_append.mp mem with old | new
    · exact h.removed k old
    · rw [List.mem_singleton.mp new]
      exact within

/-- An operation in the scope is held back in the scope. -/
theorem keep (h : b.Within scope) {operation : Operation} (within : operation.Within scope) :
    (b.keep operation).Within scope := by
  cases operation with
  | removeEntity entity =>
    -- Whether the entity was to be added or not, nothing outside the scope is entered.
    by_cases new : b.added.contains entity = true
    · simpa only [Burst.keep, Burst.removeEntity, new, if_true] using (h.cancel entity).enter within
    · simpa only [Burst.keep, Burst.removeEntity, if_neg new] using h.enter within
  | addComponent entity data =>
    refine ⟨h.removed, ?_, h.arrivals⟩
    intro added mem
    rcases List.mem_append.mp mem with old | new
    · exact h.components added old
    · rw [List.mem_singleton.mp new]
      exact within
  | _ => exact ⟨h.removed, h.components, h.arrivals⟩

/-- An arrival in the scope is held back in the scope. -/
theorem announce (h : b.Within scope) {arrival : Arrival} (within : scope.arrival arrival) :
    (b.announce arrival).Within scope := by
  refine ⟨h.removed, h.components, ?_⟩
  intro other mem
  rcases List.mem_append.mp mem with old | new
  · exact h.arrivals other old
  · rw [List.mem_singleton.mp new]
    exact within

end Burst.Within

/-! ## Sections -/

/-- The end of a section: where none is open nothing happens, an inner one yields nothing, and the
outermost one yields the burst. -/
theorem Section.leave_cases (h : Section) :
    h.isOpen = false ∧ h.leave = (none, h) ∨
      h.isOpen = true ∧ h.leave = (some h.burst, {}) ∨
      h.isOpen = true ∧
        ∃ inner : Section,
          inner.isOpen = true ∧ inner.burst = h.burst ∧ h.leave = (none, inner) := by
  obtain ⟨depth, burst⟩ := h
  match depth with
  | 0 => exact .inl ⟨rfl, rfl⟩
  | 1 => exact .inr (.inl ⟨rfl, rfl⟩)
  | depth + 2 => exact .inr (.inr ⟨rfl, ⟨depth + 1, burst⟩, rfl, rfl, rfl⟩)

/-! ## Tidy sessions -/

/-- A session is **tidy** if its drafts, channels and held operations are in order. -/
structure Session.Tidy (scope : Scope) (s : Session) : Prop where
  /-- The drafts are tidy. -/
  drafts : s.drafts.Tidy scope s.channels
  /-- Each channel is filed under its entity. -/
  channels : ∀ (entity : EntityId) (c : Channel), s.channels.get? entity = some c →
    c.entity = entity
  /-- What is held back lies in the scope. -/
  burst : s.held.burst.Within scope
  /-- Nothing is held back where no section is open. -/
  closed : s.held.isOpen = false → s.held.burst = {}

namespace Session

variable {s s' : Session}

/-- The session that has received nothing is tidy. -/
theorem tidy_start (settings : Settings) (protocol : Protocol) :
    (start settings protocol).Tidy scope where
  drafts entity draft found := by simp [start, Drafts.get?, Drafts.empty] at found
  channels entity c found := by simp [start, Channels.get?, Channels.empty] at found
  burst := .empty
  closed _ := rfl

/-- A routine keeps a session tidy. -/
theorem Tidy.routine (h : s.Tidy scope) (r : s.Routine s') : s'.Tidy scope where
  drafts := by rw [r.drafts, r.channels]; exact h.drafts
  channels := by rw [r.channels]; exact h.channels
  burst := by rw [r.held]; exact h.burst
  closed := by rw [r.held]; exact h.closed

/-- The objects of an entity are made and known: how the channel opens. -/
theorem found_eq_some {draft : Draft} {channel : Channel} :
    s.found draft = (some channel, s') ↔
      ∃ spawn assembly world channels, draft.spawn = some spawn ∧
        s.world.instantiate draft.entity spawn = .ok (assembly, world) ∧
        s.channels.open? draft.entity assembly = some (channel, channels) ∧
        s' = { s with
          world, channels
          directory := channel.members.foldl (fun d (r, h) => d.register r h) s.directory } := by
  unfold found
  constructor
  · intro h
    split at h
    · cases h
    · split at h
      · cases h
      · split at h
        · cases h
        · rename_i spawned _ _ _ built _ _ _ opened
          cases h
          exact ⟨_, _, _, _, spawned, built, opened, rfl⟩
  · rintro ⟨spawn, assembly, world, channels, spawned, built, opened, rfl⟩
    simp only [spawned, built, opened]

/-- Where no channel opens, only the world may have changed, and not even that where the entity is
not built. -/
theorem found_eq_none {draft : Draft} (h : s.found draft = (none, s')) :
    s' = s ∨ s.channels.get? draft.entity ≠ none ∧ ∃ w, s' = { s with world := w } := by
  unfold found at h
  split at h
  · cases h
    exact .inl rfl
  · split at h
    · cases h
      exact .inl rfl
    · split at h
      · rename_i refused
        cases h
        refine .inr ⟨?_, _, rfl⟩
        intro none
        simp [Channels.open?, Channels.contains_eq, none] at refused
      · cases h

/-- A new channel replicates the entity of the draft, which had none. -/
theorem found_channels {draft : Draft} {channel : Channel}
    (h : s.found draft = (some channel, s')) :
    channel.entity = draft.entity ∧ s.channels.get? draft.entity = none ∧
      ∀ k, s'.channels.get? k = if draft.entity = k then some channel else s.channels.get? k := by
  obtain ⟨spawn, assembly, world, channels, -, -, opened, rfl⟩ := found_eq_some.mp h
  refine ⟨?_, ?_, Channels.get?_of_open? opened⟩
  · unfold Channels.open? at opened
    split at opened
    · cases opened
    · cases opened
      rfl
  · unfold Channels.open? at opened
    split at opened
    · cases opened
    · rename_i absent
      simpa [Channels.contains_eq] using absent

end Session

/-- The move that builds an entity changes the world, the channels and the directory alone. -/
theorem Work.exists_perform_found (w : Work) (draft : Draft) :
    ∃ world channels directory,
      (w.perform (.found draft)).session = { w.session with world, channels, directory } := by
  simp only [perform]
  split
  · rename_i step
    obtain ⟨_, _, _, _, -, -, -, rfl⟩ := Session.found_eq_some.mp step
    exact ⟨_, _, _, rfl⟩
  · rename_i step
    rcases Session.found_eq_none step with rfl | ⟨-, _, rfl⟩
    · exact ⟨_, _, _, rfl⟩
    · exact ⟨_, _, _, rfl⟩

/-! ## Apt moves -/

/-- A move is **apt** if an act could make it: what is handed over lies in the scope, a draft is of
an entity that is not built, a channel that is worked on is open, what is written are properties, a
call is addressed to a live object and spelt right, and what is replayed is due. -/
def Move.Apt (scope : Scope) (w : Work) : Move → Prop
  | .mark _ | .settle _ _ _ | .authorize _ => True
  | .hold operation => w.session.held.isOpen = true ∧ operation.Within scope
  | .draft drafts => drafts.Tidy scope w.session.channels
  | .alter change => scope.change change
  | .learn arrival => scope.arrival arrival
  | .found d => w.session.channels.get? d.entity = none ∧ w.session.drafts.get? d.entity = none
  | .populate channel data =>
    w.session.channels.get? channel.entity = some channel ∧ scope.data data
  | .complete channel => w.session.channels.get? channel.entity = some channel
  | .write entity data =>
    scope.data data ∧ ∀ b t, w.session.target entity data.component = .ok (b, t) →
      b.role.carriesProperties = true
  | .deliver call =>
    w.session.world.isAlive call.target = true ∧ Wire.decodeArgs call.payload = .ok call.args
  | .replay arrival => arrival ∈ w.due
  | .remove entity => scope.removal entity

namespace Session

variable {s : Session}

/-- Only the drafts, the channels and the held operations decide whether a session is tidy. -/
theorem Tidy.congr (h : s.Tidy scope) {s' : Session} (drafts : s'.drafts = s.drafts)
    (channels : s'.channels = s.channels) (held : s'.held = s.held) : s'.Tidy scope where
  drafts := by rw [drafts, channels]; exact h.drafts
  channels := by rw [channels]; exact h.channels
  burst := by rw [held]; exact h.burst
  closed := by rw [held]; exact h.closed

/-- A session stays tidy when a section ends. -/
theorem Tidy.leave (h : s.Tidy scope) : { s with held := s.held.leave.2 }.Tidy scope := by
  rcases s.held.leave_cases with ⟨-, left⟩ | ⟨-, left⟩ | ⟨-, inner, isOpen, same, left⟩
  · rw [left]
    exact h
  · rw [left]
    exact ⟨h.drafts, h.channels, .empty, fun _ => rfl⟩
  · rw [left]
    refine ⟨h.drafts, h.channels, same ▸ h.burst, ?_⟩
    intro shut
    exact absurd (isOpen.symm.trans shut) (by decide)

/-- The burst that the end of a section yields lies in the scope. -/
theorem Tidy.burst_of_leave (h : s.Tidy scope) {b : Burst} {held : Section}
    (yields : s.held.leave = (some b, held)) : b.Within scope := by
  rcases s.held.leave_cases with ⟨-, left⟩ | ⟨-, left⟩ | ⟨-, inner, -, -, left⟩
  · rw [left] at yields
    cases yields
  · rw [left] at yields
    cases yields
    exact h.burst
  · rw [left] at yields
    cases yields

/-- A session stays tidy when the object of an entity is founded that has no draft any more. -/
theorem Tidy.found (h : s.Tidy scope) {draft : Draft}
    (undrafted : s.drafts.get? draft.entity = none) : (s.found draft).2.Tidy scope := by
  cases step : s.found draft with
  | mk channel s' =>
    cases channel with
    | none =>
      rcases found_eq_none step with rfl | ⟨-, w, rfl⟩
      · exact h
      · exact h.congr rfl rfl rfl
    | some channel =>
      obtain ⟨filed, unbuilt, get⟩ := found_channels step
      obtain ⟨spawn, assembly, world, channels, -, -, opened, rfl⟩ := found_eq_some.mp step
      -- The new channel belongs to an entity that has no draft, so the drafts stay apart from it.
      refine ⟨h.drafts.of_channels ?_, ?_, h.burst, h.closed⟩
      · intro k drafted none
        rw [get]
        split
        · subst k
          exact absurd undrafted drafted
        · exact none
      · intro k c found
        rw [get] at found
        split at found
        · cases found
          exact filed.trans ‹_›
        · exact h.channels k c found

/-- A session stays tidy when authority changes. -/
theorem Tidy.changeAuthority (h : s.Tidy scope) (change : AuthorityChange) :
    (s.changeAuthority change).Tidy scope := by
  unfold Session.changeAuthority
  split
  · rename_i channel found
    have filed : (channel.setAuthority change.component change.authority).entity = change.entity :=
      h.channels change.entity channel found
    refine ⟨h.drafts.of_channels fun k _ none => ?_, ?_, h.burst, h.closed⟩
    · rw [Channels.get?_update, filed]
      split
      · subst k
        rw [found] at none
        cases none
      · exact none
    · intro k c get
      rw [Channels.get?_update, filed] at get
      split at get
      · cases get
        exact filed.trans ‹_›
      · exact h.channels k c get
  · exact ⟨h.drafts.addAuthority _ _ _, h.channels, h.burst, h.closed⟩

/-- A change of authority over a built entity is kept, announced and reported. -/
theorem changeAuthority_of_built {change : AuthorityChange} {channel : Channel}
    (built : s.channels.get? change.entity = some channel) :
    s.changeAuthority change = { s with
      channels := s.channels.update (channel.setAuthority change.component change.authority)
      world := s.world.announceAuthority (s.authorityTarget channel change.component)
        change.component change.authority
      events := s.events ++
        [.authorityChanged change.entity change.component change.authority] } := by
  rw [Session.changeAuthority, built]

/-- One over any other entity goes to its draft. -/
theorem changeAuthority_of_unbuilt {change : AuthorityChange}
    (unbuilt : s.channels.get? change.entity = none) :
    s.changeAuthority change = { s with
      drafts := s.drafts.addAuthority change.entity change.component change.authority } := by
  rw [Session.changeAuthority, unbuilt]

/-- **Taking an entity down** drops its draft, does nothing, or closes its channel. -/
theorem remove_cases (s : Session) (entity : EntityId) :
    s.drafts.contains entity = true ∧
        s.remove entity = { s with drafts := s.drafts.remove entity } ∨
      s.channels.get? entity = none ∧ s.remove entity = s ∨
      ∃ channel, s.channels.get? entity = some channel ∧ s.remove entity = { s with
        channels := s.channels.close entity
        waitlist := s.waitlist.removeChannel channel.id
        directory := s.directory.unregisterEntity entity
        requests := s.requests.dropOwned (channel.members.map (·.2))
        world := s.world.destroy channel.root
        events := s.events ++ [.entityRemoved entity] } := by
  unfold remove
  split
  · rename_i drafted
    exact .inl ⟨drafted, rfl⟩
  · split
    · rename_i absent
      exact .inr (.inl ⟨absent, rfl⟩)
    · rename_i channel opened
      exact .inr (.inr ⟨channel, opened, rfl⟩)

/-- A session stays tidy when an entity is removed. -/
theorem Tidy.remove (h : s.Tidy scope) (entity : EntityId) : (s.remove entity).Tidy scope := by
  rcases s.remove_cases entity with ⟨-, same⟩ | ⟨-, same⟩ | ⟨channel, -, same⟩
  · rw [same]
    exact ⟨h.drafts.remove entity, h.channels, h.burst, h.closed⟩
  · rw [same]
    exact h
  · rw [same]
    refine ⟨h.drafts.of_channels fun k _ none => ?_, ?_, h.burst, h.closed⟩
    · rw [Channels.get?_close]
      split
      · rfl
      · exact none
    · intro k c get
      rw [Channels.get?_close] at get
      split at get
      · cases get
      · exact h.channels k c get

/-- A payload for a built entity is written, or dropped. -/
theorem writes_write (s : Session) (entity : EntityId) (data : ComponentData) :
    s.Writes (s.write entity data) := by
  unfold write
  split
  · exact .refused
  · split
    · rename_i ok
      exact .applied ok
    · exact .refused

/-- A call that is delivered is a matter of routine: it leaves drafts, channels and section alone.
-/
theorem routine_deliverCall (s : Session) (call : Delivered) : s.Routine (s.deliverCall call) :=
  routine_dispatch s _ _ _ _

end Session

/-- Every apt move keeps a session tidy. -/
theorem Move.Apt.tidy {w : Work} {m : Move} (apt : m.Apt scope w) (h : w.session.Tidy scope) :
    (w.perform m).session.Tidy scope := by
  cases m with
  | mark opens =>
    cases opens with
    | true =>
      exact ⟨h.drafts, h.channels, h.burst, fun shut => absurd shut (by simp [Work.perform])⟩
    | false =>
      -- The burst leaves the section as a whole, or stays in it as a whole.
      have left := h.leave
      simp only [Work.perform]
      split
      · rename_i burst held yields
        rwa [yields] at left
      · rename_i held yields
        rwa [yields] at left
  | hold operation =>
    obtain ⟨isOpen, within⟩ := apt
    refine ⟨h.drafts, h.channels, h.burst.keep within, ?_⟩
    intro shut
    exact absurd (isOpen.symm.trans shut) (by decide)
  | draft drafts => exact ⟨apt, h.channels, h.burst, h.closed⟩
  | settle requests events deliveries => exact h.congr rfl rfl rfl
  | alter change => exact h.congr rfl rfl rfl
  | learn arrival =>
    simp only [Work.perform]
    split
    · rename_i holds
      refine ⟨h.drafts, h.channels, h.burst.announce apt, ?_⟩
      intro shut
      rw [Bool.and_eq_true] at holds
      exact absurd (holds.1.symm.trans shut) (by decide)
    · exact h.congr rfl rfl rfl
  | found draft =>
    have tidy := h.found apt.2
    simp only [Work.perform]
    split
    · rename_i channel s' step
      rwa [step] at tidy
    · rename_i s' step
      rwa [step] at tidy
  | populate channel data => exact h.routine (Session.writes_populate channel _ data).routine
  | complete channel => exact h.congr rfl rfl rfl
  | authorize change => exact h.changeAuthority change
  | write entity data => exact h.routine (Session.writes_write _ entity data).routine
  | deliver call => exact h.routine (Session.routine_deliverCall _ call)
  | replay arrival => exact h.routine (Session.routine_resolveNow _ arrival)
  | remove entity => exact h.remove entity

end Replica
