import Replica.Proofs.Roots
import Replica.Proofs.Section

/-! # What happens to other entities

What a session does for one entity leaves the drafts, the channels and the root objects of all
others alone, and what entities are built from. Updates and invocations do so even for the entity
that they are addressed to, once it is built.

Main definitions:
* `Session.SameStock` — the roots built so far of an entity are the same, and what it is built from.
* `Session.Spares` — so are its root and its draft.
* `Session.spares_remove`, `Session.spares_advance` and the others — for each step, the entities
  that it spares. -/

namespace Replica

/-! ## Drafts and what is loaded -/

namespace Drafts

theorem streaming_modify (ds : Drafts) (entity : EntityId) (f : Draft → Draft) :
    (ds.modify entity f).streaming = ds.streaming := by
  unfold modify
  split <;> rfl

theorem streaming_begin (ds : Drafts) (entity : EntityId) :
    (ds.begin entity).streaming = ds.streaming := by
  unfold begin
  split <;> rfl

/-- Spawn data loads no container. -/
theorem loaded_setSpawn (ds : Drafts) (entity : EntityId) (spawn : Spawn) :
    (ds.setSpawn entity spawn).streaming.loaded = ds.streaming.loaded := by
  unfold setSpawn
  split
  · dsimp only
    have kept := congrArg Streaming.loaded (streaming_modify ds entity
      ({ · with spawn := some spawn, stage := ds.stageFor spawn }))
    split
    · unfold Streaming.defer
      exact kept
    · exact kept
  · rfl

/-- Dropping a draft loads no container. -/
theorem loaded_remove (ds : Drafts) (entity : EntityId) :
    (ds.remove entity).streaming.loaded = ds.streaming.loaded := by
  unfold remove
  split
  · rfl
  · dsimp only
    split
    · unfold Streaming.forget
      rfl
    · rfl

end Drafts

/-! ## Worlds -/

namespace World

variable {w w' : World}

/-- The roots of an entity are told by what was noted. -/
theorem rootsOf_congr (noted : w'.journal.instantiated = w.journal.instantiated)
    (entity : EntityId) : w'.rootsOf entity = w.rootsOf entity := by
  rw [rootsOf, rootsOf, noted]

theorem setup_placeParts (w : World) (entity : EntityId) (className : String)
    (offsets : List Offset) :
    (w.placeParts entity className offsets).2.classes = w.classes ∧
      (w.placeParts entity className offsets).2.startup = w.startup := by
  induction offsets generalizing w with
  | nil => exact ⟨rfl, rfl⟩
  | cons offset rest ih => exact ih _

/-- What building an entity's objects leaves as it is, and what it notes. -/
theorem setup_of_instantiate {entity : EntityId} {spawn : Spawn} {assembly : Assembly}
    (ok : w.instantiate entity spawn = .ok (assembly, w')) :
    w'.classes = w.classes ∧ w'.startup = w.startup ∧
      w'.journal.instantiated = w.journal.instantiated ++ [(entity, assembly.root)] := by
  obtain ⟨offsets, object, -, -, -, rfl, rfl⟩ := instantiate_eq_ok ok
  obtain ⟨classes, startup⟩ :=
    setup_placeParts { w with pool := w.pool.allocate.2 } entity spawn.className offsets
  refine ⟨classes, startup, ?_⟩
  exact congrArg (·.instantiated ++ _) (journal_placeParts entity spawn.className offsets _)

/-- What destroying an object leaves as it is. -/
theorem setup_destroy (w : World) (h : Handle) :
    (w.destroy h).classes = w.classes ∧ (w.destroy h).startup = w.startup ∧
      (w.destroy h).journal.instantiated = w.journal.instantiated := by
  have discarded : ∀ (children : List Handle) (w : World),
      (children.foldl discard w).classes = w.classes ∧
        (children.foldl discard w).startup = w.startup ∧
        (children.foldl discard w).journal = w.journal := by
    intro children
    induction children with
    | nil => exact fun _ => ⟨rfl, rfl, rfl⟩
    | cons c rest ih => exact fun w => ih (w.discard c)
  unfold destroy
  split
  · exact ⟨rfl, rfl, rfl⟩
  · rename_i o _
    obtain ⟨classes, startup, journal⟩ := discarded o.children w
    refine ⟨classes, startup, ?_⟩
    show (o.children.foldl discard w).journal.instantiated = _
    rw [journal]

end World

namespace Session

variable {s s₁ s₂ : Session} {entity : EntityId}

/-- Two sessions have the **same stock** for an entity if they build from the same things and have
built the same roots for it. -/
structure SameStock (entity : EntityId) (s s' : Session) : Prop where
  /-- No root is built for the entity. -/
  roots : s'.world.rootsOf entity = s.world.rootsOf entity
  /-- The same containers are loaded. -/
  loaded : s'.drafts.streaming.loaded = s.drafts.streaming.loaded
  /-- The same classes are known. -/
  classes : s'.world.classes = s.world.classes
  /-- The same pre-placed objects are known. -/
  startup : s'.world.startup = s.world.startup

theorem SameStock.refl (entity : EntityId) (s : Session) : SameStock entity s s :=
  ⟨rfl, rfl, rfl, rfl⟩

theorem SameStock.trans (h₁ : SameStock entity s s₁) (h₂ : SameStock entity s₁ s₂) :
    SameStock entity s s₂ where
  roots := h₂.roots.trans h₁.roots
  loaded := h₂.loaded.trans h₁.loaded
  classes := h₂.classes.trans h₁.classes
  startup := h₂.startup.trans h₁.startup

/-- A session **spares** an entity if the root and the draft of the entity are the same, and its
stock. -/
structure Spares (entity : EntityId) (s s' : Session) : Prop extends SameStock entity s s' where
  /-- The entity has the same root. -/
  root : (s'.channels.get? entity).map Channel.root = (s.channels.get? entity).map Channel.root
  /-- It has the same draft. -/
  draft : s'.drafts.get? entity = s.drafts.get? entity

namespace Spares

theorem refl (entity : EntityId) (s : Session) : Spares entity s s :=
  ⟨.refl entity s, rfl, rfl⟩

theorem trans (h₁ : Spares entity s s₁) (h₂ : Spares entity s₁ s₂) : Spares entity s s₂ where
  toSameStock := h₁.toSameStock.trans h₂.toSameStock
  root := h₂.root.trans h₁.root
  draft := h₂.draft.trans h₁.draft

/-- What leaves channels, drafts and the building of entities alone spares every entity. -/
theorem of_steady (world : s.world.Steady s₁.world) (channels : s₁.channels = s.channels)
    (drafts : s₁.drafts = s.drafts) : Spares entity s s₁ where
  roots := World.rootsOf_congr world.instantiated entity
  loaded := by rw [drafts]
  classes := world.classes
  startup := world.startup
  root := by rw [channels]
  draft := by rw [drafts]

/-- A routine spares every entity. -/
theorem of_routine (r : s.Routine s₁) : Spares entity s s₁ :=
  .of_steady r.world r.channels r.drafts

/-- A change of the drafts spares the entities whose drafts are the same, if it loads nothing. -/
theorem of_drafts {drafts : Drafts} (draft : drafts.get? entity = s.drafts.get? entity)
    (loaded : drafts.streaming.loaded = s.drafts.streaming.loaded) :
    Spares entity s { s with drafts } :=
  ⟨⟨rfl, loaded, rfl, rfl⟩, rfl, draft⟩

/-- Steps that spare an entity one by one, from a tidy session that spares it, spare it together.
The steps may work on more than a session, of which `view` is the session. -/
theorem along {σ α : Type} (view : σ → Session) {f : σ → α → σ} {x : σ} {as : List α}
    (each : ∀ (y : σ) (a : α), a ∈ as → Spares entity (view x) (view y) → (view y).Tidy .all →
      Spares entity (view y) (view (f y a)) ∧ (view (f y a)).Tidy .all)
    (tidy : (view x).Tidy .all) :
    Spares entity (view x) (view (as.foldl f x)) ∧ (view (as.foldl f x)).Tidy .all := by
  suffices part : ∀ (bs : List α) (y : σ), (∀ b ∈ bs, b ∈ as) →
      Spares entity (view x) (view y) → (view y).Tidy .all →
      Spares entity (view x) (view (bs.foldl f y)) ∧ (view (bs.foldl f y)).Tidy .all from
    part as x (fun _ mem => mem) (.refl entity _) tidy
  intro bs
  induction bs with
  | nil => exact fun _ _ spared tidy => ⟨spared, tidy⟩
  | cons b bs ih =>
    intro y sub spared tidy
    obtain ⟨step, kept⟩ := each y b (sub b List.mem_cons_self) spared tidy
    exact ih _ (fun c mem => sub c (List.mem_cons_of_mem _ mem)) (spared.trans step) kept

/-- Steps of a session that spare an entity one by one spare it together. -/
theorem foldl {α : Type} {f : Session → α → Session} {as : List α}
    (each : ∀ (t : Session) (a : α), a ∈ as → Spares entity s t → t.Tidy .all →
      Spares entity t (f t a) ∧ (f t a).Tidy .all) (tidy : s.Tidy .all) :
    Spares entity s (as.foldl f s) ∧ (as.foldl f s).Tidy .all :=
  along id each tidy

/-- An entity that is spared is built if and only if it was before. -/
theorem unbuilt (h : Spares entity s s₁) :
    s₁.channels.get? entity = none ↔ s.channels.get? entity = none := by
  rw [← Option.map_eq_none_iff (f := Channel.root), h.root, Option.map_eq_none_iff]

end Spares

/-! ## Building and taking down -/

/-- A change of authority spares the others, and the entity itself unless it is drafted. -/
theorem spares_changeAuthority (tidy : s.Tidy .all) {change : AuthorityChange}
    (free : change.entity ≠ entity ∨ s.drafts.get? entity = none) :
    Spares entity s (s.changeAuthority change) := by
  unfold changeAuthority
  split
  · rename_i channel here
    have filed : (channel.setAuthority change.component change.authority).entity = change.entity :=
      tidy.channels change.entity channel here
    refine ⟨⟨rfl, rfl, rfl, rfl⟩, ?_, rfl⟩
    rw [Channels.get?_update, filed]
    split
    · rename_i own
      rw [← own, here]
      rfl
    · rfl
  · refine .of_drafts ?_ (congrArg Streaming.loaded (Drafts.streaming_modify _ _ _))
    rw [Drafts.get?_addAuthority]
    split
    · rename_i own
      rw [free.resolve_left (not_not_intro own)]
      rfl
    · rfl

/-- Taking an entity down spares the others, and the entity itself if it is not there. -/
theorem spares_remove {e : EntityId}
    (free : e ≠ entity ∨ s.drafts.get? entity = none ∧ s.channels.get? entity = none) :
    Spares entity s (s.remove e) := by
  by_cases own : e = entity
  · subst e
    obtain ⟨undrafted, unbuilt⟩ := free.resolve_left (not_not_intro rfl)
    have absent : s.remove entity = s := by
      simp [remove, Drafts.contains_eq, undrafted, unbuilt]
    rw [absent]
    exact .refl entity s
  · rcases s.remove_cases e with ⟨-, same⟩ | ⟨-, same⟩ | ⟨channel, -, same⟩
    · rw [same]
      refine .of_drafts ?_ (Drafts.loaded_remove _ e)
      rw [Drafts.get?_remove, if_neg own]
    · rw [same]
      exact .refl entity s
    · rw [same]
      obtain ⟨classes, startup, instantiated⟩ := s.world.setup_destroy channel.root
      refine ⟨⟨World.rootsOf_congr instantiated entity, rfl, classes, startup⟩, ?_, rfl⟩
      · show ((s.channels.close e).get? entity).map _ = _
        rw [Channels.get?_close, if_neg own]

/-- Making the objects of an entity spares the others. -/
theorem spares_found {draft : Draft} {channel : Channel}
    (step : s.found draft = (some channel, s₁)) (other : draft.entity ≠ entity) :
    Spares entity s s₁ := by
  obtain ⟨spawn, assembly, world, channels, -, built, opened, rfl⟩ := found_eq_some.mp step
  obtain ⟨classes, startup, instantiated⟩ := World.setup_of_instantiate built
  refine ⟨⟨?_, rfl, classes, startup⟩, ?_, rfl⟩
  · rw [World.rootsOf, World.rootsOf, instantiated]
    simp [other]
  · rw [Channels.get?_of_open? opened, if_neg other]

/-- Replays spare every entity. -/
theorem spares_replays (arrivals : List Arrival) :
    Spares entity s (arrivals.foldl resolveNow s) :=
  .of_routine (routine_replays arrivals s)

/-- **Once the objects of an entity are made**, what else belongs to its construction spares every
entity. -/
theorem spares_furnish (tidy : s.Tidy .all) {draft : Draft} {channel : Channel}
    (undrafted : s.drafts.get? draft.entity = none) (step : s.found draft = (some channel, s₁)) :
    Spares entity s₁ (s.construct draft) := by
  have founded := tidy.found undrafted
  rw [step] at founded
  have drafts : s₁.drafts = s.drafts := by
    obtain ⟨_, _, _, _, -, -, -, rfl⟩ := found_eq_some.mp step
    rfl
  rw [construct_eq, step]
  dsimp only
  have populated := routine_populates channel draft.components s₁
  have completed : Spares entity s₁
      ((draft.components.foldl (populate channel) s₁).complete channel) :=
    (Spares.of_routine populated).trans (.of_steady (World.steady_finalize _ _) rfl rfl)
  have kept : ((draft.components.foldl (populate channel) s₁).complete channel).Tidy .all :=
    (founded.routine populated).congr rfl rfl rfl
  -- Authority over the new entity is set when it has no draft any more.
  have authorized := Spares.foldl (f := changeAuthority)
    (fun t change (mem : change ∈ draft.changes) (spared : Spares entity _ t) tidy => by
      refine ⟨spares_changeAuthority tidy ?_, tidy.changeAuthority change⟩
      by_cases own : draft.entity = entity
      · refine .inr (spared.draft.trans (completed.draft.trans ?_))
        rw [drafts, ← own]
        exact undrafted
      · obtain ⟨x, -, rfl⟩ := List.mem_map.mp mem
        exact .inl own) kept
  exact completed.trans (authorized.1.trans (spares_replays _))

/-- Building an entity spares the others. -/
theorem spares_construct (tidy : s.Tidy .all) {draft : Draft}
    (unbuilt : s.channels.get? draft.entity = none)
    (undrafted : s.drafts.get? draft.entity = none) (other : draft.entity ≠ entity) :
    Spares entity s (s.construct draft) := by
  cases step : s.found draft with
  | mk built s₁ =>
    cases built with
    | none =>
      rw [construct_eq, step]
      obtain ⟨rfl, -⟩ := found_of_none unbuilt step
      exact .refl entity s₁
    | some channel => exact (spares_found step other).trans (spares_furnish tidy undrafted step)

theorem spares_constructReady (tidy : s.Tidy .all) {e : EntityId} (other : e ≠ entity) :
    Spares entity s (s.constructReady e) := by
  unfold constructReady
  cases taken : s.drafts.takeReady e with
  | none => exact .refl entity s
  | some result =>
    obtain ⟨draft, drafts⟩ := result
    obtain ⟨found, -, rfl⟩ := Drafts.takeReady_eq_some.mp taken
    obtain ⟨filed, unbuilt, -⟩ := tidy.drafts e draft found
    subst filed
    have fit :
        (Move.draft { s.drafts with records := s.drafts.records.erase draft.entity }).Apt .all
          s.idle := tidy.drafts.takeReady taken
    have taken_out : Spares entity s
        { s with drafts := { s.drafts with records := s.drafts.records.erase draft.entity } } :=
      .of_drafts (by rw [Drafts.get?_erased, if_neg other]) rfl
    refine taken_out.trans (spares_construct (fit.tidy tidy) unbuilt ?_ other)
    exact (Drafts.get?_erased _ _ _).trans (if_pos rfl)

/-- Taking a draft further spares the others. -/
theorem spares_advance (tidy : s.Tidy .all) {e : EntityId} (other : e ≠ entity) :
    Spares entity s (s.advance e) := by
  unfold advance
  split
  · exact .refl entity s
  · split
    · exact .refl entity s
    · exact spares_constructReady tidy other
    · split
      · rename_i spawn _
        have fit : (Move.draft (s.drafts.setSpawn e spawn)).Apt .all s.idle :=
          tidy.drafts.setSpawn e spawn
        refine Spares.trans (.of_drafts ?_ (Drafts.loaded_setSpawn _ e spawn))
          (spares_constructReady (fit.tidy tidy) other)
        rw [Drafts.get?_setSpawn, if_neg other]
      · exact .refl entity s
      · refine .of_drafts ?_ (Drafts.loaded_remove _ e)
        rw [Drafts.get?_remove, if_neg other]

/-- Without a draft there is nothing to take further. -/
theorem advance_of_undrafted {e : EntityId} (undrafted : s.drafts.get? e = none) :
    s.advance e = s := by
  simp [advance, undrafted]

/-! ## Updates and invocations -/

/-- A component payload for a built entity is a routine. -/
theorem routine_applyToLive (s : Session) (e : EntityId) (data : ComponentData) :
    s.Routine (s.accept (s.applyToLive e data.component data.payload)) := by
  rw [accept_applyToLive]
  split
  · exact .refl s
  · split
    · exact (writes_write s e data).routine
    · exact (writes_write s e data).routine
    · exact (writes_write s e data).routine
    · split
      · exact .refl s
      · exact .foldl routine_deliverCall _ s
    · exact .refl s

/-- An update spares the other entities. -/
theorem spares_update {e : EntityId} {update : ComponentData} (other : e ≠ entity) :
    Spares entity s (s.update e update) := by
  unfold Session.update tryUpdate
  split
  · cases s.binding update.component with
    | error error => exact .refl entity s
    | ok b =>
      simp only [bind, Except.bind]
      split
      · refine .of_drafts ?_ (congrArg Streaming.loaded (Drafts.streaming_modify _ _ _))
        rw [Drafts.get?_addComponent, if_neg other]
      · exact .refl entity s
  · exact .of_routine (routine_applyToLive s e update)

/-- A command request is a routine. -/
theorem routine_tryCommand (s : Session) (e : EntityId) (request : CommandRequest) :
    s.Routine (s.accept (s.tryCommand e request)) := by
  unfold tryCommand
  cases s.target e request.component with
  | error error => exact .refl s
  | ok result =>
    obtain ⟨b, subscriber⟩ := result
    simp only [bind, Except.bind]
    cases s.world.readCommand s.resolver subscriber.object request.component request.command
      request.payload with
    | error error => exact .refl s
    | ok incoming => exact routine_dispatch s _ _ _ incoming

/-! ## Bursts -/

variable {state : Session × List EntityId}

/-- The draft of an entity that is built, or drafted already, is not begun. -/
theorem spares_begin {e : EntityId}
    (free : e ≠ entity ∨ state.1.channels.get? entity ≠ none ∨
      state.1.drafts.get? entity ≠ none) :
    Spares entity state.1 (begin state e).1 := by
  obtain ⟨s, touched⟩ := state
  unfold begin
  dsimp only at free ⊢
  split
  · exact .refl entity s
  · rename_i unbuilt
    refine .of_drafts ?_ (congrArg Streaming.loaded (Drafts.streaming_begin _ _))
    rw [Drafts.get?_begin]
    split
    · subst e
      rw [Channels.contains_eq, Bool.not_eq_true, Option.isSome_eq_false_iff,
        Option.isNone_iff_eq_none] at unbuilt
      obtain ⟨draft, here⟩ := Option.ne_none_iff_exists'.mp
        ((free.resolve_left (not_not_intro rfl)).resolve_left (not_not_intro unbuilt))
      rw [here]
      rfl
    · rfl

/-- A component spares the others, and its own entity unless that is drafted. -/
theorem spares_route {added : AddedComponent}
    (free : added.entity ≠ entity ∨ state.1.drafts.get? entity = none) :
    Spares entity state.1 (route state added).1 := by
  obtain ⟨s, touched⟩ := state
  unfold route
  dsimp only at free ⊢
  split
  · rename_i drafted
    refine .of_drafts ?_ (congrArg Streaming.loaded (Drafts.streaming_modify _ _ _))
    rw [Drafts.get?_addComponent]
    split
    · rename_i own
      rw [free.resolve_left (not_not_intro own)]
      rfl
    · rfl
  · exact .of_routine (routine_applyToLive s added.entity added.data)

/-! ## Sections -/

/-- An operation inside an open section that is no update of the entity spares it. -/
theorem spares_process {depth depth' : Nat} (isOpen : s.held.depth = depth + 1)
    {operation : Operation} (nest : (Act.receive operation).nest depth = some depth')
    (other : ∀ update, operation ≠ .componentUpdate entity update)
    (ok : s.process operation = .ok s₁) : Spares entity s s₁ := by
  have holds : s.held.isOpen = true := by simp [Section.isOpen, isOpen]
  have aside {t : Session} (world : t.world = s.world) (channels : t.channels = s.channels)
      (drafts : t.drafts = s.drafts) : Spares entity s t :=
    .of_steady (by rw [world]; exact .refl _) channels drafts
  cases operation with
  | criticalSection opens =>
    cases ok
    cases opens with
    | true => exact aside rfl rfl rfl
    | false =>
      cases depth with
      | zero => cases nest
      | succ depth =>
        -- The section that ends is an inner one, so nothing is carried out.
        have inner : s.held.leave = (none, { s.held with depth := depth + 1 }) := by
          unfold Section.leave
          rw [isOpen]
        simp only [markSection, inner]
        exact aside rfl rfl rfl
  | addEntity e =>
    cases ok
    rw [Session.addEntity, if_pos holds]
    exact aside rfl rfl rfl
  | removeEntity e =>
    cases ok
    rw [Session.removeEntity, if_pos holds]
    exact aside rfl rfl rfl
  | addComponent e data =>
    cases ok
    rw [Session.addComponent, if_pos holds]
    exact aside rfl rfl rfl
  | authorityChange e component authority =>
    cases ok
    rw [Session.authorityChange, if_pos holds]
    exact aside rfl rfl rfl
  | componentUpdate e update =>
    cases ok
    exact spares_update fun same => other update (by rw [same])
  | commandRequest request e command =>
    cases ok
    exact .of_routine ((routine_tryCommand s e command).trans
      ⟨rfl, rfl, rfl, rfl, rfl, rfl, .refl _⟩)
  | commandResponse request result =>
    obtain ⟨retries, rfl⟩ := commandResponse_eq ok
    exact aside rfl rfl rfl
  | reserveResponse request result =>
    cases ok
    obtain ⟨deliveries, same⟩ := deliver_eq s _ _ _
    rw [reserveResponse, same]
    exact aside rfl rfl rfl
  | createResponse request result =>
    cases ok
    obtain ⟨deliveries, same⟩ := deliver_eq s _ _ _
    rw [createResponse, same]
    exact aside rfl rfl rfl
  | queryResponse request result =>
    cases ok
    obtain ⟨deliveries, same⟩ := deliver_eq s _ _ _
    rw [queryResponse, same]
    exact aside rfl rfl rfl

/-- **Inside an open section** an entity that is not updated is spared. -/
theorem spares_run (tidy : s.Tidy .all) {depth depth' : Nat} (isOpen : s.held.depth = depth + 1)
    {operations : List Operation}
    (nest : (operations.map Act.receive).foldlM Act.nest depth = some depth')
    (others : ∀ update, .componentUpdate entity update ∉ operations)
    (ok : s.run (operations.map .receive) = .ok s₁) : Spares entity s s₁ := by
  induction operations generalizing s depth with
  | nil =>
    cases ok
    exact .refl entity _
  | cons operation rest ih =>
    rw [List.map_cons] at nest ok
    obtain ⟨inner, first, later⟩ := Option.bind_eq_some_iff.mp nest
    obtain ⟨s₂, step, after⟩ := run_cons.mp ok
    have here := held_of_act isOpen first step
    have spared := spares_process isOpen first
      (fun update same => others update (by rw [same]; exact List.mem_cons_self)) step
    exact spared.trans (ih (tidy_of_act tidy step) (by rw [here]) later
      (fun update mem => others update (List.mem_cons_of_mem _ mem)) after)

end Session

end Replica
