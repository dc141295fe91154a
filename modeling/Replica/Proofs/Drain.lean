import Replica.Proofs.Spares

/-! # What a burst does to one entity

Carrying a burst out goes through six phases, and each of them spares the entities that it is not
about. So what becomes of an entity without a draft can be told from the burst: whether the burst
removes the entity, whether it adds it, and the components that it has for it.

Main definitions:
* `Session.CanBuild` — a component from which an entity can be built at once.
* `Session.Drafting` — an entity is drafted and has collected some components.
* `Session.drain_undrafted` — what a burst makes of an entity without a draft. -/

namespace Replica

/-- The components among others that are for one entity, in order. -/
def ownComponents (entity : EntityId) (components : List AddedComponent) : List ComponentData :=
  (components.filter (·.entity == entity)).map AddedComponent.data

namespace Drafts

/-- The drafts without that of an entity, which is taken out to be built. -/
def without (ds : Drafts) (entity : EntityId) : Drafts :=
  { ds with records := ds.records.erase entity }

theorem get?_without (ds : Drafts) (entity k : EntityId) :
    (ds.without entity).get? k = if entity = k then none else ds.get? k :=
  get?_erased ds entity k

/-- It does not matter how the draft has changed before. -/
theorem without_modify (ds : Drafts) (entity : EntityId) (f : Draft → Draft) :
    (ds.modify entity f).without entity = ds.without entity := by
  unfold modify
  split
  · refine congrArg (Drafts.mk · ds.streaming) (Std.ExtTreeMap.ext_getElem? fun k => ?_)
    simp only [Std.ExtTreeMap.getElem?_erase, Std.ExtTreeMap.getElem?_insert]
    split <;> simp_all
  · rfl

/-- Nor does spawn data that lets nobody wait. -/
theorem without_setSpawn {ds : Drafts} {entity : EntityId} {spawn : Spawn}
    (free : ds.stageFor spawn = .ready) :
    (ds.setSpawn entity spawn).without entity = ds.without entity := by
  unfold setSpawn
  rw [free]
  split
  · exact without_modify ds entity _
  · rfl

theorem Tidy.without {ds : Drafts} {scope : Scope} {channels : Channels}
    (h : ds.Tidy scope channels) (entity : EntityId) : (ds.without entity).Tidy scope channels := by
  refine h.of_subset fun k draft found => ?_
  rw [get?_without] at found
  split at found
  · cases found
  · exact found

/-- With some spawn data a draft waits for a container that is not loaded, or for none. -/
theorem stageFor_cases (ds : Drafts) (spawn : Spawn) :
    (∃ c, spawn.container = some c ∧ ds.streaming.isLoaded c = false ∧
      ds.stageFor spawn = .waiting c) ∨
      ds.stageFor spawn = .ready ∧
        ∀ c, spawn.container = some c → ds.streaming.isLoaded c = true := by
  unfold stageFor
  cases spawn.container with
  | none => exact .inr ⟨rfl, by simp⟩
  | some c =>
    cases loaded : ds.streaming.isLoaded c with
    | true =>
      refine .inr ⟨if_pos loaded, fun k same => ?_⟩
      cases same
      exact loaded
    | false =>
      refine .inl ⟨c, rfl, loaded, if_neg ?_⟩
      simp [loaded]

end Drafts

namespace Session

variable {s s₁ : Session} {entity : EntityId}

/-! ## Spawn data -/

/-- A session **supplies** what some spawn data asks for. -/
structure Supplies (s : Session) (spawn : Spawn) : Prop where
  /-- The class is known. -/
  className : spawn.className ∈ s.world.classes
  /-- The pre-placed object is known, if there is to be one. -/
  stablePath : ∀ path, spawn.stablePath = some path → path ∈ s.world.startup
  /-- The container is loaded, if there is one. -/
  container : ∀ c, spawn.container = some c → s.drafts.streaming.isLoaded c = true

/-- A session **can build** an entity from a component if the component is readable spawn data and
the session supplies what it asks for. -/
def CanBuild (s : Session) (data : ComponentData) : Prop :=
  data.component = Stock.spawnComponent ∧
    ∃ spawn, Wire.decodeSpawn data.payload = .ok spawn ∧ s.Supplies spawn

/-- With the same stock, the same can be built. -/
theorem SameStock.canBuild (h : SameStock entity s s₁) {data : ComponentData}
    (can : s.CanBuild data) : s₁.CanBuild data := by
  obtain ⟨isSpawn, spawn, decoded, supplies⟩ := can
  refine ⟨isSpawn, spawn, decoded, ?_, ?_, ?_⟩
  · rw [h.classes]
    exact supplies.className
  · rw [h.startup]
    exact supplies.stablePath
  · intro c asked
    show s₁.drafts.streaming.loaded.contains c = true
    rw [h.loaded]
    exact supplies.container c asked

/-- Where it is supplied what it asks for, spawn data yields objects. -/
theorem Supplies.instantiate {spawn : Spawn} (h : s.Supplies spawn) (entity : EntityId) :
    ∃ built, s.world.instantiate entity spawn = .ok built := by
  obtain ⟨offsets, known⟩ := Option.isSome_iff_exists.mp
    (Std.ExtTreeMap.mem_iff_isSome_getElem?.mp h.className)
  have placed : spawn.stablePath.filter (!s.world.startup.contains ·) = none := by
    rw [Option.filter_eq_none_iff]
    intro path asked
    simpa using h.stablePath path asked
  unfold World.instantiate
  simp only [known, placed]
  exact ⟨_, rfl⟩

/-- Spawn data that was read, or found wrong, comes before whatever is collected later. -/
theorem readSpawn_append {components : List ComponentData} {outcome : Except BuildError Spawn}
    (read : World.readSpawn entity components = outcome)
    (there : ∀ e, outcome ≠ .error (.spawnDataMissing e)) (more : List ComponentData) :
    World.readSpawn entity (components ++ more) = outcome := by
  subst read
  unfold World.readSpawn at there ⊢
  rw [List.find?_append]
  cases found : components.find? (·.component == Stock.spawnComponent) with
  | none =>
    rw [found] at there
    exact absurd rfl (there entity)
  | some data => rfl

/-! ## Building an entity from its draft -/

/-- An entity whose objects can be made is built, with one new root. -/
theorem construct_builds (tidy : s.Tidy .all) {draft : Draft} {spawn : Spawn}
    (spawned : draft.spawn = some spawn) (supplies : s.Supplies spawn)
    (unbuilt : s.channels.get? draft.entity = none)
    (undrafted : s.drafts.get? draft.entity = none) :
    ∃ root, ((s.construct draft).channels.get? draft.entity).map Channel.root = some root ∧
      (s.construct draft).drafts.get? draft.entity = none ∧
      (s.construct draft).world.rootsOf draft.entity = s.world.rootsOf draft.entity ++ [root] := by
  obtain ⟨⟨assembly, world⟩, built⟩ := supplies.instantiate draft.entity
  obtain ⟨channels, opened⟩ : ∃ channels, s.channels.open? draft.entity assembly = some
      (Channel.ofAssembly ⟨draft.entity, s.channels.generation⟩ assembly, channels) := by
    simp [Channels.open?, Channels.contains_eq, unbuilt]
  have step := found_eq_some.mpr ⟨spawn, assembly, world, channels, spawned, built, opened, rfl⟩
  have furnished : Spares draft.entity _ (s.construct draft) :=
    spares_furnish tidy undrafted step
  refine ⟨assembly.root, furnished.root.trans ?_, furnished.draft.trans undrafted,
    furnished.roots.trans ?_⟩
  · rw [Channels.get?_of_open? opened, if_pos rfl]
    rfl
  · rw [World.rootsOf, World.rootsOf, (World.setup_of_instantiate built).2.2]
    simp

/-- A session **builds** an entity from a draft if the draft of the entity is ready, or has
collected spawn data that lets it wait for nothing. -/
inductive Builds (s : Session) (entity : EntityId) : Draft → Prop where
  /-- The draft has been waiting. -/
  | ready {draft : Draft} (found : s.drafts.get? entity = some draft)
    (ready : draft.stage = .ready) : s.Builds entity draft
  /-- Its spawn data is read. -/
  | spawned {draft : Draft} {spawn : Spawn} (found : s.drafts.get? entity = some draft)
    (collecting : draft.stage = .collecting)
    (read : World.readSpawn entity draft.components = .ok spawn)
    (free : s.drafts.stageFor spawn = .ready) :
    s.Builds entity { draft with spawn := some spawn, stage := .ready }

namespace Builds

variable {draft : Draft}

/-- The spawn data is entered, and the draft is ready. -/
theorem takeReady_setSpawn {spawn : Spawn} (found : s.drafts.get? entity = some draft)
    (free : s.drafts.stageFor spawn = .ready) :
    (s.drafts.setSpawn entity spawn).takeReady entity =
      some ({ draft with spawn := some spawn, stage := .ready }, s.drafts.without entity) := by
  refine Drafts.takeReady_eq_some.mpr ⟨?_, rfl, (Drafts.without_setSpawn free).symm⟩
  rw [Drafts.get?_setSpawn, if_pos rfl, found, free]
  rfl

/-- The draft is taken out, and the entity is built. -/
theorem advance (h : s.Builds entity draft) :
    s.advance entity = { s with drafts := s.drafts.without entity }.construct draft := by
  cases h with
  | ready found ready =>
    have taken := Drafts.takeReady_eq_some.mpr ⟨found, ready, rfl⟩
    simp only [Session.advance, found, ready, constructReady, taken]
    rfl
  | spawned found collecting read free =>
    simp only [Session.advance, found, collecting, read, constructReady,
      takeReady_setSpawn found free]

/-- Making the objects of the entity is one of the moments. -/
theorem mem_trail (h : s.Builds entity draft) (due : List Arrival) :
    ⟨{ s with drafts := s.drafts.without entity }, .found draft⟩ ∈
      Work.trail ⟨s, due⟩ (s.advanceMoves entity) := by
  cases h with
  | ready found ready =>
    have taken := Drafts.takeReady_eq_some.mpr ⟨found, ready, rfl⟩
    simp only [advanceMoves, found, ready, constructReadyMoves, taken]
    exact .tail _ (.head _)
  | spawned found collecting read free =>
    simp only [advanceMoves, found, collecting, read, constructReadyMoves,
      takeReady_setSpawn found free]
    exact .tail _ (.tail _ (.head _))

/-- The entity of a draft that is built is that under which the draft is filed. -/
theorem filed (tidy : s.Tidy .all) (h : s.Builds entity draft) :
    draft.entity = entity ∧ s.channels.get? entity = none := by
  cases h with
  | ready found _ | spawned found _ _ _ =>
    obtain ⟨filed, unbuilt, -⟩ := tidy.drafts _ _ found
    exact ⟨filed, unbuilt⟩

end Builds

/-- Spawn data that names a container which is not loaded lets the draft wait. -/
theorem advance_of_deferred {draft : Draft} (found : s.drafts.get? entity = some draft)
    (collecting : draft.stage = .collecting) {spawn : Spawn} {c : Container}
    (read : World.readSpawn entity draft.components = .ok spawn)
    (waits : s.drafts.stageFor spawn = .waiting c) :
    s.advance entity = { s with drafts := s.drafts.setSpawn entity spawn } ∧
      (s.drafts.setSpawn entity spawn).get? entity =
        some { draft with spawn := some spawn, stage := .waiting c } := by
  have entered : (s.drafts.setSpawn entity spawn).get? entity =
      some { draft with spawn := some spawn, stage := .waiting c } := by
    rw [Drafts.get?_setSpawn, if_pos rfl, found, waits]
    rfl
  -- A draft that waits is not taken out.
  have untaken : (s.drafts.setSpawn entity spawn).takeReady entity = none :=
    Drafts.takeReady_of_unready entered (by simp)
  refine ⟨?_, entered⟩
  simp only [Session.advance, found, collecting, read, constructReady, untaken]

/-- Taking a draft further builds its entity, or changes nothing but this draft and whom a container
lets wait. -/
theorem advance_cases (s : Session) (entity : EntityId) :
    (∃ draft, s.Builds entity draft) ∨ ∃ drafts, s.advance entity = { s with drafts } ∧
      ∀ k, k ≠ entity → drafts.get? k = s.drafts.get? k := by
  cases found : s.drafts.get? entity with
  | none => exact .inr ⟨s.drafts, advance_of_undrafted found, fun _ _ => rfl⟩
  | some draft =>
    cases stage : draft.stage with
    | waiting c => exact .inr ⟨s.drafts, by simp only [advance, found, stage], fun _ _ => rfl⟩
    | ready => exact .inl ⟨draft, .ready found stage⟩
    | collecting =>
      cases read : World.readSpawn entity draft.components with
      | ok spawn =>
        rcases s.drafts.stageFor_cases spawn with ⟨c, -, -, waits⟩ | ⟨free, -⟩
        · refine .inr ⟨_, (advance_of_deferred found stage read waits).1, fun k other => ?_⟩
          rw [Drafts.get?_setSpawn, if_neg (Ne.symm other)]
        · exact .inl ⟨_, .spawned found stage read free⟩
      | error error =>
        have dropped : ∃ drafts, ({ s with drafts := s.drafts.remove entity } : Session) =
            { s with drafts } ∧ ∀ k, k ≠ entity → drafts.get? k = s.drafts.get? k :=
          ⟨_, rfl, fun k other => by rw [Drafts.get?_remove, if_neg (Ne.symm other)]⟩
        right
        simp only [advance, found, stage, read]
        cases error with
        | spawnDataMissing e => exact ⟨s.drafts, rfl, fun _ _ => rfl⟩
        | _ => exact dropped

/-- An entity is **drafting** with some components if it is not built and its draft has collected
those and nothing else. -/
structure Drafting (entity : EntityId) (components : List ComponentData) (s : Session) : Prop where
  /-- The entity is not built. -/
  unbuilt : s.channels.get? entity = none
  /-- It has a draft. -/
  draft : s.drafts.get? entity = some { entity, components }

/-- Where an entity is spared, its draft goes on. -/
theorem Drafting.spared {components : List ComponentData} (h : Drafting entity components s)
    (spared : Spares entity s s₁) : Drafting entity components s₁ :=
  ⟨spared.unbuilt.mpr h.unbuilt, spared.draft.trans h.draft⟩

/-- **A draft that begins with spawn data** is built as soon as it is taken further. -/
theorem Drafting.advance (tidy : s.Tidy .all) {first : ComponentData} {rest : List ComponentData}
    (h : Drafting entity (first :: rest) s) (can : s.CanBuild first) :
    ∃ root, ((s.advance entity).channels.get? entity).map Channel.root = some root ∧
      (s.advance entity).drafts.get? entity = none ∧
      (s.advance entity).world.rootsOf entity = s.world.rootsOf entity ++ [root] := by
  obtain ⟨isSpawn, spawn, decoded, supplies⟩ := can
  have read : World.readSpawn entity (first :: rest) = .ok spawn := by
    simp [World.readSpawn, isSpawn, decoded]
  have stage : s.drafts.stageFor spawn = .ready := by
    unfold Drafts.stageFor
    split
    · rename_i c asked
      rw [supplies.container c asked, if_pos rfl]
    · rfl
  have builds := Builds.spawned h.draft rfl read stage
  have tidy' : { s with drafts := s.drafts.without entity }.Tidy .all :=
    ⟨tidy.drafts.without entity, tidy.channels, tidy.burst, tidy.closed⟩
  rw [builds.advance]
  exact construct_builds tidy' rfl ⟨supplies.className, supplies.stablePath, supplies.container⟩
    h.unbuilt ((Drafts.get?_without _ _ _).trans (if_pos rfl))

/-! ## Phases that spare an entity -/

section Sparing

variable {es : List EntityId} {x : Session × List EntityId}

/-- Removals spare an entity that is not among them, or not there. -/
theorem spares_removals (tidy : s.Tidy .all)
    (free : entity ∉ es ∨ s.drafts.get? entity = none ∧ s.channels.get? entity = none) :
    Spares entity s (es.foldl remove s) ∧ (es.foldl remove s).Tidy .all := by
  refine Spares.foldl (fun t e mem spared tidy => ⟨spares_remove ?_, tidy.remove e⟩) tidy
  exact free.imp (fun absent same => absent (same ▸ mem)) fun ⟨undrafted, unbuilt⟩ =>
    ⟨spared.draft.trans undrafted, spared.unbuilt.mpr unbuilt⟩

/-- Additions spare an entity that is not among them, or there already. -/
theorem spares_begins (tidy : x.1.Tidy .all)
    (free : entity ∉ es ∨ x.1.channels.get? entity ≠ none ∨ x.1.drafts.get? entity ≠ none) :
    Spares entity x.1 (es.foldl begin x).1 ∧ (es.foldl begin x).1.Tidy .all := by
  refine Spares.along Prod.fst (fun y e mem spared tidy =>
    ⟨spares_begin ?_, (carries_begin [] y tidy e).tidy tidy⟩) tidy
  rw [spared.draft, ne_eq (y.1.channels.get? entity), spared.unbuilt]
  exact free.imp_left fun absent same => absent (same ▸ mem)

/-- Components spare an entity without a draft. -/
theorem spares_routes (tidy : x.1.Tidy .all) (undrafted : x.1.drafts.get? entity = none)
    (components : List AddedComponent) :
    Spares entity x.1 (components.foldl route x).1 ∧ (components.foldl route x).1.Tidy .all :=
  Spares.along Prod.fst (fun y added _ spared tidy =>
    ⟨spares_route (.inr (spared.draft.trans undrafted)),
      (carries_route [] y tidy (show Scope.all.data added.data from trivial)).tidy tidy⟩) tidy

/-- Drafts that go on spare an entity that is not among them. -/
theorem spares_advances (tidy : s.Tidy .all)
    (free : entity ∉ es ∨ s.drafts.get? entity = none) :
    Spares entity s (es.foldl advance s) ∧ (es.foldl advance s).Tidy .all := by
  refine Spares.foldl (fun t e mem spared tidy =>
    ⟨?_, (carries_advance [] tidy e).tidy tidy⟩) tidy
  by_cases own : e = entity
  · subst e
    have undrafted := spared.draft.trans (free.resolve_left (not_not_intro mem))
    rw [advance_of_undrafted undrafted]
    exact .refl entity t
  · exact spares_advance tidy own

/-- Authority and arrivals spare an entity without a draft. -/
theorem spares_settle (tidy : s.Tidy .all) (undrafted : s.drafts.get? entity = none)
    (changes : List AuthorityChange) (arrivals : List Arrival) :
    Spares entity s (arrivals.foldl resolveNow (changes.foldl changeAuthority s)) := by
  have authorized := Spares.foldl (f := changeAuthority)
    (fun t change (_ : change ∈ changes) (spared : Spares entity s t) tidy =>
      ⟨spares_changeAuthority tidy (.inr (spared.draft.trans undrafted)),
        tidy.changeAuthority change⟩) tidy
  exact authorized.1.trans (spares_replays arrivals)

end Sparing

/-! ## The phases of a burst -/

/-- Removals take an entity without a draft down if it is among them, and spare it otherwise. -/
theorem foldl_remove (tidy : s.Tidy .all) (undrafted : s.drafts.get? entity = none)
    (removed : List EntityId) :
    SameStock entity s (removed.foldl remove s) ∧ (removed.foldl remove s).Tidy .all ∧
      (removed.foldl remove s).drafts.get? entity = none ∧
      ((removed.foldl remove s).channels.get? entity).map Channel.root =
        if entity ∈ removed then none else (s.channels.get? entity).map Channel.root := by
  by_cases listed : entity ∈ removed
  · -- The first of its removals takes the entity down; the others find it gone.
    obtain ⟨before, later, rfl, fresh⟩ := List.eq_append_cons_of_mem listed
    obtain ⟨spared, tidy₁⟩ := spares_removals tidy (.inl fresh)
    rw [List.foldl_append, List.foldl_cons, if_pos listed]
    revert spared tidy₁
    generalize before.foldl remove s = s₁
    intro spared tidy₁
    have gone : SameStock entity s₁ (s₁.remove entity) ∧
        (s₁.remove entity).drafts.get? entity = none ∧
        (s₁.remove entity).channels.get? entity = none := by
      have undrafted₁ : s₁.drafts.get? entity = none := spared.draft.trans undrafted
      rcases s₁.remove_cases entity with ⟨drafted, -⟩ | ⟨unbuilt, same⟩ | ⟨channel, -, same⟩
      · simp [Drafts.contains_eq, undrafted₁] at drafted
      · rw [same]
        exact ⟨.refl entity s₁, undrafted₁, unbuilt⟩
      · rw [same]
        obtain ⟨classes, startup, instantiated⟩ := s₁.world.setup_destroy channel.root
        refine ⟨⟨World.rootsOf_congr instantiated entity, rfl, classes, startup⟩, undrafted₁, ?_⟩
        · exact (Channels.get?_close _ entity entity).trans (if_pos rfl)
    obtain ⟨stock, undrafted₂, unbuilt⟩ := gone
    obtain ⟨after, tidy₂⟩ := spares_removals  (tidy₁.remove entity)
      (.inr ⟨undrafted₂, unbuilt⟩)
    refine ⟨spared.toSameStock.trans (stock.trans after.toSameStock), tidy₂,
      after.draft.trans undrafted₂, ?_⟩
    rw [after.root, unbuilt]
    rfl
  · obtain ⟨spared, tidy₁⟩ := spares_removals tidy (.inl listed)
    rw [if_neg listed]
    exact ⟨spared.toSameStock, tidy₁, spared.draft.trans undrafted, spared.root⟩

theorem mem_touch {touched : List EntityId} {e : EntityId} :
    entity ∈ touch touched e ↔ entity ∈ touched ∨ e = entity := by
  unfold touch
  split
  · rename_i known
    refine (or_iff_left_of_imp ?_).symm
    rintro rfl
    exact List.contains_iff_mem.mp known
  · simp [eq_comm]

/-- **An addition** begins the draft of an entity that is neither built nor drafted. -/
theorem foldl_begin (tidy : s.Tidy .all) (unbuilt : s.channels.get? entity = none)
    (undrafted : s.drafts.get? entity = none) {added : List EntityId} (listed : entity ∈ added) :
    let state := added.foldl begin (s, [])
    SameStock entity s state.1 ∧ state.1.Tidy .all ∧ Drafting entity [] state.1 ∧
      entity ∈ state.2 := by
  -- The first of its additions begins the draft; the others find it begun.
  obtain ⟨before, later, rfl, fresh⟩ := List.eq_append_cons_of_mem listed
  obtain ⟨spared, tidy₁⟩ := spares_begins (x := (s, [])) tidy (.inl fresh)
  rw [List.foldl_append, List.foldl_cons]
  revert spared tidy₁
  generalize before.foldl begin (s, []) = x
  intro spared tidy₁
  have unbuilt₁ := spared.unbuilt.mpr unbuilt
  have step : begin x entity = ({ x.1 with drafts := x.1.drafts.begin entity }, touch x.2 entity) :=
    if_neg (by simp [Channels.contains_eq, unbuilt₁])
  have begun : Drafting entity [] (begin x entity).1 := by
    rw [step]
    refine ⟨unbuilt₁, ?_⟩
    rw [Drafts.get?_begin, if_pos rfl, spared.draft, undrafted]
    rfl
  have stock : SameStock entity x.1 (begin x entity).1 := by
    rw [step]
    exact ⟨rfl, congrArg Streaming.loaded (Drafts.streaming_begin _ _), rfl, rfl⟩
  have drafted : (begin x entity).1.drafts.get? entity ≠ none := by simp [begun.draft]
  obtain ⟨after, tidy₂⟩ := spares_begins 
    ((carries_begin [] x tidy₁ entity).tidy tidy₁) (.inr (.inr drafted))
  refine ⟨spared.toSameStock.trans (stock.trans after.toSameStock), tidy₂, begun.spared after, ?_⟩
  refine List.foldlRecOn (motive := fun y => entity ∈ y.2) later begin ?_ ?_
  · rw [step]
    exact mem_touch.mpr (.inr rfl)
  · intro y known e _
    unfold begin
    dsimp only
    split
    · exact known
    · exact mem_touch.mpr (.inl known)

/-- **Components** of a drafted entity are collected in order. -/
theorem foldl_route {state : Session × List EntityId} (tidy : state.1.Tidy .all)
    {collected : List ComponentData} (drafting : Drafting entity collected state.1)
    (touched : entity ∈ state.2) (components : List AddedComponent) :
    let state' := components.foldl route state
    SameStock entity state.1 state'.1 ∧ state'.1.Tidy .all ∧
      Drafting entity (collected ++ ownComponents entity components) state'.1 ∧
      entity ∈ state'.2 := by
  induction components generalizing state collected with
  | nil =>
    rw [ownComponents, List.filter_nil, List.map_nil, List.append_nil]
    exact ⟨.refl entity state.1, tidy, drafting, touched⟩
  | cons added rest ih =>
    have tidy₁ :=
      (carries_route [] state tidy (show Scope.all.data added.data from trivial)).tidy tidy
    have touched₁ : entity ∈ (route state added).2 := by
      unfold route
      dsimp only
      split
      · exact mem_touch.mpr (.inl touched)
      · exact touched
    by_cases own : added.entity = entity
    · have step : route state added = ({ state.1 with
          drafts := state.1.drafts.addComponent added.entity added.data },
          touch state.2 added.entity) :=
        if_pos (by simp [Drafts.contains_eq, own, drafting.draft])
      have grown : Drafting entity (collected ++ [added.data]) (route state added).1 := by
        rw [step]
        refine ⟨drafting.unbuilt, ?_⟩
        rw [Drafts.get?_addComponent, if_pos own, drafting.draft]
        rfl
      have stock : SameStock entity state.1 (route state added).1 := by
        rw [step]
        exact ⟨rfl, congrArg Streaming.loaded (Drafts.streaming_modify _ _ _), rfl, rfl⟩
      obtain ⟨later, last⟩ := ih tidy₁ grown touched₁
      refine ⟨stock.trans later, ?_⟩
      simpa [ownComponents, own] using last
    · have spared : Spares entity state.1 (route state added).1 := spares_route (.inl own)
      obtain ⟨later, last⟩ := ih tidy₁ (drafting.spared spared) touched₁
      refine ⟨spared.toSameStock.trans later, ?_⟩
      simpa [ownComponents, own] using last

/-- **Drafts go on**, and one that begins with spawn data yields its entity. -/
theorem foldl_advance (tidy : s.Tidy .all) {first : ComponentData} {rest : List ComponentData}
    (drafting : Drafting entity (first :: rest) s) (can : s.CanBuild first)
    {touched : List EntityId} (listed : entity ∈ touched) :
    (touched.foldl advance s).Tidy .all ∧ (touched.foldl advance s).drafts.get? entity = none ∧
      ∃ root, ((touched.foldl advance s).channels.get? entity).map Channel.root = some root ∧
        (touched.foldl advance s).world.rootsOf entity = s.world.rootsOf entity ++ [root] := by
  -- The draft is built when its turn first comes.
  obtain ⟨before, later, rfl, fresh⟩ := List.eq_append_cons_of_mem listed
  obtain ⟨spared, tidy₁⟩ := spares_advances tidy (.inl fresh)
  rw [List.foldl_append, List.foldl_cons]
  revert spared tidy₁
  generalize before.foldl advance s = s₁
  intro spared tidy₁
  obtain ⟨root, built, undrafted, roots⟩ := (drafting.spared spared).advance tidy₁
    (spared.canBuild can)
  obtain ⟨after, tidy₂⟩ := spares_advances 
    ((carries_advance [] tidy₁ entity).tidy tidy₁) (.inr undrafted)
  refine ⟨tidy₂, after.draft.trans undrafted, root, after.root.trans built, ?_⟩
  rw [after.roots, roots, spared.roots]

/-! ## Whole bursts -/

/-- **What a burst makes of an entity without a draft**: it takes the entity down if it removes it,
and builds it if it adds it and the entity is not there. -/
theorem drain_undrafted (tidy : s.Tidy .all) (undrafted : s.drafts.get? entity = none) {b : Burst}
    (can : entity ∈ b.added → ∃ first rest,
      ownComponents entity b.components = first :: rest ∧ s.CanBuild first) :
    let before := if entity ∈ b.removed then none else (s.channels.get? entity).map Channel.root
    (s.drain b).drafts.get? entity = none ∧
      (entity ∈ b.added → before = none →
        ∃ root, ((s.drain b).channels.get? entity).map Channel.root = some root ∧
          (s.drain b).world.rootsOf entity = s.world.rootsOf entity ++ [root]) ∧
      (entity ∉ b.added ∨ before ≠ none →
        ((s.drain b).channels.get? entity).map Channel.root = before ∧
          (s.drain b).world.rootsOf entity = s.world.rootsOf entity) := by
  obtain ⟨stock, tidy₁, undrafted₁, root⟩ := foldl_remove tidy undrafted b.removed
  unfold drain
  dsimp only
  rw [← root, ne_eq, Option.map_eq_none_iff]
  revert stock tidy₁ undrafted₁
  generalize b.removed.foldl remove s = s₁
  intro stock tidy₁ undrafted₁
  by_cases fresh : entity ∈ b.added ∧ s₁.channels.get? entity = none
  · obtain ⟨listed, unbuilt⟩ := fresh
    obtain ⟨first, rest, own, can⟩ := can listed
    obtain ⟨begun, tidy₂, drafting, touched⟩ := foldl_begin tidy₁ unbuilt undrafted₁ listed
    obtain ⟨routed, tidy₃, collected, touched⟩ :=
      foldl_route tidy₂ drafting touched b.components
    rw [own, List.nil_append] at collected
    have stock := stock.trans (begun.trans routed)
    obtain ⟨tidy₄, undrafted₄, root, built, roots⟩ :=
      foldl_advance tidy₃ collected (stock.canBuild can) touched
    have settled := spares_settle tidy₄ undrafted₄ b.authority b.arrivals
    refine ⟨settled.draft.trans undrafted₄,
      fun _ _ => ⟨root, settled.root.trans built, ?_⟩, fun free => ?_⟩
    · rw [settled.roots, roots, stock.roots]
    · exact absurd unbuilt (free.resolve_left (not_not_intro listed))
  · have free : entity ∉ b.added ∨ s₁.channels.get? entity ≠ none ∨
        s₁.drafts.get? entity ≠ none := by
      rcases not_and_or.mp fresh with absent | built
      · exact .inl absent
      · exact .inr (.inl built)
    obtain ⟨begun, tidy₂⟩ := spares_begins (x := (s₁, [])) tidy₁ free
    obtain ⟨routed, tidy₃⟩ := spares_routes tidy₂ (begun.draft.trans undrafted₁) b.components
    have routed := begun.trans routed
    obtain ⟨advanced, tidy₄⟩ := spares_advances tidy₃ (.inr (routed.draft.trans undrafted₁))
    have advanced := routed.trans advanced
    have settled := advanced.trans
      (spares_settle tidy₄ (advanced.draft.trans undrafted₁) b.authority b.arrivals)
    exact ⟨settled.draft.trans undrafted₁, fun listed unbuilt => absurd ⟨listed, unbuilt⟩ fresh,
      fun _ => ⟨settled.root, settled.roots.trans stock.roots⟩⟩

/-! ## Handles that a burst issues -/

/-- Carrying a burst out issues at least the handles that its drafts do when they are taken
further. -/
theorem allocations_advances_le (tidy : s.Tidy .all) (burst : Burst) {x : Session × List EntityId}
    (routed : burst.components.foldl route
      (burst.added.foldl begin (burst.removed.foldl remove s, [])) = x) :
    allocations (Work.trail x.1.idle (movesAlong advance advanceMoves x.1 x.2)) ≤
      allocations (Work.trail s.idle (s.drainMoves burst)) := by
  have within : burst.Within .all := ⟨fun _ _ => trivial, fun _ _ => trivial, fun _ _ => trivial⟩
  have carried := carries_routed [] tidy within
  rw [routed] at carried
  have split : s.drainMoves burst = (burst.removed.map .remove ++
        (movesAlong begin beginMoves (burst.removed.foldl remove s, []) burst.added ++
          movesAlong route routeMoves (burst.added.foldl begin (burst.removed.foldl remove s, []))
            burst.components)) ++
      (movesAlong advance advanceMoves x.1 x.2 ++
        (burst.authority.map .authorize ++ burst.arrivals.map .replay)) := by
    rw [drainMoves, ← routed]
    simp only [List.append_assoc]
  rw [split]
  exact carried.allocations_le _ _

end Session

end Replica
