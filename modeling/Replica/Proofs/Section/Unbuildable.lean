import Replica.Proofs.Section.Reordering
import Replica.Proofs.Traces

/-! # An entity that cannot be built is invisible

An entity whose spawn data is malformed, or asks for what a session does not have, is dropped when
its section ends. Until then it exists as a draft and no other part of the session looks at it, so
the section leads where it leads without the operations on the entity.

Main definitions:
* `Session.without` — a session without the draft of an entity.
* `Session.Refuses` — spawn data from which nothing can be built.
* `Session.quiet_section` — what a section is not about stays as it is.
* `Session.unbuildable_is_invisible` — a section with and without such an entity. -/

namespace Replica

/-! ## Drafts without that of one entity -/

namespace Drafts

variable {ds : Drafts} {entity k : EntityId}

/-- Drafts are the same if each entity has the same draft and the same is waited for. -/
theorem ext_get? {ds ds' : Drafts} (get : ∀ k, ds.get? k = ds'.get? k)
    (streaming : ds.streaming = ds'.streaming) : ds = ds' := by
  obtain ⟨records, streaming⟩ := ds
  obtain ⟨records', streaming'⟩ := ds'
  cases streaming
  exact congrArg (Drafts.mk · _) (Std.ExtTreeMap.ext_getElem? fun {k} => get k)

/-- Without a draft of the entity there is nothing to leave out. -/
theorem without_of_undrafted (undrafted : ds.get? entity = none) : ds.without entity = ds := by
  refine ext_get? (fun k => ?_) rfl
  rw [get?_without]
  split
  · rename_i same
    rw [← same, undrafted]
  · rfl

/-- A draft that is begun can be left out again. -/
theorem without_begin (ds : Drafts) (entity : EntityId) :
    (ds.begin entity).without entity = ds.without entity := by
  refine ext_get? (fun k => ?_) (streaming_begin ds entity)
  rw [get?_without, get?_without, get?_begin]
  split <;> rfl

/-! ### Changes of other drafts -/

section Others

variable (other : k ≠ entity)

include other

/-- Another entity has a draft beside the one that is left out just if it had one. -/
theorem contains_without : (ds.without entity).contains k = ds.contains k := by
  rw [contains_eq, contains_eq, get?_without, if_neg (Ne.symm other)]

/-- Another draft is begun beside the one that is left out. -/
theorem begin_without : (ds.without entity).begin k = (ds.begin k).without entity := by
  refine ext_get? (fun j => ?_) ?_
  · simp only [get?_begin, get?_without]
    by_cases own : k = j
    · subst own
      simp [Ne.symm other]
    · simp [own]
  · exact (streaming_begin _ k).trans (streaming_begin ds k).symm

/-- Another draft is changed beside the one that is left out. -/
theorem modify_without (f : Draft → Draft) :
    (ds.without entity).modify k f = (ds.modify k f).without entity := by
  refine ext_get? (fun j => ?_) ?_
  · simp only [get?_modify, get?_without]
    by_cases own : k = j
    · subst own
      simp [Ne.symm other]
    · simp [own]
  · exact (streaming_modify _ k f).trans (streaming_modify ds k f).symm

/-- Another draft is given its spawn data beside the one that is left out. -/
theorem setSpawn_without (spawn : Spawn) :
    (ds.without entity).setSpawn k spawn = (ds.setSpawn k spawn).without entity := by
  have stage : (ds.without entity).stageFor spawn = ds.stageFor spawn := rfl
  unfold setSpawn
  rw [contains_without other, stage]
  dsimp only
  rw [modify_without other]
  split
  · split <;> rfl
  · rfl

/-- Another draft is dropped beside the one that is left out. -/
theorem remove_without : (ds.without entity).remove k = (ds.remove k).without entity := by
  refine ext_get? (fun j => ?_) ?_
  · simp only [get?_remove, get?_without]
    by_cases own : k = j
    · simp [own]
    · simp [own]
  · unfold remove
    rw [get?_without, if_neg (Ne.symm other)]
    cases ds.get? k with
    | none => rfl
    | some draft => rfl

/-- Another draft that is ready is taken out beside the one that is left out. -/
theorem takeReady_without :
    (ds.without entity).takeReady k =
      (ds.takeReady k).map fun (draft, drafts) => (draft, drafts.without entity) := by
  have erased : (ds.records.erase entity).erase k = (ds.records.erase k).erase entity := by
    refine Std.ExtTreeMap.ext_getElem? fun {j} => ?_
    simp only [Std.ExtTreeMap.getElem?_erase]
    split <;> simp_all
  have same : (ds.without entity).get? k = ds.get? k :=
    (get?_without _ _ _).trans (if_neg (Ne.symm other))
  cases found : ds.get? k with
  | none =>
    have none (ds : Drafts) (undrafted : ds.get? k = none) : ds.takeReady k = none := by
      rw [takeReady, undrafted]
      rfl
    rw [none _ (same.trans found), none ds found]
    rfl
  | some draft =>
    by_cases ready : draft.stage = .ready
    · rw [takeReady_eq_some.mpr ⟨same.trans found, ready, rfl⟩,
        takeReady_eq_some.mpr ⟨found, ready, rfl⟩]
      exact congrArg (fun records => some (draft, Drafts.mk records ds.streaming)) erased
    · rw [takeReady_of_unready (same.trans found) ready, takeReady_of_unready found ready]
      rfl

end Others

end Drafts

namespace Session

variable {s : Session} {entity : EntityId}

/-! ## Sessions without the draft of an entity -/

/-- A session without the draft of an entity. -/
def without (entity : EntityId) (s : Session) : Session := s.aside id (·.without entity)

/-- A session without a draft of the entity is the same without it. -/
theorem without_of_undrafted (undrafted : s.drafts.get? entity = none) : s.without entity = s := by
  rw [without, aside, Drafts.without_of_undrafted undrafted]
  rfl

/-- An entity is built from a draft that was taken out, beside the one that is left out. -/
theorem construct_without (s : Session) (entity : EntityId) (draft : Draft) :
    (s.without entity).construct draft = (s.construct draft).without entity := by
  refine construct_aside id (·.without entity) s fun ds change => ?_
  by_cases own : change.entity = entity
  · -- The draft that would change is left out.
    subst own
    have undrafted : (ds.without change.entity).get? change.entity = none :=
      (Drafts.get?_without _ _ _).trans (if_pos rfl)
    have kept : (ds.without change.entity).addAuthority change.entity change.component
        change.authority = ds.without change.entity := by
      unfold Drafts.addAuthority Drafts.modify
      split
      · rename_i found
        cases undrafted.symm.trans found
      · rfl
    exact (Drafts.without_modify _ _ _).trans kept.symm
  · exact (Drafts.modify_without own _).symm

/-- Another draft that is ready is built beside the one that is left out. -/
theorem constructReady_without {k : EntityId} (other : k ≠ entity) :
    (s.without entity).constructReady k = (s.constructReady k).without entity := by
  have taken : (s.without entity).drafts.takeReady k = _ := Drafts.takeReady_without other
  unfold constructReady
  rw [taken]
  cases s.drafts.takeReady k with
  | none => rfl
  | some result => exact construct_without { s with drafts := result.2 } entity result.1

/-- Another draft is taken further as it is beside the one that is left out. -/
theorem advance_without {k : EntityId} (other : k ≠ entity) :
    (s.without entity).advance k = (s.advance k).without entity := by
  have same : (s.without entity).drafts.get? k = s.drafts.get? k :=
    (Drafts.get?_without _ _ _).trans (if_neg (Ne.symm other))
  unfold advance
  rw [same]
  split
  · rfl
  · split
    · rfl
    · exact constructReady_without other
    · split
      · rename_i spawn _
        have entered : (s.without entity).drafts.setSpawn k spawn = _ :=
          Drafts.setSpawn_without other spawn
        rw [entered]
        exact constructReady_without (s := { s with drafts := s.drafts.setSpawn k spawn }) other
      · rfl
      · exact congrArg (fun drafts => { s with drafts }) (Drafts.remove_without other)

/-! ## Phases of a burst without an entity -/

/-- What is seen of the phases of a burst beside an entity. -/
def beside (entity : EntityId) (x : Session × List EntityId) : Session × List EntityId :=
  (x.1.without entity, x.2.filter (· != entity))

/-- Another entity is touched once among the others, and the entity itself not at all. -/
theorem filter_touch (touched : List EntityId) (k : EntityId) :
    (touch touched k).filter (· != entity) =
      if k = entity then touched.filter (· != entity)
      else touch (touched.filter (· != entity)) k := by
  have mem (other : k ≠ entity) : (touched.filter (· != entity)).contains k =
      touched.contains k := by
    simp [other]
  unfold touch
  by_cases own : k = entity
  · rw [if_pos own]
    split
    · rfl
    · simp [own]
  · rw [if_neg own, mem own]
    split
    · rfl
    · simp [own]

/-- Beside an entity, the draft of another one begins. -/
theorem begin_beside (x : Session × List EntityId) {k : EntityId} (other : k ≠ entity) :
    beside entity (begin x k) = begin (beside entity x) k := by
  obtain ⟨s, touched⟩ := x
  show beside entity (if s.channels.contains k then _ else _) =
    if s.channels.contains k then _ else _
  split
  · rfl
  · refine Prod.ext ?_ ((filter_touch touched k).trans (if_neg other))
    exact congrArg (fun drafts => { s with drafts }) (Drafts.begin_without other).symm

/-- The draft that is left out may begin. -/
theorem beside_begin (x : Session × List EntityId) :
    beside entity (begin x entity) = beside entity x := by
  obtain ⟨s, touched⟩ := x
  unfold begin
  dsimp only
  split
  · rfl
  · refine Prod.ext ?_ ((filter_touch touched entity).trans (if_pos rfl))
    exact congrArg (fun drafts => { s with drafts }) (Drafts.without_begin _ _)

/-- Beside an entity, a component of another one is routed. -/
theorem route_beside (x : Session × List EntityId) {added : AddedComponent}
    (other : added.entity ≠ entity) :
    beside entity (route x added) = route (beside entity x) added := by
  obtain ⟨s, touched⟩ := x
  unfold route beside
  dsimp only
  rw [show (s.without entity).drafts.contains added.entity = s.drafts.contains added.entity from
    Drafts.contains_without other]
  split
  · refine Prod.ext ?_ ((filter_touch touched added.entity).trans (if_neg other))
    exact congrArg (fun drafts => { s with drafts }) (Drafts.modify_without other _).symm
  · refine Prod.ext ?_ rfl
    exact ((congrArg _ (applyToLive_aside id (·.without entity) s _ _ _)).trans
      (accept_aside id (·.without entity) s _)).symm

/-- The draft that is left out may collect components, and without a draft they are dropped. -/
theorem beside_route (x : Session × List EntityId) {added : AddedComponent}
    (own : added.entity = entity) (unbuilt : x.1.channels.get? entity = none) :
    beside entity (route x added) = beside entity x := by
  obtain ⟨s, touched⟩ := x
  subst own
  unfold route
  dsimp only
  split
  · refine Prod.ext ?_ ((filter_touch touched added.entity).trans (if_pos rfl))
    exact congrArg (fun drafts => { s with drafts }) (Drafts.without_modify _ _ _)
  · have dropped := applyAll_unbuilt unbuilt [added.data]
    exact congrArg (beside added.entity ⟨·, touched⟩) dropped

/-- Authority over an entity that is neither drafted nor built is dropped. -/
theorem changeAuthority_of_absent {change : AuthorityChange}
    (undrafted : s.drafts.get? change.entity = none)
    (unbuilt : s.channels.get? change.entity = none) : s.changeAuthority change = s := by
  unfold changeAuthority Drafts.addAuthority Drafts.modify
  rw [unbuilt]
  dsimp only
  split
  · rename_i found
    cases undrafted.symm.trans found
  · rfl

/-! ## Spawn data that is refused -/

/-- A session **refuses** spawn data that cannot be read, or that would let an entity wait for
nothing and asks for a class or a pre-placed object that is not known. -/
inductive Refuses (s : Session) (payload : Bytes) : Prop where
  /-- It cannot be read. -/
  | malformed {flaw : Wire.Flaw} (decoded : Wire.decodeSpawn payload = .error flaw)
  /-- Its container is loaded, if it has one, but something else is missing. -/
  | unsupplied {spawn : Spawn} (decoded : Wire.decodeSpawn payload = .ok spawn)
    (loaded : ∀ c, spawn.container = some c → s.drafts.streaming.isLoaded c = true)
    (missing : spawn.className ∉ s.world.classes ∨
      ∃ path, spawn.stablePath = some path ∧ path ∉ s.world.startup)

/-- With the same stock, the same is refused. -/
theorem SameStock.refuses {s₁ : Session} (h : SameStock entity s s₁) {payload : Bytes}
    (refused : s.Refuses payload) : s₁.Refuses payload := by
  cases refused with
  | malformed decoded => exact .malformed decoded
  | unsupplied decoded loaded missing =>
    refine .unsupplied decoded (fun c asked => ?_) ?_
    · show s₁.drafts.streaming.loaded.contains c = true
      rw [h.loaded]
      exact loaded c asked
    · rwa [h.classes, h.startup]

/-- What a session does not have is not built from. -/
theorem instantiate_of_missing {spawn : Spawn} (missing : spawn.className ∉ s.world.classes ∨
      ∃ path, spawn.stablePath = some path ∧ path ∉ s.world.startup) (entity : EntityId) :
    ∃ error, s.world.instantiate entity spawn = .error error := by
  unfold World.instantiate
  cases known : s.world.classes[spawn.className]? with
  | none => exact ⟨_, rfl⟩
  | some offsets =>
    have listed : spawn.className ∈ s.world.classes := by
      rw [Std.ExtTreeMap.mem_iff_isSome_getElem?, known]
      rfl
    obtain ⟨path, asked, absent⟩ := missing.resolve_left (not_not_intro listed)
    have unplaced : spawn.stablePath.filter (!s.world.startup.contains ·) = some path := by
      rw [Option.filter_eq_some_iff]
      refine ⟨asked, ?_⟩
      rw [Bool.not_eq_true', Bool.eq_false_iff, ne_eq, Std.ExtTreeSet.contains_iff_mem]
      exact absent
    rw [unplaced]
    exact ⟨_, rfl⟩

/-- **A draft whose spawn data is refused** is dropped as soon as it is taken further, and nothing
else happens. -/
theorem Drafting.advance_of_refuses {components : List ComponentData}
    (h : Drafting entity components s) {data : ComponentData}
    (first : components.find? (·.component == Stock.spawnComponent) = some data)
    (refused : s.Refuses data.payload) : s.advance entity = s.without entity := by
  cases refused with
  | malformed decoded =>
    have read : ∃ error, (∀ e, error ≠ .spawnDataMissing e) ∧
        World.readSpawn entity components = .error error := by
      simp [World.readSpawn, first, decoded]
    obtain ⟨error, flawed, read⟩ := read
    have dropped : s.drafts.remove entity = s.drafts.without entity := by
      rw [Drafts.remove, h.draft]
      rfl
    simp only [Session.advance, h.draft, read]
    rw [dropped]
    rfl
  | @unsupplied spawn decoded loaded missing =>
    have read : World.readSpawn entity components = .ok spawn := by
      simp [World.readSpawn, first, decoded]
    have free : s.drafts.stageFor spawn = .ready := by
      rcases s.drafts.stageFor_cases spawn with ⟨c, asked, absent, -⟩ | ⟨free, -⟩
      · cases absent.symm.trans (loaded c asked)
      · exact free
    obtain ⟨error, unbuilt⟩ := instantiate_of_missing missing entity
    rw [(Builds.spawned h.draft rfl read free).advance]
    simp only [construct, unbuilt]
    rfl

/-! ## Bursts without an entity that cannot be built -/

/-- Drafts go on as they do without an entity that has none. -/
theorem advances_of_undrafted (tidy : s.Tidy .all) (undrafted : s.drafts.get? entity = none)
    (touched : List EntityId) :
    (touched.filter (· != entity)).foldl advance s = touched.foldl advance s := by
  refine (foldl_filter_hom id (fun t => t.Tidy .all ∧ t.drafts.get? entity = none) ?_ ?_
    ⟨tidy, undrafted⟩).1
  · intro t k _ ⟨tidy, undrafted⟩ other
    exact ⟨rfl, (carries_advance [] tidy k).tidy tidy,
      (spares_advance tidy (by simpa using other)).draft.trans undrafted⟩
  · intro t k _ ⟨tidy, undrafted⟩ own
    obtain rfl : k = entity := by simpa using own
    rw [advance_of_undrafted undrafted]
    exact ⟨rfl, tidy, undrafted⟩

/-- **Drafts go on as they do without one whose spawn data is refused.** -/
theorem advances_of_refuses (tidy : s.Tidy .all) {components : List ComponentData}
    (drafting : Drafting entity components s) {data : ComponentData}
    (first : components.find? (·.component == Stock.spawnComponent) = some data)
    (refused : s.Refuses data.payload) {touched : List EntityId} (listed : entity ∈ touched) :
    (touched.filter (· != entity)).foldl advance (s.without entity) = touched.foldl advance s ∧
      (touched.foldl advance s).Tidy .all ∧ (touched.foldl advance s).drafts.get? entity = none ∧
      (touched.foldl advance s).channels.get? entity = none := by
  -- The draft is dropped when its turn first comes.
  obtain ⟨before, later, rfl, fresh⟩ := List.eq_append_cons_of_mem listed
  obtain ⟨spared, tidy₁⟩ := spares_advances tidy (.inl fresh)
  have drafting₁ := drafting.spared spared
  have dropped := drafting₁.advance_of_refuses first (spared.refuses refused)
  have tidy₂ := (carries_advance [] tidy₁ entity).tidy tidy₁
  have undrafted : ((before.foldl advance s).without entity).drafts.get? entity = none :=
    (Drafts.get?_without _ _ _).trans (if_pos rfl)
  have early : (before.filter (· != entity)).foldl advance (s.without entity) =
      (before.foldl advance s).without entity := by
    refine (foldl_filter_hom (Session.without entity) (fun _ => True) ?_ ?_ trivial).1
    · exact fun t k _ _ other => ⟨(advance_without (by simpa using other)).symm, trivial⟩
    · intro t k mem _ own
      obtain rfl : k = entity := by simpa using own
      exact absurd mem fresh
  rw [dropped] at tidy₂
  obtain ⟨after, tidy₃⟩ : Spares entity ((before.foldl advance s).without entity)
      (later.foldl advance ((before.foldl advance s).without entity)) ∧ _ :=
    spares_advances tidy₂ (.inr undrafted)
  rw [List.filter_append, List.filter_cons_of_neg (by simp), List.foldl_append, List.foldl_append,
    List.foldl_cons, dropped, early, advances_of_undrafted tidy₂ undrafted]
  exact ⟨rfl, tidy₃, after.draft.trans undrafted, after.unbuilt.mpr drafting₁.unbuilt⟩

/-- Authority changes as it does without an entity that is neither drafted nor built. -/
theorem changes_of_absent (tidy : s.Tidy .all) (undrafted : s.drafts.get? entity = none)
    (unbuilt : s.channels.get? entity = none) (changes : List AuthorityChange) :
    (changes.filter (·.entity != entity)).foldl changeAuthority s =
      changes.foldl changeAuthority s := by
  refine (foldl_filter_hom id (fun t => t.Tidy .all ∧ t.drafts.get? entity = none ∧
    t.channels.get? entity = none) ?_ ?_ ⟨tidy, undrafted, unbuilt⟩).1
  · intro t change _ ⟨tidy, undrafted, unbuilt⟩ _
    have spared : Spares entity t (t.changeAuthority change) :=
      spares_changeAuthority tidy (.inr undrafted)
    exact ⟨rfl, tidy.changeAuthority change, spared.draft.trans undrafted,
      spared.unbuilt.mpr unbuilt⟩
  · intro t change _ absent own
    obtain rfl : change.entity = entity := by simpa using own
    rw [changeAuthority_of_absent absent.2.1 absent.2.2]
    exact ⟨rfl, absent⟩

/-- A draft that begins is no channel yet. -/
theorem channels_begin (x : Session × List EntityId) (k : EntityId) :
    (begin x k).1.channels = x.1.channels := by
  unfold begin
  dsimp only
  split <;> rfl

/-- A component that is routed opens no channel. -/
theorem channels_route (x : Session × List EntityId) (added : AddedComponent) :
    (route x added).1.channels = x.1.channels := by
  unfold route
  dsimp only
  split
  · rfl
  · exact (routine_applyToLive x.1 added.entity added.data).channels

/-- Drafts are begun and collect components as they do without one entity, but for its draft. -/
theorem routed_beside (undrafted : s.drafts.get? entity = none)
    (unbuilt : s.channels.get? entity = none) (added : List EntityId)
    (components : List AddedComponent) :
    (components.filter (·.entity != entity)).foldl route
        ((added.filter (· != entity)).foldl begin (s, [])) =
      beside entity (components.foldl route (added.foldl begin (s, []))) ∧
    (components.foldl route (added.foldl begin (s, []))).1.channels.get? entity = none := by
  have start : beside entity (s, []) = (s, []) :=
    congrArg (fun t : Session => (t, ([] : List EntityId))) (without_of_undrafted undrafted)
  obtain ⟨begun, unbuilt₁⟩ : (added.filter (· != entity)).foldl begin (beside entity (s, [])) =
      beside entity (added.foldl begin (s, [])) ∧
      (added.foldl begin (s, [])).1.channels.get? entity = none := by
    refine foldl_filter_hom (beside entity) (·.1.channels.get? entity = none) ?_ ?_ unbuilt
    · intro x k _ unbuilt other
      exact ⟨begin_beside x (by simpa using other), by rwa [channels_begin]⟩
    · intro x k _ unbuilt own
      obtain rfl : k = entity := by simpa using own
      exact ⟨beside_begin x, by rwa [channels_begin]⟩
  rw [start] at begun
  rw [begun]
  refine foldl_filter_hom (beside entity) (·.1.channels.get? entity = none) ?_ ?_ unbuilt₁
  · intro x added _ unbuilt other
    exact ⟨route_beside x (by simpa using other), by rwa [channels_route]⟩
  · intro x added _ unbuilt own
    exact ⟨beside_route x (by simpa using own) unbuilt, by rwa [channels_route]⟩

/-- **A burst does what it does without an entity whose spawn data is refused.** -/
theorem drain_cancel (tidy : s.Tidy .all) (undrafted : s.drafts.get? entity = none)
    (unbuilt : s.channels.get? entity = none) {b : Burst} {data : ComponentData}
    (first : (ownComponents entity b.components).find? (·.component == Stock.spawnComponent) =
      some data)
    (refused : s.Refuses data.payload) : s.drain (b.cancel entity) = s.drain b := by
  unfold drain
  dsimp only [Burst.cancel]
  obtain ⟨cleared, tidy₁⟩ : Spares entity s (b.removed.foldl remove s) ∧ _ :=
    spares_removals tidy (.inr ⟨undrafted, unbuilt⟩)
  revert cleared tidy₁
  generalize b.removed.foldl remove s = s₁
  intro cleared tidy₁
  have undrafted₁ := cleared.draft.trans undrafted
  have unbuilt₁ := cleared.unbuilt.mpr unbuilt
  obtain ⟨routed, unbuilt₂⟩ := routed_beside undrafted₁ unbuilt₁ b.added b.components
  rw [routed]
  suffices advanced : ∀ x, b.components.foldl route (b.added.foldl begin (s₁, [])) = x →
      (x.2.filter (· != entity)).foldl advance (x.1.without entity) = x.2.foldl advance x.1 ∧
        (x.2.foldl advance x.1).Tidy .all ∧ (x.2.foldl advance x.1).drafts.get? entity = none ∧
        (x.2.foldl advance x.1).channels.get? entity = none by
    obtain ⟨same, tidy₃, undrafted₃, unbuilt₃⟩ := advanced _ rfl
    rw [beside, same, changes_of_absent tidy₃ undrafted₃ unbuilt₃]
  rintro x rfl
  by_cases listed : entity ∈ b.added
  · obtain ⟨begun, tidy₂, drafting, touched⟩ := foldl_begin tidy₁ unbuilt₁ undrafted₁ listed
    obtain ⟨collected, tidy₃, drafting, touched⟩ := foldl_route tidy₂ drafting touched b.components
    have stock := cleared.toSameStock.trans (begun.trans collected)
    exact advances_of_refuses tidy₃ drafting first (stock.refuses refused) touched
  · -- Without a draft there is nothing to leave out.
    obtain ⟨begun, tidy₂⟩ := spares_begins (x := (s₁, [])) tidy₁ (.inl listed)
    obtain ⟨collected, tidy₃⟩ := spares_routes tidy₂ (begun.draft.trans undrafted₁) b.components
    have undrafted₃ := collected.draft.trans (begun.draft.trans undrafted₁)
    obtain ⟨advanced, tidy₄⟩ : Spares entity _ ((b.components.foldl route
        (b.added.foldl begin (s₁, []))).2.foldl advance _) ∧ _ :=
      spares_advances tidy₃ (.inr undrafted₃)
    rw [without_of_undrafted undrafted₃, advances_of_undrafted tidy₃ undrafted₃]
    exact ⟨rfl, tidy₄, advanced.draft.trans undrafted₃, advanced.unbuilt.mpr unbuilt₂⟩

end Session

/-! ## Sections without an entity -/

/-- Whether an act is an operation on an entity. -/
def Act.concerns (entity : EntityId) : Act → Bool
  | .receive operation => operation.entity? = some entity
  | _ => false

/-- Of acts that receive a body, those that do not concern an entity receive the operations on
others. -/
theorem filter_concerns (entity : EntityId) (body : List Operation) :
    (body.map Act.receive).filter (!·.concerns entity) =
      (body.filter (·.entity? ≠ some entity)).map .receive := by
  rw [List.filter_map]
  refine congrArg _ (List.filter_congr fun operation _ => ?_)
  simp [Act.concerns]

namespace Burst

variable {holdArrivals : Bool} {entity : EntityId}

/-- What is held back for an entity is cancelled before or after something else is held back. -/
theorem cancel_after (b : Burst) {a : Act} (other : a.concerns entity = false) :
    (b.after holdArrivals a).cancel entity = (b.cancel entity).after holdArrivals a := by
  cases a with
  | receive operation =>
    cases operation with
    | removeEntity e =>
      have differs : e ≠ entity := by simpa [Act.concerns, Operation.entity?] using other
      have swap : ∀ k : EntityId, (k != entity && k != e) = (k != e && k != entity) :=
        fun k => Bool.and_comm _ _
      have listed : e ∈ (b.cancel entity).added ↔ e ∈ b.added := by simp [cancel, differs]
      by_cases added : e ∈ b.added <;>
        simp [after, keep, removeEntity_eq, cancel, added, differs, List.filter_filter, swap]
    | addEntity e | addComponent e data | authorityChange e component authority =>
      have differs : e ≠ entity := by simpa [Act.concerns, Operation.entity?] using other
      simp [after, keep, addEntity, addComponent, changeAuthority, cancel, differs]
    | _ => rfl
  | announce arrival =>
    unfold after
    dsimp only
    split <;> rfl
  | _ => rfl

/-- What is held back for the entity itself is cancelled as well, unless it is a removal. -/
theorem cancel_after_of_concerns (b : Burst) {a : Act} (own : a.concerns entity = true)
    (stays : a ≠ .removal entity) : (b.after holdArrivals a).cancel entity = b.cancel entity := by
  cases a with
  | receive operation =>
    cases operation with
    | removeEntity e =>
      obtain rfl : e = entity := by simpa [Act.concerns, Operation.entity?] using own
      exact absurd rfl stays
    | addEntity e | addComponent e data | authorityChange e component authority =>
      obtain rfl : e = entity := by simpa [Act.concerns, Operation.entity?] using own
      simp [after, keep, addEntity, addComponent, changeAuthority, cancel]
    | _ => rfl
  | _ => cases own

end Burst

/-- **A section holds back, without the operations on an entity,** what it holds back with them,
without what is held back for the entity. -/
theorem heldBack_filter_concerns (holdArrivals : Bool) {entity : EntityId} {acts : List Act}
    (stays : .removal entity ∉ acts) :
    heldBack holdArrivals (acts.filter (!·.concerns entity)) =
      (heldBack holdArrivals acts).cancel entity := by
  show (acts.filter _).foldl _ (Burst.cancel {} entity) = _
  refine (foldl_filter_hom (Burst.cancel · entity) (fun _ => True) ?_ ?_ trivial).1
  · exact fun b a _ _ other => ⟨Burst.cancel_after b (by simpa using other), trivial⟩
  · intro b a mem _ own
    refine ⟨Burst.cancel_after_of_concerns b (by simpa using own) ?_, trivial⟩
    rintro rfl
    exact stays mem

/-- The components that some operations add to an entity, in order. -/
def componentsAdded (entity : EntityId) (body : List Operation) : List ComponentData :=
  body.filterMap fun
    | .addComponent e data => if e = entity then some data else none
    | _ => none

/-- They are what a section has for an entity that it does not remove. -/
theorem ownComponents_heldBack (holdArrivals : Bool) {entity : EntityId} {body : List Operation}
    (stays : .removeEntity entity ∉ body) :
    ownComponents entity (heldBack holdArrivals (body.map .receive)).components =
      componentsAdded entity body := by
  suffices along : ∀ b : Burst,
      ownComponents entity ((body.map Act.receive).foldl (·.after holdArrivals) b).components =
        ownComponents entity b.components ++ componentsAdded entity body from along {}
  induction body with
  | nil => exact fun b => (List.append_nil _).symm
  | cons operation rest ih =>
    intro b
    have kept : (b.keep operation).belongings entity = _ :=
      Burst.belongings_keep fun same => stays (by rw [same]; exact List.mem_cons_self)
    have grown : ownComponents entity (b.keep operation).components =
        ownComponents entity b.components ++ componentsAdded entity [operation] := by
      refine (congrArg (fun x : Belongings => x.components.map AddedComponent.data) kept).trans ?_
      rw [Belongings.append_eq, List.map_append]
      refine congrArg _ ?_
      cases operation with
      | addComponent e data =>
        by_cases own : e = entity <;> simp [Act.belongings, componentsAdded, own]
      | authorityChange e component authority =>
        by_cases own : e = entity <;> simp [Act.belongings, componentsAdded, own]
      | _ => rfl
    rw [List.map_cons, List.foldl_cons]
    refine (ih (fun mem => stays (.tail _ mem)) _).trans ?_
    show ownComponents entity (b.keep operation).components ++ _ = _
    rw [grown, List.append_assoc]
    refine congrArg _ ?_
    exact List.filterMap_append.symm

namespace Session

variable {s : Session} {entity : EntityId}

/-- **Operations left out inside an open section**, on an entity that is neither drafted nor built,
leave the rest of the session as it is. -/
theorem run_filter_concerns (tidy : s.Tidy .all) (undrafted : s.drafts.get? entity = none)
    (unbuilt : s.channels.get? entity = none) {depth depth' : Nat}
    (isOpen : s.held.depth = depth + 1) {body : List Operation}
    (nest : (body.map Act.receive).foldlM Act.nest depth = some depth')
    (stays : .removeEntity entity ∉ body)
    (uncommanded : ∀ request command, .commandRequest request entity command ∉ body) :
    s.run ((body.map .receive).filter (!·.concerns entity)) =
      (s.run (body.map .receive)).map (·.holding ⟨depth' + 1,
        ((body.map .receive).filter (!·.concerns entity)).foldl
          (·.after s.settings.holdArrivals) s.held.burst⟩) := by
  refine run_filter (fun t => t.drafts.get? entity = none ∧ t.channels.get? entity = none) ?_ ?_
    tidy ⟨undrafted, unbuilt⟩ isOpen nest
  -- An operation on somebody else begins no draft of the entity.
  · intro t d here a mem ⟨undrafted, unbuilt⟩ other d' nest t₁ ok
    obtain ⟨operation, mem, rfl⟩ := List.mem_map.mp mem
    have spared : Spares entity t t₁ := by
      refine spares_process here nest ?_ ok
      rintro update rfl
      simp [Act.concerns, Operation.entity?] at other
    exact ⟨spared.draft.trans undrafted, spared.unbuilt.mpr unbuilt⟩
  -- An operation on the entity is held back, or is an update that finds nobody.
  · intro t d here a mem ⟨undrafted, unbuilt⟩ own
    obtain ⟨operation, listed, rfl⟩ := List.mem_map.mp mem
    have own : operation.entity? = some entity := by simpa [Act.concerns] using own
    have holds : t.held.isOpen = true := by simp [Section.isOpen, here]
    rw [← here]
    cases operation with
    | addEntity e | addComponent e data | authorityChange e component authority =>
      exact ⟨rfl, congrArg Except.ok (if_pos holds)⟩
    | removeEntity e =>
      cases own
      exact absurd listed stays
    | commandRequest request e command =>
      cases own
      exact absurd listed (uncommanded request command)
    | componentUpdate e update =>
      cases own
      refine ⟨rfl, congrArg Except.ok ?_⟩
      have dropped : t.updateAll entity [update] = t := by
        rw [updateAll_undrafted undrafted, applyAll_unbuilt unbuilt]
      exact dropped
    | _ => cases own

/-- An entity that is not updated in a section is spared until the section ends. -/
theorem spares_inside (tidy : s.Tidy .all) (shut : s.held.isOpen = false) {body : List Operation}
    (balanced : nesting (body.map .receive) = some 0)
    (others : ∀ update, .componentUpdate entity update ∉ body) {s₁ : Session}
    (ran : (s.holding ⟨1, {}⟩).run (body.map .receive) = .ok s₁) :
    Spares entity s (s₁.holding {}) ∧ (s₁.holding {}).Tidy .all := by
  have entered := tidy_of_act tidy (act_enter tidy shut)
  have inner : Spares entity (s.holding ⟨1, {}⟩) s₁ :=
    spares_run entered rfl balanced others ran
  exact ⟨⟨⟨inner.roots, inner.loaded, inner.classes, inner.startup⟩, inner.root, inner.draft⟩,
    ⟨(entered.run ran).drafts, (entered.run ran).channels, .empty, fun _ => rfl⟩⟩

/-- **A section leads where it leads without the operations on an entity that cannot be built.** -/
theorem section_filter_concerns (tidy : s.Tidy .all) (shut : s.held.isOpen = false)
    (undrafted : s.drafts.get? entity = none) (unbuilt : s.channels.get? entity = none)
    {body : List Operation} (balanced : nesting (body.map .receive) = some 0)
    (stays : .removeEntity entity ∉ body)
    (uncommanded : ∀ request command, .commandRequest request entity command ∉ body)
    {data : ComponentData}
    (first : (componentsAdded entity body).find? (·.component == Stock.spawnComponent) = some data)
    (refused : s.Refuses data.payload) :
    nesting ((body.filter (·.entity? ≠ some entity)).map .receive) = some 0 ∧
      s.run ((sectionOf body).map .receive) =
        s.run ((sectionOf (body.filter (·.entity? ≠ some entity))).map .receive) := by
  have entered := tidy_of_act tidy (act_enter tidy shut)
  have inside := run_filter_concerns entered undrafted unbuilt rfl balanced stays uncommanded
  have level : nesting ((body.map .receive).filter (!·.concerns entity)) = some 0 := by
    refine (nest_filter (fun a mem own depth => ?_) 0).trans balanced
    obtain ⟨operation, -, rfl⟩ := List.mem_map.mp mem
    cases operation with
    | criticalSection opens => simp [Act.concerns, Operation.entity?] at own
    | _ => rfl
  have unremoved : Act.removal entity ∉ body.map Act.receive := by simpa [Act.removal] using stays
  have held := heldBack_filter_concerns s.settings.holdArrivals unremoved
  rw [filter_concerns] at inside level held
  refine ⟨level, ?_⟩
  rw [map_receive_sectionOf, map_receive_sectionOf, section_run tidy shut balanced,
    section_run tidy shut level, inside, held]
  cases ran : (s.holding ⟨1, {}⟩).run (body.map .receive) with
  | error fault => rfl
  | ok s₁ =>
    -- The entity is as it was when the section began, so its draft begins there.
    rw [ran] at inside
    have others : ∀ update, .componentUpdate entity update ∉
        body.filter (·.entity? ≠ some entity) := by
      simp [Operation.entity?]
    obtain ⟨spared, tidy₁⟩ := spares_inside tidy shut level others inside
    refine congrArg Except.ok (drain_cancel tidy₁ (spared.draft.trans undrafted)
      (spared.unbuilt.mpr unbuilt) ?_ (spared.refuses refused)).symm
    rw [ownComponents_heldBack _ stays]
    exact first

/-- What a section is not about stays quiet, if it has no draft, and gets none. -/
theorem quiet_section (tidy : s.Tidy .all) (shut : s.held.isOpen = false)
    (undrafted : s.drafts.get? entity = none) {body : List Operation}
    (balanced : nesting (body.map .receive) = some 0)
    (others : ∀ operation ∈ body, operation.entity? ≠ some entity) {s₁ : Session}
    (ran : s.run ((sectionOf body).map .receive) = .ok s₁) :
    s₁.drafts.get? entity = none ∧ Quiet entity s s₁ := by
  -- The burst adds nobody whom the section is not about.
  have absent : entity ∉ (heldBack s.settings.holdArrivals (body.map .receive)).added := by
    rw [mem_added_heldBack]
    rintro ⟨early, late, split, -⟩
    have listed : Act.receive (.addEntity entity) ∈ body.map Act.receive := by
      rw [split]
      simp
    obtain ⟨operation, mem, same⟩ := List.mem_map.mp listed
    cases same
    exact others _ mem rfl
  have ended := ran
  rw [map_receive_sectionOf, section_run tidy shut balanced] at ended
  cases inside : (s.holding ⟨1, {}⟩).run (body.map .receive) with
  | error fault =>
    rw [inside] at ended
    cases ended
  | ok t =>
    rw [inside] at ended
    cases ended
    obtain ⟨spared, tidy₁⟩ := spares_inside tidy shut balanced
      (fun update mem => others _ mem rfl) inside
    obtain ⟨left, -, other⟩ := drain_undrafted tidy₁ (spared.draft.trans undrafted)
      (fun added => absurd added absent)
    have fit : s.Tidy (silentAbout entity) := by
      refine ⟨tidy.drafts, tidy.channels, ?_, tidy.closed⟩
      rw [tidy.closed shut]
      exact .empty
    refine ⟨left, quiet_of_run fit (fun a mem => ?_) ran
      ((other (.inl absent)).2.trans spared.roots)⟩
    obtain ⟨operation, -, rfl⟩ := List.mem_map.mp mem
    cases operation <;> exact trivial

/-- **An entity that cannot be built is invisible.** In a section in which an entity is added and
not removed, and its first spawn component is refused, all operations on the entity may be left out:
the section leads to the same session or the same fault. The entity is left with no draft and no
channel; no root was built and no object made for it, and none of its references begins to name an
object. -/
theorem unbuildable_is_invisible {settings : Settings} {protocol : Protocol} {past : List Act}
    (reached : (start settings protocol).run past = .ok s) (shut : s.held.isOpen = false)
    (undrafted : s.drafts.get? entity = none) (unbuilt : s.channels.get? entity = none)
    {body : List Operation} (balanced : nesting (body.map .receive) = some 0)
    (stays : .removeEntity entity ∉ body)
    (uncommanded : ∀ request command, .commandRequest request entity command ∉ body)
    {data : ComponentData}
    (first : (componentsAdded entity body).find? (·.component == Stock.spawnComponent) = some data)
    (refused : s.Refuses data.payload) :
    s.run ((sectionOf body).map .receive) =
        s.run ((sectionOf (body.filter (·.entity? ≠ some entity))).map .receive) ∧
      ∀ s', s.run ((sectionOf body).map .receive) = .ok s' →
        s'.drafts.get? entity = none ∧ s'.channels.get? entity = none ∧ Quiet entity s s' := by
  have tidy := tidy_of_run reached
  obtain ⟨level, same⟩ := section_filter_concerns tidy shut undrafted unbuilt balanced stays
    uncommanded first refused
  refine ⟨same, fun s' ran => ?_⟩
  rw [same] at ran
  obtain ⟨left, quiet⟩ := quiet_section tidy shut undrafted level (by simp) ran
  exact ⟨left, quiet.closed unbuilt, quiet⟩

/-- A crate comes into view beside something of a class that nobody knows. -/
def besideDragon : List Operation :=
  [.addEntity 7, .addEntity 1, .addComponent 7 (fieldOf 3),
    .addComponent 7 ⟨Stock.spawnComponent, Wire.spawn { className := "Dragon" }⟩,
    .addComponent 1 crateSpawn, .authorityChange 7 Stock.rootDataComponent .authoritative,
    .componentUpdate 7 (fieldOf 4), .addEntity 7]

theorem unbuildable_is_invisible_besideDragon :
    ∃ s', (start {} Stock.protocol).run ((sectionOf besideDragon).map .receive) = .ok s' ∧
      (start {} Stock.protocol).run ((sectionOf [.addEntity 1, .addComponent 1 crateSpawn]).map
        .receive) = .ok s' ∧
      s'.world.liveRootsOf 1 = [⟨0, 0⟩] ∧ s'.drafts.get? 7 = none ∧ s'.channels.get? 7 = none := by
  obtain ⟨s', ran, test⟩ := exists_run (start {} Stock.protocol)
    ((sectionOf besideDragon).map .receive) (fun s => s.world.liveRootsOf 1 == [⟨0, 0⟩])
    (by decide +kernel)
  have refused : (start {} Stock.protocol).Refuses (Wire.spawn { className := "Dragon" }) := by
    have decoded : Wire.decodeSpawn (Wire.spawn { className := "Dragon" }) =
        .ok { className := "Dragon" } := by decide +kernel
    refine .unsupplied decoded nofun (.inl ?_)
    rw [← Std.ExtTreeMap.contains_iff_mem, Bool.not_eq_true]
    decide +kernel
  have reached : (start {} Stock.protocol).run [] = .ok (start {} Stock.protocol) := rfl
  have undrafted : (start {} Stock.protocol).drafts.get? 7 = none := by decide +kernel
  have unbuilt : (start {} Stock.protocol).channels.get? 7 = none := by decide +kernel
  have first : (componentsAdded 7 besideDragon).find? (·.component == Stock.spawnComponent) =
      some ⟨Stock.spawnComponent, Wire.spawn { className := "Dragon" }⟩ := by decide +kernel
  obtain ⟨same, absent⟩ := unbuildable_is_invisible reached rfl undrafted unbuilt
    (by decide +kernel) (by simp [besideDragon]) (by simp [besideDragon]) first refused
  obtain ⟨undrafted, unbuilt, -⟩ := absent s' ran
  exact ⟨s', ran, same.symm.trans ran, by simpa using test, undrafted, unbuilt⟩

end Session

end Replica
