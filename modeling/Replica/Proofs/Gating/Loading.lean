import Replica.Proofs.Gating.Course

/-! # What is built when a container is loaded

An entity is built only at a moment when its container is loaded. Loading a container builds those
who wait for it, as far as they can be built, in the order in which they last began to wait. The
order is told by the course of the run: every moment has a number, and an entity has begun to wait
at the last moment before which its draft did not wait and after which it did.

Main definitions:
* `beganAt` — the number of the moment at which an entity last began to wait for a container.
* `World.resolves`, `Session.resolves` — whether objects can be made.
* `Session.inOrder_of_run` — lists are in the order in which those in them began to wait.
* `Session.UsesUp`, `Session.usesUp_advances` — drafts that are ready are built, each one in turn.
* `Session.builds_of_run` — the moments at which roots are noted.
* `Session.built_when_loaded` — when entities are built, and what loading a container builds. -/

namespace Replica

/-! ## When an entity began to wait -/

/-- Whether an entity begins to wait for a container at a moment. -/
def Moment.begins (m : Moment) (c : Container) (entity : EntityId) : Bool :=
  !m.session.drafts.isWaitingOn c entity && m.after.drafts.isWaitingOn c entity

/-- The number of the last moment of a course at which an entity began to wait for a container; zero
if there is none. -/
def beganAt (course : List Moment) (c : Container) (entity : EntityId) : Nat :=
  course.length - course.reverse.findIdx (·.begins c entity)

theorem beganAt_concat (past : List Moment) (m : Moment) (c : Container) (entity : EntityId) :
    beganAt (past ++ [m]) c entity =
      if m.begins c entity then past.length + 1 else beganAt past c entity := by
  simp only [beganAt, List.reverse_append, List.reverse_cons, List.reverse_nil, List.nil_append,
    List.cons_append, List.length_append, List.length_cons, List.length_nil, List.findIdx_cons]
  cases m.begins c entity with
  | true => rfl
  | false => exact Nat.add_sub_add_right _ 1 _

theorem beganAt_le (past : List Moment) (c : Container) (entity : EntityId) :
    beganAt past c entity ≤ past.length := Nat.sub_le _ _

theorem Drafts.Gated.isWaitingOn {ds : Drafts} {next : List EntityId} (h : ds.Gated next)
    (c : Container) (entity : EntityId) :
    ds.isWaitingOn c entity = true ↔ entity ∈ ds.streaming.waitingOn c := by
  rw [Drafts.isWaitingOn, beq_iff_eq, h.waiting]

/-- Drafts are **in order** after a course if each list is in the order in which those in it began
to wait. -/
def Drafts.InOrder (past : List Moment) (ds : Drafts) : Prop :=
  ∀ c, (ds.streaming.waitingOn c).Pairwise fun e e' => beganAt past c e < beganAt past c e'

/-- A gated moment keeps the lists in order: whoever has not left them keeps the place, and whoever
comes is the last. -/
theorem Moment.Gated.inOrder {m : Moment} (gated : m.Gated) {past : List Moment}
    (h : m.session.drafts.InOrder past) : m.after.drafts.InOrder (past ++ [m]) := by
  obtain ⟨_, before⟩ := gated.before
  obtain ⟨_, after⟩ := gated.after
  have old {c : Container} {e : EntityId} (mem : e ∈ m.session.drafts.streaming.waitingOn c) :
      beganAt (past ++ [m]) c e = beganAt past c e := by
    rw [beganAt_concat, if_neg]
    simp [Moment.begins, (before.isWaitingOn c e).mpr mem]
  intro c
  rcases gated.queues c with sub | ⟨last, grown⟩
  · refine ((h c).sublist sub).imp_of_mem fun mem mem' lt => ?_
    rwa [old (sub.subset mem), old (sub.subset mem')]
  · have nodup := after.sound.nodup c
    rw [grown] at nodup ⊢
    have fresh : last ∉ m.session.drafts.streaming.waitingOn c := fun mem =>
      (List.nodup_append.mp nodup).2.2 last mem last (List.mem_singleton_self last) rfl
    have new : beganAt (past ++ [m]) c last = past.length + 1 := by
      have waits : last ∈ m.after.drafts.streaming.waitingOn c := by simp [grown]
      have begins : m.begins c last = true := by
        simp [Moment.begins, (after.isWaitingOn c last).mpr waits, ← Bool.not_eq_true,
          before.isWaitingOn c last, fresh]
      rw [beganAt_concat, if_pos begins]
    rw [List.pairwise_append]
    refine ⟨(h c).imp_of_mem fun mem mem' lt => ?_, List.pairwise_singleton _ _,
      fun e mem e' mem' => ?_⟩
    · rwa [old mem, old mem']
    · rw [List.mem_singleton.mp mem', new, old mem]
      exact Nat.lt_succ_of_le (beganAt_le past c e)

/-! ## What can be built -/

/-- Whether the objects of some spawn data can be made: its class is known, and so is the pre-placed
object that it asks for, if it asks for one. -/
def World.resolves (w : World) (spawn : Spawn) : Bool :=
  w.classes.contains spawn.className && spawn.stablePath.all w.startup.contains

/-- Objects are made exactly where class and pre-placed object are known. -/
theorem World.isOk_instantiate (w : World) (entity : EntityId) (spawn : Spawn) :
    (w.instantiate entity spawn).isOk = w.resolves spawn := by
  unfold instantiate resolves
  rw [Std.ExtTreeMap.contains_eq_isSome_getElem?]
  cases w.classes[spawn.className]? with
  | none => rfl
  | some offsets =>
    cases spawn.stablePath with
    | none => rfl
    | some path =>
      by_cases known : w.startup.contains path = true
      · simp [Option.filter, known, Except.isOk, Except.toBool]
      · simp [Option.filter, known, Except.isOk, Except.toBool]

namespace Session

variable {s t : Session}

/-- Whether an entity can be built from the spawn data that its draft has collected first. -/
def resolves (s : Session) (entity : EntityId) : Bool :=
  match s.drafts.get? entity with
  | none => false
  | some draft =>
    match World.readSpawn entity draft.components with
    | .ok spawn => s.world.resolves spawn
    | .error _ => false

/-- Where class and pre-placed object are known, an unbuilt entity gets its objects; nothing happens
where they are not. -/
theorem found_cases {draft : Draft} {spawn : Spawn} (spawned : draft.spawn = some spawn)
    (unbuilt : s.channels.get? draft.entity = none) :
    (s.world.resolves spawn = true ∧ ∃ channel s₁, s.found draft = (some channel, s₁)) ∨
      s.world.resolves spawn = false ∧ s.found draft = (none, s) := by
  rw [← s.world.isOk_instantiate draft.entity]
  cases built : s.world.instantiate draft.entity spawn with
  | error error =>
    refine .inr ⟨rfl, ?_⟩
    simp only [found, spawned, built]
  | ok result =>
    obtain ⟨assembly, world⟩ := result
    have opened : s.channels.open? draft.entity assembly ≠ none := by
      simp [Channels.open?, Channels.contains_eq, unbuilt]
    obtain ⟨⟨channel, channels⟩, opened⟩ := Option.ne_none_iff_exists'.mp opened
    have step := found_eq_some.mpr
      ⟨spawn, assembly, world, channels, spawned, built, opened, rfl⟩
    exact .inl ⟨rfl, channel, _, step⟩

/-- An entity that gets its objects is noted, and it can be built from the same things. -/
theorem found_notes {draft : Draft} {channel : Channel} {s₁ : Session}
    (step : s.found draft = (some channel, s₁)) :
    s₁.world.journal.instantiated =
        s.world.journal.instantiated ++ [(draft.entity, channel.root)] ∧
      s₁.world.classes = s.world.classes ∧ s₁.world.startup = s.world.startup := by
  obtain ⟨spawn, assembly, world, channels, -, built, opened, rfl⟩ := found_eq_some.mp step
  obtain ⟨-, id, -, rfl⟩ := Channels.open?_eq_some opened
  obtain ⟨classes, startup, noted⟩ := World.setup_of_instantiate built
  exact ⟨noted, classes, startup⟩

/-- What else belongs to the construction of an entity leaves the world steady. -/
theorem steady_furnish {draft : Draft} {channel : Channel} {s₁ : Session}
    (step : s.found draft = (some channel, s₁)) : s₁.world.Steady (s.construct draft).world := by
  rw [construct_eq, step]
  dsimp only
  have completed (s : Session) : s.world.Steady (s.complete channel).world :=
    World.steady_finalize _ _
  have authorized (changes : List AuthorityChange) (s : Session) :
      s.world.Steady (changes.foldl changeAuthority s).world := by
    induction changes generalizing s with
    | nil => exact .refl _
    | cons change changes ih => exact (steady_changeAuthority s change).trans (ih _)
  exact (routine_populates channel _ s₁).world.trans ((completed _).trans
    ((authorized draft.changes _).trans (routine_replays _ _).world))

/-! ## Drafts that are ready -/

/-- The drafts of some entities are **used up** if they are gone and no other has changed, and those
of the entities that can be built have got a root, each one in turn. -/
structure UsesUp (es : List EntityId) (s t : Session) : Prop where
  /-- Who can be built has got a root. -/
  built : ∃ new, t.world.journal.instantiated = s.world.journal.instantiated ++ new ∧
    new.map (·.1) = es.filter s.resolves ∧
    ∀ p ∈ new, (t.channels.get? p.1).map Channel.root = some p.2
  /-- The drafts are gone. -/
  drafts : ∀ e, t.drafts.get? e = if e ∈ es then none else s.drafts.get? e
  /-- The same containers are loaded. -/
  loaded : t.drafts.streaming.loaded = s.drafts.streaming.loaded
  /-- The same classes are known. -/
  classes : t.world.classes = s.world.classes
  /-- The same pre-placed objects are known. -/
  startup : t.world.startup = s.world.startup

namespace UsesUp

variable {es es' : List EntityId} {u : Session}

theorem nil (s : Session) : UsesUp [] s s :=
  ⟨⟨[], (List.append_nil _).symm, rfl, by simp⟩, fun _ => (if_neg List.not_mem_nil).symm, rfl, rfl,
    rfl⟩

/-- Drafts are used up in turn, if those that come later leave the roots of the first alone. -/
theorem append (first : UsesUp es s t) (later : UsesUp es' t u) (apart : ∀ e ∈ es, e ∉ es')
    (roots : ∀ e ∈ es,
      (u.channels.get? e).map Channel.root = (t.channels.get? e).map Channel.root) :
    UsesUp (es ++ es') s u := by
  obtain ⟨new, noted, built, rooted⟩ := first.built
  obtain ⟨new', noted', built', rooted'⟩ := later.built
  have resolves : ∀ e ∈ es', t.resolves e = s.resolves e := by
    intro e mem
    have free : e ∉ es := fun here => apart e here mem
    simp only [Session.resolves, World.resolves, first.drafts, if_neg free, first.classes,
      first.startup]
  refine ⟨⟨new ++ new', ?_, ?_, fun p mem => ?_⟩, fun e => ?_, later.loaded.trans first.loaded,
    later.classes.trans first.classes, later.startup.trans first.startup⟩
  · rw [noted', noted, List.append_assoc]
  · rw [List.map_append, built, built', List.filter_append, List.filter_congr resolves]
  · rcases List.mem_append.mp mem with here | there
    · have own : p.1 ∈ es := (List.mem_filter.mp (built ▸ List.mem_map_of_mem here)).1
      exact (roots p.1 own).trans (rooted p here)
    · exact rooted' p there
  · rw [later.drafts, first.drafts]
    by_cases here : e ∈ es <;> simp [here]

end UsesUp

/-- **A draft that is ready** is used up. -/
theorem usesUp_advance (tidy : s.Tidy .all) {entity : EntityId} {next : List EntityId}
    (gated : s.drafts.Gated (entity :: next)) (stage : s.drafts.stage? entity = some .ready) :
    UsesUp [entity] s (s.advance entity) := by
  obtain ⟨draft, found, isReady⟩ := Drafts.stage?_eq_some.mp stage
  obtain ⟨filed, unbuilt, -⟩ := tidy.drafts entity draft found
  have staged := gated.staged entity draft found
  unfold Draft.Staged at staged
  rw [isReady] at staged
  obtain ⟨spawn, read, -⟩ := staged
  subst filed
  have drafts : ∀ e, (s.drafts.without draft.entity).get? e =
      if e ∈ [draft.entity] then none else s.drafts.get? e := by
    simp [Drafts.get?_without, eq_comm]
  have resolves : s.resolves draft.entity = s.world.resolves spawn := by
    simp only [Session.resolves, found, read.first]
  have tidy' : { s with drafts := s.drafts.without draft.entity }.Tidy .all :=
    ⟨tidy.drafts.without draft.entity, tidy.channels, tidy.burst, tidy.closed⟩
  rw [(Builds.ready found isReady).advance]
  rcases found_cases (s := { s with drafts := s.drafts.without draft.entity }) read.entered unbuilt
    with ⟨able, channel, s₁, step⟩ | ⟨unable, step⟩
  · obtain ⟨noted, classes, startup⟩ := found_notes step
    have furnished := steady_furnish step
    have spared (e : EntityId) : Spares e s₁ _ := spares_furnish tidy'
      ((drafts draft.entity).trans (if_pos (List.mem_singleton_self _))) step
    obtain ⟨-, -, get⟩ := found_channels step
    have kept : s₁.drafts = s.drafts.without draft.entity := by
      obtain ⟨_, _, _, _, -, -, -, rfl⟩ := found_eq_some.mp step
      rfl
    refine ⟨⟨[(draft.entity, channel.root)], furnished.instantiated.trans noted, ?_,
      fun p mem => ?_⟩, fun e => ?_,
      (spared draft.entity).loaded.trans (congrArg (·.streaming.loaded) kept),
      furnished.classes.trans classes, furnished.startup.trans startup⟩
    · rw [List.filter_singleton, resolves, show s.world.resolves spawn = true from able]
      rfl
    · cases List.mem_singleton.mp mem
      rw [(spared draft.entity).root, get, if_pos rfl]
      rfl
    · rw [(spared e).draft, kept, drafts]
  · have same : construct { s with drafts := s.drafts.without draft.entity } draft =
        { s with drafts := s.drafts.without draft.entity } := by
      rw [construct_eq, step]
    rw [same]
    refine ⟨⟨[], (List.append_nil _).symm, ?_, by simp⟩, drafts, rfl, rfl, rfl⟩
    rw [List.filter_singleton, resolves, show s.world.resolves spawn = false from unable]
    rfl

/-- **Drafts that are ready** are used up one after the other. -/
theorem usesUp_advances (tidy : s.Tidy .all) {es : List EntityId} (gated : s.drafts.Gated es)
    (nodup : es.Nodup) (ready : ∀ e ∈ es, s.drafts.stage? e = some .ready) :
    UsesUp es s (es.foldl advance s) := by
  induction es generalizing s with
  | nil => exact .nil s
  | cons entity es ih =>
    have first := usesUp_advance tidy gated (ready entity List.mem_cons_self)
    have passed := passes_advance [] tidy gated
    have tidy₁ : (s.advance entity).Tidy .all := passed.carries.tidy tidy
    obtain ⟨fresh, nodup⟩ := List.nodup_cons.mp nodup
    have spared : Spares entity (s.advance entity) (es.foldl advance (s.advance entity)) :=
      (spares_advances tidy₁ (.inl fresh)).1
    refine first.append (ih tidy₁ passed.gated nodup fun e mem => ?_) (fun e own => ?_)
      fun e own => ?_
    · -- The others find their drafts as they were.
      have other : e ∉ [entity] := fun own => fresh (List.mem_singleton.mp own ▸ mem)
      rw [Drafts.stage?, first.drafts, if_neg other]
      exact ready e (List.mem_cons_of_mem _ mem)
    · exact List.mem_singleton.mp own ▸ fresh
    · exact List.mem_singleton.mp own ▸ spared.root

/-! ## Loading a container -/

/-- Loading a container takes the drafts further that wait for it. -/
theorem load_eq (gated : s.drafts.Gated []) (c : Container) :
    s.load c = (s.drafts.streaming.waitingOn c).foldl advance
      { s with drafts := (s.drafts.load c).2 } := by
  rw [← gated.load_fst c]
  rfl

/-- A container that is loaded already builds nothing. -/
theorem load_of_isLoaded (gated : s.drafts.Gated []) {c : Container}
    (loaded : s.drafts.streaming.isLoaded c = true) : s.load c = s := by
  have nobody := gated.sound.unloaded c loaded
  have drafts : (s.drafts.load c).2 = s.drafts := by
    have freed := gated.load_fst c
    unfold Drafts.load at freed ⊢
    dsimp only at freed ⊢
    rw [freed, nobody, List.foldl_nil, gated.sound.load_of_isLoaded loaded]
  rw [load_eq gated, nobody, drafts]
  rfl

/-- **Loading a container** uses up the drafts of those who wait for it, in the order of the
list. -/
theorem usesUp_load (tidy : s.Tidy .all) (gated : s.drafts.Gated []) (c : Container) :
    UsesUp (s.drafts.streaming.waitingOn c) { s with drafts := (s.drafts.load c).2 }
      (s.load c) := by
  have fit : (Move.draft (s.drafts.load c).2).Apt .all s.idle := tidy.drafts.load c
  rw [load_eq gated]
  refine usesUp_advances (fit.tidy tidy) (gated.load c) (gated.sound.nodup c) fun e mem => ?_
  obtain ⟨d, found, -⟩ := Drafts.stage?_eq_some.mp ((gated.waiting c e).mp mem)
  show (s.drafts.load c).2.stage? e = some .ready
  rw [Drafts.stage?, gated.get?_load c, if_pos mem, found]
  rfl

/-- Who waits for a container can be built after it is loaded if that was so before. -/
theorem resolves_load (gated : s.drafts.Gated []) (c : Container) :
    ∀ e ∈ s.drafts.streaming.waitingOn c,
      ({ s with drafts := (s.drafts.load c).2 } : Session).resolves e = s.resolves e := by
  intro e mem
  simp only [Session.resolves, gated.get?_load c, if_pos mem]
  cases s.drafts.get? e <;> rfl

end Session

/-! ## Moments at which entities are built -/

open Session in
/-- Only a move that makes the objects of an entity notes a root, and only that of its entity. -/
theorem Move.Apt.instantiated {w : Work} {m : Move} (apt : m.Apt .all w) :
    (w.perform m).session.world.journal.instantiated =
        w.session.world.journal.instantiated ∨
      ∃ d root, m = .found d ∧ (w.perform m).session.world.journal.instantiated =
        w.session.world.journal.instantiated ++ [(d.entity, root)] := by
  have aside {s' : Session} (world : w.session.world.Steady s'.world) :
      s'.world.journal.instantiated = w.session.world.journal.instantiated ∨
        ∃ d root, m = .found d ∧ s'.world.journal.instantiated =
          w.session.world.journal.instantiated ++ [(d.entity, root)] :=
    .inl world.instantiated
  cases m with
  | mark opens =>
    obtain ⟨held, same⟩ := w.exists_perform_mark opens
    rw [same]
    exact .inl rfl
  | hold _ | draft _ | settle _ _ _ => exact .inl rfl
  | alter change =>
    cases change with
    | addClass _ _ | addStartup _ | placeLocal _ => exact .inl rfl
    | destroy object => exact .inl (World.setup_destroy _ object).2.2
  | learn arrival =>
    obtain ⟨held, same⟩ := w.exists_perform_learn arrival
    rw [same]
    exact .inl rfl
  | found draft =>
    rcases apt.found_cases with ⟨channel, step⟩ | ⟨same, -⟩
    · exact .inr ⟨draft, channel.root, rfl, (found_notes step).1⟩
    · rw [same]
      exact .inl rfl
  | populate channel data => exact aside (writes_populate channel _ data).routine.world
  | complete channel => exact aside (w.session.world.steady_finalize channel.root)
  | authorize change => exact aside (steady_changeAuthority _ change)
  | write entity data => exact aside (writes_write _ entity data).routine.world
  | deliver call => exact aside (routine_deliverCall _ call).world
  | replay arrival => exact aside (routine_resolveNow _ arrival).world
  | remove entity =>
    rw [Work.perform]
    rcases w.session.remove_cases entity with ⟨-, same⟩ | ⟨-, same⟩ | ⟨channel, -, same⟩
    · rw [same]
      exact .inl rfl
    · rw [same]
      exact .inl rfl
    · rw [same]
      exact .inl (World.setup_destroy _ _).2.2

/-- A moment **builds** an entity with a root if it notes nothing else, and every container that the
first spawn component of the entity names is loaded. -/
def Moment.Builds (m : Moment) (entity : EntityId) (root : Handle) : Prop :=
  m.after.world.journal.instantiated = m.session.world.journal.instantiated ++ [(entity, root)] ∧
    ∃ draft spawn, m.move = .found draft ∧ draft.entity = entity ∧
      World.readSpawn entity draft.components = .ok spawn ∧
      ∀ c, spawn.container = some c → m.session.drafts.streaming.isLoaded c = true

namespace Session

variable {s : Session} {settings : Settings} {protocol : Protocol} {acts : List Act}

/-- Roots are noted only at moments that build an entity, and each root was noted at such a
moment. -/
theorem builds_of_run (ok : (start settings protocol).run acts = .ok s) :
    (∀ m ∈ (start settings protocol).course acts,
        m.after.world.journal.instantiated = m.session.world.journal.instantiated ∨
          ∃ e root, m.Builds e root) ∧
      ∀ p ∈ s.world.journal.instantiated,
        ∃ m ∈ (start settings protocol).course acts, m.Builds p.1 p.2 := by
  have invariant := (run_induction (I := fun w past => (∀ m ∈ past, m.Gated) →
      (∀ m ∈ past, m.after.world.journal.instantiated = m.session.world.journal.instantiated ∨
        ∃ e root, m.Builds e root) ∧
      ∀ p ∈ w.session.world.journal.instantiated, ∃ m ∈ past, m.Builds p.1 p.2)
    (fun w past m _ apt kept all => ?_) (tidy_start settings protocol)
    (fun _ => ⟨fun _ mem => absurd mem List.not_mem_nil, fun _ mem => absurd mem List.not_mem_nil⟩)
    (fun a _ => a.within_all) ok).1
  · exact invariant (gated_of_run ok).1
  · obtain ⟨earlier, noted⟩ := kept fun k mem => all k (List.mem_append_left _ mem)
    have gated := all ⟨w.session, m⟩ (List.mem_append_right _ (List.mem_singleton_self _))
    have old : ∀ p ∈ w.session.world.journal.instantiated,
        ∃ k ∈ past ++ [⟨w.session, m⟩], k.Builds p.1 p.2 := by
      intro p mem
      obtain ⟨k, before, builds⟩ := noted p mem
      exact ⟨k, List.mem_append_left _ before, builds⟩
    -- The last moment notes nothing, or makes the objects of a draft that is ready.
    have step := apt.instantiated
    rw [Work.session_perform] at step ⊢
    rcases step with same | ⟨d, root, rfl, grown⟩
    · refine ⟨fun k mem => ?_, fun p mem => old p (same ▸ mem)⟩
      rcases List.mem_append.mp mem with before | last
      · exact earlier k before
      · exact List.mem_singleton.mp last ▸ .inl same
    · obtain ⟨stage, staged⟩ := gated.found d rfl
      unfold Draft.Staged at staged
      rw [stage] at staged
      obtain ⟨spawn, read, loaded⟩ := staged
      have builds : (⟨w.session, .found d⟩ : Moment).Builds d.entity root :=
        ⟨grown, d, spawn, rfl, rfl, read.first, loaded⟩
      refine ⟨fun k mem => ?_, fun p mem => ?_⟩
      · rcases List.mem_append.mp mem with before | last
        · exact earlier k before
        · exact List.mem_singleton.mp last ▸ .inr ⟨_, _, builds⟩
      · rw [grown] at mem
        rcases List.mem_append.mp mem with before | new
        · exact old p before
        · cases List.mem_singleton.mp new
          exact ⟨_, List.mem_append_right _ (List.mem_singleton_self _), builds⟩

/-- After every run lists are in the order in which those in them began to wait. -/
theorem inOrder_of_run (ok : (start settings protocol).run acts = .ok s) :
    s.drafts.InOrder ((start settings protocol).course acts) := by
  have invariant := (run_induction (I := fun w past => (∀ m ∈ past, m.Gated) →
      w.session.drafts.InOrder past)
    (fun w past m _ _ kept all => ?_) (tidy_start settings protocol)
    (fun _ c => ?_) (fun a _ => a.within_all) ok).1
  · exact invariant (gated_of_run ok).1
  · rw [Work.session_perform]
    exact (all _ (List.mem_append_right _ (List.mem_singleton_self _))).inOrder
      (kept fun k mem => all k (List.mem_append_left _ mem))
  · simp [Session.idle, start, Drafts.empty, Streaming.empty, Streaming.waitingOn]

/-- **What is built when a container is loaded.** At every moment of a run, an entity gets a root
only if the container that its first spawn component names is loaded, and there are no other roots.
After the run, loading a container builds those entities that wait for it and can be built, each
once and in the order in which they last began to wait. It drops the drafts of those that cannot be
built and changes no other draft. A container that is loaded already builds nothing. -/
theorem built_when_loaded (ok : (start settings protocol).run acts = .ok s) :
    (∀ m ∈ (start settings protocol).course acts,
        m.after.world.journal.instantiated = m.session.world.journal.instantiated ∨
          ∃ e root, m.Builds e root) ∧
      (∀ p ∈ s.world.journal.instantiated,
        ∃ m ∈ (start settings protocol).course acts, m.Builds p.1 p.2) ∧
      ∀ c, (∀ e, e ∈ s.drafts.streaming.waitingOn c ↔ s.drafts.stage? e = some (.waiting c)) ∧
        ((s.drafts.streaming.waitingOn c).Pairwise fun e e' =>
          beganAt ((start settings protocol).course acts) c e <
            beganAt ((start settings protocol).course acts) c e') ∧
        (∃ new, (s.load c).world.journal.instantiated = s.world.journal.instantiated ++ new ∧
          new.map (·.1) = (s.drafts.streaming.waitingOn c).filter s.resolves ∧
          ∀ p ∈ new, ((s.load c).channels.get? p.1).map Channel.root = some p.2) ∧
        (∀ e, (s.load c).drafts.get? e =
          if e ∈ s.drafts.streaming.waitingOn c then none else s.drafts.get? e) ∧
        (s.load c).load c = s.load c ∧
        (s.drafts.streaming.isLoaded c = true → s.load c = s) := by
  have gated := (gated_of_run ok).2
  have tidy : s.Tidy .all := tidy_of_run ok
  obtain ⟨moments, noted⟩ := builds_of_run ok
  refine ⟨moments, noted, fun c => ?_⟩
  have used := usesUp_load tidy gated c
  obtain ⟨new, noted, built, roots⟩ := used.built
  have passed : Passes s.idle (s.moves (.load c)) [] (s.load c).idle := passes_act tidy gated rfl
  -- The container is loaded afterwards, so loading it again builds nothing.
  have loaded : (s.load c).drafts.streaming.isLoaded c = true := by
    rw [Streaming.isLoaded, used.loaded]
    show (s.drafts.load c).2.streaming.isLoaded c = true
    rw [Drafts.streaming_load]
    exact Streaming.isLoaded_load.mpr (.inl rfl)
  refine ⟨gated.waiting c, inOrder_of_run ok c,
    ⟨new, noted, built.trans (List.filter_congr (resolves_load gated c)), roots⟩, fun e => ?_,
    load_of_isLoaded passed.gated loaded, load_of_isLoaded gated⟩
  rw [used.drafts]
  split
  · rfl
  · rename_i free
    exact (gated.get?_load c e).trans (if_neg free)

/-- Two crates and a thing of unknown class wait in the yard, and one crate in the hall. The first
crate is removed and waits again, behind the others. -/
def yardToLoad : List Act :=
  crateIn yard 1 ++ crateIn yard 2 ++
    ((Blueprint.ofClass 3 "Ghost").inContainer yard).operations.map .receive ++
    [.receive (.removeEntity 1)] ++ crateIn yard 1 ++ crateIn hall 4

theorem built_when_loaded_yardToLoad :
    ∃ s, (start {} Stock.protocol).run yardToLoad = .ok s ∧
      s.drafts.streaming.waitingOn yard = [2, 3, 1] ∧
      beganAt ((start {} Stock.protocol).course yardToLoad) yard 2 <
        beganAt ((start {} Stock.protocol).course yardToLoad) yard 1 ∧
      (∃ new, (s.load yard).world.journal.instantiated = s.world.journal.instantiated ++ new ∧
        new.map (·.1) = [2, 1]) ∧
      (s.load yard).drafts.get? 3 = none ∧ (s.load yard).drafts.get? 4 = s.drafts.get? 4 ∧
      (s.load yard).load yard = s.load yard := by
  obtain ⟨s, ok, test⟩ := exists_run (start {} Stock.protocol) yardToLoad
    (fun s => s.drafts.streaming.waitingOn yard == [2, 3, 1] &&
      [2, 3, 1].filter s.resolves == [2, 1])
    (by decide +kernel)
  simp only [Bool.and_eq_true, beq_iff_eq] at test
  obtain ⟨listed, able⟩ := test
  obtain ⟨-, ordered, ⟨new, noted, built, -⟩, drafts, again, -⟩ := (built_when_loaded ok).2.2 yard
  rw [listed] at ordered
  rw [listed, able] at built
  refine ⟨s, ok, listed, (List.pairwise_cons.mp ordered).1 1 (by simp), ⟨new, noted, built⟩, ?_, ?_,
    again⟩
  · simp [drafts, listed]
  · simp [drafts, listed]

end Session

end Replica
