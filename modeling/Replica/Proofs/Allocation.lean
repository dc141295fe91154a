import Replica.Proofs.Graph.Members
import Replica.Proofs.World

/-! # Handles issued in a run

As long as fewer handles are issued than there are generations, no handle is issued twice, and the
objects of a channel are under handles that were issued.

Main definitions:
* `allocations` — how many handles a course issues.
* `Session.Founds`, `Session.founds_of_found` — what an entity that is built adds to a session.
* `Session.Issued` — the pool is sound and has issued the objects of all channels.
* `Session.issued_of_run` — this holds after every run. -/

namespace Replica

/-! ## Handles issued in a course -/

/-- How many handles a moment issues. -/
def Moment.allocations (m : Moment) : Nat :=
  match m.move with
  | .found draft =>
    match draft.spawn with
    | none => 0
    | some spawn =>
      match m.session.world.instantiate draft.entity spawn with
      | .ok (assembly, _) => assembly.handles.length
      | .error _ => 0
  | .alter (.placeLocal _) => 1
  | _ => 0

/-- How many handles a course issues. -/
def allocations (course : List Moment) : Nat := (course.map Moment.allocations).sum

theorem allocations_append (past later : List Moment) :
    allocations (past ++ later) = allocations past + allocations later := by
  simp [allocations]

/-- A course issues at least the handles that each of its moments does. -/
theorem allocations_le_of_mem {m : Moment} {course : List Moment} (mem : m ∈ course) :
    m.allocations ≤ allocations course :=
  List.single_le_sum (fun _ _ => Nat.zero_le _) _ (List.mem_map_of_mem mem)

/-- Moves issue at least the handles that those in their middle do. -/
theorem Carries.allocations_le {scope : Scope} {w w₁ : Work} {ms : List Move}
    (h : Carries scope w ms w₁) (next later : List Move) :
    allocations (w₁.trail next) ≤ allocations (w.trail (ms ++ (next ++ later))) := by
  rw [Work.trail_append, h.foldl_perform, Work.trail_append, allocations_append,
    allocations_append]
  omega

namespace Session

/-- An entity is **founded**: its objects are born under new handles, and a channel of its own opens
on them. -/
structure Founds (s s' : Session) (entity : EntityId) (id : ChannelId) (a : Assembly) : Prop where
  /-- The objects are born. -/
  births : s.world.Births s'.world a.handles
  /-- The other objects are the parts of the root. -/
  root : ∃ o, s'.world.objects[a.root]? = some o ∧ o.children = a.parts.map (·.2)
  /-- All objects belong to the entity, and none but the root has parts. -/
  belong : ∀ k ∈ a.handles, ∃ o, s'.world.objects[k]? = some o ∧ o.entity = some entity ∧
    (k ≠ a.root → o.children = [])
  /-- The root is noted. -/
  noted : s'.world.journal.instantiated = s.world.journal.instantiated ++ [(entity, a.root)]
  /-- The entity had no channel. -/
  unbuilt : s.channels.get? entity = none
  /-- The channel is named after the entity. -/
  named : id.entity = entity
  /-- The entity has the channel now, and the others have theirs. -/
  get : ∀ e, s'.channels.get? e =
    if entity = e then some (Channel.ofAssembly id a) else s.channels.get? e
  /-- The objects are entered by their references. -/
  directory : s'.directory =
    (Channel.ofAssembly id a).members.foldl (fun d (r, k) => d.register r k) s.directory
  /-- Whoever waits goes on waiting. -/
  waitlist : s'.waitlist = s.waitlist

namespace Founds

variable {s s' : Session} {entity : EntityId} {id : ChannelId} {a : Assembly}

/-- The channel is open. -/
theorem here (h : s.Founds s' entity id a) :
    s'.channels.get? entity = some (Channel.ofAssembly id a) :=
  (h.get entity).trans (if_pos rfl)

/-- The other channels stay open. -/
theorem there (h : s.Founds s' entity id a) {e : EntityId} {c : Channel}
    (before : s.channels.get? e = some c) : s'.channels.get? e = some c := by
  rw [h.get, if_neg]
  · exact before
  · rintro rfl
    rw [h.unbuilt] at before
    cases before

/-- An open channel is the new one or one of the others. -/
theorem new_or_before (h : s.Founds s' entity id a) {e : EntityId} {c : Channel}
    (opened : s'.channels.get? e = some c) :
    entity = e ∧ Channel.ofAssembly id a = c ∨ entity ≠ e ∧ s.channels.get? e = some c := by
  rw [h.get] at opened
  split at opened
  · exact .inl ⟨‹_›, Option.some.inj opened⟩
  · exact .inr ⟨‹_›, opened⟩

end Founds

/-- **Where a channel opens, an entity is founded**, if there are handles left for its objects. -/
theorem founds_of_found {s s' : Session} {draft : Draft} {channel : Channel}
    (sound : s.world.pool.Sound) (step : s.found draft = (some channel, s'))
    (few : s.world.pool.issued + (⟨s, .found draft⟩ : Moment).allocations ≤ 2 ^ 32) :
    ∃ id a, Channel.ofAssembly id a = channel ∧
      (⟨s, .found draft⟩ : Moment).allocations = a.handles.length ∧
        s.Founds s' draft.entity id a := by
  obtain ⟨spawn, a, world, channels, spawned, built, opened, rfl⟩ := found_eq_some.mp step
  have counted : (⟨s, .found draft⟩ : Moment).allocations = a.handles.length := by
    simp only [Moment.allocations, spawned, built]
  rw [counted] at few
  obtain ⟨births, root, noted⟩ := World.births_instantiate sound built few
  obtain ⟨unbuilt, id, named, rfl⟩ := Channels.open?_eq_some opened
  exact ⟨id, a, rfl, counted, births, root, World.belong_instantiate sound built few, noted,
    unbuilt, named, Channels.get?_of_open? opened, rfl, rfl⟩

/-- Where an unbuilt entity cannot be built, nothing is issued and nothing changes. -/
theorem found_of_none {s s' : Session} {draft : Draft}
    (unbuilt : s.channels.get? draft.entity = none) (step : s.found draft = (none, s')) :
    s' = s ∧ (⟨s, .found draft⟩ : Moment).allocations = 0 := by
  rcases found_eq_none step with rfl | ⟨built, -⟩
  · refine ⟨rfl, ?_⟩
    simp only [Moment.allocations]
    unfold found at step
    cases spawned : draft.spawn with
    | none => rfl
    | some spawn =>
      simp only [spawned] at step ⊢
      cases made : s'.world.instantiate draft.entity spawn with
      | error error => rfl
      | ok result =>
        -- The channel opens, so the entity is built.
        simp [made, Channels.open?, Channels.contains_eq, unbuilt] at step
  · exact absurd unbuilt built

/-- A change of authority leaves the world steady. -/
theorem steady_changeAuthority (s : Session) (change : AuthorityChange) :
    s.world.Steady (s.changeAuthority change).world := by
  unfold changeAuthority
  split
  · exact ⟨rfl, rfl, rfl, rfl, fun _ => rfl, fun _ => rfl⟩
  · exact .refl _

end Session

/-! ## Channels that close -/

namespace Channels

variable {cs : Channels} {entity e : EntityId} {c : Channel}

/-- A channel that is open after another was closed belongs to another entity. -/
theorem get?_of_close (opened : (cs.close entity).get? e = some c) :
    entity ≠ e ∧ cs.get? e = some c := by
  rw [get?_close] at opened
  split at opened
  · cases opened
  · exact ⟨‹_›, opened⟩

/-- A channel stays open if another is closed. -/
theorem get?_close_of_root_ne {channel : Channel} (closed : cs.get? entity = some channel)
    (opened : cs.get? e = some c) (other : c.root ≠ channel.root) :
    (cs.close entity).get? e = some c := by
  rw [get?_close, if_neg]
  · exact opened
  · rintro rfl
    cases closed.symm.trans opened
    exact other rfl

end Channels

namespace Session

/-! ## Issued objects -/

/-- The objects of all channels are **issued** by a sound pool. -/
structure Issued (s : Session) : Prop where
  /-- The pool is sound. -/
  sound : s.world.pool.Sound
  /-- The objects of a channel were issued. -/
  members : ∀ {e : EntityId} {c : Channel}, s.channels.get? e = some c →
    ∀ {offset : Offset} {h : Handle}, c.objectAt? offset = some h → s.world.pool.Knows h

namespace Issued

variable {s s' : Session}

/-- Objects stay issued while the pool forgets none and channels get no other objects. -/
theorem grow (h : s.Issued) (sound : s'.world.pool.Sound)
    (knows : ∀ k, s.world.pool.Knows k → s'.world.pool.Knows k)
    (channels : ∀ {e : EntityId} {c' : Channel}, s'.channels.get? e = some c' →
      ∃ c, s.channels.get? e = some c ∧ c.objectAt? = c'.objectAt?) : s'.Issued where
  sound
  members {e c'} opened offset k found := by
    obtain ⟨c, here, same⟩ := channels opened
    exact knows k (h.members here (by rw [same]; exact found))

/-- Only the pool and the channels decide what is issued. -/
theorem congr (h : s.Issued) (pool : s'.world.pool = s.world.pool)
    (channels : s'.channels = s.channels) : s'.Issued :=
  h.grow (by rw [pool]; exact h.sound) (fun k known => by rw [pool]; exact known)
    fun opened => ⟨_, by rw [← channels]; exact opened, rfl⟩

/-- An entity that is built gets objects that are issued. -/
theorem found (h : s.Issued) {draft : Draft} {channel : Channel}
    (step : s.found draft = (some channel, s'))
    (few : s.world.pool.issued + (⟨s, .found draft⟩ : Moment).allocations ≤ 2 ^ 32) :
    s'.Issued ∧ s'.world.pool.issued =
      s.world.pool.issued + (⟨s, .found draft⟩ : Moment).allocations := by
  obtain ⟨id, a, rfl, counted, founds⟩ := founds_of_found h.sound step few
  refine ⟨⟨founds.births.sound, ?_⟩, counted ▸ founds.births.issued⟩
  intro e c opened offset k found
  rcases founds.new_or_before opened with ⟨-, rfl⟩ | ⟨-, before⟩
  · exact founds.births.known_of_mem (Channel.mem_of_objectAt?_ofAssembly found)
  · exact founds.births.known (h.members before found)

/-- An entity that is taken down leaves the others theirs. -/
theorem remove (h : s.Issued) (few : s.world.pool.issued < 2 ^ 32) (entity : EntityId) :
    (s.remove entity).Issued ∧ (s.remove entity).world.pool.issued = s.world.pool.issued := by
  rcases s.remove_cases entity with ⟨-, same⟩ | ⟨-, same⟩ | ⟨channel, -, same⟩
  · rw [same]
    exact ⟨h.congr rfl rfl, rfl⟩
  · rw [same]
    exact ⟨h, rfl⟩
  · rw [same]
    obtain ⟨sound, issued, knows⟩ := World.pool_destroy h.sound few channel.root
    exact ⟨h.grow sound (fun k => (knows k).mpr) fun {e c'} opened =>
      ⟨c', (Channels.get?_of_close opened).2, rfl⟩, issued⟩

/-- A change of authority leaves every channel its objects. -/
theorem changeAuthority (h : s.Issued) {scope : Scope} (tidy : s.Tidy scope)
    (change : AuthorityChange) : (s.changeAuthority change).Issued := by
  have pool := (steady_changeAuthority s change).pool
  refine h.grow (by rw [pool]; exact h.sound) (fun k known => by rw [pool]; exact known) ?_
  intro e c' opened
  obtain ⟨f, same, get⟩ := get?_changeAuthority tidy change e
  rw [get] at opened
  obtain ⟨c, here, rfl⟩ := Option.map_eq_some_iff.mp opened
  exact ⟨c, here, (same c).2.symm⟩

end Issued

/-- The session that has received nothing has issued nothing. -/
theorem Issued.start (settings : Settings) (protocol : Protocol) :
    (start settings protocol).Issued where
  sound := HandlePool.sound_empty
  members {e c} opened := by
    simp [Session.start, Channels.get?, Channels.empty] at opened

end Session

open Session in
/-- The move that builds an entity opens a channel, or issues nothing and changes nothing. -/
theorem Move.Apt.found_cases {scope : Scope} {w : Work} {draft : Draft}
    (apt : (Move.found draft).Apt scope w) :
    (∃ channel, w.session.found draft = (some channel, (w.perform (.found draft)).session)) ∨
      (w.perform (.found draft)).session = w.session ∧
        (⟨w.session, .found draft⟩ : Moment).allocations = 0 := by
  simp only [Work.perform]
  split
  · rename_i channel _ step
    exact .inl ⟨channel, step⟩
  · rename_i step
    exact .inr (found_of_none apt.1 step)

open Session in
/-- **Every apt move keeps what is issued** while there are handles left, and issues as many as are
counted. -/
theorem Move.Apt.issued {scope : Scope} {w : Work} {m : Move} (apt : m.Apt scope w)
    (tidy : w.session.Tidy scope) (h : w.session.Issued)
    (few : w.session.world.pool.issued + (⟨w.session, m⟩ : Moment).allocations < 2 ^ 32) :
    (w.perform m).session.Issued ∧ (w.perform m).session.world.pool.issued =
      w.session.world.pool.issued + (⟨w.session, m⟩ : Moment).allocations := by
  have aside {s' : Session} (pool : s'.world.pool = w.session.world.pool)
      (channels : s'.channels = w.session.channels) :
      s'.Issued ∧ s'.world.pool.issued = w.session.world.pool.issued + 0 :=
    ⟨h.congr pool channels, by rw [pool]; rfl⟩
  have of_routine {s' : Session} (r : w.session.Routine s') :
      s'.Issued ∧ s'.world.pool.issued = w.session.world.pool.issued + 0 :=
    aside r.pool r.channels
  cases m with
  | mark opens =>
    obtain ⟨held, same⟩ := w.exists_perform_mark opens
    rw [same]
    exact aside rfl rfl
  | hold _ | draft _ | settle _ _ _ => exact aside rfl rfl
  | alter change =>
    cases change with
    | addClass _ _ | addStartup _ => exact aside rfl rfl
    | placeLocal className =>
      have births := World.births_place h.sound (Nat.lt_of_succ_lt few)
        (o := ⟨none, className, Reference.rootOffset, ∅, true, []⟩) rfl
      exact ⟨h.grow births.sound (fun k known => births.known known)
        fun {e c'} opened => ⟨c', opened, rfl⟩, births.issued⟩
    | destroy object =>
      obtain ⟨sound, issued, knows⟩ := World.pool_destroy h.sound
        (Nat.lt_of_le_of_lt (Nat.le_add_right _ _) few) object
      exact ⟨h.grow sound (fun k => (knows k).mpr) fun {e c'} opened => ⟨c', opened, rfl⟩, issued⟩
  | learn arrival =>
    obtain ⟨held, same⟩ := w.exists_perform_learn arrival
    rw [same]
    exact aside rfl rfl
  | found draft =>
    rcases apt.found_cases with ⟨channel, step⟩ | ⟨same, counted⟩
    · exact h.found step (Nat.le_of_lt few)
    · rw [same, counted]
      exact aside rfl rfl
  | populate channel data => exact of_routine (writes_populate channel _ data).routine
  | complete channel => exact aside (w.session.world.steady_finalize channel.root).pool rfl
  | authorize change =>
    exact ⟨h.changeAuthority tidy change,
      congrArg HandlePool.issued (steady_changeAuthority w.session change).pool⟩
  | write entity data => exact of_routine (writes_write _ entity data).routine
  | deliver call => exact of_routine (routine_deliverCall _ call)
  | replay arrival => exact of_routine (routine_resolveNow _ arrival)
  | remove entity => exact h.remove (Nat.lt_of_le_of_lt (Nat.le_add_right _ _) few) entity

/-- A handle that was issued stays known, and where it is in use after destroying an object it was
in use before. -/
theorem World.known_destroy {w : World} (sound : w.pool.Sound) (few : w.pool.issued < 2 ^ 32)
    (h : Handle) {k : Handle} (known : w.pool.Knows k) : (w.destroy h).pool.Knows k ∧
      ((w.destroy h).isAlive k = true → w.isAlive k = true) := by
  refine ⟨((pool_destroy sound few h).2.2 k).mpr known, fun alive => ?_⟩
  cases found : w.object? h with
  | none =>
    rw [destroy, found] at alive
    exact alive
  | some o => exact (((deaths_destroy sound few found).alive k).mp alive).2

open Session in
/-- **A handle that was issued is not issued again**: it stays known in every apt move, and where it
is in use afterwards it was in use before. -/
theorem Move.Apt.known {scope : Scope} {w : Work} {m : Move} (apt : m.Apt scope w)
    (h : w.session.Issued)
    (few : w.session.world.pool.issued + (⟨w.session, m⟩ : Moment).allocations < 2 ^ 32)
    {k : Handle} (known : w.session.world.pool.Knows k) :
    (w.perform m).session.world.pool.Knows k ∧
      ((w.perform m).session.world.isAlive k = true → w.session.world.isAlive k = true) := by
  have same {w' : World} (pool : w'.pool = w.session.world.pool) :
      w'.pool.Knows k ∧ (w'.isAlive k = true → w.session.world.isAlive k = true) := by
    rw [World.isAlive, pool]
    exact ⟨known, id⟩
  have born {w' : World} {born : List Handle} (births : w.session.world.Births w' born) :
      w'.pool.Knows k ∧ (w'.isAlive k = true → w.session.world.isAlive k = true) :=
    ⟨births.known known, fun alive => ((births.alive k).mp alive).resolve_left
      (births.not_mem known)⟩
  have left := Nat.lt_of_le_of_lt (Nat.le_add_right _ _) few
  -- Handles are issued where objects are placed or built, and taken back where they are destroyed.
  cases m with
  | mark opens =>
    obtain ⟨held, marked⟩ := w.exists_perform_mark opens
    rw [marked]
    exact same rfl
  | learn arrival =>
    obtain ⟨held, learnt⟩ := w.exists_perform_learn arrival
    rw [learnt]
    exact same rfl
  | hold _ | draft _ | settle _ _ _ => exact same rfl
  | alter change =>
    cases change with
    | addClass _ _ | addStartup _ => exact same rfl
    | placeLocal className =>
      exact born (World.births_place h.sound left
        (o := ⟨none, className, Reference.rootOffset, ∅, true, []⟩) rfl)
    | destroy object => exact World.known_destroy h.sound left object known
  | found draft =>
    rcases apt.found_cases with ⟨channel, step⟩ | ⟨idle, -⟩
    · obtain ⟨id, a, -, -, founds⟩ := founds_of_found h.sound step (Nat.le_of_lt few)
      exact born founds.births
    · rw [idle]
      exact same rfl
  | populate channel data => exact same (writes_populate channel _ data).routine.pool
  | complete channel => exact same (w.session.world.steady_finalize channel.root).pool
  | authorize change => exact same (steady_changeAuthority w.session change).pool
  | write entity data => exact same (writes_write _ entity data).routine.pool
  | deliver call => exact same (routine_deliverCall _ call).pool
  | replay arrival => exact same (routine_resolveNow _ arrival).pool
  | remove entity =>
    rw [Work.perform]
    rcases w.session.remove_cases entity with ⟨-, gone⟩ | ⟨-, gone⟩ | ⟨channel, -, gone⟩
    · rw [gone]
      exact same rfl
    · rw [gone]
      exact same rfl
    · rw [gone]
      exact World.known_destroy h.sound left channel.root known

namespace Session

variable {settings : Settings} {protocol : Protocol} {acts : List Act} {s : Session}

/-- **Induction over the course of a run** that issues fewer handles than there are generations: as
many handles as are counted in the end have been enough all along. -/
theorem issued_course_induction {scope : Scope} {I : Session → List Moment → Prop}
    (step : ∀ (w : Work) (past : List Moment) (m : Move), w.session.Tidy scope → m.Apt scope w →
      w.session.Issued →
      w.session.world.pool.issued + (⟨w.session, m⟩ : Moment).allocations < 2 ^ 32 →
      I w.session past → I (w.perform m).session (past ++ [⟨w.session, m⟩]))
    (before : I (start settings protocol) []) (within : ∀ a ∈ acts, a.Within scope)
    (ok : (start settings protocol).run acts = .ok s)
    (few : allocations ((start settings protocol).course acts) < 2 ^ 32) :
    (s.Issued ∧ s.world.pool.issued = allocations ((start settings protocol).course acts)) ∧
      I s ((start settings protocol).course acts) := by
  have invariant := run_induction
    (I := fun w past => allocations past < 2 ^ 32 →
      (w.session.Issued ∧ w.session.world.pool.issued = allocations past) ∧ I w.session past)
    (fun w past m tidy apt kept few => by
      rw [allocations_append] at few
      have counted : allocations [⟨w.session, m⟩] = (⟨w.session, m⟩ : Moment).allocations := by
        simp [allocations]
      obtain ⟨⟨before, issued⟩, held⟩ := kept (by omega)
      rw [allocations_append, counted, ← issued]
      exact ⟨apt.issued tidy before (by omega), step w past m tidy apt before (by omega) held⟩)
    (tidy_start settings protocol) (fun _ => ⟨⟨.start settings protocol, rfl⟩, before⟩) within ok
  exact invariant.1 few

/-- **Induction over the moments of a run** that issues fewer handles than there are generations. -/
theorem issued_moments_induction {scope : Scope} {I : Session → Prop} {Q : Moment → Prop}
    (step : ∀ (w : Work) (m : Move), w.session.Tidy scope → m.Apt scope w → w.session.Issued →
      w.session.world.pool.issued + (⟨w.session, m⟩ : Moment).allocations < 2 ^ 32 →
      Q ⟨w.session, m⟩ → I w.session → I (w.perform m).session)
    (before : I (start settings protocol)) (within : ∀ a ∈ acts, a.Within scope)
    (ok : (start settings protocol).run acts = .ok s)
    (few : allocations ((start settings protocol).course acts) < 2 ^ 32)
    (each : ∀ m ∈ (start settings protocol).course acts, Q m) :
    (s.Issued ∧ s.world.pool.issued = allocations ((start settings protocol).course acts)) ∧
      I s := by
  obtain ⟨issued, held⟩ := issued_course_induction
    (I := fun s past => (∀ m ∈ past, Q m) → I s)
    (fun w past m tidy apt issued few kept each => by
      rw [List.forall_mem_append, List.forall_mem_singleton] at each
      exact step w m tidy apt issued few each.2 (kept each.1))
    (fun _ => before) within ok few
  exact ⟨issued, held each⟩

/-- **Induction over a run** that issues fewer handles than there are generations. -/
theorem issued_induction {scope : Scope} {I : Session → Prop}
    (step : ∀ (w : Work) (m : Move), w.session.Tidy scope → m.Apt scope w → w.session.Issued →
      w.session.world.pool.issued + (⟨w.session, m⟩ : Moment).allocations < 2 ^ 32 →
      I w.session → I (w.perform m).session)
    (before : I (start settings protocol)) (within : ∀ a ∈ acts, a.Within scope)
    (ok : (start settings protocol).run acts = .ok s)
    (few : allocations ((start settings protocol).course acts) < 2 ^ 32) :
    (s.Issued ∧ s.world.pool.issued = allocations ((start settings protocol).course acts)) ∧
      I s :=
  issued_moments_induction (Q := fun _ => True)
    (fun w m tidy apt issued few _ => step w m tidy apt issued few) before within ok few
    fun _ _ => trivial

/-- **After every run** that issues fewer handles than there are generations, the objects of all
channels are issued, and as many handles as are counted. -/
theorem issued_of_run (ok : (start settings protocol).run acts = .ok s)
    (few : allocations ((start settings protocol).course acts) < 2 ^ 32) :
    s.Issued ∧ s.world.pool.issued = allocations ((start settings protocol).course acts) :=
  (issued_induction (I := fun _ => True) (fun _ _ _ _ _ _ _ => trivial) trivial
    (fun a _ => a.within_all) ok few).1

end Session

end Replica
