import Replica.Proofs.Course.Strides
import Replica.Proofs.Gating

/-! # Gated drafts in the course of a run

Between any two moves of a run the drafts agree with the lists of those who wait, and between any
two acts nobody is ready to be built and not built. The objects of an entity are made only when its
container is loaded.

Main definitions:
* `Moment.Gated` — a moment before and after which drafts and lists agree.
* `Passes` — moves whose moments are all gated.
* `Session.gated_of_run` — the moments of every run are gated.
* `Session.drafts_match_lists` — what drafts and lists look like after every run. -/

namespace Replica

/-! ## Gated moments -/

/-- A moment is **gated** if drafts and lists agree before and after it, entities queue up in the
lists, and only those are built whose spawn data lets them wait for nothing. -/
structure Moment.Gated (m : Moment) : Prop where
  /-- Drafts and lists agree before. -/
  before : ∃ next, m.session.drafts.Gated next
  /-- They agree afterwards. -/
  after : ∃ next, m.after.drafts.Gated next
  /-- Entities queue up. -/
  queues : m.session.drafts.streaming.Queues m.after.drafts.streaming
  /-- Who is built is ready. -/
  found : ∀ d, m.move = .found d → d.stage = .ready ∧ d.Staged m.session.drafts.streaming

/-- A move is **plain** if it neither replaces drafts nor builds an entity. -/
def Move.IsPlain : Move → Prop
  | .draft _ | .found _ => False
  | _ => True

open Session in
/-- A plain move keeps drafts gated. -/
theorem Move.IsPlain.gated {w : Work} {m : Move} (plain : m.IsPlain) {next : List EntityId}
    (h : w.session.drafts.Gated next) :
    (w.perform m).session.drafts.Gated next ∧
      w.session.drafts.streaming.Queues (w.perform m).session.drafts.streaming := by
  have aside {s' : Session} (drafts : s'.drafts = w.session.drafts) :
      s'.drafts.Gated next ∧ w.session.drafts.streaming.Queues s'.drafts.streaming := by
    rw [drafts]
    exact ⟨h, .refl _⟩
  cases m with
  | mark opens =>
    obtain ⟨held, same⟩ := w.exists_perform_mark opens
    rw [same]
    exact aside rfl
  | hold _ | settle _ _ _ | alter _ => exact aside rfl
  | draft _ | found _ => exact plain.elim
  | learn arrival =>
    obtain ⟨held, same⟩ := w.exists_perform_learn arrival
    rw [same]
    exact aside rfl
  | populate channel data => exact aside (writes_populate channel _ data).routine.drafts
  | complete channel => exact aside rfl
  | authorize change =>
    simp only [Work.perform, changeAuthority]
    split
    · exact aside rfl
    · refine ⟨h.addAuthority _ _ _, ?_⟩
      rw [Drafts.addAuthority, Drafts.streaming_modify]
      exact .refl _
  | write entity data => exact aside (writes_write _ entity data).routine.drafts
  | deliver call => exact aside (routine_deliverCall _ call).drafts
  | replay arrival => exact aside (routine_resolveNow _ arrival).drafts
  | remove entity =>
    rcases w.session.remove_cases entity with ⟨-, same⟩ | ⟨-, same⟩ | ⟨channel, -, same⟩
    · rw [Work.perform, same]
      exact ⟨h.remove entity, Drafts.queues_remove _ entity⟩
    · exact aside (by rw [Work.perform, same])
    · exact aside (by rw [Work.perform, same])

/-! ## Moves that pass -/

/-- Moves **pass** if they are apt, all their moments are gated, and the drafts are gated in the
end, with `next` to be built. -/
structure Passes (w : Work) (ms : List Move) (next : List EntityId) (w' : Work) : Prop where
  /-- The moves are apt. -/
  carries : Carries .all w ms w'
  /-- Their moments are gated. -/
  moments : ∀ m ∈ w.trail ms, m.Gated
  /-- Drafts and lists agree in the end. -/
  gated : w'.session.drafts.Gated next

namespace Passes

variable {w w₁ w₂ : Work} {ms ms' : List Move} {next next' : List EntityId}

theorem nil (h : w.session.drafts.Gated next) : Passes w [] next w :=
  ⟨.nil w, fun _ mem => absurd mem List.not_mem_nil, h⟩

theorem append (first : Passes w ms next w₁) (later : Passes w₁ ms' next' w₂) :
    Passes w (ms ++ ms') next' w₂ := by
  refine ⟨first.carries.append later.carries, fun m mem => ?_, later.gated⟩
  rw [Work.trail_append, first.carries.foldl_perform] at mem
  exact (List.mem_append.mp mem).elim (first.moments m) (later.moments m)

/-- A single move passes with its moment. -/
theorem single {m : Move} (apt : m.Apt .all w) (before : w.session.drafts.Gated next)
    (after : (w.perform m).session.drafts.Gated next')
    (queues : w.session.drafts.streaming.Queues (w.perform m).session.drafts.streaming)
    (found : ∀ d, m = .found d → d.stage = .ready ∧ d.Staged w.session.drafts.streaming) :
    Passes w [m] next' (w.perform m) := by
  refine ⟨.single apt, fun k mem => ?_, after⟩
  cases List.mem_singleton.mp mem
  rw [Work.session_perform] at after queues
  exact ⟨⟨next, before⟩, ⟨next', after⟩, queues, found⟩

/-- Replacing the drafts passes if the new drafts are gated. -/
theorem draft {ds : Drafts} (fit : (Move.draft ds).Apt .all w)
    (before : w.session.drafts.Gated next) (after : ds.Gated next')
    (queues : w.session.drafts.streaming.Queues ds.streaming) :
    Passes w [.draft ds] next' (w.perform (.draft ds)) :=
  single fit before after queues fun _ same => by cases same

/-- Plain moves pass. -/
theorem plain (carries : Carries .all w ms w₁) (all : ∀ m ∈ ms, m.IsPlain)
    (before : w.session.drafts.Gated next) : Passes w ms next w₁ := by
  induction carries with
  | nil w => exact nil before
  | @cons w w' m ms apt rest ih =>
    have isPlain := all m List.mem_cons_self
    obtain ⟨after, queues⟩ := isPlain.gated before
    have step : Passes w [m] next (w.perform m) :=
      single apt before after queues fun d same => (same ▸ isPlain : (Move.found d).IsPlain).elim
    exact step.append (ih (fun k mem => all k (List.mem_cons_of_mem m mem)) after)

/-- Plain moves of one kind pass. -/
theorem map {α : Type} {move : α → Move} {as : List α} (carries : Carries .all w (as.map move) w₁)
    (all : ∀ a, (move a).IsPlain) (before : w.session.drafts.Gated next) :
    Passes w (as.map move) next w₁ :=
  plain carries (List.forall_mem_map.mpr fun a _ => all a) before

/-- The moves of several steps pass if those of each step do. The steps may work on more than a
session, of which `view` is the session. -/
theorem along {σ α : Type} (view : σ → Session) (step : σ → α → σ) (moves : σ → α → List Move)
    (due : List Arrival) (as : List α)
    (each : ∀ (s : σ) (a : α), (view s).Tidy .all → (view s).drafts.Gated next →
      Passes ⟨view s, due⟩ (moves s a) next ⟨view (step s a), due⟩)
    {s : σ} (tidy : (view s).Tidy .all) (before : (view s).drafts.Gated next) :
    Passes ⟨view s, due⟩ (Session.movesAlong step moves s as) next
      ⟨view (as.foldl step s), due⟩ := by
  induction as generalizing s with
  | nil => exact nil before
  | cons a as ih =>
    have first := each s a tidy before
    exact first.append (ih (first.carries.tidy tidy) first.gated)

end Passes

namespace Session

variable {s : Session} {next : List EntityId} (due : List Arrival)

/-! ## Construction -/

/-- Building an entity whose draft is ready passes. -/
theorem passes_construct {draft : Draft} (unbuilt : s.channels.get? draft.entity = none)
    (undrafted : s.drafts.get? draft.entity = none) (isReady : draft.stage = .ready)
    (staged : draft.Staged s.drafts.streaming) (gated : s.drafts.Gated next) :
    Passes ⟨s, due⟩ (s.constructMoves draft) next ⟨s.construct draft, due⟩ := by
  have carries : Carries .all ⟨s, due⟩ (s.constructMoves draft) ⟨s.construct draft, due⟩ :=
    carries_construct due unbuilt undrafted fun _ _ => trivial
  have drafts : (Work.perform ⟨s, due⟩ (.found draft)).session.drafts = s.drafts := by
    obtain ⟨_, _, _, same⟩ := Work.exists_perform_found ⟨s, due⟩ draft
    rw [same]
  have found : Passes ⟨s, due⟩ [.found draft] next (Work.perform ⟨s, due⟩ (.found draft)) := by
    refine .single ⟨unbuilt, undrafted⟩ gated (drafts ▸ gated) (drafts ▸ .refl _) fun d same => ?_
    cases same
    exact ⟨isReady, staged⟩
  -- Nothing that follows replaces drafts or builds another entity.
  unfold constructMoves at carries ⊢
  cases carries with
  | cons apt rest =>
    refine found.append (.plain rest (fun m mem => ?_) found.gated)
    split at mem
    · cases mem
    · simp only [List.mem_append, List.mem_cons, List.mem_map] at mem
      rcases mem with (⟨_, -, rfl⟩ | rfl | ⟨_, -, rfl⟩) | ⟨_, -, rfl⟩ <;> trivial

/-- The draft that is next is taken out, and its entity built. -/
theorem passes_constructReady (tidy : s.Tidy .all) {entity : EntityId}
    (gated : s.drafts.Gated (entity :: next)) :
    Passes ⟨s, due⟩ (s.constructReadyMoves entity) next ⟨s.constructReady entity, due⟩ := by
  unfold constructReadyMoves constructReady
  cases taken : s.drafts.takeReady entity with
  | none =>
    refine .nil (gated.skip fun isReady => ?_)
    obtain ⟨d, found, isReady⟩ := Drafts.stage?_eq_some.mp isReady
    rw [Drafts.takeReady_eq_some.mpr ⟨found, isReady, rfl⟩] at taken
    cases taken
  | some result =>
    obtain ⟨draft, drafts⟩ := result
    obtain ⟨found, isReady, rest⟩ := Drafts.takeReady_eq_some.mp taken
    obtain ⟨filed, unbuilt, -⟩ := tidy.drafts entity draft found
    have without : drafts = s.drafts.without entity := rest
    subst without
    have idle : ∀ c, s.drafts.stage? entity ≠ some (.waiting c) := by
      simp [Drafts.stage?, found, isReady]
    have undrafted : (s.drafts.without entity).get? draft.entity = none := by
      rw [Drafts.get?_without, if_pos filed.symm]
    have fit : (Move.draft (s.drafts.without entity)).Apt .all ⟨s, due⟩ :=
      tidy.drafts.without entity
    have out : Passes ⟨s, due⟩ [.draft (s.drafts.without entity)] next
        ⟨{ s with drafts := s.drafts.without entity }, due⟩ :=
      .draft fit gated (gated.take idle) (.refl _)
    exact out.append (passes_construct due (s := { s with drafts := s.drafts.without entity })
      (filed.symm ▸ unbuilt) undrafted isReady (gated.staged entity draft found) out.gated)

/-- Taking a draft further passes, and its entity is no longer next. -/
theorem passes_advance (tidy : s.Tidy .all) {entity : EntityId}
    (gated : s.drafts.Gated (entity :: next)) :
    Passes ⟨s, due⟩ (s.advanceMoves entity) next ⟨s.advance entity, due⟩ := by
  have skip (unready : s.drafts.stage? entity ≠ some .ready) : Passes ⟨s, due⟩ [] next ⟨s, due⟩ :=
    .nil (gated.skip unready)
  unfold advanceMoves advance
  cases found : s.drafts.get? entity with
  | none => exact skip (by simp [Drafts.stage?, found])
  | some draft =>
    dsimp only
    cases stage : draft.stage with
    | waiting container => exact skip (by simp [Drafts.stage?, found, stage])
    | ready => exact passes_constructReady due tidy gated
    | collecting =>
      have gated : s.drafts.Gated next := gated.skip (by simp [Drafts.stage?, found, stage])
      obtain ⟨filed, -, -⟩ := tidy.drafts entity draft found
      dsimp only
      cases read : World.readSpawn entity draft.components with
      | ok spawn =>
        have fit : (Move.draft (s.drafts.setSpawn entity spawn)).Apt .all ⟨s, due⟩ :=
          tidy.drafts.setSpawn entity spawn
        have set : Passes ⟨s, due⟩ [.draft (s.drafts.setSpawn entity spawn)] (entity :: next)
            ⟨{ s with drafts := s.drafts.setSpawn entity spawn }, due⟩ :=
          .draft fit gated (gated.setSpawn found stage (filed.symm ▸ read))
            (Drafts.queues_setSpawn _ entity spawn)
        exact set.append (passes_constructReady due (fit.tidy tidy) set.gated)
      | error error =>
        have fit : (Move.draft (s.drafts.remove entity)).Apt .all ⟨s, due⟩ :=
          tidy.drafts.remove entity
        have dropped : Passes ⟨s, due⟩ [.draft (s.drafts.remove entity)] next
            ⟨{ s with drafts := s.drafts.remove entity }, due⟩ :=
          .draft fit gated (gated.remove entity) (Drafts.queues_remove _ entity)
        cases error with
        | spawnDataMissing _ => exact .nil gated
        | _ => exact dropped

/-- Several drafts are taken further, and nobody is next in the end. -/
theorem passes_advances (tidy : s.Tidy .all) {touched : List EntityId}
    (gated : s.drafts.Gated touched) :
    Passes ⟨s, due⟩ (movesAlong advance advanceMoves s touched) []
      ⟨touched.foldl advance s, due⟩ := by
  induction touched generalizing s with
  | nil => exact .nil gated
  | cons entity touched ih =>
    have first := passes_advance due tidy gated
    exact first.append (ih (first.carries.tidy tidy) first.gated)

/-- So are drafts that have been touched, where nobody is ready before. -/
theorem passes_touched (tidy : s.Tidy .all) (gated : s.drafts.Gated []) (touched : List EntityId) :
    Passes ⟨s, due⟩ (movesAlong advance advanceMoves s touched) [] ⟨touched.foldl advance s, due⟩ :=
  passes_advances due tidy (gated.mono fun _ none => absurd none List.not_mem_nil)

/-! ## Bursts -/

theorem passes_begin (state : Session × List EntityId) (tidy : state.1.Tidy .all)
    (gated : state.1.drafts.Gated next) (entity : EntityId) :
    Passes ⟨state.1, due⟩ (beginMoves state entity) next ⟨(begin state entity).1, due⟩ := by
  have carries := carries_begin due state tidy entity
  obtain ⟨s, touched⟩ := state
  unfold beginMoves begin at carries ⊢
  dsimp only at carries ⊢
  split
  · exact .nil gated
  · rename_i unbuilt
    rw [if_neg unbuilt, if_neg unbuilt] at carries
    cases carries with
    | cons fit _ =>
      refine .draft fit gated (gated.begin entity) ?_
      rw [Drafts.streaming_begin]
      exact .refl _

/-- A component that is collected passes. -/
theorem passes_collect (tidy : s.Tidy .all) (gated : s.drafts.Gated next) (entity : EntityId)
    (data : ComponentData) :
    Passes ⟨s, due⟩ [.draft (s.drafts.addComponent entity data)] next
      ⟨{ s with drafts := s.drafts.addComponent entity data }, due⟩ := by
  have fit : (Move.draft (s.drafts.addComponent entity data)).Apt .all ⟨s, due⟩ :=
    tidy.drafts.addComponent entity (show Scope.all.data data from trivial)
  refine .draft fit gated (gated.addComponent entity data) ?_
  rw [Drafts.addComponent, Drafts.streaming_modify]
  exact .refl _

/-- A component payload for a built entity is dealt with by plain moves. -/
theorem isPlain_applyMoves (s : Session) (entity : EntityId) (data : ComponentData) :
    ∀ m ∈ s.applyMoves entity data, m.IsPlain := by
  intro m mem
  rcases mem_applyMoves mem with rfl | ⟨_, rfl⟩ <;> trivial

/-- So is a command request. -/
theorem isPlain_commandMoves (s : Session) (entity : EntityId) (request : CommandRequest) :
    ∀ m ∈ s.commandMoves entity request, m.IsPlain := by
  intro m mem
  obtain ⟨_, rfl⟩ := mem_commandMoves mem
  trivial

theorem passes_route (state : Session × List EntityId) (tidy : state.1.Tidy .all)
    (gated : state.1.drafts.Gated next) (added : AddedComponent) :
    Passes ⟨state.1, due⟩ (routeMoves state added) next ⟨(route state added).1, due⟩ := by
  obtain ⟨s, touched⟩ := state
  unfold routeMoves route
  dsimp only
  split
  · exact passes_collect due tidy gated added.entity added.data
  · exact .plain (carries_applyMoves _ added.entity (show Scope.all.data added.data from trivial))
      (isPlain_applyMoves s added.entity added.data) gated

/-- Carrying a burst out passes. -/
theorem passes_drain (tidy : s.Tidy .all) (gated : s.drafts.Gated []) (burst : Burst) :
    Passes ⟨s, burst.arrivals ++ due⟩ (s.drainMoves burst) [] ⟨s.drain burst, due⟩ := by
  -- Each phase starts from the session that the one before has led to.
  have cleared : Carries .all ⟨s, burst.arrivals ++ due⟩ (burst.removed.map .remove)
      ⟨burst.removed.foldl remove s, burst.arrivals ++ due⟩ :=
    carries_removals _ tidy fun _ _ => trivial
  have removed := Passes.map cleared (fun _ => trivial) gated
  have tidy := removed.carries.tidy tidy
  have begun := Passes.along Prod.fst begin beginMoves (burst.arrivals ++ due) burst.added
    (s := (burst.removed.foldl remove s, [])) (fun state entity tidy gated =>
      passes_begin _ state tidy gated entity) tidy removed.gated
  have tidy := begun.carries.tidy tidy
  have routed := Passes.along Prod.fst route routeMoves (burst.arrivals ++ due) burst.components
    (fun state added tidy gated => passes_route _ state tidy gated added) tidy begun.gated
  have tidy := routed.carries.tidy tidy
  have advanced := passes_touched (burst.arrivals ++ due) tidy routed.gated
    (burst.components.foldl route (burst.added.foldl begin (burst.removed.foldl remove s, []))).2
  have authorized := Passes.map (carries_authorities _ burst.authority) (fun _ => trivial)
    advanced.gated
  have replayed := Passes.map (Carries.replays .all burst.arrivals _ due) (fun _ => trivial)
    authorized.gated
  exact removed.append (begun.append (routed.append (advanced.append (authorized.append replayed))))

/-! ## Operations and acts -/

theorem passes_update (tidy : s.Tidy .all) (gated : s.drafts.Gated next) (entity : EntityId)
    (update : ComponentData) :
    Passes ⟨s, due⟩ (s.updateMoves entity update) next ⟨s.update entity update, due⟩ := by
  unfold updateMoves Session.update tryUpdate
  split
  · cases s.binding update.component with
    | error error => exact .nil gated
    | ok b =>
      simp only [bind, Except.bind]
      split
      · exact passes_collect due tidy gated entity update
      · exact .nil gated
  · exact .plain (carries_applyMoves _ entity (show Scope.all.data update from trivial))
      (isPlain_applyMoves s entity update) gated

/-- The end of a section passes, whether or not it yields a burst. -/
theorem passes_leave (tidy : s.Tidy .all) (gated : s.drafts.Gated []) :
    Passes s.idle (s.processMoves (.criticalSection false)) [] (s.markSection false).idle := by
  have left : Passes s.idle [.mark false] [] (s.idle.perform (.mark false)) :=
    .plain (.single trivial) (by simp [Move.IsPlain]) gated
  have kept := tidy.leave
  cases yields : s.held.leave with
  | mk burst held =>
    rw [yields] at kept
    have marked : s.markSection false = match burst with
        | some burst => { s with held }.drain burst
        | none => { s with held } := by
      simp only [markSection, Bool.false_eq_true, if_false, yields]
      cases burst <;> rfl
    rw [marked]
    simp only [processMoves, yields]
    cases burst with
    | some burst =>
      have performed : s.idle.perform (.mark false) = ⟨{ s with held }, burst.arrivals ++ []⟩ := by
        simp only [idle, Work.perform, yields]
      exact left.append (performed ▸ passes_drain [] kept gated burst)
    | none =>
      have performed : s.idle.perform (.mark false) = ({ s with held } : Session).idle := by
        simp only [idle, Work.perform, yields]
      exact performed ▸ left

/-- The moves of an operation pass. -/
theorem passes_process (tidy : s.Tidy .all) (gated : s.drafts.Gated []) {operation : Operation}
    {s' : Session} (ok : s.process operation = .ok s') :
    Passes s.idle (s.processMoves operation) [] s'.idle := by
  have carries := carries_process tidy operation.within_all ok
  have held {operation : Operation} {now : List Move} {s' : Session}
      (passed : Passes s.idle now [] s'.idle) :
      Passes s.idle (s.heldMoves operation now) []
        (if s.held.isOpen then { s with held := s.held.hold (·.keep operation) } else s').idle := by
    unfold heldMoves
    split
    · rename_i isOpen
      exact .plain (.single ⟨isOpen, operation.within_all⟩) (by simp [Move.IsPlain]) gated
    · exact passed
  cases operation with
  | criticalSection opens =>
    cases ok
    cases opens with
    | true => exact .plain carries (by simp [processMoves, Move.IsPlain]) gated
    | false => exact passes_leave tidy gated
  | addEntity entity =>
    cases ok
    exact held (passes_drain [] tidy gated { added := [entity] })
  | removeEntity entity =>
    cases ok
    exact held (.plain (.single trivial) (by simp [Move.IsPlain]) gated)
  | addComponent entity data =>
    cases ok
    have routed := passes_route [] (s, []) tidy gated ⟨entity, data⟩
    exact held (routed.append (passes_touched [] (routed.carries.tidy tidy) routed.gated _))
  | authorityChange entity component authority =>
    cases ok
    exact held (.plain (.single trivial) (by simp [Move.IsPlain]) gated)
  | componentUpdate entity update =>
    cases ok
    exact passes_update [] tidy gated entity update
  | commandRequest request entity command =>
    refine .plain carries (fun m mem => ?_) gated
    rcases List.mem_append.mp mem with mem | mem
    · exact isPlain_commandMoves s entity command m mem
    · cases List.mem_singleton.mp mem
      trivial
  | commandResponse request result =>
    simp only [process] at ok
    simp only [processMoves, ok] at carries ⊢
    exact .plain carries (by simp [Move.IsPlain]) gated
  | reserveResponse _ _ | createResponse _ _ | queryResponse _ _ =>
    exact .plain carries (by simp [processMoves, Move.IsPlain]) gated

/-- The moves of an act pass, and nobody is next after it. -/
theorem passes_act (tidy : s.Tidy .all) (gated : s.drafts.Gated []) {a : Act} {s' : Session}
    (ok : s.act a = .ok s') : Passes s.idle (s.moves a) [] s'.idle := by
  have carries := carries_act tidy a.within_all ok
  cases a with
  | receive operation => exact passes_process tidy gated ok
  | tryUpdate entity update =>
    cases ok
    exact passes_update [] tidy gated entity update
  | tryCommand entity request =>
    exact .plain carries (isPlain_commandMoves s entity request) gated
  | load container =>
    cases ok
    have fit : (Move.draft (s.drafts.load container).2).Apt .all s.idle :=
      tidy.drafts.load container
    have loaded : Passes s.idle [.draft (s.drafts.load container).2] (s.drafts.load container).1
        ({ s with drafts := (s.drafts.load container).2 } : Session).idle := by
      refine .draft fit gated (gated.load_fst container ▸ gated.load container) ?_
      rw [Drafts.streaming_load]
      exact .load _ container
    exact loaded.append (passes_advances [] (fit.tidy tidy) loaded.gated)
  | unload container =>
    cases ok
    refine .draft ?_ gated (gated.unload container) (.refl _)
    exact fun entity draft found => tidy.drafts entity draft found
  | announce arrival =>
    refine .plain carries (fun m mem => ?_) gated
    simp only [moves, List.mem_cons] at mem
    rcases mem with rfl | mem
    · trivial
    · split at mem
      · cases mem
      · cases List.mem_singleton.mp mem
        trivial
  | register _ | takeEvents | alter _ =>
    exact .plain carries (by simp [moves, Move.IsPlain]) gated

/-! ## Runs -/

/-- The moments of a run from gated drafts are gated, and so are the drafts in the end. -/
theorem passes_run (tidy : s.Tidy .all) (gated : s.drafts.Gated []) {acts : List Act} {s' : Session}
    (ok : s.run acts = .ok s') : (∀ m ∈ s.course acts, m.Gated) ∧ s'.drafts.Gated [] := by
  induction acts generalizing s with
  | nil =>
    cases ok
    exact ⟨fun _ mem => absurd mem List.not_mem_nil, gated⟩
  | cons a acts ih =>
    obtain ⟨s₁, first, rest⟩ := run_cons.mp ok
    have passed := passes_act tidy gated first
    obtain ⟨moments, last⟩ := ih (passed.carries.tidy tidy) passed.gated rest
    refine ⟨fun m mem => ?_, last⟩
    simp only [course, first] at mem
    exact (List.mem_append.mp mem).elim (passed.moments m) (moments m)

variable {settings : Settings} {protocol : Protocol} {acts : List Act}

/-- **The moments of every run** are gated, and nobody is left to be built in the end. -/
theorem gated_of_run (ok : (start settings protocol).run acts = .ok s) :
    (∀ m ∈ (start settings protocol).course acts, m.Gated) ∧ s.drafts.Gated [] :=
  passes_run (tidy_start settings protocol) .empty ok

/-- **Drafts and lists agree.** After every run an entity is listed as waiting for a container
exactly if it has a draft that says so. Nobody is listed twice or for two containers, no empty list
is kept, and nobody waits for a container that is loaded. No draft is ready, and those that wait are
exactly those with spawn data, which names the container. -/
theorem drafts_match_lists (ok : (start settings protocol).run acts = .ok s) :
    (∀ c e, e ∈ s.drafts.streaming.waitingOn c ↔ s.drafts.stage? e = some (.waiting c)) ∧
      (∀ c : Container, (s.drafts.streaming.waitingOn c).Nodup ∧
        s.drafts.streaming.waiting[c]? ≠ some []) ∧
      (∀ c c' e, e ∈ s.drafts.streaming.waitingOn c → e ∈ s.drafts.streaming.waitingOn c' →
        c = c') ∧
      (∀ c, s.drafts.streaming.waitingOn c ≠ [] → s.drafts.streaming.isLoaded c = false) ∧
      (∀ e, s.drafts.stage? e ≠ some .ready) ∧
      ∀ e d, s.drafts.get? e = some d → (d.spawn ≠ none ↔ ∃ c, d.stage = .waiting c) ∧
        ∀ c, d.stage = .waiting c → ∃ spawn, d.spawn = some spawn ∧ spawn.container = some c := by
  have gated := (gated_of_run ok).2
  refine ⟨gated.waiting, fun c => ⟨gated.sound.nodup c, gated.sound.occupied c⟩,
    fun c c' e here there => ?_, fun c waited => ?_, fun e isReady => ?_, fun e d found => ?_⟩
  · rw [gated.waiting] at here there
    simpa using here.symm.trans there
  · rw [← Bool.not_eq_true]
    exact fun loaded => waited (gated.sound.unloaded c loaded)
  · exact absurd (gated.ready e isReady) List.not_mem_nil
  · have staged := gated.staged e d found
    have unready := gated.unready found
    unfold Draft.Staged at staged
    cases stage : d.stage with
    | collecting =>
      rw [stage] at staged
      simp [staged]
    | ready => exact absurd stage unready
    | waiting c =>
      rw [stage] at staged
      obtain ⟨spawn, read, asked⟩ := staged
      refine ⟨⟨fun _ => ⟨c, rfl⟩, fun _ => by simp [read.entered]⟩, fun k same => ?_⟩
      cases same
      exact ⟨spawn, read.entered, asked⟩

/-- A crate appears in a container. -/
def crateIn (c : Container) (entity : EntityId) : List Act :=
  ((Blueprint.ofClass entity "Crate").inContainer c).operations.map .receive

/-- A container for crates. -/
def yard : Container := ⟨"Yard"⟩

/-- Another one. -/
def hall : Container := ⟨"Hall"⟩

/-- Two crates wait for one container and one for another. The first of them is removed and waits
again behind the second; the other container comes and goes, and the next crate waits for it. -/
def waitingCrates : List Act :=
  crateIn yard 1 ++ crateIn yard 2 ++ crateIn hall 3 ++ [.receive (.removeEntity 1)] ++
    crateIn yard 1 ++ [.load hall, .unload hall] ++ crateIn hall 4

theorem drafts_match_lists_waitingCrates :
    ∃ s, (start {} Stock.protocol).run waitingCrates = .ok s ∧
      s.drafts.streaming.waitingOn yard = [2, 1] ∧ s.drafts.streaming.waitingOn hall = [4] ∧
      s.drafts.stage? 1 = some (.waiting yard) ∧ s.drafts.stage? 3 ≠ some (.waiting hall) ∧
      s.drafts.streaming.isLoaded yard = false ∧ s.drafts.streaming.isLoaded hall = false := by
  obtain ⟨s, ok, test⟩ := exists_run (start {} Stock.protocol) waitingCrates
    (fun s => s.drafts.streaming.waitingOn yard == [2, 1] &&
      s.drafts.streaming.waitingOn hall == [4])
    (by decide +kernel)
  simp only [Bool.and_eq_true, beq_iff_eq] at test
  obtain ⟨inYard, inHall⟩ := test
  obtain ⟨waiting, -, -, shut, -, -⟩ := drafts_match_lists ok
  refine ⟨s, ok, inYard, inHall, (waiting yard 1).mp (by simp [inYard]), fun listed => ?_,
    shut yard (by simp [inYard]), shut hall (by simp [inHall])⟩
  simpa [inHall] using (waiting hall 3).mpr listed

end Session

end Replica
