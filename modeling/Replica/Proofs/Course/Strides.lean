import Replica.Proofs.Course.Carries

/-! # Strides

Of the moves of an act, those that build an entity come one right after the other. So an act goes in
**strides**: each is a move by itself, or all the moves that build one entity. What holds whenever
no entity is being built can be carried along the strides of an act. Acts that settle requests or
reports do so in one last move.

Main definitions:
* `Move.IsAlone` — a move that can be made by itself.
* `Strides` — moves taken in strides.
* `Act.settles` — an act that settles requests or reports.
* `Move.IsSilent` — a move that touches neither requests nor reports.
* `Session.strides_act` — the moves of any other act are taken in strides.
* `Unbroken` — an entity that begins to be built is built to the end. -/

namespace Replica

/-! ## Moves taken in strides -/

/-- Whether a move can be made **alone**: it is no part of building an entity, and settles
nothing. -/
def Move.IsAlone : Move → Prop
  | .found _ | .populate _ _ | .complete _ | .settle _ _ _ => False
  | _ => True

/-- Whether an act **settles** requests or reports. -/
def Act.settles : Act → Bool
  | .receive (.commandRequest _ _ _) | .receive (.commandResponse _ _)
  | .receive (.reserveResponse _ _) | .receive (.createResponse _ _)
  | .receive (.queryResponse _ _) | .register _ | .takeEvents => true
  | _ => false

/-- Whether a move is **silent**: it touches neither requests nor reports nor deliveries. -/
def Move.IsSilent : Move → Prop
  | .settle _ _ _ | .complete _ | .authorize _ | .replay _ | .remove _ => False
  | _ => True

/-- Moves taken in **strides** lead from one state of work to another. -/
inductive Strides : Work → List Move → Work → Prop where
  /-- No move leads nowhere else. -/
  | nil (w : Work) : Strides w [] w
  /-- A move by itself, and those after it. -/
  | move {w w' : Work} {m : Move} {ms : List Move} (apt : m.Apt .all w) (alone : m.IsAlone)
    (rest : Strides (w.perform m) ms w') : Strides w (m :: ms) w'
  /-- The moves that build an entity, and those after them. -/
  | build {s : Session} {due : List Arrival} {draft : Draft} {ms : List Move} {w' : Work}
    (unbuilt : s.channels.get? draft.entity = none) (undrafted : s.drafts.get? draft.entity = none)
    (rest : Strides ⟨s.construct draft, due⟩ ms w') :
    Strides ⟨s, due⟩ (s.constructMoves draft ++ ms) w'

namespace Strides

variable {w w₁ w₂ : Work} {ms ms' : List Move}

/-- Strides go on where others have led. -/
theorem append (h : Strides w ms w₁) (later : Strides w₁ ms' w₂) : Strides w (ms ++ ms') w₂ := by
  induction h with
  | nil w => exact later
  | move apt alone _ ih => exact .move apt alone (ih later)
  | build unbuilt undrafted _ ih =>
    rw [List.append_assoc]
    exact .build unbuilt undrafted (ih later)

/-- A move that can be made alone is one stride. -/
theorem single {m : Move} (apt : m.Apt .all w) (alone : m.IsAlone) :
    Strides w [m] (w.perform m) :=
  .move apt alone (.nil _)

/-- They lead where the moves lead. -/
theorem carries (h : Strides w ms w₁) : Carries .all w ms w₁ := by
  induction h with
  | nil w => exact .nil w
  | move apt _ _ ih => exact .cons apt ih
  | build unbuilt undrafted _ ih =>
    exact (Session.carries_construct _ unbuilt undrafted fun _ _ => trivial).append ih

/-- Strides keep a session tidy. -/
theorem tidy (h : Strides w ms w₁) (tidy : w.session.Tidy .all) : w₁.session.Tidy .all :=
  h.carries.tidy tidy

/-- Apt moves are taken in strides if none of them builds an entity or settles anything. -/
theorem of_carries (carries : Carries .all w ms w₁) (all : ∀ m ∈ ms, m.IsAlone) :
    Strides w ms w₁ := by
  induction carries with
  | nil w => exact .nil w
  | cons apt _ ih =>
    exact .move apt (all _ List.mem_cons_self) (ih fun m mem => all m (List.mem_cons_of_mem _ mem))

/-- Nothing is settled in strides. -/
theorem settle_notMem (h : Strides w ms w₁) (requests : Requests) (events : List Event)
    (deliveries : List Delivery) : .settle requests events deliveries ∉ ms := by
  induction h with
  | nil w => exact List.not_mem_nil
  | move apt alone _ ih =>
    intro mem
    rcases List.mem_cons.mp mem with rfl | later
    · exact alone
    · exact ih later
  | @build s due draft ms w' _ _ _ ih =>
    intro mem
    rcases List.mem_append.mp mem with early | later
    · unfold Session.constructMoves at early
      split at early <;> simp at early
    · exact ih later

/-- The moves of several steps are taken in strides if those of each step are. The steps may work on
more than a session, of which `view` is the session. -/
theorem along {σ α : Type} (view : σ → Session) (step : σ → α → σ) (moves : σ → α → List Move)
    (due : List Arrival) (as : List α)
    (each : ∀ (s : σ) (a : α), (view s).Tidy .all →
      Strides ⟨view s, due⟩ (moves s a) ⟨view (step s a), due⟩)
    {s : σ} (tidy : (view s).Tidy .all) :
    Strides ⟨view s, due⟩ (Session.movesAlong step moves s as)
      ⟨view (as.foldl step s), due⟩ := by
  induction as generalizing s with
  | nil => exact .nil _
  | cons a as ih =>
    have first := each s a tidy
    exact first.append (ih (first.tidy tidy))

end Strides

namespace Session

/-! ## Silent moves -/

/-- A session keeps its **mail** if requests, reports and deliveries stay as they are. -/
structure KeepsMail (s s' : Session) : Prop where
  /-- The requests are the same. -/
  requests : s'.requests = s.requests
  /-- The reports are the same. -/
  events : s'.events = s.events
  /-- The deliveries are the same. -/
  deliveries : s'.deliveries = s.deliveries

/-- Writing a payload keeps the mail. -/
theorem Writes.keepsMail {s s' : Session} (h : s.Writes s') : s.KeepsMail s' := by
  cases h <;> exact ⟨rfl, rfl, rfl⟩

/-- Delivering a call keeps the mail. -/
theorem keepsMail_deliverCall (s : Session) (call : Delivered) :
    s.KeepsMail (s.deliverCall call) := by
  unfold deliverCall dispatch
  split
  · obtain ⟨world, same⟩ := execute_eq s call.target call.invocation
    dsimp only
    rw [same]
    exact ⟨rfl, rfl, rfl⟩
  · exact ⟨rfl, rfl, rfl⟩

/-- A silent move keeps the mail. -/
theorem keepsMail_perform (w : Work) {m : Move} (silent : m.IsSilent) :
    w.session.KeepsMail (w.perform m).session := by
  cases m with
  | mark opens =>
    obtain ⟨held, same⟩ := w.exists_perform_mark opens
    rw [same]
    exact ⟨rfl, rfl, rfl⟩
  | hold _ | draft _ | alter _ => exact ⟨rfl, rfl, rfl⟩
  | learn arrival =>
    obtain ⟨held, same⟩ := w.exists_perform_learn arrival
    rw [same]
    exact ⟨rfl, rfl, rfl⟩
  | found draft =>
    obtain ⟨_, _, _, same⟩ := w.exists_perform_found draft
    rw [same]
    exact ⟨rfl, rfl, rfl⟩
  | populate channel data => exact (writes_populate channel w.session data).keepsMail
  | write entity data => exact (writes_write w.session entity data).keepsMail
  | deliver call => exact keepsMail_deliverCall w.session call
  | settle _ _ _ | complete _ | authorize _ | replay _ | remove _ => exact silent.elim

variable {s : Session} (due : List Arrival)

/-! ## Construction -/

/-- A draft that is ready is built in strides. -/
theorem strides_constructReady (tidy : s.Tidy .all) (entity : EntityId) :
    Strides ⟨s, due⟩ (s.constructReadyMoves entity) ⟨s.constructReady entity, due⟩ := by
  unfold constructReadyMoves constructReady
  cases taken : s.drafts.takeReady entity with
  | none => exact .nil _
  | some result =>
    obtain ⟨draft, drafts⟩ := result
    obtain ⟨found, -, rest⟩ := Drafts.takeReady_eq_some.mp taken
    obtain ⟨filed, unbuilt, -⟩ := tidy.drafts entity draft found
    have undrafted : drafts.get? draft.entity = none := by
      rw [rest, Drafts.get?_erased, if_pos filed.symm]
    have built : Strides ⟨{ s with drafts }, due⟩ (constructMoves { s with drafts } draft ++ [])
        ⟨construct { s with drafts } draft, due⟩ :=
      .build (filed.symm ▸ unbuilt) undrafted (.nil _)
    rw [List.append_nil] at built
    exact .move (tidy.drafts.takeReady taken) trivial built

/-- A draft is taken further in strides. -/
theorem strides_advance (tidy : s.Tidy .all) (entity : EntityId) :
    Strides ⟨s, due⟩ (s.advanceMoves entity) ⟨s.advance entity, due⟩ := by
  unfold advanceMoves advance
  cases s.drafts.get? entity with
  | none => exact .nil _
  | some draft =>
    dsimp only
    cases draft.stage with
    | waiting container => exact .nil _
    | ready => exact strides_constructReady _ tidy entity
    | collecting =>
      dsimp only
      cases World.readSpawn entity draft.components with
      | ok spawn =>
        have fit : (Move.draft (s.drafts.setSpawn entity spawn)).Apt .all ⟨s, due⟩ :=
          tidy.drafts.setSpawn entity spawn
        exact .move fit trivial (strides_constructReady _ (fit.tidy tidy) entity)
      | error error =>
        have dropped : (Move.draft (s.drafts.remove entity)).Apt .all ⟨s, due⟩ :=
          tidy.drafts.remove entity
        cases error with
        | spawnDataMissing _ => exact .nil _
        | _ => exact .single dropped trivial

/-- Drafts are taken further one after the other in strides. -/
theorem strides_advances (tidy : s.Tidy .all) (touched : List EntityId) :
    Strides ⟨s, due⟩ (movesAlong advance advanceMoves s touched) ⟨touched.foldl advance s, due⟩ :=
  .along id advance advanceMoves due touched (fun _ entity tidy => strides_advance due tidy entity)
    tidy

/-! ## Updates and commands -/

/-- A component payload is written, or its calls are delivered. -/
theorem mem_applyMoves {entity : EntityId} {data : ComponentData} {m : Move}
    (mem : m ∈ s.applyMoves entity data) : m = .write entity data ∨ ∃ call, m = .deliver call := by
  unfold applyMoves callMoves at mem
  split at mem
  · cases mem
  · split at mem
    · exact .inl (List.mem_singleton.mp mem)
    · exact .inl (List.mem_singleton.mp mem)
    · exact .inl (List.mem_singleton.mp mem)
    · split at mem
      · cases mem
      · obtain ⟨call, -, rfl⟩ := List.mem_map.mp mem
        exact .inr ⟨call, rfl⟩
    · cases mem

/-- A command is delivered. -/
theorem mem_commandMoves {entity : EntityId} {request : CommandRequest} {m : Move}
    (mem : m ∈ s.commandMoves entity request) : ∃ call, m = .deliver call := by
  unfold commandMoves at mem
  split at mem
  · cases mem
  · split at mem
    · cases mem
    · split at mem
      · cases mem
      · exact ⟨_, List.mem_singleton.mp mem⟩

/-- A command is handled in strides. -/
theorem strides_command (entity : EntityId) (request : CommandRequest) :
    Strides ⟨s, due⟩ (s.commandMoves entity request)
      ⟨s.accept (s.tryCommand entity request), due⟩ := by
  refine .of_carries (carries_command due entity request) fun m mem => ?_
  obtain ⟨_, rfl⟩ := mem_commandMoves mem
  trivial

/-- An update is handled in strides. -/
theorem strides_update (tidy : s.Tidy .all) (entity : EntityId) (update : ComponentData) :
    Strides ⟨s, due⟩ (s.updateMoves entity update) ⟨s.update entity update, due⟩ := by
  refine .of_carries (carries_update due tidy entity trivial) fun m mem => ?_
  unfold updateMoves at mem
  split at mem
  · split at mem
    · cases mem
    · split at mem
      · cases List.mem_singleton.mp mem
        trivial
      · cases mem
  · rcases mem_applyMoves mem with rfl | ⟨_, rfl⟩ <;> trivial

/-! ## Bursts -/

/-- A draft is begun in strides. -/
theorem strides_begin (state : Session × List EntityId) (tidy : state.1.Tidy .all)
    (entity : EntityId) :
    Strides ⟨state.1, due⟩ (beginMoves state entity) ⟨(begin state entity).1, due⟩ := by
  refine .of_carries (carries_begin due state tidy entity) fun m mem => ?_
  unfold beginMoves at mem
  split at mem
  · cases mem
  · cases List.mem_singleton.mp mem
    trivial

/-- A component is routed in strides. -/
theorem strides_route (state : Session × List EntityId) (tidy : state.1.Tidy .all)
    (added : AddedComponent) :
    Strides ⟨state.1, due⟩ (routeMoves state added) ⟨(route state added).1, due⟩ := by
  refine .of_carries (carries_route due state tidy trivial) fun m mem => ?_
  unfold routeMoves at mem
  split at mem
  · cases List.mem_singleton.mp mem
    trivial
  · rcases mem_applyMoves mem with rfl | ⟨_, rfl⟩ <;> trivial

/-- The moves that carry a burst out are taken in strides. -/
theorem strides_drain (tidy : s.Tidy .all) (burst : Burst) :
    Strides ⟨s, burst.arrivals ++ due⟩ (s.drainMoves burst) ⟨s.drain burst, due⟩ := by
  have single {α : Type} {move : α → Move} {as : List α} {w w' : Work}
      (carries : Carries .all w (as.map move) w') (alone : ∀ a, (move a).IsAlone) :
      Strides w (as.map move) w' :=
    .of_carries carries (List.forall_mem_map.mpr fun a _ => alone a)
  -- Each phase starts from the session that the one before has led to.
  have removed : Strides ⟨s, burst.arrivals ++ due⟩ (burst.removed.map .remove)
      ⟨burst.removed.foldl remove s, burst.arrivals ++ due⟩ :=
    single (carries_removals _ tidy fun _ _ => trivial) fun _ => trivial
  have tidy := removed.tidy tidy
  have begun := Strides.along Prod.fst begin beginMoves (burst.arrivals ++ due) burst.added
    (s := (burst.removed.foldl remove s, [])) (fun state entity tidy => strides_begin _ state tidy
      entity) tidy
  have tidy := begun.tidy tidy
  have routed := Strides.along Prod.fst route routeMoves (burst.arrivals ++ due) burst.components
    (fun state added tidy => strides_route _ state tidy added) tidy
  have tidy := routed.tidy tidy
  have advanced := strides_advances (burst.arrivals ++ due) tidy
    (burst.components.foldl route (burst.added.foldl begin (burst.removed.foldl remove s, []))).2
  exact removed.append (begun.append (routed.append (advanced.append
    ((single (carries_authorities _ burst.authority) fun _ => trivial).append
      (single (Carries.replays .all burst.arrivals _ due) fun _ => trivial)))))

/-! ## Acts -/

/-- A section begins or ends in strides. -/
theorem strides_markSection (tidy : s.Tidy .all) (opens : Bool) :
    Strides s.idle (s.processMoves (.criticalSection opens)) (s.markSection opens).idle := by
  cases opens with
  | true => exact .single trivial trivial
  | false =>
    have left := tidy.leave
    simp only [processMoves, markSection, Bool.false_eq_true, if_false]
    refine .move trivial trivial ?_
    simp only [idle, Work.perform]
    cases yields : s.held.leave with
    | mk burst held =>
      rw [yields] at left
      cases burst with
      | some burst => exact strides_drain [] left burst
      | none => exact .nil _

/-- The moves of an act that settles nothing are taken in strides. -/
theorem strides_act (tidy : s.Tidy .all) {a : Act} (unsettled : a.settles = false) {s' : Session}
    (ok : s.act a = .ok s') : Strides s.idle (s.moves a) s'.idle := by
  -- Inside a section an operation is held back, which is a move by itself.
  have held {operation : Operation} {now : List Move} {s' : Session}
      (strides : Strides s.idle now s'.idle) :
      Strides s.idle (s.heldMoves operation now)
        (if s.held.isOpen then { s with held := s.held.hold (·.keep operation) } else s').idle := by
    unfold heldMoves
    split
    · rename_i isOpen
      exact .single ⟨isOpen, operation.within_all⟩ trivial
    · exact strides
  cases a with
  | receive operation =>
    cases operation with
    | criticalSection opens =>
      cases ok
      exact strides_markSection tidy opens
    | addEntity entity =>
      cases ok
      exact held (strides_drain [] tidy { added := [entity] })
    | removeEntity entity =>
      cases ok
      exact held (.single trivial trivial)
    | addComponent entity data =>
      cases ok
      have routed := strides_route [] (s, []) tidy ⟨entity, data⟩
      exact held (routed.append (strides_advances [] (routed.tidy tidy) _))
    | authorityChange entity component authority =>
      cases ok
      exact held (.single trivial trivial)
    | componentUpdate entity update =>
      cases ok
      exact strides_update [] tidy entity update
    | _ => cases unsettled
  | tryUpdate entity update =>
    cases ok
    exact strides_update [] tidy entity update
  | tryCommand entity request =>
    cases ok
    exact strides_command [] entity request
  | load container =>
    cases ok
    have loaded : (Move.draft (s.drafts.load container).2).Apt .all s.idle :=
      tidy.drafts.load container
    exact .move loaded trivial (strides_advances [] (loaded.tidy tidy) _)
  | unload container =>
    cases ok
    exact .single (fun entity draft found => tidy.drafts entity draft found) trivial
  | announce arrival =>
    refine .of_carries (carries_act tidy (Act.within_all _) ok) fun m mem => ?_
    simp only [moves, List.mem_cons] at mem
    rcases mem with rfl | mem
    · trivial
    · split at mem
      · cases mem
      · cases List.mem_singleton.mp mem
        trivial
  | register _ | takeEvents => cases unsettled
  | alter change =>
    cases ok
    exact .single trivial trivial

end Session

/-! ## Constructions go to their end -/

/-- Moments are **unbroken** if all the moves that build an entity come right after the first. -/
def Unbroken (course : List Moment) : Prop :=
  ∀ (m : Moment) (draft : Draft) (later : List Moment), m.move = .found draft →
    m :: later <:+ course → m.session.constructMoves draft <+: (m :: later).map Moment.move

namespace Unbroken

/-- Moments that are unbroken are so one after the other. -/
theorem append {early late : List Moment} (first : Unbroken early) (second : Unbroken late) :
    Unbroken (early ++ late) := by
  rintro m draft later builds ⟨before, split⟩
  -- The construction begins in the first part, and what it needs is there, or in the second one.
  rcases List.append_eq_append_iff.mp split with ⟨rest, rfl, same⟩ | ⟨rest, rfl, same⟩
  · cases rest with
    | nil => exact second m draft later builds ⟨[], same⟩
    | cons m' rest =>
      obtain ⟨rfl, rfl⟩ := List.cons.inj same
      have whole := first m draft rest builds ⟨before, rfl⟩
      exact whole.trans (by rw [same, List.map_append]; exact List.prefix_append _ _)
  · exact second m draft later builds ⟨rest, same.symm⟩

end Unbroken

/-- The moments of some moves make them, in order. -/
theorem Work.map_move_trail (w : Work) (ms : List Move) : (w.trail ms).map Moment.move = ms := by
  induction ms generalizing w with
  | nil => rfl
  | cons m ms ih => rw [trail, List.map_cons, ih]

namespace Session

variable {s s' : Session}

/-- Acts that settle requests or reports build nothing. -/
theorem found_notMem_moves {a : Act} (settles : a.settles = true) (draft : Draft) :
    .found draft ∉ s.moves a := by
  intro mem
  cases a with
  | receive operation =>
    cases operation with
    | commandRequest request entity command =>
      rcases List.mem_append.mp mem with delivered | settled
      · obtain ⟨call, same⟩ := mem_commandMoves delivered
        cases same
      · cases List.mem_singleton.mp settled
    | commandResponse request result =>
      simp only [moves, processMoves] at mem
      split at mem <;> simp at mem
    | reserveResponse _ _ | createResponse _ _ | queryResponse _ _ =>
      cases List.mem_singleton.mp mem
    | _ => cases settles
  | register _ | takeEvents => cases List.mem_singleton.mp mem
  | _ => cases settles

end Session

end Replica
