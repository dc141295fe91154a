import Replica.Proofs.Course.Tidy
import Replica.Proofs.Wire.RoundTrip

/-! # Moves lead where acts lead

The moves of an act, made one after the other, are apt and end in the session that the act ends in,
with nothing left to replay. So whatever holds at the start of a run and is kept by every apt move
holds after every run.

Main definitions:
* `Moment.after` — the session that a moment leads to.
* `Carries` — apt moves that lead from one state of work to another.
* `Session.carries_act` — the moves of an act carry the session to where the act leads.
* `Session.run_induction` — induction over the moves of a run. -/

namespace Replica

variable {scope : Scope}

/-- The moments of some moves are followed by those of the moves after them. -/
theorem Work.trail_append (w : Work) (ms later : List Move) :
    w.trail (ms ++ later) = w.trail ms ++ (ms.foldl Work.perform w).trail later := by
  induction ms generalizing w with
  | nil => rfl
  | cons m ms ih => exact congrArg _ (ih (w.perform m))

/-- The session **after** a moment. -/
def Moment.after (m : Moment) : Session := (m.session.idle.perform m.move).session

/-- What is due does not matter for the session that a move leads to. -/
theorem Work.session_perform (w : Work) (m : Move) :
    (w.perform m).session = (⟨w.session, m⟩ : Moment).after := by
  unfold Moment.after
  cases m with
  | mark opens =>
    cases opens with
    | true => rfl
    | false =>
      simp only [Work.perform, Session.idle]
      split <;> rfl
  | learn arrival =>
    have learnt (w : Work) : (w.perform (.learn arrival)).session =
        let s := { w.session with
          directory := w.session.directory.register arrival.reference arrival.object }
        if s.held.isOpen && s.settings.holdArrivals then
          { s with held := s.held.hold (·.announce arrival) } else s :=
      apply_ite Work.session _ _ _
    exact (learnt w).trans (learnt w.session.idle).symm
  | found draft =>
    simp only [Work.perform, Session.idle]
    split <;> rfl
  | _ => rfl

/-- Apt moves **carry** one state of work to another. -/
inductive Carries (scope : Scope) : Work → List Move → Work → Prop where
  /-- No move leads nowhere else. -/
  | nil (w : Work) : Carries scope w [] w
  /-- An apt move, and those after it. -/
  | cons {w w' : Work} {m : Move} {ms : List Move} (apt : m.Apt scope w)
    (rest : Carries scope (w.perform m) ms w') : Carries scope w (m :: ms) w'

namespace Carries

variable {w w₁ w₂ : Work} {ms ms₁ ms₂ : List Move}

theorem single {m : Move} (apt : m.Apt scope w) : Carries scope w [m] (w.perform m) :=
  .cons apt (.nil _)

theorem append (h₁ : Carries scope w ms₁ w₁) (h₂ : Carries scope w₁ ms₂ w₂) :
    Carries scope w (ms₁ ++ ms₂) w₂ := by
  induction h₁ with
  | nil w => exact h₂
  | cons apt _ ih => exact .cons apt (ih h₂)

/-- They lead where making them one after the other leads. -/
theorem foldl_perform (h : Carries scope w ms w₁) : ms.foldl Work.perform w = w₁ := by
  induction h with
  | nil w => rfl
  | cons _ _ ih => exact ih

/-- Apt moves keep a session tidy. -/
theorem tidy (h : Carries scope w ms w₁) (tidy : w.session.Tidy scope) :
    w₁.session.Tidy scope := by
  induction h with
  | nil w => exact tidy
  | cons apt _ ih => exact ih (apt.tidy tidy)

/-- Whatever every apt move keeps is kept by the moves of a whole act. -/
theorem keeps {I : Work → List Moment → Prop}
    (step : ∀ (w : Work) (past : List Moment) (m : Move), w.session.Tidy scope → m.Apt scope w →
      I w past → I (w.perform m) (past ++ [⟨w.session, m⟩]))
    (h : Carries scope w ms w₁) (tidy : w.session.Tidy scope) {past : List Moment}
    (before : I w past) : I w₁ (past ++ w.trail ms) := by
  -- The induction runs over the moves, and each one adds its moment to the past.
  induction h generalizing past with
  | nil w => simpa [Work.trail] using before
  | @cons w w' m ms apt _ ih =>
    have after := ih (apt.tidy tidy) (step w past m tidy apt before)
    rwa [List.append_assoc] at after

/-- The moves of several steps lead where the steps lead, if those of each step do so from a tidy
session. The steps may work on more than a session, of which `view` is the session. -/
theorem along {σ α : Type} (view : σ → Session) (step : σ → α → σ) (moves : σ → α → List Move)
    (due : List Arrival) (as : List α)
    (each : ∀ (s : σ) (a : α), a ∈ as → (view s).Tidy scope →
      Carries scope ⟨view s, due⟩ (moves s a) ⟨view (step s a), due⟩)
    {s : σ} (tidy : (view s).Tidy scope) :
    Carries scope ⟨view s, due⟩ (Session.movesAlong step moves s as)
      ⟨view (as.foldl step s), due⟩ := by
  induction as generalizing s with
  | nil => exact .nil _
  | cons a as ih =>
    -- The first step leaves a tidy session, from which the others go on.
    have first := each s a (by simp) tidy
    exact first.append (ih (fun t b mem => each t b (by simp [mem])) (first.tidy tidy))

/-- Single moves, one for each item of a list. -/
theorem map {α : Type} (step : Session → α → Session) (move : α → Move) (I : Session → Prop)
    (due : List Arrival) (as : List α)
    (each : ∀ (s : Session) (a : α), a ∈ as → I s →
      (move a).Apt scope ⟨s, due⟩ ∧ Work.perform ⟨s, due⟩ (move a) = ⟨step s a, due⟩ ∧
        I (step s a))
    {s : Session} (start : I s) :
    Carries scope ⟨s, due⟩ (as.map move) ⟨as.foldl step s, due⟩ ∧ I (as.foldl step s) := by
  induction as generalizing s with
  | nil => exact ⟨.nil _, start⟩
  | cons a as ih =>
    obtain ⟨apt, performed, kept⟩ := each s a (by simp) start
    obtain ⟨rest, last⟩ := ih (fun t b mem => each t b (by simp [mem])) kept
    exact ⟨.cons apt (performed ▸ rest), last⟩

/-- The arrivals that stand first among those due are replayed. -/
theorem replays (scope : Scope) (as : List Arrival) (s : Session) (due : List Arrival) :
    Carries scope ⟨s, as ++ due⟩ (as.map .replay) ⟨as.foldl Session.resolveNow s, due⟩ := by
  induction as generalizing s with
  | nil => exact .nil _
  | cons a as ih =>
    refine .cons (by simp [Move.Apt]) ?_
    have performed : Work.perform ⟨s, a :: as ++ due⟩ (.replay a) =
        ⟨s.resolveNow a, as ++ due⟩ := by
      simp [Work.perform]
    rw [performed]
    exact ih (s.resolveNow a)

end Carries

namespace Session

variable {s : Session} (due : List Arrival)

/-! ## Updates and commands -/

/-- The object that a component reaches is alive. -/
theorem isAlive_of_target {entity : EntityId} {component : ComponentId} {b : Binding}
    {subscriber : Subscriber} (h : s.target entity component = .ok (b, subscriber)) :
    s.world.isAlive subscriber.object = true := by
  unfold target binding at h
  split at h
  · simp only [bind, Except.bind] at h
    split at h
    · cases h
    · split at h
      · cases h
      · split at h
        · cases h
          assumption
        · cases h
  · cases h

/-- The calls of a multicast, dispatched as they were read, are delivered one by one. -/
theorem foldl_dispatch (target : Handle) (entity : EntityId) (component : ComponentId)
    (calls : List Call) {s₀ : Session} (same : s.resolver = s₀.resolver) :
    (calls.map fun c => (⟨.ofPayload c.function (Wire.args c.args),
        Value.missingAll s₀.resolver c.args⟩ : Incoming)).foldl
      (dispatch · target entity component) s =
      (calls.map (Delivered.ofCall target entity component)).foldl deliverCall s := by
  induction calls generalizing s with
  | nil => rfl
  | cons c calls ih =>
    -- Which arguments are missing was read off before, but no call changes the resolver.
    have first : s.dispatch target entity component ⟨.ofPayload c.function (Wire.args c.args),
          Value.missingAll s₀.resolver c.args⟩ =
        s.deliverCall (Delivered.ofCall target entity component c) := by
      rw [deliverCall, same]
      rfl
    rw [List.map_cons, List.map_cons, List.foldl_cons, List.foldl_cons, first]
    exact ih ((routine_deliverCall s _).resolver.trans same)

/-- What becomes of a component payload for a built entity. -/
theorem accept_applyToLive (s : Session) (entity : EntityId) (data : ComponentData) :
    s.accept (s.applyToLive entity data.component data.payload) =
      match s.target entity data.component with
      | .error _ => s
      | .ok (b, subscriber) =>
        match b.role with
        | .spawn | .data | .handover => s.write entity data
        | .multicast =>
          match Wire.decodeCalls data.payload with
          | .error _ => s
          | .ok calls =>
            (calls.map (Delivered.ofCall subscriber.object entity data.component)).foldl
              deliverCall s
        | .command => s := by
  unfold applyToLive
  cases reached : s.target entity data.component with
  | error error => rfl
  | ok result =>
    obtain ⟨b, subscriber⟩ := result
    simp only [bind, Except.bind]
    cases role : b.role with
    | spawn | data | handover =>
      -- The three roles that carry properties are written in the same way.
      simp only [write, reached, role]
      cases Update.apply s.world s.waitlist s.resolver subscriber _ data.component data.payload <;>
        rfl
    | multicast =>
      have alive := isAlive_of_target reached
      simp only [World.readMulticast, alive, Bool.not_true, Bool.false_eq_true, if_false]
      cases Wire.decodeCalls data.payload with
      | error flaw => rfl
      | ok calls => exact foldl_dispatch subscriber.object entity data.component calls rfl
    | command => rfl

/-- Calls to a live object are delivered. -/
theorem carries_calls {target : Handle} (alive : s.world.isAlive target = true)
    (entity : EntityId) (component : ComponentId) {calls : List Call}
    (writable : ∀ c ∈ calls, Value.ListWritable c.args) :
    Carries scope ⟨s, due⟩ ((calls.map (Delivered.ofCall target entity component)).map .deliver)
      ⟨(calls.map (Delivered.ofCall target entity component)).foldl deliverCall s, due⟩ := by
  refine (Carries.map deliverCall .deliver (fun s => s.world.isAlive target = true) due
    _ ?_ alive).1
  intro s d mem alive
  obtain ⟨c, known, rfl⟩ := List.mem_map.mp mem
  refine ⟨⟨alive, Wire.decodeArgs_eq_ok.mpr ⟨writable c known, rfl⟩⟩, rfl, ?_⟩
  rw [(routine_deliverCall s _).isAlive]
  exact alive

/-- The moves of a component payload lead where the payload leads. -/
theorem carries_applyMoves (entity : EntityId) {data : ComponentData} (within : scope.data data) :
    Carries scope ⟨s, due⟩ (s.applyMoves entity data)
      ⟨s.accept (s.applyToLive entity data.component data.payload), due⟩ := by
  rw [accept_applyToLive, applyMoves]
  cases reached : s.target entity data.component with
  | error error => exact .nil _
  | ok result =>
    obtain ⟨b, subscriber⟩ := result
    -- What is written are properties, because the target is the one that was reached.
    have written (properties : b.role.carriesProperties = true) :
        Carries scope ⟨s, due⟩ [.write entity data] ⟨s.write entity data, due⟩ := by
      refine .single ⟨within, ?_⟩
      intro b' t same
      cases reached.symm.trans same
      exact properties
    dsimp only
    cases role : b.role with
    | spawn | data | handover => exact written (by rw [role]; rfl)
    | multicast =>
      dsimp only [callMoves]
      cases decoded : Wire.decodeCalls data.payload with
      | error flaw => exact .nil _
      | ok calls =>
        exact carries_calls _ (isAlive_of_target reached) entity data.component
          (Wire.decodeCalls_eq_ok.mp decoded).1.2
    | command => exact .nil _

/-- The moves of an update lead where the update leads. -/
theorem carries_update (tidy : s.Tidy scope) (entity : EntityId) {update : ComponentData}
    (within : scope.data update) :
    Carries scope ⟨s, due⟩ (s.updateMoves entity update) ⟨s.update entity update, due⟩ := by
  unfold updateMoves Session.update tryUpdate
  split
  · cases s.binding update.component with
    | error error => exact .nil _
    | ok b =>
      simp only [bind, Except.bind]
      split
      · exact .single (tidy.drafts.addComponent entity within)
      · exact .nil _
  · exact carries_applyMoves _ entity within

/-- The moves of a command request lead where the request leads. -/
theorem carries_command (entity : EntityId) (request : CommandRequest) :
    Carries scope ⟨s, due⟩ (s.commandMoves entity request)
      ⟨s.accept (s.tryCommand entity request), due⟩ := by
  unfold commandMoves tryCommand
  cases reached : s.target entity request.component with
  | error error => exact .nil _
  | ok result =>
    obtain ⟨b, subscriber⟩ := result
    have alive := isAlive_of_target reached
    simp only [bind, Except.bind, World.readCommand, alive, Bool.not_true, Bool.false_eq_true,
      if_false]
    split
    · exact .nil _
    · cases decoded : Wire.decodeArgs request.payload with
      | error flaw => exact .nil _
      | ok args => exact .single ⟨alive, decoded⟩

/-! ## Construction -/

/-- Building an entity begins with making its objects known. -/
theorem construct_eq (s : Session) (draft : Draft) :
    s.construct draft =
      match s.found draft with
      | (none, s) => s
      | (some channel, s) =>
        channel.arrivals.foldl resolveNow (draft.changes.foldl changeAuthority
          ((draft.components.foldl (populate channel) s).complete channel)) := by
  unfold construct found
  cases draft.spawn with
  | none => rfl
  | some spawn =>
    dsimp only
    cases s.world.instantiate draft.entity spawn with
    | error error => rfl
    | ok result =>
      obtain ⟨assembly, world⟩ := result
      dsimp only
      cases opened : s.channels.open? draft.entity assembly with
      | none => rfl
      | some result =>
        obtain ⟨channel, channels⟩ := result
        have filed : channel.entity = draft.entity := by
          unfold Channels.open? at opened
          split at opened
          · cases opened
          · cases opened
            rfl
        simp only [Channel.arrivals, Draft.changes, List.foldl_map, complete, filed]

/-- Changes of authority are made one by one. -/
theorem carries_authorities (changes : List AuthorityChange) :
    Carries scope ⟨s, due⟩ (changes.map .authorize) ⟨changes.foldl changeAuthority s, due⟩ :=
  (Carries.map changeAuthority .authorize (fun _ => True) due changes
    (fun _ _ _ _ => ⟨trivial, rfl, trivial⟩) trivial).1

/-- Collected components are applied one by one to a channel that is open. -/
theorem carries_components {channel : Channel} {components : List ComponentData}
    (here : s.channels.get? channel.entity = some channel)
    (within : ∀ data ∈ components, scope.data data) :
    Carries scope ⟨s, due⟩ (components.map (.populate channel))
        ⟨components.foldl (populate channel) s, due⟩ ∧
      (components.foldl (populate channel) s).channels.get? channel.entity = some channel := by
  refine Carries.map (populate channel) (.populate channel)
    (fun s => s.channels.get? channel.entity = some channel) due components ?_ here
  intro s data mem here
  refine ⟨⟨here, within data mem⟩, rfl, ?_⟩
  rw [(writes_populate channel s data).routine.channels]
  exact here

/-- The moves that build an entity lead where building it leads. -/
theorem carries_construct {draft : Draft} (unbuilt : s.channels.get? draft.entity = none)
    (undrafted : s.drafts.get? draft.entity = none)
    (within : ∀ data ∈ draft.components, scope.data data) :
    Carries scope ⟨s, due⟩ (s.constructMoves draft) ⟨s.construct draft, due⟩ := by
  have apt : (Move.found draft).Apt scope ⟨s, due⟩ := ⟨unbuilt, undrafted⟩
  rw [construct_eq, constructMoves]
  refine .cons apt ?_
  cases step : s.found draft with
  | mk built s₁ =>
    cases built with
    | none =>
      simp only [Work.perform, step]
      exact .nil _
    | some channel =>
      simp only [Work.perform, step]
      obtain ⟨filed, -, get⟩ := found_channels step
      have opened : s₁.channels.get? channel.entity = some channel := by
        rw [get, filed, if_pos rfl]
      -- The channel stays as it was opened until authority is set.
      obtain ⟨populated, here⟩ := carries_components (channel.arrivals ++ due) opened within
      have completed : (Move.complete channel).Apt scope
          ⟨draft.components.foldl (populate channel) s₁, channel.arrivals ++ due⟩ := here
      have replayed := Carries.replays scope channel.arrivals (draft.changes.foldl
        changeAuthority ((draft.components.foldl (populate channel) s₁).complete channel)) due
      exact (populated.append (.cons completed (carries_authorities _ draft.changes))).append
        replayed

theorem carries_constructReady (tidy : s.Tidy scope) (entity : EntityId) :
    Carries scope ⟨s, due⟩ (s.constructReadyMoves entity) ⟨s.constructReady entity, due⟩ := by
  unfold constructReadyMoves constructReady
  cases taken : s.drafts.takeReady entity with
  | none => exact .nil _
  | some result =>
    obtain ⟨draft, drafts⟩ := result
    obtain ⟨found, -, rest⟩ := Drafts.takeReady_eq_some.mp taken
    obtain ⟨filed, unbuilt, within⟩ := tidy.drafts entity draft found
    -- The draft is taken out before its entity is built.
    have undrafted : drafts.get? draft.entity = none := by
      rw [rest, Drafts.get?_erased, if_pos filed.symm]
    have fit : (Move.draft drafts).Apt scope ⟨s, due⟩ := tidy.drafts.takeReady taken
    exact .cons fit (carries_construct due (s := { s with drafts }) (filed.symm ▸ unbuilt) undrafted
      within)

/-- The moves that take a draft further lead where the draft gets. -/
theorem carries_advance (tidy : s.Tidy scope) (entity : EntityId) :
    Carries scope ⟨s, due⟩ (s.advanceMoves entity) ⟨s.advance entity, due⟩ := by
  unfold advanceMoves advance
  cases s.drafts.get? entity with
  | none => exact .nil _
  | some draft =>
    dsimp only
    cases draft.stage with
    | waiting container => exact .nil _
    | ready => exact carries_constructReady _ tidy entity
    | collecting =>
      dsimp only
      cases World.readSpawn entity draft.components with
      | ok spawn =>
        have fit : (Move.draft (s.drafts.setSpawn entity spawn)).Apt scope ⟨s, due⟩ :=
          tidy.drafts.setSpawn entity spawn
        exact .cons fit (carries_constructReady _ (fit.tidy tidy) entity)
      -- Spawn data that is still missing is waited for; a draft with any other flaw is dropped.
      | error error =>
        have dropped : (Move.draft (s.drafts.remove entity)).Apt scope ⟨s, due⟩ :=
          tidy.drafts.remove entity
        cases error with
        | spawnDataMissing _ => exact .nil _
        | _ => exact .single dropped

/-- Several drafts are taken further. -/
theorem carries_advances (tidy : s.Tidy scope) (touched : List EntityId) :
    Carries scope ⟨s, due⟩ (movesAlong advance advanceMoves s touched)
      ⟨touched.foldl advance s, due⟩ :=
  Carries.along id advance advanceMoves due touched
    (fun _ entity _ tidy => carries_advance due tidy entity) tidy

/-! ## Bursts -/

theorem carries_begin (state : Session × List EntityId) (tidy : state.1.Tidy scope)
    (entity : EntityId) :
    Carries scope ⟨state.1, due⟩ (beginMoves state entity) ⟨(begin state entity).1, due⟩ := by
  obtain ⟨s, touched⟩ := state
  unfold beginMoves begin
  dsimp only
  split
  · exact .nil _
  · rename_i unbuilt
    have none : s.channels.get? entity = none := by simpa [Channels.contains_eq] using unbuilt
    exact .single (tidy.drafts.begin none)

theorem carries_route (state : Session × List EntityId) (tidy : state.1.Tidy scope)
    {added : AddedComponent} (within : scope.data added.data) :
    Carries scope ⟨state.1, due⟩ (routeMoves state added) ⟨(route state added).1, due⟩ := by
  obtain ⟨s, touched⟩ := state
  unfold routeMoves route
  dsimp only
  split
  · exact .single (tidy.drafts.addComponent added.entity within)
  · exact carries_applyMoves _ added.entity within

theorem carries_removals (tidy : s.Tidy scope) {removed : List EntityId}
    (within : ∀ entity ∈ removed, scope.removal entity) :
    Carries scope ⟨s, due⟩ (removed.map .remove) ⟨removed.foldl remove s, due⟩ :=
  (Carries.map remove .remove (Tidy scope) due removed
    (fun _ entity mem tidy => ⟨within entity mem, rfl, tidy.remove entity⟩) tidy).1

/-- The moves that route the components of a burst, after its removals and additions, lead where
these lead. -/
theorem carries_routed (tidy : s.Tidy scope) {burst : Burst} (within : burst.Within scope) :
    Carries scope ⟨s, due⟩
      (burst.removed.map .remove ++
        (movesAlong begin beginMoves (burst.removed.foldl remove s, []) burst.added ++
          movesAlong route routeMoves (burst.added.foldl begin (burst.removed.foldl remove s, []))
            burst.components))
      ⟨(burst.components.foldl route
        (burst.added.foldl begin (burst.removed.foldl remove s, []))).1, due⟩ := by
  -- Each phase starts from the tidy session that the one before has led to.
  have removed := carries_removals due tidy within.removed
  have begun := Carries.along Prod.fst begin beginMoves due burst.added
    (s := (burst.removed.foldl remove s, []))
    (fun state entity _ tidy => carries_begin _ state tidy entity) (removed.tidy tidy)
  have routed := Carries.along Prod.fst route routeMoves due burst.components
    (fun state added mem tidy => carries_route _ state tidy (within.components added mem))
    (begun.tidy (removed.tidy tidy))
  exact removed.append (begun.append routed)

/-- The moves that carry a burst out lead where the burst leads. -/
theorem carries_drain (tidy : s.Tidy scope) {burst : Burst} (within : burst.Within scope) :
    Carries scope ⟨s, burst.arrivals ++ due⟩ (s.drainMoves burst) ⟨s.drain burst, due⟩ := by
  -- The arrivals of the burst are due all along.
  have routed := carries_routed (burst.arrivals ++ due) tidy within
  have advanced := carries_advances (burst.arrivals ++ due) (routed.tidy tidy)
    (burst.components.foldl route (burst.added.foldl begin (burst.removed.foldl remove s, []))).2
  have carried := routed.append (advanced.append ((carries_authorities _ burst.authority).append
    (Carries.replays scope burst.arrivals _ due)))
  simp only [List.append_assoc] at carried
  exact carried

/-! ## Operations -/

/-- An operation that may be held back is, or it is carried out. -/
theorem carries_held {operation : Operation} (within : operation.Within scope) {now : List Move}
    {s' : Session} (carried : Carries scope ⟨s, due⟩ now ⟨s', due⟩) :
    Carries scope ⟨s, due⟩ (s.heldMoves operation now)
      ⟨if s.held.isOpen then { s with held := s.held.hold (·.keep operation) } else s', due⟩ := by
  unfold heldMoves
  split
  · exact .single ⟨‹_›, within⟩
  · exact carried

/-- Requests and reports are settled by one move. -/
theorem carries_settle (s' : Session) (requests : Requests) (events : List Event)
    (deliveries : List Delivery) (same : s' = { s with requests, events, deliveries }) :
    Carries scope ⟨s, due⟩ [.settle s'.requests s'.events s'.deliveries] ⟨s', due⟩ := by
  subst same
  exact .single trivial

theorem carries_markSection (tidy : s.Tidy scope) (opens : Bool) :
    Carries scope s.idle (s.processMoves (.criticalSection opens))
      (s.markSection opens).idle := by
  cases opens with
  | true => exact .single trivial
  | false =>
    have left := tidy.leave
    simp only [processMoves, markSection, Bool.false_eq_true, if_false]
    refine .cons trivial ?_
    simp only [idle, Work.perform]
    cases yields : s.held.leave with
    | mk burst held =>
      rw [yields] at left
      cases burst with
      | some burst => exact carries_drain _ left (tidy.burst_of_leave yields)
      | none => exact .nil _

/-- An answer to a request leaves all but requests and deliveries as they are. -/
theorem deliver_eq (s : Session) (requests : Requests) (a : Option Awaiting) (answer : Answer) :
    ∃ deliveries, ({ s with requests } : Session).deliver a answer =
      { s with requests, deliveries } := by
  unfold deliver
  split
  · exact ⟨s.deliveries, rfl⟩
  · split
    · exact ⟨_, rfl⟩
    · exact ⟨s.deliveries, rfl⟩

/-- The answer to a command takes the command away, and reports only that it is to be sent again. -/
theorem commandResponse_eq {id : RequestId} {result : Except Failure Bytes} {s' : Session}
    (h : s.commandResponse id result = .ok s') :
    ∃ retries : List (ReliableCommand × Duration), s' = { s with
      requests.commands := s.requests.commands.erase id
      events := s.events ++ retries.map fun (command, delay) => .retryCommand command delay } := by
  have done {t : Session} (same : { s with
      requests.commands := s.requests.commands.erase id } = t) :
      ∃ retries : List (ReliableCommand × Duration), t = { s with
        requests.commands := s.requests.commands.erase id
        events := s.events ++ retries.map fun (command, delay) =>
          .retryCommand command delay } := by
    refine ⟨[], ?_⟩
    rw [← same, List.map_nil, List.append_nil]
  unfold commandResponse at h
  cases known : s.requests.commands.get? id with
  | none =>
    simp only [known] at h
    exact done (Except.ok.inj h)
  | some command =>
    cases result with
    | ok payload =>
      simp only [known] at h
      exact done (Except.ok.inj h)
    | error failure =>
      simp only [known] at h
      split at h
      · cases delay : s.settings.retryDelay command.attempts with
        | error fault => simp [delay, bind, Except.bind] at h
        | ok delay' =>
          simp only [delay, bind, Except.bind, pure, Except.pure] at h
          cases h
          exact ⟨[({ command with attempts := command.attempts + 1 }, delay')], rfl⟩
      · exact done (Except.ok.inj h)

/-- A registration leaves all but the requests as they are. -/
theorem await_eq (s : Session) (registration : Registration) :
    ∃ requests, s.await registration = { s with requests } := by
  unfold await
  split
  · rename_i s' accepted
    have of_map : ∀ {outcome : Except RequestError Requests},
        s.withRequests outcome = .ok s' → ∃ requests, s' = { s with requests } := by
      intro outcome h
      cases outcome with
      | error error => cases h
      | ok requests =>
        cases h
        exact ⟨requests, rfl⟩
    cases registration <;> exact of_map accepted
  · exact ⟨s.requests, rfl⟩

/-- The moves of an operation lead where the operation leads. -/
theorem carries_process (tidy : s.Tidy scope) {operation : Operation}
    (within : operation.Within scope) {s' : Session} (ok : s.process operation = .ok s') :
    Carries scope s.idle (s.processMoves operation) s'.idle := by
  cases operation with
  | criticalSection opens =>
    cases ok
    exact carries_markSection tidy opens
  | addEntity entity =>
    cases ok
    exact carries_held _ within (carries_drain [] tidy (.added entity))
  | removeEntity entity =>
    cases ok
    exact carries_held _ within (.single within)
  | addComponent entity data =>
    cases ok
    have added : scope.data (AddedComponent.mk entity data).data := within
    have routed := carries_route [] (s, []) tidy added
    exact carries_held _ within (routed.append (carries_advances _ (routed.tidy tidy) _))
  | authorityChange entity component authority =>
    cases ok
    exact carries_held _ within (.single trivial)
  | componentUpdate entity update =>
    cases ok
    exact carries_update _ tidy entity within
  | commandRequest request entity command =>
    cases ok
    exact (carries_command [] entity command).append (.single trivial)
  | commandResponse request result =>
    simp only [process] at ok
    simp only [processMoves, ok]
    obtain ⟨retries, rfl⟩ := commandResponse_eq ok
    exact .single trivial
  | reserveResponse request result =>
    cases ok
    obtain ⟨deliveries, same⟩ := deliver_eq s _ _ _
    exact carries_settle _ _ _ _ _ same
  | createResponse request result =>
    cases ok
    obtain ⟨deliveries, same⟩ := deliver_eq s _ _ _
    exact carries_settle _ _ _ _ _ same
  | queryResponse request result =>
    cases ok
    obtain ⟨deliveries, same⟩ := deliver_eq s _ _ _
    exact carries_settle _ _ _ _ _ same

/-! ## Acts and runs -/

/-- The moves of an arrival lead where the arrival leads. -/
theorem carries_announce {arrival : Arrival} (within : scope.arrival arrival) :
    Carries scope s.idle (s.moves (.announce arrival)) (s.announce arrival).idle := by
  show Carries scope s.idle (.learn arrival ::
    if s.held.isOpen && s.settings.holdArrivals then [] else [.replay arrival]) _
  by_cases holds : (s.held.isOpen && s.settings.holdArrivals) = true
  · have learnt : s.idle.perform (.learn arrival) = (s.announce arrival).idle :=
      (if_pos holds).trans (congrArg idle (if_pos holds).symm)
    rw [if_pos holds, ← learnt]
    exact .single within
  · have learnt : s.idle.perform (.learn arrival) = ⟨{ s with
        directory := s.directory.register arrival.reference arrival.object }, [arrival]⟩ :=
      if_neg holds
    have told : s.announce arrival = { s with
        directory := s.directory.register arrival.reference arrival.object }.resolveNow arrival :=
      if_neg holds
    rw [if_neg holds, told]
    refine .cons within ?_
    rw [learnt]
    exact Carries.replays scope [arrival] _ []

/-- The moves of an act lead where the act leads. -/
theorem carries_act (tidy : s.Tidy scope) {a : Act} (within : a.Within scope) {s' : Session}
    (ok : s.act a = .ok s') : Carries scope s.idle (s.moves a) s'.idle := by
  cases a with
  | receive operation => exact carries_process tidy within ok
  | tryUpdate entity update =>
    cases ok
    exact carries_update _ tidy entity within
  | tryCommand entity request =>
    cases ok
    exact carries_command _ entity request
  | load container =>
    cases ok
    have loaded : (Move.draft (s.drafts.load container).2).Apt scope s.idle :=
      tidy.drafts.load container
    exact .cons loaded (carries_advances _ (loaded.tidy tidy) _)
  | unload container =>
    cases ok
    exact .single (fun entity draft found => tidy.drafts entity draft found)
  | announce arrival =>
    cases ok
    exact carries_announce within
  | register registration =>
    cases ok
    obtain ⟨requests, same⟩ := await_eq s registration
    exact carries_settle _ _ _ _ _ same
  | takeEvents =>
    cases ok
    exact .single trivial
  | alter change =>
    cases ok
    exact .single within

/-- A run is its first act and the run of the others. -/
theorem run_cons {a : Act} {acts : List Act} {s' : Session} :
    s.run (a :: acts) = .ok s' ↔ ∃ s₁, s.act a = .ok s₁ ∧ s₁.run acts = .ok s' := by
  simp only [run, List.foldlM_cons, bind, Except.bind]
  cases s.act a with
  | error fault => simp
  | ok s₁ => simp

/-- The course of a run goes on with what comes after the run. -/
theorem course_append {acts : List Act} {s' : Session} (ok : s.run acts = .ok s')
    (later : List Act) : s.course (acts ++ later) = s.course acts ++ s'.course later := by
  induction acts generalizing s with
  | nil =>
    cases ok
    rfl
  | cons a acts ih =>
    obtain ⟨s₁, first, rest⟩ := run_cons.mp ok
    simp only [List.cons_append, course, first, ih rest, List.append_assoc]

/-- What a run ends with can be computed. -/
theorem exists_run (s : Session) (acts : List Act) (test : Session → Bool)
    (passes : (match s.run acts with
      | .ok s' => test s'
      | .error _ => false) = true) : ∃ s', s.run acts = .ok s' ∧ test s' = true := by
  split at passes
  · rename_i s' ok
    exact ⟨s', ok, passes⟩
  · cases passes

/-- **Induction over the moves of a run**: what holds before a run and is kept by every apt move
holds after the run, of the session and of all moments before. -/
theorem run_induction {I : Work → List Moment → Prop}
    (step : ∀ (w : Work) (past : List Moment) (m : Move), w.session.Tidy scope → m.Apt scope w →
      I w past → I (w.perform m) (past ++ [⟨w.session, m⟩]))
    {start s : Session} (tidy : start.Tidy scope) (before : I start.idle []) {acts : List Act}
    (within : ∀ a ∈ acts, a.Within scope) (ok : start.run acts = .ok s) :
    I s.idle (start.course acts) ∧ s.Tidy scope := by
  suffices general : ∀ past, I start.idle past →
      I s.idle (past ++ start.course acts) ∧ s.Tidy scope by
    simpa using general [] before
  clear before
  -- The induction runs over the acts; the moves of an act are dealt with by `Carries.keeps`.
  induction acts generalizing start with
  | nil =>
    cases ok
    exact fun past before => ⟨by simpa [course] using before, tidy⟩
  | cons a acts ih =>
    obtain ⟨s₁, first, rest⟩ := run_cons.mp ok
    have carried := carries_act tidy (within a (by simp)) first
    intro past before
    have after := ih (carried.tidy tidy) (fun b mem => within b (by simp [mem])) rest _
      (carried.keeps step tidy before)
    rw [List.append_assoc] at after
    simp only [course, first]
    exact after

/-- What holds before a run and is kept by every apt move holds at each moment of the run, of the
session then and the moments before. -/
theorem prefix_induction {I : Work → List Moment → Prop}
    (step : ∀ (w : Work) (past : List Moment) (m : Move), w.session.Tidy scope → m.Apt scope w →
      I w past → I (w.perform m) (past ++ [⟨w.session, m⟩]))
    {start s : Session} (tidy : start.Tidy scope) (before : I start.idle []) {acts : List Act}
    (within : ∀ a ∈ acts, a.Within scope) (ok : start.run acts = .ok s) {k : Nat} {m : Moment}
    (at_k : (start.course acts)[k]? = some m) :
    ∃ w, w.session = m.session ∧ I w ((start.course acts).take k) := by
  refine (run_induction (I := fun w past => I w past ∧ ∀ (k : Nat) (m : Moment),
    past[k]? = some m → ∃ w', w'.session = m.session ∧ I w' (past.take k)) ?_ tidy
    ⟨before, by simp⟩ within ok).1.2 k m at_k
  rintro w past m tidy apt ⟨now, earlier⟩
  refine ⟨step w past m tidy apt now, fun k m' at_k => ?_⟩
  have bound : k < (past ++ [(⟨w.session, m⟩ : Moment)]).length :=
    (List.getElem?_eq_some_iff.mp at_k).1
  rw [List.length_append, List.length_singleton] at bound
  -- The last moment is the one that is added; before the others nothing changes.
  rcases Nat.lt_succ_iff_lt_or_eq.mp bound with inside | rfl
  · rw [List.getElem?_append_left inside] at at_k
    rw [List.take_append_of_le_length (Nat.le_of_lt inside)]
    exact earlier k m' at_k
  · have this_one : m' = ⟨w.session, m⟩ := by simpa using at_k.symm
    subst this_one
    exact ⟨w, rfl, by simpa using now⟩

/-- What holds of a session before a run and is kept by every apt move holds at all its moments, and
after it. -/
theorem moments_induction {P : Session → Prop}
    (step : ∀ (w : Work) (m : Move), w.session.Tidy scope → m.Apt scope w → P w.session →
      P (w.perform m).session)
    {start s : Session} (tidy : start.Tidy scope) (before : P start) {acts : List Act}
    (within : ∀ a ∈ acts, a.Within scope) (ok : start.run acts = .ok s) :
    (∀ m ∈ start.course acts, P m.session) ∧ P s := by
  refine ((run_induction (I := fun w past => (∀ m ∈ past, P m.session) ∧ P w.session) ?_ tidy
    ⟨fun _ mem => absurd mem List.not_mem_nil, before⟩ within ok).1)
  rintro w past m tidy apt ⟨early, now⟩
  refine ⟨fun k mem => ?_, step w m tidy apt now⟩
  rcases List.mem_append.mp mem with earlier | last
  · exact early k earlier
  · cases List.mem_singleton.mp last
    exact now

end Session

end Replica
