import Replica.Proofs.Course.Carries

/-! # Runs inside an open section

What an open section holds back has no influence on the acts inside it. An act is either held back,
and then it changes the burst alone, or it takes effect at once and leaves the burst alone. So the
burst of a section can be read off its acts, and the rest of the session off those that are not held
back.

Main definitions:
* `Session.holding` — a session with another section.
* `Act.nest`, `nesting` — how many sections are open inside a section.
* `Act.isImmediate` — an act that no section holds back.
* `Burst.after`, `heldBack` — the burst that some acts leave.
* `Session.run_holding` — a run inside an open section does not depend on the burst.
* `Session.section_run` — a whole section is a run inside it and the burst carried out. -/

namespace Replica

/-! ## The burst of some acts -/

/-- How many sections are open after an act inside an open section, besides that section; nothing if
the act closes it. -/
def Act.nest (depth : Nat) : Act → Option Nat
  | .receive (.criticalSection true) => some (depth + 1)
  | .receive (.criticalSection false) =>
    match depth with
    | 0 => none
    | depth + 1 => some depth
  | _ => some depth

/-- How many sections are open after some acts inside an open section, besides that section; nothing
if one of them closes it. -/
def nesting (acts : List Act) : Option Nat := acts.foldlM Act.nest 0

/-- Whether an act is **immediate**: it opens and closes no section, and no section holds it
back. -/
def Act.isImmediate : Act → Bool
  | .receive (.criticalSection _) | .receive (.addEntity _) | .receive (.removeEntity _)
  | .receive (.addComponent _ _) | .receive (.authorityChange _ _ _) | .announce _ => false
  | _ => true

/-- The burst after an act inside an open section. -/
def Burst.after (holdArrivals : Bool) (b : Burst) : Act → Burst
  | .receive operation => b.keep operation
  | .announce arrival => if holdArrivals then b.announce arrival else b
  | _ => b

/-- The burst that some acts leave in a section that has held nothing back before. -/
def heldBack (holdArrivals : Bool) (acts : List Act) : Burst := acts.foldl (·.after holdArrivals) {}

/-- Acts that follow others add to the burst that those leave. -/
theorem heldBack_append (holdArrivals : Bool) (before late : List Act) :
    heldBack holdArrivals (before ++ late) =
      late.foldl (·.after holdArrivals) (heldBack holdArrivals before) :=
  List.foldl_append

namespace Session

/-! ## Steps that look at neither the section nor the drafts -/

section Aside

/-- The session with its section and its drafts changed by `f` and `g`. -/
def aside (f : Section → Section) (g : Drafts → Drafts) (s : Session) : Session :=
  { s with held := f s.held, drafts := g s.drafts }

variable (f : Section → Section) (g : Drafts → Drafts) (s : Session)

@[simp] theorem aside_protocol : (s.aside f g).protocol = s.protocol := rfl
@[simp] theorem aside_channels : (s.aside f g).channels = s.channels := rfl
@[simp] theorem aside_directory : (s.aside f g).directory = s.directory := rfl
@[simp] theorem aside_waitlist : (s.aside f g).waitlist = s.waitlist := rfl
@[simp] theorem aside_world : (s.aside f g).world = s.world := rfl
@[simp] theorem aside_resolver : (s.aside f g).resolver = s.resolver := rfl

@[simp] theorem target_aside (entity : EntityId) (component : ComponentId) :
    (s.aside f g).target entity component = s.target entity component := rfl

/-- Whether an outcome is accepted does not depend on the section or the drafts. -/
theorem accept_aside (outcome : Except RoutingError Session) :
    (s.aside f g).accept (outcome.map (aside f g)) = (s.accept outcome).aside f g := by
  cases outcome <;> rfl

/-- A call runs on the world alone. -/
theorem execute_aside (target : Handle) (invocation : Invocation) :
    (s.aside f g).execute target invocation = (s.execute target invocation).aside f g := by
  simp only [execute, aside_world, aside_resolver]
  split <;> rfl

/-- A call is executed or parked whatever the section and the drafts are. -/
theorem dispatch_aside (target : Handle) (entity : EntityId) (component : ComponentId)
    (incoming : Incoming) :
    (s.aside f g).dispatch target entity component incoming =
      (s.dispatch target entity component incoming).aside f g := by
  unfold dispatch
  split
  · exact execute_aside f g s _ _
  · rfl

/-- The calls that are ready run whatever the section and the drafts are. -/
theorem dispatchReady_aside : (s.aside f g).dispatchReady = s.dispatchReady.aside f g := by
  have along (ready : List ParkedCall) (s : Session) :
      ready.foldl (fun s call => s.execute call.target call.invocation) (s.aside f g) =
        (ready.foldl (fun s call => s.execute call.target call.invocation) s).aside f g :=
    List.foldl_hom (aside f g) fun s call => execute_aside f g s call.target call.invocation
  exact along s.calls.drain.1 { s with calls := s.calls.drain.2 }

/-- A payload is written whatever the section and the drafts are. -/
theorem applyToLive_aside (entity : EntityId) (component : ComponentId) (payload : Bytes) :
    (s.aside f g).applyToLive entity component payload =
      (s.applyToLive entity component payload).map (aside f g) := by
  simp only [applyToLive, target_aside, aside_world, aside_waitlist, aside_resolver]
  cases s.target entity component with
  | error error => rfl
  | ok result =>
    obtain ⟨b, subscriber⟩ := result
    simp only [bind, Except.bind]
    cases b.role with
    | spawn | data | handover =>
      dsimp only
      cases Update.apply s.world s.waitlist s.resolver subscriber _ component payload <;> rfl
    | multicast =>
      dsimp only
      cases s.world.readMulticast s.resolver subscriber.object component payload with
      | error error => rfl
      | ok calls =>
        exact congrArg Except.ok (List.foldl_hom (aside f g)
          fun s => dispatch_aside f g s subscriber.object entity component)
    | command => rfl

/-- An arrival is replayed whatever the section and the drafts are. -/
theorem resolveNow_aside (arrival : Arrival) :
    (s.aside f g).resolveNow arrival = (s.resolveNow arrival).aside f g := by
  -- Both sides fill the same fields and count the same calls off; what is left is to run those
  -- that have become ready.
  let resolution := Update.resolve s.world s.waitlist s.resolver arrival.reference arrival.object
  let counted : Session := { s with
    world := resolution.world, waitlist := resolution.waitlist
    events := s.events ++ resolution.complete.map .referencesResolved
    calls := (s.calls.resolve arrival.reference).2 }
  show (if (s.calls.resolve arrival.reference).1 = 0 then counted.aside f g
      else (counted.aside f g).dispatchReady) =
    (if (s.calls.resolve arrival.reference).1 = 0 then counted else counted.dispatchReady).aside f g
  rw [dispatchReady_aside]
  split <;> rfl

/-- A new object is populated whatever the section and the drafts are. -/
theorem populate_aside (channel : Channel) (data : ComponentData) :
    populate channel (s.aside f g) data = (populate channel s data).aside f g := by
  simp only [populate, aside_protocol, aside_world, aside_waitlist, aside_resolver]
  split
  · rfl
  · split
    · rfl
    · split
      · rfl
      · split <;> rfl

/-- An object is founded whatever the section and the other drafts are. -/
theorem found_aside (draft : Draft) :
    (s.aside f g).found draft = ((s.found draft).1, (s.found draft).2.aside f g) := by
  simp only [found, aside_world, aside_channels, aside_directory]
  split
  · rfl
  · split
    · rfl
    · split <;> rfl

/-- Authority over an entity without a channel changes its draft. -/
theorem changeAuthority_aside {change : AuthorityChange}
    (same : g (s.drafts.addAuthority change.entity change.component change.authority) =
      (g s.drafts).addAuthority change.entity change.component change.authority) :
    (s.aside f g).changeAuthority change = (s.changeAuthority change).aside f g := by
  simp only [changeAuthority, aside_channels]
  split
  · rfl
  · simp only [aside, same]

/-- An entity is built with its drafts changed alike, if the change commutes with holding authority
back. -/
theorem construct_aside {draft : Draft} (same : ∀ (ds : Drafts) (change : AuthorityChange),
    g (ds.addAuthority change.entity change.component change.authority) =
      (g ds).addAuthority change.entity change.component change.authority) :
    (s.aside f g).construct draft = (s.construct draft).aside f g := by
  rw [construct_eq, found_aside, construct_eq]
  cases s.found draft with
  | mk built s₁ =>
    cases built with
    | none => rfl
    | some channel =>
      dsimp only
      -- The phases follow each other: components, completion, authority, replays.
      rw [List.foldl_hom (aside f g) fun s => populate_aside f g s channel]
      rw [show ((draft.components.foldl (populate channel) s₁).aside f g).complete channel =
        ((draft.components.foldl (populate channel) s₁).complete channel).aside f g from rfl]
      rw [List.foldl_hom (aside f g) fun s change => changeAuthority_aside f g s (same _ change),
        List.foldl_hom (aside f g) (resolveNow_aside f g)]

end Aside

/-! ## Sessions with another section -/

/-- The session with another section. -/
def holding (s : Session) (held : Section) : Session := { s with held }

section Projections

variable (s : Session) (held : Section)

@[simp] theorem holding_settings : (s.holding held).settings = s.settings := rfl
@[simp] theorem holding_protocol : (s.holding held).protocol = s.protocol := rfl
@[simp] theorem holding_held : (s.holding held).held = held := rfl
@[simp] theorem holding_drafts : (s.holding held).drafts = s.drafts := rfl
@[simp] theorem holding_channels : (s.holding held).channels = s.channels := rfl
@[simp] theorem holding_directory : (s.holding held).directory = s.directory := rfl
@[simp] theorem holding_waitlist : (s.holding held).waitlist = s.waitlist := rfl
@[simp] theorem holding_calls : (s.holding held).calls = s.calls := rfl
@[simp] theorem holding_requests : (s.holding held).requests = s.requests := rfl
@[simp] theorem holding_world : (s.holding held).world = s.world := rfl
@[simp] theorem holding_resolver : (s.holding held).resolver = s.resolver := rfl
@[simp] theorem holding_self : s.holding s.held = s := rfl
@[simp] theorem holding_holding (held' : Section) :
    (s.holding held).holding held' = s.holding held' := rfl

@[simp] theorem binding_holding (component : ComponentId) :
    (s.holding held).binding component = s.binding component := rfl

@[simp] theorem target_holding (entity : EntityId) (component : ComponentId) :
    (s.holding held).target entity component = s.target entity component := rfl

end Projections

/-- Steps that do not depend on the section do not do so one after the other. -/
theorem foldl_holding {α : Type} {f : Session → α → Session}
    (each : ∀ (s : Session) (held : Section) (a : α), f (s.holding held) a = (f s a).holding held)
    (s : Session) (held : Section) (as : List α) :
    as.foldl f (s.holding held) = (as.foldl f s).holding held := by
  induction as generalizing s with
  | nil => rfl
  | cons a as ih => rw [List.foldl_cons, each, ih, List.foldl_cons]

section Steps

variable (s : Session) (held : Section)

/-- An outcome is accepted whatever the section is. -/
theorem accept_holding (outcome : Except RoutingError Session) :
    (s.holding held).accept (outcome.map (·.holding held)) = (s.accept outcome).holding held :=
  accept_aside (fun _ => held) id s outcome

/-- A payload is written whatever the section is. -/
theorem applyToLive_holding (entity : EntityId) (component : ComponentId) (payload : Bytes) :
    (s.holding held).applyToLive entity component payload =
      (s.applyToLive entity component payload).map (·.holding held) :=
  applyToLive_aside (fun _ => held) id s entity component payload

/-- A call is executed or parked whatever the section is. -/
theorem dispatch_holding (target : Handle) (entity : EntityId) (component : ComponentId)
    (incoming : Incoming) :
    (s.holding held).dispatch target entity component incoming =
      (s.dispatch target entity component incoming).holding held :=
  dispatch_aside (fun _ => held) id s target entity component incoming

/-- An update is tried whatever the section is. -/
theorem tryUpdate_holding (entity : EntityId) (update : ComponentData) :
    (s.holding held).tryUpdate entity update =
      (s.tryUpdate entity update).map (·.holding held) := by
  by_cases drafted : s.drafts.contains entity = true
  · simp only [tryUpdate, holding_drafts, binding_holding, drafted, if_true]
    cases s.binding update.component with
    | error error => rfl
    | ok b =>
      simp only [bind, Except.bind]
      cases b.role.carriesProperties <;> rfl
  · simp only [tryUpdate, holding_drafts, drafted, Bool.false_eq_true, if_false]
    exact applyToLive_holding s held entity _ _

/-- An update that was received takes effect at once, section or not. -/
theorem update_holding (entity : EntityId) (update : ComponentData) :
    (s.holding held).update entity update = (s.update entity update).holding held := by
  rw [Session.update, tryUpdate_holding, accept_holding, Session.update]

/-- A command is tried whatever the section is. -/
theorem tryCommand_holding (entity : EntityId) (request : CommandRequest) :
    (s.holding held).tryCommand entity request =
      (s.tryCommand entity request).map (·.holding held) := by
  simp only [tryCommand, target_holding, holding_world, holding_resolver]
  cases s.target entity request.component with
  | error error => rfl
  | ok result =>
    obtain ⟨b, subscriber⟩ := result
    simp only [bind, Except.bind]
    cases s.world.readCommand s.resolver subscriber.object request.component request.command
      request.payload with
    | error error => rfl
    | ok incoming => exact congrArg Except.ok (dispatch_holding s held _ _ _ incoming)

/-- A command that was received takes effect at once, section or not. -/
theorem tryCommand_accept (entity : EntityId) (request : CommandRequest) :
    (s.holding held).accept ((s.holding held).tryCommand entity request) =
      (s.accept (s.tryCommand entity request)).holding held := by
  rw [tryCommand_holding, accept_holding]

/-- An arrival is replayed whatever the section is. -/
theorem resolveNow_holding (arrival : Arrival) :
    (s.holding held).resolveNow arrival = (s.resolveNow arrival).holding held :=
  resolveNow_aside (fun _ => held) id s arrival

/-- An arrival inside an open section is held back or goes on, as the settings say. -/
theorem announce_of_isOpen {held : Section} (isOpen : held.isOpen = true) (arrival : Arrival) :
    (s.holding held).announce arrival =
      if s.settings.holdArrivals then
        { s with directory := s.directory.register arrival.reference arrival.object }.holding
          (held.hold (·.announce arrival))
      else
        ({ s with
          directory := s.directory.register arrival.reference arrival.object }.resolveNow
            arrival).holding held := by
  rw [← resolveNow_holding]
  show (if held.isOpen && s.settings.holdArrivals then _ else _) = _
  rw [isOpen, Bool.true_and]
  rfl

/-- An arrival that is announced inside a section is held back, or replayed at once if arrivals are
not held. -/
theorem announce_holding (own b : Burst) {depth : Nat} (arrival : Arrival) :
    (s.holding ⟨depth + 1, b⟩).announce arrival =
      ((s.holding ⟨depth + 1, own⟩).announce arrival).holding
        ⟨depth + 1, b.after s.settings.holdArrivals (.announce arrival)⟩ := by
  rw [announce_of_isOpen s rfl, announce_of_isOpen s rfl]
  unfold Burst.after
  dsimp only
  split <;> rfl

/-- A change of authority takes effect whatever the section is. -/
theorem changeAuthority_holding (change : AuthorityChange) :
    (s.holding held).changeAuthority change = (s.changeAuthority change).holding held :=
  changeAuthority_aside (fun _ => held) id s rfl

/-- An entity is built whatever the section is. -/
theorem construct_holding (draft : Draft) :
    (s.holding held).construct draft = (s.construct draft).holding held :=
  construct_aside (fun _ => held) id s fun _ _ => rfl

/-- A draft that is ready is built whatever the section is. -/
theorem constructReady_holding (entity : EntityId) :
    (s.holding held).constructReady entity = (s.constructReady entity).holding held := by
  simp only [constructReady, holding_drafts]
  cases s.drafts.takeReady entity with
  | none => rfl
  | some taken => exact construct_holding { s with drafts := taken.2 } held taken.1

/-- A draft is taken further whatever the section is. -/
theorem advance_holding (entity : EntityId) :
    (s.holding held).advance entity = (s.advance entity).holding held := by
  simp only [advance, holding_drafts]
  split
  · rfl
  · split
    · rfl
    · exact constructReady_holding s held entity
    · split
      · exact constructReady_holding { s with drafts := s.drafts.setSpawn entity _ } held entity
      · rfl
      · rfl

/-- A container is loaded whatever the section is. -/
theorem load_holding (c : Container) : (s.holding held).load c = (s.load c).holding held :=
  foldl_holding advance_holding { s with drafts := (s.drafts.load c).2 } held _

/-- A request is registered whatever the section is. -/
theorem await_holding (registration : Registration) :
    (s.holding held).await registration = (s.await registration).holding held := by
  cases registration with
  | creation id a =>
    simp only [await, awaitCreation, withRequests, holding_requests]
    cases s.requests.constructions.register id a <;> rfl
  | reservation id a =>
    simp only [await, awaitReservation, withRequests, holding_requests]
    cases s.requests.reservations.register id a <;> rfl
  | query id a =>
    simp only [await, awaitQuery, withRequests, holding_requests]
    cases s.requests.queries.register id a <;> rfl
  | command id command =>
    simp only [await, awaitCommand, withRequests, holding_requests]
    cases s.requests.commands.register id command <;> rfl

/-- An answer is delivered whatever the section is. -/
theorem deliver_holding (a : Option Awaiting) (answer : Answer) :
    (s.holding held).deliver a answer = (s.deliver a answer).holding held := by
  cases a with
  | none => rfl
  | some a =>
    show (if a.owner.all s.world.isAlive then
        { s with deliveries := s.deliveries ++ a.continuation.deliver answer }.holding held
      else s.holding held) = (s.deliver (some a) answer).holding held
    unfold deliver
    dsimp only
    split <;> rfl

/-- The response to a creation is handled whatever the section is. -/
theorem createResponse_holding (id : RequestId) (result : Except Failure EntityId) :
    (s.holding held).createResponse id result = (s.createResponse id result).holding held :=
  deliver_holding { s with requests.constructions := s.requests.constructions.erase id } held _ _

/-- The response to a reservation is handled whatever the section is. -/
theorem reserveResponse_holding (id : RequestId) (result : Except Failure IdBlock) :
    (s.holding held).reserveResponse id result = (s.reserveResponse id result).holding held :=
  deliver_holding { s with requests.reservations := s.requests.reservations.erase id } held _ _

/-- The response to a query is handled whatever the section is. -/
theorem queryResponse_holding (id : RequestId) (result : Except Failure (List QueriedEntity)) :
    (s.holding held).queryResponse id result = (s.queryResponse id result).holding held :=
  deliver_holding { s with requests.queries := s.requests.queries.erase id } held _ _

/-- The response to a command is handled whatever the section is. -/
theorem commandResponse_holding (id : RequestId) (result : Except Failure Bytes) :
    (s.holding held).commandResponse id result =
      (s.commandResponse id result).map (·.holding held) := by
  let done : Session := { s with requests.commands := s.requests.commands.erase id }
  unfold commandResponse
  dsimp only [holding_requests]
  cases s.requests.commands.get? id with
  | none => rfl
  | some command =>
    cases result with
    | ok payload => rfl
    | error failure =>
      show (if s.world.isAlive command.target && command.attempts < s.settings.maxAttempts then do
          let delay ← s.settings.retryDelay command.attempts
          return (done.holding held).report
            [.retryCommand { command with attempts := command.attempts + 1 } delay]
        else .ok (done.holding held)) = _
      dsimp only
      split
      · cases s.settings.retryDelay command.attempts <;> rfl
      · rfl

/-- A draft is begun whatever the section is. -/
theorem begin_holding (touched : List EntityId) (entity : EntityId) :
    begin (s.holding held, touched) entity =
      ((begin (s, touched) entity).1.holding held, (begin (s, touched) entity).2) := by
  unfold begin
  show (if s.channels.contains entity then (s.holding held, touched)
    else ({ s with drafts := s.drafts.begin entity }.holding held, touch touched entity)) = _
  dsimp only
  split <;> rfl

/-- A component is routed whatever the section is. -/
theorem route_holding (touched : List EntityId) (added : AddedComponent) :
    route (s.holding held, touched) added =
      ((route (s, touched) added).1.holding held, (route (s, touched) added).2) := by
  unfold route
  dsimp only
  rw [applyToLive_holding, accept_holding]
  show (if s.drafts.contains added.entity then
      ({ s with drafts := s.drafts.addComponent added.entity added.data }.holding held,
        touch touched added.entity)
    else _) = _
  split <;> rfl

/-- An entity is removed whatever the section is. -/
theorem remove_holding (entity : EntityId) :
    (s.holding held).remove entity = (s.remove entity).holding held := by
  unfold remove
  show (if s.drafts.contains entity then
      { s with drafts := s.drafts.remove entity }.holding held
    else _) = _
  split
  · rfl
  · dsimp only [holding_channels]
    split <;> rfl

end Steps

/-- Steps that work on more than a session, and do not depend on the section. -/
theorem foldl_holding_touched {α : Type}
    {f : Session × List EntityId → α → Session × List EntityId} {held : Section}
    (each : ∀ (s : Session) (touched : List EntityId) (a : α),
      f (s.holding held, touched) a = ((f (s, touched) a).1.holding held, (f (s, touched) a).2))
    (s : Session) (touched : List EntityId) (as : List α) :
    as.foldl f (s.holding held, touched) =
      ((as.foldl f (s, touched)).1.holding held, (as.foldl f (s, touched)).2) := by
  induction as generalizing s touched with
  | nil => rfl
  | cons a as ih => rw [List.foldl_cons, each, ih, List.foldl_cons]

/-- Carrying a burst out does not depend on the section. -/
theorem drain_holding (s : Session) (held : Section) (b : Burst) :
    (s.holding held).drain b = (s.drain b).holding held := by
  unfold drain
  dsimp only
  rw [foldl_holding remove_holding,
    foldl_holding_touched (fun s touched => begin_holding s held touched),
    foldl_holding_touched (fun s touched => route_holding s held touched),
    foldl_holding advance_holding, foldl_holding changeAuthority_holding,
    foldl_holding resolveNow_holding]

/-! ## Acts inside an open section -/

/-- A move changes neither the settings nor the bindings. -/
theorem setup_perform (w : Work) (m : Move) :
    (w.perform m).session.settings = w.session.settings ∧
      (w.perform m).session.protocol = w.session.protocol := by
  have of_routine {s' : Session} (routine : w.session.Routine s') :
      s'.settings = w.session.settings ∧ s'.protocol = w.session.protocol :=
    ⟨routine.settings, routine.protocol⟩
  cases m with
  | mark opens =>
    obtain ⟨held, same⟩ := w.exists_perform_mark opens
    rw [same]
    exact ⟨rfl, rfl⟩
  | hold _ | draft _ | settle _ _ _ | alter _ | complete _ => exact ⟨rfl, rfl⟩
  | learn arrival =>
    obtain ⟨held, same⟩ := w.exists_perform_learn arrival
    rw [same]
    exact ⟨rfl, rfl⟩
  | found draft =>
    obtain ⟨_, _, _, same⟩ := w.exists_perform_found draft
    rw [same]
    exact ⟨rfl, rfl⟩
  | populate channel data => exact of_routine (writes_populate channel _ data).routine
  | authorize change =>
    simp only [Work.perform, changeAuthority]
    split <;> exact ⟨rfl, rfl⟩
  | write entity data => exact of_routine (writes_write _ entity data).routine
  | deliver call => exact of_routine (routine_deliverCall _ call)
  | replay arrival => exact of_routine (routine_resolveNow _ arrival)
  | remove entity =>
    rw [Work.perform]
    rcases w.session.remove_cases entity with ⟨-, same⟩ | ⟨-, same⟩ | ⟨channel, -, same⟩
    · rw [same]
      exact ⟨rfl, rfl⟩
    · rw [same]
      exact ⟨rfl, rfl⟩
    · rw [same]
      exact ⟨rfl, rfl⟩

/-- An act changes neither the settings nor the bindings. -/
theorem setup_of_act {s s₁ : Session} (tidy : s.Tidy .all) {a : Act} (ok : s.act a = .ok s₁) :
    s₁.settings = s.settings ∧ s₁.protocol = s.protocol := by
  have along : ∀ {w w₁ : Work} {ms : List Move}, Carries .all w ms w₁ →
      w₁.session.settings = w.session.settings ∧ w₁.session.protocol = w.session.protocol := by
    intro w w₁ ms carried
    induction carried with
    | nil w => exact ⟨rfl, rfl⟩
    | cons _ _ ih =>
      obtain ⟨settings, protocol⟩ := setup_perform _ _
      exact ⟨ih.1.trans settings, ih.2.trans protocol⟩
  exact along (carries_act tidy a.within_all ok)

/-- An act keeps a session tidy. -/
theorem tidy_of_act {s s₁ : Session} (tidy : s.Tidy .all) {a : Act} (ok : s.act a = .ok s₁) :
    s₁.Tidy .all :=
  (carries_act tidy a.within_all ok).tidy tidy

/-- An act that is **immediate** does not look at the section. -/
theorem act_of_isImmediate (s : Session) (held : Section) {a : Act} (immediate : a.isImmediate) :
    (s.holding held).act a = (s.act a).map (·.holding held) := by
  cases a with
  | receive operation =>
    cases operation with
    | criticalSection _ | addEntity _ | removeEntity _ | addComponent _ _ | authorityChange _ _ _ =>
      cases immediate
    | componentUpdate entity update =>
      exact congrArg Except.ok (update_holding s held entity update)
    | commandRequest request entity command =>
      exact congrArg (fun t : Session => Except.ok (t.report _))
        (tryCommand_accept s held entity command)
    | commandResponse request result => exact commandResponse_holding s held request result
    | reserveResponse request result =>
      exact congrArg Except.ok (reserveResponse_holding s held request result)
    | createResponse request result =>
      exact congrArg Except.ok (createResponse_holding s held request result)
    | queryResponse request result =>
      exact congrArg Except.ok (queryResponse_holding s held request result)
  | tryUpdate entity update => exact congrArg Except.ok (update_holding s held entity update)
  | tryCommand entity request => exact congrArg Except.ok (tryCommand_accept s held entity request)
  | load container => exact congrArg Except.ok (load_holding s held container)
  | announce arrival => cases immediate
  | register registration => exact congrArg Except.ok (await_holding s held registration)
  | unload _ | takeEvents | alter _ => rfl

/-- An immediate act changes neither the section nor its burst. -/
theorem nest_of_isImmediate {a : Act} (immediate : a.isImmediate) (depth : Nat) :
    a.nest depth = some depth ∧
      ∀ (holdArrivals : Bool) (b : Burst), b.after holdArrivals a = b := by
  cases a with
  | receive operation =>
    cases operation with
    | criticalSection _ | addEntity _ | removeEntity _ | addComponent _ _ | authorityChange _ _ _ =>
      cases immediate
    | _ => exact ⟨rfl, fun _ _ => rfl⟩
  | announce arrival => cases immediate
  | _ => exact ⟨rfl, fun _ _ => rfl⟩

section Open

variable {s : Session} {depth : Nat}

/-- **An act inside an open section** does not depend on the burst: the burst is what the act makes
of it, and the rest is what the act does beside another burst. -/
theorem act_holding (isOpen : s.held.depth = depth + 1) {a : Act} {depth' : Nat}
    (nest : a.nest depth = some depth') (b : Burst) :
    (s.holding ⟨depth + 1, b⟩).act a =
      (s.act a).map (·.holding ⟨depth' + 1, b.after s.settings.holdArrivals a⟩) := by
  by_cases immediate : a.isImmediate = true
  · obtain ⟨same, kept⟩ := nest_of_isImmediate immediate depth
    cases same.symm.trans nest
    rw [kept, act_of_isImmediate s _ immediate]
  -- The session that is compared with has its own burst in the same section.
  obtain ⟨s, own, rfl⟩ : ∃ t own, s = holding t ⟨depth + 1, own⟩ :=
    ⟨s, s.held.burst, by rw [← isOpen]; rfl⟩
  cases a with
  | receive operation =>
    cases operation with
    | criticalSection opens =>
      cases opens with
      | true =>
        cases nest
        rfl
      | false =>
        cases depth with
        | zero => cases nest
        | succ depth =>
          cases nest
          rfl
    | addEntity entity | removeEntity entity | addComponent entity data
    | authorityChange entity component authority =>
      cases nest
      rfl
    | _ => exact absurd rfl immediate
  | announce arrival =>
    cases nest
    exact congrArg Except.ok (announce_holding s own b arrival)
  | _ => exact absurd rfl immediate

/-- What an act inside an open section leaves in it. -/
theorem held_of_act (isOpen : s.held.depth = depth + 1) {a : Act} {depth' : Nat}
    (nest : a.nest depth = some depth') {s₁ : Session} (ok : s.act a = .ok s₁) :
    s₁.held = ⟨depth' + 1, s.held.burst.after s.settings.holdArrivals a⟩ := by
  have same := act_holding isOpen nest s.held.burst
  rw [← isOpen, holding_self, ok] at same
  exact congrArg Session.held (Except.ok.inj same)

/-- **A run inside an open section** does not depend on the burst. -/
theorem run_holding (tidy : s.Tidy .all) (isOpen : s.held.depth = depth + 1) {acts : List Act}
    {depth' : Nat} (nest : acts.foldlM Act.nest depth = some depth') (b : Burst) :
    (s.holding ⟨depth + 1, b⟩).run acts = (s.run acts).map
      (·.holding ⟨depth' + 1, acts.foldl (·.after s.settings.holdArrivals) b⟩) := by
  induction acts generalizing s depth b with
  | nil =>
    cases nest
    rfl
  | cons a acts ih =>
    obtain ⟨inner, first, rest⟩ := Option.bind_eq_some_iff.mp nest
    simp only [run, List.foldlM_cons, act_holding isOpen first b]
    cases step : s.act a with
    | error fault => rfl
    | ok s₁ =>
      have setup := setup_of_act tidy step
      have here := held_of_act isOpen first step
      have := ih (tidy_of_act tidy step) (by rw [here]) rest
        (b.after s.settings.holdArrivals a)
      rwa [setup.1] at this

/-- What a run inside an open section leaves in it. -/
theorem held_of_run (tidy : s.Tidy .all) (isOpen : s.held.depth = depth + 1) {acts : List Act}
    {depth' : Nat} (nest : acts.foldlM Act.nest depth = some depth') {s₁ : Session}
    (ok : s.run acts = .ok s₁) :
    s₁.held = ⟨depth' + 1, acts.foldl (·.after s.settings.holdArrivals) s.held.burst⟩ := by
  have same := run_holding tidy isOpen nest s.held.burst
  rw [← isOpen, holding_self, ok] at same
  exact congrArg Session.held (Except.ok.inj same)

end Open

/-! ## Whole sections -/

/-- Where no section is open, nothing is held back. -/
theorem Tidy.held_eq {scope : Scope} {s : Session} (tidy : s.Tidy scope)
    (shut : s.held.isOpen = false) : s.held = {} := by
  have none := tidy.closed shut
  generalize s.held = held at shut none
  obtain ⟨depth, burst⟩ := held
  cases depth with
  | zero => exact congrArg (Section.mk 0) none
  | succ depth => cases shut

/-- So it makes no difference to hold nothing back there. -/
theorem Tidy.holding_empty {scope : Scope} {s : Session} (tidy : s.Tidy scope)
    (shut : s.held.isOpen = false) : s.holding {} = s := by
  rw [← tidy.held_eq shut, holding_self]

/-- A run keeps a session tidy. -/
theorem Tidy.run {s s₁ : Session} (tidy : s.Tidy .all) {acts : List Act}
    (ok : s.run acts = .ok s₁) : s₁.Tidy .all :=
  (run_induction (I := fun _ _ => True) (fun _ _ _ _ _ _ => trivial) tidy trivial
    (fun a _ => a.within_all) ok).2

/-- Every run from the start ends in a tidy session. -/
theorem tidy_of_run {settings : Settings} {protocol : Protocol} {acts : List Act} {s : Session}
    (ok : (start settings protocol).run acts = .ok s) : s.Tidy .all :=
  (tidy_start settings protocol).run ok

/-- A section opens without holding anything back. -/
theorem act_enter {s : Session} (tidy : s.Tidy .all) (shut : s.held.isOpen = false) :
    s.act (.receive (.criticalSection true)) = .ok (s.holding ⟨1, {}⟩) := by
  show Except.ok (s.holding s.held.enter) = _
  rw [tidy.held_eq shut]
  rfl

/-- A list with one item behind it is cut at that item, or earlier. -/
theorem concat_eq_split {α : Type} {as before later : List α} {a b : α} :
    as ++ [a] = before ++ b :: later ↔ (later = [] ∧ as = before ∧ a = b) ∨
      ∃ rest, later = rest ++ [a] ∧ as = before ++ b :: rest := by
  constructor
  · intro split
    rcases List.eq_nil_or_concat later with rfl | ⟨rest, last, rfl⟩
    · obtain ⟨same, ends⟩ := List.append_inj' split rfl
      exact .inl ⟨rfl, same, List.singleton_inj.mp ends⟩
    · rw [List.concat_eq_append] at split ⊢
      rw [← List.cons_append, ← List.append_assoc] at split
      obtain ⟨same, ends⟩ := List.append_inj' split rfl
      cases List.singleton_inj.mp ends
      exact .inr ⟨rest, rfl, same⟩
  · rintro (⟨rfl, rfl, rfl⟩ | ⟨rest, rfl, rfl⟩)
    · rfl
    · simp

/-- A run goes on where a run before it has ended. -/
theorem run_append (s : Session) (acts later : List Act) :
    s.run (acts ++ later) = (s.run acts).bind (·.run later) :=
  List.foldlM_append

/-- A run is what its beginning leads to, and the run of the rest. -/
theorem run_append_eq_ok {s s' : Session} {acts later : List Act} :
    s.run (acts ++ later) = .ok s' ↔ ∃ s₁, s.run acts = .ok s₁ ∧ s₁.run later = .ok s' := by
  rw [run_append]
  cases s.run acts with
  | error fault => simp [Except.bind]
  | ok s₁ => simp [Except.bind]

/-- A run with one more act is a run and then the act. -/
theorem run_concat_eq_ok {s s' : Session} {acts : List Act} {a : Act} :
    s.run (acts ++ [a]) = .ok s' ↔ ∃ s₁, s.run acts = .ok s₁ ∧ s₁.act a = .ok s' := by
  simp only [run_append_eq_ok, run_cons]
  refine exists_congr fun s₁ => and_congr_right' ⟨?_, fun last => ⟨s', last, rfl⟩⟩
  rintro ⟨s₂, last, done⟩
  cases done
  exact last

/-- What two runs in a row end with can be computed. -/
theorem exists_runs (s : Session) (acts later : List Act) (test : Session → Session → Bool)
    (passes : (match s.run acts with
      | .ok s₁ =>
        match s₁.run later with
        | .ok s₂ => test s₁ s₂
        | .error _ => false
      | .error _ => false) = true) :
    ∃ s₁ s₂, s.run acts = .ok s₁ ∧ s₁.run later = .ok s₂ ∧ test s₁ s₂ = true := by
  split at passes
  · rename_i s₁ ok
    split at passes
    · rename_i s₂ ok'
      exact ⟨s₁, s₂, ok, ok', passes⟩
    · cases passes
  · cases passes

/-- **A whole section** is a run inside it, after which its burst is carried out. -/
theorem section_run {s : Session} (tidy : s.Tidy .all) (shut : s.held.isOpen = false)
    {body : List Act} (balanced : nesting body = some 0) :
    s.run (.receive (.criticalSection true) :: body ++ [.receive (.criticalSection false)]) =
      ((s.holding ⟨1, {}⟩).run body).map fun s₁ =>
        (s₁.holding {}).drain (heldBack s.settings.holdArrivals body) := by
  have entered := act_enter tidy shut
  have open_tidy := tidy_of_act tidy entered
  simp only [List.cons_append, run, List.foldlM_cons, entered, List.foldlM_append]
  show ((s.holding ⟨1, {}⟩).run body).bind _ = ((s.holding ⟨1, {}⟩).run body).map _
  cases ran : (s.holding ⟨1, {}⟩).run body with
  | error fault => rfl
  | ok s₁ =>
    -- The outermost section is the only one left, and it yields its burst.
    have here := held_of_run open_tidy rfl balanced ran
    show Except.ok (s₁.markSection false) = _
    unfold markSection
    rw [here]
    rfl

end Session

end Replica
