import Replica.Blueprint
import Replica.Proofs.Course.Carries
import Replica.Proofs.Graph.Fill

/-! # Refused operations

An update or a command can be refused at several steps: a binding, an entity or an object may be
missing, and bytes may turn out to be unreadable when much of a payload has been read. A session
works in place, so a refusal undoes nothing. The operations are spelt out here step by step, each
step free to change the session before a later one is refused, and it is shown that all that can be
refused comes first: an operation is carried out as a whole, or leaves the session as it is.

Main definitions:
* `Attempt` — a computation in place that may be refused and undoes nothing then.
* `Session.updateInPlace`, `Session.componentInPlace`, `Session.commandInPlace` — the operations,
  step by step.
* `Session.whole` — what comes of an operation that happens as a whole or not at all.
* `Session.RefusesUpdate`, `Session.RefusesCommand` — the reasons for which they are refused.
* `Session.refused_changes_nothing` — a refused operation changes nothing. -/

namespace Replica

/-! ## Attempts -/

/-- An **attempt** works on a session in place. It can be refused at every step, and what it has
changed by then stays changed. -/
abbrev Attempt (α : Type) := ExceptT RoutingError (StateM Session) α

namespace Attempt

variable {α β : Type}

/-- What comes of an attempt on a session: a result or a refusal, and the session that is left. -/
def on (x : Attempt α) (s : Session) : Except RoutingError α × Session := (x.run.run s).run

/-- Looks something up, which may be refused. -/
def look (f : Session → Except RoutingError α) : Attempt α :=
  ExceptT.mk fun s => pure (f s, s)

/-- Looks into a payload or at an object. -/
def read (f : Session → Except PayloadError α) : Attempt α :=
  look fun s => (f s).mapError .payload

/-- Changes the session. -/
def change (f : Session → Session) : Attempt Unit :=
  ExceptT.mk fun s => pure (.ok (), f s)

@[simp] theorem on_pure (a : α) (s : Session) : (pure a : Attempt α).on s = (.ok a, s) := rfl

@[simp] theorem on_throw (e : RoutingError) (s : Session) :
    (throw e : Attempt α).on s = (.error e, s) := rfl

@[simp] theorem on_look (f : Session → Except RoutingError α) (s : Session) :
    (look f).on s = (f s, s) := rfl

@[simp] theorem on_read (f : Session → Except PayloadError α) (s : Session) :
    (read f).on s = ((f s).mapError .payload, s) := rfl

@[simp] theorem on_change (f : Session → Session) (s : Session) :
    (change f).on s = (.ok (), f s) := rfl

/-- An attempt that is refused leaves what it has changed, whatever was to come. -/
theorem on_bind (x : Attempt α) (k : α → Attempt β) (s : Session) :
    (x >>= k).on s =
      match x.on s with
      | (.ok a, s') => (k a).on s'
      | (.error e, s') => (.error e, s') := by
  unfold on ExceptT.run StateT.run Id.run
  simp only [bind, ExceptT.bind, ExceptT.mk, StateT.bind, ExceptT.bindCont]
  cases x s with
  | mk result s' =>
    cases result with
    | ok a => rfl
    | error e => rfl

/-- Changes are never refused. -/
theorem on_changes (f : α → Session → Session) (as : List α) (s : Session) :
    (as.forM fun a => change (f a)).on s = (.ok (), as.foldl (fun s a => f a s) s) := by
  induction as generalizing s with
  | nil => rfl
  | cons a rest ih =>
    rw [List.forM_eq_forM, List.forM_cons, on_bind, on_change]
    exact ih (f a s)

end Attempt

/-! ## The operations in place -/

namespace Session

variable (s : Session) (entity : EntityId)

/-- Writes one field of an object. -/
def assign (h : Handle) (a : Assignment) : Session :=
  match s.world.objects[h]? with
  | some o => { s with world := s.world.putObject h (o.assign s.resolver a) }
  | none => s

/-- Brings the waitlist in line with assignments that were written, and announces the properties
that have settled. -/
def settle (t : Subscriber) (as : List Assignment) : Session :=
  let applied := as.foldl (Applied.note s.resolver) .nothing
  let parked := s.waitlist.parkedOf t
  { s with
    world := Update.announce s.world t.object (Update.settled parked applied)
    waitlist := s.waitlist.store t (Update.merge parked applied) }

/-- Writes a payload **in place**: it is read, the object is looked up, the fields are written one
after the other, and the waitlist is brought in line. Spawn data is only read. -/
def writeInPlace (t : Subscriber) (role : Role) (component : ComponentId) (payload : Bytes) :
    Attempt Unit := do
  if role = .spawn then
    let _ ← Attempt.read fun _ => (Wire.decodeSpawn payload).mapError fun flaw =>
      .malformedPayload Stock.spawnComponent flaw.message
    Attempt.change (·.settle t [])
  else
    let as ← Attempt.read fun _ => (Wire.decodeFields payload).mapError fun flaw =>
      .malformedPayload component flaw.message
    let _ ← Attempt.read (·.world.target t.object)
    as.forM fun a => Attempt.change (·.assign t.object a)
    Attempt.change (·.settle t as)

/-- Applies a component payload to a built entity **in place**. Calls are dispatched one after the
other, once all of them have been read. -/
def componentInPlace (component : ComponentId) (payload : Bytes) : Attempt Unit := do
  let (b, t) ← Attempt.look (·.target entity component)
  match b.role with
  | .spawn | .data | .handover => writeInPlace t b.role component payload
  | .multicast =>
    let calls ← Attempt.read fun s =>
      s.world.readMulticast s.resolver t.object component payload
    calls.forM fun call => Attempt.change (·.dispatch t.object entity component call)
  | .command => pure ()

/-- Applies an update **in place**. -/
def updateInPlace (update : ComponentData) : Attempt Unit := do
  if ← Attempt.look fun s => .ok (s.drafts.contains entity) then
    let b ← Attempt.look (·.binding update.component)
    if b.role.carriesProperties then
      Attempt.change fun s => { s with drafts := s.drafts.addComponent entity update }
    else throw (.unknownEntity entity)
  else componentInPlace entity update.component update.payload

/-- Serves a command request **in place**. -/
def commandInPlace (request : CommandRequest) : Attempt Unit := do
  let (_, t) ← Attempt.look (·.target entity request.component)
  let incoming ← Attempt.read fun s =>
    s.world.readCommand s.resolver t.object request.component request.command request.payload
  Attempt.change (·.dispatch t.object entity request.component incoming)

/-- What comes of an operation that happens as a **whole** or not at all. -/
def whole : Except RoutingError Session → Except RoutingError Unit × Session
  | .ok s' => (.ok (), s')
  | .error e => (.error e, s)

/-! ## All that can be refused comes first -/

variable {s entity}

/-- Writing fields one after the other writes all of them. -/
theorem foldl_assign {h : Handle} {o : Object} (stored : s.world.objects[h]? = some o)
    (as : List Assignment) :
    as.foldl (fun s a => s.assign h a) s =
      { s with world := s.world.putObject h (as.foldl (Object.assign s.resolver) o) } := by
  induction as generalizing s o with
  | nil =>
    rw [List.foldl_nil, List.foldl_nil, World.putObject, insert_of_getElem? stored]
  | cons a rest ih =>
    have first : s.assign h a =
        { s with world := s.world.putObject h (o.assign s.resolver a) } := by
      rw [assign, stored]
    rw [List.foldl_cons, List.foldl_cons, first, ih (o := o.assign s.resolver a)
      (by simp [World.putObject])]
    simp [World.putObject, insert_insert, resolver]

/-- A payload that is written in place is applied as a whole, or refused before anything is
written. -/
theorem on_writeInPlace (t : Subscriber) (role : Role) (component : ComponentId) (payload : Bytes)
    (s : Session) : (writeInPlace t role component payload).on s =
      s.whole (((Update.apply s.world s.waitlist s.resolver t role component payload).mapError
        .payload).map fun (world, waitlist) => { s with world, waitlist }) := by
  by_cases spawns : role = .spawn
  · rw [Update.apply, World.applyPayload, if_pos spawns, writeInPlace, if_pos spawns,
      Attempt.on_bind, Attempt.on_read]
    cases Wire.decodeSpawn payload with
    | error flaw => rfl
    | ok spawn => rfl
  · rw [Update.apply, World.applyPayload, if_neg spawns, writeInPlace, if_neg spawns,
      Attempt.on_bind, Attempt.on_read]
    cases Wire.decodeFields payload with
    | error flaw => rfl
    | ok as =>
      simp only [Except.mapError, Attempt.on_bind, Attempt.on_read, Attempt.on_changes,
        Attempt.on_change]
      cases found : s.world.target t.object with
      | error e => rfl
      | ok o =>
        dsimp only
        rw [foldl_assign (World.getElem?_of_target found)]
        rfl

/-- So is a component for a built entity. -/
theorem on_componentInPlace (entity : EntityId) (component : ComponentId) (payload : Bytes)
    (s : Session) : (componentInPlace entity component payload).on s =
      s.whole (s.applyToLive entity component payload) := by
  rw [componentInPlace, applyToLive, Attempt.on_bind, Attempt.on_look]
  cases s.target entity component with
  | error e => rfl
  | ok found =>
    obtain ⟨b, t⟩ := found
    simp only [bind, Except.bind]
    cases role : b.role with
    | spawn | data | handover =>
      refine (on_writeInPlace t _ component payload s).trans ?_
      cases Update.apply s.world s.waitlist s.resolver t _ component payload with
      | error e => rfl
      | ok written => rfl
    | multicast =>
      refine (Attempt.on_bind _ _ s).trans ?_
      rw [Attempt.on_read]
      cases s.world.readMulticast s.resolver t.object component payload with
      | error e => rfl
      | ok calls => exact Attempt.on_changes _ calls s
    | command => rfl

/-- So is an update. -/
theorem on_updateInPlace (entity : EntityId) (update : ComponentData) (s : Session) :
    (updateInPlace entity update).on s = s.whole (s.tryUpdate entity update) := by
  rw [updateInPlace, tryUpdate, Attempt.on_bind, Attempt.on_look]
  dsimp only
  split
  · rw [Attempt.on_bind, Attempt.on_look]
    cases s.binding update.component with
    | error e => rfl
    | ok b =>
      simp only [bind, Except.bind]
      split
      · rfl
      · rfl
  · exact on_componentInPlace entity update.component update.payload s

/-- So is a command request. -/
theorem on_commandInPlace (entity : EntityId) (request : CommandRequest) (s : Session) :
    (commandInPlace entity request).on s = s.whole (s.tryCommand entity request) := by
  rw [commandInPlace, tryCommand, Attempt.on_bind, Attempt.on_look]
  cases s.target entity request.component with
  | error e => rfl
  | ok found =>
    obtain ⟨b, t⟩ := found
    simp only [bind, Except.bind]
    refine (Attempt.on_bind _ _ s).trans ?_
    rw [Attempt.on_read]
    cases s.world.readCommand s.resolver t.object request.component request.command
        request.payload with
    | error e => rfl
    | ok incoming => rfl

/-! ## Reasons to refuse -/

/-- The reasons for which a component of an entity has **no target**: nothing is bound, the entity
is not built, it has no object in the place, or the object is gone. -/
inductive NoTarget (s : Session) (entity : EntityId) (component : ComponentId) :
    RoutingError → Prop where
  /-- Nothing is bound. -/
  | unbound (none : s.protocol.binding? component = none) :
    s.NoTarget entity component (.noBinding component)
  /-- The entity is not built. -/
  | unknown {b : Binding} (bound : s.protocol.binding? component = some b)
    (none : s.channels.get? entity = none) : s.NoTarget entity component (.unknownEntity entity)
  /-- No object of the entity stands in the place. -/
  | vacant {b : Binding} {c : Channel} (bound : s.protocol.binding? component = some b)
    (opened : s.channels.get? entity = some c) (none : c.objectAt? b.offset = none) :
    s.NoTarget entity component (.noTargetObject entity b.offset)
  /-- The object is gone. -/
  | destroyed {b : Binding} {c : Channel} {h : Handle}
    (bound : s.protocol.binding? component = some b) (opened : s.channels.get? entity = some c)
    (found : c.objectAt? b.offset = some h) (gone : s.world.isAlive h = false) :
    s.NoTarget entity component (.targetDestroyed entity)

/-- The reasons for which a payload is a **misfit** for an object: its bytes cannot be read,
wherever they are broken, or the object is not there to be written. -/
inductive Misfit (s : Session) (t : Subscriber) (role : Role) (component : ComponentId)
    (payload : Bytes) : PayloadError → Prop where
  /-- Spawn data that cannot be read. -/
  | spawn {flaw : Wire.Flaw} (spawns : role = .spawn)
    (unreadable : Wire.decodeSpawn payload = .error flaw) :
    s.Misfit t role component payload (.malformedPayload Stock.spawnComponent flaw.message)
  /-- Fields that cannot be read. -/
  | fields {flaw : Wire.Flaw} (writes : role = .data ∨ role = .handover)
    (unreadable : Wire.decodeFields payload = .error flaw) :
    s.Misfit t role component payload (.malformedPayload component flaw.message)
  /-- Fields for an object that is not there. -/
  | object {as : List Assignment} {e : PayloadError} (writes : role = .data ∨ role = .handover)
    (readable : Wire.decodeFields payload = .ok as) (gone : s.world.target t.object = .error e) :
    s.Misfit t role component payload e
  /-- Calls that cannot be read. -/
  | calls {flaw : Wire.Flaw} (calls : role = .multicast)
    (unreadable : Wire.decodeCalls payload = .error flaw) :
    s.Misfit t role component payload (.malformedPayload component flaw.message)

/-- The reasons for which a component for a built entity is refused. -/
inductive RefusesComponent (s : Session) (entity : EntityId) (data : ComponentData) :
    RoutingError → Prop where
  /-- It has no target. -/
  | target {e : RoutingError} (none : s.NoTarget entity data.component e) :
    s.RefusesComponent entity data e
  /-- Its payload is a misfit for the target. -/
  | payload {b : Binding} {t : Subscriber} {e : PayloadError}
    (found : s.target entity data.component = .ok (b, t))
    (misfit : s.Misfit t b.role data.component data.payload e) :
    s.RefusesComponent entity data (.payload e)

/-- The reasons for which an update is refused. A draft collects properties unread, and has no
object yet for anything else. -/
inductive RefusesUpdate (s : Session) (entity : EntityId) (data : ComponentData) :
    RoutingError → Prop where
  /-- Nothing is bound, for an entity that has a draft. -/
  | unbound (drafted : s.drafts.contains entity = true)
    (none : s.protocol.binding? data.component = none) :
    s.RefusesUpdate entity data (.noBinding data.component)
  /-- Calls for an entity that has a draft. -/
  | unbuilt {b : Binding} (drafted : s.drafts.contains entity = true)
    (bound : s.protocol.binding? data.component = some b)
    (calls : b.role.carriesProperties = false) : s.RefusesUpdate entity data (.unknownEntity entity)
  /-- A component for an entity without a draft is refused. -/
  | component {e : RoutingError} (undrafted : s.drafts.contains entity = false)
    (refused : s.RefusesComponent entity data e) : s.RefusesUpdate entity data e

/-- The reasons for which a command request is refused. -/
inductive RefusesCommand (s : Session) (entity : EntityId) (request : CommandRequest) :
    RoutingError → Prop where
  /-- It has no target. -/
  | target {e : RoutingError} (none : s.NoTarget entity request.component e) :
    s.RefusesCommand entity request e
  /-- No command has this number. -/
  | undeclared {found : Binding × Subscriber}
    (reached : s.target entity request.component = .ok found)
    (high : Stock.commandLimit ≤ request.command) :
    s.RefusesCommand entity request (.payload (.unknownCommand request.component request.command))
  /-- Its arguments cannot be read. -/
  | args {found : Binding × Subscriber} {flaw : Wire.Flaw}
    (reached : s.target entity request.component = .ok found)
    (declared : ¬Stock.commandLimit ≤ request.command)
    (unreadable : Wire.decodeArgs request.payload = .error flaw) :
    s.RefusesCommand entity request (.payload (.malformedPayload request.component flaw.message))

/-- A target is missing for just these reasons. -/
theorem target_eq_error {component : ComponentId} {e : RoutingError} :
    s.target entity component = .error e ↔ s.NoTarget entity component e := by
  constructor
  · intro refused
    simp only [target, binding, bind, Except.bind] at refused
    cases bound : s.protocol.binding? component with
    | none =>
      rw [bound] at refused
      cases refused
      exact .unbound bound
    | some b =>
      simp only [bound] at refused
      cases opened : s.channels.get? entity with
      | none =>
        rw [opened] at refused
        cases refused
        exact .unknown bound opened
      | some c =>
        simp only [opened] at refused
        cases found : c.objectAt? b.offset with
        | none =>
          rw [found] at refused
          cases refused
          exact .vacant bound opened found
        | some h =>
          simp only [found] at refused
          split at refused
          · cases refused
          · rename_i gone
            cases refused
            exact .destroyed bound opened found (Bool.eq_false_iff.mpr gone)
  · rintro (none | ⟨bound, none⟩ | ⟨bound, opened, none⟩ | ⟨bound, opened, found, gone⟩)
    · simp [target, binding, none, bind, Except.bind]
    · simp [target, binding, bound, none, bind, Except.bind, throw, throwThe, MonadExceptOf.throw]
    · simp [target, binding, bound, opened, none, bind, Except.bind, throw, throwThe,
        MonadExceptOf.throw]
    · simp [target, binding, bound, opened, found, gone, bind, Except.bind, throw, throwThe,
        MonadExceptOf.throw]

/-- A payload of properties is refused for just these reasons. -/
theorem apply_eq_error {t : Subscriber} {role : Role} {component : ComponentId} {payload : Bytes}
    (properties : role.carriesProperties = true) {e : PayloadError} :
    Update.apply s.world s.waitlist s.resolver t role component payload = .error e ↔
      s.Misfit t role component payload e := by
  constructor
  -- The reasons are met in the order in which they are checked.
  · intro refused
    rw [Update.apply, World.applyPayload] at refused
    by_cases spawns : role = .spawn
    · rw [if_pos spawns] at refused
      cases decoded : Wire.decodeSpawn payload with
      | error flaw =>
        rw [decoded] at refused
        cases refused
        exact .spawn spawns decoded
      | ok spawn =>
        rw [decoded] at refused
        cases refused
    · have writes : role = .data ∨ role = .handover := by
        cases role with
        | data => exact .inl rfl
        | handover => exact .inr rfl
        | spawn => exact absurd rfl spawns
        | multicast | command => cases properties
      rw [if_neg spawns] at refused
      cases decoded : Wire.decodeFields payload with
      | error flaw =>
        rw [decoded] at refused
        cases refused
        exact .fields writes decoded
      | ok as =>
        rw [decoded] at refused
        cases found : s.world.target t.object with
        | error e' =>
          simp only [found, bind, Except.bind] at refused
          cases refused
          exact .object writes decoded found
        | ok o =>
          simp only [found, bind, Except.bind, pure, Except.pure] at refused
          cases refused
  · rintro (⟨rfl, unreadable⟩ | ⟨rfl | rfl, unreadable⟩ | ⟨rfl | rfl, readable, gone⟩ |
      ⟨rfl, unreadable⟩)
    · rw [Update.apply, World.applyPayload, if_pos rfl, unreadable]
      rfl
    · rw [Update.apply, World.applyPayload, if_neg nofun, unreadable]
      rfl
    · rw [Update.apply, World.applyPayload, if_neg nofun, unreadable]
      rfl
    · rw [Update.apply, World.applyPayload, if_neg nofun, readable]
      simp only [gone, bind, Except.bind]
    · rw [Update.apply, World.applyPayload, if_neg nofun, readable]
      simp only [gone, bind, Except.bind]
    · cases properties

/-- Calls that reach a live object are refused just if their bytes cannot be read. -/
theorem readMulticast_eq_error {t : Subscriber} (alive : s.world.isAlive t.object = true)
    {component : ComponentId} {payload : Bytes} {e : PayloadError} :
    s.world.readMulticast s.resolver t.object component payload = .error e ↔
      s.Misfit t .multicast component payload e := by
  rw [World.readMulticast, if_neg (by rw [alive]; decide)]
  constructor
  · intro refused
    cases decoded : Wire.decodeCalls payload with
    | error flaw =>
      rw [decoded] at refused
      cases refused
      exact .calls rfl decoded
    | ok calls =>
      rw [decoded] at refused
      cases refused
  · rintro (⟨spawns, -⟩ | ⟨properties | properties, -⟩ | ⟨properties | properties, -, -⟩ |
      ⟨-, unreadable⟩)
    · cases spawns
    · cases properties
    · cases properties
    · cases properties
    · cases properties
    · rw [unreadable]

/-- A component for a built entity is refused for just these reasons. -/
theorem applyToLive_eq_error {data : ComponentData} {e : RoutingError} :
    s.applyToLive entity data.component data.payload = .error e ↔
      s.RefusesComponent entity data e := by
  rw [applyToLive]
  cases found : s.target entity data.component with
  | error e' =>
    constructor
    · intro refused
      cases refused
      exact .target (target_eq_error.mp found)
    · rintro (none | ⟨reached, -⟩)
      · rw [target_eq_error.mpr none] at found
        cases found
        rfl
      · cases reached.symm.trans found
  | ok reached =>
    obtain ⟨b, t⟩ := reached
    have alive := isAlive_of_target found
    -- The entity has a target, so only the payload can be at fault.
    have fault : s.RefusesComponent entity data e ↔
        ∃ x, e = .payload x ∧ s.Misfit t b.role data.component data.payload x := by
      constructor
      · rintro (none | ⟨reached, misfit⟩)
        · cases (target_eq_error.mpr none).symm.trans found
        · cases reached.symm.trans found
          exact ⟨_, rfl, misfit⟩
      · rintro ⟨x, rfl, misfit⟩
        exact .payload found misfit
    rw [fault]
    simp only [bind, Except.bind]
    cases role : b.role with
    | spawn | data | handover =>
      rw [← exists_congr fun x => and_congr_right' (apply_eq_error (by rfl))]
      cases Update.apply s.world s.waitlist s.resolver t _ data.component data.payload with
      | error x => simp [Except.mapError, eq_comm]
      | ok written => simp [Except.mapError, pure, Except.pure]
    | multicast =>
      rw [← exists_congr fun x => and_congr_right' (readMulticast_eq_error alive)]
      cases s.world.readMulticast s.resolver t.object data.component data.payload with
      | error x => simp [Except.mapError, eq_comm]
      | ok calls => simp [Except.mapError, pure, Except.pure]
    | command =>
      simp only [pure, Except.pure, reduceCtorEq, false_iff, not_exists, not_and]
      rintro x - (⟨spawns, -⟩ | ⟨writes | writes, -⟩ | ⟨writes | writes, -, -⟩ | ⟨calls, -⟩)
      · cases spawns
      · cases writes
      · cases writes
      · cases writes
      · cases writes
      · cases calls

/-- An update is refused for just these reasons. -/
theorem tryUpdate_eq_error {data : ComponentData} {e : RoutingError} :
    s.tryUpdate entity data = .error e ↔ s.RefusesUpdate entity data e := by
  rw [tryUpdate]
  cases drafted : s.drafts.contains entity with
  | false =>
    rw [if_neg (by decide), applyToLive_eq_error]
    constructor
    · exact .component drafted
    · rintro (⟨drafted', -⟩ | ⟨drafted', -, -⟩ | ⟨-, refused⟩)
      · cases drafted'.symm.trans drafted
      · cases drafted'.symm.trans drafted
      · exact refused
  | true =>
    rw [if_pos rfl]
    constructor
    · intro refused
      cases bound : s.protocol.binding? data.component with
      | none =>
        simp only [binding, bound, bind, Except.bind] at refused
        cases refused
        exact .unbound drafted bound
      | some b =>
        simp only [binding, bound, bind, Except.bind] at refused
        split at refused
        · cases refused
        · rename_i calls
          cases refused
          exact .unbuilt drafted bound (Bool.eq_false_iff.mpr calls)
    · rintro (⟨-, none⟩ | ⟨-, bound, calls⟩ | ⟨undrafted, -⟩)
      · simp [binding, none, bind, Except.bind]
      · simp [binding, bound, calls, bind, Except.bind, throw, throwThe, MonadExceptOf.throw]
      · cases undrafted.symm.trans drafted

/-- A command request is refused for just these reasons. -/
theorem tryCommand_eq_error {request : CommandRequest} {e : RoutingError} :
    s.tryCommand entity request = .error e ↔ s.RefusesCommand entity request e := by
  rw [tryCommand]
  constructor
  · intro refused
    cases found : s.target entity request.component with
    | error e' =>
      rw [found] at refused
      cases refused
      exact .target (target_eq_error.mp found)
    | ok reached =>
      obtain ⟨b, t⟩ := reached
      simp only [found, World.readCommand, isAlive_of_target found, bind, Except.bind,
        Bool.not_true, Bool.false_eq_true, if_false] at refused
      by_cases high : Stock.commandLimit ≤ request.command
      · rw [if_pos high] at refused
        cases refused
        exact .undeclared found high
      · rw [if_neg high] at refused
        cases decoded : Wire.decodeArgs request.payload with
        | error flaw =>
          rw [decoded] at refused
          cases refused
          exact .args found high decoded
        | ok args =>
          rw [decoded] at refused
          cases refused
  · rintro (none | ⟨reached, high⟩ | ⟨reached, declared, unreadable⟩)
    · rw [target_eq_error.mpr none]
      rfl
    · simp [reached, World.readCommand, isAlive_of_target reached, high, bind, Except.bind,
        Except.mapError]
    · simp [reached, World.readCommand, isAlive_of_target reached, declared, unreadable, bind,
        Except.bind, Except.mapError]

/-- A component that is added outside a section, for an entity that is no draft, is applied to what
is built. -/
theorem addComponent_eq (shut : s.held.isOpen = false)
    (undrafted : s.drafts.contains entity = false) (data : ComponentData) :
    s.addComponent ⟨entity, data⟩ =
      s.accept (s.applyToLive entity data.component data.payload) := by
  simp [addComponent, shut, route, undrafted]

/-- **A refused operation changes nothing**, in whatever session and for whatever entity, component,
command and bytes. Step by step and in place, an update, a command request and a component that is
added happen as a whole, or are refused and leave the session and its world exactly as they are.
They are refused just where something has no target or cannot be read: no field of a payload is
written and no call of a batch is executed or parked if its bytes are broken anywhere. A command
request that is refused is acknowledged, and that is all. -/
theorem refused_changes_nothing (s : Session) (entity : EntityId) :
    (∀ (data : ComponentData) (e : RoutingError),
      (s.tryUpdate entity data = .error e ↔ s.RefusesUpdate entity data e) ∧
      (s.tryUpdate entity data = .error e →
        (updateInPlace entity data).on s = (.error e, s) ∧ s.update entity data = s)) ∧
    (∀ (request : CommandRequest) (e : RoutingError),
      (s.tryCommand entity request = .error e ↔ s.RefusesCommand entity request e) ∧
      (s.tryCommand entity request = .error e →
        (commandInPlace entity request).on s = (.error e, s) ∧
        ∀ id, s.command id entity request =
          { s with events := s.events ++ [.sendCommandResponse id entity request.component] })) ∧
    (∀ (data : ComponentData) (e : RoutingError), s.held.isOpen = false →
      s.drafts.contains entity = false →
      (s.applyToLive entity data.component data.payload = .error e ↔
        s.RefusesComponent entity data e) ∧
      (s.RefusesComponent entity data e →
        (componentInPlace entity data.component data.payload).on s = (.error e, s) ∧
        s.addComponent ⟨entity, data⟩ = s)) ∧
    (∀ (data : ComponentData) (s' : Session), s.tryUpdate entity data = .ok s' →
      (updateInPlace entity data).on s = (.ok (), s')) ∧
    ∀ (request : CommandRequest) (s' : Session), s.tryCommand entity request = .ok s' →
      (commandInPlace entity request).on s = (.ok (), s') := by
  refine ⟨fun data e => ⟨tryUpdate_eq_error, fun refused => ⟨?_, ?_⟩⟩,
    fun request e => ⟨tryCommand_eq_error, fun refused => ⟨?_, fun id => ?_⟩⟩,
    fun data e shut undrafted => ⟨applyToLive_eq_error, fun reason => ?_⟩,
    fun data s' ok => ?_, fun request s' ok => ?_⟩
  · rw [on_updateInPlace, refused]
    rfl
  · rw [update, refused]
    rfl
  · rw [on_commandInPlace, refused]
    rfl
  · rw [command, refused]
    rfl
  · have refused := applyToLive_eq_error.mpr reason
    rw [on_componentInPlace, addComponent_eq shut undrafted, refused]
    exact ⟨rfl, rfl⟩
  · rw [on_updateInPlace, ok]
    rfl
  · rw [on_commandInPlace, ok]
    rfl

/-- Two fields whose last byte is missing. -/
def brokenFields : ComponentData :=
  ⟨Stock.rootDataComponent, (Wire.fields [.at 5 (.int 7), .at 6 (.ref (.root 2))]).dropLast⟩

/-- Two calls whose last byte is missing. -/
def brokenCalls : ComponentData :=
  ⟨Stock.multicastComponent, (Wire.calls [⟨0, [.int 7]⟩, ⟨1, [.ref (.root 2)]⟩]).dropLast⟩

/-- A command that is not declared. -/
def undeclaredCommand : CommandRequest := ⟨Stock.commandComponent, 16, Wire.args []⟩

theorem refused_changes_nothing_brokenBytes :
    ∃ s, (start {} Stock.protocol).run ((Blueprint.ofClass 1 "Crate").operations.map .receive) =
        .ok s ∧
      (∀ data ∈ [brokenFields, brokenCalls], ∃ e, e.name = "MalformedPayload" ∧
        (updateInPlace 1 data).on s = (.error e, s) ∧ s.update 1 data = s ∧
        s.addComponent ⟨1, data⟩ = s) ∧
      (commandInPlace 1 undeclaredCommand).on s =
        (.error (.payload (.unknownCommand Stock.commandComponent 16)), s) ∧
      (∀ id, s.command id 1 undeclaredCommand =
        { s with events := s.events ++ [.sendCommandResponse id 1 Stock.commandComponent] }) ∧
      s.addComponent ⟨2, brokenFields⟩ = s ∧
      (∃ s', (updateInPlace 1 ⟨Stock.handoverComponent, Wire.fields [.at 5 (.int 7)]⟩).on s =
        (.ok (), s')) ∧
      ∃ s', (commandInPlace 1 ⟨Stock.commandComponent, 15, Wire.args []⟩).on s = (.ok (), s') := by
  obtain ⟨s, ok, test⟩ := exists_run (start {} Stock.protocol)
    ((Blueprint.ofClass 1 "Crate").operations.map .receive)
    (fun s => !s.held.isOpen && ([1, 2].all fun entity => !s.drafts.contains entity) &&
      ([brokenFields, brokenCalls].all fun data =>
        match s.tryUpdate 1 data with
        | .error e => e.name == "MalformedPayload"
        | .ok _ => false) &&
      (match s.tryCommand 1 undeclaredCommand with
        | .error e => e == .payload (.unknownCommand Stock.commandComponent 16)
        | .ok _ => false) &&
      (match s.applyToLive 2 brokenFields.component brokenFields.payload with
        | .error _ => true
        | .ok _ => false) &&
      (s.tryUpdate 1 ⟨Stock.handoverComponent, Wire.fields [.at 5 (.int 7)]⟩).isOk &&
      (s.tryCommand 1 ⟨Stock.commandComponent, 15, Wire.args []⟩).isOk) (by decide +kernel)
  simp only [Bool.and_eq_true, List.all_eq_true, Bool.not_eq_true'] at test
  obtain ⟨⟨⟨⟨⟨⟨shut, undrafted⟩, broken⟩, undeclared⟩, unknown⟩, updated⟩, served⟩ := test
  obtain ⟨updates, commands, components, applied, answered⟩ := refused_changes_nothing s 1
  refine ⟨s, ok, fun data mem => ?_, ?_⟩
  · have refused := broken data mem
    split at refused
    · rename_i e found
      obtain ⟨inPlace, same⟩ := (updates data e).2 found
      have live := undrafted 1 (by decide)
      have reason : s.RefusesComponent 1 data e := by
        rw [tryUpdate, if_neg (by rw [live]; decide)] at found
        exact ((components data e shut live).1).mp found
      exact ⟨e, beq_iff_eq.mp refused, inPlace, same, ((components data e shut live).2 reason).2⟩
    · cases refused
  · have refused : s.tryCommand 1 undeclaredCommand =
        .error (.payload (.unknownCommand Stock.commandComponent 16)) := by
      split at undeclared
      · rename_i found
        rw [found, beq_iff_eq.mp undeclared]
      · cases undeclared
    obtain ⟨inPlace, acknowledged⟩ := (commands undeclaredCommand _).2 refused
    refine ⟨inPlace, acknowledged, ?_, ?_, ?_⟩
    · obtain ⟨-, -, components, -⟩ := refused_changes_nothing s 2
      split at unknown
      · rename_i e found
        have live := undrafted 2 (by decide)
        exact ((components brokenFields e shut live).2
          ((components brokenFields e shut live).1.mp found)).2
      · cases unknown
    · cases found : s.tryUpdate 1 ⟨Stock.handoverComponent, Wire.fields [.at 5 (.int 7)]⟩ with
      | error e =>
        rw [found] at updated
        cases updated
      | ok s' => exact ⟨s', applied _ s' found⟩
    · cases found : s.tryCommand 1 ⟨Stock.commandComponent, 15, Wire.args []⟩ with
      | error e =>
        rw [found] at served
        cases served
      | ok s' => exact ⟨s', answered _ s' found⟩

end Session

end Replica
