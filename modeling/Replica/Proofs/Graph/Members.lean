import Replica.Proofs.Course.Carries
import Replica.Proofs.Graph.Mirrors

/-! # Members of a session

The objects of the open channels are the members of a session. A host that lets the object graph
only grow never takes one away, and what is applied to a member is an assignment to its fields.

Main definitions:
* `Scope.growing` — a host that lets the object graph only grow, which can be told of every act.
* `Moment.appliedTo`, `lastApplied` — the assignments that are applied to an object.
* `Session.memberAt?`, `Session.Member` — the objects of open channels. -/

namespace Replica

/-! ## What a growing graph allows -/

/-- A payload **assigns once** if it carries no properties, or assigns no field twice. -/
def ComponentData.AssignsOnce (p : Protocol) (data : ComponentData) : Prop :=
  match p.binding? data.component with
  | some b => b.role = .data ∨ b.role = .handover →
    ((Update.assignments b.role data.payload).map (·.offset)).Nodup
  | none => True

instance (p : Protocol) (data : ComponentData) : Decidable (data.AssignsOnce p) :=
  match bound : p.binding? data.component with
  | some b => decidable_of_iff (b.role = .data ∨ b.role = .handover →
      ((Update.assignments b.role data.payload).map (·.offset)).Nodup) (by
        rw [ComponentData.AssignsOnce, bound])
  | none => .isTrue (by
      rw [ComponentData.AssignsOnce, bound]
      trivial)

/-- The scope of a host that lets the object graph only **grow**: it removes, reports and destroys
nothing, and its payloads assign once. -/
def Scope.growing (p : Protocol) : Scope where
  data := ComponentData.AssignsOnce p
  removal _ := False
  arrival _ := False
  change
    | .destroy _ => False
    | _ => True

/-- Whether an act lets the object graph only grow can be told. -/
instance (p : Protocol) : (a : Act) → Decidable (a.Within (.growing p))
  | .receive (.removeEntity _) | .announce _ | .alter (.destroy _) => .isFalse id
  | .receive (.addComponent _ data) | .receive (.componentUpdate _ data) | .tryUpdate _ data =>
    inferInstanceAs (Decidable (data.AssignsOnce p))
  | .receive (.criticalSection _) | .receive (.addEntity _) | .receive (.authorityChange _ _ _)
  | .receive (.commandRequest _ _ _) | .receive (.commandResponse _ _)
  | .receive (.reserveResponse _ _) | .receive (.createResponse _ _)
  | .receive (.queryResponse _ _) | .tryCommand _ _ | .load _ | .unload _ | .register _
  | .takeEvents | .alter (.addClass _ _) | .alter (.addStartup _) | .alter (.placeLocal _) =>
    .isTrue trivial

/-- In a growing graph a payload of properties assigns no field twice. -/
theorem ComponentData.AssignsOnce.nodup {p : Protocol} {data : ComponentData} {b : Binding}
    (once : data.AssignsOnce p) (bound : p.binding? data.component = some b)
    (properties : b.role.carriesProperties = true) :
    ((Update.assignments b.role data.payload).map (·.offset)).Nodup := by
  rw [AssignsOnce, bound] at once
  cases role : b.role with
  | spawn => exact .nil
  | data =>
    have distinct := once (.inl role)
    rwa [role] at distinct
  | handover =>
    have distinct := once (.inr role)
    rwa [role] at distinct
  | multicast | command =>
    rw [role] at properties
    cases properties

/-- The assignments that a moment applies to an object. -/
def Moment.appliedTo (m : Moment) (h : Handle) : List Assignment :=
  match m.move with
  | .populate channel data =>
    match m.session.protocol.binding? data.component with
    | some b =>
      if b.role.carriesProperties = true ∧ channel.objectAt? b.offset = some h ∧
          m.session.world.isAlive h = true then
        Update.assignments b.role data.payload
      else []
    | none => []
  | .write entity data =>
    match m.session.target entity data.component with
    | .ok (b, subscriber) =>
      if subscriber.object = h then Update.assignments b.role data.payload else []
    | .error _ => []
  | _ => []

/-- A moment that applies anything to an object populates it or writes to it. -/
theorem Moment.appliedTo_cases (m : Moment) (h : Handle) :
    m.appliedTo h = [] ∨
      (∃ channel data b, m.move = .populate channel data ∧
        m.session.protocol.binding? data.component = some b ∧ b.role.carriesProperties = true ∧
        channel.objectAt? b.offset = some h ∧ m.session.world.isAlive h = true ∧
        m.appliedTo h = Update.assignments b.role data.payload) ∨
      ∃ entity data b t, m.move = .write entity data ∧
        m.session.target entity data.component = .ok (b, t) ∧ t.object = h ∧
        m.appliedTo h = Update.assignments b.role data.payload := by
  obtain ⟨s, move⟩ := m
  cases move with
  | populate channel data =>
    unfold appliedTo
    dsimp only
    split
    · rename_i b bound
      split
      · rename_i applies
        exact .inr (.inl ⟨channel, data, b, rfl, bound, applies.1, applies.2.1, applies.2.2, rfl⟩)
      · exact .inl rfl
    · exact .inl rfl
  | write entity data =>
    unfold appliedTo
    dsimp only
    split
    · rename_i b t reached
      split
      · rename_i same
        exact .inr (.inr ⟨entity, data, b, t, rfl, reached, same, rfl⟩)
      · exact .inl rfl
    · exact .inl rfl
  | _ => exact .inl rfl

/-- The last assignment that a course has applied to a field of an object. -/
def lastApplied (course : List Moment) (h : Handle) (field : Offset) : Option Assignment :=
  lastTo (course.flatMap (·.appliedTo h)) field

/-- The last of some assignments that come after others. -/
theorem lastTo_append (as bs : List Assignment) (k : Offset) :
    lastTo (as ++ bs) k = (lastTo bs k).or (lastTo as k) := by
  rw [lastTo, List.filter_append, List.getLast?_append, lastTo, lastTo]

theorem lastApplied_concat (past : List Moment) (m : Moment) (h : Handle) (k : Offset) :
    lastApplied (past ++ [m]) h k = (lastTo (m.appliedTo h) k).or (lastApplied past h k) := by
  rw [lastApplied, List.flatMap_append, lastTo_append, List.flatMap_singleton, lastApplied]

namespace Session

variable {s s' : Session}

/-! ## Members -/

/-- The object that stands at a reference in the open channel of its entity. -/
def memberAt? (s : Session) (r : Reference) : Option Handle :=
  (s.channels.get? r.entity).bind (·.objectAt? r.offset)

/-- The name of the open channel of an entity. -/
def channelId? (s : Session) (entity : EntityId) : Option ChannelId :=
  (s.channels.get? entity).map (·.id)

/-- A subscriber is a **member** of a session if it is an object of an open channel. -/
def Member (s : Session) (t : Subscriber) : Prop :=
  s.channelId? t.channel.entity = some t.channel ∧
    ∃ offset, s.memberAt? ⟨t.channel.entity, offset⟩ = some t.object

/-- The objects of an open channel are members. -/
theorem member_of_objectAt? {channel : Channel} {offset : Offset} {h : Handle}
    (opened : s.channels.get? channel.entity = some channel)
    (found : channel.objectAt? offset = some h) : s.Member (channel.subscriber h) := by
  refine ⟨?_, offset, ?_⟩
  · have same : s.channels.get? (channel.subscriber h).channel.entity = some channel := opened
    rw [channelId?, same]
    rfl
  · have same : s.channels.get? (channel.subscriber h).channel.entity = some channel := opened
    rw [memberAt?, same]
    exact found

/-- Whatever stands at a reference in a tidy session is the object of a member. -/
theorem exists_member {scope : Scope} (tidy : s.Tidy scope) {r : Reference} {h : Handle}
    (found : s.memberAt? r = some h) : ∃ t, s.Member t ∧ t.object = h := by
  obtain ⟨channel, opened, found⟩ := Option.bind_eq_some_iff.mp found
  have filed := tidy.channels r.entity channel opened
  rw [← filed] at opened
  exact ⟨channel.subscriber h, member_of_objectAt? opened found, rfl⟩

/-- A component reaches the live object that it is bound to in the channel of its entity. -/
theorem target_eq_ok {entity : EntityId} {component : ComponentId} {b : Binding} {t : Subscriber} :
    s.target entity component = .ok (b, t) ↔
      ∃ channel h, s.protocol.binding? component = some b ∧
        s.channels.get? entity = some channel ∧ channel.objectAt? b.offset = some h ∧
        s.world.isAlive h = true ∧ channel.subscriber h = t := by
  unfold target binding
  constructor
  · intro reached
    cases bound : s.protocol.binding? component with
    | none =>
      rw [bound] at reached
      cases reached
    | some b' =>
      rw [bound] at reached
      simp only [bind, Except.bind] at reached
      split at reached
      · cases reached
      · rename_i channel opened
        split at reached
        · cases reached
        · rename_i h found
          split at reached
          · rename_i alive
            cases reached
            exact ⟨channel, h, rfl, opened, found, alive, rfl⟩
          · cases reached
  · rintro ⟨channel, h, bound, opened, found, alive, rfl⟩
    simp [bound, opened, found, alive, bind, Except.bind, pure, Except.pure]

/-- A component reaches a member, through its binding. -/
theorem member_of_target {scope : Scope} (tidy : s.Tidy scope) {entity : EntityId}
    {component : ComponentId} {b : Binding} {t : Subscriber}
    (reached : s.target entity component = .ok (b, t)) :
    s.protocol.binding? component = some b ∧ s.Member t := by
  obtain ⟨channel, h, bound, opened, found, -, rfl⟩ := target_eq_ok.mp reached
  rw [← tidy.channels entity channel opened] at opened
  exact ⟨bound, member_of_objectAt? opened found⟩

/-- Every subscriber of an open channel that is a member belongs to the entity of the channel. -/
theorem Member.opened {t : Subscriber} (member : s.Member t) :
    s.channels.get? t.channel.entity ≠ none := by
  intro none
  obtain ⟨id, -⟩ := member
  rw [channelId?, none] at id
  cases id

/-- The members after a channel was opened: its objects, and those from before. -/
theorem member_open {channel : Channel} (unbuilt : s.channels.get? channel.entity = none)
    (get : ∀ e, s'.channels.get? e = if channel.entity = e then some channel else s.channels.get? e)
    (t : Subscriber) :
    s'.Member t ↔
      (∃ offset, channel.objectAt? offset = some t.object ∧ t = channel.subscriber t.object) ∨
        s.Member t := by
  -- The entity had no channel before, so its subscribers were no members.
  by_cases own : channel.entity = t.channel.entity
  · have before : ¬s.Member t := by
      intro member
      rw [own] at unbuilt
      exact member.opened unbuilt
    rw [or_iff_left before]
    simp only [Member, channelId?, memberAt?, get, own, if_true, Option.map_some, Option.bind_some,
      Option.some.injEq]
    constructor
    · rintro ⟨id, offset, found⟩
      exact ⟨offset, found, by rw [Channel.subscriber, id]⟩
    · rintro ⟨offset, found, same⟩
      exact ⟨by rw [same]; rfl, offset, found⟩
  · have elsewhere : ¬∃ offset, channel.objectAt? offset = some t.object ∧
        t = channel.subscriber t.object := by
      rintro ⟨offset, -, same⟩
      exact own (by rw [same]; rfl)
    rw [or_iff_right elsewhere]
    simp only [Member, channelId?, memberAt?, get, own, if_false]

/-- A change of authority sets the authority of its channel, and leaves every other as it is. -/
theorem get?_changeAuthority_eq {scope : Scope} (tidy : s.Tidy scope) (change : AuthorityChange)
    (e : EntityId) : (s.changeAuthority change).channels.get? e = s.channels.get? e ∨
      (s.changeAuthority change).channels.get? e =
        (s.channels.get? e).map (·.setAuthority change.component change.authority) := by
  unfold changeAuthority
  split
  · rename_i channel found
    have filed : (channel.setAuthority change.component change.authority).entity = change.entity :=
      tidy.channels change.entity channel found
    by_cases own : change.entity = e
    · subst e
      refine .inr ?_
      rw [Channels.get?_update, filed, if_pos rfl, found]
      rfl
    · refine .inl ?_
      rw [Channels.get?_update, filed, if_neg own]
  · exact .inl rfl

/-- A change of authority leaves every channel the same objects. -/
theorem get?_changeAuthority {scope : Scope} (tidy : s.Tidy scope) (change : AuthorityChange)
    (e : EntityId) : ∃ f : Channel → Channel,
      (∀ c, (f c).id = c.id ∧ (f c).objectAt? = c.objectAt?) ∧
        (s.changeAuthority change).channels.get? e = (s.channels.get? e).map f := by
  rcases get?_changeAuthority_eq tidy change e with same | set
  · exact ⟨id, fun _ => ⟨rfl, rfl⟩, by rw [same, Option.map_id]; rfl⟩
  · exact ⟨(·.setAuthority change.component change.authority), fun _ => ⟨rfl, rfl⟩, set⟩

/-- A change of authority leaves the members the same. -/
theorem members_changeAuthority {scope : Scope} (tidy : s.Tidy scope) (change : AuthorityChange) :
    (∀ e, (s.changeAuthority change).channelId? e = s.channelId? e) ∧
      ∀ r, (s.changeAuthority change).memberAt? r = s.memberAt? r := by
  constructor
  · intro e
    obtain ⟨f, same, get⟩ := get?_changeAuthority tidy change e
    rw [channelId?, channelId?, get, Option.map_map]
    cases s.channels.get? e with
    | none => rfl
    | some c => exact congrArg some (same c).1
  · intro r
    obtain ⟨f, same, get⟩ := get?_changeAuthority tidy change r.entity
    rw [memberAt?, memberAt?, get]
    cases s.channels.get? r.entity with
    | none => rfl
    | some c => exact congrFun (same c).2 r.offset

/-! ## Objects -/

theorem object?_execute (s : Session) (target : Handle) (invocation : Invocation) (h : Handle) :
    (s.execute target invocation).world.object? h = s.world.object? h := by
  unfold execute World.execute
  split
  · rename_i w ok
    split at ok
    · cases ok
    · split at ok
      · cases ok
      · cases ok
        rfl
  · rfl

theorem object?_dispatchReady (s : Session) (h : Handle) :
    s.dispatchReady.world.object? h = s.world.object? h := by
  have along : ∀ (calls : List ParkedCall) (s : Session),
      (calls.foldl (fun s call => s.execute call.target call.invocation) s).world.object? h =
        s.world.object? h := by
    intro calls
    induction calls with
    | nil => exact fun _ => rfl
    | cons c rest ih => exact fun s => (ih _).trans (object?_execute s _ _ h)
  exact along _ _

/-- An arrival leaves every object as the resolution of its reference does. -/
theorem object?_resolveNow (s : Session) (a : Arrival) (h : Handle) :
    (s.resolveNow a).world.object? h =
      (Update.resolve s.world s.waitlist s.resolver a.reference a.object).world.object? h := by
  unfold resolveNow
  dsimp only
  split
  · rfl
  · exact object?_dispatchReady _ h

/-- An invocation that is executed or parked changes no object, and nobody waits for more than
before. -/
theorem dispatch_keeps (s : Session) (target : Handle) (entity : EntityId) (component : ComponentId)
    (incoming : Incoming) : (s.dispatch target entity component incoming).waitlist = s.waitlist ∧
      ∀ h, (s.dispatch target entity component incoming).world.object? h = s.world.object? h := by
  unfold dispatch
  split
  · obtain ⟨world, same⟩ := s.execute_eq target incoming.invocation
    exact ⟨by rw [same], object?_execute s target incoming.invocation⟩
  · exact ⟨rfl, fun _ => rfl⟩

/-- So does a delivered call. -/
theorem deliverCall_keeps (s : Session) (call : Delivered) :
    (s.deliverCall call).waitlist = s.waitlist ∧
      ∀ h, (s.deliverCall call).world.object? h = s.world.object? h :=
  s.dispatch_keeps ..

/-- A change of authority changes no object and nothing that anybody waits for. -/
theorem changeAuthority_keeps (s : Session) (change : AuthorityChange) :
    (s.changeAuthority change).protocol = s.protocol ∧
      (s.changeAuthority change).waitlist = s.waitlist ∧
      (s.changeAuthority change).directory = s.directory ∧
      (s.changeAuthority change).world.pool = s.world.pool ∧
      (s.changeAuthority change).world.objects = s.world.objects := by
  unfold changeAuthority
  split
  · exact ⟨rfl, rfl, rfl, rfl, rfl⟩
  · exact ⟨rfl, rfl, rfl, rfl, rfl⟩

end Session

/-- Completing an object leaves it its fields, and the handles in use. -/
theorem World.finalize_keeps (w : World) (h : Handle) :
    (w.finalize h).pool = w.pool ∧ ∀ {k : Handle} {o : Object}, w.object? k = some o →
      ∃ o', (w.finalize h).object? k = some o' ∧ o'.fields = o.fields := by
  unfold finalize
  split
  · rename_i o stored
    refine ⟨rfl, fun {k other} found => ?_⟩
    have alive := isAlive_of_object? found
    have here := getElem?_of_object? found
    by_cases same : h = k
    · subst k
      cases stored.symm.trans here
      exact ⟨_, (if_pos alive).trans Std.ExtTreeMap.getElem?_insert_self, rfl⟩
    · refine ⟨other, (if_pos alive).trans ?_, rfl⟩
      simpa [Std.ExtTreeMap.getElem?_insert, same] using here
  · exact ⟨rfl, fun {k other} found => ⟨other, found, rfl⟩⟩

end Replica
