import Replica.Proofs.Directory
import Replica.Proofs.Spares
import Replica.Proofs.Waitlist.Entries

/-! # The fields of a built entity

The objects of an entity are new when they are made, and nobody waits with them for anything that is
local. So the replays that end a construction leave them alone, and their fields are those that the
components of the entity write, one after the other — whether the components were collected in the
draft, or came after the entity was built.

Main definitions:
* `writtenBy` — the fields of an object after a component.
* `Session.Orderly` — the order of a session in which new objects are apart from all others.
* `Session.Settled` — the objects of a channel wait for nothing that is local.
* `Session.fields_construct`, `Session.fields_applyToLive` — what components write. -/

namespace Replica

/-! ## What a component writes -/

/-- The fields after some assignments. -/
def assigned (resolve : Resolver) (fields : Std.ExtTreeMap Offset Localized)
    (as : List Assignment) : Std.ExtTreeMap Offset Localized :=
  as.foldl (fun fields a => fields.insert a.offset (a.value.localize resolve)) fields

theorem Object.fields_foldl_assign (resolve : Resolver) (as : List Assignment) (o : Object) :
    (as.foldl (Object.assign resolve) o).fields = assigned resolve o.fields as := by
  induction as generalizing o with
  | nil => rfl
  | cons a as ih => exact ih (o.assign resolve a)

/-- The fields of an object after a component is written to the entity whose objects stand at
`objectAt?`: the assignments of the component if it is bound to the object and carries
properties. -/
def writtenBy (protocol : Protocol) (resolve : Resolver) (objectAt? : Offset → Option Handle)
    (h : Handle) (fields : Std.ExtTreeMap Offset Localized) (data : ComponentData) :
    Std.ExtTreeMap Offset Localized :=
  match protocol.binding? data.component with
  | none => fields
  | some b =>
    if b.role.carriesProperties = true ∧ objectAt? b.offset = some h then
      assigned resolve fields (Update.assignments b.role data.payload)
    else fields

namespace Session

variable {s s₁ : Session}

/-- The fields of a live object. -/
def fields? (s : Session) (h : Handle) : Option (Std.ExtTreeMap Offset Localized) :=
  (s.world.object? h).map Object.fields

/-- What becomes of the fields of an object when a payload is written for a subscriber, or is
refused. -/
theorem fields_write_apply (s : Session) (t : Subscriber) (role : Role) (component : ComponentId)
    (payload : Bytes) (h : Handle) :
    fields? (match Update.apply s.world s.waitlist s.resolver t role component payload with
      | .ok (world, waitlist) => { s with world, waitlist }
      | .error _ => s) h =
      if t.object = h then
        (s.fields? h).map (assigned s.resolver · (Update.assignments role payload))
      else s.fields? h := by
  cases found : s.world.object? t.object with
  | some object =>
    have alive := World.isAlive_of_object? found
    rcases Update.applyPayload_of_object? found s.resolver role component payload with
      ⟨error, refused, none⟩ | applied
    · -- A payload that cannot be read makes no assignment.
      simp only [Update.apply, refused, bind, Except.bind, none, assigned, List.foldl_nil,
        Option.map_id']
      exact (ite_self _).symm
    · simp only [Update.apply, applied, bind, Except.bind, pure, Except.pure, fields?,
        Update.object?_announce, World.object?_putObject alive]
      split
      · rename_i here
        rw [← here, found, Option.map_some, Option.map_some, Option.map_some,
          Object.fields_foldl_assign]
      · rfl
  | none =>
    -- Without a live object nothing is written.
    have kept : (match Update.apply s.world s.waitlist s.resolver t role component payload with
        | .ok (world, waitlist) => { s with world, waitlist }
        | .error _ => s).fields? h = s.fields? h := by
      split
      · rename_i world waitlist ok
        obtain ⟨applied, w₁, written, rfl, -⟩ := Update.apply_eq_ok.mp ok
        simp only [fields?, Update.object?_announce]
        unfold World.applyPayload at written
        split at written
        · split at written
          · cases written
            rfl
          · cases written
        · split at written
          · cases written
          · simp [World.target, found, bind, Except.bind] at written
      · rfl
    rw [kept]
    split
    · rename_i here
      rw [fields?, ← here, found]
      rfl
    · rfl

/-- A collected component writes its assignments. -/
theorem fields_populate (channel : Channel) (s : Session) (data : ComponentData) (h : Handle) :
    (populate channel s data).fields? h =
      (s.fields? h).map (writtenBy s.protocol s.resolver channel.objectAt? h · data) := by
  unfold populate writtenBy
  cases bound : s.protocol.binding? data.component with
  | none => exact Option.map_id'.symm
  | some b =>
    dsimp only
    cases role : b.role.carriesProperties with
    | false => simp
    | true =>
      simp only [Bool.not_true, Bool.false_eq_true, if_false, true_and]
      cases found : channel.objectAt? b.offset with
      | none => simp
      | some k =>
        refine (fields_write_apply s (channel.subscriber k) b.role data.component data.payload
          h).trans ?_
        by_cases here : k = h <;> simp [Channel.subscriber, here]

/-- Calls write no field. -/
theorem fields_deliverCalls (calls : List Delivered) (s : Session) (h : Handle) :
    (calls.foldl deliverCall s).fields? h = s.fields? h := by
  induction calls generalizing s with
  | nil => rfl
  | cons call rest ih =>
    rw [List.foldl_cons, ih, fields?, (s.deliverCall_keeps call).2, fields?]

/-- What a component writes when it comes for a built entity. -/
theorem fields_applyToLive {entity : EntityId} {channel : Channel}
    (opened : s.channels.get? entity = some channel) (data : ComponentData) (h : Handle) :
    (s.accept (s.applyToLive entity data.component data.payload)).fields? h =
      (s.fields? h).map (writtenBy s.protocol s.resolver channel.objectAt? h · data) := by
  rw [accept_applyToLive]
  unfold writtenBy
  cases bound : s.protocol.binding? data.component with
  | none =>
    have reached : s.target entity data.component = .error (.noBinding data.component) := by
      simp [target, binding, bound, bind, Except.bind]
    rw [reached]
    exact Option.map_id'.symm
  | some b =>
    dsimp only
    cases found : channel.objectAt? b.offset with
    | none =>
      have reached : s.target entity data.component = .error (.noTargetObject entity b.offset) := by
        simp [target, binding, bound, opened, found, bind, Except.bind, throw, throwThe,
          MonadExceptOf.throw]
      rw [reached]
      simp
    | some k =>
      by_cases alive : s.world.isAlive k = true
      · have reached : s.target entity data.component = .ok (b, channel.subscriber k) := by
          simp [target, binding, bound, opened, found, alive, bind, Except.bind, pure, Except.pure]
        have written : (s.write entity data).fields? h =
            if k = h then (s.fields? h).map
              (assigned s.resolver · (Update.assignments b.role data.payload))
            else s.fields? h := by
          unfold Session.write
          rw [reached]
          exact fields_write_apply s (channel.subscriber k) b.role data.component data.payload h
        rw [reached]
        dsimp only
        cases role : b.role with
        | spawn | data | handover =>
          rw [role] at written
          refine written.trans ?_
          by_cases here : k = h <;> simp [Role.carriesProperties, here]
        | multicast =>
          -- Calls write no field.
          dsimp only
          split
          · simp [Role.carriesProperties]
          · rw [fields_deliverCalls]
            simp [Role.carriesProperties]
        | command => simp [Role.carriesProperties]
      · -- A component for a dead object is refused, and the object has no fields any more.
        have reached : s.target entity data.component = .error (.targetDestroyed entity) := by
          simp [target, binding, bound, opened, found, alive, bind, Except.bind, throw, throwThe,
            MonadExceptOf.throw]
        rw [reached]
        dsimp only
        by_cases here : k = h
        · have gone : s.fields? h = none := by
            rw [← here, fields?, World.object?, if_neg alive]
            rfl
          rw [gone]
          rfl
        · simp [here]

/-! ## Sessions in order -/

/-- A session is **orderly** if new objects are apart from all others: its drafts and channels are
tidy, its directory is paired, and whoever waits is an issued object of an open channel. -/
structure Orderly (s : Session) : Prop where
  /-- Drafts, channels and the open section are in order. -/
  tidy : s.Tidy .all
  /-- The directory is paired. -/
  paired : s.directory.Paired
  /-- Only objects of open channels wait. -/
  lists : s.ListsMembers
  /-- The objects of all channels are issued. -/
  issued : s.Issued

/-- Drafts do not matter for the order of the rest. -/
theorem Orderly.draft (h : s.Orderly) {drafts : Drafts} (tidy : drafts.Tidy .all s.channels) :
    Orderly { s with drafts } where
  tidy := ⟨tidy, h.tidy.channels, h.tidy.burst, h.tidy.closed⟩
  paired := h.paired
  lists := h.lists.congr rfl fun _ => ListsMembers.member_of_channels rfl
  issued := h.issued.congr rfl rfl

end Session

/-- Whether a move may **rename** objects: it makes some known, or takes an entity down. -/
def Move.Renames : Move → Prop
  | .learn _ | .found _ | .remove _ => True
  | _ => False

/-- A move that renames nothing keeps the directory. -/
theorem Work.directory_perform (w : Work) {m : Move} (keeps : ¬m.Renames) :
    (w.perform m).session.directory = w.session.directory := by
  cases m with
  | mark opens =>
    obtain ⟨held, same⟩ := w.exists_perform_mark opens
    rw [same]
  | hold _ | draft _ | settle _ _ _ | alter _ | complete _ => rfl
  | learn _ | found _ | remove _ => exact absurd trivial keeps
  | populate channel data => exact (Session.writes_populate channel _ data).routine.directory
  | authorize change => exact (w.session.changeAuthority_keeps change).2.2.1
  | write entity data => exact (Session.writes_write _ entity data).routine.directory
  | deliver call => exact (Session.routine_deliverCall _ call).directory
  | replay arrival => exact (Session.routine_resolveNow _ arrival).directory

/-- Every move keeps the directory paired. -/
theorem Work.paired_perform {w : Work} (h : w.session.directory.Paired) (m : Move) :
    (w.perform m).session.directory.Paired := by
  by_cases renames : m.Renames
  · cases m with
    | learn arrival =>
      obtain ⟨held, same⟩ := w.exists_perform_learn arrival
      rw [same]
      exact h.register _ _
    | found draft =>
      simp only [Work.perform]
      split
      · rename_i step
        obtain ⟨_, _, _, _, -, -, -, rfl⟩ := Session.found_eq_some.mp step
        exact List.foldlRecOn (motive := Directory.Paired) _ _ h
          fun _ paired x _ => paired.register x.1 x.2
      · rename_i step
        rcases Session.found_eq_none step with rfl | ⟨-, _, rfl⟩ <;> exact h
    | remove entity =>
      show (w.session.remove entity).directory.Paired
      rcases w.session.remove_cases entity with ⟨-, same⟩ | ⟨-, same⟩ | ⟨channel, -, same⟩
      · rw [same]
        exact h
      · rw [same]
        exact h
      · rw [same]
        exact h.unregisterEntity entity
    | _ => exact renames.elim
  · rw [w.directory_perform renames]
    exact h

/-- So do all the moves of an act. -/
theorem Carries.paired {scope : Scope} {w w' : Work} {ms : List Move} (h : Carries scope w ms w')
    (paired : w.session.directory.Paired) : w'.session.directory.Paired := by
  induction h with
  | nil w => exact paired
  | cons _ _ ih => exact ih (Work.paired_perform paired _)

namespace Session

variable {s s₁ : Session}

/-- Every run that issues few handles ends in an orderly session. -/
theorem orderly_of_run {settings : Settings} {protocol : Protocol} {acts : List Act}
    (ok : (start settings protocol).run acts = .ok s)
    (few : allocations ((start settings protocol).course acts) < 2 ^ 32) : s.Orderly where
  tidy := tidy_of_run ok
  paired := (run_induction (I := fun w _ => w.session.directory.Paired)
    (fun _ _ m (_ : Tidy .all _) _ paired => Work.paired_perform paired m)
    (tidy_start settings protocol) Directory.paired_empty (fun a _ => a.within_all) ok).1
  lists := listsMembers_of_run ok
  issued := (issued_of_run ok few).1

/-! ## A construction -/

/-- An arrival leaves everybody who waits for a reference to be found under it. -/
theorem coherent_resolveNow (h : s.waitlist.Coherent) (a : Arrival) :
    (s.resolveNow a).waitlist.Coherent := by
  obtain ⟨world, events, calls, same, -⟩ := s.resolveNow_eq a
  rw [same]
  exact Update.coherent_resolve h _ _ _

/-- A channel is **settled** if its objects are known and wait for nothing that is local. -/
structure Settled (channel : Channel) (s : Session) : Prop where
  /-- Whoever waits for a reference is found under it. -/
  coherent : s.waitlist.Coherent
  /-- The objects are known under their references. -/
  known : ∀ a ∈ channel.arrivals, s.resolver a.reference = some a.object
  /-- What they wait for is not local. -/
  sated : ∀ {t : Subscriber}, t.object ∈ channel.members.map (·.2) →
    ∀ r ∈ (s.waitlist.parkedOf t).references, s.resolver r = none

namespace Settled

variable {channel : Channel}

/-- Only the waitlist and what is local decide whether a channel is settled. -/
theorem congr (h : s.Settled channel) (waitlist : s₁.waitlist = s.waitlist)
    (directory : s₁.directory = s.directory) : s₁.Settled channel where
  coherent := by rw [waitlist]; exact h.coherent
  known a mem := by rw [resolver, directory]; exact h.known a mem
  sated mine r waits := by
    rw [waitlist] at waits
    rw [resolver, directory]
    exact h.sated mine r waits

/-- They stay settled when they are complete. -/
theorem complete (h : s.Settled channel) (c : Channel) : (s.complete c).Settled channel :=
  h.congr rfl rfl

/-- **New objects are settled.** Nobody waits with them yet, because nobody knew them. -/
theorem found (h : s.Orderly) {draft : Draft} (step : s.found draft = (some channel, s₁))
    (few : s.world.pool.issued + (⟨s, .found draft⟩ : Moment).allocations ≤ 2 ^ 32) :
    s₁.Settled channel := by
  obtain ⟨id, a, rfl, -, founds⟩ := founds_of_found h.issued.sound step few
  have registered := h.paired.foldl_register_self (Channel.ofAssembly id a).members
    Channel.nodup_references_ofAssembly (Channel.nodup_handles_ofAssembly founds.births.nodup)
  rw [← founds.directory] at registered
  refine ⟨by rw [founds.waitlist]; exact h.lists.exact.coherent, ?_, ?_⟩
  · intro a mem
    obtain ⟨x, listed, rfl⟩ := List.mem_map.mp mem
    exact registered.2 x listed
  · intro t mine r waits
    obtain ⟨⟨_, k⟩, listed, rfl⟩ := List.mem_map.mp mine
    obtain ⟨-, here⟩ := Channel.mem_members_ofAssembly.mp listed
    have unknown := founds.births.fresh _ (Channel.mem_of_objectAt?_ofAssembly here)
    have idle : s.waitlist.parkedOf t = ∅ := by
      by_contra waiting
      obtain ⟨-, offset, found⟩ := h.lists.members t waiting
      obtain ⟨c, there, found⟩ := Option.bind_eq_some_iff.mp found
      exact unknown (h.issued.members there found)
    rw [founds.waitlist, idle] at waits
    simp at waits

/-- What is written lets nobody wait for what is local. -/
theorem writes (h : s.Settled channel) (written : s.Writes s₁) : s₁.Settled channel := by
  cases written with
  | refused => exact h
  | applied ok =>
    refine ⟨Update.coherent_of_apply h.coherent ok, h.known, fun mine r waits => ?_⟩
    rcases Update.waits_of_apply ok waits with before | missing
    · exact h.sated mine r before
    · exact missing

/-- Collected components leave a channel settled, and write what they write, in order. -/
theorem populates (h : s.Settled channel) (components : List ComponentData) (k : Handle) :
    (components.foldl (populate channel) s).Settled channel ∧
      (components.foldl (populate channel) s).fields? k = (s.fields? k).map
        (components.foldl (writtenBy s.protocol s.resolver channel.objectAt? k) ·) := by
  induction components generalizing s with
  | nil => exact ⟨h, Option.map_id'.symm⟩
  | cons data rest ih =>
    have written := writes_populate channel s data
    obtain ⟨settled, fields⟩ := ih (h.writes written)
    refine ⟨settled, fields.trans ?_⟩
    rw [fields_populate, Option.map_map, written.routine.protocol, written.routine.resolver]
    rfl

/-- Nor does anybody wait for something else when authority changes. -/
theorem authorized (h : s.Settled channel) (changes : List AuthorityChange) :
    (changes.foldl changeAuthority s).Settled channel := by
  induction changes generalizing s with
  | nil => exact h
  | cons change rest ih =>
    obtain ⟨-, waitlist, directory, -, -⟩ := s.changeAuthority_keeps change
    exact ih (h.congr waitlist directory)

/-- Nobody waits with an object of the channel for the arrival of one. -/
theorem unserved (h : s.Settled channel) {a : Arrival} (mem : a ∈ channel.arrivals) {k : Handle}
    (mine : k ∈ channel.members.map (·.2)) :
    ∀ t ∈ s.waitlist.subscribersOf a.reference, t.object ≠ k := by
  rintro t listed rfl
  rw [Waitlist.subscribersOf, Std.ExtTreeSet.mem_toList, h.coherent.index,
    h.coherent.missing] at listed
  have none := h.sated mine _ listed
  rw [h.known a mem] at none
  cases none

/-- The arrival of an object of the channel changes no field of these objects. -/
theorem replay (h : s.Settled channel) {a : Arrival} (mem : a ∈ channel.arrivals) :
    (s.resolveNow a).Settled channel ∧
      ∀ k ∈ channel.members.map (·.2), (s.resolveNow a).fields? k = s.fields? k := by
  constructor
  · obtain ⟨world, events, calls, same, -⟩ := s.resolveNow_eq a
    refine ⟨coherent_resolveNow h.coherent a, ?_, fun mine r waits => ?_⟩
    · rw [same]
      exact h.known
    · rw [same] at waits ⊢
      rcases Update.waits_of_resolve h.coherent waits with ⟨before, -⟩ | missing
      · exact h.sated mine r before
      · exact missing
  · intro k mine
    have rewritten := Update.rewrites_resolve s.world s.waitlist s.resolver a.reference a.object
    rw [fields?, object?_resolveNow, World.object?, rewritten.isAlive, rewritten.others k]
    · rfl
    · rintro ⟨t, listed, same⟩
      exact h.unserved mem mine t listed same

/-- So the arrivals of all of them do not, one after the other. -/
theorem replays (h : s.Settled channel) {arrivals : List Arrival}
    (mem : ∀ a ∈ arrivals, a ∈ channel.arrivals) {k : Handle}
    (mine : k ∈ channel.members.map (·.2)) :
    (arrivals.foldl resolveNow s).fields? k = s.fields? k := by
  induction arrivals generalizing s with
  | nil => rfl
  | cons a rest ih =>
    obtain ⟨settled, kept⟩ := h.replay (mem a List.mem_cons_self)
    rw [List.foldl_cons, ih settled fun b later => mem b (List.mem_cons_of_mem _ later),
      kept k mine]

end Settled

/-- Completing an object writes no field. -/
theorem fields_complete (s : Session) (channel : Channel) (h : Handle) :
    (s.complete channel).fields? h = s.fields? h := by
  show ((s.world.finalize channel.root).object? h).map Object.fields = _
  unfold World.finalize
  split
  · rename_i o stored
    unfold fields? World.object?
    show (if s.world.isAlive h then
      (s.world.objects.insert channel.root { o with finalized := true })[h]? else none).map _ = _
    rw [Std.ExtTreeMap.getElem?_insert]
    split
    · split
      · rename_i here
        obtain rfl := Std.LawfulEqOrd.compare_eq_iff_eq.mp here
        rw [stored]
        rfl
      · rfl
    · rfl
  · rfl

/-- Authority writes no field. -/
theorem fields_changeAuthority (changes : List AuthorityChange) (s : Session) (h : Handle) :
    (changes.foldl changeAuthority s).fields? h = s.fields? h := by
  induction changes generalizing s with
  | nil => rfl
  | cons change rest ih =>
    obtain ⟨-, -, -, pool, objects⟩ := s.changeAuthority_keeps change
    rw [List.foldl_cons, ih, fields?, fields?, World.object?, World.object?, World.isAlive, pool,
      objects, World.isAlive]

/-- **The fields of a built entity** are what its components have written, in order. -/
theorem fields_construct (h : s.Orderly) {draft : Draft} {channel : Channel}
    (step : s.found draft = (some channel, s₁))
    (few : s.world.pool.issued + (⟨s, .found draft⟩ : Moment).allocations ≤ 2 ^ 32) {k : Handle}
    (mine : k ∈ channel.members.map (·.2)) :
    (s.construct draft).fields? k = (s₁.fields? k).map
      (draft.components.foldl (writtenBy s₁.protocol s₁.resolver channel.objectAt? k) ·) := by
  obtain ⟨settled, populated⟩ := (Settled.found h step few).populates draft.components k
  rw [construct_eq, step]
  dsimp only
  -- Completion changes nothing that anybody waits for.
  have completed := settled.complete channel
  rw [(completed.authorized draft.changes).replays (fun _ mem => mem) mine,
    fields_changeAuthority, fields_complete, populated]

/-! ## What a construction depends on -/

/-- Only the entity and the spawn data of a draft decide which objects are made. -/
theorem found_congr (s : Session) {draft draft' : Draft} (entity : draft'.entity = draft.entity)
    (spawn : draft'.spawn = draft.spawn) : s.found draft' = s.found draft := by
  unfold found
  rw [entity, spawn]

/-- Changes of authority depend on nothing but the channels. -/
theorem channels_foldl_changeAuthority (changes : List AuthorityChange)
    (same : s₁.channels = s.channels) :
    (changes.foldl changeAuthority s₁).channels = (changes.foldl changeAuthority s).channels := by
  induction changes generalizing s s₁ with
  | nil => exact same
  | cons change rest ih =>
    refine ih ?_
    unfold changeAuthority
    rw [same]
    split <;> rfl

/-- The components of a draft leave no trace in the channels. -/
theorem channels_construct {draft : Draft} {channel : Channel}
    (step : s.found draft = (some channel, s₁)) :
    (s.construct draft).channels = (draft.changes.foldl changeAuthority s₁).channels := by
  rw [construct_eq, step]
  have populated := routine_populates channel draft.components s₁
  exact (routine_replays _ _).channels.trans (channels_foldl_changeAuthority _ populated.channels)

/-- The channel that a construction opens has the name and the objects that were made. -/
theorem exists_channel_construct (tidy : s.Tidy .all) {draft : Draft} {channel : Channel}
    (undrafted : s.drafts.get? draft.entity = none) (step : s.found draft = (some channel, s₁)) :
    ∃ c, (s.construct draft).channels.get? draft.entity = some c ∧ c.id = channel.id ∧
      c.objectAt? = channel.objectAt? := by
  have founded := tidy.found undrafted
  rw [step] at founded
  rw [channels_construct step]
  have along : ∀ (changes : List AuthorityChange) {t : Session} {c : Channel}, t.Tidy .all →
      t.channels.get? draft.entity = some c →
      ∃ c', (changes.foldl changeAuthority t).channels.get? draft.entity = some c' ∧
        c'.id = c.id ∧ c'.objectAt? = c.objectAt? := by
    intro changes
    induction changes with
    | nil => exact fun _ here => ⟨_, here, rfl, rfl⟩
    | cons change rest ih =>
      intro t c tidy here
      obtain ⟨f, same, get⟩ := get?_changeAuthority tidy change draft.entity
      rw [here] at get
      obtain ⟨c', there, id, objects⟩ := ih (tidy.changeAuthority change) get
      exact ⟨c', there, id.trans (same c).1, objects.trans (same c).2⟩
  exact along draft.changes founded (((found_channels step).2.2 _).trans (if_pos rfl))

/-- What is bound and what is local after a construction is so once the objects are made. -/
theorem resolver_construct {draft : Draft} {channel : Channel}
    (step : s.found draft = (some channel, s₁)) :
    (s.construct draft).protocol = s₁.protocol ∧ (s.construct draft).resolver = s₁.resolver := by
  have authorized : ∀ (changes : List AuthorityChange) (t : Session),
      (changes.foldl changeAuthority t).protocol = t.protocol ∧
        (changes.foldl changeAuthority t).resolver = t.resolver := by
    intro changes
    induction changes with
    | nil => exact fun _ => ⟨rfl, rfl⟩
    | cons change rest ih =>
      intro t
      obtain ⟨protocol, -, directory, -, -⟩ := t.changeAuthority_keeps change
      obtain ⟨later, local'⟩ := ih (t.changeAuthority change)
      exact ⟨later.trans protocol, local'.trans (congrArg Directory.handle? directory)⟩
  have populated := routine_populates channel draft.components s₁
  obtain ⟨protocol, resolver⟩ := authorized draft.changes
    ((draft.components.foldl (populate channel) s₁).complete channel)
  have replayed : (draft.changes.foldl changeAuthority
      ((draft.components.foldl (populate channel) s₁).complete channel)).Routine
        (s.construct draft) := by
    rw [construct_eq, step]
    exact routine_replays _ _
  exact ⟨replayed.protocol.trans (protocol.trans populated.protocol),
    replayed.resolver.trans (resolver.trans populated.resolver)⟩

/-- The objects of a new channel are among its members. -/
theorem mem_members_of_found {draft : Draft} {channel : Channel}
    (step : s.found draft = (some channel, s₁)) {offset : Offset} {h : Handle}
    (found : channel.objectAt? offset = some h) : h ∈ channel.members.map (·.2) := by
  obtain ⟨_, assembly, _, _, -, -, opened, -⟩ := found_eq_some.mp step
  obtain ⟨-, id, -, rfl⟩ := Channels.open?_eq_some opened
  exact List.mem_map.mpr
    ⟨(⟨id.entity, offset⟩, h), Channel.mem_members_ofAssembly.mpr ⟨rfl, found⟩, rfl⟩

end Session

end Replica
