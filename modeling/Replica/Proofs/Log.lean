import Replica.Blueprint
import Replica.Proofs.Gating.Course
import Replica.Proofs.Waitlist.Entries

/-! # The log of events

A host that sees nothing but the events can keep a picture of the entities that are built: which
they are, with which root object, and who may write their components. This file shows that the
picture is that of the session whenever an act has ended, and that every event fits the picture of
those before it.

Main definitions:
* `Picture`, `told` — what a log of events tells of each entity.
* `Event.Fits`, `Leads` — a log in which every event fits those before it.
* `Session.picture` — what there is to be told of a session.
* `Session.log` — everything that a run reports, taken or not.
* `Moment.emitted` — what a single move reports.
* `Session.log_tells_truth` — after every run the log tells of the session what it is. -/

namespace Replica

/-! ## Pictures -/

/-- What is **told** of an entity that is built. -/
structure Told where
  /-- The root object. -/
  root : Handle
  /-- Who may write each component. -/
  authority : ComponentId → Authority

/-- Tells of a change of authority over a component. -/
def Told.grant (t : Told) (component : ComponentId) (authority : Authority) : Told :=
  { t with authority := fun k => if component = k then authority else t.authority k }

/-- A **picture**: what is told of each entity, nothing if it is not built. -/
abbrev Picture : Type := EntityId → Option Told

/-- The picture after one more event. -/
def Picture.after (p : Picture) : Event → Picture
  | .entityConstructed entity root => fun k =>
    if entity = k then some ⟨root, fun _ => .notAuthoritative⟩ else p k
  | .entityRemoved entity => fun k => if entity = k then none else p k
  | .authorityChanged entity component authority => fun k =>
    if entity = k then (p k).map (·.grant component authority) else p k
  | .referencesResolved _ | .sendCommandResponse _ _ _ | .retryCommand _ _ => p

/-- What a **log** of events tells, the oldest event first. -/
def told (log : List Event) : Picture := log.foldl Picture.after fun _ => none

/-- An event **fits** a picture: only what is not built is built, and only what is built is removed
or changes authority. -/
def Event.Fits (p : Picture) : Event → Prop
  | .entityConstructed entity _ => p entity = none
  | .entityRemoved entity | .authorityChanged entity _ _ => p entity ≠ none
  | .referencesResolved _ | .sendCommandResponse _ _ _ | .retryCommand _ _ => True

/-- A log **leads** from one picture to another if each of its events fits those before it. -/
inductive Leads : Picture → List Event → Picture → Prop where
  /-- No event changes nothing. -/
  | nil (p : Picture) : Leads p [] p
  /-- An event that fits, and those after it. -/
  | cons {p p' : Picture} {e : Event} {log : List Event} (fits : e.Fits p)
    (rest : Leads (p.after e) log p') : Leads p (e :: log) p'

namespace Leads

variable {p p₁ p₂ : Picture} {log later : List Event}

theorem single {e : Event} (fits : e.Fits p) (same : p.after e = p₁) : Leads p [e] p₁ :=
  .cons fits (same ▸ .nil _)

theorem append (h : Leads p log p₁) (h' : Leads p₁ later p₂) : Leads p (log ++ later) p₂ := by
  induction h with
  | nil p => exact h'
  | cons fits _ ih => exact .cons fits (ih h')

/-- Events that change no picture fit everywhere. -/
theorem still (all : ∀ e ∈ log, e.Fits p ∧ p.after e = p) : Leads p log p := by
  induction log with
  | nil => exact .nil p
  | cons e log ih =>
    obtain ⟨fits, same⟩ := all e List.mem_cons_self
    exact .cons fits (same.symm ▸ ih fun e mem => all e (List.mem_cons_of_mem _ mem))

/-- It leads where its events lead. -/
theorem foldl (h : Leads p log p₁) : log.foldl Picture.after p = p₁ := by
  induction h with
  | nil p => rfl
  | cons _ _ ih => exact ih

/-- Every event fits those before it. -/
theorem fits (h : Leads p log p₁) {before after : List Event} {e : Event}
    (split : log = before ++ e :: after) : e.Fits (before.foldl Picture.after p) := by
  induction h generalizing before with
  | nil p => cases before <;> cases split
  | cons fits _ ih =>
    cases before with
    | nil =>
      cases split
      exact fits
    | cons first before =>
      cases split
      exact ih rfl

end Leads

/-- Whether an event is a **reply**: it is about a request. -/
def Event.IsReply : Event → Prop
  | .sendCommandResponse _ _ _ | .retryCommand _ _ => True
  | _ => False

theorem Event.IsReply.still {e : Event} (h : e.IsReply) (p : Picture) :
    e.Fits p ∧ p.after e = p := by
  cases e with
  | sendCommandResponse _ _ _ | retryCommand _ _ => exact ⟨trivial, rfl⟩
  | _ => exact h.elim

/-! ## The picture of a session -/

/-- What there is to be told of a channel. -/
def Channel.told (c : Channel) : Told := ⟨c.root, c.authority⟩

theorem Channel.told_setAuthority (c : Channel) (component : ComponentId) (authority : Authority) :
    (c.setAuthority component authority).told = c.told.grant component authority := by
  unfold told Told.grant
  congr 1
  funext k
  rw [authority_setAuthority]

/-- Of a new channel nothing is told but its root. -/
theorem Channel.told_ofAssembly (id : ChannelId) (a : Assembly) :
    (ofAssembly id a).told = ⟨a.root, fun _ => .notAuthoritative⟩ := rfl

namespace Session

variable {s s₁ s₂ : Session}

/-- What there is to be told of the entities of a session. -/
def picture (s : Session) : Picture := fun entity => (s.channels.get? entity).map Channel.told

theorem picture_congr (channels : s₁.channels = s.channels) : s₁.picture = s.picture := by
  funext entity
  show (s₁.channels.get? entity).map Channel.told = (s.channels.get? entity).map Channel.told
  rw [channels]

/-- A session **tells** what becomes of it: it reports events that lead to the new picture. -/
def Tells (s s' : Session) : Prop :=
  ∃ log, s'.events = s.events ++ log ∧ Leads s.picture log s'.picture

namespace Tells

/-- There is nothing to tell where no channel changes. -/
theorem quiet (events : s₁.events = s.events) (channels : s₁.channels = s.channels) :
    s.Tells s₁ := by
  refine ⟨[], by rw [events, List.append_nil], ?_⟩
  rw [picture_congr channels]
  exact .nil _

/-- Replies tell of no channel. -/
theorem replies {log : List Event} (all : ∀ e ∈ log, e.IsReply)
    (events : s₁.events = s.events ++ log) (channels : s₁.channels = s.channels) :
    s.Tells s₁ := by
  refine ⟨log, events, ?_⟩
  rw [picture_congr channels]
  exact .still fun e mem => (all e mem).still _

theorem trans (h : s.Tells s₁) (h' : s₁.Tells s₂) : s.Tells s₂ := by
  obtain ⟨log, events, leads⟩ := h
  obtain ⟨later, events', leads'⟩ := h'
  exact ⟨log ++ later, by rw [events', events, List.append_assoc], leads.append leads'⟩

/-- Several steps that each tell, and keep what the next one needs, tell together. -/
theorem foldl {α : Type} {f : Session → α → Session} {I : Session → Prop}
    (each : ∀ (s : Session) (a : α), I s → s.Tells (f s a) ∧ I (f s a)) (as : List α)
    (start : I s) : s.Tells (as.foldl f s) := by
  induction as generalizing s with
  | nil => exact .quiet rfl rfl
  | cons a as ih =>
    obtain ⟨first, kept⟩ := each s a start
    exact first.trans (ih kept)

end Tells

/-! ## Steps that tell -/

theorem tells_remove (s : Session) (entity : EntityId) : s.Tells (s.remove entity) := by
  rcases s.remove_cases entity with ⟨-, same⟩ | ⟨-, same⟩ | ⟨channel, found, same⟩
  · rw [same]
    exact .quiet rfl rfl
  · rw [same]
    exact .quiet rfl rfl
  · rw [same]
    refine ⟨[.entityRemoved entity], rfl, .single ?_ ?_⟩
    · show (s.channels.get? entity).map Channel.told ≠ none
      simp [found]
    · funext k
      show (if entity = k then none else (s.channels.get? k).map Channel.told) =
        ((s.channels.close entity).get? k).map Channel.told
      rw [Channels.get?_close]
      split <;> rfl

theorem tells_changeAuthority (tidy : s.Tidy .all) (change : AuthorityChange) :
    s.Tells (s.changeAuthority change) := by
  unfold changeAuthority
  split
  · rename_i channel found
    have filed : (channel.setAuthority change.component change.authority).entity = change.entity :=
      tidy.channels change.entity channel found
    refine ⟨[.authorityChanged change.entity change.component change.authority], rfl,
      .single ?_ ?_⟩
    · show (s.channels.get? change.entity).map Channel.told ≠ none
      simp [found]
    · funext k
      show (if change.entity = k then ((s.channels.get? k).map Channel.told).map _
          else (s.channels.get? k).map Channel.told) =
        ((s.channels.update _).get? k).map Channel.told
      rw [Channels.get?_update, filed]
      split
      · rename_i here
        rw [← here, found]
        exact congrArg some (channel.told_setAuthority _ _).symm
      · rfl
  · exact .quiet rfl rfl

/-- The events of a replay name those who wait no more. -/
theorem events_resolveNow (s : Session) (arrival : Arrival) :
    (s.resolveNow arrival).events = s.events ++
      (Update.resolve s.world s.waitlist s.resolver arrival.reference arrival.object).complete.map
        .referencesResolved := by
  unfold resolveNow
  dsimp only
  split
  · rfl
  · obtain ⟨world, same⟩ := dispatchReady_eq _
    rw [same]
    rfl

theorem tells_resolveNow (s : Session) (arrival : Arrival) : s.Tells (s.resolveNow arrival) := by
  refine ⟨_, events_resolveNow s arrival, ?_⟩
  rw [picture_congr (routine_resolveNow s arrival).channels]
  refine .still fun e mem => ?_
  obtain ⟨t, -, rfl⟩ := List.mem_map.mp mem
  exact ⟨trivial, rfl⟩

/-- Collected components are applied without a report, and no channel changes. -/
theorem populates_quietly (channel : Channel) (components : List ComponentData)
    (tidy : s.Tidy .all) :
    (components.foldl (populate channel) s).events = s.events ∧
      (components.foldl (populate channel) s).channels = s.channels ∧
      (components.foldl (populate channel) s).Tidy .all := by
  induction components generalizing s with
  | nil => exact ⟨rfl, rfl, tidy⟩
  | cons data components ih =>
    have writes := writes_populate channel s data
    obtain ⟨events, channels, tidy⟩ := ih (tidy.routine writes.routine)
    exact ⟨events.trans writes.keepsMail.events, channels.trans writes.routine.channels, tidy⟩

/-- Building an entity tells of it: first that it is built, then who may write it. -/
theorem tells_construct (tidy : s.Tidy .all) {draft : Draft}
    (unbuilt : s.channels.get? draft.entity = none)
    (undrafted : s.drafts.get? draft.entity = none) : s.Tells (s.construct draft) := by
  rw [construct_eq]
  have kept := tidy.found undrafted
  cases step : s.found draft with
  | mk built s₁ =>
    rw [step] at kept
    cases built with
    | none =>
      obtain ⟨rfl, -⟩ := found_of_none unbuilt step
      exact .quiet rfl rfl
    | some channel =>
      dsimp only
      obtain ⟨filed, -, get⟩ := found_channels step
      obtain ⟨_, assembly, _, _, -, -, opened, same⟩ := found_eq_some.mp step
      obtain ⟨events, channels, tidy⟩ := populates_quietly channel draft.components kept
      have told : s.Tells ((draft.components.foldl (populate channel) s₁).complete channel) := by
        refine ⟨[.entityConstructed channel.entity channel.root], ?_, .single ?_ ?_⟩
        · show (draft.components.foldl (populate channel) s₁).events ++ _ = _
          rw [events, same]
        · show (s.channels.get? channel.entity).map Channel.told = none
          rw [filed, unbuilt]
          rfl
        · funext k
          show (if channel.entity = k then some (Told.mk channel.root fun _ => .notAuthoritative)
              else (s.channels.get? k).map Channel.told) =
            ((draft.components.foldl (populate channel) s₁).channels.get? k).map Channel.told
          rw [channels, get, filed]
          split
          · obtain ⟨-, id, -, rfl⟩ := Channels.open?_eq_some opened
            exact congrArg some (Channel.told_ofAssembly id assembly).symm
          · rfl
      have authorized : Tells _ (draft.changes.foldl changeAuthority
          ((draft.components.foldl (populate channel) s₁).complete channel)) :=
        .foldl (I := Tidy .all)
          (fun s change tidy => ⟨tells_changeAuthority tidy change, tidy.changeAuthority change⟩)
          draft.changes (tidy.congr rfl rfl rfl)
      have replayed : Tells _ (channel.arrivals.foldl resolveNow (draft.changes.foldl
          changeAuthority ((draft.components.foldl (populate channel) s₁).complete channel))) :=
        .foldl (I := fun _ => True) (fun s arrival _ => ⟨tells_resolveNow s arrival, trivial⟩)
          channel.arrivals trivial
      exact told.trans (authorized.trans replayed)

/-- A move by itself tells what becomes of the session. -/
theorem tells_alone {w : Work} (tidy : w.session.Tidy .all) {m : Move} (alone : m.IsAlone) :
    w.session.Tells (w.perform m).session := by
  cases m with
  | mark opens =>
    obtain ⟨held, same⟩ := w.exists_perform_mark opens
    rw [same]
    exact .quiet rfl rfl
  | hold _ | draft _ | alter _ => exact .quiet rfl rfl
  | learn arrival =>
    obtain ⟨held, same⟩ := w.exists_perform_learn arrival
    rw [same]
    exact .quiet rfl rfl
  | found _ | populate _ _ | complete _ | settle _ _ _ => exact alone.elim
  | authorize change => exact tells_changeAuthority tidy change
  | write entity data =>
    have writes := writes_write w.session entity data
    exact .quiet writes.keepsMail.events writes.routine.channels
  | deliver call =>
    exact .quiet (keepsMail_deliverCall w.session call).events
      (routine_deliverCall w.session call).channels
  | replay arrival => exact tells_resolveNow w.session arrival
  | remove entity => exact tells_remove w.session entity

end Session

/-- Moves taken in strides tell what becomes of the session. -/
theorem Strides.tells {w w' : Work} {ms : List Move} (h : Strides w ms w')
    (tidy : w.session.Tidy .all) : w.session.Tells w'.session := by
  induction h with
  | nil w => exact .quiet rfl rfl
  | move apt alone _ ih => exact (Session.tells_alone tidy alone).trans (ih (apt.tidy tidy))
  | build unbuilt undrafted _ ih =>
    have first := Session.tells_construct tidy unbuilt undrafted
    exact first.trans (ih ((Session.carries_construct [] unbuilt undrafted fun _ _ =>
      trivial).tidy tidy))

/-! ## What is resolved -/

namespace Update

/-- A resolution is **truthful** if those it calls complete wait for nothing, and were among those
who waited for the reference. -/
def Resolution.Truthful (among : List Subscriber) (state : Resolution) : Prop :=
  ∀ t ∈ state.complete, t ∈ among ∧ state.waitlist.parkedOf t = ∅

/-- Serving one of those who waited keeps a resolution truthful. -/
theorem truthful_serve {among : List Subscriber} {state : Resolution}
    (h : state.Truthful among) (resolve : Resolver) (r : Reference) (resolved : Handle)
    {s : Subscriber} (listed : s ∈ among) :
    (serve resolve r resolved state s).Truthful among := by
  unfold serve
  split
  · intro t mem
    refine ⟨(h t mem).1, ?_⟩
    show (state.waitlist.remove s).parkedOf t = ∅
    rw [Waitlist.parkedOf_remove]
    split
    · rfl
    · exact (h t mem).2
  · intro t mem
    dsimp only at mem ⊢
    rw [Waitlist.parkedOf_store]
    -- Where nothing is parked any more, there is nothing to replay and nothing is left.
    by_cases here : s = t
    · subst t
      refine ⟨listed, ?_⟩
      rw [if_pos rfl]
      by_cases before : s ∈ state.complete
      · rw [(h s before).2]
        rfl
      · split at mem
        · rename_i none
          rw [List.isEmpty_iff.mp none]
          rfl
        · exact absurd mem before
    · rw [if_neg here]
      split at mem
      · exact h t ((List.mem_append.mp mem).resolve_right fun new =>
          here (List.mem_singleton.mp new).symm)
      · exact h t mem

/-- The resolution of a reference is truthful. -/
theorem truthful_resolve (w : World) (l : Waitlist) (resolve : Resolver) (r : Reference)
    (resolved : Handle) :
    (Update.resolve w l resolve r resolved).Truthful (l.subscribersOf r) := by
  suffices along : ∀ (served : List Subscriber) (state : Resolution),
      state.Truthful (l.subscribersOf r) → (∀ s ∈ served, s ∈ l.subscribersOf r) →
        (served.foldl (serve resolve r resolved) state).Truthful (l.subscribersOf r) from
    along _ ⟨w, l, []⟩ (fun _ mem => absurd mem List.not_mem_nil) fun _ mem => mem
  intro served
  induction served with
  | nil => exact fun _ h _ => h
  | cons s rest ih =>
    intro state h listed
    exact ih _ (truthful_serve h resolve r resolved (listed s List.mem_cons_self))
      fun t mem => listed t (List.mem_cons_of_mem _ mem)

end Update

/-! ## Moments of the log -/

/-- What a moment **emits**: the events that its move adds to those not taken yet. -/
def Moment.emitted (m : Moment) : List Event := m.after.events.drop m.session.events.length

/-- Whether an event **comes of** a move: to each kind of events belongs one kind of moves. -/
def Event.ComesOf (m : Move) : Event → Prop
  | .entityConstructed _ _ => ∃ channel, m = .complete channel
  | .entityRemoved entity => m = .remove entity
  | .authorityChanged _ _ _ => ∃ change, m = .authorize change
  | .referencesResolved _ => ∃ arrival, m = .replay arrival
  | .sendCommandResponse _ _ _ | .retryCommand _ _ =>
    ∃ requests events deliveries, m = .settle requests events deliveries

/-- Replies settle requests. -/
theorem Event.IsReply.comesOf {e : Event} (h : e.IsReply) (requests : Requests)
    (events : List Event) (deliveries : List Delivery) :
    e.ComesOf (.settle requests events deliveries) := by
  cases e with
  | sendCommandResponse _ _ _ | retryCommand _ _ => exact ⟨requests, events, deliveries, rfl⟩
  | _ => exact h.elim

namespace Session

/-- What a move adds to what is reported, if it settles nothing. -/
theorem adds_perform {w : Work} {m : Move}
    (unsettled : ∀ requests events deliveries, m ≠ .settle requests events deliveries) :
    ∃ log, (w.perform m).session.events = w.session.events ++ log ∧ ∀ e ∈ log, e.ComesOf m := by
  have nothing {s' : Session} (events : s'.events = w.session.events) :
      ∃ log, s'.events = w.session.events ++ log ∧ ∀ e ∈ log, e.ComesOf m :=
    ⟨[], by rw [events, List.append_nil], fun _ mem => absurd mem List.not_mem_nil⟩
  have mail : m.IsSilent → w.session.KeepsMail (w.perform m).session := keepsMail_perform w
  cases m with
  | settle requests events deliveries => exact absurd rfl (unsettled requests events deliveries)
  | complete channel =>
    exact ⟨[.entityConstructed channel.entity channel.root], rfl,
      List.forall_mem_singleton.mpr ⟨channel, rfl⟩⟩
  | authorize change =>
    cases opened : w.session.channels.get? change.entity with
    | some channel =>
      rw [Work.perform, changeAuthority_of_built opened]
      exact ⟨[.authorityChanged change.entity change.component change.authority], rfl,
        List.forall_mem_singleton.mpr ⟨change, rfl⟩⟩
    | none =>
      rw [Work.perform, changeAuthority_of_unbuilt opened]
      exact nothing rfl
  | replay arrival =>
    refine ⟨_, events_resolveNow w.session arrival, fun e mem => ?_⟩
    obtain ⟨t, -, rfl⟩ := List.mem_map.mp mem
    exact ⟨arrival, rfl⟩
  | remove entity =>
    rw [Work.perform]
    rcases w.session.remove_cases entity with ⟨-, same⟩ | ⟨-, same⟩ | ⟨channel, -, same⟩
    · rw [same]
      exact nothing rfl
    · rw [same]
      exact nothing rfl
    · rw [same]
      exact ⟨[.entityRemoved entity], rfl, List.forall_mem_singleton.mpr rfl⟩
  | _ => exact nothing (mail trivial).events

end Session

/-- A moment **adds** to what is reported: nothing of it is lost, and each event comes of a move of
its kind. -/
structure Moment.Adds (m : Moment) : Prop where
  /-- What is reported afterwards. -/
  events : m.after.events = m.session.events ++ m.emitted
  /-- What an event comes of. -/
  comes : ∀ e ∈ m.emitted, e.ComesOf m.move

namespace Moment

theorem emitted_of_append {m : Moment} {log : List Event}
    (events : m.after.events = m.session.events ++ log) : m.emitted = log := by
  rw [emitted, events, List.drop_left]

theorem adds_of_append {m : Moment} {log : List Event}
    (events : m.after.events = m.session.events ++ log) (comes : ∀ e ∈ log, e.ComesOf m.move) :
    m.Adds := by
  obtain rfl := emitted_of_append events
  exact ⟨events, comes⟩

/-- What is settled by replies adds to what is reported. -/
theorem adds_settle (s : Session) (requests : Requests) {replies : List Event}
    (all : ∀ e ∈ replies, e.IsReply) (deliveries : List Delivery) :
    (⟨s, .settle requests (s.events ++ replies) deliveries⟩ : Moment).Adds :=
  adds_of_append rfl fun e mem => (all e mem).comesOf ..

end Moment

/-- All moments of moves that settle nothing add to what is reported. -/
theorem Work.adds {ms : List Move} (unsettled : ∀ requests events deliveries,
    .settle requests events deliveries ∉ ms) (w : Work) : ∀ m ∈ w.trail ms, m.Adds := by
  induction ms generalizing w with
  | nil => exact fun _ mem => absurd mem List.not_mem_nil
  | cons m ms ih =>
    intro k mem
    rcases List.mem_cons.mp mem with rfl | later
    · obtain ⟨log, events, comes⟩ := Session.adds_perform (w := w) (m := m)
        fun requests events deliveries same =>
          unsettled requests events deliveries (same ▸ List.mem_cons_self)
      rw [Work.session_perform] at events
      exact Moment.adds_of_append events comes
    · exact ih (fun requests events deliveries mem =>
        unsettled requests events deliveries (List.mem_cons_of_mem _ mem)) (w.perform m) k later

/-- What moves emit that add to what is reported. -/
theorem Carries.events {scope : Scope} {w w' : Work} {ms : List Move} (h : Carries scope w ms w')
    (adds : ∀ m ∈ w.trail ms, m.Adds) :
    w'.session.events = w.session.events ++ (w.trail ms).flatMap Moment.emitted := by
  induction h with
  | nil w => exact (List.append_nil _).symm
  | @cons w w' m ms apt _ ih =>
    have first := (adds ⟨w.session, m⟩ List.mem_cons_self).events
    rw [ih fun k mem => adds k (List.mem_cons_of_mem _ mem), Work.session_perform, first,
      List.append_assoc]
    rfl

namespace Session

variable {s s' : Session}

/-! ## Acts -/

/-- What is settled by replies after moves taken in strides. -/
theorem tells_settled {s₁ : Session} {ms : List Move} (tidy : s.Tidy .all)
    (strides : Strides s.idle ms s₁.idle) {replies : List Event} (all : ∀ e ∈ replies, e.IsReply)
    {requests : Requests} {deliveries : List Delivery}
    (same : s' = { s₁ with requests, events := s₁.events ++ replies, deliveries }) :
    s.Tells s' ∧ ∀ m ∈ s.idle.trail (ms ++ [.settle s'.requests s'.events s'.deliveries]),
      m.Adds := by
  subst same
  refine ⟨(strides.tells tidy).trans (.replies all rfl rfl), fun m mem => ?_⟩
  rw [Work.trail_append, strides.carries.foldl_perform] at mem
  rcases List.mem_append.mp mem with early | last
  · exact Work.adds strides.settle_notMem _ m early
  · cases List.mem_singleton.mp last
    exact Moment.adds_settle s₁ requests all deliveries

/-- What an act tells of a session, unless it takes the events. -/
theorem tells_act (tidy : s.Tidy .all) {a : Act} (keeps : a ≠ .takeEvents) (ok : s.act a = .ok s') :
    s.Tells s' ∧ ∀ m ∈ s.idle.trail (s.moves a), m.Adds := by
  -- Requests that are settled without a report.
  have silent {requests : Requests} {deliveries : List Delivery}
      (same : s' = { s with requests, deliveries }) :
      s.Tells s' ∧ ∀ m ∈ s.idle.trail [.settle s'.requests s'.events s'.deliveries], m.Adds :=
    tells_settled tidy (.nil s.idle) (fun _ mem => absurd mem List.not_mem_nil)
      (same.trans (by rw [List.append_nil]))
  cases settles : a.settles with
  | false =>
    have strides := strides_act tidy settles ok
    exact ⟨strides.tells tidy, Work.adds strides.settle_notMem _⟩
  | true =>
    cases a with
    | receive operation =>
      cases operation with
      | commandRequest request entity command =>
        cases ok
        refine tells_settled tidy (strides_command [] entity command) (fun e mem => ?_) rfl
        cases List.mem_singleton.mp mem
        trivial
      | commandResponse request result =>
        have known : s.commandResponse request result = .ok s' := ok
        obtain ⟨retries, same⟩ := commandResponse_eq known
        simp only [moves, processMoves, known]
        refine tells_settled tidy (.nil s.idle) (fun e mem => ?_) same
        obtain ⟨_, -, rfl⟩ := List.mem_map.mp mem
        trivial
      | reserveResponse request result =>
        cases ok
        exact silent (deliver_eq s _ _ _).choose_spec
      | createResponse request result =>
        cases ok
        exact silent (deliver_eq s _ _ _).choose_spec
      | queryResponse request result =>
        cases ok
        exact silent (deliver_eq s _ _ _).choose_spec
      | _ => cases settles
    | register registration =>
      cases ok
      exact silent (await_eq s registration).choose_spec
    | takeEvents => exact absurd rfl keeps
    | _ => cases settles

/-! ## Runs -/

/-- The **log** of a run: what the session has reported and the host has not taken before, and
everything that it reports later, taken or not. -/
def log (s : Session) : List Act → List Event
  | [] => s.events
  | .takeEvents :: acts => s.takeEvents.1 ++ s.takeEvents.2.log acts
  | a :: acts =>
    match s.act a with
    | .ok s₁ => s₁.log acts
    | .error _ => s.events

/-- The log of a run goes on after its first act. -/
theorem log_cons {a : Act} (keeps : a ≠ .takeEvents) {s₁ : Session} (ok : s.act a = .ok s₁)
    (acts : List Act) : s.log (a :: acts) = s₁.log acts := by
  rw [log]
  · rw [ok]
  · exact keeps

/-- Everything that a run reports leads to the picture of the session in the end, and it is emitted
by the moments of the run, each event by a move of its kind. -/
theorem log_of_run (tidy : s.Tidy .all) {acts : List Act} (ok : s.run acts = .ok s') :
    s.log acts = s.events ++ (s.course acts).flatMap Moment.emitted ∧
      Leads s.picture ((s.course acts).flatMap Moment.emitted) s'.picture ∧
      ∀ m ∈ s.course acts, ∀ e ∈ m.emitted, e.ComesOf m.move := by
  induction acts generalizing s with
  | nil =>
    cases ok
    exact ⟨(List.append_nil _).symm, .nil _, fun _ mem => absurd mem List.not_mem_nil⟩
  | cons a acts ih =>
    obtain ⟨s₁, first, rest⟩ := run_cons.mp ok
    obtain ⟨logged, leads, comes⟩ := ih (tidy_of_act tidy first) rest
    by_cases take : a = .takeEvents
    · -- What is taken is in the log already, and taking it emits nothing.
      subst take
      cases first
      have nothing : (s.idle.trail (s.moves .takeEvents)).flatMap Moment.emitted = [] :=
        congrArg (· ++ []) List.drop_nil
      simp only [course, act, List.flatMap_append, nothing, List.nil_append]
      refine ⟨?_, leads, fun m mem e emitted => ?_⟩
      · rw [log, logged]
        rfl
      · rcases List.mem_append.mp mem with early | later
        · cases List.mem_singleton.mp early
          simp [Moment.emitted, Moment.after, idle, Work.perform] at emitted
        · exact comes m later e emitted
    · obtain ⟨⟨told, same, early⟩, adds⟩ := tells_act tidy take first
      have events := (carries_act tidy a.within_all first).events adds
      -- What is told of the act is what its moments emit.
      obtain rfl : told = (s.idle.trail (s.moves a)).flatMap Moment.emitted :=
        List.append_cancel_left (same.symm.trans events)
      simp only [course, first, List.flatMap_append]
      refine ⟨?_, early.append leads, fun m mem => ?_⟩
      · rw [log_cons take first, logged, ← List.append_assoc]
        exact congrArg (· ++ _) events
      · rcases List.mem_append.mp mem with early | later
        · exact (adds m early).comes
        · exact comes m later

/-- Whoever is said to wait no more is a member, and nothing is parked for it. -/
theorem member_of_resolved (lists : s.ListsMembers) {arrival : Arrival} {t : Subscriber}
    (resolved : .referencesResolved t ∈ (⟨s, .replay arrival⟩ : Moment).emitted) :
    (s.resolveNow arrival).Member t ∧ (s.resolveNow arrival).waitlist.parkedOf t = ∅ := by
  have same : (⟨s, .replay arrival⟩ : Moment).emitted = _ :=
    (congrArg (List.drop s.events.length) (events_resolveNow s arrival)).trans List.drop_left
  rw [same] at resolved
  obtain ⟨_, complete, eq⟩ := List.mem_map.mp resolved
  cases eq
  obtain ⟨waited, done⟩ := Update.truthful_resolve s.world s.waitlist s.resolver arrival.reference
    arrival.object t complete
  have member := lists.members t (lists.exact.parkedOf_ne_empty (.inr (.inr ⟨_, waited⟩)))
  refine ⟨ListsMembers.member_of_channels (routine_resolveNow s arrival).channels member, ?_⟩
  obtain ⟨_, _, _, eq, -⟩ := resolveNow_eq s arrival
  rw [eq]
  exact done

variable {settings : Settings} {protocol : Protocol} {acts : List Act}

/-- **The log tells the truth.** In the log of every run an entity is reported as built only while
it is not, and as removed or under other authority only while it is. The entities that are built in
the end are those with a channel, each with the root of its channel and with the authority that the
log gives it. The events of the log are those that the moves of the run emit, and whoever is said
there to wait no more is an object of an open channel for which nothing is parked. -/
theorem log_tells_truth (ok : (start settings protocol).run acts = .ok s) :
    (∀ before e after, (start settings protocol).log acts = before ++ e :: after →
        e.Fits (told before)) ∧
      (∀ e, told ((start settings protocol).log acts) e =
        (s.channels.get? e).map fun c => ⟨c.root, c.authority⟩) ∧
      (start settings protocol).log acts =
        ((start settings protocol).course acts).flatMap Moment.emitted ∧
      ∀ m ∈ (start settings protocol).course acts, ∀ t, .referencesResolved t ∈ m.emitted →
        m.after.Member t ∧ m.after.waitlist.parkedOf t = ∅ := by
  obtain ⟨logged, leads, comes⟩ := log_of_run (tidy_start settings protocol) ok
  have blank : (start settings protocol).picture = fun _ => none := by
    funext e
    simp [picture, start, Channels.empty, Channels.get?]
  rw [blank] at leads
  have listed := (moments_induction (P := ListsMembers) (fun _ _ tidy apt => apt.listsMembers tidy)
    (tidy_start settings protocol) (.start settings protocol) (fun a _ => a.within_all) ok).1
  refine ⟨fun before e after split => leads.fits (logged.symm.trans split), fun e => ?_, logged,
    fun m mem t emitted => ?_⟩
  · rw [logged]
    exact congrFun leads.foldl e
  · obtain ⟨arrival, move⟩ := comes m mem _ emitted
    obtain ⟨s, _⟩ := m
    subst move
    exact member_of_resolved (listed _ mem) emitted

/-- A crate gets an authority before it is built, and points at another crate, which comes later.
The host takes the events. Then the first crate goes and comes again, without authority. -/
def comesAgain : List Act :=
  let crate := (Blueprint.ofClass 1 "Crate").withFields Stock.rootDataComponent
    [.at 5 (.ref (.root 2))]
  [.receive (.addEntity 1), .receive (.authorityChange 1 10 .authoritative)] ++
    (crate.operations ++ (Blueprint.ofClass 2 "Crate").operations).map .receive ++
    [.takeEvents, .receive (.authorityChange 2 10 .authoritative), .receive (.removeEntity 1)] ++
    crate.operations.map .receive

theorem log_tells_truth_comesAgain :
    ∃ s, (start {} Stock.protocol).run comesAgain = .ok s ∧
      (start {} Stock.protocol).log comesAgain =
        [.entityConstructed 1 ⟨0, 0⟩, .authorityChanged 1 10 .authoritative,
          .entityConstructed 2 ⟨1, 0⟩, .referencesResolved ⟨⟨1, 0⟩, ⟨0, 0⟩⟩,
          .authorityChanged 2 10 .authoritative, .entityRemoved 1,
          .entityConstructed 1 ⟨0, 1⟩] ∧
      (s.channels.get? 1).map (fun c => (c.root, c.authority 10)) =
        some (⟨0, 1⟩, .notAuthoritative) ∧
      (s.channels.get? 2).map (fun c => (c.root, c.authority 10)) =
        some (⟨1, 0⟩, .authoritative) := by
  obtain ⟨s, ok, -⟩ := exists_run (start {} Stock.protocol) comesAgain (fun _ => true)
    (by decide +kernel)
  have log : (start {} Stock.protocol).log comesAgain =
      [.entityConstructed 1 ⟨0, 0⟩, .authorityChanged 1 10 .authoritative,
        .entityConstructed 2 ⟨1, 0⟩, .referencesResolved ⟨⟨1, 0⟩, ⟨0, 0⟩⟩,
        .authorityChanged 2 10 .authoritative, .entityRemoved 1,
        .entityConstructed 1 ⟨0, 1⟩] := by decide +kernel
  obtain ⟨-, tells, -⟩ := log_tells_truth ok
  have each (e : EntityId) : (s.channels.get? e).map (fun c => (c.root, c.authority 10)) =
      (told ((start {} Stock.protocol).log comesAgain) e).map
        fun t => (t.root, t.authority 10) := by
    rw [tells, Option.map_map]
    rfl
  refine ⟨s, ok, log, ?_, ?_⟩
  · rw [each, log]
    rfl
  · rw [each, log]
    rfl

end Session

end Replica
