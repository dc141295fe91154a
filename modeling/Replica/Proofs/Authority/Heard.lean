import Mathlib.Data.List.Flatten
import Replica.Proofs.Authority.Course
import Replica.Proofs.Housing

/-! # What objects hear of authority

A change of authority over a built entity is reported, and announced to the object that it concerns,
both in the moment in which it is carried out. So the calls that a run makes for an entity are told
apart by the moments that make them, whatever becomes of the handles of its objects: each is made
when a change over the entity is reported, to an object of its channel, and no moment calls anybody
else.

Main definitions:
* `grantsTold` — the changes of authority over an entity that a log tells of.
* `Moment.announcements`, `Moment.callsFor` — the calls that a moment makes to announce authority,
  and those it makes for an entity.
* `Moment.Announces` — a moment calls as it reports, and only objects of the entity concerned.
* `Session.Heard` — the objects of an entity have heard what is told of it.
* `Session.heard_of_run`, `Session.announces_of_run` — so it is in every run.
* `Session.authority_in_order` — what was delivered for a built entity was reported, heard and kept
  in that order. -/

namespace Replica

/-! ## What a log tells -/

/-- The change of authority that an event tells of, over whichever entity. -/
def Event.grant? : Event → Option (ComponentId × Authority)
  | .authorityChanged _ component authority => some (component, authority)
  | .entityConstructed _ _ | .entityRemoved _ | .referencesResolved _
  | .sendCommandResponse _ _ _ | .retryCommand _ _ => none

/-- The changes of authority over an entity that a log **tells** of. -/
def grantsTold (entity : EntityId) (log : List Event) : List (ComponentId × Authority) :=
  (log.filter (·.isAbout entity)).filterMap Event.grant?

theorem grantsTold_append (entity : EntityId) (log later : List Event) :
    grantsTold entity (log ++ later) = grantsTold entity log ++ grantsTold entity later := by
  simp [grantsTold]

/-- What is told of an entity that was built once is what was told since. -/
theorem grantsTold_built {entity : EntityId} {root : Handle} {log : List Event}
    {changes : List (ComponentId × Authority)} (about : log.filter (·.isAbout entity) =
      .entityConstructed entity root :: changes.map (.ofChange entity)) :
    grantsTold entity log = changes := by
  rw [grantsTold, about, List.filterMap_cons_none rfl, List.filterMap_map]
  exact List.filterMap_some

/-! ## What a moment announces -/

namespace Moment

/-- The calls by which a moment **announces** changes of authority to objects. -/
def announcements (m : Moment) : List (Handle × ComponentId × Authority) :=
  m.after.world.journal.authority.drop m.session.world.journal.authority.length

/-- The calls that a moment makes **for** an entity: those that come of a change of authority over
the entity. -/
def callsFor (entity : EntityId) (m : Moment) : List (Handle × ComponentId × Authority) :=
  match m.move with
  | .authorize change => if change.entity = entity then m.announcements else []
  | _ => []

theorem announcements_of_append {m : Moment} {calls : List (Handle × ComponentId × Authority)}
    (authority : m.after.world.journal.authority = m.session.world.journal.authority ++ calls) :
    m.announcements = calls := by
  rw [announcements, authority, List.drop_left]

/-- A moment **announces** what it reports of authority: it makes a call for each change, to an
object of the channel of the entity concerned. -/
structure Announces (m : Moment) : Prop where
  /-- Calls made before are not touched. -/
  grows : m.after.world.journal.authority = m.session.world.journal.authority ++ m.announcements
  /-- Each call tells of a change that is reported, in order. -/
  told : m.announcements.map (·.2) = m.emitted.filterMap Event.grant?
  /-- It goes to an object of the entity that the change is about. -/
  placed : ∀ call ∈ m.announcements, ∃ change c, m.move = .authorize change ∧
    m.session.channels.get? change.entity = some c ∧ call.1 ∈ c.handles

end Moment

open Session in
/-- Only a change of authority is announced as such. -/
theorem Move.Apt.authority {w : Work} {m : Move} (apt : m.Apt .all w)
    (other : ∀ change, m ≠ .authorize change) :
    (w.perform m).session.world.journal.authority = w.session.world.journal.authority := by
  cases m with
  | mark opens =>
    obtain ⟨held, marked⟩ := w.exists_perform_mark opens
    rw [marked]
  | learn arrival =>
    obtain ⟨held, learnt⟩ := w.exists_perform_learn arrival
    rw [learnt]
  | hold _ | draft _ | settle _ _ _ => rfl
  | alter change =>
    cases change with
    | addClass _ _ | addStartup _ | placeLocal _ => rfl
    | destroy object =>
      exact (congrArg Journal.authority (World.journal_destroy w.session.world object)).trans rfl
  | found draft =>
    rcases apt.found_cases with ⟨channel, step⟩ | ⟨idle, -⟩
    · obtain ⟨_, _, _, _, -, built, -, same⟩ := found_eq_some.mp step
      rw [same]
      exact (congrArg Journal.authority (World.journal_of_instantiate built)).trans rfl
    · rw [idle]
  | populate channel data =>
    exact (congrArg Journal.authority (writes_populate channel w.session data).journal).trans rfl
  | complete channel =>
    exact (congrArg Journal.authority (World.journal_finalize _ channel.root)).trans rfl
  | authorize change => exact absurd rfl (other change)
  | write entity data =>
    exact (congrArg Journal.authority (writes_write w.session entity data).journal).trans rfl
  | deliver call =>
    exact (congrArg Journal.authority (journal_dispatch w.session _ _ _ _)).trans rfl
  | replay arrival =>
    refine (congrArg Journal.authority (journal_resolveNow w.session arrival)).trans ?_
    exact (congrArg Journal.authority (Update.rewrites_resolve ..).journal).trans rfl
  | remove entity =>
    rw [Work.perform]
    rcases w.session.remove_cases entity with ⟨-, same⟩ | ⟨-, same⟩ | ⟨channel, -, same⟩
    · rw [same]
    · rw [same]
    · rw [same]
      exact (congrArg Journal.authority (World.journal_destroy _ _)).trans rfl

/-- An event tells of no change of authority if it does not come of one. -/
theorem Event.ComesOf.grant?_eq_none {e : Event} {m : Move} (h : e.ComesOf m)
    (other : ∀ change, m ≠ .authorize change) : e.grant? = none := by
  cases e with
  | authorityChanged _ _ _ =>
    obtain ⟨change, same⟩ := h
    exact absurd same (other change)
  | _ => rfl

namespace Session

variable {s s₁ : Session}

/-- What is announced of a change of authority over an entity, and to which object of its
channel. -/
def announced (s : Session) (c : Channel) (change : ComponentId × Authority) :
    Handle × ComponentId × Authority :=
  (s.authorityTarget c change.1, change)

theorem announced_congr (protocol : s₁.protocol = s.protocol) (c : Channel) :
    s₁.announced c = s.announced c := by
  unfold announced authorityTarget
  rw [protocol]

/-- What is announced is announced to an object of the channel. -/
theorem exists_authorityTarget (s : Session) (c : Channel) (component : ComponentId) :
    ∃ offset, c.objectAt? offset = some (s.authorityTarget c component) := by
  unfold authorityTarget
  cases found : (s.protocol.binding? component).bind (c.objectAt? ·.offset) with
  | none => exact ⟨_, c.objectAt?_root⟩
  | some h =>
    obtain ⟨b, -, here⟩ := Option.bind_eq_some_iff.mp found
    exact ⟨b.offset, here⟩

/-- **A change of authority** over a built entity is reported, and announced to one of its
objects. -/
theorem authorize_of_built (s : Session) {change : AuthorityChange} {c : Channel}
    (opened : s.channels.get? change.entity = some c) :
    (⟨s, .authorize change⟩ : Moment).emitted =
        [.authorityChanged change.entity change.component change.authority] ∧
      (⟨s, .authorize change⟩ : Moment).after.world.journal.authority =
        s.world.journal.authority ++ [s.announced c (change.component, change.authority)] := by
  have changed := changeAuthority_of_built opened
  exact ⟨Moment.emitted_of_append (congrArg Session.events changed),
    congrArg (·.world.journal.authority) changed⟩

/-- A change of authority over an entity that is not built is neither reported nor announced. -/
theorem authorize_of_unbuilt (s : Session) {change : AuthorityChange}
    (unbuilt : s.channels.get? change.entity = none) :
    (⟨s, .authorize change⟩ : Moment).emitted = [] ∧
      (⟨s, .authorize change⟩ : Moment).after.world.journal.authority =
        s.world.journal.authority ++ [] := by
  have drafted := changeAuthority_of_unbuilt unbuilt
  exact ⟨Moment.emitted_of_append ((congrArg Session.events drafted).trans
    (List.append_nil s.events).symm), (congrArg (·.world.journal.authority) drafted).trans
      (List.append_nil _).symm⟩

end Session

open Session in
/-- **A change of authority is announced when it is reported**, in one move. -/
theorem Move.Apt.announces {w : Work} {m : Move} (apt : m.Apt .all w)
    (comes : ∀ e ∈ (⟨w.session, m⟩ : Moment).emitted, e.ComesOf m) :
    (⟨w.session, m⟩ : Moment).Announces := by
  have made {calls : List (Handle × ComponentId × Authority)}
      (authority : (⟨w.session, m⟩ : Moment).after.world.journal.authority =
        w.session.world.journal.authority ++ calls)
      (told : calls.map (·.2) = (⟨w.session, m⟩ : Moment).emitted.filterMap Event.grant?)
      (placed : ∀ call ∈ calls, ∃ change c, m = .authorize change ∧
        w.session.channels.get? change.entity = some c ∧ call.1 ∈ c.handles) :
      (⟨w.session, m⟩ : Moment).Announces := by
    obtain rfl := Moment.announcements_of_append authority
    exact ⟨authority, told, placed⟩
  by_cases change : ∃ change, m = .authorize change
  · obtain ⟨change, rfl⟩ := change
    cases opened : w.session.channels.get? change.entity with
    | some c =>
      obtain ⟨emitted, authority⟩ := w.session.authorize_of_built opened
      refine made authority (by rw [emitted]; rfl) fun call mem => ⟨change, c, rfl, opened, ?_⟩
      obtain ⟨offset, target⟩ := w.session.exists_authorityTarget c change.component
      rw [List.mem_singleton.mp mem]
      exact Channel.mem_handles_of_objectAt? target
    | none =>
      obtain ⟨emitted, authority⟩ := w.session.authorize_of_unbuilt opened
      exact made authority (by rw [emitted]; rfl) fun _ mem => absurd mem List.not_mem_nil
  · have other : ∀ k, m ≠ .authorize k := fun k same => change ⟨k, same⟩
    have silent : (⟨w.session, m⟩ : Moment).emitted.filterMap Event.grant? = [] :=
      List.filterMap_eq_nil_iff.mpr fun e mem => (comes e mem).grant?_eq_none other
    have authority := apt.authority other
    rw [w.session_perform] at authority
    exact made (authority.trans (List.append_nil _).symm) silent.symm
      fun _ mem => absurd mem List.not_mem_nil

/-! ## What the objects of an entity hear -/

namespace Session

variable {s s₁ : Session} {entity : EntityId} {past : List Moment}

/-- The objects of an entity have **heard** in some moments what these tell of it. -/
structure Heard (s : Session) (entity : EntityId) (past : List Moment) : Prop where
  /-- Of an entity that is not built nothing is told, and for it nobody is called. -/
  unbuilt : s.channels.get? entity = none → past.flatMap (·.callsFor entity) = [] ∧
    grantsTold entity (past.flatMap Moment.emitted) = []
  /-- For one that is built a call is made for each change, to the object that it concerns. -/
  built : ∀ {c : Channel}, s.channels.get? entity = some c →
    past.flatMap (·.callsFor entity) =
      (grantsTold entity (past.flatMap Moment.emitted)).map (s.announced c)

namespace Heard

/-- A moment that has nothing to tell of the entity, calls nobody for it and keeps its channel. -/
theorem quiet (h : s.Heard entity past) {m : Moment} (protocol : s₁.protocol = s.protocol)
    (channel : s₁.channels.get? entity = s.channels.get? entity)
    (calls : m.callsFor entity = []) (told : grantsTold entity m.emitted = []) :
    s₁.Heard entity (past ++ [m]) := by
  have called : (past ++ [m]).flatMap (·.callsFor entity) = past.flatMap (·.callsFor entity) := by
    rw [List.flatMap_append, List.flatMap_singleton, calls, List.append_nil]
  have tells : grantsTold entity ((past ++ [m]).flatMap Moment.emitted) =
      grantsTold entity (past.flatMap Moment.emitted) := by
    rw [List.flatMap_append, List.flatMap_singleton, grantsTold_append, told, List.append_nil]
  refine ⟨fun none => ?_, fun {c} opened => ?_⟩
  · rw [called, tells]
    exact h.unbuilt (channel ▸ none)
  · rw [called, tells, announced_congr protocol]
    exact h.built (channel ▸ opened)

/-- The objects of a new channel have heard nothing, because nobody was called for the entity while
it was not built. -/
theorem found (h : s.Heard entity past) {m : Moment} {channel : Channel}
    (unbuilt : s.channels.get? entity = none) (opened : s₁.channels.get? entity = some channel)
    (calls : m.callsFor entity = []) (told : grantsTold entity m.emitted = []) :
    s₁.Heard entity (past ++ [m]) := by
  obtain ⟨called, tells⟩ := h.unbuilt unbuilt
  refine ⟨fun none => (Option.some_ne_none _ (opened.symm.trans none)).elim, fun _ => ?_⟩
  rw [List.flatMap_append, List.flatMap_append, List.flatMap_singleton, List.flatMap_singleton,
    grantsTold_append, called, tells, calls, told]
  rfl

/-- **A change of authority** over the entity is heard by one of its objects. -/
theorem changeAuthority (h : s.Heard entity past) (tidy : s.Tidy .all) {change : AuthorityChange}
    {c : Channel} (own : change.entity = entity) (opened : s.channels.get? entity = some c) :
    (s.changeAuthority change).Heard entity (past ++ [⟨s, .authorize change⟩]) := by
  subst own
  obtain ⟨emitted, authority⟩ := s.authorize_of_built opened
  have calls : (⟨s, .authorize change⟩ : Moment).callsFor change.entity =
      [s.announced c (change.component, change.authority)] :=
    (if_pos rfl).trans (Moment.announcements_of_append authority)
  have told : grantsTold change.entity (⟨s, .authorize change⟩ : Moment).emitted =
      [(change.component, change.authority)] := by
    rw [emitted]
    simp [grantsTold, Event.isAbout, Event.grant?]
  have filed : (c.setAuthority change.component change.authority).entity = change.entity :=
    tidy.channels change.entity c opened
  have here : (s.changeAuthority change).channels.get? change.entity =
      some (c.setAuthority change.component change.authority) := by
    rw [changeAuthority_of_built opened]
    exact (Channels.get?_update _ _ _).trans (if_pos filed)
  refine ⟨fun none => (Option.some_ne_none _ (here.symm.trans none)).elim, fun {c'} opened' => ?_⟩
  cases here.symm.trans opened'
  rw [List.flatMap_append, List.flatMap_append, List.flatMap_singleton, List.flatMap_singleton,
    grantsTold_append, calls, told, List.map_append, h.built opened]
  rw [changeAuthority_of_built opened]
  rfl

end Heard

end Session

open Session in
/-- **Every apt move** that does not take an entity down lets its objects hear of authority what the
move reports. -/
theorem Move.Apt.heard {w : Work} {m : Move} (apt : m.Apt .all w) (tidy : w.session.Tidy .all)
    {entity : EntityId} (comes : ∀ e ∈ (⟨w.session, m⟩ : Moment).emitted, e.ComesOf m)
    (stays : .entityRemoved entity ∉ (⟨w.session, m⟩ : Moment).emitted) {past : List Moment}
    (h : w.session.Heard entity past) :
    (w.perform m).session.Heard entity (past ++ [⟨w.session, m⟩]) := by
  have protocol := (setup_perform w m).2
  have silent (other : ∀ change, m ≠ .authorize change) :
      grantsTold entity (⟨w.session, m⟩ : Moment).emitted = [] :=
    List.filterMap_eq_nil_iff.mpr fun e mem =>
      (comes e (List.mem_of_mem_filter mem)).grant?_eq_none other
  have quiet (channels : (w.perform m).session.channels = w.session.channels)
      (calls : (⟨w.session, m⟩ : Moment).callsFor entity = [])
      (other : ∀ change, m ≠ .authorize change) :
      (w.perform m).session.Heard entity (past ++ [⟨w.session, m⟩]) :=
    h.quiet protocol (by rw [channels]) calls (silent other)
  -- An entity hears of its construction and of changes of authority over it; its removal is
  -- excluded, and every other move is quiet.
  cases m with
  | mark opens =>
    obtain ⟨held, marked⟩ := w.exists_perform_mark opens
    exact quiet (by rw [marked]) rfl (by simp)
  | learn arrival =>
    obtain ⟨held, learnt⟩ := w.exists_perform_learn arrival
    exact quiet (by rw [learnt]) rfl (by simp)
  | hold _ | draft _ | settle _ _ _ | alter _ | complete _ => exact quiet rfl rfl (by simp)
  | found draft =>
    rcases apt.found_cases with ⟨channel, step⟩ | ⟨idle, -⟩
    · obtain ⟨-, unbuilt, get⟩ := found_channels step
      rw [Work.perform, step] at protocol ⊢
      by_cases own : draft.entity = entity
      · subst own
        exact h.found unbuilt ((get _).trans (if_pos rfl)) rfl (silent (by simp))
      · exact h.quiet protocol ((get _).trans (if_neg own)) rfl (silent (by simp))
    · exact quiet (by rw [idle]) rfl (by simp)
  | populate channel data =>
    exact quiet (writes_populate channel _ data).routine.channels rfl (by simp)
  | authorize change =>
    cases opened : w.session.channels.get? change.entity with
    | some c =>
      by_cases own : change.entity = entity
      · exact h.changeAuthority tidy own (own ▸ opened)
      · have filed : (c.setAuthority change.component change.authority).entity = change.entity :=
          tidy.channels change.entity c opened
        refine h.quiet protocol ?_ (if_neg own) ?_
        · rw [Work.perform, changeAuthority_of_built opened]
          exact (Channels.get?_update _ _ _).trans (if_neg (filed ▸ own))
        · rw [(w.session.authorize_of_built opened).1]
          simp [grantsTold, Event.isAbout, own]
    | none =>
      obtain ⟨emitted, authority⟩ := w.session.authorize_of_unbuilt opened
      refine h.quiet protocol ?_ ?_ (by rw [emitted]; rfl)
      · rw [Work.perform, changeAuthority_of_unbuilt opened]
      · exact (ite_eq_right_iff.mpr fun _ => Moment.announcements_of_append authority)
  | write e data => exact quiet (writes_write _ e data).routine.channels rfl (by simp)
  | deliver call => exact quiet (routine_deliverCall _ call).channels rfl (by simp)
  | replay arrival => exact quiet (routine_resolveNow _ arrival).channels rfl (by simp)
  | remove e =>
    rcases w.session.remove_cases e with ⟨-, same⟩ | ⟨-, same⟩ | ⟨channel, -, same⟩
    · exact quiet (by rw [Work.perform, same]) rfl (by simp)
    · exact quiet (by rw [Work.perform, same]) rfl (by simp)
    · have emitted : (⟨w.session, .remove e⟩ : Moment).emitted = [.entityRemoved e] :=
        Moment.emitted_of_append (congrArg Session.events same)
      have other : e ≠ entity := by
        rintro rfl
        exact stays (emitted ▸ List.mem_singleton_self _)
      refine h.quiet protocol ?_ rfl (silent (by simp))
      rw [Work.perform, same]
      exact (Channels.get?_close _ _ _).trans (if_neg other)

namespace Session

variable {settings : Settings} {protocol : Protocol} {acts : List Act} {s : Session}

/-- **In every run** that does not take an entity down, its objects hear of authority what the run
reports of the entity. -/
theorem heard_of_run (ok : (start settings protocol).run acts = .ok s) {entity : EntityId}
    (stays : .entityRemoved entity ∉ (start settings protocol).log acts) :
    s.Heard entity ((start settings protocol).course acts) := by
  obtain ⟨logged, -, comes⟩ := log_of_run (tidy_start settings protocol) ok
  rw [logged] at stays
  have heard := (run_induction
    (I := fun w past => (∀ m ∈ past, ∀ e ∈ m.emitted, e.ComesOf m.move) →
      .entityRemoved entity ∉ past.flatMap Moment.emitted → w.session.Heard entity past)
    (fun w past m tidy apt earlier comes stays => by
      rw [List.forall_mem_append, List.forall_mem_singleton] at comes
      rw [List.flatMap_append, List.flatMap_singleton, List.mem_append, not_or] at stays
      exact apt.heard tidy comes.2 stays.2 (earlier comes.1 stays.1))
    (tidy_start settings protocol)
    (fun _ _ => ⟨fun _ => ⟨rfl, rfl⟩,
      fun opened => by simp [idle, start, Channels.empty, Channels.get?] at opened⟩)
    (fun a _ => a.within_all) ok).1
  exact heard comes fun mem => stays (List.mem_append_right _ mem)

/-- **During every run** changes of authority are announced as they are reported. -/
theorem announces_of_run (ok : (start settings protocol).run acts = .ok s) :
    ∀ m ∈ (start settings protocol).course acts, m.Announces := by
  obtain ⟨-, -, comes⟩ := log_of_run (tidy_start settings protocol) ok
  have announced := (run_induction
    (I := fun _ past => ∀ m ∈ past, (∀ e ∈ m.emitted, e.ComesOf m.move) → m.Announces)
    (fun w past m _ apt earlier => by
      rw [List.forall_mem_append, List.forall_mem_singleton]
      exact ⟨earlier, apt.announces⟩)
    (tidy_start settings protocol) (fun _ mem => absurd mem List.not_mem_nil)
    (fun a _ => a.within_all) ok).1
  exact fun m mem => announced m mem (comes m mem)

/-! ## Built entities -/

/-- **Authority keeps its order.** If a run begins the draft of an entity once, never removes the
entity, and builds it, then the changes that are due are what is reported of it, each once and in
order, right after its construction. The calls that are made for the entity are made for these
changes, each to the object of the entity that it concerns and in the moment in which it is
reported; and the last change of a component counts. What is due was delivered in that order; and
where no removal was delivered, every change that was delivered is processed, or held back by a
section still open. -/
theorem authority_in_order (ok : (start settings protocol).run acts = .ok s) {entity : EntityId}
    {c : Channel}
    (begun : ((start settings protocol).steps acts).countP (·.begins entity) = 1)
    (stays : ∀ step ∈ (start settings protocol).steps acts, step.removes entity = false)
    (built : s.channels.get? entity = some c) :
    let changes := due ((start settings protocol).steps acts) entity
    ((start settings protocol).log acts).filter (·.isAbout entity) =
        .entityConstructed entity c.root :: changes.map (.ofChange entity) ∧
      (∀ k, c.authority k = (changes.reverse.lookup k).getD .notAuthoritative) ∧
      ((start settings protocol).course acts).flatMap (·.callsFor entity) =
        changes.map (s.announced c) ∧
      (∀ m ∈ (start settings protocol).course acts, m.Announces) ∧
      changes.Sublist (acts.flatMap (·.grants entity)) ∧
      (.removal entity ∉ acts → ((start settings protocol).steps acts).flatMap (·.grants entity) ++
        ownChanges entity s.held.burst.authority = acts.flatMap (·.grants entity)) := by
  intro changes
  have tidy : (start settings protocol).Tidy .all := tidy_start settings protocol
  have absent : (start settings protocol).standing entity = .absent := by
    simp [standing_eq_absent, start, Channels.get?, Channels.empty, Drafts.get?, Drafts.empty]
  obtain ⟨news, logged, takes⟩ := takes_due tidy ok absent begun stays
  rw [standing_of_built built] at takes
  obtain ⟨told, reported⟩ := takes.of_drafted
  have about : ((start settings protocol).log acts).filter (·.isAbout entity) =
      .entityConstructed entity c.root :: changes.map (.ofChange entity) := by
    rw [logged]
    exact reported
  have unremoved : .entityRemoved entity ∉ (start settings protocol).log acts := fun mem => by
    have listed : .entityRemoved entity ∈
        ((start settings protocol).log acts).filter (·.isAbout entity) :=
      List.mem_filter.mpr ⟨mem, beq_self_eq_true entity⟩
    rw [about] at listed
    simp [Event.ofChange] at listed
  obtain ⟨logs, -, -⟩ := log_of_run tidy ok
  obtain ⟨ordered, kept⟩ := grants_run entity tidy ok
  refine ⟨about, fun k => ?_, ?_, announces_of_run ok, ?_, kept⟩
  · have last := congrArg (·.authority k) told
    rwa [Told.authority_grants] at last
  · have same : (start settings protocol).log acts =
        ((start settings protocol).course acts).flatMap Moment.emitted := logs
    rw [(heard_of_run ok unremoved).built built, ← same, grantsTold_built about]
  · -- What was processed before the draft was begun is not due.
    refine List.Sublist.trans ?_ ((List.sublist_append_left _ _).trans ordered)
    exact (List.dropWhile_sublist _).flatMap _

/-- A character appears in the yard. Authority over it changes before it appears, while it waits,
twice in a section during which the yard is loaded, and once more. -/
def yardInSection : List Act :=
  [.receive (.authorityChange 1 Stock.rootDataComponent .lossImminent)] ++
    ((Blueprint.ofClass 1 "Character").inContainer yard).operations.map .receive ++
    [.receive (.authorityChange 1 Stock.rootDataComponent .authoritative),
      .receive (.criticalSection true),
      .receive (.authorityChange 1 Stock.weaponDataComponent .authoritative), .load yard,
      .receive (.authorityChange 1 Stock.rootDataComponent .lossImminent),
      .receive (.criticalSection false),
      .receive (.authorityChange 1 Stock.weaponDataComponent .notAuthoritative)]

theorem authority_in_order_yardInSection :
    ∃ s c, (start {} Stock.protocol).run yardInSection = .ok s ∧ s.channels.get? 1 = some c ∧
      ((start {} Stock.protocol).log yardInSection).filter (·.isAbout 1) =
        [.entityConstructed 1 c.root,
          .authorityChanged 1 Stock.rootDataComponent .authoritative,
          .authorityChanged 1 Stock.weaponDataComponent .authoritative,
          .authorityChanged 1 Stock.rootDataComponent .lossImminent,
          .authorityChanged 1 Stock.weaponDataComponent .notAuthoritative] ∧
      c.authority Stock.rootDataComponent = .lossImminent ∧
      c.authority Stock.weaponDataComponent = .notAuthoritative ∧
      ((start {} Stock.protocol).course yardInSection).flatMap (·.callsFor 1) =
        [(⟨0, 0⟩, Stock.rootDataComponent, .authoritative),
          (⟨1, 0⟩, Stock.weaponDataComponent, .authoritative),
          (⟨0, 0⟩, Stock.rootDataComponent, .lossImminent),
          (⟨1, 0⟩, Stock.weaponDataComponent, .notAuthoritative)] := by
  have changes : due ((start {} Stock.protocol).steps yardInSection) 1 =
      [(Stock.rootDataComponent, .authoritative), (Stock.weaponDataComponent, .authoritative),
        (Stock.rootDataComponent, .lossImminent),
        (Stock.weaponDataComponent, .notAuthoritative)] := by
    decide +kernel
  obtain ⟨s, ok, test⟩ := exists_run (start {} Stock.protocol) yardInSection
    (fun s => (s.channels.get? 1).any fun c =>
      s.authorityTarget c Stock.rootDataComponent == ⟨0, 0⟩ &&
        s.authorityTarget c Stock.weaponDataComponent == ⟨1, 0⟩)
    (by decide +kernel)
  simp only [Option.any_eq_true, Bool.and_eq_true, beq_iff_eq] at test
  obtain ⟨c, built, root, weapon⟩ := test
  have begun : ((start {} Stock.protocol).steps yardInSection).countP (·.begins 1) = 1 := by
    decide +kernel
  obtain ⟨reported, last, heard, -⟩ := authority_in_order ok begun (by decide +kernel) built
  rw [changes] at reported last heard
  refine ⟨s, c, ok, built, reported, last _, last _, heard.trans ?_⟩
  simp [announced, root, weapon]

end Session

end Replica
