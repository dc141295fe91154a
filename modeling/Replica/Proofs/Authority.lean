import Replica.Proofs.Drain
import Replica.Proofs.Log
import Replica.Proofs.Neighbours

/-! # Changes of authority keep their order

A change of authority may take one of several ways. An open section holds it back; a draft collects
it and hands it over when its entity is built; a built entity takes it at once. How an entity stands
says which way is open to it, and few things can become of that: an absent entity drops what comes
for it, a draft collects it or comes to nothing or is built and takes all it has collected, and a
built entity takes what comes. Steps of this kind compose, so what holds of each phase of a burst
holds of the whole burst.

Main definitions:
* `Standing`, `Session.standing` — what an entity is, and what it holds or is told to be.
* `Standing.Takes`, `Session.Takes` — what becomes of changes of authority, and what is reported.
* `Session.Unmoved` — an entity stands as it did, and nothing about it is reported.
* `Session.takes_construct` — what is held is handed over, after the entity is reported.
* `Session.takes_drain` — a burst hands its changes over after its additions. -/

namespace Replica

/-! ## Changes for one entity -/

/-- The changes of authority among others that are for one entity, in order. -/
def ownChanges (entity : EntityId) (changes : List AuthorityChange) :
    List (ComponentId × Authority) :=
  (changes.filter (·.entity == entity)).map fun change => (change.component, change.authority)

/-- The changes of an entity are picked out one list after the other. -/
theorem ownChanges_append (entity : EntityId) (changes later : List AuthorityChange) :
    ownChanges entity (changes ++ later) =
      ownChanges entity changes ++ ownChanges entity later := by
  simp [ownChanges]

/-- The changes of an entity are picked out one by one. -/
theorem ownChanges_flatMap (entity : EntityId) (changes : List AuthorityChange) :
    ownChanges entity changes = changes.flatMap fun change => ownChanges entity [change] := by
  induction changes with
  | nil => rfl
  | cons change rest ih =>
    rw [List.flatMap_cons, ← ih, ← ownChanges_append, List.singleton_append]

/-- The changes that a draft has collected are all for its entity. -/
theorem Draft.ownChanges_changes (d : Draft) : ownChanges d.entity d.changes = d.authority := by
  simp [ownChanges, changes, List.filter_map, Function.comp_def]

/-- The event that tells of a change. -/
def Event.ofChange (entity : EntityId) (change : ComponentId × Authority) : Event :=
  .authorityChanged entity change.1 change.2

/-- Whether an event is **about** an entity: it is built or taken down, or authority changes. -/
def Event.isAbout (entity : EntityId) : Event → Bool
  | .entityConstructed e _ | .entityRemoved e | .authorityChanged e _ _ => e == entity
  | .referencesResolved _ | .sendCommandResponse _ _ _ | .retryCommand _ _ => false

/-- A reply is about no entity. -/
theorem Event.IsReply.isAbout {e : Event} (h : e.IsReply) (entity : EntityId) :
    e.isAbout entity = false := by
  cases e with
  | sendCommandResponse _ _ _ | retryCommand _ _ => rfl
  | _ => exact h.elim

/-- What is told of an entity after several changes of authority. -/
def Told.grants (t : Told) (changes : List (ComponentId × Authority)) : Told :=
  changes.foldl (fun t (component, authority) => t.grant component authority) t

/-- Authority is granted one change after the other. -/
theorem Told.grants_append (t : Told) (changes later : List (ComponentId × Authority)) :
    t.grants (changes ++ later) = (t.grants changes).grants later :=
  List.foldl_append

/-- Authority leaves an entity its root. -/
theorem Told.root_grants (t : Told) (changes : List (ComponentId × Authority)) :
    (t.grants changes).root = t.root :=
  List.foldlRecOn changes _ (motive := fun t' : Told => t'.root = t.root) rfl
    fun _ same _ _ => same

/-- **The last change counts**, for each component. -/
theorem Told.authority_grants (t : Told) (changes : List (ComponentId × Authority))
    (k : ComponentId) :
    (t.grants changes).authority k = (changes.reverse.lookup k).getD (t.authority k) := by
  induction changes using List.reverseRecOn with
  | nil => rfl
  | append_singleton changes change ih =>
    rw [grants_append, List.reverse_append, List.reverse_singleton, List.singleton_append,
      List.lookup_cons]
    show (if change.1 = k then change.2 else (t.grants changes).authority k) = _
    by_cases own : change.1 = k
    · subst own
      simp
    · rw [if_neg own, ih, show (k == change.1) = false from beq_false_of_ne (Ne.symm own)]

/-! ## Standings -/

/-- How an entity **stands** in a session. -/
inductive Standing where
  /-- It is neither drafted nor built. -/
  | absent
  /-- It has a draft, which holds some changes of authority. -/
  | drafted (held : List (ComponentId × Authority))
  /-- It is built. -/
  | built (told : Told)

namespace Standing

/-- Whether an entity is neither drafted nor built. -/
def isAbsent : Standing → Bool
  | .absent => true
  | .drafted _ | .built _ => false

/-- How an entity stands once it is added: the draft of an absent one is begun. -/
def begun : Standing → Standing
  | .absent => .drafted []
  | p => p

/-- An entity begins once. -/
theorem begun_begun (p : Standing) : p.begun.begun = p.begun := by
  cases p <;> rfl

/-- Only an entity that is absent begins. -/
theorem begun_eq (p : Standing) : p.begun = if p.isAbsent then .drafted [] else p := by
  cases p <;> rfl

end Standing

/-- What becomes of an entity when changes of authority come for it, and which events **about** it
are reported. The changes are **taken**, held or dropped, and those that are taken come in order. -/
inductive Standing.Takes (entity : EntityId) :
    Standing → List (ComponentId × Authority) → List Event → Standing → Prop where
  /-- An absent entity drops them. -/
  | drops (changes : List (ComponentId × Authority)) : Takes entity .absent changes [] .absent
  /-- A draft holds them, behind those it has held before. -/
  | holds (held changes : List (ComponentId × Authority)) :
    Takes entity (.drafted held) changes [] (.drafted (held ++ changes))
  /-- A draft that comes to nothing drops all that it has held. -/
  | fails (held changes : List (ComponentId × Authority)) :
    Takes entity (.drafted held) changes [] .absent
  /-- A draft whose entity is built hands over all that it has held, before what comes then. -/
  | builds (held changes : List (ComponentId × Authority)) (root : Handle) :
    Takes entity (.drafted held) changes
      (.entityConstructed entity root :: (held ++ changes).map (.ofChange entity))
      (.built (Told.grants ⟨root, fun _ => .notAuthoritative⟩ (held ++ changes)))
  /-- A built entity takes them. -/
  | grants (t : Told) (changes : List (ComponentId × Authority)) :
    Takes entity (.built t) changes (changes.map (.ofChange entity)) (.built (t.grants changes))

namespace Standing.Takes

variable {entity : EntityId} {p q r : Standing} {changes later : List (ComponentId × Authority)}
  {news more : List Event}

/-- No change leaves an entity where it stands. -/
theorem refl (entity : EntityId) (p : Standing) : Takes entity p [] [] p := by
  cases p with
  | absent => exact .drops []
  | drafted held =>
    have kept : Takes entity (.drafted held) [] [] (.drafted (held ++ [])) := .holds held []
    rwa [List.append_nil] at kept
  | built t => exact .grants t []

/-- **Order is preserved**: what comes first is taken first, on whatever way. -/
theorem trans (h : Takes entity p changes news q) (h' : Takes entity q later more r) :
    Takes entity p (changes ++ later) (news ++ more) r := by
  cases h with
  | drops =>
    cases h'
    exact .drops _
  | holds held =>
    cases h' with
    | holds =>
      rw [List.append_assoc]
      exact .holds held _
    | fails => exact .fails held _
    | builds _ _ root =>
      rw [List.append_assoc]
      exact .builds held _ root
  | fails held =>
    cases h'
    exact .fails held _
  | builds held _ root =>
    cases h'
    rw [← Told.grants_append, List.cons_append, ← List.map_append, List.append_assoc]
    exact .builds held _ root
  | grants t =>
    cases h'
    rw [← Told.grants_append, ← List.map_append]
    exact .grants t _

/-- Of an absent entity nothing is reported, and it stays absent. -/
theorem of_absent (h : Takes entity .absent changes news q) : news = [] ∧ q = .absent := by
  cases h
  exact ⟨rfl, rfl⟩

/-- A built entity takes everything. -/
theorem of_built {t : Told} (h : Takes entity (.built t) changes news q) :
    news = changes.map (.ofChange entity) ∧ q = .built (t.grants changes) := by
  cases h
  exact ⟨rfl, rfl⟩

/-- **What a draft becomes** when its entity is built: nothing that has come for it is lost. -/
theorem of_drafted {held : List (ComponentId × Authority)} {t : Told}
    (h : Takes entity (.drafted held) changes news (.built t)) :
    t = Told.grants ⟨t.root, fun _ => .notAuthoritative⟩ (held ++ changes) ∧
      news = .entityConstructed entity t.root :: (held ++ changes).map (.ofChange entity) := by
  cases h
  rw [Told.root_grants]
  exact ⟨rfl, rfl⟩

end Standing.Takes

namespace Session

variable {s s₁ s₂ : Session} {entity : EntityId}

/-- How an entity stands. -/
def standing (s : Session) (entity : EntityId) : Standing :=
  match s.channels.get? entity, (s.drafts.get? entity).map Draft.authority with
  | some channel, _ => .built channel.told
  | none, some held => .drafted held
  | none, none => .absent

/-- The standing of an entity depends on its channel and on what its draft holds back. -/
theorem standing_congr (channels : s₁.channels.get? entity = s.channels.get? entity)
    (drafts : (s₁.drafts.get? entity).map Draft.authority =
      (s.drafts.get? entity).map Draft.authority) : s₁.standing entity = s.standing entity := by
  unfold standing
  rw [channels, drafts]

/-- An entity with a channel is built. -/
theorem standing_of_built {c : Channel} (opened : s.channels.get? entity = some c) :
    s.standing entity = .built c.told := by
  rw [standing, opened]

/-- An entity with a draft and no channel is drafted. -/
theorem standing_of_draft {draft : Draft} (unbuilt : s.channels.get? entity = none)
    (found : s.drafts.get? entity = some draft) : s.standing entity = .drafted draft.authority := by
  rw [standing, unbuilt, found]
  rfl

/-- An entity is absent just if it has neither channel nor draft. -/
theorem standing_eq_absent : s.standing entity = .absent ↔
    s.channels.get? entity = none ∧ s.drafts.get? entity = none := by
  unfold standing
  cases s.channels.get? entity <;> cases s.drafts.get? entity <;> simp

/-- What a session reports and how an entity stands in the end, when changes of authority for it
come between two sessions. -/
def Takes (entity : EntityId) (changes : List (ComponentId × Authority)) (s s' : Session) : Prop :=
  ∃ news, s'.events = s.events ++ news ∧
    Standing.Takes entity (s.standing entity) changes (news.filter (·.isAbout entity))
      (s'.standing entity)

/-- Between two sessions an entity is **unmoved** if it stands as it did and nothing about it is
reported. -/
structure Unmoved (entity : EntityId) (s s' : Session) : Prop where
  /-- Nothing about it is reported. -/
  events : ∃ news, s'.events = s.events ++ news ∧ ∀ e ∈ news, e.isAbout entity = false
  /-- It stands as it did. -/
  standing : s'.standing entity = s.standing entity

namespace Takes

variable {changes later : List (ComponentId × Authority)}

theorem trans (h : Takes entity changes s s₁) (h' : Takes entity later s₁ s₂) :
    Takes entity (changes ++ later) s s₂ := by
  obtain ⟨news, events, takes⟩ := h
  obtain ⟨more, events', takes'⟩ := h'
  refine ⟨news ++ more, by rw [events', events, List.append_assoc], ?_⟩
  rw [List.filter_append]
  exact takes.trans takes'

/-- Where an entity is unmoved, no change has come for it. -/
theorem of_unmoved (h : Unmoved entity s s₁) : Takes entity [] s s₁ := by
  obtain ⟨news, events, others⟩ := h.events
  refine ⟨news, events, ?_⟩
  rw [h.standing, List.filter_eq_nil_iff.mpr fun e mem => by simp [others e mem]]
  exact .refl entity _

/-- Steps that take changes one by one take all of them together. -/
theorem foldl {α : Type} {f : Session → α → Session} (entity : EntityId)
    (own : α → List (ComponentId × Authority))
    (each : ∀ (t : Session) (a : α), t.Tidy .all →
      Takes entity (own a) t (f t a) ∧ (f t a).Tidy .all)
    (tidy : s.Tidy .all) (as : List α) :
    Takes entity (as.flatMap own) s (as.foldl f s) ∧ (as.foldl f s).Tidy .all := by
  induction as generalizing s with
  | nil => exact ⟨⟨[], (List.append_nil _).symm, .refl entity _⟩, tidy⟩
  | cons a as ih =>
    obtain ⟨first, kept⟩ := each s a tidy
    obtain ⟨rest, tidy'⟩ := ih kept
    exact ⟨first.trans rest, tidy'⟩

end Takes

namespace Unmoved

theorem refl (entity : EntityId) (s : Session) : Unmoved entity s s :=
  ⟨⟨[], (List.append_nil _).symm, fun _ mem => absurd mem List.not_mem_nil⟩, rfl⟩

theorem trans (h : Unmoved entity s s₁) (h' : Unmoved entity s₁ s₂) : Unmoved entity s s₂ := by
  obtain ⟨news, events, others⟩ := h.events
  obtain ⟨more, events', others'⟩ := h'.events
  exact ⟨⟨news ++ more, by rw [events', events, List.append_assoc],
    List.forall_mem_append.mpr ⟨others, others'⟩⟩, h'.standing.trans h.standing⟩

/-- A session that reports nothing moves no entity whose channel and draft are the same. -/
theorem quiet (events : s₁.events = s.events)
    (channels : s₁.channels.get? entity = s.channels.get? entity)
    (drafts : (s₁.drafts.get? entity).map Draft.authority =
      (s.drafts.get? entity).map Draft.authority) : Unmoved entity s s₁ :=
  ⟨⟨[], by rw [events, List.append_nil], fun _ mem => absurd mem List.not_mem_nil⟩,
    standing_congr channels drafts⟩

/-- A routine that reports nothing about an entity does not move it. -/
theorem of_routine (routine : s.Routine s₁) {news : List Event}
    (events : s₁.events = s.events ++ news) (others : ∀ e ∈ news, e.isAbout entity = false) :
    Unmoved entity s s₁ :=
  ⟨⟨news, events, others⟩, standing_congr (by rw [routine.channels]) (by rw [routine.drafts])⟩

/-- So is a routine that reports nothing at all. -/
theorem of_silence (routine : s.Routine s₁) (events : s₁.events = s.events) :
    Unmoved entity s s₁ :=
  .quiet events (by rw [routine.channels]) (by rw [routine.drafts])

/-- Steps that do not move an entity one by one do not move it together. The steps may work on more
than a session, of which `view` is the session. -/
theorem along {σ α : Type} (entity : EntityId) (view : σ → Session) {f : σ → α → σ} {x : σ}
    (as : List α)
    (each : ∀ (y : σ) (a : α), a ∈ as → Unmoved entity (view x) (view y) → (view y).Tidy .all →
      Unmoved entity (view y) (view (f y a)) ∧ (view (f y a)).Tidy .all)
    (tidy : (view x).Tidy .all) :
    Unmoved entity (view x) (view (as.foldl f x)) ∧ (view (as.foldl f x)).Tidy .all := by
  refine List.foldlRecOn (motive := fun y =>
    Unmoved entity (view x) (view y) ∧ (view y).Tidy .all) as f ⟨.refl entity _, tidy⟩ ?_
  intro y ⟨unmoved, kept⟩ a mem
  obtain ⟨step, tidy'⟩ := each y a mem unmoved kept
  exact ⟨unmoved.trans step, tidy'⟩

/-- Steps of a session that do not move an entity one by one do not move it together. -/
theorem foldl {α : Type} {f : Session → α → Session} (entity : EntityId) (as : List α)
    (each : ∀ (t : Session) (a : α), a ∈ as → Unmoved entity s t → t.Tidy .all →
      Unmoved entity t (f t a) ∧ (f t a).Tidy .all)
    (tidy : s.Tidy .all) : Unmoved entity s (as.foldl f s) ∧ (as.foldl f s).Tidy .all :=
  along entity id as each tidy

end Unmoved

/-! ## Steps that do not move an entity -/

/-- A replay moves no entity. -/
theorem unmoved_resolveNow (s : Session) (arrival : Arrival) :
    Unmoved entity s (s.resolveNow arrival) := by
  refine .of_routine (routine_resolveNow s arrival) (events_resolveNow s arrival) fun e mem => ?_
  obtain ⟨t, -, rfl⟩ := List.mem_map.mp mem
  rfl

/-- Arrivals move no standing. -/
theorem unmoved_replays (s : Session) (arrivals : List Arrival) :
    Unmoved entity s (arrivals.foldl resolveNow s) :=
  List.foldlRecOn arrivals _ (motive := Unmoved entity s) (.refl entity s)
    fun t unmoved arrival _ => unmoved.trans (unmoved_resolveNow t arrival)

/-- Taking another entity down, or one that is not there. -/
theorem unmoved_remove {e : EntityId} (free : e ≠ entity ∨ s.standing entity = .absent) :
    Unmoved entity s (s.remove e) := by
  rcases s.remove_cases e with ⟨-, same⟩ | ⟨-, same⟩ | ⟨channel, opened, same⟩
  · rw [same]
    refine .quiet rfl rfl ?_
    show ((s.drafts.remove e).get? entity).map _ = _
    rw [Drafts.get?_remove]
    split
    · rename_i own
      subst own
      rw [(standing_eq_absent.mp (free.resolve_left (not_not_intro rfl))).2]
    · rfl
  · rw [same]
    exact .refl entity s
  · rw [same]
    have other : e ≠ entity := by
      rintro rfl
      simp [standing_eq_absent, opened] at free
    refine ⟨⟨[.entityRemoved e], rfl, ?_⟩, standing_congr ?_ rfl⟩
    · simpa [Event.isAbout] using other
    · show (s.channels.close e).get? entity = _
      rw [Channels.get?_close, if_neg other]

/-- A draft that gets a component holds the changes that it has held. -/
theorem unmoved_collect (s : Session) (e : EntityId) (data : ComponentData) :
    Unmoved entity s { s with drafts := s.drafts.addComponent e data } := by
  refine .quiet rfl rfl ?_
  show ((s.drafts.addComponent e data).get? entity).map _ = _
  rw [Drafts.get?_addComponent]
  split
  · rw [Option.map_map]
    rfl
  · rfl

/-- A component for a built entity reports nothing. -/
theorem events_applyToLive (s : Session) (e : EntityId) (data : ComponentData) :
    (s.accept (s.applyToLive e data.component data.payload)).events = s.events := by
  rw [accept_applyToLive]
  split
  · rfl
  · split
    · exact (writes_write s e data).keepsMail.events
    · exact (writes_write s e data).keepsMail.events
    · exact (writes_write s e data).keepsMail.events
    · split
      · rfl
      · exact List.foldlRecOn _ _ (motive := fun t : Session => t.events = s.events) rfl
          fun t same call _ => (keepsMail_deliverCall t call).events.trans same
    · rfl

/-- A payload moves no standing. -/
theorem unmoved_applyToLive (s : Session) (e : EntityId) (data : ComponentData) :
    Unmoved entity s (s.accept (s.applyToLive e data.component data.payload)) :=
  .of_silence (routine_applyToLive s e data) (events_applyToLive s e data)

/-- A component moves no entity, wherever it goes. -/
theorem unmoved_route (state : Session × List EntityId) (added : AddedComponent) :
    Unmoved entity state.1 (route state added).1 := by
  unfold route
  dsimp only
  split
  · exact unmoved_collect state.1 added.entity added.data
  · exact unmoved_applyToLive state.1 added.entity added.data

/-- An update moves no entity. -/
theorem unmoved_update (s : Session) (e : EntityId) (update : ComponentData) :
    Unmoved entity s (s.update e update) := by
  unfold Session.update tryUpdate
  split
  · cases s.binding update.component with
    | error error => exact .refl entity s
    | ok b =>
      simp only [bind, Except.bind]
      split
      · exact unmoved_collect s e update
      · exact .refl entity s
  · exact unmoved_applyToLive s e update

/-- A command is delivered or refused, and nothing is reported of it. -/
theorem unmoved_tryCommand (s : Session) (e : EntityId) (request : CommandRequest) :
    Unmoved entity s (s.accept (s.tryCommand e request)) := by
  refine .of_silence (routine_tryCommand s e request) ?_
  have carried : Carries .all s.idle _ _ := carries_command [] e request
  have leads := carried.foldl_perform
  refine (congrArg (·.session.events) leads).symm.trans ?_
  refine List.foldlRecOn _ _ (motive := fun w : Work => w.session.events = s.events) rfl
    fun w same m mem => ?_
  obtain ⟨call, rfl⟩ := mem_commandMoves mem
  exact (keepsMail_deliverCall w.session call).events.trans same

/-! ## Changes of authority -/

/-- A change of authority for another entity. -/
theorem unmoved_changeAuthority (tidy : s.Tidy .all) {change : AuthorityChange}
    (other : change.entity ≠ entity) : Unmoved entity s (s.changeAuthority change) := by
  refine ⟨?_, standing_congr ?_ ?_⟩
  · cases opened : s.channels.get? change.entity with
    | some channel =>
      rw [changeAuthority_of_built opened]
      exact ⟨_, rfl, by simpa [Event.isAbout] using other⟩
    | none =>
      rw [changeAuthority_of_unbuilt opened]
      exact ⟨[], (List.append_nil _).symm, fun _ mem => absurd mem List.not_mem_nil⟩
  · exact (staysOn_changeAuthority tidy change).channels entity (Ne.symm other)
  · rw [(spares_changeAuthority tidy (.inl other)).draft]

/-- **A change of authority** is dropped, held or taken. -/
theorem takes_changeAuthority (tidy : s.Tidy .all) (change : AuthorityChange) :
    Takes entity (ownChanges entity [change]) s (s.changeAuthority change) := by
  by_cases own : change.entity = entity
  · subst own
    have alone : ownChanges change.entity [change] = [(change.component, change.authority)] := by
      simp [ownChanges]
    rw [alone]
    cases opened : s.channels.get? change.entity with
    | some channel =>
      rw [changeAuthority_of_built opened]
      have filed : (channel.setAuthority change.component change.authority).entity =
        change.entity := tidy.channels change.entity channel opened
      refine ⟨_, rfl, ?_⟩
      rw [standing_of_built opened, standing_of_built ((Channels.get?_update _ _ _).trans
        (if_pos filed)), Channel.told_setAuthority]
      rw [List.filter_singleton, show Event.isAbout change.entity _ = true from beq_self_eq_true _]
      exact .grants channel.told [(change.component, change.authority)]
    | none =>
      rw [changeAuthority_of_unbuilt opened]
      let held := s.drafts.addAuthority change.entity change.component change.authority
      have get : held.get? change.entity = _ := Drafts.get?_addAuthority ..
      refine ⟨[], (List.append_nil _).symm, ?_⟩
      show Standing.Takes change.entity _ _ [] (standing { s with drafts := held } change.entity)
      rw [if_pos rfl] at get
      cases found : s.drafts.get? change.entity with
      | some draft =>
        rw [found] at get
        rw [standing_of_draft opened found, standing_of_draft (s := { s with drafts := held })
          opened get]
        exact .holds draft.authority [(change.component, change.authority)]
      | none =>
        rw [found] at get
        have absent : standing { s with drafts := held } change.entity = .absent :=
          standing_eq_absent.mpr ⟨opened, get⟩
        rw [standing_eq_absent.mpr ⟨opened, found⟩, absent]
        exact .drops _
  · have none : ownChanges entity [change] = [] := by simp [ownChanges, own]
    rw [none]
    exact .of_unmoved (unmoved_changeAuthority tidy own)

/-- So are several changes, in order. -/
theorem takes_changes (entity : EntityId) (tidy : s.Tidy .all) (changes : List AuthorityChange) :
    Takes entity (ownChanges entity changes) s (changes.foldl changeAuthority s) := by
  have each := (Takes.foldl entity (fun change => ownChanges entity [change])
    (fun t change tidy => ⟨takes_changeAuthority tidy change, tidy.changeAuthority change⟩) tidy
    changes).1
  rwa [← ownChanges_flatMap] at each

/-! ## Construction -/

/-- **An entity that is built** is reported first, and takes what its draft has held. -/
theorem takes_construct (tidy : s.Tidy .all) {draft : Draft}
    (unbuilt : s.channels.get? draft.entity = none)
    (undrafted : s.drafts.get? draft.entity = none) :
    ∃ news, (s.construct draft).events = s.events ++ news ∧
      Standing.Takes draft.entity (.drafted draft.authority) []
        (news.filter (·.isAbout draft.entity)) ((s.construct draft).standing draft.entity) := by
  rw [construct_eq]
  have kept := tidy.found undrafted
  cases step : s.found draft with
  | mk built s₁ =>
    rw [step] at kept
    cases built with
    | none =>
      obtain ⟨rfl, -⟩ := found_of_none unbuilt step
      refine ⟨[], (List.append_nil _).symm, ?_⟩
      rw [standing_eq_absent.mpr ⟨unbuilt, undrafted⟩]
      exact .fails _ _
    | some channel =>
      dsimp only
      obtain ⟨filed, -, get⟩ := found_channels step
      obtain ⟨_, assembly, _, _, -, -, opened, same⟩ := found_eq_some.mp step
      obtain ⟨-, id, -, rfl⟩ := Channels.open?_eq_some opened
      obtain ⟨events, channels, tidy⟩ := populates_quietly _ draft.components kept
      -- Once it is complete, the entity is built and nobody has authority.
      let t := (draft.components.foldl (populate (.ofAssembly id assembly)) s₁).complete
        (.ofAssembly id assembly)
      have complete : t.events = s.events ++ [.entityConstructed draft.entity assembly.root] := by
        show (draft.components.foldl _ s₁).events ++ _ = _
        rw [events, same, ← filed]
        rfl
      have stands : t.standing draft.entity =
          .built ⟨assembly.root, fun _ => .notAuthoritative⟩ :=
        standing_of_built (c := .ofAssembly id assembly)
          ((congrArg (Channels.get? · _) channels).trans ((get _).trans (if_pos rfl)))
      obtain ⟨news, granted, takes⟩ := (takes_changes (s := t) draft.entity
        (tidy.congr rfl rfl rfl) draft.changes).trans (.of_unmoved (unmoved_replays _ _))
      rw [stands, List.append_nil, draft.ownChanges_changes] at takes
      refine ⟨.entityConstructed draft.entity assembly.root :: news, ?_, ?_⟩
      · rw [granted, complete, List.append_assoc, List.singleton_append]
      · rw [List.filter_cons_of_pos (by simp [Event.isAbout])]
        obtain ⟨told, after⟩ := takes.of_built
        have builds : Standing.Takes draft.entity (.drafted draft.authority) [] _ _ :=
          .builds draft.authority [] assembly.root
        rw [List.append_nil] at builds
        rw [told, after]
        exact builds

/-- Building another entity. -/
theorem unmoved_construct (tidy : s.Tidy .all) {draft : Draft}
    (unbuilt : s.channels.get? draft.entity = none)
    (undrafted : s.drafts.get? draft.entity = none) (other : draft.entity ≠ entity) :
    Unmoved entity s (s.construct draft) := by
  rw [construct_eq]
  have kept := tidy.found undrafted
  cases step : s.found draft with
  | mk built s₁ =>
    rw [step] at kept
    cases built with
    | none =>
      obtain ⟨rfl, -⟩ := found_of_none unbuilt step
      exact .refl entity _
    | some channel =>
      dsimp only
      obtain ⟨filed, -, get⟩ := found_channels step
      obtain ⟨_, _, _, _, -, -, -, same⟩ := found_eq_some.mp step
      obtain ⟨events, channels, tidy⟩ := populates_quietly channel draft.components kept
      have founded : Unmoved entity s s₁ := by
        refine .quiet (by rw [same]) ?_ (by rw [same])
        rw [get, if_neg other]
      have populated : Unmoved entity s₁ (draft.components.foldl (populate channel) s₁) :=
        .of_silence (routine_populates _ _ _) events
      have completed : Unmoved entity (draft.components.foldl (populate channel) s₁)
          ((draft.components.foldl (populate channel) s₁).complete channel) :=
        ⟨⟨[.entityConstructed channel.entity channel.root], rfl, by
          simpa [Event.isAbout, filed] using other⟩, standing_congr rfl rfl⟩
      have authorized := Unmoved.foldl (f := changeAuthority)
        (s := (draft.components.foldl (populate channel) s₁).complete channel) entity draft.changes
        (fun t change mem _ tidy => by
          refine ⟨unmoved_changeAuthority tidy ?_, tidy.changeAuthority change⟩
          obtain ⟨x, -, rfl⟩ := List.mem_map.mp mem
          exact other) (tidy.congr rfl rfl rfl)
      exact founded.trans (populated.trans (completed.trans (authorized.1.trans
        (unmoved_replays _ _))))

/-- Spawn data leaves a draft the changes that it has held. -/
theorem unmoved_setSpawn (s : Session) (e : EntityId) (spawn : Spawn) :
    Unmoved entity s { s with drafts := s.drafts.setSpawn e spawn } := by
  refine .quiet rfl rfl ?_
  show ((s.drafts.setSpawn e spawn).get? entity).map _ = _
  rw [Drafts.get?_setSpawn]
  split
  · rw [Option.map_map]
    rfl
  · rfl

/-- A tidy session stays tidy without a draft. -/
theorem Tidy.without (h : s.Tidy .all) (e : EntityId) :
    { s with drafts := s.drafts.without e }.Tidy .all :=
  ⟨h.drafts.without e, h.channels, h.burst, h.closed⟩

/-- A draft without readable spawn data stays as it is, or is dropped. -/
theorem advance_of_unread {draft : Draft} (found : s.drafts.get? entity = some draft)
    (collecting : draft.stage = .collecting) {error : BuildError}
    (read : World.readSpawn entity draft.components = .error error) :
    s.advance entity = s ∨ s.advance entity = { s with drafts := s.drafts.remove entity } := by
  cases error <;> simp [advance, found, collecting, read]

/-- **A draft that is taken further** holds its changes, comes to nothing, or hands them over. -/
theorem takes_advance (tidy : s.Tidy .all) (e : EntityId) :
    Takes entity [] s (s.advance e) := by
  by_cases own : e = entity
  · subst own
    cases found : s.drafts.get? e with
    | none =>
      rw [advance_of_undrafted found]
      exact .of_unmoved (.refl e s)
    | some draft =>
      obtain ⟨filed, unbuilt, -⟩ := tidy.drafts e draft found
      -- However the entity is built, its draft has held the same changes.
      have built {draft' : Draft} (builds : s.Builds e draft')
          (held : draft'.authority = draft.authority) : Takes e [] s (s.advance e) := by
        obtain ⟨rfl, -⟩ := builds.filed tidy
        rw [builds.advance, Takes, standing_of_draft unbuilt found, ← held]
        exact takes_construct (tidy.without draft'.entity) unbuilt
          ((Drafts.get?_without _ _ _).trans (if_pos rfl))
      cases stage : draft.stage with
      | ready => exact built (.ready found stage) rfl
      | waiting c =>
        have stays : s.advance e = s := by simp [advance, found, stage]
        rw [stays]
        exact .of_unmoved (.refl e s)
      | collecting =>
        cases read : World.readSpawn e draft.components with
        | ok spawn =>
          rcases s.drafts.stageFor_cases spawn with ⟨c, -, -, waits⟩ | ⟨free, -⟩
          · rw [(advance_of_deferred found stage read waits).1]
            exact .of_unmoved (unmoved_setSpawn s e spawn)
          · exact built (.spawned found stage read free) rfl
        | error error =>
          rcases advance_of_unread found stage read with stays | gone
          · rw [stays]
            exact .of_unmoved (.refl e s)
          · refine ⟨[], ?_, ?_⟩
            · rw [gone, List.append_nil]
            · have absent : standing { s with drafts := s.drafts.remove e } e = .absent :=
                standing_eq_absent.mpr ⟨unbuilt, (Drafts.get?_remove _ _ _).trans (if_pos rfl)⟩
              rw [gone, standing_of_draft unbuilt found, absent]
              exact .fails _ _
  · rcases s.advance_cases e with ⟨draft, builds⟩ | ⟨drafts, same, others⟩
    · obtain ⟨rfl, unbuilt⟩ := builds.filed tidy
      have out : Unmoved entity s { s with drafts := s.drafts.without draft.entity } :=
        .quiet rfl rfl (by rw [Drafts.get?_without, if_neg own])
      rw [builds.advance]
      exact .of_unmoved (out.trans (unmoved_construct (tidy.without draft.entity) unbuilt
        ((Drafts.get?_without _ _ _).trans (if_pos rfl)) own))
    · rw [same]
      exact .of_unmoved (.quiet rfl rfl (by rw [others entity (Ne.symm own)]))

/-- So are several drafts. -/
theorem takes_advances (entity : EntityId) (tidy : s.Tidy .all) (touched : List EntityId) :
    Takes entity [] s (touched.foldl advance s) ∧ (touched.foldl advance s).Tidy .all := by
  have each := Takes.foldl entity (fun _ : EntityId => [])
    (fun t e tidy => ⟨takes_advance tidy e, (carries_advance [] tidy e).tidy tidy⟩) tidy touched
  rwa [List.flatMap_eq_nil_iff.mpr fun _ _ => rfl] at each

/-! ## Bursts -/

/-- An addition begins the draft of its entity, if that is absent. -/
theorem standing_begin (state : Session × List EntityId) (e : EntityId) :
    (begin state e).1.standing entity =
      if e = entity then (state.1.standing entity).begun else state.1.standing entity := by
  unfold begin
  dsimp only
  split
  · rename_i built
    split
    · rename_i own
      obtain ⟨channel, opened⟩ := Option.isSome_iff_exists.mp
        ((Channels.contains_eq _ _).symm.trans built)
      rw [← own, standing_of_built opened]
      rfl
    · rfl
  · rename_i unbuilt
    rw [Channels.contains_eq, Bool.not_eq_true, Option.isSome_eq_false_iff,
      Option.isNone_iff_eq_none] at unbuilt
    have get : (state.1.drafts.begin e).get? entity = _ := Drafts.get?_begin ..
    split
    · rename_i own
      subst own
      rw [if_pos rfl] at get
      refine (standing_of_draft (s := { state.1 with drafts := state.1.drafts.begin e }) unbuilt
        get).trans ?_
      cases found : state.1.drafts.get? e with
      | none =>
        rw [standing_eq_absent.mpr ⟨unbuilt, found⟩]
        rfl
      | some draft =>
        rw [standing_of_draft unbuilt found]
        rfl
    · rename_i other
      rw [if_neg other] at get
      exact standing_congr rfl (congrArg _ get)

/-- Additions begin drafts, and report nothing. -/
theorem standing_begins (entity : EntityId) (added : List EntityId) (x : Session × List EntityId) :
    (added.foldl begin x).1.events = x.1.events ∧
      (added.foldl begin x).1.standing entity =
        if entity ∈ added then (x.1.standing entity).begun else x.1.standing entity := by
  induction added generalizing x with
  | nil => exact ⟨rfl, (if_neg List.not_mem_nil).symm⟩
  | cons e added ih =>
    obtain ⟨events, stands⟩ := ih (begin x e)
    refine ⟨events.trans ?_, ?_⟩
    · unfold begin
      dsimp only
      split <;> rfl
    · rw [List.foldl_cons, stands, standing_begin]
      by_cases own : e = entity
      · subst own
        simp [Standing.begun_begun]
      · simp [own, Ne.symm own]

/-- After its additions a burst hands its changes over, and nothing else. -/
theorem takes_begun (entity : EntityId) {x : Session × List EntityId} (tidy : x.1.Tidy .all)
    (b : Burst) :
    Takes entity (ownChanges entity b.authority) x.1
      (b.arrivals.foldl resolveNow (b.authority.foldl changeAuthority
        ((b.components.foldl route x).2.foldl advance (b.components.foldl route x).1))) := by
  obtain ⟨routed, tidy₁⟩ := Unmoved.along (f := route) entity Prod.fst b.components
    (fun x added _ _ tidy => ⟨unmoved_route x added,
      (carries_route [] x tidy (show Scope.all.data added.data from trivial)).tidy tidy⟩) tidy
  obtain ⟨advanced, tidy₂⟩ := takes_advances entity tidy₁
    (b.components.foldl route x).2
  have settled := (takes_changes entity tidy₂ b.authority).trans
    (.of_unmoved (unmoved_replays _ b.arrivals))
  rw [List.append_nil] at settled
  exact (Takes.of_unmoved routed).trans (advanced.trans settled)

/-- **A burst** begins the drafts of those it adds, and hands its changes over after that. It may
not take the entity down. -/
theorem takes_drain (tidy : s.Tidy .all) (b : Burst)
    (stays : entity ∉ b.removed ∨ s.standing entity = .absent) :
    ∃ news, (s.drain b).events = s.events ++ news ∧
      Standing.Takes entity
        (if entity ∈ b.added then (s.standing entity).begun else s.standing entity)
        (ownChanges entity b.authority) (news.filter (·.isAbout entity))
        ((s.drain b).standing entity) := by
  obtain ⟨removed, tidy₁⟩ := Unmoved.foldl (f := remove) entity b.removed
    (fun t e mem unmoved tidy => by
      refine ⟨unmoved_remove ?_, tidy.remove e⟩
      exact stays.imp (fun absent own => absent (own ▸ mem)) unmoved.standing.trans) tidy
  obtain ⟨events, begun⟩ :=
    standing_begins entity b.added (b.removed.foldl remove s, [])
  have tidy₂ : (b.added.foldl begin (b.removed.foldl remove s, [])).1.Tidy .all :=
    List.foldlRecOn b.added _ (motive := fun x : Session × List EntityId => x.1.Tidy .all) tidy₁
      fun x tidy e _ => (carries_begin [] x tidy e).tidy tidy
  obtain ⟨before, cleared, others⟩ := removed.events
  obtain ⟨news, reported, takes⟩ := takes_begun entity tidy₂ b
  have silent : before.filter (·.isAbout entity) = [] :=
    List.filter_eq_nil_iff.mpr fun e mem => by simp [others e mem]
  refine ⟨before ++ news, ?_, ?_⟩
  · rw [← List.append_assoc, ← cleared]
    exact reported.trans (congrArg (· ++ news) events)
  · rw [begun, removed.standing] at takes
    rw [List.filter_append, silent]
    exact takes

end Session

end Replica
