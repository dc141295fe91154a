import Mathlib.Data.List.Basic
import Mathlib.Data.List.Induction
import Replica.Blueprint
import Replica.Proofs.Course.Strides
import Replica.Proofs.Section

/-! # Answers

A continuation is registered under the kind and the id of a request, and the same id may be used
again once it is free. To tell which registration an answer belongs to, the registrations of a run
are numbered by their acts, and books are kept of which of them stands under each key and which of
them are invoked. A registration is invoked by just the first answer under its key, if it still
waits then and its owner is alive, and the books hold its number at most once.

Main definitions:
* `RequestKey` — the kind and the id of a request.
* `Moment.drops` — a move takes down the entity that holds the owner of a request.
* `Session.attempt` — what a registration comes to.
* `Books`, `Session.books` — the registrations of a run and the invocations.
* `Session.StillWaits`, `Session.Answered` — a registration that was neither answered nor dropped,
  and one that was answered in time.
* `Session.answered_once` — what a run delivers. -/

namespace Replica

/-! ## Keys -/

deriving instance DecidableEq for Answer, Delivery

/-- The **kinds** of requests whose answers go to continuations. -/
inductive RequestKind where
  /-- An entity is to be created. -/
  | creation
  /-- Ids are to be reserved. -/
  | reservation
  /-- A query is to be answered. -/
  | query
deriving DecidableEq

/-- A **request key**: what an answer is filed under. -/
structure RequestKey where
  /-- The kind of the request. -/
  kind : RequestKind
  /-- Its id. -/
  id : RequestId
deriving DecidableEq

/-- The requests of a kind. -/
def Requests.table (r : Requests) : RequestKind → RequestTable Awaiting
  | .creation => r.constructions
  | .reservation => r.reservations
  | .query => r.queries

/-- The requests with another table of a kind. -/
def Requests.put (r : Requests) (kind : RequestKind) (t : RequestTable Awaiting) : Requests :=
  match kind with
  | .creation => { r with constructions := t }
  | .reservation => { r with reservations := t }
  | .query => { r with queries := t }

/-- One table of requests is replaced. -/
theorem Requests.table_put (r : Requests) (kind k : RequestKind) (t : RequestTable Awaiting) :
    (r.put kind t).table k = if kind = k then t else r.table k := by
  cases kind <;> cases k <;> rfl

/-- What some objects own is dropped from every table. -/
theorem Requests.table_dropOwned (r : Requests) (objects : List Handle) (kind : RequestKind) :
    (r.dropOwned objects).table kind = (r.table kind).dropWhere (·.isOwnedBy objects) := by
  cases kind <;> rfl

/-- The session with another table of a kind. -/
def Session.putTable (s : Session) (kind : RequestKind) (t : RequestTable Awaiting) : Session :=
  { s with requests := s.requests.put kind t }

/-- A table with one more entry. -/
def RequestTable.insert {α : Type} (t : RequestTable α) (id : RequestId) (entry : α) :
    RequestTable α :=
  { t with entries := t.entries.insert id entry }

/-- A request is found under its id. -/
theorem RequestTable.get?_insert {α : Type} (t : RequestTable α) (id k : RequestId) (entry : α) :
    (t.insert id entry).get? k = if id = k then some entry else t.get? k := by
  simp [insert, get?, Std.ExtTreeMap.getElem?_insert]

/-- A request is entered just where nothing is outstanding. -/
theorem RequestTable.register_eq {α : Type} (t : RequestTable α) (id : RequestId) (entry : α) :
    t.register id entry =
      if (t.get? id).isNone then .ok (t.insert id entry)
      else .error (.duplicateRequest t.domain id) := by
  unfold register contains get?
  rw [Std.ExtTreeMap.contains_eq_isSome_getElem?]
  cases t.entries[id]? <;> rfl

/-- Who waits under a key. -/
def Session.awaiting (s : Session) (k : RequestKey) : Option Awaiting :=
  (s.requests.table k.kind).get? k.id

/-- The key and the continuation of a registration; commands have none. -/
def Registration.entry? : Registration → Option (RequestKey × Awaiting)
  | .creation id w => some (⟨.creation, id⟩, w)
  | .reservation id w => some (⟨.reservation, id⟩, w)
  | .query id w => some (⟨.query, id⟩, w)
  | .command _ _ => none

/-- The key and the continuation that an act registers. -/
def Act.entry? : Act → Option (RequestKey × Awaiting)
  | .register registration => registration.entry?
  | _ => none

/-- The key and the answer that an act brings. -/
def Act.answer? : Act → Option (RequestKey × Answer)
  | .receive (.createResponse id result) => some (⟨.creation, id⟩, .created result)
  | .receive (.reserveResponse id result) => some (⟨.reservation, id⟩, .reserved result)
  | .receive (.queryResponse id result) => some (⟨.query, id⟩, .queried result)
  | _ => none

/-- Whether a move **drops** a request: it takes down the entity whose channel holds the owner. -/
def Moment.drops (m : Moment) (w : Awaiting) : Bool :=
  match m.move with
  | .remove entity =>
    (m.session.channels.get? entity).any fun c => w.isOwnedBy (c.members.map (·.2))
  | _ => false

/-- The objects of the entity that a move takes down. -/
def Moment.takenDown (m : Moment) : List Handle :=
  match m.move with
  | .remove entity =>
    ((m.session.channels.get? entity).map fun c => c.members.map (·.2)).getD []
  | _ => []

@[simp] theorem Awaiting.isOwnedBy_nil (w : Awaiting) : w.isOwnedBy [] = false := by
  cases owner : w.owner <;> simp [isOwnedBy, owner]

/-- A request is dropped with its owner. -/
theorem Moment.drops_eq (m : Moment) (w : Awaiting) : m.drops w = w.isOwnedBy m.takenDown := by
  unfold drops takenDown
  split
  · rename_i entity _
    cases m.session.channels.get? entity <;> simp
  · simp

/-- Where nothing is dropped, the table stays. -/
theorem RequestTable.dropWhere_of_forall {α : Type} {t : RequestTable α} {p : α → Bool}
    (none : ∀ entry, p entry = false) : t.dropWhere p = t := by
  have same : t.entries.filter (fun _ entry => !p entry) = t.entries :=
    Std.ExtTreeMap.ext_getElem? fun id => by cases h : t.entries[id]? <;> simp [none, h]
  rw [dropWhere, same]

/-- Without objects no request is dropped. -/
theorem Requests.dropOwned_nil (r : Requests) : r.dropOwned [] = r := by
  simp [dropOwned, RequestTable.dropWhere_of_forall]

/-! ## Books -/

namespace Session

/-- What a registration comes to. -/
def attempt (s : Session) : Registration → Except RequestError Session
  | .creation id w => s.awaitCreation id w
  | .reservation id w => s.awaitReservation id w
  | .query id w => s.awaitQuery id w
  | .command id command => s.awaitCommand id command

/-- The key and the continuation that an act registers, if that is accepted. -/
def accepted? (s : Session) : Act → Option (RequestKey × Awaiting)
  | .register registration =>
    match s.attempt registration with
    | .ok _ => registration.entry?
    | .error _ => none
  | _ => none

/-- The key and the answer that an act brings, if somebody waits whose owner, if there is one, is
alive. -/
def invoked? (s : Session) (a : Act) : Option (RequestKey × Answer) :=
  a.answer?.filter fun (k, _) => (s.awaiting k).any fun w => w.owner.all s.world.isAlive

end Session

/-- The **books** of a run. -/
structure Books where
  /-- How many acts there were. -/
  acts : Nat := 0
  /-- The number of the act that was the last to register under each key. -/
  filed : RequestKey → Nat := fun _ => 0
  /-- The answers that continuations were invoked with, each with the number of the act that
  registered the continuation, the oldest first. -/
  invoked : List (Nat × Answer) := []

/-- The books after one more act, made in the session `s`. -/
def Books.after (b : Books) (s : Session) (a : Act) : Books where
  acts := b.acts + 1
  filed :=
    match s.accepted? a with
    | some (k, _) => fun t => if k = t then b.acts else b.filed t
    | none => b.filed
  invoked := b.invoked ++ (s.invoked? a).toList.map fun (k, x) => (b.filed k, x)

namespace Session

/-- The books of a run, kept on from `b`. -/
def books (s : Session) (b : Books) : List Act → Books
  | [] => b
  | a :: acts =>
    match s.act a with
    | .ok s₁ => s₁.books (b.after s a) acts
    | .error _ => b

/-- A registration **still waits** after some acts: it was accepted at the act number `n`, and since
then no answer came under its key, and its owner's entity was not taken down. -/
def StillWaits (s : Session) (acts : List Act) (n : Nat) (k : RequestKey) (w : Awaiting) : Prop :=
  ∃ before a later s₀ s₁, acts = before ++ a :: later ∧ before.length = n ∧
    s.run before = .ok s₀ ∧ s₀.accepted? a = some (k, w) ∧ s₀.act a = .ok s₁ ∧
    (∀ b ∈ later, ∀ x, b.answer? ≠ some (k, x)) ∧ ∀ m ∈ s₁.course later, m.drops w = false

/-- A registration is **answered** in a run: an answer comes under its key while it still waits, and
its owner, if there is one, is alive then. -/
def Answered (s : Session) (acts : List Act) (n : Nat) (x : Answer) : Prop :=
  ∃ before a later s₁ k w, acts = before ++ a :: later ∧ s.run before = .ok s₁ ∧
    s.StillWaits before n k w ∧ a.answer? = some (k, x) ∧ w.owner.all s₁.world.isAlive

variable {s s₁ s₂ : Session}

/-- The books after one more act. -/
theorem books_concat {acts : List Act} (ok : s.run acts = .ok s₁) {a : Act}
    (last : s₁.act a = .ok s₂) (b : Books) :
    s.books b (acts ++ [a]) = (s.books b acts).after s₁ a := by
  induction acts generalizing s b with
  | nil =>
    cases ok
    simp only [List.nil_append, books, last]
  | cons first acts ih =>
    obtain ⟨s', now, rest⟩ := run_cons.mp ok
    simp only [List.cons_append, books, now, ih rest]

/-- The books count the acts. -/
theorem acts_books {acts : List Act} (ok : s.run acts = .ok s₁) (b : Books) :
    (s.books b acts).acts = b.acts + acts.length := by
  induction acts generalizing s b with
  | nil => rfl
  | cons a acts ih =>
    obtain ⟨s', now, rest⟩ := run_cons.mp ok
    simp only [books, now, ih rest, Books.after, List.length_cons]
    omega

/-! ## Who waits after a move -/

/-- A move that settles nothing keeps all deliveries, and drops the requests of the objects that it
takes down. -/
theorem requests_perform {w : Work} (tidy : w.session.Tidy .all) {m : Move}
    (unsettled : ∀ requests events deliveries, m ≠ .settle requests events deliveries) :
    (w.perform m).session.deliveries = w.session.deliveries ∧
      (w.perform m).session.requests =
        w.session.requests.dropOwned (⟨w.session, m⟩ : Moment).takenDown := by
  have kept {s' : Session} (requests : s'.requests = w.session.requests)
      (deliveries : s'.deliveries = w.session.deliveries)
      (none : (⟨w.session, m⟩ : Moment).takenDown = []) :
      s'.deliveries = w.session.deliveries ∧
        s'.requests = w.session.requests.dropOwned (⟨w.session, m⟩ : Moment).takenDown := by
    rw [none, Requests.dropOwned_nil]
    exact ⟨deliveries, requests⟩
  have mail : m.IsSilent → w.session.KeepsMail (w.perform m).session := keepsMail_perform w
  cases m with
  | settle requests events deliveries => exact absurd rfl (unsettled requests events deliveries)
  | complete channel => exact kept rfl rfl rfl
  | authorize change =>
    simp only [Work.perform, changeAuthority]
    split <;> exact kept rfl rfl rfl
  | replay arrival =>
    obtain ⟨_, _, _, eq, -⟩ := resolveNow_eq w.session arrival
    rw [Work.perform, eq]
    exact kept rfl rfl rfl
  | remove entity =>
    rw [Work.perform]
    rcases w.session.remove_cases entity with ⟨drafted, same⟩ | ⟨unbuilt, same⟩ |
      ⟨channel, found, same⟩
    · -- An entity with a draft has no channel.
      obtain ⟨draft, found⟩ := Option.isSome_iff_exists.mp
        ((Drafts.contains_eq _ _).symm.trans drafted)
      have unbuilt := (tidy.drafts entity draft found).2.1
      rw [same]
      exact kept rfl rfl (by simp [Moment.takenDown, unbuilt])
    · rw [same]
      exact kept rfl rfl (by simp [Moment.takenDown, unbuilt])
    · rw [same]
      simp [Moment.takenDown, found]
  | _ => exact kept (mail trivial).requests (mail trivial).deliveries rfl

/-- So it drops just those whose owner's entity it takes down. -/
theorem awaiting_perform {w : Work} (tidy : w.session.Tidy .all) {m : Move}
    (unsettled : ∀ requests events deliveries, m ≠ .settle requests events deliveries) :
    (w.perform m).session.deliveries = w.session.deliveries ∧
      ∀ k v, (w.perform m).session.awaiting k = some v ↔
        w.session.awaiting k = some v ∧ (⟨w.session, m⟩ : Moment).drops v = false := by
  obtain ⟨deliveries, requests⟩ := requests_perform tidy unsettled
  refine ⟨deliveries, fun k v => ?_⟩
  rw [awaiting, requests, Requests.table_dropOwned, RequestTable.get?_dropWhere,
    Option.filter_eq_some_iff, Bool.not_eq_true', Moment.drops_eq]
  rfl

/-- After moves that settle nothing those wait whom none of the moves has dropped. -/
theorem awaiting_carries {w w' : Work} {ms : List Move} (carries : Carries .all w ms w')
    (tidy : w.session.Tidy .all) (unsettled : ∀ requests events deliveries,
      .settle requests events deliveries ∉ ms) :
    w'.session.deliveries = w.session.deliveries ∧
      ∀ k v, w'.session.awaiting k = some v ↔
        w.session.awaiting k = some v ∧ ∀ m ∈ w.trail ms, m.drops v = false := by
  induction carries with
  | nil w => exact ⟨rfl, fun k v => by simp [Work.trail]⟩
  | @cons w w' m ms apt rest ih =>
    obtain ⟨deliveries, waits⟩ := awaiting_perform tidy fun requests events deliveries same =>
      unsettled requests events deliveries (same ▸ List.mem_cons_self)
    obtain ⟨deliveries', waits'⟩ := ih (apt.tidy tidy) fun requests events deliveries mem =>
      unsettled requests events deliveries (List.mem_cons_of_mem _ mem)
    refine ⟨deliveries'.trans deliveries, fun k v => ?_⟩
    rw [waits', waits, Work.trail, List.forall_mem_cons, and_assoc]

/-! ## Who waits after an act -/

/-- What a delivery does: the answer goes to whoever waits, unless the owner is gone. -/
theorem deliver_spec (s : Session) (waiting : Option Awaiting) (x : Answer) :
    (s.deliver waiting x).requests = s.requests ∧
      (s.deliver waiting x).deliveries = s.deliveries ++
        (waiting.filter fun w => w.owner.all s.world.isAlive).toList.flatMap
          (·.continuation.deliver x) := by
  unfold deliver
  cases waiting with
  | none => exact ⟨rfl, (List.append_nil _).symm⟩
  | some w =>
    dsimp only
    split
    · rename_i alive
      simp [Option.filter, alive]
    · rename_i dead
      simp [Option.filter, dead]

/-- What stands under a key once the table of its kind has been changed there alone. -/
theorem awaiting_putTable (s : Session) (k : RequestKey) {u : RequestTable Awaiting}
    (others : ∀ id, k.id ≠ id → u.get? id = (s.requests.table k.kind).get? id) (t : RequestKey) :
    (s.putTable k.kind u).awaiting t = if k = t then u.get? k.id else s.awaiting t := by
  obtain ⟨kind, id⟩ := k
  obtain ⟨kind', id'⟩ := t
  simp only [awaiting, putTable, Requests.table_put]
  by_cases same : kind = kind'
  · subst same
    by_cases here : id = id'
    · simp [here]
    · simpa [here] using others id' here
  · simp [same]

/-- A single move that settles requests drops none. -/
theorem drops_settle {a : Act} {requests : Requests} {events : List Event}
    {deliveries : List Delivery} (moves : s.moves a = [.settle requests events deliveries]) :
    ∀ m ∈ s.idle.trail (s.moves a), ∀ v, m.drops v = false := by
  intro m mem v
  rw [moves] at mem
  cases List.mem_singleton.mp mem
  rfl

/-- An answer takes away whoever waits under its key, and reaches nobody else. -/
theorem act_answer {a : Act} {k : RequestKey} {x : Answer} (brings : a.answer? = some (k, x))
    (ok : s.act a = .ok s₁) :
    (∀ t, s₁.awaiting t = if k = t then none else s.awaiting t) ∧
      s₁.deliveries = s.deliveries ++
        ((s.awaiting k).filter fun w => w.owner.all s.world.isAlive).toList.flatMap
          (·.continuation.deliver x) ∧
      ∀ m ∈ s.idle.trail (s.moves a), ∀ v, m.drops v = false := by
  -- The request is erased from the table of its kind, and then the answer is delivered.
  suffices told : s₁ = (s.putTable k.kind
      ((s.requests.table k.kind).erase k.id)).deliver (s.awaiting k) x ∧
        s.moves a = [.settle s₁.requests s₁.events s₁.deliveries] by
    obtain ⟨same, moves⟩ := told
    obtain ⟨left, delivered⟩ := deliver_spec
      (s.putTable k.kind ((s.requests.table k.kind).erase k.id)) (s.awaiting k) x
    rw [← same] at left delivered
    refine ⟨fun t => ?_, delivered, drops_settle moves⟩
    have after := awaiting_putTable s k (fun id other => by
      rw [RequestTable.get?_erase, if_neg other]) t
    rwa [RequestTable.get?_erase, if_pos rfl, awaiting, ← left] at after
  cases a with
  | receive operation =>
    cases operation with
    | createResponse id result =>
      cases brings
      cases ok
      exact ⟨rfl, rfl⟩
    | reserveResponse id result =>
      cases brings
      cases ok
      exact ⟨rfl, rfl⟩
    | queryResponse id result =>
      cases brings
      cases ok
      exact ⟨rfl, rfl⟩
    | _ => cases brings
  | _ => cases brings

/-- A registration is accepted if nobody waits under its key, and is entered there. -/
theorem attempt_eq {registration : Registration} {k : RequestKey} {w : Awaiting}
    (enters : registration.entry? = some (k, w)) :
    s.attempt registration =
      if (s.awaiting k).isNone then
        .ok (s.putTable k.kind ((s.requests.table k.kind).insert k.id w))
      else .error (.duplicateRequest (s.requests.table k.kind).domain k.id) := by
  have entered (t : RequestTable Awaiting) (id : RequestId)
      (put : RequestTable Awaiting → Requests) :
      s.withRequests ((t.register id w).map put) =
        if (t.get? id).isNone then .ok { s with requests := put (t.insert id w) }
        else .error (.duplicateRequest t.domain id) := by
    rw [RequestTable.register_eq]
    by_cases free : (t.get? id).isNone
    · rw [if_pos free, if_pos free]
      rfl
    · rw [if_neg free, if_neg free]
      rfl
  cases registration with
  | command _ _ => cases enters
  | _ =>
    cases enters
    exact entered _ _ _

/-- A registration that is refused changes nothing. -/
theorem await_eq_attempt (registration : Registration) :
    s.await registration =
      match s.attempt registration with
      | .ok s' => s'
      | .error _ => s := by
  cases registration <;> rfl

/-- What an act registers is accepted if nobody waits under its key. -/
theorem accepted?_eq (a : Act) :
    s.accepted? a = a.entry?.filter fun (k, _) => (s.awaiting k).isNone := by
  cases a with
  | register registration =>
    simp only [accepted?, Act.entry?]
    cases enters : registration.entry? with
    | none => cases s.attempt registration <;> rfl
    | some entry =>
      rw [attempt_eq enters, Option.filter]
      by_cases free : (s.awaiting entry.1).isNone <;> simp [free]
  | _ => rfl

/-- A registration is entered under its key if nobody waits there; otherwise nothing happens. -/
theorem act_entry {a : Act} {k : RequestKey} {w : Awaiting} (enters : a.entry? = some (k, w))
    (ok : s.act a = .ok s₁) :
    (∀ t, s₁.awaiting t = if k = t ∧ s.awaiting k = none then some w else s.awaiting t) ∧
      s₁.deliveries = s.deliveries ∧ ∀ m ∈ s.idle.trail (s.moves a), ∀ v, m.drops v = false := by
  cases a with
  | register registration =>
    have came : s.await registration = s₁ := Except.ok.inj ok
    have unsettled := drops_settle
      (show s.moves (.register registration) = [.settle s₁.requests s₁.events s₁.deliveries] by
        rw [← came]; rfl)
    rw [await_eq_attempt, attempt_eq enters] at came
    by_cases free : s.awaiting k = none
    · simp only [free, Option.isNone_none, if_true] at came
      refine ⟨fun t => ?_, by rw [← came]; rfl, unsettled⟩
      rw [← came, awaiting_putTable s k fun id other => by
        rw [RequestTable.get?_insert, if_neg other], RequestTable.get?_insert, if_pos rfl]
      simp only [free, and_true]
    · simp only [Option.isNone_iff_eq_none, free, if_false] at came
      subst came
      exact ⟨fun t => by rw [if_neg fun both => free both.2], rfl, unsettled⟩
  | _ => cases enters

/-- An act that neither answers nor registers drops those whose owner's entity it takes down. -/
theorem act_other (tidy : s.Tidy .all) {a : Act} (unanswered : a.answer? = none)
    (unregistered : a.entry? = none) (ok : s.act a = .ok s₁) :
    s₁.deliveries = s.deliveries ∧
      ∀ k v, s₁.awaiting k = some v ↔
        s.awaiting k = some v ∧ ∀ m ∈ s.idle.trail (s.moves a), m.drops v = false := by
  have kept (tables : ∀ kind, s₁.requests.table kind = s.requests.table kind)
      (deliveries : s₁.deliveries = s.deliveries)
      (settled : s.moves a = [.settle s₁.requests s₁.events s₁.deliveries]) :
      s₁.deliveries = s.deliveries ∧
        ∀ k v, s₁.awaiting k = some v ↔
          s.awaiting k = some v ∧ ∀ m ∈ s.idle.trail (s.moves a), m.drops v = false := by
    refine ⟨deliveries, fun k v => ?_⟩
    rw [awaiting, tables]
    exact (and_iff_left fun m mem => drops_settle settled m mem v).symm
  cases settles : a.settles with
  | false =>
    have strides := strides_act tidy settles ok
    exact awaiting_carries strides.carries tidy strides.settle_notMem
  | true =>
    cases a with
    | receive operation =>
      cases operation with
      | commandRequest request entity command =>
        cases ok
        have strides := strides_command [] entity command (s := s)
        obtain ⟨deliveries, waits⟩ :=
          awaiting_carries strides.carries tidy strides.settle_notMem
        refine ⟨deliveries, fun k v => (waits k v).trans (and_congr_right' ?_)⟩
        show (∀ m ∈ s.idle.trail (s.commandMoves entity command), m.drops v = false) ↔
          ∀ m ∈ s.idle.trail (s.commandMoves entity command ++ [_]), m.drops v = false
        rw [Work.trail_append, List.forall_mem_append]
        exact (and_iff_left fun m mem => by cases List.mem_singleton.mp mem; rfl).symm
      | commandResponse request result =>
        have settled : s.moves (.receive (.commandResponse request result)) =
            [.settle s₁.requests s₁.events s₁.deliveries] := by
          simp only [act, process] at ok
          simp only [Session.moves, processMoves, ok]
        obtain ⟨retries, rfl⟩ := commandResponse_eq ok
        exact kept (fun kind => by cases kind <;> rfl) rfl settled
      | createResponse _ _ => cases unanswered
      | reserveResponse _ _ => cases unanswered
      | queryResponse _ _ => cases unanswered
      | _ => cases settles
    | register registration =>
      cases registration with
      | command id command =>
        -- The other tables stay as they are, whether the command is accepted or not.
        have settled : s.moves (.register (.command id command)) =
            [.settle s₁.requests s₁.events s₁.deliveries] := by
          cases ok
          rfl
        have came : s.await (.command id command) = s₁ := Except.ok.inj ok
        rw [await_eq_attempt, attempt, awaitCommand] at came
        cases registered : s.requests.commands.register id command with
        | ok table =>
          simp only [registered, Except.map, withRequests] at came
          subst came
          exact kept (fun kind => by cases kind <;> rfl) rfl settled
        | error error =>
          simp only [registered, Except.map, withRequests] at came
          subst came
          exact kept (fun _ => rfl) rfl settled
      | _ => cases unregistered
    | takeEvents =>
      cases ok
      exact kept (fun _ => rfl) rfl rfl
    | _ => cases settles

/-- What accepts a registration enters it, and only where nobody waits. -/
theorem accepted?_eq_some {a : Act} {k : RequestKey} {w : Awaiting} :
    s.accepted? a = some (k, w) ↔ a.entry? = some (k, w) ∧ s.awaiting k = none := by
  rw [accepted?_eq, Option.filter_eq_some_iff, Option.isNone_iff_eq_none]

/-- An act invokes a handler just if it answers a request whose owner is alive. -/
theorem invoked?_eq_some {a : Act} {k : RequestKey} {x : Answer} :
    s.invoked? a = some (k, x) ↔
      a.answer? = some (k, x) ∧ ∃ w, s.awaiting k = some w ∧ w.owner.all s.world.isAlive := by
  rw [invoked?, Option.filter_eq_some_iff, Option.any_eq_true]

/-- An act that registers something brings no answer. -/
theorem unanswered_of_entry {a : Act} {e : RequestKey × Awaiting} (enters : a.entry? = some e) :
    a.answer? = none := by
  cases a with
  | register _ => rfl
  | _ => cases enters

/-- **Who waits after an act**: whoever it registers, and of those before it all whom it neither
answers nor drops. -/
theorem awaiting_act (tidy : s.Tidy .all) {a : Act} (ok : s.act a = .ok s₁) (k : RequestKey)
    (w : Awaiting) :
    s₁.awaiting k = some w ↔ s.accepted? a = some (k, w) ∨ s.awaiting k = some w ∧
      (∀ x, a.answer? ≠ some (k, x)) ∧ ∀ m ∈ s.idle.trail (s.moves a), m.drops w = false := by
  rw [accepted?_eq_some]
  cases enters : a.entry? with
  | some entry =>
    obtain ⟨t, v⟩ := entry
    obtain ⟨waits, -, undropped⟩ := act_entry enters ok
    have stays : (∀ x, a.answer? ≠ some (k, x)) ∧
        ∀ m ∈ s.idle.trail (s.moves a), m.drops w = false :=
      ⟨fun x => by simp [unanswered_of_entry enters], fun m mem => undropped m mem w⟩
    rw [and_iff_left stays, waits]
    by_cases entered : t = k ∧ s.awaiting t = none
    · obtain ⟨rfl, free⟩ := entered
      simp [free]
    · rw [if_neg entered, or_iff_right]
      rintro ⟨same, free⟩
      cases same
      exact entered ⟨rfl, free⟩
  | none =>
    cases brings : a.answer? with
    | some answer =>
      obtain ⟨t, x⟩ := answer
      obtain ⟨waits, -, undropped⟩ := act_answer brings ok
      rw [waits]
      by_cases here : t = k
      · simp [here]
      · simpa [here] using fun _ m mem => undropped m mem w
    | none => simpa using (act_other tidy brings enters ok).2 k w

/-- What an act delivers: its answer, if that is invoked. -/
theorem deliveries_act (tidy : s.Tidy .all) {a : Act} (ok : s.act a = .ok s₁) :
    s₁.deliveries = s.deliveries ++ (s.invoked? a).toList.flatMap fun (k, x) =>
      (s.awaiting k).toList.flatMap (·.continuation.deliver x) := by
  cases brings : a.answer? with
  | some answer =>
    obtain ⟨k, x⟩ := answer
    rw [(act_answer brings ok).2.1, invoked?, brings]
    cases waits : s.awaiting k with
    | none => simp [Option.filter, waits]
    | some w => by_cases alive : w.owner.all s.world.isAlive <;> simp [Option.filter, waits, alive]
  | none =>
    have same : s₁.deliveries = s.deliveries := by
      cases enters : a.entry? with
      | some entry => exact (act_entry enters ok).2.1
      | none => exact (act_other tidy brings enters ok).1
    rw [same, invoked?, brings]
    exact (List.append_nil _).symm

/-! ## Registrations that still wait -/

/-- A registration that still waits was made by the act of its number. -/
theorem StillWaits.entry {acts : List Act} {n : Nat} {k : RequestKey} {w : Awaiting}
    (h : s.StillWaits acts n k w) : acts[n]?.bind Act.entry? = some (k, w) := by
  obtain ⟨before, a, later, s₀, s₁, rfl, rfl, -, accepted, -⟩ := h
  rw [List.getElem?_append_right (Nat.le_refl _), Nat.sub_self]
  exact (accepted?_eq_some.mp accepted).1

/-- What still waits was registered. -/
theorem StillWaits.lt {acts : List Act} {n : Nat} {k : RequestKey} {w : Awaiting}
    (h : s.StillWaits acts n k w) : n < acts.length := by
  obtain ⟨before, a, later, s₀, s₁, rfl, rfl, -⟩ := h
  simp

/-- What still waits after one more act: what it registers, and of what waited before all that it
neither answers nor drops. -/
theorem stillWaits_concat {acts : List Act} (ok : s.run acts = .ok s₁) {a : Act}
    (last : s₁.act a = .ok s₂) (n : Nat) (k : RequestKey) (w : Awaiting) :
    s.StillWaits (acts ++ [a]) n k w ↔
      (acts.length = n ∧ s₁.accepted? a = some (k, w)) ∨ s.StillWaits acts n k w ∧
        (∀ x, a.answer? ≠ some (k, x)) ∧ ∀ m ∈ s₁.idle.trail (s₁.moves a), m.drops w = false := by
  have moments : s₁.course [a] = s₁.idle.trail (s₁.moves a) := by
    simp only [course, last, List.append_nil]
  constructor
  · rintro ⟨before, b, later, s₀, s', split, number, ran, accepted, made, unanswered, undropped⟩
    rcases concat_eq_split.mp split with ⟨rfl, rfl, rfl⟩ | ⟨rest, rfl, rfl⟩
    · cases ok.symm.trans ran
      exact .inl ⟨number, accepted⟩
    · -- The rest of the acts leads from the registration to the session in which `a` is made.
      obtain ⟨t, first, along⟩ := run_append_eq_ok.mp ok
      cases ran.symm.trans first
      obtain ⟨t', now, rests⟩ := run_cons.mp along
      cases made.symm.trans now
      rw [course_append rests, List.forall_mem_append, moments] at undropped
      rw [List.forall_mem_append, List.forall_mem_singleton] at unanswered
      exact .inr ⟨⟨before, b, rest, s₀, s', rfl, number, ran, accepted, made, unanswered.1,
        undropped.1⟩, unanswered.2, undropped.2⟩
  · rintro (⟨number, accepted⟩ |
      ⟨⟨before, b, rest, s₀, s', rfl, number, ran, accepted, made, unanswered, undropped⟩, none,
        kept⟩)
    · exact ⟨acts, a, [], s₁, s₂, rfl, number, ok, accepted, last,
        fun _ mem => absurd mem List.not_mem_nil, fun _ mem => absurd mem List.not_mem_nil⟩
    · obtain ⟨t, first, along⟩ := run_append_eq_ok.mp ok
      cases ran.symm.trans first
      obtain ⟨t', now, rests⟩ := run_cons.mp along
      cases made.symm.trans now
      refine ⟨before, b, rest ++ [a], s₀, s', by simp, number, ran, accepted, made, ?_, ?_⟩
      · rw [List.forall_mem_append, List.forall_mem_singleton]
        exact ⟨unanswered, none⟩
      · rw [course_append rests, List.forall_mem_append, moments]
        exact ⟨undropped, kept⟩

/-! ## Registrations that are answered -/

/-- A registration is answered by the last of several acts, or before it. -/
theorem answered_concat {acts : List Act} (ok : s.run acts = .ok s₁) (a : Act) (n : Nat)
    (x : Answer) :
    s.Answered (acts ++ [a]) n x ↔ s.Answered acts n x ∨ ∃ k w, s.StillWaits acts n k w ∧
      a.answer? = some (k, x) ∧ w.owner.all s₁.world.isAlive := by
  constructor
  · rintro ⟨before, b, later, s', k, w, split, ran, waits, brings, alive⟩
    rcases concat_eq_split.mp split with ⟨rfl, rfl, rfl⟩ | ⟨rest, rfl, same⟩
    · cases ok.symm.trans ran
      exact .inr ⟨k, w, waits, brings, alive⟩
    · exact .inl ⟨before, b, rest, s', k, w, same, ran, waits, brings, alive⟩
  · rintro (⟨before, b, rest, s', k, w, rfl, answered⟩ | ⟨k, w, waits, brings, alive⟩)
    · exact ⟨before, b, rest ++ [a], s', k, w, by simp, answered⟩
    · exact ⟨acts, a, [], s₁, k, w, rfl, ok, waits, brings, alive⟩

/-- What was answered was registered. -/
theorem Answered.lt {acts : List Act} {n : Nat} {x : Answer} (h : s.Answered acts n x) :
    n < acts.length := by
  obtain ⟨before, b, later, _, _, _, rfl, _, waits, _⟩ := h
  have := waits.lt
  rw [List.length_append]
  omega

/-- What is answered waits no more. -/
theorem Answered.not_stillWaits {acts : List Act} (ok : s.run acts = .ok s₁) {n : Nat} {x : Answer}
    (h : s.Answered acts n x) (k : RequestKey) (w : Awaiting) : ¬s.StillWaits acts n k w := by
  induction acts using List.reverseRecOn generalizing s₁ with
  | nil => exact absurd h.lt (Nat.not_lt_zero n)
  | append_singleton acts a ih =>
    obtain ⟨s', early, last⟩ := run_concat_eq_ok.mp ok
    rw [stillWaits_concat early last]
    rcases (answered_concat early a n x).mp h with before | ⟨t, v, waits, brings, -⟩
    · rintro (⟨rfl, -⟩ | ⟨still, -⟩)
      · exact Nat.lt_irrefl _ before.lt
      · exact ih early before still
    · rintro (⟨rfl, -⟩ | ⟨still, unanswered, -⟩)
      · exact Nat.lt_irrefl _ waits.lt
      · -- One number belongs to one key only.
        cases waits.entry.symm.trans still.entry
        exact unanswered x brings

end Session

/-! ## Books of a run -/

/-- The **deliveries of invocations**: each answer, with the token of the continuation that the act
of its number registered, if somebody still reads at the other end. -/
def Books.deliveries (b : Books) (acts : List Act) : List Delivery :=
  b.invoked.filterMap fun (n, x) =>
    ((acts[n]?.bind Act.entry?).filter fun (_, w) => w.continuation.route != .closedChannel).map
      fun (_, w) => ⟨w.continuation.token, x⟩

/-- An answer on its way to a continuation is delivered with its token, if it is heard. -/
theorem Continuation.deliver_eq (c : Continuation) (x : Answer) :
    c.deliver x = if c.route = .closedChannel then [] else [⟨c.token, x⟩] := by
  by_cases closed : c.route = .closedChannel <;> simp [deliver, isHeard, closed]

/-- What one invocation delivers. -/
theorem Books.delivered_of_entry {k : RequestKey} {w : Awaiting} (x : Answer) :
    (((some (k, w) : Option (RequestKey × Awaiting)).filter fun (_, w) =>
      w.continuation.route != .closedChannel).map fun (_, w) =>
        (⟨w.continuation.token, x⟩ : Delivery)).toList = w.continuation.deliver x := by
  rw [Continuation.deliver_eq]
  by_cases closed : w.continuation.route = .closedChannel <;> simp [Option.filter, closed]

namespace Session

variable {s s₁ s₂ : Session}

/-- A request that is accepted is filed under the number of its act. -/
theorem filed_after_of_accepted (b : Books) {a : Act} {k : RequestKey} {w : Awaiting}
    (accepted : s.accepted? a = some (k, w)) : (b.after s a).filed k = b.acts := by
  simp [Books.after, accepted]

/-- Nothing is filed anew where somebody waits. -/
theorem filed_after_of_awaiting (b : Books) (a : Act) {k : RequestKey} {w : Awaiting}
    (waits : s.awaiting k = some w) : (b.after s a).filed k = b.filed k := by
  cases accepted : s.accepted? a with
  | none => simp [Books.after, accepted]
  | some entry =>
    obtain ⟨t, v⟩ := entry
    have other : t ≠ k := by
      rintro rfl
      cases (accepted?_eq_some.mp accepted).2.symm.trans waits
    simp [Books.after, accepted, other]

/-- What is invoked after an act was invoked before, or answers the request on file. -/
theorem mem_invoked_after (b : Books) (a : Act) (n : Nat) (x : Answer) :
    (n, x) ∈ (b.after s a).invoked ↔
      (n, x) ∈ b.invoked ∨ ∃ k, s.invoked? a = some (k, x) ∧ b.filed k = n := by
  simp [Books.after, and_comm]

section OfRun

variable {settings : Settings} {protocol : Protocol} {acts : List Act}

/-- The books of a run from the start. -/
theorem acts_books_start (ok : (start settings protocol).run acts = .ok s) :
    ((start settings protocol).books {} acts).acts = acts.length :=
  (acts_books ok {}).trans (Nat.zero_add _)

/-- **Who waits still waits**: the entries are the registrations that were neither answered nor
dropped, each filed under its number. -/
theorem stillWaits_iff (ok : (start settings protocol).run acts = .ok s) (n : Nat)
    (k : RequestKey) (w : Awaiting) :
    (start settings protocol).StillWaits acts n k w ↔
      s.awaiting k = some w ∧ ((start settings protocol).books {} acts).filed k = n := by
  induction acts using List.reverseRecOn generalizing s n k w with
  | nil =>
    cases ok
    constructor
    · rintro ⟨before, a, later, s₀, s₁, split, -⟩
      simp at split
    · rintro ⟨waits, -⟩
      obtain ⟨kind, id⟩ := k
      cases kind <;> simp [awaiting, Requests.table, RequestTable.get?, start] at waits
  | append_singleton acts a ih =>
    obtain ⟨s₁, early, last⟩ := run_concat_eq_ok.mp ok
    rw [stillWaits_concat early last, awaiting_act (tidy_of_run early) last, ih early,
      books_concat early last]
    constructor
    · rintro (⟨number, accepted⟩ | ⟨⟨waits, number⟩, kept⟩)
      · exact ⟨.inl accepted, by
          rw [filed_after_of_accepted _ accepted, acts_books_start early, number]⟩
      · exact ⟨.inr ⟨waits, kept⟩, by rw [filed_after_of_awaiting _ _ waits, number]⟩
    · rintro ⟨accepted | ⟨waits, kept⟩, number⟩
      · rw [filed_after_of_accepted _ accepted, acts_books_start early] at number
        exact .inl ⟨number, accepted⟩
      · rw [filed_after_of_awaiting _ _ waits] at number
        exact .inr ⟨⟨waits, number⟩, kept⟩

/-- **What is invoked** are the registrations that are answered. -/
theorem mem_invoked_iff (ok : (start settings protocol).run acts = .ok s) (n : Nat) (x : Answer) :
    (n, x) ∈ ((start settings protocol).books {} acts).invoked ↔
      (start settings protocol).Answered acts n x := by
  induction acts using List.reverseRecOn generalizing s with
  | nil => exact ⟨nofun, fun answered => absurd answered.lt (Nat.not_lt_zero n)⟩
  | append_singleton acts a ih =>
    obtain ⟨s₁, early, last⟩ := run_concat_eq_ok.mp ok
    rw [books_concat early last, answered_concat early, mem_invoked_after, ih early]
    refine or_congr_right ⟨?_, ?_⟩
    · rintro ⟨k, invoked, rfl⟩
      obtain ⟨brings, w, waits, alive⟩ := invoked?_eq_some.mp invoked
      exact ⟨k, w, (stillWaits_iff early _ k w).mpr ⟨waits, rfl⟩, brings, alive⟩
    · rintro ⟨k, w, still, brings, alive⟩
      obtain ⟨waits, number⟩ := (stillWaits_iff early n k w).mp still
      exact ⟨k, invoked?_eq_some.mpr ⟨brings, w, waits, alive⟩, number⟩

/-- Nothing is invoked twice. -/
theorem nodup_invoked (ok : (start settings protocol).run acts = .ok s) :
    (((start settings protocol).books {} acts).invoked.map (·.1)).Nodup := by
  induction acts using List.reverseRecOn generalizing s with
  | nil => exact List.nodup_nil
  | append_singleton acts a ih =>
    obtain ⟨s₁, early, last⟩ := run_concat_eq_ok.mp ok
    rw [books_concat early last]
    cases invoked : s₁.invoked? a with
    | none =>
      simp only [Books.after, invoked, Option.toList_none, List.map_nil, List.append_nil]
      exact ih early
    | some answer =>
      obtain ⟨k, x⟩ := answer
      simp only [Books.after, invoked, Option.toList_some, List.map_cons, List.map_nil,
        List.map_append]
      refine List.nodup_append.mpr ⟨ih early, List.pairwise_singleton _ _, ?_⟩
      rintro n mem _ last rfl
      cases List.mem_singleton.mp last
      -- Whoever waited before the act had not been answered before.
      obtain ⟨⟨_, y⟩, before, rfl⟩ := List.mem_map.mp mem
      obtain ⟨-, w, waits, -⟩ := invoked?_eq_some.mp invoked
      exact ((mem_invoked_iff early _ y).mp before).not_stillWaits early k w
        ((stillWaits_iff early _ k w).mpr ⟨waits, rfl⟩)

/-- **What is delivered** is what the invocations deliver. -/
theorem deliveries_eq (ok : (start settings protocol).run acts = .ok s) :
    s.deliveries = ((start settings protocol).books {} acts).deliveries acts := by
  induction acts using List.reverseRecOn generalizing s with
  | nil =>
    cases ok
    rfl
  | append_singleton acts a ih =>
    obtain ⟨s₁, early, last⟩ := run_concat_eq_ok.mp ok
    have older {n : Nat} (lt : n < acts.length) : (acts ++ [a])[n]? = acts[n]? :=
      List.getElem?_append_left lt
    rw [deliveries_act (tidy_of_run early) last, ih early, books_concat early last,
      Books.deliveries, Books.deliveries, Books.after, List.filterMap_append, List.filterMap_map]
    refine congrArg₂ (· ++ ·) (List.filterMap_congr fun (n, x) mem => ?_) ?_
    · dsimp only
      rw [older ((mem_invoked_iff early n x).mp mem).lt]
    · rw [List.filterMap_eq_flatMap_toList]
      refine List.flatMap_congr fun (k, x) mem => ?_
      obtain ⟨-, w, waits, -⟩ := invoked?_eq_some.mp (Option.mem_toList.mp mem)
      have still := (stillWaits_iff early _ k w).mpr ⟨waits, rfl⟩
      dsimp only [Function.comp_apply]
      rw [older still.lt, still.entry, waits, Books.delivered_of_entry]
      exact List.append_nil _

/-- **Every answer goes to the right request, once.** What a run delivers are the answers with which
registrations are invoked, each with the token that was registered, in the order in which they came.
None is invoked twice, and each is invoked with the first answer that comes under its key while it
still waits, if its owner is alive then. A registration is refused just where another under its key
still waits, and then nothing changes. -/
theorem answered_once (ok : (start settings protocol).run acts = .ok s) :
    s.deliveries = ((start settings protocol).books {} acts).deliveries acts ∧
      (((start settings protocol).books {} acts).invoked.map (·.1)).Nodup ∧
      (∀ n x, (n, x) ∈ ((start settings protocol).books {} acts).invoked ↔
        (start settings protocol).Answered acts n x) ∧
      ∀ registration k w, registration.entry? = some (k, w) →
        ((∃ error, s.attempt registration = .error error) ↔
          ∃ n v, (start settings protocol).StillWaits acts n k v) ∧
        ∀ error, s.attempt registration = .error error →
          s.act (.register registration) = .ok s := by
  refine ⟨deliveries_eq ok, nodup_invoked ok, mem_invoked_iff ok,
    fun registration k w enters => ⟨?_, fun error refused => ?_⟩⟩
  · rw [attempt_eq enters]
    constructor
    · rintro ⟨error, refused⟩
      cases waits : s.awaiting k with
      | none => simp [waits] at refused
      | some v => exact ⟨_, v, (stillWaits_iff ok _ k v).mpr ⟨waits, rfl⟩⟩
    · rintro ⟨n, v, still⟩
      simp [((stillWaits_iff ok n k v).mp still).1]
  · show Except.ok (s.await registration) = _
    rw [await_eq_attempt, refused]

end OfRun

/-- A creation, a reservation and a query wait under one id. The creation is answered twice, and its
id is used again. The reservation is asked for by a crate that is taken down before the answer
comes, and the query by an object that is destroyed. -/
def oneId : List Act :=
  let unowned (token : Int) : Awaiting := ⟨none, ⟨token, .callback⟩⟩
  let owned (owner : Handle) (token : Int) : Awaiting := ⟨some owner, ⟨token, .callback⟩⟩
  (Blueprint.ofClass 1 "Crate").operations.map .receive ++
    [.alter (.placeLocal "Crate"),
      .receive (.createResponse 1 (.ok 5)),
      .register (.creation 1 (unowned 10)),
      .register (.reservation 1 (owned ⟨0, 0⟩ 20)),
      .register (.query 1 (owned ⟨1, 0⟩ 30)),
      .register (.creation 1 (unowned 11)),
      .receive (.createResponse 2 (.ok 6)),
      .receive (.createResponse 1 (.ok 7)),
      .receive (.createResponse 1 (.ok 8)),
      .register (.creation 1 (unowned 12)),
      .receive (.removeEntity 1),
      .receive (.reserveResponse 1 (.ok ⟨100, 3⟩)),
      .alter (.destroy ⟨1, 0⟩),
      .receive (.queryResponse 1 (.ok [])),
      .receive (.createResponse 1 (.error ⟨.timeout, "late"⟩))]

theorem answered_once_oneId :
    ∃ s, (start {} Stock.protocol).run oneId = .ok s ∧
      s.deliveries =
        [⟨10, .created (.ok 7)⟩, ⟨12, .created (.error ⟨.timeout, "late"⟩)⟩] ∧
      ((start {} Stock.protocol).books {} oneId).invoked =
        [(4, .created (.ok 7)), (11, .created (.error ⟨.timeout, "late"⟩))] ∧
      (start {} Stock.protocol).Answered oneId 4 (.created (.ok 7)) := by
  obtain ⟨s, ok, -⟩ := exists_run (start {} Stock.protocol) oneId (fun _ => true)
    (by decide +kernel)
  obtain ⟨delivered, -, answered, -⟩ := answered_once ok
  have invoked : ((start {} Stock.protocol).books {} oneId).invoked =
      [(4, .created (.ok 7)), (11, .created (.error ⟨.timeout, "late"⟩))] := by
    decide +kernel
  refine ⟨s, ok, ?_, invoked, (answered 4 _).mp (invoked ▸ List.mem_cons_self)⟩
  rw [delivered, Books.deliveries, invoked]
  decide +kernel

end Session

end Replica
