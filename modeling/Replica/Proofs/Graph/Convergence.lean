import Replica.Blueprint
import Replica.Proofs.Graph.Faithful

/-! # The object graph converges

As long as the object graph only grows, every field of every member holds the last value that was
applied to it, with all references that are local now; what waits beside it is just what that value
still misses. So what is filled in depends on the entities that are there, and not on the order in
which they came.

Main definitions:
* `Session.Converged` — the fields are what the directory makes of the last assignments.
* `Session.fields_converge` — after every run they are. -/

namespace Replica

/-! ## Handles -/

/-- No move of a growing graph takes a handle back. -/
theorem Move.Apt.dense {p : Protocol} {w : Work} {m : Move} (apt : m.Apt (.growing p) w)
    (dense : w.session.world.pool.Dense) :
    (w.perform m).session.world.pool.Dense ∧
      w.session.world.pool.slots.size ≤ (w.perform m).session.world.pool.slots.size := by
  have same {w' : Work} (pool : w'.session.world.pool = w.session.world.pool) :
      w'.session.world.pool.Dense ∧
        w.session.world.pool.slots.size ≤ w'.session.world.pool.slots.size := by
    rw [pool]
    exact ⟨dense, Nat.le_refl _⟩
  cases m with
  | mark opens =>
    obtain ⟨held, marked⟩ := w.exists_perform_mark opens
    exact same (congrArg (·.world.pool) marked)
  | hold operation | draft drafts | settle requests events deliveries => exact same rfl
  | alter change =>
    cases change with
    | addClass className parts | addStartup path => exact same rfl
    | placeLocal className =>
      obtain ⟨-, dense', size, -⟩ := World.place_spec dense
        ⟨none, className, Reference.rootOffset, ∅, true, []⟩
      exact ⟨dense', Nat.le_of_lt (Nat.lt_of_lt_of_eq (Nat.lt_succ_self _) size.symm)⟩
    | destroy object => cases apt
  | learn arrival | remove entity => cases apt
  | found draft =>
    simp only [Work.perform]
    split
    · rename_i channel s' step
      obtain ⟨spawn, assembly, world, channels, -, built, -, rfl⟩ := Session.found_eq_some.mp step
      obtain ⟨parts, dense', size, -⟩ := World.instantiate_spec dense built
      exact ⟨dense', Nat.le_trans (Nat.le_add_right _ _) (Nat.le_of_eq size.symm)⟩
    · rename_i s' step
      rcases Session.found_eq_none step with rfl | ⟨already, -⟩
      · exact same rfl
      · exact absurd apt.1 already
  | populate channel data =>
    exact same (Session.writes_populate channel w.session data).routine.pool
  | complete channel => exact same (w.session.world.finalize_keeps channel.root).1
  | authorize change => exact same (w.session.changeAuthority_keeps change).2.2.2.1
  | write entity data => exact same (Session.writes_write w.session entity data).routine.pool
  | deliver call => exact same (Session.routine_deliverCall w.session call).pool
  | replay a => exact same (Session.routine_resolveNow w.session a).pool

namespace Session

variable {settings : Settings} {protocol : Protocol} {acts : List Act} {s : Session}

/-- After every run of a growing graph, a session that has issued fewer handles than there are is
faithful to what was applied. -/
theorem faithful_of_run (within : ∀ a ∈ acts, a.Within (.growing protocol))
    (ok : (start settings protocol).run acts = .ok s) (few : s.world.pool.issued < 2 ^ 32) :
    s.idle.Faithful protocol (lastApplied ((start settings protocol).course acts)) ∧
      s.Tidy (.growing protocol) := by
  have before : HandlePool.empty.Dense ∧ (HandlePool.empty.slots.size < 2 ^ 32 →
      (start settings protocol).idle.Faithful protocol (lastApplied [])) :=
    ⟨HandlePool.dense_empty, fun _ => Work.Faithful.start settings protocol⟩
  -- Slots are never given up, so if their number fits in the end it has fitted all along.
  obtain ⟨⟨dense, faithful⟩, tidy⟩ := run_induction
    (I := fun w past => w.session.world.pool.Dense ∧
      (w.session.world.pool.slots.size < 2 ^ 32 → w.Faithful protocol (lastApplied past)))
    (fun w past m tidy apt ⟨dense, faithful⟩ => by
      obtain ⟨dense', size⟩ := apt.dense dense
      refine ⟨dense', ?_⟩
      intro few
      have kept := (faithful (Nat.lt_of_le_of_lt size few)).perform tidy dense apt few
      exact kept.of_last fun k f => lastApplied_concat past ⟨w.session, m⟩ k f)
    (tidy_start settings protocol) before within ok
  have slots : s.world.pool.issued = s.world.pool.slots.size := dense.issued
  rw [slots] at few
  exact ⟨faithful few, tidy⟩

/-! ## Convergence -/

/-- A session has **converged** to what a course has applied if its directory knows just the
objects of the open channels, and every field of theirs holds the last value that was applied to it
as it is local now, beside what that value still misses. -/
structure Converged (s : Session) (course : List Moment) : Prop where
  /-- Just the objects of the open channels are known. -/
  known : ∀ r, s.resolver r = s.memberAt? r
  /-- A field holds its last value with every reference that is local. -/
  fields : ∀ (entity : EntityId) (channel : Channel), s.channels.get? entity = some channel →
    ∀ (offset : Offset) (h : Handle), channel.objectAt? offset = some h → ∀ field,
      s.world.field? h field = (lastApplied course h field).map (·.value.localize s.resolver)
  /-- It waits for the other references of this value, and for nothing else. -/
  parked : ∀ (entity : EntityId) (channel : Channel), s.channels.get? entity = some channel →
    ∀ (offset : Offset) (h : Handle), channel.objectAt? offset = some h → ∀ field : Offset,
      (s.waitlist.parkedOf (channel.subscriber h))[field]? =
        (lastApplied course h field).bind fun a => a.value.outstanding s.resolver a.rep

/-- What is faithful with nothing due has converged. -/
theorem converged_of_faithful {p : Protocol} {scope : Scope} {course : List Moment}
    (tidy : s.Tidy scope) (h : s.idle.Faithful p (lastApplied course)) : s.Converged course := by
  have shown : ∀ (entity : EntityId) (channel : Channel), s.channels.get? entity = some channel →
      ∀ (offset : Offset) (k : Handle), channel.objectAt? offset = some k → ∀ field : Offset,
        s.world.field? k field = (lastApplied course k field).map (·.value.localize s.resolver) ∧
          (s.waitlist.parkedOf (channel.subscriber k))[field]? =
            (lastApplied course k field).bind fun a => a.value.outstanding s.resolver a.rep := by
    intro entity channel opened offset k found field
    have filed := tidy.channels entity channel opened
    rw [← filed] at opened
    obtain ⟨object, here, shows⟩ := h.mirrors _ (member_of_objectAt? opened found)
    obtain ⟨holds, waits⟩ := shows.eq (fun r ⟨a, due, _⟩ => by cases due) field
    refine ⟨?_, waits⟩
    have live : s.world.object? k = some object := here
    rw [World.field?, live]
    exact holds
  exact {
    known := h.known
    fields := fun entity channel opened offset k found field =>
      (shown entity channel opened offset k found field).1
    parked := fun entity channel opened offset k found field =>
      (shown entity channel opened offset k found field).2 }

/-- Sessions that have converged to the same value of a field leave the same references of it open,
if they have built the same objects. -/
theorem Converged.parked_eq {s' : Session} {course course' : List Moment} (h : s.Converged course)
    (h' : s'.Converged course') (built : ∀ r, (s.memberAt? r).isNone = (s'.memberAt? r).isNone)
    {r : Reference} {channel channel' : Channel} {k k' : Handle} {field : Offset}
    (opened : s.channels.get? r.entity = some channel)
    (opened' : s'.channels.get? r.entity = some channel')
    (found : channel.objectAt? r.offset = some k)
    (found' : channel'.objectAt? r.offset = some k')
    (last : lastApplied course k field = lastApplied course' k' field) :
    (s.waitlist.parkedOf (channel.subscriber k))[field]? =
      (s'.waitlist.parkedOf (channel'.subscriber k'))[field]? := by
  rw [h.parked r.entity channel opened r.offset k found field,
    h'.parked r.entity channel' opened' r.offset k' found' field, last]
  -- What is outstanding depends on which references are known, not on their handles.
  refine congrArg (Option.bind _) (funext fun a => a.value.outstanding_congr a.rep fun q _ => ?_)
  rw [h.known, h'.known, built]

/-- **The object graph converges**: after every run of a host that lets it only grow, every field of
every object of an open channel holds the last value that was applied to it, as it is local now, and
what the field still misses of this value is parked, and nothing else. Only the objects of open
channels are local. So any other session that has built the same objects, in whatever order, leaves
the same references of the same values open. -/
theorem fields_converge (within : ∀ a ∈ acts, a.Within (.growing protocol))
    (ok : (start settings protocol).run acts = .ok s) (few : s.world.pool.issued < 2 ^ 32) :
    let course := (start settings protocol).course acts
    s.Converged course ∧
      ∀ (s' : Session) (course' : List Moment), s'.Converged course' →
        (∀ r, (s.memberAt? r).isNone = (s'.memberAt? r).isNone) →
        ∀ (r : Reference) (channel channel' : Channel) (h h' : Handle) (field : Offset),
          s.channels.get? r.entity = some channel → s'.channels.get? r.entity = some channel' →
          channel.objectAt? r.offset = some h → channel'.objectAt? r.offset = some h' →
          lastApplied course h field = lastApplied course' h' field →
          (s.waitlist.parkedOf (channel.subscriber h))[field]? =
            (s'.waitlist.parkedOf (channel'.subscriber h'))[field]? := by
  obtain ⟨faithful, tidy⟩ := faithful_of_run within ok few
  have converged := converged_of_faithful tidy faithful
  refine ⟨converged, ?_⟩
  intro s' course' other built r channel channel' h h' field opened opened' found found' last
  exact converged.parked_eq other built opened opened' found found' last

/-- A crate names two others and one that never comes, in every shape. The second one comes in the
same section, where its container is loaded later, and the third one before them. -/
def crossReferences : List Act :=
  let build (entity : EntityId) := Blueprint.ofClass entity "Crate"
  let first := (build 1).withFields Stock.rootDataComponent
    [.at 5 (.ref (.root 2)), .at 6 (.struct [.ref (.root 3), .ref (.root 4)]),
      .at 7 (.array [.ref (.root 2), .ref (.root 4)])]
  ((build 3).operations ++ [Operation.criticalSection true] ++ first.sectionOperations ++
      ((build 2).inContainer ⟨"yard"⟩).operations ++
      [Operation.criticalSection false]).map .receive ++ [.load ⟨"yard"⟩]

theorem fields_converge_crossReferences :
    ∃ s, (start {} Stock.protocol).run crossReferences = .ok s ∧
      s.Converged ((start {} Stock.protocol).course crossReferences) ∧
      s.world.field? ⟨1, 0⟩ 5 = some (.object (some ⟨2, 0⟩)) ∧
      s.world.field? ⟨1, 0⟩ 6 = some (.struct [.object (some ⟨0, 0⟩), .object none]) ∧
      s.world.field? ⟨1, 0⟩ 7 = some (.array [.object (some ⟨2, 0⟩), .object none]) := by
  obtain ⟨s, ok, test⟩ := exists_run (start {} Stock.protocol) crossReferences
    (fun s => decide (s.world.pool.issued < 2 ^ 32) &&
      (s.world.field? ⟨1, 0⟩ 5 == some (.object (some ⟨2, 0⟩)) &&
        (s.world.field? ⟨1, 0⟩ 6 == some (.struct [.object (some ⟨0, 0⟩), .object none]) &&
          s.world.field? ⟨1, 0⟩ 7 == some (.array [.object (some ⟨2, 0⟩), .object none]))))
    (by decide +kernel)
  simp only [Bool.and_eq_true, decide_eq_true_eq, beq_iff_eq] at test
  obtain ⟨few, single, struct, array⟩ := test
  exact ⟨s, ok, (fields_converge (by decide +kernel) ok few).1, single, struct, array⟩

end Session

end Replica
