import Replica.Proofs.Authority
import Replica.Proofs.Section.Cancelling
import Replica.Proofs.Section.Grouping
import Replica.Proofs.Stalled

/-! # Changes of authority in a run

A step of a run processes changes of authority at once, or when a section ends. Step by step an
entity takes what is processed, or its draft holds it; and what is processed is, in order, what was
delivered before. So once the draft of an entity was begun nothing is lost on the way to the built
entity, nothing comes twice, and nothing overtakes anything else.

Main definitions:
* `Act.grants`, `Step.grants` — the changes that an act delivers, and those that it processes.
* `Step.begins`, `Step.removes` — an act begins the draft of an entity, or takes the entity down.
* `Session.takes_act` — what an act does with the changes for an entity.
* `Session.grants_run` — changes are processed in the order of their delivery.
* `Session.due`, `Session.takes_due` — the changes since a draft was begun, and who takes them. -/

namespace Replica

/-! ## Acts -/

/-- What a burst has for an entity has the same changes for it. -/
theorem ownChanges_belongings (entity : EntityId) (b : Burst) :
    ownChanges entity (b.belongings entity).authority = ownChanges entity b.authority := by
  simp [ownChanges, Burst.belongings, List.filter_filter]

/-- The changes of authority for an entity that an act **delivers**. -/
def Act.grants (entity : EntityId) (a : Act) : List (ComponentId × Authority) :=
  ownChanges entity (a.belongings entity).authority

namespace Step

/-- The changes of authority for an entity that a step **processes**: those of a section that ends,
or one that no section holds back. -/
def grants (step : Step) (entity : EntityId) : List (ComponentId × Authority) :=
  ownChanges entity step.burst.authority

/-- Whether a step **begins** the draft of an entity: it adds the entity, which is absent. -/
def begins (step : Step) (entity : EntityId) : Bool :=
  (step.session.standing entity).isAbsent && step.burst.added.contains entity

/-- Whether a step **removes** an entity that is drafted or built. -/
def removes (step : Step) (entity : EntityId) : Bool :=
  !(step.session.standing entity).isAbsent && step.burst.removed.contains entity

/-- What a step that leads to a session reports of an entity, and how the entity stands then. A
draft that is begun has held nothing before. -/
def Takes (step : Step) (entity : EntityId) (s' : Session) : Prop :=
  ∃ news, s'.events = step.session.events ++ news ∧
    Standing.Takes entity
      (if step.begins entity then .drafted [] else step.session.standing entity)
      (step.grants entity) (news.filter (·.isAbout entity)) (s'.standing entity)

variable {s s' : Session} {a : Act} {entity : EntityId}

/-- A step that does not move an entity, and has no burst. -/
theorem takes_of_idle (idle : (⟨s, a⟩ : Step).burst = {}) (unmoved : s.Unmoved entity s') :
    (⟨s, a⟩ : Step).Takes entity s' := by
  have begins : (⟨s, a⟩ : Step).begins entity = false := by simp [Step.begins, idle]
  have grants : (⟨s, a⟩ : Step).grants entity = [] := by simp [Step.grants, idle, ownChanges]
  rw [Takes, begins, grants]
  exact Session.Takes.of_unmoved unmoved

/-- A step that carries a burst out, which the session has perhaps held back. -/
theorem takes_of_burst {t : Session} (tidy : t.Tidy .all) (events : t.events = s.events)
    (stands : t.standing entity = s.standing entity)
    (stays : (⟨s, a⟩ : Step).removes entity = false) :
    (⟨s, a⟩ : Step).Takes entity (t.drain (⟨s, a⟩ : Step).burst) := by
  generalize burst : (⟨s, a⟩ : Step).burst = b
  have free : entity ∉ b.removed ∨ t.standing entity = .absent := by
    rw [stands]
    rw [removes, burst] at stays
    cases stood : s.standing entity with
    | absent => exact .inr rfl
    | drafted _ | built _ => exact .inl (by simpa [stood, Standing.isAbsent] using stays)
  obtain ⟨news, reported, takes⟩ := t.takes_drain tidy b free
  refine ⟨news, reported.trans (by rw [events]), ?_⟩
  rw [stands, Standing.begun_eq] at takes
  rw [grants, begins, burst]
  convert takes using 1
  by_cases listed : entity ∈ b.added <;> simp [listed]

/-- An operation that is held back does not move an entity; otherwise its burst is carried out. -/
theorem takes_of_held (tidy : s.Tidy .all) {held : Section} {b : Burst}
    (burst : (⟨s, a⟩ : Step).burst = if s.held.isOpen then {} else b)
    (same : s' = if s.held.isOpen then { s with held } else s.drain b)
    (stays : (⟨s, a⟩ : Step).removes entity = false) : (⟨s, a⟩ : Step).Takes entity s' := by
  subst same
  split
  · rename_i isOpen
    exact takes_of_idle (burst.trans (if_pos isOpen)) (.quiet rfl rfl rfl)
  · rename_i shut
    rw [← burst.trans (if_neg shut)]
    exact takes_of_burst tidy rfl rfl stays

end Step

namespace Session

variable {s s₁ s' : Session} {entity : EntityId}

/-- A container that is loaded sets drafts free, which hold what they have held or hand it over. -/
theorem takes_load (entity : EntityId) (tidy : s.Tidy .all) (c : Container) :
    Takes entity [] s (s.load c) := by
  have fit : (Move.draft (s.drafts.load c).2).Apt .all s.idle := tidy.drafts.load c
  have loaded : Unmoved entity s { s with drafts := (s.drafts.load c).2 } := by
    refine .quiet rfl rfl ?_
    unfold Drafts.load
    dsimp only
    rw [(Drafts.foldl_modify (f := ({ · with stage := .ready })) (fun _ => rfl) _ _).2]
    split
    · rw [Option.map_map]
      rfl
    · rfl
  exact (Takes.of_unmoved loaded).trans (takes_advances entity (fit.tidy tidy) _).1

/-- What is settled by replies moves no entity. -/
theorem unmoved_settled {replies : List Event} (all : ∀ e ∈ replies, e.IsReply)
    {requests : Requests} {deliveries : List Delivery}
    (same : s' = { s with requests, events := s.events ++ replies, deliveries }) :
    Unmoved entity s s' := by
  subst same
  exact ⟨⟨replies, rfl, fun e mem => (all e mem).isAbout entity⟩, standing_congr rfl rfl⟩

/-- **After an operation** an entity that it does not remove has taken, or holds, the changes that
the operation has processed. -/
theorem takes_process (tidy : s.Tidy .all) {operation : Operation}
    (ok : s.process operation = .ok s')
    (stays : (⟨s, .receive operation⟩ : Step).removes entity = false) :
    (⟨s, .receive operation⟩ : Step).Takes entity s' := by
  have idle : (if s.held.isOpen then ({} : Burst) else {}) = {} := ite_self _
  have answered {requests : Requests} {a : Option Awaiting} {answer : Answer} :
      Unmoved entity s (({ s with requests } : Session).deliver a answer) := by
    obtain ⟨deliveries, same⟩ := deliver_eq s requests a answer
    rw [same]
    exact .quiet rfl rfl rfl
  cases operation with
  | criticalSection opens =>
    cases ok
    cases opens with
    | true => exact Step.takes_of_idle idle (.quiet rfl rfl rfl)
    | false =>
      have kept := tidy.leave
      unfold markSection
      cases left : s.held.leave with
      | mk burst held =>
        have yields : (⟨s, .receive (.criticalSection false)⟩ : Step).burst = burst.getD {} :=
          congrArg (·.1.getD {}) left
        rw [left] at kept
        cases burst with
        | some burst =>
          have taken := Step.takes_of_burst (s := s) (t := { s with held }) kept rfl rfl stays
          rwa [yields] at taken
        | none => exact Step.takes_of_idle yields (.quiet rfl rfl rfl)
  | addEntity k | removeEntity k | addComponent k data | authorityChange k component authority =>
    cases ok
    exact Step.takes_of_held tidy rfl rfl stays
  | componentUpdate k update =>
    cases ok
    exact Step.takes_of_idle idle (unmoved_update s k update)
  | commandRequest request k command =>
    cases ok
    exact Step.takes_of_idle idle ((unmoved_tryCommand s k command).trans
      ⟨⟨[_], rfl, by simp [Event.isAbout]⟩, standing_congr rfl rfl⟩)
  | commandResponse request result =>
    obtain ⟨retries, same⟩ := commandResponse_eq ok
    refine Step.takes_of_idle idle (unmoved_settled (fun e mem => ?_) same)
    obtain ⟨_, -, rfl⟩ := List.mem_map.mp mem
    trivial
  | reserveResponse request result | createResponse request result | queryResponse request result =>
    cases ok
    exact Step.takes_of_idle idle answered

/-- **After an act** an entity that it does not remove has taken, or holds, the changes that the act
has processed. -/
theorem takes_act (tidy : s.Tidy .all) {a : Act} (ok : s.act a = .ok s') (keeps : a ≠ .takeEvents)
    (stays : (⟨s, a⟩ : Step).removes entity = false) : (⟨s, a⟩ : Step).Takes entity s' := by
  cases a with
  | receive operation => exact takes_process tidy ok stays
  | tryUpdate k update =>
    cases ok
    exact Step.takes_of_idle rfl (unmoved_update s k update)
  | tryCommand k request =>
    cases ok
    exact Step.takes_of_idle rfl (unmoved_tryCommand s k request)
  | load c =>
    cases ok
    obtain ⟨news, events, takes⟩ := takes_load entity tidy c
    refine ⟨news, events, ?_⟩
    have begins : (⟨s, .load c⟩ : Step).begins entity = false := Bool.and_false _
    rwa [begins]
  | announce arrival =>
    cases ok
    refine Step.takes_of_idle rfl ?_
    unfold announce
    dsimp only
    split
    · exact .quiet rfl rfl rfl
    · have registered : Unmoved entity s { s with
          directory := s.directory.register arrival.reference arrival.object } := .quiet rfl rfl rfl
      exact registered.trans (unmoved_resolveNow _ arrival)
  | register registration =>
    cases ok
    obtain ⟨requests, same⟩ := await_eq s registration
    refine Step.takes_of_idle rfl ?_
    rw [same]
    exact .quiet rfl rfl rfl
  | takeEvents => exact absurd rfl keeps
  | unload _ | alter _ =>
    cases ok
    exact Step.takes_of_idle rfl (.quiet rfl rfl rfl)

/-! ## What is delivered -/

theorem steps_cons {a : Act} (first : s.act a = .ok s₁) (acts : List Act) :
    s.steps (a :: acts) = ⟨s, a⟩ :: s₁.steps acts := by
  simp only [steps, first]

/-- An act that opens and closes no section leaves, processed and held back together, what a burst
has after it. -/
theorem grants_unmarked (tidy : s.Tidy .all) {a : Act} (unmarked : a.isMark = false)
    (ok : s.act a = .ok s') :
    (⟨s, a⟩ : Step).grants entity ++ ownChanges entity s'.held.burst.authority =
      ownChanges entity (s.held.burst.after s.settings.holdArrivals a).authority := by
  cases depth : s.held.depth with
  | succ depth' =>
    have isOpen : s.held.isOpen = true := by rw [Section.isOpen, depth]; rfl
    have idle : (⟨s, a⟩ : Step).burst = {} := by
      cases a with
      | receive operation =>
        cases operation with
        | criticalSection _ => cases unmarked
        | _ => exact if_pos isOpen
      | _ => rfl
    rw [held_of_act depth (Act.of_not_isMark unmarked depth').2.2 ok, Step.grants, idle]
    rfl
  | zero =>
    have shut : s.held.isOpen = false := by rw [Section.isOpen, depth]; rfl
    have alone : (⟨s, a⟩ : Step).burst.authority =
        (({} : Burst).after s.settings.holdArrivals a).authority := by
      cases a with
      | receive operation =>
        cases operation with
        | criticalSection _ => cases unmarked
        | _ => exact congrArg Burst.authority (if_neg (by rw [shut]; decide))
      | announce arrival =>
        unfold Burst.after
        dsimp only
        split <;> rfl
      | _ => rfl
    rw [held_of_shut tidy shut unmarked ok, tidy.closed shut, Step.grants, alone]
    exact List.append_nil _

/-- **Nothing is lost in a section**: what an act delivers is processed by the act, or held back
behind what is held back already; only a removal of the entity may cancel some of it. -/
theorem grants_act (entity : EntityId) (tidy : s.Tidy .all) {a : Act} (ok : s.act a = .ok s') :
    ((⟨s, a⟩ : Step).grants entity ++ ownChanges entity s'.held.burst.authority).Sublist
        (ownChanges entity s.held.burst.authority ++ a.grants entity) ∧
      (a ≠ .removal entity →
        (⟨s, a⟩ : Step).grants entity ++ ownChanges entity s'.held.burst.authority =
          ownChanges entity s.held.burst.authority ++ a.grants entity) := by
  cases mark : a.isMark with
  | false =>
    rw [grants_unmarked tidy mark ok]
    -- Only a removal loses something of what is held back.
    by_cases removal : a = .removal entity
    · subst removal
      refine ⟨?_, fun stays => absurd rfl stays⟩
      rw [show (Act.removal entity).grants entity = [] from rfl, List.append_nil,
        ← ownChanges_belongings, ← ownChanges_belongings entity s.held.burst]
      show (ownChanges entity ((s.held.burst.removeEntity entity).belongings entity).authority
        ).Sublist _
      rw [Burst.belongings_removeEntity]
      split
      · exact List.nil_sublist _
      · exact List.Sublist.refl _
    · have same : ownChanges entity (s.held.burst.after s.settings.holdArrivals a).authority =
          ownChanges entity s.held.burst.authority ++ a.grants entity := by
        rw [← ownChanges_belongings, Burst.belongings_after removal, Belongings.append_eq,
          ownChanges_append, ownChanges_belongings]
        rfl
      rw [same]
      exact ⟨List.Sublist.refl _, fun _ => rfl⟩
  | true =>
    -- A mark delivers nothing: the end of the outermost section processes what was held back, and
    -- any other mark leaves it there.
    have same : (⟨s, a⟩ : Step).grants entity ++ ownChanges entity s'.held.burst.authority =
        ownChanges entity s.held.burst.authority ++ a.grants entity := by
      obtain ⟨opens, rfl⟩ := Act.exists_of_isMark mark
      cases ok
      have nothing : (Act.receive (.criticalSection opens)).grants entity = [] := rfl
      rw [nothing, List.append_nil, Step.grants]
      cases opens with
      | true =>
        have idle : (⟨s, .receive (.criticalSection true)⟩ : Step).burst = {} := ite_self _
        rw [idle]
        rfl
      | false =>
        have yields {burst : Option Burst} {held : Section} (left : s.held.leave = (burst, held)) :
            (⟨s, .receive (.criticalSection false)⟩ : Step).burst = burst.getD {} :=
          congrArg (·.1.getD {}) left
        unfold markSection
        rcases s.held.leave_cases with ⟨-, left⟩ | ⟨-, left⟩ | ⟨-, inner, -, burst, left⟩
        · rw [yields left, left]
          rfl
        · rw [yields left, left]
          show _ ++ ownChanges entity
            (drain { s with held := {} } s.held.burst).held.burst.authority = _
          rw [held_drain]
          exact List.append_nil _
        · rw [yields left, left]
          show _ ++ ownChanges entity inner.burst.authority = _
          rw [burst]
          rfl
    rw [same]
    exact ⟨List.Sublist.refl _, fun _ => rfl⟩

/-- **Changes are processed in the order of their delivery**, each at most once; and each of them is
processed, or held back still, if the entity is never removed. -/
theorem grants_run (entity : EntityId) (tidy : s.Tidy .all) {acts : List Act}
    (ok : s.run acts = .ok s') :
    ((s.steps acts).flatMap (·.grants entity) ++
        ownChanges entity s'.held.burst.authority).Sublist
        (ownChanges entity s.held.burst.authority ++ acts.flatMap (·.grants entity)) ∧
      (.removal entity ∉ acts → (s.steps acts).flatMap (·.grants entity) ++
        ownChanges entity s'.held.burst.authority =
          ownChanges entity s.held.burst.authority ++ acts.flatMap (·.grants entity)) := by
  induction acts generalizing s with
  | nil =>
    cases ok
    rw [List.flatMap_nil, List.append_nil]
    exact ⟨List.Sublist.refl _, fun _ => rfl⟩
  | cons a acts ih =>
    obtain ⟨s₁, first, rest⟩ := run_cons.mp ok
    obtain ⟨sub, same⟩ := grants_act entity tidy first
    obtain ⟨sub', same'⟩ := ih (tidy_of_act tidy first) rest
    rw [steps_cons first, List.flatMap_cons, List.flatMap_cons, List.append_assoc,
      ← List.append_assoc _ (a.grants entity)]
    refine ⟨?_, fun stays => ?_⟩
    · refine (sub'.append_left _).trans ?_
      rw [← List.append_assoc]
      exact sub.append_right _
    · rw [List.mem_cons, not_or] at stays
      rw [same' stays.2, ← List.append_assoc, same (Ne.symm stays.1)]

/-! ## Runs -/

/-- The log of a run begins with what its first act reports. -/
theorem takes_first (tidy : s.Tidy .all) {a : Act} (acts : List Act) (first : s.act a = .ok s₁)
    (stays : (⟨s, a⟩ : Step).removes entity = false) :
    ∃ news, (∀ later, s₁.log acts = s₁.events ++ later →
        s.log (a :: acts) = s.events ++ (news ++ later)) ∧
      Standing.Takes entity
        (if (⟨s, a⟩ : Step).begins entity then .drafted [] else s.standing entity)
        ((⟨s, a⟩ : Step).grants entity) (news.filter (·.isAbout entity)) (s₁.standing entity) := by
  by_cases take : a = .takeEvents
  · -- Taking the events moves nothing, and they are in the log already.
    subst take
    cases first
    refine ⟨[], fun later logged => ?_, ?_⟩
    · rw [log, logged]
      rfl
    · have begins : (⟨s, .takeEvents⟩ : Step).begins entity = false := Bool.and_false _
      rw [begins]
      exact .refl entity _
  · obtain ⟨news, events, takes⟩ := takes_act tidy first take stays
    refine ⟨news, fun later logged => ?_, takes⟩
    rw [log_cons take first, logged, events, List.append_assoc]

/-- **After a run** that neither begins the draft of an entity nor removes the entity, it has taken,
or holds, the changes that were processed. -/
theorem takes_run (tidy : s.Tidy .all) {acts : List Act} (ok : s.run acts = .ok s')
    (none : ∀ step ∈ s.steps acts, step.begins entity = false)
    (stays : ∀ step ∈ s.steps acts, step.removes entity = false) :
    ∃ news, s.log acts = s.events ++ news ∧
      Standing.Takes entity (s.standing entity) ((s.steps acts).flatMap (·.grants entity))
        (news.filter (·.isAbout entity)) (s'.standing entity) := by
  induction acts generalizing s with
  | nil =>
    cases ok
    exact ⟨[], (List.append_nil _).symm, .refl entity _⟩
  | cons a acts ih =>
    obtain ⟨s₁, first, rest⟩ := run_cons.mp ok
    rw [steps_cons first, List.forall_mem_cons] at none stays
    obtain ⟨news, logs, takes⟩ := takes_first tidy acts first stays.1
    obtain ⟨later, logged, takes'⟩ := ih (tidy_of_act tidy first) rest none.2 stays.2
    rw [none.1] at takes
    refine ⟨news ++ later, logs later logged, ?_⟩
    rw [steps_cons first, List.flatMap_cons, List.filter_append]
    exact takes.trans takes'

/-- The changes for an entity that are **due** after some steps: those that were processed since its
draft was begun. -/
def due (steps : List Step) (entity : EntityId) : List (ComponentId × Authority) :=
  (steps.dropWhile (!·.begins entity)).flatMap (·.grants entity)

/-- **After a run** that begins the draft of an absent entity once and does not remove the entity,
it has taken, or holds, the changes that are due. -/
theorem takes_due (tidy : s.Tidy .all) {acts : List Act} (ok : s.run acts = .ok s')
    (absent : s.standing entity = .absent) (begun : (s.steps acts).countP (·.begins entity) = 1)
    (stays : ∀ step ∈ s.steps acts, step.removes entity = false) :
    ∃ news, s.log acts = s.events ++ news ∧
      Standing.Takes entity (.drafted []) (due (s.steps acts) entity)
        (news.filter (·.isAbout entity)) (s'.standing entity) := by
  induction acts generalizing s with
  | nil => simp [steps] at begun
  | cons a acts ih =>
    obtain ⟨s₁, first, rest⟩ := run_cons.mp ok
    rw [steps_cons first, List.forall_mem_cons] at stays
    rw [steps_cons first, List.countP_cons] at begun
    obtain ⟨news, logs, takes⟩ := takes_first tidy acts first stays.1
    have tidy₁ := tidy_of_act tidy first
    rw [steps_cons first, due]
    cases begins : (⟨s, a⟩ : Step).begins entity with
    | true =>
      rw [begins, if_pos rfl, Nat.add_eq_right, List.countP_eq_zero] at begun
      -- The draft is begun here, and not again.
      obtain ⟨later, logged, takes'⟩ := takes_run tidy₁ rest
        (fun step mem => Bool.eq_false_iff.mpr (begun step mem)) stays.2
      rw [begins] at takes
      refine ⟨news ++ later, logs later logged, ?_⟩
      rw [List.dropWhile_cons_of_neg (by simp [begins]), List.flatMap_cons, List.filter_append]
      exact takes.trans takes'
    | false =>
      rw [begins, if_neg Bool.false_ne_true, Nat.add_zero] at begun
      rw [begins, if_neg Bool.false_ne_true, absent] at takes
      -- The entity stays absent, so nothing is told of it, and what is processed now is not due.
      obtain ⟨silent, still⟩ := takes.of_absent
      obtain ⟨later, logged, takes'⟩ := ih tidy₁ rest still begun stays.2
      refine ⟨news ++ later, logs later logged, ?_⟩
      rw [List.dropWhile_cons_of_pos (by simp [begins]), List.filter_append, silent]
      exact takes'

end Session

end Replica
