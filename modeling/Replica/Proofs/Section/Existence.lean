import Mathlib.Data.List.Induction
import Replica.Blueprint
import Replica.Proofs.Drain
import Replica.Proofs.Section.Cancelling

/-! # The last step of a section decides whether an entity exists

In a section an entity may be removed and added any number of times. The burst folds all of it into
at most one removal and one draft, and carries them out in this order, so what was done last decides
whether the entity is built when the section ends.

Main definitions:
* `EntityStep` — a removal of an entity, or an addition with all its components.
* `EntityStep.existence` — whether an entity exists after some steps.
* `Session.last_step_decides_existence` — whether an entity is built after a section. -/

namespace Replica

/-! ## Steps of an entity -/

/-- A **step** of an entity in a section. -/
inductive EntityStep where
  /-- The entity is removed. -/
  | removal
  /-- The entity is added with its components. -/
  | addition (first : ComponentData) (rest : List ComponentData)

/-- The operations of a step. -/
def EntityStep.operations (entity : EntityId) : EntityStep → List Operation
  | .removal => [.removeEntity entity]
  | .addition first rest =>
    .addEntity entity :: .addComponent entity first :: rest.map (.addComponent entity)

/-- Whether an entity exists after some steps, if it did `before` or not: the last step decides. -/
def EntityStep.existence (before : Bool) (steps : List EntityStep) : Bool :=
  match steps.getLast? with
  | none => before
  | some .removal => false
  | some (.addition _ _) => true

/-- A whole section with some operations inside. -/
def sectionOf (body : List Operation) : List Operation :=
  .criticalSection true :: body ++ [.criticalSection false]

theorem map_receive_sectionOf (body : List Operation) :
    (sectionOf body).map Act.receive = .receive (.criticalSection true) ::
      body.map .receive ++ [.receive (.criticalSection false)] := by
  simp [sectionOf]

/-! ## What a burst has for one entity -/

namespace Burst

/-- Two bursts are **alike** for an entity if they have the same for it. -/
structure Alike (entity : EntityId) (b b' : Burst) : Prop where
  /-- Both remove it or none does. -/
  removed : entity ∈ b.removed ↔ entity ∈ b'.removed
  /-- Both add it or none does. -/
  added : entity ∈ b.added ↔ entity ∈ b'.added
  /-- Both have the same belongings for it. -/
  belongings : b.belongings entity = b'.belongings entity

variable {entity : EntityId} {b b' : Burst}

/-- An entity is to be removed after an operation that removes it, and if it was before. -/
theorem mem_removed_keep (b : Burst) (operation : Operation) :
    entity ∈ (b.keep operation).removed ↔
      operation = .removeEntity entity ∨ entity ∈ b.removed := by
  cases operation with
  | removeEntity e =>
    rw [keep, removeEntity_eq]
    by_cases listed : e ∈ b.removed
    · simp only [List.contains_iff_mem, listed, if_true, Operation.removeEntity.injEq]
      refine (or_iff_right_of_imp ?_).symm
      rintro rfl
      exact listed
    · simp [listed, or_comm, eq_comm]
  | _ => simp [keep, addEntity, addComponent, changeAuthority]

/-- It is to be added after an operation that adds it, and if it was before one that does not remove
it. -/
theorem mem_added_keep (b : Burst) (operation : Operation) :
    entity ∈ (b.keep operation).added ↔
      operation = .addEntity entity ∨ operation ≠ .removeEntity entity ∧ entity ∈ b.added := by
  have kept : entity ∈ (b.after true (.receive operation)).added ↔ _ := mem_added_after _
  simpa [Act.removal, after] using kept

/-- An operation that does not remove it gives it its belongings behind those it has. -/
theorem belongings_keep {operation : Operation} (stays : operation ≠ .removeEntity entity) :
    (b.keep operation).belongings entity =
      b.belongings entity ++ (Act.receive operation).belongings entity := by
  have other : Act.receive operation ≠ .removal entity := by simpa [Act.removal] using stays
  have kept : (b.after true (.receive operation)).belongings entity = _ := belongings_after other
  exact kept

/-- What is held back for another entity makes no difference. -/
theorem Alike.keep_other (h : b.Alike entity b') {operation : Operation}
    (other : operation.entity? ≠ some entity) : (b.keep operation).Alike entity b' := by
  have stays : operation ≠ .removeEntity entity := by
    rintro rfl
    exact other rfl
  refine ⟨?_, ?_, ?_⟩
  · rw [mem_removed_keep, ← h.removed, or_iff_right]
    rintro rfl
    exact other rfl
  · rw [mem_added_keep, ← h.added, and_iff_right stays, or_iff_right]
    rintro rfl
    exact other rfl
  · rw [← h.belongings]
    have none : (Act.receive operation).belongings entity = {} := by
      unfold Act.belongings
      split
      · rename_i e data same
        cases same
        exact if_neg fun here => other (congrArg some here)
      · rename_i e component authority same
        cases same
        exact if_neg fun here => other (congrArg some here)
      · rfl
    rw [belongings_keep stays, none, Belongings.append_empty]

theorem Alike.keep (h : b.Alike entity b') (operation : Operation) :
    (b.keep operation).Alike entity (b'.keep operation) := by
  refine ⟨?_, ?_, ?_⟩
  · rw [mem_removed_keep, mem_removed_keep, h.removed]
  · rw [mem_added_keep, mem_added_keep, h.added]
  · by_cases removal : operation = .removeEntity entity
    · subst operation
      show (b.removeEntity entity).belongings entity = (b'.removeEntity entity).belongings entity
      rw [belongings_removeEntity, belongings_removeEntity, h.belongings]
      simp only [h.added]
    · rw [belongings_keep removal, belongings_keep removal, h.belongings]

end Burst

/-- What a section has for an entity is what the operations on the entity leave. -/
theorem alike_heldBack (holdArrivals : Bool) (entity : EntityId) (operations : List Operation) :
    (heldBack holdArrivals (operations.map .receive)).Alike entity
      (heldBack holdArrivals
        ((operations.filter (·.entity? = some entity)).map .receive)) := by
  suffices general : ∀ b b' : Burst, b.Alike entity b' →
      ((operations.map Act.receive).foldl (·.after holdArrivals) b).Alike entity
        (((operations.filter (·.entity? = some entity)).map Act.receive).foldl
          (·.after holdArrivals) b') from
    general {} {} ⟨Iff.rfl, Iff.rfl, rfl⟩
  induction operations with
  | nil => exact fun _ _ alike => alike
  | cons operation rest ih =>
    intro b b' alike
    by_cases own : operation.entity? = some entity
    · rw [List.filter_cons_of_pos (by simpa using own)]
      exact ih _ _ (alike.keep operation)
    · rw [List.filter_cons_of_neg (by simpa using own)]
      exact ih _ _ (alike.keep_other own)

/-! ## The burst of some steps -/

/-- The acts of some steps. -/
def stepActs (entity : EntityId) (steps : List EntityStep) : List Act :=
  (steps.flatMap (·.operations entity)).map .receive

theorem stepActs_concat (entity : EntityId) (steps : List EntityStep) (step : EntityStep) :
    stepActs entity (steps ++ [step]) =
      stepActs entity steps ++ (step.operations entity).map .receive := by
  simp [stepActs]

/-- The components of an entity, as they are held back. -/
def addedTo (entity : EntityId) (components : List ComponentData) : Belongings :=
  { components := components.map (⟨entity, ·⟩) }

/-- Components that follow each other are held back in order. -/
theorem foldl_addComponent (holdArrivals : Bool) (entity : EntityId)
    (components : List ComponentData) (b : Burst) :
    let b' := (components.map fun data => Act.receive (.addComponent entity data)).foldl
      (·.after holdArrivals) b
    b'.removed = b.removed ∧ b'.added = b.added ∧
      b'.belongings entity = b.belongings entity ++ addedTo entity components := by
  induction components generalizing b with
  | nil => exact ⟨rfl, rfl, (Belongings.append_empty _).symm⟩
  | cons data rest ih =>
    obtain ⟨removed, added, belongings⟩ := ih (b.keep (.addComponent entity data))
    have stays : Operation.addComponent entity data ≠ .removeEntity entity := by simp
    have own : (Act.receive (.addComponent entity data)).belongings entity =
        addedTo entity [data] := if_pos rfl
    refine ⟨removed, added, ?_⟩
    rw [Burst.belongings_keep stays, own, Belongings.append_assoc] at belongings
    exact belongings

/-- A burst **follows** some steps of an entity if it has for the entity what the last one decides:
after a removal it removes the entity and has nothing for it; after an addition it adds the entity,
and its components for it begin with the first one of some addition. -/
def Burst.Follows (entity : EntityId) (steps : List EntityStep) (b : Burst) : Prop :=
  match steps.getLast? with
  | none => entity ∉ b.removed ∧ entity ∉ b.added ∧ b.belongings entity = {}
  | some .removal => entity ∈ b.removed ∧ entity ∉ b.added ∧ b.belongings entity = {}
  | some (.addition _ _) => entity ∈ b.added ∧ ∃ first rest more,
      .addition first more ∈ steps ∧ b.belongings entity = addedTo entity (first :: rest)

/-- **The burst of some steps** follows them. -/
theorem follows_stepActs (holdArrivals : Bool) (entity : EntityId) (steps : List EntityStep) :
    (heldBack holdArrivals (stepActs entity steps)).Follows entity steps := by
  induction steps using List.reverseRecOn with
  | nil => exact ⟨List.not_mem_nil, List.not_mem_nil, rfl⟩
  | append_singleton steps step ih =>
    unfold Burst.Follows at ih ⊢
    rw [List.getLast?_concat, stepActs_concat, heldBack_append]
    revert ih
    generalize heldBack holdArrivals (stepActs entity steps) = b
    intro ih
    cases step with
    | removal =>
      -- The removal finds the entity added, or nothing was held back for it.
      refine ⟨(Burst.mem_removed_keep b _).mpr (.inl rfl),
        fun added => ((Burst.mem_added_keep b _).mp added).elim (by simp) (fun h => h.1 rfl), ?_⟩
      show (b.removeEntity entity).belongings entity = {}
      rw [Burst.belongings_removeEntity]
      split
      · rfl
      · rename_i absent
        split at ih
        · exact ih.2.2
        · exact ih.2.2
        · exact absurd ⟨rfl, ih.1⟩ absent
    | addition first more =>
      obtain ⟨removed, added, belongings⟩ :=
        foldl_addComponent holdArrivals entity (first :: more) (b.keep (.addEntity entity))
      have same : ((EntityStep.addition first more).operations entity).map Act.receive =
          .receive (.addEntity entity) ::
            (first :: more).map fun data => .receive (.addComponent entity data) := by
        simp [EntityStep.operations]
      rw [same, List.foldl_cons]
      refine ⟨(added ▸ (Burst.mem_added_keep b _).mpr (.inl rfl) :), ?_⟩
      have stays : Operation.addEntity entity ≠ .removeEntity entity := by simp
      have bare : (Act.receive (.addEntity entity)).belongings entity = {} := rfl
      rw [Burst.belongings_keep stays, bare, Belongings.append_empty] at belongings
      have listed : ∀ {step : EntityStep}, step ∈ steps → step ∈ steps ++ [.addition first more] :=
        List.mem_append_left _
      -- What the burst has already stands in front.
      split at ih
      · refine ⟨first, more, more, List.mem_append_right _ List.mem_cons_self, ?_⟩
        rwa [ih.2.2, Belongings.empty_append] at belongings
      · refine ⟨first, more, more, List.mem_append_right _ List.mem_cons_self, ?_⟩
        rwa [ih.2.2, Belongings.empty_append] at belongings
      · obtain ⟨-, front, rest, others, mem, before⟩ := ih
        refine ⟨front, rest ++ first :: more, others, listed mem, ?_⟩
        rw [before] at belongings
        refine belongings.trans ?_
        simp [addedTo, Belongings.append_eq]

/-- The burst of a section follows the steps that the section has for an entity. -/
theorem follows_heldBack (holdArrivals : Bool) {entity : EntityId} {body : List Operation}
    {steps : List EntityStep}
    (own : body.filter (·.entity? = some entity) = steps.flatMap (·.operations entity)) :
    (heldBack holdArrivals (body.map .receive)).Follows entity steps := by
  have alike := alike_heldBack holdArrivals entity body
  rw [own] at alike
  unfold Burst.Follows
  simp only [alike.removed, alike.added, alike.belongings]
  exact follows_stepActs holdArrivals entity steps

/-- A burst that adds an entity has a first component for it from one of the steps. -/
theorem Burst.Follows.first_of_added {entity : EntityId} {steps : List EntityStep} {b : Burst}
    (follows : b.Follows entity steps) (added : entity ∈ b.added) :
    ∃ first rest more, .addition first more ∈ steps ∧
      ownComponents entity b.components = first :: rest := by
  unfold Follows at follows
  split at follows
  · exact absurd added follows.2.1
  · exact absurd added follows.2.1
  · obtain ⟨-, first, rest, more, mem, belongs⟩ := follows
    refine ⟨first, rest, more, mem, ?_⟩
    have same := congrArg (fun x : Belongings => x.components.map AddedComponent.data) belongs
    refine same.trans ?_
    simp [addedTo, Function.comp_def]

namespace Session

/-- **A burst that follows some steps** of an entity without a draft leaves the entity as the last
one has it, and builds at most one root for it. -/
theorem drain_follows {s : Session} (tidy : s.Tidy .all) {entity : EntityId}
    (undrafted : s.drafts.get? entity = none) {steps : List EntityStep} {b : Burst}
    (follows : b.Follows entity steps)
    (can : ∀ first rest, .addition first rest ∈ steps → s.CanBuild first) :
    ((s.drain b).channels.get? entity).isSome =
        EntityStep.existence (s.channels.get? entity).isSome steps ∧
      (s.drain b).drafts.get? entity = none ∧
      ∃ new, new.length ≤ 1 ∧
        (s.drain b).world.rootsOf entity = s.world.rootsOf entity ++ new := by
  have canBuild (added : entity ∈ b.added) : ∃ first rest,
      ownComponents entity b.components = first :: rest ∧ s.CanBuild first := by
    obtain ⟨first, rest, more, mem, own⟩ := follows.first_of_added added
    exact ⟨first, rest, own, can first more mem⟩
  obtain ⟨left, fresh, other⟩ := drain_undrafted tidy undrafted canBuild
  have kept (same : (s.drain b).world.rootsOf entity = s.world.rootsOf entity) :
      ∃ new, new.length ≤ 1 ∧ (s.drain b).world.rootsOf entity = s.world.rootsOf entity ++ new :=
    ⟨[], Nat.zero_le _, by rw [same, List.append_nil]⟩
  rw [← Option.isSome_map (f := Channel.root)]
  unfold EntityStep.existence
  unfold Burst.Follows at follows
  split at follows
  · obtain ⟨stays, absent, -⟩ := follows
    obtain ⟨root, same⟩ := other (.inl absent)
    rw [root, if_neg stays, Option.isSome_map]
    exact ⟨rfl, left, kept same⟩
  · obtain ⟨goes, absent, -⟩ := follows
    obtain ⟨root, same⟩ := other (.inl absent)
    rw [root, if_pos goes]
    exact ⟨rfl, left, kept same⟩
  · obtain ⟨added, -⟩ := follows
    -- An entity that is still there is not built again.
    by_cases gone : (if entity ∈ b.removed then none
      else (s.channels.get? entity).map Channel.root) = none
    · obtain ⟨root, here, noted⟩ := fresh added gone
      exact ⟨by rw [here]; rfl, left, [root], Nat.le_refl 1, noted⟩
    · obtain ⟨root, same⟩ := other (.inr gone)
      rw [root]
      exact ⟨Option.isSome_iff_ne_none.mpr gone, left, kept same⟩

/-! ## Whole sections -/

/-- Only the answer to a command that has failed can be a fault. -/
theorem exists_run_receive {operations : List Operation}
    (none : ∀ request failure, .commandResponse request (.error failure) ∉ operations)
    (s : Session) : ∃ s', s.run (operations.map .receive) = .ok s' := by
  induction operations generalizing s with
  | nil => exact ⟨s, rfl⟩
  | cons operation rest ih =>
    have step : ∃ s₁, s.process operation = .ok s₁ := by
      cases operation with
      | commandResponse request result =>
        cases result with
        | error failure => exact absurd List.mem_cons_self (none request failure)
        | ok payload =>
          refine ⟨{ s with requests.commands := s.requests.commands.erase request }, ?_⟩
          show s.commandResponse request (.ok payload) = _
          unfold commandResponse
          cases s.requests.commands.get? request <;> rfl
      | _ => exact ⟨_, rfl⟩
    obtain ⟨s₁, ok⟩ := step
    obtain ⟨s', later⟩ := ih (fun request failure mem =>
      none request failure (List.mem_cons_of_mem _ mem)) s₁
    exact ⟨s', run_cons.mpr ⟨s₁, ok, later⟩⟩

/-- **The last step of a section decides whether an entity exists.** An entity without a draft that
is removed and added in a section any number of times, beside whatever happens to others, is built
after the section if the last step added it, and not if that removed it. It then has one live root
object or none, no draft, and at most one root was built for it. -/
theorem last_step_decides_existence {settings : Settings} {protocol : Protocol} {past : List Act}
    (undisturbed : ∀ h, Act.alter (.destroy h) ∉ past) {s : Session}
    (reached : (start settings protocol).run past = .ok s) (shut : s.held.isOpen = false)
    {entity : EntityId} (undrafted : s.drafts.get? entity = none) {body : List Operation}
    (balanced : nesting (body.map .receive) = some 0) {steps : List EntityStep}
    (own : body.filter (·.entity? = some entity) = steps.flatMap (·.operations entity))
    (can : ∀ first rest, .addition first rest ∈ steps → s.CanBuild first)
    (few : allocations ((start settings protocol).course
      (past ++ (sectionOf body).map .receive)) < 2 ^ 32) :
    ((∀ request failure, .commandResponse request (.error failure) ∉ body) →
      ∃ s', s.run ((sectionOf body).map .receive) = .ok s') ∧
    ∀ s', s.run ((sectionOf body).map .receive) = .ok s' →
      (s'.channels.get? entity).isSome =
          EntityStep.existence (s.channels.get? entity).isSome steps ∧
        s'.world.liveRootsOf entity = ((s'.channels.get? entity).map Channel.root).toList ∧
        s'.drafts.get? entity = none ∧
        ∃ new, new.length ≤ 1 ∧ s'.world.rootsOf entity = s.world.rootsOf entity ++ new := by
  constructor
  · intro none
    refine exists_run_receive (fun request failure mem => none request failure ?_) s
    simpa [sectionOf] using mem
  intro s' ran
  have whole : (start settings protocol).run (past ++ (sectionOf body).map .receive) = .ok s' := by
    rw [run_append, reached]
    exact ran
  have calm : ∀ h, Act.alter (.destroy h) ∉ past ++ (sectionOf body).map .receive := by
    intro h mem
    rcases List.mem_append.mp mem with early | late
    · exact undisturbed h early
    · simp at late
  have tidy := tidy_of_run reached
  have tidy₀ := tidy_of_act tidy (act_enter tidy shut)
  -- The operations inside the section spare the entity, and then the burst is carried out.
  rw [map_receive_sectionOf, section_run tidy shut balanced] at ran
  cases inside : (s.holding ⟨1, {}⟩).run (body.map .receive) with
  | error fault =>
    rw [inside] at ran
    cases ran
  | ok s₁ =>
    rw [inside] at ran
    obtain rfl : (s₁.holding {}).drain _ = s' := Except.ok.inj ran
    have others : ∀ update, .componentUpdate entity update ∉ body := by
      intro update mem
      have listed : Operation.componentUpdate entity update ∈
          body.filter (·.entity? = some entity) :=
        List.mem_filter.mpr ⟨mem, by simp [Operation.entity?]⟩
      rw [own, List.mem_flatMap] at listed
      obtain ⟨step, -, listed⟩ := listed
      cases step <;> simp [EntityStep.operations] at listed
    have inner : Spares entity (s.holding ⟨1, {}⟩) s₁ :=
      spares_run tidy₀ rfl balanced others inside
    have spared : Spares entity s (s₁.holding {}) :=
      ⟨⟨inner.roots, inner.loaded, inner.classes, inner.startup⟩, inner.root, inner.draft⟩
    have tidy₁ : (s₁.holding {}).Tidy .all :=
      ⟨(tidy₀.run inside).drafts, (tidy₀.run inside).channels, .empty, fun _ => rfl⟩
    have before : ((s₁.holding {}).channels.get? entity).isSome =
        (s.channels.get? entity).isSome := by
      rw [← Option.isSome_map (f := Channel.root), spared.root, Option.isSome_map]
    obtain ⟨decided, left, new, short, noted⟩ := drain_follows tidy₁
      (spared.draft.trans undrafted) (follows_heldBack s.settings.holdArrivals own)
      (fun first rest mem => spared.canBuild (can first rest mem))
    rw [before] at decided
    rw [spared.roots] at noted
    have rooted := rooted_of_run calm whole few
    exact ⟨decided, rooted.liveRootsOf entity, left, new, short, noted⟩

/-- The spawn data of a crate. -/
def crateSpawn : ComponentData := ⟨Stock.spawnComponent, Wire.spawn { className := "Crate" }⟩

/-- A crate is removed and added twice, beside another one that comes into view. -/
def rebuild : List Operation :=
  [.removeEntity 1, .addEntity 1, .addEntity 2, .addComponent 1 crateSpawn, .criticalSection true,
    .removeEntity 1, .addComponent 2 crateSpawn, .criticalSection false, .addEntity 1,
    .addComponent 1 crateSpawn]

theorem last_step_decides_existence_rebuild :
    ∃ s s', (start {} Stock.protocol).run crate = .ok s ∧
      s.run ((sectionOf rebuild).map .receive) = .ok s' ∧
      (∃ root, s'.world.liveRootsOf 1 = [root]) ∧ s'.drafts.get? 1 = none := by
  obtain ⟨s, s', reached, ran, test⟩ := exists_runs (start {} Stock.protocol) crate
    ((sectionOf rebuild).map .receive)
    (fun s _ => !s.held.isOpen && (s.drafts.get? 1).isNone && s.world.classes.contains "Crate")
    (by decide +kernel)
  simp only [Bool.and_eq_true, Bool.not_eq_true', Option.isNone_iff_eq_none] at test
  obtain ⟨⟨shut, undrafted⟩, known⟩ := test
  have can : s.CanBuild crateSpawn := by
    refine ⟨rfl, { className := "Crate" }, rfl, Std.ExtTreeMap.contains_iff_mem.mp known, ?_, ?_⟩
    · exact fun _ asked => nomatch asked
    · exact fun _ asked => nomatch asked
  have own : rebuild.filter (·.entity? = some 1) = [EntityStep.removal, .addition crateSpawn [],
      .removal, .addition crateSpawn []].flatMap (·.operations 1) := rfl
  obtain ⟨-, outcome⟩ := last_step_decides_existence (by simp [crate, Blueprint.operations]) reached
    shut undrafted (by decide +kernel) own (by simp [can]) (by decide +kernel)
  obtain ⟨decided, live, left, -⟩ := outcome s' ran
  obtain ⟨channel, opened⟩ := Option.isSome_iff_exists.mp decided
  rw [opened] at live
  exact ⟨s, s', reached, ran, ⟨channel.root, live⟩, left⟩

end Session

end Replica
