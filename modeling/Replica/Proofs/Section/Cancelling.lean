import Mathlib.Data.List.Induction
import Replica.Blueprint
import Replica.Proofs.Section

/-! # What a removal cancels in a burst

A removal inside a section cancels what the section has held back for the entity only if the section
has added the entity before, after the last removal of it. What was held back for an entity that was
built before the section, and is not added in it, outlives the removal. If the entity is added again
in the same section, it goes to the new entity.

Main definitions:
* `Belongings` — the components and the changes of authority that go with an entity.
* `AddedSince` — an entity was added, and not removed since.
* `Session.removal_in_section` — what a burst has for an entity once it has been removed. -/

namespace Replica

/-! ## Belongings -/

/-- The **belongings** of an entity: what is added to it, and who may write it. -/
structure Belongings where
  /-- The components. -/
  components : List AddedComponent := []
  /-- The changes of authority. -/
  authority : List AuthorityChange := []
deriving DecidableEq

namespace Belongings

/-- Belongings with others behind them. -/
def append (x y : Belongings) : Belongings :=
  ⟨x.components ++ y.components, x.authority ++ y.authority⟩

instance : Append Belongings := ⟨append⟩

theorem append_eq (x y : Belongings) :
    x ++ y = ⟨x.components ++ y.components, x.authority ++ y.authority⟩ := rfl

@[simp] theorem append_empty (x : Belongings) : x ++ ({} : Belongings) = x := by
  simp [append_eq]

@[simp] theorem empty_append (x : Belongings) : ({} : Belongings) ++ x = x := by
  simp [append_eq]

theorem append_assoc (x y z : Belongings) : x ++ y ++ z = x ++ (y ++ z) := by
  simp [append_eq]

/-- Belongings have nothing in front of them only if nothing was put there. -/
@[simp] theorem append_eq_right {x y : Belongings} : x ++ y = y ↔ x = {} := by
  obtain ⟨components, authority⟩ := x
  obtain ⟨components', authority'⟩ := y
  simp [append_eq]

end Belongings

/-- What a burst holds back for an entity besides its addition and removal. -/
def Burst.belongings (b : Burst) (entity : EntityId) : Belongings where
  components := b.components.filter (·.entity == entity)
  authority := b.authority.filter (·.entity == entity)

/-- The belongings that an act gives to an entity. -/
def Act.belongings (entity : EntityId) : Act → Belongings
  | .receive (.addComponent e data) => if e = entity then { components := [⟨e, data⟩] } else {}
  | .receive (.authorityChange e component authority) =>
    if e = entity then { authority := [⟨e, component, authority⟩] } else {}
  | _ => {}

/-- The belongings that some acts give to an entity. -/
def belongings (entity : EntityId) (acts : List Act) : Belongings :=
  acts.foldl (fun x a => x ++ a.belongings entity) {}

theorem belongings_concat (entity : EntityId) (acts : List Act) (a : Act) :
    belongings entity (acts ++ [a]) = belongings entity acts ++ a.belongings entity := by
  simp [belongings]

/-- The removal of an entity. -/
def Act.removal (entity : EntityId) : Act := .receive (.removeEntity entity)

/-- Some acts **add an entity since** it was last removed: it was added, and not removed after. -/
def AddedSince (entity : EntityId) (acts : List Act) : Prop :=
  ∃ early late, acts = early ++ .receive (.addEntity entity) :: late ∧ .removal entity ∉ late

/-- No removal of an entity among some `late` acts finds it added, where others came `before`. -/
def NoneCancels (entity : EntityId) (before late : List Act) : Prop :=
  ∀ early rest, late = early ++ .removal entity :: rest → ¬AddedSince entity (before ++ early)

/-! ## Bursts after an act -/

namespace Burst

variable {holdArrivals : Bool} {b : Burst} {entity : EntityId}

/-- What a removal leaves of each part of a burst. -/
theorem removeEntity_eq (b : Burst) (entity : EntityId) :
    b.removeEntity entity = {
      removed := if b.removed.contains entity then b.removed else b.removed ++ [entity]
      added := b.added.filter (· != entity)
      components :=
        if entity ∈ b.added then b.components.filter (·.entity != entity) else b.components
      authority :=
        if entity ∈ b.added then b.authority.filter (·.entity != entity) else b.authority
      arrivals := b.arrivals } := by
  unfold removeEntity
  by_cases added : entity ∈ b.added
  · simp only [List.contains_iff_mem, added, if_true, cancel]
    split <;> rfl
  · have kept : b.added.filter (· != entity) = b.added := by
      refine List.filter_eq_self.mpr ?_
      intro other mem
      have differs : other ≠ entity := fun same => added (same ▸ mem)
      simpa using differs
    simp only [List.contains_iff_mem, added, if_false, kept]
    split <;> rfl

/-- A removal cancels the belongings of the entity if it was to be added. -/
theorem belongings_removeEntity (b : Burst) (entity k : EntityId) :
    (b.removeEntity entity).belongings k =
      if entity = k ∧ entity ∈ b.added then {} else b.belongings k := by
  rw [removeEntity_eq]
  by_cases added : entity ∈ b.added
  · by_cases same : entity = k
    · subst k
      simp [belongings, added, List.filter_filter]
    · -- What belongs to another entity is not among what is cancelled.
      have kept : ∀ e : EntityId, (e == k && e != entity) = (e == k) := by
        intro e
        by_cases here : e = k
        · simp [here, Ne.symm same]
        · simp [here]
      simp [belongings, added, same, List.filter_filter, kept]
  · simp [belongings, added]

/-- An entity is to be added after an act that adds it, and if it was before an act that does not
remove it. -/
theorem mem_added_after (a : Act) :
    entity ∈ (b.after holdArrivals a).added ↔
      a = .receive (.addEntity entity) ∨ a ≠ .removal entity ∧ entity ∈ b.added := by
  unfold Act.removal
  cases a with
  | receive operation =>
    cases operation with
    | addEntity e => simp [after, keep, addEntity, or_comm, eq_comm]
    | removeEntity e =>
      have differs : ¬e = entity ↔ entity ≠ e := ⟨Ne.symm, Ne.symm⟩
      simp [after, keep, removeEntity_eq, differs, and_comm]
    | _ => simp [after, keep, addComponent, changeAuthority]
  | announce arrival =>
    unfold after
    dsimp only
    split <;> simp [announce]
  | _ => simp [after]

/-- An act that does not remove an entity gives it its belongings behind those it has. -/
theorem belongings_after {a : Act} (stays : a ≠ .removal entity) :
    (b.after holdArrivals a).belongings entity = b.belongings entity ++ a.belongings entity := by
  cases a with
  | receive operation =>
    cases operation with
    | removeEntity e =>
      have other : e ≠ entity := fun same => stays (by rw [same, Act.removal])
      have kept := belongings_removeEntity b e entity
      rw [if_neg fun both => other both.1] at kept
      exact kept.trans (Belongings.append_empty _).symm
    | addComponent e data =>
      by_cases own : e = entity <;>
        simp [after, keep, addComponent, belongings, Act.belongings, own, Belongings.append_eq]
    | authorityChange e component authority =>
      by_cases own : e = entity <;>
        simp [after, keep, changeAuthority, belongings, Act.belongings, own, Belongings.append_eq]
    | _ => exact (Belongings.append_empty _).symm
  | announce arrival =>
    unfold after
    dsimp only
    split <;> exact (Belongings.append_empty _).symm
  | _ => exact (Belongings.append_empty _).symm

end Burst

/-! ## Bursts after several acts -/

theorem addedSince_concat {entity : EntityId} {acts : List Act} {a : Act} :
    AddedSince entity (acts ++ [a]) ↔
      a = .receive (.addEntity entity) ∨ a ≠ .removal entity ∧ AddedSince entity acts := by
  constructor
  · rintro ⟨early, late, split, kept⟩
    rcases Session.concat_eq_split.mp split with ⟨-, -, same⟩ | ⟨rest, rfl, same⟩
    · exact .inl same
    · simp only [List.mem_append, List.mem_singleton, not_or] at kept
      exact .inr ⟨Ne.symm kept.2, early, rest, same, kept.1⟩
  · rintro (rfl | ⟨stays, early, late, rfl, kept⟩)
    · exact ⟨acts, [], rfl, List.not_mem_nil⟩
    · refine ⟨early, late ++ [a], by simp, ?_⟩
      simp [kept, Ne.symm stays]

section HeldBack

variable (holdArrivals : Bool) {entity : EntityId}

/-- A burst is to add the entities that were added and not removed since. -/
theorem mem_added_heldBack (acts : List Act) :
    entity ∈ (heldBack holdArrivals acts).added ↔ AddedSince entity acts := by
  induction acts using List.reverseRecOn with
  | nil => simp [heldBack, AddedSince]
  | append_singleton acts a ih =>
    rw [heldBack_append, addedSince_concat, ← ih]
    exact Burst.mem_added_after a

/-- **What is held back for an entity grows** while no removal finds it added. -/
theorem belongings_heldBack {before late : List Act} (none : NoneCancels entity before late) :
    (heldBack holdArrivals (before ++ late)).belongings entity =
      (heldBack holdArrivals before).belongings entity ++ belongings entity late := by
  induction late using List.reverseRecOn with
  | nil => simp [belongings]
  | append_singleton late a ih =>
    have ih := ih fun early rest split => none early (rest ++ [a]) (by simp [split])
    rw [← List.append_assoc, heldBack_append, belongings_concat, ← Belongings.append_assoc, ← ih]
    show ((heldBack holdArrivals (before ++ late)).after holdArrivals a).belongings entity = _
    by_cases removal : a = .removal entity
    · -- The removal does not find the entity added, so it cancels nothing.
      subst a
      have absent := mt (mem_added_heldBack holdArrivals _).mp (none late [] rfl)
      have kept := Burst.belongings_removeEntity (heldBack holdArrivals (before ++ late)) entity
        entity
      rw [if_neg fun both => absent both.2] at kept
      exact kept.trans (Belongings.append_empty _).symm
    · exact Burst.belongings_after removal

/-- A removal that finds the entity added leaves it nothing. -/
theorem belongings_of_cancels {before : List Act} (added : AddedSince entity before) :
    (heldBack holdArrivals (before ++ [.removal entity])).belongings entity = {} := by
  rw [heldBack_append]
  exact (Burst.belongings_removeEntity _ entity entity).trans
    (if_pos ⟨rfl, (mem_added_heldBack _ before).mpr added⟩)

end HeldBack

/-! ## Leaving out what is cancelled -/

/-- Whether an act gives belongings to an entity. -/
def Act.furnishes (entity : EntityId) (a : Act) : Bool := a.belongings entity != {}

/-- What gives belongings to an entity adds a component or changes authority. -/
theorem Act.furnishes_cases {entity : EntityId} {a : Act} (furnishes : a.furnishes entity = true) :
    (∃ data, a = .receive (.addComponent entity data)) ∨
      ∃ component authority, a = .receive (.authorityChange entity component authority) := by
  unfold Act.furnishes Act.belongings at furnishes
  split at furnishes
  · split at furnishes
    · subst entity
      exact .inl ⟨_, rfl⟩
    · simp at furnishes
  · split at furnishes
    · subst entity
      exact .inr ⟨_, _, rfl⟩
    · simp at furnishes
  · simp at furnishes

/-- Steps that can be told apart by what they are taken with, so that some do not show in a `view`
and the others do there what they do: they show as the others alone. What holds on the way may be
used. -/
theorem foldl_filter_hom {α β γ : Type} {f : β → α → β} {g : γ → α → γ} {shows : α → Bool}
    (view : β → γ) (I : β → Prop) {as : List α}
    (shown : ∀ b, ∀ a ∈ as, I b → shows a = true → view (f b a) = g (view b) a ∧ I (f b a))
    (hidden : ∀ b, ∀ a ∈ as, I b → shows a = false → view (f b a) = view b ∧ I (f b a))
    {b : β} (start : I b) :
    (as.filter shows).foldl g (view b) = view (as.foldl f b) ∧ I (as.foldl f b) := by
  induction as generalizing b with
  | nil => exact ⟨rfl, start⟩
  | cons a as ih =>
    have ih := @ih (fun b c mem => shown b c (.tail _ mem))
      (fun b c mem => hidden b c (.tail _ mem))
    rw [List.foldl_cons]
    cases visible : shows a with
    | true =>
      obtain ⟨same, kept⟩ := shown b a List.mem_cons_self start visible
      rw [List.filter_cons_of_pos visible, List.foldl_cons, ← same]
      exact ih kept
    | false =>
      obtain ⟨same, kept⟩ := hidden b a List.mem_cons_self start visible
      rw [List.filter_cons_of_neg (by simp [visible]), ← same]
      exact ih kept

namespace Burst

variable {holdArrivals : Bool} {entity : EntityId}

/-- A burst without the belongings of an entity. -/
def without (b : Burst) (entity : EntityId) : Burst :=
  { b with
    components := b.components.filter (·.entity != entity)
    authority := b.authority.filter (·.entity != entity) }

/-- A removal that finds the entity added leaves nothing of what belongs to it. -/
theorem removeEntity_without {b : Burst} (added : entity ∈ b.added) :
    (b.without entity).removeEntity entity = b.removeEntity entity := by
  simp [removeEntity_eq, without, added, List.filter_filter]

/-- Belongings of an entity are left out before or after they are held back. -/
theorem without_after_of_furnishes (b : Burst) {a : Act} (furnishes : a.furnishes entity = true) :
    (b.after holdArrivals a).without entity = b.without entity := by
  rcases Act.furnishes_cases furnishes with ⟨data, rfl⟩ | ⟨component, authority, rfl⟩
  · simp [after, keep, addComponent, without]
  · simp [after, keep, changeAuthority, without]

theorem without_after (b : Burst) {a : Act} (furnishes : a.furnishes entity = false) :
    (b.after holdArrivals a).without entity = (b.without entity).after holdArrivals a := by
  cases a with
  | receive operation =>
    cases operation with
    | removeEntity e =>
      have swap : ∀ k : EntityId, (k != entity && k != e) = (k != e && k != entity) :=
        fun k => Bool.and_comm _ _
      by_cases added : e ∈ b.added <;>
        simp [after, keep, removeEntity_eq, without, added, List.filter_filter, swap]
    | addComponent e data =>
      have other : e ≠ entity := by
        rintro rfl
        simp [Act.furnishes, Act.belongings] at furnishes
      simp [after, keep, addComponent, without, other]
    | authorityChange e component authority =>
      have other : e ≠ entity := by
        rintro rfl
        simp [Act.furnishes, Act.belongings] at furnishes
      simp [after, keep, changeAuthority, without, other]
    | _ => rfl
  | announce arrival =>
    unfold after
    dsimp only
    split <;> rfl
  | _ => rfl

/-- The burst of some acts without the belongings of an entity is that of the other acts. -/
theorem foldl_without (acts : List Act) (b : Burst) :
    (acts.filter (!·.furnishes entity)).foldl (·.after holdArrivals) (b.without entity) =
      (acts.foldl (·.after holdArrivals) b).without entity := by
  refine (foldl_filter_hom (Burst.without · entity) (fun _ => True) ?_ ?_ trivial).1
  · exact fun b a _ _ stays => ⟨without_after b (by simpa using stays), trivial⟩
  · exact fun b a _ _ goes => ⟨without_after_of_furnishes b (by simpa using goes), trivial⟩

end Burst

namespace Session

variable {s : Session} {entity : EntityId}

/-- What gives belongings to an entity inside an open section is held back and does nothing else. -/
theorem act_furnishes {depth : Nat} (isOpen : s.held.depth = depth + 1) {a : Act}
    (furnishes : a.furnishes entity = true) :
    a.nest depth = some depth ∧
      s.act a = .ok (s.holding ⟨depth + 1, s.held.burst.after s.settings.holdArrivals a⟩) := by
  have holds : s.held.isOpen = true := by simp [Section.isOpen, isOpen]
  rcases Act.furnishes_cases furnishes with ⟨data, rfl⟩ | ⟨component, authority, rfl⟩
  · refine ⟨rfl, congrArg Except.ok ?_⟩
    rw [← isOpen]
    exact if_pos holds
  · refine ⟨rfl, congrArg Except.ok ?_⟩
    rw [← isOpen]
    exact if_pos holds

/-- Acts that open and close no section may be left out. -/
theorem nest_filter {shows : Act → Bool} {acts : List Act}
    (level : ∀ a ∈ acts, shows a = false → ∀ depth, a.nest depth = some depth) (depth : Nat) :
    (acts.filter shows).foldlM Act.nest depth = acts.foldlM Act.nest depth := by
  induction acts generalizing depth with
  | nil => rfl
  | cons a acts ih =>
    have ih := ih fun b mem => level b (.tail _ mem)
    cases visible : shows a with
    | true =>
      rw [List.filter_cons_of_pos visible, List.foldlM_cons, List.foldlM_cons]
      exact congrArg _ (funext ih)
    | false =>
      rw [List.filter_cons_of_neg (by simp [visible]), ih, List.foldlM_cons,
        level a List.mem_cons_self visible]
      rfl

/-- **Acts left out inside an open section** that would only be held back leave the rest of the
session as it is. What holds on the way may be used. -/
theorem run_filter {shows : Act → Bool} (I : Session → Prop) {acts : List Act}
    (keeps : ∀ (t : Session) (d : Nat), t.held.depth = d + 1 → ∀ a ∈ acts, I t → shows a = true →
      ∀ d', a.nest d = some d' → ∀ t₁, t.act a = .ok t₁ → I t₁)
    (idle : ∀ (t : Session) (d : Nat), t.held.depth = d + 1 → ∀ a ∈ acts, I t → shows a = false →
      a.nest d = some d ∧
        t.act a = .ok (t.holding ⟨d + 1, t.held.burst.after t.settings.holdArrivals a⟩))
    (tidy : s.Tidy .all) (start : I s) {depth depth' : Nat} (isOpen : s.held.depth = depth + 1)
    (nest : acts.foldlM Act.nest depth = some depth') :
    s.run (acts.filter shows) = (s.run acts).map (·.holding ⟨depth' + 1,
      (acts.filter shows).foldl (·.after s.settings.holdArrivals) s.held.burst⟩) := by
  induction acts generalizing s depth with
  | nil =>
    cases nest
    show Except.ok s = Except.ok (s.holding ⟨depth' + 1, s.held.burst⟩)
    rw [← isOpen]
    rfl
  | cons a acts ih =>
    obtain ⟨inner, first, rest⟩ := Option.bind_eq_some_iff.mp nest
    have later {t : Session} := ih (s := t) (fun t d here b mem => keeps t d here b (.tail _ mem))
      (fun t d here b mem => idle t d here b (.tail _ mem))
    cases visible : shows a with
    | false =>
      -- The act is held back, and the acts after it do not depend on the burst.
      obtain ⟨same, step⟩ := idle s depth isOpen a List.mem_cons_self start visible
      cases same.symm.trans first
      rw [List.filter_cons_of_neg (by simp [visible]), later tidy start isOpen rest]
      show _ = ((s.act a).bind (·.run acts)).map _
      rw [step]
      show _ = ((s.holding _).run acts).map _
      rw [run_holding tidy isOpen rest]
      cases s.run acts <;> rfl
    | true =>
      rw [List.filter_cons_of_pos visible]
      show (s.act a).bind (·.run _) = ((s.act a).bind (·.run acts)).map _
      cases step : s.act a with
      | error fault => rfl
      | ok s₁ =>
        have here := held_of_act isOpen first step
        have kept := keeps s depth isOpen a List.mem_cons_self start visible inner first s₁ step
        have after := later (tidy_of_act tidy step) kept (by rw [here]) rest
        rwa [(setup_of_act tidy step).1, here] at after

/-- Belongings left out inside an open section leave the rest of the session as it is. -/
theorem run_filter_furnishes (tidy : s.Tidy .all) {depth depth' : Nat}
    (isOpen : s.held.depth = depth + 1) {acts : List Act}
    (nest : acts.foldlM Act.nest depth = some depth') :
    s.run (acts.filter (!·.furnishes entity)) = (s.run acts).map
      (·.holding ⟨depth' + 1, (acts.filter (!·.furnishes entity)).foldl
        (·.after s.settings.holdArrivals) s.held.burst⟩) :=
  run_filter (fun _ => True) (fun _ _ _ _ _ _ _ _ _ _ _ => trivial)
    (fun _ _ here _ _ _ hidden => act_furnishes here (by simpa using hidden)) tidy trivial isOpen
    nest

/-- What a section has held back for an entity before a removal that finds it added has no effect,
whatever comes after. -/
theorem run_of_cancels (tidy : s.Tidy .all) (shut : s.held.isOpen = false) {before : List Act}
    {depth : Nat} (nest : nesting before = some depth) (added : AddedSince entity before)
    (rest : List Act) :
    s.run (.receive (.criticalSection true) ::
        (before.filter (!·.furnishes entity) ++ .removal entity :: rest)) =
      s.run (.receive (.criticalSection true) :: (before ++ .removal entity :: rest)) := by
  have entered := act_enter tidy shut
  have open_tidy := tidy_of_act tidy entered
  have along (acts : List Act) : s.run (.receive (.criticalSection true) :: acts) =
      (s.holding ⟨1, {}⟩).run acts := by
    show (s.act (.receive (.criticalSection true))).bind (·.run acts) = _
    rw [entered]
    rfl
  rw [along, along, run_append, run_append, run_filter_furnishes open_tidy rfl nest]
  cases ran : (s.holding ⟨1, {}⟩).run before with
  | error fault => rfl
  | ok s₁ =>
    -- The removal is the first act that sees what was left out, and it cancels that.
    have here : s₁.held = ⟨depth + 1, heldBack s.settings.holdArrivals before⟩ :=
      held_of_run open_tidy rfl nest ran
    have left : (before.filter (!·.furnishes entity)).foldl (·.after s.settings.holdArrivals) {} =
        (heldBack s.settings.holdArrivals before).without entity :=
      Burst.foldl_without before {}
    have removed (b : Burst) : (s₁.holding ⟨depth + 1, b⟩).act (.removal entity) =
        .ok (s₁.holding ⟨depth + 1, b.removeEntity entity⟩) := rfl
    show ((s₁.holding ⟨depth + 1, _⟩).act (.removal entity)).bind (·.run rest) =
      (s₁.act (.removal entity)).bind (·.run rest)
    rw [← s₁.holding_self, here, holding_holding, removed, removed]
    have same := (congrArg (Burst.removeEntity · entity) left).trans
      (Burst.removeEntity_without ((mem_added_heldBack _ before).mpr added))
    exact congrArg (fun b => (s₁.holding ⟨depth + 1, b⟩).run rest) same

/-! ## What a section has for a removed entity -/

/-- **What a removal cancels in a section.** When a section ends, its burst has for an entity what
came after the last removal that found it added, and all there was if no removal did. So it has just
what came after the last removal if that one found the entity added, or nothing was held back for
it; and whatever came before a removal that found it added has no effect at all. -/
theorem removal_in_section {settings : Settings} {protocol : Protocol} {past : List Act}
    (reached : (start settings protocol).run past = .ok s) (shut : s.held.isOpen = false)
    {body : List Act} (balanced : nesting body = some 0) {s₁ : Session}
    (ran : s.run (.receive (.criticalSection true) :: body) = .ok s₁) (entity : EntityId) :
    ∃ burst, s₁.held.leave = (some burst, {}) ∧
      (NoneCancels entity [] body → burst.belongings entity = belongings entity body) ∧
      ∀ before late, body = before ++ .removal entity :: late →
        (.removal entity ∉ late →
          (burst.belongings entity = belongings entity late ↔
            AddedSince entity before ∨
              (heldBack s.settings.holdArrivals before).belongings entity = {})) ∧
        (AddedSince entity before →
          (NoneCancels entity (before ++ [.removal entity]) late →
            burst.belongings entity = belongings entity late) ∧
          ∀ rest, s.run (.receive (.criticalSection true) ::
              (before.filter (!·.furnishes entity) ++ .removal entity :: rest)) =
            s.run (.receive (.criticalSection true) :: (before ++ .removal entity :: rest))) := by
  have tidy := tidy_of_run reached
  have entered := act_enter tidy shut
  obtain ⟨s₀, first, rest⟩ := run_cons.mp ran
  cases entered.symm.trans first
  have here : s₁.held = ⟨0 + 1, heldBack s.settings.holdArrivals body⟩ :=
    held_of_run (tidy_of_act tidy entered) rfl balanced rest
  refine ⟨heldBack s.settings.holdArrivals body, by rw [here]; rfl, ?_, ?_⟩
  · intro none
    have grown := belongings_heldBack s.settings.holdArrivals none
    exact grown.trans (Belongings.empty_append _)
  · rintro before late rfl
    -- The body up to the removal, and what comes after it.
    have split : before ++ .removal entity :: late = before ++ [.removal entity] ++ late := by simp
    rw [split]
    refine ⟨?_, ?_⟩
    · intro last
      have none : NoneCancels entity (before ++ [.removal entity]) late := by
        rintro early rest rfl
        exact absurd (by simp) last
      rw [belongings_heldBack _ none, Belongings.append_eq_right, heldBack_append]
      show (Burst.removeEntity _ entity).belongings entity = {} ↔ _
      rw [Burst.belongings_removeEntity, ← mem_added_heldBack s.settings.holdArrivals before]
      by_cases added : entity ∈ (heldBack s.settings.holdArrivals before).added <;> simp [added]
    · intro added
      refine ⟨?_, ?_⟩
      · intro none
        rw [belongings_heldBack _ none, belongings_of_cancels _ added, Belongings.empty_append]
      · obtain ⟨depth, nest, -⟩ := Option.bind_eq_some_iff.mp
          ((List.foldlM_append (f := Act.nest)).symm.trans balanced)
        exact run_of_cancels tidy shut nest added

/-- What makes a crate visible. -/
def crate : List Act := (Blueprint.ofClass 1 "Crate").operations.map .receive

/-- A component for the crate, which writes one of its fields. -/
def crateField : Act :=
  .receive (.addComponent 1 ⟨Stock.rootDataComponent, Wire.fields [.at 5 (.int 7)]⟩)

theorem removal_in_section_crateField :
    ∃ s s₁ burst, (start {} Stock.protocol).run crate = .ok s ∧
      s.run (.receive (.criticalSection true) :: ([crateField] ++ .removal 1 :: crate)) = .ok s₁ ∧
      s₁.held.leave = (some burst, {}) ∧ burst.belongings 1 ≠ belongings 1 crate := by
  obtain ⟨s, s₁, reached, ran, shut⟩ := exists_runs (start {} Stock.protocol) crate
    (.receive (.criticalSection true) :: ([crateField] ++ .removal 1 :: crate))
    (fun s _ => !s.held.isOpen) (by decide +kernel)
  obtain ⟨burst, yields, -, cut⟩ := removal_in_section reached (by simpa using shut)
    (by decide +kernel) ran 1
  refine ⟨s, s₁, burst, reached, ran, yields, ?_⟩
  intro exact
  -- The crate was built before the section, so its removal there does not find it added.
  rcases ((cut [crateField] crate rfl).1 (by simp [crate, Act.removal, Blueprint.operations])).mp
    exact with added | none
  · have listed := (mem_added_heldBack true _).mpr added
    exact absurd listed (by decide +kernel)
  · revert none
    cases s.settings.holdArrivals <;> decide +kernel

/-- The new crate has the field that was written for the old one. -/
theorem field_crateField :
    ∃ s s', (start {} Stock.protocol).run (crate ++ .receive (.criticalSection true) ::
        ([crateField, .removal 1] ++ crate ++ [.receive (.criticalSection false)])) = .ok s ∧
      (start {} Stock.protocol).run (crate ++ .receive (.criticalSection true) ::
        ([.removal 1] ++ crate ++ [.receive (.criticalSection false)])) = .ok s' ∧
      s.world.liveRootsOf 1 = [⟨0, 1⟩] ∧ s'.world.liveRootsOf 1 = [⟨0, 1⟩] ∧
      s.world.field? ⟨0, 1⟩ 5 = some (.int 7) ∧ s'.world.field? ⟨0, 1⟩ 5 = none := by
  obtain ⟨s, ran, test⟩ := exists_run (start {} Stock.protocol)
    (crate ++ .receive (.criticalSection true) ::
      ([crateField, .removal 1] ++ crate ++ [.receive (.criticalSection false)]))
    (fun s => s.world.liveRootsOf 1 == [⟨0, 1⟩] && s.world.field? ⟨0, 1⟩ 5 == some (.int 7))
    (by decide +kernel)
  obtain ⟨s', ran', test'⟩ := exists_run (start {} Stock.protocol)
    (crate ++ .receive (.criticalSection true) ::
      ([.removal 1] ++ crate ++ [.receive (.criticalSection false)]))
    (fun s => s.world.liveRootsOf 1 == [⟨0, 1⟩] && s.world.field? ⟨0, 1⟩ 5 == none)
    (by decide +kernel)
  rw [Bool.and_eq_true, beq_iff_eq, beq_iff_eq] at test test'
  exact ⟨s, s', ran, ran', test.1, test'.1, test.2, test'.2⟩

end Session

end Replica
