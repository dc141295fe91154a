import Replica.Proofs.Gating.Loading
import Replica.Proofs.Section.Existence

/-! # Drafts that are left behind

A draft is taken further whenever its entity or one of its components is added. An update is
collected too, but does not take the draft further: if it brings the spawn data, the draft has all
that it needs and goes on collecting, until the entity is added or removed or gets another
component. There is no other way in which a draft is left behind.

Main definitions:
* `Draft.isStalled` — a draft with spawn data that is collecting still.
* `Step`, `Session.steps` — the acts of a run, each with the session in which it is carried out.
* `Step.strands`, `Step.takesUp` — an act leaves a draft behind, or takes it up again.
* `Session.isStalled_drain` — a burst takes up whatever it names.
* `Session.isStalled_act` — what an act does to drafts that are left behind.
* `Session.stalled_iff_stranded` — which drafts are left behind after a run. -/

namespace Replica

/-! ## Stalled drafts -/

/-- A draft is **stalled** if it has collected spawn data and is collecting still. -/
def Draft.isStalled (d : Draft) : Bool :=
  d.stage == .collecting && d.components.any (·.component == Stock.spawnComponent)

namespace Drafts

/-- Whether an entity has a draft that is stalled. -/
def isStalled (ds : Drafts) (entity : EntityId) : Bool := (ds.get? entity).any Draft.isStalled

variable {ds ds' : Drafts} {e : EntityId}

theorem isStalled_congr (same : ds'.get? e = ds.get? e) : ds'.isStalled e = ds.isStalled e := by
  rw [isStalled, same, isStalled]

theorem get?_of_absent (absent : ¬ds.contains e = true) : ds.get? e = none := by
  rwa [contains_eq, Bool.not_eq_true, Option.isSome_eq_false_iff, Option.isNone_iff_eq_none]
    at absent

theorem isStalled_of_undrafted (undrafted : ds.get? e = none) : ds.isStalled e = false := by
  rw [isStalled, undrafted]
  rfl

/-- Only a draft that collects can be stalled. -/
theorem isStalled_of_stage {d : Draft} (found : ds.get? e = some d)
    (other : d.stage ≠ .collecting) : ds.isStalled e = false := by
  simp [isStalled, found, Draft.isStalled, other]

theorem isStalled_remove (ds : Drafts) (k e : EntityId) :
    (ds.remove k).isStalled e = (ds.isStalled e && k != e) := by
  by_cases own : k = e
  · subst e
    rw [isStalled_of_undrafted ((get?_remove ds k k).trans (if_pos rfl))]
    simp
  · rw [isStalled_congr ((get?_remove ds k e).trans (if_neg own))]
    simp [own]

/-- A draft that begins has not collected anything. -/
theorem isStalled_begin (ds : Drafts) (k e : EntityId) :
    (ds.begin k).isStalled e = ds.isStalled e := by
  rw [isStalled, get?_begin, isStalled]
  split
  · cases ds.get? e <;> rfl
  · rfl

theorem isStalled_addAuthority (ds : Drafts) (k e : EntityId) (component : ComponentId)
    (authority : Authority) :
    (ds.addAuthority k component authority).isStalled e = ds.isStalled e := by
  rw [isStalled, get?_addAuthority, isStalled]
  split
  · cases ds.get? e <;> rfl
  · rfl

/-- A component stalls a draft that collects if it is spawn data. -/
theorem isStalled_addComponent (ds : Drafts) (k e : EntityId) (data : ComponentData) :
    (ds.addComponent k data).isStalled e = (ds.isStalled e ||
      (k == e && data.component == Stock.spawnComponent &&
        ds.stage? e == some .collecting)) := by
  rw [isStalled, get?_addComponent, isStalled, stage?]
  by_cases own : k = e
  · subst e
    rw [if_pos rfl, beq_self_eq_true, Bool.true_and]
    cases ds.get? k with
    | none => simp
    | some d =>
      simp only [Option.map_some, Option.any_some, Draft.isStalled, List.any_append, List.any_cons,
        List.any_nil, Bool.or_false, Bool.and_or_distrib_left]
      rw [Bool.and_comm (data.component == _)]
      rfl
  · simp [own]

/-- A draft that gets its spawn data waits for a container or is ready. -/
theorem isStalled_setSpawn (ds : Drafts) (k : EntityId) (spawn : Spawn) :
    (ds.setSpawn k spawn).isStalled k = false := by
  cases found : ds.get? k with
  | none =>
    refine isStalled_of_undrafted ((get?_setSpawn ds k k spawn).trans ?_)
    rw [if_pos rfl, found, Option.map_none]
  | some d =>
    refine isStalled_of_stage ((get?_setSpawn_of_found found spawn k).trans (if_pos rfl)) ?_
    rcases ds.stageFor_cases spawn with ⟨c, -, -, waits⟩ | ⟨free, -⟩
    · simp [waits]
    · simp [free]

end Drafts

/-- Where no spawn data is found, no component is spawn data. -/
theorem World.any_of_spawnDataMissing {entity e : EntityId} {components : List ComponentData}
    (missing : readSpawn entity components = .error (.spawnDataMissing e)) :
    components.any (·.component == Stock.spawnComponent) = false := by
  unfold readSpawn at missing
  split at missing
  · rename_i absent
    simpa using absent
  · split at missing <;> cases missing

/-! ## Phases of a burst -/

/-- What each step of a fold keeps, or loses to a test of what is folded, the whole fold keeps, or
loses to one of the tests. An invariant may be assumed on the way. -/
theorem foldl_and {σ α : Type} {f : σ → α → σ} (kept : σ → Bool) (test : α → Bool) (I : σ → Prop)
    (each : ∀ x a, I x → kept (f x a) = (kept x && test a) ∧ I (f x a)) {x : σ} (holds : I x)
    (as : List α) : kept (as.foldl f x) = (kept x && as.all test) ∧ I (as.foldl f x) := by
  induction as generalizing x with
  | nil => exact ⟨(Bool.and_true _).symm, holds⟩
  | cons a as ih =>
    obtain ⟨first, holds⟩ := each x a holds
    obtain ⟨later, holds⟩ := ih holds
    refine ⟨later.trans ?_, holds⟩
    rw [first, List.all_cons, Bool.and_assoc]

namespace Session

variable {s : Session} {next : List EntityId}

theorem isStalled_remove (s : Session) (k e : EntityId) :
    (s.remove k).drafts.isStalled e = (s.drafts.isStalled e && k != e) := by
  unfold remove
  split
  · exact Drafts.isStalled_remove s.drafts k e
  · rename_i undrafted
    have same : s.drafts.isStalled e = (s.drafts.isStalled e && k != e) := by
      by_cases own : k = e
      · subst e
        rw [Drafts.isStalled_of_undrafted (Drafts.get?_of_absent undrafted)]
        rfl
      · simp [own]
    split <;> exact same

theorem isStalled_changeAuthority (s : Session) (change : AuthorityChange) (e : EntityId) :
    (s.changeAuthority change).drafts.isStalled e = s.drafts.isStalled e := by
  unfold changeAuthority
  split
  · rfl
  · exact Drafts.isStalled_addAuthority s.drafts _ e _ _

/-- A draft that is ready is taken out, whether or not its entity can be built. -/
theorem isStalled_constructReady (tidy : s.Tidy .all) {k : EntityId}
    (gated : s.drafts.Gated (k :: next)) (idle : s.drafts.isStalled k = false) :
    (s.constructReady k).drafts.isStalled k = false := by
  cases taken : s.drafts.takeReady k with
  | none =>
    rw [constructReady, taken]
    exact idle
  | some result =>
    obtain ⟨found, isReady, -⟩ := Drafts.takeReady_eq_some.mp taken
    have used := usesUp_advance tidy gated (Drafts.stage?_eq_some.mpr ⟨_, found, isReady⟩)
    have same : s.advance k = s.constructReady k := by
      simp only [advance, found, isReady]
    rw [← same]
    exact Drafts.isStalled_of_undrafted ((used.drafts k).trans (if_pos (List.mem_singleton_self k)))

/-- A draft that is taken further is gone afterwards, or waits, or has no spawn data. -/
theorem isStalled_advance_self (tidy : s.Tidy .all) {k : EntityId}
    (gated : s.drafts.Gated (k :: next)) : (s.advance k).drafts.isStalled k = false := by
  unfold advance
  cases found : s.drafts.get? k with
  | none => exact Drafts.isStalled_of_undrafted found
  | some draft =>
    dsimp only
    cases stage : draft.stage with
    | waiting c => exact Drafts.isStalled_of_stage found (by simp [stage])
    | ready =>
      exact isStalled_constructReady tidy gated
        (Drafts.isStalled_of_stage found (by simp [stage]))
    | collecting =>
      obtain ⟨filed, -, -⟩ := tidy.drafts k draft found
      dsimp only
      cases read : World.readSpawn k draft.components with
      | ok spawn =>
        have fit : (Move.draft (s.drafts.setSpawn k spawn)).Apt .all s.idle :=
          tidy.drafts.setSpawn k spawn
        have unready : s.drafts.stage? k ≠ some .ready := by simp [Drafts.stage?, found, stage]
        exact isStalled_constructReady (fit.tidy tidy)
          ((gated.skip unready).setSpawn found stage (filed.symm ▸ read))
          (Drafts.isStalled_setSpawn _ k spawn)
      | error error =>
        have dropped : (s.drafts.remove k).isStalled k = false := by
          rw [Drafts.isStalled_remove, bne_self_eq_false, Bool.and_false]
        cases error with
        | spawnDataMissing _ =>
          have none := World.any_of_spawnDataMissing read
          simp [Drafts.isStalled, found, Draft.isStalled, none]
        | _ => exact dropped

/-- **A draft that is taken further** is not stalled, and no other draft is touched. -/
theorem isStalled_advance (tidy : s.Tidy .all) {k : EntityId} (gated : s.drafts.Gated (k :: next))
    (e : EntityId) : (s.advance k).drafts.isStalled e = (s.drafts.isStalled e && k != e) := by
  by_cases own : k = e
  · subst e
    rw [isStalled_advance_self tidy gated, bne_self_eq_false, Bool.and_false]
  · rw [Drafts.isStalled_congr (spares_advance tidy own).draft]
    simp [own]

/-- Drafts that are taken further are not stalled. -/
theorem isStalled_advances (tidy : s.Tidy .all) {touched : List EntityId}
    (gated : s.drafts.Gated touched) (e : EntityId) :
    (touched.foldl advance s).drafts.isStalled e =
      (s.drafts.isStalled e && !touched.contains e) := by
  induction touched generalizing s with
  | nil => exact (Bool.and_true _).symm
  | cons k touched ih =>
    have passed := passes_advance [] tidy gated
    rw [List.foldl_cons, ih (passed.carries.tidy tidy) passed.gated, isStalled_advance tidy gated,
      List.contains_cons, Bool.not_or, Bool.and_assoc, BEq.comm]
    rfl

/-- Whether the draft of an entity is stalled and not among those to be taken further. -/
def leavesBehind (state : Session × List EntityId) (entity : EntityId) : Bool :=
  state.1.drafts.isStalled entity && !state.2.contains entity

/-- Those are left behind after all that were touched have been taken further. -/
theorem isStalled_touched {x : Session × List EntityId} (tidy : x.1.Tidy .all)
    (gated : x.1.drafts.Gated []) (e : EntityId) :
    (x.2.foldl advance x.1).drafts.isStalled e = leavesBehind x e :=
  isStalled_advances tidy (gated.mono fun _ none => absurd none List.not_mem_nil) e

theorem contains_touch (touched : List EntityId) (k e : EntityId) :
    (touch touched k).contains e = (touched.contains e || k == e) := by
  rw [Bool.eq_iff_iff, List.contains_iff_mem, mem_touch, Bool.or_eq_true, List.contains_iff_mem,
    beq_iff_eq]

/-- An addition leaves the draft of its entity to be taken further. -/
theorem leavesBehind_begin {state : Session × List EntityId} (tidy : state.1.Tidy .all)
    (k e : EntityId) : leavesBehind (begin state k) e = (leavesBehind state e && k != e) := by
  obtain ⟨s, touched⟩ := state
  unfold begin leavesBehind
  dsimp only
  split
  · rename_i built
    by_cases own : k = e
    · subst e
      have undrafted : s.drafts.get? k = none := by
        rw [Option.eq_none_iff_forall_ne_some]
        intro draft found
        rw [Channels.contains_eq, (tidy.drafts k draft found).2.1] at built
        cases built
      rw [Drafts.isStalled_of_undrafted undrafted]
      rfl
    · simp [own]
  · dsimp only
    rw [Drafts.isStalled_begin, contains_touch, Bool.not_or, Bool.and_assoc]
    rfl

/-- A component leaves the draft of its entity to be taken further. -/
theorem leavesBehind_route (state : Session × List EntityId) (added : AddedComponent)
    (e : EntityId) :
    leavesBehind (route state added) e = (leavesBehind state e && added.entity != e) := by
  obtain ⟨s, touched⟩ := state
  unfold route leavesBehind
  dsimp only
  by_cases own : added.entity = e
  · subst e
    rw [bne_self_eq_false, Bool.and_false]
    split
    · rw [contains_touch, beq_self_eq_true, Bool.or_true, Bool.not_true, Bool.and_false]
    · rename_i undrafted
      rw [(routine_applyToLive s _ _).drafts,
        Drafts.isStalled_of_undrafted (Drafts.get?_of_absent undrafted)]
      rfl
  · have other : (added.entity == e) = false := by simp [own]
    have differs : (added.entity != e) = true := by simp [own]
    rw [differs, Bool.and_true]
    split
    · dsimp only
      rw [contains_touch, Drafts.isStalled_addComponent, other]
      simp
    · rw [(routine_applyToLive s _ _).drafts]

end Session

/-- Whether a burst removes or adds an entity or one of its components. -/
def Burst.names (b : Burst) (entity : EntityId) : Bool :=
  b.removed.any (· == entity) || b.added.any (· == entity) || b.components.any (·.entity == entity)

namespace Session

variable {s : Session}

/-- Removals take up the drafts of their entities. -/
theorem isStalled_removals (tidy : s.Tidy .all) (gated : s.drafts.Gated [])
    (removed : List EntityId) (e : EntityId) :
    (removed.foldl remove s).drafts.isStalled e = (s.drafts.isStalled e && removed.all (· != e)) ∧
      (removed.foldl remove s).Tidy .all ∧ (removed.foldl remove s).drafts.Gated [] := by
  refine foldl_and (fun t : Session => t.drafts.isStalled e) (· != e)
    (fun t => t.Tidy .all ∧ t.drafts.Gated []) ?_ ⟨tidy, gated⟩ removed
  intro t k ⟨tidy, gated⟩
  have plain : (Move.remove k).IsPlain := trivial
  exact ⟨isStalled_remove t k e, tidy.remove k, (plain.gated (w := t.idle) gated).1⟩

/-- Additions leave the drafts of their entities to be taken further. -/
theorem leavesBehind_begins {x : Session × List EntityId} (tidy : x.1.Tidy .all)
    (gated : x.1.drafts.Gated []) (added : List EntityId) (e : EntityId) :
    leavesBehind (added.foldl begin x) e = (leavesBehind x e && added.all (· != e)) ∧
      (added.foldl begin x).1.Tidy .all ∧ (added.foldl begin x).1.drafts.Gated [] := by
  refine foldl_and (leavesBehind · e) (· != e)
    (fun t => t.1.Tidy .all ∧ t.1.drafts.Gated []) ?_ ⟨tidy, gated⟩ added
  intro t k ⟨tidy, gated⟩
  have passed := passes_begin [] t tidy gated k
  exact ⟨leavesBehind_begin tidy k e, passed.carries.tidy tidy, passed.gated⟩

/-- Components leave the drafts of their entities to be taken further. -/
theorem leavesBehind_routes {x : Session × List EntityId} (tidy : x.1.Tidy .all)
    (gated : x.1.drafts.Gated []) (components : List AddedComponent) (e : EntityId) :
    leavesBehind (components.foldl route x) e =
        (leavesBehind x e && components.all (·.entity != e)) ∧
      (components.foldl route x).1.Tidy .all ∧ (components.foldl route x).1.drafts.Gated [] := by
  refine foldl_and (leavesBehind · e) (·.entity != e)
    (fun t => t.1.Tidy .all ∧ t.1.drafts.Gated []) ?_ ⟨tidy, gated⟩ components
  intro t added ⟨tidy, gated⟩
  have passed := passes_route [] t tidy gated added
  exact ⟨leavesBehind_route t added e, passed.carries.tidy tidy, passed.gated⟩

/-- Authority and arrivals leave stalled drafts as they are. -/
theorem isStalled_settle (s : Session) (changes : List AuthorityChange) (arrivals : List Arrival)
    (e : EntityId) :
    (arrivals.foldl resolveNow (changes.foldl changeAuthority s)).drafts.isStalled e =
      s.drafts.isStalled e := by
  rw [(routine_replays arrivals _).drafts]
  induction changes generalizing s with
  | nil => rfl
  | cons change changes ih => exact (ih _).trans (isStalled_changeAuthority s change e)

/-- **A burst takes up** the drafts that it names, and leaves no other behind. -/
theorem isStalled_drain (tidy : s.Tidy .all) (gated : s.drafts.Gated []) (b : Burst)
    (e : EntityId) : (s.drain b).drafts.isStalled e = (s.drafts.isStalled e && !b.names e) := by
  obtain ⟨removed, tidy₁, gated₁⟩ := isStalled_removals tidy gated b.removed e
  obtain ⟨begun, tidy₂, gated₂⟩ := leavesBehind_begins (x := (b.removed.foldl remove s, [])) tidy₁
    gated₁ b.added e
  obtain ⟨routed, tidy₃, gated₃⟩ := leavesBehind_routes tidy₂ gated₂ b.components e
  have advanced := isStalled_touched tidy₃ gated₃ e
  have untouched : leavesBehind (b.removed.foldl remove s, []) e =
      (b.removed.foldl remove s).drafts.isStalled e := Bool.and_true _
  have named : (!b.names e) = (b.removed.all (· != e) &&
      (b.added.all (· != e) && b.components.all (·.entity != e))) := by
    rw [Burst.names, Bool.not_or, Bool.not_or, List.not_any_eq_all_not, List.not_any_eq_all_not,
      List.not_any_eq_all_not, Bool.and_assoc]
    rfl
  refine (isStalled_settle _ b.authority b.arrivals e).trans (advanced.trans (routed.trans ?_))
  rw [begun, untouched, removed, named, Bool.and_assoc, Bool.and_assoc]

/-! ## Acts -/

/-- Whether the payloads of a component are collected by drafts when it is updated. -/
def collects (s : Session) (component : ComponentId) : Bool :=
  (s.protocol.binding? component).any (·.role.carriesProperties)

/-- An update leaves the draft of its entity behind if it brings the spawn data. -/
theorem isStalled_update (s : Session) (k : EntityId) (update : ComponentData) (e : EntityId) :
    (s.update k update).drafts.isStalled e = (s.drafts.isStalled e ||
      (k == e && update.component == Stock.spawnComponent &&
        s.drafts.stage? e == some .collecting && s.collects update.component)) := by
  unfold Session.update tryUpdate
  split
  · unfold collects binding
    cases s.protocol.binding? update.component with
    | none => simp [accept, bind, Except.bind]
    | some b =>
      simp only [bind, Except.bind, Option.any_some]
      split
      · rename_i carries
        rw [carries, Bool.and_true]
        exact Drafts.isStalled_addComponent s.drafts k e update
      · rename_i refused
        rw [Bool.not_eq_true] at refused
        rw [refused, Bool.and_false, Bool.or_false]
        rfl
  · rename_i undrafted
    rw [(routine_applyToLive s k update).drafts]
    by_cases own : k = e
    · subst e
      simp [Drafts.stage?, Drafts.get?_of_absent undrafted]
    · simp [own]

/-- Loading a container takes up only drafts that wait for it. -/
theorem isStalled_load (tidy : s.Tidy .all) (gated : s.drafts.Gated []) (c : Container)
    (e : EntityId) : (s.load c).drafts.isStalled e = s.drafts.isStalled e := by
  have fit : (Move.draft (s.drafts.load c).2).Apt .all s.idle := tidy.drafts.load c
  rw [load_eq gated, isStalled_advances (s := { s with drafts := (s.drafts.load c).2 })
    (fit.tidy tidy) (gated.load c)]
  by_cases waits : e ∈ s.drafts.streaming.waitingOn c
  · obtain ⟨d, found, stage⟩ := Drafts.stage?_eq_some.mp ((gated.waiting c e).mp waits)
    rw [Drafts.isStalled_of_stage found (by simp [stage]), List.contains_iff_mem.mpr waits,
      Bool.not_true, Bool.and_false]
  · rw [Drafts.isStalled_congr ((gated.get?_load c e).trans (if_neg waits))]
    simp [waits]

end Session

/-- A **step** of a run: an act and the session in which it is carried out. -/
structure Step where
  /-- The session before. -/
  session : Session
  /-- What is carried out. -/
  act : Act

namespace Step

/-- What is removed and added at a step: the burst of a section that ends, or an operation that no
section holds back. -/
def burst (step : Step) : Burst :=
  match step.act with
  | .receive (.criticalSection false) => step.session.held.leave.1.getD {}
  | .receive operation => if step.session.held.isOpen then {} else ({} : Burst).keep operation
  | _ => {}

/-- Whether a step **takes up** the draft of an entity: the entity or one of its components is
added, or the entity is removed. -/
def takesUp (step : Step) (entity : EntityId) : Bool := step.burst.names entity

/-- Whether a step **strands** the draft of an entity: the draft collects, and an update brings the
spawn data. -/
def strands (step : Step) (entity : EntityId) : Bool :=
  match step.act with
  | .receive (.componentUpdate k update) | .tryUpdate k update =>
    k == entity && update.component == Stock.spawnComponent &&
      step.session.drafts.stage? entity == some .collecting &&
      step.session.collects update.component
  | _ => false

/-- Whether the draft of an entity is stalled after a step: the step has stranded it, or it was
stalled before and the step does not take it up. -/
def stalls (step : Step) (entity : EntityId) : Bool :=
  step.strands entity || (step.session.drafts.isStalled entity && !step.takesUp entity)

variable {s s' : Session} {a : Act} {e : EntityId}

/-- At a step that strands nothing, a draft stays stalled if the burst does not name it. -/
theorem stalls_of_burst {b : Burst} (quiet : (⟨s, a⟩ : Step).strands e = false)
    (burst : (⟨s, a⟩ : Step).burst = b)
    (after : s'.drafts.isStalled e = (s.drafts.isStalled e && !b.names e)) :
    s'.drafts.isStalled e = (⟨s, a⟩ : Step).stalls e := by
  rw [stalls, quiet, Bool.false_or, takesUp, burst, after]

theorem stalls_of_idle (quiet : (⟨s, a⟩ : Step).strands e = false)
    (idle : (⟨s, a⟩ : Step).burst = {}) (same : s'.drafts.isStalled e = s.drafts.isStalled e) :
    s'.drafts.isStalled e = (⟨s, a⟩ : Step).stalls e :=
  stalls_of_burst quiet idle (same.trans (Bool.and_true _).symm)

end Step

namespace Session

variable {s : Session}

/-- The steps of a run, up to the first fault. -/
def steps (s : Session) : List Act → List Step
  | [] => []
  | a :: acts =>
    ⟨s, a⟩ :: match s.act a with
      | .ok s' => s'.steps acts
      | .error _ => []

/-- An operation that is held back leaves stalled drafts alone; otherwise its burst is carried
out. -/
theorem isStalled_held (tidy : s.Tidy .all) (gated : s.drafts.Gated []) {operation : Operation}
    {held : Section} {b : Burst} {s' : Session} {e : EntityId}
    (quiet : (⟨s, .receive operation⟩ : Step).strands e = false)
    (burst : (⟨s, .receive operation⟩ : Step).burst = if s.held.isOpen then {} else b)
    (same : s' = if s.held.isOpen then { s with held } else s.drain b) :
    s'.drafts.isStalled e = (⟨s, .receive operation⟩ : Step).stalls e := by
  subst same
  split
  · rename_i isOpen
    exact Step.stalls_of_idle quiet (burst.trans (if_pos isOpen)) rfl
  · rename_i shut
    exact Step.stalls_of_burst quiet (burst.trans (if_neg shut)) (isStalled_drain tidy gated b e)

/-- **After an operation** a draft is stalled if it has been stranded, or if it was stalled before
and is not taken up. -/
theorem isStalled_process (tidy : s.Tidy .all) (gated : s.drafts.Gated []) {operation : Operation}
    {s' : Session} (ok : s.process operation = .ok s') (e : EntityId) :
    s'.drafts.isStalled e = (⟨s, .receive operation⟩ : Step).stalls e := by
  have idle : (if s.held.isOpen then ({} : Burst) else {}) = {} := ite_self _
  cases operation with
  | criticalSection opens =>
    cases ok
    cases opens with
    | true => exact Step.stalls_of_idle rfl idle rfl
    | false =>
      have kept := tidy.leave
      refine Step.stalls_of_burst (b := s.held.leave.1.getD {}) rfl rfl ?_
      unfold markSection
      cases left : s.held.leave with
      | mk burst held =>
        rw [left] at kept
        cases burst with
        | some burst => exact isStalled_drain kept gated burst e
        | none => exact (Bool.and_true _).symm
  | addEntity k | removeEntity k | addComponent k data | authorityChange k component authority =>
    cases ok
    exact isStalled_held tidy gated rfl rfl rfl
  | componentUpdate k update =>
    cases ok
    rw [isStalled_update, Bool.or_comm, Step.stalls, Step.takesUp,
      show (⟨s, .receive (.componentUpdate k update)⟩ : Step).burst = {} from idle]
    exact congrArg _ (Bool.and_true _).symm
  | commandRequest request k command =>
    cases ok
    exact Step.stalls_of_idle rfl idle
      (congrArg (·.isStalled e) (routine_tryCommand s k command).drafts)
  | commandResponse request result =>
    obtain ⟨retries, rfl⟩ := commandResponse_eq ok
    exact Step.stalls_of_idle rfl idle rfl
  | reserveResponse request result | createResponse request result | queryResponse request result =>
    cases ok
    obtain ⟨deliveries, same⟩ := deliver_eq s _ _ _
    exact Step.stalls_of_idle rfl idle (congrArg (·.drafts.isStalled e) same)

/-- **After an act** a draft is stalled if the act has stranded it, or if it was stalled before and
the act does not take it up. -/
theorem isStalled_act (tidy : s.Tidy .all) (gated : s.drafts.Gated []) {a : Act} {s' : Session}
    (ok : s.act a = .ok s') (e : EntityId) :
    s'.drafts.isStalled e = (⟨s, a⟩ : Step).stalls e := by
  cases a with
  | receive operation => exact isStalled_process tidy gated ok e
  | tryUpdate k update =>
    cases ok
    rw [isStalled_update, Bool.or_comm]
    exact congrArg _ (Bool.and_true _).symm
  | tryCommand k request =>
    cases ok
    exact Step.stalls_of_idle rfl rfl
      (congrArg (·.isStalled e) (routine_tryCommand s k request).drafts)
  | load c =>
    cases ok
    exact Step.stalls_of_idle rfl rfl (isStalled_load tidy gated c e)
  | announce arrival =>
    cases ok
    refine Step.stalls_of_idle rfl rfl ?_
    unfold announce
    dsimp only
    split
    · rfl
    · rw [(routine_resolveNow _ arrival).drafts]
  | register registration =>
    cases ok
    obtain ⟨requests, same⟩ := await_eq s registration
    exact Step.stalls_of_idle rfl rfl (congrArg (·.drafts.isStalled e) same)
  | unload _ | takeEvents | alter _ =>
    cases ok
    exact Step.stalls_of_idle rfl rfl rfl

/-! ## Runs -/

/-- **After a run** a draft is stalled if the run has stranded it and no later step has taken it up,
or if it was stalled before and no step has taken it up. -/
theorem isStalled_run (tidy : s.Tidy .all) (gated : s.drafts.Gated []) {acts : List Act}
    {s' : Session} (ok : s.run acts = .ok s') (e : EntityId) :
    s'.drafts.isStalled e = true ↔
      (∃ step later, step :: later <:+ s.steps acts ∧ step.strands e = true ∧
        ∀ t ∈ later, t.takesUp e = false) ∨
      s.drafts.isStalled e = true ∧ ∀ t ∈ s.steps acts, t.takesUp e = false := by
  induction acts generalizing s with
  | nil =>
    cases ok
    simp [steps]
  | cons a acts ih =>
    obtain ⟨s₁, first, rest⟩ := run_cons.mp ok
    have passed := passes_act tidy gated first
    have steps : s.steps (a :: acts) = ⟨s, a⟩ :: s₁.steps acts := by
      simp only [steps, first]
    rw [ih (s := s₁) (passed.carries.tidy tidy) passed.gated rest, isStalled_act tidy gated first,
      steps, Step.stalls, Bool.or_eq_true, Bool.and_eq_true, Bool.not_eq_true',
      List.forall_mem_cons]
    constructor
    · rintro (⟨step, later, suffix, stranded, left⟩ | ⟨stranded | ⟨stalled, here⟩, left⟩)
      · exact .inl ⟨step, later, suffix.trans (List.suffix_cons _ _), stranded, left⟩
      · exact .inl ⟨_, _, List.suffix_rfl, stranded, left⟩
      · exact .inr ⟨stalled, here, left⟩
    · rintro (⟨step, later, suffix, stranded, left⟩ | ⟨stalled, here, left⟩)
      · rcases List.suffix_cons_iff.mp suffix with same | inner
        · cases same
          exact .inr ⟨.inl stranded, left⟩
        · exact .inl ⟨step, later, inner, stranded, left⟩
      · exact .inr ⟨.inr ⟨stalled, here⟩, left⟩

variable {settings : Settings} {protocol : Protocol} {acts : List Act}

/-- **Which drafts are left behind.** After every run a draft with spawn data either waits for a
container that is not loaded, or is stalled. A draft is stalled exactly if at some step an update
has brought the spawn data while the draft was collecting, and no later step has removed the entity
or added it or one of its components. -/
theorem stalled_iff_stranded (ok : (start settings protocol).run acts = .ok s) :
    (∀ e d, s.drafts.get? e = some d →
        d.components.any (·.component == Stock.spawnComponent) = true →
        s.drafts.isStalled e = true ∨
          ∃ c, d.stage = .waiting c ∧ s.drafts.streaming.isLoaded c = false) ∧
      ∀ e, s.drafts.isStalled e = true ↔
        ∃ step later, step :: later <:+ (start settings protocol).steps acts ∧
          step.strands e = true ∧ ∀ t ∈ later, t.takesUp e = false := by
  have gated := (gated_of_run ok).2
  refine ⟨fun e d found spawned => ?_, fun e => ?_⟩
  · cases stage : d.stage with
    | collecting => exact .inl (by simp [Drafts.isStalled, found, Draft.isStalled, stage, spawned])
    | ready => exact absurd stage (gated.unready found)
    | waiting c =>
      have listed := (gated.waiting c e).mpr (Drafts.stage?_eq_some.mpr ⟨d, found, stage⟩)
      refine .inr ⟨c, rfl, Bool.not_eq_true _ ▸ fun loaded => ?_⟩
      rw [gated.sound.unloaded c loaded] at listed
      cases listed
  · rw [isStalled_run (tidy_start settings protocol) .empty ok]
    refine or_iff_left fun ⟨stalled, _⟩ => ?_
    rw [show (start settings protocol).drafts.isStalled e = false from
      Drafts.isStalled_of_undrafted (by simp [start, Drafts.empty, Drafts.get?])] at stalled
    cases stalled

/-- Two crates whose spawn data comes with an update; the second is added again after it. -/
def lateSpawn : List Act :=
  [.receive (.addEntity 1), .receive (.componentUpdate 1 crateSpawn), .receive (.addEntity 2),
    .receive (.componentUpdate 2 crateSpawn), .receive (.addEntity 2)]

theorem stalled_iff_stranded_lateSpawn :
    ∃ s, (start {} Stock.protocol).run lateSpawn = .ok s ∧
      s.drafts.isStalled 1 = true ∧ s.drafts.isStalled 2 = false ∧
      (∃ step later, step :: later <:+ (start {} Stock.protocol).steps lateSpawn ∧
        step.strands 1 = true ∧ ∀ t ∈ later, t.takesUp 1 = false) ∧
      ¬∃ step later, step :: later <:+ (start {} Stock.protocol).steps lateSpawn ∧
        step.strands 2 = true ∧ ∀ t ∈ later, t.takesUp 2 = false := by
  obtain ⟨s, ok, test⟩ := exists_run (start {} Stock.protocol) lateSpawn
    (fun s => s.drafts.isStalled 1 && !s.drafts.isStalled 2)
    (by decide +kernel)
  rw [Bool.and_eq_true, Bool.not_eq_true'] at test
  obtain ⟨first, second⟩ := test
  have stranded := (stalled_iff_stranded ok).2
  refine ⟨s, ok, first, second, (stranded 1).mp first, fun found => ?_⟩
  rw [(stranded 2).mpr found] at second
  cases second

/-- The first crate is not built. Its draft has spawn data that can be read, and waits for
nothing. -/
theorem draft_lateSpawn :
    ∃ s, (start {} Stock.protocol).run lateSpawn = .ok s ∧
      s.drafts.get? 1 = some { entity := 1, components := [crateSpawn], stage := .collecting } ∧
      World.readSpawn 1 [crateSpawn] = .ok { className := "Crate" } ∧
      s.world.liveRootsOf 1 = [] ∧ s.world.liveRootsOf 2 ≠ [] := by
  obtain ⟨s, ok, test⟩ := exists_run (start {} Stock.protocol) lateSpawn
    (fun s => s.drafts.get? 1 == some { entity := 1, components := [crateSpawn] } &&
      s.world.liveRootsOf 1 == [] && s.world.liveRootsOf 2 != [])
    (by decide +kernel)
  simp only [Bool.and_eq_true, beq_iff_eq, bne_iff_ne] at test
  exact ⟨s, ok, test.1.1, by decide +kernel, test.1.2, test.2⟩

end Session

end Replica
