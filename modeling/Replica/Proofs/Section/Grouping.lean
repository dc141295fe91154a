import Replica.Blueprint
import Replica.Proofs.Section

/-! # Markers only group

A section says which operations belong to one burst, and nothing else. So a run that leaves no
section open ends in the same session if the markers of its inner sections are left out, together
with those that close nothing, and also if acts outside sections are given sections of their own.

Main definitions:
* `Act.depthAfter` — how many sections are open after an act.
* `Act.isIdleMark`, `flatten` — acts without the markers that group nothing.
* `wrap` — acts, some of which have a section of their own.
* `Session.run_wrapped` — an act outside sections is a section of size one.
* `Session.run_flat`, `Session.run_wrap` — neither changes what a run leads to. -/

namespace Replica

/-! ## Acts grouped anew -/

/-- How many sections are open after an act, if `depth` are open before it. -/
def Act.depthAfter (depth : Nat) : Act → Nat
  | .receive (.criticalSection true) => depth + 1
  | .receive (.criticalSection false) => depth - 1
  | _ => depth

/-- Whether an act is an **idle mark**: it opens a section inside another one, closes such a one, or
closes none at all. -/
def Act.isIdleMark (depth : Nat) : Act → Bool
  | .receive (.criticalSection true) => depth != 0
  | .receive (.criticalSection false) => depth != 1
  | _ => false

/-- Whether an act opens or closes a section. -/
def Act.isMark : Act → Bool
  | .receive (.criticalSection _) => true
  | _ => false

/-- The acts without the idle marks, if `depth` sections are open before them. -/
def flatten : Nat → List Act → List Act
  | _, [] => []
  | depth, a :: acts =>
    if a.isIdleMark depth then flatten (a.depthAfter depth) acts
    else a :: flatten (a.depthAfter depth) acts

/-- A section that holds a single act. -/
def wrapped (a : Act) : List Act :=
  [.receive (.criticalSection true), a, .receive (.criticalSection false)]

/-- The acts, if `depth` sections are open before them; each that is marked and comes outside
sections has a section of its own. -/
def wrap : Nat → List (Act × Bool) → List Act
  | _, [] => []
  | depth, (a, marked) :: acts =>
    (if marked && depth == 0 then wrapped a else [a]) ++ wrap (a.depthAfter depth) acts

/-- An act that is not a marker is not an idle mark, and changes no depth. -/
theorem Act.of_not_isMark {a : Act} (h : a.isMark = false) (depth : Nat) :
    a.isIdleMark depth = false ∧ a.depthAfter depth = depth ∧ a.nest depth = some depth := by
  cases a with
  | receive operation =>
    cases operation with
    | criticalSection opens => cases h
    | _ => exact ⟨rfl, rfl, rfl⟩
  | _ => exact ⟨rfl, rfl, rfl⟩

/-- A marker opens or closes a section. -/
theorem Act.exists_of_isMark {a : Act} (h : a.isMark = true) :
    ∃ opens, a = .receive (.criticalSection opens) := by
  cases a with
  | receive operation =>
    cases operation with
    | criticalSection opens => exact ⟨opens, rfl⟩
    | _ => cases h
  | _ => cases h

namespace Session

variable {s s₁ : Session}

/-! ## Sections of size one -/

/-- Carrying a burst out opens and closes no section. -/
theorem held_drain (s : Session) (b : Burst) : (s.drain b).held = s.held :=
  congrArg (·.held) (drain_holding s s.held b)

/-- An act outside sections does what it does inside one, and then what is held back of it. -/
theorem act_of_shut (tidy : s.Tidy .all) (shut : s.held.isOpen = false) {a : Act}
    (unmarked : a.isMark = false) :
    s.act a = ((s.holding ⟨1, {}⟩).act a).map fun s₁ =>
      (s₁.holding {}).drain (heldBack s.settings.holdArrivals [a]) := by
  have none := tidy.held_eq shut
  have self : s.holding {} = s := by rw [← none, holding_self]
  by_cases immediate : a.isImmediate = true
  · -- Nothing is held back, and carrying nothing out does nothing.
    have kept := (nest_of_isImmediate immediate 0).2 s.settings.holdArrivals {}
    rw [act_of_isImmediate s _ immediate, show heldBack s.settings.holdArrivals [a] = {} from kept]
    have inside := act_of_isImmediate s {} immediate
    rw [self] at inside
    cases ran : s.act a with
    | error fault => rfl
    | ok s₁ =>
      rw [ran] at inside
      exact inside
  cases a with
  | receive operation =>
    cases operation with
    | criticalSection _ => cases unmarked
    | addEntity _ | removeEntity _ | addComponent _ _ | authorityChange _ _ _ =>
      -- The burst is the operation, and the operation is carried out as that burst.
      rw [← self]
      rfl
    | _ => exact absurd rfl immediate
  | announce arrival =>
    -- Outside sections what waits goes on at once: held back or not, it goes on now.
    let known : Session :=
      { s with directory := s.directory.register arrival.reference arrival.object }
    have now : s.announce arrival = (known.holding {}).resolveNow arrival :=
      (congrArg (·.announce arrival) self).symm
    show Except.ok (s.announce arrival) = Except.ok (((s.holding ⟨1, {}⟩).announce arrival).holding
      {} |>.drain (if s.settings.holdArrivals then { arrivals := [arrival] } else {}))
    rw [announce_of_isOpen s rfl, now]
    split
    · rfl
    · rw [resolveNow_holding]
      rfl
  | _ => exact absurd rfl immediate

/-- An act outside sections that is not a marker leaves the section as it is. -/
theorem held_of_shut (tidy : s.Tidy .all) (shut : s.held.isOpen = false) {a : Act}
    (unmarked : a.isMark = false) (ok : s.act a = .ok s₁) : s₁.held = s.held := by
  rw [act_of_shut tidy shut unmarked] at ok
  cases ran : (s.holding ⟨1, {}⟩).act a with
  | error fault =>
    rw [ran] at ok
    cases ok
  | ok s₂ =>
    rw [ran] at ok
    cases ok
    rw [held_drain, tidy.held_eq shut]
    rfl

/-- **An act outside sections is a section of size one.** -/
theorem run_wrapped (tidy : s.Tidy .all) (shut : s.held.isOpen = false) (a : Act) :
    s.run (wrapped a) = s.act a := by
  have self := tidy.holding_empty shut
  cases mark : a.isMark with
  | false =>
    have balanced : nesting [a] = some 0 := by
      rw [nesting, List.foldlM_cons, (Act.of_not_isMark mark 0).2.2]
      rfl
    rw [act_of_shut tidy shut mark]
    refine (section_run tidy shut balanced).trans ?_
    simp only [run, List.foldlM_cons, List.foldlM_nil, bind_pure]
  | true =>
    obtain ⟨opens, rfl⟩ := Act.exists_of_isMark mark
    rw [wrapped, run, List.foldlM_cons, act_enter tidy shut, ← self]
    cases opens <;> rfl

/-! ## Wrapping -/

/-- How many sections are open after an act. -/
theorem depth_of_act (tidy : s.Tidy .all) {a : Act} (ok : s.act a = .ok s₁) :
    s₁.held.depth = a.depthAfter s.held.depth := by
  cases mark : a.isMark with
  | false =>
    obtain ⟨-, same, -⟩ := Act.of_not_isMark mark s.held.depth
    rw [same]
    cases depth : s.held.depth with
    | zero => rw [held_of_shut tidy (by rw [Section.isOpen, depth]; rfl) mark ok, depth]
    | succ depth' => rw [held_of_act depth (Act.of_not_isMark mark depth').2.2 ok]
  | true =>
    obtain ⟨opens, rfl⟩ := Act.exists_of_isMark mark
    cases ok
    cases opens with
    | true => rfl
    | false =>
      show (s.markSection false).held.depth = s.held.depth - 1
      unfold markSection Section.leave
      rcases s.held with ⟨_ | _ | depth, b⟩
      · rfl
      · exact congrArg (·.depth) (held_drain (s.holding {}) b)
      · rfl

/-- **Wrapping** acts that come outside sections does not change what a run leads to. -/
theorem run_wrap (tidy : s.Tidy .all) (marked : List (Act × Bool)) :
    s.run (wrap s.held.depth marked) = s.run (marked.map (·.1)) := by
  induction marked generalizing s with
  | nil => rfl
  | cons first marked ih =>
    obtain ⟨a, chosen⟩ := first
    have here : s.run (if chosen && s.held.depth == 0 then wrapped a else [a]) = s.act a := by
      split
      · rename_i outside
        rw [Bool.and_eq_true, beq_iff_eq] at outside
        exact run_wrapped tidy (by rw [Section.isOpen, outside.2]; rfl) a
      · simp only [run, List.foldlM_cons, List.foldlM_nil, bind_pure]
    rw [wrap, run_append, here, List.map_cons, run, List.foldlM_cons]
    cases ran : s.act a with
    | error fault => rfl
    | ok s₁ =>
      rw [← depth_of_act tidy ran]
      exact ih (tidy_of_act tidy ran)

/-! ## Flattening -/

/-- The session in a single section, if any is open. -/
def flat (s : Session) : Session :=
  match s.held.depth with
  | 0 => s
  | _ + 1 => s.holding ⟨1, s.held.burst⟩

theorem flat_of_shut (shut : s.held.isOpen = false) : s.flat = s := by
  rw [flat, show s.held.depth = 0 by simpa [Section.isOpen] using shut]

@[simp] theorem flat_holding (s : Session) (depth : Nat) (b : Burst) :
    (s.holding ⟨depth + 1, b⟩).flat = s.holding ⟨1, b⟩ := rfl

/-- Outside sections an act does what is left of it. -/
theorem act_flat_of_shut (tidy : s.Tidy .all) (shut : s.held.isOpen = false) (a : Act) :
    s.run (if a.isIdleMark s.held.depth then [] else [a]) = (s.act a).map flat := by
  have none := tidy.held_eq shut
  cases mark : a.isMark with
  | false =>
    rw [(Act.of_not_isMark mark _).1]
    show (s.act a).bind Except.ok = _
    cases ran : s.act a with
    | error fault => rfl
    | ok s₁ =>
      have same := held_of_shut tidy shut mark ran
      exact congrArg Except.ok (flat_of_shut (same ▸ shut)).symm
  | true =>
    obtain ⟨opens, rfl⟩ := Act.exists_of_isMark mark
    obtain ⟨s, rfl⟩ : ∃ t : Session, s = t.holding {} := ⟨s, by rw [← none, holding_self]⟩
    cases opens <;> rfl

/-- Inside a section an act does the same as what is left of it in a single section, up to the
number of sections. -/
theorem act_flat_of_isOpen (s : Session) (depth : Nat) (b : Burst) (a : Act) :
    (s.holding ⟨1, b⟩).run (if a.isIdleMark (depth + 1) then [] else [a]) =
      ((s.holding ⟨depth + 1, b⟩).act a).map flat := by
  cases mark : a.isMark with
  | false =>
    rw [(Act.of_not_isMark mark _).1]
    show ((s.holding ⟨1, b⟩).act a).bind Except.ok = _
    by_cases immediate : a.isImmediate = true
    · rw [act_of_isImmediate s _ immediate, act_of_isImmediate s _ immediate]
      cases s.act a <;> rfl
    cases a with
    | receive operation =>
      cases operation with
      | criticalSection _ => cases mark
      | addEntity _ | removeEntity _ | addComponent _ _ | authorityChange _ _ _ => rfl
      | _ => exact absurd rfl immediate
    | announce arrival =>
      show Except.ok ((s.holding ⟨1, b⟩).announce arrival) =
        Except.ok ((s.holding ⟨depth + 1, b⟩).announce arrival).flat
      rw [announce_of_isOpen s rfl, announce_of_isOpen s rfl]
      split <;> rfl
    | _ => exact absurd rfl immediate
  | true =>
    match a, depth with
    | .receive (.criticalSection true), _ => rfl
    | .receive (.criticalSection false), 0 =>
      -- The outermost section closes, and its burst is carried out where none is open.
      have left : ((s.holding {}).drain b).held.isOpen = false := by rw [held_drain]; rfl
      exact congrArg Except.ok (flat_of_shut left).symm
    | .receive (.criticalSection false), _ + 1 => rfl

/-- An act does the same as what is left of it in a single section, up to the number of sections. -/
theorem act_flat (tidy : s.Tidy .all) (a : Act) :
    s.flat.run (if a.isIdleMark s.held.depth then [] else [a]) = (s.act a).map flat := by
  cases depth : s.held.depth with
  | zero =>
    have shut : s.held.isOpen = false := by rw [Section.isOpen, depth]; rfl
    rw [flat_of_shut shut, ← depth]
    exact act_flat_of_shut tidy shut a
  | succ depth' =>
    obtain ⟨s, b, rfl⟩ : ∃ t b, s = holding t ⟨depth' + 1, b⟩ :=
      ⟨s, s.held.burst, by rw [← depth]; rfl⟩
    exact act_flat_of_isOpen s depth' b a

/-- **Flattening** does not change what a run leads to, the sections inside others apart. -/
theorem run_flat (tidy : s.Tidy .all) (acts : List Act) :
    s.flat.run (flatten s.held.depth acts) = (s.run acts).map flat := by
  induction acts generalizing s with
  | nil => rfl
  | cons a acts ih =>
    have split : flatten s.held.depth (a :: acts) =
        (if a.isIdleMark s.held.depth then [] else [a]) ++
          flatten (a.depthAfter s.held.depth) acts := by
      rw [flatten]
      split <;> rfl
    rw [split, run_append, act_flat tidy a, run, List.foldlM_cons]
    cases ran : s.act a with
    | error fault => rfl
    | ok s₁ =>
      rw [← depth_of_act tidy ran]
      exact ih (tidy_of_act tidy ran)

/-! ## Runs grouped anew -/

/-- **Markers only group.** A run that leaves no section open ends in the same session if its idle
marks are left out, and if any of the acts that come outside sections, of either run, are given
sections of their own. -/
theorem run_regrouped {settings : Settings} {protocol : Protocol} {acts : List Act} {s : Session}
    (ok : (start settings protocol).run acts = .ok s) (shut : s.held.isOpen = false) :
    (start settings protocol).run (flatten 0 acts) = .ok s ∧
      ∀ marked : List (Act × Bool),
        marked.map (·.1) = acts ∨ marked.map (·.1) = flatten 0 acts →
          (start settings protocol).run (wrap 0 marked) = .ok s := by
  have tidy : (start settings protocol).Tidy .all := tidy_start settings protocol
  have flattened : (start settings protocol).run (flatten 0 acts) = .ok s := by
    have same := run_flat tidy acts
    rw [ok] at same
    exact same.trans (congrArg Except.ok (flat_of_shut shut))
  refine ⟨flattened, ?_⟩
  rintro marked (rfl | same)
  · exact (run_wrap tidy marked).trans ok
  · exact (run_wrap tidy marked).trans (by rw [same, flattened])

/-- A crate that points at a lever comes in a section inside another one, and the lever is reported
in a second such section. Then the crate goes and comes again outside sections. Two markers close
nothing. -/
def unbalancedMarks : List Act :=
  let crate := (Blueprint.ofClass 1 "Crate").withFields Stock.rootDataComponent
    [.at 5 (.ref (.root 9))]
  [.receive (.criticalSection false), .alter (.placeLocal "Lever"),
    .receive (.criticalSection true)] ++
    crate.sectionOperations.map .receive ++
    [.receive (.criticalSection true), .announce ⟨⟨0, 0⟩, .root 9⟩,
      .receive (.criticalSection false), .receive (.criticalSection false),
      .receive (.criticalSection false), .receive (.removeEntity 1)] ++
    crate.operations.map .receive

theorem run_regrouped_unbalancedMarks :
    ∃ s, (start {} Stock.protocol).run unbalancedMarks = .ok s ∧
      s.world.liveRootsOf 1 = [⟨1, 1⟩] ∧ s.world.field? ⟨1, 1⟩ 5 = some (.object (some ⟨0, 0⟩)) ∧
      (flatten 0 unbalancedMarks).length + 6 = unbalancedMarks.length ∧
      (start {} Stock.protocol).run (flatten 0 unbalancedMarks) = .ok s ∧
      (start {} Stock.protocol).run (wrap 0 (unbalancedMarks.map (·, true))) = .ok s ∧
      (start {} Stock.protocol).run (wrap 0 ((flatten 0 unbalancedMarks).map (·, true))) =
        .ok s := by
  obtain ⟨s, ok, test⟩ := exists_run (start {} Stock.protocol) unbalancedMarks
    (fun s => !s.held.isOpen && (s.world.liveRootsOf 1 == [⟨1, 1⟩] &&
      s.world.field? ⟨1, 1⟩ 5 == some (.object (some ⟨0, 0⟩)))) (by decide +kernel)
  simp only [Bool.and_eq_true, Bool.not_eq_true', beq_iff_eq] at test
  obtain ⟨shut, built, filled⟩ := test
  obtain ⟨flattened, regrouped⟩ := run_regrouped ok shut
  have same (acts : List Act) : (acts.map (·, true)).map (·.1) = acts := by
    rw [List.map_map]
    exact List.map_id acts
  exact ⟨s, ok, built, filled, by decide +kernel, flattened, regrouped _ (.inl (same _)),
    regrouped _ (.inr (same _))⟩

end Session

end Replica
