import Replica.Proofs.Graph.Standing
import Replica.Proofs.Section.Reordering

/-! # Whether a replay agrees with the directory

When an arrival is replayed, single references are filled with the object that arrives, and structs
with what the directory holds for each of their references. The two agree as long as the directory
leads the reference to the object. It does so whenever an entity is built or an arrival is replayed
as it is announced. An arrival that an open section holds back is replayed later, when another
announcement, a construction or a removal may have taken the reference or the object away; then the
single references are filled with an object that the reference no longer leads to.

Main definitions:
* `Arrival.Rivals` — an arrival takes the reference or the object of another one away.
* `Moment.Displaces` — in a moment a reference ceases to lead to an object.
* `Session.Announced` — an arrival was held back, and leads to its object or was displaced since.
* `Session.replay_agrees_unless_displaced` — what a replay fills in, at every moment of a run. -/

namespace Replica

/-! ## Displaced arrivals -/

/-- An arrival **rivals** another one if it takes away the reference or the object. -/
def Arrival.Rivals (b a : Arrival) : Prop :=
  b ≠ a ∧ (b.reference = a.reference ∨ b.object = a.object)

/-- What is local stays so when pairs are registered none of which takes the reference or the object
away. -/
theorem Directory.Paired.handle?_of_no_rival {d : Directory} (p : d.Paired) {a : Arrival}
    (known : d.handle? a.reference = some a.object) (arrivals : List Arrival)
    (none : ∀ b ∈ arrivals, ¬b.Rivals a) :
    (arrivals.foldl (fun d b => d.register b.reference b.object) d).handle? a.reference =
      some a.object := by
  induction arrivals generalizing d with
  | nil => exact known
  | cons b rest ih =>
    refine ih (p.register b.reference b.object) ?_ fun x mem => none x (List.mem_cons_of_mem _ mem)
    by_cases same : b = a
    · rw [same, handle?_register_self]
    · have apart : b.reference ≠ a.reference ∧ b.object ≠ a.object := by
        rw [← not_or]
        exact fun takes => none b List.mem_cons_self ⟨same, takes⟩
      rw [p.handle?_register, if_neg apart.1, if_neg, known]
      rw [known, Option.some.injEq]
      exact Ne.symm apart.2

/-- A moment **displaces** an arrival if its reference leads to its object before and no more
afterwards: because an arrival that rivals it is announced, or is among the objects of an entity
that is built, or because the entity of the reference is taken down. -/
structure Moment.Displaces (v : Moment) (a : Arrival) : Prop where
  /-- The reference leads to the object before. -/
  leads : v.session.resolver a.reference = some a.object
  /-- It does no more afterwards. -/
  loses : v.after.resolver a.reference ≠ some a.object
  /-- What the move does. -/
  cause : (∃ b : Arrival, b.Rivals a ∧ (v.move = .learn b ∨ ∃ draft channel, v.move = .found draft ∧
    (v.session.found draft).1 = some channel ∧ b ∈ channel.arrivals)) ∨
      v.move = .remove a.reference.entity

/-- A move in which a reference ceases to lead to an object displaces the arrival. -/
theorem Work.displaces_of_loses {w : Work} {m : Move} {a : Arrival}
    (paired : w.session.directory.Paired)
    (leads : w.session.resolver a.reference = some a.object)
    (loses : (w.perform m).session.resolver a.reference ≠ some a.object) :
    (⟨w.session, m⟩ : Moment).Displaces a := by
  refine ⟨leads, by rwa [w.session_perform] at loses, ?_⟩
  have kept : (w.perform m).session.directory ≠ w.session.directory := by
    intro same
    rw [Session.resolver, same] at loses
    exact loses leads
  have rivals (arrivals : List Arrival) (registered : (w.perform m).session.directory =
      arrivals.foldl (fun d b => d.register b.reference b.object) w.session.directory) :
      ∃ b ∈ arrivals, b.Rivals a := by
    by_contra none
    refine loses ?_
    rw [Session.resolver, registered]
    exact paired.handle?_of_no_rival leads arrivals fun b mem takes => none ⟨b, mem, takes⟩
  -- The directory changes only where arrivals are registered, and one of them is a rival, or where
  -- the names of an entity are dropped.
  cases m with
  | learn b =>
    obtain ⟨held, same⟩ := w.exists_perform_learn b
    obtain ⟨b, mem, takes⟩ := rivals [b] (by rw [same]; rfl)
    cases List.mem_singleton.mp mem
    exact .inl ⟨b, takes, .inl rfl⟩
  | found draft =>
    cases step : w.session.found draft with
    | mk built s =>
      have performed : (w.perform (.found draft)).session = s := by
        simp only [perform, step]
        split
        · rename_i same
          cases same
          rfl
        · rename_i same
          cases same
          rfl
      cases built with
      | none =>
        refine absurd ?_ kept
        rw [performed]
        rcases Session.found_eq_none step with rfl | ⟨-, world, rfl⟩ <;> rfl
      | some channel =>
        obtain ⟨_, _, _, _, -, -, -, same⟩ := Session.found_eq_some.mp step
        obtain ⟨b, mem, takes⟩ := rivals channel.arrivals (by
          rw [performed, same, Channel.arrivals, List.foldl_map])
        exact .inl ⟨b, takes, .inr ⟨draft, channel, rfl, by rw [step], mem⟩⟩
  | remove entity =>
    refine .inr (congrArg Move.remove ?_)
    by_contra other
    refine loses ?_
    show (w.session.remove entity).resolver a.reference = _
    rcases w.session.remove_cases entity with ⟨-, same⟩ | ⟨-, same⟩ | ⟨channel, -, same⟩
    · rw [same]
      exact leads
    · rw [same]
      exact leads
    · rw [same]
      show (w.session.directory.unregisterEntity entity).handle? a.reference = _
      rw [Directory.handle?_unregisterEntity, if_neg (Ne.symm other)]
      exact leads
  | _ => exact absurd (w.directory_perform id) kept

/-! ## Arrivals that were announced -/

/-- In a moment an arrival is **held back**: it is announced while a section that holds arrivals
back is open. -/
def Moment.HoldsBack (u : Moment) (a : Arrival) : Prop :=
  u.move = .learn a ∧ u.session.held.isOpen = true ∧ u.session.settings.holdArrivals = true

/-- An arrival was **announced** in a past that has led to a session, if it was held back in one of
its moments, and its reference leads to its object or was displaced since. -/
def Session.Announced (s : Session) (past : List Moment) (a : Arrival) : Prop :=
  ∃ early u middle, past = early ++ u :: middle ∧ u.HoldsBack a ∧
    (s.resolver a.reference = some a.object ∨ ∃ v ∈ middle, v.Displaces a)

namespace Session.Announced

variable {w : Work} {past : List Moment} {a : Arrival}

/-- What was announced stays so in every move. -/
theorem perform (h : w.session.Announced past a) (paired : w.session.directory.Paired) (m : Move) :
    (w.perform m).session.Announced (past ++ [⟨w.session, m⟩]) a := by
  obtain ⟨early, u, middle, rfl, holds, since⟩ := h
  refine ⟨early, u, middle ++ [⟨w.session, m⟩], by simp, holds, ?_⟩
  rcases since with leads | ⟨v, mem, displaces⟩
  · by_cases still : (w.perform m).session.resolver a.reference = some a.object
    · exact .inl still
    · exact .inr ⟨_, List.mem_append_right _ (List.mem_singleton.mpr rfl),
        Work.displaces_of_loses paired leads still⟩
  · exact .inr ⟨v, List.mem_append_left _ mem, displaces⟩

/-- So it does in several moves. -/
theorem trail (h : w.session.Announced past a) (paired : w.session.directory.Paired)
    (ms : List Move) :
    (ms.foldl Work.perform w).session.Announced (past ++ w.trail ms) a := by
  induction ms generalizing w past with
  | nil => simpa [Work.trail] using h
  | cons m ms ih =>
    have later := ih (h.perform paired m) (Work.paired_perform paired m)
    rwa [List.append_assoc] at later

end Session.Announced

/-- An arrival that is held back or due after a move was so before, or the move makes it known. -/
theorem Work.held_or_due_of_perform {w : Work} {m : Move} {a : Arrival}
    (mem : a ∈ (w.perform m).session.held.burst.arrivals ∨ a ∈ (w.perform m).due)
    (builds : ∀ draft, m ≠ .found draft) :
    (a ∈ w.session.held.burst.arrivals ∨ a ∈ w.due) ∨ m = .learn a := by
  -- The end of a section makes due what was held back; only what is learnt is new.
  cases m with
  | mark opens =>
    cases opens with
    | true => exact .inl mem
    | false =>
      simp only [perform] at mem
      rcases w.session.held.leave_cases with
        ⟨-, left⟩ | ⟨-, left⟩ | ⟨-, inner, -, same, left⟩
      · rw [left] at mem
        exact .inl mem
      · rw [left] at mem
        rcases mem with held | due
        · cases held
        · exact .inl (List.mem_append.mp due)
      · rw [left] at mem
        exact .inl (mem.imp_left fun held => same ▸ held)
  | hold operation => exact .inl (mem.imp_left fun held => Burst.arrivals_keep _ operation ▸ held)
  | learn b =>
    simp only [perform] at mem
    split at mem
    · rcases mem with held | due
      · rcases List.mem_append.mp held with before | new
        · exact .inl (.inl before)
        · exact .inr (by rw [List.mem_singleton.mp new])
      · exact .inl (.inr due)
    · rcases mem with held | due
      · exact .inl (.inl held)
      · rcases List.mem_cons.mp due with rfl | before
        · exact .inr rfl
        · exact .inl (.inr before)
  | found draft => exact absurd rfl (builds draft)
  | draft _ | settle _ _ _ | alter _ | complete _ => exact .inl mem
  | populate channel data =>
    simp only [perform, (Session.writes_populate channel _ data).routine.held] at mem
    exact .inl mem
  | authorize change =>
    simp only [perform, Session.changeAuthority] at mem
    split at mem <;> exact .inl mem
  | write entity data =>
    simp only [perform, (Session.writes_write _ entity data).routine.held] at mem
    exact .inl mem
  | deliver call =>
    simp only [perform, (Session.routine_deliverCall _ call).held] at mem
    exact .inl mem
  | replay arrival =>
    simp only [perform, (Session.routine_resolveNow _ arrival).held] at mem
    exact .inl (mem.imp_right List.mem_of_mem_erase)
  | remove entity =>
    simp only [perform] at mem
    rcases w.session.remove_cases entity with ⟨-, same⟩ | ⟨-, same⟩ | ⟨channel, -, same⟩
    · rw [same] at mem
      exact .inl mem
    · rw [same] at mem
      exact .inl mem
    · rw [same] at mem
      exact .inl mem

/-! ## Replays of a course -/

/-- A moment **names** what it builds if the objects of the entity are local under their
references. -/
def Moment.Names (u : Moment) : Prop :=
  ∀ draft channel s, u.move = .found draft → u.session.found draft = (some channel, s) →
    ∀ a ∈ channel.arrivals, s.resolver a.reference = some a.object

/-- After a past, the replays among some moments are **accounted for** if the reference of each
leads to its object, or its arrival was announced. -/
def Accounted (past : List Moment) : List Moment → Prop
  | [] => True
  | m :: later => (∀ a, m.move = .replay a →
      m.session.resolver a.reference = some a.object ∨ m.session.Announced past a) ∧
    Accounted (past ++ [m]) later

theorem accounted_append {past early late : List Moment} :
    Accounted past (early ++ late) ↔ Accounted past early ∧ Accounted (past ++ early) late := by
  induction early generalizing past with
  | nil => simp [Accounted]
  | cons m early ih => simp [Accounted, ih, and_assoc]

/-- All that is held back or due, and some arrivals besides, are **covered** if they were
announced. -/
def Work.Covers (w : Work) (others : List Arrival) (past : List Moment) : Prop :=
  ∀ a, (a ∈ w.session.held.burst.arrivals ∨ a ∈ w.due) ∨ a ∈ others → w.session.Announced past a

/-- What is covered stays so in every move that builds nothing and learns nothing else. -/
theorem Work.Covers.perform {w : Work} {others : List Arrival} {past : List Moment}
    (h : w.Covers others past) (paired : w.session.directory.Paired) {m : Move}
    (builds : ∀ draft, m ≠ .found draft) (learns : ∀ a, m = .learn a → a ∈ others) :
    (w.perform m).Covers others (past ++ [⟨w.session, m⟩]) := by
  intro a mem
  refine (h a ?_).perform paired m
  rcases mem with now | other
  · rcases Work.held_or_due_of_perform now builds with before | learnt
    · exact .inl before
    · exact .inr (learns a learnt)
  · exact .inr other

/-- Moves that rename nothing keep the directory all along. -/
theorem Work.directory_of_mem_trail {w : Work} {ms : List Move} (keep : ∀ m ∈ ms, ¬m.Renames)
    {u : Moment} (mem : u ∈ w.trail ms) : u.session.directory = w.session.directory := by
  induction ms generalizing w with
  | nil => cases mem
  | cons m ms ih =>
    rcases List.mem_cons.mp mem with rfl | later
    · rfl
    · exact (ih (fun m' mem' => keep m' (List.mem_cons_of_mem _ mem')) later).trans
        (w.directory_perform (keep m List.mem_cons_self))

/-- Moments are accounted for if the reference of every replay leads to its object. -/
theorem accounted_of_forall {past moments : List Moment}
    (all : ∀ u ∈ moments, ∀ a, u.move = .replay a →
      u.session.resolver a.reference = some a.object) : Accounted past moments := by
  induction moments generalizing past with
  | nil => trivial
  | cons m later ih =>
    exact ⟨fun a replays => .inl (all m List.mem_cons_self a replays),
      ih fun u mem => all u (List.mem_cons_of_mem _ mem)⟩

namespace Session

variable {s s' : Session}

/-- **A construction agrees with the directory**: its objects are local under their references when
they are replayed. -/
theorem accounted_construct (due : List Arrival) (draft : Draft) (past : List Moment)
    (names : (⟨s, .found draft⟩ : Moment).Names) :
    Accounted past ((⟨s, due⟩ : Work).trail (s.constructMoves draft)) := by
  refine accounted_of_forall fun u mem a replays => ?_
  rw [constructMoves, Work.trail] at mem
  rcases List.mem_cons.mp mem with rfl | later
  · cases replays
  · cases step : s.found draft with
    | mk built s₁ =>
      cases built with
      | none =>
        rw [step] at later
        cases later
      | some channel =>
        have performed : (⟨s, due⟩ : Work).perform (.found draft) =
            ⟨s₁, channel.arrivals ++ due⟩ := by
          simp only [Work.perform, step]
        rw [step, performed] at later
        dsimp only at later
        -- After the objects are made known nothing is renamed until the construction is over.
        have keep : ∀ m ∈ draft.components.map (Move.populate channel) ++
            .complete channel :: draft.changes.map Move.authorize ++
              channel.arrivals.map Move.replay, ¬m.Renames := by
          intro m mem
          simp only [List.mem_append, List.mem_cons, List.mem_map] at mem
          rcases mem with (⟨_, -, rfl⟩ | rfl | ⟨_, -, rfl⟩) | ⟨_, -, rfl⟩ <;> exact id
        have same := Work.directory_of_mem_trail keep later
        have listed := List.mem_map_of_mem (f := Moment.move) later
        rw [Work.map_move_trail, replays] at listed
        have arrives : a ∈ channel.arrivals := by simpa using listed
        rw [resolver, same]
        exact names draft channel s₁ rfl step a arrives

end Session

/-- Strides that learn nothing but arrivals that are covered are accounted for, and keep what is
covered. -/
theorem Strides.accounted {w w' : Work} {ms : List Move} (h : Strides w ms w')
    (paired : w.session.directory.Paired) {others : List Arrival}
    (learns : ∀ a, .learn a ∈ ms → a ∈ others) (names : ∀ u ∈ w.trail ms, u.Names)
    {past : List Moment} (covers : w.Covers others past) :
    Accounted past (w.trail ms) ∧ w'.Covers others (past ++ w.trail ms) := by
  induction h generalizing past with
  | nil w => exact ⟨trivial, by simpa [Work.trail] using covers⟩
  | @move w w' m ms apt alone _ ih =>
    have builds : ∀ draft, m ≠ .found draft := by
      rintro draft rfl
      exact alone
    obtain ⟨accounted, covers'⟩ := ih (Work.paired_perform paired m)
      (fun a mem => learns a (List.mem_cons_of_mem _ mem))
      (fun u mem => names u (List.mem_cons_of_mem _ mem))
      (covers.perform paired builds fun a same => learns a (same ▸ List.mem_cons_self))
    refine ⟨⟨fun a replays => .inr ?_, accounted⟩, by rwa [List.append_assoc] at covers'⟩
    cases replays
    exact covers a (.inl (.inr apt))
  | @build s due draft ms w' unbuilt undrafted _ ih =>
    have carried : Carries .all ⟨s, due⟩ (s.constructMoves draft) ⟨s.construct draft, due⟩ :=
      Session.carries_construct due unbuilt undrafted fun _ _ => trivial
    have led := carried.foldl_perform
    rw [Work.trail_append, led] at names ⊢
    have built : (⟨s.construct draft, due⟩ : Work).Covers others
        (past ++ (⟨s, due⟩ : Work).trail (s.constructMoves draft)) := by
      intro a mem
      have announced := (covers a (by rwa [s.held_construct draft] at mem)).trail paired
        (s.constructMoves draft)
      rwa [led] at announced
    obtain ⟨accounted, covers'⟩ := ih (carried.paired paired)
      (fun a mem => learns a (List.mem_append_right _ mem))
      (fun u mem => names u (List.mem_append_right _ mem)) built
    refine ⟨accounted_append.mpr ⟨Session.accounted_construct due draft past ?_, accounted⟩,
      by rwa [List.append_assoc] at covers'⟩
    exact names _ (List.mem_append_left _ List.mem_cons_self)

/-- So are other moves that build nothing. -/
theorem Carries.accounted {w w' : Work} {ms : List Move} (h : Carries .all w ms w')
    (paired : w.session.directory.Paired) {others : List Arrival}
    (learns : ∀ a, .learn a ∈ ms → a ∈ others) (builds : ∀ draft, .found draft ∉ ms)
    {past : List Moment} (covers : w.Covers others past) :
    Accounted past (w.trail ms) ∧ w'.Covers others (past ++ w.trail ms) := by
  induction h generalizing past with
  | nil w => exact ⟨trivial, by simpa [Work.trail] using covers⟩
  | @cons w w' m ms apt _ ih =>
    obtain ⟨accounted, covers'⟩ := ih (Work.paired_perform paired m)
      (fun a mem => learns a (List.mem_cons_of_mem _ mem))
      (fun draft mem => builds draft (List.mem_cons_of_mem _ mem))
      (covers.perform paired (fun draft same => builds draft (same ▸ List.mem_cons_self))
        fun a same => learns a (same ▸ List.mem_cons_self))
    refine ⟨⟨fun a replays => .inr ?_, accounted⟩, by rwa [List.append_assoc] at covers'⟩
    cases replays
    exact covers a (.inl (.inr apt))

/-- What some moves make known lies in the scope. -/
theorem Carries.within_of_learn_mem {scope : Scope} {w w' : Work} {ms : List Move}
    (h : Carries scope w ms w') {a : Arrival} (mem : .learn a ∈ ms) : scope.arrival a := by
  induction h with
  | nil w => cases mem
  | cons apt _ ih =>
    rcases List.mem_cons.mp mem with rfl | later
    · exact apt
    · exact ih later

namespace Session

variable {s s' : Session}

/-- An act that is no announcement makes nothing known but what is held back, and entities that it
builds. -/
theorem held_of_learn_mem (tidy : s.Tidy .all) {act : Act} (other : ∀ a, act ≠ .announce a)
    (ok : s.act act = .ok s') {a : Arrival} (mem : .learn a ∈ s.moves act) :
    a ∈ s.held.burst.arrivals := by
  -- The session is tidy in the scope of a host that reports only what is held back already.
  let scope : Scope := { Scope.all with arrival := (· ∈ s.held.burst.arrivals) }
  have tidy' : s.Tidy scope := ⟨tidy.drafts, tidy.channels,
    ⟨tidy.burst.removed, tidy.burst.components, fun _ mem => mem⟩, tidy.closed⟩
  have within : act.Within scope := by
    cases act with
    | receive operation => exact operation.within_all
    | announce a => exact absurd rfl (other a)
    | _ => trivial
  exact (carries_act tidy' within ok).within_of_learn_mem mem

/-- The replays of an announcement are accounted for, and it covers what it holds back. -/
theorem accounted_announce (paired : s.directory.Paired) (arrival : Arrival) {past : List Moment}
    (covers : s.idle.Covers [] past) :
    Accounted past (s.idle.trail (s.moves (.announce arrival))) ∧
      (s.announce arrival).idle.Covers [] (past ++ s.idle.trail (s.moves (.announce arrival))) := by
  have carried : Carries .all s.idle (s.moves (.announce arrival)) (s.announce arrival).idle :=
    carries_announce trivial
  have led := carried.foldl_perform
  have learnt : (s.idle.perform (.learn arrival)).session.resolver arrival.reference =
      some arrival.object := by
    obtain ⟨held, same⟩ := s.idle.exists_perform_learn arrival
    rw [same]
    exact Directory.handle?_register_self _ _ _
  have before : ∀ a ∈ s.held.burst.arrivals, (s.announce arrival).Announced
      (past ++ s.idle.trail (s.moves (.announce arrival))) a := by
    intro a held
    have announced := (covers a (.inl (.inl held))).trail paired (s.moves (.announce arrival))
    rwa [led] at announced
  by_cases holds : (s.held.isOpen && s.settings.holdArrivals) = true
  · have moves : s.moves (.announce arrival) = [.learn arrival] :=
      congrArg (_ :: ·) (if_pos holds)
    have told : s.announce arrival = _ := if_pos holds
    rw [moves] at led before ⊢
    refine ⟨accounted_of_forall fun u mem a replays => ?_, fun a mem => ?_⟩
    · cases List.mem_singleton.mp mem
      cases replays
    rcases mem with (held | due) | other
    · have held : a ∈ (s.announce arrival).held.burst.arrivals := held
      rw [told] at held
      rcases List.mem_append.mp held with old | new
      · exact before a old
      · -- The arrival that is announced leads to its object, and nothing has happened since.
        cases List.mem_singleton.mp new
        refine ⟨past, ⟨s, .learn arrival⟩, [], rfl, ⟨rfl, Bool.and_eq_true_iff.mp holds⟩, .inl ?_⟩
        rw [← learnt]
        exact congrArg (fun w : Work => w.session.resolver arrival.reference) led.symm
    · cases due
    · cases other
  · have moves : s.moves (.announce arrival) = [.learn arrival, .replay arrival] :=
      congrArg (_ :: ·) (if_neg holds)
    have told : s.announce arrival = _ := if_neg holds
    rw [moves] at before ⊢
    refine ⟨accounted_of_forall fun u mem a replays => ?_, fun a mem => ?_⟩
    · rcases List.mem_cons.mp mem with rfl | later
      · cases replays
      · cases List.mem_singleton.mp later
        cases replays
        exact learnt
    · rcases mem with (held | due) | other
      · have held : a ∈ (s.announce arrival).held.burst.arrivals := held
        rw [told, (routine_resolveNow _ arrival).held] at held
        exact before a held
      · cases due
      · cases other

/-- The replays of every act are accounted for, and it covers what is held back then. -/
theorem accounted_act (tidy : s.Tidy .all) (paired : s.directory.Paired) {act : Act}
    (ok : s.act act = .ok s') (names : ∀ u ∈ s.idle.trail (s.moves act), u.Names)
    {past : List Moment} (covers : s.idle.Covers [] past) :
    Accounted past (s.idle.trail (s.moves act)) ∧
      s'.idle.Covers [] (past ++ s.idle.trail (s.moves act)) := by
  by_cases other : ∀ a, act ≠ .announce a
  · have learns : ∀ a, .learn a ∈ s.moves act → a ∈ s.held.burst.arrivals :=
      fun a mem => held_of_learn_mem tidy other ok mem
    have covers' : s.idle.Covers s.held.burst.arrivals past := by
      rintro a (now | held)
      · exact covers a (.inl now)
      · exact covers a (.inl (.inl held))
    have both : Accounted past (s.idle.trail (s.moves act)) ∧
        s'.idle.Covers s.held.burst.arrivals (past ++ s.idle.trail (s.moves act)) := by
      cases settles : act.settles with
      | false => exact (strides_act tidy settles ok).accounted paired learns names covers'
      | true =>
        exact (carries_act tidy act.within_all ok).accounted paired learns
          (found_notMem_moves settles) covers'
    exact ⟨both.1, fun a mem => both.2 a (.inl (mem.resolve_right List.not_mem_nil))⟩
  · obtain ⟨arrival, announces⟩ := not_forall.mp other
    obtain rfl := not_not.mp announces
    cases ok
    exact accounted_announce paired arrival covers

/-- **The replays of a run are accounted for**, if all that is built is named. -/
theorem accounted_course (tidy : s.Tidy .all) (paired : s.directory.Paired) {acts : List Act}
    (ok : s.run acts = .ok s') (names : ∀ u ∈ s.course acts, u.Names) {past : List Moment}
    (covers : s.idle.Covers [] past) : Accounted past (s.course acts) := by
  induction acts generalizing s past with
  | nil => trivial
  | cons act acts ih =>
    obtain ⟨s₁, first, rest⟩ := run_cons.mp ok
    simp only [course, first] at names ⊢
    obtain ⟨accounted, covers'⟩ := accounted_act tidy paired first
      (fun u mem => names u (List.mem_append_left _ mem)) covers
    have carried := carries_act tidy act.within_all first
    exact accounted_append.mpr ⟨accounted, ih (carried.tidy tidy) (carried.paired paired) rest
      (fun u mem => names u (List.mem_append_right _ mem)) covers'⟩

/-! ## Runs -/

variable {settings : Settings} {protocol : Protocol} {acts : List Act}

/-- **Induction up to a moment of a run** that issues fewer handles than there are generations: what
holds at the start and is kept by every apt move holds of the session of a moment and of the moments
before it. -/
theorem issued_split_induction {scope : Scope} {I : Session → List Moment → Prop}
    (step : ∀ (w : Work) (past : List Moment) (m : Move), w.session.Tidy scope → m.Apt scope w →
      w.session.Issued →
      w.session.world.pool.issued + (⟨w.session, m⟩ : Moment).allocations < 2 ^ 32 →
      I w.session past → I (w.perform m).session (past ++ [⟨w.session, m⟩]))
    (first : I (start settings protocol) []) (within : ∀ a ∈ acts, a.Within scope)
    (ok : (start settings protocol).run acts = .ok s)
    (few : allocations ((start settings protocol).course acts) < 2 ^ 32)
    {before after : List Moment} {m : Moment}
    (split : (start settings protocol).course acts = before ++ m :: after) :
    m.session.Tidy scope ∧ m.session.Issued ∧
      m.session.world.pool.issued + m.allocations < 2 ^ 32 ∧ I m.session before := by
  have invariant := issued_course_induction
    (I := fun s past => I s past ∧ ∀ before m after, past = before ++ m :: after →
      m.session.Tidy scope ∧ m.session.Issued ∧
        m.session.world.pool.issued + m.allocations < 2 ^ 32 ∧ I m.session before)
    (fun w past move tidy apt issued few ⟨now, earlier⟩ => by
      refine ⟨step w past move tidy apt issued few now, fun before m after split => ?_⟩
      rcases concat_eq_split.mp split with ⟨-, rfl, rfl⟩ | ⟨rest, -, split⟩
      · exact ⟨tidy, issued, few, now⟩
      · exact earlier before m rest split)
    ⟨first, fun before m after split => by simp at split⟩ within ok few
  exact invariant.2.2 before m after split

/-- A run that issues few handles names what it builds. -/
theorem names_of_run (ok : (start settings protocol).run acts = .ok s)
    (few : allocations ((start settings protocol).course acts) < 2 ^ 32) :
    ∀ u ∈ (start settings protocol).course acts, u.Names := by
  intro u mem draft channel s₁ builds step a arrives
  obtain ⟨before, after, split⟩ := List.append_of_mem mem
  obtain ⟨tidy, issued, left, paired, lists⟩ := issued_split_induction
    (I := fun s _ => s.directory.Paired ∧ s.ListsMembers)
    (fun w _ m tidy apt _ _ ⟨paired, lists⟩ =>
      ⟨w.paired_perform paired m, apt.listsMembers tidy lists⟩)
    ⟨Directory.paired_empty, .start settings protocol⟩ (fun a _ => a.within_all) ok few split
  obtain ⟨session, move⟩ := u
  obtain rfl : move = .found draft := builds
  exact (Settled.found ⟨tidy, paired, lists, issued⟩ step (Nat.le_of_lt left)).known a arrives

/-- **What a replay fills in**, at every moment of a run that issues fewer handles than there are
generations at which an arrival is replayed. The directory stays as it is. Every position that waits
for the reference is filled in its place, inside arrays as well: a single reference with the object
that arrives, a struct with what the directory holds. So the place agrees with the directory just if
it is a struct's, or the directory leads the reference to the object. Every position of a live
object has its place, if no payload before has left a value waiting that the same payload has
replaced by one that waits for nothing. And the directory leads the reference to the object, unless
the arrival was held back by an open section and displaced before it was replayed: by another
announcement, a construction or a removal. -/
theorem replay_agrees_unless_displaced (reached : (start settings protocol).run acts = .ok s)
    (few : allocations ((start settings protocol).course acts) < 2 ^ 32)
    {before after : List Moment} {m : Moment}
    (split : (start settings protocol).course acts = before ++ m :: after) {a : Arrival}
    (replays : m.move = .replay a) :
    (m.session.resolveNow a).resolver = m.session.resolver ∧
    (∀ (t : Subscriber) (inner : Outstanding) (place : List Offset),
      inner.ParkedAt (m.session.waitlist.parkedOf t) place → ¬inner.IsArray →
      a.reference ∈ inner.references → (m.session.world.at? t.object place).isSome →
      ∃ v, inner.value? = some v ∧
        (m.session.resolveNow a).world.at? t.object place =
          some (v.localize (inner.takes m.session.resolver a.object)) ∧
        ((m.session.resolveNow a).world.at? t.object place =
            some (v.localize m.session.resolver) ↔
          inner.IsStruct ∨ m.session.resolver a.reference = some a.object)) ∧
    ((∀ u ∈ before, ∀ h, Assignment.Conclusive u.session.resolver (u.appliedTo h)) →
      m.session.Seated) ∧
    (m.session.resolver a.reference = some a.object ∨ ∃ early u middle,
      before = early ++ u :: middle ∧ u.HoldsBack a ∧ ∃ v ∈ middle, v.Displaces a) := by
  obtain ⟨-, -, -, ⟨owned, housed⟩, paired, lists, sound, seated⟩ := issued_split_induction
    (I := fun s past => (s.Owned ∧ s.Housed) ∧ s.directory.Paired ∧ s.ListsMembers ∧
      s.waitlist.IsSound ∧
        ((∀ u ∈ past, ∀ h, Assignment.Conclusive u.session.resolver (u.appliedTo h)) → s.Seated))
    (fun w past m tidy apt issued few ⟨⟨owned, housed⟩, paired, lists, sound, seated⟩ =>
      ⟨⟨apt.owned tidy owned few, apt.housed tidy owned housed few⟩, w.paired_perform paired m,
        apt.listsMembers tidy lists, Work.isSound_perform sound m, fun conclusive => by
          rw [List.forall_mem_append, List.forall_mem_singleton] at conclusive
          exact apt.seated ⟨tidy, paired, lists, issued⟩ owned housed few sound conclusive.2
            (seated conclusive.1)⟩)
    ⟨⟨.start settings protocol, .start settings protocol⟩, Directory.paired_empty,
      .start settings protocol, Waitlist.isSound_empty,
      fun _ t _ => by
        rw [show (start settings protocol).waitlist.parkedOf t = ∅ from by
          simp [start, Waitlist.parkedOf, Waitlist.empty]]
        exact World.seats_empty _ _⟩
    (fun a _ => a.within_all) reached few split
  refine ⟨congrArg Directory.handle? (routine_resolveNow m.session a).directory,
    fun t inner place parked whole waits there => ?_, seated, ?_⟩
  · obtain ⟨v, spells⟩ := Outstanding.exists_value (parked.isSound (sound t)) whole
    obtain ⟨old, there⟩ := Option.isSome_iff_exists.mp there
    have member := lists.members t parked.ne_empty
    -- The calls that go on with the arrival leave the object as the resolution has filled it.
    have filled : (m.session.resolveNow a).world.at? t.object place =
        some (v.localize (inner.takes m.session.resolver a.object)) :=
      ((untouched_resolveNow m.session a t).at? place).trans
        (Update.fills_resolve lists.exact.coherent (alone_of_member owned lists member) _ _ spells
          waits parked (sound t) there)
    refine ⟨v, spells, filled, ?_⟩
    rw [filled, Option.some.injEq]
    exact Outstanding.localize_takes_iff spells waits _ _
  · have accounted : Accounted [] ((start settings protocol).course acts) :=
      accounted_course (tidy_start settings protocol) Directory.paired_empty reached
        (names_of_run reached few) fun a mem => by
          rcases mem with (held | due) | other
          · cases held
          · cases due
          · cases other
    rw [split] at accounted
    rcases (accounted_append.mp accounted).2.1 a replays with leads | announced
    · exact .inl leads
    · obtain ⟨early, u, middle, past, holds, leads | displaced⟩ := announced
      · exact .inl leads
      · exact .inr ⟨early, u, middle, past, holds, displaced⟩

/-- Two fields of a crate wait for an object, one of them inside a struct. Then two objects are
announced under the same reference, while a section is open. -/
def twiceAnnounced : List Act :=
  ((Blueprint.ofClass 1 "Crate").operations ++
    [Operation.fieldUpdate 1 Stock.rootDataComponent
      [.at 5 (.ref (.root 7)), .at 6 (.struct [.ref (.root 7)])]]).map .receive ++
  [.alter (.placeLocal "Crate"), .alter (.placeLocal "Crate"), .receive (.criticalSection true),
    .announce ⟨⟨1, 0⟩, .root 7⟩, .announce ⟨⟨2, 0⟩, .root 7⟩, .receive (.criticalSection false)]

/-- The moment at which the first announcement is replayed. -/
def firstReplayed : Moment :=
  ((start {} Stock.protocol).course twiceAnnounced).get ⟨15, by decide +kernel⟩

theorem move_firstReplayed : firstReplayed.move = .replay ⟨⟨1, 0⟩, .root 7⟩ :=
  Move.brings?_eq_some.mp (by decide +kernel)

/-- By then the directory holds the second object, and so does the struct afterwards; the other
field is filled with the first object, and stays so. -/
theorem field_twiceAnnounced :
    firstReplayed ∈ (start {} Stock.protocol).course twiceAnnounced ∧
      firstReplayed.move = .replay ⟨⟨1, 0⟩, .root 7⟩ ∧
      firstReplayed.session.resolver (.root 7) = some ⟨2, 0⟩ ∧
      firstReplayed.after.world.field? ⟨0, 0⟩ 6 = some (.struct [.object (some ⟨2, 0⟩)]) ∧
      firstReplayed.after.world.field? ⟨0, 0⟩ 5 = some (.object (some ⟨1, 0⟩)) ∧
      ∃ s, (start {} Stock.protocol).run twiceAnnounced = .ok s ∧
        s.resolver (.root 7) = some ⟨2, 0⟩ ∧
        s.world.field? ⟨0, 0⟩ 5 = some (.object (some ⟨1, 0⟩)) := by
  obtain ⟨s, ok, test⟩ := exists_run (start {} Stock.protocol) twiceAnnounced
    (fun s => s.resolver (.root 7) == some ⟨2, 0⟩ &&
      s.world.field? ⟨0, 0⟩ 5 == some (.object (some ⟨1, 0⟩))) (by decide +kernel)
  simp only [Bool.and_eq_true, beq_iff_eq] at test
  exact ⟨List.get_mem _ _, move_firstReplayed, by decide +kernel, by decide +kernel,
    by decide +kernel, s, ok, test.1, test.2⟩

/-- The field is filled in its place, because the first announcement was displaced before. -/
theorem replay_agrees_unless_displaced_twiceAnnounced :
    (firstReplayed.session.resolveNow ⟨⟨1, 0⟩, .root 7⟩).world.at? ⟨0, 0⟩ [5] =
        some (.object (some ⟨1, 0⟩)) ∧
      ∃ v ∈ (start {} Stock.protocol).course twiceAnnounced,
        v.Displaces ⟨⟨1, 0⟩, .root 7⟩ := by
  obtain ⟨s, reached, -⟩ := exists_run (start {} Stock.protocol) twiceAnnounced (fun _ => true)
    (by decide +kernel)
  have split : (start {} Stock.protocol).course twiceAnnounced =
      ((start {} Stock.protocol).course twiceAnnounced).take 15 ++ firstReplayed ::
        ((start {} Stock.protocol).course twiceAnnounced).drop 16 := by
    rw [firstReplayed, List.get_eq_getElem, List.getElem_cons_drop, List.take_append_drop]
  obtain ⟨-, fills, -, agrees⟩ :=
    replay_agrees_unless_displaced reached (by decide +kernel) split move_firstReplayed
  let parked := firstReplayed.session.waitlist.parkedOf ⟨⟨1, 0⟩, ⟨0, 0⟩⟩
  have waits : parked[(5 : Offset)]? = some (.single 5 (.root 7)) := by
    have test : (parked[(5 : Offset)]?.any fun o =>
        o.shape == "Single" && o.rep == 5 && o.references == [.root 7]) = true := by decide +kernel
    obtain ⟨o, found, single⟩ := (Option.any_eq_true ..).mp test
    cases o with
    | single rep r =>
      simp only [Bool.and_eq_true, beq_iff_eq, Outstanding.rep, Outstanding.references,
        List.cons.injEq, and_true] at single
      obtain ⟨⟨-, rfl⟩, rfl⟩ := single
      exact found
    | struct _ _ _ _ | array _ _ => simp [Outstanding.shape] at single
  obtain ⟨v, spells, filled, -⟩ := fills ⟨⟨1, 0⟩, ⟨0, 0⟩⟩ (.single 5 (.root 7)) [5]
    ⟨_, waits, rfl⟩ id (List.mem_singleton.mpr rfl) (by decide +kernel)
  cases spells
  refine ⟨filled, ?_⟩
  rcases agrees with leads | ⟨early, u, middle, past, -, v, mem, displaces⟩
  · exact absurd leads (by decide +kernel)
  · have before : v ∈ ((start {} Stock.protocol).course twiceAnnounced).take 15 := by
      rw [past]
      exact List.mem_append_right _ (List.mem_cons_of_mem _ mem)
    exact ⟨v, List.mem_of_mem_take before, displaces⟩

end Session

end Replica
