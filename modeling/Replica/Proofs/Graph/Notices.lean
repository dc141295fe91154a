import Replica.Proofs.Graph.Agreement
import Replica.Proofs.HandlePool.Rounds
import Replica.Proofs.Log

/-! # What a replay announces

A replay fans out: over the subscribers that wait for the reference, over the positions of each, and
over the elements inside them. Each subscriber is told once, whatever the shape of its positions,
and is told of just those properties that a position has waited for the reference in.

Main definitions:
* `Parked.propertiesOn` — the properties with a position that waits for a reference.
* `World.SeatsAt`, `Replay.changed_position` — what the replay of a position tells, where everything
  inside it has its place.
* `Update.notices_serves` — what serving several subscribers tells.
* `Session.replay_notifies_once` — what a replay announces, at every moment of a run. -/

namespace Replica

/-! ## The properties of a position -/

/-- The properties **on** a reference: those with a parked field that waits for it, at any depth, in
ascending order. -/
def Parked.propertiesOn (p : Parked) (r : Reference) : List RepIndex :=
  (Std.ExtTreeSet.ofList ((p.toList.filter (·.2.waitsOn r)).map (·.2.rep))).toList

namespace Parked

variable {p : Parked} {r : Reference}

theorem mem_propertiesOn {rep : RepIndex} : rep ∈ p.propertiesOn r ↔
    ∃ (field : Offset) (o : Outstanding), p[field]? = some o ∧ r ∈ o.references ∧ o.rep = rep := by
  simp [propertiesOn, Std.ExtTreeSet.mem_toList, Std.ExtTreeSet.mem_ofList,
    Std.ExtTreeMap.mem_toList_iff_getElem?_eq_some, Outstanding.waitsOn_iff, and_assoc]

/-- Each property is listed once, and they ascend. -/
theorem pairwise_propertiesOn (p : Parked) (r : Reference) :
    (p.propertiesOn r).Pairwise (· < ·) :=
  Std.ExtTreeSet.ordered_toList.imp fun ascends => by
    simpa [compare, compareOfLessAndEq_eq_lt] using ascends

/-- Some property is on a reference just if a field waits for it. -/
theorem propertiesOn_ne_nil : p.propertiesOn r ≠ [] ↔ r ∈ p.references := by
  rw [Ne, List.eq_nil_iff_forall_not_mem, not_forall_not, mem_references]
  constructor
  · rintro ⟨rep, mem⟩
    obtain ⟨field, o, found, waits, -⟩ := mem_propertiesOn.mp mem
    exact ⟨field, o, found, waits⟩
  · rintro ⟨field, o, found, waits⟩
    exact ⟨o.rep, mem_propertiesOn.mpr ⟨field, o, found, waits, rfl⟩⟩

end Parked

/-! ## Positions -/

/-- The bytes of a struct that spells a value can be read. -/
theorem Outstanding.decodeValue_of_value? {rep : RepIndex} {buffer : Bytes} {bits : UInt32}
    {missing : ReferenceSet} {v : Value}
    (spells : (struct rep buffer bits missing).value? = some v) :
    Wire.decodeValue buffer = .ok v := by
  rw [value?] at spells
  cases read : Wire.decodeValue buffer with
  | error flaw =>
    rw [read] at spells
    cases spells
  | ok v' =>
    rw [read] at spells
    cases spells
    rfl

/-- Writing at a path notes nothing in the journal. -/
theorem World.journal_of_writeAt {w w' : World} {h : Handle} {path : List Offset} {new : Localized}
    (ok : w.writeAt h path new = .ok w') : w'.journal = w.journal := by
  unfold writeAt at ok
  cases found : w.target h with
  | error e =>
    rw [found] at ok
    cases ok
  | ok o =>
    simp only [found, bind, Except.bind] at ok
    split at ok
    · cases ok
      rfl
    · cases ok

/-- An object **seats** a position **at** a path if everything that stands in the position has its
place below the path. -/
def World.SeatsAt (w : World) (h : Handle) (path : List Offset) (o : Outstanding) : Prop :=
  ∀ (inner : Outstanding) (below : List Offset), inner.StandsAt below o →
    (w.at? h (path ++ below)).isSome

namespace World.SeatsAt

variable {w : World} {h : Handle} {path : List Offset} {o : Outstanding} {i j : Offset}

/-- A position has its own place. -/
theorem itself (seats : w.SeatsAt h path o) : ∃ old, w.at? h path = some old := by
  have there := seats o [] rfl
  rw [List.append_nil] at there
  exact Option.isSome_iff_exists.mp there

/-- The elements of an array are seated below it. -/
theorem element {rep : RepIndex} {elements : List (Offset × Outstanding)}
    (seats : w.SeatsAt h path (.array rep elements)) (mem : (i, o) ∈ elements) :
    w.SeatsAt h (path ++ [i]) o := by
  intro inner below stands
  rw [List.append_assoc]
  exact seats inner (i :: below) ⟨o, mem, stands⟩

/-- A position stays seated where another one is replayed. -/
theorem position {replay : Replay} (seats : w.SeatsAt replay.object (path ++ [j]) o)
    (differ : i ≠ j) (x : Outstanding) :
    (replay.position w (path ++ [i]) x).1.SeatsAt replay.object (path ++ [j]) o := by
  intro inner below stands
  have there := seats inner below stands
  rw [List.append_assoc, List.singleton_append] at there ⊢
  rwa [Replay.at?_position differ w [] x]

end World.SeatsAt

namespace Replay

mutual

/-- **A position tells of its property** if it waits for what is replayed, whatever its shape, and
tells of nothing else. -/
theorem changed_position (replay : Replay) (w : World) (path : List Offset) :
    (o : Outstanding) → o.IsSound → w.SeatsAt replay.object path o →
      (replay.position w path o).2.1 = if o.waitsOn replay.reference then [o.rep] else []
  | .single rep r, _, seats => by
    by_cases same : r = replay.reference
    · obtain ⟨old, there⟩ := seats.itself
      obtain ⟨w', written, -⟩ := World.exists_writeAt (.object (some replay.resolved)) there
      simp [position, same, World.writeReference, written, Outstanding.waitsOn, Outstanding.rep]
    · simp [position, same, Outstanding.waitsOn]
  | .struct rep buffer bits missing, sound, seats => by
    by_cases waits : missing.contains replay.reference = true
    · obtain ⟨v, spells⟩ : ∃ v, (Outstanding.struct rep buffer bits missing).value? = some v :=
        Outstanding.exists_value sound id
      obtain ⟨old, there⟩ := seats.itself
      obtain ⟨w', written, -⟩ := World.exists_writeAt (v.localize replay.resolve) there
      have rewritten : w.reapplyStruct replay.resolve replay.object path buffer =
          .ok (v.missing replay.resolve, w') := by
        rw [World.reapplyStruct, Outstanding.decodeValue_of_value? spells]
        simp [written, bind, Except.bind, pure, Except.pure]
      simp [position, waits, rewritten, Outstanding.waitsOn, Outstanding.rep]
    · simp [position, waits, Outstanding.waitsOn]
  | .array rep elements, sound, seats => by
    by_cases waits : Outstanding.anyWaitsOn replay.reference elements = true
    · have changed := changed_positions replay w path elements sound.1 sound.2
        fun i o mem => seats.element mem
      -- Some element waits, so some property is told of below, and the array tells of its own.
      have some : (replay.positions w path elements).2.1 ≠ [] := by
        obtain ⟨e, mem, within⟩ := Update.mem_referencesAll.mp
          ((Outstanding.anyWaitsOn_iff _ _).mp waits)
        rw [changed]
        exact List.ne_nil_of_mem (List.mem_map_of_mem (List.mem_filter.mpr
          ⟨mem, (Outstanding.waitsOn_iff _ _).mpr within⟩))
      simp [position, waits, some, Outstanding.waitsOn, Outstanding.rep]
    · simp [position, waits, Outstanding.waitsOn]

/-- Several positions tell of the properties of those that wait, in order. -/
theorem changed_positions (replay : Replay) (w : World) (path : List Offset) :
    (elements : List (Offset × Outstanding)) → (elements.map (·.1)).Nodup →
      Outstanding.AreSound elements →
      (∀ i o, (i, o) ∈ elements → w.SeatsAt replay.object (path ++ [i]) o) →
      (replay.positions w path elements).2.1 =
        (elements.filter (·.2.waitsOn replay.reference)).map (·.2.rep)
  | [], _, _, _ => rfl
  | (i, o) :: rest, distinct, sound, seats => by
    obtain ⟨apart, distinct⟩ := List.nodup_cons.mp distinct
    have first := changed_position replay w (path ++ [i]) o sound.1 (seats i o List.mem_cons_self)
    -- The other elements keep their places while the first one is replayed.
    have others := changed_positions replay (replay.position w (path ++ [i]) o).1 path rest distinct
      sound.2 fun j x mem => (seats j x (List.mem_cons_of_mem _ mem)).position
        (fun same => apart (List.mem_map.mpr ⟨(j, x), mem, same.symm⟩)) o
    simp only [positions, first, others, List.filter_cons]
    split
    · rfl
    · rfl

end

/-- Filling positions announces nothing by itself. -/
theorem journal_positions (replay : Replay) (w : World) (path : List Offset)
    (elements : List (Offset × Outstanding)) :
    (replay.positions w path elements).1.journal = w.journal :=
  replay.positions_keep (P := fun w' => w'.journal = w.journal)
    (fun _ before ok => (World.journal_of_writeAt ok).trans before) rfl elements

end Replay

/-! ## Subscribers -/

/-- A subscriber is **fit** to be served: its object seats what is parked for it, which can be read
and waits for the reference. -/
structure Update.Fit (w : World) (l : Waitlist) (r : Reference) (t : Subscriber) : Prop where
  /-- What is parked can be read. -/
  sound : (l.parkedOf t).IsSound
  /-- Every position has its place. -/
  seats : w.Seats t.object (l.parkedOf t)
  /-- Some field waits. -/
  waits : r ∈ (l.parkedOf t).references

namespace Update

variable {resolve : Resolver} {r : Reference} {resolved : Handle} {state : Resolution}
  {t : Subscriber}

/-- A subscriber that is untouched is as fit as before. -/
theorem Fit.untouched {w w' : World} {l l' : Waitlist} (h : Fit w l r t)
    (same : Untouched t w l w' l') : Fit w' l' r t where
  sound := same.parked t rfl ▸ h.sound
  seats := same.seats h.seats
  waits := same.parked t rfl ▸ h.waits

/-- The positions of a subscriber that is fit tell of the properties that wait. -/
theorem Fit.changed {w : World} {l : Waitlist} (h : Fit w l r t) (resolve : Resolver)
    (resolved : Handle) :
    (Replay.positions ⟨t.object, r, resolved, resolve⟩ w [] (l.parkedOf t).toList).2.1 =
      ((l.parkedOf t).toList.filter (·.2.waitsOn r)).map (·.2.rep) := by
  have found : ∀ {i : Offset} {o : Outstanding}, (i, o) ∈ (l.parkedOf t).toList →
      (l.parkedOf t)[i]? = some o := Std.ExtTreeMap.mem_toList_iff_getElem?_eq_some.mp
  have distinct : ((l.parkedOf t).toList.map (·.1)).Nodup :=
    List.pairwise_map.mpr (Std.ExtTreeMap.distinct_keys_toList.imp fun differ same =>
      differ (by rw [same]; exact Std.ReflCmp.compare_self))
  exact Replay.changed_positions ⟨t.object, r, resolved, resolve⟩ w [] _ distinct
    (Outstanding.areSound_iff.mpr fun e mem => h.sound e.1 e.2 (found mem))
    fun i o mem inner below stands => h.seats inner (i :: below) ⟨o, found mem, stands⟩

/-- **A subscriber that is fit is told once**, of the properties that wait for the reference, and is
complete just if nothing stays parked for it. -/
theorem Fit.serve (h : Fit state.world state.waitlist r t)
    (alive : state.world.isAlive t.object = true) (resolve : Resolver) (resolved : Handle) :
    (serve resolve r resolved state t).world.journal.notified =
        state.world.journal.notified ++
          [(t.object, (state.waitlist.parkedOf t).propertiesOn r)] ∧
      (serve resolve r resolved state t).complete = state.complete ++
        [t].filter fun t => ((serve resolve r resolved state t).waitlist.parkedOf t).isEmpty := by
  obtain ⟨world, waitlist⟩ := serve_of_isAlive resolve r resolved alive
  have changed := h.changed resolve resolved
  have some : ((state.waitlist.parkedOf t).toList.filter (·.2.waitsOn r)).map (·.2.rep) ≠ [] := by
    intro none
    refine Parked.propertiesOn_ne_nil.mpr h.waits ?_
    rw [Parked.propertiesOn, none]
    rfl
  constructor
  · rw [world, changed, announce, if_neg (by simpa using some), World.notify,
      Replay.journal_positions]
    rfl
  · rw [List.filter_singleton, cond_eq_ite, waitlist, Waitlist.parkedOf_store, if_pos rfl,
      isEmpty_ofList, Update.serve, if_neg (by rw [alive]; decide)]
    dsimp only
    split
    · rfl
    · exact (List.append_nil _).symm

/-- Serving a subscriber whose object is gone tells nobody. -/
theorem serve_of_gone (resolve : Resolver) (r : Reference) (resolved : Handle)
    (gone : state.world.isAlive t.object = false) :
    (serve resolve r resolved state t).world = state.world ∧
      (serve resolve r resolved state t).complete = state.complete := by
  rw [serve, if_pos (by rw [gone]; rfl)]
  exact ⟨rfl, rfl⟩

/-- **Serving several subscribers**, each with an object of its own: those whose object is alive are
told once each, in order, and those of them are complete for whom nothing stays parked. -/
theorem notices_serves (resolve : Resolver) (resolved : Handle) (ts : List Subscriber)
    (distinct : (ts.map (·.object)).Nodup) (state : Resolution)
    (fit : ∀ t ∈ ts, state.world.isAlive t.object = true → Fit state.world state.waitlist r t) :
    (ts.foldl (serve resolve r resolved) state).world.journal.notified =
        state.world.journal.notified ++ (ts.filter (state.world.isAlive ·.object)).map
          (fun t => (t.object, (state.waitlist.parkedOf t).propertiesOn r)) ∧
      (ts.foldl (serve resolve r resolved) state).complete = state.complete ++
        (ts.filter (state.world.isAlive ·.object)).filter
          fun t => ((ts.foldl (serve resolve r resolved) state).waitlist.parkedOf t).isEmpty := by
  induction ts generalizing state with
  | nil => simp
  | cons t rest ih =>
    obtain ⟨apart, distinct⟩ := List.nodup_cons.mp distinct
    have other : ∀ u ∈ rest, u.object ≠ t.object := fun u mem same =>
      apart (List.mem_map.mpr ⟨u, mem, same⟩)
    -- The others are served as they would have been before, and this one is left alone by them.
    have untouched : ∀ u ∈ rest, Untouched u state.world state.waitlist
        (serve resolve r resolved state t).world (serve resolve r resolved state t).waitlist :=
      fun u mem => untouched_serve (Ne.symm (other u mem))
    have later : Untouched t _ _ _ (rest.foldl (serve resolve r resolved) _).waitlist :=
      untouched_serves (serve resolve r resolved state t) other
    have alive : ∀ k, (serve resolve r resolved state t).world.isAlive k = state.world.isAlive k :=
      (rewrites_serve resolve r resolved state t).isAlive
    obtain ⟨notified, complete⟩ := ih distinct (serve resolve r resolved state t) fun u mem lives =>
      (fit u (List.mem_cons_of_mem _ mem) ((alive _).symm.trans lives)).untouched (untouched u mem)
    rw [List.foldl_cons, notified, complete]
    simp only [alive]
    have parked : (rest.filter (state.world.isAlive ·.object)).map
          (fun u => (u.object, ((serve resolve r resolved state t).waitlist.parkedOf u).propertiesOn
            r)) =
        (rest.filter (state.world.isAlive ·.object)).map
          (fun u => (u.object, (state.waitlist.parkedOf u).propertiesOn r)) :=
      List.map_congr_left fun u mem => by
        rw [(untouched u (List.mem_of_mem_filter mem)).parked u rfl]
    rw [parked]
    cases lives : state.world.isAlive t.object with
    | false =>
      obtain ⟨world, kept⟩ := serve_of_gone resolve r resolved lives
      have skipped : (t :: rest).filter (state.world.isAlive ·.object) =
          rest.filter (state.world.isAlive ·.object) := List.filter_cons_of_neg (by simp [lives])
      rw [skipped, world, kept]
      exact ⟨rfl, rfl⟩
    | true =>
      obtain ⟨told, kept⟩ := (fit t List.mem_cons_self lives).serve lives resolve resolved
      have served : (t :: rest).filter (state.world.isAlive ·.object) =
          t :: rest.filter (state.world.isAlive ·.object) :=
        List.filter_cons_of_pos (by simp [lives])
      rw [served, told, kept, List.filter_singleton, ← later.parked t rfl, List.append_assoc,
        List.append_assoc, List.filter_cons, cond_eq_ite]
      refine ⟨rfl, ?_⟩
      split
      · rfl
      · rfl

end Update

/-! ## Sessions -/

/-- Assignments to different fields are conclusive. -/
theorem Assignment.conclusive_of_nodup {as : List Assignment} (once : (as.map (·.offset)).Nodup)
    (resolve : Resolver) : Conclusive resolve as := by
  intro k a last
  obtain ⟨mem, rfl⟩ := mem_of_lastTo last
  refine (leftAt_eq_last_iff last).mpr fun none b mem' same => ?_
  rw [List.inj_on_of_nodup_map once mem' mem same]
  exact none

/-- The assignments that the payload of a move spells, if it writes one. -/
def Move.assignments? : Move → Option (List Assignment)
  | .populate _ data | .write _ data => (Wire.decodeFields data.payload).toOption
  | _ => none

/-- Where a payload assigns no field twice, nothing that is applied does. -/
theorem Moment.nodup_appliedTo (u : Moment)
    (once : ∀ as, u.move.assignments? = some as → (as.map (·.offset)).Nodup) (h : Handle) :
    ((u.appliedTo h).map (·.offset)).Nodup := by
  have spelt (data : ComponentData) (spells : u.move.assignments? =
      (Wire.decodeFields data.payload).toOption) (role : Role) :
      ((Update.assignments role data.payload).map (·.offset)).Nodup := by
    unfold Update.assignments
    split
    · exact .nil
    · split
      · rename_i as decoded
        exact once as (by rw [spells, decoded]; rfl)
      · exact .nil
  rcases u.appliedTo_cases h with none | ⟨channel, data, b, move, -, -, -, -, same⟩ |
    ⟨entity, data, b, t, move, -, -, same⟩
  · rw [none]
    exact .nil
  · rw [same]
    exact spelt data (by rw [move]; rfl) b.role
  · rw [same]
    exact spelt data (by rw [move]; rfl) b.role

namespace Session

variable {s : Session} {r : Reference}

/-- Those who are **served** when a reference is replayed: the subscribers that wait for it and
whose object is alive. -/
def served (s : Session) (r : Reference) : List Subscriber :=
  (s.waitlist.subscribersOf r).filter (s.world.isAlive ·.object)

theorem mem_served (coherent : s.waitlist.Coherent) {t : Subscriber} : t ∈ s.served r ↔
    r ∈ (s.waitlist.parkedOf t).references ∧ s.world.isAlive t.object = true := by
  rw [served, List.mem_filter, coherent.mem_subscribersOf]

/-- Subscribers are served in ascending order, each once. -/
theorem pairwise_served (s : Session) (r : Reference) :
    (s.served r).Pairwise fun t u => compare t u = .lt :=
  Std.ExtTreeSet.ordered_toList.filter _

/-- Each subscriber that waits has an object of its own. -/
theorem nodup_objects (owned : s.Owned) (lists : s.ListsMembers) (r : Reference) :
    ((s.waitlist.subscribersOf r).map (·.object)).Nodup := by
  have nodup : (s.waitlist.subscribersOf r).Nodup :=
    Std.ExtTreeSet.distinct_toList.imp fun differ same => by simp [same] at differ
  refine nodup.map_on fun t mem u mem' same => ?_
  have waits := lists.exact.coherent.mem_subscribersOf.mp mem'
  have member := lists.members u fun none => by simp [none] at waits
  exact (alone_of_member owned lists member).eq_of_subscribed lists.exact.coherent t mem same

/-- What a replay announces, the resolution of its reference does. -/
theorem notified_resolveNow (s : Session) (a : Arrival) :
    (s.resolveNow a).world.journal.notified =
      (Update.resolve s.world s.waitlist s.resolver a.reference
        a.object).world.journal.notified := by
  rw [journal_resolveNow]

variable {settings : Settings} {protocol : Protocol} {acts : List Act}

/-- At every moment of a run that issues few handles every object belongs to one channel, those who
wait are objects of channels, and what they wait for can be read; and all of it has its place, if
every payload before was conclusive. -/
theorem standing_of_split (ok : (start settings protocol).run acts = .ok s)
    (few : allocations ((start settings protocol).course acts) < 2 ^ 32)
    {before after : List Moment} {m : Moment}
    (split : (start settings protocol).course acts = before ++ m :: after) :
    m.session.Owned ∧ m.session.ListsMembers ∧ m.session.waitlist.IsSound ∧
      ((∀ u ∈ before, ∀ h, Assignment.Conclusive u.session.resolver (u.appliedTo h)) →
        m.session.Seated) := by
  obtain ⟨-, -, -, ⟨owned, -⟩, -, lists, sound, seated⟩ := issued_split_induction
    (I := fun s past => (s.Owned ∧ s.Housed) ∧ s.directory.Paired ∧ s.ListsMembers ∧
      s.waitlist.IsSound ∧
        ((∀ u ∈ past, ∀ h, Assignment.Conclusive u.session.resolver (u.appliedTo h)) → s.Seated))
    (fun w past m tidy apt issued few ⟨⟨owned, housed⟩, paired, lists, sound, seated⟩ =>
      ⟨⟨apt.owned tidy owned few, apt.housed tidy owned housed few⟩, w.paired_perform paired m,
        apt.listsMembers tidy lists, Work.isSound_perform sound m, fun conclusive => by
          rw [List.forall_mem_append, List.forall_mem_singleton] at conclusive
          exact apt.seated ⟨tidy, paired, lists, issued⟩ owned housed few sound conclusive.2
            (seated conclusive.1)⟩)
    ⟨⟨.start settings protocol, .start settings protocol⟩, Directory.paired_empty,
      .start settings protocol, Waitlist.isSound_empty,
      fun _ t _ => by
        rw [show (start settings protocol).waitlist.parkedOf t = ∅ from by
          simp [start, Waitlist.parkedOf, Waitlist.empty]]
        exact World.seats_empty _ _⟩
    (fun a _ => a.within_all) ok few split
  exact ⟨owned, lists, sound, seated⟩

/-- **What a replay announces**, at every moment of a run at which an arrival is replayed, if the
run issues fewer handles than there are generations and no payload before has written a field twice.
Those who are served are the subscribers with a live object that wait for the reference; they are
served in ascending order, each with an object of its own. Each of them is told once, and no other
object is; it is told of just those properties that had a field waiting for the reference, at any
depth, in ascending order and each once. And those of them are reported, each once, for whom nothing
stays parked. -/
theorem replay_notifies_once (reached : (start settings protocol).run acts = .ok s)
    (few : allocations ((start settings protocol).course acts) < 2 ^ 32)
    {before after : List Moment} {m : Moment}
    (split : (start settings protocol).course acts = before ++ m :: after) {a : Arrival}
    (replays : m.move = .replay a)
    (once : ∀ u ∈ before, ∀ h, ((u.appliedTo h).map (·.offset)).Nodup) :
    m.after.world.journal.notified = m.session.world.journal.notified ++
      (m.session.served a.reference).map
        (fun t => (t.object, (m.session.waitlist.parkedOf t).propertiesOn a.reference)) ∧
    m.after.events = m.session.events ++
      ((m.session.served a.reference).filter
        fun t => (m.after.waitlist.parkedOf t).isEmpty).map .referencesResolved ∧
    (∀ t, t ∈ m.session.served a.reference ↔
      a.reference ∈ (m.session.waitlist.parkedOf t).references ∧
        m.session.world.isAlive t.object = true) ∧
    (m.session.served a.reference).Pairwise (fun t u => compare t u = .lt) ∧
    ((m.session.served a.reference).map (·.object)).Nodup ∧
    ∀ t ∈ m.session.served a.reference,
      ((m.session.waitlist.parkedOf t).propertiesOn a.reference).Pairwise (· < ·) ∧
      ∀ rep, rep ∈ (m.session.waitlist.parkedOf t).propertiesOn a.reference ↔
        ∃ (field : Offset) (o : Outstanding),
          (m.session.waitlist.parkedOf t)[field]? = some o ∧ a.reference ∈ o.references ∧
            o.rep = rep := by
  obtain ⟨owned, lists, sound, seated⟩ := standing_of_split reached few split
  -- Payloads that write no field twice leave every parked position in its place, so every write of
  -- the replay succeeds.
  have seated := seated fun u mem h => Assignment.conclusive_of_nodup (once u mem h) _
  have distinct := nodup_objects owned lists a.reference
  obtain ⟨notified, complete⟩ := Update.notices_serves m.session.resolver a.object
    (m.session.waitlist.subscribersOf a.reference) distinct
    ⟨m.session.world, m.session.waitlist, []⟩
    fun t mem alive =>
      ⟨sound t, seated t alive, lists.exact.coherent.mem_subscribersOf.mp mem⟩
  have after : m.after = m.session.resolveNow a := by
    rw [Moment.after, replays]
    rfl
  rw [after]
  refine ⟨?_, ?_, fun t => mem_served lists.exact.coherent, pairwise_served _ _,
    distinct.sublist (List.filter_sublist.map _), fun t _ =>
      ⟨Parked.pairwise_propertiesOn _ _, fun rep => Parked.mem_propertiesOn⟩⟩
  · rw [notified_resolveNow, Update.resolve, notified]
    rfl
  · obtain ⟨world, events, calls, same, -⟩ := resolveNow_eq m.session a
    rw [events_resolveNow, Update.resolve, complete, same, List.nil_append]
    rfl

/-- One crate waits for an object in fields of every shape, two of which belong to one property, and
for another object as well; a second crate waits for the object alone, and a third one is gone from
the world. -/
def sharedReference : List Act :=
  let missing : Value := .ref (.root 7)
  let build (entity : EntityId) (fields : List Assignment) : List Operation :=
    ((Blueprint.ofClass entity "Crate").withFields Stock.rootDataComponent fields).operations
  (build 1 [⟨5, 3, missing⟩, ⟨6, 1, .struct [missing, .ref (.root 8)]⟩,
      ⟨7, 3, .array [.null, .array [missing]]⟩, ⟨9, 2, .ref (.root 8)⟩] ++
    build 2 [.at 5 missing] ++ build 3 [.at 5 missing]).map .receive ++
    [.alter (.placeLocal "Lever"), .alter (.destroy ⟨2, 0⟩), .announce ⟨⟨3, 0⟩, .root 7⟩]

theorem replay_notifies_once_sharedReference :
    ∃ m ∈ (start {} Stock.protocol).course sharedReference, m.move = .replay ⟨⟨3, 0⟩, .root 7⟩ ∧
      m.after.world.journal.notified =
        m.session.world.journal.notified ++ [(⟨0, 0⟩, [1, 3]), (⟨1, 0⟩, [5])] ∧
      m.after.events = m.session.events ++ [.referencesResolved ⟨⟨2, 1⟩, ⟨1, 0⟩⟩] := by
  -- The moment at which the object is found.
  let m := ((start {} Stock.protocol).course sharedReference).get ⟨30, by decide +kernel⟩
  obtain ⟨s, reached, -⟩ := exists_run (start {} Stock.protocol) sharedReference (fun _ => true)
    (by decide +kernel)
  have split : (start {} Stock.protocol).course sharedReference =
      ((start {} Stock.protocol).course sharedReference).take 30 ++ m ::
        ((start {} Stock.protocol).course sharedReference).drop 31 := by
    show _ = _ ++ ((start {} Stock.protocol).course sharedReference).get ⟨30, _⟩ :: _
    rw [List.get_eq_getElem, List.getElem_cons_drop, List.take_append_drop]
  have replays : m.move = .replay ⟨⟨3, 0⟩, .root 7⟩ :=
    Move.brings?_eq_some.mp (by decide +kernel)
  have once : ∀ u ∈ ((start {} Stock.protocol).course sharedReference).take 30,
      ∀ as, u.move.assignments? = some as → (as.map (·.offset)).Nodup := by
    have test : (((start {} Stock.protocol).course sharedReference).take 30).all
        (·.move.assignments?.all fun as => decide (as.map (·.offset)).Nodup) = true := by
      decide +kernel
    intro u mem as spells
    have each := List.all_eq_true.mp test u mem
    rw [spells] at each
    exact of_decide_eq_true each
  obtain ⟨notified, events, -⟩ := replay_notifies_once reached (by decide +kernel) split replays
    fun u mem => u.nodup_appliedTo (once u mem)
  have told : (m.session.served (.root 7)).map (fun t =>
      (t.object, (m.session.waitlist.parkedOf t).propertiesOn (.root 7))) =
        [(⟨0, 0⟩, [1, 3]), (⟨1, 0⟩, [5])] := by decide +kernel
  have complete : (m.session.served (.root 7)).filter
      (fun t => (m.after.waitlist.parkedOf t).isEmpty) = [⟨⟨2, 1⟩, ⟨1, 0⟩⟩] := by
    decide +kernel
  refine ⟨m, List.get_mem _ _, replays, ?_, ?_⟩
  · rw [notified, told]
  · rw [events, complete]
    rfl

/-- A struct is written while one of the two objects that it refers to is there. This object goes, a
field is written that waits for it, and it comes back. -/
def foundAgain : List Act :=
  let crate (entity : EntityId) := (Blueprint.ofClass entity "Crate").operations
  let write (a : Assignment) :=
    Operation.componentUpdate 1 ⟨Stock.rootDataComponent, Wire.fields [a]⟩
  (crate 1 ++ crate 2 ++
    [write (.at 6 (.struct [.ref (.root 2), .ref (.root 9)])), .removeEntity 2,
      write (.at 5 (.ref (.root 2)))] ++ crate 2).map .receive

/-- A crate waits for an object, and is destroyed by the host. -/
def destroyedAwaiting : List Act :=
  ((Blueprint.ofClass 1 "Crate").withFields Stock.rootDataComponent
    [.at 5 (.ref (.root 7))]).operations.map .receive ++ [.alter (.destroy ⟨0, 0⟩)]

/-- Two objects are placed, the first one under the handle that has come round. -/
def twoPlaced : List Act := [.alter (.placeLocal "Crate"), .alter (.placeLocal "Lever")]

/-- Who is told of the property that waits for an object is not told of a struct that contains the
object and waits for another one only. And where the handle of a subscriber comes round, the object
that has it now is live and served, but is told of nothing. -/
theorem notified_foundAgain_and_comesRound :
    (∃ m ∈ (start {} Stock.protocol).course foundAgain, m.move = .replay ⟨⟨1, 1⟩, .root 2⟩ ∧
      m.session.served (.root 2) = [⟨⟨1, 0⟩, ⟨0, 0⟩⟩] ∧
      (m.session.waitlist.parkedOf ⟨⟨1, 0⟩, ⟨0, 0⟩⟩)[(6 : Offset)]?.bind Outstanding.value? =
        some (.struct [.ref (.root 2), .ref (.root 9)]) ∧
      m.after.world.journal.notified = m.session.world.journal.notified ++ [(⟨0, 0⟩, [5])]) ∧
    ∃ s s₁ s₂, (start {} Stock.protocol).run (destroyedAwaiting ++ rounds ⟨0, 1⟩ (2 ^ 32 - 1)) =
        .ok s ∧ s.run twoPlaced = .ok s₁ ∧ s₁.served (.root 7) = [⟨⟨1, 0⟩, ⟨0, 0⟩⟩] ∧
      s₁.run [.announce ⟨⟨1, 0⟩, .root 7⟩] = .ok s₂ ∧
      s₂.world.journal.notified = s₁.world.journal.notified := by
  constructor
  · have test : ((start {} Stock.protocol).course foundAgain).any (fun m =>
        m.move.brings? (.root 2) == some ⟨1, 1⟩ &&
        m.session.served (.root 2) == [⟨⟨1, 0⟩, ⟨0, 0⟩⟩] &&
        (m.session.waitlist.parkedOf ⟨⟨1, 0⟩, ⟨0, 0⟩⟩)[(6 : Offset)]?.bind Outstanding.value? ==
          some (.struct [.ref (.root 2), .ref (.root 9)]) &&
        m.after.world.journal.notified ==
          m.session.world.journal.notified ++ [(⟨0, 0⟩, [5])]) = true := by decide +kernel
    obtain ⟨m, mem, here⟩ := List.any_eq_true.mp test
    simp only [Bool.and_eq_true, beq_iff_eq] at here
    obtain ⟨⟨⟨brings, served⟩, parked⟩, told⟩ := here
    exact ⟨m, mem, Move.brings?_eq_some.mp brings, served, parked, told⟩
  · obtain ⟨s, ok, test⟩ := exists_run_rounds {} Stock.protocol destroyedAwaiting ⟨0, 1⟩
      (2 ^ 32 - 1) (fun s => s.leadsTo twoPlaced fun s₁ =>
        s₁.served (.root 7) == [⟨⟨1, 0⟩, ⟨0, 0⟩⟩] &&
          s₁.leadsTo [.announce ⟨⟨1, 0⟩, .root 7⟩] fun s₂ =>
            s₂.world.journal.notified == s₁.world.journal.notified)
      (by decide +kernel) (by decide +kernel)
    obtain ⟨s₁, placed, test⟩ := exists_of_leadsTo test
    obtain ⟨served, later⟩ := Bool.and_eq_true_iff.mp test
    obtain ⟨s₂, announced, same⟩ := exists_of_leadsTo later
    exact ⟨s, s₁, s₂, ok, placed, eq_of_beq served, announced, eq_of_beq same⟩

end Session

end Replica
