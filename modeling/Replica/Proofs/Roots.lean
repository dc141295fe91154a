import Replica.Proofs.Ownership

/-! # One root object for each built entity

As long as the host destroys nothing and fewer handles are issued than there are generations, each
open channel has a root object of its own, and no other root object that was ever built for an
entity is alive.

Main definitions:
* `Session.Rooted` — the order between channels, root objects and the journal.
* `Session.rooted_of_run` — it holds after every run. -/

namespace Replica

/-- The scope of a host that destroys nothing. -/
def Scope.undisturbed : Scope :=
  { Scope.all with
    change
      | .destroy _ => False
      | _ => True }

/-- Acts among which the host destroys nothing lie in that scope. -/
theorem Act.within_undisturbed {a : Act} (spares : ∀ h, a ≠ .alter (.destroy h)) :
    a.Within .undisturbed := by
  cases a with
  | receive operation => cases operation <;> trivial
  | alter change =>
    cases change with
    | destroy h => exact absurd rfl (spares h)
    | _ => trivial
  | _ => trivial

/-! ## Rooted sessions -/

namespace Session

/-- A session is **rooted** if each open channel has a root object of its own, and no other root
object is alive. -/
structure Rooted (s : Session) : Prop extends s.Issued where
  /-- The root of a channel is alive, and its parts were issued. -/
  root : ∀ {e : EntityId} {c : Channel}, s.channels.get? e = some c →
    s.world.isAlive c.root = true ∧ ∃ children,
      (s.world.objects[c.root]?).map Object.children = some children ∧
        ∀ k ∈ children, s.world.pool.Knows k
  /-- It is neither the root of another channel nor a part of such a root. -/
  apart : ∀ {e e' : EntityId} {c c' : Channel}, s.channels.get? e = some c →
    s.channels.get? e' = some c' → e ≠ e' → c'.root ≠ c.root ∧
      ∀ {children : List Handle}, (s.world.objects[c.root]?).map Object.children = some children →
        c'.root ∉ children
  /-- No handle was the root of two entities, or twice of one. -/
  unique : (s.world.journal.instantiated.map (·.2)).Nodup
  /-- Every root was issued. -/
  known : ∀ {e : EntityId} {h : Handle}, (e, h) ∈ s.world.journal.instantiated →
    s.world.pool.Knows h
  /-- The root of a channel was built for its entity. -/
  listed : ∀ {e : EntityId} {c : Channel}, s.channels.get? e = some c →
    (e, c.root) ∈ s.world.journal.instantiated
  /-- A root that is alive belongs to the channel of its entity. -/
  alive : ∀ {e : EntityId} {h : Handle}, (e, h) ∈ s.world.journal.instantiated →
    s.world.isAlive h = true → ∃ c, s.channels.get? e = some c ∧ c.root = h

namespace Rooted

variable {s s' : Session}

/-- The roots of a rooted session are noted. -/
theorem noted (h : s.Rooted) : s.Noted := ⟨h.toIssued, h.unique, h.known, h.listed, h.alive⟩

/-- A session whose roots are noted is rooted if those of its channels are alive and apart. -/
theorem of_noted (noted : s.Noted)
    (root : ∀ {e : EntityId} {c : Channel}, s.channels.get? e = some c →
      s.world.isAlive c.root = true ∧ ∃ children,
        (s.world.objects[c.root]?).map Object.children = some children ∧
          ∀ k ∈ children, s.world.pool.Knows k)
    (apart : ∀ {e e' : EntityId} {c c' : Channel}, s.channels.get? e = some c →
      s.channels.get? e' = some c' → e ≠ e' → c'.root ≠ c.root ∧
        ∀ {children : List Handle}, (s.world.objects[c.root]?).map Object.children = some children →
          c'.root ∉ children) : s.Rooted :=
  ⟨noted.toIssued, root, apart, noted.unique, noted.known, noted.listed, noted.alive⟩

/-- The live roots of an entity are the root of its channel. -/
theorem liveRootsOf (h : s.Rooted) (entity : EntityId) :
    s.world.liveRootsOf entity = ((s.channels.get? entity).map Channel.root).toList := by
  rw [h.noted.liveRootsOf]
  cases opened : s.channels.get? entity with
  | none => rfl
  | some c => simp [(h.root opened).1]

/-- Where the world is steady and the channels have the same objects, a session stays rooted. -/
theorem steady (h : s.Rooted) (world : s.world.Steady s'.world)
    (channels : ∀ e, ∃ f : Channel → Channel, (∀ c, (f c).objectAt? = c.objectAt?) ∧
      s'.channels.get? e = (s.channels.get? e).map f) : s'.Rooted := by
  have isAlive (k : Handle) : s'.world.isAlive k = s.world.isAlive k := by
    rw [World.isAlive, World.isAlive, world.pool]
  have before : ∀ {e : EntityId} {c' : Channel}, s'.channels.get? e = some c' →
      ∃ c, s.channels.get? e = some c ∧ c.root = c'.root := by
    intro e c' opened
    obtain ⟨f, same, get⟩ := channels e
    rw [get] at opened
    obtain ⟨c, here, rfl⟩ := Option.map_eq_some_iff.mp opened
    exact ⟨c, here, (Channel.root_eq (same c)).symm⟩
  refine of_noted (h.noted.steady world channels) ?_ ?_
  · intro e c' opened
    obtain ⟨c, here, root⟩ := before opened
    rw [isAlive, world.children, world.pool, ← root]
    exact h.root here
  · intro e e' c₁ c₂ opened opened' differs
    obtain ⟨c, here, root⟩ := before opened
    obtain ⟨c', here', root'⟩ := before opened'
    rw [world.children, ← root, ← root']
    exact h.apart here here' differs

/-- A session stays rooted if its channels stay and its world is steady. -/
theorem routine (h : s.Rooted) (r : s.Routine s') : s'.Rooted :=
  h.steady r.world fun e => ⟨id, fun _ => rfl, by rw [r.channels, Option.map_id]; rfl⟩

/-- What is born beside the channels leaves a session rooted. -/
theorem births (h : s.Rooted) {w : World} {born : List Handle} (births : s.world.Births w born)
    (instantiated : w.journal.instantiated = s.world.journal.instantiated) :
    { s with world := w }.Rooted := by
  refine of_noted (h.noted.births births instantiated) ?_ ?_
  · intro e c opened
    obtain ⟨alive, children, here, parts⟩ := h.root opened
    exact ⟨(births.alive _).mpr (.inr alive), children,
      by rw [births.kept (h.members opened c.objectAt?_root)]; exact here,
      fun k mem => births.known (parts k mem)⟩
  · intro e e' c c' opened opened' differs
    rw [births.kept (h.members opened c.objectAt?_root)]
    exact h.apart opened opened' differs

/-- An entity that is built gets a channel with a new root. -/
theorem found (h : s.Rooted) {draft : Draft} {channel : Channel}
    (step : s.found draft = (some channel, s'))
    (few : s.world.pool.issued + (⟨s, .found draft⟩ : Moment).allocations ≤ 2 ^ 32) :
    s'.Rooted := by
  have noted := h.noted.found step few
  obtain ⟨id, a, rfl, -, founds⟩ := founds_of_found h.sound step few
  have births := founds.births
  obtain ⟨root, stored, parts⟩ := founds.root
  have rooted {e : EntityId} {c : Channel} (opened : s.channels.get? e = some c) :=
    h.members opened c.objectAt?_root
  have new : a.root ∈ a.handles := List.mem_cons_self
  refine of_noted noted ?_ ?_
  · intro e c opened
    rcases founds.new_or_before opened with ⟨-, rfl⟩ | ⟨-, before⟩
    · refine ⟨(births.alive _).mpr (.inl new), root.children, ?_, ?_⟩
      · exact congrArg (Option.map Object.children) stored
      · intro k mem
        rw [parts] at mem
        exact births.known_of_mem (List.mem_cons_of_mem _ mem)
    · obtain ⟨alive, children, here, issued⟩ := h.root before
      refine ⟨(births.alive _).mpr (.inr alive), children, ?_,
        fun k mem => births.known (issued k mem)⟩
      exact (congrArg _ (births.kept (rooted before))).trans here
  · intro e e' c c' opened opened' differs
    rcases founds.new_or_before opened with ⟨rfl, rfl⟩ | ⟨-, before⟩
    · rcases founds.new_or_before opened' with ⟨rfl, -⟩ | ⟨-, before'⟩
      · exact absurd rfl differs
      · refine ⟨fun same => births.not_mem (rooted before') (same ▸ new), ?_⟩
        intro children here mem
        have same := here.symm.trans (congrArg (Option.map Object.children) stored)
        cases same
        rw [parts] at mem
        exact births.not_mem (rooted before') (List.mem_cons_of_mem _ mem)
    · rcases founds.new_or_before opened' with ⟨rfl, rfl⟩ | ⟨-, before'⟩
      · refine ⟨fun same => births.not_mem (rooted before) (same ▸ new), ?_⟩
        intro children here mem
        rw [births.kept (rooted before)] at here
        obtain ⟨-, others, there, issued⟩ := h.root before
        cases here.symm.trans there
        exact births.not_mem (issued _ mem) new
      · obtain ⟨roots, parts'⟩ := h.apart before before' differs
        refine ⟨roots, fun {children} here => parts' ?_⟩
        rw [← births.kept (rooted before)]
        exact here

/-- An entity that is taken down takes its own objects along. -/
theorem remove (h : s.Rooted) (few : s.world.pool.issued < 2 ^ 32) (entity : EntityId) :
    (s.remove entity).Rooted := by
  rcases s.remove_cases entity with ⟨-, same⟩ | ⟨-, same⟩ | ⟨channel, here, same⟩
  · rw [same]
    exact h.steady (.refl _) fun e => ⟨id, fun _ => rfl, by rw [Option.map_id]; rfl⟩
  · rw [same]
    exact h
  · rw [same]
    obtain ⟨alive, children, stored, -⟩ := h.root here
    obtain ⟨o, found, rfl⟩ := Option.map_eq_some_iff.mp stored
    have deaths := World.deaths_destroy h.sound few
      (show s.world.object? channel.root = some o from (if_pos alive).trans found)
    -- What dies is neither the root of another channel nor a part of one.
    have spared {e : EntityId} {c : Channel} (opened : s.channels.get? e = some c)
        (differs : entity ≠ e) : c.root ∉ o.children ++ [channel.root] := by
      obtain ⟨root, parts⟩ := h.apart here opened differs
      rw [List.mem_append, not_or, List.mem_singleton]
      exact ⟨parts stored, root⟩
    refine of_noted
      (h.noted.deaths deaths (fun opened => (Channels.get?_of_close opened).2) ?_) ?_ ?_
    · intro e c opened living
      rw [Channels.get?_close, if_neg]
      · exact opened
      · rintro rfl
        rw [here] at opened
        cases opened
        exact ((deaths.alive _).mp living).1 (List.mem_append_right _ List.mem_cons_self)
    · intro e c opened
      obtain ⟨differs, opened⟩ := Channels.get?_of_close opened
      obtain ⟨alive, children, stored, issued⟩ := h.root opened
      refine ⟨(deaths.alive _).mpr ⟨spared opened differs, alive⟩, children, ?_,
        fun k mem => (deaths.knows k).mpr (issued k mem)⟩
      rw [deaths.objects _ (spared opened differs)]
      exact stored
    · intro e e' c c' opened opened' differs
      obtain ⟨other, opened⟩ := Channels.get?_of_close opened
      rw [deaths.objects _ (spared opened other)]
      exact h.apart opened (Channels.get?_of_close opened').2 differs

/-- Only the world and the channels decide whether a session is rooted. -/
theorem congr (h : s.Rooted) (world : s'.world = s.world) (channels : s'.channels = s.channels) :
    s'.Rooted :=
  h.steady (by rw [world]; exact .refl _) fun e =>
    ⟨id, fun _ => rfl, by rw [channels, Option.map_id]; rfl⟩

end Rooted

end Session

open Session in
/-- **Every apt move keeps a session rooted** while there are handles left. -/
theorem Move.Apt.rooted {w : Work} {m : Move} (apt : m.Apt .undisturbed w)
    (tidy : w.session.Tidy .undisturbed) (h : w.session.Rooted)
    (few : w.session.world.pool.issued + (⟨w.session, m⟩ : Moment).allocations < 2 ^ 32) :
    (w.perform m).session.Rooted := by
  cases m with
  | mark opens =>
    obtain ⟨held, same⟩ := w.exists_perform_mark opens
    rw [same]
    exact h.congr rfl rfl
  | hold _ | draft _ | settle _ _ _ => exact h.congr rfl rfl
  | alter change =>
    cases change with
    | addClass _ _ | addStartup _ =>
      exact ⟨h.toIssued.congr rfl rfl, h.root, h.apart, h.unique, h.known, h.listed, h.alive⟩
    | placeLocal className =>
      have births := World.births_place h.sound (Nat.lt_of_succ_lt few)
        (o := ⟨none, className, Reference.rootOffset, ∅, true, []⟩) rfl
      exact h.births births rfl
    | destroy object => exact apt.elim
  | learn arrival =>
    obtain ⟨held, same⟩ := w.exists_perform_learn arrival
    rw [same]
    exact h.congr rfl rfl
  | found draft =>
    rcases apt.found_cases with ⟨channel, step⟩ | ⟨same, -⟩
    · exact h.found step (Nat.le_of_lt few)
    · rw [same]
      exact h
  | populate channel data => exact h.routine (writes_populate channel _ data).routine
  | complete channel =>
    exact h.steady (w.session.world.steady_finalize channel.root) fun e =>
      ⟨id, fun _ => rfl, by rw [Option.map_id]; rfl⟩
  | authorize change =>
    refine h.steady (steady_changeAuthority w.session change) fun e => ?_
    obtain ⟨f, same, get⟩ := get?_changeAuthority tidy change e
    exact ⟨f, fun c => (same c).2, get⟩
  | write entity data => exact h.routine (writes_write _ entity data).routine
  | deliver call => exact h.routine (routine_deliverCall _ call)
  | replay arrival => exact h.routine (routine_resolveNow _ arrival)
  | remove entity => exact h.remove (Nat.lt_of_le_of_lt (Nat.le_add_right _ _) few) entity

namespace Session

/-- The session that has received nothing is rooted. -/
theorem Rooted.start (settings : Settings) (protocol : Protocol) :
    (start settings protocol).Rooted := by
  have unbuilt (e : EntityId) : (Session.start settings protocol).channels.get? e = none := by
    simp [Session.start, Channels.get?, Channels.empty]
  refine ⟨.start settings protocol, ?_, ?_, List.nodup_nil, ?_, ?_, ?_⟩
  · intro e c opened
    rw [unbuilt] at opened
    cases opened
  · intro e e' c c' opened
    rw [unbuilt] at opened
    cases opened
  · intro e k noted
    cases noted
  · intro e c opened
    rw [unbuilt] at opened
    cases opened
  · intro e k noted
    cases noted

/-- **After every run** that destroys nothing and issues fewer handles than there are generations,
the session is rooted. -/
theorem rooted_of_run {settings : Settings} {protocol : Protocol} {acts : List Act} {s : Session}
    (undisturbed : ∀ h, Act.alter (.destroy h) ∉ acts)
    (ok : (start settings protocol).run acts = .ok s)
    (few : allocations ((start settings protocol).course acts) < 2 ^ 32) : s.Rooted :=
  (issued_induction (fun _ _ tidy apt _ few h => apt.rooted tidy h few) (.start settings protocol)
    (fun _ mem => Act.within_undisturbed fun h same => undisturbed h (same ▸ mem)) ok few).2

end Session

end Replica
