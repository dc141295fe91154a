import Replica.Blueprint
import Replica.Proofs.Allocation

/-! # Whose objects are in the world

An entity that is built has a channel, and the objects of the channel are its own: no other entity
shares them, and of all root objects that were ever built for it at most that of the channel is
alive. This holds whatever the host does, as long as fewer handles are issued than there are
generations.

Main definitions:
* `World.Exact` — a world has objects for exactly the handles in use.
* `Session.Noted` — the order between channels and the roots that the journal notes.
* `Session.Owned` — both, and channels that share nothing.
* `Session.one_object_for_each_entity` — all of it after every run. -/

namespace Replica

/-! ## Exact worlds -/

namespace World

variable {w w' : World}

/-- A world is **exact** if it has an object for each handle in use and for no other. -/
def Exact (w : World) : Prop := ∀ h, h ∈ w.objects ↔ w.isAlive h = true

namespace Exact

theorem initial : World.initial.Exact := by
  intro h
  simp [World.initial, World.isAlive]

/-- Where no object comes or goes, a world stays exact. -/
theorem steady (h : w.Exact) (steady : w.Steady w') : w'.Exact := by
  intro k
  have stored : (w'.objects[k]?).isSome = (w.objects[k]?).isSome := by
    simpa using congrArg Option.isSome (steady.children k)
  rw [Std.ExtTreeMap.mem_iff_isSome_getElem?, stored, ← Std.ExtTreeMap.mem_iff_isSome_getElem?, h k,
    isAlive, isAlive, steady.pool]

/-- New objects have handles in use. -/
theorem births (h : w.Exact) {born : List Handle} (births : w.Births w' born) : w'.Exact := by
  intro k
  rw [births.alive, Std.ExtTreeMap.mem_iff_isSome_getElem?]
  by_cases new : k ∈ born
  · obtain ⟨o, stored, -⟩ := births.blank k new
    simp [stored, new]
  · rw [births.objects k new, ← Std.ExtTreeMap.mem_iff_isSome_getElem?, h k, or_iff_right new]

/-- An object goes together with its handle. -/
theorem discard (h : w.Exact) (sound : w.pool.Sound) (few : w.pool.issued < 2 ^ 32) (k : Handle) :
    (w.discard k).Exact := by
  intro j
  obtain ⟨-, -, alive, -⟩ := sound.release few k
  refine Iff.trans ?_ (alive j).symm
  show j ∈ w.objects.erase k ↔ _
  rw [Std.ExtTreeMap.mem_erase, h j, ne_eq, Std.LawfulEqOrd.compare_eq_iff_eq, eq_comm, isAlive]

theorem discards (h : w.Exact) (sound : w.pool.Sound) (few : w.pool.issued < 2 ^ 32)
    (handles : List Handle) : (handles.foldl World.discard w).Exact := by
  induction handles generalizing w with
  | nil => exact h
  | cons k rest ih =>
    have first := deaths_discard sound few k
    exact ih (h.discard sound few k) first.sound (first.issued ▸ few)

/-- Destroying an object leaves a world exact. -/
theorem destroy (h : w.Exact) (sound : w.pool.Sound) (few : w.pool.issued < 2 ^ 32) (k : Handle) :
    (w.destroy k).Exact := by
  unfold World.destroy
  split
  · exact h
  · rename_i o _
    have parts := deaths_discards sound few o.children
    exact (h.discards sound few o.children).discard parts.sound (parts.issued ▸ few) k

/-- In an exact world every handle can be destroyed; it is not in use afterwards. -/
theorem deaths_destroy (h : w.Exact) (sound : w.pool.Sound) (few : w.pool.issued < 2 ^ 32)
    (k : Handle) : ∃ died, w.Deaths (w.destroy k) died ∧ (w.destroy k).isAlive k = false := by
  cases alive : w.isAlive k with
  | false =>
    have same : w.destroy k = w := by
      unfold World.destroy object?
      rw [alive]
      rfl
    rw [same]
    exact ⟨[], .nil sound, alive⟩
  | true =>
    obtain ⟨o, stored⟩ := Option.isSome_iff_exists.mp
      (Std.ExtTreeMap.mem_iff_isSome_getElem?.mp ((h k).mpr alive))
    have deaths := World.deaths_destroy sound few
      (show w.object? k = some o from (if_pos alive).trans stored)
    refine ⟨_, deaths, Bool.eq_false_iff.mpr fun living => ?_⟩
    exact ((deaths.alive k).mp living).1 (List.mem_append_right _ List.mem_cons_self)

/-- The objects of an exact world were issued. -/
theorem knows (h : w.Exact) {k : Handle} {o : Object} (stored : w.objects[k]? = some o) :
    w.pool.Knows k :=
  HandlePool.knows_of_isAlive ((h k).mp
    (Std.ExtTreeMap.mem_iff_isSome_getElem?.mpr (Option.isSome_iff_exists.mpr ⟨o, stored⟩)))

/-- The object of a handle is the one stored under it. -/
theorem object?_eq (h : w.Exact) (k : Handle) : w.object? k = w.objects[k]? := by
  unfold object?
  split
  · rfl
  · rename_i dead
    exact (Std.ExtTreeMap.getElem?_eq_none (mt (h k).mp dead)).symm

/-- **What is left after an object is destroyed**: all but the object and its parts. -/
theorem getElem?_destroy (h : w.Exact) (sound : w.pool.Sound) (few : w.pool.issued < 2 ^ 32)
    (k : Handle) {j : Handle} {o : Object} :
    (w.destroy k).objects[j]? = some o ↔
      w.objects[j]? = some o ∧ j ≠ k ∧ ∀ p, w.objects[k]? = some p → j ∉ p.children := by
  cases found : w.object? k with
  | none =>
    have same : w.destroy k = w := by rw [World.destroy, found]
    rw [same, ← h.object?_eq k, found]
    refine (and_iff_left_of_imp fun stored => ⟨?_, by simp⟩).symm
    rintro rfl
    rw [h.object?_eq, stored] at found
    cases found
  | some p =>
    have deaths := World.deaths_destroy sound few found
    rw [← h.object?_eq k, found]
    by_cases died : j ∈ p.children ++ [k]
    · have gone : (w.destroy k).objects[j]? = none :=
        Std.ExtTreeMap.getElem?_eq_none fun mem =>
          ((deaths.alive j).mp (((h.destroy sound few k) j).mp mem)).1 died
      rw [gone]
      rw [List.mem_append, List.mem_singleton] at died
      simp only [reduceCtorEq, Option.some.injEq, forall_eq', false_iff]
      exact fun both => died.elim both.2.2 both.2.1
    · rw [deaths.objects j died]
      rw [List.mem_append, List.mem_singleton, not_or] at died
      simp [died]

end Exact

end World

/-! ## Roots that are noted -/

theorem Channel.objectAt?_root (c : Channel) : c.objectAt? Reference.rootOffset = some c.root :=
  if_pos rfl

/-- A channel with the same objects has the same root. -/
theorem Channel.root_eq {c c' : Channel} (same : c.objectAt? = c'.objectAt?) :
    c.root = c'.root := by
  have roots := c.objectAt?_root
  rw [same, c'.objectAt?_root] at roots
  exact (Option.some.inj roots).symm

namespace Session

variable {s s' : Session}

/-- The roots of a session are **noted** if its journal names each of them once, and a root that is
alive belongs to the channel of its entity. -/
structure Noted (s : Session) : Prop extends s.Issued where
  /-- No handle was the root of two entities, or twice of one. -/
  unique : (s.world.journal.instantiated.map (·.2)).Nodup
  /-- Every root was issued. -/
  known : ∀ {e : EntityId} {h : Handle}, (e, h) ∈ s.world.journal.instantiated →
    s.world.pool.Knows h
  /-- The root of a channel was built for its entity. -/
  listed : ∀ {e : EntityId} {c : Channel}, s.channels.get? e = some c →
    (e, c.root) ∈ s.world.journal.instantiated
  /-- A root that is alive belongs to the channel of its entity. -/
  alive : ∀ {e : EntityId} {h : Handle}, (e, h) ∈ s.world.journal.instantiated →
    s.world.isAlive h = true → ∃ c, s.channels.get? e = some c ∧ c.root = h

namespace Noted

/-- **The live roots of an entity** are the root of its channel, if that is alive. -/
theorem liveRootsOf (h : s.Noted) (entity : EntityId) :
    s.world.liveRootsOf entity =
      ((s.channels.get? entity).map Channel.root).toList.filter s.world.isAlive := by
  have mem : ∀ k, k ∈ s.world.liveRootsOf entity ↔
      (entity, k) ∈ s.world.journal.instantiated ∧ s.world.isAlive k = true := by
    intro k
    simp [World.liveRootsOf, World.rootsOf]
  have nodup : (s.world.liveRootsOf entity).Nodup :=
    (h.unique.sublist ((List.filter_sublist).map _)).filter _
  -- Both lists have no repetitions and the same members, of which there is at most one.
  have same : ∀ k, k ∈ s.world.liveRootsOf entity ↔
      k ∈ ((s.channels.get? entity).map Channel.root).toList.filter s.world.isAlive := by
    intro k
    rw [mem, List.mem_filter, Option.mem_toList, Option.map_eq_some_iff]
    constructor
    · rintro ⟨noted, alive⟩
      exact ⟨h.alive noted alive, alive⟩
    · rintro ⟨⟨c, here, rfl⟩, alive⟩
      exact ⟨h.listed here, alive⟩
  have short :
      (((s.channels.get? entity).map Channel.root).toList.filter s.world.isAlive).Nodup := by
    refine List.Nodup.filter _ ?_
    cases s.channels.get? entity <;> simp
  have perm := (List.perm_ext_iff_of_nodup nodup short).mpr same
  revert perm
  cases s.channels.get? entity with
  | none => exact fun perm => List.Perm.eq_nil perm
  | some c =>
    cases living : s.world.isAlive c.root with
    | false =>
      intro perm
      simpa [living] using perm
    | true =>
      intro perm
      simpa [living] using perm

/-- Where the world is steady and the channels have the same objects, roots stay noted. -/
theorem steady (h : s.Noted) (world : s.world.Steady s'.world)
    (channels : ∀ e, ∃ f : Channel → Channel, (∀ c, (f c).objectAt? = c.objectAt?) ∧
      s'.channels.get? e = (s.channels.get? e).map f) : s'.Noted := by
  have before : ∀ {e : EntityId} {c' : Channel}, s'.channels.get? e = some c' →
      ∃ c, s.channels.get? e = some c ∧ c.objectAt? = c'.objectAt? ∧ c.root = c'.root := by
    intro e c' opened
    obtain ⟨f, same, get⟩ := channels e
    rw [get] at opened
    obtain ⟨c, here, rfl⟩ := Option.map_eq_some_iff.mp opened
    exact ⟨c, here, (same c).symm, (Channel.root_eq (same c)).symm⟩
  have issued : s'.Issued := h.toIssued.grow (by rw [world.pool]; exact h.sound)
    (fun k known => by rw [world.pool]; exact known) fun opened => by
      obtain ⟨c, here, same, -⟩ := before opened
      exact ⟨c, here, same⟩
  refine ⟨issued, by rw [world.instantiated]; exact h.unique, ?_, ?_, ?_⟩
  · intro e k noted
    rw [world.instantiated] at noted
    rw [world.pool]
    exact h.known noted
  · intro e c' opened
    obtain ⟨c, here, -, root⟩ := before opened
    rw [world.instantiated, ← root]
    exact h.listed here
  · intro e k noted alive
    rw [world.instantiated] at noted
    rw [World.isAlive, world.pool] at alive
    obtain ⟨c, here, rfl⟩ := h.alive noted alive
    obtain ⟨f, same, get⟩ := channels e
    exact ⟨f c, by rw [get, here]; rfl, Channel.root_eq (same c)⟩

/-- What is born beside the channels leaves roots noted. -/
theorem births (h : s.Noted) {w : World} {born : List Handle} (births : s.world.Births w born)
    (instantiated : w.journal.instantiated = s.world.journal.instantiated) :
    { s with world := w }.Noted := by
  have issued : { s with world := w }.Issued :=
    h.toIssued.grow births.sound (fun _ => births.known) fun opened => ⟨_, opened, rfl⟩
  refine ⟨issued, by rw [instantiated]; exact h.unique, ?_, ?_, ?_⟩
  · intro e k noted
    rw [instantiated] at noted
    exact births.known (h.known noted)
  · intro e c opened
    rw [instantiated]
    exact h.listed opened
  · intro e k noted alive
    rw [instantiated] at noted
    exact h.alive noted (((births.alive k).mp alive).resolve_left (births.not_mem (h.known noted)))

/-- An entity that is built gets a channel with a new root. -/
theorem found (h : s.Noted) {draft : Draft} {channel : Channel}
    (step : s.found draft = (some channel, s'))
    (few : s.world.pool.issued + (⟨s, .found draft⟩ : Moment).allocations ≤ 2 ^ 32) :
    s'.Noted := by
  have issued := (h.toIssued.found step few).1
  obtain ⟨id, a, rfl, -, founds⟩ := founds_of_found h.sound step few
  have births := founds.births
  have new : a.root ∈ a.handles := List.mem_cons_self
  refine ⟨issued, ?_, ?_, ?_, ?_⟩
  · rw [founds.noted, List.map_append, List.nodup_append]
    refine ⟨h.unique, List.nodup_singleton _, ?_⟩
    intro k mem k' mem' same
    obtain ⟨⟨e, root'⟩, listed, here⟩ := List.mem_map.mp mem
    have there : root' = a.root := here.trans (same.trans (List.mem_singleton.mp mem'))
    exact births.not_mem (h.known listed) (there ▸ new)
  · intro e k mem
    rw [founds.noted] at mem
    rcases List.mem_append.mp mem with before | here
    · exact births.known (h.known before)
    · cases List.mem_singleton.mp here
      exact births.known_of_mem new
  · intro e c opened
    rw [founds.noted]
    rcases founds.new_or_before opened with ⟨rfl, rfl⟩ | ⟨-, before⟩
    · exact List.mem_append_right _ List.mem_cons_self
    · exact List.mem_append_left _ (h.listed before)
  · intro e k mem alive
    rw [founds.noted] at mem
    rcases List.mem_append.mp mem with before | here
    · obtain ⟨c, opened, rfl⟩ := h.alive before
        (((births.alive k).mp alive).resolve_left (births.not_mem (h.known before)))
      exact ⟨c, founds.there opened, rfl⟩
    · cases List.mem_singleton.mp here
      exact ⟨_, founds.here, rfl⟩

/-- Where objects die, roots stay noted if no channel opens and a channel that closes leaves no live
root. -/
theorem deaths (h : s.Noted) {died : List Handle} (deaths : s.world.Deaths s'.world died)
    (sub : ∀ {e : EntityId} {c : Channel}, s'.channels.get? e = some c →
      s.channels.get? e = some c)
    (kept : ∀ {e : EntityId} {c : Channel}, s.channels.get? e = some c →
      s'.world.isAlive c.root = true → s'.channels.get? e = some c) : s'.Noted := by
  have issued : s'.Issued :=
    h.toIssued.grow deaths.sound (fun k => (deaths.knows k).mpr) fun opened => ⟨_, sub opened, rfl⟩
  refine ⟨issued, by rw [deaths.instantiated]; exact h.unique, ?_, ?_, ?_⟩
  · intro e k noted
    rw [deaths.instantiated] at noted
    exact (deaths.knows k).mpr (h.known noted)
  · intro e c opened
    rw [deaths.instantiated]
    exact h.listed (sub opened)
  · intro e k noted living
    rw [deaths.instantiated] at noted
    obtain ⟨c, opened, rfl⟩ := h.alive noted ((deaths.alive k).mp living).2
    exact ⟨c, kept opened living, rfl⟩

end Noted

/-! ## Owned objects -/

/-- The objects of a session are **owned** if its roots are noted, its world is exact, and no two of
its channels share an object. -/
structure Owned (s : Session) : Prop extends s.Noted where
  /-- There are objects for exactly the handles in use. -/
  exact : s.world.Exact
  /-- Channels share no object. -/
  disjoint : ∀ {e e' : EntityId} {c c' : Channel}, s.channels.get? e = some c →
    s.channels.get? e' = some c' → e ≠ e' →
      ∀ (o o' : Offset) (h : Handle), c.objectAt? o = some h → c'.objectAt? o' ≠ some h

namespace Owned

/-- Where the world is steady and the channels have the same objects, these stay owned. -/
theorem steady (h : s.Owned) (world : s.world.Steady s'.world)
    (channels : ∀ e, ∃ f : Channel → Channel, (∀ c, (f c).objectAt? = c.objectAt?) ∧
      s'.channels.get? e = (s.channels.get? e).map f) : s'.Owned := by
  refine ⟨h.toNoted.steady world channels, h.exact.steady world, ?_⟩
  intro e e' c c' opened opened' differs o o' k found
  obtain ⟨f, same, get⟩ := channels e
  obtain ⟨f', same', get'⟩ := channels e'
  rw [get] at opened
  rw [get'] at opened'
  obtain ⟨c, here, rfl⟩ := Option.map_eq_some_iff.mp opened
  obtain ⟨c', here', rfl⟩ := Option.map_eq_some_iff.mp opened'
  rw [same] at found
  rw [same']
  exact h.disjoint here here' differs o o' k found

/-- A routine keeps objects owned. -/
theorem routine (h : s.Owned) (r : s.Routine s') : s'.Owned :=
  h.steady r.world fun e => ⟨id, fun _ => rfl, by rw [r.channels, Option.map_id]; rfl⟩

/-- Only the world and the channels decide whether objects are owned. -/
theorem congr (h : s.Owned) (world : s'.world = s.world) (channels : s'.channels = s.channels) :
    s'.Owned :=
  h.steady (by rw [world]; exact .refl _) fun e =>
    ⟨id, fun _ => rfl, by rw [channels, Option.map_id]; rfl⟩

/-- The objects of a new channel are its own, because nobody has known them before. -/
theorem found (h : s.Owned) {draft : Draft} {channel : Channel}
    (step : s.found draft = (some channel, s'))
    (few : s.world.pool.issued + (⟨s, .found draft⟩ : Moment).allocations ≤ 2 ^ 32) :
    s'.Owned := by
  have noted := h.toNoted.found step few
  obtain ⟨id, a, rfl, -, founds⟩ := founds_of_found h.sound step few
  have fresh {e : EntityId} {c : Channel} (before : s.channels.get? e = some c) {o o' : Offset}
      {k : Handle} (mine : (Channel.ofAssembly id a).objectAt? o = some k) :
      c.objectAt? o' ≠ some k := fun theirs =>
    founds.births.fresh k (Channel.mem_of_objectAt?_ofAssembly mine) (h.members before theirs)
  refine ⟨noted, h.exact.births founds.births, ?_⟩
  intro e e' c c' opened opened' differs o o' k found
  rcases founds.new_or_before opened with ⟨rfl, rfl⟩ | ⟨-, before⟩
  · rcases founds.new_or_before opened' with ⟨rfl, -⟩ | ⟨-, before'⟩
    · exact absurd rfl differs
    · exact fresh before' found
  · rcases founds.new_or_before opened' with ⟨-, rfl⟩ | ⟨-, before'⟩
    · exact fun theirs => fresh before theirs found
    · exact h.disjoint before before' differs o o' k found

/-- Destroying an object leaves the others owned, if no channel opens and a channel that closes has
it as its root. -/
theorem destroy (h : s.Owned) (few : s.world.pool.issued < 2 ^ 32) {k : Handle}
    (world : s'.world = s.world.destroy k)
    (sub : ∀ {e : EntityId} {c : Channel}, s'.channels.get? e = some c →
      s.channels.get? e = some c)
    (kept : ∀ {e : EntityId} {c : Channel}, s.channels.get? e = some c → c.root ≠ k →
      s'.channels.get? e = some c) : s'.Owned := by
  obtain ⟨died, deaths, dead⟩ := h.exact.deaths_destroy h.sound few k
  rw [← world] at deaths dead
  refine ⟨h.toNoted.deaths deaths sub fun opened living => kept opened ?_, ?_, ?_⟩
  · rintro rfl
    exact absurd (living.symm.trans dead) (by decide)
  · rw [world]
    exact h.exact.destroy h.sound few k
  · exact fun here here' => h.disjoint (sub here) (sub here')

/-- An entity that is taken down takes its own objects along. -/
theorem remove (h : s.Owned) (few : s.world.pool.issued < 2 ^ 32) (entity : EntityId) :
    (s.remove entity).Owned := by
  rcases s.remove_cases entity with ⟨-, same⟩ | ⟨-, same⟩ | ⟨channel, here, same⟩
  · rw [same]
    exact h.congr rfl rfl
  · rw [same]
    exact h
  · rw [same]
    exact h.destroy few rfl (fun opened => (Channels.get?_of_close opened).2)
      (Channels.get?_close_of_root_ne here)

/-- The session that has received nothing has no objects. -/
theorem start (settings : Settings) (protocol : Protocol) : (start settings protocol).Owned := by
  have unbuilt (e : EntityId) : (Session.start settings protocol).channels.get? e = none := by
    simp [Session.start, Channels.get?, Channels.empty]
  refine ⟨⟨.start settings protocol, List.nodup_nil, ?_, ?_, ?_⟩, .initial, ?_⟩
  · intro e k noted
    cases noted
  · intro e c opened
    rw [unbuilt] at opened
    cases opened
  · intro e k noted
    cases noted
  · intro e e' c c' opened
    rw [unbuilt] at opened
    cases opened

end Owned

end Session

open Session in
/-- **Every apt move keeps objects owned** while there are handles left. -/
theorem Move.Apt.owned {w : Work} {m : Move} (apt : m.Apt .all w)
    (tidy : w.session.Tidy .all) (h : w.session.Owned)
    (few : w.session.world.pool.issued + (⟨w.session, m⟩ : Moment).allocations < 2 ^ 32) :
    (w.perform m).session.Owned := by
  have left : w.session.world.pool.issued < 2 ^ 32 :=
    Nat.lt_of_le_of_lt (Nat.le_add_right _ _) few
  cases m with
  | mark opens =>
    obtain ⟨held, same⟩ := w.exists_perform_mark opens
    rw [same]
    exact h.congr rfl rfl
  | hold _ | draft _ | settle _ _ _ => exact h.congr rfl rfl
  | alter change =>
    cases change with
    | addClass _ _ | addStartup _ =>
      exact ⟨⟨h.toIssued.congr rfl rfl, h.unique, h.known, h.listed, h.alive⟩, h.exact, h.disjoint⟩
    | placeLocal className =>
      have births := World.births_place h.sound left
        (o := ⟨none, className, Reference.rootOffset, ∅, true, []⟩) rfl
      exact ⟨h.toNoted.births births rfl, h.exact.births births, h.disjoint⟩
    | destroy object => exact h.destroy left rfl id fun opened _ => opened
  | learn arrival =>
    obtain ⟨held, same⟩ := w.exists_perform_learn arrival
    rw [same]
    exact h.congr rfl rfl
  | found draft =>
    rcases apt.found_cases with ⟨channel, step⟩ | ⟨same, -⟩
    · exact h.found step (Nat.le_of_lt few)
    · rw [same]
      exact h
  | populate channel data => exact h.routine (writes_populate channel _ data).routine
  | complete channel =>
    exact h.steady (w.session.world.steady_finalize channel.root) fun e =>
      ⟨id, fun _ => rfl, by rw [Option.map_id]; rfl⟩
  | authorize change =>
    refine h.steady (steady_changeAuthority w.session change) fun e => ?_
    obtain ⟨f, same, get⟩ := get?_changeAuthority tidy change e
    exact ⟨f, fun c => (same c).2, get⟩
  | write entity data => exact h.routine (writes_write _ entity data).routine
  | deliver call => exact h.routine (routine_deliverCall _ call)
  | replay arrival => exact h.routine (routine_resolveNow _ arrival)
  | remove entity => exact h.remove left entity

namespace Session

variable {settings : Settings} {protocol : Protocol} {acts : List Act} {s : Session}

/-- **After every run** that issues fewer handles than there are generations, objects are owned. -/
theorem owned_of_run (ok : (start settings protocol).run acts = .ok s)
    (few : allocations ((start settings protocol).course acts) < 2 ^ 32) : s.Owned :=
  (issued_induction (fun _ _ tidy apt _ few h => apt.owned tidy h few) (.start settings protocol)
    (fun a _ => a.within_all) ok few).2

/-- Whenever the objects of a draft are made, its entity has no channel. -/
theorem unbuilt_of_found (ok : (start settings protocol).run acts = .ok s) :
    ∀ m ∈ (start settings protocol).course acts, ∀ draft, m.move = .found draft →
      m.session.channels.get? draft.entity = none := by
  refine (run_induction (I := fun _ past => ∀ m ∈ past, ∀ draft,
    m.move = .found draft → m.session.channels.get? draft.entity = none) ?_
    (tidy_start settings protocol) (fun _ none => absurd none List.not_mem_nil)
    (fun a _ => a.within_all) ok).1
  intro w past m _ apt before k mem draft move
  rcases List.mem_append.mp mem with old | new
  · exact before k old draft move
  · cases List.mem_singleton.mp new
    cases (move : m = .found draft)
    exact apt.1

/-- **One entity, one object.** After every run that issues fewer handles than there are
generations, whatever the host destroys: no entity is a draft and built at once; of all roots ever
built for an entity the only one that may be alive is the root of its channel; no two channels share
an object; there are objects for exactly the handles in use; and whenever objects were made for an
entity, it had no channel yet. -/
theorem one_object_for_each_entity (ok : (start settings protocol).run acts = .ok s)
    (few : allocations ((start settings protocol).course acts) < 2 ^ 32) :
    (∀ e, s.drafts.get? e = none ∨ s.channels.get? e = none) ∧
      (∀ e, s.world.liveRootsOf e =
        ((s.channels.get? e).map Channel.root).toList.filter s.world.isAlive) ∧
      (∀ e e' c c', s.channels.get? e = some c → s.channels.get? e' = some c' → e ≠ e' →
        ∀ (o o' : Offset) (h : Handle), c.objectAt? o = some h → c'.objectAt? o' ≠ some h) ∧
      (∀ h, h ∈ s.world.objects ↔ s.world.isAlive h = true) ∧
      ∀ m ∈ (start settings protocol).course acts, ∀ draft, m.move = .found draft →
        ∀ assembly, m.session.channels.open? draft.entity assembly ≠ none := by
  have owned := owned_of_run ok few
  have tidy : s.Tidy .all := (run_induction (I := fun _ _ => True) (fun _ _ _ _ _ _ => trivial)
    (tidy_start settings protocol) trivial (fun a _ => a.within_all) ok).2
  refine ⟨?_, owned.liveRootsOf, fun _ _ _ _ => owned.disjoint, owned.exact, ?_⟩
  · intro e
    cases drafted : s.drafts.get? e with
    | none => exact .inl rfl
    | some draft => exact .inr (tidy.drafts e draft drafted).2.1
  · intro m mem draft move assembly
    simp [Channels.open?, Channels.contains_eq, unbuilt_of_found ok m mem draft move]

/-- A character loses its weapon, and a local object takes the slot. The character is removed and
built again. Then the root of a crate is destroyed, and the crate stays built. -/
def reusedSlots : List Act :=
  (Blueprint.ofClass 1 "Character").operations.map .receive ++
    [.alter (.destroy ⟨1, 0⟩), .alter (.placeLocal "Lever"), .receive (.removeEntity 1)] ++
    ((Blueprint.ofClass 1 "Character").operations ++
      (Blueprint.ofClass 2 "Crate").operations).map .receive ++ [.alter (.destroy ⟨3, 0⟩)]

theorem one_object_for_each_entity_reusedSlots :
    ∃ s, (start {} Stock.protocol).run reusedSlots = .ok s ∧
      allocations ((start {} Stock.protocol).course reusedSlots) < 2 ^ 32 ∧
      s.world.liveRootsOf 1 = [⟨0, 1⟩] ∧ s.world.liveRootsOf 2 = [] ∧
      ⟨1, 1⟩ ∈ s.world.objects ∧ ⟨3, 0⟩ ∉ s.world.objects ∧ s.drafts.get? 1 = none := by
  obtain ⟨s, ok, test⟩ := exists_run (start {} Stock.protocol) reusedSlots
    (fun s => (s.channels.get? 1).map Channel.root == some ⟨0, 1⟩ &&
      (s.channels.get? 2).map Channel.root == some ⟨3, 0⟩ &&
      (s.world.isAlive ⟨0, 1⟩ && s.world.isAlive ⟨1, 1⟩ && !s.world.isAlive ⟨3, 0⟩))
    (by decide +kernel)
  simp only [Bool.and_eq_true, beq_iff_eq, Bool.not_eq_true'] at test
  obtain ⟨⟨root, other⟩, ⟨alive, taken⟩, dead⟩ := test
  have few : allocations ((start {} Stock.protocol).course reusedSlots) < 2 ^ 32 := by
    decide +kernel
  obtain ⟨apart, live, -, objects, -⟩ := one_object_for_each_entity ok few
  refine ⟨s, ok, few, ?_, ?_, (objects _).mpr taken, fun mem => ?_, (apart 1).resolve_right ?_⟩
  · simp [live, root, alive]
  · simp [live, other, dead]
  · exact absurd ((objects _).mp mem) (by simp [dead])
  · intro unbuilt
    simp [unbuilt] at root

end Session

end Replica
