import Replica.Proofs.Directory
import Replica.Proofs.Graph.Members
import Replica.Proofs.Spares

/-! # Entities that leave no trace

Whatever is known of an entity comes with its root: as long as no root is built for it, no object is
made for it, none of its references begins to name an object, and no channel opens for it.

Main definitions:
* `World.MakesNone` — no object of an entity is made.
* `Session.Quiet` — nothing of an entity becomes known.
* `Session.quiet_of_run` — so it is after a run that builds no root for the entity. -/

namespace Replica

/-! ## Worlds -/

namespace World

variable {w w₁ w₂ : World} {entity : EntityId}

/-- Between two worlds **no object of an entity is made**: all that are in the second are in the
first. -/
def MakesNone (entity : EntityId) (w w' : World) : Prop :=
  ∀ (h : Handle) (o : Object), w'.objects[h]? = some o → o.entity = some entity →
    ∃ o', w.objects[h]? = some o' ∧ o'.entity = some entity

namespace MakesNone

theorem refl (entity : EntityId) (w : World) : MakesNone entity w w :=
  fun _ _ stored owned => ⟨_, stored, owned⟩

theorem trans (h₁ : MakesNone entity w w₁) (h₂ : MakesNone entity w₁ w₂) :
    MakesNone entity w w₂ := by
  intro h o stored owned
  obtain ⟨o', stored, owned⟩ := h₂ h o stored owned
  exact h₁ h o' stored owned

/-- A steady change of the world makes no object. -/
theorem of_steady (steady : w.Steady w₁) : MakesNone entity w w₁ := by
  intro h o stored owned
  obtain ⟨o', stored, -, owner⟩ := steady.before stored
  exact ⟨o', stored, owner.trans owned⟩

/-- Objects that go make none. -/
theorem of_subset (sub : ∀ {h : Handle} {o : Object}, w₁.objects[h]? = some o →
    w.objects[h]? = some o) : MakesNone entity w w₁ :=
  fun _ _ stored owned => ⟨_, sub stored, owned⟩

/-- An object that belongs elsewhere may be put anywhere. -/
theorem insert {o : Object} (elsewhere : o.entity ≠ some entity) {k : Handle}
    (objects : w₁.objects = w.objects.insert k o) : MakesNone entity w w₁ := by
  intro h p stored owned
  rw [objects, Std.ExtTreeMap.getElem?_insert] at stored
  split at stored
  · cases stored
    exact absurd owned elsewhere
  · exact ⟨p, stored, owned⟩

/-- The parts of another entity are none of this one. -/
theorem placeParts {e : EntityId} (other : e ≠ entity) (className : String)
    (offsets : List Offset) (w : World) :
    MakesNone entity w (w.placeParts e className offsets).2 := by
  induction offsets generalizing w with
  | nil => exact .refl entity w
  | cons offset rest ih =>
    refine .trans (insert ?_ rfl) (ih _)
    simpa using other

/-- Building another entity makes no object of this one. -/
theorem instantiate {e : EntityId} (other : e ≠ entity) {spawn : Spawn} {assembly : Assembly}
    (ok : w.instantiate e spawn = .ok (assembly, w₁)) : MakesNone entity w w₁ := by
  obtain ⟨offsets, object, -, -, owner, -, rfl⟩ := instantiate_eq_ok ok
  refine .trans (placeParts other spawn.className offsets { w with pool := w.pool.allocate.2 })
    (insert ?_ rfl)
  simpa [owner] using other

/-- Taking objects away makes none. -/
theorem discards (children : List Handle) (w : World) :
    MakesNone entity w (children.foldl discard w) := by
  induction children generalizing w with
  | nil => exact .refl entity w
  | cons k rest ih =>
    refine .trans (of_subset fun {h o} stored => ?_) (ih _)
    simp only [discard, Std.ExtTreeMap.getElem?_erase] at stored
    split at stored
    · cases stored
    · exact stored

/-- Destroying an object makes none. -/
theorem destroy (w : World) (k : Handle) : MakesNone entity w (w.destroy k) := by
  unfold World.destroy
  split
  · exact .refl entity w
  · rename_i o _
    exact .trans (discards o.children w) (discards [k] _)

end MakesNone

end World

namespace Session

variable {s s₁ s₂ : Session} {entity : EntityId}

/-! ## Sessions -/

/-- An entity is **quiet** between two sessions if no root is built for it, no channel opens, no
object is made for it, and none of its references begins to name an object. -/
structure Quiet (entity : EntityId) (s s' : Session) : Prop where
  /-- No root is built. -/
  roots : s'.world.rootsOf entity = s.world.rootsOf entity
  /-- No channel opens. -/
  closed : s.channels.get? entity = none → s'.channels.get? entity = none
  /-- No object is made. -/
  objects : s.world.MakesNone entity s'.world
  /-- No reference begins to name an object. -/
  names : ∀ (r : Reference) (h : Handle), r.entity = entity → s'.directory.handle? r = some h →
    s.directory.handle? r = some h

namespace Quiet

theorem refl (entity : EntityId) (s : Session) : Quiet entity s s :=
  ⟨rfl, id, .refl entity s.world, fun _ _ _ => id⟩

theorem trans (h₁ : Quiet entity s s₁) (h₂ : Quiet entity s₁ s₂) : Quiet entity s s₂ where
  roots := h₂.roots.trans h₁.roots
  closed unbuilt := h₂.closed (h₁.closed unbuilt)
  objects := h₁.objects.trans h₂.objects
  names r h own found := h₁.names r h own (h₂.names r h own found)

/-- What makes no objects, opens no channel and names nothing leaves every entity quiet. -/
theorem of_steady (world : s.world.Steady s₁.world) (channels : s₁.channels = s.channels)
    (directory : s₁.directory = s.directory) : Quiet entity s s₁ where
  roots := World.rootsOf_congr world.instantiated entity
  closed := by rw [channels]; exact id
  objects := .of_steady world
  names r h _ := by rw [directory]; exact id

/-- A routine leaves every entity quiet. -/
theorem of_routine (r : s.Routine s₁) : Quiet entity s s₁ :=
  .of_steady r.world r.channels r.directory

end Quiet

/-- Taking an entity down leaves every entity quiet. -/
theorem quiet_remove (s : Session) (entity e : EntityId) : Quiet entity s (s.remove e) := by
  rcases s.remove_cases e with ⟨-, same⟩ | ⟨-, same⟩ | ⟨channel, -, same⟩
  · rw [same]
    exact .of_steady (.refl _) rfl rfl
  · rw [same]
    exact .refl entity s
  · rw [same]
    refine ⟨World.rootsOf_congr (World.setup_destroy _ _).2.2 entity, fun unbuilt => ?_,
      .destroy s.world channel.root, fun r h _ found => ?_⟩
    · show (s.channels.close e).get? entity = none
      rw [Channels.get?_close, unbuilt, ite_self]
    · have found : (s.directory.unregisterEntity e).handle? r = some h := found
      rw [Directory.handle?_unregisterEntity] at found
      split at found
      · cases found
      · exact found

/-- Building an entity leaves the others quiet. -/
theorem quiet_found {draft : Draft} {channel : Channel}
    (step : s.found draft = (some channel, s₁)) (other : draft.entity ≠ entity) :
    Quiet entity s s₁ := by
  have spared := spares_found step other
  have named := (found_channels step).1
  obtain ⟨spawn, assembly, world, channels, -, built, opened, rfl⟩ := found_eq_some.mp step
  refine ⟨spared.roots, spared.unbuilt.mpr, .instantiate other built, fun r h own found => ?_⟩
  refine (Directory.handle?_of_foldl_register channel.members found).resolve_left ?_
  rintro ⟨k, mem⟩
  exact other (named.symm.trans ((Channel.entity_of_mem_members mem).symm.trans own))

/-- What a host does that reports no object of an entity. -/
def silentAbout (entity : EntityId) : Scope :=
  { Scope.all with arrival := fun arrival => arrival.reference.entity ≠ entity }

/-- **A move** builds a root for an entity, or leaves the entity quiet. -/
theorem quiet_perform {w : Work} {m : Move} (apt : m.Apt (silentAbout entity) w)
    (tidy : w.session.Tidy (silentAbout entity)) :
    (∃ root, (w.perform m).session.world.rootsOf entity =
        w.session.world.rootsOf entity ++ [root]) ∨
      Quiet entity w.session (w.perform m).session := by
  cases m with
  | mark opens =>
    obtain ⟨held, same⟩ := w.exists_perform_mark opens
    rw [same]
    exact .inr (.of_steady (.refl _) rfl rfl)
  | hold _ | draft _ | settle _ _ _ => exact .inr (.of_steady (.refl _) rfl rfl)
  | alter change =>
    cases change with
    | addClass _ _ | addStartup _ =>
      exact .inr ⟨rfl, id, .of_subset id, fun _ _ _ => id⟩
    | placeLocal className =>
      exact .inr ⟨rfl, id, .insert (by simp) rfl, fun _ _ _ => id⟩
    | destroy object =>
      exact .inr ⟨World.rootsOf_congr (World.setup_destroy _ object).2.2 entity, id,
        .destroy _ object, fun _ _ _ => id⟩
  | learn arrival =>
    obtain ⟨held, same⟩ := w.exists_perform_learn arrival
    rw [same]
    -- The host reports no object of the entity.
    refine .inr ⟨rfl, id, .refl _ _, fun r h own found => ?_⟩
    refine Directory.handle?_of_register ?_ found
    rintro rfl
    exact apt own
  | found draft =>
    rcases apt.found_cases with ⟨channel, step⟩ | ⟨same, -⟩
    -- Its own construction is the one move that builds a root for it.
    · by_cases own : draft.entity = entity
      · subst own
        obtain ⟨_, assembly, _, _, -, built, -, same⟩ := found_eq_some.mp step
        refine .inl ⟨assembly.root, ?_⟩
        rw [World.rootsOf, World.rootsOf, same, (World.setup_of_instantiate built).2.2]
        simp
      · exact .inr (quiet_found step own)
    · rw [same]
      exact .inr (.refl _ _)
  | populate channel data => exact .inr (.of_routine (writes_populate channel _ data).routine)
  | complete channel =>
    exact .inr (.of_steady (w.session.world.steady_finalize channel.root) rfl rfl)
  | authorize change =>
    have steady := steady_changeAuthority w.session change
    refine .inr ⟨World.rootsOf_congr steady.instantiated entity, fun unbuilt => ?_,
      .of_steady steady, ?_⟩
    · rcases get?_changeAuthority_eq tidy change entity with same | set
      · exact same.trans unbuilt
      · rw [unbuilt] at set
        exact set
    · intro r h _
      simp only [Work.perform, changeAuthority]
      split <;> exact id
  | write entity data => exact .inr (.of_routine (writes_write _ entity data).routine)
  | deliver call => exact .inr (.of_routine (routine_deliverCall _ call))
  | replay arrival => exact .inr (.of_routine (routine_resolveNow _ arrival))
  | remove e => exact .inr (quiet_remove _ entity e)

/-- **A run leaves an entity quiet** if it builds no root for the entity. -/
theorem quiet_of_run (tidy : s.Tidy (silentAbout entity)) {acts : List Act}
    (within : ∀ a ∈ acts, a.Within (silentAbout entity)) (ok : s.run acts = .ok s₁)
    (roots : s₁.world.rootsOf entity = s.world.rootsOf entity) : Quiet entity s s₁ := by
  -- Roots are only ever added, so they are the same all along.
  let I (w : Work) (_ : List Moment) : Prop :=
    (s.world.rootsOf entity).length < (w.session.world.rootsOf entity).length ∨
      Quiet entity s w.session
  have grown := (run_induction (I := I) (fun w _ m tidy apt before => by
    rcases quiet_perform apt tidy with ⟨root, built⟩ | quiet
    · refine .inl ?_
      rw [built, List.length_append]
      rcases before with more | quiet
      · exact Nat.lt_add_right _ more
      · rw [quiet.roots]
        exact Nat.lt_succ_self _
    · refine before.imp (fun more => ?_) (·.trans quiet)
      rwa [quiet.roots]) tidy (.inr (.refl entity s)) within ok).1
  refine grown.resolve_left fun more => ?_
  rw [show s₁.idle.session.world.rootsOf entity = s.world.rootsOf entity from roots] at more
  exact Nat.lt_irrefl _ more

end Session

end Replica
