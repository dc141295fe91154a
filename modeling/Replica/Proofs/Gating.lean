import Replica.Proofs.Drain

/-! # Drafts and the containers they wait for

That an entity waits for a container is noted twice: by its draft, and in the list of those who wait
for the container. Every change of the drafts keeps both in agreement, keeps the lists in order, and
lets a draft be ready only if its container is loaded.

Main definitions:
* `Streaming.Sound` — nobody waits twice for a container, or for one that is loaded.
* `Streaming.Queues` — each list has lost some entities, or has got one more at its end.
* `Draft.Reads`, `Draft.Staged` — the spawn data of a draft is the first that it has collected, and
  its stage follows from it.
* `Drafts.Gated` — the drafts and the lists agree. -/

namespace Replica

/-! ## Lists of those who wait -/

namespace Streaming

variable {s : Streaming}

/-- Streaming is **sound** if nobody is listed twice, no list is kept that is empty, and nobody
waits for a container that is loaded. -/
structure Sound (s : Streaming) : Prop where
  /-- Nobody is listed twice. -/
  nodup : ∀ c, (s.waitingOn c).Nodup
  /-- Where a list is kept, somebody waits. -/
  occupied : ∀ c : Container, s.waiting[c]? ≠ some []
  /-- Nobody waits for a container that is loaded. -/
  unloaded : ∀ c, s.isLoaded c = true → s.waitingOn c = []

namespace Sound

/-- Streaming is sound where nobody waits. -/
theorem empty : Streaming.empty.Sound := by
  refine ⟨fun c => ?_, fun c => ?_, fun c _ => ?_⟩ <;> simp [Streaming.empty, waitingOn]

/-- Streaming stays sound when an entity waits for a container that is not loaded. -/
theorem defer (h : s.Sound) {c : Container} (shut : s.isLoaded c = false) (entity : EntityId) :
    (s.defer c entity).Sound := by
  refine ⟨fun k => ?_, fun k => ?_, fun k loaded => ?_⟩
  · rw [waitingOn_defer]
    split
    · rename_i new
      rw [List.nodup_append]
      refine ⟨h.nodup c, List.nodup_singleton entity, fun e mem e' mem' same => ?_⟩
      exact new.2 (List.mem_singleton.mp mem' ▸ same ▸ mem)
    · exact h.nodup k
  · simp only [Streaming.defer, Std.ExtTreeMap.getElem?_insert]
    split
    · rw [ne_eq, Option.some.injEq]
      split
      · rename_i known
        exact List.ne_nil_of_mem (List.contains_iff_mem.mp known)
      · exact List.append_ne_nil_of_right_ne_nil _ (List.cons_ne_nil _ _)
    · exact h.occupied k
  · rw [waitingOn_defer, if_neg]
    · exact h.unloaded k loaded
    · rintro ⟨rfl, -⟩
      exact absurd (shut.symm.trans loaded) (by decide)

/-- Streaming stays sound when a container is loaded. -/
theorem load (h : s.Sound) (c : Container) : (s.load c).Sound := by
  refine ⟨fun k => ?_, fun k => ?_, fun k loaded => ?_⟩
  · rw [waitingOn_load]
    split
    · exact List.nodup_nil
    · exact h.nodup k
  · simp only [Streaming.load, Std.ExtTreeMap.getElem?_erase]
    split
    · exact (Option.some_ne_none _).symm
    · exact h.occupied k
  · rw [waitingOn_load]
    split
    · rfl
    · rename_i other
      exact h.unloaded k ((isLoaded_load.mp loaded).resolve_left other)

/-- Streaming stays sound when a container is unloaded. -/
theorem unload (h : s.Sound) (c : Container) : (s.unload c).Sound :=
  ⟨h.nodup, h.occupied, fun k loaded => h.unloaded k (isLoaded_unload.mp loaded).2⟩

/-- Streaming stays sound when an entity waits no longer. -/
theorem forget (h : s.Sound) (c : Container) (entity : EntityId) : (s.forget c entity).Sound := by
  refine ⟨fun k => ?_, fun k => ?_, fun k loaded => ?_⟩
  · rw [waitingOn_forget]
    split
    · exact (h.nodup c).filter _
    · exact h.nodup k
  · simp only [Streaming.forget]
    split
    · rw [Std.ExtTreeMap.getElem?_erase]
      split
      · exact (Option.some_ne_none _).symm
      · exact h.occupied k
    · rename_i left
      rw [Std.ExtTreeMap.getElem?_insert]
      split
      · exact fun same => left (List.isEmpty_iff.mpr (Option.some.inj same))
      · exact h.occupied k
  · rw [waitingOn_forget]
    have none : s.waitingOn k = [] := h.unloaded k loaded
    split
    · rename_i same
      rw [same, none, List.filter_nil]
    · exact none

/-- A container that is loaded already is not loaded again. -/
theorem load_of_isLoaded (h : s.Sound) {c : Container} (loaded : s.isLoaded c = true) :
    s.load c = s := by
  have unlisted : s.waiting[c]? = none := by
    have nobody := h.unloaded c loaded
    cases listed : s.waiting[c]? with
    | none => rfl
    | some es =>
      rw [waitingOn, listed, Option.getD_some] at nobody
      exact absurd (nobody ▸ listed) (h.occupied c)
  have sameLoaded : s.loaded.insert c = s.loaded := by
    refine Std.ExtTreeSet.ext_mem fun k => Std.ExtTreeSet.mem_insert.trans (or_iff_right_of_imp ?_)
    intro same
    exact Std.LawfulEqOrd.compare_eq_iff_eq.mp same ▸ loaded
  have sameWaiting : s.waiting.erase c = s.waiting := by
    refine Std.ExtTreeMap.ext_getElem? fun k => ?_
    rw [Std.ExtTreeMap.getElem?_erase]
    split
    · rename_i same
      rw [← Std.LawfulEqOrd.compare_eq_iff_eq.mp same, unlisted]
    · rfl
  rw [Streaming.load, sameLoaded, sameWaiting]

end Sound

/-- Entities **queue up** if each list loses some of them, or gets one more at its end. -/
def Queues (s s' : Streaming) : Prop :=
  ∀ c, (s'.waitingOn c).Sublist (s.waitingOn c) ∨ ∃ e, s'.waitingOn c = s.waitingOn c ++ [e]

namespace Queues

theorem refl (s : Streaming) : s.Queues s := fun _ => .inl (.refl _)

/-- An entity that waits is listed at the end. -/
theorem defer (s : Streaming) (c : Container) (entity : EntityId) :
    s.Queues (s.defer c entity) := by
  intro k
  rw [waitingOn_defer]
  split
  · rename_i new
    exact .inr ⟨entity, by rw [new.1]⟩
  · exact .inl (.refl _)

/-- A container that is loaded empties its list and no other. -/
theorem load (s : Streaming) (c : Container) : s.Queues (s.load c) := by
  intro k
  rw [waitingOn_load]
  split
  · exact .inl (List.nil_sublist _)
  · exact .inl (.refl _)

/-- An entity that waits no longer is taken from its list. -/
theorem forget (s : Streaming) (c : Container) (entity : EntityId) :
    s.Queues (s.forget c entity) := by
  intro k
  rw [waitingOn_forget]
  split
  · rename_i same
    exact .inl (same ▸ List.filter_sublist)
  · exact .inl (.refl _)

end Queues

end Streaming

/-! ## Stages -/

/-- A draft **reads** spawn data if this is what its first spawn component says, and it has been
entered. -/
structure Draft.Reads (d : Draft) (spawn : Spawn) : Prop where
  /-- The spawn data has been entered. -/
  entered : d.spawn = some spawn
  /-- The first spawn component says so. -/
  first : World.readSpawn d.entity d.components = .ok spawn

/-- A draft is **staged** if its stage follows from its spawn data: without spawn data it is
collecting, and it is ready only if its container is loaded. -/
def Draft.Staged (s : Streaming) (d : Draft) : Prop :=
  match d.stage with
  | .collecting => d.spawn = none
  | .waiting c => ∃ spawn, d.Reads spawn ∧ spawn.container = some c
  | .ready => ∃ spawn, d.Reads spawn ∧ ∀ c, spawn.container = some c → s.isLoaded c = true

/-- A draft stays staged when its stage stays and whatever it reads. -/
theorem Draft.Staged.congr {s : Streaming} {d d' : Draft} (h : d.Staged s)
    (stage : d'.stage = d.stage) (spawn : d'.spawn = d.spawn)
    (reads : ∀ spawn, d.Reads spawn → d'.Reads spawn) : d'.Staged s := by
  unfold Staged at h ⊢
  rw [stage]
  split at h
  · rw [spawn]
    exact h
  · obtain ⟨spawn, read, container⟩ := h
    exact ⟨spawn, reads spawn read, container⟩
  · obtain ⟨spawn, read, loaded⟩ := h
    exact ⟨spawn, reads spawn read, loaded⟩

/-- A draft that is not ready stays staged whatever is loaded. -/
theorem Draft.Staged.of_unready {s s' : Streaming} {d : Draft} (h : d.Staged s)
    (unready : d.stage ≠ .ready) : d.Staged s' := by
  unfold Staged at h ⊢
  split at h
  · exact h
  · exact h
  · exact absurd ‹_› unready

/-! ## Drafts and lists -/

namespace Drafts

variable {ds : Drafts} {next : List EntityId}

/-- Drafts are **gated**, with `next` to be built, if an entity is listed as waiting for a container
exactly if its draft says so, and only those that are next are ready. -/
structure Gated (next : List EntityId) (ds : Drafts) : Prop where
  /-- The lists are in order. -/
  sound : ds.streaming.Sound
  /-- The lists say what the drafts say. -/
  waiting : ∀ c e, e ∈ ds.streaming.waitingOn c ↔ ds.stage? e = some (.waiting c)
  /-- Those that are ready are next. -/
  ready : ∀ e, ds.stage? e = some .ready → e ∈ next
  /-- Each draft is staged. -/
  staged : ∀ e d, ds.get? e = some d → d.Staged ds.streaming

/-- An entity is at the stage of its draft. -/
theorem stage?_eq_some {e : EntityId} {stage : Stage} :
    ds.stage? e = some stage ↔ ∃ d, ds.get? e = some d ∧ d.stage = stage :=
  Option.map_eq_some_iff

/-- Only a draft that waits for a container is taken from a list when it is dropped. -/
theorem streaming_remove (ds : Drafts) (entity : EntityId) :
    (∃ c, ds.stage? entity = some (.waiting c) ∧
      (ds.remove entity).streaming = ds.streaming.forget c entity) ∨
      (∀ c, ds.stage? entity ≠ some (.waiting c)) ∧
        (ds.remove entity).streaming = ds.streaming := by
  unfold remove stage?
  cases ds.get? entity with
  | none => exact .inr ⟨fun _ => by simp, rfl⟩
  | some d =>
    dsimp only [Option.map_some]
    cases d.stage with
    | waiting c => exact .inl ⟨c, rfl, rfl⟩
    | _ => exact .inr ⟨fun _ => by simp, rfl⟩

/-- A draft that is dropped is taken from its list. -/
theorem queues_remove (ds : Drafts) (entity : EntityId) :
    ds.streaming.Queues (ds.remove entity).streaming := by
  rcases ds.streaming_remove entity with ⟨c, -, streaming⟩ | ⟨-, streaming⟩
  · rw [streaming]
    exact .forget _ c entity
  · rw [streaming]
    exact .refl _

/-- Spawn data lists an entity at the end, if anywhere. -/
theorem queues_setSpawn (ds : Drafts) (entity : EntityId) (spawn : Spawn) :
    ds.streaming.Queues (ds.setSpawn entity spawn).streaming := by
  unfold setSpawn
  split
  · dsimp only
    split
    · rw [streaming_modify]
      exact .defer _ _ entity
    · rw [streaming_modify]
      exact .refl _
  · exact .refl _

/-- Several drafts are changed in the same way; changing one of them again has no effect. -/
theorem foldl_modify {f : Draft → Draft} (again : ∀ d, f (f d) = f d) (es : List EntityId)
    (ds : Drafts) :
    (es.foldl (·.modify · f) ds).streaming = ds.streaming ∧
      ∀ e, (es.foldl (·.modify · f) ds).get? e =
        if e ∈ es then (ds.get? e).map f else ds.get? e := by
  induction es generalizing ds with
  | nil => exact ⟨rfl, fun e => (if_neg List.not_mem_nil).symm⟩
  | cons k es ih =>
    obtain ⟨streaming, get⟩ := ih (ds.modify k f)
    refine ⟨streaming.trans (streaming_modify ds k f), fun e => ?_⟩
    rw [List.foldl_cons, get, get?_modify]
    by_cases own : k = e
    · subst e
      cases ds.get? k <;> simp [again]
    · simp [own, Ne.symm own]

/-- The lists after a container is loaded, whatever the drafts are. -/
theorem streaming_load (ds : Drafts) (c : Container) :
    (ds.load c).2.streaming = ds.streaming.load c :=
  (foldl_modify (f := ({ · with stage := .ready })) (fun _ => rfl) _ _).1

/-- A draft that gets its spawn data gets the stage that follows from it. -/
theorem get?_setSpawn_of_found {entity : EntityId} {d : Draft} (found : ds.get? entity = some d)
    (spawn : Spawn) (e : EntityId) : (ds.setSpawn entity spawn).get? e =
      if entity = e then some { d with spawn := some spawn, stage := ds.stageFor spawn }
      else ds.get? e := by
  rw [get?_setSpawn]
  split
  · subst e
    rw [found]
    rfl
  · rfl

/-- A draft that gets spawn data inside a container that is not loaded is listed as waiting. -/
theorem streaming_setSpawn_of_waiting {entity : EntityId} {d : Draft}
    (found : ds.get? entity = some d) {spawn : Spawn} {c : Container}
    (waits : ds.stageFor spawn = .waiting c) :
    (ds.setSpawn entity spawn).streaming = ds.streaming.defer c entity := by
  simp [setSpawn, contains_eq, found, waits, streaming_modify]

namespace Gated

/-- Where there is no draft, none needs to be next. -/
theorem empty : Drafts.empty.Gated [] := by
  have absent : ∀ e, Drafts.empty.get? e = none := by simp [Drafts.empty, get?]
  refine ⟨.empty, fun c e => ?_, fun e ready => ?_, fun e d found => ?_⟩
  · rw [stage?, absent]
    exact iff_of_false (by simp [Drafts.empty, Streaming.empty, Streaming.waitingOn]) (by simp)
  · simp [stage?, absent] at ready
  · simp [absent] at found

/-- Others may be next besides. -/
theorem mono (h : ds.Gated next) {next' : List EntityId} (sub : ∀ e ∈ next, e ∈ next') :
    ds.Gated next' :=
  ⟨h.sound, h.waiting, fun e ready => sub e (h.ready e ready), h.staged⟩

/-- Where nobody is next, no draft is ready. -/
theorem unready (h : ds.Gated []) {e : EntityId} {d : Draft} (found : ds.get? e = some d) :
    d.stage ≠ .ready := fun isReady =>
  absurd (h.ready e (stage?_eq_some.mpr ⟨d, found, isReady⟩)) List.not_mem_nil

/-- Who is not ready need not be next. -/
theorem skip {entity : EntityId} (h : ds.Gated (entity :: next))
    (unready : ds.stage? entity ≠ some .ready) : ds.Gated next := by
  refine ⟨h.sound, h.waiting, fun e ready => ?_, h.staged⟩
  refine (List.mem_cons.mp (h.ready e ready)).resolve_left ?_
  rintro rfl
  exact unready ready

/-- Where the lists stay as they are, drafts must go on waiting for the same. -/
theorem congr (h : ds.Gated next) {ds' : Drafts} {next' : List EntityId}
    (streaming : ds'.streaming = ds.streaming)
    (waiting : ∀ e c, ds'.stage? e = some (.waiting c) ↔ ds.stage? e = some (.waiting c))
    (ready : ∀ e, ds'.stage? e = some .ready → e ∈ next')
    (staged : ∀ e d, ds'.get? e = some d → d.Staged ds.streaming) : ds'.Gated next' where
  sound := by rw [streaming]; exact h.sound
  waiting c e := by rw [streaming, waiting]; exact h.waiting c e
  ready
  staged e d found := by rw [streaming]; exact staged e d found

/-- A draft may change as long as it stays staged in its stage. -/
theorem modify (h : ds.Gated next) (entity : EntityId) {f : Draft → Draft}
    (stage : ∀ d, (f d).stage = d.stage)
    (staged : ∀ d, d.Staged ds.streaming → (f d).Staged ds.streaming) :
    (ds.modify entity f).Gated next := by
  have same : ∀ e, (ds.modify entity f).stage? e = ds.stage? e := by
    intro e
    unfold stage?
    rw [get?_modify]
    split
    · rw [Option.map_map]
      exact congrArg (Option.map · _) (funext stage)
    · rfl
  refine h.congr (streaming_modify ds entity f) (fun e c => by rw [same])
    (fun e ready => h.ready e (same e ▸ ready)) fun e d found => ?_
  rw [get?_modify] at found
  split at found
  · obtain ⟨d, before, rfl⟩ := Option.map_eq_some_iff.mp found
    exact staged d (h.staged e d before)
  · exact h.staged e d found

/-- What is collected later changes nothing about spawn data that was read. -/
theorem addComponent (h : ds.Gated next) (entity : EntityId) (data : ComponentData) :
    (ds.addComponent entity data).Gated next :=
  h.modify entity (fun _ => rfl) fun _ staged => staged.congr rfl rfl fun _ read =>
    ⟨read.entered, Session.readSpawn_append read.first (by simp) [data]⟩

/-- Drafts stay gated when an authority is held back. -/
theorem addAuthority (h : ds.Gated next) (entity : EntityId) (component : ComponentId)
    (authority : Authority) : (ds.addAuthority entity component authority).Gated next :=
  h.modify entity (fun _ => rfl) fun _ staged => staged.congr rfl rfl fun _ read =>
    ⟨read.entered, read.first⟩

/-- A draft that begins is collecting. -/
theorem begin (h : ds.Gated next) (entity : EntityId) : (ds.begin entity).Gated next := by
  have new : ∀ e d, (ds.begin entity).get? e = some d →
      ds.get? e = some d ∨ ds.get? e = none ∧ d = { entity } := by
    intro e d found
    rw [get?_begin] at found
    split at found
    · cases before : ds.get? e with
      | none => exact .inr ⟨rfl, by simpa [before, eq_comm] using found⟩
      | some _ => exact .inl (by simpa [before] using found)
    · exact .inl found
  have old : ∀ e d, ds.get? e = some d → (ds.begin entity).get? e = some d := by
    intro e d found
    rw [get?_begin]
    split <;> simp [found]
  refine h.congr (streaming_begin ds entity) (fun e c => ?_) (fun e ready => ?_) fun e d found => ?_
  · rw [stage?_eq_some, stage?_eq_some]
    constructor
    · rintro ⟨d, found, waits⟩
      rcases new e d found with before | ⟨-, rfl⟩
      · exact ⟨d, before, waits⟩
      · cases waits
    · rintro ⟨d, found, waits⟩
      exact ⟨d, old e d found, waits⟩
  · obtain ⟨d, found, isReady⟩ := stage?_eq_some.mp ready
    rcases new e d found with before | ⟨-, rfl⟩
    · exact h.ready e (stage?_eq_some.mpr ⟨d, before, isReady⟩)
    · cases isReady
  · rcases new e d found with before | ⟨-, rfl⟩
    · exact h.staged e d before
    · exact (rfl : (none : Option Spawn) = none)

/-- A draft that is taken out to be built has waited for nothing. -/
theorem take {entity : EntityId} (h : ds.Gated (entity :: next))
    (free : ∀ c, ds.stage? entity ≠ some (.waiting c)) : (ds.without entity).Gated next := by
  have get := get?_without ds entity
  refine h.congr rfl (fun e c => ?_) (fun e ready => ?_) fun e d found => ?_
  · unfold stage?
    rw [get]
    split
    · subst e
      exact iff_of_false (by simp) (free c)
    · rfl
  · unfold stage? at ready
    rw [get] at ready
    split at ready
    · cases ready
    · rename_i other
      exact (List.mem_cons.mp (h.ready e ready)).resolve_left (Ne.symm other)
  · rw [get] at found
    split at found
    · cases found
    · exact h.staged e d found

/-- A draft that nothing is left of has waited for nothing afterwards. -/
theorem remove (h : ds.Gated next) (entity : EntityId) : (ds.remove entity).Gated next := by
  have kept : ∀ e d, (ds.remove entity).get? e = some d → ds.get? e = some d := by
    intro e d found
    rw [get?_remove] at found
    split at found
    · cases found
    · exact found
  have ready : ∀ e, (ds.remove entity).stage? e = some .ready → e ∈ next := by
    intro e ready
    obtain ⟨d, found, isReady⟩ := stage?_eq_some.mp ready
    exact h.ready e (stage?_eq_some.mpr ⟨d, kept e d found, isReady⟩)
  have stage : ∀ e, (ds.remove entity).stage? e = if entity = e then none else ds.stage? e := by
    intro e
    unfold stage?
    rw [get?_remove]
    split <;> rfl
  rcases streaming_remove ds entity with ⟨c, here, streaming⟩ | ⟨idle, streaming⟩
  · refine ⟨streaming ▸ h.sound.forget c entity, fun k e => ?_, ready, fun e d there => ?_⟩
    · rw [streaming, Streaming.waitingOn_forget, stage]
      by_cases own : entity = e
      · subst e
        rw [if_pos rfl, iff_false_right (by simp)]
        split
        · simp
        · rename_i other
          rw [h.waiting, here]
          simpa using other
      · rw [if_neg own, ← h.waiting]
        split
        · rename_i same
          subst k
          simp [Ne.symm own]
        · rfl
    · rw [streaming]
      exact h.staged e d (kept e d there)
  · refine h.congr streaming (fun e c => ?_) ready fun e d there => h.staged e d (kept e d there)
    rw [stage]
    split
    · subst e
      exact iff_of_false (by simp) (idle c)
    · rfl

/-- A draft that gets its spawn data waits if its container is not loaded, and is next otherwise. -/
theorem setSpawn (h : ds.Gated next) {entity : EntityId} {d : Draft} {spawn : Spawn}
    (found : ds.get? entity = some d) (collecting : d.stage = .collecting)
    (read : World.readSpawn d.entity d.components = .ok spawn) :
    (ds.setSpawn entity spawn).Gated (entity :: next) := by
  have get := get?_setSpawn_of_found found spawn
  have stage : ∀ e, (ds.setSpawn entity spawn).stage? e =
      if entity = e then some (ds.stageFor spawn) else ds.stage? e := by
    intro e
    unfold stage?
    rw [get]
    split <;> rfl
  have idle : ∀ c, ds.stage? entity ≠ some (.waiting c) := by simp [stage?, found, collecting]
  have ready : ∀ e, (ds.setSpawn entity spawn).stage? e = some .ready → e ∈ entity :: next := by
    intro e ready
    rw [stage] at ready
    split at ready
    · exact List.mem_cons.mpr (.inl (Eq.symm ‹_›))
    · exact List.mem_cons_of_mem _ (h.ready e ready)
  have staged : ∀ e d', (ds.setSpawn entity spawn).get? e = some d' → d'.Staged ds.streaming := by
    intro e d' there
    rw [get] at there
    split at there
    · cases there
      have reads (stage : Stage) : Draft.Reads { d with spawn := some spawn, stage } spawn :=
        ⟨rfl, read⟩
      unfold Draft.Staged
      dsimp only
      rcases stageFor_cases ds spawn with ⟨c, asked, -, waits⟩ | ⟨free, loaded⟩
      · rw [waits]
        exact ⟨spawn, reads _, asked⟩
      · rw [free]
        exact ⟨spawn, reads _, loaded⟩
    · exact h.staged e d' there
  -- The entity joins the list of its container if that is not loaded, and no list otherwise.
  rcases stageFor_cases ds spawn with ⟨c, -, shut, waits⟩ | ⟨free, -⟩
  · have streaming := streaming_setSpawn_of_waiting found waits
    have new : entity ∉ ds.streaming.waitingOn c := fun mem => idle c ((h.waiting c entity).mp mem)
    refine ⟨streaming ▸ h.sound.defer shut entity, fun k e => ?_, ready, ?_⟩
    · rw [streaming, Streaming.waitingOn_defer, stage, waits]
      by_cases own : entity = e
      · subst e
        rw [if_pos rfl, Option.some.injEq, Stage.waiting.injEq]
        split
        · simp [*]
        · rename_i other
          rw [h.waiting, iff_false_left (idle k)]
          exact fun same => other ⟨same, new⟩
      · rw [if_neg own, ← h.waiting]
        split
        · rename_i same
          simp [same.1, Ne.symm own]
        · rfl
    · rw [streaming]
      exact staged
  · have streaming : (ds.setSpawn entity spawn).streaming = ds.streaming := by
      simp [Drafts.setSpawn, contains_eq, found, free, streaming_modify]
    refine h.congr streaming (fun e c => ?_) ready staged
    rw [stage, free]
    split
    · subst e
      exact iff_of_false (by simp) (idle c)
    · rfl

/-- Where nobody is to be built, a container may be unloaded. -/
theorem unload (h : ds.Gated []) (c : Container) : (ds.unload c).Gated [] := by
  refine ⟨h.sound.unload c, h.waiting, h.ready, fun e d found => ?_⟩
  exact (h.staged e d found).of_unready (h.unready found)

/-- When a container is loaded, exactly those who wait for it are set free. -/
theorem load_fst (h : ds.Gated next) (c : Container) :
    (ds.load c).1 = ds.streaming.waitingOn c := by
  refine List.filter_eq_self.mpr fun e mem => ?_
  rw [isWaitingOn, (h.waiting c e).mp mem]
  exact beq_self_eq_true _

/-- Their drafts become ready, and all others stay as they are. -/
theorem get?_load (h : ds.Gated next) (c : Container) (e : EntityId) :
    (ds.load c).2.get? e = if e ∈ ds.streaming.waitingOn c then
      (ds.get? e).map ({ · with stage := .ready }) else ds.get? e := by
  have freed := h.load_fst c
  unfold Drafts.load at freed ⊢
  dsimp only at freed ⊢
  rw [freed]
  exact (foldl_modify (f := ({ · with stage := .ready })) (fun _ => rfl) _ _).2 e

/-- When a container is loaded, those who have waited for it are next. -/
theorem load (h : ds.Gated []) (c : Container) :
    (ds.load c).2.Gated (ds.streaming.waitingOn c) := by
  have get := h.get?_load c
  have streaming : (ds.load c).2.streaming = ds.streaming.load c :=
    streaming_load ds c
  have stage : ∀ e, (ds.load c).2.stage? e =
      if e ∈ ds.streaming.waitingOn c then some .ready else ds.stage? e := by
    intro e
    unfold stage?
    rw [get]
    split
    · rename_i mem
      obtain ⟨d, found, -⟩ := stage?_eq_some.mp ((h.waiting c e).mp mem)
      rw [found]
      rfl
    · rfl
  -- Those who waited are ready now and listed nowhere; nobody else was ready before.
  refine ⟨streaming ▸ h.sound.load c, fun k e => ?_, fun e ready => ?_, fun e d found => ?_⟩
  · rw [streaming, Streaming.waitingOn_load, stage]
    split
    · subst k
      rw [iff_false_left List.not_mem_nil]
      split
      · simp
      · rename_i free
        exact fun waits => free ((h.waiting c e).mpr waits)
    · rename_i other
      rw [h.waiting]
      split
      · rename_i mem
        rw [(h.waiting c e).mp mem]
        exact iff_of_false (by simpa using other) (by simp)
      · rfl
  · rw [stage] at ready
    split at ready
    · assumption
    · exact absurd (h.ready e ready) List.not_mem_nil
  · rw [get] at found
    rw [streaming]
    split at found
    · rename_i mem
      obtain ⟨d, before, rfl⟩ := Option.map_eq_some_iff.mp found
      obtain ⟨d', same, waits⟩ := stage?_eq_some.mp ((h.waiting c e).mp mem)
      cases before.symm.trans same
      have staged := h.staged e d before
      unfold Draft.Staged at staged ⊢
      rw [waits] at staged
      obtain ⟨spawn, read, asked⟩ := staged
      refine ⟨spawn, ⟨read.entered, read.first⟩, fun k same => ?_⟩
      cases asked.symm.trans same
      exact Streaming.isLoaded_load.mpr (.inl rfl)
    · exact (h.staged e d found).of_unready (h.unready found)

end Gated

end Drafts

end Replica
