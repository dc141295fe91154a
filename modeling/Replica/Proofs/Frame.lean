import Replica.Session

/-! # What a session leaves alone

Most of what a session does touches few of its parts. Filling fields changes objects and
notifications only, and no update, call or replay changes what is built, held back or known by name.
Each of these facts is stated once, as a relation between the state before and after.

Main definitions:
* `World.Rewrites` — only fields of objects and notifications differ.
* `World.Steady` — no object comes or goes, and none takes other parts.
* `Session.Routine` — what is built, held back, drafted, known by name or alive is the same.
* `Session.Writes` — at most the fields of one object differ, and what is parked for it. -/

namespace Replica

/-! ## Rewriting fields -/

/-- What an object is besides its fields. -/
def Object.frame (o : Object) : Object := { o with fields := ∅ }

/-- A world **rewrites** another: the fields of the objects that may be `touched` and the
notifications may differ, and nothing else does. -/
structure World.Rewrites (touched : Handle → Prop) (w w' : World) : Prop where
  /-- The same handles are in use. -/
  pool : w'.pool = w.pool
  /-- The same classes are known. -/
  classes : w'.classes = w.classes
  /-- The same pre-placed objects are known. -/
  startup : w'.startup = w.startup
  /-- Only notifications are noted. -/
  journal : w'.journal = { w.journal with notified := w'.journal.notified }
  /-- The same objects stand where they stood. -/
  objects : ∀ h : Handle, (w'.objects[h]?).map Object.frame = (w.objects[h]?).map Object.frame
  /-- The objects that may not be touched are the same. -/
  others : ∀ h : Handle, ¬touched h → w'.objects[h]? = w.objects[h]?

namespace World.Rewrites

variable {touched touched' : Handle → Prop} {w w₁ w₂ : World}

theorem refl (w : World) : Rewrites touched w w :=
  ⟨rfl, rfl, rfl, rfl, fun _ => rfl, fun _ _ => rfl⟩

theorem trans (h₁ : Rewrites touched w w₁) (h₂ : Rewrites touched w₁ w₂) :
    Rewrites touched w w₂ where
  pool := h₂.pool.trans h₁.pool
  classes := h₂.classes.trans h₁.classes
  startup := h₂.startup.trans h₁.startup
  journal := by rw [h₂.journal, h₁.journal]
  objects h := (h₂.objects h).trans (h₁.objects h)
  others h out := (h₂.others h out).trans (h₁.others h out)

/-- More objects may be touched. -/
theorem mono (h : Rewrites touched w w₁) (more : ∀ k, touched k → touched' k) :
    Rewrites touched' w w₁ :=
  { h with others := fun k out => h.others k fun mem => out (more k mem) }

/-- The same handles are alive. -/
theorem isAlive (h : Rewrites touched w w₁) (k : Handle) : w₁.isAlive k = w.isAlive k := by
  rw [World.isAlive, World.isAlive, h.pool]

/-- The same calls have been executed. -/
theorem executed (h : Rewrites touched w w₁) : w₁.journal.executed = w.journal.executed := by
  rw [h.journal]

end World.Rewrites

/-- Assignments change the fields of an object alone. -/
theorem Object.frame_foldl_assign (resolve : Resolver) (as : List Assignment) (o : Object) :
    (as.foldl (Object.assign resolve) o).frame = o.frame := by
  induction as generalizing o with
  | nil => rfl
  | cons a as ih => exact ih (o.assign resolve a)

/-- What is replaced at a path stands in a field. -/
theorem Object.frame_of_replaceAt {o o' : Object} {new : Localized} {path : List Offset}
    (ok : o.replaceAt new path = some o') : o'.frame = o.frame := by
  cases path with
  | nil => cases ok
  | cons field path =>
    obtain ⟨old, -, rest⟩ := Option.bind_eq_some_iff.mp ok
    obtain ⟨changed, -, made⟩ := Option.bind_eq_some_iff.mp rest
    cases made
    rfl

namespace World

variable {w w' : World}

/-- A target is an object that is stored. -/
theorem getElem?_of_target {h : Handle} {o : Object} (ok : w.target h = .ok o) :
    w.objects[h]? = some o := by
  unfold target object? at ok
  split at ok
  · rename_i found
    cases ok
    split at found
    · exact found
    · cases found
  · cases ok

/-- An object of which only the fields are changed rewrites the world. -/
theorem rewrites_insert {h : Handle} {o o' : Object} (ok : w.target h = .ok o)
    (same : o'.frame = o.frame) :
    Rewrites (· = h) w { w with objects := w.objects.insert h o' } := by
  refine ⟨rfl, rfl, rfl, rfl, fun k => ?_, fun k out => ?_⟩
  · show ((w.objects.insert h o')[k]?).map Object.frame = _
    rw [Std.ExtTreeMap.getElem?_insert]
    split
    · rename_i here
      obtain rfl := Std.LawfulEqOrd.compare_eq_iff_eq.mp here
      rw [getElem?_of_target ok, Option.map_some, Option.map_some, same]
    · rfl
  · show (w.objects.insert h o')[k]? = _
    rw [Std.ExtTreeMap.getElem?_insert, if_neg]
    exact fun here => out (Std.LawfulEqOrd.compare_eq_iff_eq.mp here).symm

/-- A payload that is applied rewrites the world. -/
theorem rewrites_of_applyPayload {resolve : Resolver} {h : Handle} {role : Role}
    {component : ComponentId} {payload : Bytes} {applied : Applied}
    (ok : w.applyPayload resolve h role component payload = .ok (applied, w')) :
    Rewrites (· = h) w w' := by
  unfold applyPayload at ok
  -- Spawn data writes nothing, and fields are written into one object.
  split at ok
  · split at ok
    · cases ok
      exact .refl w
    · cases ok
  · split at ok
    · cases ok
    · cases target : w.target h with
      | error error => simp [target, bind, Except.bind] at ok
      | ok o =>
        simp only [target, bind, Except.bind, pure, Except.pure] at ok
        cases ok
        exact rewrites_insert target (Object.frame_foldl_assign resolve _ o)

/-- Writing at a path rewrites the world. -/
theorem rewrites_of_writeAt {h : Handle} {path : List Offset} {new : Localized}
    (ok : w.writeAt h path new = .ok w') : Rewrites (· = h) w w' := by
  unfold writeAt at ok
  cases target : w.target h with
  | error error => simp [target, bind, Except.bind] at ok
  | ok o =>
    simp only [target, bind, Except.bind, pure, Except.pure] at ok
    split at ok
    · rename_i replaced
      cases ok
      exact rewrites_insert target (Object.frame_of_replaceAt replaced)
    · cases ok

/-- Writing a struct again writes something at its path. -/
theorem writeAt_of_reapplyStruct {resolve : Resolver} {h : Handle} {path : List Offset}
    {buffer : Bytes} {missing : ReferenceSet}
    (ok : w.reapplyStruct resolve h path buffer = .ok (missing, w')) :
    ∃ new, w.writeAt h path new = .ok w' := by
  unfold reapplyStruct at ok
  split at ok
  · cases ok
  · rename_i v decoded
    cases written : w.writeAt h path (v.localize resolve) with
    | error error => simp [written, bind, Except.bind] at ok
    | ok w₁ =>
      simp only [written, bind, Except.bind, pure, Except.pure] at ok
      cases ok
      exact ⟨_, written⟩

end World

mutual

/-- **A replay writes at its path and below**: whatever such writes keep, the replay of a position
keeps. -/
theorem Replay.position_keeps (replay : Replay) {P : World → Prop} {path : List Offset}
    (writes : ∀ {w w' : World} {new : Localized} (rest : List Offset), P w →
      w.writeAt replay.object (path ++ rest) new = .ok w' → P w') {w : World} (h : P w) :
    (o : Outstanding) → P (replay.position w path o).1
  | .single rep r => by
    rw [position]
    -- A position that cannot be written is left as it is.
    split
    · split
      · rename_i w' ok
        exact writes [] h (by rw [List.append_nil]; exact ok)
      · exact h
    · exact h
  | .struct rep buffer bits missing => by
    rw [position]
    split
    · split
      · rename_i missing w' ok
        obtain ⟨new, written⟩ := World.writeAt_of_reapplyStruct ok
        exact writes [] h (by rw [List.append_nil]; exact written)
      · exact h
    · exact h
  | .array rep elements => by
    rw [position]
    split
    · exact replay.positions_keep writes h elements
    · exact h

/-- So does the replay of several positions below a path. -/
theorem Replay.positions_keep (replay : Replay) {P : World → Prop} {path : List Offset}
    (writes : ∀ {w w' : World} {new : Localized} (rest : List Offset), P w →
      w.writeAt replay.object (path ++ rest) new = .ok w' → P w') {w : World} (h : P w) :
    (elements : List (Offset × Outstanding)) → P (replay.positions w path elements).1
  | [] => h
  | (offset, o) :: rest => by
    rw [positions]
    refine replay.positions_keep writes (replay.position_keeps (fun path h ok => ?_) h o) rest
    rw [List.append_assoc] at ok
    exact writes (offset :: path) h ok

end

/-- Replaying positions rewrites the world. -/
theorem Replay.rewrites_positions (replay : Replay) (w : World) (path : List Offset)
    (elements : List (Offset × Outstanding)) :
    World.Rewrites (· = replay.object) w (replay.positions w path elements).1 :=
  replay.positions_keep (P := World.Rewrites (· = replay.object) w)
    (fun _ before ok => before.trans (World.rewrites_of_writeAt ok)) (.refl w) elements

namespace Update

/-- Announcing changed properties rewrites the world. -/
theorem rewrites_announce (w : World) (h : Handle) (changed : List RepIndex) :
    World.Rewrites (· = h) w (announce w h changed) := by
  unfold announce
  split
  · exact .refl w
  · exact ⟨rfl, rfl, rfl, rfl, fun _ => rfl, fun _ _ => rfl⟩

/-- An update is a payload applied, an announcement, and a new entry in the waitlist. -/
theorem apply_eq_ok {w w' : World} {l l' : Waitlist} {resolve : Resolver} {s : Subscriber}
    {role : Role} {component : ComponentId} {payload : Bytes} :
    apply w l resolve s role component payload = .ok (w', l') ↔
      ∃ applied w₁, w.applyPayload resolve s.object role component payload = .ok (applied, w₁) ∧
        w' = announce w₁ s.object (settled (l.parkedOf s) applied) ∧
        l' = l.store s (merge (l.parkedOf s) applied) := by
  unfold apply
  cases w.applyPayload resolve s.object role component payload with
  | error error => simp [bind, Except.bind]
  | ok result =>
    obtain ⟨applied, w₁⟩ := result
    simp only [bind, Except.bind, pure, Except.pure, Except.ok.injEq, Prod.mk.injEq]
    constructor
    · rintro ⟨rfl, rfl⟩
      exact ⟨applied, w₁, ⟨rfl, rfl⟩, rfl, rfl⟩
    · rintro ⟨_, _, ⟨rfl, rfl⟩, rfl, rfl⟩
      exact ⟨rfl, rfl⟩

/-- An update rewrites the world. -/
theorem rewrites_of_apply {w w' : World} {l l' : Waitlist} {resolve : Resolver} {s : Subscriber}
    {role : Role} {component : ComponentId} {payload : Bytes}
    (ok : apply w l resolve s role component payload = .ok (w', l')) :
    World.Rewrites (· = s.object) w w' := by
  obtain ⟨applied, w₁, applied_ok, rfl, rfl⟩ := apply_eq_ok.mp ok
  exact (World.rewrites_of_applyPayload applied_ok).trans (rewrites_announce w₁ _ _)

/-- Serving a subscriber rewrites the world. -/
theorem rewrites_serve (resolve : Resolver) (r : Reference) (resolved : Handle)
    (state : Resolution) (s : Subscriber) :
    World.Rewrites (· = s.object) state.world (serve resolve r resolved state s).world := by
  unfold serve
  split
  · exact .refl _
  · exact (Replay.rewrites_positions ⟨s.object, r, resolved, resolve⟩ _ _ _).trans
      (rewrites_announce _ _ _)

/-- Resolving a reference rewrites the objects of those who wait for it. -/
theorem rewrites_resolve (w : World) (l : Waitlist) (resolve : Resolver) (r : Reference)
    (resolved : Handle) :
    World.Rewrites (fun h => ∃ s ∈ l.subscribersOf r, s.object = h) w
      (Update.resolve w l resolve r resolved).world := by
  unfold Update.resolve
  suffices along : ∀ (subscribers : List Subscriber) (state : Resolution),
      (∀ s ∈ subscribers, s ∈ l.subscribersOf r) →
        World.Rewrites (fun h => ∃ s ∈ l.subscribersOf r, s.object = h) state.world
          (subscribers.foldl (serve resolve r resolved) state).world from
    along _ ⟨w, l, []⟩ fun _ mem => mem
  intro subscribers
  induction subscribers with
  | nil => exact fun state _ => .refl _
  | cons s rest ih =>
    intro state sub
    have served := (rewrites_serve resolve r resolved state s).mono
      fun k same => (⟨s, sub s List.mem_cons_self, same.symm⟩ :
        ∃ t ∈ l.subscribersOf r, t.object = k)
    exact served.trans (ih _ fun t mem => sub t (List.mem_cons_of_mem _ mem))

end Update

/-! ## What is noted -/

namespace World

/-- Taking objects away notes nothing but that. -/
theorem journal_destroy (w : World) (h : Handle) :
    (w.destroy h).journal =
      { w.journal with destroyed := (w.destroy h).journal.destroyed } := by
  have discarded : ∀ (children : List Handle) (w : World),
      (children.foldl discard w).journal = w.journal := by
    intro children
    induction children with
    | nil => exact fun _ => rfl
    | cons c rest ih => exact fun w => ih (w.discard c)
  unfold destroy
  split
  · rfl
  · rename_i o _
    show ({ (o.children.foldl discard w).journal with destroyed := _ } : Journal) = _
    rw [discarded]

/-- Making parts notes nothing. -/
theorem journal_placeParts (entity : EntityId) (className : String) (offsets : List Offset)
    (w : World) : (w.placeParts entity className offsets).2.journal = w.journal := by
  induction offsets generalizing w with
  | nil => rfl
  | cons offset rest ih =>
    rw [placeParts]
    exact ih _

/-- Building an entity's objects notes nothing but that. -/
theorem journal_of_instantiate {w w' : World} {entity : EntityId} {spawn : Spawn}
    {assembly : Assembly} (ok : w.instantiate entity spawn = .ok (assembly, w')) :
    w'.journal = { w.journal with instantiated := w'.journal.instantiated } := by
  unfold instantiate at ok
  split at ok
  · cases ok
  · split at ok
    · cases ok
    · cases ok
      show ({ (placeParts _ entity spawn.className _).2.journal with instantiated := _ } :
        Journal) = _
      rw [journal_placeParts]

/-- Completing an object notes nothing but that. -/
theorem journal_finalize (w : World) (h : Handle) :
    (w.finalize h).journal =
      { w.journal with finalized := (w.finalize h).journal.finalized } := by
  unfold finalize
  split <;> rfl

/-- Taking objects away executes nothing. -/
theorem executed_destroy (w : World) (h : Handle) :
    (w.destroy h).journal.executed = w.journal.executed := by
  rw [journal_destroy]

/-- Building an entity's objects executes nothing. -/
theorem executed_of_instantiate {w w' : World} {entity : EntityId} {spawn : Spawn}
    {assembly : Assembly} (ok : w.instantiate entity spawn = .ok (assembly, w')) :
    w'.journal.executed = w.journal.executed := by
  rw [journal_of_instantiate ok]

/-- Completing an object executes nothing. -/
theorem executed_finalize (w : World) (h : Handle) :
    (w.finalize h).journal.executed = w.journal.executed := by
  rw [journal_finalize]

end World

/-! ## Steady worlds -/

/-- A world is **steady** if no object comes or goes, none takes other parts or passes to another
entity, and entities are built from the same things. -/
structure World.Steady (w w' : World) : Prop where
  /-- The same handles are in use. -/
  pool : w'.pool = w.pool
  /-- The same classes are known. -/
  classes : w'.classes = w.classes
  /-- The same pre-placed objects are known. -/
  startup : w'.startup = w.startup
  /-- No entity is built. -/
  instantiated : w'.journal.instantiated = w.journal.instantiated
  /-- Each object has the same parts. -/
  children : ∀ h : Handle, (w'.objects[h]?).map (·.children) = (w.objects[h]?).map (·.children)
  /-- Each object belongs to the same entity. -/
  entity : ∀ h : Handle, (w'.objects[h]?).map (·.entity) = (w.objects[h]?).map (·.entity)

namespace World

variable {w w₁ w₂ : World}

theorem Steady.refl (w : World) : w.Steady w :=
  ⟨rfl, rfl, rfl, rfl, fun _ => rfl, fun _ => rfl⟩

theorem Steady.trans (h₁ : w.Steady w₁) (h₂ : w₁.Steady w₂) : w.Steady w₂ where
  pool := h₂.pool.trans h₁.pool
  classes := h₂.classes.trans h₁.classes
  startup := h₂.startup.trans h₁.startup
  instantiated := h₂.instantiated.trans h₁.instantiated
  children h := (h₂.children h).trans (h₁.children h)
  entity h := (h₂.entity h).trans (h₁.entity h)

theorem Steady.symm (h : w.Steady w₁) : w₁.Steady w where
  pool := h.pool.symm
  classes := h.classes.symm
  startup := h.startup.symm
  instantiated := h.instantiated.symm
  children k := (h.children k).symm
  entity k := (h.entity k).symm

/-- An object of a steady world was there before, with the same parts and for the same entity. -/
theorem Steady.before (h : w.Steady w₁) {k : Handle} {o : Object}
    (stored : w₁.objects[k]? = some o) :
    ∃ o', w.objects[k]? = some o' ∧ o'.children = o.children ∧ o'.entity = o.entity := by
  have parts := h.children k
  have owner := h.entity k
  rw [stored, Option.map_some] at parts owner
  obtain ⟨o', found, same⟩ := Option.map_eq_some_iff.mp parts.symm
  rw [found, Option.map_some, Option.some.injEq] at owner
  exact ⟨o', found, same, owner.symm⟩

/-- A world of which only fields are rewritten is steady. -/
theorem Rewrites.steady {touched : Handle → Prop} (h : Rewrites touched w w₁) : w.Steady w₁ where
  pool := h.pool
  classes := h.classes
  startup := h.startup
  instantiated := by rw [h.journal]
  children k := by
    have parts := congrArg (Option.map Object.children) (h.objects k)
    rwa [Option.map_map, Option.map_map] at parts
  entity k := by
    have owner := congrArg (Option.map Object.entity) (h.objects k)
    rwa [Option.map_map, Option.map_map] at owner

/-- Completing an object leaves the world steady. -/
theorem steady_finalize (w : World) (h : Handle) : w.Steady (w.finalize h) := by
  unfold finalize
  split
  · rename_i o stored
    have kept {α : Type} (f : Object → α) (same : f { o with finalized := true } = f o)
        (k : Handle) : ((w.objects.insert h { o with finalized := true })[k]?).map f =
          (w.objects[k]?).map f := by
      rw [Std.ExtTreeMap.getElem?_insert]
      split
      · rename_i here
        obtain rfl := Std.LawfulEqOrd.compare_eq_iff_eq.mp here
        rw [stored, Option.map_some, same, Option.map_some]
      · rfl
    exact ⟨rfl, rfl, rfl, rfl, kept (·.children) rfl, kept (·.entity) rfl⟩
  · exact .refl w

end World

/-! ## Routine changes of a session -/

/-- A session changes in **routine** when only objects, waiting parts, requests and reports do. -/
structure Session.Routine (s s' : Session) : Prop where
  /-- The settings are the same. -/
  settings : s'.settings = s.settings
  /-- The bindings are the same. -/
  protocol : s'.protocol = s.protocol
  /-- What is held back is the same. -/
  held : s'.held = s.held
  /-- The drafts are the same. -/
  drafts : s'.drafts = s.drafts
  /-- The channels are the same. -/
  channels : s'.channels = s.channels
  /-- The same objects are known by name. -/
  directory : s'.directory = s.directory
  /-- The world is steady. -/
  world : s.world.Steady s'.world

namespace Session

namespace Routine

variable {s s₁ s₂ : Session}

theorem refl (s : Session) : s.Routine s := ⟨rfl, rfl, rfl, rfl, rfl, rfl, .refl s.world⟩

/-- The same handles are in use. -/
theorem pool (h : s.Routine s₁) : s₁.world.pool = s.world.pool := h.world.pool

theorem trans (h₁ : s.Routine s₁) (h₂ : s₁.Routine s₂) : s.Routine s₂ where
  settings := h₂.settings.trans h₁.settings
  protocol := h₂.protocol.trans h₁.protocol
  held := h₂.held.trans h₁.held
  drafts := h₂.drafts.trans h₁.drafts
  channels := h₂.channels.trans h₁.channels
  directory := h₂.directory.trans h₁.directory
  world := h₁.world.trans h₂.world

/-- The same references are local. -/
theorem resolver (h : s.Routine s₁) : s₁.resolver = s.resolver := by
  rw [Session.resolver, Session.resolver, h.directory]

/-- The same handles are alive. -/
theorem isAlive (h : s.Routine s₁) (k : Handle) : s₁.world.isAlive k = s.world.isAlive k := by
  rw [World.isAlive, World.isAlive, h.pool]

/-- Several steps that are each a routine are one. -/
theorem foldl {α : Type} {f : Session → α → Session}
    (each : ∀ (s : Session) (a : α), s.Routine (f s a)) (as : List α) (s : Session) :
    s.Routine (as.foldl f s) := by
  induction as generalizing s with
  | nil => exact .refl s
  | cons a as ih => exact (each s a).trans (ih _)

end Routine

/-- Rewriting the world is a routine, whatever becomes of the waitlist. -/
theorem routine_of_rewrites {touched : Handle → Prop} {s : Session} {w : World}
    (h : World.Rewrites touched s.world w) (l : Waitlist) :
    s.Routine { s with world := w, waitlist := l } := ⟨rfl, rfl, rfl, rfl, rfl, rfl, h.steady⟩

/-- Counting parked calls off is a routine. -/
theorem routine_calls (s : Session) (calls : CallQueue) (events : List Event) :
    s.Routine { s with calls, events } := ⟨rfl, rfl, rfl, rfl, rfl, rfl, .refl s.world⟩

/-- Executing an invocation changes the world and nothing else. -/
theorem execute_eq (s : Session) (target : Handle) (invocation : Invocation) :
    ∃ world, s.execute target invocation = { s with world } := by
  unfold execute
  split
  · exact ⟨_, rfl⟩
  · exact ⟨s.world, rfl⟩

/-- Executing what is ready changes the world, and takes it out of the queue. -/
theorem dispatchReady_eq (s : Session) :
    ∃ world, s.dispatchReady = { s with world, calls := s.calls.drain.2 } := by
  have along : ∀ (calls : List ParkedCall) (s : Session),
      ∃ world, calls.foldl (fun s call => s.execute call.target call.invocation) s =
        { s with world } := by
    intro calls
    induction calls with
    | nil => exact fun s => ⟨s.world, rfl⟩
    | cons c rest ih =>
      intro s
      obtain ⟨world, first⟩ := s.execute_eq c.target c.invocation
      rw [List.foldl_cons, first]
      exact ih { s with world }
  exact along _ _

/-- A replay changes the world, the events, the waitlist and the queue. -/
theorem resolveNow_eq (s : Session) (a : Arrival) :
    ∃ world events calls, s.resolveNow a = { s with
        world, events, calls
        waitlist := (Update.resolve s.world s.waitlist s.resolver a.reference a.object).waitlist } ∧
      (calls = (s.calls.resolve a.reference).2 ∨
        calls = (s.calls.resolve a.reference).2.drain.2) := by
  unfold resolveNow
  dsimp only
  -- Calls run only if some of them have become ready.
  split
  · exact ⟨_, _, _, rfl, .inl rfl⟩
  · obtain ⟨world, same⟩ := dispatchReady_eq { s with
      world := (Update.resolve s.world s.waitlist s.resolver a.reference a.object).world
      waitlist := (Update.resolve s.world s.waitlist s.resolver a.reference a.object).waitlist
      events := s.events ++ (Update.resolve s.world s.waitlist s.resolver a.reference
        a.object).complete.map .referencesResolved
      calls := (s.calls.resolve a.reference).2 }
    exact ⟨_, _, _, same, .inr rfl⟩

theorem routine_execute (s : Session) (target : Handle) (invocation : Invocation) :
    s.Routine (s.execute target invocation) := by
  unfold execute World.execute
  split
  · rename_i w ok
    split at ok
    · cases ok
    · split at ok
      · cases ok
      · cases ok
        exact ⟨rfl, rfl, rfl, rfl, rfl, rfl, ⟨rfl, rfl, rfl, rfl, fun _ => rfl, fun _ => rfl⟩⟩
  · exact .refl s

theorem routine_dispatch (s : Session) (target : Handle) (entity : EntityId)
    (component : ComponentId) (incoming : Incoming) :
    s.Routine (s.dispatch target entity component incoming) := by
  unfold dispatch
  split
  · exact routine_execute s target _
  · exact ⟨rfl, rfl, rfl, rfl, rfl, rfl, .refl s.world⟩

theorem routine_dispatchReady (s : Session) : s.Routine s.dispatchReady := by
  unfold dispatchReady
  have opened : s.Routine { s with calls := s.calls.drain.2 } :=
    ⟨rfl, rfl, rfl, rfl, rfl, rfl, .refl s.world⟩
  exact opened.trans
    (.foldl (fun s (call : ParkedCall) => routine_execute s call.target call.invocation) _ _)

theorem routine_resolveNow (s : Session) (arrival : Arrival) :
    s.Routine (s.resolveNow arrival) := by
  unfold resolveNow
  have filled := routine_of_rewrites (s := s)
    (Update.rewrites_resolve s.world s.waitlist s.resolver arrival.reference arrival.object)
    (Update.resolve s.world s.waitlist s.resolver arrival.reference arrival.object).waitlist
  have counted := filled.trans (routine_calls _ (s.calls.resolve arrival.reference).2 (s.events ++
    (Update.resolve s.world s.waitlist s.resolver arrival.reference arrival.object).complete.map
      .referencesResolved))
  dsimp only
  split
  · exact counted
  · exact counted.trans (routine_dispatchReady _)

/-- Executing an invocation notes nothing but that. -/
theorem journal_execute (s : Session) (target : Handle) (invocation : Invocation) :
    (s.execute target invocation).world.journal =
      { s.world.journal with
        executed := (s.execute target invocation).world.journal.executed } := by
  unfold execute World.execute
  split
  · rename_i w ok
    split at ok
    · cases ok
    · split at ok
      · cases ok
      · cases ok
        rfl
  · rfl

/-- So does executing what is ready. -/
theorem journal_dispatchReady (s : Session) :
    s.dispatchReady.world.journal =
      { s.world.journal with executed := s.dispatchReady.world.journal.executed } := by
  unfold dispatchReady
  refine List.foldlRecOn s.calls.drain.1 _ (motive := fun t : Session => t.world.journal =
    { s.world.journal with executed := t.world.journal.executed }) rfl fun t noted call _ => ?_
  rw [journal_execute, noted]

/-- A replay notes what the resolution of its reference does, and the calls that are executed. -/
theorem journal_resolveNow (s : Session) (a : Arrival) :
    (s.resolveNow a).world.journal =
      { (Update.resolve s.world s.waitlist s.resolver a.reference a.object).world.journal with
        executed := (s.resolveNow a).world.journal.executed } := by
  unfold resolveNow
  dsimp only
  split
  · rfl
  · exact journal_dispatchReady _

/-- A delivered call is noted if it is executed. -/
theorem journal_dispatch (s : Session) (target : Handle) (entity : EntityId)
    (component : ComponentId) (incoming : Incoming) :
    (s.dispatch target entity component incoming).world.journal =
      { s.world.journal with
        executed :=
          (s.dispatch target entity component incoming).world.journal.executed } := by
  unfold dispatch
  split
  · exact journal_execute s target _
  · rfl

/-- A session **writes** a payload: the payload is refused, or applied to the object of some
subscriber. -/
inductive Writes (s : Session) : Session → Prop where
  /-- Nothing is written. -/
  | refused : s.Writes s
  /-- The fields of one object change, and what is parked for it. -/
  | applied {t : Subscriber} {role : Role} {component : ComponentId} {payload : Bytes}
    {world : World} {waitlist : Waitlist}
    (ok : Update.apply s.world s.waitlist s.resolver t role component payload =
      .ok (world, waitlist)) : s.Writes { s with world, waitlist }

namespace Writes

variable {s s' : Session}

theorem routine (h : s.Writes s') : s.Routine s' := by
  cases h with
  | refused => exact .refl s
  | applied ok => exact routine_of_rewrites (Update.rewrites_of_apply ok) _

/-- What is written neither parks nor executes a call. -/
theorem calls (h : s.Writes s') :
    s'.calls = s.calls ∧ s'.world.journal.executed = s.world.journal.executed := by
  cases h with
  | refused => exact ⟨rfl, rfl⟩
  | applied ok => exact ⟨rfl, (Update.rewrites_of_apply ok).executed⟩

/-- Only notifications are noted. -/
theorem journal (h : s.Writes s') :
    s'.world.journal =
      { s.world.journal with notified := s'.world.journal.notified } := by
  cases h with
  | refused => rfl
  | applied ok => exact (Update.rewrites_of_apply ok).journal

end Writes

/-- A collected component is written, or passed over. -/
theorem writes_populate (channel : Channel) (s : Session) (data : ComponentData) :
    s.Writes (populate channel s data) := by
  unfold populate
  split
  · exact .refused
  · split
    · exact .refused
    · split
      · exact .refused
      · split
        · rename_i ok
          exact .applied ok
        · exact .refused

/-- Writing all collected components is a routine. -/
theorem routine_populates (channel : Channel) (components : List ComponentData) (s : Session) :
    s.Routine (components.foldl (populate channel) s) :=
  .foldl (fun s data => (writes_populate channel s data).routine) _ _

/-- So are the replays for several arrivals. -/
theorem routine_replays (arrivals : List Arrival) (s : Session) :
    s.Routine (arrivals.foldl resolveNow s) :=
  .foldl routine_resolveNow _ _

end Session

end Replica
