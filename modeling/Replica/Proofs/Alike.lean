import Replica.Proofs.Neighbours

/-! # Objects that are alike in two sessions

What a payload or a replay makes of an object depends on the object, on what waits with it, and on
what is bound and local. So if an object is alike in two sessions, it is alike after the same step
of both, whatever else tells them apart. The same is true of invocations: which of them are executed
when an object arrives depends on those that are parked, and on what is local and alive.

Main definitions:
* `World.AlikeAt`, `Session.AlikeAt` — an object is alike in two worlds, and in two sessions.
* `Replay.alike_position` — what a replay makes of an object that is alike.
* `Session.AlikeAt.populates`, `Session.AlikeAt.replays` — the same payloads and arrivals in both.
* `Session.SameCalls` — the same invocations are parked and executed. -/

namespace Replica

/-! ## Worlds -/

namespace World

variable {w w' : World} {h : Handle}

/-- An object is **alike** in two worlds if it has the same fields in both, or is in neither. -/
def AlikeAt (h : Handle) (w w' : World) : Prop :=
  (w'.object? h).map Object.fields = (w.object? h).map Object.fields

/-- Either the object is in neither world, or it has the same fields. -/
theorem AlikeAt.cases (alike : AlikeAt h w w') :
    (w.object? h = none ∧ w'.object? h = none) ∨
      ∃ o o', w.object? h = some o ∧ w'.object? h = some o' ∧ o'.fields = o.fields := by
  unfold AlikeAt at alike
  cases found : w.object? h with
  | none =>
    rw [found] at alike
    exact .inl ⟨rfl, Option.map_eq_none_iff.mp alike⟩
  | some o =>
    rw [found] at alike
    obtain ⟨o', found', same⟩ := Option.map_eq_some_iff.mp alike
    exact .inr ⟨o, o', rfl, found', same⟩

/-- The object is alike after it was replaced by ones with the same fields. -/
theorem AlikeAt.put (alive : w.isAlive h = true) (alive' : w'.isAlive h = true) {o o' : Object}
    (same : o'.fields = o.fields) : AlikeAt h (w.putObject h o) (w'.putObject h o') := by
  rw [AlikeAt, object?_putObject alive, object?_putObject alive', if_pos rfl, if_pos rfl,
    Option.map_some, Option.map_some, same]

end World

/-- What is replaced at a path depends on the fields alone. -/
theorem Object.fields_replaceAt {o o' : Object} (same : o'.fields = o.fields) (new : Localized)
    (path : List Offset) :
    (o'.replaceAt new path).map fields = (o.replaceAt new path).map fields := by
  cases path with
  | nil => rfl
  | cons field path =>
    simp only [replaceAt, same, bind, Option.bind, pure]
    cases o.fields[field]? with
    | none => rfl
    | some old =>
      dsimp only
      cases Localized.replaceAt new path old <;> rfl

/-- Writing at a path is refused in both worlds, or makes the same of the object. -/
theorem World.AlikeAt.writeAt {w w' : World} {h : Handle} (alike : AlikeAt h w w')
    (path : List Offset) (new : Localized) :
    (∃ error, w.writeAt h path new = .error error ∧ w'.writeAt h path new = .error error) ∨
      ∃ v v', w.writeAt h path new = .ok v ∧ w'.writeAt h path new = .ok v' ∧ AlikeAt h v v' := by
  unfold World.writeAt target
  rcases alike.cases with ⟨gone, gone'⟩ | ⟨o, o', found, found', same⟩
  · exact .inl ⟨.unknownObject, by rw [gone]; rfl, by rw [gone']; rfl⟩
  · have replaced := Object.fields_replaceAt same new path
    rw [found, found']
    simp only [bind, Except.bind, pure, Except.pure]
    cases made : o.replaceAt new path with
    | none =>
      rw [made] at replaced
      rw [Option.map_eq_none_iff.mp replaced]
      exact .inl ⟨_, rfl, rfl⟩
    | some p =>
      rw [made] at replaced
      obtain ⟨p', made', same'⟩ := Option.map_eq_some_iff.mp replaced
      rw [made']
      exact .inr ⟨_, _, rfl, rfl,
        .put (isAlive_of_object? found) (isAlive_of_object? found') same'⟩

namespace Replay

variable (replay : Replay)

mutual

/-- **The replay of a position** makes the same of an object that is alike in two worlds: the same
properties are written, the same goes on waiting, and the object is alike again. -/
theorem alike_position {w w' : World} (alike : World.AlikeAt replay.object w w')
    (path : List Offset) : (o : Outstanding) →
      World.AlikeAt replay.object (replay.position w path o).1 (replay.position w' path o).1 ∧
        (replay.position w' path o).2 = (replay.position w path o).2
  | .single rep r => by
    rw [position, position]
    split
    · rcases alike.writeAt path (.object (some replay.resolved)) with
        ⟨error, refused, refused'⟩ | ⟨v, v', written, written', alike⟩
      · simp only [World.writeReference, refused, refused']
        exact ⟨alike, trivial⟩
      · simp only [World.writeReference, written, written']
        exact ⟨alike, trivial⟩
    · exact ⟨alike, rfl⟩
  | .struct rep buffer bits missing => by
    rw [position, position]
    split
    · unfold World.reapplyStruct
      cases Wire.decodeValue buffer with
      | error flaw => exact ⟨alike, rfl⟩
      | ok value =>
        rcases alike.writeAt path (value.localize replay.resolve) with
          ⟨error, refused, refused'⟩ | ⟨v, v', written, written', alike⟩
        · simp only [refused, refused', bind, Except.bind]
          exact ⟨alike, trivial⟩
        · simp only [written, written', bind, Except.bind, pure, Except.pure]
          exact ⟨alike, trivial⟩
    · exact ⟨alike, rfl⟩
  | .array rep elements => by
    rw [position, position]
    split
    · obtain ⟨after, same⟩ := alike_positions alike path elements
      exact ⟨after, by simp only [same]⟩
    · exact ⟨alike, rfl⟩

/-- So does the replay of several positions. -/
theorem alike_positions {w w' : World} (alike : World.AlikeAt replay.object w w')
    (path : List Offset) : (entries : List (Offset × Outstanding)) →
      World.AlikeAt replay.object (replay.positions w path entries).1
          (replay.positions w' path entries).1 ∧
        (replay.positions w' path entries).2 = (replay.positions w path entries).2
  | [] => ⟨alike, rfl⟩
  | (offset, o) :: rest => by
    obtain ⟨first, same⟩ := alike_position alike (path ++ [offset]) o
    obtain ⟨later, sameRest⟩ := alike_positions first path rest
    rw [positions, positions]
    exact ⟨later, by simp only [same, sameRest]⟩

end

end Replay

/-! ## Payloads and replays -/

theorem Untouched.symm {t : Subscriber} {w w' : World} {l l' : Waitlist}
    (h : Untouched t w l w' l') : Untouched t w' l' w l :=
  ⟨h.alive.symm, h.fields.symm, fun t' same => (h.parked t' same).symm⟩

namespace Update

variable {resolve : Resolver} {t : Subscriber} {w w' : World} {l l' : Waitlist}

/-- **A payload** for the object is refused in both worlds, or makes the same of the object. -/
theorem alike_apply (alike : Untouched t w l w' l') {u : Subscriber} (same : u.object = t.object)
    (resolve : Resolver) (role : Role) (component : ComponentId) (payload : Bytes) :
    (∃ error, apply w l resolve u role component payload = .error error ∧
        apply w' l' resolve u role component payload = .error error) ∨
      ∃ v m v' m', apply w l resolve u role component payload = .ok (v, m) ∧
        apply w' l' resolve u role component payload = .ok (v', m') ∧ Untouched t v m v' m' := by
  have parked : l'.parkedOf u = l.parkedOf u := alike.parked u same
  -- What is entered depends on what was parked, and on what the payload left outstanding.
  have stored (p : Parked) (t' : Subscriber) (here : t'.object = t.object) :
      (l'.store u p).parkedOf t' = (l.store u p).parkedOf t' := by
    rw [Waitlist.parkedOf_store, Waitlist.parkedOf_store, alike.parked t' here]
  have announced (v v' : World) (changed : List RepIndex) (alive : v'.isAlive t.object =
      v.isAlive t.object) (fields : World.AlikeAt t.object v v') (p : Parked) :
      Untouched t (announce v u.object changed) (l.store u p) (announce v' u.object changed)
        (l'.store u p) := by
    refine ⟨?_, ?_, fun t' here => stored p t' here⟩
    · rw [(rewrites_announce v' _ _).isAlive, (rewrites_announce v _ _).isAlive, alive]
    · rw [object?_announce, object?_announce]
      exact fields
  unfold apply World.applyPayload
  rw [parked]
  by_cases spawn : role = .spawn
  · simp only [if_pos spawn]
    cases Wire.decodeSpawn payload with
    | error flaw => exact .inl ⟨_, rfl, rfl⟩
    | ok spawn => exact .inr ⟨_, _, _, _, rfl, rfl, announced w w' _ alike.alive alike.fields _⟩
  · simp only [if_neg spawn]
    cases Wire.decodeFields payload with
    | error flaw => exact .inl ⟨_, rfl, rfl⟩
    | ok assignments =>
      rcases World.AlikeAt.cases alike.fields with ⟨gone, gone'⟩ | ⟨o, o', found, found', fields⟩
      · simp only [World.target, same, gone, gone']
        exact .inl ⟨_, rfl, rfl⟩
      · have alive := World.isAlive_of_object? found
        have alive' := World.isAlive_of_object? found'
        simp only [World.target, same, found, found', bind, Except.bind, pure, Except.pure]
        rw [same] at announced
        have assigned : World.AlikeAt t.object
            (w.putObject t.object (assignments.foldl (Object.assign resolve) o))
            (w'.putObject t.object (assignments.foldl (Object.assign resolve) o')) := by
          refine .put alive alive' ?_
          rw [Object.fields_foldl_assign, Object.fields_foldl_assign, fields]
        exact .inr ⟨_, _, _, _, rfl, rfl,
          announced (w.putObject _ _) (w'.putObject _ _) _ alike.alive assigned _⟩

/-- **Serving** the subscriber makes the same of its object. -/
theorem alike_serve (r : Reference) (resolved : Handle) {state state' : Resolution}
    (alike : Untouched t state.world state.waitlist state'.world state'.waitlist) :
    Untouched t (serve resolve r resolved state t).world (serve resolve r resolved state t).waitlist
      (serve resolve r resolved state' t).world (serve resolve r resolved state' t).waitlist := by
  have stored (p : Parked) (t' : Subscriber) (here : t'.object = t.object) :
      (state'.waitlist.store t p).parkedOf t' = (state.waitlist.store t p).parkedOf t' := by
    rw [Waitlist.parkedOf_store, Waitlist.parkedOf_store, alike.parked t' here]
  have lives := alike.alive
  cases alive : state.world.isAlive t.object with
  | true =>
    rw [alive] at lives
    obtain ⟨world, waitlist⟩ := serve_of_isAlive resolve r resolved alive
    obtain ⟨world', waitlist'⟩ := serve_of_isAlive resolve r resolved lives
    obtain ⟨fields, same⟩ := Replay.alike_positions ⟨t.object, r, resolved, resolve⟩ alike.fields []
      (state.waitlist.parkedOf t).toList
    refine ⟨?_, ?_, fun t' here => ?_⟩
    · rw [(rewrites_serve resolve r resolved state' t).isAlive,
        (rewrites_serve resolve r resolved state t).isAlive, alive, lives]
    · rw [world, world', object?_announce, object?_announce, alike.parked t rfl]
      exact fields
    · rw [waitlist, waitlist', alike.parked t rfl, same]
      exact stored _ t' here
  | false =>
    -- A subscriber whose object is gone is forgotten.
    rw [alive] at lives
    simp only [serve, alive, lives]
    exact ⟨lives.trans alive.symm, alike.fields, fun t' here => stored ∅ t' here⟩

end Update

namespace Session

variable {s s' s₁ s₂ : Session} {t : Subscriber}

/-! ## Sessions -/

/-- The object of a subscriber is **alike** in two sessions if it has the same fields in both,
whoever waits with it waits for the same, and the same is bound and local. -/
structure AlikeAt (t : Subscriber) (s s' : Session) : Prop extends
    Untouched t s.world s.waitlist s'.world s'.waitlist where
  /-- The bindings are the same. -/
  protocol : s'.protocol = s.protocol
  /-- The same references are local. -/
  resolver : s'.resolver = s.resolver

namespace AlikeAt

theorem refl (t : Subscriber) (s : Session) : AlikeAt t s s := ⟨.refl .., rfl, rfl⟩

theorem symm (h : AlikeAt t s s') : AlikeAt t s' s :=
  ⟨h.toUntouched.symm, h.protocol.symm, h.resolver.symm⟩

theorem trans (h₁ : AlikeAt t s s₁) (h₂ : AlikeAt t s₁ s₂) : AlikeAt t s s₂ :=
  ⟨h₁.toUntouched.trans h₂.toUntouched, h₂.protocol.trans h₁.protocol,
    h₂.resolver.trans h₁.resolver⟩

/-- It is alike before and after a routine that leaves it untouched. -/
theorem of_routine (routine : s.Routine s')
    (untouched : Untouched t s.world s.waitlist s'.world s'.waitlist) : AlikeAt t s s' :=
  ⟨untouched, routine.protocol, routine.resolver⟩

/-- The same payload makes the same of the object. -/
theorem populate (h : AlikeAt t s s') (channel : Channel) (data : ComponentData) :
    AlikeAt t (Session.populate channel s data) (Session.populate channel s' data) := by
  have routine := fun s => (writes_populate channel s data).routine
  refine ⟨?_, by rw [(routine s').protocol, (routine s).protocol, h.protocol],
    by rw [(routine s').resolver, (routine s).resolver, h.resolver]⟩
  unfold Session.populate
  rw [h.protocol, h.resolver]
  split
  · exact h.toUntouched
  · rename_i b bound
    split
    · exact h.toUntouched
    · split
      · exact h.toUntouched
      · rename_i u found
        by_cases same : u = t.object
        · rcases Update.alike_apply h.toUntouched (u := channel.subscriber u) same s.resolver b.role
            data.component data.payload with
            ⟨error, refused, refused'⟩ | ⟨v, m, v', m', ok, ok', alike⟩
          · rw [refused, refused']
            exact h.toUntouched
          · rw [ok, ok']
            exact alike
        · -- Payloads for other objects leave it untouched in both sessions.
          have kept {w w' : World} {l l' : Waitlist} (ok : Update.apply w l s.resolver
              (channel.subscriber u) b.role data.component data.payload = .ok (w', l')) :
              Untouched t w l w' l' := Update.untouched_apply ok same
          split
          · rename_i ok
            split
            · rename_i ok'
              exact (kept ok).symm.trans (h.toUntouched.trans (kept ok'))
            · exact (kept ok).symm.trans h.toUntouched
          · split
            · rename_i ok'
              exact h.toUntouched.trans (kept ok')
            · exact h.toUntouched

/-- So do several payloads. -/
theorem populates (h : AlikeAt t s s') (channel : Channel) (components : List ComponentData) :
    AlikeAt t (components.foldl (Session.populate channel) s)
      (components.foldl (Session.populate channel) s') := by
  induction components generalizing s s' with
  | nil => exact h
  | cons data rest ih => exact ih (h.populate channel data)

/-- **The arrival of an object** makes the same of an object with which one subscriber waits. -/
theorem resolveNow (h : AlikeAt t s s') (coherent : s.waitlist.Coherent)
    (coherent' : s'.waitlist.Coherent) (alone : s.Alone t) (a : Arrival) :
    AlikeAt t (s.resolveNow a) (s'.resolveNow a) := by
  have alone' : s'.Alone t := fun t' same other => (h.parked t' same).trans (alone t' same other)
  have listed {s : Session} (coherent : s.waitlist.Coherent) :
      t ∈ s.waitlist.subscribersOf a.reference ↔
        a.reference ∈ (s.waitlist.parkedOf t).references := by
    rw [coherent.mem_subscribersOf]
  have agreed : t ∈ s'.waitlist.subscribersOf a.reference ↔
      t ∈ s.waitlist.subscribersOf a.reference := by
    rw [listed coherent', listed coherent, h.parked t rfl]
  have routine := fun s => routine_resolveNow s a
  refine ⟨?_, by rw [(routine s').protocol, (routine s).protocol, h.protocol],
    by rw [(routine s').resolver, (routine s).resolver, h.resolver]⟩
  refine (untouched_resolveNow s a t).symm.trans (.trans ?_ (untouched_resolveNow s' a t))
  rw [h.resolver]
  rcases Update.exists_served s.resolver a.object (w := s.world)
      (alone.eq_of_subscribed coherent (r := a.reference)),
    Update.exists_served s.resolver a.object (w := s'.world)
      (alone'.eq_of_subscribed coherent' (r := a.reference)) with
    ⟨⟨out, kept⟩ | ⟨here, state, before, after⟩, ⟨out', kept'⟩ | ⟨here', state', before', after'⟩⟩
  · exact kept.symm.trans (h.toUntouched.trans kept')
  · exact absurd (agreed.mp here') out
  · exact absurd (agreed.mpr here) out'
  · exact after.symm.trans ((Update.alike_serve a.reference a.object
      (before.symm.trans (h.toUntouched.trans before'))).trans after')

/-- So do several arrivals, one after the other. -/
theorem replays (h : AlikeAt t s s') (coherent : s.waitlist.Coherent)
    (coherent' : s'.waitlist.Coherent) (alone : s.Alone t) (arrivals : List Arrival) :
    AlikeAt t (arrivals.foldl Session.resolveNow s) (arrivals.foldl Session.resolveNow s') := by
  induction arrivals generalizing s s' with
  | nil => exact h
  | cons a rest ih =>
    exact ih (h.resolveNow coherent coherent' alone a) (coherent_resolveNow coherent a)
      (coherent_resolveNow coherent' a) (alone.leaves (leaves_resolveNow coherent alone))

end AlikeAt

/-! ## What leaves an object as it is -/

/-- Payloads for the objects of a channel leave the others. -/
theorem AlikeAt.of_populates {channel : Channel}
    (apart : ∀ offset, channel.objectAt? offset ≠ some t.object) (components : List ComponentData)
    (s : Session) : AlikeAt t s (components.foldl (Session.populate channel) s) := by
  induction components generalizing s with
  | nil => exact .refl t s
  | cons data rest ih =>
    exact (AlikeAt.of_routine (writes_populate channel s data).routine
      (untouched_populate apart data)).trans (ih _)

/-- The arrivals of the objects of a settled channel leave all of them. -/
theorem Settled.alike_replays {channel : Channel} (settled : s.Settled channel)
    {arrivals : List Arrival} (mem : ∀ a ∈ arrivals, a ∈ channel.arrivals)
    (mine : t.object ∈ channel.members.map (·.2)) :
    AlikeAt t s (arrivals.foldl resolveNow s) := by
  induction arrivals generalizing s with
  | nil => exact .refl t s
  | cons a rest ih =>
    have here := mem a List.mem_cons_self
    have resolved : Untouched t s.world s.waitlist
        (Update.resolve s.world s.waitlist s.resolver a.reference a.object).world
        (Update.resolve s.world s.waitlist s.resolver a.reference a.object).waitlist :=
      Update.untouched_serves ⟨s.world, s.waitlist, []⟩ (settled.unserved here mine)
    exact (AlikeAt.of_routine (routine_resolveNow s a)
      (resolved.trans (untouched_resolveNow s a t))).trans
      (ih (settled.replay here).1 fun b later => mem b (List.mem_cons_of_mem _ later))

/-- Each object stands alone with somebody: with whoever waits with it, or with anybody if nobody
does. -/
theorem exists_alone (owned : s.Owned) (lists : s.ListsMembers) (h : Handle) :
    ∃ t : Subscriber, t.object = h ∧ s.Alone t := by
  by_cases waits : ∃ t : Subscriber, t.object = h ∧ s.waitlist.parkedOf t ≠ ∅
  · obtain ⟨t, here, waits⟩ := waits
    exact ⟨t, here, alone_of_member owned lists (lists.members t waits)⟩
  · refine ⟨⟨⟨0, 0⟩, h⟩, rfl, fun t' same _ => ?_⟩
    by_contra waiting
    exact waits ⟨t', same, waiting⟩

/-! ## Invocations -/

/-- Two sessions have **the same calls** if the same invocations are parked and executed in both,
and the same is local and alive. -/
structure SameCalls (s s' : Session) : Prop where
  /-- The same objects are known by name. -/
  directory : s'.directory = s.directory
  /-- The same handles are in use. -/
  pool : s'.world.pool = s.world.pool
  /-- The same invocations are parked. -/
  calls : s'.calls = s.calls
  /-- The same invocations have been executed. -/
  executed : s'.world.journal.executed = s.world.journal.executed

namespace SameCalls

theorem refl (s : Session) : SameCalls s s := ⟨rfl, rfl, rfl, rfl⟩

theorem symm (h : SameCalls s s') : SameCalls s' s :=
  ⟨h.directory.symm, h.pool.symm, h.calls.symm, h.executed.symm⟩

theorem trans (h₁ : SameCalls s s₁) (h₂ : SameCalls s₁ s₂) : SameCalls s s₂ :=
  ⟨h₂.directory.trans h₁.directory, h₂.pool.trans h₁.pool, h₂.calls.trans h₁.calls,
    h₂.executed.trans h₁.executed⟩

/-- Payloads leave the calls. -/
theorem populates (channel : Channel) (components : List ComponentData) (s : Session) :
    SameCalls s (components.foldl (populate channel) s) := by
  induction components generalizing s with
  | nil => exact .refl s
  | cons data rest ih =>
    have written := writes_populate channel s data
    obtain ⟨calls, executed⟩ := written.calls
    have routine := written.routine
    exact .trans ⟨routine.directory, routine.pool, calls, executed⟩ (ih _)

/-- So does the completion of objects. -/
theorem complete (s : Session) (channel : Channel) : SameCalls s (s.complete channel) :=
  ⟨rfl, (s.world.finalize_keeps channel.root).1, rfl, s.world.executed_finalize channel.root⟩

/-- So do changes of authority. -/
theorem authorities (changes : List AuthorityChange) (s : Session) :
    SameCalls s (changes.foldl changeAuthority s) := by
  induction changes generalizing s with
  | nil => exact .refl s
  | cons change rest ih =>
    refine .trans ?_ (ih _)
    unfold changeAuthority
    split <;> exact ⟨rfl, rfl, rfl, rfl⟩

/-- An invocation is executed in both sessions or in neither. -/
theorem execute (h : SameCalls s s') (target : Handle) (invocation : Invocation) :
    SameCalls (s.execute target invocation) (s'.execute target invocation) := by
  have alive : s'.world.isAlive target = s.world.isAlive target := by
    rw [World.isAlive, World.isAlive, h.pool]
  have resolver : s'.resolver = s.resolver := by
    rw [Session.resolver, Session.resolver, h.directory]
  unfold Session.execute World.execute
  rw [alive, resolver]
  cases s.world.isAlive target with
  | false => exact h
  | true =>
    cases Wire.decodeArgs invocation.payload with
    | error flaw => exact h
    | ok args => exact ⟨h.directory, h.pool, h.calls, congrArg (· ++ _) h.executed⟩

/-- What is ready is executed in both. -/
theorem dispatchReady (h : SameCalls s s') : SameCalls s.dispatchReady s'.dispatchReady := by
  have along : ∀ (ready : List ParkedCall) {s s' : Session}, SameCalls s s' →
      SameCalls (ready.foldl (fun s call => s.execute call.target call.invocation) s)
        (ready.foldl (fun s call => s.execute call.target call.invocation) s') := by
    intro ready
    induction ready with
    | nil => exact fun h => h
    | cons call rest ih => exact fun h => ih (h.execute call.target call.invocation)
  unfold Session.dispatchReady
  rw [h.calls]
  exact along _ ⟨h.directory, h.pool, rfl, h.executed⟩

/-- **When an object arrives** the same invocations go on. -/
theorem resolveNow (h : SameCalls s s') (a : Arrival) :
    SameCalls (s.resolveNow a) (s'.resolveNow a) := by
  have rewritten := fun s : Session =>
    Update.rewrites_resolve s.world s.waitlist s.resolver a.reference a.object
  have pool := (rewritten s').pool.trans (h.pool.trans (rewritten s).pool.symm)
  have executed := (rewritten s').executed.trans (h.executed.trans (rewritten s).executed.symm)
  -- The fields are filled and the invocations counted off; then those are executed that are ready.
  let counted (s : Session) : Session :=
    let resolution := Update.resolve s.world s.waitlist s.resolver a.reference a.object
    { s with
      world := resolution.world, waitlist := resolution.waitlist
      events := s.events ++ resolution.complete.map .referencesResolved
      calls := (s.calls.resolve a.reference).2 }
  have both : SameCalls (counted s) (counted s') :=
    ⟨h.directory, pool, congrArg (fun q => (q.resolve a.reference).2) h.calls, executed⟩
  show SameCalls
    (if (s.calls.resolve a.reference).1 = 0 then counted s else (counted s).dispatchReady)
    (if (s'.calls.resolve a.reference).1 = 0 then counted s' else (counted s').dispatchReady)
  rw [h.calls]
  split
  · exact both
  · exact both.dispatchReady

/-- So they do for several arrivals. -/
theorem replays (h : SameCalls s s') (arrivals : List Arrival) :
    SameCalls (arrivals.foldl Session.resolveNow s) (arrivals.foldl Session.resolveNow s') := by
  induction arrivals generalizing s s' with
  | nil => exact h
  | cons a rest ih => exact ih (h.resolveNow a)

end SameCalls

end Session

end Replica
