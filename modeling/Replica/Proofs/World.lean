import Replica.Proofs.HandlePool

/-! # Objects that come and go

New objects get handles that were not known before, so they replace none. Objects that go take their
handles out of use and leave all others alone. As long as fewer handles were issued than there are
generations, this is all that building and destroying objects does.

Main definitions:
* `World.Births` — objects are made under new handles.
* `World.Deaths` — objects are taken away with their handles.
* `World.births_instantiate`, `World.deaths_destroy` — what building an entity's objects and
  destroying an object does. -/

namespace Replica

/-- The handles of an assembly, the root first. -/
def Assembly.handles (a : Assembly) : List Handle := a.root :: a.parts.map (·.2)

namespace World

variable {w w₁ w₂ : World}

/-! ## Births -/

/-- Objects are **born** under some handles: these were not known, and everything else stays. -/
structure Births (w w' : World) (born : List Handle) : Prop where
  /-- The pool stays sound. -/
  sound : w'.pool.Sound
  /-- As many handles are issued. -/
  issued : w'.pool.issued = w.pool.issued + born.length
  /-- No two handles are the same. -/
  nodup : born.Nodup
  /-- The handles were not known. -/
  fresh : ∀ h ∈ born, ¬w.pool.Knows h
  /-- They are known now, with those from before. -/
  knows : ∀ h, w'.pool.Knows h ↔ h ∈ born ∨ w.pool.Knows h
  /-- They are in use now, with those from before. -/
  alive : ∀ h, w'.isAlive h = true ↔ h ∈ born ∨ w.isAlive h = true
  /-- The other objects stay. -/
  objects : ∀ h, h ∉ born → w'.objects[h]? = w.objects[h]?
  /-- The new objects have no fields. -/
  blank : ∀ h ∈ born, ∃ o, w'.objects[h]? = some o ∧ o.fields = ∅
  /-- The same classes are known. -/
  classes : w'.classes = w.classes
  /-- The same pre-placed objects are known. -/
  startup : w'.startup = w.startup

/-- What is born is known. -/
theorem Births.known_of_mem {born : List Handle} {h : Handle} (births : w.Births w₁ born)
    (mem : h ∈ born) : w₁.pool.Knows h :=
  (births.knows h).mpr (.inl mem)

/-- What was known stays known. -/
theorem Births.known {born : List Handle} {h : Handle} (births : w.Births w₁ born)
    (before : w.pool.Knows h) : w₁.pool.Knows h :=
  (births.knows h).mpr (.inr before)

/-- What was known is not born. -/
theorem Births.not_mem {born : List Handle} {h : Handle} (births : w.Births w₁ born)
    (before : w.pool.Knows h) : h ∉ born :=
  fun mem => births.fresh h mem before

/-- What was known keeps its object. -/
theorem Births.kept {born : List Handle} {h : Handle} (births : w.Births w₁ born)
    (before : w.pool.Knows h) : w₁.objects[h]? = w.objects[h]? :=
  births.objects h (births.not_mem before)

theorem Births.nil (sound : w.pool.Sound) : w.Births w [] where
  sound
  issued := rfl
  nodup := List.nodup_nil
  fresh := by simp
  knows := by simp
  alive := by simp
  objects _ _ := rfl
  blank := by simp
  classes := rfl
  startup := rfl

theorem Births.append {born born' : List Handle} (h₁ : w.Births w₁ born)
    (h₂ : w₁.Births w₂ born') : w.Births w₂ (born ++ born') where
  sound := h₂.sound
  issued := by rw [h₂.issued, h₁.issued, List.length_append, Nat.add_assoc]
  nodup := by
    refine List.nodup_append.mpr ⟨h₁.nodup, h₂.nodup, ?_⟩
    rintro h mem k mem' rfl
    exact h₂.fresh h mem' ((h₁.knows h).mpr (.inl mem))
  fresh h mem known := by
    rcases List.mem_append.mp mem with first | second
    · exact h₁.fresh h first known
    · exact h₂.fresh h second ((h₁.knows h).mpr (.inr known))
  knows h := by
    rw [h₂.knows, h₁.knows, List.mem_append, ← or_assoc, or_comm (a := h ∈ born')]
  alive h := by
    rw [h₂.alive, h₁.alive, List.mem_append, ← or_assoc, or_comm (a := h ∈ born')]
  objects h out := by
    rw [List.mem_append, not_or] at out
    exact (h₂.objects h out.2).trans (h₁.objects h out.1)
  blank h mem := by
    by_cases second : h ∈ born'
    · exact h₂.blank h second
    · rw [h₂.objects h second]
      exact h₁.blank h ((List.mem_append.mp mem).resolve_right second)
  classes := h₂.classes.trans h₁.classes
  startup := h₂.startup.trans h₁.startup

/-- An object that has no fields is born under the handle that it is put under. -/
theorem births_place (sound : w.pool.Sound) (few : w.pool.issued < 2 ^ 32) {o : Object}
    (blank : o.fields = ∅) : w.Births (w.place o).2 [(w.place o).1] := by
  obtain ⟨sound', issued, unknown, alive, knows⟩ := sound.allocate few
  refine ⟨sound', issued, List.nodup_singleton _, ?_, ?_, ?_, ?_, ?_, rfl, rfl⟩
  · intro h mem
    rw [List.mem_singleton.mp mem]
    exact unknown
  · intro h
    rw [List.mem_singleton]
    exact knows h
  · intro h
    rw [List.mem_singleton]
    exact alive h
  · intro h out
    have differs : w.pool.allocate.1 ≠ h := fun same => out (List.mem_singleton.mpr same.symm)
    show (w.objects.insert w.pool.allocate.1 o)[h]? = _
    simp [Std.ExtTreeMap.getElem?_insert, differs]
  · intro h mem
    rw [List.mem_singleton.mp mem]
    exact ⟨o, Std.ExtTreeMap.getElem?_insert_self, blank⟩

theorem length_placeParts (w : World) (entity : EntityId) (className : String)
    (offsets : List Offset) :
    (w.placeParts entity className offsets).1.length = offsets.length := by
  induction offsets generalizing w with
  | nil => rfl
  | cons offset rest ih => exact congrArg Nat.succ (ih _)

/-- Parts are born under their handles. -/
theorem births_placeParts (sound : w.pool.Sound) (entity : EntityId) (className : String)
    (offsets : List Offset) (few : w.pool.issued + offsets.length ≤ 2 ^ 32) :
    w.Births (w.placeParts entity className offsets).2
      ((w.placeParts entity className offsets).1.map (·.2)) := by
  induction offsets generalizing w with
  | nil => exact .nil sound
  | cons offset rest ih =>
    rw [List.length_cons] at few
    obtain ⟨o, blank, made⟩ : ∃ o : Object, o.fields = ∅ ∧
        w.placeParts entity className (offset :: rest) =
          ((offset, (w.place o).1) :: ((w.place o).2.placeParts entity className rest).1,
            ((w.place o).2.placeParts entity className rest).2) := ⟨_, rfl, rfl⟩
    have first := births_place sound (by omega) blank
    have issued : (w.place o).2.pool.issued = w.pool.issued + 1 := first.issued
    rw [made, List.map_cons]
    exact first.append (ih first.sound (by omega))

/-- Parts belong to the entity that they are made for, and have no parts themselves. -/
theorem belong_placeParts (sound : w.pool.Sound) (entity : EntityId) (className : String)
    (offsets : List Offset) (few : w.pool.issued + offsets.length ≤ 2 ^ 32) :
    ∀ h ∈ (w.placeParts entity className offsets).1.map (·.2),
      ∃ o, (w.placeParts entity className offsets).2.objects[h]? = some o ∧
        o.entity = some entity ∧ o.children = [] := by
  induction offsets generalizing w with
  | nil => exact fun h mem => absurd mem List.not_mem_nil
  | cons offset rest ih =>
    rw [List.length_cons] at few
    obtain ⟨o, blank, owner, partless, made⟩ : ∃ o : Object, o.fields = ∅ ∧
        o.entity = some entity ∧ o.children = [] ∧
        w.placeParts entity className (offset :: rest) =
          ((offset, (w.place o).1) :: ((w.place o).2.placeParts entity className rest).1,
            ((w.place o).2.placeParts entity className rest).2) := ⟨_, rfl, rfl, rfl, rfl⟩
    have first := births_place sound (by omega) blank
    have issued : (w.place o).2.pool.issued = w.pool.issued + 1 := first.issued
    have later := births_placeParts first.sound entity className rest (by omega)
    intro h mem
    rw [made, List.map_cons, List.mem_cons] at mem
    rw [made]
    rcases mem with rfl | part
    · -- The parts that come later are put under other handles.
      have old : (w.place o).1 ∉ ((w.place o).2.placeParts entity className rest).1.map (·.2) :=
        fun mem => later.fresh _ mem ((first.knows _).mpr (.inl List.mem_cons_self))
      exact ⟨o, (later.objects _ old).trans Std.ExtTreeMap.getElem?_insert_self, owner, partless⟩
    · exact ih first.sound (by omega) h part

/-- **Building an entity's objects**: they are born under new handles, the parts belong to the root,
and the root is noted. -/
theorem births_instantiate (sound : w.pool.Sound) {entity : EntityId} {spawn : Spawn}
    {assembly : Assembly} {w' : World} (ok : w.instantiate entity spawn = .ok (assembly, w'))
    (few : w.pool.issued + assembly.handles.length ≤ 2 ^ 32) :
    w.Births w' assembly.handles ∧
      (∃ o, w'.objects[assembly.root]? = some o ∧ o.children = assembly.parts.map (·.2)) ∧
      w'.journal.instantiated = w.journal.instantiated ++ [(entity, assembly.root)] := by
  obtain ⟨offsets, object, blank, belong, -, same, made⟩ := instantiate_eq_ok ok
  -- The root takes its handle before the parts are made, and its object is put last.
  rw [same, Assembly.handles, List.length_cons, List.length_map, length_placeParts] at few
  obtain ⟨sound₀, issued₀, unknown, alive₀, knows₀⟩ := sound.allocate (by omega)
  have parts := births_placeParts (w := { w with pool := w.pool.allocate.2 }) sound₀ entity
    spawn.className offsets (by
      show w.pool.allocate.2.issued + offsets.length ≤ 2 ^ 32
      omega)
  have noted := journal_placeParts entity spawn.className offsets
    { w with pool := w.pool.allocate.2 }
  generalize ({ w with pool := w.pool.allocate.2 } : World).placeParts entity spawn.className
    offsets = made₂ at parts same made noted
  subst same made
  have before (h : Handle) : ({ w with pool := w.pool.allocate.2 } : World).isAlive h = true ↔
      h = w.pool.allocate.1 ∨ w.isAlive h = true := alive₀ h
  have apart : ∀ h ∈ made₂.1.map (·.2), w.pool.allocate.1 ≠ h := by
    rintro h mem rfl
    exact parts.fresh _ mem ((knows₀ _).mpr (.inl rfl))
  refine ⟨⟨parts.sound, ?_, ?_, ?_, ?_, ?_, ?_, ?_, parts.classes, parts.startup⟩,
    ⟨object, Std.ExtTreeMap.getElem?_insert_self, belong⟩, ?_⟩
  · have issued := parts.issued
    rw [issued₀] at issued
    rw [Assembly.handles, List.length_cons]
    exact issued.trans (by dsimp only; omega)
  · exact List.nodup_cons.mpr ⟨fun mem => apart _ mem rfl, parts.nodup⟩
  · intro h mem known
    rcases List.mem_cons.mp mem with rfl | part
    · exact unknown known
    · exact parts.fresh h part ((knows₀ h).mpr (.inr known))
  · intro h
    refine (parts.knows h).trans ?_
    rw [knows₀, Assembly.handles, List.mem_cons, ← or_assoc, or_comm (b := h = _)]
  · intro h
    refine (parts.alive h).trans ?_
    rw [before, Assembly.handles, List.mem_cons, ← or_assoc, or_comm (b := h = _)]
  · intro h out
    rw [Assembly.handles, List.mem_cons, not_or] at out
    have kept := parts.objects h out.2
    have differs : w.pool.allocate.1 ≠ h := Ne.symm out.1
    simpa [Std.ExtTreeMap.getElem?_insert, differs] using kept
  · intro h mem
    rcases List.mem_cons.mp mem with rfl | part
    · exact ⟨object, Std.ExtTreeMap.getElem?_insert_self, blank⟩
    · have differs := apart h part
      obtain ⟨o, stored, empty⟩ := parts.blank h part
      exact ⟨o, by simpa [Std.ExtTreeMap.getElem?_insert, differs] using stored, empty⟩
  · exact congrArg (·.instantiated ++ _) noted

/-- All objects that are built for an entity belong to it, and none but the root has parts. -/
theorem belong_instantiate (sound : w.pool.Sound) {entity : EntityId} {spawn : Spawn}
    {assembly : Assembly} {w' : World} (ok : w.instantiate entity spawn = .ok (assembly, w'))
    (few : w.pool.issued + assembly.handles.length ≤ 2 ^ 32) :
    ∀ h ∈ assembly.handles, ∃ o, w'.objects[h]? = some o ∧ o.entity = some entity ∧
      (h ≠ assembly.root → o.children = []) := by
  obtain ⟨offsets, object, -, -, owner, rfl, rfl⟩ := instantiate_eq_ok ok
  rw [Assembly.handles, List.length_cons, List.length_map, length_placeParts] at few
  obtain ⟨sound₀, issued₀, -⟩ := sound.allocate (by omega)
  have parts := belong_placeParts (w := { w with pool := w.pool.allocate.2 }) sound₀ entity
    spawn.className offsets (by
      show w.pool.allocate.2.issued + offsets.length ≤ 2 ^ 32
      omega)
  intro h mem
  by_cases root : w.pool.allocate.1 = h
  · subst root
    exact ⟨object, Std.ExtTreeMap.getElem?_insert_self, owner, fun other => absurd rfl other⟩
  · obtain ⟨o, stored, owner, partless⟩ := parts h
      ((List.mem_cons.mp mem).resolve_left (Ne.symm root))
    exact ⟨o, by simpa [Std.ExtTreeMap.getElem?_insert, root] using stored, owner,
      fun _ => partless⟩

/-! ## Deaths -/

/-- Objects **die** with their handles, and everything else stays. -/
structure Deaths (w w' : World) (died : List Handle) : Prop where
  /-- The pool stays sound. -/
  sound : w'.pool.Sound
  /-- No handle is issued. -/
  issued : w'.pool.issued = w.pool.issued
  /-- The handles stay known, with all others. -/
  knows : ∀ h, w'.pool.Knows h ↔ w.pool.Knows h
  /-- They are in use no more. -/
  alive : ∀ h, w'.isAlive h = true ↔ h ∉ died ∧ w.isAlive h = true
  /-- The other objects stay. -/
  objects : ∀ h, h ∉ died → w'.objects[h]? = w.objects[h]?
  /-- The same classes are known. -/
  classes : w'.classes = w.classes
  /-- The same pre-placed objects are known. -/
  startup : w'.startup = w.startup
  /-- No entity is built. -/
  instantiated : w'.journal.instantiated = w.journal.instantiated

theorem Deaths.nil (sound : w.pool.Sound) : w.Deaths w [] where
  sound
  issued := rfl
  knows _ := Iff.rfl
  alive := by simp
  objects _ _ := rfl
  classes := rfl
  startup := rfl
  instantiated := rfl

theorem Deaths.append {died died' : List Handle} (h₁ : w.Deaths w₁ died)
    (h₂ : w₁.Deaths w₂ died') : w.Deaths w₂ (died ++ died') where
  sound := h₂.sound
  issued := h₂.issued.trans h₁.issued
  knows h := (h₂.knows h).trans (h₁.knows h)
  alive h := by
    rw [h₂.alive, h₁.alive, List.mem_append, not_or, ← and_assoc, and_comm (a := h ∉ died')]
  objects h out := by
    rw [List.mem_append, not_or] at out
    exact (h₂.objects h out.2).trans (h₁.objects h out.1)
  classes := h₂.classes.trans h₁.classes
  startup := h₂.startup.trans h₁.startup
  instantiated := h₂.instantiated.trans h₁.instantiated

theorem deaths_discard (sound : w.pool.Sound) (few : w.pool.issued < 2 ^ 32) (h : Handle) :
    w.Deaths (w.discard h) [h] := by
  obtain ⟨sound', issued, alive, knows⟩ := sound.release few h
  refine ⟨sound', issued, knows, ?_, ?_, rfl, rfl, rfl⟩
  · intro k
    rw [List.mem_singleton]
    exact alive k
  · intro k out
    have differs : h ≠ k := fun same => out (List.mem_singleton.mpr same.symm)
    show (w.objects.erase h)[k]? = _
    simp [Std.ExtTreeMap.getElem?_erase, differs]

theorem deaths_discards (sound : w.pool.Sound) (few : w.pool.issued < 2 ^ 32)
    (handles : List Handle) : w.Deaths (handles.foldl discard w) handles := by
  induction handles generalizing w with
  | nil => exact .nil sound
  | cons h rest ih =>
    have first := deaths_discard sound few h
    exact first.append (ih first.sound (first.issued ▸ few))

/-- **Destroying an object**: it dies with its parts. -/
theorem deaths_destroy (sound : w.pool.Sound) (few : w.pool.issued < 2 ^ 32) {h : Handle}
    {o : Object} (found : w.object? h = some o) :
    w.Deaths (w.destroy h) (o.children ++ [h]) := by
  have parts := deaths_discards sound few o.children
  have whole := parts.append (deaths_discard parts.sound (parts.issued ▸ few) h)
  unfold destroy
  rw [found]
  exact { whole with }

/-- Destroying what may be an object or not leaves the pool sound, and issues and forgets no
handle. -/
theorem pool_destroy (sound : w.pool.Sound) (few : w.pool.issued < 2 ^ 32) (h : Handle) :
    (w.destroy h).pool.Sound ∧ (w.destroy h).pool.issued = w.pool.issued ∧
      ∀ k, (w.destroy h).pool.Knows k ↔ w.pool.Knows k := by
  cases found : w.object? h with
  | none =>
    have same : w.destroy h = w := by
      unfold destroy
      rw [found]
    rw [same]
    exact ⟨sound, rfl, fun _ => Iff.rfl⟩
  | some o =>
    have deaths := deaths_destroy sound few found
    exact ⟨deaths.sound, deaths.issued, deaths.knows⟩

end World

end Replica
