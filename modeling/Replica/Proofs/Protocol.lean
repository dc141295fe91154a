import Replica.Stock

/-! # Building a protocol

A protocol is built in place. Each request comes in two manners: it can be asked for, and is then
refused where it cannot be met, or it can be insisted on, and then a refusal is a fault. The steps
are spelt out here one change after the other, so that what a step has done by the time it stops can
be seen. A request that is asked for stops before its first change, with one exception: the bindings
of an extension are insisted on one by one, also where the extension as a whole is asked for.

Main definitions:
* `Protocol.Building` — a computation in place that undoes nothing when it stops.
* `Protocol.Step`, `Protocol.after` — the steps, and what they lead to.
* `Protocol.Extends` — a protocol that has all the bindings of another one.
* `Protocol.asking_settles` — what comes of steps that are asked for, and what all steps keep. -/

namespace Replica.Protocol

/-! ## Steps in place -/

/-- Why a building step **stops**. -/
inductive Stop where
  /-- The request is refused. -/
  | refused (error : ProtocolError)
  /-- The call that made it ends. -/
  | faulted (fault : Fault)
deriving DecidableEq

/-- A computation that **builds** a protocol in place. Where it stops, what it has changed by then
stays changed. -/
abbrev Building (α : Type) := EStateM Stop Protocol α

/-- The **manner** of a request. -/
inductive Manner where
  /-- It may be refused. -/
  | asked
  /-- It is taken for certain. -/
  | insisted
deriving DecidableEq

/-- How a request that cannot be met stops. -/
def Manner.stop : Manner → ProtocolError → Stop
  | .asked, error => .refused error
  | .insisted, error => .faulted error.fault

/-- Stops at a locked protocol. -/
def checkInPlace (m : Manner) : Building Unit := do
  if (← get).isLocked then throw (m.stop .alreadyLocked)

/-- Enters a binding for a component that has none, and tells whether it did. -/
def enterBinding (component : ComponentId) (b : Binding) : Building Bool := do
  if (← get).contains component then return false
  modify fun p => { p with bindings := p.bindings.insert component b }
  return true

/-- Binds a component **in place**. -/
def addInPlace (m : Manner) (component : ComponentId) (b : Binding) : Building Unit := do
  checkInPlace m
  if !(← enterBinding component b) then throw (m.stop (.duplicateComponent component))

/-- Makes the bindings final **in place**. -/
def lockInPlace (m : Manner) : Building Unit := do
  checkInPlace m
  modify fun p => { p with isLocked := true }

/-- Makes the bindings of an extension **in place**. Each of them is insisted on. -/
def installInPlace (m : Manner) (extension : Extension) : Building Unit := do
  checkInPlace m
  extension.forM fun (component, b) => addInPlace .insisted component b

/-- A **step** of building a protocol. -/
inductive Step where
  /-- A component is bound. -/
  | add (m : Manner) (component : ComponentId) (b : Binding)
  /-- A component is bound that carries spawn data. -/
  | addSpawn (m : Manner) (component : ComponentId)
  /-- An extension is installed. -/
  | install (m : Manner) (extension : Extension)
  /-- The bindings are made final. -/
  | lock (m : Manner)
  /-- It is made sure that they are not. -/
  | check (m : Manner)
  /-- The protocol is handed out, and building begins anew. -/
  | build
deriving DecidableEq

/-- What a step does, change by change. -/
def Step.inPlace : Step → Building Unit
  | .add m component b => addInPlace m component b
  | .addSpawn m component => addInPlace m component ⟨.spawn, Reference.rootOffset⟩
  | .install m extension => installInPlace m extension
  | .lock m => lockInPlace m
  | .check m => checkInPlace m
  | .build => set ({} : Protocol)

/-- What a computation leaves, whether it stops or not. -/
def left : EStateM.Result Stop Protocol Unit → Protocol
  | .ok _ p | .error _ p => p

/-- The protocol that some steps **lead to**, whichever of them stop. -/
def after (p : Protocol) (steps : List Step) : Protocol :=
  steps.foldl (fun p step => left (step.inPlace.run p)) p

/-! ## Steps in place are steps as a whole -/

variable {p q : Protocol} {m : Manner} {component : ComponentId} {b : Binding}

/-- What comes of a request as a whole: it is met, or it stops in its manner and changes nothing. -/
def whole (m : Manner) (p : Protocol) :
    Except ProtocolError Protocol → EStateM.Result Stop Protocol Unit
  | .ok q => .ok () q
  | .error error => .error (m.stop error) p

/-- What comes of a request that may fault midway: what it has changed by then remains. -/
def partly : Option Fault × Protocol → EStateM.Result Stop Protocol Unit
  | (none, q) => .ok () q
  | (some fault, q) => .error (.faulted fault) q

/-- Steps run one after the other, up to a fault. -/
theorem run_bind {α β : Type} (x : Building α) (k : α → Building β) (p : Protocol) :
    (x >>= k).run p =
      match x.run p with
      | .ok a q => (k a).run q
      | .error stop q => .error stop q := by
  simp only [EStateM.run, bind, EStateM.bind]
  cases x p with
  | ok _ _ => rfl
  | error _ _ => rfl

/-- Checking in place is a refusal or leaves all as it is. -/
theorem run_check (m : Manner) (p : Protocol) :
    (checkInPlace m).run p = whole m p (p.checkOpen.map fun _ => p) := by
  rw [checkInPlace, run_bind, checkOpen]
  dsimp only [EStateM.run_get]
  cases p.isLocked with
  | true => rfl
  | false => rfl

/-- A binding is entered in place if there is none. -/
theorem run_enter (component : ComponentId) (b : Binding) (p : Protocol) :
    (enterBinding component b).run p =
      if p.contains component then .ok false p
      else .ok true { p with bindings := p.bindings.insert component b } := by
  rw [enterBinding, run_bind]
  dsimp only [EStateM.run_get]
  cases p.contains component with
  | true => rfl
  | false => rfl

/-- Binding a component in place is binding it as a whole. -/
theorem run_add (m : Manner) (component : ComponentId) (b : Binding) (p : Protocol) :
    (addInPlace m component b).run p = whole m p (p.add? component b) := by
  obtain ⟨bindings, isLocked⟩ := p
  rw [addInPlace, run_bind, run_check]
  cases isLocked with
  | true => rfl
  | false =>
    show (enterBinding component b >>= _).run _ = _
    rw [run_bind, run_enter]
    unfold add? checkOpen
    cases contains ⟨bindings, false⟩ component with
    | true => rfl
    | false => rfl

/-- So it is for a component that carries spawn data. -/
theorem run_addSpawn (m : Manner) (component : ComponentId) (p : Protocol) :
    (Step.addSpawn m component).inPlace.run p = whole m p (p.addSpawn? component) :=
  run_add m component _ p

/-- Making the bindings final in place is making them final as a whole. -/
theorem run_lock (m : Manner) (p : Protocol) : (lockInPlace m).run p = whole m p p.lock? := by
  obtain ⟨bindings, isLocked⟩ := p
  rw [lockInPlace, run_bind, run_check]
  cases isLocked with
  | true => rfl
  | false => rfl

/-- Bindings that are insisted on one after the other. -/
theorem run_addAll (extension : Extension) (p : Protocol) :
    (extension.forM fun (component, b) => addInPlace .insisted component b).run p =
      partly (p.addAll extension) := by
  induction extension generalizing p with
  | nil => rfl
  | cons e rest ih =>
    obtain ⟨component, b⟩ := e
    rw [List.forM_eq_forM, List.forM_cons, run_bind, run_add, addAll]
    cases p.add? component b with
    | error error => rfl
    | ok q => exact ih q

/-- Installing an extension in place is installing it as a whole, in either manner. One that is
asked for is refused by a locked protocol; one that is insisted on faults there. -/
theorem run_install (m : Manner) (extension : Extension) (p : Protocol) :
    (installInPlace m extension).run p =
      match m with
      | .insisted => partly (p.install extension)
      | .asked =>
        match p.install? extension with
        | .ok r => partly r
        | .error error => .error (.refused error) p := by
  rw [installInPlace, run_bind, run_check]
  cases m with
  | insisted =>
    dsimp only
    rw [install]
    cases p.checkOpen with
    | error error => rfl
    | ok _ => exact run_addAll extension p
  | asked =>
    dsimp only
    rw [install?]
    cases p.checkOpen with
    | error error => rfl
    | ok _ => exact run_addAll extension p

/-! ## What single steps do -/

/-- A protocol that is locked refuses every binding. -/
theorem add?_of_locked (locked : p.isLocked = true) (component : ComponentId) (b : Binding) :
    p.add? component b = .error .alreadyLocked := by
  rw [add?, checkOpen, if_pos locked]
  rfl

/-- A binding is refused where there is one. -/
theorem add?_of_bound (unlocked : p.isLocked = false) (bound : p.contains component = true)
    (b : Binding) : p.add? component b = .error (.duplicateComponent component) := by
  rw [add?, checkOpen, unlocked, bound]
  rfl

/-- An open protocol binds a component that it does not bind yet. -/
theorem exists_add (unlocked : p.isLocked = false) (free : p.contains component = false)
    (b : Binding) : ∃ q, p.add? component b = .ok q ∧ q.isLocked = false := by
  refine ⟨{ p with bindings := p.bindings.insert component b }, ?_, unlocked⟩
  rw [add?, checkOpen, unlocked, free]
  rfl

/-- Only an open protocol binds a component, and only one that it does not bind yet. -/
theorem free_of_add? (ok : p.add? component b = .ok q) :
    p.isLocked = false ∧ p.contains component = false := by
  cases locked : p.isLocked with
  | true =>
    rw [add?_of_locked locked] at ok
    cases ok
  | false =>
    cases bound : p.contains component with
    | true =>
      rw [add?_of_bound locked bound] at ok
      cases ok
    | false => exact ⟨rfl, rfl⟩

/-- A component is bound just if its binding is found. -/
theorem contains_eq_isSome (p : Protocol) (component : ComponentId) :
    p.contains component = (p.binding? component).isSome :=
  Std.ExtTreeMap.contains_eq_isSome_getElem?

/-- A protocol **extends** another one if it has all of its bindings. -/
def Extends (q p : Protocol) : Prop :=
  ∀ (component : ComponentId) (b : Binding), p.binding? component = some b →
    q.binding? component = some b

theorem Extends.refl (p : Protocol) : p.Extends p := fun _ _ bound => bound

theorem Extends.trans {r : Protocol} (h : q.Extends p) (h' : r.Extends q) : r.Extends p :=
  fun component b bound => h' component b (h component b bound)

/-- What was bound is bound in an extension. -/
theorem Extends.contains (h : q.Extends p) (bound : p.contains component = true) :
    q.contains component = true := by
  rw [contains_eq_isSome, Option.isSome_iff_exists] at bound ⊢
  obtain ⟨b, bound⟩ := bound
  exact ⟨b, h component b bound⟩

/-- A binding that is added is new. -/
theorem extends_of_add? (ok : p.add? component b = .ok q) : q.Extends p := by
  intro k c bound
  rw [binding?_of_add? ok]
  split
  · subst k
    have free := (free_of_add? ok).2
    rw [contains_eq_isSome, bound] at free
    cases free
  · exact bound

/-- Entering a block of bindings extends a protocol. -/
theorem extends_addAll (extension : Extension) (p : Protocol) :
    (p.addAll extension).2.Extends p := by
  induction extension generalizing p with
  | nil => exact .refl p
  | cons e rest ih =>
    rw [addAll]
    split
    · rename_i q ok
      exact (extends_of_add? ok).trans (ih q)
    · exact .refl p

/-- Whatever is done to a locked protocol stops at once. -/
theorem run_check_of_locked {α : Type} (locked : p.isLocked = true) (m : Manner)
    (k : Unit → Building α) :
    (checkInPlace m >>= k).run p = .error (m.stop .alreadyLocked) p := by
  rw [run_bind, run_check, checkOpen, if_pos locked]
  rfl

/-- Whatever is done to an open protocol goes on. -/
theorem run_check_of_open {α : Type} (unlocked : p.isLocked = false) (m : Manner)
    (k : Unit → Building α) : (checkInPlace m >>= k).run p = (k ()).run p := by
  rw [run_bind, run_check, checkOpen, unlocked]
  rfl

/-! ## What all steps keep -/

theorem left_partly (r : Option Fault × Protocol) : left (partly r) = r.2 := by
  obtain ⟨fault | fault, q⟩ := r
  · rfl
  · rfl

/-- A step leaves a locked protocol alone. -/
theorem left_of_locked (locked : p.isLocked = true) {step : Step} (goesOn : step ≠ .build) :
    left (step.inPlace.run p) = p := by
  cases step with
  | add m component b =>
    rw [Step.inPlace, addInPlace, run_check_of_locked locked]
    rfl
  | addSpawn m component =>
    rw [Step.inPlace, addInPlace, run_check_of_locked locked]
    rfl
  | install m extension =>
    rw [Step.inPlace, installInPlace, run_check_of_locked locked]
    rfl
  | lock m =>
    rw [Step.inPlace, lockInPlace, run_check_of_locked locked]
    rfl
  | check m =>
    rw [Step.inPlace, run_check, checkOpen, if_pos locked]
    rfl
  | build => exact absurd rfl goesOn

/-- Whatever is left of adding a binding in place extends a protocol. -/
theorem extends_left_add (m : Manner) (component : ComponentId) (b : Binding) (p : Protocol) :
    (left ((addInPlace m component b).run p)).Extends p := by
  rw [run_add]
  cases added : p.add? component b with
  | ok q => exact extends_of_add? added
  | error error => exact .refl p

/-- A step keeps every binding. -/
theorem extends_left (p : Protocol) {step : Step} (goesOn : step ≠ .build) :
    (left (step.inPlace.run p)).Extends p := by
  -- A locked protocol stops each step at its first check, so only an open one is looked into.
  cases locked : p.isLocked with
  | true =>
    rw [left_of_locked locked goesOn]
    exact .refl p
  | false =>
    cases step with
    | add m component b => exact extends_left_add m component b p
    | addSpawn m component => exact extends_left_add m component _ p
    | install m extension =>
      rw [Step.inPlace, installInPlace, run_check_of_open locked, run_addAll, left_partly]
      exact extends_addAll extension p
    | lock m =>
      rw [Step.inPlace, lockInPlace, run_check_of_open locked]
      exact fun component b bound => bound
    | check m =>
      rw [Step.inPlace, run_check, checkOpen, locked]
      exact .refl p
    | build => exact absurd rfl goesOn

/-- Bindings are kept by any steps but a build. -/
theorem extends_after (p : Protocol) {steps : List Step} (goOn : .build ∉ steps) :
    (p.after steps).Extends p := by
  induction steps generalizing p with
  | nil => exact .refl p
  | cons step rest ih =>
    rw [List.mem_cons, not_or] at goOn
    exact (extends_left p (Ne.symm goOn.1)).trans (ih _ goOn.2)

/-- A locked protocol is left alone by any steps but a build. -/
theorem after_of_locked (locked : p.isLocked = true) {steps : List Step}
    (goOn : .build ∉ steps) : p.after steps = p := by
  induction steps with
  | nil => rfl
  | cons step rest ih =>
    rw [List.mem_cons, not_or] at goOn
    rw [after, List.foldl_cons, left_of_locked locked (Ne.symm goOn.1)]
    exact ih goOn.2

/-! ## Installing an extension -/

/-- A block of bindings is entered front first, and not further than the first fault. -/
theorem addAll_append (front back : Extension) (p : Protocol) :
    p.addAll (front ++ back) =
      match p.addAll front with
      | (none, q) => q.addAll back
      | (some fault, q) => (some fault, q) := by
  induction front generalizing p with
  | nil => rfl
  | cons e rest ih =>
    rw [List.cons_append, addAll, addAll]
    cases p.add? e.1 e.2 with
    | ok q => exact ih q
    | error error => rfl

/-- Different components that are not bound are bound one after the other. -/
theorem addAll_of_fresh (unlocked : p.isLocked = false) {extension : Extension}
    (distinct : (extension.map Prod.fst).Nodup)
    (fresh : ∀ e ∈ extension, p.contains e.1 = false) :
    ∃ q, p.addAll extension = (none, q) ∧ q.isLocked = false ∧
      (∀ e ∈ extension, q.binding? e.1 = some e.2) ∧
      ∀ k, k ∉ extension.map Prod.fst → q.binding? k = p.binding? k := by
  induction extension generalizing p with
  | nil => exact ⟨p, rfl, unlocked, fun _ mem => absurd mem List.not_mem_nil, fun _ _ => rfl⟩
  | cons e rest ih =>
    rw [List.map_cons, List.nodup_cons] at distinct
    rw [List.forall_mem_cons] at fresh
    obtain ⟨r, added, opened⟩ := exists_add unlocked fresh.1 e.2
    have first := binding?_of_add? added
    have still : ∀ x ∈ rest, r.contains x.1 = false := by
      intro x mem
      have other : e.1 ≠ x.1 := fun same => distinct.1 (same ▸ List.mem_map_of_mem mem)
      rw [contains_eq_isSome, first, if_neg other, ← contains_eq_isSome]
      exact fresh.2 x mem
    obtain ⟨q, all, opened, bound, others⟩ := ih opened distinct.2 still
    refine ⟨q, ?_, opened, ?_, fun k out => ?_⟩
    · rw [addAll, added]
      exact all
    · rw [List.forall_mem_cons]
      refine ⟨?_, bound⟩
      rw [others e.1 distinct.1, first, if_pos rfl]
    · rw [List.map_cons, List.mem_cons, not_or] at out
      rw [others k out.2, first, if_neg (Ne.symm out.1)]

/-- An extension stops at its first component that is bound, and what was bound before remains. -/
theorem addAll_of_bound (unlocked : p.isLocked = false) {extension : Extension}
    (distinct : (extension.map Prod.fst).Nodup)
    (bound : ∃ e ∈ extension, p.contains e.1 = true) :
    ∃ front component b back q, extension = front ++ (component, b) :: back ∧
      (∀ e ∈ front, p.contains e.1 = false) ∧ p.contains component = true ∧
      p.addAll front = (none, q) ∧ p.addAll extension = (some (.componentBound component), q) := by
  -- The extension is split at the first of its components that is bound.
  cases first : extension.find? (p.contains ·.1) with
  | none =>
    obtain ⟨e, mem, taken⟩ := bound
    exact absurd taken (List.find?_eq_none.mp first e mem)
  | some e =>
    obtain ⟨taken, front, back, rfl, fresh⟩ := List.find?_eq_some_iff_append.mp first
    have untaken : ∀ x ∈ front, p.contains x.1 = false := by simpa using fresh
    rw [List.map_append] at distinct
    obtain ⟨q, before, opened, -, -⟩ :=
      addAll_of_fresh unlocked (List.nodup_append.mp distinct).1 untaken
    refine ⟨front, e.1, e.2, back, q, rfl, untaken, taken, before, ?_⟩
    have still : q.contains e.1 = true := by
      have kept := extends_addAll front p
      rw [before] at kept
      exact kept.contains taken
    rw [addAll_append, before]
    show q.addAll (e :: back) = _
    rw [addAll, add?_of_bound opened still]
    rfl

/-! ## What is asked for -/

/-- A step **settles** in a protocol if it is done, or refused, and then it leaves the protocol as
it is. -/
def Settles (p : Protocol) (step : Step) : Prop :=
  match step.inPlace.run p with
  | .ok _ _ => True
  | .error (.refused _) q => q = p
  | .error (.faulted _) _ => False

/-- What is asked for as a whole settles. -/
theorem settles_of_whole {step : Step} {r : Except ProtocolError Protocol}
    (h : step.inPlace.run p = whole .asked p r) : p.Settles step := by
  rw [Settles, h]
  cases r with
  | ok q => trivial
  | error error => rfl

/-- An extension that is asked for **breaks off**: it faults at a component that is bound, and the
components before it are bound by then. -/
def BreaksOff (p : Protocol) (extension : Extension) : Prop :=
  ∃ front component b back q, extension = front ++ (component, b) :: back ∧
    (∀ e ∈ front, p.contains e.1 = false) ∧ p.contains component = true ∧
    (installInPlace .asked front).run p = .ok () q ∧
    (installInPlace .asked extension).run p = .error (.faulted (.componentBound component)) q

/-- An extension with a component that is bound breaks off. -/
theorem breaksOff_of_bound (unlocked : p.isLocked = false) {extension : Extension}
    (distinct : (extension.map Prod.fst).Nodup)
    (bound : ∃ e ∈ extension, p.contains e.1 = true) : p.BreaksOff extension := by
  obtain ⟨front, component, b, back, q, same, fresh, taken, before, stopped⟩ :=
    addAll_of_bound unlocked distinct bound
  refine ⟨front, component, b, back, q, same, fresh, taken, ?_, ?_⟩
  · rw [installInPlace, run_check_of_open unlocked, run_addAll, before]
    rfl
  · rw [installInPlace, run_check_of_open unlocked, run_addAll, stopped]
    rfl

/-- Where a block breaks off, asking for it does not settle. -/
theorem BreaksOff.not_settles {extension : Extension} (h : p.BreaksOff extension) :
    ¬p.Settles (.install .asked extension) := by
  obtain ⟨front, component, b, back, q, -, -, -, -, stopped⟩ := h
  rw [Settles, Step.inPlace, stopped]
  exact id

/-- An extension of different components settles in a locked protocol, and in an open one just if it
binds none of them. -/
theorem settles_install_iff {extension : Extension} (distinct : (extension.map Prod.fst).Nodup) :
    p.Settles (.install .asked extension) ↔
      p.isLocked = true ∨ ∀ e ∈ extension, p.contains e.1 = false := by
  cases locked : p.isLocked with
  | true =>
    rw [Settles, Step.inPlace, run_install, install?, checkOpen, if_pos locked]
    exact ⟨fun _ => .inl rfl, fun _ => rfl⟩
  | false =>
    by_cases fresh : ∀ e ∈ extension, p.contains e.1 = false
    · obtain ⟨q, all, -⟩ := addAll_of_fresh locked distinct fresh
      rw [Settles, Step.inPlace, installInPlace, run_check_of_open locked, run_addAll, all]
      exact ⟨fun _ => .inr fresh, fun _ => trivial⟩
    · have bound : ∃ e ∈ extension, p.contains e.1 = true := by simpa using fresh
      have broken := (breaksOff_of_bound locked distinct bound).not_settles
      refine ⟨fun settles => absurd settles broken, ?_⟩
      rintro (never | free)
      · cases never
      · exact absurd free fresh

/-- What comes of building steps on a protocol. -/
structure AskingSettles (p : Protocol) : Prop where
  /-- To ask for a binding settles. -/
  add : ∀ component b, p.Settles (.add .asked component b)
  /-- It is met by an open protocol that does not bind the component yet, and by no other. -/
  added : ∀ component b,
    (∃ q, (Step.add .asked component b).inPlace.run p = .ok () q ∧
      q.binding? component = some b) ↔ p.isLocked = false ∧ p.contains component = false
  /-- To ask for a spawn component settles. -/
  addSpawn : ∀ component, p.Settles (.addSpawn .asked component)
  /-- To ask for the lock settles. -/
  lock : p.Settles (.lock .asked)
  /-- It is met by an open protocol, and by no other. -/
  locked : (∃ q, (Step.lock .asked).inPlace.run p = .ok () q ∧ q.isLocked = true ∧
    q.bindings = p.bindings) ↔ p.isLocked = false
  /-- To ask for the stock components settles, unless an open protocol binds one of them. -/
  install : p.Settles (.install .asked Stock.extension) ↔
    p.isLocked = true ∨ ∀ e ∈ Stock.extension, p.contains e.1 = false
  /-- An open protocol that binds none of them binds them all. -/
  installed : p.isLocked = false → (∀ e ∈ Stock.extension, p.contains e.1 = false) →
    ∃ q, (Step.install .asked Stock.extension).inPlace.run p = .ok () q ∧
      ∀ e ∈ Stock.extension, q.binding? e.1 = some e.2
  /-- Where it does not settle, it breaks off at the first of them that is bound. -/
  midway : ¬p.Settles (.install .asked Stock.extension) → p.BreaksOff Stock.extension
  /-- Steps of any kind and in any manner keep each binding until the protocol is handed out. -/
  keeps : ∀ steps, .build ∉ steps → (p.after steps).Extends p
  /-- They leave a locked protocol as it is. -/
  final : p.isLocked = true → ∀ steps, .build ∉ steps → p.after steps = p

/-- **What is asked for settles, unless an extension meets a component that is bound.** So it is in
every protocol, whatever steps have led to it. -/
theorem asking_settles (p : Protocol) : AskingSettles p where
  add component b := settles_of_whole (run_add .asked component b p)
  added component b := by
    constructor
    · rintro ⟨q, met, -⟩
      rw [Step.inPlace, run_add] at met
      cases added : p.add? component b with
      | ok r => exact free_of_add? added
      | error error =>
        rw [added] at met
        cases met
    · rintro ⟨unlocked, free⟩
      obtain ⟨q, added, -⟩ := exists_add unlocked free b
      refine ⟨q, ?_, ?_⟩
      · rw [Step.inPlace, run_add, added]
        rfl
      · rw [binding?_of_add? added, if_pos rfl]
  addSpawn component := settles_of_whole (run_addSpawn .asked component p)
  lock := settles_of_whole (run_lock .asked p)
  locked := by
    constructor
    · rintro ⟨q, met, -⟩
      cases locked : p.isLocked with
      | true =>
        rw [Step.inPlace, lockInPlace, run_check_of_locked locked] at met
        cases met
      | false => rfl
    · intro unlocked
      refine ⟨p.locked, ?_, rfl, rfl⟩
      rw [Step.inPlace, lockInPlace, run_check_of_open unlocked]
      rfl
  install := settles_install_iff (by decide)
  installed unlocked fresh := by
    obtain ⟨q, all, -, bound, -⟩ := addAll_of_fresh unlocked (by decide) fresh
    refine ⟨q, ?_, bound⟩
    rw [Step.inPlace, installInPlace, run_check_of_open unlocked, run_addAll, all]
    rfl
  midway broken := by
    rw [settles_install_iff (by decide), not_or] at broken
    refine breaksOff_of_bound (Bool.of_not_eq_true broken.1) (by decide) ?_
    simpa using broken.2
  keeps _ goOn := extends_after p goOn
  final locked _ goOn := after_of_locked locked goOn

/-- The root object's properties are bound by hand, and then the stock components are asked for: the
call that asks ends, and leaves one of them bound. -/
theorem install_rootDataBound :
    let p := after {} [.add .asked Stock.rootDataComponent ⟨.data, Reference.rootOffset⟩]
    p.isLocked = false ∧ p.contains Stock.spawnComponent = false ∧
      ∃ q, (Step.install .asked Stock.extension).inPlace.run p =
          .error (.faulted (.componentBound Stock.rootDataComponent)) q ∧
        q.contains Stock.spawnComponent = true :=
  ⟨rfl, rfl, _, rfl, rfl⟩

end Replica.Protocol
