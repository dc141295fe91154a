import Mathlib.Algebra.GroupWithZero.Nat
import Mathlib.Data.List.Nodup
import Replica.Proofs.Wakeup

/-! # What becomes of a call

A call that is delivered is executed at once, or parked until its arguments are local. A **ledger**
follows every call through the course of a session: it reads only what was delivered, what was
counted off, and which objects were alive. The session agrees with it at every point, so a call is
executed once, or still parked, or was dropped with its object.

Main definitions:
* `Errand` — a delivered call, under the number of the moment in which it was delivered.
* `Ledger`, `Ledger.enter` — what became of every errand, and what one moment adds.
* `Ledger.Sound` — the session agrees with the ledger. Moves that concern no call keep it so, and
  so do deliveries; `Replica.Proofs.Ledger.Accounts` adds the arrivals.
* `Ledger.park` — the ledger after a call was parked. -/

namespace Replica

/-! ## Errands -/

/-- An **errand**: a delivered call. Its number tells it from others that look the same. -/
structure Errand where
  /-- The number of the moment in which the call was delivered. -/
  number : Nat
  /-- The call. -/
  call : Delivered
deriving DecidableEq

/-- The errand that a moment brings, if a call is delivered in it. -/
def Moment.errands (m : Moment) (number : Nat) : List Errand :=
  match m.move with
  | .deliver call => [⟨number, call⟩]
  | _ => []

/-- The errands of a course, in the order of their delivery. -/
def errands (course : List Moment) : List Errand :=
  course.zipIdx.flatMap fun (m, number) => m.errands number

/-- A call as it is executed: its arguments are what the resolver makes of those delivered. -/
def Delivered.execution (d : Delivered) (resolve : Resolver) : Execution :=
  ⟨d.target, d.function, Value.localizeAll resolve d.args⟩

/-- A call as it stands in the queue while it waits for some references. -/
def Delivered.parked (d : Delivered) (missing : ReferenceSet) : ParkedCall :=
  ⟨d.target, d.entity, d.component, d.invocation, missing⟩

/-- The **outcome** of an errand, with the moment in which it came to an end. -/
structure Outcome where
  /-- The errand. -/
  errand : Errand
  /-- The number of the moment. -/
  number : Nat
  /-- The session at that moment. -/
  session : Session

/-- The execution of an errand, with the arguments as they were local at that moment. -/
def Outcome.execution (x : Outcome) : Execution := x.errand.call.execution x.session.resolver

/-- Whether the object of an errand was alive at that moment. -/
def Outcome.isAlive (x : Outcome) : Bool := x.session.world.isAlive x.errand.call.target

/-! ## The ledger -/

/-- A **ledger** of errands. -/
structure Ledger where
  /-- The number of moments so far. -/
  clock : Nat := 0
  /-- The errands that were executed, in order. -/
  executed : List Outcome := []
  /-- The errands that wait, each under its ticket. -/
  parked : List (Ticket × Errand) := []
  /-- The errands that were dropped with their objects, in order. -/
  dropped : List Outcome := []
  /-- The errands whose ticket was given away while they waited. -/
  displaced : List Errand := []
  /-- How many errands were ever parked. -/
  parkings : Nat := 0

namespace Ledger

/-- The errand that waits under a ticket. -/
def waiting? (l : Ledger) (t : Ticket) : Option Errand :=
  (l.parked.find? (·.1 == t)).map (·.2)

/-- The errands under some tickets, as they come to an end in a session. -/
def outcomes (l : Ledger) (s : Session) (ts : List Ticket) : List Outcome :=
  (ts.filterMap l.waiting?).map (⟨·, l.clock, s⟩)

/-- **Enters a moment**. A call with no argument missing is executed at once, and any other is
parked. An arrival ends the errands that wait for nothing else: those with a live object are
executed, the others dropped. -/
def enter (l : Ledger) (m : Moment) : Ledger :=
  let l' := { l with clock := l.clock + 1 }
  match m.move with
  | .deliver call =>
    if (Value.missingAll m.session.resolver call.args).isEmpty then
      { l' with executed := l.executed ++ [⟨⟨l.clock, call⟩, l.clock, m.session⟩] }
    else
      let ticket := m.session.calls.next
      { l' with
        parked := l.parked.filter (·.1 != ticket) ++ [(ticket, ⟨l.clock, call⟩)]
        displaced := l.displaced ++ (l.parked.filter (·.1 == ticket)).map (·.2)
        parkings := l.parkings + 1 }
  | .replay arrival =>
    let freed := m.session.calls.freed arrival.reference
    { l' with
      executed := l.executed ++ (l.outcomes m.session freed).filter (·.isAlive)
      dropped := l.dropped ++ (l.outcomes m.session freed).filter (!·.isAlive)
      parked := l.parked.filter (!freed.contains ·.1) }
  | _ => l'

/-- All the errands that a ledger lists. -/
def listed (l : Ledger) : List Errand :=
  l.executed.map (·.errand) ++
    (l.parked.map (·.2) ++ (l.dropped.map (·.errand) ++ l.displaced))

/-- The ledger of a course. -/
def ofCourse (course : List Moment) : Ledger := course.foldl enter {}

theorem ofCourse_concat (past : List Moment) (m : Moment) :
    ofCourse (past ++ [m]) = (ofCourse past).enter m := by
  simp [ofCourse]

end Ledger

theorem errands_concat (past : List Moment) (m : Moment) :
    errands (past ++ [m]) = errands past ++ m.errands past.length := by
  simp [errands, List.zipIdx_append]

/-! ## Found references -/

/-- In a moment a reference is **found** if it is local, or an arrival of it is replayed. -/
def Moment.Finds (m : Moment) (r : Reference) : Prop :=
  m.session.resolver r ≠ none ∨ ∃ arrival, m.move = .replay arrival ∧ arrival.reference = r

/-- A reference is found between two moments of a course, both included. -/
def FoundBetween (course : List Moment) (first last : Nat) (r : Reference) : Prop :=
  ∃ k m, first ≤ k ∧ k ≤ last ∧ course[k]? = some m ∧ m.Finds r

/-- What has been found stays found as the course goes on. -/
theorem FoundBetween.append {course : List Moment} {first last : Nat} {r : Reference}
    (h : FoundBetween course first last r) {last' : Nat} (later : last ≤ last')
    (more : List Moment) : FoundBetween (course ++ more) first last' r := by
  obtain ⟨k, m, after, before, at_k, finds⟩ := h
  refine ⟨k, m, after, Nat.le_trans before later, ?_, finds⟩
  have inside : k < course.length := (List.getElem?_eq_some_iff.mp at_k).1
  rw [List.getElem?_append_left inside]
  exact at_k

/-- What a moment finds has been found once the moment is over. -/
theorem foundBetween_concat {past : List Moment} {m : Moment} {first : Nat} {r : Reference}
    (after : first ≤ past.length) (finds : m.Finds r) :
    FoundBetween (past ++ [m]) first past.length r :=
  ⟨past.length, m, after, Nat.le_refl _, by simp, finds⟩

/-! ## Agreement with the session -/

/-- A ledger is **sound** for work after some moments if the journal holds just what it lists as
executed, and the queue just what it lists as parked. -/
structure Ledger.Sound (l : Ledger) (w : Work) (past : List Moment) : Prop where
  /-- Every moment was entered. -/
  clock : l.clock = past.length
  /-- Every errand has one outcome. -/
  balance : (errands past).Perm (l.executed.map (·.errand) ++
    (l.parked.map (·.2) ++ (l.dropped.map (·.errand) ++ l.displaced)))
  /-- Errands have ascending numbers. -/
  ascending : (errands past).Pairwise (·.number < ·.number)
  /-- An errand was delivered in the moment of its number, with arguments that can be read. -/
  delivered : ∀ e ∈ errands past, Wire.decodeArgs e.call.payload = .ok e.call.args ∧
    ∃ m, past[e.number]? = some m ∧ m.move = .deliver e.call
  /-- Just these calls were executed. -/
  executed : w.session.world.journal.executed = l.executed.map (·.execution)
  /-- At every moment before, just those were executed that have a lower number. -/
  timed : ∀ k m, past[k]? = some m → m.session.world.journal.executed =
    (l.executed.filter (·.number < k)).map (·.execution)
  /-- None was executed before its delivery. -/
  since : ∀ x ∈ l.executed, x.errand.number ≤ x.number
  /-- Each was executed in a moment of its own number, on a live object. -/
  ran : ∀ x ∈ l.executed, x.isAlive = true ∧
    (∃ m, past[x.number]? = some m ∧ m.session = x.session) ∧
    ∀ r ∈ Value.referencesAll x.errand.call.args, FoundBetween past x.errand.number x.number r
  /-- Each was dropped because its object was gone when its last reference was counted off. -/
  dropped : ∀ x ∈ l.dropped, x.isAlive = false ∧
    ∃ m arrival t, past[x.number]? = some m ∧ m.session = x.session ∧ m.move = .replay arrival ∧
      ∃ missing, x.session.calls.get? t = some (x.errand.call.parked missing) ∧
        ∀ r, r ∈ missing ↔ r = arrival.reference
  /-- Each ticket stands for one errand. -/
  tickets : (l.parked.map (·.1)).Nodup
  /-- What is listed as parked is in the queue, and waits for some of its arguments; the others have
  been found. -/
  parked : ∀ t e, (t, e) ∈ l.parked →
    ∃ missing, w.session.calls.get? t = some (e.call.parked missing) ∧ missing ≠ ∅ ∧
      (∀ r ∈ missing, r ∈ Value.referencesAll e.call.args) ∧
      ∀ r ∈ Value.referencesAll e.call.args, r ∈ missing ∨ FoundBetween past e.number past.length r
  /-- What is in the queue is listed as parked. -/
  pending : ∀ t, w.session.calls.get? t ≠ none → ∃ e, (t, e) ∈ l.parked
  /-- Nothing is ready and left behind. -/
  ready : w.session.calls.ready = []
  /-- The queue finds its calls under what they wait for. -/
  indexed : w.session.calls.Indexed
  /-- Tickets are given out in order. -/
  next : w.session.calls.next = .ofNat l.parkings
  /-- Only errands are parked, each once. -/
  parkings : l.parkings ≤ (errands past).length
  /-- No ticket was given out twice before all had been. -/
  issued : l.parkings < 2 ^ 64 → ∀ t e, (t, e) ∈ l.parked → t.toNat < l.parkings
  /-- So no errand lost its ticket before. -/
  displaced : l.displaced ≠ [] → 2 ^ 64 ≤ l.parkings

namespace Ledger

variable {l : Ledger} {w : Work} {past : List Moment}

/-- The ledger of no moment is sound for a session that has received nothing. -/
theorem sound_start (settings : Settings) (protocol : Protocol) :
    Sound {} (Session.start settings protocol).idle [] where
  clock := rfl
  balance := .refl _
  ascending := by simp [errands]
  delivered := by simp [errands]
  executed := rfl
  timed := by simp
  since := by simp
  ran := by simp
  dropped := by simp
  tickets := by simp
  parked := by simp
  pending t found := absurd (CallQueue.get?_empty t) found
  ready := rfl
  indexed := .empty
  next := rfl
  parkings := Nat.le_refl _
  issued := by simp
  displaced := by simp

end Ledger

/-! ## Moves that concern no call -/

/-- A move is **quiet** if it neither delivers a call nor replays an arrival. -/
def Move.IsQuiet : Move → Prop
  | .deliver _ | .replay _ => False
  | _ => True

/-- The host executes nothing when it changes the world. -/
theorem World.executed_alter (w : World) (change : WorldChange) :
    (w.alter change).journal.executed = w.journal.executed := by
  cases change with
  | destroy object => exact executed_destroy w object
  | _ => rfl

/-- A quiet move leaves the queue and the executed calls as they are. -/
theorem Work.perform_of_isQuiet (w : Work) {m : Move} (quiet : m.IsQuiet) :
    (w.perform m).session.calls = w.session.calls ∧
      (w.perform m).session.world.journal.executed = w.session.world.journal.executed := by
  -- Objects are made and destroyed by quiet moves, but none executes a call.
  cases m with
  | mark opens =>
    obtain ⟨held, same⟩ := w.exists_perform_mark opens
    rw [same]
    exact ⟨rfl, rfl⟩
  | hold operation => exact ⟨rfl, rfl⟩
  | draft drafts => exact ⟨rfl, rfl⟩
  | settle requests events deliveries => exact ⟨rfl, rfl⟩
  | alter change => exact ⟨rfl, World.executed_alter _ change⟩
  | learn arrival =>
    obtain ⟨held, same⟩ := w.exists_perform_learn arrival
    rw [same]
    exact ⟨rfl, rfl⟩
  | found draft =>
    have step : (w.session.found draft).2.calls = w.session.calls ∧
        (w.session.found draft).2.world.journal.executed =
          w.session.world.journal.executed := by
      unfold Session.found
      split
      · exact ⟨rfl, rfl⟩
      · split
        · exact ⟨rfl, rfl⟩
        · rename_i built
          split
          · exact ⟨rfl, (World.executed_destroy _ _).trans (World.executed_of_instantiate built)⟩
          · exact ⟨rfl, World.executed_of_instantiate built⟩
    simp only [perform]
    split
    · rename_i founded
      rwa [founded] at step
    · rename_i founded
      rwa [founded] at step
  | populate channel data => exact (Session.writes_populate channel w.session data).calls
  | complete channel => exact ⟨rfl, World.executed_finalize _ _⟩
  | authorize change =>
    simp only [perform, Session.changeAuthority]
    split <;> exact ⟨rfl, rfl⟩
  | write entity data => exact (Session.writes_write w.session entity data).calls
  | deliver call => cases quiet
  | replay arrival => cases quiet
  | remove entity =>
    rw [perform]
    rcases w.session.remove_cases entity with ⟨-, same⟩ | ⟨-, same⟩ | ⟨channel, -, same⟩
    · rw [same]
      exact ⟨rfl, rfl⟩
    · rw [same]
      exact ⟨rfl, rfl⟩
    · rw [same]
      exact ⟨rfl, World.executed_destroy _ _⟩

namespace Ledger

variable {l : Ledger} {w w' : Work} {past : List Moment}

/-- A quiet moment brings no errand. -/
theorem errands_quiet {m : Moment} (quiet : m.move.IsQuiet) (n : Nat) : m.errands n = [] := by
  unfold Moment.errands
  split
  · rename_i call same
    rw [same] at quiet
    cases quiet
  · rfl

theorem enter_quiet {m : Moment} (quiet : m.move.IsQuiet) :
    l.enter m = { l with clock := l.clock + 1 } := by
  unfold enter
  split
  · rename_i call same
    rw [same] at quiet
    cases quiet
  · rename_i arrival same
    rw [same] at quiet
    cases quiet
  · rfl

/-! ## The past goes on -/

theorem getElem?_concat {m m' : Moment} {n : Nat} (h : past[n]? = some m) :
    (past ++ [m'])[n]? = some m := by
  have inside : n < past.length := (List.getElem?_eq_some_iff.mp h).1
  rw [List.getElem?_append_left inside]
  exact h

section

variable (h : l.Sound w past) (m : Moment)

include h

/-- The number of every errand lies in the past. -/
theorem Sound.number_lt {e : Errand} (mem : e ∈ errands past) : e.number < past.length := by
  obtain ⟨-, m, at_number, -⟩ := h.delivered e mem
  exact (List.getElem?_eq_some_iff.mp at_number).1

/-- What is parked was delivered. -/
theorem Sound.mem_errands {t : Ticket} {e : Errand} (mem : (t, e) ∈ l.parked) :
    e ∈ errands past := by
  refine h.balance.mem_iff.mpr ?_
  have listed : e ∈ l.parked.map (·.2) := List.mem_map.mpr ⟨(t, e), mem, rfl⟩
  simp [listed]

/-- Errands still have ascending numbers after a moment, for that of the moment is the last. -/
theorem Sound.ascending_concat :
    (errands (past ++ [m])).Pairwise (·.number < ·.number) := by
  rw [errands_concat, List.pairwise_append]
  refine ⟨h.ascending, ?_, ?_⟩
  · unfold Moment.errands
    split
    · exact List.pairwise_singleton _ _
    · exact .nil
  · intro e mem e' new
    unfold Moment.errands at new
    split at new
    · rw [List.mem_singleton.mp new]
      exact h.number_lt mem
    · cases new

/-- Each errand was delivered in the moment of its number, the last one included. -/
theorem Sound.delivered_concat
    (spelt : ∀ call, m.move = .deliver call → Wire.decodeArgs call.payload = .ok call.args) :
    ∀ e ∈ errands (past ++ [m]), Wire.decodeArgs e.call.payload = .ok e.call.args ∧
      ∃ m', (past ++ [m])[e.number]? = some m' ∧ m'.move = .deliver e.call := by
  intro e mem
  rw [errands_concat] at mem
  rcases List.mem_append.mp mem with old | new
  · obtain ⟨readable, m', at_number, move⟩ := h.delivered e old
    exact ⟨readable, m', getElem?_concat at_number, move⟩
  · unfold Moment.errands at new
    split at new
    · rename_i call move
      rw [List.mem_singleton.mp new]
      exact ⟨spelt call move, m, by simp, move⟩
    · cases new

theorem Sound.parkings_concat : l.parkings ≤ (errands (past ++ [m])).length := by
  rw [errands_concat, List.length_append]
  exact Nat.le_add_right_of_le h.parkings

/-- Calls that were executed stay as they are. -/
theorem Sound.ran_concat : ∀ x ∈ l.executed, x.isAlive = true ∧
    (∃ m', (past ++ [m])[x.number]? = some m' ∧ m'.session = x.session) ∧
    ∀ r ∈ Value.referencesAll x.errand.call.args,
      FoundBetween (past ++ [m]) x.errand.number x.number r := by
  intro x mem
  obtain ⟨alive, ⟨m', at_number, same⟩, finds⟩ := h.ran x mem
  exact ⟨alive, ⟨m', getElem?_concat at_number, same⟩,
    fun r refs => (finds r refs).append (Nat.le_refl _) [m]⟩

/-- Calls that are executed in a moment leave the times of the others as they are. -/
theorem Sound.timed_concat (move : Move) (new : List Outcome)
    (now : ∀ x ∈ new, x.number = past.length) (k : Nat) (m : Moment)
    (at_k : (past ++ [⟨w.session, move⟩])[k]? = some m) :
    m.session.world.journal.executed =
      ((l.executed ++ new).filter (·.number < k)).map (·.execution) := by
  have bound : k < (past ++ [(⟨w.session, move⟩ : Moment)]).length :=
    (List.getElem?_eq_some_iff.mp at_k).1
  rw [List.length_append, List.length_singleton] at bound
  have none_new : new.filter (·.number < k) = [] := by
    refine List.filter_eq_nil_iff.mpr ?_
    intro x mem
    rw [now x mem, decide_eq_true_eq]
    omega
  rw [List.filter_append, none_new, List.append_nil]
  -- The moment that is added sees all earlier executions, and any other sees what it saw.
  by_cases last : k = past.length
  · have all_old : l.executed.filter (·.number < k) = l.executed := by
      refine List.filter_eq_self.mpr ?_
      intro x mem
      obtain ⟨-, ⟨m', at_number, -⟩, -⟩ := h.ran x mem
      have inside : x.number < past.length := (List.getElem?_eq_some_iff.mp at_number).1
      rw [last]
      exact decide_eq_true inside
    have this_one : m = ⟨w.session, move⟩ := by simpa [last] using at_k.symm
    rw [all_old, this_one]
    exact h.executed
  · rw [List.getElem?_append_left (by omega)] at at_k
    exact h.timed k m at_k

/-- Calls that were dropped stay as they are. -/
theorem Sound.dropped_concat : ∀ x ∈ l.dropped, x.isAlive = false ∧
    ∃ m' arrival t, (past ++ [m])[x.number]? = some m' ∧ m'.session = x.session ∧
      m'.move = .replay arrival ∧
      ∃ missing, x.session.calls.get? t = some (x.errand.call.parked missing) ∧
        ∀ r, r ∈ missing ↔ r = arrival.reference := by
  intro x mem
  obtain ⟨dead, m', arrival, t, at_number, rest⟩ := h.dropped x mem
  exact ⟨dead, m', arrival, t, getElem?_concat at_number, rest⟩

/-- What is parked waits for some of its arguments, and the others have been found. -/
theorem Sound.parked_concat {t : Ticket} {e : Errand} (mem : (t, e) ∈ l.parked) :
    ∃ missing, w.session.calls.get? t = some (e.call.parked missing) ∧ missing ≠ ∅ ∧
      (∀ r ∈ missing, r ∈ Value.referencesAll e.call.args) ∧
      ∀ r ∈ Value.referencesAll e.call.args,
        r ∈ missing ∨ FoundBetween (past ++ [m]) e.number (past ++ [m]).length r := by
  obtain ⟨missing, found, some, own, others⟩ := h.parked t e mem
  refine ⟨missing, found, some, own, ?_⟩
  intro r refs
  rcases others r refs with still | finds
  · exact .inl still
  · exact .inr (finds.append (by simp) [m])

/-- A quiet moment keeps a ledger sound. -/
theorem Sound.quiet {move : Move} (quiet : move.IsQuiet)
    (calls : w'.session.calls = w.session.calls)
    (journal : w'.session.world.journal.executed = w.session.world.journal.executed) :
    (l.enter ⟨w.session, move⟩).Sound w' (past ++ [⟨w.session, move⟩]) := by
  rw [enter_quiet quiet]
  exact {
    clock := by simp [h.clock]
    balance := by
      rw [errands_concat, errands_quiet quiet, List.append_nil]
      exact h.balance
    ascending := h.ascending_concat _
    delivered := h.delivered_concat _ fun call same => by
      rw [show move = .deliver call from same] at quiet
      cases quiet
    executed := journal.trans h.executed
    timed := by simpa using h.timed_concat move [] (by simp)
    since := h.since
    ran := h.ran_concat _
    dropped := h.dropped_concat _
    tickets := h.tickets
    parked := by
      intro t e mem
      rw [calls]
      exact h.parked_concat _ mem
    pending := by rw [calls]; exact h.pending
    ready := by rw [calls]; exact h.ready
    indexed := by rw [calls]; exact h.indexed
    next := by rw [calls]; exact h.next
    parkings := h.parkings_concat _
    issued := h.issued
    displaced := h.displaced }

end

/-! ## Deliveries -/

/-- A call that can be read runs on a live object, with its arguments as they are local now. -/
theorem execute_delivered {s : Session} {call : Delivered}
    (alive : s.world.isAlive call.target = true)
    (spelt : Wire.decodeArgs call.payload = .ok call.args) :
    s.execute call.target call.invocation = { s with
      world.journal.executed := s.world.journal.executed ++ [call.execution s.resolver] } := by
  have readable : Wire.decodeArgs call.invocation.payload = .ok call.args := spelt
  simp only [Session.execute, World.execute, alive, readable, Bool.not_true, Bool.false_eq_true,
    if_false]
  rfl

/-- A call whose object is gone runs nowhere. -/
theorem execute_dead {s : Session} {target : Handle} {invocation : Invocation}
    (dead : s.world.isAlive target = false) : s.execute target invocation = s := by
  simp [Session.execute, World.execute, dead]

/-- A call with no argument missing is executed as it is delivered. -/
theorem Sound.deliver_ready (h : l.Sound w past) {call : Delivered}
    (apt : (Move.deliver call).Apt .all w)
    (ready : (Value.missingAll w.session.resolver call.args).isEmpty = true) :
    (l.enter ⟨w.session, .deliver call⟩).Sound (w.perform (.deliver call))
      (past ++ [⟨w.session, .deliver call⟩]) := by
  obtain ⟨alive, spelt⟩ := apt
  have performed : w.perform (.deliver call) = { w with session := { w.session with
      world.journal.executed :=
        w.session.world.journal.executed ++ [call.execution w.session.resolver] } } := by
    rw [← execute_delivered alive spelt]
    simp only [Work.perform, Session.deliverCall, Session.dispatch, Incoming.isReady, ready,
      if_true]
  have entered : l.enter ⟨w.session, .deliver call⟩ = { l with
      clock := l.clock + 1
      executed := l.executed ++ [⟨⟨l.clock, call⟩, l.clock, w.session⟩] } := by
    simp only [enter, ready, if_true]
  -- No argument is missing, so each of them is found in this very moment.
  have local_now : ∀ r ∈ Value.referencesAll call.args, w.session.resolver r ≠ none := by
    intro r refs none
    have missing : r ∈ Value.missingAll w.session.resolver call.args :=
      Resolver.mem_missing.mpr ⟨refs, none⟩
    rw [Std.ExtTreeSet.isEmpty_iff.mp ready] at missing
    simp at missing
  rw [performed, entered]
  exact {
    clock := by simp [h.clock]
    balance := by
      rw [errands_concat]
      refine List.perm_iff_count.mpr ?_
      intro e
      have before := h.balance.count_eq e
      simp only [Moment.errands, List.map_append, List.map_cons, List.map_nil, List.count_append,
        h.clock] at before ⊢
      omega
    ascending := h.ascending_concat _
    delivered := h.delivered_concat _ fun call' move => by cases move; exact spelt
    executed := by simp [h.executed, Outcome.execution]
    timed := h.timed_concat _ _ (by simp [h.clock])
    since := by
      intro x mem
      rcases List.mem_append.mp mem with old | new
      · exact h.since x old
      · cases List.mem_singleton.mp new
        exact Nat.le_refl _
    ran := by
      intro x mem
      rcases List.mem_append.mp mem with old | new
      · exact h.ran_concat _ x old
      · rw [List.mem_singleton.mp new]
        refine ⟨alive, ⟨⟨w.session, .deliver call⟩, by simp [h.clock], rfl⟩, ?_⟩
        intro r refs
        rw [h.clock]
        exact foundBetween_concat (Nat.le_refl _) (.inl (local_now r refs))
    dropped := h.dropped_concat _
    tickets := h.tickets
    parked := fun t e mem => h.parked_concat _ mem
    pending := h.pending
    ready := h.ready
    indexed := h.indexed
    next := h.next
    parkings := h.parkings_concat _
    issued := h.issued
    displaced := h.displaced }

/-! ## Calls that are parked -/

/-- A call that misses an argument joins the queue. -/
theorem perform_deliver_of_waits (w : Work) {call : Delivered}
    (waits : (Value.missingAll w.session.resolver call.args).isEmpty = false) :
    w.perform (.deliver call) = { w with session := { w.session with
      calls := (w.session.calls.enqueue
        (call.parked (Value.missingAll w.session.resolver call.args))).2 } } := by
  simp only [Work.perform, Session.deliverCall, Session.dispatch, Incoming.isReady, waits,
    Bool.false_eq_true, if_false]
  rfl

/-- The ledger after a call was **parked** under a ticket. Whoever waited under it is displaced. -/
def park (l : Ledger) (ticket : Ticket) (call : Delivered) : Ledger :=
  { l with
    clock := l.clock + 1
    parked := l.parked.filter (·.1 != ticket) ++ [(ticket, ⟨l.clock, call⟩)]
    displaced := l.displaced ++ (l.parked.filter (·.1 == ticket)).map (·.2)
    parkings := l.parkings + 1 }

/-- A call that misses an argument is entered under the next ticket. -/
theorem enter_deliver_of_waits {s : Session} {call : Delivered}
    (waits : (Value.missingAll s.resolver call.args).isEmpty = false) :
    l.enter ⟨s, .deliver call⟩ = l.park s.calls.next call := by
  simp only [enter, waits, Bool.false_eq_true, if_false]
  rfl

/-- The call waits under its ticket, and the others under theirs. -/
theorem mem_parked_park {ticket t : Ticket} {call : Delivered} {e : Errand} :
    (t, e) ∈ (l.park ticket call).parked ↔
      (t, e) ∈ l.parked ∧ t ≠ ticket ∨ t = ticket ∧ e = ⟨l.clock, call⟩ := by
  simp [park]

/-- An argument of a call that is delivered is missing, or found at that moment. -/
theorem missing_or_foundBetween {s : Session} {call : Delivered} {r : Reference}
    (refs : r ∈ Value.referencesAll call.args) :
    r ∈ Value.missingAll s.resolver call.args ∨
      FoundBetween (past ++ [⟨s, .deliver call⟩]) past.length
        (past ++ [(⟨s, .deliver call⟩ : Moment)]).length r := by
  by_cases known : s.resolver r = none
  · exact .inl (Resolver.mem_missing.mpr ⟨refs, known⟩)
  · have now : FoundBetween (past ++ [⟨s, .deliver call⟩]) past.length past.length r :=
      foundBetween_concat (Nat.le_refl _) (.inl known)
    exact .inr (by simpa using now.append (Nat.le_succ _) [])

section

variable (h : l.Sound w past) {call : Delivered}

include h

/-- A ticket that is given away while an errand waits under it had been given out before all others
had. -/
theorem Sound.displaced_of_mem {e : Errand} (mem : (w.session.calls.next, e) ∈ l.parked) :
    2 ^ 64 ≤ l.parkings := by
  by_cases few : l.parkings < 2 ^ 64
  -- Tickets below the next one would all have been given out.
  · have less := h.issued few _ e mem
    have same : (UInt64.ofNat l.parkings).toNat = l.parkings := UInt64.toNat_ofNat_of_lt' few
    rw [h.next, same] at less
    exact absurd less (Nat.lt_irrefl _)
  · exact Nat.le_of_not_lt few

/-- The call is one more errand, and whoever it displaces is not parked any more. -/
theorem Sound.balance_park (s : Session) (ticket : Ticket) :
    (errands (past ++ [⟨s, .deliver call⟩])).Perm (l.park ticket call).listed := by
  rw [errands_concat]
  refine List.perm_iff_count.mpr ?_
  intro e
  have before := h.balance.count_eq e
  have split := ((List.filter_append_perm (fun x : Ticket × Errand => x.1 == ticket)
    l.parked).map (·.2)).count_eq e
  simp only [Moment.errands, listed, park, List.map_append, List.map_cons, List.map_nil,
    List.count_append, h.clock, bne] at before split ⊢
  omega

/-- Each ticket stands for one errand still. -/
theorem Sound.tickets_park (ticket : Ticket) : ((l.park ticket call).parked.map (·.1)).Nodup := by
  rw [park, List.map_append, List.nodup_append]
  refine ⟨h.tickets.sublist (List.filter_sublist.map _), List.nodup_singleton _,
    fun t old t' new => ?_⟩
  obtain ⟨⟨u, e⟩, mem, rfl⟩ := List.mem_map.mp old
  have differs := (List.mem_filter.mp mem).2
  rw [List.mem_singleton.mp new]
  simpa using differs

/-- The call waits for what it misses, and the others for what they waited for. -/
theorem Sound.parked_park (waits : (Value.missingAll w.session.resolver call.args).isEmpty = false)
    {t : Ticket} {e : Errand} (mem : (t, e) ∈ (l.park w.session.calls.next call).parked) :
    ∃ missing, (w.session.calls.enqueue (call.parked
        (Value.missingAll w.session.resolver call.args))).2.get? t =
          some (e.call.parked missing) ∧ missing ≠ ∅ ∧
      (∀ r ∈ missing, r ∈ Value.referencesAll e.call.args) ∧
      ∀ r ∈ Value.referencesAll e.call.args, r ∈ missing ∨
        FoundBetween (past ++ [⟨w.session, .deliver call⟩]) e.number
          (past ++ [(⟨w.session, .deliver call⟩ : Moment)]).length r := by
  rw [CallQueue.get?_enqueue]
  rcases mem_parked_park.mp mem with ⟨known, differs⟩ | ⟨rfl, rfl⟩
  · rw [if_neg differs.symm]
    exact h.parked_concat _ known
  · rw [if_pos rfl, h.clock]
    refine ⟨_, rfl, ?_, fun r missing => (Resolver.mem_missing.mp missing).1,
      fun r refs => missing_or_foundBetween refs⟩
    intro none
    rw [none] at waits
    simp at waits

/-- The queue holds the call, and otherwise what it held. -/
theorem Sound.pending_park (missing : ReferenceSet) {t : Ticket}
    (found : (w.session.calls.enqueue (call.parked missing)).2.get? t ≠ none) :
    ∃ e, (t, e) ∈ (l.park w.session.calls.next call).parked := by
  rw [CallQueue.get?_enqueue] at found
  by_cases same : w.session.calls.next = t
  · exact ⟨_, mem_parked_park.mpr (.inr ⟨same.symm, rfl⟩)⟩
  · rw [if_neg same] at found
    obtain ⟨e, mem⟩ := h.pending t found
    exact ⟨e, mem_parked_park.mpr (.inl ⟨mem, Ne.symm same⟩)⟩

/-- The ticket of the call is the last one so far. -/
theorem Sound.issued_park (few : l.parkings + 1 < 2 ^ 64) {t : Ticket} {e : Errand}
    (mem : (t, e) ∈ (l.park w.session.calls.next call).parked) : t.toNat < l.parkings + 1 := by
  rcases mem_parked_park.mp mem with ⟨known, -⟩ | ⟨rfl, -⟩
  · exact Nat.lt_succ_of_lt (h.issued (Nat.lt_of_succ_lt few) t e known)
  · have same : (UInt64.ofNat l.parkings).toNat = l.parkings :=
      UInt64.toNat_ofNat_of_lt' (Nat.lt_of_succ_lt few)
    rw [h.next, same]
    exact Nat.lt_succ_self _

/-- The call displaces nobody before all tickets have been given out. -/
theorem Sound.displaced_park (some : (l.park w.session.calls.next call).displaced ≠ []) :
    2 ^ 64 ≤ l.parkings + 1 := by
  by_cases before : l.displaced = []
  · have now : l.parked.filter (·.1 == w.session.calls.next) ≠ [] := by
      intro none
      simp [park, before, none] at some
    obtain ⟨⟨t, e⟩, mem⟩ := List.exists_mem_of_ne_nil _ now
    obtain ⟨known, same⟩ := List.mem_filter.mp mem
    have same : t = w.session.calls.next := by simpa using same
    rw [same] at known
    exact Nat.le_succ_of_le (h.displaced_of_mem known)
  · exact Nat.le_succ_of_le (h.displaced before)

/-- A call that misses an argument is parked under the next ticket. -/
theorem Sound.deliver_parked (apt : (Move.deliver call).Apt .all w)
    (waits : (Value.missingAll w.session.resolver call.args).isEmpty = false) :
    (l.enter ⟨w.session, .deliver call⟩).Sound (w.perform (.deliver call))
      (past ++ [⟨w.session, .deliver call⟩]) := by
  obtain ⟨-, spelt⟩ := apt
  rw [perform_deliver_of_waits w waits, enter_deliver_of_waits waits]
  exact {
    clock := by simp [park, h.clock]
    balance := h.balance_park _ _
    ascending := h.ascending_concat _
    delivered := h.delivered_concat _ fun call' move => by cases move; exact spelt
    executed := h.executed
    timed := by simpa [park] using h.timed_concat (.deliver call) [] (by simp)
    since := h.since
    ran := h.ran_concat _
    dropped := h.dropped_concat _
    tickets := h.tickets_park _
    parked := fun t e mem => h.parked_park waits mem
    pending := fun t found => h.pending_park _ found
    ready := by simp [CallQueue.enqueue, Delivered.parked, waits, h.ready]
    indexed := h.indexed.enqueue _
    next := by
      show w.session.calls.next + 1 = UInt64.ofNat (l.parkings + 1)
      rw [h.next, UInt64.ofNat_add]
      rfl
    parkings := by
      rw [errands_concat, List.length_append]
      exact Nat.add_le_add_right h.parkings 1
    issued := fun few t e mem => h.issued_park few mem
    displaced := h.displaced_park }

end

end Ledger

end Replica
