import Replica.Proofs.Commands
import Replica.Proofs.HandlePool.Rounds

/-! # Sending a command again

A reliable command that has failed is reported to the host, which is to send it again after a delay.
The host may use any id for that, and anything may happen in between. So a command is chased over
several legs, in each of which it is sent under an id and answered. The number of legs is bounded by
the settings, and every leg doubles the delay up to a limit.

Main definitions:
* `Leg`, `Session.Chases` — one sending of a command, and all of them as long as they fail.
* `Settings.Allows` — what the settings say of a chase.
* `Session.KeepsBudget`, `Session.retries_in_budget` — how often, and when, a command is sent
  again. -/

namespace Replica

/-! ## Chases -/

/-- The command that an event asks to be sent again. -/
def Event.retried? : Event → Option ReliableCommand
  | .retryCommand command _ => some command
  | _ => none

/-- A **leg** of a chase: a command is sent under an id, and answered. -/
structure Leg where
  /-- What happens before it is sent. -/
  before : List Act
  /-- The id. -/
  id : RequestId
  /-- What happens before it is answered. -/
  meanwhile : List Act
  /-- The answer. -/
  result : Except Failure Bytes

/-- A leg **runs** from one session to another: the command is sent under a free id, and the answer
is the first one under that id. -/
structure Leg.Runs (leg : Leg) (s : Session) (c : ReliableCommand)
    (asked sent answered s' : Session) : Prop where
  /-- Something happens before. -/
  before : s.run leg.before = .ok asked
  /-- The id is free. -/
  free : asked.command? leg.id = none
  /-- The command is sent. -/
  sends : asked.act (.register (.command leg.id c)) = .ok sent
  /-- Something happens in between. -/
  waits : sent.run leg.meanwhile = .ok answered
  /-- No answer comes before. -/
  first : ∀ result, .receive (.commandResponse leg.id result) ∉ leg.meanwhile
  /-- The answer comes. -/
  ends : answered.act (.receive (.commandResponse leg.id leg.result)) = .ok s'

/-- A leg **fails** if the answer is a failure and the sender is still there: its entity has not
been taken down, and it is alive. -/
structure Leg.Fails (leg : Leg) (c : ReliableCommand) (sent answered : Session) : Prop where
  /-- The answer is a failure. -/
  failure : ∃ failure, leg.result = .error failure
  /-- The entity was not taken down. -/
  stays : ∀ m ∈ sent.course leg.meanwhile, c.target ∉ m.takenDown
  /-- The sender is alive. -/
  alive : answered.world.isAlive c.target = true

/-- A leg is **over** if it leaves nothing to be done: the command has succeeded, or its sender is
dead, or the entity of its sender was taken down, which frees the id for good. -/
inductive Leg.IsOver (leg : Leg) (c : ReliableCommand) (sent answered : Session) : Prop where
  /-- The command has succeeded. -/
  | succeeded (success : ∃ payload, leg.result = .ok payload)
  /-- The sender is dead. -/
  | dead (stays : ∀ m ∈ sent.course leg.meanwhile, c.target ∉ m.takenDown)
    (dead : answered.world.isAlive c.target = false)
  /-- The entity was taken down. -/
  | takenDown (down : ∃ m ∈ sent.course leg.meanwhile, c.target ∈ m.takenDown)
    (unregistered : ∀ d, .register (.command leg.id d) ∉ leg.meanwhile)

namespace Session

/-- A command is **chased** from a session over some legs that fail, each of which sends what the
one before it has asked for. The answers report `told`, and in the end `next` is to be sent. -/
inductive Chases (s : Session) (c : ReliableCommand) :
    List Leg → List Event → Option ReliableCommand → Session → Prop where
  /-- The command has not been sent. -/
  | unsent : Chases s c [] [] (some c) s
  /-- What is to be sent is sent, and fails. -/
  | failed {legs : List Leg} {told : List Event} {d : ReliableCommand} {s₁ : Session} {leg : Leg}
    {asked sent answered s₂ : Session} {new : List Event}
    (chased : Chases s c legs told (some d) s₁) (runs : leg.Runs s₁ d asked sent answered s₂)
    (fails : leg.Fails d sent answered) (adds : s₂.events = answered.events ++ new) :
    Chases s c (legs ++ [leg]) (told ++ new) (new.findSome? Event.retried?) s₂

end Session

/-! ### One leg -/

namespace Leg

open Session

variable {leg : Leg} {s asked sent answered s' : Session} {c : ReliableCommand} {new : List Event}

namespace Runs

variable (runs : leg.Runs s c asked sent answered s') (tidy : s.Tidy .all)

include runs tidy

/-- All the sessions of a leg are tidy, and have the same settings. -/
theorem tidy_settings : (sent.Tidy .all ∧ answered.Tidy .all ∧ s'.Tidy .all) ∧
    answered.settings = s.settings ∧ s'.settings = s.settings := by
  obtain ⟨tidy₁, same₁⟩ := tidy_settings_run tidy runs.before
  obtain ⟨tidy₂, same₂⟩ := tidy_settings_run tidy₁ (run_singleton runs.sends)
  obtain ⟨tidy₃, same₃⟩ := tidy_settings_run tidy₂ runs.waits
  obtain ⟨tidy₄, same₄⟩ := tidy_settings_run tidy₃ (run_singleton runs.ends)
  have same := same₃.trans (same₂.trans same₁)
  exact ⟨⟨tidy₂, tidy₃, tidy₄⟩, same, same₄.trans same⟩

/-- The command is outstanding when it has been sent, -/
theorem command?_sent : sent.command? leg.id = some c :=
  (command?_act (tidy_settings_run tidy runs.before).1 runs.sends).mpr (.inl ⟨rfl, runs.free⟩)

omit tidy in
/-- and nothing is under its id when it has been answered. -/
theorem command?_answered : s'.command? leg.id = none := by
  rw [command?_commandResponse runs.ends, if_pos rfl]

/-- A command whose sender was not taken down is answered. -/
theorem command?_of_stays (stays : ∀ m ∈ sent.course leg.meanwhile, c.target ∉ m.takenDown) :
    answered.command? leg.id = some c :=
  command?_run_of_undisturbed (runs.tidy_settings tidy).1.1 runs.waits (runs.command?_sent tidy)
    runs.first stays

/-- A leg that is over reports nothing. -/
theorem events_of_isOver (ended : leg.IsOver c sent answered) : s'.events = answered.events := by
  have none (free : answered.command? leg.id = none) : s'.events = answered.events := by
    cases (commandResponse_of_none free leg.result).symm.trans runs.ends
    rfl
  have done {d : ReliableCommand} (found : answered.command? leg.id = some d)
      (done : (∃ payload, leg.result = .ok payload) ∨ answered.world.isAlive d.target = false ∨
        answered.settings.maxAttempts ≤ d.attempts) : s'.events = answered.events := by
    cases (commandResponse_of_done found done).symm.trans runs.ends
    rfl
  cases ended with
  | succeeded success =>
    cases found : answered.command? leg.id with
    | none => exact none found
    | some d => exact done found (.inl success)
  | dead stays dead => exact done (runs.command?_of_stays tidy stays) (.inr (.inl dead))
  | takenDown down unregistered =>
    exact none (command?_run_of_takenDown (runs.tidy_settings tidy).1.1 runs.waits
      (runs.command?_sent tidy) unregistered down)

/-- A leg that fails asks for another one, as long as there are attempts left. -/
theorem events_of_fails (fails : leg.Fails c sent answered) (wait : s.settings.CanWait)
    (adds : s'.events = answered.events ++ new) :
    (c.attempts < s.settings.maxAttempts ∧ ∃ delay,
      new = [.retryCommand { c with attempts := c.attempts + 1 } delay] ∧
        delay.nanoseconds =
          s.settings.baseDelay.nanoseconds * 2 ^ min (c.attempts.toNat - 1) 16) ∨
      s.settings.maxAttempts ≤ c.attempts ∧ new = [] := by
  obtain ⟨-, same, -⟩ := runs.tidy_settings tidy
  obtain ⟨failure, failed⟩ := fails.failure
  have found := runs.command?_of_stays tidy fails.stays
  have ends : answered.commandResponse leg.id leg.result = .ok s' := runs.ends
  rw [← same] at wait ⊢
  by_cases left : c.attempts < answered.settings.maxAttempts
  · obtain ⟨delay, waits, long⟩ := wait.exists_retryDelay c.attempts
    rw [failed, commandResponse_of_retry found failure fails.alive left, waits] at ends
    cases ends
    exact .inl ⟨left, delay, (List.append_cancel_left adds).symm, long⟩
  · have spent := UInt32.not_lt.mp left
    rw [commandResponse_of_done found (.inr (.inr spent))] at ends
    cases ends
    exact .inr ⟨spent, List.append_right_eq_self.mp adds.symm⟩

end Runs

end Leg

/-! ### The whole chase -/

/-- What settings **allow** of a chase that has failed over some legs. -/
structure Settings.Allows (settings : Settings) (c : ReliableCommand) (legs : Nat)
    (told : List Event) (next : Option ReliableCommand) : Prop where
  /-- The command was sent as often as allowed at most; once it may be sent in any case. -/
  legs_le : legs ≤ max settings.maxAttempts.toNat 1
  /-- Every failure has asked for another leg, unless it was the last that is allowed. -/
  length : told.length = min legs (max settings.maxAttempts.toNat 1 - 1)
  /-- What was asked for is the same command with one more attempt each time, after a delay that is
  doubled sixteen times at most. -/
  told : ∀ k < told.length, ∃ delay,
    told[k]? = some (.retryCommand { c with attempts := .ofNat (k + 2) } delay) ∧
      delay.nanoseconds = settings.baseDelay.nanoseconds * 2 ^ min k 16
  /-- It is to be sent once more just if that is allowed. -/
  next : next = if legs < max settings.maxAttempts.toNat 1 then
    some { c with attempts := .ofNat (legs + 1) } else none

/-- Before the first leg. -/
theorem Settings.Allows.start (settings : Settings) {c : ReliableCommand} (fresh : c.attempts = 1) :
    settings.Allows c 0 [] (some c) where
  legs_le := Nat.zero_le _
  length := by simp
  told k inside := absurd inside (Nat.not_lt_zero k)
  next := by
    rw [if_pos (Nat.lt_of_lt_of_le Nat.zero_lt_one (Nat.le_max_right _ _))]
    have same : (UInt32.ofNat (0 + 1)) = c.attempts := fresh.symm
    rw [same]

/-- One leg more. -/
theorem Settings.Allows.step {settings : Settings} {c d : ReliableCommand} {n : Nat}
    {told new : List Event} (allows : settings.Allows c n told (some d))
    (adds : (d.attempts < settings.maxAttempts ∧ ∃ delay,
      new = [.retryCommand { d with attempts := d.attempts + 1 } delay] ∧
        delay.nanoseconds = settings.baseDelay.nanoseconds * 2 ^ min (d.attempts.toNat - 1) 16) ∨
      settings.maxAttempts ≤ d.attempts ∧ new = []) :
    settings.Allows c (n + 1) (told ++ new) (new.findSome? Event.retried?) := by
  have less : n < max settings.maxAttempts.toNat 1 := by
    by_contra spent
    have none := allows.next
    rw [if_neg spent] at none
    cases none
  obtain rfl : d = { c with attempts := .ofNat (n + 1) } := by
    have same := allows.next
    rw [if_pos less] at same
    exact Option.some.inj same
  have length : told.length = n := by
    rw [allows.length]
    omega
  -- The number of attempts is far from running over.
  have attempts : (UInt32.ofNat (n + 1)).toNat = n + 1 := by
    have bound : settings.maxAttempts.toNat < 2 ^ 32 := settings.maxAttempts.toNat_lt
    exact UInt32.toNat_ofNat_of_lt' (Nat.lt_of_le_of_lt less (Nat.max_lt.mpr ⟨bound, by decide⟩))
  rw [UInt32.lt_iff_toNat_lt, UInt32.le_iff_toNat_le, attempts] at adds
  rcases adds with ⟨left, delay, rfl, long⟩ | ⟨spent, rfl⟩
  · have more : (UInt32.ofNat (n + 1)) + 1 = UInt32.ofNat (n + 2) := (UInt32.ofNat_add _ _).symm
    rw [Nat.add_sub_cancel] at long
    refine ⟨by omega, by simp only [List.length_append, List.length_singleton]; omega, ?_, ?_⟩
    · intro k inside
      rw [List.length_append, List.length_singleton, Nat.lt_succ_iff_lt_or_eq] at inside
      rcases inside with before | rfl
      · rw [List.getElem?_append_left before]
        exact allows.told k before
      · refine ⟨delay, ?_, by rw [length]; exact long⟩
        rw [List.getElem?_append_right (Nat.le_refl _), Nat.sub_self, length, ← more]
        rfl
    · rw [if_pos (by omega), ← more]
      rfl
  · rw [List.append_nil]
    refine ⟨by omega, by omega, allows.told, ?_⟩
    rw [if_neg (by omega)]
    rfl

namespace Session

variable {s s' : Session} {c : ReliableCommand} {legs : List Leg} {told : List Event}
  {next : Option ReliableCommand}

/-- A chase leaves sessions tidy, and their settings as they are. -/
theorem Chases.tidy_settings (chased : s.Chases c legs told next s') (tidy : s.Tidy .all) :
    s'.Tidy .all ∧ s'.settings = s.settings := by
  induction chased with
  | unsent => exact ⟨tidy, rfl⟩
  | failed chased runs fails adds ih =>
    obtain ⟨tidy₁, same₁⟩ := ih
    obtain ⟨⟨-, -, tidy₂⟩, -, same₂⟩ := runs.tidy_settings tidy₁
    exact ⟨tidy₂, same₂.trans same₁⟩

/-- **A chase is allowed**, leg by leg. -/
theorem Chases.allows (chased : s.Chases c legs told next s') (tidy : s.Tidy .all)
    (wait : s.settings.CanWait) (fresh : c.attempts = 1) :
    s.settings.Allows c legs.length told next := by
  induction chased with
  | unsent => exact .start s.settings fresh
  | failed chased runs fails adds ih =>
    obtain ⟨tidy₁, same⟩ := chased.tidy_settings tidy
    have asks := runs.events_of_fails tidy₁ fails (same ▸ wait) adds
    rw [same] at asks
    rw [List.length_append, List.length_singleton]
    exact ih.step asks

/-- Where every delay is a duration, every leg can be run. -/
theorem exists_leg (tidy : s.Tidy .all) (wait : s.settings.CanWait) (leg : Leg)
    (c : ReliableCommand) {asked : Session}
    (before : s.run leg.before = .ok asked) (free : asked.command? leg.id = none)
    (first : ∀ result, .receive (.commandResponse leg.id result) ∉ leg.meanwhile) :
    ∃ sent answered s' new, leg.Runs s c asked sent answered s' ∧
      s'.events = answered.events ++ new := by
  obtain ⟨tidy₁, same₁⟩ := tidy_settings_run tidy before
  have sends : asked.act (.register (.command leg.id c)) =
      .ok (asked.await (.command leg.id c)) := rfl
  obtain ⟨tidy₂, same₂⟩ := tidy_settings_run tidy₁ (run_singleton sends)
  obtain ⟨answered, waits⟩ :=
    exists_run_of_canWait tidy₂ ((same₂.trans same₁).symm ▸ wait) leg.meanwhile
  obtain ⟨-, same₃⟩ := tidy_settings_run tidy₂ waits
  obtain ⟨s', ends⟩ := exists_commandResponse (s := answered)
    ((same₃.trans (same₂.trans same₁)).symm ▸ wait) leg.id leg.result
  obtain ⟨retries, same⟩ := commandResponse_eq ends
  exact ⟨_, answered, s', _, ⟨before, free, sends, waits, first, ends⟩,
    congrArg Session.events same⟩

/-- A command can be sent again at once, as often as the settings allow. -/
theorem exists_chases (tidy : s.Tidy .all) (wait : s.settings.CanWait) (fresh : c.attempts = 1)
    (alive : s.world.isAlive c.target = true) {id : RequestId} (free : s.command? id = none)
    (failure : Failure) {n : Nat} (allowed : n ≤ max s.settings.maxAttempts.toNat 1) :
    ∃ told next s', s.Chases c (.replicate n ⟨[], id, [], .error failure⟩) told next s' ∧
      s'.world = s.world ∧ s'.command? id = none := by
  induction n with
  | zero => exact ⟨[], some c, s, .unsent, rfl, free⟩
  | succ n ih =>
    obtain ⟨told, next, s₁, chased, world, free⟩ := ih (Nat.le_of_succ_le allowed)
    have more := (chased.allows tidy wait fresh).next
    rw [List.length_replicate, if_pos (Nat.lt_of_succ_le allowed)] at more
    subst more
    obtain ⟨tidy₁, same⟩ := chased.tidy_settings tidy
    let leg : Leg := ⟨[], id, [], .error failure⟩
    obtain ⟨sent, answered, s₂, new, runs, adds⟩ :=
      exists_leg tidy₁ (same.symm ▸ wait) leg { c with attempts := .ofNat (n + 1) } rfl free
        (by simp [leg])
    -- Nothing but requests and reports changes in such a leg.
    have waited : sent = answered := Except.ok.inj runs.waits
    obtain ⟨requests, registered⟩ := await_eq s₁ (.command id { c with attempts := .ofNat (n + 1) })
    have sends : sent = { s₁ with requests } := (Except.ok.inj runs.sends).symm.trans registered
    have world₁ : answered.world = s.world := by rw [← waited, sends, ← world]
    obtain ⟨retries, ends⟩ := commandResponse_eq runs.ends
    have world₂ : s₂.world = s.world := by rw [ends, ← world₁]
    refine ⟨told ++ new, new.findSome? Event.retried?, s₂, ?_, world₂, runs.command?_answered⟩
    rw [List.replicate_succ']
    refine chased.failed runs ⟨⟨failure, rfl⟩, ?_, by rw [world₁]; exact alive⟩ adds
    simp [course]

/-! ## Dead senders -/

/-- **Whoever is taken down stays dead**, after every run that issues fewer handles than there are
generations. -/
theorem isAlive_of_takenDown {settings : Settings} {protocol : Protocol} {acts : List Act}
    (ok : (start settings protocol).run acts = .ok s)
    (few : allocations ((start settings protocol).course acts) < 2 ^ 32) :
    ∀ m ∈ (start settings protocol).course acts, ∀ h ∈ m.takenDown, s.world.isAlive h = false := by
  have invariant := (issued_course_induction (I := fun s past => (s.Owned ∧ s.Housed) ∧
    ∀ m ∈ past, ∀ h ∈ m.takenDown, s.world.pool.Knows h ∧ s.world.isAlive h = false) ?_
    ⟨⟨.start settings protocol, .start settings protocol⟩, by simp⟩
    (fun a _ => a.within_all) ok few).2.2
  · exact fun m mem h down => (invariant m mem h down).2
  · rintro w past m tidy apt issued few ⟨⟨owned, housed⟩, gone⟩
    refine ⟨⟨apt.owned tidy owned few, apt.housed tidy owned housed few⟩, ?_⟩
    rw [List.forall_mem_append, List.forall_mem_singleton]
    refine ⟨fun m' mem h down => ?_, fun h down => ?_⟩
    -- Whoever is dead stays so, for no handle is issued again.
    · obtain ⟨known, dead⟩ := gone m' mem h down
      obtain ⟨knows, back⟩ := apt.known issued few known
      exact ⟨knows, Bool.eq_false_iff.mpr fun alive => Bool.eq_false_iff.mp dead (back alive)⟩
    · cases m with
      | remove entity =>
        cases built : w.session.channels.get? entity with
        | none => simp [Moment.takenDown, built] at down
        | some channel =>
          have mem : h ∈ channel.handles := by
            simpa [Moment.takenDown, built, Channel.handles] using down
          refine ⟨(apt.known issued few (housed.known built h mem)).1, ?_⟩
          exact isAlive_remove tidy owned housed
            (Nat.lt_of_le_of_lt (Nat.le_add_right _ _) few) built mem
      | _ => cases down

/-! ## The budget -/

/-- A session **keeps the budget** of its settings if commands are sent again as often and as late
as these say, and no more once there is nothing left to be done. -/
structure KeepsBudget (s : Session) (settings : Settings) (past : List Moment) : Prop where
  /-- No run is a fault. -/
  total : ∀ acts, ∃ s', s.run acts = .ok s'
  /-- A fresh command that fails over some legs is sent again as is allowed. -/
  allows : ∀ c legs told next s', c.attempts = 1 → s.Chases c legs told next s' →
    settings.Allows c legs.length told next
  /-- What is to be sent can be sent and will be answered, under any id that is free. -/
  goes : ∀ c legs told d s₁, s.Chases c legs told (some d) s₁ → ∀ (leg : Leg) asked,
    s₁.run leg.before = .ok asked → asked.command? leg.id = none →
      (∀ result, .receive (.commandResponse leg.id result) ∉ leg.meanwhile) →
        ∃ sent answered s₂ new, leg.Runs s₁ d asked sent answered s₂ ∧
          s₂.events = answered.events ++ new
  /-- So a command whose sender is alive can be sent as often as is allowed. -/
  attained : ∀ c id, c.attempts = 1 → s.world.isAlive c.target = true → s.command? id = none →
    ∃ legs told next s', s.Chases c legs told next s' ∧
      legs.length = max settings.maxAttempts.toNat 1
  /-- A leg that is over ends the chase: nothing is reported. -/
  stops : ∀ c legs told d s₁, s.Chases c legs told (some d) s₁ →
    ∀ (leg : Leg) asked sent answered s₂, leg.Runs s₁ d asked sent answered s₂ →
      leg.IsOver d sent answered → s₂.events = answered.events
  /-- After any leg the id is free, and a second answer changes nothing until a command is
  registered under it. -/
  duplicates : ∀ c legs told d s₁, s.Chases c legs told (some d) s₁ →
    ∀ (leg : Leg) asked sent answered s₂, leg.Runs s₁ d asked sent answered s₂ →
      ∀ later s₃, s₂.run later = .ok s₃ → (∀ e, .register (.command leg.id e) ∉ later) →
        s₃.command? leg.id = none ∧
          ∀ result, s₃.act (.receive (.commandResponse leg.id result)) = .ok s₃
  /-- Whoever was taken down is never asked to send anything again. -/
  gone : ∀ m ∈ past, ∀ h ∈ m.takenDown, ∀ id result s',
    s.act (.receive (.commandResponse id result)) = .ok s' →
      ∃ new, s'.events = s.events ++ new ∧ ∀ d ∈ new.filterMap Event.retried?, d.target ≠ h

/-- What an answer asks to be sent again has a live sender. -/
theorem alive_of_retried {id : RequestId} {result : Except Failure Bytes}
    (ok : s.commandResponse id result = .ok s') : ∃ new, s'.events = s.events ++ new ∧
      ∀ d ∈ new.filterMap Event.retried?, s.world.isAlive d.target = true := by
  rcases s.commandResponse_cases id result with
    ⟨s₁, silent, quiet⟩ | ⟨c, failure, found, rfl, alive, left⟩
  · cases silent.symm.trans ok
    exact ⟨[], by rw [quiet, List.append_nil], by simp⟩
  · rw [commandResponse_of_retry found failure alive left] at ok
    cases waits : s.settings.retryDelay c.attempts with
    | ok delay =>
      rw [waits] at ok
      cases ok
      exact ⟨_, rfl, by simpa [Event.retried?] using alive⟩
    | error fault =>
      rw [waits] at ok
      cases ok

/-- **Retries stay within the budget**: after every run that issues fewer handles than there are
generations, a fresh command whose answers are failures and whose sender is there is sent again as
often as the settings allow, each time with one more attempt and after twice the delay, sixteen
times at most. A success, the death of its sender or the removal of its entity ends that, and no
second answer begins it anew, unless a command was registered under its id again. -/
theorem retries_in_budget {settings : Settings} {protocol : Protocol} {acts : List Act}
    (wait : settings.CanWait) (ok : (start settings protocol).run acts = .ok s)
    (few : allocations ((start settings protocol).course acts) < 2 ^ 32) :
    s.KeepsBudget settings ((start settings protocol).course acts) := by
  have tidy := tidy_of_run ok
  have same : s.settings = settings := (tidy_settings_run (tidy_start settings protocol) ok).2
  have wait : s.settings.CanWait := same ▸ wait
  constructor
  case total => exact exists_run_of_canWait tidy wait
  case allows => exact fun c legs told next s' fresh chased => same ▸ chased.allows tidy wait fresh
  case goes =>
    intro c legs told d s₁ chased leg asked before free first
    obtain ⟨tidy₁, same₁⟩ := chased.tidy_settings tidy
    exact exists_leg tidy₁ (same₁.symm ▸ wait) leg d before free first
  case attained =>
    intro c id fresh alive free
    obtain ⟨told, next, s', chased, -, -⟩ :=
      exists_chases tidy wait fresh alive free ⟨.timeout, ""⟩ (Nat.le_refl _)
    exact ⟨_, told, next, s', chased, by rw [List.length_replicate, same]⟩
  case stops =>
    intro c legs told d s₁ chased leg asked sent answered s₂ runs ended
    exact runs.events_of_isOver (chased.tidy_settings tidy).1 ended
  case duplicates =>
    intro c legs told d s₁ chased leg asked sent answered s₂ runs later s₃ ran unregistered
    have tidy₂ := (runs.tidy_settings (chased.tidy_settings tidy).1).1.2.2
    have free := command?_run_of_free tidy₂ ran runs.command?_answered unregistered
    exact ⟨free, commandResponse_of_none free⟩
  case gone =>
    intro m mem h down id result s' answered
    obtain ⟨new, adds, alive⟩ := alive_of_retried answered
    refine ⟨new, adds, fun d retried same => ?_⟩
    -- A command that is retried has a live sender, and who was taken down is not live again.
    have dead := isAlive_of_takenDown ok few m mem h down
    rw [← same, alive d retried] at dead
    cases dead

/-- A crate is built that can send commands, and one is built and taken down. -/
def crateToSend : List Act :=
  let build (entity : EntityId) := (Blueprint.ofClass entity "Crate").operations
  (build 1 ++ build 2 ++ [Operation.removeEntity 2]).map .receive

theorem retries_in_budget_crateToSend :
    ∃ s, ({} : Settings).CanWait ∧ (start {} Stock.protocol).run crateToSend = .ok s ∧
      s.KeepsBudget {} ((start {} Stock.protocol).course crateToSend) ∧
      ∃ legs told next s', s.Chases ⟨⟨0, 0⟩, 9, Stock.commandComponent, 0, .ofPayload 0 [], 1⟩ legs
          told next s' ∧ legs.length = 5 ∧ told.length = 4 ∧ next = none := by
  have wait : ({} : Settings).CanWait := by
    unfold Settings.CanWait
    decide +kernel
  obtain ⟨s, ok, test⟩ := exists_run (start {} Stock.protocol) crateToSend
    (fun s => s.world.isAlive ⟨0, 0⟩ && (s.command? 1).isNone) (by decide +kernel)
  obtain ⟨alive, free⟩ := Bool.and_eq_true_iff.mp test
  have keeps := retries_in_budget wait ok (by decide +kernel)
  obtain ⟨legs, told, next, s', chased, length⟩ :=
    keeps.attained ⟨⟨0, 0⟩, 9, Stock.commandComponent, 0, .ofPayload 0 [], 1⟩ 1 rfl alive
      (Option.isNone_iff_eq_none.mp free)
  have allows := keeps.allows _ _ _ _ _ rfl chased
  have five : legs.length = 5 := length
  refine ⟨s, wait, ok, keeps, legs, told, next, s', chased, five, ?_, ?_⟩
  · rw [allows.length, five]
    rfl
  · rw [allows.next, five]
    rfl

/-- The command of a crate in one of its attempts. -/
def crateCommand (attempts : UInt32) : ReliableCommand :=
  ⟨⟨0, 0⟩, 9, Stock.commandComponent, 0, .ofPayload 0 [], attempts⟩

/-- A command fails and is sent again under the same id. Then the first failure is told once more,
and after that the second sending is answered with a success. -/
def toldTwice : List Act :=
  (Blueprint.ofClass 1 "Crate").operations.map .receive ++
    [.register (.command 7 (crateCommand 1)),
      .receive (.commandResponse 7 (.error ⟨.timeout, ""⟩)),
      .register (.command 7 (crateCommand 2)),
      .receive (.commandResponse 7 (.error ⟨.timeout, ""⟩)),
      .receive (.commandResponse 7 (.ok []))]

/-- A command fails, and the entity of the crate that has sent it is removed. -/
def failedAndRemoved : List Act :=
  (Blueprint.ofClass 1 "Crate").operations.map .receive ++
    [.register (.command 7 (crateCommand 1)),
      .receive (.commandResponse 7 (.error ⟨.timeout, ""⟩)), .receive (.removeEntity 1)]

/-- An object is placed, and what was asked for is sent on behalf of the handle of the crate, and
fails. -/
def sentForAnother : List Act :=
  [.alter (.placeLocal "Crate"), .register (.command 8 (crateCommand 2)),
    .receive (.commandResponse 8 (.error ⟨.timeout, ""⟩))]

/-- A second answer is taken for that of a later sending under the same id, and asks for a retry
that the success would not have asked for. And where the handle of a sender that was removed comes
round, the removal does not end the retries. -/
theorem retried_toldTwice_and_comesRound :
    (∃ s, (start {} Stock.protocol).run toldTwice = .ok s ∧
      s.events.filterMap Event.retried? = [crateCommand 2, crateCommand 3]) ∧
    ∃ s s', (start {} Stock.protocol).run (failedAndRemoved ++ rounds ⟨0, 1⟩ (2 ^ 32 - 1)) = .ok s ∧
      s.events.filterMap Event.retried? = [crateCommand 2] ∧ .entityRemoved 1 ∈ s.events ∧
      s.run sentForAnother = .ok s' ∧
      s'.events.filterMap Event.retried? = [crateCommand 2, crateCommand 3] := by
  constructor
  · obtain ⟨s, ok, test⟩ := exists_run (start {} Stock.protocol) toldTwice
      (fun s => s.events.filterMap Event.retried? == [crateCommand 2, crateCommand 3])
      (by decide +kernel)
    exact ⟨s, ok, eq_of_beq test⟩
  · -- What the rounds lead to is tested before the slot is worn, and with it what comes then.
    obtain ⟨s, ok, test⟩ := exists_run_rounds {} Stock.protocol failedAndRemoved ⟨0, 1⟩ (2 ^ 32 - 1)
      (fun s => s.events.filterMap Event.retried? == [crateCommand 2] &&
        s.events.contains (.entityRemoved 1) && s.leadsTo sentForAnother fun s' =>
          s'.events.filterMap Event.retried? == [crateCommand 2, crateCommand 3])
      (by decide +kernel) (by decide +kernel)
    simp only [Bool.and_eq_true, beq_iff_eq, List.contains_iff_mem] at test
    obtain ⟨⟨once, removed⟩, later⟩ := test
    obtain ⟨s', ran, again⟩ := exists_of_leadsTo later
    exact ⟨s, s', ok, once, removed, ran, eq_of_beq again⟩

end Session

end Replica
