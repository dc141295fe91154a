import Replica.Proofs.Removal

/-! # Outstanding commands

A reliable command that was sent is outstanding under an id until it is answered or its sender is
taken down. A failure is reported to the host with a delay, if there are attempts left and the
sender is alive; nothing else comes of an answer.

Main definitions:
* `Settings.CanWait` — the longest delay is a duration.
* `Session.command?` — the command that is outstanding under an id.
* `Session.OutstandingAfter`, `Session.command?_act` — what every act does to it.
* `Session.commandResponse_of_none`, `Session.commandResponse_of_done`,
  `Session.commandResponse_of_retry` — what comes of an answer; `Session.commandResponse_cases`. -/

namespace Replica

/-! ## Delays -/

/-- The settings **can wait** if the longest delay is a duration. -/
def Settings.CanWait (s : Settings) : Prop :=
  s.baseDelay.nanoseconds * 2 ^ 16 < UInt64.size * nanosPerSecond

/-- Then every delay is one: the base delay, doubled with each attempt, sixteen times at most. -/
theorem Settings.CanWait.exists_retryDelay {s : Settings} (h : s.CanWait) (attempts : UInt32) :
    ∃ delay, s.retryDelay attempts = .ok delay ∧
      delay.nanoseconds = s.baseDelay.nanoseconds * 2 ^ min (attempts.toNat - 1) 16 := by
  have bound : s.baseDelay.nanoseconds * 2 ^ min (attempts.toNat - 1) 16 <
      UInt64.size * nanosPerSecond :=
    Nat.lt_of_le_of_lt (Nat.mul_le_mul_left _
      (Nat.pow_le_pow_right (by decide) (Nat.min_le_right _ _))) h
  refine ⟨⟨_, bound⟩, ?_, rfl⟩
  rw [retryDelay, Duration.scale, Nat.one_shiftLeft, dif_pos bound]

namespace Session

/-! ## Settings stay -/

theorem settings_perform (w : Work) (m : Move) :
    (w.perform m).session.settings = w.session.settings := by
  cases m with
  | mark opens =>
    obtain ⟨held, same⟩ := w.exists_perform_mark opens
    rw [same]
  | learn arrival =>
    obtain ⟨held, same⟩ := w.exists_perform_learn arrival
    rw [same]
  | found draft =>
    obtain ⟨_, _, _, same⟩ := w.exists_perform_found draft
    rw [same]
  | populate channel data => exact (writes_populate channel _ data).routine.settings
  | authorize change =>
    simp only [Work.perform, changeAuthority]
    split <;> rfl
  | write entity data => exact (writes_write _ entity data).routine.settings
  | deliver call => exact (routine_deliverCall _ call).settings
  | replay arrival => exact (routine_resolveNow _ arrival).settings
  | remove entity =>
    rw [Work.perform]
    rcases w.session.remove_cases entity with ⟨-, same⟩ | ⟨-, same⟩ | ⟨channel, -, same⟩ <;>
      rw [same]
  | _ => rfl

/-- A single act is a run. -/
theorem run_singleton {s s' : Session} {a : Act} (ok : s.act a = .ok s') : s.run [a] = .ok s' :=
  run_cons.mpr ⟨s', ok, rfl⟩

/-- Every run leaves sessions tidy, and their settings as they are. -/
theorem tidy_settings_run {s s' : Session} {acts : List Act} (tidy : s.Tidy .all)
    (ok : s.run acts = .ok s') : s'.Tidy .all ∧ s'.settings = s.settings := by
  obtain ⟨same, tidy'⟩ := run_induction (I := fun w _ => w.session.settings = s.settings)
    (fun w _ m _ _ same => (settings_perform w m).trans same) tidy rfl (fun a _ => a.within_all) ok
  exact ⟨tidy', same⟩

/-! ## Outstanding commands -/

/-- The command that is outstanding under an id. -/
def command? (s : Session) (id : RequestId) : Option ReliableCommand :=
  s.requests.commands.get? id

variable {s s₁ s' : Session} {id : RequestId} {c : ReliableCommand}

/-- Moves that settle nothing drop just the commands whose sender they take down. -/
theorem command?_carries {w w' : Work} {ms : List Move} (carries : Carries .all w ms w')
    (tidy : w.session.Tidy .all) (unsettled : ∀ requests events deliveries,
      .settle requests events deliveries ∉ ms) :
    w'.session.command? id = some c ↔
      w.session.command? id = some c ∧ ∀ m ∈ w.trail ms, c.target ∉ m.takenDown := by
  induction carries with
  | nil w => simp [Work.trail]
  | @cons w w' m ms apt rest ih =>
    have requests := (requests_perform tidy fun requests events deliveries same =>
      unsettled requests events deliveries (same ▸ List.mem_cons_self)).2
    rw [ih (apt.tidy tidy) fun requests events deliveries mem =>
      unsettled requests events deliveries (List.mem_cons_of_mem _ mem), command?, requests,
      get?_commands_dropOwned, Work.trail, List.forall_mem_cons, and_assoc]
    rfl

/-- A single move that settles requests takes nobody down. -/
theorem takenDown_settle {a : Act} {requests : Requests} {events : List Event}
    {deliveries : List Delivery} (moves : s.moves a = [.settle requests events deliveries]) :
    ∀ m ∈ s.idle.trail (s.moves a), m.takenDown = [] := by
  intro m mem
  rw [moves] at mem
  cases List.mem_singleton.mp mem
  rfl

/-- An answer takes away the command under its id, and no other. -/
theorem command?_commandResponse {request : RequestId} {result : Except Failure Bytes}
    (ok : s.commandResponse request result = .ok s₁) :
    s₁.command? id = if request = id then none else s.command? id := by
  obtain ⟨retries, rfl⟩ := commandResponse_eq ok
  exact RequestTable.get?_erase _ _ _

/-- A command is entered under an id where none is outstanding; otherwise nothing happens. -/
theorem command?_await_command (s : Session) (id request : RequestId) (command : ReliableCommand) :
    (s.await (.command request command)).command? id =
      if request = id ∧ s.command? request = none then some command else s.command? id := by
  rw [await_eq_attempt, attempt, awaitCommand, RequestTable.register_eq]
  cases outstanding : s.requests.commands.get? request with
  | none =>
    have free : s.command? request = none := outstanding
    show (s.requests.commands.insert request command).get? id = _
    rw [RequestTable.get?_insert, free]
    simp [command?]
  | some other =>
    have taken : s.command? request ≠ none := by simp [command?, outstanding]
    simp only [taken, and_false, if_false]
    rfl

/-- The other registrations enter no command. -/
theorem commands_await {registration : Registration} {entry : RequestKey × Awaiting}
    (enters : registration.entry? = some entry) :
    (s.await registration).requests.commands = s.requests.commands := by
  obtain ⟨⟨kind, id⟩, w⟩ := entry
  rw [await_eq_attempt, attempt_eq enters]
  split
  · rename_i accepted
    split at accepted
    · cases accepted
      cases kind <;> rfl
    · cases accepted
  · rfl

/-- A command is **outstanding after** an act under an id if the act registers it there and the id
is free, or if it was outstanding before and the act neither answers it nor loses it with its
sender. -/
def OutstandingAfter (s : Session) (a : Act) (id : RequestId) (c : ReliableCommand) : Prop :=
  (a = .register (.command id c) ∧ s.command? id = none) ∨ s.command? id = some c ∧
    (∀ result, a ≠ .receive (.commandResponse id result)) ∧
    ∀ m ∈ s.idle.trail (s.moves a), c.target ∉ m.takenDown

section Acts

variable {a : Act}

/-- An act that settles requests takes nobody down. -/
theorem not_mem_takenDown_of_settled
    (settled : s.moves a = [.settle s₁.requests s₁.events s₁.deliveries]) :
    ∀ m ∈ s.idle.trail (s.moves a), c.target ∉ m.takenDown := fun m mem => by
  simp [takenDown_settle settled m mem]

/-- Of the acts that settle requests, those that leave the commands alone lose none. -/
theorem command?_of_kept (kept : s₁.requests.commands = s.requests.commands)
    (settled : s.moves a = [.settle s₁.requests s₁.events s₁.deliveries])
    (unanswered : ∀ result, a ≠ .receive (.commandResponse id result))
    (unregistered : a ≠ .register (.command id c)) :
    s₁.command? id = some c ↔ s.OutstandingAfter a id c := by
  rw [command?, kept, OutstandingAfter, or_iff_right fun both => unregistered both.1]
  exact (and_iff_left ⟨unanswered, not_mem_takenDown_of_settled settled⟩).symm

/-- Acts that settle no requests lose commands with their senders only. -/
theorem command?_of_unsettled (tidy : s.Tidy .all) (ok : s.act a = .ok s₁)
    (unsettled : a.settles = false) : s₁.command? id = some c ↔ s.OutstandingAfter a id c := by
  have strides := strides_act tidy unsettled ok
  have unanswered : ∀ result, a ≠ .receive (.commandResponse id result) := by
    rintro result rfl
    cases unsettled
  refine (command?_carries strides.carries tidy strides.settle_notMem).trans ?_
  rw [OutstandingAfter, and_iff_right unanswered, or_iff_right]
  · rfl
  · rintro ⟨rfl, -⟩
    cases unsettled

/-- So do commands that are received. -/
theorem command?_commandRequest (tidy : s.Tidy .all) {request : RequestId} {entity : EntityId}
    {command : CommandRequest} (ok : s.act (.receive (.commandRequest request entity command)) =
      .ok s₁) : s₁.command? id = some c ↔
        s.OutstandingAfter (.receive (.commandRequest request entity command)) id c := by
  cases ok
  have strides := strides_command [] entity command (s := s)
  refine (command?_carries strides.carries tidy strides.settle_notMem).trans ?_
  rw [OutstandingAfter, or_iff_right (by simp)]
  refine and_congr_right' ?_
  -- The move that acknowledges the command comes after the strides, and takes nobody down.
  show _ ↔ (∀ result, _) ∧
    ∀ m ∈ s.idle.trail (s.commandMoves entity command ++ [_]), c.target ∉ m.takenDown
  rw [Work.trail_append, List.forall_mem_append, and_iff_right (by simp)]
  exact (and_iff_left fun m mem => by
    cases List.mem_singleton.mp mem
    exact List.not_mem_nil).symm

/-- A response takes away the command under its id. -/
theorem command?_of_response {request : RequestId} {result : Except Failure Bytes}
    (ok : s.act (.receive (.commandResponse request result)) = .ok s₁) :
    s₁.command? id = some c ↔
      s.OutstandingAfter (.receive (.commandResponse request result)) id c := by
  have known : s.commandResponse request result = .ok s₁ := ok
  have settled : s.moves (.receive (.commandResponse request result)) =
      [.settle s₁.requests s₁.events s₁.deliveries] := by
    simp only [Session.moves, processMoves, known]
  rw [command?_commandResponse known, OutstandingAfter, or_iff_right (by simp),
    and_iff_left (not_mem_takenDown_of_settled settled)]
  by_cases same : request = id <;> simp [same]

/-- A registration enters a command under a free id, if it is one of a command. -/
theorem command?_register {registration : Registration}
    (ok : s.act (.register registration) = .ok s₁) :
    s₁.command? id = some c ↔ s.OutstandingAfter (.register registration) id c := by
  have came : s₁ = s.await registration := (Except.ok.inj ok).symm
  have settled : s.moves (.register registration) =
      [.settle s₁.requests s₁.events s₁.deliveries] := by
    rw [came]
    rfl
  cases enters : registration.entry? with
  | some entry =>
    refine command?_of_kept (came ▸ commands_await enters) settled (by simp) ?_
    rintro same
    cases same
    cases enters
  | none =>
    cases registration with
    | command request command =>
      rw [came, command?_await_command, OutstandingAfter,
        and_iff_left (not_mem_takenDown_of_settled settled)]
      by_cases entered : request = id ∧ s.command? request = none
      · obtain ⟨rfl, free⟩ := entered
        simp [free]
      · rw [if_neg entered, or_iff_right]
        · simp
        · rintro ⟨same, free⟩
          cases same
          exact entered ⟨rfl, free⟩
    | _ => cases enters

/-- **What is outstanding after an act**: the command that it registers under a free id, and of
those before it all that it neither answers nor loses with their sender. -/
theorem command?_act (tidy : s.Tidy .all) (ok : s.act a = .ok s₁) :
    s₁.command? id = some c ↔ s.OutstandingAfter a id c := by
  cases settles : a.settles with
  | false => exact command?_of_unsettled tidy ok settles
  | true =>
    cases a with
    | receive operation =>
      cases operation with
      | commandRequest request entity command => exact command?_commandRequest tidy ok
      | commandResponse request result => exact command?_of_response ok
      | createResponse _ _ | reserveResponse _ _ | queryResponse _ _ =>
        cases ok
        refine command?_of_kept ?_ rfl (by simp) (by simp)
        show (deliver _ _ _).requests.commands = _
        rw [(deliver_spec _ _ _).1]
      | _ => cases settles
    | register registration => exact command?_register ok
    | takeEvents =>
      cases ok
      exact command?_of_kept rfl rfl (by simp) (by simp)
    | _ => cases settles

end Acts

/-! ### Runs -/

section Runs

variable {acts : List Act}

/-- A command stays outstanding while it is not answered and its sender is not taken down. -/
theorem command?_run_of_undisturbed (tidy : s.Tidy .all) (ok : s.run acts = .ok s')
    (found : s.command? id = some c)
    (unanswered : ∀ result, .receive (.commandResponse id result) ∉ acts)
    (stays : ∀ m ∈ s.course acts, c.target ∉ m.takenDown) : s'.command? id = some c := by
  induction acts generalizing s with
  | nil =>
    cases ok
    exact found
  | cons a acts ih =>
    obtain ⟨s₁, first, rest⟩ := run_cons.mp ok
    simp only [course, first, List.forall_mem_append] at stays
    refine ih ((carries_act tidy a.within_all first).tidy tidy) rest ?_
      (fun result mem => unanswered result (List.mem_cons_of_mem a mem)) stays.2
    refine (command?_act tidy first).mpr (.inr ⟨found, fun result same => ?_, stays.1⟩)
    exact unanswered result (same ▸ List.mem_cons_self)

/-- An id stays free while no command is registered under it. -/
theorem command?_run_of_free (tidy : s.Tidy .all) (ok : s.run acts = .ok s')
    (free : s.command? id = none) (unregistered : ∀ d, .register (.command id d) ∉ acts) :
    s'.command? id = none := by
  induction acts generalizing s with
  | nil =>
    cases ok
    exact free
  | cons a acts ih =>
    obtain ⟨s₁, first, rest⟩ := run_cons.mp ok
    refine ih ((carries_act tidy a.within_all first).tidy tidy) rest ?_
      fun d mem => unregistered d (List.mem_cons_of_mem a mem)
    refine Option.eq_none_iff_forall_ne_some.mpr fun d found => ?_
    rcases (command?_act tidy first).mp found with ⟨same, -⟩ | ⟨before, -⟩
    · exact unregistered d (same ▸ List.mem_cons_self)
    · cases free.symm.trans before

/-- A command is lost when its sender is taken down. -/
theorem command?_run_of_takenDown (tidy : s.Tidy .all) (ok : s.run acts = .ok s')
    (found : s.command? id = some c) (unregistered : ∀ d, .register (.command id d) ∉ acts)
    (down : ∃ m ∈ s.course acts, c.target ∈ m.takenDown) : s'.command? id = none := by
  induction acts generalizing s with
  | nil =>
    obtain ⟨m, mem, -⟩ := down
    cases mem
  | cons a acts ih =>
    obtain ⟨s₁, first, rest⟩ := run_cons.mp ok
    have tidy₁ := (carries_act tidy a.within_all first).tidy tidy
    have unregistered' := fun d mem => unregistered d (List.mem_cons_of_mem a mem)
    cases later : s₁.command? id with
    | none => exact command?_run_of_free tidy₁ rest later unregistered'
    | some d =>
      -- What is outstanding after the act is the same command, which the act has not taken down.
      rcases (command?_act tidy first).mp later with ⟨same, -⟩ | ⟨before, -, stays⟩
      · exact absurd (same ▸ List.mem_cons_self) (unregistered d)
      · cases found.symm.trans before
        obtain ⟨m, mem, down⟩ := down
        simp only [course, first, List.mem_append] at mem
        exact ih tidy₁ rest later unregistered' ⟨m, mem.resolve_left fun here => stays m here down,
          down⟩

end Runs

/-! ## Answers to commands -/

/-- An answer that nobody waits for changes nothing. -/
theorem commandResponse_of_none (free : s.command? id = none) (result : Except Failure Bytes) :
    s.commandResponse id result = .ok s := by
  have kept : s.requests.commands.erase id = s.requests.commands := by
    have same : s.requests.commands.entries.erase id = s.requests.commands.entries := by
      refine Std.ExtTreeMap.ext_getElem? fun k => ?_
      rw [Std.ExtTreeMap.getElem?_erase]
      split
      · rename_i here
        rw [← Std.compare_eq_iff_eq.mp here]
        exact free.symm
      · rfl
    rw [RequestTable.erase, same]
  have none : s.requests.commands.get? id = none := free
  simp only [commandResponse, none, kept]

/-- A command that succeeds, whose sender is dead, or that was sent as often as allowed is only
taken away. -/
theorem commandResponse_of_done (found : s.command? id = some c) {result : Except Failure Bytes}
    (done : (∃ payload, result = .ok payload) ∨ s.world.isAlive c.target = false ∨
      s.settings.maxAttempts ≤ c.attempts) :
    s.commandResponse id result =
      .ok { s with requests.commands := s.requests.commands.erase id } := by
  have known : s.requests.commands.get? id = some c := found
  cases result with
  | ok payload => simp only [commandResponse, known]
  | error failure =>
    have spent : (s.world.isAlive c.target && decide (c.attempts < s.settings.maxAttempts)) =
        false := by
      rcases done with ⟨payload, same⟩ | dead | many
      · cases same
      · simp [dead]
      · simp [UInt32.not_lt.mpr many]
    simp only [commandResponse, known, spent, Bool.false_eq_true, if_false]

/-- Any other is to be sent again, after a delay. -/
theorem commandResponse_of_retry (found : s.command? id = some c) (failure : Failure)
    (alive : s.world.isAlive c.target = true) (left : c.attempts < s.settings.maxAttempts) :
    s.commandResponse id (.error failure) = (s.settings.retryDelay c.attempts).map fun delay =>
      { s with requests.commands := s.requests.commands.erase id }.report
        [.retryCommand { c with attempts := c.attempts + 1 } delay] := by
  have known : s.requests.commands.get? id = some c := found
  simp only [commandResponse, known, alive, left, decide_true, Bool.and_self, if_true]
  cases s.settings.retryDelay c.attempts <;> rfl

/-- So an answer is silent, or asks that a command be sent again whose sender is alive. -/
theorem commandResponse_cases (s : Session) (id : RequestId) (result : Except Failure Bytes) :
    (∃ s', s.commandResponse id result = .ok s' ∧ s'.events = s.events) ∨
      ∃ c failure, s.command? id = some c ∧ result = .error failure ∧
        s.world.isAlive c.target = true ∧ c.attempts < s.settings.maxAttempts := by
  cases found : s.command? id with
  | none => exact .inl ⟨s, commandResponse_of_none found result, rfl⟩
  | some c =>
    by_cases done : (∃ payload, result = .ok payload) ∨ s.world.isAlive c.target = false ∨
        s.settings.maxAttempts ≤ c.attempts
    · exact .inl ⟨_, commandResponse_of_done found done, rfl⟩
    · obtain ⟨failed, alive, left⟩ := by simpa only [not_or] using done
      cases result with
      | ok payload => exact absurd ⟨payload, rfl⟩ failed
      | error failure =>
        exact .inr ⟨c, failure, rfl, rfl, Bool.not_eq_false _ ▸ alive, UInt32.not_le.mp left⟩

/-- Where every delay is a duration, no answer is a fault. -/
theorem exists_commandResponse (wait : s.settings.CanWait) (id : RequestId)
    (result : Except Failure Bytes) : ∃ s', s.commandResponse id result = .ok s' := by
  rcases s.commandResponse_cases id result with
    ⟨s', silent, -⟩ | ⟨c, failure, found, rfl, alive, left⟩
  · exact ⟨s', silent⟩
  · obtain ⟨delay, waits, -⟩ := wait.exists_retryDelay c.attempts
    exact ⟨_, by rw [commandResponse_of_retry found failure alive left, waits]; rfl⟩

/-- So no run is. -/
theorem exists_run_of_canWait (tidy : s.Tidy .all) (wait : s.settings.CanWait) (acts : List Act) :
    ∃ s', s.run acts = .ok s' := by
  induction acts generalizing s with
  | nil => exact ⟨s, rfl⟩
  | cons a acts ih =>
    have step : ∃ s₁, s.act a = .ok s₁ := by
      cases a with
      | receive operation =>
        cases operation with
        | commandResponse request result => exact exists_commandResponse wait request result
        | _ => exact ⟨_, rfl⟩
      | _ => exact ⟨_, rfl⟩
    obtain ⟨s₁, first⟩ := step
    obtain ⟨tidy₁, same⟩ := tidy_settings_run tidy (run_singleton first)
    obtain ⟨s', rest⟩ := ih tidy₁ (same ▸ wait)
    exact ⟨s', run_cons.mpr ⟨s₁, first, rest⟩⟩

end Session

end Replica
