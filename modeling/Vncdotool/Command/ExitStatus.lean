import Mathlib.Data.List.Infix
import Mathlib.Order.Basic

/-!
# ExitStatus — how `vncdo` decides its exit status

`build_tool` queues the commands as callbacks of the factory's `Deferred`, and behind them the
close of the transport, `done(SUCCESS)` and `error` as the errback.  `VNCDoCLIFactory` records the
first outcome and schedules the end of the reactor.  Commands are whatever `build_command_list` has
queued, pauses included; each returns the client or fails, at once or through a `Deferred` of its
own, so what a callback is handed is left out.

Of Twisted the documented behaviour is used: the callbacks of a `Deferred` run one after the other
once it has fired, a failure goes past those that have no errback, and a callback that returns a
`Deferred` holds up those behind it.
-/

namespace Vncdotool

/-! ## Exit codes -/

inductive ExitStatus
  | success
  | error
  | usage
  | authenticationFailed
  | connectionFailed
  | connectionLost
  | protocolError
  | commandFailed
  | timeout
  deriving DecidableEq, Repr

def ExitStatus.toNat : ExitStatus → ℕ
  | success => 0
  | error => 1
  | usage => 2
  | authenticationFailed => 3
  | connectionFailed => 10
  | connectionLost => 11
  | protocolError => 20
  | commandFailed => 30
  | timeout => 40

/-- The exception classes that `EXIT_STATUS_FOR_ERROR` names. -/
inductive ErrorType
  | authenticationError
  | protocolError
  | timeoutError
  | connectError
  | dnsLookupError
  | connectionClosed
  deriving DecidableEq, Repr

/-- A Twisted `Failure`, as far as its outcome depends on it: which classes `reason.check` finds it
to be of. -/
structure Failure where
  check : ErrorType → Bool

/-- More specific causes first; the first match decides the exit status. -/
def exitStatusForError : List (ErrorType × ExitStatus) :=
  [(.authenticationError, .authenticationFailed),
    (.protocolError, .protocolError),
    (.timeoutError, .timeout),
    (.connectError, .connectionFailed),
    (.dnsLookupError, .connectionFailed),
    (.connectionClosed, .connectionLost)]

def statusFor (reason : Failure) (default : ExitStatus) : ExitStatus :=
  ((exitStatusForError.find? fun entry => reason.check entry.1).map Prod.snd).getD default

/-- No failure is a success. -/
theorem statusFor_ne_success {reason : Failure} {default : ExitStatus}
    (hdefault : default ≠ .success) : statusFor reason default ≠ .success := by
  unfold statusFor
  cases hfind : exitStatusForError.find? fun entry => reason.check entry.1 with
  | none => exact hdefault
  | some entry =>
      have hmem := List.mem_of_find?_eq_some hfind
      have hall : ∀ entry ∈ exitStatusForError, entry.2 ≠ ExitStatus.success := by decide
      exact hall entry hmem

/-! ## The factory and its callbacks -/

/-- What stands in the queue of `factory.deferred`. -/
inductive QueuedCallback (C : Type)
  | logConnected
  | command (c : C)
  /-- `lambda client: client.transport.loseConnection()` -/
  | loseConnection
  /-- `lambda _: factory.done(ExitStatus.SUCCESS)` -/
  | done
  /-- `addErrback(factory.error)` -/
  | error

inductive CallbackQueue (C : Type)
  | unfired
  /-- A command is being waited for, the callbacks behind it are still to come. -/
  | running (rest : List (QueuedCallback C))
  | finished

/-- How a command ends. -/
inductive CommandResult
  | ok
  | failure (reason : Failure)

structure VNCDoCLIFactory (C : Type) where
  deferred : CallbackQueue C := .unfired
  /-- `reactor.exit_status`. -/
  exitStatus : Option ExitStatus := none
  /-- How often `reactor.exit_status` has been assigned. -/
  assigned : ℕ := 0
  /-- How often `reactor.stop` has been scheduled. -/
  stops : ℕ := 0
  /-- The failures reported on standard error. -/
  reported : List Failure := []
  /-- `loseConnection()` has been called. -/
  closing : Bool := false

namespace VNCDoCLIFactory

variable {C : Type} (factory : VNCDoCLIFactory C)

/-- `done`: the first outcome wins. -/
def done (exitCode : ExitStatus) : VNCDoCLIFactory C :=
  match factory.exitStatus with
  | some _ => factory
  | none =>
      { factory with
        exitStatus := some exitCode
        assigned := factory.assigned + 1
        stops := factory.stops + 1 }

def error (reason : Failure) (default : ExitStatus) : VNCDoCLIFactory C :=
  match factory.exitStatus with
  | some _ => factory
  | none =>
      { factory with reported := factory.reported ++ [reason] }.done (statusFor reason default)

def clientConnectionLost (reason : Failure) : VNCDoCLIFactory C :=
  factory.error reason .connectionLost

def clientConnectionFailed (reason : Failure) : VNCDoCLIFactory C :=
  factory.error reason .connectionFailed

/-- The callbacks of the `Deferred` run, on a result, until a command has to be waited for. -/
def runCallbacks : CommandResult → List (QueuedCallback C) → VNCDoCLIFactory C → VNCDoCLIFactory C
  | _, [], factory => { factory with deferred := .finished }
  | .ok, .command _ :: rest, factory => { factory with deferred := .running rest }
  | .ok, .loseConnection :: rest, factory =>
      runCallbacks .ok rest { factory with closing := true }
  | .ok, .done :: rest, factory => runCallbacks .ok rest (factory.done .success)
  | .failure reason, .error :: rest, factory =>
      runCallbacks .ok rest (factory.error reason .commandFailed)
  -- `log_connected` hands on the client; a result goes past an errback, a failure past the rest.
  | .ok, .logConnected :: rest, factory => runCallbacks .ok rest factory
  | .ok, .error :: rest, factory => runCallbacks .ok rest factory
  | .failure reason, .logConnected :: rest, factory => runCallbacks (.failure reason) rest factory
  | .failure reason, .command _ :: rest, factory => runCallbacks (.failure reason) rest factory
  | .failure reason, .loseConnection :: rest, factory => runCallbacks (.failure reason) rest factory
  | .failure reason, .done :: rest, factory => runCallbacks (.failure reason) rest factory

/-- The callbacks that `build_tool` leaves on `factory.deferred`. -/
def buildTool (verbose : Bool) (commands : List C) : List (QueuedCallback C) :=
  (if verbose then [.logConnected] else []) ++ commands.map .command ++
    [.loseConnection, .done, .error]

end VNCDoCLIFactory

/-! ## Events -/

inductive CLIEvent
  /-- The errback of the connection attempt. -/
  | attemptFailed (reason : Failure)
  /-- `vncAuthFailed` or `vncProtocolError`, in the handshake or later. -/
  | protocolError (reason : Failure)
  /-- `vncConnectionMade`. -/
  | sessionReady
  /-- The command that is being waited for ends. -/
  | commandEnds (result : CommandResult)
  | connectionLost (reason : Failure)
  | timeout (reason : Failure)

/-- A failure, loss or timeout. -/
def CLIEvent.Fails : CLIEvent → Prop
  | .sessionReady => False
  | .commandEnds .ok => False
  | _ => True

/-- A command completes. -/
def CLIEvent.completes : CLIEvent → Bool
  | .commandEnds .ok => true
  | _ => false

namespace VNCDoCLIFactory

variable {C : Type}

/-- One event; `none` where it cannot happen. -/
def step (callbacks : List (QueuedCallback C)) (factory : VNCDoCLIFactory C) :
    CLIEvent → Option (VNCDoCLIFactory C)
  | .attemptFailed reason => some (factory.clientConnectionFailed reason)
  | .protocolError reason => some (factory.clientConnectionFailed reason)
  -- `clientConnectionMade` fires the Deferred once.
  | .sessionReady =>
      match factory.deferred with
      | .unfired => some (runCallbacks .ok callbacks factory)
      | _ => none
  | .commandEnds result =>
      match factory.deferred with
      | .running rest => some (runCallbacks result rest factory)
      | _ => none
  | .connectionLost reason => some (factory.clientConnectionLost reason)
  | .timeout reason => some (factory.error reason .commandFailed)

def run (callbacks : List (QueuedCallback C)) (events : List CLIEvent) : Option (VNCDoCLIFactory C) :=
  events.foldlM (step callbacks) {}

/-- No outcome has been recorded, or the one in `status`, once. -/
structure Recorded (status : Option ExitStatus) (factory : VNCDoCLIFactory C) : Prop where
  exitStatus : factory.exitStatus = status
  assigned : factory.assigned = status.toList.length
  stops : factory.stops = status.toList.length

variable {factory : VNCDoCLIFactory C} {status : ExitStatus} {reason : Failure}
  {callbacks rest : List (QueuedCallback C)} {commands : List C} {events : List CLIEvent}

/-! ## The first outcome wins -/

theorem Recorded.done (h : Recorded none factory) (exitCode : ExitStatus) :
    Recorded (some exitCode) (factory.done exitCode) := by
  unfold VNCDoCLIFactory.done
  rw [h.exitStatus]
  exact ⟨rfl, congrArg (· + 1) h.assigned, congrArg (· + 1) h.stops⟩

theorem Recorded.error (h : Recorded none factory) (reason : Failure) (default : ExitStatus) :
    Recorded (some (statusFor reason default)) (factory.error reason default) := by
  have hreported : Recorded none { factory with reported := factory.reported ++ [reason] } :=
    ⟨h.exitStatus, h.assigned, h.stops⟩
  unfold VNCDoCLIFactory.error
  split
  · next hsome => exact absurd (h.exitStatus.symm.trans hsome) (by simp)
  · exact hreported.done _

theorem Recorded.done_again (h : Recorded (some status) factory) (exitCode : ExitStatus) :
    factory.done exitCode = factory := by
  unfold VNCDoCLIFactory.done
  rw [h.exitStatus]

theorem Recorded.error_again (h : Recorded (some status) factory) (reason : Failure)
    (default : ExitStatus) : factory.error reason default = factory := by
  unfold VNCDoCLIFactory.error
  rw [h.exitStatus]

/-- The chain keeps running when the outcome has been recorded, and records nothing more. -/
theorem Recorded.runCallbacks (h : Recorded (some status) factory) (result : CommandResult)
    (callbacks : List (QueuedCallback C)) :
    Recorded (some status) (runCallbacks result callbacks factory) := by
  induction callbacks generalizing result factory with
  | nil => exact ⟨h.exitStatus, h.assigned, h.stops⟩
  | cons callback rest ih =>
      cases result with
      | ok =>
          cases callback with
          | command c => exact ⟨h.exitStatus, h.assigned, h.stops⟩
          | loseConnection =>
              have hclosing : Recorded (some status) { factory with closing := true } :=
                ⟨h.exitStatus, h.assigned, h.stops⟩
              exact ih hclosing .ok
          | done =>
              rw [VNCDoCLIFactory.runCallbacks, h.done_again]
              exact ih h .ok
          | logConnected => exact ih h .ok
          | error => exact ih h .ok
      | failure reason =>
          cases callback with
          | error =>
              rw [VNCDoCLIFactory.runCallbacks, h.error_again]
              exact ih h .ok
          | logConnected => exact ih h (.failure reason)
          | command c => exact ih h (.failure reason)
          | loseConnection => exact ih h (.failure reason)
          | done => exact ih h (.failure reason)

/-! ## What the chain comes to -/

/-- What stands in the queue behind the commands. -/
def ending : List (QueuedCallback C) :=
  [.loseConnection, .done, .error]

/-- A failure runs past the commands into the errback. -/
theorem Recorded.runCallbacks_failure (h : Recorded none factory) (reason : Failure)
    (commands : List C) :
    Recorded (some (statusFor reason .commandFailed))
      (VNCDoCLIFactory.runCallbacks (.failure reason) (commands.map .command ++ ending) factory) := by
  induction commands with
  | nil => exact (h.error reason .commandFailed).runCallbacks .ok []
  | cons c commands ih => exact ih

/-- A result starts the next command. -/
theorem Recorded.runCallbacks_next (h : Recorded none factory) (c : C) (todo : List C) :
    Recorded none (VNCDoCLIFactory.runCallbacks .ok ((c :: todo).map .command ++ ending) factory) ∧
      (VNCDoCLIFactory.runCallbacks .ok ((c :: todo).map .command ++ ending) factory).deferred =
        .running (todo.map .command ++ ending) :=
  ⟨⟨h.exitStatus, h.assigned, h.stops⟩, rfl⟩

/-- Where there is none left, it is a success. -/
theorem Recorded.runCallbacks_last (h : Recorded none factory) :
    Recorded (some .success) (VNCDoCLIFactory.runCallbacks .ok ending factory) := by
  have hclosing : Recorded none { factory with closing := true } :=
    ⟨h.exitStatus, h.assigned, h.stops⟩
  exact (hclosing.done .success).runCallbacks .ok [.error]

/-! ## The outcome of a run -/

/-- The session was ready and every command had completed before anything failed. -/
def Completed (commands : List C) (events : List CLIEvent) : Prop :=
  ∃ before, before <+: events ∧ (∀ event ∈ before, ¬ event.Fails) ∧ .sessionReady ∈ before ∧
    before.countP CLIEvent.completes = commands.length

theorem Completed.append (h : Completed commands events) (event : CLIEvent) :
    Completed commands (events ++ [event]) := by
  rcases h with ⟨before, hleads, hclean, hready, hcount⟩
  exact ⟨before, hleads.trans (List.prefix_append _ _), hclean, hready, hcount⟩

/-- After a failure it is too late. -/
theorem Completed.of_append {event : CLIEvent} (h : Completed commands (events ++ [event]))
    (hfails : ∃ failed ∈ events ++ [event], failed.Fails) : Completed commands events := by
  rcases h with ⟨before, hleads, hclean, hready, hcount⟩
  rcases List.prefix_concat_iff.1 hleads with heq | hleads'
  · rcases hfails with ⟨failed, hmem, hfailed⟩
    exact absurd hfailed (hclean failed (heq ▸ hmem))
  · exact ⟨before, hleads', hclean, hready, hcount⟩

/-- Where a run stands: no outcome yet, and so many commands completed, or the outcome it will
keep. -/
inductive Standing (commands : List C) (events : List CLIEvent) (factory : VNCDoCLIFactory C) : Prop
  | unfired (hrecorded : Recorded none factory) (hclean : ∀ event ∈ events, ¬ event.Fails)
      (hdeferred : factory.deferred = .unfired) (hready : .sessionReady ∉ events)
      (hcount : events.countP CLIEvent.completes = 0)
  | running (done todo : List C) (c : C) (hrecorded : Recorded none factory)
      (hclean : ∀ event ∈ events, ¬ event.Fails) (hcommands : commands = done ++ c :: todo)
      (hdeferred : factory.deferred = .running (todo.map .command ++ ending))
      (hready : .sessionReady ∈ events)
      (hcount : events.countP CLIEvent.completes = done.length)
  | success (hrecorded : Recorded (some .success) factory) (hcompleted : Completed commands events)
  | failed (status : ExitStatus) (hrecorded : Recorded (some status) factory)
      (hstatus : status ≠ .success) (hfails : ∃ event ∈ events, event.Fails)
      (hnot : ¬ Completed commands events)

theorem Standing.once (h : Standing commands events factory) :
    factory.assigned ≤ 1 ∧ factory.stops = factory.assigned ∧
      (factory.exitStatus.isSome ↔ factory.assigned = 1) := by
  have hnone (hrecorded : Recorded none factory) :
      factory.assigned ≤ 1 ∧ factory.stops = factory.assigned ∧
        (factory.exitStatus.isSome ↔ factory.assigned = 1) := by
    simp [hrecorded.exitStatus, hrecorded.assigned, hrecorded.stops]
  have hsome {status : ExitStatus} (hrecorded : Recorded (some status) factory) :
      factory.assigned ≤ 1 ∧ factory.stops = factory.assigned ∧
        (factory.exitStatus.isSome ↔ factory.assigned = 1) := by
    simp [hrecorded.exitStatus, hrecorded.assigned, hrecorded.stops]
  cases h with
  | unfired hrecorded _ _ _ _ => exact hnone hrecorded
  | running _ _ _ hrecorded _ _ _ _ _ => exact hnone hrecorded
  | success hrecorded _ => exact hsome hrecorded
  | failed _ hrecorded _ _ _ => exact hsome hrecorded

/-- Before the last command has completed, no part of the run has all of them completed. -/
theorem not_completed_of_short {n : ℕ} (hcount : events.countP CLIEvent.completes = n)
    (hshort : .sessionReady ∈ events → n < commands.length) : ¬ Completed commands events := by
  rintro ⟨before, hleads, _, hready, hall⟩
  have hle := hleads.sublist.countP_le (p := CLIEvent.completes)
  have hlt := hshort (hleads.subset hready)
  omega

theorem Standing.success_iff (h : Standing commands events factory) :
    factory.exitStatus = some .success ↔ Completed commands events := by
  cases h with
  | unfired hrecorded _ _ hready hcount =>
      have hnot : ¬ Completed commands events :=
        not_completed_of_short hcount fun hmem => absurd hmem hready
      simp [hrecorded.exitStatus, hnot]
  | running done todo c hrecorded _ hcommands _ _ hcount =>
      have hnot : ¬ Completed commands events :=
        not_completed_of_short hcount fun _ => by simp [hcommands]
      simp [hrecorded.exitStatus, hnot]
  | success hrecorded hcompleted => simp [hrecorded.exitStatus, hcompleted]
  | failed status hrecorded hstatus _ hnot => simp [hrecorded.exitStatus, hstatus, hnot]

/-! ## The steps -/

theorem Standing.of_failure {event : CLIEvent} (hrecorded : Recorded (some status) factory)
    (hstatus : status ≠ .success) (hfails : ∃ failed ∈ events ++ [event], failed.Fails)
    (hnot : ¬ Completed commands events) : Standing commands (events ++ [event]) factory :=
  .failed status hrecorded hstatus hfails fun hcompleted => hnot (hcompleted.of_append hfails)

/-- What has been decided stays decided. -/
theorem Standing.keeps {factory' : VNCDoCLIFactory C} {event : CLIEvent}
    (h : Standing commands events factory) (hdecided : factory.exitStatus ≠ none)
    (hsame : ∀ status, Recorded (some status) factory → Recorded (some status) factory') :
    Standing commands (events ++ [event]) factory' := by
  cases h with
  | unfired hrecorded _ _ _ _ => exact absurd hrecorded.exitStatus hdecided
  | running _ _ _ hrecorded _ _ _ _ _ => exact absurd hrecorded.exitStatus hdecided
  | success hrecorded hcompleted =>
      exact .success (hsame .success hrecorded) (hcompleted.append event)
  | failed status hrecorded hstatus hfails hnot =>
      rcases hfails with ⟨failed, hmem, hfailed⟩
      exact .of_failure (hsame status hrecorded) hstatus
        ⟨failed, List.mem_append_left _ hmem, hfailed⟩ hnot

theorem Standing.error {event : CLIEvent} (h : Standing commands events factory)
    (hfails : event.Fails) (reason : Failure) {default : ExitStatus}
    (hdefault : default ≠ .success) :
    Standing commands (events ++ [event]) (factory.error reason default) := by
  have hlast : ∃ failed ∈ events ++ [event], failed.Fails := ⟨event, by simp, hfails⟩
  by_cases hnone : factory.exitStatus = none
  · have hnot : ¬ Completed commands events := by
      intro hcompleted
      have hsuccess := h.success_iff.2 hcompleted
      simp [hnone] at hsuccess
    have hrecorded : Recorded none factory := by
      cases h with
      | unfired hrecorded _ _ _ _ => exact hrecorded
      | running _ _ _ hrecorded _ _ _ _ _ => exact hrecorded
      | success hrecorded _ => exact absurd (hrecorded.exitStatus.symm.trans hnone) (by simp)
      | failed _ hrecorded _ _ _ => exact absurd (hrecorded.exitStatus.symm.trans hnone) (by simp)
    exact .of_failure (hrecorded.error reason default) (statusFor_ne_success hdefault) hlast hnot
  · refine h.keeps hnone fun status hrecorded => ?_
    rw [hrecorded.error_again]
    exact hrecorded

/-- The session becomes ready: the first command starts. -/
theorem Standing.sessionReady (h : Standing commands events factory)
    (hunfired : factory.deferred = .unfired) :
    Standing commands (events ++ [.sessionReady])
      (VNCDoCLIFactory.runCallbacks .ok (commands.map .command ++ ending) factory) := by
  have hmem : CLIEvent.sessionReady ∈ events ++ [.sessionReady] := by simp
  cases h with
  | unfired hrecorded hclean _ _ hcount =>
      have hclean' : ∀ event ∈ events ++ [CLIEvent.sessionReady], ¬ event.Fails := by
        intro event hevent
        rcases List.mem_append.1 hevent with hevent | hevent
        · exact hclean event hevent
        · exact List.mem_singleton.1 hevent ▸ id
      have hcount' : (events ++ [CLIEvent.sessionReady]).countP CLIEvent.completes = 0 := by
        rw [List.countP_append, hcount]
        rfl
      cases commands with
      | nil =>
          exact .success hrecorded.runCallbacks_last
            ⟨_, List.prefix_rfl, hclean', hmem, hcount'⟩
      | cons c todo =>
          rcases hrecorded.runCallbacks_next c todo with ⟨hrecorded', hdeferred⟩
          exact .running [] todo c hrecorded' hclean' rfl hdeferred hmem hcount'
  | running _ _ _ _ _ _ hdeferred _ _ => simp [hunfired] at hdeferred
  | success hrecorded hcompleted =>
      exact .success (hrecorded.runCallbacks _ _) (hcompleted.append _)
  | failed status hrecorded hstatus hfails hnot =>
      rcases hfails with ⟨failed, hin, hfailed⟩
      exact .of_failure (hrecorded.runCallbacks _ _) hstatus
        ⟨failed, List.mem_append_left _ hin, hfailed⟩ hnot

/-- The command that is being waited for ends. -/
theorem Standing.commandEnds (h : Standing commands events factory) (result : CommandResult)
    (hrunning : factory.deferred = .running rest) :
    Standing commands (events ++ [.commandEnds result])
      (VNCDoCLIFactory.runCallbacks result rest factory) := by
  cases h with
  | unfired _ _ hdeferred _ _ => simp [hrunning] at hdeferred
  | running done todo c hrecorded hclean hcommands hdeferred hready hcount =>
      have hrest : rest = todo.map .command ++ ending := by simpa [hrunning] using hdeferred
      have hready' := List.mem_append_left [CLIEvent.commandEnds result] hready
      subst hrest
      cases result with
      | ok =>
          -- A command that succeeds is followed by the next one, or by the end.
          have hclean' : ∀ event ∈ events ++ [CLIEvent.commandEnds .ok], ¬ event.Fails := by
            intro event hevent
            rcases List.mem_append.1 hevent with hevent | hevent
            · exact hclean event hevent
            · exact List.mem_singleton.1 hevent ▸ id
          have hcount' : (events ++ [CLIEvent.commandEnds .ok]).countP CLIEvent.completes =
              done.length + 1 := by
            rw [List.countP_append, hcount]
            rfl
          cases todo with
          | nil =>
              refine .success hrecorded.runCallbacks_last
                ⟨_, List.prefix_rfl, hclean', hready', ?_⟩
              rw [hcount', hcommands, List.length_append, List.length_singleton]
          | cons c' todo =>
              rcases hrecorded.runCallbacks_next c' todo with ⟨hrecorded', hdeferred'⟩
              refine .running (done ++ [c]) todo c' hrecorded' hclean' ?_ hdeferred' hready' ?_
              · rw [hcommands, List.append_assoc]
                rfl
              · rw [hcount', List.length_append, List.length_singleton]
      | failure reason =>
          -- A command that fails ends the sequence, and the ones behind it are not run.
          have hnot : ¬ Completed commands events :=
            not_completed_of_short hcount fun _ => by simp [hcommands]
          have hfails : (CLIEvent.commandEnds (.failure reason)).Fails := trivial
          exact .of_failure (hrecorded.runCallbacks_failure reason todo)
            (statusFor_ne_success (by decide)) ⟨_, by simp, hfails⟩ hnot
  | success hrecorded hcompleted =>
      exact .success (hrecorded.runCallbacks _ _) (hcompleted.append _)
  | failed status hrecorded hstatus hfails hnot =>
      rcases hfails with ⟨failed, hin, hfailed⟩
      exact .of_failure (hrecorded.runCallbacks _ _) hstatus
        ⟨failed, List.mem_append_left _ hin, hfailed⟩ hnot

theorem Standing.step {factory' : VNCDoCLIFactory C} (h : Standing commands events factory)
    (verbose : Bool) (event : CLIEvent)
    (hstep : VNCDoCLIFactory.step (buildTool verbose commands) factory event = some factory') :
    Standing commands (events ++ [event]) factory' := by
  cases event with
  | attemptFailed reason =>
      have hfails : (CLIEvent.attemptFailed reason).Fails := trivial
      cases Option.some.inj hstep
      exact h.error hfails reason (by decide)
  | protocolError reason =>
      have hfails : (CLIEvent.protocolError reason).Fails := trivial
      cases Option.some.inj hstep
      exact h.error hfails reason (by decide)
  | connectionLost reason =>
      have hfails : (CLIEvent.connectionLost reason).Fails := trivial
      cases Option.some.inj hstep
      exact h.error hfails reason (by decide)
  | timeout reason =>
      have hfails : (CLIEvent.timeout reason).Fails := trivial
      cases Option.some.inj hstep
      exact h.error hfails reason (by decide)
  | sessionReady =>
      simp only [VNCDoCLIFactory.step] at hstep
      split at hstep
      · next hunfired =>
          cases Option.some.inj hstep
          -- `log_connected` makes no difference.
          have hbuilt : VNCDoCLIFactory.runCallbacks .ok (buildTool verbose commands) factory =
              VNCDoCLIFactory.runCallbacks .ok (commands.map .command ++ ending) factory := by
            cases verbose <;> rfl
          rw [hbuilt]
          exact h.sessionReady hunfired
      · cases hstep
  | commandEnds result =>
      simp only [VNCDoCLIFactory.step] at hstep
      split at hstep
      · next rest hrunning =>
          cases Option.some.inj hstep
          exact h.commandEnds result hrunning
      · cases hstep

/-! ## Runs -/

theorem Standing.run (verbose : Bool) {later : List CLIEvent} {final : VNCDoCLIFactory C}
    (h : Standing commands events factory)
    (hrun : later.foldlM (VNCDoCLIFactory.step (buildTool verbose commands)) factory =
      some final) : Standing commands (events ++ later) final := by
  induction later generalizing events factory with
  | nil =>
      cases Option.some.inj hrun
      rwa [List.append_nil]
  | cons event later ih =>
      rw [List.foldlM_cons] at hrun
      rcases Option.bind_eq_some_iff.1 hrun with ⟨factory', hstep, hrest⟩
      have hnext := ih (h.step verbose event hstep) hrest
      rwa [List.append_assoc] at hnext

/-- Whatever happens in whatever order: the exit status is assigned once at most, the reactor is
told to stop exactly when it is, and it is a success exactly when the session was ready and every
queued command had completed before any failure, loss or timeout. -/
theorem exitStatus_truthful (verbose : Bool) (commands : List C) (events : List CLIEvent)
    (factory : VNCDoCLIFactory C) (hrun : run (buildTool verbose commands) events = some factory) :
    factory.assigned ≤ 1 ∧ factory.stops = factory.assigned ∧
      (factory.exitStatus.isSome ↔ factory.assigned = 1) ∧
        (factory.exitStatus = some .success ↔
          ∃ before, before <+: events ∧ (∀ event ∈ before, ¬ event.Fails) ∧
            .sessionReady ∈ before ∧
              before.countP CLIEvent.completes = commands.length) := by
  have hinit : Standing commands [] ({} : VNCDoCLIFactory C) :=
    .unfired ⟨rfl, rfl, rfl⟩ (fun _ hmem => absurd hmem List.not_mem_nil) rfl List.not_mem_nil rfl
  have hfinal : Standing commands events factory := hinit.run verbose hrun
  rcases hfinal.once with ⟨honce, hstops, hassigned⟩
  exact ⟨honce, hstops, hassigned, hfinal.success_iff⟩

/-- A command that is interrupted by the loss of the connection, and completes all the same. -/
def lostConnection : List CLIEvent :=
  [.sessionReady, .commandEnds .ok, .connectionLost ⟨(· == .connectionClosed)⟩, .commandEnds .ok]

theorem exitStatus_truthful_lostConnection :
    ∃ factory, run (buildTool true ["key", "pause"]) lostConnection = some factory ∧
      factory.assigned ≤ 1 ∧ factory.stops = factory.assigned ∧
        (factory.exitStatus.isSome ↔ factory.assigned = 1) ∧
          (factory.exitStatus = some .success ↔
            ∃ before, before <+: lostConnection ∧ (∀ event ∈ before, ¬ event.Fails) ∧
              .sessionReady ∈ before ∧
                before.countP CLIEvent.completes = ["key", "pause"].length) :=
  ⟨_, rfl, exitStatus_truthful true ["key", "pause"] lostConnection _ rfl⟩

/-- With no command queued, none is left to complete when the attempt fails; that is no success. -/
theorem not_success_without_session :
    ¬ ∀ (commands : List String) (events : List CLIEvent) (factory : VNCDoCLIFactory String),
      run (buildTool false commands) events = some factory →
        (factory.exitStatus = some .success ↔
          ∃ before, before <+: events ∧ (∀ event ∈ before, ¬ event.Fails) ∧
            before.countP CLIEvent.completes = commands.length) := by
  intro hclaim
  have hrefused := hclaim [] [.attemptFailed ⟨(· == .connectError)⟩] _ rfl
  have hvacuous := hrefused.2 ⟨[], List.nil_prefix, fun _ hmem => absurd hmem List.not_mem_nil, rfl⟩
  exact absurd hvacuous (by decide)

end VNCDoCLIFactory

end Vncdotool
