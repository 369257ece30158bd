import Vncdotool.Api.ThreadedProxy
import Vncdotool.Streaming.Runs
import Mathlib.Data.List.Nodup

/-!
# Disconnect — who waits in `ThreadedVNCClientProxy.disconnect`

`disconnect` hands the reactor a callback for the factory's `Deferred`.  When its turn comes,
`disconnector` puts `on_disconnected` on the factory's list and asks the transport to close; the
list is run through, and emptied, when the connection is lost.  Any number of threads may be
waiting, next to method calls that complete at any time and with any outcome.

The run starts after `connect`, whose request the reactor runs first.  `capture_protocol`, which
hands on what it is given, is left out.
-/

namespace Vncdotool

open Streaming

/-- A function that is to become a callback of the factory's `Deferred`. -/
inductive Task
  | call (call : ℕ)
  | disconnector (waiter : ℕ)
  deriving DecidableEq, Repr

def Task.waiter : Task → Option ℕ
  | .call _ => none
  | .disconnector waiter => some waiter

inductive Transport
  /-- The attempt of `factory_connect` is under way. -/
  | connecting
  | connected
  /-- The attempt failed: the transport was never opened. -/
  | refused
  | lost
  deriving DecidableEq, Repr

/-- What the callbacks of the chain are handed: the client, the `None` that `disconnector` returns,
or what a method returned. -/
structure Returns (V E : Type) where
  client : V
  none : V
  /-- What `protocol.transport` raises on anything but the client. -/
  attributeError : V → E

/-- The proxy with its factory and transport.  Method calls and `disconnect()` calls are numbered
together. -/
structure ThreadedConnection (V E : Type) where
  fromThread : List Task := []
  callbacks : List Task := []
  chain : Chain V E := .unfired
  transport : Transport := .connecting
  /-- `loseConnection()` has been called. -/
  closing : Bool := false
  /-- `factory._disconnect_callbacks`, by the calls they belong to. -/
  disconnectCallbacks : List ℕ := []
  issued : ℕ := 0
  /-- The `disconnect()` calls. -/
  waiters : List ℕ := []
  /-- The calls whose `on_disconnected` has run. -/
  released : List ℕ := []
  deriving DecidableEq, Repr

namespace ThreadedConnection

inductive Action (V E : Type)
  /-- The application calls a method. -/
  | call
  /-- The application calls `disconnect()`. -/
  | disconnect
  /-- The reactor runs the next function handed to `callFromThread`. -/
  | fromThread
  | connected
  | attemptFailed (reason : E)
  /-- `vncConnectionMade`. -/
  | established
  /-- `vncAuthFailed`, `vncProtocolError`, or a password asked for that there is none of. -/
  | handshakeFailed (reason : E)
  /-- The `Deferred` runs its next callback or errback. -/
  | callback
  /-- The method whose turn it is completes. -/
  | completes (outcome : Outcome V E)
  /-- `connectionLost`, whether the server hung up or the transport was asked to close. -/
  | connectionLost
  deriving DecidableEq, Repr

variable {V E : Type} (s : ThreadedConnection V E)

/-- `reactor.callFromThread`, for the next call. -/
def callFromThread (task : Task) : ThreadedConnection V E :=
  { s with fromThread := s.fromThread ++ [task], issued := s.issued + 1 }

/-- `factory.deferred.callback` or `.errback`.  Twice is an `AlreadyCalledError`, and changes
nothing. -/
def fire (outcome : Outcome V E) : ThreadedConnection V E :=
  match s.chain with
  | .unfired => { s with chain := .result outcome }
  | _ => s

/-- `clientConnectionLost`. -/
def clientConnectionLost : ThreadedConnection V E :=
  { s with released := s.released ++ s.disconnectCallbacks, disconnectCallbacks := [] }

/-- `disconnector`, run on what the chain carries. -/
def disconnector [DecidableEq V] (env : Returns V E) (waiter : ℕ) (protocol : V) :
    ThreadedConnection V E :=
  let s := { s with disconnectCallbacks := s.disconnectCallbacks ++ [waiter] }
  if protocol = env.client then
    { s with closing := true, chain := .result (.value env.none) }
  else
    { s with chain := .result (.failure (env.attributeError protocol)) }

/-- The next callback or errback of a `Deferred` that has fired. -/
def runCallback [DecidableEq V] (env : Returns V E) : Task → Outcome V E → ThreadedConnection V E
  | .call call, .value _ => { s with chain := .paused call }
  | .call _, .failure reason => { s with chain := .result (.failure reason) }
  | .disconnector waiter, .value protocol => s.disconnector env waiter protocol
  -- Added with `addCallback`, it has no errback: the failure goes past it.
  | .disconnector _, .failure reason => { s with chain := .result (.failure reason) }

/-- One event; one that cannot happen changes nothing. -/
def step [DecidableEq V] (env : Returns V E) : Action V E → ThreadedConnection V E
  | .call => s.callFromThread (.call s.issued)
  | .disconnect =>
      { s.callFromThread (.disconnector s.issued) with waiters := s.waiters ++ [s.issued] }
  | .fromThread =>
      match s.fromThread with
      | [] => s
      | task :: rest => { s with fromThread := rest, callbacks := s.callbacks ++ [task] }
  | .connected =>
      if s.transport = .connecting then { s with transport := .connected } else s
  | .attemptFailed reason =>
      if s.transport = .connecting then { s with transport := .refused }.fire (.failure reason)
      else s
  | .established =>
      if s.transport = .connected then s.fire (.value env.client) else s
  | .handshakeFailed reason =>
      if s.transport = .connected then { s with closing := true }.fire (.failure reason) else s
  -- The chain runs its next callback only when the one before it has a result.
  | .callback =>
      match s.chain, s.callbacks with
      | .result outcome, task :: rest => { s with callbacks := rest }.runCallback env task outcome
      | _, _ => s
  | .completes outcome =>
      match s.chain with
      | .paused _ => { s with chain := .result outcome }
      | _ => s
  | .connectionLost =>
      if s.transport = .connected then { s with transport := .lost }.clientConnectionLost else s

def run [DecidableEq V] (env : Returns V E) (actions : List (Action V E)) :
    ThreadedConnection V E :=
  actions.foldl (fun s => s.step env) {}

/-- The transport is closed or was never opened. -/
def Closed : Prop :=
  s.transport = .lost ∨ s.transport = .refused

/-- The reactor has nothing left to do: no function to run, no callback whose turn has come, no
attempt under way. -/
def Quiet : Prop :=
  s.fromThread = [] ∧ (s.callbacks = [] ∨ ∀ outcome, s.chain ≠ .result outcome) ∧
    s.transport ≠ .connecting

/-- Every `disconnect()` has been released. -/
def AllReleased : Prop :=
  ∀ waiter ∈ s.waiters, waiter ∈ s.released

/-- The `disconnect()` calls whose `disconnector` has not had its turn. -/
def awaiting : List ℕ :=
  (s.callbacks ++ s.fromThread).filterMap Task.waiter

/-- The condition on a step: nobody calls `disconnect()` when the transport is closed already, no
`disconnector` has its turn in a chain that carries a failure, and none is still to have its turn
when the transport closes or the attempt fails. -/
def InTime : Action V E → Prop
  | .disconnect => ¬ s.Closed
  | .callback =>
      ∀ waiter rest reason, s.callbacks = .disconnector waiter :: rest →
        s.chain ≠ .result (.failure reason)
  | .attemptFailed _ => s.transport = .connecting → s.awaiting = []
  | .connectionLost => s.transport = .connected → s.awaiting = []
  | _ => True

/-! ## What a step can do -/

variable {s} {s' : ThreadedConnection V E} {action : Action V E} {env : Returns V E}

theorem awaiting_callFromThread (task : Task) :
    (s.callFromThread task).awaiting = s.awaiting ++ task.waiter.toList := by
  cases task <;> simp [awaiting, callFromThread, Task.waiter]

theorem awaiting_cons {task : Task} {rest : List Task} (h : s.callbacks = task :: rest) :
    s.awaiting = task.waiter.toList ++ (rest ++ s.fromThread).filterMap Task.waiter := by
  cases task <;> simp [awaiting, h, Task.waiter, List.filterMap_cons]

/-- Where the `disconnect()` calls are has not changed. -/
structure SamePlaces (s s' : ThreadedConnection V E) : Prop where
  awaiting : s'.awaiting = s.awaiting
  registered : s'.disconnectCallbacks = s.disconnectCallbacks
  released : s'.released = s.released
  waiters : s'.waiters = s.waiters

theorem SamePlaces.refl : SamePlaces s s := ⟨rfl, rfl, rfl, rfl⟩

/-- The steps by what they do to the `disconnect()` calls, and when they meet the condition. -/
inductive Moves (s : ThreadedConnection V E) (action : Action V E) (s' : ThreadedConnection V E) :
    Prop
  | stays (hsame : SamePlaces s s') (hissued : s.issued ≤ s'.issued)
      (hclosed : s'.Closed ↔ s.Closed) (hmeets : s.InTime action)
  | asks (hawaiting : s'.awaiting = s.awaiting ++ [s.issued])
      (hregistered : s'.disconnectCallbacks = s.disconnectCallbacks)
      (hreleased : s'.released = s.released) (hwaiters : s'.waiters = s.waiters ++ [s.issued])
      (hissued : s'.issued = s.issued + 1) (hclosed : s'.Closed ↔ s.Closed)
      (hmeets : s.InTime action ↔ ¬ s.Closed)
  | registers (waiter : ℕ) (hawaiting : s.awaiting = waiter :: s'.awaiting)
      (hregistered : s'.disconnectCallbacks = s.disconnectCallbacks ++ [waiter])
      (hreleased : s'.released = s.released) (hwaiters : s'.waiters = s.waiters)
      (hissued : s'.issued = s.issued) (hclosed : s'.Closed ↔ s.Closed)
      (hmeets : s.InTime action)
  | skips (waiter : ℕ) (hawaiting : s.awaiting = waiter :: s'.awaiting)
      (hregistered : s'.disconnectCallbacks = s.disconnectCallbacks)
      (hreleased : s'.released = s.released) (hwaiters : s'.waiters = s.waiters)
      (hissued : s'.issued = s.issued) (hclosed : s'.Closed ↔ s.Closed)
      (hmeets : ¬ s.InTime action)
  | loses (hawaiting : s'.awaiting = s.awaiting) (hregistered : s'.disconnectCallbacks = [])
      (hreleased : s'.released = s.released ++ s.disconnectCallbacks)
      (hwaiters : s'.waiters = s.waiters) (hissued : s'.issued = s.issued)
      (hopen : ¬ s.Closed) (hclosed : s'.Closed) (hmeets : s.InTime action ↔ s.awaiting = [])
  | fails (hsame : SamePlaces s s') (hissued : s'.issued = s.issued)
      (hregistered : s.disconnectCallbacks = []) (hclosed : s'.Closed)
      (hmeets : s.InTime action ↔ s.awaiting = [])

theorem Moves.refl (hmeets : s.InTime action) : Moves s action s :=
  .stays .refl le_rfl Iff.rfl hmeets

/-- Before the chain has fired, as it cannot have while the attempt is under way, no callback is on
the list. -/
structure Unstarted (s : ThreadedConnection V E) : Prop where
  connecting : s.transport = .connecting → s.chain = .unfired
  unfired : s.chain = .unfired → s.disconnectCallbacks = []

/-- Firing the `Deferred` moves nothing. -/
theorem samePlaces_fire (outcome : Outcome V E) :
    SamePlaces s (s.fire outcome) ∧ (s.fire outcome).issued = s.issued ∧
      (s.fire outcome).transport = s.transport := by
  unfold fire
  split
  · exact ⟨⟨rfl, rfl, rfl, rfl⟩, rfl, rfl⟩
  · exact ⟨.refl, rfl, rfl⟩

/-! ## What holds in any case -/

/-- The `disconnect()` calls, each in one place. -/
def places (s : ThreadedConnection V E) : List ℕ :=
  s.awaiting ++ s.disconnectCallbacks ++ s.released

/-- No number is used twice. -/
structure Numbered (s : ThreadedConnection V E) : Prop where
  nodup : s.places.Nodup
  known : ∀ waiter ∈ s.places, waiter ∈ s.waiters
  issued : ∀ waiter ∈ s.waiters, waiter < s.issued

theorem SamePlaces.places (h : SamePlaces s s') : s'.places = s.places := by
  rw [ThreadedConnection.places, h.awaiting, h.registered, h.released]
  rfl

theorem Numbered.same (h : s.Numbered) (hsame : SamePlaces s s') (hissued : s.issued ≤ s'.issued) :
    s'.Numbered where
  nodup := hsame.places ▸ h.nodup
  known := hsame.places ▸ hsame.waiters ▸ h.known
  issued := fun waiter hmem => (h.issued waiter (hsame.waiters ▸ hmem)).trans_le hissued

theorem Numbered.move (h : s.Numbered) (hmove : Moves s action s') : s'.Numbered := by
  cases hmove with
  | stays hsame hissued _ _ => exact h.same hsame hissued
  | fails hsame hissued _ _ _ => exact h.same hsame hissued.ge
  | asks hawaiting hregistered hreleased hwaiters hissued _ _ =>
      have hplaces : s'.places.Perm (s.issued :: s.places) := by
        simp only [places, hawaiting, hregistered, hreleased, List.append_assoc]
        exact List.perm_middle
      refine ⟨?_, ?_, ?_⟩
      · refine hplaces.nodup_iff.2 (List.nodup_cons.2 ⟨fun hmem => ?_, h.nodup⟩)
        exact absurd (h.issued _ (h.known _ hmem)) (lt_irrefl _)
      · intro waiter hmem
        rw [hwaiters]
        rcases List.mem_cons.1 (hplaces.mem_iff.1 hmem) with rfl | hmem'
        · exact List.mem_append_right _ (List.mem_singleton_self _)
        · exact List.mem_append_left _ (h.known waiter hmem')
      · intro waiter hmem
        rw [hwaiters, List.mem_append, List.mem_singleton] at hmem
        rw [hissued]
        rcases hmem with hmem | rfl
        · exact Nat.lt_succ_of_lt (h.issued waiter hmem)
        · exact Nat.lt_succ_self _
  | registers waiter hawaiting hregistered hreleased hwaiters hissued _ _ =>
      have hplaces : s'.places.Perm s.places := by
        simp only [places, hawaiting, hregistered, hreleased, List.append_assoc, List.cons_append]
        exact (List.Perm.append_left _ List.perm_middle).trans List.perm_middle
      refine ⟨hplaces.nodup_iff.2 h.nodup, ?_, hwaiters ▸ hissued ▸ h.issued⟩
      intro other hmem
      exact hwaiters ▸ h.known other (hplaces.mem_iff.1 hmem)
  | skips waiter hawaiting hregistered hreleased hwaiters hissued _ _ =>
      have hplaces : s.places = waiter :: s'.places := by
        simp only [places, hawaiting, hregistered, hreleased, List.cons_append]
      have hnodup := hplaces ▸ h.nodup
      refine ⟨(List.nodup_cons.1 hnodup).2, ?_, hwaiters ▸ hissued ▸ h.issued⟩
      intro other hmem
      exact hwaiters ▸ h.known other (hplaces ▸ List.mem_cons_of_mem _ hmem)
  | loses hawaiting hregistered hreleased hwaiters hissued _ _ _ =>
      have hplaces : s'.places.Perm s.places := by
        simp only [places, hawaiting, hregistered, hreleased, List.append_nil, List.append_assoc]
        exact List.Perm.append_left _ List.perm_append_comm
      refine ⟨hplaces.nodup_iff.2 h.nodup, ?_, hwaiters ▸ hissued ▸ h.issued⟩
      intro other hmem
      exact hwaiters ▸ h.known other (hplaces.mem_iff.1 hmem)

/-! ## Runs that meet the condition -/

/-- Nobody is forgotten: a `disconnect()` that is not released is on its way, and nothing is on its
way when the transport is closed. -/
structure Accounted (s : ThreadedConnection V E) : Prop where
  everyone : ∀ waiter ∈ s.waiters, waiter ∈ s.places
  closed : s.Closed → s.awaiting = [] ∧ s.disconnectCallbacks = []

theorem Accounted.allReleased (h : s.Accounted) (hclosed : s.Closed) : s.AllReleased := by
  intro waiter hmem
  have hplace := h.everyone waiter hmem
  rw [places, (h.closed hclosed).1, (h.closed hclosed).2] at hplace
  exact hplace

theorem Accounted.move (h : s.Accounted) (hmove : Moves s action s') (hmeets : s.InTime action) :
    s'.Accounted := by
  cases hmove with
  | stays hsame _ hclosed _ =>
      refine ⟨hsame.places ▸ hsame.waiters ▸ h.everyone, fun hclosed' => ?_⟩
      rw [hsame.awaiting, hsame.registered]
      exact h.closed (hclosed.1 hclosed')
  | fails hsame _ hregistered _ hempty =>
      refine ⟨hsame.places ▸ hsame.waiters ▸ h.everyone, fun _ => ?_⟩
      rw [hsame.awaiting, hsame.registered]
      exact ⟨hempty.1 hmeets, hregistered⟩
  | asks hawaiting hregistered hreleased hwaiters _ hclosed hopen =>
      refine ⟨?_, fun hclosed' => absurd (hclosed.1 hclosed') (hopen.1 hmeets)⟩
      intro waiter hmem
      rw [hwaiters, List.mem_append, List.mem_singleton] at hmem
      simp only [places, hawaiting, hregistered, hreleased]
      rcases hmem with hmem | rfl
      · have hplace := h.everyone waiter hmem
        simp only [places, List.mem_append] at hplace ⊢
        tauto
      · simp
  | registers waiter hawaiting hregistered hreleased hwaiters _ hclosed _ =>
      refine ⟨?_, fun hclosed' => ?_⟩
      · intro other hmem
        have hplace := h.everyone other (hwaiters ▸ hmem)
        simp only [places, hawaiting, hregistered, hreleased, List.mem_append, List.mem_cons,
          List.not_mem_nil, or_false] at hplace ⊢
        tauto
      · have hnone := (h.closed (hclosed.1 hclosed')).1
        exact absurd (hawaiting.symm.trans hnone) (List.cons_ne_nil _ _)
  | skips _ _ _ _ _ _ _ hnot => exact absurd hmeets hnot
  | loses hawaiting hregistered hreleased hwaiters _ _ _ hempty =>
      refine ⟨?_, fun _ => ⟨hawaiting.trans (hempty.1 hmeets), hregistered⟩⟩
      intro other hmem
      have hplace := h.everyone other (hwaiters ▸ hmem)
      simp only [places, hawaiting, hregistered, hreleased, List.mem_append,
        List.not_mem_nil] at hplace ⊢
      tauto

/-! ## Runs that miss it -/

/-- There is a `disconnect()` that nothing can release any more. -/
def Doomed (s : ThreadedConnection V E) : Prop :=
  ∃ waiter ∈ s.waiters, waiter ∉ s.released ∧
    (s.Closed ∨ waiter ∉ s.awaiting ∧ waiter ∉ s.disconnectCallbacks)

theorem Doomed.not_allReleased (h : s.Doomed) : ¬ s.AllReleased := by
  rcases h with ⟨waiter, hmem, hnot, _⟩
  exact fun hall => hnot (hall waiter hmem)

theorem Doomed.same (h : s.Doomed) (hsame : SamePlaces s s') (hclosed : s.Closed → s'.Closed) :
    s'.Doomed := by
  rcases h with ⟨waiter, hmem, hnot, hlost⟩
  refine ⟨waiter, hsame.waiters ▸ hmem, hsame.released ▸ hnot, ?_⟩
  rw [hsame.awaiting, hsame.registered]
  exact hlost.imp_left hclosed

theorem Doomed.move (h : s.Doomed) (hnum : s.Numbered) (hmove : Moves s action s') :
    s'.Doomed := by
  cases hmove with
  | stays hsame _ hclosed _ => exact h.same hsame hclosed.2
  | fails hsame _ _ hclosed _ => exact h.same hsame fun _ => hclosed
  | asks hawaiting hregistered hreleased hwaiters _ hclosed _ =>
      rcases h with ⟨waiter, hmem, hnot, hlost⟩
      -- The number of the new call is not this one's.
      have hne : waiter ≠ s.issued := (hnum.issued waiter hmem).ne
      refine ⟨waiter, hwaiters ▸ List.mem_append_left _ hmem, hreleased ▸ hnot, ?_⟩
      refine hlost.imp hclosed.2 fun hgone => ?_
      rw [hawaiting, hregistered, List.mem_append, List.mem_singleton, not_or]
      exact ⟨⟨hgone.1, hne⟩, hgone.2⟩
  | registers other hawaiting hregistered hreleased hwaiters _ hclosed _ =>
      rcases h with ⟨waiter, hmem, hnot, hlost⟩
      refine ⟨waiter, hwaiters ▸ hmem, hreleased ▸ hnot, hlost.imp hclosed.2 fun hgone => ?_⟩
      rw [hawaiting, List.mem_cons, not_or] at hgone
      rw [hregistered, List.mem_append, List.mem_singleton, not_or]
      exact ⟨hgone.1.2, hgone.2, hgone.1.1⟩
  | skips other hawaiting hregistered hreleased hwaiters _ hclosed _ =>
      rcases h with ⟨waiter, hmem, hnot, hlost⟩
      refine ⟨waiter, hwaiters ▸ hmem, hreleased ▸ hnot, hlost.imp hclosed.2 fun hgone => ?_⟩
      rw [hawaiting, List.mem_cons, not_or] at hgone
      exact ⟨hgone.1.2, hregistered ▸ hgone.2⟩
  | loses _ _ hreleased hwaiters _ hopen hclosed _ =>
      rcases h with ⟨waiter, hmem, hnot, hlost⟩
      have hgone := hlost.resolve_left hopen
      refine ⟨waiter, hwaiters ▸ hmem, ?_, Or.inl hclosed⟩
      rw [hreleased, List.mem_append, not_or]
      exact ⟨hnot, hgone.2⟩

/-- A step that misses the condition strands somebody. -/
theorem Numbered.doomed (h : s.Numbered) (hmove : Moves s action s') (hmisses : ¬ s.InTime action) :
    s'.Doomed := by
  cases hmove with
  | stays _ _ _ hmeets => exact absurd hmeets hmisses
  | registers _ _ _ _ _ _ _ hmeets => exact absurd hmeets hmisses
  | asks _ _ hreleased hwaiters _ hclosed hopen =>
      have hclosed' : s.Closed := not_not.1 fun hnot => hmisses (hopen.2 hnot)
      refine ⟨s.issued, hwaiters ▸ List.mem_append_right _ (List.mem_singleton_self _), ?_,
        Or.inl (hclosed.2 hclosed')⟩
      intro hmem
      have hknown := h.known s.issued (List.mem_append_right _ (hreleased ▸ hmem))
      exact lt_irrefl _ (h.issued _ hknown)
  | skips waiter hawaiting hregistered hreleased hwaiters _ _ _ =>
      have hplaces : s.places = waiter :: s'.places := by
        simp only [places, hawaiting, hregistered, hreleased, List.cons_append]
      have hgone : waiter ∉ s'.places := (List.nodup_cons.1 (hplaces ▸ h.nodup)).1
      simp only [places, List.mem_append, not_or] at hgone
      have hmem := h.known waiter (hplaces ▸ List.mem_cons_self)
      exact ⟨waiter, hwaiters ▸ hmem, hgone.2, Or.inr hgone.1⟩
  | loses hawaiting _ hreleased hwaiters _ _ hclosed hempty =>
      rcases List.exists_mem_of_ne_nil _ (fun hnil => hmisses (hempty.2 hnil)) with ⟨waiter, hmem⟩
      have hplace : waiter ∈ s.places :=
        List.mem_append_left _ (List.mem_append_left _ hmem)
      refine ⟨waiter, hwaiters ▸ h.known waiter hplace, ?_, Or.inl hclosed⟩
      -- It waits for its turn, so it is not on the list that is run through.
      have hnodup := h.nodup
      rw [places, List.append_assoc] at hnodup
      have hapart := List.disjoint_of_nodup_append hnodup hmem
      rw [hreleased, List.mem_append]
      exact fun hboth => hapart (List.mem_append.2 hboth.symm)
  | fails hsame _ _ hclosed hempty =>
      rcases List.exists_mem_of_ne_nil _ (fun hnil => hmisses (hempty.2 hnil)) with ⟨waiter, hmem⟩
      have hplace : waiter ∈ s.places :=
        List.mem_append_left _ (List.mem_append_left _ hmem)
      refine ⟨waiter, hsame.waiters ▸ h.known waiter hplace, ?_, Or.inl hclosed⟩
      have hnodup := h.nodup
      rw [places, List.append_assoc] at hnodup
      have hapart := List.disjoint_of_nodup_append hnodup hmem
      rw [hsame.released]
      exact fun hreleased => hapart (List.mem_append_right _ hreleased)

/-! ## The steps -/

variable [DecidableEq V]

theorem moves_callback : Moves s .callback (s.step env .callback) := by
  cases hchain : s.chain with
  | unfired =>
      have hstep : s.step env .callback = s := by simp [step, hchain]
      rw [hstep]
      exact .refl fun waiter rest reason _ => by simp [hchain]
  | paused call =>
      have hstep : s.step env .callback = s := by simp [step, hchain]
      rw [hstep]
      exact .refl fun waiter rest reason _ => by simp [hchain]
  | result outcome =>
      cases hcallbacks : s.callbacks with
      | nil =>
          have hstep : s.step env .callback = s := by simp [step, hchain, hcallbacks]
          rw [hstep]
          exact .refl fun waiter rest reason h => by simp [hcallbacks] at h
      | cons task rest =>
          have hstep : s.step env .callback =
              { s with callbacks := rest }.runCallback env task outcome := by
            simp [step, hchain, hcallbacks]
          have hawaiting := awaiting_cons hcallbacks
          rw [hstep]
          cases task with
          | call call =>
              have hmeets : s.InTime .callback := by
                intro waiter rest' reason h
                simp [hcallbacks] at h
              cases outcome with
              | value v =>
                  exact .stays ⟨hawaiting.symm, rfl, rfl, rfl⟩ le_rfl Iff.rfl hmeets
              | failure reason =>
                  exact .stays ⟨hawaiting.symm, rfl, rfl, rfl⟩ le_rfl Iff.rfl hmeets
          | disconnector waiter =>
              cases outcome with
              | value protocol =>
                  have hmeets : s.InTime .callback := by
                    intro waiter' rest' reason _
                    simp [hchain]
                  -- Whatever the chain carries, `on_disconnected` is on the list first.
                  by_cases hclient : protocol = env.client
                  · refine .registers waiter ?_ ?_ ?_ ?_ ?_ ?_ hmeets <;>
                      simp only [runCallback, disconnector, if_pos hclient, Closed]
                    exact hawaiting
                  · refine .registers waiter ?_ ?_ ?_ ?_ ?_ ?_ hmeets <;>
                      simp only [runCallback, disconnector, if_neg hclient, Closed]
                    exact hawaiting
              | failure reason =>
                  refine .skips waiter hawaiting rfl rfl rfl rfl Iff.rfl fun hmeets => ?_
                  exact hmeets waiter rest reason hcallbacks hchain

theorem Unstarted.moves_step (h : s.Unstarted) (action : Action V E) :
    Moves s action (s.step env action) := by
  -- An attempt that fails has no callback on the list yet: only the loss runs some.
  cases action with
  | callback => exact moves_callback
  | call =>
      refine .stays ⟨?_, rfl, rfl, rfl⟩ (Nat.le_succ _) Iff.rfl trivial
      exact (awaiting_callFromThread _).trans (List.append_nil _)
  | disconnect =>
      have hasked : (s.callFromThread (.disconnector s.issued)).awaiting = s.awaiting ++ [s.issued] :=
        awaiting_callFromThread _
      exact .asks hasked rfl rfl rfl rfl Iff.rfl Iff.rfl
  | fromThread =>
      unfold step
      cases hthread : s.fromThread with
      | nil => exact .refl trivial
      | cons task rest =>
          refine .stays ⟨?_, rfl, rfl, rfl⟩ le_rfl Iff.rfl trivial
          simp [awaiting, hthread]
  | connected =>
      unfold step
      dsimp only
      split_ifs with hconnecting
      · refine .stays ⟨rfl, rfl, rfl, rfl⟩ le_rfl ?_ trivial
        simp [Closed, hconnecting]
      · exact .refl trivial
  | attemptFailed reason =>
      unfold step
      dsimp only
      split_ifs with hconnecting
      · rcases samePlaces_fire (s := { s with transport := .refused })
          (.failure reason) with ⟨hsame, hissued, htransport⟩
        have hregistered := h.unfired (h.connecting hconnecting)
        refine .fails ⟨hsame.1, hsame.2, hsame.3, hsame.4⟩ hissued hregistered (Or.inr htransport) ?_
        exact ⟨fun hmeets => hmeets hconnecting, fun hempty _ => hempty⟩
      · exact .refl fun h => absurd h hconnecting
  | established =>
      unfold step
      dsimp only
      split_ifs with hconnected
      · rcases samePlaces_fire (s := s) (.value env.client) with ⟨hsame, hissued, htransport⟩
        refine .stays hsame hissued.ge ?_ trivial
        simp [Closed, htransport]
      · exact .refl trivial
  | handshakeFailed reason =>
      unfold step
      dsimp only
      split_ifs with hconnected
      · rcases samePlaces_fire (s := { s with closing := true })
          (.failure reason) with ⟨hsame, hissued, htransport⟩
        refine .stays ⟨hsame.1, hsame.2, hsame.3, hsame.4⟩ hissued.ge ?_ trivial
        simp [Closed, htransport]
      · exact .refl trivial
  | completes outcome =>
      unfold step
      dsimp only
      split
      · exact .stays ⟨rfl, rfl, rfl, rfl⟩ le_rfl Iff.rfl trivial
      · exact .refl trivial
  | connectionLost =>
      unfold step
      dsimp only
      split_ifs with hconnected
      · refine .loses rfl rfl rfl rfl rfl ?_ (Or.inl rfl) ?_
        · simp [Closed, hconnected]
        · exact ⟨fun hmeets => hmeets hconnected, fun hempty _ => hempty⟩
      · exact .refl fun h => absurd h hconnected

omit [DecidableEq V] in
/-- Once the attempt is over and the chain has fired, nothing is asked of them. -/
theorem Unstarted.of_fired (hchain : s.chain ≠ .unfired) (htransport : s.transport ≠ .connecting) :
    s.Unstarted :=
  ⟨fun h => absurd h htransport, fun h => absurd h hchain⟩

omit [DecidableEq V] in
theorem fire_fired (outcome : Outcome V E) : (s.fire outcome).chain ≠ .unfired := by
  unfold fire
  split
  · simp
  · assumption

theorem runCallback_fired (task : Task) (outcome : Outcome V E) :
    (s.runCallback env task outcome).chain ≠ .unfired ∧
      (s.runCallback env task outcome).transport = s.transport := by
  cases task with
  | call call =>
      cases outcome with
      | value v => exact ⟨by simp [runCallback], rfl⟩
      | failure reason => exact ⟨by simp [runCallback], rfl⟩
  | disconnector waiter =>
      cases outcome with
      | value protocol =>
          unfold runCallback disconnector
          dsimp only
          split_ifs
          · exact ⟨by simp, rfl⟩
          · exact ⟨by simp, rfl⟩
      | failure reason => exact ⟨by simp [runCallback], rfl⟩

theorem Unstarted.step (h : s.Unstarted) (action : Action V E) :
    (s.step env action).Unstarted := by
  have hattempt (hfired : s.chain ≠ .unfired) : s.transport ≠ .connecting :=
    fun hconnecting => hfired (h.connecting hconnecting)
  -- No step leads back to `connecting`, and what has been fired stays so.
  cases action with
  | call => exact ⟨h.connecting, h.unfired⟩
  | disconnect => exact ⟨h.connecting, h.unfired⟩
  | fromThread =>
      unfold ThreadedConnection.step
      cases s.fromThread with
      | nil => exact h
      | cons task rest => exact ⟨h.connecting, h.unfired⟩
  | connected =>
      unfold ThreadedConnection.step
      dsimp only
      split_ifs
      · exact ⟨fun hnot => by simp at hnot, h.unfired⟩
      · exact h
  | attemptFailed reason =>
      unfold ThreadedConnection.step
      dsimp only
      split_ifs
      · refine .of_fired (fire_fired _) ?_
        simp [(samePlaces_fire (s := { s with transport := .refused }) (.failure reason)).2.2]
      · exact h
  | established =>
      unfold ThreadedConnection.step
      dsimp only
      split_ifs with hconnected
      · refine .of_fired (fire_fired _) ?_
        simp [(samePlaces_fire (s := s) (.value env.client)).2.2, hconnected]
      · exact h
  | handshakeFailed reason =>
      unfold ThreadedConnection.step
      dsimp only
      split_ifs with hconnected
      · refine .of_fired (fire_fired _) ?_
        have htransport := (samePlaces_fire (s := { s with closing := true }) (.failure reason)).2.2
        exact htransport.trans_ne (by simp [hconnected])
      · exact h
  | callback =>
      unfold ThreadedConnection.step
      dsimp only
      split
      · next outcome task rest hchain hcallbacks =>
          rcases runCallback_fired (s := { s with callbacks := rest }) task outcome with
            ⟨hfired, htransport⟩
          exact .of_fired hfired (htransport.trans_ne (hattempt (by simp [hchain])))
      · exact h
  | completes outcome =>
      unfold ThreadedConnection.step
      dsimp only
      split
      · next call hchain => exact .of_fired (by simp) (hattempt (by simp [hchain]))
      · exact h
  | connectionLost =>
      unfold ThreadedConnection.step
      dsimp only
      split_ifs
      · exact ⟨fun hnot => by simp [clientConnectionLost] at hnot, fun _ => rfl⟩
      · exact h

/-! ## Runs -/

/-- In a state whose transport is closed or was never opened, whether or not the reactor has work
left, every `disconnect()` has been released exactly when every step of the run was in time. -/
theorem allReleased_iff_inTime (env : Returns V E) (actions : List (Action V E))
    (hclosed : (run env actions).Closed) :
    (run env actions).AllReleased ↔
      Throughout (fun s => s.step env) InTime {} actions := by
  have hinit : Numbered ({} : ThreadedConnection V E) :=
    ⟨List.nodup_nil, fun _ hmem => absurd hmem List.not_mem_nil,
      fun _ hmem => absurd hmem List.not_mem_nil⟩
  have hunstarted : Unstarted ({} : ThreadedConnection V E) := ⟨fun _ => rfl, fun _ => rfl⟩
  have haccounted : Accounted ({} : ThreadedConnection V E) :=
    ⟨fun _ hmem => absurd hmem List.not_mem_nil, fun _ => ⟨rfl, rfl⟩⟩
  have hkeeps (s : ThreadedConnection V E) (action : Action V E)
      (h : s.Numbered ∧ s.Unstarted) :
      (s.step env action).Numbered ∧ (s.step env action).Unstarted :=
    ⟨h.1.move (h.2.moves_step action), h.2.step action⟩
  have hrun := throughout_or_doomed (M := InTime) (I := Accounted) (D := Doomed)
    (J := fun s => Numbered s ∧ Unstarted s) hkeeps
    (fun s action h haccounted hmeets => haccounted.move (h.2.moves_step action) hmeets)
    (fun s action h _ hmisses => h.1.doomed (h.2.moves_step action) hmisses)
    (fun s action h hdoomed => hdoomed.move h.1 (h.2.moves_step action))
    ⟨hinit, hunstarted⟩ haccounted actions
  rcases hrun with ⟨hall, hend⟩ | ⟨hnot, hend⟩
  · exact ⟨fun _ => hall, fun _ => hend.allReleased hclosed⟩
  · exact ⟨fun hreleased => absurd hreleased hend.not_allReleased, fun hall => absurd hall hnot⟩

def sampleReturns : Returns (Option Unit) Unit where
  client := some ()
  none := none
  attributeError := fun _ => ()

/-- Two callers, the second of whom finds `None` in the chain. -/
def sampleRun : List (Action (Option Unit) Unit) :=
  [.connected, .established, .call, .disconnect, .fromThread, .callback, .disconnect,
    .completes (.value (some ())), .fromThread, .fromThread, .callback, .callback, .connectionLost]

theorem allReleased_iff_inTime_sample :
    (run sampleReturns sampleRun).Closed ∧
      ((run sampleReturns sampleRun).AllReleased ↔
        Throughout (fun s => s.step sampleReturns) InTime {} sampleRun) :=
  ⟨Or.inl rfl, allReleased_iff_inTime sampleReturns sampleRun (Or.inl rfl)⟩

/-- The attempt fails, and `disconnect()` is called. -/
def refusedRun : List (Action (Option Unit) Unit) :=
  [.attemptFailed (), .disconnect, .fromThread, .callback]

theorem not_allReleased_refused :
    (run sampleReturns refusedRun).Quiet ∧
      (run sampleReturns refusedRun).Closed ∧
        ¬ (run sampleReturns refusedRun).AllReleased := by
  refine ⟨⟨rfl, Or.inl rfl, by decide⟩, Or.inr rfl, fun hall => ?_⟩
  exact absurd (hall 0 (by decide)) (by decide)

end ThreadedConnection

end Vncdotool
