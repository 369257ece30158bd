import Mathlib.Data.List.Basic

/-!
# ThreadedProxy — the synchronous API

`ThreadedVNCClientProxy` lets one application thread call the methods of a client that lives in the
reactor's thread.  A call hands a function to the reactor, which adds a callback to the factory's
`Deferred`; the callback runs the method on whatever the previous callback returned, and the outcome
travels back through a queue.  Calls are numbered in the order they are made, and what a call's
method does is left open: it completes at any time, with any outcome.

Of Twisted the documented behaviour is used: `callFromThread` keeps the order, the callbacks of a
`Deferred` run one after the other once it has fired, each on what the one before it returned, and
a callback that returns a `Deferred` holds up those behind it until that has fired.
-/

namespace Vncdotool

/-- What a method returns, or the failure of it. -/
inductive Outcome (V E : Type)
  | value (v : V)
  | failure (reason : E)
  deriving DecidableEq, Repr

/-- How far the callbacks of the factory's `Deferred` have got. -/
inductive Chain (V E : Type)
  /-- The client is not connected yet. -/
  | unfired
  | result (outcome : Outcome V E)
  /-- The method of this call has returned a `Deferred` of its own. -/
  | paused (call : ℕ)
  deriving DecidableEq, Repr

/-- How a call ended for the application: with an entry of the queue, or with a `TimeoutError`. -/
inductive Answer (V E : Type)
  | got (call : ℕ) (outcome : Outcome V E)
  | timeoutError
  deriving DecidableEq, Repr

/-- The proxy, its caller, and what has happened so far.  An entry of the queue bears the call that
put it there. -/
structure ThreadedVNCClientProxy (V E : Type) where
  fromThread : List ℕ := []
  callbacks : List ℕ := []
  chain : Chain V E := .unfired
  queue : List (ℕ × Outcome V E) := []
  issued : ℕ := 0
  waiting : Option ℕ := none
  /-- The connection attempt failed. -/
  notConnected : Bool := false
  /-- The calls whose turn has come, with what their method was run on, if it was. -/
  turns : List (ℕ × Option V) := []
  returned : List (ℕ × Answer V E) := []
  /-- A call's outcome has arrived after that call had timed out. -/
  late : Bool := false
  deriving DecidableEq, Repr

namespace ThreadedVNCClientProxy

inductive Action (V E : Type)
  /-- The application calls a method. -/
  | call
  /-- The reactor runs the next function handed to `callFromThread`. -/
  | fromThread
  | connected
  | connectionFailed (reason : E)
  /-- The `Deferred` runs its next callback or errback. -/
  | callback
  /-- The method whose turn it is completes. -/
  | completes (outcome : Outcome V E)
  /-- `self.queue.get` returns. -/
  | get
  /-- `self.queue.get` raises `queue.Empty`. -/
  | timeout
  deriving DecidableEq, Repr

variable {V E : Type} (proxy : ThreadedVNCClientProxy V E)

/-- `self.queue.put(result)`, in the turn of a call. -/
def put (call : ℕ) (outcome : Outcome V E) : ThreadedVNCClientProxy V E :=
  { proxy with
    queue := proxy.queue ++ [(call, outcome)]
    late := proxy.late || proxy.waiting != some call }

/-- `callable_threaded_proxy` up to `queue.get`. -/
def callableThreadedProxy : ThreadedVNCClientProxy V E :=
  { proxy with
    fromThread := proxy.fromThread ++ [proxy.issued]
    issued := proxy.issued + 1
    waiting := some proxy.issued }

/-- `threaded_call`: run the method on what it is handed. -/
def threadedCall (call : ℕ) (protocol : V) : ThreadedVNCClientProxy V E :=
  { proxy with chain := .paused call, turns := proxy.turns ++ [(call, some protocol)] }

/-- `result_callback`: the outcome goes to the queue, and to the next callback. -/
def resultCallback (call : ℕ) (outcome : Outcome V E) : ThreadedVNCClientProxy V E :=
  { proxy with chain := .result outcome }.put call outcome

/-- `errback_not_connected`: the reason goes to the queue, and to the next errback. -/
def errbackNotConnected (call : ℕ) (reason : E) : ThreadedVNCClientProxy V E :=
  { proxy with turns := proxy.turns ++ [(call, none)] }.put call (.failure reason)

/-- One event; one that cannot happen changes nothing. -/
def step (client : V) : Action V E → ThreadedVNCClientProxy V E
  | .call => if proxy.waiting.isNone then proxy.callableThreadedProxy else proxy
  | .fromThread =>
      match proxy.fromThread with
      | [] => proxy
      | call :: rest =>
          { proxy with fromThread := rest, callbacks := proxy.callbacks ++ [call] }
  | .connected =>
      match proxy.chain with
      | .unfired => { proxy with chain := .result (.value client) }
      | _ => proxy
  | .connectionFailed reason =>
      match proxy.chain with
      | .unfired => { proxy with chain := .result (.failure reason), notConnected := true }
      | _ => proxy
  -- The chain runs its next callback only when the one before it has a result.
  | .callback =>
      match proxy.chain, proxy.callbacks with
      | .result (.value v), call :: rest => { proxy with callbacks := rest }.threadedCall call v
      | .result (.failure reason), call :: rest =>
          { proxy with callbacks := rest }.errbackNotConnected call reason
      | _, _ => proxy
  | .completes outcome =>
      match proxy.chain with
      | .paused call => proxy.resultCallback call outcome
      | _ => proxy
  -- Whatever is first in the queue is taken, whichever call it belongs to.
  | .get =>
      match proxy.waiting, proxy.queue with
      | some waiting, (call, outcome) :: rest =>
          { proxy with
            queue := rest
            waiting := none
            returned := proxy.returned ++ [(waiting, .got call outcome)] }
      | _, _ => proxy
  -- The call goes on: its result will still be put into the queue.
  | .timeout =>
      match proxy.waiting, proxy.queue with
      | some waiting, [] =>
          { proxy with
            waiting := none
            returned := proxy.returned ++ [(waiting, .timeoutError)] }
      | _, _ => proxy

end ThreadedVNCClientProxy

end Vncdotool
