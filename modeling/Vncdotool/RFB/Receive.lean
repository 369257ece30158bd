import Vncdotool.Streaming.Effects
import Vncdotool.Streaming.Loop
import Vncdotool.RFB.Handshake
import Vncdotool.RFB.Encodings

/-!
# Receive — `dataReceived` and the loop of `_handleExpected`

A `Connection` is a client with the bytes it has not consumed and the exception, if any, that
escaped the last `dataReceived`.  A call is `enter`, what happens before the loop, followed by
`iterate` until the loop condition fails.  The loop need not come to rest, so a call is the relation
`Returns`; `dataReceived` runs it with a budget of handler invocations.
-/

namespace Vncdotool

open Wire Streaming

variable {σ : Type} (rt : Runtime σ)

/-- Call the parked handler with its block. -/
def Handler.run (block : Bytes) : Handler → Py σ Unit
  | .numberSecurityTypes => RFBClient.handleNumberSecurityTypes block
  | .securityTypes => RFBClient.handleSecurityTypes rt block
  | .auth => RFBClient.handleAuth rt block
  | .connFailed => RFBClient.handleConnFailed block
  | .connMessage => RFBClient.handleConnMessage rt block
  | .vncAuth => RFBClient.handleVNCAuth rt block
  | .dhAuth => RFBClient.handleDHAuth block
  | .dhAuthKey => RFBClient.handleDHAuthKey block
  | .dhAuthCert => RFBClient.handleDHAuthCert rt block
  | .vncAuthResult => RFBClient.handleVNCAuthResult rt block
  | .authFailed => RFBClient.handleAuthFailed block
  | .authFailedMessage => RFBClient.handleAuthFailedMessage rt block
  | .serverInit => RFBClient.handleServerInit block
  | .serverName => RFBClient.handleServerName rt block
  | .connection => RFBClient.handleConnection rt block
  | .framebufferUpdate => RFBClient.handleFramebufferUpdate rt block
  | .rectangle => RFBClient.handleRectangle rt block
  | .pumpBlock generator finish => RFBClient.pumpBlock rt block generator finish
  | .decodeRRE rect => RFBClient.handleDecodeRRE rt rect block
  | .rreSubRectangles topx topy => RFBClient.handleRRESubRectangles rt topx topy block
  | .decodeCORRE rect => RFBClient.handleDecodeCORRE rt rect block
  | .decodeCORRERectangles topx topy => RFBClient.handleDecodeCORRERectangles topx topy block
  | .decodeHextile tile => RFBClient.handleDecodeHextile rt tile block
  | .decodeHextileSubrect subencoding tile tw th =>
      RFBClient.handleDecodeHextileSubrect rt subencoding tile tw th block
  | .decodeHextileRAW tile tw th => RFBClient.handleDecodeHextileRAW rt tile tw th block
  | .decodeHextileSubrectsColoured tile =>
      RFBClient.handleDecodeHextileSubrectsColoured rt tile block
  | .decodeHextileSubrectsFG tile => RFBClient.handleDecodeHextileSubrectsFG rt tile block
  | .decodeZRLE rect => RFBClient.handleDecodeZRLE rect block
  | .decodeZRLEdata rect => RFBClient.handleDecodeZRLEdata rt rect block
  | .decodePseudoCursor rect => RFBClient.handleDecodePseudoCursor rt rect block
  | .colourMapEntries => RFBClient.handleColourMapEntries block
  | .colourMapEntriesValue first => RFBClient.handleColourMapEntriesValue rt first block
  | .serverCutText => RFBClient.handleServerCutText block
  | .serverCutTextValue => RFBClient.handleServerCutTextValue rt block

structure Connection (σ : Type) where
  client : RFBClient σ
  packet : Bytes := []
  raised : Option PyError := none
  deriving DecidableEq, Repr

namespace Connection

/-- The connection after a handler, `rest` being the bytes behind its block: an aborted client has
cleared its buffer. -/
def resume (rest : Bytes) : EStateM.Result PyError (RFBClient σ) Unit → Connection σ
  | .ok _ c => { client := c, packet := if c.aborted then [] else rest }
  | .error exc c => { client := c, packet := if c.aborted then [] else rest, raised := some exc }

/-- The handler that the loop of `_handleExpected` is about to call, with its block. -/
def pending (conn : Connection σ) : Option (Handler × Bytes) :=
  if conn.client.stage = .handleExpected ∧ conn.client.aborted = false ∧ conn.raised = none ∧
      conn.client.expectedLen ≤ conn.packet.length then
    some (conn.client.expectedHandler, conn.packet.take conn.client.expectedLen)
  else
    none

/-- One turn of `while len(self._packet) >= self._expected_len and not self._aborted`. -/
def iterate (conn : Connection σ) : Option (Connection σ) :=
  match conn.pending with
  | none => none
  | some (handler, block) =>
      some (resume (conn.packet.drop conn.client.expectedLen) (handler.run rt block conn.client))

/-- `_handleInitial` on what has arrived so far. -/
def greet (conn : Connection σ) : Connection σ :=
  match RFBClient.handleInitial rt conn.packet conn.client with
  | .ok rest c => { client := c, packet := rest }
  | .error exc c => { client := c, packet := conn.packet, raised := some exc }

/-- `dataReceived(data)` up to the loop. -/
def enter (conn : Connection σ) (data : Bytes) : Connection σ :=
  if conn.client.aborted then conn
  else
    let conn := { conn with packet := conn.packet ++ data, raised := none }
    match conn.client.stage with
    | .handleInitial => conn.greet rt
    | .handleExpected => conn

/-- `dataReceived(data)` on `conn` returns, or raises, leaving `conn'`. -/
def Returns (conn : Connection σ) (data : Bytes) (conn' : Connection σ) : Prop :=
  HaltsAt (iterate rt) (conn.enter rt data) conn'

/-- `dataReceived(data)`, given up on after `fuel` handler invocations. -/
def dataReceived (fuel : ℕ) (conn : Connection σ) (data : Bytes) : Option (Connection σ) :=
  run (iterate rt) fuel (conn.enter rt data)

theorem exists_dataReceived_iff {conn conn' : Connection σ} {data : Bytes} :
    (∃ fuel, dataReceived rt fuel conn data = some conn') ↔ conn.Returns rt data conn' :=
  exists_run_iff_haltsAt

/-- A connection as `makeConnection` leaves it. -/
def init (app : σ) (factory : Factory) : Connection σ :=
  { client := { app := app, factory := factory } }

/-! ## When the loop can turn -/

variable {rt}

theorem pending_eq_some_iff {conn : Connection σ} {handler : Handler} {block : Bytes} :
    conn.pending = some (handler, block) ↔
      (conn.client.stage = .handleExpected ∧ conn.client.aborted = false ∧ conn.raised = none ∧
        conn.client.expectedLen ≤ conn.packet.length) ∧
      handler = conn.client.expectedHandler ∧
      block = conn.packet.take conn.client.expectedLen := by
  unfold pending
  split_ifs with h
  · constructor
    · intro heq
      cases heq
      exact ⟨h, rfl, rfl⟩
    · rintro ⟨_, rfl, rfl⟩
      rfl
  · constructor
    · intro heq
      cases heq
    · intro heq
      exact absurd heq.1 h

/-- The loop condition. -/
theorem pending_ne_none_iff {conn : Connection σ} :
    conn.pending ≠ none ↔
      conn.client.stage = .handleExpected ∧ conn.client.aborted = false ∧ conn.raised = none ∧
        conn.client.expectedLen ≤ conn.packet.length := by
  unfold pending
  split_ifs with h
  · exact ⟨fun _ => h, fun _ => nofun⟩
  · exact ⟨fun hne => absurd rfl hne, fun h' => absurd h' h⟩

theorem iterate_eq_none_iff {conn : Connection σ} :
    iterate rt conn = none ↔ conn.pending = none := by
  unfold iterate
  cases conn.pending with
  | none => exact ⟨fun _ => rfl, fun _ => rfl⟩
  | some called => exact ⟨nofun, nofun⟩

/-- A turn of the loop runs the parked handler on its block. -/
theorem iterate_eq_some_iff {conn conn' : Connection σ} :
    iterate rt conn = some conn' ↔
      ∃ handler block, conn.pending = some (handler, block) ∧
        conn' = resume (conn.packet.drop conn.client.expectedLen)
          (handler.run rt block conn.client) := by
  unfold iterate
  cases conn.pending with
  | none => exact ⟨nofun, nofun⟩
  | some called =>
      constructor
      · intro heq
        exact ⟨called.1, called.2, rfl, (Option.some.inj heq).symm⟩
      · rintro ⟨handler, block, heq, rfl⟩
        cases heq
        rfl

/-- The client after a turn. -/
theorem client_iterate {conn conn' : Connection σ} (h : iterate rt conn = some conn') :
    ∃ handler block, conn.pending = some (handler, block) ∧
      conn'.client = finalState ((handler.run rt block).run conn.client) := by
  rcases iterate_eq_some_iff.1 h with ⟨handler, block, hpending, rfl⟩
  refine ⟨handler, block, hpending, ?_⟩
  unfold resume EStateM.run
  cases handler.run rt block conn.client with
  | ok _ c => rfl
  | error exc c => rfl

/-- What a handler ensures if it does not raise. -/
theorem of_iterate {conn conn' : Connection σ} {handler : Handler} {block : Bytes}
    {Q : RFBClient σ → Prop} (hpending : conn.pending = some (handler, block))
    (h : iterate rt conn = some conn') (hraised : conn'.raised = none)
    (hrun : Ensures (handler.run rt block) conn.client (fun _ => Q) fun _ _ => True) :
    Q conn'.client := by
  rcases iterate_eq_some_iff.1 h with ⟨handler', block', hpending', rfl⟩
  cases hpending.symm.trans hpending'
  unfold Ensures EStateM.run at hrun
  cases hresult : handler.run rt block conn.client with
  | ok _ c =>
      rw [hresult] at hrun
      exact hrun
  | error exc c =>
      rw [hresult] at hraised
      exact nomatch hraised

end Connection

end Vncdotool
