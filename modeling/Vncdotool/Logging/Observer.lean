import Vncdotool.Client.Session
import Vncdotool.Proxy.Server
import Vncdotool.Streaming.Runs

/-!
# Observer — the pixel format of the logging client

Behind the proxy's back a `VNCLoggingClient` decodes what the server sends.  It joins the session
when the real client's ClientInit passes through, at the ServerInit, and writes into a transport
that goes nowhere: what its own `setImageMode` asks of the server is never asked, and what the real
client asks of it, `handle_setPixelFormat` lets go.  So the format in which the observer decodes is
settled by the ServerInit alone.
-/

namespace Vncdotool

open Wire Streaming

/-! ## The logging client -/

namespace VNCLoggingClient

variable {P : Pillow}

/-- `vncProtocolError`: the proxy's factory has no `clientConnectionFailed`. -/
def vncProtocolError (reason : ProtocolFailure) : Py (VNCDoToolClient P) Unit := do
  record (.callback (.vncProtocolError reason))
  throw .attributeError

/-- `vncConnectionMade` with the settings of a `VNCLoggingServerFactory`, whose
`clientConnectionMade` does nothing. -/
def vncConnectionMade : Py (VNCDoToolClient P) Unit := do
  VNCDoToolClient.setImageMode vncProtocolError
  RFBClient.setEncodings ((VNCDoToolClient.encodings {}).map Encoding.value)

/-- The overridden callbacks.  `capture_file` is never set, so that `commitUpdate` does nothing. -/
def override (env : Env) : Callback → Py (VNCDoToolClient P) Unit
  | .vncConnectionMade => vncConnectionMade
  | .vncRequestPassword => do
      loseConnection
      throw .attributeError
  | .vncAuthFailed _ => throw .attributeError
  | .vncProtocolError _ => throw .attributeError
  | .commitUpdate _ => pure ()
  | cb => VNCDoToolClient.override env cb

def runtime (P : Pillow) (env : Env) : Runtime (VNCDoToolClient P) where
  env := env
  override := override env

end VNCLoggingClient

/-- The logging client of a proxied session, with what the server has sent since it joined. -/
structure Observer (P : Pillow) where
  conn : Connection (VNCDoToolClient P)
  heard : Bytes := []

namespace Observer

variable {P : Pillow}

/-- `startLogging`. -/
def start (factory : Factory) : Observer P where
  conn :=
    { client :=
        { stage := .handleExpected, expectedHandler := .serverInit, expectedLen := 24,
          factory := factory, app := {} } }

/-- `dataReceived` of the logging client, up to the loop. -/
def hear (env : Env) (o : Observer P) (data : Bytes) : Observer P where
  conn := o.conn.enter (VNCLoggingClient.runtime P env) data
  heard := o.heard ++ data

/-- A turn of its loop, unless that is at rest. -/
def turn (env : Env) (o : Observer P) : Observer P :=
  { o with conn := (o.conn.iterate (VNCLoggingClient.runtime P env)).getD o.conn }

/-- The format that the ServerInit announces. -/
def native (o : Observer P) : PixelFormat :=
  PixelFormat.fromBytes (slice o.heard 4 16)

end Observer

/-! ## A proxied session -/

/-- The two observers of a proxied session: the parser of the client's bytes, which starts the
logging client, and that one. -/
structure Observed (P : Pillow) where
  parser : Parser (Option (Observer P))
  /-- The format of the last SetPixelFormat that has passed through. -/
  format : Option PixelFormat := none

/-- What happens in a proxied session. -/
inductive Passage
  /-- Bytes of the client's: of its part of the handshake, or of any message but SetPixelFormat. -/
  | client (data : Bytes)
  /-- A SetPixelFormat of the client's. -/
  | setPixelFormat (args : Bytes)
  /-- A turn of the parser's loop. -/
  | parse
  /-- Bytes of the server's. -/
  | server (data : Bytes)
  /-- A turn of the logging client's loop. -/
  | observe

namespace Observed

variable {P : Pillow}

/-- `_handle_clientInit` ends with `self.peer.startLogging(self)`. -/
def hooks (P : Pillow) (factory : Factory) : Hooks (Option (Observer P)) where
  clientInit _ := .ok (some (Observer.start factory))

/-- The logging client, once there is one. -/
def observer (s : Observed P) : Option (Observer P) :=
  s.parser.server.app

/-- `f` is done to the logging client. -/
def observe (f : Observer P → Observer P) (s : Observed P) : Observed P :=
  { s with
    parser :=
      { s.parser with server := { s.parser.server with app := s.observer.map f } } }

def passes (env : Env) (factory : Factory) (s : Observed P) : Passage → Observed P
  | .client data => { s with parser := s.parser.enter data }
  | .setPixelFormat args =>
      { parser := s.parser.enter (packBE 1 (MsgC2S.value .setPixelFormat) ++ [0, 0, 0] ++ args)
        format := some (PixelFormat.fromBytes args) }
  | .parse => { s with parser := (s.parser.iterate (hooks P factory)).getD s.parser }
  | .server data => s.observe fun o => o.hear env data
  | .observe => s.observe (Observer.turn env)

def init (P : Pillow) (passwordRequired : Bool) : Observed P where
  parser := Parser.init passwordRequired none

/-- The format in force: that of the last SetPixelFormat, or else that of the ServerInit. -/
def inForce (s : Observed P) (o : Observer P) : PixelFormat :=
  s.format.getD o.native

end Observed

/-- The handlers of a FramebufferUpdate. -/
def Handler.Updates : Handler → Prop
  | .framebufferUpdate => True
  | .rectangle => True
  | .pumpBlock _ _ => True
  | .decodeRRE _ => True
  | .rreSubRectangles _ _ => True
  | .decodeCORRE _ => True
  | .decodeCORRERectangles _ _ => True
  | .decodeHextile _ => True
  | .decodeHextileSubrect _ _ _ _ => True
  | .decodeHextileRAW _ _ _ => True
  | .decodeHextileSubrectsColoured _ => True
  | .decodeHextileSubrectsFG _ => True
  | .decodeZRLE _ => True
  | .decodeZRLEdata _ => True
  | .decodePseudoCursor _ => True
  | _ => False

/-- The logging client is in a FramebufferUpdate. -/
def Observer.Updating {P : Pillow} (o : Observer P) : Prop :=
  o.conn.client.aborted = false ∧ o.conn.client.expectedHandler.Updates

/-- The FramebufferUpdate is what comes next. -/
def Observer.AtUpdate {P : Pillow} (o : Observer P) : Prop :=
  ∃ block, o.conn.pending = some (.connection, block) ∧
    MsgS2C.lookup (field block 0 1) = some .framebufferUpdate

/-- What a logging client settles on when a server announces this format. -/
def PixelFormat.settled (native : PixelFormat) : PixelFormat :=
  match native.rawMode with
  | .ok _ => native
  | .error _ => PixelFormat.rgbx8888

namespace Observed

variable {P : Pillow}

/-- In a FramebufferUpdate, the logging client decodes in the format that is in force. -/
def Follows (s : Observed P) : Prop :=
  ∀ o, s.observer = some o → o.Updating → o.conn.client.pixelFormat = s.inForce o

/-- The condition: where a FramebufferUpdate begins, the format in force is the one that Pillow can
read of the server's own and `rgbx8888`, and inside of one it is not replaced by another. -/
def Meets (s : Observed P) : Passage → Prop
  | .setPixelFormat args =>
      ∀ o, s.observer = some o → o.Updating → PixelFormat.fromBytes args = o.native.settled
  | .observe => ∀ o, s.observer = some o → o.AtUpdate → s.inForce o = o.native.settled
  | _ => True

end Observed

/-! ## What the logging client does to its format -/

theorem PixelFormat.settled_of_ok {native : PixelFormat} {mode : RawMode}
    (h : native.rawMode = .ok mode) : native.settled = native := by
  unfold PixelFormat.settled
  rw [h]

theorem PixelFormat.settled_of_error {native : PixelFormat} {exc : UnsupportedPixelFormat}
    (h : native.rawMode = .error exc) : native.settled = PixelFormat.rgbx8888 := by
  unfold PixelFormat.settled
  rw [h]

theorem PixelFormat.rawMode_rgbx8888 : PixelFormat.rgbx8888.rawMode = .ok .RGBX := by
  decide +kernel

/-- The format that is settled on can be read. -/
theorem PixelFormat.rawMode_settled (native : PixelFormat) :
    ∃ mode, native.settled.rawMode = .ok mode := by
  cases hmode : native.rawMode with
  | ok mode =>
      rw [settled_of_ok hmode]
      exact ⟨mode, hmode⟩
  | error exc =>
      rw [settled_of_error hmode]
      exact ⟨.RGBX, rawMode_rgbx8888⟩

namespace VNCLoggingClient

variable {P : Pillow} {env : Env}

/-- A client that decodes in the format `pf`, and has not been told of another, still does. -/
def Stays (pf : PixelFormat) (c c' : RFBClient (VNCDoToolClient P)) : Prop :=
  c.pixelFormat = pf ∧ c.app.requestedPixelFormat = none →
    c'.pixelFormat = pf ∧ c'.app.requestedPixelFormat = none

theorem stays_of_eq {pf : PixelFormat} {c c' : RFBClient (VNCDoToolClient P)}
    (hformat : c'.pixelFormat = c.pixelFormat)
    (hrequested : c'.app.requestedPixelFormat = c.app.requestedPixelFormat) : Stays pf c c' :=
  fun h => ⟨hformat.trans h.1, hrequested.trans h.2⟩

instance instReflStays (pf : PixelFormat) : Std.Refl (@Stays P pf) :=
  ⟨fun _ h => h⟩

instance instTransStays (pf : PixelFormat) :
    IsTrans (RFBClient (VNCDoToolClient P)) (Stays pf) :=
  ⟨fun _ _ _ h h' hc => h' (h hc)⟩

theorem stays_record (pf : PixelFormat) (event : Event) :
    Respects (@Stays P pf) (record event) :=
  fun _ => stays_of_eq rfl rfl

/-- A format that can be read is kept by `setImageMode`. -/
theorem stays_setImageMode {pf : PixelFormat} {mode : RawMode} (hmode : pf.rawMode = .ok mode) :
    Respects (@Stays P pf) (VNCDoToolClient.setImageMode vncProtocolError) := by
  rintro c ⟨rfl, hrequested⟩
  have halternative : VNCDoToolClient.alternative c = none := by
    unfold VNCDoToolClient.alternative
    rw [hrequested]
    dsimp only
    rw [hmode]
  unfold EStateM.run
  rw [VNCDoToolClient.setImageMode_native halternative hmode]
  exact ⟨rfl, hrequested⟩

theorem stays_override {pf : PixelFormat} {mode : RawMode} (hmode : pf.rawMode = .ok mode)
    (cb : Callback) : Respects (@Stays P pf) (override env cb) := by
  have hpaints (h : VNCDoToolClient.Callback.OnlyPaints cb) :
      Respects (@Stays P pf) (VNCDoToolClient.override env cb) := by
    intro c
    have hkept := VNCDoToolClient.paints_override env h c
    refine stays_of_eq ?_ hkept.app.requestedPixelFormat
    rw [hkept.parser]
  cases cb with
  | vncConnectionMade =>
      exact respects_bind (stays_setImageMode hmode) fun _ =>
        VNCDoToolClient.respects_setEncodings (fun event _ => stays_record pf event) _
  | vncRequestPassword => exact respects_bind (stays_record pf _) fun _ => respects_throw _
  | vncAuthFailed reason => exact respects_throw _
  | vncProtocolError reason => exact respects_throw _
  | commitUpdate rectangles => exact respects_pure _
  | _ => exact hpaints trivial

theorem stays_call {pf : PixelFormat} {mode : RawMode} (hmode : pf.rawMode = .ok mode)
    (cb : Callback) : Respects (@Stays P pf) ((runtime P env).call cb) :=
  respects_bind (stays_record pf _) fun _ => stays_override hmode cb

theorem maintains_stays {pf : PixelFormat} {mode : RawMode} (hmode : pf.rawMode = .ok mode) :
    Maintains (runtime P env) (Stays pf) where
  refl := refl_of (Stays pf)
  trans := fun _ _ _ => trans_of (Stays pf)
  write := fun _ => stays_record pf _
  loseConnection := stays_record pf _
  state := by
    intro c c' _ happ hframe
    exact stays_of_eq (congrArg (fun frame => frame.2.2) hframe)
      (congrArg VNCDoToolClient.requestedPixelFormat happ)
  call := fun c cb _ => stays_call hmode cb c

/-- Past the ServerInit no handler changes a format that can be read. -/
theorem stays_run {pf : PixelFormat} {mode : RawMode} (hmode : pf.rawMode = .ok mode)
    {handler : Handler} (hhandler : handler ≠ .serverInit) (block : Bytes) :
    Respects (@Stays P pf) (handler.run (runtime P env) block) := by
  have htold : Told (runtime P env) (Stays pf) := fun cb _ => stays_call hmode cb
  intro c
  exact (maintains_stays hmode).run_at (fun _ => htold) (fun heq => absurd heq hhandler)
    (Or.inr htold)

/-! ## The loop -/

theorem held_setImageMode :
    Respects (@Held (VNCDoToolClient P)) (VNCDoToolClient.setImageMode vncProtocolError) := by
  have hmode (mode : RawMode) : Respects (@Held (VNCDoToolClient P))
      (VNCDoToolClient.modifyApp fun app => { app with imageMode := mode }) :=
    fun _ => ⟨rfl, rfl, rfl, rfl⟩
  have hformat (pf : PixelFormat) :
      Respects (@Held (VNCDoToolClient P)) (VNCDoToolClient.setPixelFormat pf) :=
    respects_ite (fun _ _ => ⟨rfl, rfl, rfl, rfl⟩) fun _ => respects_throw _
  refine respects_bind respects_get fun c => ?_
  cases VNCDoToolClient.alternative c with
  | none =>
      dsimp only
      cases c.pixelFormat.rawMode with
      | ok mode => exact hmode mode
      | error exc => exact respects_pure _
  | some pf =>
      dsimp only
      cases pf.rawMode with
      | ok mode => exact respects_bind (hformat pf) fun _ => hmode mode
      | error exc =>
          refine respects_bind ?_ fun _ => VNCDoToolClient.held_record _
          exact respects_bind (VNCDoToolClient.held_record _) fun _ => respects_throw _

theorem held_override (cb : Callback) :
    Respects (@Held (VNCDoToolClient P)) (override env cb) := by
  have hheld : Respects (@Held (VNCDoToolClient P)) (VNCDoToolClient.override env cb) :=
    VNCDoToolClient.held_override cb
  cases cb with
  | vncConnectionMade =>
      exact respects_bind held_setImageMode fun _ =>
        VNCDoToolClient.respects_setEncodings (fun event _ => VNCDoToolClient.held_record event) _
  | vncRequestPassword =>
      exact respects_bind (VNCDoToolClient.held_record _) fun _ => respects_throw _
  | vncAuthFailed reason => exact respects_throw _
  | vncProtocolError reason => exact respects_throw _
  | commitUpdate rectangles => exact respects_pure _
  | _ => exact hheld

theorem runtime_tame : (runtime P env).Tame :=
  fun cb c => (held_override cb).ensures c

/-! ## Joining a session -/

/-- What becomes of the format that was announced: the transport takes the request for another one
without a word. -/
theorem run_setImageMode {c : RFBClient (VNCDoToolClient P)}
    (hrequested : c.app.requestedPixelFormat = none) (hversion : c.versionServer = ⟨0, 0⟩) :
    ∃ c', VNCDoToolClient.setImageMode vncProtocolError c = .ok () c' ∧ Held c c' ∧
      c'.pixelFormat = c.pixelFormat.settled ∧ c'.app.requestedPixelFormat = none := by
  cases hmode : c.pixelFormat.rawMode with
  | ok mode =>
      have halternative : VNCDoToolClient.alternative c = none := by
        unfold VNCDoToolClient.alternative
        rw [hrequested]
        dsimp only
        rw [hmode]
      refine ⟨_, VNCDoToolClient.setImageMode_native halternative hmode, ?_, ?_, hrequested⟩
      · exact ⟨rfl, rfl, rfl, rfl⟩
      · exact (PixelFormat.settled_of_ok hmode).symm
  | error exc =>
      have happle : c.versionServer ≠ ⟨3, 889⟩ := by
        rw [hversion]
        decide
      have halternative : VNCDoToolClient.alternative c = some PixelFormat.rgbx8888 := by
        unfold VNCDoToolClient.alternative
        rw [hrequested]
        dsimp only
        rw [hmode]
        exact if_neg happle
      have hpackable : RFBClient.Packable PixelFormat.rgbx8888 := by decide
      have hasked := @VNCDoToolClient.setImageMode_asked P vncProtocolError c PixelFormat.rgbx8888
        .RGBX halternative PixelFormat.rawMode_rgbx8888
      rw [VNCDoToolClient.setPixelFormat, if_pos hpackable] at hasked
      refine ⟨_, hasked, ?_, ?_, hrequested⟩
      · exact ⟨rfl, rfl, rfl, rfl⟩
      · exact (PixelFormat.settled_of_error hmode).symm

theorem ensures_serverName {c : RFBClient (VNCDoToolClient P)} {block : Bytes}
    (hrequested : c.app.requestedPixelFormat = none) (hversion : c.versionServer = ⟨0, 0⟩) :
    Ensures (RFBClient.handleServerName (runtime P env) block) c
      (fun _ c' => c'.expectedHandler = .connection ∧ c'.stage = c.stage ∧
        c'.pixelFormat = c.pixelFormat.settled ∧ c'.app.requestedPixelFormat = none)
      fun _ _ => False := by
  let c₁ : RFBClient (VNCDoToolClient P) :=
    { c with name := block, log := c.log ++ [.callback .vncConnectionMade] }
  rcases @run_setImageMode P c₁ hrequested hversion with ⟨c₂, himage, hheld, hformat, hrequested'⟩
  rcases PixelFormat.rawMode_settled c.pixelFormat with ⟨mode, hmode⟩
  have hencodings := VNCDoToolClient.ensures_setEncodings ({} : VNCDoToolFactory) c₂
  have hstays := (VNCDoToolClient.respects_setEncodings
    (fun event _ => stays_record c.pixelFormat.settled event)
    ((VNCDoToolClient.encodings {}).map Encoding.value)).ensures c₂
  have hloop := (VNCDoToolClient.respects_setEncodings
    (fun event _ => @VNCDoToolClient.held_record P event)
    ((VNCDoToolClient.encodings {}).map Encoding.value)).ensures c₂
  refine ensures_bind.2 (ensures_bind.2 (ensures_bind.2 ?_))
  change Ensures (VNCDoToolClient.setImageMode vncProtocolError >>= fun _ => _) c₁ _ _
  refine ensures_bind.2 ((ensures_of_run_ok himage).2 ?_)
  refine Ensures.mono ((hencodings.and hstays).and hloop) ?_ ?_
  · intro _ c₃ hall
    have hkept := hall.1.2 ⟨hformat, hrequested'⟩
    exact ⟨rfl, hall.2.stage.trans hheld.stage, hkept.1, hkept.2⟩
  · exact fun _ _ hall => hall.1.1

end VNCLoggingClient

/-! ## Where a logging client can be -/

/-- Which handlers begin a FramebufferUpdate: the dispatch of messages alone. -/
theorem Handler.Arms.updates {h : Handler} {armed : Handler × ℕ} (harms : h.Arms armed)
    (hnot : ¬ h.Updates) (hupdates : armed.1.Updates) :
    h = .connection ∧ armed.1 = .framebufferUpdate := by
  rcases armed with ⟨h', n⟩
  cases h <;> simp only [Arms, Prod.mk.injEq, List.mem_cons, List.not_mem_nil] at harms <;>
    grind [Updates]

/-- Only a FramebufferUpdate is dispatched to its handler. -/
theorem updates_of_connection {σ : Type} {rt : Runtime σ} (htame : rt.Tame) {c : RFBClient σ}
    {block : Bytes} :
    Ensures (RFBClient.handleConnection rt block) c
      (fun _ c' => c'.expectedHandler = .framebufferUpdate →
        c.expectedHandler = .framebufferUpdate ∨
          MsgS2C.lookup (field block 0 1) = some .framebufferUpdate) fun _ _ => True := by
  unfold RFBClient.handleConnection
  dsimp only
  cases hkind : MsgS2C.lookup (field block 0 1) with
  | none =>
      refine Ensures.mono (held_protocolError htame _) ?_ fun _ _ _ => trivial
      intro _ c' hheld heq
      have hsame : c'.expectedHandler = c.expectedHandler := congrArg Prod.fst hheld.armed
      exact Or.inl (hsame.symm.trans heq)
  | some message =>
      cases message with
      | framebufferUpdate => exact fun _ => Or.inr rfl
      | setColourMapEntries => exact fun heq => Handler.noConfusion heq
      | bell =>
          refine ensures_bind.2 (Ensures.mono (held_call htame _) ?_ fun _ _ _ => trivial)
          exact fun _ _ _ heq => Handler.noConfusion heq
      | serverCutText => exact fun heq => Handler.noConfusion heq

namespace Observer

variable {P : Pillow} {env : Env} {o : Observer P}

/-- The ServerInit has not come in whole. -/
structure Awaiting (o : Observer P) : Prop where
  armed : o.conn.client.armed = (.serverInit, 24)
  aborted : o.conn.client.aborted = false
  version : o.conn.client.versionServer = ⟨0, 0⟩
  packet : o.conn.packet = o.heard

/-- The ServerInit has been read, but not the name behind it. -/
structure Naming (o : Observer P) : Prop where
  handler : o.conn.client.expectedHandler = .serverName
  version : o.conn.client.versionServer = ⟨0, 0⟩
  heard : 24 ≤ o.heard.length
  format : o.conn.client.pixelFormat = o.native

/-- The logging client has joined the session, and settled on a format. -/
structure Joined (o : Observer P) : Prop where
  handler : ¬ o.conn.client.expectedHandler.Handshakes
  heard : 24 ≤ o.heard.length
  format : o.conn.client.pixelFormat = o.native.settled

/-- What holds of a logging client at any time. -/
structure Placed (o : Observer P) : Prop where
  stage : o.conn.client.stage = .handleExpected
  requested : o.conn.client.app.requestedPixelFormat = none
  phase : o.Awaiting ∨ o.Naming ∨ o.Joined

theorem placed_start (factory : Factory) : (start factory : Observer P).Placed :=
  ⟨rfl, rfl, Or.inl ⟨rfl, rfl, rfl, rfl⟩⟩

/-- In an update the format is the one that was settled on. -/
theorem Placed.joined (h : o.Placed) (hupdating : o.Updating) : o.Joined := by
  rcases h.phase with hawaiting | hnaming | hjoined
  · have hhandler : o.conn.client.expectedHandler = .serverInit := congrArg Prod.fst hawaiting.armed
    have hupdates := hupdating.2
    rw [hhandler] at hupdates
    exact hupdates.elim
  · have hupdates := hupdating.2
    rw [hnaming.handler] at hupdates
    exact hupdates.elim
  · exact hjoined

/-! ### More of the server's bytes -/

/-- Once it has been read, the ServerInit stands. -/
theorem native_hear (hheard : 24 ≤ o.heard.length) (data : Bytes) :
    (o.hear env data).native = o.native := by
  have hslice : slice (o.heard ++ data) 4 16 = slice o.heard 4 16 :=
    slice_append_left o.heard data (le_trans (by decide) hheard)
  exact congrArg PixelFormat.fromBytes hslice

theorem client_hear (hstage : o.conn.client.stage = .handleExpected) (data : Bytes) :
    (o.hear env data).conn.client = o.conn.client := by
  change (o.conn.enter (VNCLoggingClient.runtime P env) data).client = o.conn.client
  rcases @Connection.enter_cases _ (VNCLoggingClient.runtime P env) o.conn data with
    ⟨_, heq⟩ | ⟨_, _, heq⟩ | ⟨_, hinitial, _⟩
  · rw [heq]
  · rw [heq]
  · rw [hstage] at hinitial
    cases hinitial

theorem Placed.hear (h : o.Placed) (data : Bytes) : (o.hear env data).Placed := by
  have hclient : (o.hear env data).conn.client = o.conn.client := client_hear h.stage data
  have hlength : o.heard.length ≤ (o.hear env data).heard.length := by
    change o.heard.length ≤ (o.heard ++ data).length
    rw [List.length_append]
    exact Nat.le_add_right _ _
  refine ⟨by rw [hclient]; exact h.stage, by rw [hclient]; exact h.requested, ?_⟩
  rcases h.phase with hawaiting | hnaming | hjoined
  · refine Or.inl ⟨by rw [hclient]; exact hawaiting.armed, by rw [hclient]; exact hawaiting.aborted,
      by rw [hclient]; exact hawaiting.version, ?_⟩
    rcases @Connection.enter_cases _ (VNCLoggingClient.runtime P env) o.conn data with
      ⟨haborted, _⟩ | ⟨_, _, heq⟩ | ⟨_, hinitial, _⟩
    · rw [hawaiting.aborted] at haborted
      cases haborted
    · have hpacket : (o.hear env data).conn.packet = o.conn.packet ++ data :=
        congrArg Connection.packet heq
      rw [hpacket, hawaiting.packet]
      rfl
    · rw [h.stage] at hinitial
      cases hinitial
  · refine Or.inr (Or.inl ⟨by rw [hclient]; exact hnaming.handler,
      by rw [hclient]; exact hnaming.version, hnaming.heard.trans hlength, ?_⟩)
    rw [hclient, native_hear hnaming.heard]
    exact hnaming.format
  · refine Or.inr (Or.inr ⟨by rw [hclient]; exact hjoined.handler,
      hjoined.heard.trans hlength, ?_⟩)
    rw [hclient, native_hear hjoined.heard]
    exact hjoined.format

/-! ### A turn of its loop -/

/-- A turn leaves the format alone, once the name has been read. -/
theorem Placed.turn_joined (h : o.Placed) (hjoined : o.Joined)
    {conn' : Connection (VNCDoToolClient P)}
    (hturn : o.conn.iterate (VNCLoggingClient.runtime P env) = some conn') :
    ({ o with conn := conn' } : Observer P).Placed := by
  rcases Connection.turn_cases VNCLoggingClient.runtime_tame hturn with
    ⟨handler, block, hpending, hmoved, _⟩
  have hhandler := (Connection.pending_eq_some_iff.1 hpending).2.1
  have hsession : ¬ handler.Handshakes := by
    rw [hhandler]
    exact hjoined.handler
  have hinit : handler ≠ .serverInit := by
    rintro rfl
    exact hsession trivial
  rcases PixelFormat.rawMode_settled o.native with ⟨mode, hmode⟩
  have hstays : VNCLoggingClient.Stays o.native.settled o.conn.client conn'.client := by
    rcases Connection.client_iterate hturn with ⟨handler', block', hpending', hclient⟩
    cases hpending.symm.trans hpending'
    rw [hclient]
    exact VNCLoggingClient.stays_run hmode hinit block o.conn.client
  have hkept := hstays ⟨hjoined.format, h.requested⟩
  have hsame (harmed : conn'.client.armed = o.conn.client.armed) :
      ¬ conn'.client.expectedHandler.Handshakes := by
    have heq : conn'.client.expectedHandler = o.conn.client.expectedHandler :=
      congrArg Prod.fst harmed
    rw [heq]
    exact hjoined.handler
  have hplaced (hstage : conn'.client.stage = o.conn.client.stage)
      (hafter : ¬ conn'.client.expectedHandler.Handshakes) :
      ({ o with conn := conn' } : Observer P).Placed :=
    ⟨hstage.trans h.stage, hkept.2, Or.inr (Or.inr ⟨hafter, hjoined.heard, hkept.1⟩)⟩
  rcases hmoved with ⟨_, hmoves⟩ | ⟨_, hraises⟩
  · refine hplaced hmoves.stage ?_
    rcases hmoves.armed with ⟨_, harms⟩ | ⟨_, _, harmed⟩ | ⟨_, _, harmed⟩
    · exact fun hhandshakes => hsession (harms.handshakes_iff.1 hhandshakes).1
    · exact hsame harmed
    · exact hsame harmed
  · exact hplaced hraises.stage (hsame hraises.armed)

/-- Whatever the loop does, the logging client is where it can be. -/
theorem Placed.turn (h : o.Placed) {conn' : Connection (VNCDoToolClient P)}
    (hturn : o.conn.iterate (VNCLoggingClient.runtime P env) = some conn') :
    ({ o with conn := conn' } : Observer P).Placed := by
  rcases Connection.client_iterate hturn with ⟨handler, block, hpending, hclient⟩
  rcases Connection.pending_eq_some_iff.1 hpending with ⟨⟨_, _, _, hlength⟩, hhandler, hblock⟩
  rcases h.phase with hawaiting | hnaming | hjoined
  · have hserverInit : handler = .serverInit :=
      hhandler.trans (congrArg Prod.fst hawaiting.armed)
    have hlen : o.conn.client.expectedLen = 24 := congrArg Prod.snd hawaiting.armed
    rw [hawaiting.packet, hlen] at hlength hblock
    subst hserverInit
    -- The format is read off the block, which is the beginning of what was heard.
    have hnative : PixelFormat.fromBytes (slice block 4 16) = o.native := by
      have hslice : slice (block ++ o.heard.drop 24) 4 16 = slice block 4 16 := by
        refine slice_append_left block (o.heard.drop 24) ?_
        rw [hblock, List.length_take, min_eq_left hlength]
        decide
      rw [← hslice, hblock, List.take_append_drop]
      rfl
    have hrun : conn'.client = { o.conn.client with
        width := field block 0 2
        height := field block 2 2
        pixelFormat := PixelFormat.fromBytes (slice block 4 16)
        expectedHandler := .serverName
        expectedLen := field block 20 4 } := hclient
    refine ⟨by rw [hrun]; exact h.stage, by rw [hrun]; exact h.requested, Or.inr (Or.inl ?_)⟩
    refine ⟨by rw [hrun], by rw [hrun]; exact hawaiting.version, hlength, ?_⟩
    rw [hrun]
    exact hnative
  · have hserverName : handler = .serverName := hhandler.trans hnaming.handler
    subst hserverName
    have hname := @VNCLoggingClient.ensures_serverName P env o.conn.client block h.requested
      hnaming.version
    have hafter := ensures_finalState.1 (Ensures.mono hname (fun _ _ hall => hall) fun _ _ => False.elim)
    have hclient' : conn'.client = finalState ((RFBClient.handleServerName
        (VNCLoggingClient.runtime P env) block).run o.conn.client) := hclient
    rw [← hclient', hnaming.format] at hafter
    refine ⟨hafter.2.1.trans h.stage, hafter.2.2.2, Or.inr (Or.inr ⟨?_, hnaming.heard, hafter.2.2.1⟩)⟩
    rw [hafter.1]
    exact id
  · exact h.turn_joined hjoined hturn

/-- A turn that comes to an update from elsewhere has read its message type. -/
theorem atUpdate_of_turn {conn' : Connection (VNCDoToolClient P)}
    (hturn : o.conn.iterate (VNCLoggingClient.runtime P env) = some conn')
    (hupdating : ({ o with conn := conn' } : Observer P).Updating) : o.Updating ∨ o.AtUpdate := by
  rcases Connection.turn_cases VNCLoggingClient.runtime_tame hturn with
    ⟨handler, block, hpending, hmoved, _⟩
  rcases Connection.pending_eq_some_iff.1 hpending with ⟨⟨_, haborted, _, _⟩, hhandler, _⟩
  by_cases hupdates : handler.Updates
  · exact Or.inl ⟨haborted, hhandler ▸ hupdates⟩
  · have hsame (harmed : conn'.client.armed = o.conn.client.armed) : False := by
      have heq : conn'.client.expectedHandler = handler :=
        (congrArg Prod.fst harmed).trans hhandler.symm
      have hafter := hupdating.2
      rw [heq] at hafter
      exact hupdates hafter
    rcases hmoved with ⟨hraised, hmoves⟩ | ⟨_, hraises⟩
    · rcases hmoves.armed with ⟨_, harms⟩ | ⟨_, _, harmed⟩ | ⟨_, habort, _⟩
      · rcases harms.updates hupdates hupdating.2 with ⟨rfl, hbegins⟩
        have hdispatch := Connection.of_iterate hpending hturn hraised
          (updates_of_connection VNCLoggingClient.runtime_tame) hbegins
        rcases hdispatch with hbefore | hkind
        · cases hhandler.trans hbefore
        · exact Or.inr ⟨block, hpending, hkind⟩
      · exact (hsame harmed).elim
      · cases hupdating.1.symm.trans habort
    · exact (hsame hraises.armed).elim

/-- Where an update comes next, the turn begins it. -/
theorem updating_of_atUpdate (hat : o.AtUpdate) :
    ∃ conn', o.conn.iterate (VNCLoggingClient.runtime P env) = some conn' ∧
      ({ o with conn := conn' } : Observer P).Updating := by
  rcases hat with ⟨block, hpending, hkind⟩
  have haborted := (Connection.pending_eq_some_iff.1 hpending).1.2.1
  have hrun : Handler.connection.run (VNCLoggingClient.runtime P env) block o.conn.client =
      .ok () { o.conn.client with expectedHandler := .framebufferUpdate, expectedLen := 3 } := by
    change RFBClient.handleConnection _ block o.conn.client = _
    unfold RFBClient.handleConnection
    rw [hkind]
    rfl
  refine ⟨_, Connection.iterate_eq_some_iff.2 ⟨.connection, block, hpending, rfl⟩, ?_⟩
  rw [hrun]
  exact ⟨haborted, trivial⟩

theorem Placed.step (h : o.Placed) : (o.turn env).Placed := by
  unfold Observer.turn
  cases hturn : o.conn.iterate (VNCLoggingClient.runtime P env) with
  | none => exact h
  | some conn' => exact h.turn hturn

end Observer

/-! ## The parser of the client's bytes -/

namespace RFBServer

variable {σ : Type} {hooks : Hooks σ} {R : RFBServer σ → RFBServer σ → Prop} [Std.Refl R]
  [IsTrans (RFBServer σ) R]

omit [Std.Refl R] [IsTrans (RFBServer σ) R] in
theorem respects_call (hbody : ∀ c s app, hooks.body c s.app = .ok app →
      R s { s with app := app, calls := s.calls ++ [c] })
    (hcalls : ∀ c s, R s { s with calls := s.calls ++ [c] }) (c : Call) :
    Respects R (call hooks c) := by
  intro s
  cases happ : hooks.body c s.app with
  | ok app =>
      rw [run_call_ok happ]
      exact hbody c s app happ
  | error exc =>
      rw [run_call_error happ]
      exact hcalls c s

/-- What the hooks respect, and all that is not done in the subclass's own attributes, every method
respects. -/
theorem respects_dispatch (hcall : ∀ c, Respects R (call hooks c))
    (hstate : ∀ s s' : RFBServer σ, s'.app = s.app → R s s') (method : Method) :
    Respects R (dispatch hooks method) := by
  have harm (method : Method) (threshold : ℕ) : Respects R (arm method threshold : Srv σ Unit) :=
    fun s => hstate s _ rfl
  have hdel (n : ℕ) : Respects R (del n : Srv σ Unit) :=
    fun s => hstate s _ rfl
  cases method with
  | handleVersion =>
      intro s
      change R s (finalState ((handleVersion hooks).run s))
      rw [run_handleVersion]
      exact hstate s _ rfl
  | handleSecurity =>
      refine respects_bind respects_get fun s => respects_bind (hdel 1) fun _ => ?_
      exact respects_ite (fun _ => harm _ _) fun _ => harm _ _
  | handleVNCAuthResponse => exact respects_bind (hdel 16) fun _ => harm _ _
  | handleClientInit =>
      refine respects_bind respects_get fun s => respects_bind (hdel 1) fun _ => ?_
      exact respects_bind (harm _ _) fun _ => hcall _
  | handleProtocol =>
      refine respects_bind respects_get fun s => respects_ite (fun _ => harm _ _) fun _ => ?_
      refine respects_bind (hdel _) fun _ => ?_
      cases MsgC2S.lookup (field s.buffer 0 1) with
      | none => exact respects_throw _
      | some kind =>
          cases kind with
          | setEncoding =>
              refine respects_bind respects_get fun s => respects_ite (fun _ => ?_) fun _ => ?_
              · exact respects_throw _
              · exact respects_bind (hdel _) fun _ => hcall _
          | qemuClientMessage =>
              refine respects_ite (fun _ => respects_throw _) fun _ => ?_
              exact respects_ite (fun _ => harm _ _) fun _ => respects_throw _
          | _ =>
              unfold handleBlock
              exact hcall _
  | handleQemuExtendedKeyEvent =>
      refine respects_bind respects_get fun s => respects_ite (fun _ => respects_throw _) fun _ => ?_
      exact respects_bind (hdel 12) fun _ => respects_bind (hcall _) fun _ => harm _ _

end RFBServer

namespace Observed

variable {P : Pillow} {env : Env} {factory : Factory} {s : Observed P}

/-- The parser leaves the logging client alone, or starts one. -/
def Starts (factory : Factory) (before after : RFBServer (Option (Observer P))) : Prop :=
  after.app = before.app ∨ after.app = some (Observer.start factory)

instance instReflStarts : Std.Refl (@Starts P factory) :=
  ⟨fun _ => Or.inl rfl⟩

instance instTransStarts :
    IsTrans (RFBServer (Option (Observer P))) (Starts factory) where
  trans _ _ _ h h' := by
    rcases h' with hsame | hstart
    · rcases h with hsame' | hstart
      · exact Or.inl (hsame.trans hsame')
      · exact Or.inr (hsame.trans hstart)
    · exact Or.inr hstart

theorem starts_dispatch (method : Method) :
    Respects (Starts factory) (RFBServer.dispatch (hooks P factory) method) := by
  have hkeeps (s s' : RFBServer (Option (Observer P))) (happ : s'.app = s.app) :
      Starts factory s s' := Or.inl happ
  refine RFBServer.respects_dispatch (RFBServer.respects_call ?_ fun c s => hkeeps s _ rfl) hkeeps
    method
  intro c s app hbody
  cases c with
  | clientInit shared => exact Or.inr (Except.ok.inj hbody).symm
  | _ => exact Or.inl (Except.ok.inj hbody).symm

theorem observer_parse :
    (s.passes env factory .parse).observer = s.observer ∨
      (s.passes env factory .parse).observer = some (Observer.start factory) := by
  unfold passes
  dsimp only
  cases hturn : s.parser.iterate (hooks P factory) with
  | none => exact Or.inl rfl
  | some parser' =>
      rcases Parser.iterate_eq_some_iff.1 hturn with ⟨_, rfl⟩
      have hstarts := @starts_dispatch P factory s.parser.server.handler.1 s.parser.server
      unfold Observed.observer
      rw [Option.getD_some]
      cases hrun : (RFBServer.dispatch (hooks P factory) s.parser.server.handler.1).run
          s.parser.server with
      | ok _ t =>
          rw [hrun] at hstarts
          exact hstarts
      | error exc t =>
          rw [hrun] at hstarts
          exact hstarts

/-! ## Every session -/

/-- What holds of a session in any case. -/
def Placed (s : Observed P) : Prop :=
  ∀ o, s.observer = some o → o.Placed

theorem not_updating_start : ¬ (Observer.start factory : Observer P).Updating :=
  fun h => h.2

/-- In a session that follows, the format in force is what the logging client has settled on. -/
theorem Follows.inForce (h : s.Follows) (hplaced : s.Placed) {o : Observer P}
    (hsome : s.observer = some o) (hupdating : o.Updating) : s.inForce o = o.native.settled :=
  (h o hsome hupdating).symm.trans ((hplaced o hsome).joined hupdating).format

theorem placed_observe (hplaced : s.Placed) {f : Observer P → Observer P}
    (hf : ∀ o, o.Placed → (f o).Placed) : (s.observe f).Placed := by
  intro o' hsome
  rcases Option.map_eq_some_iff.1 (show s.observer.map f = some o' from hsome) with ⟨o, ho, rfl⟩
  exact hf o (hplaced o ho)

/-- Whatever passes, the logging client is where it can be. -/
theorem Placed.passes (h : s.Placed) (passage : Passage) :
    (s.passes env factory passage).Placed := by
  cases passage with
  | client data => exact h
  | setPixelFormat args => exact h
  | parse =>
      intro o hsome
      rcases @observer_parse P env factory s with hsame | hstart
      · exact h o (hsame.symm.trans hsome)
      · cases hstart.symm.trans hsome
        exact Observer.placed_start factory
  | server data => exact placed_observe h fun _ ho => ho.hear data
  | observe => exact placed_observe h fun _ ho => ho.step

/-- What meets the condition leaves a session that follows. -/
theorem follows_passes (hplaced : s.Placed) (hfollows : s.Follows) {passage : Passage}
    (hmeets : s.Meets passage) : (s.passes env factory passage).Follows := by
  cases passage with
  | client data => exact hfollows
  | setPixelFormat args =>
      intro o hsome hupdating
      have hjoined := (hplaced o hsome).joined hupdating
      exact hjoined.format.trans (hmeets o hsome hupdating).symm
  | parse =>
      intro o hsome hupdating
      rcases @observer_parse P env factory s with hsame | hstart
      · exact hfollows o (hsame.symm.trans hsome) hupdating
      · cases hstart.symm.trans hsome
        exact (not_updating_start hupdating).elim
  | server data =>
      intro o' hsome hupdating
      rcases Option.map_eq_some_iff.1
        (show s.observer.map (fun o => o.hear env data) = some o' from hsome) with ⟨o, ho, rfl⟩
      have hclient : (o.hear env data).conn.client = o.conn.client :=
        Observer.client_hear (hplaced o ho).stage data
      have hupdating' : o.Updating := by
        unfold Observer.Updating at hupdating ⊢
        rw [hclient] at hupdating
        exact hupdating
      have hnative := @Observer.native_hear P env o ((hplaced o ho).joined hupdating').heard data
      rw [hclient, hfollows o ho hupdating']
      exact congrArg s.format.getD hnative.symm
  | observe =>
      intro o' hsome hupdating
      rcases Option.map_eq_some_iff.1
        (show s.observer.map (Observer.turn env) = some o' from hsome) with ⟨o, ho, rfl⟩
      -- A turn that begins an update settles the format; by the condition it is the one in force.
      have hafter : (o.turn env).conn.client.pixelFormat = o.native.settled :=
        ((hplaced o ho).step.joined hupdating).format
      have hbefore : s.inForce o = o.native.settled := by
        unfold Observer.turn at hupdating
        cases hturn : o.conn.iterate (VNCLoggingClient.runtime P env) with
        | none =>
            rw [hturn] at hupdating
            exact hfollows.inForce hplaced ho hupdating
        | some conn' =>
            rw [hturn] at hupdating
            rcases Observer.atUpdate_of_turn hturn hupdating with hinside | hat
            · exact hfollows.inForce hplaced ho hinside
            · exact hmeets o ho hat
      exact hafter.trans hbefore.symm

/-- A session that still follows has met the condition. -/
theorem meets_of_follows (hplaced : s.Placed) {passage : Passage}
    (hafter : (s.passes env factory passage).Follows) : s.Meets passage := by
  cases passage with
  | setPixelFormat args =>
      intro o hsome hupdating
      have hjoined := (hplaced o hsome).joined hupdating
      exact (hafter o hsome hupdating).symm.trans hjoined.format
  | observe =>
      intro o hsome hat
      rcases @Observer.updating_of_atUpdate P env o hat with ⟨conn', hturn, hupdating⟩
      have hnext : ({ o with conn := conn' } : Observer P) = o.turn env := by
        unfold Observer.turn
        rw [hturn]
        rfl
      rw [hnext] at hupdating
      have hsome' : (s.passes env factory .observe).observer = some (o.turn env) :=
        congrArg (Option.map (Observer.turn env)) hsome
      have hplaced' : (o.turn env).Placed := (hplaced o hsome).step
      have hjoined := hplaced'.joined hupdating
      exact (hafter _ hsome' hupdating).symm.trans hjoined.format
  | _ => exact trivial

/-- The logging client follows the format in force for as long as that is the one it has settled on
wherever it matters. -/
theorem follows_iff_meets (P : Pillow) (env : Env) (factory : Factory) (passwordRequired : Bool)
    (passages : List Passage) :
    Always (passes env factory) Follows (init P passwordRequired) passages ↔
      Throughout (passes env factory) Meets (init P passwordRequired) passages := by
  refine always_iff_throughout (I := fun s => s.Placed ∧ s.Follows) (fun s h => h.2) ?_ ?_ ?_
  · exact fun s passage h hmeets => ⟨h.1.passes passage, follows_passes h.1 h.2 hmeets⟩
  · exact fun s passage h hafter => meets_of_follows h.1 hafter
  · have hnone (o : Observer P) : (init P passwordRequired).observer ≠ some o :=
      fun hsome => Option.some_ne_none o hsome.symm
    exact ⟨fun o hsome => absurd hsome (hnone o), fun o hsome => absurd hsome (hnone o)⟩

/-- A session in which the client asks for `rgb565` before it asks for an update. -/
def renegotiated : List Passage :=
  [ .client ([82, 70, 66, 32, 48, 48, 51, 46, 48, 48, 51, 10] ++ [1]), .parse, .parse,
    .server ([0, 1, 0, 1] ++ PixelFormat.rgbx8888.toBytes ++ [0, 0, 0, 0]), .observe, .observe,
    .setPixelFormat PixelFormat.rgb565.toBytes, .parse,
    .client [3, 0, 0, 0, 0, 0, 0, 1, 0, 1], .parse,
    .server [0, 0, 0, 1], .observe ]

/-- The update comes in the format asked for; the logging client decodes it in the server's own. -/
theorem not_follows_renegotiated :
    ¬ Always (passes Env.sample {}) Follows (init Pillow.canvas false) renegotiated := by
  let s : Observed Pillow.canvas :=
    renegotiated.foldl (passes Env.sample {}) (init Pillow.canvas false)
  have hview : s.observer.map (fun o => (o.conn.client.aborted, o.conn.client.expectedHandler,
      o.conn.client.pixelFormat, s.inForce o)) =
        some (false, .framebufferUpdate, PixelFormat.rgbx8888, PixelFormat.rgb565) := by
    decide +kernel
  intro h
  have hfollows : s.Follows := h renegotiated List.prefix_rfl
  rcases Option.map_eq_some_iff.1 hview with ⟨o, ho, heq⟩
  have haborted : o.conn.client.aborted = false := congrArg Prod.fst heq
  have hhandler : o.conn.client.expectedHandler = .framebufferUpdate :=
    congrArg (fun view => view.2.1) heq
  have hformat : o.conn.client.pixelFormat = PixelFormat.rgbx8888 :=
    congrArg (fun view => view.2.2.1) heq
  have hinForce : s.inForce o = PixelFormat.rgb565 := congrArg (fun view => view.2.2.2) heq
  have hupdating : o.Updating := ⟨haborted, by rw [hhandler]; trivial⟩
  have hsame := hfollows o ho hupdating
  rw [hformat, hinForce] at hsame
  exact absurd hsame (by decide)

end Observed

end Vncdotool
