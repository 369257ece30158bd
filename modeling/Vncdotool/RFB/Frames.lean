import Vncdotool.Streaming.Effects
import Vncdotool.RFB.Runs

/-!
# Frames — what every handler maintains

A subclass of `RFBClient` overrides callbacks and adds attributes, and the handlers touch neither
these nor the log except by a callback, a write or a `loseConnection`.  So a preorder on clients
that these three respect, and that looks at no other attributes but those that ServerInit sets, is
respected by every handler: `Maintains.run`.  One such preorder serves each invariant of a subclass.

Four callbacks tell the application how the connection fares.  What a handler is handed decides
whether it makes one of them (`Handler.Tells`), so a preorder that these four do not respect is
still respected by all the other turns (`Maintains.run_at`); and only one handler ever sets the
size and the format of the framebuffer.
-/

namespace Vncdotool

open Wire Streaming

variable {σ : Type}

/-- The callbacks that tell how the connection fares. -/
def Callback.Tells : Callback → Prop
  | .vncConnectionMade => True
  | .vncRequestPassword => True
  | .vncAuthFailed _ => True
  | .vncProtocolError _ => True
  | _ => False

/-- The arguments of the other callbacks: pixels come in the client's format, and sizes fit their
fields. -/
def Callback.Regular (c : RFBClient σ) : Callback → Prop
  | .vncConnectionMade => False
  | .vncRequestPassword => False
  | .vncAuthFailed _ => False
  | .vncProtocolError _ => False
  | .updateRectangle _ _ _ _ _ pf => pf = c.pixelFormat
  | .updateDesktopSize width height =>
      (0 ≤ width ∧ width < 0x10000) ∧ (0 ≤ height ∧ height < 0x10000)
  | _ => True

theorem Callback.Regular.not_tells {c : RFBClient σ} {cb : Callback} (h : cb.Regular c) :
    ¬ cb.Tells := by
  intro htells
  cases cb with
  | vncConnectionMade => exact h
  | vncRequestPassword => exact h
  | vncAuthFailed reason => exact h
  | vncProtocolError reason => exact h
  | _ => exact htells

/-- `_rectBuffer` finds a buffer for a rectangle of this size. -/
def RFBClient.Fits (env : Env) (c : RFBClient σ) (width height : ℕ) : Prop :=
  (width ≤ (if c.width ≠ 0 then c.width else RFBClient.maxDesktopSize) ∧
    height ≤ if c.height ≠ 0 then c.height else RFBClient.maxDesktopSize) ∧
  (c.rectBacking.length < width * height * c.pixelFormat.bypp →
    env.alloc (width * height * c.pixelFormat.bypp) = true)

/-- The block is not the pixels the generator has asked for. -/
def Generator.Refuses : Generator → Bytes → Prop
  | .decodePixels target true, block =>
      block.length ≠ target.width * target.height * target.bypp
  | _, _ => False

/-- On this block the handler makes one of the callbacks that tell how the connection fares. -/
def Handler.Tells (env : Env) (c : RFBClient σ) (block : Bytes) : Handler → Prop
  | .securityTypes => ∀ b ∈ block, b.toNat ∉ RFBClient.supportedAuths
  | .auth =>
      field block 0 4 ≠ AuthTypes.INVALID ∧ field block 0 4 ≠ AuthTypes.NONE ∧
        field block 0 4 ≠ AuthTypes.VNC_AUTHENTICATION
  | .connMessage => True
  | .vncAuth => True
  | .vncAuthResult => (field block 0 4 = 1 ∨ field block 0 4 = 2) ∧ c.version < ⟨3, 8⟩
  | .authFailedMessage => True
  | .serverName => True
  | .connection => MsgS2C.lookup (field block 0 1) = none
  | .rectangle =>
      (s32 (field block 8 4) ≠ Encoding.value .pseudoLastRect ∧ c.rectangles ≠ 0) ∧
        match Encoding.lookup (s32 (field block 8 4)) with
        | some .raw => ¬ c.Fits env (field block 4 2) (field block 6 2)
        | some .copyRectangle => False
        | some .hextile => False
        | some .corre => False
        | some .rre => False
        | some .zrle => False
        | some .pseudoCursor => False
        | some .pseudoDesktopSize => False
        | some .pseudoQemuExtendedKeyEvent => False
        | _ => True
  | .pumpBlock generator _ => generator.Refuses block
  | _ => False

/-- The callbacks that tell how the connection fares respect `R`. -/
def Told (rt : Runtime σ) (R : RFBClient σ → RFBClient σ → Prop) : Prop :=
  ∀ cb : Callback, cb.Tells → Respects R (rt.call cb)

/-- `copyRectangle` does not raise. -/
def Runtime.Copies (rt : Runtime σ) : Prop :=
  ∀ srcx srcy x y width height c,
    Ensures (rt.override (.copyRectangle srcx srcy x y width height)) c (fun _ _ => True)
      fun _ _ => False

/-- The framebuffer's size is one that fits its fields in a message. -/
def RFBClient.Sized (c : RFBClient σ) : Prop :=
  c.width < 256 ^ 2 ∧ c.height < 256 ^ 2

/-- What ServerInit sets. -/
def RFBClient.frame (c : RFBClient σ) : ℕ × ℕ × PixelFormat :=
  (c.width, c.height, c.pixelFormat)

/-- The handlers up to the one that is handed the name of the server. -/
def Handler.Handshakes : Handler → Prop
  | .numberSecurityTypes => True
  | .securityTypes => True
  | .auth => True
  | .connFailed => True
  | .connMessage => True
  | .vncAuth => True
  | .dhAuth => True
  | .dhAuthKey => True
  | .dhAuthCert => True
  | .vncAuthResult => True
  | .authFailed => True
  | .authFailedMessage => True
  | .serverInit => True
  | .serverName => True
  | _ => False

/-- `R` is a preorder respected by all that the handlers do to the log, but for the callbacks. -/
structure Keeps (R : RFBClient σ → RFBClient σ → Prop) : Prop where
  refl : ∀ c, R c c
  trans : ∀ c₁ c₂ c₃, R c₁ c₂ → R c₂ c₃ → R c₁ c₃
  write : ∀ data, Respects R (write data)
  loseConnection : Respects R loseConnection
  state : ∀ c c', c'.log = c.log → c'.app = c.app → c'.frame = c.frame → R c c'

/-- `R` is a preorder respected by all that the handlers do to the log and to the attributes a
subclass adds, but for the callbacks that tell how the connection fares. -/
structure Maintains (rt : Runtime σ) (R : RFBClient σ → RFBClient σ → Prop) : Prop
    extends Keeps R where
  call : ∀ c (cb : Callback), cb.Regular c → R c (finalState ((rt.call cb).run c))

/-- ServerInit respects `R`. -/
def Announced (R : RFBClient σ → RFBClient σ → Prop) : Prop :=
  ∀ c c', c'.log = c.log → c'.app = c.app → c'.Sized → R c c'

namespace Keeps

variable {rt : Runtime σ} {R : RFBClient σ → RFBClient σ → Prop} (h : Keeps R)
  {α β : Type} {block : Bytes}

include h

/-! ## Rules -/

theorem bind {x : Py σ α} {k : α → Py σ β} (hx : Respects R x) (hk : ∀ a, Respects R (k a)) :
    Respects R (x >>= k) := by
  have : IsTrans (RFBClient σ) R := ⟨h.trans⟩
  exact respects_bind hx hk

theorem pure (a : α) : Respects R (Pure.pure a : Py σ α) :=
  fun c => h.refl c

theorem throw (exc : PyError) : Respects R (MonadExcept.throw exc : Py σ α) :=
  fun c => h.refl c

/-- Reading an attribute. -/
theorem get {k : RFBClient σ → Py σ β} (hk : ∀ c, Respects R (k c)) :
    Respects R (MonadState.get >>= k) :=
  h.bind (fun c => h.refl c) hk

/-- Setting attributes of the parser. -/
theorem modify {g : RFBClient σ → RFBClient σ} (hlog : ∀ c, (g c).log = c.log)
    (happ : ∀ c, (g c).app = c.app) (hframe : ∀ c, (g c).frame = c.frame) :
    Respects R (MonadState.modifyGet fun c => (⟨⟩, g c) : Py σ PUnit) :=
  fun c => h.state c (g c) (hlog c) (happ c) (hframe c)

theorem expect (handler : Handler) (size : ℕ) :
    Respects R (Vncdotool.expect handler size : Py σ Unit) :=
  fun c => h.state c _ rfl rfl rfl

theorem liftExcept (x : Except PyError α) : Respects R (Vncdotool.liftExcept x : Py σ α) := by
  cases x with
  | ok a => exact h.pure a
  | error exc => exact h.throw exc

theorem bind_at {x : Py σ α} {k : α → Py σ β} {c : RFBClient σ}
    (hx : R c (finalState (x.run c))) (hk : ∀ a, Respects R (k a)) :
    R c (finalState ((x >>= k).run c)) := by
  have : IsTrans (RFBClient σ) R := ⟨h.trans⟩
  exact finalState_bind hx hk

theorem protocolError (ht : Told rt R) (reason : ProtocolFailure) :
    Respects R (rt.protocolError reason) :=
  h.bind (ht _ trivial) fun _ => h.loseConnection

theorem authFailed (ht : Told rt R) (reason : AuthFailure) : Respects R (rt.authFailed reason) :=
  h.bind (ht _ trivial) fun _ => h.loseConnection

theorem abortConnection (ht : Told rt R) (reason : ProtocolFailure) :
    Respects R (rt.abortConnection reason) :=
  h.bind (h.modify (fun _ => rfl) (fun _ => rfl) fun _ => rfl) fun _ => h.protocolError ht reason

/-! ## The handshake -/

theorem doClientInitialization : Respects R (RFBClient.doClientInitialization : Py σ Unit) :=
  h.get fun _ => h.bind (h.write _) fun _ => h.expect _ _

theorem numberSecurityTypes : Respects R (RFBClient.handleNumberSecurityTypes block : Py σ Unit) :=
  respects_ite (fun _ => h.expect _ _) fun _ => h.expect _ _

theorem securityTypes (ht : (∀ b ∈ block, b.toNat ∉ RFBClient.supportedAuths) → Told rt R) :
    Respects R (RFBClient.handleSecurityTypes rt block) := by
  unfold RFBClient.handleSecurityTypes
  dsimp only
  split
  · refine h.bind (h.write _) fun _ => respects_ite (fun _ => h.get fun _ => ?_) fun _ => ?_
    · exact respects_ite (fun _ => h.doClientInitialization) fun _ => h.expect _ _
    · refine respects_ite (fun _ => h.expect _ _) fun _ => ?_
      exact respects_ite (fun _ => h.expect _ _) fun _ => h.pure _
  · rename_i hnone
    refine h.protocolError (ht fun b hb hsupported => ?_) _
    have hmem : b.toNat ∈ (block.map UInt8.toNat).filter (· ∈ RFBClient.supportedAuths) :=
      List.mem_filter.2 ⟨List.mem_map_of_mem hb, decide_eq_true hsupported⟩
    rw [List.max?_eq_none_iff.1 hnone] at hmem
    exact absurd hmem List.not_mem_nil

theorem auth
    (ht : field block 0 4 ≠ AuthTypes.INVALID ∧ field block 0 4 ≠ AuthTypes.NONE ∧
      field block 0 4 ≠ AuthTypes.VNC_AUTHENTICATION → Told rt R) :
    Respects R (RFBClient.handleAuth rt block) := by
  refine respects_ite (fun _ => h.expect _ _) fun hinvalid => ?_
  refine respects_ite (fun _ => h.doClientInitialization) fun hnone => ?_
  refine respects_ite (fun _ => h.expect _ _) fun hvnc => ?_
  exact h.protocolError (ht ⟨hinvalid, hnone, hvnc⟩) _

theorem vncAuth (ht : Told rt R) : Respects R (RFBClient.handleVNCAuth rt block) := by
  refine h.bind (h.modify (fun _ => rfl) (fun _ => rfl) fun _ => rfl) fun _ => ?_
  exact h.bind (ht _ trivial) fun _ => h.expect _ _

theorem dhAuth : Respects R (RFBClient.handleDHAuth block : Py σ Unit) :=
  h.bind (h.modify (fun _ => rfl) (fun _ => rfl) fun _ => rfl) fun _ => h.expect _ _

theorem dhAuthKey : Respects R (RFBClient.handleDHAuthKey block : Py σ Unit) :=
  h.bind (h.modify (fun _ => rfl) (fun _ => rfl) fun _ => rfl) fun _ => h.get fun _ => h.expect _ _

theorem encryptArd : Respects R rt.encryptArd := by
  refine h.get fun c => h.bind (h.liftExcept _) fun keys => h.bind (h.liftExcept _) fun _ => ?_
  exact respects_ite (fun _ => h.bind (h.throw _) fun _ => h.write _) fun _ => h.write _

theorem dhAuthCert : Respects R (RFBClient.handleDHAuthCert rt block) := by
  refine h.bind (h.modify (fun _ => rfl) (fun _ => rfl) fun _ => rfl) fun _ => ?_
  refine h.bind (h.modify (fun _ => rfl) (fun _ => rfl) fun _ => rfl) fun _ => ?_
  exact h.bind h.encryptArd fun _ => h.expect _ _

theorem vncAuthResult {c : RFBClient σ}
    (ht : (field block 0 4 = 1 ∨ field block 0 4 = 2) ∧ c.version < ⟨3, 8⟩ → Told rt R) :
    R c (finalState ((RFBClient.handleVNCAuthResult rt block).run c)) := by
  refine finalState_get (respects_ite (fun _ => h.doClientInitialization) fun _ => ?_)
  refine respects_ite (fun hfailed => ?_) fun _ => respects_ite (fun htoo => ?_) fun _ =>
    h.loseConnection
  · refine respects_ite (fun hversion => ?_) fun _ => h.expect _ _
    exact h.authFailed (ht ⟨Or.inl hfailed, hversion⟩) _
  · refine respects_ite (fun hversion => ?_) fun _ => h.expect _ _
    exact h.authFailed (ht ⟨Or.inr htoo, hversion⟩) _

theorem serverInit (hinit : Announced R) :
    Respects R (RFBClient.handleServerInit block : Py σ Unit) := by
  refine h.bind (fun c => hinit c _ rfl rfl ?_) fun _ => h.expect _ _
  exact ⟨field_lt block 0 2, field_lt block 2 2⟩

theorem serverName (ht : Told rt R) : Respects R (RFBClient.handleServerName rt block) := by
  refine h.bind (h.modify (fun _ => rfl) (fun _ => rfl) fun _ => rfl) fun _ => ?_
  exact h.bind (ht _ trivial) fun _ => h.expect _ _

/-- Whatever handler of the handshake is called on whatever block. -/
theorem run_handshake {handler : Handler} {c : RFBClient σ} (hhandshake : handler.Handshakes)
    (ht : handler.Tells rt.env c block → Told rt R)
    (hinit : handler = .serverInit → Announced R) :
    R c (finalState ((handler.run rt block).run c)) := by
  cases handler with
  | numberSecurityTypes => exact h.numberSecurityTypes c
  | securityTypes => exact h.securityTypes ht c
  | auth => exact h.auth ht c
  | connFailed => exact h.expect _ _ c
  | connMessage => exact h.protocolError (ht trivial) _ c
  | vncAuth => exact h.vncAuth (ht trivial) c
  | dhAuth => exact h.dhAuth c
  | dhAuthKey => exact h.dhAuthKey c
  | dhAuthCert => exact h.dhAuthCert c
  | vncAuthResult => exact h.vncAuthResult ht
  | authFailed => exact h.expect _ _ c
  | authFailedMessage => exact h.authFailed (ht trivial) _ c
  | serverInit => exact h.serverInit (hinit rfl) c
  | serverName => exact h.serverName (ht trivial) c
  | _ => exact hhandshake.elim

/-! ## The greeting -/

theorem handleInitial {packet : Bytes} (ht : Connection.Malformed packet → Told rt R) :
    Respects R (RFBClient.handleInitial rt packet) := by
  unfold RFBClient.handleInitial
  dsimp only
  refine respects_ite (fun _ => ?_) fun _ => respects_ite (fun _ => h.pure _) fun hleads => ?_
  · cases parseVersion (packet.take 12) with
    | none => exact fun c => h.refl c
    | some versionServer =>
        dsimp only
        rw [pure_bind]
        cases RFBClient.chooseVersion versionServer with
        | none => exact fun c => h.refl c
        | some version =>
            dsimp only
            rw [pure_bind]
            refine h.bind (h.write _) fun _ => ?_
            refine h.bind (h.modify (fun _ => rfl) (fun _ => rfl) fun _ => rfl) fun _ => ?_
            exact respects_ite (fun _ => h.bind (h.expect _ _) fun _ => h.pure _) fun _ =>
              h.bind (h.expect _ _) fun _ => h.pure _
  · have hmalformed : Connection.Malformed packet :=
      fun hmalformed => hleads (List.isPrefixOf_iff_prefix.2 hmalformed)
    exact h.bind (h.protocolError (ht hmalformed) _) fun _ => h.pure _

/-- A chunk arrives. -/
theorem enter_at (conn : Connection σ) (data : Bytes)
    (ht : conn.client.aborted = false → conn.client.stage = .handleInitial →
      Connection.Malformed (conn.packet ++ data) → Told rt R) :
    R conn.client (conn.enter rt data).client := by
  unfold Connection.enter
  split_ifs with haborted
  · exact h.refl _
  · cases hstage : conn.client.stage with
    | handleExpected =>
        dsimp only
        rw [hstage]
        exact h.refl _
    | handleInitial =>
        dsimp only
        rw [hstage]
        have hgreeting :=
          h.handleInitial (ht (Bool.eq_false_iff.2 haborted) hstage) conn.client
        unfold EStateM.run at hgreeting
        unfold Connection.greet
        dsimp only
        cases hresult : RFBClient.handleInitial rt (conn.packet ++ data) conn.client with
        | ok rest c =>
            rw [hresult] at hgreeting
            exact hgreeting
        | error exc c =>
            rw [hresult] at hgreeting
            exact hgreeting

theorem enter (ht : Told rt R) (conn : Connection σ) (data : Bytes) :
    R conn.client (conn.enter rt data).client :=
  h.enter_at conn data fun _ _ _ => ht

end Keeps

namespace Maintains

variable {rt : Runtime σ} {R : RFBClient σ → RFBClient σ → Prop} (h : Maintains rt R)
  {α β : Type} {block : Bytes}

include h

theorem calls {cb : Callback} (hcb : ∀ c : RFBClient σ, cb.Regular c) :
    Respects R (rt.call cb) :=
  fun c => h.call c cb (hcb c)

/-- Pixels in the client's format. -/
theorem updates {x y width height : ℤ} {data : Bytes} {k : Unit → Py σ β}
    (hk : ∀ a, Respects R (k a)) (c : RFBClient σ) :
    R c (finalState
      ((rt.call (.updateRectangle x y width height data c.pixelFormat) >>= k).run c)) := by
  have : IsTrans (RFBClient σ) R := ⟨h.trans⟩
  exact finalState_bind (h.call c (.updateRectangle x y width height data c.pixelFormat) rfl) hk

/-! ## Messages and the pump -/

theorem doConnection : Respects R (RFBClient.doConnection rt) := by
  refine h.get fun c => respects_ite (fun _ => h.expect _ _) fun _ => ?_
  exact h.bind (h.calls fun _ => trivial) fun _ => h.expect _ _

theorem connection (ht : MsgS2C.lookup (field block 0 1) = none → Told rt R) :
    Respects R (RFBClient.handleConnection rt block) := by
  unfold RFBClient.handleConnection
  dsimp only
  split
  · exact h.expect _ _
  · exact h.expect _ _
  · exact h.bind (h.calls fun _ => trivial) fun _ => h.expect _ _
  · exact h.expect _ _
  · rename_i hunknown
    exact h.protocolError (ht hunknown) _

theorem framebufferUpdate : Respects R (RFBClient.handleFramebufferUpdate rt block) := by
  refine h.bind (h.modify (fun _ => rfl) (fun _ => rfl) fun _ => rfl) fun _ => ?_
  exact h.bind (h.calls fun _ => trivial) fun _ => h.doConnection

theorem rectBuffer {c : RFBClient σ} {width height : ℕ}
    (ht : ¬ c.Fits rt.env width height → Told rt R) :
    R c (finalState ((RFBClient.rectBuffer rt width height).run c)) := by
  have hmake : Respects R (do
      let c ← MonadState.get
      let buffer ← Vncdotool.liftExcept
        (RectBuffer.make width height c.pixelFormat.bypp c.rectBacking)
      return some buffer : Py σ (Option RectBuffer)) :=
    h.get fun c => h.bind (h.liftExcept _) fun buffer => h.pure _
  have habort (hfits : ¬ c.Fits rt.env width height) (reason : ProtocolFailure) :
      Respects R (do
        rt.abortConnection reason
        return none : Py σ (Option RectBuffer)) :=
    h.bind (h.abortConnection (ht hfits) _) fun _ => h.pure _
  refine finalState_get (respects_ite (fun hlimit => ?_) fun _ => ?_)
  · exact habort (fun hfits => hlimit hfits.1) _
  · refine respects_ite (fun hshort => ?_) fun _ => hmake
    refine respects_ite (fun _ => ?_) fun halloc => ?_
    · exact h.bind (h.modify (fun _ => rfl) (fun _ => rfl) fun _ => rfl) fun _ => hmake
    · exact habort (fun hfits => halloc (hfits.2 hshort)) _

/-- A generator asks for no negative size, and fails only on what it has not asked for. -/
theorem send {generator : Generator} (ht : generator.Refuses block → Told rt R)
    (hcopies : rt.Copies ∨ Told rt R) (c : RFBClient σ) :
    Ensures (RFBClient.send rt generator block) c
      (fun progress c' => R c c' ∧ ∀ size generator', progress = .yielded size generator' →
        0 ≤ size)
      (fun _ c' => R c c' ∧ Told rt R) := by
  cases generator with
  | decodePixels target suspended =>
      cases suspended with
      | false =>
          refine ⟨h.refl c, fun size generator' heq => ?_⟩
          cases heq
          exact Int.natCast_nonneg (target.width * target.height * target.bypp)
      | true =>
          refine ensures_bind.2 ?_
          by_cases hlength : block.length = target.width * target.height * target.bypp
          · rw [target.blit_whole hlength]
            exact ⟨h.refl c, nofun⟩
          · cases target.after (RectBuffer.blit 0 0 target.width target.height block) with
            | ok target => exact ⟨h.refl c, nofun⟩
            | error exc => exact ⟨h.refl c, ht hlength⟩
  | decodeForClient rect suspended =>
      cases suspended with
      | false =>
          refine ⟨h.refl c, fun size generator' heq => ?_⟩
          cases heq
          decide
      | true =>
          have hcall := ensures_finalState.2 (h.call c (.copyRectangle (field block 0 2)
            (field block 2 2) rect.x rect.y rect.width rect.height) trivial)
          refine ensures_bind.2 ?_
          rcases hcopies with hcopies | htold
          · have htotal : Ensures (rt.call (.copyRectangle (field block 0 2) (field block 2 2)
                rect.x rect.y rect.width rect.height)) c (fun _ _ => True) fun _ _ => False :=
              ensures_bind.2 (hcopies _ _ _ _ _ _ _)
            refine Ensures.mono (hcall.and htotal) ?_ ?_
            · exact fun _ _ hboth => ⟨hboth.1, nofun⟩
            · exact fun _ _ hboth => hboth.2.elim
          · refine Ensures.mono hcall ?_ ?_
            · exact fun _ _ hkept => ⟨hkept, nofun⟩
            · exact fun _ _ hkept => ⟨hkept, htold⟩

theorem finishRectangle (target : RectBuffer) (rect : Rect) :
    Respects R (RFBClient.finishRectangle rt target rect) :=
  h.bind (h.modify (fun _ => rfl) (fun _ => rfl) fun _ => rfl) fun _ c => h.call c _ rfl

theorem resumePump (finish : Option Rect) (progress : RFBClient.Progress)
    (hsize : ∀ size generator, progress = .yielded size generator → 0 ≤ size) :
    Respects R (RFBClient.resumePump rt finish progress) := by
  cases progress with
  | yielded size generator =>
      refine respects_ite (fun hneg => ?_) fun _ => h.expect _ _
      exact absurd hneg (not_lt.2 (hsize size generator rfl))
  | returned target =>
      cases finish with
      | none => exact h.doConnection
      | some rect =>
          cases target with
          | none => exact h.doConnection
          | some target => exact h.bind (h.finishRectangle target rect) fun _ => h.doConnection

theorem pumpBlock {generator : Generator} (ht : generator.Refuses block → Told rt R)
    (hcopies : rt.Copies ∨ Told rt R) (finish : Option Rect) :
    Respects R (RFBClient.pumpBlock rt block generator finish) := by
  intro c
  refine ensures_finalState.1 (RFBClient.ensures_pumpBlock.2 ?_)
  refine Ensures.mono (h.send ht hcopies c) ?_ ?_
  · rintro progress c₁ ⟨hsent, hsize⟩
    refine Ensures.mono (Respects.ensures (h.resumePump finish progress hsize) c₁) ?_ ?_
    · exact fun _ c₂ hresumed => h.trans _ _ _ hsent hresumed
    · exact fun _ c₂ hresumed => h.trans _ _ _ hsent hresumed
  · rintro exc c₁ ⟨hsent, htold⟩
    split
    · refine Ensures.mono (Respects.ensures (h.abortConnection htold _) c₁) ?_ ?_
      · exact fun _ c₂ haborted => h.trans _ _ _ hsent haborted
      · exact fun _ c₂ haborted => h.trans _ _ _ hsent haborted
    · exact hsent

theorem pumpRaw {c : RFBClient σ} {rect : Rect}
    (ht : ¬ c.Fits rt.env rect.width rect.height → Told rt R) (hcopies : rt.Copies ∨ Told rt R) :
    R c (finalState ((RFBClient.pump rt .rawDecoder rect).run c)) := by
  refine h.bind_at (h.rectBuffer ht) fun target => ?_
  cases target with
  | none => exact h.pure _
  | some target =>
      have hfresh : (Generator.decodePixels target false).Refuses [] → Told rt R := False.elim
      exact h.pumpBlock hfresh hcopies _

theorem pumpCopyRect (rect : Rect) (hcopies : rt.Copies ∨ Told rt R) :
    Respects R (RFBClient.pump rt .copyRectDecoder rect) := by
  change Respects R (RFBClient.pumpBlock rt [] (.decodeForClient rect false) Option.none)
  have hfresh : (Generator.decodeForClient rect false).Refuses [] → Told rt R := False.elim
  exact h.pumpBlock hfresh hcopies _

/-! ## The encodings outside the pump -/

theorem decodeRRE (rect : Rect) : Respects R (RFBClient.handleDecodeRRE rt rect block) := by
  refine h.bind (h.calls fun _ => trivial) fun _ => respects_ite (fun _ => ?_) fun _ => h.doConnection
  exact h.get fun _ => h.expect _ _

theorem rreSubRectangles (bypp topx topy : ℕ) {fuel : ℕ} : ∀ block : Bytes,
    Respects R (RFBClient.rreSubRectangles rt bypp topx topy fuel block) := by
  induction fuel with
  | zero => exact fun _ => h.pure _
  | succ fuel ih =>
      intro block
      refine respects_ite (fun _ => h.pure _) fun _ => respects_ite (fun _ => h.throw _) fun _ => ?_
      exact h.bind (h.calls fun _ => trivial) fun _ => ih _

theorem handleRRESubRectangles (topx topy : ℕ) :
    Respects R (RFBClient.handleRRESubRectangles rt topx topy block) :=
  h.get fun _ => h.bind (h.rreSubRectangles _ _ _ _) fun _ => h.doConnection

theorem decodeCORRE (rect : Rect) : Respects R (RFBClient.handleDecodeCORRE rt rect block) := by
  refine h.bind (h.calls fun _ => trivial) fun _ => respects_ite (fun _ => ?_) fun _ => h.doConnection
  exact h.get fun _ => h.expect _ _

theorem doNextHextileSubrect (bg color : Option Bytes) (rect : Rect) (last : Option (ℕ × ℕ)) :
    Respects R (RFBClient.doNextHextileSubrect rt bg color rect last) :=
  respects_ite (fun _ => h.doConnection) fun _ => h.expect _ _

theorem decodeHextile (tile : HextileTile) :
    Respects R (RFBClient.handleDecodeHextile rt tile block) := by
  refine h.get fun c => ?_
  cases block with
  | nil => exact h.throw _
  | cons subencoding _ =>
      refine respects_ite (fun _ => h.expect _ _) fun _ => respects_ite (fun _ => h.expect _ _)
        fun _ => ?_
      exact h.bind (h.calls fun _ => trivial) fun _ => h.doNextHextileSubrect _ _ _ _

theorem decodeHextileSubrect (subencoding : UInt8) (tile : HextileTile) (tw th : ℕ) :
    Respects R (RFBClient.handleDecodeHextileSubrect rt subencoding tile tw th block) := by
  have hpainted (bypp : ℕ) (tile' : HextileTile) (subrects : ℕ) :
      Respects R (if subrects ≠ 0 then
          if RFBClient.HextileEncoding.has subencoding
              RFBClient.HextileEncoding.SUBRECTS_COLORED then
            Vncdotool.expect (.decodeHextileSubrectsColoured tile') ((bypp + 2) * subrects)
          else Vncdotool.expect (.decodeHextileSubrectsFG tile') (2 * subrects)
        else RFBClient.doNextHextileSubrect rt tile'.bg tile'.color tile'.rect
          (some (tile'.tx, tile'.ty))) := by
    refine respects_ite (fun _ => ?_) fun _ => h.doNextHextileSubrect _ _ _ _
    exact respects_ite (fun _ => h.expect _ _) fun _ => h.expect _ _
  refine h.get fun c => h.bind (h.calls fun _ => trivial) fun _ => respects_ite (fun _ => ?_) fun _ => ?_
  · dsimp only
    split
    · exact h.bind (h.pure _) fun subrects => hpainted _ _ subrects
    · exact h.bind (h.throw _) fun subrects => hpainted _ _ subrects
  · exact h.bind (h.pure _) fun subrects => hpainted _ _ subrects

theorem decodeHextileRAW (tile : HextileTile) (tw th : ℕ) :
    Respects R (RFBClient.handleDecodeHextileRAW rt tile tw th block) :=
  h.updates fun _ => h.doNextHextileSubrect _ _ _ _

theorem subrectsColoured (bypp : ℕ) (tile : HextileTile) {fuel : ℕ} :
    ∀ (block : Bytes) (color : Option Bytes),
      Respects R (RFBClient.subrectsColoured rt bypp tile fuel block color) := by
  induction fuel with
  | zero => exact fun _ _ => h.pure _
  | succ fuel ih =>
      intro block color
      unfold RFBClient.subrectsColoured
      refine respects_ite (fun _ => h.pure _) fun _ => ?_
      dsimp only
      split
      · exact h.bind (h.calls fun _ => trivial) fun _ => ih _ _
      · exact h.throw _

theorem decodeHextileSubrectsColoured (tile : HextileTile) :
    Respects R (RFBClient.handleDecodeHextileSubrectsColoured rt tile block) :=
  h.get fun _ => h.bind (h.subrectsColoured _ _ _ _) fun _ => h.doNextHextileSubrect _ _ _ _

theorem subrectsFG (tile : HextileTile) (block : Bytes) :
    Respects R (RFBClient.subrectsFG rt tile block) := by
  induction block using RFBClient.subrectsFG.induct with
  | case1 => exact h.pure _
  | case2 => exact h.throw _
  | case3 xy wh rest ih => exact h.bind (h.calls fun _ => trivial) fun _ => ih

theorem decodeHextileSubrectsFG (tile : HextileTile) :
    Respects R (RFBClient.handleDecodeHextileSubrectsFG rt tile block) :=
  h.bind (h.subrectsFG tile block) fun _ => h.doNextHextileSubrect _ _ _ _

theorem zrleTiles (rect : Rect) {fuel : ℕ} : ∀ (tx ty : ℤ) (it : Bytes),
    Respects R (RFBClient.zrleTiles rt rect fuel tx ty it) := by
  induction fuel with
  | zero => exact fun _ _ _ => h.pure _
  | succ fuel ih =>
      intro tx ty it
      cases it with
      | nil => exact h.pure _
      | cons subencoding it =>
          have hrest (it : Bytes) :
              Respects R (if (rect.x + rect.width : ℤ) ≤ tx + 64 then
                  RFBClient.zrleTiles rt rect fuel rect.x (ty + 64) it
                else RFBClient.zrleTiles rt rect fuel (tx + 64) ty it) :=
            respects_ite (fun _ => ih _ _ _) fun _ => ih _ _ _
          refine h.bind (h.liftExcept _) fun decoded => ?_
          rcases decoded with ⟨tile, it'⟩
          cases tile with
          | pixels data => exact h.updates fun _ => hrest it'
          | solid color => exact h.bind (h.calls fun _ => trivial) fun _ => hrest it'

theorem decodeZRLEdata (rect : Rect) :
    Respects R (RFBClient.handleDecodeZRLEdata rt rect block) := by
  refine h.get fun c => h.bind (h.liftExcept _) fun data => ?_
  refine h.bind (h.modify (fun _ => rfl) (fun _ => rfl) fun _ => rfl) fun _ => ?_
  exact h.bind (h.zrleTiles _ _ _ _) fun _ => h.doConnection

theorem decodePseudoCursor (rect : Rect) :
    Respects R (RFBClient.handleDecodePseudoCursor rt rect block) :=
  h.get fun _ => h.bind (h.calls fun _ => trivial) fun _ => h.doConnection

/-! ## The rectangle header -/

theorem dispatchRectangle {c : RFBClient σ} {rect : Rect} {encoding : ℤ}
    (hwidth : rect.width < 0x10000) (hheight : rect.height < 0x10000)
    (ht : (match Encoding.lookup encoding with
      | some .raw => ¬ c.Fits rt.env rect.width rect.height
      | some .copyRectangle => False
      | some .hextile => False
      | some .corre => False
      | some .rre => False
      | some .zrle => False
      | some .pseudoCursor => False
      | some .pseudoDesktopSize => False
      | some .pseudoQemuExtendedKeyEvent => False
      | _ => True) → Told rt R) (hcopies : rt.Copies ∨ Told rt R) :
    R c (finalState ((RFBClient.dispatchRectangle rt rect encoding).run c)) := by
  unfold RFBClient.dispatchRectangle
  cases hlookup : Encoding.lookup encoding with
  | none =>
      rw [hlookup] at ht
      exact h.protocolError (ht trivial) _ c
  | some known =>
      rw [hlookup] at ht
      cases known with
      | raw => exact h.pumpRaw ht hcopies
      | copyRectangle => exact h.pumpCopyRect rect hcopies c
      | hextile => exact finalState_get (h.doNextHextileSubrect none none rect none)
      | corre => exact h.expect _ _ c
      | rre => exact h.expect _ _ c
      | zrle => exact h.expect _ _ c
      | pseudoCursor => exact h.expect _ _ c
      | pseudoDesktopSize =>
          refine finalState_get ?_
          refine h.bind (h.modify (fun _ => rfl) (fun _ => rfl) fun _ => rfl) fun _ => ?_
          refine h.bind (h.calls fun _ => ?_) fun _ => h.doConnection
          exact ⟨⟨Int.natCast_nonneg _, Int.ofNat_lt.2 hwidth⟩, Int.natCast_nonneg _,
            Int.ofNat_lt.2 hheight⟩
      | pseudoQemuExtendedKeyEvent =>
          refine finalState_get ?_
          refine h.bind (h.modify (fun _ => rfl) (fun _ => rfl) fun _ => rfl) fun _ => ?_
          refine h.bind (h.modify (fun _ => rfl) (fun _ => rfl) fun _ => rfl) fun _ => ?_
          exact h.doConnection
      | _ => exact h.protocolError (ht trivial) _ c

theorem rectangle {c : RFBClient σ} (ht : Handler.rectangle.Tells rt.env c block → Told rt R)
    (hcopies : rt.Copies ∨ Told rt R) :
    R c (finalState ((RFBClient.handleRectangle rt block).run c)) := by
  refine ensures_finalState.1 ?_
  unfold RFBClient.handleRectangle
  dsimp only
  refine ensures_ite.2 ⟨fun _ => ?_, fun hlast => ?_⟩
  -- Nothing is left to count.
  · refine ensures_bind.2 (ensures_bind.2 ?_)
    refine ensures_ite.2 ⟨fun hpos => absurd rfl hpos, fun _ => ?_⟩
    have hzero : R c { c with rectangles := 0 } := h.state _ _ rfl rfl rfl
    refine Ensures.mono (Respects.ensures h.doConnection _) ?_ ?_
    · exact fun _ _ hdone => h.trans _ _ _ hzero hdone
    · exact fun _ _ hdone => h.trans _ _ _ hzero hdone
  · refine ensures_bind.2 (ensures_ite.2 ⟨fun hpos => ?_, fun _ => ?_⟩)
    · let rect : Rect :=
        { x := field block 0 2, y := field block 2 2, width := field block 4 2,
          height := field block 6 2 }
      let c₁ : RFBClient σ :=
        { c with rectangles := c.rectangles - 1, rectanglePos := c.rectanglePos ++ [rect] }
      have hcounted : R c c₁ := h.state _ _ rfl rfl rfl
      have hdispatch : R c₁ (finalState
          ((RFBClient.dispatchRectangle rt rect (s32 (field block 8 4))).run c₁)) :=
        h.dispatchRectangle (field_lt block 4 2) (field_lt block 6 2)
          (fun htells => ht ⟨⟨hlast, hpos⟩, htells⟩) hcopies
      refine ensures_bind.2 (ensures_bind.2 ?_)
      change Ensures (RFBClient.dispatchRectangle rt rect (s32 (field block 8 4))) c₁ _ _
      refine Ensures.mono (ensures_finalState.2 hdispatch) ?_ ?_
      · exact fun _ _ hdone => h.trans _ _ _ hcounted hdone
      · exact fun _ _ hdone => h.trans _ _ _ hcounted hdone
    · exact Respects.ensures h.doConnection c

/-! ## Every handler -/

/-- Whatever handler is called on whatever block: the callbacks that tell how the connection fares
have to be respected only if it makes one. -/
theorem run_at {handler : Handler} {c : RFBClient σ}
    (ht : handler.Tells rt.env c block → Told rt R) (hinit : handler = .serverInit → Announced R)
    (hcopies : rt.Copies ∨ Told rt R) :
    R c (finalState ((handler.run rt block).run c)) := by
  by_cases hhandshake : handler.Handshakes
  · exact h.run_handshake hhandshake ht hinit
  cases handler with
  | connection => exact h.connection ht c
  | framebufferUpdate => exact h.framebufferUpdate c
  | rectangle => exact h.rectangle ht hcopies
  | pumpBlock generator finish => exact h.pumpBlock ht hcopies finish c
  | decodeRRE rect => exact h.decodeRRE rect c
  | rreSubRectangles topx topy => exact h.handleRRESubRectangles topx topy c
  | decodeCORRE rect => exact h.decodeCORRE rect c
  | decodeCORRERectangles topx topy => exact h.throw _ c
  | decodeHextile tile => exact h.decodeHextile tile c
  | decodeHextileSubrect subencoding tile tw th =>
      exact h.decodeHextileSubrect subencoding tile tw th c
  | decodeHextileRAW tile tw th => exact h.decodeHextileRAW tile tw th c
  | decodeHextileSubrectsColoured tile => exact h.decodeHextileSubrectsColoured tile c
  | decodeHextileSubrectsFG tile => exact h.decodeHextileSubrectsFG tile c
  | decodeZRLE rect => exact h.expect _ _ c
  | decodeZRLEdata rect => exact h.decodeZRLEdata rect c
  | decodePseudoCursor rect => exact h.decodePseudoCursor rect c
  | colourMapEntries => exact h.expect _ _ c
  | colourMapEntriesValue first =>
      exact h.bind_at (h.call c (.setColorMap first (RFBClient.colours block)) trivial)
        fun _ => h.expect _ _
  | serverCutText => exact h.expect _ _ c
  | serverCutTextValue =>
      exact h.bind_at (h.call c (.copyText (RFBClient.latin1 block)) trivial)
        fun _ => h.expect _ _
  | _ => exact absurd trivial hhandshake

/-! ## Every step of a connection -/

/-- A turn of the loop. -/
theorem iterate_at {conn conn' : Connection σ}
    (hiterate : Connection.iterate rt conn = some conn')
    (ht : ∀ handler block, conn.pending = some (handler, block) →
      handler.Tells rt.env conn.client block → Told rt R)
    (hinit : conn.client.expectedHandler = .serverInit → Announced R)
    (hcopies : rt.Copies ∨ Told rt R) : R conn.client conn'.client := by
  rcases Connection.client_iterate hiterate with ⟨handler, block, hpending, hclient⟩
  have hhandler := (Connection.pending_eq_some_iff.1 hpending).2.1
  rw [hclient]
  exact h.run_at (ht handler block hpending) (fun heq => hinit (hhandler.symm.trans heq)) hcopies

theorem iterate (ht : Told rt R) (hinit : Announced R) {conn conn' : Connection σ}
    (hiterate : Connection.iterate rt conn = some conn') : R conn.client conn'.client :=
  h.iterate_at hiterate (fun _ _ _ _ => ht) (fun _ => hinit) (Or.inr ht)

end Maintains

end Vncdotool
