import Vncdotool.Streaming.Couples
import Vncdotool.RFB.Frames

/-!
# Likeness — decoding looks at nothing that a subclass adds

Two clients are alike if they are the same parser, logged the same events of a kind, and what their
classes have added is related.  If each callback takes alike clients to alike ones, then so does
every handler on every block, and with them every turn of the receive loop (`Likens.iterate`) and
every arrival of bytes (`Likens.enter`): whatever the subclass attributes are, the same bytes are
decoded in the same way.
-/

namespace Vncdotool

open Wire Streaming

variable {σ σ' : Type}

/-! ## Alike clients -/

def Event.isCallback : Event → Bool
  | .callback _ => true
  | _ => false

/-- The client without what a subclass adds, and with the events of one kind alone. -/
def RFBClient.bare (kind : Event → Bool) (c : RFBClient σ) : RFBClient Unit :=
  { c with app := (), log := c.log.filter kind }

/-- The same parser, with related attributes of the subclass. -/
structure Alike (kind : Event → Bool) (S : σ → σ' → Prop) (c : RFBClient σ) (c' : RFBClient σ') :
    Prop where
  bare : c'.bare kind = c.bare kind
  app : S c.app c'.app
  sized : c.Sized

namespace Alike

variable {kind : Event → Bool} {S : σ → σ' → Prop} {c : RFBClient σ} {c' : RFBClient σ'}

theorem pixelFormat (h : Alike kind S c c') : c'.pixelFormat = c.pixelFormat :=
  congrArg RFBClient.pixelFormat h.bare

theorem rectangles (h : Alike kind S c c') : c'.rectangles = c.rectangles :=
  congrArg RFBClient.rectangles h.bare

theorem rectanglePos (h : Alike kind S c c') : c'.rectanglePos = c.rectanglePos :=
  congrArg RFBClient.rectanglePos h.bare

theorem rectBacking (h : Alike kind S c c') : c'.rectBacking = c.rectBacking :=
  congrArg RFBClient.rectBacking h.bare

theorem width (h : Alike kind S c c') : c'.width = c.width :=
  congrArg RFBClient.width h.bare

theorem height (h : Alike kind S c c') : c'.height = c.height :=
  congrArg RFBClient.height h.bare

theorem version (h : Alike kind S c c') : c'.version = c.version :=
  congrArg RFBClient.version h.bare

theorem versionServer (h : Alike kind S c c') : c'.versionServer = c.versionServer :=
  congrArg RFBClient.versionServer h.bare

theorem factory (h : Alike kind S c c') : c'.factory = c.factory :=
  congrArg RFBClient.factory h.bare

theorem challenge (h : Alike kind S c c') : c'.challenge = c.challenge :=
  congrArg RFBClient.challenge h.bare

theorem stage (h : Alike kind S c c') : c'.stage = c.stage :=
  congrArg RFBClient.stage h.bare

theorem aborted (h : Alike kind S c c') : c'.aborted = c.aborted :=
  congrArg RFBClient.aborted h.bare

theorem armed (h : Alike kind S c c') : c'.armed = c.armed :=
  congrArg RFBClient.armed h.bare

/-- Clients that are alike in everything, attributes included, are the same. -/
theorem eq_of_bare {c c' : RFBClient σ} (hbare : c'.bare (fun _ => true) = c.bare fun _ => true)
    (happ : c'.app = c.app) : c' = c := by
  cases c
  cases c'
  simp only [RFBClient.bare, List.filter_true, RFBClient.mk.injEq] at hbare happ ⊢
  grind

theorem sized' (h : Alike kind S c c') : c'.Sized := by
  unfold RFBClient.Sized
  rw [h.width, h.height]
  exact h.sized

end Alike

/-- The callbacks of two classes of clients take alike clients to alike ones. -/
structure Likens (kind : Event → Bool) (S : σ → σ' → Prop) (rt : Runtime σ) (rt' : Runtime σ') :
    Prop where
  env : rt'.env = rt.env
  call : ∀ cb, Couples (Alike kind S) (rt.call cb) (rt'.call cb)

/-! ## Rules -/

section Rules

variable {kind : Event → Bool} {S : σ → σ' → Prop} {α : Type}

/-- An attribute of the parser is set on both sides. -/
theorem couples_onParser {g : RFBClient σ → RFBClient σ} {g' : RFBClient σ' → RFBClient σ'}
    (G : RFBClient Unit → RFBClient Unit) (hbare : ∀ c, (g c).bare kind = G (c.bare kind))
    (hbare' : ∀ c, (g' c).bare kind = G (c.bare kind)) (happ : ∀ c, (g c).app = c.app)
    (happ' : ∀ c, (g' c).app = c.app) (hsized : ∀ c, c.Sized → (g c).Sized) :
    Couples (Alike kind S) (modify g : Py σ PUnit) (modify g') := by
  refine couples_modify fun c c' h => ⟨?_, ?_, hsized c h.sized⟩
  · rw [hbare', hbare, h.bare]
  · rw [happ, happ']
    exact h.app

theorem couples_expect (handler : Handler) (size : ℕ) :
    Couples (Alike kind S) (expect handler size) (expect handler size) :=
  couples_onParser (fun b => { b with expectedHandler := handler, expectedLen := size })
    (fun _ => rfl) (fun _ => rfl) (fun _ => rfl) (fun _ => rfl) fun _ h => h

theorem couples_liftExcept (x : Except PyError α) :
    Couples (Alike kind S) (liftExcept x : Py σ α) (liftExcept x) := by
  cases x with
  | ok a => exact couples_pure a
  | error exc => exact couples_throw exc

/-- What a log entry adds to the callbacks. -/
theorem couples_record (event : Event) :
    Couples (Alike kind S) (record event : Py σ Unit) (record event) := by
  refine couples_onParser (fun b => { b with log := b.log ++ [event].filter kind })
    (fun c => ?_) (fun c => ?_) (fun _ => rfl) (fun _ => rfl) fun _ h => h
  · simp only [RFBClient.bare, List.filter_append]
  · simp only [RFBClient.bare, List.filter_append]

theorem couples_write (data : Bytes) :
    Couples (Alike kind S) (write data : Py σ Unit) (write data) :=
  couples_record _

theorem couples_loseConnection :
    Couples (Alike kind S) (loseConnection : Py σ Unit) loseConnection :=
  couples_record _

end Rules

namespace Likens

variable {kind : Event → Bool} {S : σ → σ' → Prop} {rt : Runtime σ} {rt' : Runtime σ'}
  {block : Bytes}

section

variable (h : Likens kind S rt rt')

include h

theorem protocolError (reason : ProtocolFailure) :
    Couples (Alike kind S) (rt.protocolError reason) (rt'.protocolError reason) :=
  couples_bind (h.call _) fun _ => couples_loseConnection

theorem authFailed (reason : AuthFailure) :
    Couples (Alike kind S) (rt.authFailed reason) (rt'.authFailed reason) :=
  couples_bind (h.call _) fun _ => couples_loseConnection

theorem abortConnection (reason : ProtocolFailure) :
    Couples (Alike kind S) (rt.abortConnection reason) (rt'.abortConnection reason) := by
  refine couples_bind ?_ fun _ => h.protocolError reason
  exact couples_onParser (fun b => { b with aborted := true }) (fun _ => rfl) (fun _ => rfl)
    (fun _ => rfl) (fun _ => rfl) fun _ h => h

/-! ## The handshake -/

omit h in
theorem doClientInitialization :
    Couples (Alike kind S) (RFBClient.doClientInitialization : Py σ Unit)
      RFBClient.doClientInitialization := by
  refine couples_get fun c c' hc => ?_
  rw [hc.factory]
  exact couples_bind (couples_write _) fun _ => couples_expect _ _

omit h in
theorem numberSecurityTypes :
    Couples (Alike kind S) (RFBClient.handleNumberSecurityTypes block : Py σ Unit)
      (RFBClient.handleNumberSecurityTypes block) :=
  couples_ite (fun _ => couples_expect _ _) fun _ => couples_expect _ _

theorem securityTypes :
    Couples (Alike kind S) (RFBClient.handleSecurityTypes rt block)
      (RFBClient.handleSecurityTypes rt' block) := by
  unfold RFBClient.handleSecurityTypes
  dsimp only
  cases ((block.map UInt8.toNat).filter (· ∈ RFBClient.supportedAuths)).max? with
  | none => exact h.protocolError _
  | some secType =>
      refine couples_bind (couples_write _) fun _ => couples_ite (fun _ => ?_) fun _ => ?_
      · refine couples_get fun c c' hc => ?_
        rw [hc.version]
        exact couples_ite (fun _ => doClientInitialization) fun _ => couples_expect _ _
      · refine couples_ite (fun _ => couples_expect _ _) fun _ => ?_
        exact couples_ite (fun _ => couples_expect _ _) fun _ => couples_pure _

theorem auth :
    Couples (Alike kind S) (RFBClient.handleAuth rt block) (RFBClient.handleAuth rt' block) := by
  refine couples_ite (fun _ => couples_expect _ _) fun _ => ?_
  refine couples_ite (fun _ => doClientInitialization) fun _ => ?_
  exact couples_ite (fun _ => couples_expect _ _) fun _ => h.protocolError _

theorem vncAuth :
    Couples (Alike kind S) (RFBClient.handleVNCAuth rt block)
      (RFBClient.handleVNCAuth rt' block) := by
  refine couples_bind ?_ fun _ => couples_bind (h.call _) fun _ => couples_expect _ _
  exact couples_onParser (fun b => { b with challenge := block }) (fun _ => rfl) (fun _ => rfl)
    (fun _ => rfl) (fun _ => rfl) fun _ h => h

omit h in
theorem dhAuth :
    Couples (Alike kind S) (RFBClient.handleDHAuth block : Py σ Unit)
      (RFBClient.handleDHAuth block) := by
  refine couples_bind ?_ fun _ => couples_expect _ _
  exact couples_onParser
    (fun b => { b with generator := field block 0 2, keyLen := field block 2 2 }) (fun _ => rfl)
    (fun _ => rfl) (fun _ => rfl) (fun _ => rfl) fun _ h => h

omit h in
theorem dhAuthKey :
    Couples (Alike kind S) (RFBClient.handleDHAuthKey block : Py σ Unit)
      (RFBClient.handleDHAuthKey block) := by
  refine couples_bind ?_ fun _ => couples_get fun c c' hc => ?_
  · exact couples_onParser (fun b => { b with modulus := block }) (fun _ => rfl) (fun _ => rfl)
      (fun _ => rfl) (fun _ => rfl) fun _ h => h
  · have hlen : c'.keyLen = c.keyLen := congrArg RFBClient.keyLen hc.bare
    rw [hlen]
    exact couples_expect _ _

theorem encryptArd : Couples (Alike kind S) rt.encryptArd rt'.encryptArd := by
  refine couples_get fun c c' hc => ?_
  have hmodulus : c'.modulus = c.modulus := congrArg RFBClient.modulus hc.bare
  have hgenerator : c'.generator = c.generator := congrArg RFBClient.generator hc.bare
  have hserver : c'.serverKey = c.serverKey := congrArg RFBClient.serverKey hc.bare
  have hlen : c'.keyLen = c.keyLen := congrArg RFBClient.keyLen hc.bare
  rw [hc.factory, hmodulus, hgenerator, hserver, hlen, h.env]
  refine couples_bind (couples_liftExcept _) fun keys => ?_
  refine couples_bind (couples_liftExcept _) fun _ => ?_
  exact couples_ite (fun _ => couples_bind (couples_throw _) fun _ => couples_write _)
    fun _ => couples_write _

theorem ardRequestCredentials :
    Couples (Alike kind S) rt.ardRequestCredentials rt'.ardRequestCredentials := by
  unfold Runtime.ardRequestCredentials
  rw [h.env]
  exact couples_onParser
    (fun b =>
      { b with
        factory :=
          { b.factory with
            username := some (b.factory.username.getD rt.env.typedUsername)
            password := some (b.factory.password.getD rt.env.typedPassword) } })
    (fun _ => rfl) (fun _ => rfl) (fun _ => rfl) (fun _ => rfl) fun _ h => h

theorem dhAuthCert :
    Couples (Alike kind S) (RFBClient.handleDHAuthCert rt block)
      (RFBClient.handleDHAuthCert rt' block) := by
  refine couples_bind ?_ fun _ => couples_bind h.ardRequestCredentials fun _ => ?_
  · exact couples_onParser (fun b => { b with serverKey := block }) (fun _ => rfl) (fun _ => rfl)
      (fun _ => rfl) (fun _ => rfl) fun _ h => h
  · exact couples_bind h.encryptArd fun _ => couples_expect _ _

theorem vncAuthResult :
    Couples (Alike kind S) (RFBClient.handleVNCAuthResult rt block)
      (RFBClient.handleVNCAuthResult rt' block) := by
  refine couples_get fun c c' hc => ?_
  rw [hc.version]
  refine couples_ite (fun _ => doClientInitialization) fun _ => couples_ite (fun _ => ?_) fun _ => ?_
  · exact couples_ite (fun _ => h.authFailed _) fun _ => couples_expect _ _
  · refine couples_ite (fun _ => ?_) fun _ => couples_loseConnection
    exact couples_ite (fun _ => h.authFailed _) fun _ => couples_expect _ _

omit h in
theorem serverInit :
    Couples (Alike kind S) (RFBClient.handleServerInit block : Py σ Unit)
      (RFBClient.handleServerInit block) := by
  refine couples_bind ?_ fun _ => couples_expect _ _
  refine couples_onParser
    (fun b =>
      { b with
        width := field block 0 2
        height := field block 2 2
        pixelFormat := PixelFormat.fromBytes (slice block 4 16) })
    (fun _ => rfl) (fun _ => rfl) (fun _ => rfl) (fun _ => rfl) fun _ _ => ?_
  exact ⟨field_lt block 0 2, field_lt block 2 2⟩

theorem serverName :
    Couples (Alike kind S) (RFBClient.handleServerName rt block)
      (RFBClient.handleServerName rt' block) := by
  refine couples_bind ?_ fun _ => couples_bind (h.call _) fun _ => couples_expect _ _
  exact couples_onParser (fun b => { b with name := block }) (fun _ => rfl) (fun _ => rfl)
    (fun _ => rfl) (fun _ => rfl) fun _ h => h

theorem handleInitial (packet : Bytes) :
    Couples (Alike kind S) (RFBClient.handleInitial rt packet)
      (RFBClient.handleInitial rt' packet) := by
  unfold RFBClient.handleInitial
  dsimp only
  refine couples_ite (fun _ => ?_) fun _ => couples_ite (fun _ => couples_pure _) fun _ => ?_
  · cases parseVersion (packet.take 12) with
    | none => exact fun c c' hc => ⟨rfl, hc⟩
    | some versionServer =>
        dsimp only
        rw [pure_bind, pure_bind]
        cases RFBClient.chooseVersion versionServer with
        | none => exact fun c c' hc => ⟨rfl, hc⟩
        | some version =>
            dsimp only
            rw [pure_bind, pure_bind]
            refine couples_bind (couples_write _) fun _ => couples_bind ?_ fun _ => ?_
            · exact couples_onParser
                (fun b =>
                  { b with
                    stage := .handleExpected
                    version := version
                    versionServer := versionServer })
                (fun _ => rfl) (fun _ => rfl) (fun _ => rfl) (fun _ => rfl) fun _ h => h
            · exact couples_ite (fun _ => couples_bind (couples_expect _ _) fun _ => couples_pure _)
                fun _ => couples_bind (couples_expect _ _) fun _ => couples_pure _
  · exact couples_bind (h.protocolError _) fun _ => couples_pure _

/-! ## Messages and the pump -/

theorem doConnection :
    Couples (Alike kind S) (RFBClient.doConnection rt) (RFBClient.doConnection rt') := by
  refine couples_get fun c c' hc => ?_
  rw [hc.rectangles, hc.rectanglePos]
  refine couples_ite (fun _ => couples_expect _ _) fun _ => ?_
  exact couples_bind (h.call _) fun _ => couples_expect _ _

theorem connection :
    Couples (Alike kind S) (RFBClient.handleConnection rt block)
      (RFBClient.handleConnection rt' block) := by
  unfold RFBClient.handleConnection
  dsimp only
  cases MsgS2C.lookup (field block 0 1) with
  | none => exact h.protocolError _
  | some msg =>
      cases msg with
      | framebufferUpdate => exact couples_expect _ _
      | setColourMapEntries => exact couples_expect _ _
      | bell => exact couples_bind (h.call _) fun _ => couples_expect _ _
      | serverCutText => exact couples_expect _ _

theorem framebufferUpdate :
    Couples (Alike kind S) (RFBClient.handleFramebufferUpdate rt block)
      (RFBClient.handleFramebufferUpdate rt' block) := by
  refine couples_bind ?_ fun _ => couples_bind (h.call _) fun _ => h.doConnection
  exact couples_onParser (fun b => { b with rectangles := field block 1 2, rectanglePos := [] })
    (fun _ => rfl) (fun _ => rfl) (fun _ => rfl) (fun _ => rfl) fun _ h => h

theorem rectBuffer (width height : ℕ) :
    Couples (Alike kind S) (RFBClient.rectBuffer rt width height)
      (RFBClient.rectBuffer rt' width height) := by
  have hmake : Couples (Alike kind S)
      (do
        let c ← get
        let buffer ← liftExcept (RectBuffer.make width height c.pixelFormat.bypp c.rectBacking)
        return some buffer : Py σ (Option RectBuffer))
      (do
        let c ← get
        let buffer ← liftExcept (RectBuffer.make width height c.pixelFormat.bypp c.rectBacking)
        return some buffer : Py σ' (Option RectBuffer)) := by
    refine couples_get fun c c' hc => ?_
    rw [hc.pixelFormat, hc.rectBacking]
    exact couples_bind (couples_liftExcept _) fun _ => couples_pure _
  have habort (reason : ProtocolFailure) : Couples (Alike kind S)
      (do
        rt.abortConnection reason
        return none : Py σ (Option RectBuffer))
      (do
        rt'.abortConnection reason
        return none : Py σ' (Option RectBuffer)) :=
    couples_bind (h.abortConnection _) fun _ => couples_pure _
  refine couples_get fun c c' hc => ?_
  rw [hc.pixelFormat, hc.rectBacking, hc.width, hc.height, h.env]
  refine couples_ite (fun _ => habort _) fun _ => couples_ite (fun _ => ?_) fun _ => hmake
  refine couples_ite (fun _ => couples_bind ?_ fun _ => hmake) fun _ => habort _
  exact couples_onParser
    (fun b => { b with rectBacking := List.replicate (width * height * c.pixelFormat.bypp) 0 })
    (fun _ => rfl) (fun _ => rfl) (fun _ => rfl) (fun _ => rfl) fun _ h => h

theorem send (generator : Generator) :
    Couples (Alike kind S) (RFBClient.send rt generator block)
      (RFBClient.send rt' generator block) := by
  cases generator with
  | decodePixels target suspended =>
      cases suspended with
      | false => exact couples_pure _
      | true => exact couples_bind (couples_liftExcept _) fun _ => couples_pure _
  | decodeForClient rect suspended =>
      cases suspended with
      | false => exact couples_pure _
      | true => exact couples_bind (h.call _) fun _ => couples_pure _

theorem finishRectangle (target : RectBuffer) (rect : Rect) :
    Couples (Alike kind S) (RFBClient.finishRectangle rt target rect)
      (RFBClient.finishRectangle rt' target rect) := by
  refine couples_bind ?_ fun _ => couples_get fun c c' hc => ?_
  · exact couples_onParser (fun b => { b with rectBacking := target.backing }) (fun _ => rfl)
      (fun _ => rfl) (fun _ => rfl) (fun _ => rfl) fun _ h => h
  · rw [hc.pixelFormat]
    exact h.call _

theorem resumePump (finish : Option Rect) (progress : RFBClient.Progress) :
    Couples (Alike kind S) (RFBClient.resumePump rt finish progress)
      (RFBClient.resumePump rt' finish progress) := by
  cases progress with
  | yielded size generator =>
      exact couples_ite (fun _ => h.abortConnection _) fun _ => couples_expect _ _
  | returned target =>
      cases finish with
      | none => exact h.doConnection
      | some rect =>
          cases target with
          | none => exact h.doConnection
          | some target => exact couples_bind (h.finishRectangle target rect) fun _ => h.doConnection

/-- What a generator raises either fails the connection on both sides or escapes on both. -/
theorem pumpBlock (generator : Generator) (finish : Option Rect) :
    Couples (Alike kind S) (RFBClient.pumpBlock rt block generator finish)
      (RFBClient.pumpBlock rt' block generator finish) := by
  intro c c' hc
  have hsend := @send _ _ _ _ _ _ block h generator c c' hc
  unfold RFBClient.pumpBlock
  cases hres : RFBClient.send rt generator block c with
  | ok progress d =>
      cases hres' : RFBClient.send rt' generator block c' with
      | error exc' d' =>
          rw [hres, hres'] at hsend
          exact hsend.elim
      | ok progress' d' =>
          rw [hres, hres'] at hsend
          rcases hsend with ⟨rfl, hd⟩
          cases progress' with
          | yielded size generator =>
              dsimp only
              split_ifs
              · exact h.abortConnection _ d d' hd
              · exact couples_expect _ _ d d' hd
          | returned target => exact h.resumePump finish (.returned target) d d' hd
  | error exc d =>
      cases hres' : RFBClient.send rt' generator block c' with
      | ok progress' d' =>
          rw [hres, hres'] at hsend
          exact hsend.elim
      | error exc' d' =>
          rw [hres, hres'] at hsend
          rcases hsend with ⟨rfl, hd⟩
          dsimp only
          split_ifs
          · exact h.abortConnection _ d d' hd
          · exact ⟨rfl, hd⟩

theorem pump (decoder : Decoder) (rect : Rect) :
    Couples (Alike kind S) (RFBClient.pump rt decoder rect) (RFBClient.pump rt' decoder rect) := by
  cases decoder with
  | rawDecoder =>
      refine couples_bind (h.rectBuffer _ _) fun target => ?_
      cases target with
      | none => exact couples_pure _
      | some target => exact h.pumpBlock _ _
  | copyRectDecoder =>
      change Couples (Alike kind S) (RFBClient.pumpBlock rt [] (.decodeForClient rect false) none)
        (RFBClient.pumpBlock rt' [] (.decodeForClient rect false) none)
      exact h.pumpBlock _ _

/-! ## The encodings outside the pump -/

/-- What RRE and CoRRE do once the background is painted. -/
theorem awaitSubrectangles {subrects : ℕ} {handler : Handler} (size : ℕ) :
    Couples (Alike kind S)
      (if subrects ≠ 0 then do
        expect handler ((size + (← get).pixelFormat.bypp) * subrects)
      else
        RFBClient.doConnection rt : Py σ Unit)
      (if subrects ≠ 0 then do
        expect handler ((size + (← get).pixelFormat.bypp) * subrects)
      else
        RFBClient.doConnection rt' : Py σ' Unit) := by
  refine couples_ite (fun _ => couples_get fun c c' hc => ?_) fun _ => h.doConnection
  rw [hc.pixelFormat]
  exact couples_expect _ _

theorem decodeRRE (rect : Rect) :
    Couples (Alike kind S) (RFBClient.handleDecodeRRE rt rect block)
      (RFBClient.handleDecodeRRE rt' rect block) :=
  couples_bind (h.call _) fun _ => h.awaitSubrectangles 8

theorem rreSubRectangles (bypp topx topy : ℕ) {fuel : ℕ} : ∀ block : Bytes,
    Couples (Alike kind S) (RFBClient.rreSubRectangles rt bypp topx topy fuel block)
      (RFBClient.rreSubRectangles rt' bypp topx topy fuel block) := by
  induction fuel with
  | zero => exact fun _ => couples_pure _
  | succ fuel ih =>
      intro block
      refine couples_ite (fun _ => couples_pure _) fun _ => couples_ite (fun _ => ?_) fun _ => ?_
      · exact couples_bind (couples_throw _) fun _ => couples_bind (h.call _) fun _ => ih _
      · exact couples_bind (h.call _) fun _ => ih _

theorem handleRRESubRectangles (topx topy : ℕ) :
    Couples (Alike kind S) (RFBClient.handleRRESubRectangles rt topx topy block)
      (RFBClient.handleRRESubRectangles rt' topx topy block) := by
  refine couples_get fun c c' hc => ?_
  rw [hc.pixelFormat]
  exact couples_bind (h.rreSubRectangles _ _ _ _) fun _ => h.doConnection

theorem decodeCORRE (rect : Rect) :
    Couples (Alike kind S) (RFBClient.handleDecodeCORRE rt rect block)
      (RFBClient.handleDecodeCORRE rt' rect block) :=
  couples_bind (h.call _) fun _ => h.awaitSubrectangles 4

theorem doNextHextileSubrect (bg color : Option Bytes) (rect : Rect) (last : Option (ℕ × ℕ)) :
    Couples (Alike kind S) (RFBClient.doNextHextileSubrect rt bg color rect last)
      (RFBClient.doNextHextileSubrect rt' bg color rect last) :=
  couples_ite (fun _ => h.doConnection) fun _ => couples_expect _ _

theorem decodeHextile (tile : HextileTile) :
    Couples (Alike kind S) (RFBClient.handleDecodeHextile rt tile block)
      (RFBClient.handleDecodeHextile rt' tile block) := by
  refine couples_get fun c c' hc => ?_
  rw [hc.pixelFormat]
  cases block with
  | nil => exact couples_throw _
  | cons subencoding _ =>
      refine couples_ite (fun _ => couples_expect _ _) fun _ => ?_
      refine couples_ite (fun _ => couples_expect _ _) fun _ => ?_
      exact couples_bind (h.call _) fun _ => h.doNextHextileSubrect _ _ _ _

theorem decodeHextileSubrect (subencoding : UInt8) (tile : HextileTile) (tw th : ℕ) :
    Couples (Alike kind S) (RFBClient.handleDecodeHextileSubrect rt subencoding tile tw th block)
      (RFBClient.handleDecodeHextileSubrect rt' subencoding tile tw th block) := by
  have hpainted (bypp : ℕ) (tile' : HextileTile) (subrects : ℕ) : Couples (Alike kind S)
      (if subrects ≠ 0 then
          if RFBClient.HextileEncoding.has subencoding
              RFBClient.HextileEncoding.SUBRECTS_COLORED then
            expect (.decodeHextileSubrectsColoured tile') ((bypp + 2) * subrects)
          else expect (.decodeHextileSubrectsFG tile') (2 * subrects)
        else RFBClient.doNextHextileSubrect rt tile'.bg tile'.color tile'.rect
          (some (tile'.tx, tile'.ty)))
      (if subrects ≠ 0 then
          if RFBClient.HextileEncoding.has subencoding
              RFBClient.HextileEncoding.SUBRECTS_COLORED then
            expect (.decodeHextileSubrectsColoured tile') ((bypp + 2) * subrects)
          else expect (.decodeHextileSubrectsFG tile') (2 * subrects)
        else RFBClient.doNextHextileSubrect rt' tile'.bg tile'.color tile'.rect
          (some (tile'.tx, tile'.ty))) := by
    refine couples_ite (fun _ => ?_) fun _ => h.doNextHextileSubrect _ _ _ _
    exact couples_ite (fun _ => couples_expect _ _) fun _ => couples_expect _ _
  refine couples_get fun c c' hc => ?_
  rw [hc.pixelFormat]
  refine couples_bind (h.call _) fun _ => couples_ite (fun _ => ?_) fun _ => ?_
  · dsimp only
    split
    · exact couples_bind (couples_pure _) fun subrects => hpainted _ _ subrects
    · exact couples_bind (couples_throw _) fun subrects => hpainted _ _ subrects
  · exact couples_bind (couples_pure _) fun subrects => hpainted _ _ subrects

theorem decodeHextileRAW (tile : HextileTile) (tw th : ℕ) :
    Couples (Alike kind S) (RFBClient.handleDecodeHextileRAW rt tile tw th block)
      (RFBClient.handleDecodeHextileRAW rt' tile tw th block) := by
  refine couples_get fun c c' hc => ?_
  rw [hc.pixelFormat]
  exact couples_bind (h.call _) fun _ => h.doNextHextileSubrect _ _ _ _

theorem subrectsColoured (bypp : ℕ) (tile : HextileTile) {fuel : ℕ} :
    ∀ (block : Bytes) (color : Option Bytes),
      Couples (Alike kind S) (RFBClient.subrectsColoured rt bypp tile fuel block color)
        (RFBClient.subrectsColoured rt' bypp tile fuel block color) := by
  induction fuel with
  | zero => exact fun _ _ => couples_pure _
  | succ fuel ih =>
      intro block color
      unfold RFBClient.subrectsColoured
      refine couples_ite (fun _ => couples_pure _) fun _ => ?_
      dsimp only
      split
      · exact couples_bind (h.call _) fun _ => ih _ _
      · exact couples_throw _

theorem decodeHextileSubrectsColoured (tile : HextileTile) :
    Couples (Alike kind S) (RFBClient.handleDecodeHextileSubrectsColoured rt tile block)
      (RFBClient.handleDecodeHextileSubrectsColoured rt' tile block) := by
  refine couples_get fun c c' hc => ?_
  rw [hc.pixelFormat]
  exact couples_bind (h.subrectsColoured _ _ _ _) fun _ => h.doNextHextileSubrect _ _ _ _

theorem subrectsFG (tile : HextileTile) (block : Bytes) :
    Couples (Alike kind S) (RFBClient.subrectsFG rt tile block)
      (RFBClient.subrectsFG rt' tile block) := by
  induction block using RFBClient.subrectsFG.induct with
  | case1 => exact couples_pure _
  | case2 => exact couples_throw _
  | case3 xy wh rest ih => exact couples_bind (h.call _) fun _ => ih

theorem decodeHextileSubrectsFG (tile : HextileTile) :
    Couples (Alike kind S) (RFBClient.handleDecodeHextileSubrectsFG rt tile block)
      (RFBClient.handleDecodeHextileSubrectsFG rt' tile block) :=
  couples_bind (h.subrectsFG tile block) fun _ => h.doNextHextileSubrect _ _ _ _

theorem zrleTiles (rect : Rect) {fuel : ℕ} : ∀ (tx ty : ℤ) (it : Bytes),
    Couples (Alike kind S) (RFBClient.zrleTiles rt rect fuel tx ty it)
      (RFBClient.zrleTiles rt' rect fuel tx ty it) := by
  induction fuel with
  | zero => exact fun _ _ _ => couples_pure _
  | succ fuel ih =>
      intro tx ty it
      cases it with
      | nil => exact couples_pure _
      | cons subencoding it =>
          refine couples_bind (couples_liftExcept _) fun decoded => ?_
          rcases decoded with ⟨tile, it'⟩
          cases tile with
          | pixels data =>
              refine couples_get fun c c' hc => ?_
              rw [hc.pixelFormat]
              refine couples_bind (h.call _) fun _ => ?_
              exact couples_ite (fun _ => ih _ _ _) fun _ => ih _ _ _
          | solid color =>
              refine couples_bind (h.call _) fun _ => ?_
              exact couples_ite (fun _ => ih _ _ _) fun _ => ih _ _ _

theorem decodeZRLEdata (rect : Rect) :
    Couples (Alike kind S) (RFBClient.handleDecodeZRLEdata rt rect block)
      (RFBClient.handleDecodeZRLEdata rt' rect block) := by
  refine couples_get fun c c' hc => ?_
  have hstream : c'.zlibStream = c.zlibStream := congrArg RFBClient.zlibStream hc.bare
  rw [hstream, h.env]
  refine couples_bind (couples_liftExcept _) fun data => couples_bind ?_ fun _ => ?_
  · exact couples_onParser (fun b => { b with zlibStream := b.zlibStream ++ [block] })
      (fun _ => rfl) (fun _ => rfl) (fun _ => rfl) (fun _ => rfl) fun _ h => h
  · exact couples_bind (h.zrleTiles _ _ _ _) fun _ => h.doConnection

theorem decodePseudoCursor (rect : Rect) :
    Couples (Alike kind S) (RFBClient.handleDecodePseudoCursor rt rect block)
      (RFBClient.handleDecodePseudoCursor rt' rect block) := by
  refine couples_get fun c c' hc => ?_
  rw [hc.pixelFormat]
  exact couples_bind (h.call _) fun _ => h.doConnection

/-! ## The rectangle header -/

theorem dispatchRectangle (rect : Rect) (encoding : ℤ) :
    Couples (Alike kind S) (RFBClient.dispatchRectangle rt rect encoding)
      (RFBClient.dispatchRectangle rt' rect encoding) := by
  have hundo : Couples (Alike kind S) (RFBClient.undoAppend : Py σ Unit) RFBClient.undoAppend :=
    couples_onParser (fun b => { b with rectanglePos := b.rectanglePos.dropLast }) (fun _ => rfl)
      (fun _ => rfl) (fun _ => rfl) (fun _ => rfl) fun _ h => h
  refine couples_get fun c c' hc => ?_
  rw [hc.pixelFormat]
  cases Encoding.lookup encoding with
  | none => exact h.protocolError _
  | some known =>
      cases known with
      | raw => exact h.pump _ _
      | copyRectangle => exact h.pump _ _
      | hextile => exact h.doNextHextileSubrect _ _ _ _
      | corre => exact couples_expect _ _
      | rre => exact couples_expect _ _
      | zrle => exact couples_expect _ _
      | pseudoCursor => exact couples_expect _ _
      | pseudoDesktopSize =>
          exact couples_bind hundo fun _ => couples_bind (h.call _) fun _ => h.doConnection
      | pseudoQemuExtendedKeyEvent =>
          refine couples_bind ?_ fun _ => couples_bind hundo fun _ => h.doConnection
          exact couples_onParser
            (fun b =>
              { b with
                negotiatedEncodings := b.negotiatedEncodings.insert .pseudoQemuExtendedKeyEvent })
            (fun _ => rfl) (fun _ => rfl) (fun _ => rfl) (fun _ => rfl) fun _ h => h
      | _ => exact h.protocolError _

theorem rectangle :
    Couples (Alike kind S) (RFBClient.handleRectangle rt block)
      (RFBClient.handleRectangle rt' block) := by
  have hcounted (rect : Rect) (encoding : ℤ) : Couples (Alike kind S)
      (do
        if (← get).rectangles ≠ 0 then
          modify fun c => { c with rectangles := c.rectangles - 1 }
          RFBClient.appendRectangle rect
          RFBClient.dispatchRectangle rt rect encoding
        else
          RFBClient.doConnection rt : Py σ Unit)
      (do
        if (← get).rectangles ≠ 0 then
          modify fun c => { c with rectangles := c.rectangles - 1 }
          RFBClient.appendRectangle rect
          RFBClient.dispatchRectangle rt' rect encoding
        else
          RFBClient.doConnection rt' : Py σ' Unit) := by
    refine couples_get fun c c' hc => ?_
    rw [hc.rectangles]
    refine couples_ite (fun _ => couples_bind ?_ fun _ => couples_bind ?_ fun _ => ?_) fun _ => ?_
    · exact couples_onParser (fun b => { b with rectangles := b.rectangles - 1 }) (fun _ => rfl)
        (fun _ => rfl) (fun _ => rfl) (fun _ => rfl) fun _ h => h
    · exact couples_onParser (fun b => { b with rectanglePos := b.rectanglePos ++ [rect] })
        (fun _ => rfl) (fun _ => rfl) (fun _ => rfl) (fun _ => rfl) fun _ h => h
    · exact h.dispatchRectangle _ _
    · exact h.doConnection
  refine couples_ite (fun _ => couples_bind ?_ fun _ => hcounted _ _) fun _ => hcounted _ _
  exact couples_onParser (fun b => { b with rectangles := 0 }) (fun _ => rfl) (fun _ => rfl)
    (fun _ => rfl) (fun _ => rfl) fun _ h => h

/-! ## Every handler -/

/-- Whatever handler is called on whatever block. -/
theorem run (handler : Handler) (block : Bytes) :
    Couples (Alike kind S) (handler.run rt block) (handler.run rt' block) := by
  cases handler with
  | numberSecurityTypes => exact numberSecurityTypes
  | securityTypes => exact h.securityTypes
  | auth => exact h.auth
  | connFailed => exact couples_expect _ _
  | connMessage => exact h.protocolError _
  | vncAuth => exact h.vncAuth
  | dhAuth => exact dhAuth
  | dhAuthKey => exact dhAuthKey
  | dhAuthCert => exact h.dhAuthCert
  | vncAuthResult => exact h.vncAuthResult
  | authFailed => exact couples_expect _ _
  | authFailedMessage => exact h.authFailed _
  | serverInit => exact serverInit
  | serverName => exact h.serverName
  | connection => exact h.connection
  | framebufferUpdate => exact h.framebufferUpdate
  | rectangle => exact h.rectangle
  | pumpBlock generator finish => exact h.pumpBlock generator finish
  | decodeRRE rect => exact h.decodeRRE rect
  | rreSubRectangles topx topy => exact h.handleRRESubRectangles topx topy
  | decodeCORRE rect => exact h.decodeCORRE rect
  | decodeCORRERectangles topx topy => exact couples_throw _
  | decodeHextile tile => exact h.decodeHextile tile
  | decodeHextileSubrect subencoding tile tw th => exact h.decodeHextileSubrect subencoding tile tw th
  | decodeHextileRAW tile tw th => exact h.decodeHextileRAW tile tw th
  | decodeHextileSubrectsColoured tile => exact h.decodeHextileSubrectsColoured tile
  | decodeHextileSubrectsFG tile => exact h.decodeHextileSubrectsFG tile
  | decodeZRLE rect => exact couples_expect _ _
  | decodeZRLEdata rect => exact h.decodeZRLEdata rect
  | decodePseudoCursor rect => exact h.decodePseudoCursor rect
  | colourMapEntries => exact couples_expect _ _
  | colourMapEntriesValue first =>
      exact couples_bind (h.call _) fun _ => couples_expect _ _
  | serverCutText => exact couples_expect _ _
  | serverCutTextValue => exact couples_bind (h.call _) fun _ => couples_expect _ _

end

end Likens

/-! ## Every step of a connection -/

/-- Alike clients with the same bytes to read. -/
structure Connection.Abreast (kind : Event → Bool) (S : σ → σ' → Prop) (conn : Connection σ)
    (conn' : Connection σ') : Prop where
  client : Alike kind S conn.client conn'.client
  packet : conn'.packet = conn.packet
  raised : conn'.raised = conn.raised

namespace Likens

open Connection

variable {kind : Event → Bool} {S : σ → σ' → Prop} {rt : Runtime σ} {rt' : Runtime σ'}
  (h : Likens kind S rt rt')
  {conn : Connection σ} {conn' : Connection σ'}

theorem pending_eq (habreast : conn.Abreast kind S conn') : conn'.pending = conn.pending := by
  have harmed := habreast.client.armed
  unfold RFBClient.armed at harmed
  rw [Prod.mk.injEq] at harmed
  unfold Connection.pending
  rw [habreast.client.stage, habreast.client.aborted, habreast.packet, habreast.raised, harmed.1,
    harmed.2]

theorem abreast_resume {r : EStateM.Result PyError (RFBClient σ) Unit}
    {r' : EStateM.Result PyError (RFBClient σ') Unit} (hr : Coupled (Alike kind S) r r')
    (rest : Bytes) : (resume rest r).Abreast kind S (resume rest r') := by
  cases r with
  | ok a d =>
      cases r' with
      | error exc' d' => exact hr.elim
      | ok a' d' =>
          refine ⟨hr.2, ?_, rfl⟩
          unfold resume
          dsimp only
          rw [hr.2.aborted]
  | error exc d =>
      cases r' with
      | ok a' d' => exact hr.elim
      | error exc' d' =>
          rcases hr with ⟨rfl, hd⟩
          refine ⟨hd, ?_, rfl⟩
          unfold resume
          dsimp only
          rw [hd.aborted]

include h

/-- Either both loops turn, or both have come to rest. -/
theorem iterate (habreast : conn.Abreast kind S conn') :
    Option.Rel (Abreast kind S) (Connection.iterate rt conn) (Connection.iterate rt' conn') := by
  have hlen : conn'.client.expectedLen = conn.client.expectedLen :=
    congrArg Prod.snd habreast.client.armed
  unfold Connection.iterate
  rw [pending_eq habreast, habreast.packet, hlen]
  cases conn.pending with
  | none => exact Option.Rel.none
  | some called =>
      exact Option.Rel.some
        (abreast_resume (h.run called.1 called.2 _ _ habreast.client) _)

/-- Where the loop has come to rest, a further turn does nothing. -/
theorem turn (habreast : conn.Abreast kind S conn') :
    ((Connection.iterate rt conn).getD conn).Abreast kind S
      ((Connection.iterate rt' conn').getD conn') := by
  have hiterate := h.iterate habreast
  cases hrun : Connection.iterate rt conn with
  | none =>
      cases hrun' : Connection.iterate rt' conn' with
      | none => exact habreast
      | some next' =>
          rw [hrun, hrun'] at hiterate
          exact nomatch hiterate
  | some next =>
      cases hrun' : Connection.iterate rt' conn' with
      | none =>
          rw [hrun, hrun'] at hiterate
          exact nomatch hiterate
      | some next' =>
          rw [hrun, hrun'] at hiterate
          cases hiterate with
          | some hnext => exact hnext

theorem greet (habreast : conn.Abreast kind S conn') :
    (conn.greet rt).Abreast kind S (conn'.greet rt') := by
  have hinitial := h.handleInitial conn.packet _ _ habreast.client
  unfold Connection.greet
  rw [habreast.packet]
  cases hres : RFBClient.handleInitial rt conn.packet conn.client with
  | ok rest d =>
      cases hres' : RFBClient.handleInitial rt' conn.packet conn'.client with
      | error exc' d' =>
          rw [hres, hres'] at hinitial
          exact hinitial.elim
      | ok rest' d' =>
          rw [hres, hres'] at hinitial
          exact ⟨hinitial.2, hinitial.1, rfl⟩
  | error exc d =>
      cases hres' : RFBClient.handleInitial rt' conn.packet conn'.client with
      | ok rest' d' =>
          rw [hres, hres'] at hinitial
          exact hinitial.elim
      | error exc' d' =>
          rw [hres, hres'] at hinitial
          exact ⟨hinitial.2, rfl, congrArg some hinitial.1⟩

/-- The same bytes arrive. -/
theorem enter (habreast : conn.Abreast kind S conn') (data : Bytes) :
    (conn.enter rt data).Abreast kind S (conn'.enter rt' data) := by
  have hstage := habreast.client.stage
  unfold Connection.enter
  rw [habreast.client.aborted]
  split_ifs
  · exact habreast
  · have hread : Abreast kind S { conn with packet := conn.packet ++ data, raised := none }
        { conn' with packet := conn'.packet ++ data, raised := none } := by
      refine ⟨habreast.client, ?_, rfl⟩
      dsimp only
      rw [habreast.packet]
    dsimp only
    rw [hstage]
    cases conn.client.stage with
    | handleInitial => exact h.greet hread
    | handleExpected => exact hread

end Likens

end Vncdotool
