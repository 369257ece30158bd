import Vncdotool.RFB.Payloads

/-!
# Readings — a connection beside what its bytes mean

A `Reading` is a connection of an `RFBClient` with the payload that is being read and the size of the
framebuffer, both as the protocol has them: they follow from the headers, the ServerInit and the blocks
that the loop hands to its handlers.  Where the client reads Hextile or ZRLE, the payload at hand is
the one that it reads, and it has come to where it is by what has been read of it (`Tracked`).
-/

namespace Vncdotool

open Wire Streaming

variable {σ : Type}

/-! ## Steps -/

/-- What can happen to a connection: bytes arrive, or the receive loop turns. -/
inductive Arrival
  | receive (data : Bytes)
  | turn

/-- The handler is handed a part of the payload of a rectangle. -/
def Handler.readsPayload : Handler → Bool
  | .pumpBlock _ _ => true
  | .decodeRRE _ => true
  | .rreSubRectangles _ _ => true
  | .decodeCORRE _ => true
  | .decodeCORRERectangles _ _ => true
  | .decodeHextile _ => true
  | .decodeHextileSubrect _ _ _ _ => true
  | .decodeHextileRAW _ _ _ => true
  | .decodeHextileSubrectsColoured _ => true
  | .decodeHextileSubrectsFG _ => true
  | .decodeZRLE _ => true
  | .decodeZRLEdata _ => true
  | .decodePseudoCursor _ => true
  | _ => false

/-- The rectangle that a header announces. -/
def headerRect (block : Bytes) : Rect where
  x := field block 0 2
  y := field block 2 2
  width := field block 4 2
  height := field block 6 2

/-- A connection, the payload that is being read, and the size that the server has given its
framebuffer. -/
structure Reading where
  conn : Connection Unit
  payload : Option Payload := none
  size : ℕ × ℕ := (0, 0)

namespace Reading

/-- The payload at hand when a handler has been handed a block: behind the header of a rectangle a
payload begins. -/
def payloadAfter (r : Reading) (handler : Handler) (block : Bytes) : Option Payload :=
  match handler with
  | .rectangle =>
      (Encoding.lookup (s32 (field block 8 4))).map fun encoding =>
        { rect := headerRect block, encoding := encoding, read := [] }
  | _ => if handler.readsPayload then r.payload.map fun p => p.append block else none

/-- The size of the framebuffer, which ServerInit and DesktopSize announce. -/
def sizeAfter (r : Reading) (handler : Handler) (block : Bytes) : ℕ × ℕ :=
  match handler with
  | .serverInit => (field block 0 2, field block 2 2)
  | .rectangle =>
      if Encoding.lookup (s32 (field block 8 4)) = some .pseudoDesktopSize then
        ((headerRect block).width, (headerRect block).height)
      else r.size
  | _ => r.size

/-- What a handler makes of a block.  `named` says whether the factory has an attribute `username`, as
`VNCDoToolFactory` has and `RFBFactory` has not: `ardRequestCredentials` reads it first. -/
def called (env : Env) (named : Bool) (c : RFBClient Unit) (handler : Handler) (block : Bytes) :
    EStateM.Result PyError (RFBClient Unit) Unit :=
  if handler = .dhAuthCert ∧ named = false then
    .error .attributeError { c with serverKey := block }
  else
    handler.run (RFBClient.runtime env) block c

def arrive (env : Env) (named : Bool) (r : Reading) : Arrival → Reading
  | .receive data => { r with conn := r.conn.enter (RFBClient.runtime env) data }
  | .turn =>
      match r.conn.pending with
      | none => r
      | some (handler, block) =>
          { conn := Connection.resume (r.conn.packet.drop r.conn.client.expectedLen)
              (called env named r.conn.client handler block)
            payload := r.payloadAfter handler block
            size := r.sizeAfter handler block }

/-- A connection as `makeConnection` leaves it. -/
def init (factory : Factory) : Reading where
  conn := Connection.init () factory

variable {env : Env} {named : Bool} {r : Reading} {handler : Handler} {block : Bytes}

theorem payloadAfter_of_reads (hreads : handler.readsPayload = true) :
    r.payloadAfter handler block = r.payload.map fun p => p.append block := by
  unfold payloadAfter
  cases handler with
  | rectangle => cases hreads
  | _ =>
      dsimp only
      rw [if_pos hreads]

end Reading

/-! ## Which handlers read which payload -/

namespace Handler

/-- The encoding whose payload the handler reads, for the two that need more than one handler. -/
def family : Handler → Option Encoding
  | .decodeHextile _ => some .hextile
  | .decodeHextileSubrect _ _ _ _ => some .hextile
  | .decodeHextileRAW _ _ _ => some .hextile
  | .decodeHextileSubrectsColoured _ => some .hextile
  | .decodeHextileSubrectsFG _ => some .hextile
  | .decodeZRLE _ => some .zrle
  | .decodeZRLEdata _ => some .zrle
  | _ => none

variable {h : Handler} {armed : Handler × ℕ}

theorem readsPayload_of_family {encoding : Encoding} (hfamily : h.family = some encoding) :
    h.readsPayload = true := by
  cases h with
  | decodeHextile tile => rfl
  | decodeHextileSubrect subencoding tile tw th => rfl
  | decodeHextileRAW tile tw th => rfl
  | decodeHextileSubrectsColoured tile => rfl
  | decodeHextileSubrectsFG tile => rfl
  | decodeZRLE rect => rfl
  | decodeZRLEdata rect => rfl
  | _ => cases hfamily

theorem family_of_armsConnection (harms : ArmsConnection armed) : armed.1.family = none := by
  rcases harms with rfl | rfl
  · rfl
  · rfl

theorem family_of_armsPump (harms : ArmsPump armed) : armed.1.family = none := by
  rcases harms with harms | ⟨generator, finish, n, _, rfl⟩
  · exact family_of_armsConnection harms
  · rfl

theorem family_of_armsTile (harms : ArmsTile armed) :
    armed.1.family = none ∨ armed.1.family = some .hextile := by
  rcases harms with harms | ⟨tile, rfl⟩
  · exact Or.inl (family_of_armsConnection harms)
  · exact Or.inr rfl

/-- Only the header of a rectangle leads to another payload. -/
theorem Arms.family (harms : h.Arms armed) (hne : h ≠ .rectangle) :
    armed.1.family = none ∨ armed.1.family = h.family := by
  -- Only the handlers of Hextile tiles and of ZRLE data arm one that goes on with the payload.
  cases h with
  | rectangle => exact absurd rfl hne
  | numberSecurityTypes =>
      rcases harms with rfl | ⟨n, _, rfl⟩
      · exact Or.inl rfl
      · exact Or.inl rfl
  | securityTypes =>
      simp only [Arms, List.mem_cons, List.not_mem_nil, or_false] at harms
      rcases harms with rfl | rfl | rfl | rfl <;> exact Or.inl rfl
  | auth =>
      simp only [Arms, List.mem_cons, List.not_mem_nil, or_false] at harms
      rcases harms with rfl | rfl | rfl <;> exact Or.inl rfl
  | connFailed =>
      rcases harms with ⟨n, rfl⟩
      exact Or.inl rfl
  | connMessage => exact harms.elim
  | vncAuth => exact Or.inl (congrArg (fun armed => armed.1.family) harms)
  | dhAuth =>
      rcases harms with ⟨n, rfl⟩
      exact Or.inl rfl
  | dhAuthKey =>
      rcases harms with ⟨n, rfl⟩
      exact Or.inl rfl
  | dhAuthCert => exact Or.inl (congrArg (fun armed => armed.1.family) harms)
  | vncAuthResult =>
      simp only [Arms, List.mem_cons, List.not_mem_nil, or_false] at harms
      rcases harms with rfl | rfl <;> exact Or.inl rfl
  | authFailed =>
      rcases harms with ⟨n, rfl⟩
      exact Or.inl rfl
  | authFailedMessage => exact harms.elim
  | serverInit =>
      rcases harms with ⟨n, rfl⟩
      exact Or.inl rfl
  | serverName => exact Or.inl (congrArg (fun armed => armed.1.family) harms)
  | connection =>
      simp only [Arms, List.mem_cons, List.not_mem_nil, or_false] at harms
      rcases harms with rfl | rfl | rfl | rfl <;> exact Or.inl rfl
  | framebufferUpdate => exact Or.inl (family_of_armsConnection harms)
  | pumpBlock generator finish => exact Or.inl (family_of_armsPump harms.1)
  | decodeRRE rect =>
      rcases harms with harms | ⟨x, y, n, _, rfl⟩
      · exact Or.inl (family_of_armsConnection harms)
      · exact Or.inl rfl
  | rreSubRectangles topx topy => exact Or.inl (family_of_armsConnection harms)
  | decodeCORRE rect =>
      rcases harms with harms | ⟨x, y, n, _, rfl⟩
      · exact Or.inl (family_of_armsConnection harms)
      · exact Or.inl rfl
  | decodeCORRERectangles topx topy => exact harms.elim
  | decodeHextile tile =>
      rcases harms with harms | ⟨tile, tw, th, n, rfl⟩ | ⟨subencoding, tile, tw, th, n, _, rfl⟩
      · exact family_of_armsTile harms
      · exact Or.inr rfl
      · exact Or.inr rfl
  | decodeHextileSubrect subencoding tile tw th =>
      rcases harms with harms | ⟨tile, n, _, rfl | rfl⟩
      · exact family_of_armsTile harms
      · exact Or.inr rfl
      · exact Or.inr rfl
  | decodeHextileRAW tile tw th => exact family_of_armsTile harms
  | decodeHextileSubrectsColoured tile => exact family_of_armsTile harms
  | decodeHextileSubrectsFG tile => exact family_of_armsTile harms
  | decodeZRLE rect =>
      rcases harms with ⟨rect, n, rfl⟩
      exact Or.inr rfl
  | decodeZRLEdata rect => exact Or.inl (family_of_armsConnection harms)
  | decodePseudoCursor rect => exact Or.inl (family_of_armsConnection harms)
  | colourMapEntries =>
      rcases harms with ⟨first, n, rfl⟩
      exact Or.inl rfl
  | colourMapEntriesValue first => exact Or.inl (congrArg (fun armed => armed.1.family) harms)
  | serverCutText =>
      rcases harms with ⟨n, rfl⟩
      exact Or.inl rfl
  | serverCutTextValue => exact Or.inl (congrArg (fun armed => armed.1.family) harms)

/-- A handler that may leave the loop as it was reads neither. -/
theorem GivesUp.family (hgivesUp : h.GivesUp) : h.family = none := by
  cases h with
  | decodeHextile tile => exact hgivesUp.elim
  | decodeHextileSubrect subencoding tile tw th => exact hgivesUp.elim
  | decodeHextileRAW tile tw th => exact hgivesUp.elim
  | decodeHextileSubrectsColoured tile => exact hgivesUp.elim
  | decodeHextileSubrectsFG tile => exact hgivesUp.elim
  | decodeZRLE rect => exact hgivesUp.elim
  | decodeZRLEdata rect => exact hgivesUp.elim
  | _ => rfl

theorem Pumps.family {block : Bytes} (hpumps : h.Pumps block) : h.family = none := by
  cases h with
  | rectangle => rfl
  | pumpBlock generator finish => rfl
  | _ => exact hpumps.elim

/-- The two handlers of ZRLE. -/
theorem cases_zrle (hfamily : h.family = some .zrle) :
    ∃ rect, h = .decodeZRLE rect ∨ h = .decodeZRLEdata rect := by
  cases h with
  | decodeZRLE rect => exact ⟨rect, Or.inl rfl⟩
  | decodeZRLEdata rect => exact ⟨rect, Or.inr rfl⟩
  | _ => cases hfamily

end Handler

/-- A turn of a handler that reads neither Hextile nor ZRLE, but for the header of a rectangle. -/
theorem Moves.family {h : Handler} {block : Bytes} {c c' : RFBClient σ} (hmoves : Moves h block c c')
    (hne : h ≠ .rectangle) (harmed : c.expectedHandler = h) :
    c'.expectedHandler.family = none ∨
      (c'.expectedHandler.family = h.family ∧ h.Arms c'.armed ∧ c'.aborted = c.aborted) := by
  have hkept (heq : c'.armed = c.armed) (hnone : h.family = none) :
      c'.expectedHandler.family = none := by
    rw [show c'.expectedHandler = c.expectedHandler from congrArg Prod.fst heq, harmed]
    exact hnone
  -- The handler arms another one, gives up, or leaves the loop armed while a generator is pumped.
  rcases hmoves.armed with ⟨haborted, harms⟩ | ⟨_, hgivesUp, heq⟩ | ⟨hpumps, _, heq⟩
  · rcases harms.family hne with hnone | hsame
    · exact Or.inl hnone
    · exact Or.inr ⟨hsame, harms, haborted⟩
  · exact Or.inl (hkept heq hgivesUp.family)
  · exact Or.inl (hkept heq hpumps.family)

/-! ## The header of a rectangle -/

/-- Behind a header, what waits for Hextile or ZRLE is the first handler of the encoding that the
header names, for the rectangle that it announces. -/
structure Led (block : Bytes) (c' : RFBClient σ) : Prop where
  hextile : c'.expectedHandler.family = some .hextile →
    Encoding.lookup (s32 (field block 8 4)) = some .hextile ∧
      c'.armed = (.decodeHextile (Hextile.first (headerRect block)), 1)
  zrle : c'.expectedHandler.family = some .zrle →
    Encoding.lookup (s32 (field block 8 4)) = some .zrle ∧
      c'.expectedHandler = .decodeZRLE (headerRect block)

section Header

variable {rt : Runtime σ} {c : RFBClient σ} {block : Bytes}

theorem led_of_none {c' : RFBClient σ} (hnone : c'.expectedHandler.family = none) : Led block c' := by
  refine ⟨fun hsome => ?_, fun hsome => ?_⟩
  · cases hnone.symm.trans hsome
  · cases hnone.symm.trans hsome

/-- What goes where a handler that reads neither could go leads to neither. -/
theorem led_of_turns {h : Handler} {block' : Bytes} {x : Py σ Unit} (hx : Turns h block' c x)
    (harms : ∀ armed, h.Arms armed → armed.1.family = none) (hc : c.expectedHandler.family = none) :
    Ensures x c (fun _ => Led block) fun _ _ => True := by
  refine Ensures.mono hx ?_ fun _ _ _ => trivial
  intro _ c' hmoves
  have hkept (heq : c'.armed = c.armed) : c'.expectedHandler.family = none := by
    rw [show c'.expectedHandler = c.expectedHandler from congrArg Prod.fst heq]
    exact hc
  rcases hmoves.armed with ⟨_, hnext⟩ | ⟨_, _, heq⟩ | ⟨_, _, heq⟩
  · exact led_of_none (harms _ hnext)
  · exact led_of_none (hkept heq)
  · exact led_of_none (hkept heq)

variable (htame : rt.Tame)

include htame

theorem led_doConnection (hc : c.expectedHandler.family = none) :
    Ensures (RFBClient.doConnection rt) c (fun _ => Led block) fun _ _ => True := by
  have hturns : Turns .framebufferUpdate [] c (RFBClient.doConnection rt) :=
    RFBClient.turns_doConnection htame fun _ harms => harms
  exact led_of_turns hturns (fun _ => Handler.family_of_armsConnection) hc

theorem led_dispatchRectangle (hc : c.expectedHandler.family = none) :
    Ensures (RFBClient.dispatchRectangle rt (headerRect block) (s32 (field block 8 4))) c
      (fun _ => Led block) fun _ _ => True := by
  have hpump (decoder : Decoder) (rect : Rect) :
      Ensures (RFBClient.pump rt decoder rect) c (fun _ => Led block) fun _ _ => True := by
    have hturns : Turns (.pumpBlock (.decodeForClient rect false) none) [] c
        (RFBClient.pump rt decoder rect) :=
      RFBClient.turns_pump htame (by trivial) decoder rect fun _ harms =>
        ⟨harms, fun hsuspended => by cases hsuspended⟩
    exact led_of_turns hturns (fun _ harms => Handler.family_of_armsPump harms.1) hc
  have hreported (reason : ProtocolFailure) :
      Ensures (rt.protocolError reason) c (fun _ => Led block) fun _ _ => True := by
    refine Ensures.mono (held_protocolError htame reason) ?_ fun _ _ _ => trivial
    intro _ c' hheld
    refine led_of_none ?_
    rw [show c'.expectedHandler = c.expectedHandler from congrArg Prod.fst hheld.armed]
    exact hc
  unfold RFBClient.dispatchRectangle
  refine ensures_bind.2 ?_
  cases hlookup : Encoding.lookup (s32 (field block 8 4)) with
  | none => exact hreported _
  | some known =>
      cases known with
      | raw => exact hpump .rawDecoder (headerRect block)
      | copyRectangle => exact hpump .copyRectDecoder (headerRect block)
      | hextile =>
          -- A rectangle without rows has no tiles, and the next one is awaited.
          refine ensures_ite.2 ⟨fun _ => led_doConnection htame hc, fun _ => ?_⟩
          refine ⟨fun _ => ⟨hlookup, rfl⟩, fun hsome => ?_⟩
          cases hsome
      | zrle =>
          refine ⟨fun hsome => ?_, fun _ => ⟨hlookup, rfl⟩⟩
          cases hsome
      | corre => exact led_of_none rfl
      | rre => exact led_of_none rfl
      | pseudoCursor => exact led_of_none rfl
      | pseudoDesktopSize =>
          refine ensures_bind.2 (ensures_bind.2 (Ensures.mono (held_call htame _) ?_ ?_))
          · intro _ c' hheld
            refine led_doConnection htame ?_
            rw [show c'.expectedHandler = c.expectedHandler from congrArg Prod.fst hheld.armed]
            exact hc
          · exact fun _ _ _ => trivial
      | pseudoQemuExtendedKeyEvent =>
          refine ensures_bind.2 (ensures_bind.2 ?_)
          exact led_doConnection htame hc
      | _ => exact hreported _

theorem led_rectangle (hc : c.expectedHandler.family = none) :
    Ensures (RFBClient.handleRectangle rt block) c (fun _ => Led block) fun _ _ => True := by
  have hcounted (c₁ : RFBClient σ) (hc₁ : c₁.expectedHandler.family = none) :
      Ensures (do
        if (← get).rectangles ≠ 0 then
          modify fun c => { c with rectangles := c.rectangles - 1 }
          RFBClient.appendRectangle (headerRect block)
          RFBClient.dispatchRectangle rt (headerRect block) (s32 (field block 8 4))
        else
          RFBClient.doConnection rt) c₁ (fun _ => Led block) fun _ _ => True := by
    refine ensures_bind.2 (ensures_ite.2 ⟨fun _ => ?_, fun _ => led_doConnection htame hc₁⟩)
    refine ensures_bind.2 (ensures_bind.2 ?_)
    exact led_dispatchRectangle htame hc₁
  unfold RFBClient.handleRectangle
  -- A LastRect sets the count to zero first.
  refine ensures_ite.2 ⟨fun _ => ensures_bind.2 ?_, fun _ => hcounted c hc⟩
  exact hcounted _ hc

end Header

/-! ## The payload that the client reads -/

/-- Where the client reads Hextile or ZRLE, the payload at hand is the one it reads: from the first
tile on it has come to where it is by what has been read, or it waits for the data of the length that
it has read. -/
structure Tracked (env : Env) (payload : Option Payload) (c : RFBClient Unit) : Prop where
  hextile : c.expectedHandler.family = some .hextile →
    ∃ rect read, payload = some ⟨rect, .hextile, read⟩ ∧
      (c.aborted = false → Hextile.CameBy env rect read c)
  zrle : ∀ rect, c.expectedHandler = .decodeZRLE rect → payload = some ⟨rect, .zrle, []⟩
  zrleData : ∀ rect, c.expectedHandler = .decodeZRLEdata rect →
    ∃ head, payload = some ⟨rect, .zrle, head⟩ ∧ head.length = 4 ∧ c.expectedLen = unpackBE head

section Tracking

variable {env : Env} {c c' : RFBClient Unit}

/-- The format of pixels is the one that it was. -/
def KeepsFormat (c c' : RFBClient σ) : Prop :=
  c'.pixelFormat = c.pixelFormat

theorem keepsFormat_call (env : Env) (cb : Callback) :
    Respects KeepsFormat ((RFBClient.runtime env).call cb) := by
  intro c
  refine ensures_finalState.1 (ensures_bind.2 ?_)
  cases cb with
  | vncRequestPassword =>
      refine ensures_bind.2 ?_
      change Ensures (RFBClient.defaultCallback env .vncRequestPassword) _ _ _
      refine (RFBClient.ensures_requestPassword env).2 ⟨fun _ => rfl, fun password _ => ?_⟩
      exact RFBClient.ensures_sendPassword env (fun _ _ => rfl) fun _ _ => rfl
  | fillRectangle x y width height color =>
      cases color with
      | none => exact rfl
      | some color => exact rfl
  | _ => exact rfl

theorem maintains_keepsFormat (env : Env) : Maintains (RFBClient.runtime env) KeepsFormat where
  refl := fun _ => rfl
  trans := fun _ _ _ h h' => h'.trans h
  write := fun _ _ => rfl
  loseConnection := fun _ => rfl
  state := fun _ _ _ _ hframe => congrArg (fun frame : ℕ × ℕ × PixelFormat => frame.2.2) hframe
  call := fun c cb _ => keepsFormat_call env cb c

/-- Only ServerInit sets the format. -/
theorem format_run {handler : Handler} {block : Bytes} (hne : handler ≠ .serverInit)
    (hrun : handler.run (RFBClient.runtime env) block c = .ok () c') :
    c'.pixelFormat = c.pixelFormat := by
  have hkeeps : KeepsFormat c (finalState ((handler.run (RFBClient.runtime env) block).run c)) :=
    (maintains_keepsFormat env).run_at (fun _ cb _ => keepsFormat_call env cb)
      (fun hinit => absurd hinit hne) (Or.inr fun cb _ => keepsFormat_call env cb)
  unfold EStateM.run at hkeeps
  rw [hrun] at hkeeps
  exact hkeeps

theorem tracked_of_none {payload : Option Payload} (hnone : c.expectedHandler.family = none) :
    Tracked env payload c := by
  refine ⟨fun hsome => ?_, fun rect hsome => ?_, fun rect hsome => ?_⟩
  · cases hnone.symm.trans hsome
  · rw [hsome] at hnone
    cases hnone
  · rw [hsome] at hnone
    cases hnone

/-- A payload begins behind the header of its rectangle. -/
theorem tracked_of_led {r : Reading} {block : Bytes} (hled : Led block c')
    (hstage : c'.stage = .handleExpected) : Tracked env (r.payloadAfter .rectangle block) c' := by
  have hpayload {encoding : Encoding}
      (hlookup : Encoding.lookup (s32 (field block 8 4)) = some encoding) :
      r.payloadAfter .rectangle block = some ⟨headerRect block, encoding, []⟩ := by
    unfold Reading.payloadAfter
    dsimp only
    rw [hlookup]
    rfl
  refine ⟨fun hfamily => ?_, fun rect hzrle => ?_, fun rect hzrle => ?_⟩
  · rcases hled.hextile hfamily with ⟨hlookup, harmed⟩
    refine ⟨_, _, hpayload hlookup, fun haborted => ?_⟩
    exact ⟨c', ⟨hstage, haborted, harmed⟩, rfl, fun _ => Relation.ReflTransGen.refl⟩
  · have hfamily : c'.expectedHandler.family = some .zrle := congrArg Handler.family hzrle
    rcases hled.zrle hfamily with ⟨hlookup, hfirst⟩
    cases hzrle.symm.trans hfirst
    exact hpayload hlookup
  · have hfamily : c'.expectedHandler.family = some .zrle := congrArg Handler.family hzrle
    cases hzrle.symm.trans (hled.zrle hfamily).2

/-- A turn that returns keeps track of the payload. -/
theorem Tracked.turn {r : Reading} {handler : Handler} {block : Bytes}
    (h : Tracked env r.payload r.conn.client) (hpending : r.conn.pending = some (handler, block))
    (hunpacks : handler.Unpacks r.conn.client.pixelFormat.bypp block.length)
    (hrun : handler.run (RFBClient.runtime env) block r.conn.client = .ok () c') :
    Tracked env (r.payloadAfter handler block) c' := by
  rcases Connection.pending_eq_some_iff.1 hpending with ⟨⟨hstage, haborted, _, hlong⟩, rfl, hblock⟩
  have hlen : block.length = r.conn.client.expectedLen := by
    rw [hblock]
    exact List.length_take_of_le hlong
  have hmoves : Moves r.conn.client.expectedHandler block r.conn.client c' :=
    (ensures_of_run_ok hrun).1 (run_moves (RFBClient.runtime_tame env) _ block r.conn.client)
  have hstage' : c'.stage = .handleExpected := hmoves.stage.trans hstage
  by_cases hheader : r.conn.client.expectedHandler = .rectangle
  · rw [hheader] at hrun ⊢
    have hfamily : r.conn.client.expectedHandler.family = none := by
      rw [hheader]
      rfl
    exact tracked_of_led
      ((ensures_of_run_ok hrun).1 (led_rectangle (RFBClient.runtime_tame env) hfamily)) hstage'
  -- Any other handler leads to neither encoding, or goes on with the one that it reads.
  rcases hmoves.family hheader rfl with hnone | ⟨hsame, harms, haborted'⟩
  · exact tracked_of_none hnone
  have hreads {encoding : Encoding}
      (hfamily : r.conn.client.expectedHandler.family = some encoding) :=
    @Reading.payloadAfter_of_reads r r.conn.client.expectedHandler block
      (Handler.readsPayload_of_family hfamily)
  refine ⟨fun hfamily => ?_, fun rect hzrle => ?_, fun rect hzrle => ?_⟩
  -- A handler of Hextile has armed another one, and the block is the next that was read.
  · have hfamily' := hsame.symm.trans hfamily
    rcases h.hextile hfamily' with ⟨rect, read, hpayload, hcame⟩
    refine ⟨rect, read ++ block, ?_, fun hgoing => ?_⟩
    · rw [hreads hfamily', hpayload]
      rfl
    · have hinit : r.conn.client.expectedHandler ≠ .serverInit := by
        intro heq
        rw [heq] at hfamily'
        cases hfamily'
      exact (hcame haborted).step hstage haborted hlen hrun hgoing (format_run hinit hrun)
  -- No handler of ZRLE arms the first one.
  · have hfamily' : r.conn.client.expectedHandler.family = some .zrle :=
      hsame.symm.trans (congrArg Handler.family hzrle)
    rcases Handler.cases_zrle hfamily' with ⟨rect', hfirst | hdata⟩
    · rw [hfirst] at harms
      rcases harms with ⟨rect'', n, harmed⟩
      cases hzrle.symm.trans (congrArg Prod.fst harmed)
    · rw [hdata] at harms
      have hnone := Handler.family_of_armsConnection harms
      cases hnone.symm.trans (congrArg Handler.family hzrle)
  · have hfamily' : r.conn.client.expectedHandler.family = some .zrle :=
      hsame.symm.trans (congrArg Handler.family hzrle)
    rcases Handler.cases_zrle hfamily' with ⟨rect', hfirst | hdata⟩
    -- The four bytes are the length of what is awaited now.
    · rw [hfirst] at hunpacks hrun
      have hfour : block.length = 4 := hunpacks
      cases hrun
      cases hzrle
      refine ⟨block, ?_, hfour, ?_⟩
      · rw [hreads hfamily', h.zrle _ hfirst]
        rfl
      · change field block 0 4 = unpackBE block
        unfold field slice
        rw [List.drop_zero, ← hfour, List.take_length]
    · rw [hdata] at harms
      have hnone := Handler.family_of_armsConnection harms
      cases hnone.symm.trans (congrArg Handler.family hzrle)

end Tracking

end Vncdotool
