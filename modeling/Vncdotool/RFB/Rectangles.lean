import Vncdotool.RFB.Frames
import Vncdotool.RFB.Segmentation
import Vncdotool.RFB.ServerStream

/-!
# Rectangles — the turns a client takes to decode an update

Each handler is run once on the block that an encoder wrote for it.  A rectangle is then two turns
of the loop at most, and an update an induction over its rectangles.  The client is of any class:
what its callbacks do to its own attributes is a parameter (`Plays`), and the commit is left to it.
-/

namespace Vncdotool

open Wire Streaming StateTransition

/-! ## Fields of a header -/

namespace WireRect

variable (rect : WireRect) (encoding : Encoding)

@[simp] theorem length_header : (rect.header encoding).length = 12 := by
  simp [header]

@[simp] theorem field_x : field (rect.header encoding) 0 2 = rect.x := by
  have h := field_pack [] (packBE 2 rect.y ++ packBE 2 rect.width ++ packBE 2 rect.height ++
    packBE 4 (u32OfInt encoding.value)) rfl rect.x.isLt
  simpa [header] using h

@[simp] theorem field_y : field (rect.header encoding) 2 2 = rect.y := by
  have h := field_pack (packBE 2 rect.x) (packBE 2 rect.width ++ packBE 2 rect.height ++
    packBE 4 (u32OfInt encoding.value)) (length_packBE 2 _) rect.y.isLt
  simpa [header] using h

@[simp] theorem field_width : field (rect.header encoding) 4 2 = rect.width := by
  have h := @field_pack (packBE 2 rect.x ++ packBE 2 rect.y) (packBE 2 rect.height ++
    packBE 4 (u32OfInt encoding.value)) 4 2 _ (by simp) rect.width.isLt
  simpa [header] using h

@[simp] theorem field_height : field (rect.header encoding) 6 2 = rect.height := by
  have h := @field_pack (packBE 2 rect.x ++ packBE 2 rect.y ++ packBE 2 rect.width)
    (packBE 4 (u32OfInt encoding.value)) 6 2 _ (by simp) rect.height.isLt
  simpa [header] using h

@[simp] theorem field_encoding : s32 (field (rect.header encoding) 8 4) = encoding.value := by
  have h := @field_pack (packBE 2 rect.x ++ packBE 2 rect.y ++ packBE 2 rect.width ++
    packBE 2 rect.height) [] 8 4 _ (by simp) (u32OfInt_lt encoding.value)
  have hfield : field (rect.header encoding) 8 4 = u32OfInt encoding.value := by
    simpa [header] using h
  rw [hfield, s32_u32OfInt encoding.value_range.1 encoding.value_range.2]

end WireRect

namespace Connection

variable {σ : Type} {rt : Runtime σ} {c c' : RFBClient σ}

/-! ## One turn -/

/-- A connection on which nothing has gone wrong. -/
def live (c : RFBClient σ) (packet : Bytes) : Connection σ :=
  { client := c, packet := packet }

/-- A handler is called on the block at the head of the buffer. -/
theorem iterate_live {block rest : Bytes} (hstage : c.stage = .handleExpected)
    (haborted : c.aborted = false) (hlen : block.length = c.expectedLen)
    (hrun : c.expectedHandler.run rt block c = .ok () c') (haborted' : c'.aborted = false) :
    iterate rt (live c (block ++ rest)) = some (live c' rest) := by
  have hle : c.expectedLen ≤ (block ++ rest).length := by
    rw [List.length_append, hlen]
    exact Nat.le_add_right _ _
  have hblock : (block ++ rest).take c.expectedLen = block := List.take_left' hlen
  have hrest : (block ++ rest).drop c.expectedLen = rest := List.drop_left' hlen
  refine iterate_eq_some_iff.2 ⟨c.expectedHandler, block, ?_, ?_⟩
  · exact pending_eq_some_iff.2 ⟨⟨hstage, haborted, rfl, hle⟩, rfl, hblock.symm⟩
  · change live c' rest = resume ((block ++ rest).drop c.expectedLen)
      (c.expectedHandler.run rt block c)
    rw [hrest, hrun]
    simp [resume, live, haborted']

theorem reaches_live {block rest : Bytes} (hstage : c.stage = .handleExpected)
    (haborted : c.aborted = false) (hlen : block.length = c.expectedLen)
    (hrun : c.expectedHandler.run rt block c = .ok () c') (haborted' : c'.aborted = false) :
    Reaches (iterate rt) (live c (block ++ rest)) (live c' rest) :=
  Relation.ReflTransGen.single (iterate_live hstage haborted hlen hrun haborted')

/-! ## The rectangle counter -/

/-- The client that waits for the header of a rectangle. -/
def awaitingRectangle (c : RFBClient σ) : RFBClient σ :=
  { c with expectedHandler := .rectangle, expectedLen := 12 }

theorem doConnection_of_pos (h : c.rectangles ≠ 0) :
    RFBClient.doConnection rt c = .ok () (awaitingRectangle c) := by
  have hrun : RFBClient.doConnection rt c =
      (if c.rectangles ≠ 0 then expect .rectangle 12
      else do
        rt.call (.commitUpdate c.rectanglePos)
        expect .connection 1) c := rfl
  rw [hrun, if_pos h]
  rfl

theorem doConnection_of_zero (h : c.rectangles = 0) :
    RFBClient.doConnection rt c =
      (do
        rt.call (.commitUpdate c.rectanglePos)
        expect .connection 1) c := by
  have hrun : RFBClient.doConnection rt c =
      (if c.rectangles ≠ 0 then expect .rectangle 12
      else do
        rt.call (.commitUpdate c.rectanglePos)
        expect .connection 1) c := rfl
  rw [hrun, if_neg (not_not.2 h)]

/-- The client that has counted a rectangle. -/
def counted (rect : Rect) (c : RFBClient σ) : RFBClient σ :=
  { c with rectangles := c.rectangles - 1, rectanglePos := c.rectanglePos ++ [rect] }

theorem value_ne_last {encoding : Encoding} (h : encoding ≠ .pseudoLastRect) :
    encoding.value ≠ Encoding.value .pseudoLastRect := by
  intro heq
  have hlookup := congrArg Encoding.lookup heq
  rw [Encoding.lookup_value, Encoding.lookup_value] at hlookup
  exact h (Option.some.inj hlookup)

theorem handleRectangle_eq (rect : WireRect) {encoding : Encoding}
    (hlast : encoding ≠ .pseudoLastRect) (hcount : c.rectangles ≠ 0) :
    RFBClient.handleRectangle rt (rect.header encoding) c =
      RFBClient.dispatchRectangle rt rect.toRect encoding.value (counted rect.toRect c) := by
  have hvalue : encoding.value ≠ Encoding.value .pseudoLastRect := value_ne_last hlast
  unfold RFBClient.handleRectangle
  simp only [WireRect.field_x, WireRect.field_y, WireRect.field_width, WireRect.field_height,
    WireRect.field_encoding, hvalue, if_false]
  have hrun : (do
      if (← get).rectangles ≠ 0 then
        modify fun c => { c with rectangles := c.rectangles - 1 }
        RFBClient.appendRectangle rect.toRect
        RFBClient.dispatchRectangle rt rect.toRect encoding.value
      else
        RFBClient.doConnection rt : Py σ Unit) c =
      (if c.rectangles ≠ 0 then (do
        modify fun c => { c with rectangles := c.rectangles - 1 }
        RFBClient.appendRectangle rect.toRect
        RFBClient.dispatchRectangle rt rect.toRect encoding.value)
      else
        RFBClient.doConnection rt : Py σ Unit) c := rfl
  refine hrun.trans ?_
  rw [if_pos hcount]
  rfl

/-- A LastRect makes the rectangle loop give up counting. -/
theorem handleRectangle_last (rect : WireRect) :
    RFBClient.handleRectangle rt (rect.header .pseudoLastRect) c =
      RFBClient.doConnection rt { c with rectangles := 0 } := by
  unfold RFBClient.handleRectangle
  simp only [WireRect.field_encoding, if_true]
  rfl

/-! ## Raw rectangles through the pump -/

/-- The buffer for a rectangle of the client's pixels. -/
def bufferFor (c : RFBClient σ) (rect : Rect) (backing : Bytes) : RectBuffer :=
  { width := rect.width, height := rect.height, bypp := c.pixelFormat.bypp, backing := backing,
    nbytes := rect.width * rect.height * c.pixelFormat.bypp }

theorem rectBuffer_eq {rect : Rect} (hfits : c.Fits rt.env rect.width rect.height) :
    ∃ backing, RFBClient.rectBuffer rt rect.width rect.height c =
      .ok (some (bufferFor c rect backing)) { c with rectBacking := backing } := by
  have hmake {backing : Bytes}
      (hlen : ¬ backing.length < rect.width * rect.height * c.pixelFormat.bypp) :
      RectBuffer.make rect.width rect.height c.pixelFormat.bypp backing =
        .ok (bufferFor c rect backing) := if_neg hlen
  have hensures : Ensures (RFBClient.rectBuffer rt rect.width rect.height) c
      (fun target c' => ∃ backing, target = some (bufferFor c rect backing) ∧
        c' = { c with rectBacking := backing })
      fun _ _ => False := by
    unfold RFBClient.rectBuffer
    rw [ensures_bind, ensures_get]
    refine ensures_ite.2 ⟨fun hnot => absurd hfits.1 hnot, fun _ => ensures_ite.2 ⟨fun hshort =>
      ensures_ite.2 ⟨fun _ => ?_, fun hnot => absurd (hfits.2 hshort) hnot⟩, fun hlen => ?_⟩⟩
    -- The backing is replaced by one that is long enough.
    · rw [ensures_bind, ensures_modify, ensures_bind, ensures_get]
      dsimp only
      rw [hmake (by simp)]
      exact ⟨_, rfl, rfl⟩
    · rw [ensures_bind, ensures_get, hmake hlen]
      exact ⟨c.rectBacking, rfl, rfl⟩
  rcases hensures.exists_run_ok with ⟨_, _, hrun, backing, rfl, rfl⟩
  exact ⟨backing, hrun⟩

theorem pumpBlock_first {rect : Rect} {target : RectBuffer} :
    RFBClient.pumpBlock rt [] (.decodePixels target false) (some rect) c =
      .ok () { c with
        expectedHandler := .pumpBlock (.decodePixels target true) (some rect)
        expectedLen := target.width * target.height * target.bypp } := by
  have hcast : (target.width : ℤ) * target.height * target.bypp =
      ((target.width * target.height * target.bypp : ℕ) : ℤ) := by
    push_cast
    rfl
  have hsize : ¬ ((target.width : ℤ) * target.height * target.bypp < 0) := by
    rw [hcast]
    exact Int.not_lt.2 (Int.natCast_nonneg _)
  have hrun : RFBClient.pumpBlock rt [] (.decodePixels target false) (some rect) c =
        if (target.width : ℤ) * target.height * target.bypp < 0 then
          rt.abortConnection (.negativeSize (target.width * target.height * target.bypp)) c
        else
          expect (.pumpBlock (.decodePixels target true) (some rect))
            ((target.width : ℤ) * target.height * target.bypp).toNat c := rfl
  rw [hrun, if_neg hsize, hcast, Int.toNat_natCast]
  rfl

/-- The pixels a rectangle was waiting for are handed on whole. -/
theorem pumpBlock_last {rect : Rect} {target : RectBuffer} {pixels : Bytes}
    (hlen : pixels.length = target.width * target.height * target.bypp) :
    RFBClient.pumpBlock rt pixels (.decodePixels target true) (some rect) c =
      (do
        rt.call (.updateRectangle rect.x rect.y rect.width rect.height pixels c.pixelFormat)
        RFBClient.doConnection rt) { c with rectBacking := target.backing } := by
  have hsend : RFBClient.send rt (.decodePixels target true) pixels c =
      .ok (.returned (some { target with whole := some pixels, covered := true })) c := by
    change (do
      let target ← liftExcept (target.after (RectBuffer.blit 0 0 target.width target.height pixels))
      return .returned (some target) : Py σ RFBClient.Progress) c = _
    rw [target.blit_whole hlen]
    rfl
  unfold RFBClient.pumpBlock
  rw [hsend]
  rfl

/-- The client that waits for the pixels of a rectangle. -/
def awaitingPixels (c : RFBClient σ) (rect : Rect) (backing : Bytes) : RFBClient σ :=
  { c with
    rectBacking := backing
    expectedHandler := .pumpBlock (.decodePixels (bufferFor c rect backing) true) (some rect)
    expectedLen := rect.width * rect.height * c.pixelFormat.bypp }

/-- A Raw rectangle that fits asks for its pixels. -/
theorem pump_raw {rect : Rect} (hfits : c.Fits rt.env rect.width rect.height) :
    ∃ backing, RFBClient.pump rt .rawDecoder rect c = .ok () (awaitingPixels c rect backing) := by
  rcases rectBuffer_eq hfits with ⟨backing, hbuffer⟩
  exact ⟨backing, (run_bind_ok hbuffer).trans pumpBlock_first⟩

/-! ## The other rectangles -/

theorem pumpBlock_copyRect {rect : Rect} {block : Bytes} :
    RFBClient.pumpBlock rt block (.decodeForClient rect true) none c =
      match rt.call (.copyRectangle (field block 0 2) (field block 2 2) rect.x rect.y rect.width
        rect.height) c with
      | .ok _ c => RFBClient.doConnection rt c
      | .error exc c =>
          if RFBClient.pumpCatches exc then rt.abortConnection (.cannotDecode exc) c
          else .error exc c := by
  unfold RFBClient.pumpBlock
  cases hcall : rt.call (.copyRectangle (field block 0 2) (field block 2 2) rect.x rect.y rect.width
    rect.height) c with
  | ok _ c₁ =>
      have hsend : RFBClient.send rt (.decodeForClient rect true) block c =
          .ok (.returned none) c₁ := run_bind_ok hcall
      rw [hsend]
  | error exc c₁ =>
      have hsend : RFBClient.send rt (.decodeForClient rect true) block c = .error exc c₁ :=
        run_bind_error hcall
      rw [hsend]

theorem decodePseudoCursor_eq {rect : Rect} {image mask : Bytes}
    (hlen : image.length = rect.width * rect.height * c.pixelFormat.bypp) :
    RFBClient.handleDecodePseudoCursor rt rect (image ++ mask) c =
      (do
        rt.call (.updateCursor rect.x rect.y rect.width rect.height image mask)
        RFBClient.doConnection rt) c := by
  have hrun : RFBClient.handleDecodePseudoCursor rt rect (image ++ mask) c =
      (do
        rt.call (.updateCursor rect.x rect.y rect.width rect.height
          ((image ++ mask).take (rect.width * rect.height * c.pixelFormat.bypp))
          ((image ++ mask).drop (rect.width * rect.height * c.pixelFormat.bypp)))
        RFBClient.doConnection rt) c := rfl
  rw [hrun, List.take_left' hlen, List.drop_left' hlen]

/-! ## Rectangles -/

/-- A client of a size that can go on decoding the framebuffer's messages; a zero sets no bound. -/
structure Decoding (size : ℕ × ℕ) (fb : Framebuffer) (c : RFBClient σ) : Prop where
  stage : c.stage = .handleExpected
  aborted : c.aborted = false
  width : c.width = size.1
  height : c.height = size.2
  format : c.pixelFormat = fb.format
  bound : (size.1 ≠ 0 → size.1 = fb.width) ∧ (size.2 ≠ 0 → size.2 = fb.height)

theorem Decoding.of_eq {size : ℕ × ℕ} {fb : Framebuffer} (h : Decoding size fb c) (hstage : c'.stage = c.stage)
    (haborted : c'.aborted = c.aborted) (hwidth : c'.width = c.width)
    (hheight : c'.height = c.height) (hformat : c'.pixelFormat = c.pixelFormat) :
    Decoding size fb c' :=
  ⟨hstage.trans h.stage, haborted.trans h.aborted, hwidth.trans h.width, hheight.trans h.height,
    hformat.trans h.format, h.bound⟩

/-- What the callbacks of an update do to the attributes a subclass adds, as long as `I` holds of
them: a rectangle's turn them by `effect`. -/
structure Plays (rt : Runtime σ) (size : ℕ × ℕ) (fb : Framebuffer) (I : σ → Prop)
    (effect : ServerRect fb → σ → σ) : Prop where
  begins : ∀ c, rt.override .beginUpdate c = .ok () c
  plays : ∀ (rect : ServerRect fb) (c : RFBClient σ), Decoding size fb c → I c.app →
    ∀ cb ∈ rect.denote, rt.override cb c = .ok () { c with app := effect rect c.app }
  silent : ∀ (rect : ServerRect fb) (app : σ), rect.denote = [] → effect rect app = app
  keeps : ∀ (rect : ServerRect fb) (app : σ), I app → I (effect rect app)

/-- From `c` to `c'` the callbacks have been made and the positions noted, with `left` rectangles
still to come. -/
structure Played (size : ℕ × ℕ) (fb : Framebuffer) (c c' : RFBClient σ) (callbacks : List Callback) (app : σ)
    (positions : List Rect) (left : ℕ) : Prop where
  decoding : Decoding size fb c'
  log : c'.log = c.log ++ callbacks.map .callback
  app : c'.app = app
  rectanglePos : c'.rectanglePos = c.rectanglePos ++ positions
  rectangles : c'.rectangles = left

section Rectangles

variable {size : ℕ × ℕ} {fb : Framebuffer} {I : σ → Prop} {effect : ServerRect fb → σ → σ} {k : ℕ}

/-- One callback of a rectangle, and what follows it. -/
theorem Plays.call_bind (h : Plays rt size fb I effect) (rect : ServerRect fb) (c : RFBClient σ)
    {cb : Callback} (hcb : cb ∈ rect.denote) (hdecoding : Decoding size fb c) (hI : I c.app)
    (next : Py σ Unit) :
    (do
      rt.call cb
      next) c = next { c with log := c.log ++ [.callback cb], app := effect rect c.app } :=
  run_bind_ok (h.plays rect { c with log := c.log ++ [.callback cb] }
    (hdecoding.of_eq rfl rfl rfl rfl rfl) hI cb hcb)

/-- The turn that reads the header of a rectangle. -/
theorem reaches_header {rect : WireRect} {encoding : Encoding} {rest : Bytes}
    (hdecoding : Decoding size fb c) (hcount : c.rectangles = k + 1)
    (hlast : encoding ≠ .pseudoLastRect)
    (hrun : RFBClient.dispatchRectangle rt rect.toRect encoding.value
      (counted rect.toRect (awaitingRectangle c)) = .ok () c') (haborted' : c'.aborted = false) :
    Reaches (iterate rt) (live (awaitingRectangle c) (rect.header encoding ++ rest))
      (live c' rest) := by
  have hne : c.rectangles ≠ 0 := hcount ▸ Nat.succ_ne_zero k
  refine reaches_live hdecoding.stage hdecoding.aborted (rect.length_header encoding) ?_ haborted'
  have hcounted := @handleRectangle_eq σ rt (awaitingRectangle c) rect encoding hlast hne
  exact hcounted.trans hrun

/-- A rectangle is decoded up to where the client looks for the next one. -/
theorem reaches_rect (hplays : Plays rt size fb I effect)
    (halloc : ∀ n ≤ fb.width * fb.height * fb.format.bypp, rt.env.alloc n = true)
    (rect : ServerRect fb) (rest : Bytes) (hdecoding : Decoding size fb c) (hI : I c.app)
    (hcount : c.rectangles = k + 1) :
    ∃ c₁, Played size fb c c₁ rect.denote (effect rect c.app) rect.position k ∧
      ∀ c₂, RFBClient.doConnection rt c₁ = .ok () c₂ → c₂.aborted = false →
        Reaches (iterate rt) (live (awaitingRectangle c) (rect.encode ++ rest)) (live c₂ rest) := by
  have hleft : c.rectangles - 1 = k := by omega
  have hdecoding' {c' : RFBClient σ} (hstage : c'.stage = c.stage)
      (haborted : c'.aborted = c.aborted) (hwidth : c'.width = c.width)
      (hheight : c'.height = c.height) (hformat : c'.pixelFormat = c.pixelFormat) :
      Decoding size fb c' :=
    hdecoding.of_eq hstage haborted hwidth hheight hformat
  -- A rectangle with a payload takes a second turn.
  have hbody {wire : WireRect} {encoding : Encoding} {body : Bytes} {c₀ c₁ c₂ : RFBClient σ}
      (hlast : encoding ≠ .pseudoLastRect)
      (hrun : RFBClient.dispatchRectangle rt wire.toRect encoding.value
        (counted wire.toRect (awaitingRectangle c)) = .ok () c₀)
      (hdecoding₀ : Decoding size fb c₀) (hlen : body.length = c₀.expectedLen)
      (hnext : c₀.expectedHandler.run rt body c₀ = RFBClient.doConnection rt c₁)
      (hdone : RFBClient.doConnection rt c₁ = .ok () c₂) (haborted₂ : c₂.aborted = false) :
      Reaches (iterate rt)
        (live (awaitingRectangle c) (wire.header encoding ++ body ++ rest)) (live c₂ rest) := by
    have hheader : Reaches (iterate rt)
        (live (awaitingRectangle c) (wire.header encoding ++ (body ++ rest)))
        (live c₀ (body ++ rest)) :=
      reaches_header hdecoding hcount hlast hrun hdecoding₀.aborted
    have hpayload : Reaches (iterate rt) (live c₀ (body ++ rest)) (live c₂ rest) :=
      reaches_live hdecoding₀.stage hdecoding₀.aborted hlen (hnext.trans hdone) haborted₂
    rw [List.append_assoc]
    exact hheader.trans hpayload
  cases rect with
  | raw rect pixels fits length =>
      let c₀ : RFBClient σ := counted rect.toRect (awaitingRectangle c)
      have hbypp : c₀.pixelFormat.bypp = fb.format.bypp :=
        congrArg PixelFormat.bypp hdecoding.format
      have hlen : pixels.length = rect.toRect.width * rect.toRect.height * c₀.pixelFormat.bypp := by
        rw [hbypp]
        exact length
      have hfits : c₀.Fits rt.env rect.toRect.width rect.toRect.height := by
        have hwidth : c₀.width = size.1 := hdecoding.width
        have hheight : c₀.height = size.2 := hdecoding.height
        have hmax : (rect.width : ℕ) ≤ RFBClient.maxDesktopSize ∧
            (rect.height : ℕ) ≤ RFBClient.maxDesktopSize :=
          ⟨rect.width.isLt.le, rect.height.isLt.le⟩
        refine ⟨⟨?_, ?_⟩, fun _ => halloc _ ?_⟩
        · rw [hwidth]
          split_ifs with hbound
          · exact (hdecoding.bound.1 hbound).symm ▸ fits.1
          · exact hmax.1
        · rw [hheight]
          split_ifs with hbound
          · exact (hdecoding.bound.2 hbound).symm ▸ fits.2
          · exact hmax.2
        · rw [hbypp]
          exact Nat.mul_le_mul_right _ (Nat.mul_le_mul fits.1 fits.2)
      rcases pump_raw hfits with ⟨backing, hpump⟩
      let cb : Callback :=
        .updateRectangle rect.x.val rect.y.val rect.width.val rect.height.val pixels fb.format
      let c₁ : RFBClient σ :=
        { awaitingPixels c₀ rect.toRect backing with
          log := c.log ++ [.callback cb]
          app := effect (.raw rect pixels fits length) c.app }
      have hnext : RFBClient.pumpBlock rt pixels
          (.decodePixels (bufferFor c₀ rect.toRect backing) true) (some rect.toRect)
          (awaitingPixels c₀ rect.toRect backing) = RFBClient.doConnection rt c₁ := by
        have hcb : Callback.updateRectangle rect.toRect.x rect.toRect.y rect.toRect.width
            rect.toRect.height pixels (awaitingPixels c₀ rect.toRect backing).pixelFormat = cb :=
          congrArg (Callback.updateRectangle _ _ _ _ pixels) hdecoding.format
        have hrun := @pumpBlock_last σ rt (awaitingPixels c₀ rect.toRect backing) rect.toRect
          (bufferFor c₀ rect.toRect backing) pixels hlen
        rw [hcb] at hrun
        exact hrun.trans (hplays.call_bind (.raw rect pixels fits length)
          (awaitingPixels c₀ rect.toRect backing) List.mem_cons_self
          (hdecoding' rfl rfl rfl rfl rfl) hI (RFBClient.doConnection rt))
      refine ⟨c₁, ⟨hdecoding' rfl rfl rfl rfl rfl, rfl, rfl, rfl, hleft⟩, fun c₂ => ?_⟩
      exact hbody (by decide) hpump (hdecoding' rfl rfl rfl rfl rfl) hlen hnext
  | copyRect rect srcx srcy =>
      let cb : Callback :=
        .copyRectangle srcx.val srcy.val rect.x.val rect.y.val rect.width.val rect.height.val
      let c₀ : RFBClient σ :=
        { counted rect.toRect c with
          expectedHandler := .pumpBlock (.decodeForClient rect.toRect true) none
          expectedLen := 4 }
      let c₁ : RFBClient σ :=
        { c₀ with log := c.log ++ [.callback cb], app := effect (.copyRect rect srcx srcy) c.app }
      have hsrcx : field (packBE 2 srcx ++ packBE 2 srcy) 0 2 = srcx :=
        @field_pack [] (packBE 2 srcy) 0 2 _ rfl srcx.isLt
      have hsrcy : field (packBE 2 srcx ++ packBE 2 srcy) 2 2 = srcy := by
        have h := @field_pack (packBE 2 srcx) [] 2 2 _ (length_packBE 2 _) srcy.isLt
        rwa [List.append_nil] at h
      have hcall : rt.call cb c₀ = .ok () c₁ :=
        hplays.plays (.copyRect rect srcx srcy) { c₀ with log := c.log ++ [.callback cb] }
          (hdecoding' rfl rfl rfl rfl rfl) hI cb List.mem_cons_self
      have hnext : RFBClient.pumpBlock rt (packBE 2 srcx ++ packBE 2 srcy)
          (.decodeForClient rect.toRect true) none c₀ = RFBClient.doConnection rt c₁ := by
        have hrun := @pumpBlock_copyRect σ rt c₀ rect.toRect (packBE 2 srcx ++ packBE 2 srcy)
        rw [hsrcx, hsrcy] at hrun
        change _ = (match rt.call cb c₀ with
          | .ok _ c => RFBClient.doConnection rt c
          | .error exc c => _) at hrun
        rw [hcall] at hrun
        exact hrun
      refine ⟨c₁, ⟨hdecoding' rfl rfl rfl rfl rfl, rfl, rfl, rfl, hleft⟩, fun c₂ => ?_⟩
      have hlen : (packBE 2 (srcx : ℕ) ++ packBE 2 (srcy : ℕ)).length = c₀.expectedLen := by
        rw [List.length_append, length_packBE, length_packBE]
      have hrun : RFBClient.dispatchRectangle rt rect.toRect (Encoding.value .copyRectangle)
          (counted rect.toRect (awaitingRectangle c)) = .ok () c₀ := rfl
      exact hbody (by decide) hrun (hdecoding' rfl rfl rfl rfl rfl) hlen hnext
  | cursor rect image mask image_length mask_length =>
      let cb : Callback :=
        .updateCursor rect.x.val rect.y.val rect.width.val rect.height.val image mask
      let c₀ : RFBClient σ :=
        { counted rect.toRect c with
          expectedHandler := .decodePseudoCursor rect.toRect
          expectedLen := RFBClient.cursorLength c.pixelFormat.bypp rect.width rect.height }
      let c₁ : RFBClient σ :=
        { c₀ with
          log := c.log ++ [.callback cb]
          app := effect (.cursor rect image mask image_length mask_length) c.app }
      have hbypp : c₀.pixelFormat.bypp = fb.format.bypp :=
        congrArg PixelFormat.bypp hdecoding.format
      have himage : image.length = rect.toRect.width * rect.toRect.height * c₀.pixelFormat.bypp := by
        rw [hbypp]
        exact image_length
      have hlen : (image ++ mask).length = c₀.expectedLen := by
        rw [List.length_append, himage, mask_length]
        rfl
      have hnext : RFBClient.handleDecodePseudoCursor rt rect.toRect (image ++ mask) c₀ =
          RFBClient.doConnection rt c₁ := by
        refine (decodePseudoCursor_eq himage).trans ?_
        exact hplays.call_bind (.cursor rect image mask image_length mask_length) c₀
          List.mem_cons_self (hdecoding' rfl rfl rfl rfl rfl) hI _
      have hrun : RFBClient.dispatchRectangle rt rect.toRect (Encoding.value .pseudoCursor)
          (counted rect.toRect (awaitingRectangle c)) = .ok () c₀ := rfl
      refine ⟨c₁, ⟨hdecoding' rfl rfl rfl rfl rfl, rfl, rfl, rfl, hleft⟩, fun c₂ => ?_⟩
      exact hbody (by decide) hrun (hdecoding' rfl rfl rfl rfl rfl) hlen hnext
  | desktopSize rect =>
      let cb : Callback := .updateDesktopSize rect.width.val rect.height.val
      let c₀ : RFBClient σ :=
        { counted rect.toRect (awaitingRectangle c) with
          rectanglePos := (c.rectanglePos ++ [rect.toRect]).dropLast }
      let c₁ : RFBClient σ :=
        { c₀ with log := c.log ++ [.callback cb], app := effect (.desktopSize rect) c.app }
      have hrun : RFBClient.dispatchRectangle rt rect.toRect (Encoding.value .pseudoDesktopSize)
          (counted rect.toRect (awaitingRectangle c)) = RFBClient.doConnection rt c₁ :=
        hplays.call_bind (.desktopSize rect) c₀ List.mem_cons_self
          (hdecoding' rfl rfl rfl rfl rfl) hI _
      refine ⟨c₁, ⟨hdecoding' rfl rfl rfl rfl rfl, rfl, rfl, ?_, hleft⟩, fun c₂ hdone => ?_⟩
      · simp [c₁, c₀, ServerRect.position]
      · exact reaches_header hdecoding hcount (by decide) (hrun.trans hdone)
  | qemuExtendedKeyEvent rect =>
      let c₁ : RFBClient σ :=
        { counted rect.toRect (awaitingRectangle c) with
          rectanglePos := (c.rectanglePos ++ [rect.toRect]).dropLast
          negotiatedEncodings := c.negotiatedEncodings.insert .pseudoQemuExtendedKeyEvent }
      refine ⟨c₁, ⟨hdecoding' rfl rfl rfl rfl rfl, ?_, ?_, ?_, hleft⟩, fun c₂ hdone => ?_⟩
      · exact (List.append_nil _).symm
      · exact (hplays.silent (.qemuExtendedKeyEvent rect) c.app rfl).symm
      · simp [c₁, ServerRect.position]
      · exact reaches_header hdecoding hcount (by decide) hdone

/-- The attributes after the rectangles. -/
def played (effect : ServerRect fb → σ → σ) (rects : List (ServerRect fb)) (app : σ) : σ :=
  rects.foldl (fun app rect => effect rect app) app

theorem Played.trans {c₁ c₂ : RFBClient σ} {callbacks callbacks' : List Callback} {app app' : σ}
    {positions positions' : List Rect} {left left' : ℕ}
    (h : Played size fb c c₁ callbacks app positions left)
    (h' : Played size fb c₁ c₂ callbacks' app' positions' left') :
    Played size fb c c₂ (callbacks ++ callbacks') app' (positions ++ positions') left' where
  decoding := h'.decoding
  log := by rw [h'.log, h.log, List.map_append, List.append_assoc]
  app := h'.app
  rectanglePos := by rw [h'.rectanglePos, h.rectanglePos, List.append_assoc]
  rectangles := h'.rectangles

/-- The rectangles of an update, `extra` more of them having been announced. -/
theorem reaches_rects (hplays : Plays rt size fb I effect)
    (halloc : ∀ n ≤ fb.width * fb.height * fb.format.bypp, rt.env.alloc n = true)
    (rects : List (ServerRect fb)) (rest : Bytes) {extra : ℕ} :
    ∀ {c : RFBClient σ}, Decoding size fb c → I c.app → c.rectangles = rects.length + extra →
      ∃ c₁, Played size fb c c₁ (rects.flatMap ServerRect.denote) (played effect rects c.app)
          (rects.flatMap ServerRect.position) extra ∧
        ∀ c₀ c₂, RFBClient.doConnection rt c = .ok () c₀ →
          RFBClient.doConnection rt c₁ = .ok () c₂ → c₂.aborted = false →
          Reaches (iterate rt) (live c₀ (rects.flatMap ServerRect.encode ++ rest))
            (live c₂ rest) := by
  induction rects with
  | nil =>
      intro c hdecoding hI hcount
      refine ⟨c, ⟨hdecoding, (List.append_nil _).symm, rfl, (List.append_nil _).symm, ?_⟩,
        fun c₀ c₂ hstart hdone _ => ?_⟩
      · rw [hcount, List.length_nil, Nat.zero_add]
      · rw [hstart] at hdone
        cases hdone
        exact Relation.ReflTransGen.refl
  | cons rect rects ih =>
      intro c hdecoding hI hcount
      have hcount' : c.rectangles = (rects.length + extra) + 1 := by
        rw [hcount, List.length_cons]
        omega
      have hstart := @doConnection_of_pos σ rt c (hcount' ▸ Nat.succ_ne_zero _)
      rcases reaches_rect hplays halloc rect (rects.flatMap ServerRect.encode ++ rest) hdecoding hI
        hcount' with ⟨c₁, hplayed, hrect⟩
      have hI₁ : I c₁.app := hplayed.app ▸ hplays.keeps rect _ hI
      rcases ih hplayed.decoding hI₁ hplayed.rectangles with ⟨c₂, hplayed', hrects⟩
      rw [hplayed.app] at hplayed'
      cases rects with
      | nil =>
          -- The last rectangle hands over to whatever follows the update.
          refine ⟨c₁, ?_, fun c₀ c₃ hc₀ hdone haborted => ?_⟩
          · have hlast := hplayed
            simpa [played, hplayed.rectangles] using hlast
          · rw [hstart] at hc₀
            cases hc₀
            simpa using hrect c₃ hdone haborted
      | cons next rects =>
          have hmiddle := @doConnection_of_pos σ rt c₁ (by
            rw [hplayed.rectangles, List.length_cons]
            omega)
          refine ⟨c₂, hplayed.trans hplayed', fun c₀ c₃ hc₀ hdone haborted => ?_⟩
          rw [hstart] at hc₀
          cases hc₀
          have hfirst := hrect (awaitingRectangle c₁) hmiddle hplayed.decoding.aborted
          have hothers := hrects (awaitingRectangle c₁) c₃ hmiddle hdone haborted
          rw [List.flatMap_cons, List.append_assoc]
          exact hfirst.trans hothers

/-! ## Updates -/

/-- Between two messages. -/
structure Waiting (size : ℕ × ℕ) (fb : Framebuffer) (c : RFBClient σ) : Prop where
  decoding : Decoding size fb c
  armed : c.armed = (.connection, 1)

/-- The turn that reads a message's type. -/
theorem reaches_kind {kind rest : Bytes} (hwaiting : Waiting size fb c) (hlen : kind.length = 1)
    (hrun : RFBClient.handleConnection rt kind c = .ok () c') (haborted' : c'.aborted = false) :
    Reaches (iterate rt) (live c (kind ++ rest)) (live c' rest) := by
  have hhandler : c.expectedHandler = .connection := congrArg Prod.fst hwaiting.armed
  have hlen' : c.expectedLen = 1 := congrArg Prod.snd hwaiting.armed
  refine reaches_live hwaiting.decoding.stage hwaiting.decoding.aborted (hlen.trans hlen'.symm) ?_
    haborted'
  rw [hhandler]
  exact hrun

/-- The client that has begun an update of `n` rectangles. -/
def begun (n : ℕ) (c : RFBClient σ) : RFBClient σ :=
  { c with
    expectedHandler := .framebufferUpdate
    expectedLen := 3
    rectangles := n
    rectanglePos := []
    log := c.log ++ [.callback .beginUpdate] }

theorem reaches_begun (hplays : Plays rt size fb I effect) (hwaiting : Waiting size fb c) {n : ℕ}
    (hn : n < 256 ^ 2) (rest : Bytes) {c₀ : RFBClient σ}
    (hstart : RFBClient.doConnection rt (begun n c) = .ok () c₀) (haborted : c₀.aborted = false) :
    Reaches (iterate rt) (live c ([0] ++ (([0] ++ packBE 2 n) ++ rest))) (live c₀ rest) := by
  have hdecoding := hwaiting.decoding
  let c₁ : RFBClient σ := { c with expectedHandler := .framebufferUpdate, expectedLen := 3 }
  have hkind : Reaches (iterate rt) (live c ([0] ++ (([0] ++ packBE 2 n) ++ rest)))
      (live c₁ (([0] ++ packBE 2 n) ++ rest)) :=
    reaches_kind hwaiting rfl rfl hdecoding.aborted
  have hcount : field ([0] ++ packBE 2 n) 1 2 = n := by
    have h := @field_pack [0] [] 1 2 _ rfl hn
    rwa [List.append_nil] at h
  have hrun : RFBClient.handleFramebufferUpdate rt ([0] ++ packBE 2 n) c₁ =
      RFBClient.doConnection rt (begun (field ([0] ++ packBE 2 n) 1 2) c) :=
    run_bind_ok (hplays.begins (begun (field ([0] ++ packBE 2 n) 1 2) c))
  rw [hcount, hstart] at hrun
  exact hkind.trans (reaches_live hdecoding.stage hdecoding.aborted (by simp [c₁]) hrun haborted)

/-- Between the bytes of an update and its commit nothing is done but what its rectangles mean. -/
def Commits (rt : Runtime σ) (size : ℕ × ℕ) (fb : Framebuffer) (effect : ServerRect fb → σ → σ)
    (c : RFBClient σ) (bytes : Bytes) (rects : List (ServerRect fb)) (rest : Bytes) : Prop :=
  ∃ n c₁, Played size fb (begun n c) c₁ (rects.flatMap ServerRect.denote)
      (played effect rects c.app) (rects.flatMap ServerRect.position) 0 ∧
    ∀ c₂, RFBClient.doConnection rt c₁ = .ok () c₂ → c₂.aborted = false →
      Reaches (iterate rt) (live c (bytes ++ rest)) (live c₂ rest)

/-- An update with as many rectangles as it announces. -/
theorem commits_framebufferUpdate (hplays : Plays rt size fb I effect)
    (halloc : ∀ n ≤ fb.width * fb.height * fb.format.bypp, rt.env.alloc n = true)
    (hwaiting : Waiting size fb c) (hI : I c.app) {rects : List (ServerRect fb)}
    (hcount : rects.length < 256 ^ 2) (rest : Bytes) :
    Commits rt size fb effect c
      ([0] ++ ([0] ++ packBE 2 rects.length) ++ rects.flatMap ServerRect.encode) rects rest := by
  have hbegun : Decoding size fb (begun rects.length c) :=
    hwaiting.decoding.of_eq rfl rfl rfl rfl rfl
  cases hrects : rects with
  | nil =>
      -- The commit follows the header.
      refine ⟨0, begun 0 c, ⟨hbegun.of_eq rfl rfl rfl rfl rfl, (List.append_nil _).symm, rfl, rfl, rfl⟩,
        fun c₂ hdone haborted => ?_⟩
      exact reaches_begun hplays hwaiting (Nat.pow_pos (by decide)) rest hdone haborted
  | cons rect others =>
      rcases @reaches_rects σ rt size fb I effect hplays halloc rects rest 0 _ hbegun hI rfl with
        ⟨c₁, hplayed, hreaches⟩
      have hstart : RFBClient.doConnection rt (begun rects.length c) =
          .ok () (awaitingRectangle (begun rects.length c)) :=
        doConnection_of_pos (by
          rw [hrects]
          exact Nat.succ_ne_zero _)
      rw [← hrects]
      refine ⟨rects.length, c₁, hplayed, fun c₂ hdone haborted => ?_⟩
      have hbegin := reaches_begun hplays hwaiting hcount
        (rects.flatMap ServerRect.encode ++ rest) hstart hbegun.aborted
      have hupdate := hbegin.trans (hreaches _ c₂ hstart hdone haborted)
      rw [← List.append_assoc, ← List.append_assoc] at hupdate
      exact hupdate

/-- An update that announces more rectangles than it has, ended by a LastRect. -/
theorem commits_framebufferUpdateLast (hplays : Plays rt size fb I effect)
    (halloc : ∀ n ≤ fb.width * fb.height * fb.format.bypp, rt.env.alloc n = true)
    (hwaiting : Waiting size fb c) (hI : I c.app) {rects : List (ServerRect fb)} {announced : U16}
    (last : WireRect) (hcount : rects.length < announced) (rest : Bytes) :
    Commits rt size fb effect c
      ([0] ++ ([0] ++ packBE 2 announced) ++ rects.flatMap ServerRect.encode ++
        last.header .pseudoLastRect) rects rest := by
  have hbegun : Decoding size fb (begun announced c) :=
    hwaiting.decoding.of_eq rfl rfl rfl rfl rfl
  have hextra : (begun announced c).rectangles = rects.length + (announced - rects.length) :=
    (Nat.add_sub_cancel' hcount.le).symm
  rcases reaches_rects hplays halloc rects (last.header .pseudoLastRect ++ rest) hbegun hI hextra
    with ⟨c₁, hplayed, hreaches⟩
  have hstart : RFBClient.doConnection rt (begun announced c) =
      .ok () (awaitingRectangle (begun announced c)) :=
    doConnection_of_pos (Nat.ne_of_gt (Nat.zero_lt_of_lt hcount))
  have hnext : RFBClient.doConnection rt c₁ = .ok () (awaitingRectangle c₁) := by
    refine doConnection_of_pos ?_
    rw [hplayed.rectangles]
    exact Nat.ne_of_gt (Nat.sub_pos_of_lt hcount)
  let c₂ : RFBClient σ := { awaitingRectangle c₁ with rectangles := 0 }
  have hdecoding₂ : Decoding size fb c₂ := hplayed.decoding.of_eq rfl rfl rfl rfl rfl
  refine ⟨announced, c₂, ⟨hdecoding₂, hplayed.log, hplayed.app, hplayed.rectanglePos, rfl⟩,
    fun c₃ hdone haborted => ?_⟩
  have hbegin := reaches_begun hplays hwaiting announced.isLt
    (rects.flatMap ServerRect.encode ++ (last.header .pseudoLastRect ++ rest)) hstart hbegun.aborted
  have hupdate := hbegin.trans (hreaches _ _ hstart hnext hplayed.decoding.aborted)
  have hlast : Reaches (iterate rt)
      (live (awaitingRectangle c₁) (last.header .pseudoLastRect ++ rest)) (live c₃ rest) := by
    refine reaches_live hplayed.decoding.stage hplayed.decoding.aborted (last.length_header _) ?_
      haborted
    exact (handleRectangle_last last).trans hdone
  have hreaches' := hupdate.trans hlast
  simp only [← List.append_assoc] at hreaches'
  exact hreaches'

/-- Any update is decoded up to its commit. -/
theorem commits_update (hplays : Plays rt size fb I effect)
    (halloc : ∀ n ≤ fb.width * fb.height * fb.format.bypp, rt.env.alloc n = true)
    (hwaiting : Waiting size fb c) (hI : I c.app) {message : ServerMessage fb}
    {rects : List (ServerRect fb)} (hupdate : message.update? = some rects) (rest : Bytes) :
    Commits rt size fb effect c message.encode rects rest := by
  cases message with
  | framebufferUpdate rects' count =>
      cases hupdate
      exact commits_framebufferUpdate hplays halloc hwaiting hI count rest
  | framebufferUpdateLast rects' announced last count =>
      cases hupdate
      exact commits_framebufferUpdateLast hplays halloc hwaiting hI last count rest
  | _ => exact nomatch hupdate

end Rectangles

/-! ## Between messages -/

/-- Between two messages, with nothing left unread. -/
structure Between (conn : Connection σ) : Prop where
  stage : conn.client.stage = .handleExpected
  aborted : conn.client.aborted = false
  armed : conn.client.armed = (.connection, 1)
  packet : conn.packet = []
  raised : conn.raised = none

section Between

variable {conn : Connection σ}

/-- At rest, with nothing left unread. -/
structure Idle (conn : Connection σ) : Prop where
  stage : conn.client.stage = .handleExpected
  aborted : conn.client.aborted = false
  packet : conn.packet = []
  raised : conn.raised = none

theorem Between.idle (h : conn.Between) : conn.Idle :=
  ⟨h.stage, h.aborted, h.packet, h.raised⟩

theorem Idle.eq_live (h : conn.Idle) : conn = live conn.client [] := by
  rcases conn with ⟨client, packet, raised⟩
  have hpacket : packet = [] := h.packet
  have hraised : raised = none := h.raised
  rw [hpacket, hraised]
  rfl

/-- A client that has read everything waits for the bytes it expects. -/
theorem iterate_of_expecting (h : 0 < c.expectedLen) : iterate rt (live c []) = none := by
  refine iterate_eq_none_iff.2 ?_
  by_contra hpending
  have hle : c.expectedLen ≤ 0 := (pending_ne_none_iff.1 hpending).2.2.2
  exact absurd hle (Nat.not_le.2 h)

theorem expecting_of_armed {handler : Handler} {n : ℕ} (h : c.armed = (handler, n + 1)) :
    0 < c.expectedLen := by
  have hlen : c.expectedLen = n + 1 := congrArg Prod.snd h
  rw [hlen]
  exact Nat.succ_pos n

/-- Bytes that take a client from one rest to another do so in any cut. -/
theorem Idle.receives_iff (h : conn.Idle) (hlen : 0 < conn.client.expectedLen) (htame : rt.Tame)
    {chunks : List Bytes}
    (hreaches : Reaches (iterate rt) (live conn.client chunks.flatten) (live c' []))
    (hlen' : 0 < c'.expectedLen) (q : Connection σ) :
    conn.Receives rt chunks q ↔ q = live c' [] := by
  have hexpecting : conn.Expecting chunks.flatten :=
    fun hinitial => absurd (h.stage.symm.trans hinitial) (by decide)
  have hrest : (receiveLoop rt).step conn = none := by
    have hiterate := @iterate_of_expecting σ rt conn.client hlen
    rw [← h.eq_live] at hiterate
    change advance rt conn = none
    simp [advance, h.stage, hiterate]
  have hdeliver : conn.deliver chunks.flatten = live conn.client chunks.flatten := by
    simp [deliver, h.aborted, h.packet, h.raised, live]
  have hstage : (live conn.client chunks.flatten).client.stage = .handleExpected := h.stage
  have hhalts : HaltsAt (iterate rt) (live conn.client chunks.flatten) (live c' []) :=
    ⟨hreaches, iterate_of_expecting hlen'⟩
  rw [Connection.receives_iff htame h.raised hexpecting, ReceiveLoop.receives_iff_flatten _ hrest]
  change HaltsAt (advance rt) (conn.deliver chunks.flatten) q ∧ q.raised = none ↔ _
  rw [hdeliver, ← haltsAt_iterate_iff htame hstage]
  constructor
  · exact fun hq => hq.1.unique hhalts
  · rintro rfl
    exact ⟨hhalts, rfl⟩

/-- Bytes that take a client from one message to the next do so in any cut. -/
theorem Between.receives_iff (h : conn.Between) (htame : rt.Tame) {chunks : List Bytes}
    (hreaches : Reaches (iterate rt) (live conn.client chunks.flatten) (live c' []))
    (harmed : c'.armed = (.connection, 1)) (q : Connection σ) :
    conn.Receives rt chunks q ↔ q = live c' [] :=
  h.idle.receives_iff (expecting_of_armed h.armed) htame hreaches (expecting_of_armed harmed) q

end Between

end Connection

end Vncdotool
