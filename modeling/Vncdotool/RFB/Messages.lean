import Vncdotool.RFB.Client

/-!
# Messages — server to client messages, the rectangle loop and the decoder pump

`handleRectangle` needs the Hextile walk and is defined with the encodings
(`RFB/Encodings.lean`); here are the message dispatch, the rectangle counter and the pump that
drives a decoder's generator.
-/

namespace Vncdotool

open Wire

variable {σ : Type} (rt : Runtime σ)

namespace RFBClient

/-! ## Message dispatch -/

def handleConnection (block : Bytes) : Py σ Unit :=
  let msgid := field block 0 1
  match MsgS2C.lookup msgid with
  | some .framebufferUpdate => expect .framebufferUpdate 3
  | some .setColourMapEntries => expect .colourMapEntries 5
  | some .bell => do
      rt.call .bell
      expect .connection 1
  | some .serverCutText => expect .serverCutText 7
  | none => rt.protocolError (.unknownMessage msgid)

def doConnection : Py σ Unit := do
  let c ← get
  if c.rectangles ≠ 0 then
    expect .rectangle 12
  else
    rt.call (.commitUpdate c.rectanglePos)
    expect .connection 1

def handleFramebufferUpdate (block : Bytes) : Py σ Unit := do
  modify fun c => { c with rectangles := field block 1 2, rectanglePos := [] }
  rt.call .beginUpdate
  doConnection rt

/-! ## The pump -/

/-- Greater than any `u16` dimension. -/
def maxDesktopSize : ℕ := 0x10000

/-- A buffer for one rectangle, or `none` having failed the connection. -/
def rectBuffer (width height : ℕ) : Py σ (Option RectBuffer) := do
  let c ← get
  -- Before ServerInit there is no width, and the largest desktop is the limit.
  let limitW := if c.width ≠ 0 then c.width else maxDesktopSize
  let limitH := if c.height ≠ 0 then c.height else maxDesktopSize
  if ¬ (width ≤ limitW ∧ height ≤ limitH) then
    rt.abortConnection (.doesNotFit width height limitW limitH)
    return none
  let needed := width * height * c.pixelFormat.bypp
  if c.rectBacking.length < needed then
    if rt.env.alloc needed then
      -- The backing only grows.
      modify fun c => { c with rectBacking := List.replicate needed 0 }
    else
      rt.abortConnection (.noMemory width height)
      return none
  let c ← get
  let buffer ← liftExcept (RectBuffer.make width height c.pixelFormat.bypp c.rectBacking)
  return some buffer

/-- What a generator does with the block it is sent: `yield` a size, or return. -/
inductive Progress
  | yielded (size : ℤ) (generator : Generator)
  | returned (target : Option RectBuffer)

/-- `generator.send(block)`. -/
def send : Generator → Bytes → Py σ Progress
  | .decodePixels target false, _ =>
      return .yielded (target.width * target.height * target.bypp) (.decodePixels target true)
  | .decodePixels target true, data => do
      let target ← liftExcept (target.after (RectBuffer.blit 0 0 target.width target.height data))
      return .returned (some target)
  | .decodeForClient rect false, _ =>
      return .yielded 4 (.decodeForClient rect true)
  | .decodeForClient rect true, block => do
      rt.call (.copyRectangle (field block 0 2) (field block 2 2) rect.x rect.y rect.width
        rect.height)
      return .returned none

/-- `_finishRectangle`: one `updateRectangle` with all of the rectangle's bytes. -/
def finishRectangle (target : RectBuffer) (rect : Rect) : Py σ Unit := do
  -- The target wrote into the shared backing, if anywhere.
  modify fun c => { c with rectBacking := target.backing }
  let c ← get
  rt.call (.updateRectangle rect.x rect.y rect.width rect.height target.tobytes c.pixelFormat)

/-- `except (DecodeError, StructError, MemoryError, zlib.error)`. -/
def pumpCatches : PyError → Bool
  | .decodeError => true
  | .structError => true
  | .memoryError => true
  | .zlibError => true
  | _ => false

/-- `_pumpBlock`; the first block, Python's `None`, is the empty one. -/
def pumpBlock (block : Bytes) (generator : Generator) (finish : Option Rect) : Py σ Unit := fun c =>
  match send rt generator block c with
  | .ok (.returned target) c =>
      (do
        match finish, target with
        | some rect, some target => finishRectangle rt target rect
        | _, _ => pure ()
        doConnection rt) c
  | .ok (.yielded size generator) c =>
      if size < 0 then
        rt.abortConnection (.negativeSize size) c
      else
        expect (.pumpBlock generator finish) size.toNat c
  | .error exc c =>
      if pumpCatches exc then
        rt.abortConnection (.cannotDecode exc) c
      else
        .error exc c

/-- `_pumpPixels` and `_pumpForClient`, as the decoder's base class pairs them. -/
def pump (decoder : Decoder) (rect : Rect) : Py σ Unit :=
  match decoder with
  | .rawDecoder => do
      match ← rectBuffer rt rect.width rect.height with
      | none => pure ()
      | some target => pumpBlock rt [] (.decodePixels target false) (some rect)
  | .copyRectDecoder => pumpBlock rt [] (.decodeForClient rect false) none

/-! ## Other messages -/

def handleColourMapEntries (block : Bytes) : Py σ Unit :=
  let firstColor := field block 1 2
  let numberOfColors := field block 3 2
  expect (.colourMapEntriesValue firstColor) (6 * numberOfColors)

/-- `[unpack_from("!HHH", block, offset) for offset in range(0, len(block), 6)]`. -/
def colours (block : Bytes) : List (ℕ × ℕ × ℕ) :=
  (List.range (block.length / 6)).map fun i =>
    (field block (6 * i) 2, field block (6 * i + 2) 2, field block (6 * i + 4) 2)

def handleColourMapEntriesValue (firstColor : ℕ) (block : Bytes) : Py σ Unit := do
  rt.call (.setColorMap firstColor (colours block))
  expect .connection 1

def handleServerCutText (block : Bytes) : Py σ Unit :=
  let length := field block 3 4
  expect .serverCutTextValue length

/-- `block.decode("iso-8859-1")`. -/
def latin1 (block : Bytes) : String :=
  String.ofList (block.map fun b => Char.ofNat b.toNat)

def handleServerCutTextValue (block : Bytes) : Py σ Unit := do
  rt.call (.copyText (latin1 block))
  expect .connection 1

end RFBClient

end Vncdotool
