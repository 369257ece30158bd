import Vncdotool.RFB.Messages

/-!
# Encodings — RRE, CoRRE, Hextile, ZRLE, the pseudo-encodings and `_handleRectangle`

The encodings that are still decoded by the client itself, outside the pump.  Loops over a block
are recursions with the block's length as fuel: every turn of every loop consumes at least one
byte, so the fuel never ends a loop that the code would go on with.
-/

namespace Vncdotool

open Wire

variable {σ : Type} (rt : Runtime σ)

namespace RFBClient

/-! ## RRE and CoRRE -/

def handleDecodeRRE (rect : Rect) (block : Bytes) : Py σ Unit := do
  let subrects := field block 0 4
  let color := block.drop 4
  rt.call (.fillRectangle rect.x rect.y rect.width rect.height (some color))
  if subrects ≠ 0 then
    expect (.rreSubRectangles rect.x rect.y) ((8 + (← get).pixelFormat.bypp) * subrects)
  else
    doConnection rt

/-- `while pos < end` of `_handleRRESubRectangles`, on what is left of the block. -/
def rreSubRectangles (bypp topx topy : ℕ) : ℕ → Bytes → Py σ Unit
  | 0, _ => pure ()
  | fuel + 1, block => do
      if block.isEmpty then
        return
      let sub := block.take (bypp + 8)
      if sub.length ≠ bypp + 8 then
        throw .structError
      rt.call (.fillRectangle (topx + field sub bypp 2) (topy + field sub (bypp + 2) 2)
        (field sub (bypp + 4) 2) (field sub (bypp + 6) 2) (some (sub.take bypp)))
      rreSubRectangles bypp topx topy fuel (block.drop (bypp + 8))

def handleRRESubRectangles (topx topy : ℕ) (block : Bytes) : Py σ Unit := do
  rreSubRectangles rt (← get).pixelFormat.bypp topx topy block.length block
  doConnection rt

def handleDecodeCORRE (rect : Rect) (block : Bytes) : Py σ Unit := do
  let subrects := field block 0 4
  let color := block.drop 4
  rt.call (.fillRectangle rect.x rect.y rect.width rect.height (some color))
  if subrects ≠ 0 then
    expect (.decodeCORRERectangles rect.x rect.y) ((4 + (← get).pixelFormat.bypp) * subrects)
  else
    doConnection rt

/-- The format string is `"!{self.bypp}sBBBB"` without its `f`: the first `unpack` raises. -/
def handleDecodeCORRERectangles (_topx _topy : ℕ) (_block : Bytes) : Py σ Unit :=
  throw .structError

/-! ## Hextile -/

/-- The tile after `(tx, ty)`, or the first one. -/
def nextTile (rect : Rect) : Option (ℕ × ℕ) → ℕ × ℕ
  | none => (rect.x, rect.y)
  | some (tx, ty) =>
      if rect.x + rect.width ≤ tx + 16 then (rect.x, ty + 16) else (tx + 16, ty)

def doNextHextileSubrect (bg color : Option Bytes) (rect : Rect) (last : Option (ℕ × ℕ)) :
    Py σ Unit :=
  let (tx, ty) := nextTile rect last
  if rect.y + rect.height ≤ ty then
    doConnection rt
  else
    expect (.decodeHextile { bg := bg, color := color, rect := rect, tx := tx, ty := ty }) 1

namespace HextileEncoding

def RAW : UInt8 := 1
def BACKGROUND_SPECIFIED : UInt8 := 2
def FOREGROUND_SPECIFIED : UInt8 := 4
def ANY_SUBRECTS : UInt8 := 8
def SUBRECTS_COLORED : UInt8 := 16

/-- `subencoding & flag`. -/
def has (subencoding flag : UInt8) : Bool :=
  subencoding &&& flag != 0

end HextileEncoding

open HextileEncoding

def handleDecodeHextile (tile : HextileTile) (block : Bytes) : Py σ Unit := do
  let rect := tile.rect
  let bypp := (← get).pixelFormat.bypp
  match block with
  | [] => throw .indexError
  | subencoding :: _ =>
      let tw := if rect.x + rect.width - tile.tx < 16 then rect.x + rect.width - tile.tx else 16
      let th := if rect.y + rect.height - tile.ty < 16 then rect.y + rect.height - tile.ty else 16
      if has subencoding RAW then
        expect (.decodeHextileRAW tile tw th) (tw * th * bypp)
      else
        let numbytes :=
          (if has subencoding BACKGROUND_SPECIFIED then bypp else 0) +
          (if has subencoding FOREGROUND_SPECIFIED then bypp else 0) +
          (if has subencoding ANY_SUBRECTS then 1 else 0)
        if numbytes ≠ 0 then
          expect (.decodeHextileSubrect subencoding tile tw th) numbytes
        else
          rt.call (.fillRectangle tile.tx tile.ty tw th tile.bg)
          doNextHextileSubrect rt tile.bg tile.color rect (some (tile.tx, tile.ty))

def handleDecodeHextileSubrect (subencoding : UInt8) (tile : HextileTile) (tw th : ℕ)
    (block : Bytes) : Py σ Unit := do
  let bypp := (← get).pixelFormat.bypp
  let bgSpecified := has subencoding BACKGROUND_SPECIFIED
  let fgSpecified := has subencoding FOREGROUND_SPECIFIED
  let bg := if bgSpecified then some (block.take bypp) else tile.bg
  let pos := if bgSpecified then bypp else 0
  -- The background may be the one of an earlier tile, or `None`.
  rt.call (.fillRectangle tile.tx tile.ty tw th bg)
  let color := if fgSpecified then some (slice block pos bypp) else tile.color
  let pos := if fgSpecified then pos + bypp else pos
  let subrects ←
    if has subencoding ANY_SUBRECTS then
      match block[pos]? with
      | some count => pure count.toNat
      | none => throw .indexError
    else
      pure 0
  let tile := { tile with bg := bg, color := color }
  if subrects ≠ 0 then
    if has subencoding SUBRECTS_COLORED then
      expect (.decodeHextileSubrectsColoured tile) ((bypp + 2) * subrects)
    else
      expect (.decodeHextileSubrectsFG tile) (2 * subrects)
  else
    doNextHextileSubrect rt bg color tile.rect (some (tile.tx, tile.ty))

def handleDecodeHextileRAW (tile : HextileTile) (tw th : ℕ) (block : Bytes) : Py σ Unit := do
  let c ← get
  rt.call (.updateRectangle tile.tx tile.ty tw th block c.pixelFormat)
  doNextHextileSubrect rt tile.bg tile.color tile.rect (some (tile.tx, tile.ty))

/-- Position and size nibbles of one subrectangle. -/
def fillSubrect (tile : HextileTile) (xy wh : UInt8) (color : Option Bytes) : Py σ Unit :=
  rt.call (.fillRectangle (tile.tx + xy.toNat / 16) (tile.ty + xy.toNat % 16)
    (wh.toNat / 16 + 1) (wh.toNat % 16 + 1) color)

/-- The subrectangles with a colour each; returns the last colour. -/
def subrectsColoured (bypp : ℕ) (tile : HextileTile) :
    ℕ → Bytes → Option Bytes → Py σ (Option Bytes)
  | 0, _, color => pure color
  | fuel + 1, block, color => do
      if block.isEmpty then
        return color
      let color := some (block.take bypp)
      match block.drop bypp with
      | xy :: wh :: rest =>
          fillSubrect rt tile xy wh color
          subrectsColoured bypp tile fuel rest color
      | _ => throw .indexError

def handleDecodeHextileSubrectsColoured (tile : HextileTile) (block : Bytes) : Py σ Unit := do
  let bypp := (← get).pixelFormat.bypp
  let color ← subrectsColoured rt bypp tile block.length block tile.color
  doNextHextileSubrect rt tile.bg color tile.rect (some (tile.tx, tile.ty))

/-- The subrectangles in the foreground colour. -/
def subrectsFG (tile : HextileTile) : Bytes → Py σ Unit
  | [] => pure ()
  | [_] => throw .indexError
  | xy :: wh :: rest => do
      fillSubrect rt tile xy wh tile.color
      subrectsFG tile rest

def handleDecodeHextileSubrectsFG (tile : HextileTile) (block : Bytes) : Py σ Unit := do
  subrectsFG rt tile block
  doNextHextileSubrect rt tile.bg tile.color tile.rect (some (tile.tx, tile.ty))

/-! ## ZRLE -/

section ZRLE

/-- `next(it)`, and what is left of the iterator. -/
def next : Bytes → Except PyError (UInt8 × Bytes)
  | [] => .error .stopIteration
  | b :: it => .ok (b, it)

/-- Three colour bytes and `0xFF`. -/
def cpixel : Bytes → Except PyError (Bytes × Bytes)
  | a :: b :: c :: it => .ok ([a, b, c, 0xFF], it)
  | _ => .error .stopIteration

/-- The sum of the chained length bytes of a run. -/
def runLength : Bytes → Except PyError (ℕ × Bytes)
  | [] => .error .stopIteration
  | b :: it =>
      if b = 255 then do
        let (n, it) ← runLength it
        return (255 + n, it)
      else
        return (b.toNat, it)

/-- `do_rle(pixel)`: the run's pixels, their number and the iterator after them. -/
def doRle (pixel it : Bytes) : Except PyError (Bytes × ℕ × Bytes) := do
  let (n, it) ← runLength it
  return ((List.replicate (n + 1) pixel).flatten, n + 1, it)

def palette : ℕ → Bytes → Except PyError (List Bytes × Bytes)
  | 0, it => return ([], it)
  | n + 1, it => do
      let (color, it) ← cpixel it
      let (colors, it) ← palette n it
      return (color :: colors, it)

def paletteColor (colors : List Bytes) (index : ℕ) : Except PyError Bytes :=
  match colors[index]? with
  | some color => .ok color
  | none => .error .indexError

/-- Plain RLE: `while num_pixels < pixels_in_tile`. -/
def plainRle (pixels : ℤ) : ℕ → ℤ → Bytes → Bytes → Except PyError (ℤ × Bytes × Bytes)
  | fuel, num, data, it =>
      if num < pixels then do
        let (color, it) ← cpixel it
        let (run, n, it) ← doRle color it
        match fuel with
        | 0 => .error .stopIteration
        | fuel + 1 => plainRle pixels fuel (num + n) (data ++ run) it
      else
        return (num, data, it)

/-- Palette RLE: an index with its top bit set starts a run. -/
def paletteRle (colors : List Bytes) (pixels : ℤ) :
    ℕ → ℤ → Bytes → Bytes → Except PyError (ℤ × Bytes × Bytes)
  | fuel, num, data, it =>
      if num < pixels then do
        let (index, it) ← next it
        let color ← paletteColor colors (index.toNat % 128)
        let (run, n, it) ←
          if 128 ≤ index.toNat then doRle color it else pure (color, 1, it)
        match fuel with
        | 0 => .error .stopIteration
        | fuel + 1 => paletteRle colors pixels fuel (num + n) (data ++ run) it
      else
        return (num, data, it)

/-- `for _ in range(pixels_in_tile): pixel_data.extend(cpixel(it))`. -/
def rawPixels : ℕ → Bytes → Except PyError (Bytes × Bytes)
  | 0, it => return ([], it)
  | n + 1, it => do
      let (color, it) ← cpixel it
      let (data, it) ← rawPixels n it
      return (color ++ data, it)

/-- One byte of packed indices from bit `shift` down; `true` when the tile is complete. -/
def packedByte (colors : List Bytes) (bits : ℕ) (pixels : ℤ) (b : UInt8) :
    List ℕ → ℤ → Bytes → Except PyError (ℤ × Bytes × Bool)
  | [], num, data => return (num, data, false)
  | shift :: shifts, num, data => do
      let color ← paletteColor colors (b.toNat / 2 ^ shift % 2 ^ bits)
      if num + 1 = pixels then
        return (num + 1, data ++ color, true)
      else
        packedByte colors bits pixels b shifts (num + 1) (data ++ color)

/-- `_zrle_next_bit`, `_zrle_next_dibit` and `_zrle_next_nibble`, which differ in the bits of an
index: the generator stops only on reaching the tile's pixel count, and running out of bytes inside
it is a `RuntimeError`. -/
def packedPixels (colors : List Bytes) (bits : ℕ) (pixels : ℤ) :
    ℤ → Bytes → Bytes → Except PyError (Bytes × Bytes)
  | _, _, [] => .error .runtimeError
  | num, data, b :: it => do
      let shifts := (List.range (8 / bits)).map fun i => 8 - bits - i * bits
      let (num, data, done) ← packedByte colors bits pixels b shifts num data
      if done then
        return (data, it)
      else
        packedPixels colors bits pixels num data it

/-- What a ZRLE tile paints. -/
inductive ZrleTile
  | pixels (data : Bytes)
  | solid (color : Bytes)
  deriving DecidableEq, Repr

def zrleTile (subencoding : UInt8) (tw th : ℤ) (it : Bytes) :
    Except PyError (ZrleTile × Bytes) := do
  let pixels := tw * th
  -- The top bit says whether there are runs, the others how many colours.
  let paletteSize := subencoding.toNat % 128
  if 128 ≤ subencoding.toNat then
    if paletteSize = 0 then
      let (num, data, it) ← plainRle pixels it.length 0 [] it
      if num ≠ pixels then
        throw .valueError
      return (.pixels data, it)
    else
      let (colors, it) ← palette paletteSize it
      let (num, data, it) ← paletteRle colors pixels it.length 0 [] it
      if num ≠ pixels then
        throw .valueError
      return (.pixels data, it)
  else if paletteSize = 0 then
    let (data, it) ← rawPixels pixels.toNat it
    return (.pixels data, it)
  else if paletteSize = 1 then
    let (color, it) ← cpixel it
    return (.solid color, it)
  -- Unused: 17 to 127.
  else if 16 < paletteSize then
    throw .valueError
  else
    let (colors, it) ← palette paletteSize it
    let bits := if paletteSize = 2 then 1 else if paletteSize ≤ 4 then 2 else 4
    let (data, it) ← packedPixels colors bits pixels 0 [] it
    return (.pixels data, it)

/-- `for subencoding in it`: decode a tile, paint it, move on. -/
def zrleTiles (rect : Rect) : ℕ → ℤ → ℤ → Bytes → Py σ Unit
  | 0, _, _, _ => pure ()
  -- Data that end early end the loop, and nothing is reported.
  | _ + 1, _, _, [] => pure ()
  | fuel + 1, tx, ty, subencoding :: it => do
      let right : ℤ := rect.x + rect.width
      let bottom : ℤ := rect.y + rect.height
      let tw := if right - tx < 64 then right - tx else 64
      let th := if bottom - ty < 64 then bottom - ty else 64
      let (tile, it) ← liftExcept (zrleTile subencoding tw th it)
      match tile with
      | .pixels data =>
          let c ← get
          rt.call (.updateRectangle tx ty tw th data c.pixelFormat)
      | .solid color => rt.call (.fillRectangle tx ty tw th (some color))
      if right ≤ tx + 64 then
        zrleTiles rect fuel rect.x (ty + 64) it
      else
        zrleTiles rect fuel (tx + 64) ty it

end ZRLE

def handleDecodeZRLE (rect : Rect) (block : Bytes) : Py σ Unit :=
  let compressedBytes := field block 0 4
  expect (.decodeZRLEdata rect) compressedBytes

def handleDecodeZRLEdata (rect : Rect) (block : Bytes) : Py σ Unit := do
  let c ← get
  let data ← liftExcept (rt.env.inflate c.zlibStream block)
  modify fun c => { c with zlibStream := c.zlibStream ++ [block] }
  zrleTiles rt rect data.length rect.x rect.y data
  doConnection rt

/-! ## Pseudo-encodings -/

/-- The payload of a cursor: pixels, then a bitmask with each row padded to whole bytes. -/
def cursorLength (bypp width height : ℕ) : ℕ :=
  width * height * bypp + (width + 7) / 8 * height

def handleDecodePseudoCursor (rect : Rect) (block : Bytes) : Py σ Unit := do
  let split := rect.width * rect.height * (← get).pixelFormat.bypp
  rt.call (.updateCursor rect.x rect.y rect.width rect.height (block.take split)
    (block.drop split))
  doConnection rt

def handleDecodeDesktopSize (width height : ℕ) : Py σ Unit := do
  rt.call (.updateDesktopSize width height)
  doConnection rt

/-! ## Rectangle dispatch -/

/-- `rectanglePos.append(rect)`. -/
def appendRectangle (rect : Rect) : Py σ Unit :=
  modify fun c => { c with rectanglePos := c.rectanglePos ++ [rect] }

/-- `del self.rectanglePos[-1]`. -/
def undoAppend : Py σ Unit :=
  modify fun c => { c with rectanglePos := c.rectanglePos.dropLast }

/-- The `if`/`elif` chain over the encoding of a rectangle that has been counted. -/
def dispatchRectangle (rect : Rect) (encoding : ℤ) : Py σ Unit := do
  let bypp := (← get).pixelFormat.bypp
  match Encoding.lookup encoding with
  | some .raw => pump rt .rawDecoder rect
  | some .copyRectangle => pump rt .copyRectDecoder rect
  | some .hextile => doNextHextileSubrect rt none none rect none
  | some .corre => expect (.decodeCORRE rect) (4 + bypp)
  | some .rre => expect (.decodeRRE rect) (4 + bypp)
  | some .zrle => expect (.decodeZRLE rect) 4
  | some .pseudoCursor =>
      expect (.decodePseudoCursor rect) (cursorLength bypp rect.width rect.height)
  | some .pseudoDesktopSize => do
      -- These two carry no pixels, so they do not count as painted.
      undoAppend
      handleDecodeDesktopSize rt rect.width rect.height
  | some .pseudoQemuExtendedKeyEvent => do
      modify fun c =>
        { c with
          negotiatedEncodings := c.negotiatedEncodings.insert .pseudoQemuExtendedKeyEvent }
      undoAppend
      doConnection rt
  | _ => rt.protocolError (.unknownEncoding encoding)

def handleRectangle (block : Bytes) : Py σ Unit := do
  let rect : Rect :=
    { x := field block 0 2, y := field block 2 2, width := field block 4 2,
      height := field block 6 2 }
  let encoding := s32 (field block 8 4)
  -- LastRect ends the update, however many rectangles were announced.
  if encoding = Encoding.value .pseudoLastRect then
    modify fun c => { c with rectangles := 0 }
  if (← get).rectangles ≠ 0 then
    modify fun c => { c with rectangles := c.rectangles - 1 }
    appendRectangle rect
    dispatchRectangle rt rect encoding
  else
    doConnection rt

end RFBClient

end Vncdotool
