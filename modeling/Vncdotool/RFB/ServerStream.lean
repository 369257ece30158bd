import Vncdotool.RFB.Messages

/-!
# ServerStream — the messages a server sends, their bytes and the callbacks they mean

The messages of RFC 6143 §7.6 that carry no private framing, over a framebuffer whose size and pixel
format the handshake has fixed.  Integers are of the width they have on the wire and payloads of the
length their header says, so that every value is a message that can be sent.  `encode` writes it
and `denote` says what it means to an application; neither looks at the client.
-/

namespace Vncdotool

open Wire

/-- What ServerInit announced. -/
structure Framebuffer where
  width : ℕ
  height : ℕ
  format : PixelFormat
  deriving DecidableEq, Repr

abbrev U16 := Fin (256 ^ 2)

instance neZeroU16 : NeZero (256 ^ 2) := ⟨by decide⟩

structure WireRect where
  x : U16
  y : U16
  width : U16
  height : U16
  deriving DecidableEq, Repr

def WireRect.toRect (rect : WireRect) : Rect :=
  { x := rect.x, y := rect.y, width := rect.width, height := rect.height }

/-- The header of a rectangle. -/
def WireRect.header (rect : WireRect) (encoding : Encoding) : Bytes :=
  packBE 2 rect.x ++ packBE 2 rect.y ++ packBE 2 rect.width ++ packBE 2 rect.height ++
    packBE 4 (u32OfInt encoding.value)

/-! ## Rectangles -/

/-- A rectangle of an update, with its payload. -/
inductive ServerRect (fb : Framebuffer)
  | raw (rect : WireRect) (pixels : Bytes)
      (fits : (rect.width : ℕ) ≤ fb.width ∧ (rect.height : ℕ) ≤ fb.height)
      (length : pixels.length = rect.width * rect.height * fb.format.bypp)
  | copyRect (rect : WireRect) (srcx srcy : U16)
  | cursor (rect : WireRect) (image mask : Bytes)
      (image_length : image.length = rect.width * rect.height * fb.format.bypp)
      (mask_length : mask.length = (rect.width + 7) / 8 * rect.height)
  | desktopSize (rect : WireRect)
  | qemuExtendedKeyEvent (rect : WireRect)

namespace ServerRect

variable {fb : Framebuffer}

def encode : ServerRect fb → Bytes
  | raw rect pixels _ _ => rect.header .raw ++ pixels
  | copyRect rect srcx srcy => rect.header .copyRectangle ++ (packBE 2 srcx ++ packBE 2 srcy)
  | cursor rect image mask _ _ => rect.header .pseudoCursor ++ (image ++ mask)
  | desktopSize rect => rect.header .pseudoDesktopSize
  | qemuExtendedKeyEvent rect => rect.header .pseudoQemuExtendedKeyEvent

/-- The callbacks it means. -/
def denote : ServerRect fb → List Callback
  | raw rect pixels _ _ =>
      [.updateRectangle rect.x.val rect.y.val rect.width.val rect.height.val pixels fb.format]
  | copyRect rect srcx srcy =>
      [.copyRectangle srcx.val srcy.val rect.x.val rect.y.val rect.width.val rect.height.val]
  | cursor rect image mask _ _ =>
      [.updateCursor rect.x.val rect.y.val rect.width.val rect.height.val image mask]
  | desktopSize rect => [.updateDesktopSize rect.width.val rect.height.val]
  | qemuExtendedKeyEvent _ => []

/-- The position it contributes to the commit: none, if it is about the desktop or the keyboard. -/
def position : ServerRect fb → List Rect
  | raw rect _ _ _ => [rect.toRect]
  | copyRect rect _ _ => [rect.toRect]
  | cursor rect _ _ _ _ => [rect.toRect]
  | desktopSize _ => []
  | qemuExtendedKeyEvent _ => []

end ServerRect

/-! ## Messages -/

inductive ServerMessage (fb : Framebuffer)
  /-- An update with as many rectangles as it announces. -/
  | framebufferUpdate (rects : List (ServerRect fb)) (count : rects.length < 256 ^ 2)
  /-- An update that announces more rectangles than it has, ended by a LastRect. -/
  | framebufferUpdateLast (rects : List (ServerRect fb)) (announced : U16) (last : WireRect)
      (count : rects.length < announced)
  | setColourMapEntries (first : U16) (colours : List (U16 × U16 × U16))
      (count : colours.length < 256 ^ 2)
  | bell
  | serverCutText (text : Bytes) (length : text.length < 256 ^ 4)

namespace ServerMessage

variable {fb : Framebuffer}

def encodeColour (colour : U16 × U16 × U16) : Bytes :=
  packBE 2 colour.1 ++ packBE 2 colour.2.1 ++ packBE 2 colour.2.2

def encode : ServerMessage fb → Bytes
  | framebufferUpdate rects _ =>
      [0] ++ ([0] ++ packBE 2 rects.length) ++ rects.flatMap ServerRect.encode
  | framebufferUpdateLast rects announced last _ =>
      [0] ++ ([0] ++ packBE 2 announced) ++ rects.flatMap ServerRect.encode ++
        last.header .pseudoLastRect
  | setColourMapEntries first colours _ =>
      [1] ++ ([0] ++ packBE 2 first ++ packBE 2 colours.length) ++ colours.flatMap encodeColour
  | bell => [2]
  | serverCutText text _ => [3] ++ ([0, 0, 0] ++ packBE 4 text.length) ++ text

/-- The callbacks it means: an update's are its rectangles', between a begin and a commit. -/
def denote : ServerMessage fb → List Callback
  | framebufferUpdate rects _ =>
      [.beginUpdate] ++ rects.flatMap ServerRect.denote ++
        [.commitUpdate (rects.flatMap ServerRect.position)]
  | framebufferUpdateLast rects _ _ _ =>
      [.beginUpdate] ++ rects.flatMap ServerRect.denote ++
        [.commitUpdate (rects.flatMap ServerRect.position)]
  | setColourMapEntries first colours _ =>
      [.setColorMap first.val
        (colours.map fun colour => (colour.1.val, colour.2.1.val, colour.2.2.val))]
  | bell => [.bell]
  | serverCutText text _ => [.copyText (RFBClient.latin1 text)]

/-- The rectangles of an update. -/
def update? : ServerMessage fb → Option (List (ServerRect fb))
  | framebufferUpdate rects _ => some rects
  | framebufferUpdateLast rects _ _ _ => some rects
  | _ => none

end ServerMessage

end Vncdotool
