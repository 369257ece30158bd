import Vncdotool.RFB.Client

/-!
# ClientMessages — the client to server messages of `RFBClient`

Each method packs its message and writes it to the transport.  `struct.pack` raises on a number
that its field has no room for, and nothing is written then; only `setEncodings`, which writes one
encoding after the other, may have written a part.
-/

namespace Vncdotool

open Wire

namespace RFBClient

variable {σ : Type}

/-- `struct.pack` of an unsigned field of `n` bytes. -/
def Packs (n : ℕ) (value : ℤ) : Prop :=
  0 ≤ value ∧ value.toNat < 256 ^ n

instance (n : ℕ) (value : ℤ) : Decidable (Packs n value) :=
  inferInstanceAs (Decidable (_ ∧ _))

/-- `to_bytes` finds room for every field. -/
def Packable (pf : PixelFormat) : Prop :=
  (pf.bpp < 256 ∧ pf.depth < 256) ∧
    (pf.redmax < 256 ^ 2 ∧ pf.greenmax < 256 ^ 2 ∧ pf.bluemax < 256 ^ 2) ∧
    pf.redshift < 256 ∧ pf.greenshift < 256 ∧ pf.blueshift < 256

instance (pf : PixelFormat) : Decidable (Packable pf) :=
  inferInstanceAs (Decidable (_ ∧ _))

/-- `struct.pack` of a signed field of four bytes. -/
def PacksSigned (value : ℤ) : Prop :=
  -0x80000000 ≤ value ∧ value < 0x80000000

instance (value : ℤ) : Decidable (PacksSigned value) :=
  inferInstanceAs (Decidable (_ ∧ _))

/-- `setPixelFormat(pixel_format)`. -/
def setPixelFormat (pf : PixelFormat) : Py σ Unit := do
  if Packable pf then
    write (packBE 1 (MsgC2S.value .setPixelFormat) ++ [0, 0, 0] ++ pf.toBytes)
    modify fun c => { c with pixelFormat := pf }
  else
    throw .structError

/-- `setEncodings(list_of_encodings)`. -/
def setEncodings (encodings : List ℤ) : Py σ Unit := do
  if Packs 2 encodings.length then
    write (packBE 1 (MsgC2S.value .setEncoding) ++ [0] ++ packBE 2 encodings.length)
    encodings.forM fun encoding =>
      if PacksSigned encoding then write (packBE 4 (u32OfInt encoding)) else throw .structError
  else
    throw .structError

/-- `framebufferUpdateRequest(x, y, width, height, incremental)`. -/
def framebufferUpdateRequest (x y : ℤ) (width height : Option ℤ) (incremental : Bool) :
    Py σ Unit := do
  let c ← get
  let width := width.getD (c.width - x)
  let height := height.getD (c.height - y)
  if Packs 2 x ∧ Packs 2 y ∧ Packs 2 width ∧ Packs 2 height then
    write (packBE 1 (MsgC2S.value .framebufferUpdateRequest) ++ packBE 1 incremental.toNat ++
      packBE 2 x.toNat ++ packBE 2 y.toNat ++ packBE 2 width.toNat ++ packBE 2 height.toNat)
  else
    throw .structError

/-- The message of a request for the whole of a framebuffer. -/
def wholeRequest (width height : ℕ) (incremental : Bool) : Bytes :=
  packBE 1 (MsgC2S.value .framebufferUpdateRequest) ++ packBE 1 incremental.toNat ++
    packBE 2 0 ++ packBE 2 0 ++ packBE 2 width ++ packBE 2 height

/-- `keyEvent(key, down)`. -/
def keyEvent (key : ℤ) (down : Bool) : Py σ Unit :=
  if Packs 4 key then
    write (packBE 1 (MsgC2S.value .keyEvent) ++ packBE 1 down.toNat ++ [0, 0] ++
      packBE 4 key.toNat)
  else
    throw .structError

/-- `pointerEvent(x, y, buttonmask)`. -/
def pointerEvent (x y buttonmask : ℤ) : Py σ Unit :=
  if Packs 1 buttonmask ∧ Packs 2 x ∧ Packs 2 y then
    write (packBE 1 (MsgC2S.value .pointerEvent) ++ packBE 1 buttonmask.toNat ++
      packBE 2 x.toNat ++ packBE 2 y.toNat)
  else
    throw .structError

/-- `message.encode("iso-8859-1")`. -/
def encodeLatin1 (message : String) : Except PyError Bytes :=
  if message.toList.all fun c => c.toNat < 256 then
    .ok (message.toList.map fun c => UInt8.ofNat c.toNat)
  else
    .error .unicodeError

/-- `clientCutText(message)`. -/
def clientCutText (message : String) : Py σ Unit := do
  let data ← liftExcept (encodeLatin1 message)
  if Packs 4 data.length then
    write (packBE 1 (MsgC2S.value .clientCutText) ++ [0, 0, 0] ++ packBE 4 data.length ++ data)
  else
    throw .structError

end RFBClient

end Vncdotool
