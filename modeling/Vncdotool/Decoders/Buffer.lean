import Vncdotool.Wire.Bytes

/-!
# Buffer — Python exceptions and `decoders/buffer.py`

`RectBuffer` collects one rectangle's pixels over a backing array that is reused from rectangle to
rectangle.  A blit that covers the whole rectangle is held by reference and never touches the
backing; anything narrower is written into it.
-/

namespace Vncdotool

open Wire

/-- The exception classes the modelled code raises or catches. -/
inductive PyError
  | structError
  | valueError
  | typeError
  | indexError
  | overflowError
  | unicodeError
  | stopIteration
  | runtimeError
  | memoryError
  | zlibError
  | decodeError
  | protocolError
  | unsupportedPixelFormat
  | alreadyCalled
  | attributeError
  | assertionError
  deriving DecidableEq, Repr

structure RectBuffer where
  width : ℕ
  height : ℕ
  bypp : ℕ
  backing : Bytes
  nbytes : ℕ
  whole : Option Bytes := none
  covered : Bool := false
  deriving DecidableEq, Repr

/-- A method call on a buffer.  An exception leaves the buffer as it was written up to the raise. -/
abbrev Drawing := EStateM PyError RectBuffer

namespace RectBuffer

/-- `RectBuffer(width, height, bypp, backing)`. -/
def make (width height bypp : ℕ) (backing : Bytes) : Except PyError RectBuffer :=
  let needed := width * height * bypp
  if backing.length < needed then
    .error .valueError
  else
    .ok { width := width, height := height, bypp := bypp, backing := backing, nbytes := needed }

/-- `buf[off : off + data.length] = data` on a bytearray. -/
def write (buf : Bytes) (off : ℕ) (data : Bytes) : Bytes :=
  buf.take off ++ data ++ buf.drop (off + data.length)

def checkRect (x y w h : ℤ) : Drawing Unit := do
  let buffer ← get
  if x < 0 ∨ y < 0 ∨ w < 0 ∨ h < 0 then
    throw .decodeError
  if x + w > buffer.width ∨ y + h > buffer.height then
    throw .decodeError

/-- Write a held whole-rectangle blit into the backing. -/
def materialize (buffer : RectBuffer) : RectBuffer :=
  match buffer.whole with
  | none => buffer
  | some whole =>
      { buffer with
        backing := whole ++ buffer.backing.drop buffer.nbytes
        whole := none }

def clear (buffer : RectBuffer) : RectBuffer :=
  if buffer.covered then buffer
  else
    { buffer with
      backing := List.replicate buffer.nbytes 0 ++ buffer.backing.drop buffer.nbytes
      covered := true }

/-- `buf[off : off + data.length] = data` on the backing. -/
def writeBacking (off : ℕ) (data : Bytes) (buffer : RectBuffer) : RectBuffer :=
  { buffer with backing := write buffer.backing off data }

/-- `for row in range(h)` of `blit`, from row `row` on. -/
def blitRows (stride xOff rowBytes y : ℕ) (pixels : Bytes) : ℕ → ℕ → Bytes → Bytes
  | 0, _, buf => buf
  | rows + 1, row, buf =>
      blitRows stride xOff rowBytes y pixels rows (row + 1)
        (write buf ((y + row) * stride + xOff) (slice pixels (row * rowBytes) rowBytes))

def blit (x y w h : ℤ) (pixels : Bytes) : Drawing Unit := do
  checkRect x y w h
  let buffer ← get
  let expected := w.toNat * h.toNat * buffer.bypp
  if pixels.length ≠ expected then
    throw .decodeError
  if x = 0 ∧ y = 0 ∧ w = buffer.width ∧ h = buffer.height then
    modify fun buffer => { buffer with whole := some pixels, covered := true }
  else
    modify materialize
    modify clear
    let stride := buffer.width * buffer.bypp
    let rowBytes := w.toNat * buffer.bypp
    if x = 0 ∧ w = buffer.width then
      -- Contiguous rows: one slice assignment.
      modify (writeBacking (y.toNat * stride) pixels)
    else
      let xOff := x.toNat * buffer.bypp
      modify fun buffer => { buffer with
        backing := blitRows stride xOff rowBytes y.toNat pixels h.toNat 0 buffer.backing }

/-- `for r in range(h)` of `fill`, from row `r` on. -/
def fillRows (stride xOff y : ℕ) (row : Bytes) : ℕ → ℕ → Bytes → Bytes
  | 0, _, buf => buf
  | rows + 1, r, buf =>
      fillRows stride xOff y row rows (r + 1) (write buf ((y + r) * stride + xOff) row)

/-- `data * n`. -/
def repeated (data : Bytes) (n : ℕ) : Bytes :=
  (List.replicate n data).flatten

def fill (x y w h : ℤ) (color : Bytes) : Drawing Unit := do
  checkRect x y w h
  let buffer ← get
  if color.length ≠ buffer.bypp then
    throw .decodeError
  modify materialize
  -- What an earlier rectangle has left in the backing must not show around it.
  if ¬ (x = 0 ∧ y = 0 ∧ w = buffer.width ∧ h = buffer.height) then
    modify clear
  modify fun buffer => { buffer with covered := true }
  let stride := buffer.width * buffer.bypp
  let row := repeated color w.toNat
  if x = 0 ∧ w = buffer.width then
    modify (writeBacking (y.toNat * stride) (repeated row h.toNat))
  else
    let xOff := x.toNat * buffer.bypp
    modify fun buffer => { buffer with
      backing := fillRows stride xOff y.toNat row h.toNat 0 buffer.backing }

def tobytes (buffer : RectBuffer) : Bytes :=
  match buffer.whole with
  | some whole => whole
  | none => buffer.backing.take buffer.nbytes

/-- The buffer after a method call that returns. -/
def after (buffer : RectBuffer) (method : Drawing Unit) : Except PyError RectBuffer :=
  match method buffer with
  | .ok _ buffer => .ok buffer
  | .error e _ => .error e

/-- Raw's one blit of the whole rectangle is held as it came, whatever the backing holds. -/
theorem blit_whole (buffer : RectBuffer) {pixels : Bytes}
    (h : pixels.length = buffer.width * buffer.height * buffer.bypp) :
    buffer.after (blit 0 0 buffer.width buffer.height pixels) =
      .ok { buffer with whole := some pixels, covered := true } := by
  have hneg : ¬ ((buffer.width : ℤ) < 0 ∨ (buffer.height : ℤ) < 0) := by omega
  have hrun : (blit 0 0 buffer.width buffer.height pixels).run buffer =
      .ok () { buffer with whole := some pixels, covered := true } := by
    simp [blit, checkRect, h, hneg]
  unfold EStateM.run at hrun
  unfold after
  rw [hrun]

/-- Anything but the bytes of the whole rectangle is refused. -/
theorem blit_short (buffer : RectBuffer) {pixels : Bytes}
    (h : pixels.length ≠ buffer.width * buffer.height * buffer.bypp) :
    buffer.after (blit 0 0 buffer.width buffer.height pixels) = .error .decodeError := by
  have hneg : ¬ ((buffer.width : ℤ) < 0 ∨ (buffer.height : ℤ) < 0) := by omega
  have hrun : (blit 0 0 buffer.width buffer.height pixels).run buffer =
      .error .decodeError buffer := by
    simp [blit, checkRect, h, hneg]
  unfold EStateM.run at hrun
  unfold after
  rw [hrun]

end RectBuffer

end Vncdotool
