import Vncdotool.Client.RawMode
import Vncdotool.Raster.Picture

/-!
# Pillow — the images the client paints on

Pillow is not part of the repository.  A `Pillow` is what the client calls of it, with the documented
behaviour its code relies on: the sizes of what is made, that a buffer of the right length can be
read, and which bit of a packed mask belongs to which pixel.  `canvas` is an implementation.
-/

namespace Vncdotool

open Wire

structure Pillow where
  Image : Type
  size : Image → ℕ × ℕ
  /-- The bit of a pixel in an image of mode `1`. -/
  bit : Image → ℕ → ℕ → Bool
  /-- `Image.new("RGB", size, "black")`. -/
  new : ℕ × ℕ → Image
  /-- `Image.frombytes("RGB", size, data, "raw", mode)`. -/
  frombytes : RawMode → ℤ × ℤ → Bytes → Except PyError Image
  /-- `Image.frombytes("1", size, data)`. -/
  frombits : ℤ × ℤ → Bytes → Except PyError Image
  /-- `base.paste(over, at, mask)`. -/
  paste : Image → Image → ℤ × ℤ → Option Image → Image
  /-- `image.crop(box)`. -/
  crop : Image → ℤ × ℤ × ℤ × ℤ → Except PyError Image
  /-- `image.save(fp, format)`. -/
  save : Image → String → Option String → Except PyError Unit
  /-- `Image.open(filename)`. -/
  load : String → Except PyError Image
  histogram : Image → List ℕ
  /-- Whether the root mean square of the differences is at most `maxrms`. -/
  rmsWithin : List ℕ → List ℕ → ℚ → Bool
  size_new : ∀ s, size (new s) = s
  size_paste : ∀ base source at_ mask, size (paste base source at_ mask) = size base
  size_frombytes : ∀ mode w h data image, frombytes mode (w, h) data = .ok image →
    (((size image).1 : ℤ), ((size image).2 : ℤ)) = (w, h)
  frombytes_ok : ∀ (mode : RawMode) (w h : ℕ) (data : Bytes), data.length = w * h * mode.width →
    ∃ image, frombytes mode (w, h) data = .ok image
  frombits_ok : ∀ (w h : ℕ) (data : Bytes), data.length = (w + 7) / 8 * h →
    ∃ image, frombits (w, h) data = .ok image ∧ size image = (w, h) ∧
      ∀ i j, i < w → j < h →
        bit image i j = ((data[j * ((w + 7) / 8) + i / 8]?).getD 0).toNat.testBit (7 - i % 8)

namespace Pillow

/-- What is documented of the pixels of its images: a new image is black, the bytes of an image are
its rows, and a paste without a mask replaces the pixels it covers. -/
structure Pixels (P : Pillow) where
  Colour : Type
  black : Colour
  /-- The colour of a pixel's bytes. -/
  decode : RawMode → Bytes → Colour
  getpixel : P.Image → Raster.Picture Colour
  getpixel_new : ∀ (s : ℕ × ℕ) (col row : ℕ), col < s.1 → row < s.2 →
    getpixel (P.new s) col row = black
  getpixel_frombytes : ∀ (mode : RawMode) (w h : ℕ) (data : Bytes) (image : P.Image),
    P.frombytes mode (w, h) data = .ok image → ∀ col < w, ∀ row < h,
      getpixel image col row = decode mode (slice data ((row * w + col) * mode.width) mode.width)
  getpixel_paste : ∀ (base source : P.Image) (x y col row : ℕ),
    col < (P.size base).1 → row < (P.size base).2 →
      getpixel (P.paste base source (x, y) none) col row =
        (getpixel base).paint ⟨x, y, (P.size source).1, (P.size source).2⟩ (getpixel source) col row

/-! ## An implementation -/

/-- A picture of red, green and blue. -/
structure Canvas where
  width : ℕ
  height : ℕ
  pixel : ℕ → ℕ → ℕ × ℕ × ℕ

/-- The high bits of a channel of `n` bits, scaled to a byte. -/
def scale (value n : ℕ) : ℕ :=
  value % 2 ^ n * 255 / (2 ^ n - 1)

/-- The colour of a pixel's bytes in a raw mode. -/
def decode (mode : RawMode) (pixel : Bytes) : ℕ × ℕ × ℕ :=
  let b (i : ℕ) : ℕ := field pixel i 1
  let word : ℕ := b 0 + 256 * b 1
  match mode with
  | .RGBX => (b 0, b 1, b 2)
  | .BGRX => (b 2, b 1, b 0)
  | .XRGB => (b 1, b 2, b 3)
  | .XBGR => (b 3, b 2, b 1)
  | .RGB => (b 0, b 1, b 2)
  | .BGR => (b 2, b 1, b 0)
  | .BGR16 => (scale (word / 2 ^ 11) 5, scale (word / 2 ^ 5) 6, scale word 5)
  | .RGB16 => (scale word 5, scale (word / 2 ^ 5) 6, scale (word / 2 ^ 11) 5)
  | .BGR15 => (scale (word / 2 ^ 10) 5, scale (word / 2 ^ 5) 5, scale word 5)
  | .RGB15 => (scale word 5, scale (word / 2 ^ 5) 5, scale (word / 2 ^ 10) 5)
  | .RGB4B => (scale word 4, scale (word / 2 ^ 4) 4, scale (word / 2 ^ 8) 4)

namespace Canvas

def new (size : ℕ × ℕ) : Canvas :=
  ⟨size.1, size.2, fun _ _ => (0, 0, 0)⟩

def frombytes (mode : RawMode) (size : ℤ × ℤ) (data : Bytes) : Except PyError Canvas :=
  if size.1 < 0 ∨ size.2 < 0 then .error .valueError
  else if data.length < size.1.toNat * size.2.toNat * mode.width then .error .valueError
  else
    .ok ⟨size.1.toNat, size.2.toNat, fun i j =>
      decode mode (slice data ((j * size.1.toNat + i) * mode.width) mode.width)⟩

/-- The packed rows of a mask. -/
def maskBit (width : ℕ) (data : Bytes) (i j : ℕ) : Bool :=
  ((data[j * ((width + 7) / 8) + i / 8]?).getD 0).toNat.testBit (7 - i % 8)

def frombits (size : ℤ × ℤ) (data : Bytes) : Except PyError Canvas :=
  if size.1 < 0 ∨ size.2 < 0 then .error .valueError
  else if data.length < (size.1.toNat + 7) / 8 * size.2.toNat then .error .valueError
  else
    .ok ⟨size.1.toNat, size.2.toNat, fun i j =>
      if maskBit size.1.toNat data i j then (255, 255, 255) else (0, 0, 0)⟩

def bit (image : Canvas) (i j : ℕ) : Bool :=
  (image.pixel i j).1 ≠ 0

def paste (base source : Canvas) (at_ : ℤ × ℤ) (mask : Option Canvas) : Canvas where
  width := base.width
  height := base.height
  pixel i j :=
    let di := ((i : ℤ) - at_.1)
    let dj := ((j : ℤ) - at_.2)
    if (0 ≤ di ∧ di < source.width) ∧ (0 ≤ dj ∧ dj < source.height) ∧
        (mask.map fun m => m.bit di.toNat dj.toNat).getD true then
      source.pixel di.toNat dj.toNat
    else
      base.pixel i j

/-- Without a mask, a paste is painted over a region. -/
theorem pixel_paste (base source : Canvas) (x y col row : ℕ) :
    (paste base source (x, y) none).pixel col row =
      Raster.Picture.paint base.pixel ⟨x, y, source.width, source.height⟩ source.pixel col row := by
  by_cases hcovers : Raster.Region.Covers ⟨x, y, source.width, source.height⟩ col row
  · rw [Raster.Picture.paint_of_covers hcovers]
    rcases hcovers with ⟨⟨hx, hx'⟩, hy, hy'⟩
    dsimp only at hx hx' hy hy'
    have hin : ((0 : ℤ) ≤ (col : ℤ) - x ∧ (col : ℤ) - x < source.width) ∧
        ((0 : ℤ) ≤ (row : ℤ) - y ∧ (row : ℤ) - y < source.height) ∧ true = true :=
      ⟨by omega, by omega, rfl⟩
    refine (if_pos hin).trans ?_
    dsimp only
    rw [← Nat.cast_sub hx, ← Nat.cast_sub hy, Int.toNat_natCast, Int.toNat_natCast]
  · rw [Raster.Picture.paint_of_not_covers hcovers]
    refine if_neg fun hin => hcovers ?_
    rcases hin with ⟨hcol, hrow, _⟩
    dsimp only at hcol hrow
    exact ⟨⟨by dsimp only; omega, by dsimp only; omega⟩, by dsimp only; omega, by dsimp only; omega⟩

/-- What lies outside the picture is black. -/
def crop (image : Canvas) (box : ℤ × ℤ × ℤ × ℤ) : Except PyError Canvas :=
  if box.2.2.1 < box.1 ∨ box.2.2.2 < box.2.1 then .error .valueError
  else
    .ok ⟨(box.2.2.1 - box.1).toNat, (box.2.2.2 - box.2.1).toNat, fun i j =>
      let x := box.1 + i
      let y := box.2.1 + j
      if (0 ≤ x ∧ x < image.width) ∧ 0 ≤ y ∧ y < image.height then
        image.pixel x.toNat y.toNat
      else
        (0, 0, 0)⟩

/-- How many pixels have each value of each channel. -/
def histogram (image : Canvas) : List ℕ :=
  let pixels := (List.range image.height).flatMap fun j =>
    (List.range image.width).map fun i => image.pixel i j
  (List.range 256).map (fun v => (pixels.filter fun p => p.1 = v).length) ++
    (List.range 256).map (fun v => (pixels.filter fun p => p.2.1 = v).length) ++
    (List.range 256).map fun v => (pixels.filter fun p => p.2.2 = v).length

end Canvas

/-- Pictures as functions; there is no file to load and every one can be saved. -/
def canvas : Pillow where
  Image := Canvas
  size image := (image.width, image.height)
  bit := Canvas.bit
  new := Canvas.new
  frombytes := Canvas.frombytes
  frombits := Canvas.frombits
  paste := Canvas.paste
  crop := Canvas.crop
  save _ _ _ := .ok ()
  load _ := .error .valueError
  histogram := Canvas.histogram
  rmsWithin hist expected maxrms :=
    let squares := List.zipWith (fun (h e : ℕ) => ((h : ℚ) - e) ^ 2) hist expected
    0 ≤ maxrms && squares.sum / hist.length ≤ maxrms ^ 2
  size_new _ := rfl
  size_paste _ _ _ _ := rfl
  size_frombytes mode w h data image heq := by
    unfold Canvas.frombytes at heq
    split_ifs at heq with hneg hshort
    cases heq
    rcases not_or.1 hneg with ⟨hw, hh⟩
    rw [Prod.mk.injEq]
    exact ⟨Int.toNat_of_nonneg (Int.not_lt.1 hw), Int.toNat_of_nonneg (Int.not_lt.1 hh)⟩
  frombytes_ok mode w h data hlen := by
    have hneg : ¬ ((w : ℤ) < 0 ∨ (h : ℤ) < 0) := by omega
    have hshort : ¬ data.length < (w : ℤ).toNat * (h : ℤ).toNat * mode.width := by
      rw [Int.toNat_natCast, Int.toNat_natCast, hlen]
      exact lt_irrefl _
    unfold Canvas.frombytes
    rw [if_neg hneg, if_neg hshort]
    exact ⟨_, rfl⟩
  frombits_ok w h data hlen := by
    have hneg : ¬ ((w : ℤ) < 0 ∨ (h : ℤ) < 0) := by omega
    have hshort : ¬ data.length < ((w : ℤ).toNat + 7) / 8 * (h : ℤ).toNat := by
      rw [Int.toNat_natCast, Int.toNat_natCast, hlen]
      exact lt_irrefl _
    unfold Canvas.frombits
    rw [if_neg hneg, if_neg hshort]
    refine ⟨_, rfl, rfl, fun i j _ _ => ?_⟩
    have hmask : Canvas.maskBit w data i j =
        ((data[j * ((w + 7) / 8) + i / 8]?).getD 0).toNat.testBit (7 - i % 8) := rfl
    rw [← hmask]
    simp only [Canvas.bit, Int.toNat_natCast]
    by_cases hbit : Canvas.maskBit w data i j = true
    · simp [hbit]
    · simp [hbit]

def canvasPixels : Pixels canvas where
  Colour := ℕ × ℕ × ℕ
  black := (0, 0, 0)
  decode := decode
  getpixel := Canvas.pixel
  getpixel_new _ _ _ _ _ := rfl
  getpixel_frombytes mode w h data image heq col hcol row hrow := by
    change Canvas.frombytes mode (w, h) data = _ at heq
    unfold Canvas.frombytes at heq
    split_ifs at heq with hneg hshort
    cases heq
    rfl
  getpixel_paste base source x y col row _ _ := Canvas.pixel_paste base source x y col row

end Pillow

end Vncdotool
