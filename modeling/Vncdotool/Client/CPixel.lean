import Vncdotool.Client.PixelValue

/-!
# CPixel — the three bytes of a pixel that ZRLE sends

A pixel of four bytes whose colour fits in three of them is sent as these.  Whether it fits is decided
on the bits of the value, from below or from above; where the three bytes are in the pixel depends on
the byte order too.
-/

namespace Vncdotool

open Wire

namespace PixelFormat

/-! ## `_cpixel_placement`, `cpixel_bytes` and `cpixel_offset` -/

/-- `"low"` or `"high"`. -/
inductive CPixelPlacement
  | low
  | high
  deriving DecidableEq, Repr

/-- `zip(shifts, widths)`. -/
def channelPlaces (pf : PixelFormat) : List (ℕ × ℕ) :=
  [(pf.redshift, pf.channelWidths.1), (pf.greenshift, pf.channelWidths.2.1),
    (pf.blueshift, pf.channelWidths.2.2)]

/-- `all(shift + width <= 24 for shift, width in zip(shifts, widths))`. -/
def fitsLow (pf : PixelFormat) : Bool :=
  pf.channelPlaces.all fun place => place.1 + place.2 ≤ 24

/-- `all(shift >= 8 for shift in shifts)`. -/
def fitsHigh (pf : PixelFormat) : Bool :=
  pf.channelPlaces.all fun place => 8 ≤ place.1

/-- `_cpixel_placement`. -/
def cpixelPlacement (pf : PixelFormat) : Option CPixelPlacement :=
  if pf.fitsLow then some .low else if pf.fitsHigh then some .high else none

/-- `cpixel_bytes`. -/
def cpixelBytes (pf : PixelFormat) : ℕ :=
  if pf.truecolor ∧ pf.bpp = 32 ∧ pf.depth ≤ 24 ∧ pf.cpixelPlacement.isSome then 3 else pf.bypp

/-- `cpixel_offset`. -/
def cpixelOffset (pf : PixelFormat) : ℕ :=
  if pf.cpixelBytes ≠ 3 then 0
  else
    let low : Bool := pf.cpixelPlacement = some .low
    if low ≠ pf.bigendian then 0 else pf.bypp - 3

example : rgbx8888.cpixelBytes = 3 ∧ rgbx8888.cpixelOffset = 0 ∧
    { rgbx8888 with bigendian := true }.cpixelOffset = 1 := by
  decide +kernel

/-! ## Where the colours are -/

/-- The channels lie within the pixel. -/
def ChannelsFit (pf : PixelFormat) : Prop :=
  ∀ place ∈ pf.channelPlaces, place.1 + place.2 ≤ pf.bpp

/-- No two channels have a bit in common. -/
def ChannelsApart (pf : PixelFormat) : Prop :=
  Apart pf.redshift pf.channelWidths.1 pf.greenshift pf.channelWidths.2.1 ∧
    Apart pf.redshift pf.channelWidths.1 pf.blueshift pf.channelWidths.2.2 ∧
      Apart pf.greenshift pf.channelWidths.2.1 pf.blueshift pf.channelWidths.2.2

/-- A colour of the format. -/
structure Colour (pf : PixelFormat) where
  red : ℕ
  green : ℕ
  blue : ℕ
  red_le : red ≤ pf.redmax
  green_le : green ≤ pf.greenmax
  blue_le : blue ≤ pf.bluemax

/-- The pixel of a colour. -/
def Colour.pixel {pf : PixelFormat} (colour : pf.Colour) : ℕ :=
  pf.value colour.red colour.green colour.blue

section Colours

variable {pf : PixelFormat} (colour : pf.Colour)

theorem Colour.lt : colour.red < 2 ^ pf.channelWidths.1 ∧ colour.green < 2 ^ pf.channelWidths.2.1 ∧
    colour.blue < 2 ^ pf.channelWidths.2.2 :=
  ⟨lt_of_bitLength rfl colour.red_le, lt_of_bitLength rfl colour.green_le,
    lt_of_bitLength rfl colour.blue_le⟩

theorem Colour.pixel_lt {n : ℕ} (h : ∀ place ∈ pf.channelPlaces, place.1 + place.2 ≤ n) :
    colour.pixel < 2 ^ n := by
  have hchannel {k w s : ℕ} (hk : k < 2 ^ w) (hs : (s, w) ∈ pf.channelPlaces) : k <<< s < 2 ^ n := by
    rw [Nat.shiftLeft_eq]
    calc
      k * 2 ^ s < 2 ^ w * 2 ^ s := (Nat.mul_lt_mul_right (Nat.two_pow_pos s)).2 hk
      _ = 2 ^ (s + w) := by rw [← Nat.pow_add, Nat.add_comm]
      _ ≤ 2 ^ n := Nat.pow_le_pow_right (by decide) (h _ hs)
  rcases colour.lt with ⟨hred, hgreen, hblue⟩
  refine Nat.or_lt_two_pow (Nat.or_lt_two_pow ?_ ?_) ?_
  · exact hchannel hred (by simp [channelPlaces])
  · exact hchannel hgreen (by simp [channelPlaces])
  · exact hchannel hblue (by simp [channelPlaces])

/-- Below the channels there is nothing. -/
theorem Colour.bits_pixel_low {n : ℕ} (h : ∀ place ∈ pf.channelPlaces, n ≤ place.1) :
    bits colour.pixel 0 n = 0 := by
  have hchannel {k w s : ℕ} (hk : k < 2 ^ w) (hs : (s, w) ∈ pf.channelPlaces) :
      bits (k <<< s) 0 n = 0 :=
    bits_shiftLeft_apart hk (.inr ((Nat.zero_add n).trans_le (h _ hs)))
  rcases colour.lt with ⟨hred, hgreen, hblue⟩
  unfold pixel value
  rw [bits_or, bits_or, hchannel hred (by simp [channelPlaces]),
    hchannel hgreen (by simp [channelPlaces]), hchannel hblue (by simp [channelPlaces])]
  rfl

end Colours

/-! ## The window -/

/-- The bytes of a pixel that are sent. -/
def window (pf : PixelFormat) (v : ℕ) : Bytes :=
  slice (pf.pack v) pf.cpixelOffset 3

/-- The low three bytes of a value, in the byte order of the format. -/
def lowBytes (pf : PixelFormat) (v : ℕ) : Bytes :=
  if pf.bigendian then packBE 3 v else (packBE 3 v).reverse

/-- A pixel of the format tells its value. -/
theorem pack_injective (pf : PixelFormat) {v v' : ℕ} (hv : v < 2 ^ pf.bpp) (hv' : v' < 2 ^ pf.bpp)
    (h : pf.pack v = pf.pack v') : v = v' := by
  have hbytes : 2 ^ pf.bpp ≤ 256 ^ pf.bypp := by
    rw [show (256 : ℕ) = 2 ^ 8 from rfl, ← Nat.pow_mul]
    refine Nat.pow_le_pow_right (by decide) ?_
    unfold bypp
    omega
  have hpacked : packBE pf.bypp v = packBE pf.bypp v' := by
    unfold pack at h
    split_ifs at h
    · exact h
    · exact List.reverse_injective h
  calc
    v = unpackBE (packBE pf.bypp v) := (unpackBE_packBE_of_lt (hv.trans_le hbytes)).symm
    _ = unpackBE (packBE pf.bypp v') := by rw [hpacked]
    _ = v' := unpackBE_packBE_of_lt (hv'.trans_le hbytes)

/-- Where three bytes of a pixel of four are sent, its colours are placed low or high. -/
theorem cpixel_cases {pf : PixelFormat} (hbpp : pf.bpp = 32) (h : pf.cpixelBytes = 3) :
    pf.bypp = 4 ∧
      (pf.cpixelPlacement = some .low ∧ pf.fitsLow ∧
          pf.cpixelOffset = (if pf.bigendian then 1 else 0) ∨
        pf.cpixelPlacement = some .high ∧ ¬ pf.fitsLow ∧ pf.fitsHigh ∧
          pf.cpixelOffset = (if pf.bigendian then 0 else 1)) := by
  have hbypp : pf.bypp = 4 := by
    rw [bypp, hbpp]
  have heligible : pf.cpixelPlacement.isSome := by
    unfold cpixelBytes at h
    split_ifs at h with hcond
    · exact hcond.2.2.2
    · omega
  refine ⟨hbypp, ?_⟩
  unfold cpixelOffset
  rw [if_neg (not_not.2 h), hbypp]
  unfold cpixelPlacement at heligible ⊢
  cases hlow : pf.fitsLow with
  | true =>
      left
      cases pf.bigendian <;> simp
  | false =>
      cases hhigh : pf.fitsHigh with
      | true =>
          right
          cases pf.bigendian <;> simp
      | false =>
          rw [hlow, hhigh] at heligible
          cases heligible

theorem fitsLow_iff (pf : PixelFormat) :
    pf.fitsLow ↔ ∀ place ∈ pf.channelPlaces, place.1 + place.2 ≤ 24 := by
  simp [fitsLow]

theorem fitsHigh_iff (pf : PixelFormat) :
    pf.fitsHigh ↔ ∀ place ∈ pf.channelPlaces, 8 ≤ place.1 := by
  simp [fitsHigh]

/-- Outside the window a colour has no bits. -/
theorem getElem?_pack_outside {pf : PixelFormat} (hbpp : pf.bpp = 32) (h : pf.cpixelBytes = 3)
    (colour : pf.Colour) {i : ℕ} (hi : i < 4) (hout : i < pf.cpixelOffset ∨ pf.cpixelOffset + 3 ≤ i) :
    (pf.pack colour.pixel)[i]? = some 0 := by
  rcases cpixel_cases hbpp h with ⟨hbypp, hplaced⟩
  have hzero : bits colour.pixel (pf.byteShift i) 8 = 0 := by
    rcases hplaced with ⟨_, hlow, hoffset⟩ | ⟨_, _, hhigh, hoffset⟩
    · have hshift : pf.byteShift i = 24 := by
        unfold byteShift
        rw [hoffset] at hout
        split_ifs at hout ⊢ <;> omega
      rw [hshift]
      exact bits_eq_zero_of_lt (colour.pixel_lt ((fitsLow_iff pf).1 hlow)) 8
    · have hshift : pf.byteShift i = 0 := by
        unfold byteShift
        rw [hoffset] at hout
        split_ifs at hout ⊢ <;> omega
      rw [hshift]
      exact colour.bits_pixel_low ((fitsHigh_iff pf).1 hhigh)
  rw [getElem?_pack pf _ (hbypp ▸ hi), hzero]
  rfl

theorem getElem?_window {pf : PixelFormat} (v : ℕ) {i : ℕ} (hi : i < 3) :
    (pf.window v)[i]? = (pf.pack v)[pf.cpixelOffset + i]? := by
  rw [window, slice, List.getElem?_take_of_lt hi, List.getElem?_drop]

/-- Pixels that agree in the window are the same. -/
theorem pack_eq_of_window {pf : PixelFormat} (hbpp : pf.bpp = 32) (h : pf.cpixelBytes = 3)
    {colour colour' : pf.Colour} (hwindow : pf.window colour.pixel = pf.window colour'.pixel) :
    pf.pack colour.pixel = pf.pack colour'.pixel := by
  have hbypp := (cpixel_cases hbpp h).1
  refine List.ext_getElem? fun i => ?_
  by_cases hi : i < 4
  · by_cases hout : i < pf.cpixelOffset ∨ pf.cpixelOffset + 3 ≤ i
    · rw [getElem?_pack_outside hbpp h colour hi hout, getElem?_pack_outside hbpp h colour' hi hout]
    · have hplace : pf.cpixelOffset + (i - pf.cpixelOffset) = i := by omega
      have hbyte := congrArg (fun bytes : Bytes => bytes[i - pf.cpixelOffset]?) hwindow
      rw [getElem?_window _ (by omega), getElem?_window _ (by omega), hplace] at hbyte
      exact hbyte
  · have hlong (v : ℕ) : (pf.pack v)[i]? = none :=
      List.getElem?_eq_none (by rw [length_pack, hbypp]; exact Nat.not_lt.1 hi)
    rw [hlong, hlong]

/-- Where the colours fit from below, the low three bytes are sent. -/
theorem window_eq_lowBytes {pf : PixelFormat} (hbpp : pf.bpp = 32) (h : pf.cpixelBytes = 3)
    (hlow : pf.fitsLow) (v : ℕ) : pf.window v = pf.lowBytes v := by
  rcases cpixel_cases hbpp h with ⟨hbypp, hplaced⟩
  have hoffset : pf.cpixelOffset = if pf.bigendian then 1 else 0 := by
    rcases hplaced with ⟨_, _, hoffset⟩ | ⟨_, hnot, _⟩
    · exact hoffset
    · exact absurd hlow hnot
  refine List.ext_getElem? fun i => ?_
  by_cases hi : i < 3
  · have hshift : pf.byteShift (pf.cpixelOffset + i) = 8 * if pf.bigendian then 2 - i else i := by
      unfold byteShift
      rw [hoffset]
      split_ifs <;> omega
    have hinside : pf.cpixelOffset + i < pf.bypp := by
      rw [hoffset]
      split_ifs <;> omega
    rw [getElem?_window v hi, getElem?_pack pf v hinside, hshift]
    unfold lowBytes
    split_ifs
    · exact (getElem?_packBE hi v).symm
    · rw [List.getElem?_reverse (by rw [length_packBE]; exact hi), length_packBE,
        getElem?_packBE (by omega)]
      congr 5
      omega
  · have hwindow : (pf.window v)[i]? = none := List.getElem?_eq_none (by
      have htake := List.length_take_le 3 ((pf.pack v).drop pf.cpixelOffset)
      exact htake.trans (Nat.not_lt.1 hi))
    have hbytes : (pf.lowBytes v).length = 3 := by
      unfold lowBytes
      split_ifs
      · exact length_packBE _ _
      · rw [List.length_reverse, length_packBE]
    rw [hwindow, List.getElem?_eq_none (by rw [hbytes]; exact Nat.not_lt.1 hi)]

/-- In every other case the whole pixel is sent. -/
theorem cpixel_whole {pf : PixelFormat} (h : ¬ (pf.bpp = 32 ∧ pf.cpixelBytes = 3)) :
    pf.cpixelBytes = pf.bypp ∧ pf.cpixelOffset = 0 := by
  have hbytes : pf.cpixelBytes = pf.bypp := by
    unfold cpixelBytes at h ⊢
    split_ifs at h ⊢ with hcond
    · exact absurd ⟨hcond.2.1, rfl⟩ h
    · rfl
  refine ⟨hbytes, ?_⟩
  unfold cpixelOffset
  dsimp only
  split_ifs with hthree
  · rfl
  · rfl
  · rw [← hbytes, not_not.1 hthree]

/-- The three bytes of a pixel that are sent carry its colour. -/
theorem window_carries_colour (pf : PixelFormat) (hfit : pf.ChannelsFit) :
    (pf.bpp = 32 → pf.cpixelBytes = 3 →
      (∀ colour : pf.Colour, ∀ i < 4, i < pf.cpixelOffset ∨ pf.cpixelOffset + 3 ≤ i →
        (pf.pack colour.pixel)[i]? = some 0) ∧
      (∀ colour colour' : pf.Colour, pf.window colour.pixel = pf.window colour'.pixel →
        pf.pack colour.pixel = pf.pack colour'.pixel ∧ colour.pixel = colour'.pixel ∧
          (pf.ChannelsApart → colour = colour')) ∧
      (pf.fitsLow → pf.fitsHigh → ∀ v, pf.window v = pf.lowBytes v)) ∧
    (¬ (pf.bpp = 32 ∧ pf.cpixelBytes = 3) →
      pf.cpixelBytes = pf.bypp ∧ pf.cpixelOffset = 0) := by
  refine ⟨fun hbpp h => ⟨fun colour i hi hout => getElem?_pack_outside hbpp h colour hi hout,
    fun colour colour' hwindow => ?_, fun hlow _ v => window_eq_lowBytes hbpp h hlow v⟩,
    cpixel_whole⟩
  have hpack := pack_eq_of_window hbpp h hwindow
  have hpixel := pack_injective pf (colour.pixel_lt hfit) (colour'.pixel_lt hfit) hpack
  refine ⟨hpack, hpixel, fun hapart => ?_⟩
  rcases colour.lt with ⟨hr, hg, hb⟩
  rcases colour'.lt with ⟨hr', hg', hb'⟩
  rcases bits_value hapart.1 hapart.2.1 hapart.2.2 hr hg hb with ⟨hred, hgreen, hblue⟩
  rcases bits_value hapart.1 hapart.2.1 hapart.2.2 hr' hg' hb' with ⟨hred', hgreen', hblue'⟩
  change pf.value colour.red colour.green colour.blue =
    pf.value colour'.red colour'.green colour'.blue at hpixel
  rw [hpixel] at hred hgreen hblue
  have h1 := hred.symm.trans hred'
  have h2 := hgreen.symm.trans hgreen'
  have h3 := hblue.symm.trans hblue'
  cases colour
  cases colour'
  dsimp only at h1 h2 h3
  subst h1 h2 h3
  rfl

theorem window_carries_colour_rgbx8888 :
    (∀ colour : rgbx8888.Colour, ∀ i < 4,
      i < rgbx8888.cpixelOffset ∨ rgbx8888.cpixelOffset + 3 ≤ i →
        (rgbx8888.pack colour.pixel)[i]? = some 0) ∧
    (∀ colour colour' : rgbx8888.Colour,
      rgbx8888.window colour.pixel = rgbx8888.window colour'.pixel →
        rgbx8888.pack colour.pixel = rgbx8888.pack colour'.pixel ∧ colour.pixel = colour'.pixel ∧
          (rgbx8888.ChannelsApart → colour = colour')) ∧
    (rgbx8888.fitsLow → rgbx8888.fitsHigh → ∀ v, rgbx8888.window v = rgbx8888.lowBytes v) :=
  have hfit : rgbx8888.ChannelsFit := by
    unfold ChannelsFit
    decide +kernel
  (window_carries_colour rgbx8888 hfit).1 rfl (by decide +kernel)

end PixelFormat

end Vncdotool
