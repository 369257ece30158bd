import Vncdotool.Decoders.Buffer
import Vncdotool.RFB.PixelFormat

/-!
# RawMode — `pixelformat.raw_mode`, from a pixel format to a Pillow mode

The mode that reads a pixel's bytes in the layout of a `PixelFormat`, where Pillow has one.
-/

namespace Vncdotool

/-- The raw modes of Pillow that `raw_mode` answers with. -/
inductive RawMode
  | RGBX
  | BGRX
  | XRGB
  | XBGR
  | RGB
  | BGR
  /-- `BGR;16` -/
  | BGR16
  /-- `RGB;16` -/
  | RGB16
  /-- `BGR;15` -/
  | BGR15
  /-- `RGB;15` -/
  | RGB15
  /-- `RGB;4B` -/
  | RGB4B
  deriving DecidableEq, Repr

/-- The bytes of a pixel in a raw mode. -/
def RawMode.width : RawMode → ℕ
  | RGBX => 4
  | BGRX => 4
  | XRGB => 4
  | XBGR => 4
  | RGB => 3
  | BGR => 3
  | BGR16 => 2
  | RGB16 => 2
  | BGR15 => 2
  | RGB15 => 2
  | RGB4B => 2

theorem RawMode.width_pos (mode : RawMode) : 0 < mode.width := by
  cases mode <;> decide

/-- The texts of `UnsupportedPixelFormat`, by what they interpolate. -/
inductive UnsupportedPixelFormat
  /-- `colour-mapped pixel formats are not supported` -/
  | colourMapped
  /-- `{bpp}bpp channel widths {widths} unsupported` -/
  | channelWidths (bpp : ℕ) (widths : ℕ × ℕ × ℕ)
  /-- `shift={shift} is not byte-aligned` -/
  | notByteAligned (shift : ℕ)
  /-- `two channels share byte {pos}` -/
  | sharedByte (pos : ℤ)
  /-- `{bpp}bpp layout {mode!r} has no Pillow mode` -/
  | noMode (bpp : ℕ) (mode : String)
  /-- `big-endian 16bpp is not supported` -/
  | bigEndian16
  /-- `16bpp layout widths={widths} shifts={shifts} has no Pillow mode` -/
  | layout16 (widths shifts : ℕ × ℕ × ℕ)
  /-- `bpp={bpp} is not supported` -/
  | bpp (bpp : ℕ)
  deriving DecidableEq, Repr

namespace PixelFormat

/-- `n.bit_length()`. -/
def bitLength (n : ℕ) : ℕ :=
  if n = 0 then 0 else n.log2 + 1

/-- `_channel_widths`. -/
def channelWidths (pf : PixelFormat) : ℕ × ℕ × ℕ :=
  (bitLength pf.redmax, bitLength pf.greenmax, bitLength pf.bluemax)

/-- The turns of the loop of `_byte_positions` over the channels that are left. -/
def placeChannels (bigendian : Bool) (nbytes : ℕ) :
    List (ℕ × Char) → List (ℤ × Char) → Except UnsupportedPixelFormat (List (ℤ × Char))
  | [], positions => .ok positions
  | (shift, channel) :: channels, positions =>
      if shift % 8 ≠ 0 then .error (.notByteAligned shift)
      else
        let pos : ℤ := shift / 8
        let pos := if bigendian then nbytes - 1 - pos else pos
        if (positions.lookup pos).isSome then .error (.sharedByte pos)
        else placeChannels bigendian nbytes channels (positions ++ [(pos, channel)])

/-- `_byte_positions`. -/
def bytePositions (pf : PixelFormat) (nbytes : ℕ) :
    Except UnsupportedPixelFormat (List (ℤ × Char)) :=
  placeChannels pf.bigendian nbytes
    [(pf.redshift, 'R'), (pf.greenshift, 'G'), (pf.blueshift, 'B')] []

/-- `"".join(positions.get(i, "X") for i in range(nbytes))`. -/
def layout (positions : List (ℤ × Char)) (nbytes : ℕ) : String :=
  String.ofList ((List.range nbytes).map fun i : ℕ => (positions.lookup (i : ℤ)).getD 'X')

/-- `_32BPP_MODES` and `_24BPP_MODES`. -/
def byteModes : ℕ → List (String × RawMode)
  | 32 => [("RGBX", .RGBX), ("BGRX", .BGRX), ("XRGB", .XRGB), ("XBGR", .XBGR)]
  | 24 => [("RGB", .RGB), ("BGR", .BGR)]
  | _ => []

/-- The branch of `raw_mode` for channels of a byte each. -/
def byteMode (pf : PixelFormat) (nbytes : ℕ) : Except UnsupportedPixelFormat RawMode :=
  if pf.channelWidths ≠ (8, 8, 8) then .error (.channelWidths pf.bpp pf.channelWidths)
  else do
    let positions ← pf.bytePositions nbytes
    match (byteModes pf.bpp).lookup (layout positions nbytes) with
    | some mode => return mode
    | none => throw (.noMode pf.bpp (layout positions nbytes))

/-- The table of the 16 bits per pixel layouts, by widths and shifts. -/
def modes16 : List (((ℕ × ℕ × ℕ) × (ℕ × ℕ × ℕ)) × RawMode) :=
  [(((5, 6, 5), (11, 5, 0)), .BGR16), (((5, 6, 5), (0, 5, 11)), .RGB16),
    (((5, 5, 5), (10, 5, 0)), .BGR15), (((5, 5, 5), (0, 5, 10)), .RGB15),
    (((4, 4, 4), (0, 4, 8)), .RGB4B)]

/-- `raw_mode(pixel_format)`. -/
def rawMode (pf : PixelFormat) : Except UnsupportedPixelFormat RawMode :=
  if !pf.truecolor then .error .colourMapped
  else if pf.bpp = 32 then pf.byteMode 4
  else if pf.bpp = 24 then pf.byteMode 3
  else if pf.bpp = 16 then
    if pf.bigendian then .error .bigEndian16
    else
      let shifts := (pf.redshift, pf.greenshift, pf.blueshift)
      match modes16.lookup (pf.channelWidths, shifts) with
      | some mode => .ok mode
      | none => .error (.layout16 pf.channelWidths shifts)
  else .error (.bpp pf.bpp)

/-! ## `PIXEL_FORMATS` -/

def bgrx8888 : PixelFormat := ⟨32, 24, false, true, 255, 255, 255, 16, 8, 0⟩

def rgbx8888 : PixelFormat := ⟨32, 24, false, true, 255, 255, 255, 0, 8, 16⟩

def rgb565 : PixelFormat := ⟨16, 16, false, true, 31, 63, 31, 11, 5, 0⟩

example : rgbx8888.rawMode = .ok .RGBX ∧ rgb565.rawMode = .ok .BGR16 := by decide +kernel

/-! ## A mode reads whole pixels -/

theorem mem_of_lookup {α β : Type} [BEq α] [LawfulBEq α] {a : α} {b : β} {l : List (α × β)}
    (h : l.lookup a = some b) : (a, b) ∈ l := by
  rcases List.lookup_eq_some_iff.1 h with ⟨before, after, rfl, _⟩
  exact List.mem_append_right _ List.mem_cons_self

theorem width_byteMode {pf : PixelFormat} {nbytes : ℕ} {mode : RawMode}
    (h : pf.byteMode nbytes = .ok mode) (hbpp : ∀ entry ∈ byteModes pf.bpp, entry.2.width = nbytes) :
    mode.width = nbytes := by
  unfold byteMode at h
  split_ifs at h
  cases hpositions : pf.bytePositions nbytes with
  | error exc =>
      rw [hpositions] at h
      exact nomatch h
  | ok positions =>
      rw [hpositions] at h
      change (match (byteModes pf.bpp).lookup (layout positions nbytes) with
        | some mode => Except.ok mode
        | none => Except.error (UnsupportedPixelFormat.noMode pf.bpp (layout positions nbytes))) =
          _ at h
      cases hlookup : (byteModes pf.bpp).lookup (layout positions nbytes) with
      | none =>
          rw [hlookup] at h
          exact nomatch h
      | some mode' =>
          rw [hlookup] at h
          cases h
          exact hbpp _ (mem_of_lookup hlookup)

/-- A supported format has as many bytes in a pixel as its mode reads. -/
theorem width_rawMode {pf : PixelFormat} {mode : RawMode} (h : pf.rawMode = .ok mode) :
    mode.width = pf.bypp := by
  unfold rawMode at h
  split_ifs at h with _ h32 h24 h16 _
  · have hwidth := width_byteMode h (by rw [h32]; decide)
    rw [hwidth, bypp, h32]
  · have hwidth := width_byteMode h (by rw [h24]; decide)
    rw [hwidth, bypp, h24]
  · dsimp only at h
    cases hlookup : modes16.lookup (pf.channelWidths, pf.redshift, pf.greenshift, pf.blueshift) with
    | none =>
        rw [hlookup] at h
        exact nomatch h
    | some mode' =>
        rw [hlookup] at h
        cases h
        have htable : ∀ entry ∈ modes16, entry.2.width = 2 := by decide
        rw [bypp, h16]
        exact htable _ (mem_of_lookup hlookup)

theorem bypp_pos_of_rawMode {pf : PixelFormat} {mode : RawMode} (h : pf.rawMode = .ok mode) :
    0 < pf.bypp := by
  rw [← width_rawMode h]
  cases mode <;> decide

end PixelFormat

end Vncdotool
