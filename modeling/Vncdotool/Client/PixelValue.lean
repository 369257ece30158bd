import Mathlib.Data.List.Basic
import Vncdotool.Client.Pillow
import Vncdotool.Wire.BitFields

/-!
# PixelValue — the colours that a raw mode reads

A pixel of a true-colour format is a number with the three channels shifted into place, written in
the byte order of the format.  Every mode of Pillow has places of its own for the channels; where
`raw_mode` answers with a mode, these are the places that the format's channels have in its bytes.
-/

namespace Vncdotool

open Wire

namespace PixelFormat

/-! ## Pixels -/

/-- `(r << redshift) | (g << greenshift) | (b << blueshift)`. -/
def value (pf : PixelFormat) (r g b : ℕ) : ℕ :=
  r <<< pf.redshift ||| g <<< pf.greenshift ||| b <<< pf.blueshift

/-- `bypp` bytes in the byte order of the format. -/
def pack (pf : PixelFormat) (v : ℕ) : Bytes :=
  if pf.bigendian then packBE pf.bypp v else (packBE pf.bypp v).reverse

theorem lt_of_bitLength {n k w : ℕ} (hn : bitLength n = w) (hk : k ≤ n) : k < 2 ^ w := by
  rw [← hn]
  unfold bitLength
  split_ifs with hzero
  · have hnone : k = 0 := by omega
    rw [hnone]
    exact Nat.one_pos
  · exact lt_of_le_of_lt hk Nat.lt_log2_self

@[simp] theorem length_pack (pf : PixelFormat) (v : ℕ) : (pf.pack v).length = pf.bypp := by
  unfold pack
  split_ifs
  · exact length_packBE _ _
  · rw [List.length_reverse, length_packBE]

/-- Where the byte `i` of a pixel stands in its value. -/
def byteShift (pf : PixelFormat) (i : ℕ) : ℕ :=
  8 * if pf.bigendian then pf.bypp - 1 - i else i

theorem getElem?_pack (pf : PixelFormat) (v : ℕ) {i : ℕ} (hi : i < pf.bypp) :
    (pf.pack v)[i]? = some (UInt8.ofNat (bits v (pf.byteShift i) 8)) := by
  unfold pack byteShift
  split_ifs
  · exact getElem?_packBE hi v
  · rw [List.getElem?_reverse (by rw [length_packBE]; exact hi), length_packBE,
      getElem?_packBE (by omega)]
    congr 5
    omega

theorem field_pack_byte (pf : PixelFormat) (v : ℕ) {i : ℕ} (hi : i < pf.bypp) :
    field (pf.pack v) i 1 = bits v (pf.byteShift i) 8 := by
  have hbound : bits v (pf.byteShift i) 8 < 256 := bits_lt v _ 8
  rw [field_one (getElem?_pack pf v hi), UInt8.toNat_ofNat']
  exact Nat.mod_eq_of_lt hbound

end PixelFormat

/-! ## The places of a mode -/

namespace RawMode

/-- Where red, green and blue stand in the bytes of a pixel, the first byte being the lowest. -/
def places : RawMode → ℕ × ℕ × ℕ
  | RGBX => (0, 8, 16)
  | BGRX => (16, 8, 0)
  | XRGB => (8, 16, 24)
  | XBGR => (24, 16, 8)
  | RGB => (0, 8, 16)
  | BGR => (16, 8, 0)
  | BGR16 => (11, 5, 0)
  | RGB16 => (0, 5, 11)
  | BGR15 => (10, 5, 0)
  | RGB15 => (0, 5, 10)
  | RGB4B => (0, 4, 8)

/-- The bits of red, green and blue. -/
def widths : RawMode → ℕ × ℕ × ℕ
  | BGR16 => (5, 6, 5)
  | RGB16 => (5, 6, 5)
  | BGR15 => (5, 5, 5)
  | RGB15 => (5, 5, 5)
  | RGB4B => (4, 4, 4)
  | _ => (8, 8, 8)

/-- The channels of a pixel, unscaled. -/
def channels (mode : RawMode) (pixel : Bytes) : ℕ × ℕ × ℕ :=
  let word := unpackBE pixel.reverse
  (bits word mode.places.1 mode.widths.1, bits word mode.places.2.1 mode.widths.2.1,
    bits word mode.places.2.2 mode.widths.2.2)

/-- Eight bits are scaled to themselves. -/
theorem scale_byte {n : ℕ} (hn : n < 256) : Pillow.scale n 8 = n := by
  change n % 256 * 255 / 255 = n
  rw [Nat.mod_eq_of_lt hn]
  exact Nat.mul_div_cancel n (by decide)

theorem scale_bits (v s w : ℕ) : Pillow.scale (bits v s w) w = Pillow.scale (v / 2 ^ s) w := by
  unfold Pillow.scale bits
  rw [Nat.mod_mod]

/-- What Pillow makes of a pixel are its channels, scaled to eight bits. -/
theorem decode_eq (mode : RawMode) {pixel : Bytes} (hlength : pixel.length = mode.width) :
    Pillow.decode mode pixel =
      (Pillow.scale (mode.channels pixel).1 mode.widths.1,
        Pillow.scale (mode.channels pixel).2.1 mode.widths.2.1,
          Pillow.scale (mode.channels pixel).2.2 mode.widths.2.2) := by
  have hbyte (i : ℕ) (hi : i < mode.width) :
      Pillow.scale (bits (unpackBE pixel.reverse) (8 * i) 8) 8 = field pixel i 1 := by
    rw [scale_byte (bits_lt _ _ 8)]
    exact bits_unpackBE_reverse (by omega)
  have hbytes (i j k : ℕ) (h : i < mode.width ∧ j < mode.width ∧ k < mode.width) :
      (field pixel i 1, field pixel j 1, field pixel k 1) =
        (Pillow.scale (bits (unpackBE pixel.reverse) (8 * i) 8) 8,
          Pillow.scale (bits (unpackBE pixel.reverse) (8 * j) 8) 8,
            Pillow.scale (bits (unpackBE pixel.reverse) (8 * k) 8) 8) := by
    rw [hbyte i h.1, hbyte j h.2.1, hbyte k h.2.2]
  have hword (hmode : mode.width = 2) :
      field pixel 0 1 + 256 * field pixel 1 1 = unpackBE pixel.reverse := by
    rcases List.length_eq_two.1 (hlength.trans hmode) with ⟨a, b, rfl⟩
    simp [field, slice, unpackBE]
    omega
  cases mode with
  | RGBX => exact hbytes 0 1 2 (by decide)
  | BGRX => exact hbytes 2 1 0 (by decide)
  | XRGB => exact hbytes 1 2 3 (by decide)
  | XBGR => exact hbytes 3 2 1 (by decide)
  | RGB => exact hbytes 0 1 2 (by decide)
  | BGR => exact hbytes 2 1 0 (by decide)
  | _ =>
      simp only [Pillow.decode, channels, places, widths, scale_bits, hword rfl, Nat.pow_zero,
        Nat.div_one]

end RawMode

/-! ## Where the channels of a format are put -/

namespace PixelFormat

/-- The byte of a pixel that a channel is put in, by `_byte_positions`. -/
def place (bigendian : Bool) (nbytes shift : ℕ) : ℤ :=
  if bigendian then nbytes - 1 - (shift : ℤ) / 8 else (shift : ℤ) / 8

theorem placeChannels_ok {bigendian : Bool} {nbytes : ℕ} :
    ∀ {channels : List (ℕ × Char)} {positions placed : List (ℤ × Char)},
      placeChannels bigendian nbytes channels positions = .ok placed →
        (∀ channel ∈ channels, channel.1 % 8 = 0) ∧
          placed = positions ++
            channels.map fun channel => (place bigendian nbytes channel.1, channel.2) := by
  intro channels
  induction channels with
  | nil =>
      intro positions placed h
      cases h
      exact ⟨fun _ h => absurd h List.not_mem_nil, (List.append_nil positions).symm⟩
  | cons channel channels ih =>
      intro positions placed h
      change (if channel.1 % 8 ≠ 0 then .error (.notByteAligned channel.1)
        else if (positions.lookup (place bigendian nbytes channel.1)).isSome then
          .error (.sharedByte (place bigendian nbytes channel.1))
        else placeChannels bigendian nbytes channels
          (positions ++ [(place bigendian nbytes channel.1, channel.2)])) = _ at h
      split_ifs at h with hshift _
      rcases ih h with ⟨haligned, hplaced⟩
      refine ⟨List.forall_mem_cons.2 ⟨not_not.1 hshift, haligned⟩, ?_⟩
      rw [hplaced, List.append_assoc]
      rfl

/-- The channels of a byte each are whole bytes of the pixel. -/
theorem bytePositions_ok {pf : PixelFormat} {nbytes : ℕ} {positions : List (ℤ × Char)}
    (h : pf.bytePositions nbytes = .ok positions) :
    (pf.redshift % 8 = 0 ∧ pf.greenshift % 8 = 0 ∧ pf.blueshift % 8 = 0) ∧
      positions = [(place pf.bigendian nbytes pf.redshift, 'R'),
        (place pf.bigendian nbytes pf.greenshift, 'G'),
        (place pf.bigendian nbytes pf.blueshift, 'B')] := by
  rcases placeChannels_ok h with ⟨haligned, hpositions⟩
  refine ⟨⟨?_, ?_, ?_⟩, hpositions⟩
  · exact haligned (pf.redshift, 'R') (by simp)
  · exact haligned (pf.greenshift, 'G') (by simp)
  · exact haligned (pf.blueshift, 'B') (by simp)

/-- A channel that is put in the byte `i` is that byte of the pixel's value. -/
theorem byteShift_of_place {pf : PixelFormat} {shift i : ℕ} (hi : i < pf.bypp)
    (haligned : shift % 8 = 0) (h : (i : ℤ) = place pf.bigendian pf.bypp shift) :
    pf.byteShift i = shift := by
  unfold place at h
  unfold byteShift
  split_ifs at h ⊢ <;> omega

theorem mem_of_layout {positions : List (ℤ × Char)} {nbytes i : ℕ} (hi : i < nbytes) {c : Char}
    (hc : (layout positions nbytes).toList[i]? = some c) (hx : c ≠ 'X') :
    ((i : ℤ), c) ∈ positions := by
  have hget : (positions.lookup (i : ℤ)).getD 'X' = c := by
    simpa [layout, hi] using hc
  cases hlookup : positions.lookup (i : ℤ) with
  | none =>
      rw [hlookup] at hget
      exact absurd hget.symm hx
  | some c' =>
      rw [hlookup] at hget
      exact mem_of_lookup (hlookup.trans (congrArg some hget))

/-- The table of the modes with a byte for each channel. -/
theorem byteModes_places {bpp nbytes : ℕ} (hbpp : bpp = 32 ∧ nbytes = 4 ∨ bpp = 24 ∧ nbytes = 3) :
    ∀ entry ∈ byteModes bpp, ∃ i < nbytes, ∃ j < nbytes, ∃ k < nbytes,
      entry.2.places = (8 * i, 8 * j, 8 * k) ∧ (i ≠ j ∧ i ≠ k ∧ j ≠ k) ∧
        entry.2.widths = (8, 8, 8) ∧ entry.1.toList[i]? = some 'R' ∧
          entry.1.toList[j]? = some 'G' ∧ entry.1.toList[k]? = some 'B' := by
  rcases hbpp with ⟨rfl, rfl⟩ | ⟨rfl, rfl⟩ <;> decide +kernel

/-! ## A mode reads the channels of a format -/

/-- Two fields of a value have no bit in common. -/
def Apart (s w t m : ℕ) : Prop :=
  s + w ≤ t ∨ t + m ≤ s

/-- The mode has the channels of the format where the format puts them. -/
structure Reads (pf : PixelFormat) (mode : RawMode) : Prop where
  widths : mode.widths = pf.channelWidths
  channels : ∀ v, mode.channels (pf.pack v) =
    (bits v pf.redshift mode.widths.1, bits v pf.greenshift mode.widths.2.1,
      bits v pf.blueshift mode.widths.2.2)
  redGreen : Apart pf.redshift mode.widths.1 pf.greenshift mode.widths.2.1
  redBlue : Apart pf.redshift mode.widths.1 pf.blueshift mode.widths.2.2
  greenBlue : Apart pf.greenshift mode.widths.2.1 pf.blueshift mode.widths.2.2

/-- Channels that have no bit in common are read back from a value. -/
theorem bits_value {pf : PixelFormat} {wr wg wb : ℕ} (hrg : Apart pf.redshift wr pf.greenshift wg)
    (hrb : Apart pf.redshift wr pf.blueshift wb) (hgb : Apart pf.greenshift wg pf.blueshift wb)
    {r g b : ℕ} (hr : r < 2 ^ wr) (hg : g < 2 ^ wg) (hb : b < 2 ^ wb) :
    bits (pf.value r g b) pf.redshift wr = r ∧ bits (pf.value r g b) pf.greenshift wg = g ∧
      bits (pf.value r g b) pf.blueshift wb = b := by
  unfold value
  refine ⟨?_, ?_, ?_⟩
  · rw [bits_or, bits_or, bits_shiftLeft hr, bits_shiftLeft_apart hg hrg.symm,
      bits_shiftLeft_apart hb hrb.symm, Nat.or_zero, Nat.or_zero]
  · rw [bits_or, bits_or, bits_shiftLeft hg, bits_shiftLeft_apart hr hrg,
      bits_shiftLeft_apart hb hgb.symm, Nat.or_zero, Nat.zero_or]
  · rw [bits_or, bits_or, bits_shiftLeft hb, bits_shiftLeft_apart hr hrb,
      bits_shiftLeft_apart hg hgb, Nat.or_zero, Nat.zero_or]

/-- The channels of a pixel are the ones that went into its value. -/
theorem Reads.channels_value {pf : PixelFormat} {mode : RawMode} (h : pf.Reads mode) {r g b : ℕ}
    (hr : r ≤ pf.redmax) (hg : g ≤ pf.greenmax) (hb : b ≤ pf.bluemax) :
    mode.channels (pf.pack (pf.value r g b)) = (r, g, b) := by
  have hwr : r < 2 ^ mode.widths.1 := lt_of_bitLength (congrArg Prod.fst h.widths).symm hr
  have hwg : g < 2 ^ mode.widths.2.1 :=
    lt_of_bitLength (congrArg (fun widths => widths.2.1) h.widths).symm hg
  have hwb : b < 2 ^ mode.widths.2.2 :=
    lt_of_bitLength (congrArg (fun widths => widths.2.2) h.widths).symm hb
  rcases bits_value h.redGreen h.redBlue h.greenBlue hwr hwg hwb with ⟨hred, hgreen, hblue⟩
  rw [h.channels, hred, hgreen, hblue]

/-- Eight bits at a byte of the pixel. -/
theorem bits_unpack_pack (pf : PixelFormat) (v : ℕ) {i : ℕ} (hi : i < pf.bypp) :
    bits (unpackBE (pf.pack v).reverse) (8 * i) 8 = bits v (pf.byteShift i) 8 := by
  rw [bits_unpackBE_reverse (by rw [length_pack]; exact hi), field_pack_byte pf v hi]

theorem reads_of_byteMode {pf : PixelFormat} {mode : RawMode}
    (hbpp : pf.bpp = 32 ∧ pf.bypp = 4 ∨ pf.bpp = 24 ∧ pf.bypp = 3)
    (h : pf.byteMode pf.bypp = .ok mode) : pf.Reads mode := by
  unfold byteMode at h
  split_ifs at h with hwidths
  cases hpositions : pf.bytePositions pf.bypp with
  | error exc =>
      rw [hpositions] at h
      cases h
  | ok positions =>
      rw [hpositions] at h
      have helim : ((byteModes pf.bpp).lookup (layout positions pf.bypp)).elim
          (Except.error (UnsupportedPixelFormat.noMode pf.bpp (layout positions pf.bypp)))
          Except.ok = .ok mode := by
        rw [← h]
        change _ = Except.bind (.ok positions) _
        unfold Except.bind
        dsimp only
        cases (byteModes pf.bpp).lookup (layout positions pf.bypp) with
        | none => rfl
        | some mode => rfl
      cases hlookup : (byteModes pf.bpp).lookup (layout positions pf.bypp) with
      | none =>
          rw [hlookup] at helim
          cases helim
      | some mode' =>
          rw [hlookup] at helim
          cases helim
          rcases byteModes_places hbpp _ (mem_of_lookup hlookup) with
            ⟨i, hi, j, hj, k, hk, hplaces, ⟨hij, hik, hjk⟩, height, hR, hG, hB⟩
          dsimp only at hplaces height hR hG hB
          rcases bytePositions_ok hpositions with ⟨⟨har, hag, hab⟩, rfl⟩
          have hr : pf.byteShift i = pf.redshift :=
            byteShift_of_place hi har (by simpa using mem_of_layout hi hR (by decide))
          have hg : pf.byteShift j = pf.greenshift :=
            byteShift_of_place hj hag (by simpa using mem_of_layout hj hG (by decide))
          have hb : pf.byteShift k = pf.blueshift :=
            byteShift_of_place hk hab (by simpa using mem_of_layout hk hB (by decide))
          -- Two bytes of a pixel are eight bits apart, whatever the byte order.
          have hapart {i j : ℕ} (hi : i < pf.bypp) (hj : j < pf.bypp) (hne : i ≠ j) :
              Apart (pf.byteShift i) 8 (pf.byteShift j) 8 := by
            unfold Apart byteShift
            split_ifs <;> omega
          refine ⟨height.trans (not_not.1 hwidths).symm, fun v => ?_, ?_, ?_, ?_⟩
          · rw [RawMode.channels, hplaces, height]
            dsimp only
            rw [bits_unpack_pack pf v hi, bits_unpack_pack pf v hj, bits_unpack_pack pf v hk, hr,
              hg, hb]
          all_goals rw [height]
          · exact hr ▸ hg ▸ hapart hi hj hij
          · exact hr ▸ hb ▸ hapart hi hk hik
          · exact hg ▸ hb ▸ hapart hj hk hjk

/-- The table of the 16 bits per pixel layouts. -/
theorem modes16_places : ∀ entry ∈ modes16,
    (entry.2.widths = entry.1.1 ∧ entry.2.places = entry.1.2) ∧
      entry.1.2.1 + entry.1.1.1 ≤ 16 ∧ entry.1.2.2.1 + entry.1.1.2.1 ≤ 16 ∧
        entry.1.2.2.2 + entry.1.1.2.2 ≤ 16 := by
  decide

theorem reads_of_mode16 {pf : PixelFormat} {mode : RawMode} (hbpp : pf.bpp = 16)
    (hlittle : pf.bigendian = false)
    (h : ((pf.channelWidths, pf.redshift, pf.greenshift, pf.blueshift), mode) ∈ modes16) :
    pf.Reads mode := by
  rcases modes16_places _ h with ⟨⟨hwidths, hplaces⟩, hred, hgreen, hblue⟩
  have hapart : ∀ entry ∈ modes16, ((Apart entry.1.2.1 entry.1.1.1 entry.1.2.2.1 entry.1.1.2.1 ∧
      Apart entry.1.2.1 entry.1.1.1 entry.1.2.2.2 entry.1.1.2.2) ∧
        Apart entry.1.2.2.1 entry.1.1.2.1 entry.1.2.2.2 entry.1.1.2.2) := by
    unfold Apart
    decide
  rcases hapart _ h with ⟨⟨hrg, hrb⟩, hgb⟩
  dsimp only at hwidths hplaces hred hgreen hblue hrg hrb hgb
  -- A little-endian pixel of two bytes is the low half of its value.
  have hword (v : ℕ) : unpackBE (pf.pack v).reverse = bits v 0 16 := by
    rw [pack, hlittle, if_neg Bool.false_ne_true, List.reverse_reverse, unpackBE_packBE, bypp, hbpp,
      bits, Nat.pow_zero, Nat.div_one]
    rfl
  refine ⟨hwidths, fun v => ?_, hwidths ▸ hrg, hwidths ▸ hrb, hwidths ▸ hgb⟩
  rw [RawMode.channels, hplaces, hwidths, hword]
  dsimp only
  rw [bits_bits (by omega), bits_bits (by omega), bits_bits (by omega), Nat.zero_add, Nat.zero_add,
    Nat.zero_add]

/-- The mode of a supported format reads its channels. -/
theorem reads_of_rawMode {pf : PixelFormat} {mode : RawMode} (h : pf.rawMode = .ok mode) :
    pf.Reads mode := by
  have hbypp (n : ℕ) (hbpp : pf.bpp = 8 * n) : pf.bypp = n := by
    unfold bypp
    omega
  unfold rawMode at h
  split_ifs at h with _ h32 h24 h16 hbig
  · exact reads_of_byteMode (.inl ⟨h32, hbypp 4 h32⟩) (hbypp 4 h32 ▸ h)
  · exact reads_of_byteMode (.inr ⟨h24, hbypp 3 h24⟩) (hbypp 3 h24 ▸ h)
  · dsimp only at h
    cases hlookup : modes16.lookup (pf.channelWidths, pf.redshift, pf.greenshift, pf.blueshift) with
    | none =>
        rw [hlookup] at h
        cases h
    | some mode' =>
        rw [hlookup] at h
        cases h
        exact reads_of_mode16 h16 (Bool.eq_false_iff.2 hbig) (mem_of_lookup hlookup)

/-- `raw_mode` refuses a format, or its mode reads every colour of the format; the depth of the
format has no part in it. -/
theorem rawMode_reads_colours (pf : PixelFormat) :
    ((∃ exc, pf.rawMode = .error exc) ∨
        ∃ mode, pf.rawMode = .ok mode ∧ mode.widths = pf.channelWidths ∧
          ∀ r ≤ pf.redmax, ∀ g ≤ pf.greenmax, ∀ b ≤ pf.bluemax,
            mode.channels (pf.pack (pf.value r g b)) = (r, g, b) ∧
              Pillow.decode mode (pf.pack (pf.value r g b)) =
                (Pillow.scale r mode.widths.1, Pillow.scale g mode.widths.2.1,
                  Pillow.scale b mode.widths.2.2)) ∧
      ∀ depth, { pf with depth := depth }.rawMode = pf.rawMode := by
  refine ⟨?_, fun _ => rfl⟩
  cases hmode : pf.rawMode with
  | error exc => exact .inl ⟨exc, rfl⟩
  | ok mode =>
      have hreads := reads_of_rawMode hmode
      refine .inr ⟨mode, rfl, hreads.widths, fun r hr g hg b hb => ?_⟩
      have hchannels := hreads.channels_value hr hg hb
      have hlength : (pf.pack (pf.value r g b)).length = mode.width :=
        (length_pack pf _).trans (width_rawMode hmode).symm
      exact ⟨hchannels, by rw [RawMode.decode_eq mode hlength, hchannels]⟩

end PixelFormat

end Vncdotool
