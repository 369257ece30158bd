import Vncdotool.Client.CPixel
import Vncdotool.RFB.ZrleDecoding

/-!
# ZrleFormat — ZRLE pixels and the negotiated pixel format

The reader of ZRLE pixels takes three bytes and puts `0xFF` behind them, whatever the pixel format is.
That is a pixel of the format where three bytes are sent for a pixel, and they are its first three
(`honoursFormat_iff`).
-/

namespace Vncdotool

open Wire

/-! ## Pixels of a format -/

namespace PixelFormat

/-- The bytes of a pixel that ZRLE sends. -/
def cpixel (pf : PixelFormat) (v : ℕ) : Bytes :=
  slice (pf.pack v) pf.cpixelOffset pf.cpixelBytes

/-- The value of a pixel's bytes. -/
def unpack (pf : PixelFormat) (pixel : Bytes) : ℕ :=
  unpackBE (if pf.bigendian then pixel else pixel.reverse)

/-- The shift and the maximum of every channel. -/
def channels (pf : PixelFormat) : List (ℕ × ℕ) :=
  [(pf.redshift, pf.redmax), (pf.greenshift, pf.greenmax), (pf.blueshift, pf.bluemax)]

/-- The red, the green and the blue of a pixel's bytes. -/
def colour (pf : PixelFormat) (pixel : Bytes) : List ℕ :=
  pf.channels.map fun channel => pf.unpack pixel >>> channel.1 &&& channel.2

/-- No channel has a bit in the first `n` bits of a value. -/
def ColourlessBelow (pf : PixelFormat) (n : ℕ) : Prop :=
  ∀ channel ∈ pf.channels, ∀ i, channel.2.testBit i → n ≤ channel.1 + i

section Colours

variable {pf : PixelFormat}

theorem colour_eq_iff {pixel pixel' : Bytes} :
    pf.colour pixel = pf.colour pixel' ↔ ∀ channel ∈ pf.channels, ∀ i, channel.2.testBit i →
      (pf.unpack pixel).testBit (channel.1 + i) = (pf.unpack pixel').testBit (channel.1 + i) := by
  unfold colour
  rw [List.map_inj_left]
  exact forall₂_congr fun channel _ => shiftRight_and_eq_iff

/-- The byte of a pixel that a bit of its value is in. -/
def byteOf (pf : PixelFormat) (p : ℕ) : ℕ :=
  if pf.bigendian then pf.bypp - 1 - p / 8 else p / 8

theorem byteOf_lt {p : ℕ} (hp : p < 8 * pf.bypp) : pf.byteOf p < pf.bypp := by
  unfold byteOf
  split_ifs <;> omega

theorem byteShift_byteOf {p : ℕ} (hp : p < 8 * pf.bypp) : pf.byteShift (pf.byteOf p) + p % 8 = p := by
  unfold byteShift byteOf
  split_ifs <;> omega

/-- The bits of a pixel's value. -/
theorem testBit_unpack {pixel : Bytes} (hlength : pixel.length = pf.bypp) (p : ℕ) :
    (pf.unpack pixel).testBit p =
      (decide (p < 8 * pf.bypp) && (field pixel (pf.byteOf p) 1).testBit (p % 8)) := by
  by_cases hp : p < 8 * pf.bypp
  · have hbit (bytes : Bytes) (i : ℕ) (hi : i < bytes.length) :
        (unpackBE bytes.reverse).testBit (8 * i + p % 8) = (field bytes i 1).testBit (p % 8) := by
      rw [← bits_unpackBE_reverse hi, testBit_bits, decide_eq_true (Nat.mod_lt p (by decide)),
        Bool.true_and]
    rw [decide_eq_true hp, Bool.true_and]
    unfold unpack byteOf
    split_ifs
    · have hrev := hbit pixel.reverse (p / 8) (by rw [List.length_reverse, hlength]; omega)
      rw [List.reverse_reverse, Nat.div_add_mod] at hrev
      rw [hrev]
      have hi : pf.bypp - 1 - p / 8 < pixel.length := by omega
      have hget : pixel.reverse[p / 8]? = some pixel[pf.bypp - 1 - p / 8] := by
        rw [List.getElem?_reverse (by omega), hlength, List.getElem?_eq_getElem hi]
      rw [field_one hget, field_one (List.getElem?_eq_getElem hi)]
    · have hplain := hbit pixel (p / 8) (by omega)
      rw [Nat.div_add_mod] at hplain
      exact hplain
  · have hsmall : pf.unpack pixel < 2 ^ p := by
      have hbound : pf.unpack pixel < 256 ^ pf.bypp := by
        unfold unpack
        split_ifs
        · exact hlength ▸ unpackBE_lt pixel
        · have hrev := unpackBE_lt pixel.reverse
          rw [List.length_reverse, hlength] at hrev
          exact hrev
      refine hbound.trans_le ?_
      rw [show (256 : ℕ) = 2 ^ 8 from rfl, ← Nat.pow_mul]
      exact Nat.pow_le_pow_right (by decide) (Nat.not_lt.1 hp)
    rw [Nat.testBit_lt_two_pow hsmall, decide_eq_false hp, Bool.false_and]

/-- The bits of a pixel are those of its value. -/
theorem testBit_unpack_pack (v p : ℕ) :
    (pf.unpack (pf.pack v)).testBit p = (decide (p < 8 * pf.bypp) && v.testBit p) := by
  rw [testBit_unpack (length_pack pf v)]
  by_cases hp : p < 8 * pf.bypp
  · rw [field_pack_byte pf v (byteOf_lt hp), testBit_bits,
      decide_eq_true (Nat.mod_lt p (by decide) : p % 8 < 8), byteShift_byteOf hp, Bool.true_and]
  · rw [decide_eq_false hp, Bool.false_and, Bool.false_and]

/-- As many bytes are sent as the format says. -/
theorem length_cpixel (pf : PixelFormat) (v : ℕ) : (pf.cpixel v).length = pf.cpixelBytes := by
  unfold cpixel slice
  rw [List.length_take, List.length_drop, length_pack]
  by_cases hthree : pf.bpp = 32 ∧ pf.cpixelBytes = 3
  · rcases cpixel_cases hthree.1 hthree.2 with ⟨hbypp, ⟨_, _, hoffset⟩ | ⟨_, _, _, hoffset⟩⟩
    · rw [hthree.2, hbypp, hoffset]
      split_ifs <;> rfl
    · rw [hthree.2, hbypp, hoffset]
      split_ifs <;> rfl
  · rcases cpixel_whole hthree with ⟨hbytes, hoffset⟩
    rw [hbytes, hoffset, Nat.sub_zero, Nat.min_self]

end Colours

/-! ## What the reader makes of a pixel -/

section Reader

variable {pf : PixelFormat}

theorem lt_bitLength_of_testBit {m i : ℕ} (h : m.testBit i = true) : i < bitLength m := by
  by_contra hge
  have hsmall : m < 2 ^ i := (lt_of_bitLength rfl (Nat.le_refl m)).trans_le
    (Nat.pow_le_pow_right (by decide) (Nat.not_lt.1 hge))
  rw [Nat.testBit_lt_two_pow hsmall] at h
  cases h

/-- Three bytes and `0xFF`. -/
def readPixel (pf : PixelFormat) (v : ℕ) : Bytes :=
  pf.cpixel v ++ [0xFF]

/-- The reader takes three bytes. -/
theorem length_of_cpixel {it rest pixel : Bytes} (h : RFBClient.cpixel it = .ok (pixel, rest)) :
    it.length = rest.length + 3 := by
  rcases it with _ | ⟨a, _ | ⟨b, _ | ⟨c, it⟩⟩⟩
  · cases h
  · cases h
  · cases h
  · cases h
    rfl

theorem cpixel_read (hthree : pf.cpixelBytes = 3) (v : ℕ) (rest : Bytes) :
    RFBClient.cpixel (pf.cpixel v ++ rest) = .ok (pf.readPixel v, rest) :=
  Zrle.cpixel_eq ⟨pf.cpixel v, (length_cpixel pf v).trans hthree⟩ rest

theorem length_readPixel (hthree : pf.cpixelBytes = 3) (v : ℕ) : (pf.readPixel v).length = 4 :=
  Zrle.length_pixel ⟨pf.cpixel v, (length_cpixel pf v).trans hthree⟩

theorem field_readPixel (hthree : pf.cpixelBytes = 3) (hoffset : pf.cpixelOffset + 3 ≤ pf.bypp)
    (v : ℕ) {i : ℕ} (hi : i < 4) :
    field (pf.readPixel v) i 1 =
      if i = 3 then 255 else bits v (pf.byteShift (pf.cpixelOffset + i)) 8 := by
  have hlength := (length_cpixel pf v).trans hthree
  split_ifs with hlast
  · have hget : (pf.readPixel v)[i]? = some 0xFF := by
      unfold readPixel
      rw [List.getElem?_append_right (by omega), hlength, hlast]
      rfl
    rw [field_one hget]
    rfl
  · have hget : (pf.readPixel v)[i]? = (pf.pack v)[pf.cpixelOffset + i]? := by
      unfold readPixel
      rw [List.getElem?_append_left (by omega)]
      unfold cpixel slice
      rw [List.getElem?_take_of_lt (by omega), List.getElem?_drop]
    have hinside : pf.cpixelOffset + i < pf.bypp := by omega
    rw [getElem?_pack pf v hinside] at hget
    rw [field_one hget, UInt8.toNat_ofNat']
    exact Nat.mod_eq_of_lt (bits_lt v _ 8)

/-- The bits of a pixel that was read. -/
theorem testBit_unpack_readPixel (hbypp : pf.bypp = 4) (hthree : pf.cpixelBytes = 3)
    (hoffset : pf.cpixelOffset ≤ 1) (v : ℕ) {p : ℕ} (hp : p < 32) :
    (pf.unpack (pf.readPixel v)).testBit p =
      (pf.byteOf p == 3 || v.testBit (pf.byteShift (pf.cpixelOffset + pf.byteOf p) + p % 8)) := by
  have hbyte : pf.byteOf p < 4 := hbypp ▸ byteOf_lt (by omega)
  have hlow : p % 8 < 8 := Nat.mod_lt p (by decide)
  rw [testBit_unpack ((length_readPixel hthree v).trans hbypp.symm), hbypp,
    decide_eq_true (by omega : p < 8 * 4), Bool.true_and,
    field_readPixel hthree (by omega) v hbyte]
  split_ifs with hlast
  · have hones : (255 : ℕ).testBit (p % 8) = true := by
      rw [show (255 : ℕ) = 2 ^ 8 - 1 from rfl, Nat.testBit_two_pow_sub_one, decide_eq_true hlow]
    rw [hones, beq_iff_eq.2 hlast, Bool.true_or]
  · rw [testBit_bits, decide_eq_true hlow, Bool.true_and, beq_eq_false_iff_ne.2 hlast,
      Bool.false_or]

/-- Every pixel that is read has the colour of the pixel that was sent if the bytes that are sent are
the first ones, or if there is no colour in a pixel at all. -/
theorem colour_readPixel_iff (hbpp : pf.bpp = 32) (hthree : pf.cpixelBytes = 3) :
    (∀ v, pf.colour (pf.readPixel v) = pf.colour (pf.pack v)) ↔
      pf.cpixelOffset = 0 ∨ pf.ColourlessBelow 32 := by
  rcases cpixel_cases hbpp hthree with ⟨hbypp, hplaced⟩
  have hoffset : pf.cpixelOffset ≤ 1 := by
    rcases hplaced with ⟨_, _, hoffset⟩ | ⟨_, _, _, hoffset⟩
    · rw [hoffset]
      split_ifs <;> decide
    · rw [hoffset]
      split_ifs <;> decide
  have hsent (v p : ℕ) (hp : p < 32) : (pf.unpack (pf.pack v)).testBit p = v.testBit p := by
    rw [testBit_unpack_pack, hbypp, decide_eq_true (by omega : p < 8 * 4), Bool.true_and]
  have hbeyond (pixel : Bytes) (hlength : pixel.length = 4) (p : ℕ) (hp : 32 ≤ p) :
      (pf.unpack pixel).testBit p = false := by
    rw [testBit_unpack (hlength.trans hbypp.symm), hbypp,
      decide_eq_false (by omega : ¬ p < 8 * 4), Bool.false_and]
  constructor
  · intro h
    by_cases hzero : pf.cpixelOffset = 0
    · exact .inl hzero
    · refine .inr fun channel hchannel i hi => ?_
      by_contra hinside
      have hp : channel.1 + i < 32 := Nat.not_le.1 hinside
      have hbit (v : ℕ) := colour_eq_iff.1 (h v) channel hchannel i hi
      have hone : pf.cpixelOffset = 1 := by omega
      by_cases hlast : pf.byteOf (channel.1 + i) = 3
      -- The last byte is `0xFF`, also where black was sent.
      · have hblack := hbit 0
        rw [testBit_unpack_readPixel hbypp hthree hoffset 0 hp, hsent 0 _ hp,
          beq_iff_eq.2 hlast, Bool.true_or, Nat.zero_testBit] at hblack
        cases hblack
      -- The bit is looked for in the byte beside the one that it was sent in.
      · have hset := hbit (2 ^ (channel.1 + i))
        have hmoved : channel.1 + i ≠
            pf.byteShift (pf.cpixelOffset + pf.byteOf (channel.1 + i)) + (channel.1 + i) % 8 := by
          rw [hone]
          unfold byteShift byteOf at *
          rw [hbypp] at *
          split_ifs at * <;> omega
        rw [testBit_unpack_readPixel hbypp hthree hoffset _ hp, hsent _ _ hp,
          beq_eq_false_iff_ne.2 hlast, Bool.false_or, Nat.testBit_two_pow_self,
          Nat.testBit_two_pow_of_ne hmoved] at hset
        cases hset
  · intro h v
    refine colour_eq_iff.2 fun channel hchannel i hi => ?_
    by_cases hp : channel.1 + i < 32
    · rcases h with hzero | hcolourless
      -- The byte that is put behind the three has no colour.
      · have hplace' : (channel.1, bitLength channel.2) ∈ pf.channelPlaces :=
          @List.mem_map_of_mem _ _ _ _ (fun channel => (channel.1, bitLength channel.2)) hchannel
        have hwidth : i < bitLength channel.2 := lt_bitLength_of_testBit hi
        have hlast : pf.byteOf (channel.1 + i) ≠ 3 := by
          unfold byteOf
          rw [hbypp]
          rcases hplaced with ⟨_, hlow, hoffset'⟩ | ⟨_, _, hhigh, hoffset'⟩
          · have hfits := (fitsLow_iff pf).1 hlow _ hplace'
            rw [hzero] at hoffset'
            dsimp only at hfits
            split_ifs at hoffset' ⊢
            omega
          · have hfits := (fitsHigh_iff pf).1 hhigh _ hplace'
            rw [hzero] at hoffset'
            dsimp only at hfits
            split_ifs at hoffset' ⊢
            omega
        have hplace : pf.byteShift (0 + pf.byteOf (channel.1 + i)) + (channel.1 + i) % 8 =
            channel.1 + i := by
          rw [Nat.zero_add]
          exact byteShift_byteOf (by rw [hbypp]; exact hp)
        rw [testBit_unpack_readPixel hbypp hthree hoffset v hp, hsent v _ hp, hzero, hplace,
          beq_eq_false_iff_ne.2 hlast, Bool.false_or]
      · exact absurd hp (Nat.not_lt.2 (hcolourless channel hchannel i hi))
    · rw [hbeyond _ (length_readPixel hthree v) _ (Nat.not_lt.1 hp),
        hbeyond _ ((length_pack pf v).trans hbypp) _ (Nat.not_lt.1 hp)]

end Reader

/-! ## Tiles -/

/-- What is handed over shows pixels of these values: each has the bytes of a pixel of the format, and
the red, the green and the blue of its value. -/
def Shows (pf : PixelFormat) (values : List ℕ) : RFBClient.ZrleTile → Prop
  | .pixels data => data.length = values.length * pf.bypp ∧ ∀ i v, values[i]? = some v →
      pf.colour (slice data (i * pf.bypp) pf.bypp) = pf.colour (pf.pack v)
  | .solid color => color.length = pf.bypp ∧ ∀ v ∈ values, pf.colour color = pf.colour (pf.pack v)

/-- A tile of pixels of the format is read from its bytes, and shows them. -/
def HonoursFormat (pf : PixelFormat) : Prop :=
  ∀ (tile : Zrle.Tile ℕ) (tw th : ℕ), tile.Valid (tw * th) → ∀ rest, ∃ decoded,
    RFBClient.zrleTile tile.subencoding tw th (tile.body pf.cpixel ++ rest) = .ok (decoded, rest) ∧
      pf.Shows (tile.pixels (tw * th)) decoded

theorem honoursFormat_of_reads {pf : PixelFormat} (hbypp : pf.bypp = 4) (hthree : pf.cpixelBytes = 3)
    (hcolour : ∀ v, pf.colour (pf.readPixel v) = pf.colour (pf.pack v)) : pf.HonoursFormat := by
  intro tile tw th hvalid rest
  have hlength (v : ℕ) : (pf.readPixel v).length = pf.bypp :=
    (length_readPixel hthree v).trans hbypp.symm
  refine ⟨_, Zrle.zrleTile_eq (cpixel_read hthree) hvalid rest, ?_⟩
  have hpixels (values : List ℕ) : pf.Shows values (.pixels (values.flatMap pf.readPixel)) := by
    refine ⟨Zrle.length_flatMap_pixel hlength values, fun i v hv => ?_⟩
    rw [Zrle.slice_flatMap_pixel hlength, hv]
    exact hcolour v
  cases tile with
  | raw pixels => exact hpixels _
  | solid color =>
      refine ⟨hlength color, fun v hv => ?_⟩
      rw [List.eq_of_mem_replicate hv]
      exact hcolour color
  | rle runs => exact hpixels _
  | paletteRle palette items => exact hpixels _

/-- A tile in one colour. -/
theorem HonoursFormat.reads {pf : PixelFormat} (h : pf.HonoursFormat) (v : ℕ) :
    ∃ pixel, RFBClient.cpixel (pf.cpixel v) = .ok (pixel, []) ∧
      pf.colour pixel = pf.colour (pf.pack v) := by
  rcases h (.solid v) 1 1 ⟨trivial, rfl⟩ [] with ⟨decoded, hrun, hshows⟩
  change RFBClient.zrleTile 1 1 1 (pf.cpixel v ++ []) = _ at hrun
  rw [List.append_nil] at hrun
  change (do
    let read ← RFBClient.cpixel (pf.cpixel v)
    return (.solid read.1, read.2) : Except PyError (RFBClient.ZrleTile × Bytes)) = _ at hrun
  cases hpixel : RFBClient.cpixel (pf.cpixel v) with
  | error exc =>
      rw [hpixel] at hrun
      cases hrun
  | ok read =>
      rcases read with ⟨color, it⟩
      rw [hpixel] at hrun
      cases hrun
      exact ⟨color, rfl, hshows.2 v (by simp [Zrle.Tile.pixels])⟩

/-- ZRLE honours a format if and only if three bytes are sent for its pixels, the first three of
them. -/
theorem honoursFormat_iff (pf : PixelFormat) (hbpp : pf.bpp = 8 ∨ pf.bpp = 16 ∨ pf.bpp = 32) :
    pf.HonoursFormat ↔
      pf.cpixelBytes = 3 ∧ (pf.cpixelOffset = 0 ∨ pf.ColourlessBelow 32) := by
  have hbits (hthree : pf.cpixelBytes = 3) : pf.bpp = 32 := by
    by_contra hne
    have hwhole := (cpixel_whole fun h => hne h.1).1
    rw [hthree] at hwhole
    unfold bypp at hwhole
    omega
  constructor
  · intro h
    have hthree : pf.cpixelBytes = 3 := by
      rcases h.reads 0 with ⟨pixel, hpixel, _⟩
      exact (length_cpixel pf 0).symm.trans (length_of_cpixel hpixel)
    refine ⟨hthree, (colour_readPixel_iff (hbits hthree) hthree).1 fun v => ?_⟩
    rcases h.reads v with ⟨pixel, hpixel, hcolour⟩
    have hread := cpixel_read hthree v []
    rw [List.append_nil, hpixel] at hread
    cases hread
    exact hcolour
  · rintro ⟨hthree, hplace⟩
    have hbypp := (cpixel_cases (hbits hthree) hthree).1
    exact honoursFormat_of_reads hbypp hthree
      ((colour_readPixel_iff (hbits hthree) hthree).2 hplace)

theorem honoursFormat_iff_rgbx8888 : rgbx8888.HonoursFormat ↔
    rgbx8888.cpixelBytes = 3 ∧ (rgbx8888.cpixelOffset = 0 ∨ rgbx8888.ColourlessBelow 32) :=
  honoursFormat_iff rgbx8888 (by decide)

/-- A pixel of sixteen bits is two bytes long, and three are taken. -/
theorem not_honoursFormat_rgb565 :
    (rgb565.truecolor = true ∧ rgb565.bpp = 16) ∧ ¬ rgb565.HonoursFormat := by
  refine ⟨by decide, fun h => ?_⟩
  rcases h (.solid 0) 1 1 ⟨trivial, rfl⟩ [] with ⟨decoded, hrun, _⟩
  have herror : RFBClient.zrleTile 1 1 1 (rgb565.cpixel 0 ++ []) = .error .stopIteration := by
    decide +kernel
  cases herror.symm.trans hrun

end PixelFormat

end Vncdotool
