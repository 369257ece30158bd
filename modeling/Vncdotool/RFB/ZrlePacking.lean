import Vncdotool.RFB.ZrleDecoding
import Vncdotool.Wire.BitFields

/-!
# ZrlePacking — tiles of packed palette indices

The rows of a tile with a small palette are packed into bytes, each padded to its last byte.  The
generators of indices go on reading where a row ends: they do not know of rows, so what they skip is
only what the last byte of the whole tile has left.
-/

namespace Vncdotool

open Wire

namespace Zrle

/-! ## Packed tiles -/

/-- The size of a tile and of its palette. -/
structure PackedSize where
  width : ℕ
  height : ℕ
  colors : ℕ
  width_pos : 0 < width
  height_pos : 0 < height
  two_le : 2 ≤ colors
  le_sixteen : colors ≤ 16

namespace PackedSize

variable (s : PackedSize)

/-- The bits of an index. -/
def bits : ℕ :=
  if s.colors = 2 then 1 else if s.colors ≤ 4 then 2 else 4

/-- The indices that a byte has room for. -/
def perByte : ℕ :=
  8 / s.bits

/-- The places that are left in the last byte of a row. -/
def padding : ℕ :=
  (s.perByte - s.width % s.perByte) % s.perByte

/-- The bytes of a row. -/
def rowBytes : ℕ :=
  (s.width + s.padding) / s.perByte

theorem bits_mul_perByte : s.bits * s.perByte = 8 := by
  unfold perByte bits
  split_ifs <;> rfl

theorem perByte_pos : 0 < s.perByte := by
  unfold perByte bits
  split_ifs <;> decide

theorem colors_le : s.colors ≤ 2 ^ s.bits := by
  have hmax := s.le_sixteen
  unfold bits
  split_ifs with htwo hfour
  · exact htwo.le
  · exact hfour
  · exact hmax

theorem padding_lt : s.padding < s.perByte :=
  Nat.mod_lt _ s.perByte_pos

theorem rowBytes_mul : s.rowBytes * s.perByte = s.width + s.padding := by
  have hpos := s.perByte_pos
  have hdvd : s.perByte ∣ s.width + s.padding := by
    refine Nat.dvd_of_mod_eq_zero ?_
    unfold padding
    rw [Nat.add_mod, Nat.mod_mod, ← Nat.add_mod]
    have hlt := Nat.mod_lt s.width hpos
    have hsplit := Nat.div_add_mod s.width s.perByte
    have hround : s.width + (s.perByte - s.width % s.perByte) =
        s.perByte * (s.width / s.perByte + 1) := by
      rw [Nat.mul_succ]
      omega
    rw [hround, Nat.mul_mod_right]
  exact Nat.div_mul_cancel hdvd

end PackedSize

/-- A row of indices into the palette, and what it is padded with. -/
structure PackedRow (s : PackedSize) where
  indices : List (Fin s.colors)
  padding : List (Fin (2 ^ s.bits))
  length_indices : indices.length = s.width
  length_padding : padding.length = s.padding

structure PackedTile (s : PackedSize) where
  palette : List CPixel
  rows : List (PackedRow s)
  length_palette : palette.length = s.colors
  length_rows : rows.length = s.height

/-- The places of a row, one after the other. -/
def PackedRow.slots {s : PackedSize} (row : PackedRow s) : List ℕ :=
  row.indices.map Fin.val ++ row.padding.map Fin.val

/-- Places in whole bytes, the first one highest. -/
def packBytes (bits perByte : ℕ) : ℕ → List ℕ → Bytes
  | 0, _ => []
  | n + 1, slots =>
      UInt8.ofNat (joinFields bits (slots.take perByte)) ::
        packBytes bits perByte n (slots.drop perByte)

namespace PackedTile

variable {s : PackedSize} (tile : PackedTile s)

def subencoding (_ : PackedTile s) : UInt8 :=
  UInt8.ofNat s.colors

/-- What follows the subencoding. -/
def body : Bytes :=
  tile.palette.flatMap Subtype.val ++
    tile.rows.flatMap fun row => packBytes s.bits s.perByte s.rowBytes row.slots

/-- The colour of an index. -/
def color (index : Fin s.colors) : CPixel :=
  tile.palette.get (index.cast tile.length_palette.symm)

/-- The pixels of the tile, row by row. -/
def pixels : List CPixel :=
  tile.rows.flatMap fun row => row.indices.map tile.color

/-- The places of all rows, one after the other. -/
def slots : List ℕ :=
  tile.rows.flatMap PackedRow.slots

/-- The tile is read from its bytes, all of them and no others, as the pixels it has. -/
def DecodedExactly : Prop :=
  ∀ rest, RFBClient.zrleTile tile.subencoding s.width s.height (tile.body ++ rest) =
    .ok (.pixels (tile.pixels.flatMap CPixel.pixel), rest)

/-- The places, read without regard to the padding, show the pixels of the tile. -/
def ShownUnpadded : Prop :=
  (tile.slots.take (s.width * s.height)).map (fun i => tile.palette[i]?) = tile.pixels.map some

end PackedTile

/-! ## The generators -/

/-- The colours of indices, one after the other. -/
def colorsAt (colors : List Bytes) : List ℕ → Except PyError Bytes
  | [] => .ok []
  | index :: indices => do
      let color ← RFBClient.paletteColor colors index
      let data ← colorsAt colors indices
      return color ++ data

section Generators

variable {colors : List Bytes}

theorem colorsAt_cons (index : ℕ) (indices : List ℕ) :
    colorsAt colors (index :: indices) = (do
      let color ← RFBClient.paletteColor colors index
      let data ← colorsAt colors indices
      return color ++ data) := rfl

theorem colorsAt_append (indices indices' : List ℕ) :
    colorsAt colors (indices ++ indices') = (do
      let data ← colorsAt colors indices
      let data' ← colorsAt colors indices'
      return data ++ data') := by
  induction indices with
  | nil =>
      change colorsAt colors indices' = _
      cases hrest : colorsAt colors indices' with
      | error exc => rfl
      | ok data => rfl
  | cons index indices ih =>
      rw [List.cons_append, colorsAt_cons, colorsAt_cons, ih]
      cases RFBClient.paletteColor colors index with
      | error exc => rfl
      | ok color =>
          cases colorsAt colors indices with
          | error exc => rfl
          | ok data =>
              cases colorsAt colors indices' with
              | error exc => rfl
              | ok data' => exact congrArg Except.ok (List.append_assoc _ _ _).symm

/-- The fields of a byte, until the pixels are complete. -/
theorem packedByte_eq {bits pixels : ℕ} (byte : UInt8) (shifts : List ℕ) {num : ℕ}
    (hnum : num < pixels) (data : Bytes) :
    RFBClient.packedByte colors bits pixels byte shifts num data = (do
      let data' ← colorsAt colors
        ((shifts.map fun shift => Wire.bits byte.toNat shift bits).take (pixels - num))
      return ((num + min shifts.length (pixels - num) : ℕ), data ++ data',
        decide (pixels - num ≤ shifts.length))) := by
  induction shifts generalizing num data with
  | nil =>
      have hleft : ¬ pixels - num ≤ 0 := by omega
      unfold RFBClient.packedByte
      rw [List.map_nil, List.take_nil, List.length_nil, decide_eq_false hleft, Nat.zero_min,
        Nat.add_zero]
      change Except.ok ((num : ℤ), data, false) = Except.ok ((num : ℤ), data ++ [], false)
      rw [List.append_nil]
  | cons shift shifts ih =>
      rcases Nat.exists_eq_succ_of_ne_zero (Nat.sub_ne_zero_of_lt hnum) with ⟨left, hleft⟩
      rw [hleft, List.map_cons, List.take_succ_cons]
      unfold RFBClient.packedByte colorsAt
      change (RFBClient.paletteColor colors (Wire.bits byte.toNat shift bits) >>= _) =
        ((RFBClient.paletteColor colors (Wire.bits byte.toNat shift bits) >>= _) >>= _)
      cases RFBClient.paletteColor colors (Wire.bits byte.toNat shift bits) with
      | error exc => rfl
      | ok color =>
          by_cases hlast : num + 1 = pixels
          -- The last pixel: the fields that are left in the byte are not looked at.
          · have hcast : (num : ℤ) + 1 = pixels := by omega
            have hnone : left = 0 := by omega
            subst hnone
            change (if (num : ℤ) + 1 = pixels then _ else _) = _
            rw [if_pos hcast, List.take_zero]
            change Except.ok ((num : ℤ) + 1, data ++ color, true) =
              Except.ok (((num + min (shifts.length + 1) 1 : ℕ) : ℤ), data ++ (color ++ []),
                decide (1 ≤ shifts.length + 1))
            rw [Nat.min_eq_right (Nat.succ_le_succ (Nat.zero_le _)), List.append_nil,
              decide_eq_true (Nat.succ_le_succ (Nat.zero_le _))]
            rfl
          -- Another pixel is read from the same byte.
          · have hcast : ¬ (num : ℤ) + 1 = pixels := by omega
            have hleft' : pixels - (num + 1) = left := by omega
            have hrest := @ih (num + 1) (by omega) (data ++ color)
            rw [hleft'] at hrest
            change (if (num : ℤ) + 1 = pixels then _ else
              RFBClient.packedByte colors bits pixels byte shifts ((num + 1 : ℕ) : ℤ)
                (data ++ color)) = _
            rw [if_neg hcast, hrest]
            cases colorsAt colors
                ((shifts.map fun shift => Wire.bits byte.toNat shift bits).take left) with
            | error exc => rfl
            | ok data' =>
                change Except.ok (((num + 1 + min shifts.length left : ℕ) : ℤ),
                    data ++ color ++ data', decide (left ≤ shifts.length)) =
                  Except.ok (((num + min (shifts.length + 1) (left + 1) : ℕ) : ℤ),
                    data ++ (color ++ data'), decide (left + 1 ≤ shifts.length + 1))
                rw [List.append_assoc, Nat.add_min_add_right, Nat.add_right_comm num 1,
                  Nat.add_assoc num]
                congr 3
                exact decide_eq_decide.2 Nat.succ_le_succ_iff.symm

/-- The fields of a byte that places were packed into. -/
theorem fields_packed {bits perByte : ℕ} (hbits : bits * perByte = 8) {fields : List ℕ}
    (hlength : fields.length = perByte) (hfields : ∀ field ∈ fields, field < 2 ^ bits) :
    (((List.range (8 / bits)).map fun i => 8 - bits - i * bits).map fun shift =>
      Wire.bits (UInt8.ofNat (joinFields bits fields)).toNat shift bits) = fields := by
  have hbound : joinFields bits fields < 256 := by
    have hlt := joinFields_lt hfields
    rw [hlength, hbits] at hlt
    exact hlt
  have hnat : (UInt8.ofNat (joinFields bits fields)).toNat = joinFields bits fields := by
    rw [UInt8.toNat_ofNat']
    exact Nat.mod_eq_of_lt hbound
  have hpos : 0 < bits := Nat.pos_of_ne_zero fun hzero => by
    rw [hzero, Nat.zero_mul] at hbits
    cases hbits
  have hcount : 8 / bits = perByte := by
    rw [← hbits, Nat.mul_div_cancel_left _ hpos]
  rw [hnat, hcount, List.map_map]
  refine List.ext_getElem (by rw [List.length_map, List.length_range, hlength]) fun i hi hi' => ?_
  have hplace : 8 - bits - i * bits = bits * (fields.length - 1 - i) := by
    rw [hlength, Nat.mul_sub, Nat.mul_sub, hbits, Nat.mul_one, Nat.mul_comm i]
  rw [List.getElem_map, List.getElem_range]
  change Wire.bits (joinFields bits fields) (8 - bits - i * bits) bits = _
  rw [hplace]
  exact bits_joinFields hfields hi'

/-- Bytes of places, each of `bits` bits. -/
theorem packedPixels_eq {bits perByte : ℕ} (hbits : bits * perByte = 8) {pixels : ℕ} (n : ℕ)
    {slots : List ℕ} (hlength : slots.length = n * perByte) (hslots : ∀ slot ∈ slots, slot < 2 ^ bits)
    {num : ℕ} (hnum : num < pixels) (hleft : pixels - num ≤ slots.length) (data rest : Bytes) :
    RFBClient.packedPixels colors bits pixels num data (packBytes bits perByte n slots ++ rest) = (do
      let data' ← colorsAt colors (slots.take (pixels - num))
      return (data ++ data', (packBytes bits perByte n slots).drop
        ((pixels - num + perByte - 1) / perByte) ++ rest)) := by
  have hpos : 0 < perByte := Nat.pos_of_ne_zero fun hzero => by
    rw [hzero, Nat.mul_zero] at hbits
    cases hbits
  -- By induction on the bytes that are left.
  induction n generalizing slots num data with
  | zero =>
      rw [hlength, Nat.zero_mul] at hleft
      exact absurd hnum (Nat.not_lt.2 (Nat.sub_eq_zero_iff_le.1 (Nat.le_zero.1 hleft)))
  | succ n ih =>
      have htake : (slots.take perByte).length = perByte := by
        rw [List.length_take, hlength, Nat.succ_mul]
        omega
      have hfields := fields_packed hbits htake fun field hfield =>
        hslots field (List.mem_of_mem_take hfield)
      have hshifts : ((List.range (8 / bits)).map fun i => 8 - bits - i * bits).length = perByte := by
        have hmap := congrArg List.length hfields
        rw [List.length_map, htake] at hmap
        exact hmap
      have hbyte := @packedByte_eq colors bits pixels
        (UInt8.ofNat (joinFields bits (slots.take perByte)))
        ((List.range (8 / bits)).map fun i => 8 - bits - i * bits) num hnum data
      rw [hfields, hshifts, List.take_take] at hbyte
      change (RFBClient.packedByte colors bits pixels _ _ num data >>= _) = _
      rw [hbyte]
      by_cases hlast : pixels - num ≤ perByte
      · have hone : (pixels - num + perByte - 1) / perByte = 1 := by
          refine (Nat.div_eq_iff hpos).2 ?_
          omega
        rw [Nat.min_eq_left hlast, decide_eq_true hlast, hone]
        cases colorsAt colors (slots.take (pixels - num)) with
        | error exc => rfl
        | ok data' => rfl
      · have hmore : ¬ pixels - num ≤ perByte := hlast
        have hlength' : (slots.drop perByte).length = n * perByte := by
          rw [List.length_drop, hlength, Nat.succ_mul, Nat.add_sub_cancel]
        have hrest := @ih (slots.drop perByte) hlength'
          (fun slot hslot => hslots slot (List.mem_of_mem_drop hslot)) (num + perByte) (by omega)
          (by rw [List.length_drop]; omega)
        have hround : (pixels - num + perByte - 1) / perByte =
            (pixels - (num + perByte) + perByte - 1) / perByte + 1 := by
          rw [← Nat.add_div_right _ hpos]
          congr 1
          omega
        have hsplit : slots.take (pixels - num) =
            slots.take perByte ++ (slots.drop perByte).take (pixels - (num + perByte)) := by
          rw [Nat.sub_add_eq, ← List.take_add]
          congr 1
          omega
        rw [Nat.min_eq_right (Nat.le_of_not_le hmore), decide_eq_false hmore, hround, hsplit,
          colorsAt_append, Nat.min_eq_left (Nat.le_of_not_le hmore)]
        cases colorsAt colors (slots.take perByte) with
        | error exc => rfl
        | ok data' =>
            change RFBClient.packedPixels colors bits pixels ((num + perByte : ℕ) : ℤ) (data ++ data')
              (packBytes bits perByte n (slots.drop perByte) ++ rest) = _
            rw [hrest]
            cases colorsAt colors ((slots.drop perByte).take (pixels - (num + perByte))) with
            | error exc => rfl
            | ok data'' =>
                change Except.ok (data ++ data' ++ data'', _) = Except.ok (data ++ (data' ++ data''), _)
                rw [List.append_assoc]
                rfl

end Generators

/-! ## A tile -/

theorem packBytes_succ (bits perByte n : ℕ) (slots : List ℕ) :
    packBytes bits perByte (n + 1) slots =
      UInt8.ofNat (joinFields bits (slots.take perByte)) ::
        packBytes bits perByte n (slots.drop perByte) := rfl

theorem packBytes_append {bits perByte : ℕ} (m n : ℕ) {slots slots' : List ℕ}
    (hlength : slots.length = m * perByte) :
    packBytes bits perByte (m + n) (slots ++ slots') =
      packBytes bits perByte m slots ++ packBytes bits perByte n slots' := by
  induction m generalizing slots with
  | zero =>
      rw [Nat.zero_mul] at hlength
      rw [List.eq_nil_of_length_eq_zero hlength, Nat.zero_add]
      rfl
  | succ m ih =>
      have hle : perByte ≤ slots.length := by
        rw [hlength, Nat.succ_mul]
        exact Nat.le_add_left _ _
      have hrest := ih (by rw [List.length_drop, hlength, Nat.succ_mul, Nat.add_sub_cancel] :
        (slots.drop perByte).length = m * perByte)
      rw [Nat.succ_add, packBytes_succ, packBytes_succ, List.take_append_of_le_length hle,
        List.drop_append_of_le_length hle, hrest]
      rfl

@[simp] theorem length_packBytes (bits perByte n : ℕ) (slots : List ℕ) :
    (packBytes bits perByte n slots).length = n := by
  induction n generalizing slots with
  | zero => rfl
  | succ n ih => exact congrArg (· + 1) (ih _)

section Tile

variable {s : PackedSize}

theorem PackedRow.length_slots (row : PackedRow s) : row.slots.length = s.rowBytes * s.perByte := by
  unfold slots
  rw [List.length_append, List.length_map, List.length_map, row.length_indices, row.length_padding,
    s.rowBytes_mul]

theorem PackedRow.slots_lt (row : PackedRow s) : ∀ slot ∈ row.slots, slot < 2 ^ s.bits := by
  intro slot hslot
  rcases List.mem_append.1 hslot with hindex | hpadding
  · rcases List.mem_map.1 hindex with ⟨index, _, rfl⟩
    exact index.isLt.trans_le s.colors_le
  · rcases List.mem_map.1 hpadding with ⟨pad, _, rfl⟩
    exact pad.isLt

/-- Rows of whole bytes, one after the other. -/
theorem packBytes_rows (rows : List (PackedRow s)) :
    (rows.flatMap PackedRow.slots).length = rows.length * s.rowBytes * s.perByte ∧
      (rows.flatMap fun row => packBytes s.bits s.perByte s.rowBytes row.slots) =
        packBytes s.bits s.perByte (rows.length * s.rowBytes) (rows.flatMap PackedRow.slots) := by
  induction rows with
  | nil =>
      rw [List.length_nil, Nat.zero_mul, Nat.zero_mul]
      exact ⟨rfl, rfl⟩
  | cons row rows ih =>
      rcases ih with ⟨hlength, hbytes⟩
      rw [List.flatMap_cons, List.flatMap_cons, List.length_append, hlength, row.length_slots, hbytes,
        List.length_cons, Nat.succ_mul, Nat.add_comm _ s.rowBytes, Nat.add_mul]
      exact ⟨rfl, (packBytes_append _ _ row.length_slots).symm⟩

namespace PackedTile

variable (tile : PackedTile s)

theorem length_slots : tile.slots.length = s.height * s.rowBytes * s.perByte := by
  rw [← tile.length_rows]
  exact (packBytes_rows tile.rows).1

theorem slots_lt : ∀ slot ∈ tile.slots, slot < 2 ^ s.bits := by
  intro slot hslot
  rcases List.mem_flatMap.1 hslot with ⟨row, _, hslot⟩
  exact row.slots_lt slot hslot

theorem body_eq : tile.body = tile.palette.flatMap Subtype.val ++
    packBytes s.bits s.perByte (s.height * s.rowBytes) tile.slots := by
  unfold body
  rw [(packBytes_rows tile.rows).2, tile.length_rows]
  rfl

/-- There are at least as many places as pixels. -/
theorem size_le_slots : s.width * s.height ≤ tile.slots.length := by
  rw [tile.length_slots, Nat.mul_assoc, s.rowBytes_mul, Nat.mul_comm s.width, Nat.mul_add]
  exact Nat.le_add_right _ _

/-- What the client reads of a tile: its places from the first one on, as many as it has pixels. -/
theorem zrleTile_eq_colorsAt (rest : Bytes) :
    RFBClient.zrleTile tile.subencoding s.width s.height (tile.body ++ rest) = (do
      let data ← colorsAt (tile.palette.map CPixel.pixel) (tile.slots.take (s.width * s.height))
      return (.pixels data, (packBytes s.bits s.perByte (s.height * s.rowBytes) tile.slots).drop
        ((s.width * s.height + s.perByte - 1) / s.perByte) ++ rest)) := by
  have htwo := s.two_le
  have hmax := s.le_sixteen
  have hnat : (UInt8.ofNat s.colors).toNat = s.colors := by
    rw [UInt8.toNat_ofNat']
    omega
  have hmod : s.colors % 128 = s.colors := Nat.mod_eq_of_lt (by omega)
  have hcast : (s.width : ℤ) * s.height = (s.width * s.height : ℕ) := (Nat.cast_mul _ _).symm
  have hpalette := palette_eq cpixel_eq tile.palette
    (packBytes s.bits s.perByte (s.height * s.rowBytes) tile.slots ++ rest)
  rw [tile.length_palette] at hpalette
  have hpacked := @packedPixels_eq (tile.palette.map CPixel.pixel) s.bits s.perByte s.bits_mul_perByte
    (s.width * s.height) (s.height * s.rowBytes) tile.slots tile.length_slots tile.slots_lt 0
    (Nat.mul_pos s.width_pos s.height_pos) tile.size_le_slots [] rest
  rw [tile.body_eq, List.append_assoc]
  unfold subencoding RFBClient.zrleTile
  dsimp only
  rw [hnat, hmod, if_neg (by omega), if_neg (by omega), if_neg (by omega), if_neg (by omega),
    hpalette, hcast]
  change (RFBClient.packedPixels (tile.palette.map CPixel.pixel) s.bits (s.width * s.height : ℕ)
    ((0 : ℕ) : ℤ) [] _ >>= _) = _
  rw [hpacked]
  cases colorsAt (tile.palette.map CPixel.pixel) (tile.slots.take (s.width * s.height)) with
  | error exc => rfl
  | ok data => rfl

theorem length_pixels : tile.pixels.length = s.width * s.height := by
  have hrows (rows : List (PackedRow s)) :
      (rows.flatMap fun row => row.indices.map tile.color).length = rows.length * s.width := by
    induction rows with
    | nil => exact (Nat.zero_mul _).symm
    | cons row rows ih =>
        rw [List.flatMap_cons, List.length_append, List.length_map, row.length_indices, ih,
          List.length_cons, Nat.succ_mul, Nat.add_comm]
  rw [Nat.mul_comm, ← tile.length_rows]
  exact hrows tile.rows

end PackedTile

theorem CPixel.pixel_injective : Function.Injective CPixel.pixel := fun _ _ h =>
  Subtype.ext (List.append_cancel_right h)

/-- Indices show pixels if each of them is the index of its pixel's colour. -/
theorem colorsAt_eq_ok_iff (palette : List CPixel) {indices : List ℕ} {pixels : List CPixel}
    (hlength : indices.length = pixels.length) :
    colorsAt (palette.map CPixel.pixel) indices = .ok (pixels.flatMap CPixel.pixel) ↔
      indices.map (fun i => palette[i]?) = pixels.map some := by
  induction indices generalizing pixels with
  | nil =>
      rw [List.eq_nil_of_length_eq_zero hlength.symm]
      exact ⟨fun _ => rfl, fun _ => rfl⟩
  | cons index indices ih =>
      cases pixels with
      | nil => cases hlength
      | cons pixel pixels =>
          have hrest := ih (Nat.succ.inj hlength)
          rw [colorsAt_cons, List.map_cons, List.map_cons, List.cons.injEq, ← hrest,
            List.flatMap_cons]
          unfold RFBClient.paletteColor
          rw [List.getElem?_map]
          cases palette[index]? with
          | none =>
              refine ⟨fun h => ?_, fun h => ?_⟩
              · cases h
              · cases h.1
          | some color =>
              change (colorsAt (palette.map CPixel.pixel) indices >>= fun data =>
                Except.ok (color.pixel ++ data)) = _ ↔ _
              cases colorsAt (palette.map CPixel.pixel) indices with
              | error exc =>
                  refine ⟨fun h => ?_, fun h => ?_⟩
                  · cases h
                  · cases h.2
              | ok data =>
                  change Except.ok (color.pixel ++ data) =
                    Except.ok (pixel.pixel ++ pixels.flatMap CPixel.pixel) ↔ _
                  rw [Except.ok.injEq, Except.ok.injEq, Option.some.injEq]
                  constructor
                  · intro h
                    have hsplit := List.append_inj h
                      ((length_pixel color).trans (length_pixel pixel).symm)
                    exact ⟨CPixel.pixel_injective hsplit.1, hsplit.2⟩
                  · rintro ⟨rfl, rfl⟩
                    rfl

/-- All bytes are read if what the rows are padded with is less than a byte in all. -/
theorem PackedSize.read_all_iff (s : PackedSize) :
    s.height * s.rowBytes ≤ (s.width * s.height + s.perByte - 1) / s.perByte ↔
      s.padding * s.height < s.perByte := by
  have hpos := s.perByte_pos
  have hslots : s.height * s.rowBytes * s.perByte =
      s.width * s.height + s.padding * s.height := by
    rw [Nat.mul_assoc, s.rowBytes_mul, Nat.mul_add, Nat.mul_comm, Nat.mul_comm s.height s.padding]
  rw [Nat.le_div_iff_mul_le hpos, hslots]
  omega

namespace PackedTile

variable (tile : PackedTile s)

theorem decodedExactly_iff :
    tile.DecodedExactly ↔ s.padding * s.height < s.perByte ∧ tile.ShownUnpadded := by
  have htake : (tile.slots.take (s.width * s.height)).length = tile.pixels.length := by
    rw [tile.length_pixels, List.length_take]
    exact Nat.min_eq_left tile.size_le_slots
  have hshown := colorsAt_eq_ok_iff tile.palette htake
  have hread := s.read_all_iff
  unfold DecodedExactly ShownUnpadded
  rw [← hshown, ← hread]
  constructor
  · intro h
    have hnil := h []
    rw [tile.zrleTile_eq_colorsAt] at hnil
    cases hcolors : colorsAt (tile.palette.map CPixel.pixel)
        (tile.slots.take (s.width * s.height)) with
    | error exc =>
        rw [hcolors] at hnil
        cases hnil
    | ok data =>
        rw [hcolors] at hnil
        rcases Prod.mk.inj (Except.ok.inj hnil) with ⟨hdata, hdrop⟩
        refine ⟨?_, congrArg Except.ok (RFBClient.ZrleTile.pixels.inj hdata)⟩
        rw [List.append_nil, List.drop_eq_nil_iff, length_packBytes] at hdrop
        exact hdrop
  · rintro ⟨hall, hcolors⟩ rest
    rw [tile.zrleTile_eq_colorsAt, hcolors, List.drop_eq_nil_of_le (by
      rw [length_packBytes]
      exact hall)]
    rfl

/-- Where there is no padding between pixels, the places are those of the pixels. -/
theorem shownUnpadded_of_whole (h : s.padding = 0 ∨ s.height = 1) : tile.ShownUnpadded := by
  have hcolors (indices : List (Fin s.colors)) :
      (indices.map Fin.val).map (fun i => tile.palette[i]?) = (indices.map tile.color).map some := by
    rw [List.map_map, List.map_map]
    refine List.map_congr_left fun index _ => ?_
    have hindex : index.val < tile.palette.length := by
      rw [tile.length_palette]
      exact index.isLt
    exact List.getElem?_eq_getElem hindex
  unfold ShownUnpadded
  rcases h with hzero | hone
  · have hrow (row : PackedRow s) : row.slots = row.indices.map Fin.val := by
      have hnil := List.eq_nil_of_length_eq_zero (row.length_padding.trans hzero)
      unfold PackedRow.slots
      rw [hnil, List.map_nil, List.append_nil]
    have hall : tile.slots.take (s.width * s.height) = tile.slots := by
      refine List.take_of_length_le ?_
      rw [tile.length_slots, Nat.mul_assoc, s.rowBytes_mul, hzero, Nat.add_zero, Nat.mul_comm]
    rw [hall]
    unfold slots pixels
    rw [List.map_flatMap, List.map_flatMap]
    refine congrArg (tile.rows.flatMap ·) (funext fun row => ?_)
    rw [hrow]
    exact hcolors row.indices
  · rcases List.length_eq_one_iff.1 (tile.length_rows.trans hone) with ⟨row, hrow⟩
    unfold slots pixels
    rw [hrow, List.flatMap_singleton, List.flatMap_singleton, hone, Nat.mul_one]
    unfold PackedRow.slots
    rw [List.take_left' (by rw [List.length_map, row.length_indices])]
    exact hcolors row.indices

end PackedTile

/-! ## Tiles that are not read as they were packed -/

/-- A palette of colours that differ. -/
def gradient (colors : ℕ) : List CPixel :=
  (List.range colors).map fun i => ⟨[UInt8.ofNat i, 0, 0], rfl⟩

/-- A row in one colour, padded with zeros. -/
def plainRow (s : PackedSize) (index : Fin s.colors) : PackedRow s where
  indices := List.replicate s.width index
  padding := List.replicate s.padding ⟨0, Nat.two_pow_pos _⟩
  length_indices := List.length_replicate
  length_padding := List.length_replicate

/-- A row in the first colour, and the others in the second. -/
def stripe (s : PackedSize) : PackedTile s where
  palette := gradient s.colors
  rows := plainRow s ⟨0, Nat.zero_lt_of_lt s.two_le⟩ ::
    List.replicate (s.height - 1) (plainRow s ⟨1, s.two_le⟩)
  length_palette := by
    unfold gradient
    rw [List.length_map, List.length_range]
  length_rows := by
    rw [List.length_cons, List.length_replicate]
    exact Nat.sub_add_cancel s.height_pos

theorem getElem?_gradient {colors i : ℕ} (hi : i < colors) :
    (gradient colors)[i]? = some ⟨[UInt8.ofNat i, 0, 0], rfl⟩ := by
  unfold gradient
  rw [List.getElem?_map, List.getElem?_range hi]
  rfl

/-- With padding between two rows the first pixel of the second row is shown in the colour of the
padding. -/
theorem not_shownUnpadded_stripe (hpadding : s.padding ≠ 0) (hheight : s.height ≠ 1) :
    ¬ (stripe s).ShownUnpadded := by
  intro h
  have hpos := s.height_pos
  have htwo := s.two_le
  rcases Nat.exists_eq_succ_of_ne_zero (by omega : s.height - 1 ≠ 0) with ⟨more, hmore⟩
  have hwidth := s.width_pos
  have hinside : s.width < s.width * s.height := by
    calc
      s.width < s.width * 2 := by omega
      _ ≤ s.width * s.height := Nat.mul_le_mul_left _ (by omega)
  have hslot : (stripe s).slots[s.width]? = some 0 := by
    have hfirst : (plainRow s ⟨0, Nat.zero_lt_of_lt s.two_le⟩).slots[s.width]? = some 0 := by
      change (((List.replicate s.width _).map Fin.val ++ (List.replicate s.padding _).map Fin.val :
        List ℕ))[s.width]? = some 0
      rw [List.map_replicate, List.map_replicate,
        List.getElem?_append_right (by rw [List.length_replicate]), List.length_replicate,
        Nat.sub_self, List.getElem?_replicate_of_lt (Nat.pos_of_ne_zero hpadding)]
    change ((plainRow s ⟨0, Nat.zero_lt_of_lt s.two_le⟩).slots ++ _ : List ℕ)[s.width]? = _
    rw [List.getElem?_append_left (List.getElem?_eq_some_iff.1 hfirst).1, hfirst]
  have hpixel : (stripe s).pixels[s.width]? = some ⟨[1, 0, 0], rfl⟩ := by
    have hcolor : (stripe s).color ⟨1, s.two_le⟩ = ⟨[1, 0, 0], rfl⟩ := by
      have hget := @getElem?_gradient s.colors 1 s.two_le
      exact (List.getElem?_eq_some_iff.1 hget).2
    unfold PackedTile.pixels
    change ((List.replicate s.width _).map (stripe s).color ++
      (List.replicate (s.height - 1) (plainRow s ⟨1, s.two_le⟩)).flatMap
        (fun row => row.indices.map (stripe s).color) : List CPixel)[s.width]? = _
    rw [List.map_replicate, List.getElem?_append_right (by rw [List.length_replicate]),
      List.length_replicate, Nat.sub_self, hmore, List.replicate_succ, List.flatMap_cons]
    change ((List.replicate s.width _).map (stripe s).color ++ _ : List CPixel)[0]? = _
    rw [List.map_replicate, List.getElem?_append_left (by rw [List.length_replicate]; exact hwidth),
      List.getElem?_replicate_of_lt hwidth, hcolor]
  have hplace := congrArg (fun colors : List (Option CPixel) => colors[s.width]?) h
  rw [List.getElem?_map, List.getElem?_take_of_lt hinside, hslot, List.getElem?_map, hpixel] at hplace
  have hcolor : (stripe s).palette[0]? = some ⟨[0, 0, 0], rfl⟩ :=
    getElem?_gradient (Nat.zero_lt_of_lt htwo)
  change some (stripe s).palette[0]? = _ at hplace
  rw [hcolor] at hplace
  cases hplace

end Tile

/-- A packed tile is read as it was packed if and only if every row fills whole bytes, or there is but
one row, or the padding of all rows is less than a byte and happens to show the colours of the pixels
behind it; and all tiles of a size are read so if and only if every row fills whole bytes or there is
but one. -/
theorem decodedExactly_packed_iff (s : PackedSize) :
    (∀ tile : PackedTile s, tile.DecodedExactly ↔
      s.padding = 0 ∨ s.height = 1 ∨
        (s.padding * s.height < s.perByte ∧ tile.ShownUnpadded)) ∧
    ((∀ tile : PackedTile s, tile.DecodedExactly) ↔ s.padding = 0 ∨ s.height = 1) := by
  have hwhole (h : s.padding = 0 ∨ s.height = 1) : s.padding * s.height < s.perByte := by
    rcases h with hzero | hone
    · rw [hzero, Nat.zero_mul]
      exact s.perByte_pos
    · rw [hone, Nat.mul_one]
      exact s.padding_lt
  have hexact (tile : PackedTile s) (h : s.padding = 0 ∨ s.height = 1) : tile.DecodedExactly :=
    tile.decodedExactly_iff.2 ⟨hwhole h, tile.shownUnpadded_of_whole h⟩
  refine ⟨fun tile => ⟨fun h => ?_, fun h => ?_⟩, fun h => ?_, fun h tile => hexact tile h⟩
  · exact .inr (.inr (tile.decodedExactly_iff.1 h))
  · rcases h with hzero | hone | hshown
    · exact hexact tile (.inl hzero)
    · exact hexact tile (.inr hone)
    · exact tile.decodedExactly_iff.2 hshown
  · by_contra hneither
    rcases not_or.1 hneither with ⟨hpadding, hheight⟩
    exact not_shownUnpadded_stripe hpadding hheight ((stripe s).decodedExactly_iff.1 (h _)).2

/-- A pixel above another one, in two colours. -/
theorem not_decodedExactly_column :
    ¬ (stripe ⟨1, 2, 2, by decide, by decide, by decide, by decide⟩).DecodedExactly := by
  intro h
  have hrun := h []
  have hblack : RFBClient.zrleTile 2 1 2 [0, 0, 0, 1, 0, 0, 0, 128] =
      .ok (.pixels [0, 0, 0, 255, 0, 0, 0, 255], [128]) := by
    decide +kernel
  have hleft := Except.ok.inj (hblack.symm.trans hrun)
  cases congrArg Prod.snd hleft

end Zrle

end Vncdotool
