import Vncdotool.RFB.HextileDecoding

/-!
# Zrle — what a ZRLE rectangle denotes, and how its tiles are read

A rectangle is a list of tiles of sixty-four by sixty-four pixels: raw, in one colour, or cut into
runs, with a palette or without.  The loop shares one iterator with the readers of pixels, palettes
and run lengths; each of them takes the bytes that were written for it and leaves those behind them
(`zrleTile_eq`).
-/

namespace Vncdotool

open Wire Raster

namespace Zrle

/-! ## Tiles -/

/-- A tile's encoding, a pixel standing for an `α`.  A run is one pixel longer than its number, and an
entry of the palette without a number stands for itself. -/
inductive Tile (α : Type)
  | raw (pixels : List α)
  | solid (color : α)
  | rle (runs : List (α × ℕ))
  | paletteRle (palette : List α) (items : List (Fin palette.length × Option ℕ))

variable {α : Type}

/-- The pixels of a tile with this many of them, row by row. -/
def Tile.pixels (size : ℕ) : Tile α → List α
  | raw pixels => pixels
  | solid color => List.replicate size color
  | rle runs => runs.flatMap fun run => List.replicate (run.2 + 1) run.1
  | paletteRle palette items =>
      items.flatMap fun item => List.replicate (item.2.getD 0 + 1) (palette.get item.1)

/-- The palettes that there are subencodings for. -/
def Tile.Allowed : Tile α → Prop
  | paletteRle palette _ => 2 ≤ palette.length ∧ palette.length ≤ 127
  | _ => True

/-- A tile with this many pixels is encoded as the specification allows. -/
structure Tile.Valid (size : ℕ) (tile : Tile α) : Prop where
  allowed : tile.Allowed
  length : (tile.pixels size).length = size

/-! ## Bytes -/

/-- The bytes of a run length, less one: their sum, the last one alone not being 255. -/
def lengthBytes (n : ℕ) : Bytes :=
  List.replicate (n / 255) 255 ++ [UInt8.ofNat (n % 255)]

def Tile.subencoding : Tile α → UInt8
  | raw _ => 0
  | solid _ => 1
  | rle _ => 128
  | paletteRle palette _ => UInt8.ofNat (128 + palette.length)

def itemBytes {n : ℕ} (item : Fin n × Option ℕ) : Bytes :=
  match item.2 with
  | none => [UInt8.ofNat item.1]
  | some run => UInt8.ofNat (128 + item.1) :: lengthBytes run

/-- What follows the subencoding. -/
def Tile.body (cpixel : α → Bytes) : Tile α → Bytes
  | raw pixels => pixels.flatMap cpixel
  | solid color => cpixel color
  | rle runs => runs.flatMap fun run => cpixel run.1 ++ lengthBytes run.2
  | paletteRle palette items => palette.flatMap cpixel ++ items.flatMap itemBytes

def Tile.encode (cpixel : α → Bytes) (tile : Tile α) : Bytes :=
  tile.subencoding :: tile.body cpixel

/-- What the client makes of a tile, whose pixels become these. -/
def Tile.decoded (pixel : α → Bytes) (size : ℕ) (tile : Tile α) : RFBClient.ZrleTile :=
  match tile with
  | solid color => .solid (pixel color)
  | _ => .pixels ((tile.pixels size).flatMap pixel)

/-! ## Readers -/

/-- A run length ends at the first byte that is not 255. -/
theorem runLength_replicate (k : ℕ) {m : ℕ} (hm : m < 255) (rest : Bytes) :
    RFBClient.runLength (List.replicate k 255 ++ [UInt8.ofNat m] ++ rest) =
      .ok (255 * k + m, rest) := by
  have hnat : (UInt8.ofNat m).toNat = m := by
    rw [UInt8.toNat_ofNat']
    exact Nat.mod_eq_of_lt (hm.trans (by decide))
  induction k with
  | zero =>
      have hlast : UInt8.ofNat m ≠ 255 := fun h => by
        have hbyte := congrArg UInt8.toNat h
        rw [hnat] at hbyte
        exact absurd hbyte (Nat.ne_of_lt hm)
      change RFBClient.runLength (UInt8.ofNat m :: rest) = _
      unfold RFBClient.runLength
      rw [if_neg hlast, hnat, Nat.mul_zero, Nat.zero_add]
      rfl
  | succ k ih =>
      change RFBClient.runLength (255 :: (List.replicate k 255 ++ [UInt8.ofNat m] ++ rest)) = _
      unfold RFBClient.runLength
      rw [if_pos rfl, ih]
      change Except.ok (255 + (255 * k + m), rest) = _
      rw [Nat.mul_succ]
      congr 2
      omega

theorem runLength_lengthBytes (n : ℕ) (rest : Bytes) :
    RFBClient.runLength (lengthBytes n ++ rest) = .ok (n, rest) := by
  have hmod : n % 255 < 255 := Nat.mod_lt n (by decide)
  refine (runLength_replicate (n / 255) hmod rest).trans ?_
  rw [Nat.div_add_mod]

/-- A run of a pixel. -/
theorem doRle_lengthBytes (pixel : Bytes) (n : ℕ) (rest : Bytes) :
    RFBClient.doRle pixel (lengthBytes n ++ rest) =
      .ok ((List.replicate (n + 1) pixel).flatten, n + 1, rest) := by
  unfold RFBClient.doRle
  rw [runLength_lengthBytes]
  rfl

theorem flatMap_replicate (pixel : α → Bytes) (n : ℕ) (a : α) :
    (List.replicate n a).flatMap pixel = (List.replicate n (pixel a)).flatten := by
  rw [List.flatMap_def, List.map_replicate]

theorem lengthBytes_pos (n : ℕ) : 0 < (lengthBytes n).length := by
  unfold lengthBytes
  rw [List.length_append, List.length_singleton]
  exact Nat.succ_pos _

theorem length_le_flatMap (bytes : α → Bytes) (hpos : ∀ a, 0 < (bytes a).length) (l : List α) :
    l.length ≤ (l.flatMap bytes).length := by
  induction l with
  | nil => exact Nat.le_refl 0
  | cons a l ih =>
      rw [List.flatMap_cons, List.length_append, List.length_cons, Nat.add_comm]
      exact Nat.add_le_add (hpos a) ih

theorem itemBytes_pos {n : ℕ} (item : Fin n × Option ℕ) : 0 < (itemBytes item).length := by
  rcases item with ⟨index, _ | run⟩
  · exact Nat.one_pos
  · exact Nat.succ_pos _

/-- One turn of the loop over a tile's palette indices. -/
theorem paletteRle_turn {colors : List Bytes} {pixels num : ℤ} {fuel : ℕ} {data it it' : Bytes}
    {byte : UInt8} {color run : Bytes} {n : ℕ} (hlt : num < pixels)
    (hcolor : RFBClient.paletteColor colors (byte.toNat % 128) = .ok color)
    (hrun : (if 128 ≤ byte.toNat then RFBClient.doRle color it else pure (color, 1, it)) =
      .ok (run, n, it')) :
    RFBClient.paletteRle colors pixels (fuel + 1) num data (byte :: it) =
      RFBClient.paletteRle colors pixels fuel (num + n) (data ++ run) it' := by
  conv_lhs => unfold RFBClient.paletteRle
  rw [if_pos hlt]
  change (RFBClient.paletteColor colors (byte.toNat % 128) >>= _) = _
  rw [hcolor]
  change (if 128 ≤ byte.toNat then (RFBClient.doRle color it >>= _) else _) = _
  by_cases hlong : 128 ≤ byte.toNat
  · rw [if_pos hlong] at hrun
    rw [if_pos hlong, hrun]
    rfl
  · rw [if_neg hlong] at hrun
    cases hrun
    rw [if_neg hlong]
    rfl

theorem paletteColor_get (pixel : α → Bytes) {palette : List α} (index : Fin palette.length) :
    RFBClient.paletteColor (palette.map pixel) index = .ok (pixel (palette.get index)) := by
  unfold RFBClient.paletteColor
  rw [List.getElem?_map, List.getElem?_eq_getElem index.isLt]
  rfl

/-- An index alone, or with the length of its run. -/
theorem paletteRle_item (pixel : α → Bytes) {palette : List α} (hpalette : palette.length ≤ 127)
    (item : Fin palette.length × Option ℕ) {pixels num : ℤ} (hlt : num < pixels) (fuel : ℕ)
    (data rest : Bytes) :
    RFBClient.paletteRle (palette.map pixel) pixels (fuel + 1) num data (itemBytes item ++ rest) =
      RFBClient.paletteRle (palette.map pixel) pixels fuel (num + (item.2.getD 0 + 1 : ℕ))
        (data ++ (List.replicate (item.2.getD 0 + 1) (pixel (palette.get item.1))).flatten) rest := by
  rcases item with ⟨index, _ | run⟩
  · have hindex := index.isLt
    have hnat : (UInt8.ofNat index).toNat = index := by
      rw [UInt8.toNat_ofNat']
      omega
    have hmod : (UInt8.ofNat index).toNat % 128 = index := by omega
    have hshort : ¬ 128 ≤ (UInt8.ofNat index).toNat := by omega
    have hone : (List.replicate 1 (pixel (palette.get index))).flatten = pixel (palette.get index) :=
      List.append_nil _
    refine paletteRle_turn hlt (hmod ▸ paletteColor_get pixel index) ?_
    rw [if_neg hshort]
    exact congrArg (fun run => Except.ok (run, 1, rest)) hone.symm
  · have hindex := index.isLt
    have hnat : (UInt8.ofNat (128 + index)).toNat = 128 + index := by
      rw [UInt8.toNat_ofNat']
      omega
    have hmod : (UInt8.ofNat (128 + index)).toNat % 128 = index := by omega
    have hlong : 128 ≤ (UInt8.ofNat (128 + index)).toNat := by omega
    refine paletteRle_turn hlt (hmod ▸ paletteColor_get pixel index) ?_
    rw [if_pos hlong]
    exact doRle_lengthBytes _ run rest

/-- By induction on the items that are left. -/
theorem paletteRle_eq (pixel : α → Bytes) {palette : List α} (hpalette : palette.length ≤ 127)
    (items : List (Fin palette.length × Option ℕ)) {size fuel : ℕ} (hfuel : items.length ≤ fuel)
    (num : ℕ) (hsize : num + (items.flatMap fun item =>
      List.replicate (item.2.getD 0 + 1) (palette.get item.1)).length = size) (data rest : Bytes) :
    RFBClient.paletteRle (palette.map pixel) size fuel num data
        (items.flatMap itemBytes ++ rest) =
      .ok (size, data ++ (items.flatMap fun item =>
        List.replicate (item.2.getD 0 + 1) (palette.get item.1)).flatMap pixel, rest) := by
  induction items generalizing fuel num data with
  | nil =>
      have hnum : num = size := hsize
      unfold RFBClient.paletteRle
      rw [hnum, if_neg (lt_irrefl _)]
      change Except.ok ((size : ℤ), data, rest) = Except.ok ((size : ℤ), data ++ [], rest)
      rw [List.append_nil]
  | cons item items ih =>
      rcases Nat.exists_eq_succ_of_ne_zero (Nat.ne_of_gt (Nat.zero_lt_of_lt hfuel)) with
        ⟨fuel, rfl⟩
      rw [List.flatMap_cons, List.length_append, List.length_replicate] at hsize
      have hlt : (num : ℤ) < size := by omega
      have hrest := ih (Nat.le_of_succ_le_succ hfuel) (num + (item.2.getD 0 + 1)) (by omega)
        (data ++ (List.replicate (item.2.getD 0 + 1) (pixel (palette.get item.1))).flatten)
      rw [List.flatMap_cons, List.append_assoc]
      refine (paletteRle_item pixel hpalette item hlt fuel data _).trans (hrest.trans ?_)
      rw [List.flatMap_cons, List.flatMap_append, flatMap_replicate, List.append_assoc]

section Readers

variable {cpixel pixel : α → Bytes}
  (hread : ∀ a rest, RFBClient.cpixel (cpixel a ++ rest) = .ok (pixel a, rest))

include hread

theorem palette_eq (colors : List α) (rest : Bytes) :
    RFBClient.palette colors.length (colors.flatMap cpixel ++ rest) =
      .ok (colors.map pixel, rest) := by
  induction colors with
  | nil => rfl
  | cons color colors ih =>
      rw [List.flatMap_cons, List.append_assoc, List.length_cons]
      unfold RFBClient.palette
      rw [hread]
      change (do
        let read ← RFBClient.palette colors.length (colors.flatMap cpixel ++ rest)
        return (pixel color :: read.1, read.2) : Except PyError (List Bytes × Bytes)) = _
      rw [ih]
      rfl

theorem rawPixels_eq (pixels : List α) (rest : Bytes) :
    RFBClient.rawPixels pixels.length (pixels.flatMap cpixel ++ rest) =
      .ok (pixels.flatMap pixel, rest) := by
  induction pixels with
  | nil => rfl
  | cons color pixels ih =>
      rw [List.flatMap_cons, List.append_assoc, List.length_cons]
      unfold RFBClient.rawPixels
      rw [hread]
      change (do
        let read ← RFBClient.rawPixels pixels.length (pixels.flatMap cpixel ++ rest)
        return (pixel color ++ read.1, read.2) : Except PyError (Bytes × Bytes)) = _
      rw [ih]
      rfl

/-- By induction on the runs that are left. -/
theorem plainRle_eq (runs : List (α × ℕ)) {size fuel : ℕ} (hfuel : runs.length ≤ fuel) (num : ℕ)
    (hsize : num + (runs.flatMap fun run => List.replicate (run.2 + 1) run.1).length = size)
    (data rest : Bytes) :
    RFBClient.plainRle size fuel num data
        ((runs.flatMap fun run => cpixel run.1 ++ lengthBytes run.2) ++ rest) =
      .ok (size, data ++
        (runs.flatMap fun run => List.replicate (run.2 + 1) run.1).flatMap pixel, rest) := by
  induction runs generalizing fuel num data with
  | nil =>
      have hnum : num = size := hsize
      unfold RFBClient.plainRle
      rw [hnum, if_neg (lt_irrefl _)]
      change Except.ok ((size : ℤ), data, rest) = Except.ok ((size : ℤ), data ++ [], rest)
      rw [List.append_nil]
  | cons run runs ih =>
      rcases Nat.exists_eq_succ_of_ne_zero (Nat.ne_of_gt (Nat.zero_lt_of_lt hfuel)) with
        ⟨fuel, rfl⟩
      rw [List.flatMap_cons, List.length_append, List.length_replicate] at hsize
      have hlt : (num : ℤ) < size := by omega
      have hrest := ih (Nat.le_of_succ_le_succ hfuel) (num + (run.2 + 1)) (by omega)
        (data ++ (List.replicate (run.2 + 1) (pixel run.1)).flatten)
      rw [List.flatMap_cons, List.append_assoc, List.append_assoc]
      unfold RFBClient.plainRle
      rw [if_pos hlt, hread]
      change (do
        let read ← RFBClient.doRle (pixel run.1) (lengthBytes run.2 ++
          ((runs.flatMap fun run => cpixel run.1 ++ lengthBytes run.2) ++ rest))
        RFBClient.plainRle size fuel (num + read.2.1) (data ++ read.1) read.2.2 :
          Except PyError (ℤ × Bytes × Bytes)) = _
      rw [doRle_lengthBytes]
      refine hrest.trans ?_
      rw [List.flatMap_cons, List.flatMap_append, flatMap_replicate, List.append_assoc]

/-- A tile is read from the bytes that encode it, and what is behind them is left. -/
theorem zrleTile_eq {tile : Tile α} {tw th : ℕ} (hvalid : tile.Valid (tw * th)) (rest : Bytes) :
    RFBClient.zrleTile tile.subencoding tw th (tile.body cpixel ++ rest) =
      .ok (tile.decoded pixel (tw * th), rest) := by
  have hcast : (tw : ℤ) * th = (tw * th : ℕ) := (Nat.cast_mul tw th).symm
  rcases hvalid with ⟨hallowed, hlength⟩
  cases tile with
  | raw pixels =>
      have hcount : ((tw : ℤ) * th).toNat = pixels.length := by
        rw [hcast, Int.toNat_natCast]
        exact hlength.symm
      change (do
        let read ← RFBClient.rawPixels ((tw : ℤ) * th).toNat (pixels.flatMap cpixel ++ rest)
        return (.pixels read.1, read.2) : Except PyError (RFBClient.ZrleTile × Bytes)) = _
      rw [hcount, rawPixels_eq hread]
      rfl
  | solid color =>
      change (do
        let read ← RFBClient.cpixel (cpixel color ++ rest)
        return (.solid read.1, read.2) : Except PyError (RFBClient.ZrleTile × Bytes)) = _
      rw [hread]
      rfl
  | rle runs =>
      -- The bytes are fuel enough, since every run takes one of them at least.
      have hfuel := length_le_flatMap (fun run : α × ℕ => cpixel run.1 ++ lengthBytes run.2)
        (fun run => by
          rw [List.length_append]
          exact Nat.add_pos_right _ (lengthBytes_pos run.2)) runs
      have hruns : RFBClient.plainRle ((tw * th : ℕ) : ℤ)
          ((runs.flatMap fun run => cpixel run.1 ++ lengthBytes run.2) ++ rest).length 0 []
          ((runs.flatMap fun run => cpixel run.1 ++ lengthBytes run.2) ++ rest) = _ :=
        plainRle_eq hread runs (hfuel.trans (List.length_append ▸ Nat.le_add_right _ rest.length)) 0
          ((Nat.zero_add _).trans hlength) [] rest
      change RFBClient.zrleTile 128 tw th
        ((runs.flatMap fun run => cpixel run.1 ++ lengthBytes run.2) ++ rest) = _
      unfold RFBClient.zrleTile
      dsimp only
      rw [if_pos (by decide), if_pos (by decide), hcast, hruns]
      change (if ((tw * th : ℕ) : ℤ) ≠ (tw * th : ℕ) then _ else _) = _
      rw [if_neg (not_not.2 rfl)]
      rfl
  | paletteRle palette items =>
      rcases hallowed with ⟨htwo, hmax⟩
      have hfuel := length_le_flatMap itemBytes itemBytes_pos items
      have hitems : RFBClient.paletteRle (palette.map pixel) ((tw * th : ℕ) : ℤ)
          (items.flatMap itemBytes ++ rest).length 0 [] (items.flatMap itemBytes ++ rest) = _ :=
        paletteRle_eq pixel hmax items
          (hfuel.trans (List.length_append ▸ Nat.le_add_right _ rest.length)) 0
          ((Nat.zero_add _).trans hlength) [] rest
      -- The subencoding says how many colours there are.
      have hnat : (UInt8.ofNat (128 + palette.length)).toNat = 128 + palette.length := by
        rw [UInt8.toNat_ofNat']
        omega
      have hmod : (UInt8.ofNat (128 + palette.length)).toNat % 128 = palette.length := by omega
      change RFBClient.zrleTile (UInt8.ofNat (128 + palette.length)) tw th
        (palette.flatMap cpixel ++ items.flatMap itemBytes ++ rest) = _
      unfold RFBClient.zrleTile
      dsimp only
      rw [hmod, hnat, if_pos (Nat.le_add_right _ _), if_neg (by omega), List.append_assoc,
        palette_eq hread, hcast]
      change (RFBClient.paletteRle (palette.map pixel) ((tw * th : ℕ) : ℤ)
        (items.flatMap itemBytes ++ rest).length 0 [] (items.flatMap itemBytes ++ rest) >>= _) = _
      rw [hitems]
      change (if ((tw * th : ℕ) : ℤ) ≠ (tw * th : ℕ) then _ else _) = _
      rw [if_neg (not_not.2 rfl)]
      rfl

end Readers

end Zrle

end Vncdotool
