import Mathlib.Data.List.Basic
import Vncdotool.RFB.Zrle

/-!
# ZrleDecoding — a ZRLE rectangle, tile by tile

The tiles of a rectangle are decoded one after the other, each where it stands, and each with a call
that paints it.  The loop comes to every tile in its turn (`zrleTiles_eq`), and to the end of the data
after the last one.
-/

namespace Vncdotool

open Wire Streaming Raster
open Hextile (fill made drew drew_nil drew_append painted painted_append)

namespace Zrle

variable {α : Type}

/-! ## Calls and images -/

/-- Where the `k`-th tile of a rectangle stands on the screen. -/
def region (rect : Rect) (k : ℕ) : Region :=
  (tileRegion 64 rect.width rect.height k).shift rect.x rect.y

/-- The call that paints a tile at a region. -/
def Tile.call (pixel : α → Bytes) (format : PixelFormat) (r : Region) (tile : Tile α) : Callback :=
  match tile.decoded pixel (r.width * r.height) with
  | .solid color => fill r color
  | .pixels data => .updateRectangle r.x r.y r.width r.height data format

/-- The calls for the tiles from number `k` on. -/
def calls (pixel : α → Bytes) (format : PixelFormat) (rect : Rect) : ℕ → List (Tile α) → List Callback
  | _, [] => []
  | k, tile :: tiles =>
      tile.call pixel format (region rect k) :: calls pixel format rect (k + 1) tiles

/-- The tiles from number `k` on of a rectangle are encoded as the specification allows. -/
def ValidFrom (width height k : ℕ) (tiles : List (Tile α)) : Prop :=
  ∀ i, ∀ tile : Tile α, tiles[i]? = some tile →
    tile.Valid ((tileRegion 64 width height (k + i)).width *
      (tileRegion 64 width height (k + i)).height)

theorem ValidFrom.tail {width height k : ℕ} {tile : Tile α} {tiles : List (Tile α)}
    (h : ValidFrom width height k (tile :: tiles)) : ValidFrom width height (k + 1) tiles :=
  fun i tile' htile' => by
    have hnext := h (i + 1) tile' htile'
    rw [← Nat.add_assoc, Nat.add_right_comm] at hnext
    exact hnext

/-- A rectangle of this size is encoded as the specification allows. -/
structure Valid (width height : ℕ) (tiles : List (Tile α)) : Prop where
  length : tiles.length = tilesAcross 64 width * tilesAcross 64 height
  tile : ValidFrom width height 0 tiles

/-- The pixels of a tile as wide and high as this. -/
def Tile.image (pixel : α → Bytes) (width height : ℕ) (tile : Tile α) : Picture Bytes :=
  fun col row => (((tile.pixels (width * height))[row * width + col]?).map pixel).getD []

/-- The image of the `k`-th tile of a rectangle of this size. -/
def tileImage (pixel : α → Bytes) (width height : ℕ) (tiles : List (Tile α)) (k : ℕ) :
    Picture Bytes :=
  match tiles[k]? with
  | some tile =>
      tile.image pixel (tileRegion 64 width height k).width (tileRegion 64 width height k).height
  | none => fun _ _ => []

/-- The image that a rectangle of this size denotes. -/
def image (pixel : α → Bytes) (width height : ℕ) (tiles : List (Tile α)) : Picture Bytes :=
  assembled 64 width (tileImage pixel width height tiles)

/-! ## The loop over the tiles -/

section Loop

variable {env : Env} {c : RFBClient Unit} {rect : Rect} {k : ℕ}

/-- What is left of a length is the side of the tile there, at its edge. -/
theorem edge_eq (start size i : ℕ) (hi : 64 * i < size) :
    (if (start : ℤ) + size - (start + 64 * i : ℕ) < 64 then (start : ℤ) + size - (start + 64 * i : ℕ)
      else 64) = (min 64 (size - 64 * i) : ℕ) := by
  split_ifs with hedge
  · omega
  · omega

/-- The place of a tile is inside the rectangle. -/
theorem region_inside (hwidth : 0 < rect.width)
    (hk : k < tilesAcross 64 rect.width * tilesAcross 64 rect.height) :
    64 * (k % tilesAcross 64 rect.width) < rect.width ∧
      64 * (k / tilesAcross 64 rect.width) < rect.height := by
  have hacross : 0 < tilesAcross 64 rect.width := tilesAcross_pos (by decide) hwidth
  refine ⟨?_, ?_⟩
  · exact mul_lt_of_lt_tilesAcross (by decide) (Nat.mod_lt k hacross)
  · refine mul_lt_of_lt_tilesAcross (by decide) ((Nat.div_lt_iff_lt_mul hacross).2 ?_)
    rw [Nat.mul_comm]
    exact hk

/-- The tile after the `k`-th one is on its right, or the first one of the next row. -/
theorem region_succ (hwidth : 0 < rect.width) :
    ((region rect (k + 1)).x, (region rect (k + 1)).y) =
      if rect.x + rect.width ≤ (region rect k).x + 64 then (rect.x, (region rect k).y + 64)
      else ((region rect k).x + 64, (region rect k).y) := by
  have hacross : 0 < tilesAcross 64 rect.width := tilesAcross_pos (by decide) hwidth
  have hend : rect.x + rect.width ≤ rect.x + 64 * (k % tilesAcross 64 rect.width) + 64 ↔
      k % tilesAcross 64 rect.width + 1 = tilesAcross 64 rect.width := by
    rw [Nat.add_assoc, Nat.add_le_add_iff_left]
    exact le_mul_add_iff (by decide) (Nat.mod_lt k hacross)
  unfold region tileRegion Region.shift
  dsimp only
  by_cases hlast : k % tilesAcross 64 rect.width + 1 = tilesAcross 64 rect.width
  · rcases succ_of_last hlast with ⟨hmod, hdiv⟩
    rw [if_pos (hend.2 hlast), hmod, hdiv, Nat.mul_succ]
    rfl
  · rcases succ_of_not_last hacross hlast with ⟨hmod, hdiv⟩
    rw [if_neg fun h => hlast (hend.1 h), hmod, hdiv, Nat.mul_succ]
    rfl

variable {cpixel pixel : α → Bytes}
  (hread : ∀ a rest, RFBClient.cpixel (cpixel a ++ rest) = .ok (pixel a, rest))

include hread

/-- One turn of the loop. -/
theorem zrleTiles_turn (hwidth : 0 < rect.width)
    (hk : k < tilesAcross 64 rect.width * tilesAcross 64 rect.height) {tile : Tile α}
    (hvalid : tile.Valid ((region rect k).width * (region rect k).height)) (fuel : ℕ)
    (rest : Bytes) :
    RFBClient.zrleTiles (RFBClient.runtime env) rect (fuel + 1) (region rect k).x (region rect k).y
        (tile.encode cpixel ++ rest) c =
      RFBClient.zrleTiles (RFBClient.runtime env) rect fuel (region rect (k + 1)).x
        (region rect (k + 1)).y rest
        (drew c.pixelFormat [tile.call pixel c.pixelFormat (region rect k)] c) := by
  rcases region_inside hwidth hk with ⟨hcol, hrow⟩
  -- The last tile of a row, or of a column, is cut off at the edge.
  have htw : (if (rect.x : ℤ) + rect.width - (region rect k).x < 64 then
      (rect.x : ℤ) + rect.width - (region rect k).x else 64) = (region rect k).width :=
    edge_eq rect.x rect.width _ hcol
  have hth : (if (rect.y : ℤ) + rect.height - (region rect k).y < 64 then
      (rect.y : ℤ) + rect.height - (region rect k).y else 64) = (region rect k).height :=
    edge_eq rect.y rect.height _ hrow
  -- Behind the last tile of a row comes the first one of the next.
  have hmove : (if (rect.x : ℤ) + rect.width ≤ (region rect k).x + 64 then
      RFBClient.zrleTiles (RFBClient.runtime env) rect fuel rect.x ((region rect k).y + 64) rest
      else RFBClient.zrleTiles (RFBClient.runtime env) rect fuel ((region rect k).x + 64)
        (region rect k).y rest) =
      RFBClient.zrleTiles (RFBClient.runtime env) rect fuel (region rect (k + 1)).x
        (region rect (k + 1)).y rest := by
    have hnext := @region_succ rect k hwidth
    split_ifs at hnext ⊢ with hend hend' hend'
    · rcases Prod.mk.inj hnext with ⟨hx, hy⟩
      rw [hx, hy, Nat.cast_add]
      rfl
    · omega
    · omega
    · rcases Prod.mk.inj hnext with ⟨hx, hy⟩
      rw [hx, hy, Nat.cast_add]
      rfl
  change RFBClient.zrleTiles (RFBClient.runtime env) rect (fuel + 1) (region rect k).x
    (region rect k).y (tile.subencoding :: (tile.body cpixel ++ rest)) c = _
  conv_lhs => unfold RFBClient.zrleTiles
  dsimp only
  rw [htw, hth, zrleTile_eq hread hvalid]
  unfold Tile.call
  cases tile.decoded pixel ((region rect k).width * (region rect k).height) with
  | pixels data =>
      have hcall := @Hextile.call_updateRectangle env c.pixelFormat c rfl (region rect k).x
        (region rect k).y (region rect k).width (region rect k).height data
      refine (run_bind_ok rfl).trans ?_
      dsimp only
      rw [run_get_bind, hmove]
      exact run_bind_ok hcall
  | solid color =>
      have hcall := @Hextile.call_fill env c.pixelFormat c rfl (region rect k) color
      refine (run_bind_ok rfl).trans ?_
      dsimp only
      rw [hmove]
      exact run_bind_ok hcall

/-- The loop comes to the bytes behind some tiles, having made the calls for these. -/
theorem zrleTiles_eq (hwidth : 0 < rect.width) (tiles : List (Tile α)) {k : ℕ}
    (hlength : k + tiles.length ≤ tilesAcross 64 rect.width * tilesAcross 64 rect.height)
    (hvalid : ValidFrom rect.width rect.height k tiles) (fuel : ℕ) (rest : Bytes) :
    RFBClient.zrleTiles (RFBClient.runtime env) rect (fuel + tiles.length) (region rect k).x
        (region rect k).y (tiles.flatMap (Tile.encode cpixel) ++ rest) c =
      RFBClient.zrleTiles (RFBClient.runtime env) rect fuel (region rect (k + tiles.length)).x
        (region rect (k + tiles.length)).y rest
        (drew c.pixelFormat (calls pixel c.pixelFormat rect k tiles) c) := by
  -- By induction on the tiles: the first one, and then those behind it.
  induction tiles generalizing k c with
  | nil =>
      unfold calls
      rw [drew_nil]
      rfl
  | cons tile tiles ih =>
      rw [List.length_cons] at hlength
      have hk : k < tilesAcross 64 rect.width * tilesAcross 64 rect.height := by omega
      have hfirst := @zrleTiles_turn α env c rect k cpixel pixel hread hwidth hk tile
        (hvalid 0 tile rfl) (fuel + tiles.length) (tiles.flatMap (Tile.encode cpixel) ++ rest)
      have hrest := @ih (drew c.pixelFormat [tile.call pixel c.pixelFormat (region rect k)] c)
        (k + 1) (by omega) hvalid.tail
      rw [List.flatMap_cons, List.append_assoc, List.length_cons]
      refine hfirst.trans (hrest.trans ?_)
      rw [Nat.add_right_comm k 1]
      change _ = RFBClient.zrleTiles _ rect fuel _ _ rest
        (drew c.pixelFormat ([tile.call pixel c.pixelFormat (region rect k)] ++
          calls pixel c.pixelFormat rect (k + 1) tiles) c)
      rw [drew_append]
      rfl

end Loop

/-! ## The calls paint the image -/

section Painting

variable {pixel : α → Bytes} {bypp : ℕ} {format : PixelFormat} {picture : Picture Bytes}

theorem calls_append (rect : Rect) (k : ℕ) (tiles tiles' : List (Tile α)) :
    calls pixel format rect k (tiles ++ tiles') =
      calls pixel format rect k tiles ++ calls pixel format rect (k + tiles.length) tiles' := by
  induction tiles generalizing k with
  | nil => rfl
  | cons tile tiles ih =>
      change tile.call pixel format (region rect k) ::
        calls pixel format rect (k + 1) (tiles ++ tiles') = _
      rw [ih, List.length_cons, Nat.add_assoc, Nat.add_comm 1]
      rfl

variable (hpixel : ∀ a, (pixel a).length = bypp)

include hpixel

theorem length_flatMap_pixel (l : List α) : (l.flatMap pixel).length = l.length * bypp := by
  induction l with
  | nil => exact (Nat.zero_mul bypp).symm
  | cons a l ih =>
      rw [List.flatMap_cons, List.length_append, hpixel, ih, List.length_cons, Nat.succ_mul,
        Nat.add_comm]

/-- The bytes of the `i`-th pixel. -/
theorem slice_flatMap_pixel (l : List α) (i : ℕ) :
    slice (l.flatMap pixel) (i * bypp) bypp = ((l[i]?).map pixel).getD [] := by
  induction l generalizing i with
  | nil =>
      unfold slice
      rw [List.flatMap_nil, List.drop_nil, List.take_nil]
      rfl
  | cons a l ih =>
      cases i with
      | zero =>
          unfold slice
          rw [Nat.zero_mul, List.drop_zero, List.flatMap_cons, List.take_left' (hpixel a)]
          rfl
      | succ i =>
          have hstart : (pixel a).length ≤ (i + 1) * bypp := by
            rw [hpixel, Nat.succ_mul]
            exact Nat.le_add_left _ _
          rw [List.flatMap_cons, slice_append_right _ _ _ hstart, hpixel, Nat.succ_mul,
            Nat.add_sub_cancel, ih]
          rfl

/-- The call for a tile paints its image. -/
theorem painted_call (tile : Tile α) (r : Region) :
    painted bypp picture (made format (tile.call pixel format r)) =
      picture.paint r (tile.image pixel r.width r.height) := by
  have hpixels (pixels : List α) :
      painted bypp picture (made format (.updateRectangle r.x r.y r.width r.height
        (pixels.flatMap pixel) format)) =
        picture.paint r fun col row => ((pixels[row * r.width + col]?).map pixel).getD [] := by
    refine (@Hextile.paints_updateRectangle bypp picture format r (pixels.flatMap pixel)).trans ?_
    congr 1
    funext col row
    exact slice_flatMap_pixel hpixel pixels _
  cases tile with
  | raw pixels => exact hpixels pixels
  | solid color =>
      refine (Hextile.painted_made_fill (hpixel color)).trans (Hextile.paints_fill.trans ?_)
      funext col row
      by_cases hcovers : r.Covers col row
      · rw [Picture.paint_of_covers hcovers, Picture.paint_of_covers hcovers]
        have hrow : row - r.y < r.height := Nat.sub_lt_left_of_lt_add hcovers.2.1 hcovers.2.2
        have hcol : col - r.x < r.width := Nat.sub_lt_left_of_lt_add hcovers.1.1 hcovers.1.2
        have hindex : (row - r.y) * r.width + (col - r.x) < r.width * r.height := by
          rw [Nat.mul_comm r.width]
          exact index_lt hcol hrow
        unfold Tile.image Tile.pixels
        rw [List.getElem?_replicate_of_lt hindex]
        rfl
      · rw [Picture.paint_of_not_covers hcovers, Picture.paint_of_not_covers hcovers]
  | rle runs => exact hpixels _
  | paletteRle palette items => exact hpixels _

/-- The calls for the first tiles paint them. -/
theorem painted_take {rect : Rect} (tiles : List (Tile α)) {n : ℕ} (hn : n ≤ tiles.length) :
    painted bypp picture ((calls pixel format rect 0 (tiles.take n)).flatMap (made format)) =
      picture.paintTiles rect.x rect.y 64 rect.width rect.height
        (tileImage pixel rect.width rect.height tiles) n := by
  induction n with
  | zero => rfl
  | succ n ih =>
      have htile := List.getElem?_eq_getElem hn
      generalize tiles[n] = tile at htile
      have himage : tileImage pixel rect.width rect.height tiles n =
          tile.image pixel (region rect n).width (region rect n).height := by
        unfold tileImage
        rw [htile]
        rfl
      have hlength : (tiles.take n).length = n := by
        rw [List.length_take]
        exact Nat.min_eq_left (Nat.le_of_succ_le hn)
      rw [List.take_add_one, htile, calls_append, List.flatMap_append, painted_append,
        ih (Nat.le_of_succ_le hn), hlength, Nat.zero_add]
      refine (congrArg (painted bypp _) (List.append_nil _)).trans ?_
      refine (painted_call hpixel tile (region rect n)).trans ?_
      rw [← himage]
      rfl

/-- The calls for a rectangle paint the image it denotes, and nothing else. -/
theorem painted_calls {rect : Rect} {tiles : List (Tile α)}
    (hvalid : Valid rect.width rect.height tiles) :
    painted bypp picture ((calls pixel format rect 0 tiles).flatMap (made format)) =
      picture.paint ⟨rect.x, rect.y, rect.width, rect.height⟩
        (image pixel rect.width rect.height tiles) := by
  have hall := @painted_take α pixel bypp format picture hpixel rect tiles tiles.length
    (Nat.le_refl _)
  rw [List.take_length, hvalid.length, Picture.paintTiles_all (by decide)] at hall
  exact hall

end Painting

/-! ## A rectangle -/

/-- The three bytes of a pixel that are sent, and the four that it becomes. -/
abbrev CPixel := Hextile.Pixel 3

def CPixel.pixel (color : CPixel) : Bytes :=
  color.val ++ [0xFF]

theorem cpixel_eq (color : CPixel) (rest : Bytes) :
    RFBClient.cpixel (color.val ++ rest) = .ok (color.pixel, rest) := by
  rcases color with ⟨b, hb⟩
  rcases List.length_eq_three.1 hb with ⟨x, y, z, rfl⟩
  rfl

theorem length_pixel (color : CPixel) : color.pixel.length = 4 := by
  unfold CPixel.pixel
  rw [List.length_append, color.property]
  rfl

/-- An update has a pixel of `bypp` bytes for every cell. -/
def Full (bypp : ℕ) : Callback → Prop
  | .updateRectangle _ _ width height data _ => (data.length : ℤ) = width * height * bypp
  | _ => True

/-- On the way through the data the loop comes to every tile, with the calls for those before it made
and the bytes from it on unread; and to the end of the data. -/
def Visits (env : Env) (c : RFBClient Unit) (rect : Rect) (tiles : List (Tile CPixel))
    (data : Bytes) : Prop :=
  ∀ before after, tiles = before ++ after → ∃ fuel,
    (after.flatMap (Tile.encode Subtype.val)).length ≤ fuel ∧
      RFBClient.zrleTiles (RFBClient.runtime env) rect data.length rect.x rect.y data c =
        RFBClient.zrleTiles (RFBClient.runtime env) rect fuel (region rect before.length).x
          (region rect before.length).y (after.flatMap (Tile.encode Subtype.val))
          (drew c.pixelFormat (calls CPixel.pixel c.pixelFormat rect 0 before) c)

theorem full_call (format : PixelFormat) (tile : Tile CPixel) (r : Region)
    (hvalid : tile.Valid (r.width * r.height)) :
    ∀ cb ∈ made format (tile.call CPixel.pixel format r), Full 4 cb := by
  have hpixels (pixels : List CPixel) (hlength : pixels.length = r.width * r.height) :
      Full 4 (.updateRectangle r.x r.y r.width r.height (pixels.flatMap CPixel.pixel) format) := by
    change ((pixels.flatMap CPixel.pixel).length : ℤ) = r.width * r.height * (4 : ℕ)
    rw [length_flatMap_pixel length_pixel, hlength]
    push_cast
    rfl
  intro cb hcb
  cases tile with
  | raw pixels =>
      rw [List.mem_singleton.1 hcb]
      exact hpixels pixels hvalid.length
  | solid color =>
      rcases List.mem_cons.1 hcb with rfl | hcb
      · trivial
      · rw [List.mem_singleton.1 hcb]
        change ((repeatColor color.pixel r.width r.height).length : ℤ) =
          r.width * r.height * (4 : ℕ)
        unfold repeatColor
        rw [List.length_flatten, List.map_replicate, List.sum_replicate_nat, length_pixel,
          Int.toNat_natCast, Int.toNat_natCast]
        push_cast
        rfl
  | rle runs =>
      rw [List.mem_singleton.1 hcb]
      exact hpixels _ hvalid.length
  | paletteRle palette items =>
      rw [List.mem_singleton.1 hcb]
      exact hpixels _ hvalid.length

theorem full_calls (format : PixelFormat) (rect : Rect) {k : ℕ} {tiles : List (Tile CPixel)}
    (hvalid : ValidFrom rect.width rect.height k tiles) :
    ∀ cb ∈ (calls CPixel.pixel format rect k tiles).flatMap (made format), Full 4 cb := by
  induction tiles generalizing k with
  | nil => exact fun cb hcb => absurd hcb List.not_mem_nil
  | cons tile tiles ih =>
      intro cb hcb
      rcases List.mem_append.1 (List.flatMap_cons ▸ hcb) with hfirst | hrest
      · exact full_call format tile (region rect k) (hvalid 0 tile rfl) cb hfirst
      · exact ih hvalid.tail cb hrest

theorem length_calls (pixel : α → Bytes) (format : PixelFormat) (rect : Rect) (k : ℕ)
    (tiles : List (Tile α)) : (calls pixel format rect k tiles).length = tiles.length := by
  induction tiles generalizing k with
  | nil => rfl
  | cons tile tiles ih => exact congrArg (· + 1) (ih _)

theorem length_le_encode (tiles : List (Tile CPixel)) :
    tiles.length ≤ (tiles.flatMap (Tile.encode Subtype.val)).length :=
  length_le_flatMap (Tile.encode Subtype.val) (fun _ => Nat.succ_pos _) tiles

/-- The start of a rectangle is where its first tile stands. -/
theorem region_zero (rect : Rect) : (region rect 0).x = rect.x ∧ (region rect 0).y = rect.y := by
  unfold region tileRegion Region.shift
  dsimp only
  rw [Nat.zero_mod, Nat.zero_div]
  exact ⟨rfl, rfl⟩

theorem visits_data {env : Env} {rect : Rect} {tiles : List (Tile CPixel)} (hwidth : 0 < rect.width)
    (hvalid : Valid rect.width rect.height tiles) (c : RFBClient Unit) :
    Visits env c rect tiles (tiles.flatMap (Tile.encode Subtype.val)) := by
  intro before after hsplit
  subst hsplit
  have hbefore := length_le_encode before
  have hvalid' : ValidFrom rect.width rect.height 0 before := fun i tile htile =>
    hvalid.tile i tile (List.getElem?_append_left (List.getElem?_eq_some_iff.1 htile).1 ▸ htile)
  have hlength : 0 + before.length ≤ tilesAcross 64 rect.width * tilesAcross 64 rect.height := by
    rw [← hvalid.length, List.length_append, Nat.zero_add]
    exact Nat.le_add_right _ _
  have hfuel : ((before ++ after).flatMap (Tile.encode Subtype.val)).length =
      ((before ++ after).flatMap (Tile.encode Subtype.val)).length - before.length +
        before.length := by
    rw [List.flatMap_append, List.length_append]
    omega
  refine ⟨((before ++ after).flatMap (Tile.encode Subtype.val)).length - before.length, ?_, ?_⟩
  · rw [List.flatMap_append, List.length_append]
    omega
  · have hloop := @zrleTiles_eq _ env c rect Subtype.val CPixel.pixel cpixel_eq hwidth before 0 hlength
      hvalid' (((before ++ after).flatMap (Tile.encode Subtype.val)).length - before.length)
      (after.flatMap (Tile.encode Subtype.val))
    rw [← hfuel, ← List.flatMap_append, (region_zero rect).1, (region_zero rect).2,
      Nat.zero_add] at hloop
    exact hloop

/-- A ZRLE rectangle that is encoded as the specification allows is read to the end of its data.  Its
tiles are painted one after the other, each where it stands and with a pixel for each of its cells,
and the calls paint the image it denotes on its region, and nothing else. -/
theorem zrle_exact {env : Env} {c : RFBClient Unit} (rect : Rect) (tiles : List (Tile CPixel))
    {block : Bytes} (hsize : 0 < rect.width ∧ 0 < rect.height)
    (hvalid : Valid rect.width rect.height tiles)
    (hinflate : env.inflate c.zlibStream block = .ok (tiles.flatMap (Tile.encode Subtype.val))) :
    let c' := { c with zlibStream := c.zlibStream ++ [block] }
    let cbs := calls CPixel.pixel c.pixelFormat rect 0 tiles
    RFBClient.handleDecodeZRLEdata (RFBClient.runtime env) rect block c =
        .ok () (Hextile.handedOver (drew c.pixelFormat cbs c')) ∧
      Visits env c' rect tiles (tiles.flatMap (Tile.encode Subtype.val)) ∧
      cbs.length = tilesAcross 64 rect.width * tilesAcross 64 rect.height ∧
      (∀ cb ∈ cbs.flatMap (made c.pixelFormat), Full 4 cb) ∧
      ∀ picture, painted 4 picture (cbs.flatMap (made c.pixelFormat)) =
        picture.paint ⟨rect.x, rect.y, rect.width, rect.height⟩
          (image CPixel.pixel rect.width rect.height tiles) := by
  intro c' cbs
  have hvisits := @visits_data env rect tiles hsize.1 hvalid c'
  have hend := hvisits tiles [] (List.append_nil tiles).symm
  refine ⟨?_, hvisits, (length_calls _ _ _ _ _).trans hvalid.length,
    full_calls c.pixelFormat rect hvalid.tile, fun picture => painted_calls length_pixel hvalid⟩
  rcases hend with ⟨fuel, _, hloop⟩
  have hrun : RFBClient.zrleTiles (RFBClient.runtime env) rect
      (tiles.flatMap (Tile.encode Subtype.val)).length rect.x rect.y
      (tiles.flatMap (Tile.encode Subtype.val)) c' = .ok () (drew c.pixelFormat cbs c') := by
    refine hloop.trans ?_
    cases fuel with
    | zero => rfl
    | succ fuel => rfl
  unfold RFBClient.handleDecodeZRLEdata
  rw [run_get_bind]
  change (liftExcept (env.inflate c.zlibStream block) >>= _) c = _
  rw [hinflate]
  refine (run_bind_ok rfl).trans ((run_bind_ok rfl).trans ((run_bind_ok hrun).trans ?_))
  exact Hextile.doConnection_eq _

/-- A client whose pixels take four bytes. -/
def awaitingData : RFBClient Unit where
  app := ()
  stage := .handleExpected
  expectedHandler := .decodeZRLEdata ⟨5, 6, 65, 1⟩
  rectangles := 0

/-- A run of 64 pixels, and a pixel in one colour beside it. -/
def runAndPixel : List (Tile CPixel) :=
  [.paletteRle [⟨[1, 2, 3], rfl⟩, ⟨[4, 5, 6], rfl⟩] [(0, some 62), (1, none)],
    .solid ⟨[7, 8, 9], rfl⟩]

theorem zrle_exact_runAndPixel :
    RFBClient.handleDecodeZRLEdata (RFBClient.runtime .sample) ⟨5, 6, 65, 1⟩
        (runAndPixel.flatMap (Tile.encode Subtype.val)) awaitingData =
        .ok () (Hextile.handedOver (drew awaitingData.pixelFormat
          (calls CPixel.pixel awaitingData.pixelFormat ⟨5, 6, 65, 1⟩ 0 runAndPixel)
          { awaitingData with zlibStream := [runAndPixel.flatMap (Tile.encode Subtype.val)] })) := by
  have hvalid : Valid 65 1 runAndPixel := by
    refine ⟨rfl, fun i tile htile => ?_⟩
    rcases i with _ | _ | i
    · cases htile
      exact ⟨by unfold Tile.Allowed; decide, rfl⟩
    · cases htile
      exact ⟨trivial, rfl⟩
    · cases htile
  exact (@zrle_exact .sample awaitingData ⟨5, 6, 65, 1⟩ runAndPixel _ (by decide) hvalid rfl).1

end Zrle

end Vncdotool
