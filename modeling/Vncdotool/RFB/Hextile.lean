import Vncdotool.Raster.Tiling
import Vncdotool.RFB.Encodings

/-!
# Hextile — what a Hextile rectangle denotes

A rectangle is a list of tiles of sixteen by sixteen pixels.  Each is raw, or a background with
subrectangles on it; the background and the foreground of the tile before it may be carried over,
unless that one was raw, and the foreground unless its subrectangles had colours of their own.  The
calls for a rectangle paint the image it denotes (`painted_calls`).
-/

namespace Vncdotool

open Wire Raster

namespace Hextile

/-! ## Tiles -/

/-- The bytes of a pixel. -/
abbrev Pixel (bypp : ℕ) := { b : Bytes // b.length = bypp }

/-- A subrectangle, by its nibbles: its size is one more than they say. -/
structure Subrect where
  x : Fin 16
  y : Fin 16
  width : Fin 16
  height : Fin 16
  deriving DecidableEq, Repr

/-- A tile's encoding.  The other bits of a raw one are ignored. -/
inductive Tile (bypp : ℕ)
  | raw (mask : UInt8) (pixels : Bytes)
  | plain (background foreground : Option (Pixel bypp)) (subrects : Option (List Subrect))
  | coloured (background : Option (Pixel bypp)) (subrects : Option (List (Pixel bypp × Subrect)))

/-- The colours that the next tile may leave out. -/
structure Carry (bypp : ℕ) where
  background : Option (Pixel bypp) := none
  foreground : Option (Pixel bypp) := none

/-- A tile where it stands: its number, and what it may carry over. -/
structure Placed (bypp : ℕ) where
  index : ℕ
  carry : Carry bypp
  tile : Tile bypp

variable {bypp : ℕ}

def Subrect.region (s : Subrect) : Region :=
  ⟨s.x, s.y, s.width + 1, s.height + 1⟩

/-- What may be carried over from a tile. -/
def Tile.leaves (carry : Carry bypp) : Tile bypp → Carry bypp
  | raw _ _ => {}
  | plain background foreground _ =>
      ⟨background.or carry.background, foreground.or carry.foreground⟩
  | coloured background _ => ⟨background.or carry.background, none⟩

/-- The tiles, from number `k` on. -/
def place : ℕ → Carry bypp → List (Tile bypp) → List (Placed bypp)
  | _, _, [] => []
  | k, carry, tile :: tiles => ⟨k, carry, tile⟩ :: place (k + 1) (tile.leaves carry) tiles

/-! ## Bytes -/

/-- A bit of the subencoding mask. -/
def bit (set : Bool) (flag : UInt8) : UInt8 :=
  if set then flag else 0

open RFBClient.HextileEncoding in
/-- The mask of a tile that is not raw. -/
def flags (background foreground subrects coloured : Bool) : UInt8 :=
  bit background BACKGROUND_SPECIFIED ||| bit foreground FOREGROUND_SPECIFIED |||
    bit subrects ANY_SUBRECTS ||| bit coloured SUBRECTS_COLORED

def Tile.mask : Tile bypp → UInt8
  | raw mask _ => mask
  | plain background foreground subrects =>
      flags background.isSome foreground.isSome subrects.isSome false
  | coloured background subrects => flags background.isSome false subrects.isSome true

def Subrect.encode (s : Subrect) : Bytes :=
  [UInt8.ofNat (16 * s.x + s.y), UInt8.ofNat (16 * s.width + s.height)]

/-- A colour, if it is specified. -/
def specified (colour : Option (Pixel bypp)) : Bytes :=
  (colour.map Subtype.val).getD []

/-- How many subrectangles there are, if there may be any. -/
def count {α : Type} (subrects : Option (List α)) : Bytes :=
  (subrects.map fun subrects => UInt8.ofNat subrects.length).toList

/-- What follows the mask. -/
def Tile.body : Tile bypp → Bytes
  | raw _ pixels => pixels
  | plain background foreground subrects =>
      specified background ++ specified foreground ++ count subrects ++
        (subrects.getD []).flatMap Subrect.encode
  | coloured background subrects =>
      specified background ++ count subrects ++
        (subrects.getD []).flatMap fun s => s.1.val ++ s.2.encode

def Tile.encode (tile : Tile bypp) : Bytes :=
  tile.mask :: tile.body

/-! ## Meaning -/

/-- The colour of a tile's background or foreground. -/
def colour (own carried : Option (Pixel bypp)) : Bytes :=
  ((own.or carried).map Subtype.val).getD []

/-- The pixels of a tile as wide as `width`. -/
def Tile.image (width : ℕ) (carry : Carry bypp) : Tile bypp → Picture Bytes
  | raw _ pixels => fun col row => slice pixels ((row * width + col) * bypp) bypp
  | plain background foreground subrects =>
      (subrects.getD []).foldl
        (fun picture s => picture.paint s.region fun _ _ => colour foreground carry.foreground)
        fun _ _ => colour background carry.background
  | coloured background subrects =>
      (subrects.getD []).foldl (fun picture s => picture.paint s.2.region fun _ _ => s.1.val)
        fun _ _ => colour background carry.background

/-- A tile of this size is encoded as the specification allows: the pixels of a raw one have the
right length, there are at most 255 subrectangles inside the tile, and the colours that are left out
can be carried over. -/
def Tile.Valid (width height : ℕ) (carry : Carry bypp) : Tile bypp → Prop
  | raw mask pixels =>
      RFBClient.HextileEncoding.has mask RFBClient.HextileEncoding.RAW = true ∧
        pixels.length = width * height * bypp
  | plain background foreground subrects =>
      (background.or carry.background).isSome ∧ (subrects.getD []).length ≤ 255 ∧
        ∀ s ∈ subrects.getD [], (foreground.or carry.foreground).isSome ∧
          s.region.Inside width height
  | coloured background subrects =>
      (background.or carry.background).isSome ∧ (subrects.getD []).length ≤ 255 ∧
        ∀ s ∈ subrects.getD [], s.2.region.Inside width height

/-- Where a tile stands in a rectangle of this size. -/
def Placed.region (p : Placed bypp) (width height : ℕ) : Region :=
  tileRegion 16 width height p.index

def Placed.Valid (p : Placed bypp) (width height : ℕ) : Prop :=
  p.tile.Valid (p.region width height).width (p.region width height).height p.carry

/-- A rectangle of this size is encoded as the specification allows. -/
structure Valid (width height : ℕ) (tiles : List (Tile bypp)) : Prop where
  length : tiles.length = tilesAcross 16 width * tilesAcross 16 height
  tile : ∀ p ∈ place 0 {} tiles, p.Valid width height

/-- The image of the `k`-th tile of a rectangle of this size. -/
def tileImage (width height : ℕ) (tiles : List (Tile bypp)) (k : ℕ) : Picture Bytes :=
  match (place 0 {} tiles)[k]? with
  | some p => p.tile.image (p.region width height).width p.carry
  | none => fun _ _ => []

/-- The image that a rectangle of this size denotes. -/
def image (width height : ℕ) (tiles : List (Tile bypp)) : Picture Bytes :=
  assembled 16 width (tileImage width height tiles)

/-! ## Calls -/

def fill (r : Region) (color : Bytes) : Callback :=
  .fillRectangle r.x r.y r.width r.height (some color)

/-- The calls for a tile that stands at a region. -/
def Tile.calls (format : PixelFormat) (carry : Carry bypp) (r : Region) : Tile bypp → List Callback
  | raw _ pixels => [.updateRectangle r.x r.y r.width r.height pixels format]
  | plain background foreground subrects =>
      fill r (colour background carry.background) ::
        (subrects.getD []).map fun s =>
          fill (s.region.shift r.x r.y) (colour foreground carry.foreground)
  | coloured background subrects =>
      fill r (colour background carry.background) ::
        (subrects.getD []).map fun s => fill (s.2.region.shift r.x r.y) s.1.val

/-- The calls for a tile of a rectangle. -/
def Placed.calls (p : Placed bypp) (format : PixelFormat) (rect : Rect) : List Callback :=
  p.tile.calls format p.carry ((p.region rect.width rect.height).shift rect.x rect.y)

/-- The calls for a rectangle. -/
def calls (format : PixelFormat) (rect : Rect) (tiles : List (Tile bypp)) : List Callback :=
  (place 0 {} tiles).flatMap fun p => p.calls format rect

/-- What a plain `RFBClient` makes of a call: its fallback fills by an update. -/
def made (format : PixelFormat) (cb : Callback) : List Callback :=
  match cb with
  | .fillRectangle x y width height (some color) =>
      [cb, .updateRectangle x y width height (repeatColor color width height) format]
  | _ => [cb]

/-- What a call paints; a pixel takes `bypp` bytes. -/
def paints (bypp : ℕ) (picture : Picture Bytes) : Callback → Picture Bytes
  | .updateRectangle x y width height data _ =>
      picture.paint ⟨x.toNat, y.toNat, width.toNat, height.toNat⟩ fun col row =>
        slice data ((row * width.toNat + col) * bypp) bypp
  | .fillRectangle x y width height color =>
      picture.paint ⟨x.toNat, y.toNat, width.toNat, height.toNat⟩ fun _ _ => color.getD []
  | _ => picture

/-- What calls paint, one after the other. -/
def painted (bypp : ℕ) (picture : Picture Bytes) (cbs : List Callback) : Picture Bytes :=
  cbs.foldl (paints bypp) picture

/-! ## The calls paint the image -/

section Painting

variable {picture : Picture Bytes} {format : PixelFormat} {r : Region} {color : Bytes}

theorem painted_append (cbs cbs' : List Callback) :
    painted bypp picture (cbs ++ cbs') = painted bypp (painted bypp picture cbs) cbs' :=
  List.foldl_append

theorem paints_fill : paints bypp picture (fill r color) = picture.paint r fun _ _ => color := by
  unfold fill paints
  simp only [Int.toNat_natCast]
  rfl

theorem paints_updateRectangle (r : Region) (pixels : Bytes) :
    paints bypp picture (.updateRectangle r.x r.y r.width r.height pixels format) =
      picture.paint r fun col row => slice pixels ((row * r.width + col) * bypp) bypp := by
  unfold paints
  simp only [Int.toNat_natCast]

theorem slice_replicate {n k : ℕ} (hcolor : color.length = bypp) (hk : k < n) :
    slice (List.replicate n color).flatten (k * bypp) bypp = color := by
  have hsplit : (List.replicate n color).flatten =
      (List.replicate k color).flatten ++ (color ++ (List.replicate (n - k - 1) color).flatten) := by
    have hn : n = k + (n - k - 1 + 1) := by omega
    conv_lhs => rw [hn, ← List.replicate_append_replicate, List.flatten_append, List.replicate_succ]
    rfl
  have hlength : (List.replicate k color).flatten.length = k * bypp := by
    rw [List.length_flatten, List.map_replicate, hcolor, List.sum_replicate_nat]
  unfold slice
  rw [hsplit, List.drop_left' hlength]
  exact List.take_left' hcolor

/-- The fallback paints the same once more. -/
theorem painted_made_fill (hcolor : color.length = bypp) :
    painted bypp picture (made format (fill r color)) = paints bypp picture (fill r color) := by
  change paints bypp (paints bypp picture (fill r color)) (.updateRectangle r.x r.y r.width r.height
    (repeatColor color r.width r.height) format) = _
  rw [paints_updateRectangle, paints_fill]
  funext col row
  by_cases hcovers : r.Covers col row
  · rw [Picture.paint_of_covers hcovers, Picture.paint_of_covers hcovers]
    have hrow : row - r.y < r.height := Nat.sub_lt_left_of_lt_add hcovers.2.1 hcovers.2.2
    have hcol : col - r.x < r.width := Nat.sub_lt_left_of_lt_add hcovers.1.1 hcovers.1.2
    have hindex : (row - r.y) * r.width + (col - r.x) < r.width * r.height := by
      rw [Nat.mul_comm r.width]
      exact index_lt hcol hrow
    unfold repeatColor
    rw [Int.toNat_natCast, Int.toNat_natCast]
    exact slice_replicate hcolor hindex
  · exact Picture.paint_of_not_covers hcovers

theorem length_colour {own carried : Option (Pixel bypp)} (h : (own.or carried).isSome) :
    (colour own carried).length = bypp := by
  rcases Option.isSome_iff_exists.1 h with ⟨p, hp⟩
  unfold colour
  rw [hp]
  exact p.property

/-- The subrectangles of a tile, painted over its background. -/
theorem painted_subrects {α : Type} {width height : ℕ} {x y : ℕ} (place : α → Region)
    (paint : α → Bytes) (subrects : List α)
    (h : ∀ s ∈ subrects, (place s).Inside width height ∧ (paint s).length = bypp)
    (tile : Picture Bytes) :
    painted bypp (picture.paint ⟨x, y, width, height⟩ tile)
        ((subrects.map fun s => fill ((place s).shift x y) (paint s)).flatMap (made format)) =
      picture.paint ⟨x, y, width, height⟩
        (subrects.foldl (fun tile s => tile.paint (place s) fun _ _ => paint s) tile) := by
  induction subrects generalizing tile with
  | nil => rfl
  | cons s subrects ih =>
      rcases h s List.mem_cons_self with ⟨hinside, hlength⟩
      rw [List.map_cons, List.flatMap_cons, painted_append, painted_made_fill hlength, paints_fill,
        Picture.paint_paint_inside hinside, List.foldl_cons]
      exact ih (fun s' hs' => h s' (List.mem_cons_of_mem s hs')) _

/-- The calls for a tile paint its image. -/
theorem painted_tile {width height : ℕ} {x y : ℕ} {carry : Carry bypp} {tile : Tile bypp}
    (hvalid : tile.Valid width height carry) :
    painted bypp picture ((tile.calls format carry ⟨x, y, width, height⟩).flatMap (made format)) =
      picture.paint ⟨x, y, width, height⟩ (tile.image width carry) := by
  cases tile with
  | raw mask pixels => exact @paints_updateRectangle bypp picture format ⟨x, y, width, height⟩ pixels
  | plain background foreground subrects =>
      rcases hvalid with ⟨hbackground, _, hsubrects⟩
      unfold Tile.calls
      rw [List.flatMap_cons, painted_append, painted_made_fill (length_colour hbackground),
        paints_fill]
      exact painted_subrects Subrect.region _ _
        (fun s hs => ⟨(hsubrects s hs).2, length_colour (hsubrects s hs).1⟩) _
  | coloured background subrects =>
      rcases hvalid with ⟨hbackground, _, hsubrects⟩
      unfold Tile.calls
      rw [List.flatMap_cons, painted_append, painted_made_fill (length_colour hbackground),
        paints_fill]
      exact painted_subrects (fun s => s.2.region) (fun s => s.1.val) _
        (fun s hs => ⟨hsubrects s hs, s.1.property⟩) _

theorem length_place (k : ℕ) (carry : Carry bypp) (tiles : List (Tile bypp)) :
    (place k carry tiles).length = tiles.length := by
  induction tiles generalizing k carry with
  | nil => rfl
  | cons tile tiles ih => exact congrArg (· + 1) (ih _ _)

/-- The bytes of the tiles where they stand are those of the tiles. -/
theorem encode_place (k : ℕ) (carry : Carry bypp) (tiles : List (Tile bypp)) :
    (place k carry tiles).flatMap (fun p => p.tile.encode) = tiles.flatMap Tile.encode := by
  induction tiles generalizing k carry with
  | nil => rfl
  | cons tile tiles ih => exact congrArg (tile.encode ++ ·) (ih _ _)

/-- The tiles are numbered from the first one on. -/
theorem index_place {k i : ℕ} {carry : Carry bypp} {tiles : List (Tile bypp)} {p : Placed bypp}
    (h : (place k carry tiles)[i]? = some p) : p.index = k + i := by
  induction tiles generalizing k i carry with
  | nil => cases h
  | cons tile tiles ih =>
      cases i with
      | zero =>
          cases h
          rfl
      | succ i =>
          have hindex := ih h
          omega

/-- The calls for the first tiles paint them. -/
theorem painted_take {rect : Rect} {tiles : List (Tile bypp)}
    (hvalid : Valid rect.width rect.height tiles) {n : ℕ} (hn : n ≤ tiles.length) :
    painted bypp picture ((((place 0 {} tiles).take n).flatMap fun p => p.calls format rect).flatMap
        (made format)) =
      picture.paintTiles rect.x rect.y 16 rect.width rect.height
        (tileImage rect.width rect.height tiles) n := by
  induction n with
  | zero => rfl
  | succ n ih =>
      have hlength : n < (place 0 {} tiles).length := by
        rw [length_place]
        exact hn
      have hp := List.getElem?_eq_getElem hlength
      generalize (place 0 {} tiles)[n] = p at hp
      have hindex : p.index = n := (index_place hp).trans (Nat.zero_add n)
      have hmem : p ∈ place 0 {} tiles := List.mem_of_getElem? hp
      rw [List.take_add_one, hp, List.flatMap_append, List.flatMap_append, painted_append,
        ih (Nat.le_of_succ_le hn)]
      change painted bypp _ ((p.calls format rect ++ []).flatMap (made format)) = _
      rw [List.append_nil]
      have hone := @painted_tile bypp (picture.paintTiles rect.x rect.y 16 rect.width rect.height
        (tileImage rect.width rect.height tiles) n) format _ _ (rect.x + (p.region rect.width rect.height).x)
        (rect.y + (p.region rect.width rect.height).y) p.carry p.tile (hvalid.tile p hmem)
      refine hone.trans ?_
      have himage : tileImage rect.width rect.height tiles n =
          p.tile.image (p.region rect.width rect.height).width p.carry := by
        unfold tileImage
        rw [hp]
      change _ = (picture.paintTiles rect.x rect.y 16 rect.width rect.height
        (tileImage rect.width rect.height tiles) n).paint _
          (tileImage rect.width rect.height tiles n)
      rw [himage]
      subst hindex
      rfl

/-- The calls for a rectangle paint the image it denotes, and nothing else. -/
theorem painted_calls {rect : Rect} {tiles : List (Tile bypp)}
    (hvalid : Valid rect.width rect.height tiles) (picture : Picture Bytes) :
    painted bypp picture ((calls format rect tiles).flatMap (made format)) =
      picture.paint ⟨rect.x, rect.y, rect.width, rect.height⟩
        (image rect.width rect.height tiles) := by
  have hall := @painted_take bypp picture format rect tiles hvalid tiles.length (Nat.le_refl _)
  rw [← length_place 0 {} tiles, List.take_length, length_place, hvalid.length,
    Picture.paintTiles_all (by decide)] at hall
  exact hall

end Painting

end Hextile

end Vncdotool
