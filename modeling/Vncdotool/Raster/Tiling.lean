import Vncdotool.Raster.Picture

/-!
# Tiling — a region cut into square tiles

The tiles of a region stand row by row, from left to right.  Those at its right and lower edge are
as much smaller as it takes to stay inside.  Every cell of the region lies in one tile, so that
painting the tiles one after the other paints the region.
-/

namespace Raster

variable {α : Type*}

/-! ## Inside a region -/

/-- The region, its corner moved to `(x, y)`. -/
def Region.shift (r : Region) (x y : ℕ) : Region :=
  { r with x := x + r.x, y := y + r.y }

/-- The region lies inside a size. -/
def Region.Inside (r : Region) (width height : ℕ) : Prop :=
  r.x + r.width ≤ width ∧ r.y + r.height ≤ height

instance (r : Region) (width height : ℕ) : Decidable (r.Inside width height) :=
  inferInstanceAs (Decidable (_ ∧ _))

section Inside

variable {picture tile tile' : Picture α} {r : Region} {x y width height : ℕ}

theorem Region.covers_shift {col row : ℕ} :
    (r.shift x y).Covers (x + col) (y + row) ↔ r.Covers col row := by
  unfold Region.shift Region.Covers
  dsimp only
  constructor
  · rintro ⟨⟨hx, hx'⟩, hy, hy'⟩
    exact ⟨⟨by omega, by omega⟩, by omega, by omega⟩
  · rintro ⟨⟨hx, hx'⟩, hy, hy'⟩
    exact ⟨⟨by omega, by omega⟩, by omega, by omega⟩

/-- Painting inside a region that was painted is painting on its tile. -/
theorem Picture.paint_paint_inside (hinside : r.Inside width height) :
    (picture.paint ⟨x, y, width, height⟩ tile).paint (r.shift x y) tile' =
      picture.paint ⟨x, y, width, height⟩ (tile.paint r tile') := by
  funext col row
  by_cases houter : Region.Covers ⟨x, y, width, height⟩ col row
  · rcases houter with ⟨⟨hx, hx'⟩, hy, hy'⟩
    rcases Nat.exists_eq_add_of_le hx with ⟨i, rfl⟩
    rcases Nat.exists_eq_add_of_le hy with ⟨j, rfl⟩
    have houter : Region.Covers ⟨x, y, width, height⟩ (x + i) (y + j) := ⟨⟨hx, hx'⟩, hy, hy'⟩
    by_cases hinner : r.Covers i j
    · rw [Picture.paint_of_covers (Region.covers_shift.2 hinner), Picture.paint_of_covers houter]
      dsimp only [Region.shift]
      rw [Nat.add_sub_cancel_left, Nat.add_sub_cancel_left, Picture.paint_of_covers hinner,
        Nat.add_sub_add_left, Nat.add_sub_add_left]
    · rw [Picture.paint_of_not_covers fun h => hinner (Region.covers_shift.1 h),
        Picture.paint_of_covers houter, Picture.paint_of_covers houter]
      dsimp only
      rw [Nat.add_sub_cancel_left, Nat.add_sub_cancel_left, Picture.paint_of_not_covers hinner]
  · have hinner : ¬ (r.shift x y).Covers col row := fun h => by
      rcases h with ⟨⟨hx, hx'⟩, hy, hy'⟩
      rcases hinside with ⟨hwidth, hheight⟩
      dsimp only [Region.shift] at hx hx' hy hy'
      exact houter ⟨⟨by dsimp only; omega, by dsimp only; omega⟩, by dsimp only; omega,
        by dsimp only; omega⟩
    rw [Picture.paint_of_not_covers hinner, Picture.paint_of_not_covers houter,
      Picture.paint_of_not_covers houter]

end Inside

/-! ## Tiles -/

/-- How many tiles it takes to cover a length. -/
def tilesAcross (side length : ℕ) : ℕ :=
  (length + side - 1) / side

/-- The `k`-th tile of a size. -/
def tileRegion (side width height k : ℕ) : Region where
  x := side * (k % tilesAcross side width)
  y := side * (k / tilesAcross side width)
  width := min side (width - side * (k % tilesAcross side width))
  height := min side (height - side * (k / tilesAcross side width))

/-- The number of the tile that a cell lies in. -/
def tileOf (side width col row : ℕ) : ℕ :=
  row / side * tilesAcross side width + col / side

/-- The picture that the tiles make. -/
def assembled (side width : ℕ) (tile : ℕ → Picture α) : Picture α :=
  fun col row => tile (tileOf side width col row) (col % side) (row % side)

/-- The first tiles painted over a picture, from `(x, y)` on. -/
def Picture.paintTiles (picture : Picture α) (x y side width height : ℕ) (tile : ℕ → Picture α) :
    ℕ → Picture α
  | 0 => picture
  | k + 1 =>
      (picture.paintTiles x y side width height tile k).paint
        ((tileRegion side width height k).shift x y) (tile k)

section Tiles

variable {side width height col row k : ℕ}

theorem tilesAcross_pos (hside : 0 < side) (hwidth : 0 < width) : 0 < tilesAcross side width :=
  Nat.div_pos (by omega) hside

/-- A place within a length is in one of its tiles. -/
theorem div_lt_tilesAcross (hside : 0 < side) (hcol : col < width) :
    col / side < tilesAcross side width := by
  unfold tilesAcross
  rw [Nat.lt_div_iff_mul_lt hside]
  have hle : side * (col / side) ≤ col := Nat.mul_div_le col side
  rw [Nat.mul_comm]
  omega

/-- The tiles but the last one do not reach the end. -/
theorem mul_lt_of_lt_tilesAcross (hside : 0 < side) (hk : k < tilesAcross side width) :
    side * k < width := by
  have hmul : k * side + side ≤ width + side - 1 := by
    calc
      k * side + side = (k + 1) * side := (Nat.succ_mul k side).symm
      _ ≤ width + side - 1 := (Nat.le_div_iff_mul_le hside).1 hk
  rw [Nat.mul_comm]
  omega

theorem le_mul_tilesAcross (hside : 0 < side) : width ≤ side * tilesAcross side width := by
  by_contra hlt
  have hdiv := div_lt_tilesAcross hside (Nat.not_le.1 hlt)
  rw [Nat.mul_div_cancel_left _ hside] at hdiv
  exact Nat.lt_irrefl _ hdiv

/-- A tile reaches the end if and only if it is the last one. -/
theorem le_mul_add_iff (hside : 0 < side) (hk : k < tilesAcross side width) :
    width ≤ side * k + side ↔ k + 1 = tilesAcross side width := by
  have hmul : side * k + side = side * (k + 1) := (Nat.mul_succ side k).symm
  rw [hmul]
  constructor
  · intro hend
    by_contra hne
    have hlt : k + 1 < tilesAcross side width := by omega
    exact absurd hend (Nat.not_le.2 (mul_lt_of_lt_tilesAcross hside hlt))
  · intro hlast
    rw [hlast]
    exact le_mul_tilesAcross hside

/-- The tile after the last one of a row is the first one of the next row. -/
theorem succ_of_last {n : ℕ} (hlast : k % n + 1 = n) : (k + 1) % n = 0 ∧ (k + 1) / n = k / n + 1 := by
  have hn : 0 < n := hlast ▸ Nat.succ_pos _
  have hsucc : k + 1 = n * (k / n + 1) := by
    calc
      k + 1 = n * (k / n) + k % n + 1 := by rw [Nat.div_add_mod]
      _ = n * (k / n) + n := by rw [Nat.add_assoc, hlast]
      _ = n * (k / n + 1) := (Nat.mul_succ n _).symm
  rw [hsucc, Nat.mul_mod_right, Nat.mul_div_cancel_left _ hn]
  exact ⟨rfl, rfl⟩

theorem succ_of_not_last {n : ℕ} (hn : 0 < n) (hlast : k % n + 1 ≠ n) :
    (k + 1) % n = k % n + 1 ∧ (k + 1) / n = k / n := by
  have hlt : k % n + 1 < n := lt_of_le_of_ne (Nat.mod_lt k hn) hlast
  have hsucc : k + 1 = n * (k / n) + (k % n + 1) := by
    rw [← Nat.add_assoc, Nat.div_add_mod]
  rw [hsucc, Nat.mul_add_mod, Nat.mod_eq_of_lt hlt, Nat.mul_add_div hn, Nat.div_eq_of_lt hlt]
  exact ⟨rfl, rfl⟩

/-- The column and the row of a tile are those of its cells. -/
theorem tileOf_eq_iff (hside : 0 < side) (hcol : col < width) :
    tileOf side width col row = k ↔
      col / side = k % tilesAcross side width ∧ row / side = k / tilesAcross side width := by
  have hcols : col / side < tilesAcross side width := div_lt_tilesAcross hside hcol
  unfold tileOf
  constructor
  · rintro rfl
    rw [Nat.add_mod, Nat.mul_mod_left, Nat.zero_add, Nat.mod_mod, Nat.mod_eq_of_lt hcols,
      Nat.mul_comm, Nat.mul_add_div (Nat.zero_lt_of_lt hcols), Nat.div_eq_of_lt hcols]
    exact ⟨rfl, rfl⟩
  · rintro ⟨hc, hr⟩
    rw [hc, hr]
    exact Nat.div_add_mod' k _

/-- A cell lies in the tile of its number, and in no other one. -/
theorem covers_tileRegion_iff (hside : 0 < side) (hcol : col < width) (hrow : row < height) :
    (tileRegion side width height k).Covers col row ↔ tileOf side width col row = k := by
  have hplace (n i size : ℕ) (hn : n < size) :
      (side * i ≤ n ∧ n < side * i + min side (size - side * i)) ↔ n / side = i := by
    rw [Nat.div_eq_iff hside, Nat.mul_comm]
    omega
  rw [tileOf_eq_iff hside hcol]
  exact and_congr (hplace col _ width hcol) (hplace row _ height hrow)

/-- The tiles are as many as the cells need. -/
theorem tileOf_lt (hside : 0 < side) (hcol : col < width) (hrow : row < height) :
    tileOf side width col row < tilesAcross side width * tilesAcross side height := by
  have hcols : col / side < tilesAcross side width := div_lt_tilesAcross hside hcol
  have hrows : row / side < tilesAcross side height := div_lt_tilesAcross hside hrow
  calc
    tileOf side width col row < row / side * tilesAcross side width + tilesAcross side width :=
      Nat.add_lt_add_left hcols _
    _ = (row / side + 1) * tilesAcross side width := (Nat.succ_mul _ _).symm
    _ ≤ tilesAcross side height * tilesAcross side width := Nat.mul_le_mul_right _ hrows
    _ = tilesAcross side width * tilesAcross side height := Nat.mul_comm _ _

theorem tileRegion_inside (hside : 0 < side)
    (hk : k < tilesAcross side width * tilesAcross side height) :
    (tileRegion side width height k).Inside width height := by
  have hacross : 0 < tilesAcross side width :=
    Nat.pos_of_ne_zero fun hzero => by
      rw [hzero, Nat.zero_mul] at hk
      exact Nat.not_lt_zero _ hk
  have hcol : side * (k % tilesAcross side width) < width :=
    mul_lt_of_lt_tilesAcross hside (Nat.mod_lt _ hacross)
  have hrow : side * (k / tilesAcross side width) < height :=
    mul_lt_of_lt_tilesAcross hside ((Nat.div_lt_iff_lt_mul hacross).2 (by
      rw [Nat.mul_comm]
      exact hk))
  unfold tileRegion Region.Inside
  exact ⟨by dsimp only; omega, by dsimp only; omega⟩

variable {picture : Picture α} {x y : ℕ} {tile : ℕ → Picture α}

/-- A tile covers those cells of the region that have its number. -/
theorem covers_shift_tileRegion_iff (hside : 0 < side)
    (hk : k < tilesAcross side width * tilesAcross side height) (col row : ℕ) :
    ((tileRegion side width height k).shift x y).Covers col row ↔
      Region.Covers ⟨x, y, width, height⟩ col row ∧
        tileOf side width (col - x) (row - y) = k := by
  rcases tileRegion_inside hside hk with ⟨hwidth, hheight⟩
  constructor
  · intro hcovers
    have hx : x ≤ col := (Nat.le_add_right _ _).trans hcovers.1.1
    have hy : y ≤ row := (Nat.le_add_right _ _).trans hcovers.2.1
    rcases Nat.exists_eq_add_of_le hx with ⟨i, rfl⟩
    rcases Nat.exists_eq_add_of_le hy with ⟨j, rfl⟩
    have hinner := Region.covers_shift.1 hcovers
    have hi : i < width := hinner.1.2.trans_le hwidth
    have hj : j < height := hinner.2.2.trans_le hheight
    refine ⟨⟨⟨hx, Nat.add_lt_add_left hi x⟩, hy, Nat.add_lt_add_left hj y⟩, ?_⟩
    rw [Nat.add_sub_cancel_left, Nat.add_sub_cancel_left]
    exact (covers_tileRegion_iff hside hi hj).1 hinner
  · rintro ⟨⟨⟨hx, hx'⟩, hy, hy'⟩, hk'⟩
    rcases Nat.exists_eq_add_of_le hx with ⟨i, rfl⟩
    rcases Nat.exists_eq_add_of_le hy with ⟨j, rfl⟩
    dsimp only at hx' hy' hk'
    rw [Nat.add_sub_cancel_left, Nat.add_sub_cancel_left] at hk'
    refine Region.covers_shift.2 ((covers_tileRegion_iff hside ?_ ?_).2 hk')
    · exact Nat.lt_of_add_lt_add_left hx'
    · exact Nat.lt_of_add_lt_add_left hy'

/-- The cells of the first tiles are painted. -/
theorem Picture.paintTiles_eq (hside : 0 < side)
    (hk : k ≤ tilesAcross side width * tilesAcross side height) (col row : ℕ) :
    picture.paintTiles x y side width height tile k col row =
      if Region.Covers ⟨x, y, width, height⟩ col row ∧
          tileOf side width (col - x) (row - y) < k then
        assembled side width tile (col - x) (row - y)
      else picture col row := by
  -- By induction on the number of tiles.
  induction k with
  | zero => exact (if_neg fun h => Nat.not_lt_zero _ h.2).symm
  | succ k ih =>
      have hcovers := covers_shift_tileRegion_iff (x := x) (y := y) hside hk col row
      change ((picture.paintTiles x y side width height tile k).paint _ (tile k)) col row = _
      by_cases hthis : ((tileRegion side width height k).shift x y).Covers col row
      · rcases hcovers.1 hthis with ⟨houter, hnumber⟩
        have hcol : col - x < width := Nat.sub_lt_left_of_lt_add houter.1.1 houter.1.2
        rcases (tileOf_eq_iff hside hcol).1 hnumber with ⟨hc, hr⟩
        rw [Picture.paint_of_covers hthis, if_pos ⟨houter, hnumber.trans_lt (Nat.lt_succ_self k)⟩]
        unfold assembled
        rw [hnumber]
        dsimp only [Region.shift, tileRegion]
        rw [← hc, ← hr, Nat.sub_add_eq, Nat.sub_add_eq, ← Nat.mod_eq_sub, ← Nat.mod_eq_sub]
      · rw [Picture.paint_of_not_covers hthis, ih (Nat.le_of_succ_le hk)]
        refine if_congr (and_congr_right fun houter => ?_) rfl rfl
        have hne : tileOf side width (col - x) (row - y) ≠ k :=
          fun hnumber => hthis (hcovers.2 ⟨houter, hnumber⟩)
        omega

/-- All tiles together paint the region. -/
theorem Picture.paintTiles_all (hside : 0 < side) :
    picture.paintTiles x y side width height tile
        (tilesAcross side width * tilesAcross side height) =
      picture.paint ⟨x, y, width, height⟩ (assembled side width tile) := by
  funext col row
  rw [Picture.paintTiles_eq hside (Nat.le_refl _)]
  unfold Picture.paint
  refine if_congr (and_iff_left_of_imp fun houter => tileOf_lt hside ?_ ?_) rfl rfl
  · exact Nat.sub_lt_left_of_lt_add houter.1.1 houter.1.2
  · exact Nat.sub_lt_left_of_lt_add houter.2.1 houter.2.2

end Tiles

end Raster
