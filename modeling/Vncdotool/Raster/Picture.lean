import Mathlib.Algebra.Order.Group.Nat
import Mathlib.Data.List.GetD

/-!
# Picture — regions of cells and row-major buffers

A picture has a cell in every column and row.  Painting replaces the cells of a region by those of a
tile, and the latest of several tiles is the one that is seen.  A buffer holds a picture of a given
size if it begins with its rows, one after the other; then writing a line into the buffer, whole
rows, or a line into each of several rows is painting.
-/

namespace Raster

variable {α : Type*}

/-! ## Painting -/

/-- A cell in every column and row. -/
abbrev Picture (α : Type*) := ℕ → ℕ → α

/-- A rectangle of cells. -/
@[ext] structure Region where
  x : ℕ
  y : ℕ
  width : ℕ
  height : ℕ
  deriving DecidableEq, Repr

/-- The cell in this column and row lies in the region. -/
def Region.Covers (r : Region) (col row : ℕ) : Prop :=
  (r.x ≤ col ∧ col < r.x + r.width) ∧ r.y ≤ row ∧ row < r.y + r.height

instance (r : Region) (col row : ℕ) : Decidable (r.Covers col row) :=
  inferInstanceAs (Decidable (_ ∧ _))

/-- The picture with a tile over the cells of a region. -/
def Picture.paint (picture : Picture α) (r : Region) (tile : Picture α) : Picture α :=
  fun col row => if r.Covers col row then tile (col - r.x) (row - r.y) else picture col row

section Painting

variable {picture tile : Picture α} {r : Region} {col row : ℕ}

theorem Picture.paint_of_covers (h : r.Covers col row) :
    picture.paint r tile col row = tile (col - r.x) (row - r.y) :=
  if_pos h

theorem Picture.paint_of_not_covers (h : ¬ r.Covers col row) :
    picture.paint r tile col row = picture col row :=
  if_neg h

/-- A region of no height covers nothing. -/
theorem Picture.paint_of_height_zero (h : r.height = 0) : picture.paint r tile = picture := by
  funext col row
  apply Picture.paint_of_not_covers
  rintro ⟨_, hlow, hhigh⟩
  rw [h, Nat.add_zero] at hhigh
  exact absurd hlow (Nat.not_le.2 hhigh)

/-- A region is painted row by row. -/
theorem Picture.paint_row_paint (picture tile : Picture α) (x y width height : ℕ) :
    (picture.paint ⟨x, y, width, 1⟩ tile).paint ⟨x, y + 1, width, height⟩
        (fun col row => tile col (row + 1)) =
      picture.paint ⟨x, y, width, height + 1⟩ tile := by
  funext col row
  by_cases hcol : x ≤ col ∧ col < x + width
  · by_cases hfirst : row = y
    -- The first row is not among the others.
    · have hrest : ¬ Region.Covers ⟨x, y + 1, width, height⟩ col row := fun h => by
        have hlow : y + 1 ≤ row := h.2.1
        omega
      have hone : Region.Covers ⟨x, y, width, 1⟩ col row := ⟨hcol, by simp only; omega⟩
      have hall : Region.Covers ⟨x, y, width, height + 1⟩ col row := ⟨hcol, by simp only; omega⟩
      rw [Picture.paint_of_not_covers hrest, Picture.paint_of_covers hone,
        Picture.paint_of_covers hall]
    · have hone : ¬ Region.Covers ⟨x, y, width, 1⟩ col row := fun h => by
        have hlow : y ≤ row := h.2.1
        have hhigh : row < y + 1 := h.2.2
        omega
      by_cases hin : y + 1 ≤ row ∧ row < y + 1 + height
      · have hrest : Region.Covers ⟨x, y + 1, width, height⟩ col row := ⟨hcol, hin⟩
        have hall : Region.Covers ⟨x, y, width, height + 1⟩ col row :=
          ⟨hcol, by simp only; omega⟩
        have hindex : row - (y + 1) + 1 = row - y := by omega
        rw [Picture.paint_of_covers hrest, Picture.paint_of_covers hall]
        exact congrArg (tile (col - x)) hindex
      · have hrest : ¬ Region.Covers ⟨x, y + 1, width, height⟩ col row := fun h => hin h.2
        have hall : ¬ Region.Covers ⟨x, y, width, height + 1⟩ col row := fun h => by
          have hlow : y ≤ row := h.2.1
          have hhigh : row < y + (height + 1) := h.2.2
          omega
        rw [Picture.paint_of_not_covers hrest, Picture.paint_of_not_covers hone,
          Picture.paint_of_not_covers hall]
  · have hout (z n : ℕ) : ¬ Region.Covers ⟨x, z, width, n⟩ col row := fun h => hcol h.1
    rw [Picture.paint_of_not_covers (hout _ _), Picture.paint_of_not_covers (hout _ _),
      Picture.paint_of_not_covers (hout _ _)]

end Painting

/-! ## A history of edits -/

/-- The picture cut to a size. -/
def Picture.crop (picture : Picture α) (width height : ℕ) (blank : α) : Picture α :=
  fun col row => if col < width ∧ row < height then picture col row else blank

/-- A tile is painted over a region, or what lies outside a size is cut off. -/
inductive Edit (α : Type*)
  | paint (r : Region) (tile : Picture α)
  | crop (width height : ℕ)

/-- The cell of the latest tile that was painted over it and has not been cut off since, or `blank`
if there is none.  The latest edit stands first. -/
def latest (blank : α) : List (Edit α) → Picture α
  | [] => fun _ _ => blank
  | .paint r tile :: earlier => (latest blank earlier).paint r tile
  | .crop width height :: earlier => (latest blank earlier).crop width height blank

section Edits

variable {picture : Picture α} {width height col row : ℕ} {blank : α}

theorem Picture.crop_of_inside (h : col < width ∧ row < height) :
    picture.crop width height blank col row = picture col row :=
  if_pos h

theorem Picture.crop_of_outside (h : ¬ (col < width ∧ row < height)) :
    picture.crop width height blank col row = blank :=
  if_neg h

end Edits

/-! ## Writing into a buffer -/

/-- The buffer with `data` over it from `off` on. -/
def splice (buf : List α) (off : ℕ) (data : List α) : List α :=
  buf.take off ++ data ++ buf.drop (off + data.length)

section Splicing

variable {buf data : List α} {off : ℕ}

theorem length_splice (h : off + data.length ≤ buf.length) :
    (splice buf off data).length = buf.length := by
  unfold splice
  rw [List.length_append, List.length_append, List.length_take, List.length_drop]
  omega

theorem getElem?_splice_of_mem (h : off + data.length ≤ buf.length) {i : ℕ}
    (hlow : off ≤ i) (hhigh : i < off + data.length) :
    (splice buf off data)[i]? = data[i - off]? := by
  have htake : (buf.take off).length = off := by
    rw [List.length_take]
    omega
  unfold splice
  rw [List.append_assoc, List.getElem?_append_right (htake.trans_le hlow), htake]
  exact List.getElem?_append_left (by omega)

theorem getElem?_splice_of_not_mem (h : off + data.length ≤ buf.length) {i : ℕ}
    (hout : i < off ∨ off + data.length ≤ i) : (splice buf off data)[i]? = buf[i]? := by
  have htake : (buf.take off).length = off := by
    rw [List.length_take]
    omega
  unfold splice
  rcases hout with hbefore | hafter
  · rw [List.append_assoc, List.getElem?_append_left (hbefore.trans_eq htake.symm),
      List.getElem?_take_of_lt hbefore]
  · have hlength : (buf.take off ++ data).length = off + data.length := by
      rw [List.length_append, htake]
    rw [List.getElem?_append_right (hlength.trans_le hafter), hlength, List.getElem?_drop]
    exact congrArg (buf[·]?) (Nat.add_sub_cancel' hafter)

/-- What lies behind the data is left as it is. -/
theorem drop_splice (h : off + data.length ≤ buf.length) {n : ℕ} (hn : off + data.length ≤ n) :
    (splice buf off data).drop n = buf.drop n := by
  apply List.ext_getElem?
  intro i
  rw [List.getElem?_drop, List.getElem?_drop]
  exact getElem?_splice_of_not_mem h (Or.inr (hn.trans (Nat.le_add_right _ _)))

end Splicing

/-- A line for each of `n` rows from row `k` on, from column `x` on, where `width` cells make a
row. -/
def spliceRows (width x y : ℕ) (line : ℕ → List α) : ℕ → ℕ → List α → List α
  | 0, _, buf => buf
  | n + 1, k, buf => spliceRows width x y line n (k + 1) (splice buf ((y + k) * width + x) (line k))

/-! ## Row-major buffers -/

/-- The buffer begins with the rows of the picture. -/
def Holds (buf : List α) (width height : ℕ) (picture : Picture α) : Prop :=
  ∀ col < width, ∀ row < height, buf[row * width + col]? = some (picture col row)

section Buffers

variable {buf data : List α} {width height x y w h : ℕ} {picture tile : Picture α}

/-- A cell comes before the next row. -/
theorem index_lt {col row row' : ℕ} (hcol : col < width) (hrow : row < row') :
    row * width + col < row' * width := by
  calc
    row * width + col < row * width + width := Nat.add_lt_add_left hcol _
    _ = (row + 1) * width := (Nat.succ_mul row width).symm
    _ ≤ row' * width := Nat.mul_le_mul_right width hrow

/-- Writing a line into a row is painting a region of height one. -/
theorem Holds.splice_row (hbuf : Holds buf width height picture)
    (hlength : height * width ≤ buf.length) (hx : x + data.length ≤ width) (hy : y < height)
    (hdata : Holds data data.length 1 tile) :
    Holds (splice buf (y * width + x) data) width height
      (picture.paint ⟨x, y, data.length, 1⟩ tile) := by
  have hfits : y * width + x + data.length ≤ buf.length := by
    calc
      y * width + x + data.length ≤ y * width + width := by omega
      _ = (y + 1) * width := (Nat.succ_mul y width).symm
      _ ≤ height * width := Nat.mul_le_mul_right width hy
      _ ≤ buf.length := hlength
  intro col hcol row hrow
  by_cases hsame : row = y
  · subst hsame
    by_cases hin : x ≤ col ∧ col < x + data.length
    · have hcovers : Region.Covers ⟨x, row, data.length, 1⟩ col row :=
        ⟨hin, Nat.le_refl _, Nat.lt_succ_self _⟩
      have hcell := hdata (col - x) (by omega) 0 Nat.one_pos
      rw [Nat.zero_mul, Nat.zero_add] at hcell
      rw [getElem?_splice_of_mem hfits (by omega) (by omega), Picture.paint_of_covers hcovers,
        Nat.add_sub_add_left, hcell, Nat.sub_self]
    · have hcovers : ¬ Region.Covers ⟨x, row, data.length, 1⟩ col row := fun h => hin h.1
      rw [getElem?_splice_of_not_mem hfits (by omega), Picture.paint_of_not_covers hcovers]
      exact hbuf col hcol row hrow
  · have hcovers : ¬ Region.Covers ⟨x, y, data.length, 1⟩ col row := fun h => by
      have hlow : y ≤ row := h.2.1
      have hhigh : row < y + 1 := h.2.2
      omega
    rw [Picture.paint_of_not_covers hcovers]
    refine (getElem?_splice_of_not_mem hfits ?_).trans (hbuf col hcol row hrow)
    rcases Nat.lt_or_gt_of_ne hsame with hbefore | hafter
    · exact Or.inl ((index_lt hcol hbefore).trans_le (Nat.le_add_right _ _))
    · have hnext : (y + 1) * width ≤ row * width := Nat.mul_le_mul_right width hafter
      rw [Nat.succ_mul] at hnext
      exact Or.inr (by omega)

/-- Writing whole rows is painting a region as wide as the picture. -/
theorem Holds.splice_block (hbuf : Holds buf width height picture)
    (hlength : height * width ≤ buf.length) (hy : y + h ≤ height)
    (hdata : Holds data width h tile) (hdata_length : data.length = h * width) :
    Holds (splice buf (y * width) data) width height (picture.paint ⟨0, y, width, h⟩ tile) := by
  have hend : y * width + data.length = (y + h) * width := by
    rw [hdata_length, Nat.add_mul]
  have hfits : y * width + data.length ≤ buf.length := by
    rw [hend]
    exact (Nat.mul_le_mul_right width hy).trans hlength
  intro col hcol row hrow
  by_cases hin : y ≤ row ∧ row < y + h
  · have hcovers : Region.Covers ⟨0, y, width, h⟩ col row :=
      ⟨⟨Nat.zero_le _, hcol.trans_eq (Nat.zero_add _).symm⟩, hin⟩
    have hlow : y * width ≤ row * width + col :=
      (Nat.mul_le_mul_right width hin.1).trans (Nat.le_add_right _ _)
    have hhigh : row * width + col < y * width + data.length := by
      rw [hend]
      exact index_lt hcol hin.2
    have hindex : row * width + col - y * width = (row - y) * width + col := by
      have hle : y * width ≤ row * width := Nat.mul_le_mul_right width hin.1
      rw [Nat.sub_mul]
      omega
    rw [getElem?_splice_of_mem hfits hlow hhigh, hindex, Picture.paint_of_covers hcovers]
    exact hdata col hcol (row - y) (by omega)
  · have hcovers : ¬ Region.Covers ⟨0, y, width, h⟩ col row := fun h => hin h.2
    rw [Picture.paint_of_not_covers hcovers]
    refine (getElem?_splice_of_not_mem hfits ?_).trans (hbuf col hcol row hrow)
    by_cases hbefore : row < y
    · exact Or.inl (index_lt hcol hbefore)
    · have hafter : y + h ≤ row := by omega
      rw [hend]
      exact Or.inr ((Nat.mul_le_mul_right width hafter).trans (Nat.le_add_right _ _))

/-- Writing every row leaves nothing of what was there. -/
theorem Holds.splice_all (hlength : height * width ≤ buf.length)
    (hdata : Holds data width height tile) (hdata_length : data.length = height * width) :
    Holds (splice buf 0 data) width height tile := by
  intro col hcol row hrow
  have hindex : row * width + col < data.length := (index_lt hcol hrow).trans_eq hdata_length.symm
  have hfits : 0 + data.length ≤ buf.length := by
    rw [Nat.zero_add, hdata_length]
    exact hlength
  rw [getElem?_splice_of_mem hfits (Nat.zero_le _) (hindex.trans_eq (Nat.zero_add _).symm),
    Nat.sub_zero]
  exact hdata col hcol row hrow

/-- The cells of a list are those it has at their places. -/
theorem holds_getD (blank : α) (hlength : data.length = height * width) :
    Holds data width height fun col row => data.getD (row * width + col) blank := by
  intro col hcol row hrow
  have hindex : row * width + col < data.length := (index_lt hcol hrow).trans_eq hlength.symm
  rw [List.getElem?_eq_getElem hindex]
  exact congrArg some (List.getD_eq_getElem data blank hindex).symm

/-- One line of a tile. -/
theorem Holds.line (hdata : Holds data width height tile) {i : ℕ} (hi : i < height) :
    Holds ((data.drop (i * width)).take width) width 1 fun col row => tile col (row + i) := by
  intro col hcol row hrow
  have hzero : row = 0 := Nat.lt_one_iff.1 hrow
  subst hzero
  rw [Nat.zero_mul, Nat.zero_add, List.getElem?_take_of_lt hcol, List.getElem?_drop]
  refine (hdata col hcol i hi).trans (congrArg (fun k => some (tile col k)) ?_)
  exact (Nat.zero_add i).symm

/-- A line in each of several rows leaves the length and what is behind the rows alone. -/
theorem spliceRows_outside {line : ℕ → List α} {n k : ℕ}
    (hlength : height * width ≤ buf.length) (hx : x + w ≤ width) (hy : y + k + n ≤ height)
    (hline : ∀ i < k + n, (line i).length = w) :
    (spliceRows width x y line n k buf).length = buf.length ∧
      (spliceRows width x y line n k buf).drop (height * width) = buf.drop (height * width) := by
  induction n generalizing k buf with
  | zero => exact ⟨rfl, rfl⟩
  | succ n ih =>
      have hend : (y + k) * width + x + (line k).length ≤ height * width := by
        calc
          (y + k) * width + x + (line k).length ≤ (y + k) * width + width := by
            rw [hline k (by omega)]
            omega
          _ = (y + k + 1) * width := (Nat.succ_mul (y + k) width).symm
          _ ≤ height * width := Nat.mul_le_mul_right width (by omega)
      have hone := length_splice (hend.trans hlength)
      have hrest := ih (hlength.trans_eq hone.symm) (k := k + 1) (by omega)
        fun i hi => hline i (by omega)
      unfold spliceRows
      exact ⟨hrest.1.trans hone, hrest.2.trans (drop_splice (hend.trans hlength) hend)⟩

/-- A line in each of several rows is painting a region. -/
theorem Holds.splice_rows {line : ℕ → List α} {n k : ℕ} (hbuf : Holds buf width height picture)
    (hlength : height * width ≤ buf.length) (hx : x + w ≤ width) (hy : y + k + n ≤ height)
    (hline : ∀ i < k + n, (line i).length = w)
    (hcells : ∀ i < k + n, Holds (line i) w 1 fun col row => tile col (row + i)) :
    Holds (spliceRows width x y line n k buf) width height
      (picture.paint ⟨x, y + k, w, n⟩ fun col row => tile col (row + k)) := by
  -- By induction on the rows that are left: the first one, then the others over it.
  induction n generalizing k buf picture with
  | zero =>
      rw [Picture.paint_of_height_zero rfl]
      exact hbuf
  | succ n ih =>
      have hfirst : Holds (splice buf ((y + k) * width + x) (line k)) width height
          (picture.paint ⟨x, y + k, w, 1⟩ fun col row => tile col (row + k)) := by
        have hlineK : Holds (line k) (line k).length 1 fun col row => tile col (row + k) := by
          rw [hline k (by omega)]
          exact hcells k (by omega)
        have hpaint := hbuf.splice_row (x := x) hlength (by rw [hline k (by omega)]; exact hx)
          (y := y + k) (by omega) hlineK
        rw [hline k (by omega)] at hpaint
        exact hpaint
      have hone : (splice buf ((y + k) * width + x) (line k)).length = buf.length := by
        apply length_splice
        calc
          (y + k) * width + x + (line k).length ≤ (y + k) * width + width := by
            rw [hline k (by omega)]
            omega
          _ = (y + k + 1) * width := (Nat.succ_mul (y + k) width).symm
          _ ≤ height * width := Nat.mul_le_mul_right width (by omega)
          _ ≤ buf.length := hlength
      have hrest := ih hfirst (hlength.trans_eq hone.symm) (k := k + 1) (by omega)
        (fun i hi => hline i (by omega)) fun i hi => hcells i (by omega)
      rw [← Picture.paint_row_paint]
      have hshift : (fun col row => tile col (row + (k + 1))) =
          fun col row => (fun col row => tile col (row + k)) col (row + 1) := by
        funext col row
        exact congrArg (tile col) (by omega)
      rw [hshift] at hrest
      exact hrest

end Buffers

/-! ## The cells of a picture -/

/-- The rows of the picture, one after the other. -/
def cells (width height : ℕ) (picture : Picture α) : List α :=
  (List.range height).flatMap fun row => (List.range width).map fun col => picture col row

section Cells

variable {buf buf' : List α} {width height : ℕ} {picture picture' : Picture α}

theorem cells_succ (width height : ℕ) (picture : Picture α) :
    cells width (height + 1) picture =
      cells width height picture ++ (List.range width).map fun col => picture col height := by
  unfold cells
  rw [List.range_succ, List.flatMap_append]
  exact congrArg (_ ++ ·) (List.flatMap_singleton _ _)

theorem length_cells (width height : ℕ) (picture : Picture α) :
    (cells width height picture).length = height * width := by
  induction height with
  | zero => exact (Nat.zero_mul width).symm
  | succ height ih =>
      rw [cells_succ, List.length_append, ih, List.length_map, List.length_range, Nat.succ_mul]

theorem holds_cells (width height : ℕ) (picture : Picture α) :
    Holds (cells width height picture) width height picture := by
  induction height with
  | zero => exact fun _ _ _ hrow => absurd hrow (Nat.not_lt_zero _)
  | succ height ih =>
      intro col hcol row hrow
      rw [cells_succ]
      rcases Nat.lt_succ_iff_lt_or_eq.1 hrow with hlt | heq
      · rw [List.getElem?_append_left]
        · exact ih col hcol row hlt
        · rw [length_cells]
          exact index_lt hcol hlt
      · subst heq
        rw [List.getElem?_append_right, length_cells, Nat.add_sub_cancel_left]
        · rw [List.getElem?_map, List.getElem?_range hcol]
          rfl
        · rw [length_cells]
          exact Nat.le_add_right _ _

/-- Two buffers of a picture's length that hold the same picture are the same. -/
theorem Holds.unique (hbuf : Holds buf width height picture)
    (hbuf' : Holds buf' width height picture) (hlength : buf.length = height * width)
    (hlength' : buf'.length = height * width) : buf = buf' := by
  apply List.ext_getElem?
  intro i
  by_cases hi : i < height * width
  · have hwidth : 0 < width := Nat.pos_of_ne_zero fun hzero => by
      rw [hzero, Nat.mul_zero] at hi
      exact Nat.not_lt_zero _ hi
    have hrow : i / width < height := (Nat.div_lt_iff_lt_mul hwidth).2 hi
    have hindex : i / width * width + i % width = i := Nat.div_add_mod' i width
    have hcell := hbuf (i % width) (Nat.mod_lt i hwidth) (i / width) hrow
    have hcell' := hbuf' (i % width) (Nat.mod_lt i hwidth) (i / width) hrow
    rw [hindex] at hcell hcell'
    exact hcell.trans hcell'.symm
  · rw [List.getElem?_eq_none (hlength.trans_le (Nat.not_lt.1 hi)),
      List.getElem?_eq_none (hlength'.trans_le (Nat.not_lt.1 hi))]

theorem Holds.take_eq_cells (hbuf : Holds buf width height picture)
    (hlength : height * width ≤ buf.length) :
    buf.take (height * width) = cells width height picture := by
  have htake : Holds (buf.take (height * width)) width height picture := by
    intro col hcol row hrow
    rw [List.getElem?_take_of_lt (index_lt hcol hrow)]
    exact hbuf col hcol row hrow
  have hlength' : (buf.take (height * width)).length = height * width := by
    rw [List.length_take, Nat.min_eq_left hlength]
  exact htake.unique (holds_cells _ _ _) hlength' (length_cells _ _ _)

/-- What follows a picture's rows is not looked at. -/
theorem Holds.append (hbuf : Holds buf width height picture) (rest : List α) :
    Holds (buf ++ rest) width height picture := by
  intro col hcol row hrow
  have hcell := hbuf col hcol row hrow
  rw [List.getElem?_append_left (List.getElem?_eq_some_iff.1 hcell).1]
  exact hcell

/-- A tile as large as the picture covers it. -/
theorem Picture.paint_all {tile : Picture α} {col row : ℕ} (hcol : col < width) (hrow : row < height) :
    tile col row = picture.paint ⟨0, 0, width, height⟩ tile col row := by
  have hcovers : Region.Covers ⟨0, 0, width, height⟩ col row :=
    ⟨⟨Nat.zero_le _, hcol.trans_eq (Nat.zero_add _).symm⟩, Nat.zero_le _,
      hrow.trans_eq (Nat.zero_add _).symm⟩
  rw [Picture.paint_of_covers hcovers, Nat.sub_zero, Nat.sub_zero]

/-- Only the cells inside the size matter. -/
theorem Holds.congr (hbuf : Holds buf width height picture)
    (h : ∀ col < width, ∀ row < height, picture col row = picture' col row) :
    Holds buf width height picture' :=
  fun col hcol row hrow => (hbuf col hcol row hrow).trans (congrArg some (h col hcol row hrow))

end Cells

end Raster
