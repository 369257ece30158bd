import Vncdotool.Decoders.Buffer
import Vncdotool.Raster.Picture
import Vncdotool.Streaming.Effects

/-!
# Canvas — a rectangle buffer is a plain canvas

The canvas starts all zero, and each call that is accepted overwrites its rectangle.  The buffer
takes three ways of writing, clears its backing late and may hold a whole blit by reference; what it
shows is this canvas all the same, whatever the backing held before.
-/

namespace Vncdotool

open Wire Streaming Raster

/-! ## The canvas -/

/-- A call of one of the two drawing methods. -/
inductive Draw
  | blit (x y w h : ℤ) (pixels : Bytes)
  | fill (x y w h : ℤ) (color : Bytes)
  deriving DecidableEq, Repr

/-- The rectangle is not negative and lies in a buffer of this size. -/
def Inside (width height : ℕ) (x y w h : ℤ) : Prop :=
  (0 ≤ x ∧ 0 ≤ y ∧ 0 ≤ w ∧ 0 ≤ h) ∧ x + w ≤ width ∧ y + h ≤ height

instance (width height : ℕ) (x y w h : ℤ) : Decidable (Inside width height x y w h) :=
  inferInstanceAs (Decidable (_ ∧ _))

namespace Draw

/-- The method that is called. -/
def method : Draw → Drawing Unit
  | .blit x y w h pixels => RectBuffer.blit x y w h pixels
  | .fill x y w h color => RectBuffer.fill x y w h color

/-- The rectangle lies in the buffer and the data has the length it takes. -/
def Valid (width height bypp : ℕ) : Draw → Prop
  | .blit x y w h pixels =>
      Inside width height x y w h ∧ pixels.length = w.toNat * h.toNat * bypp
  | .fill x y w h color => Inside width height x y w h ∧ color.length = bypp

instance (width height bypp : ℕ) (draw : Draw) : Decidable (draw.Valid width height bypp) := by
  cases draw with
  | blit x y w h pixels => exact inferInstanceAs (Decidable (_ ∧ _))
  | fill x y w h color => exact inferInstanceAs (Decidable (_ ∧ _))

/-- The rectangle, in bytes across and rows down. -/
def region (bypp : ℕ) : Draw → Region
  | .blit x y w h _ => ⟨x.toNat * bypp, y.toNat, w.toNat * bypp, h.toNat⟩
  | .fill x y w h _ => ⟨x.toNat * bypp, y.toNat, w.toNat * bypp, h.toNat⟩

/-- The bytes that are drawn: the rows of a blit, or one pixel again and again. -/
def tile (bypp : ℕ) : Draw → Picture UInt8
  | .blit _ _ w _ pixels => fun col row => pixels.getD (row * (w.toNat * bypp) + col) 0
  | .fill _ _ _ _ color => fun col _ => color.getD (col % bypp) 0

/-- The canvas with the rectangle overwritten. -/
def on (bypp : ℕ) (canvas : Picture UInt8) (draw : Draw) : Picture UInt8 :=
  canvas.paint (draw.region bypp) (draw.tile bypp)

end Draw

/-- The canvas that starts all zero and on which each valid call overwrites its rectangle. -/
def canvas (width height bypp : ℕ) (draws : List Draw) : Picture UInt8 :=
  (draws.filter fun draw => draw.Valid width height bypp).foldl (Draw.on bypp) fun _ _ => 0

namespace RectBuffer

/-- The buffer after the calls, whose exceptions are caught. -/
def draws (calls : List Draw) (buffer : RectBuffer) : RectBuffer :=
  calls.foldl (fun buffer draw => finalState (draw.method buffer)) buffer

/-- The buffer over `backing` refuses what is not valid, without a trace, shows the canvas of the
calls so far, and keeps to its part of the backing. -/
structure Refines (width height bypp : ℕ) (backing : Bytes) (calls : List Draw)
    (buffer : RectBuffer) : Prop where
  raises : ∀ draw : Draw, (∃ buffer', draw.method buffer = .error .decodeError buffer') ↔
    ¬ draw.Valid width height bypp
  returns : ∀ draw : Draw, (∃ buffer', draw.method buffer = .ok () buffer') ↔
    draw.Valid width height bypp
  unchanged : ∀ (draw : Draw) (e : PyError) (buffer' : RectBuffer),
    draw.method buffer = .error e buffer' → buffer' = buffer
  shows : (∃ draw ∈ calls, draw.Valid width height bypp) →
    buffer.tobytes = cells (width * bypp) height (canvas width height bypp calls)
  length : buffer.backing.length = backing.length
  beyond : buffer.backing.drop (width * height * bypp) = backing.drop (width * height * bypp)

/-! ## Repeated data -/

theorem length_repeated (data : Bytes) (n : ℕ) : (repeated data n).length = n * data.length := by
  induction n with
  | zero => exact (Nat.zero_mul _).symm
  | succ n ih =>
      have hcons : repeated data (n + 1) = data ++ repeated data n := rfl
      rw [hcons, List.length_append, ih, Nat.succ_mul, Nat.add_comm]

theorem getElem?_repeated {data : Bytes} {n i : ℕ} (hi : i < n * data.length) :
    (repeated data n)[i]? = data[i % data.length]? := by
  induction n generalizing i with
  | zero =>
      rw [Nat.zero_mul] at hi
      exact absurd hi (Nat.not_lt_zero i)
  | succ n ih =>
      have hcons : repeated data (n + 1) = data ++ repeated data n := rfl
      rw [hcons]
      by_cases hfirst : i < data.length
      · rw [List.getElem?_append_left hfirst, Nat.mod_eq_of_lt hfirst]
      · have hle : data.length ≤ i := Nat.not_lt.1 hfirst
        rw [Nat.succ_mul] at hi
        rw [List.getElem?_append_right hle, ih (by omega), ← Nat.mod_eq_sub_mod hle]

/-- A pixel again and again is a line of the fill. -/
theorem holds_repeated (color : Bytes) (w : ℕ) :
    Holds (repeated color w) (w * color.length) 1 fun col _ => color.getD (col % color.length) 0 := by
  intro col hcol row hrow
  have hpos : 0 < color.length := Nat.pos_of_ne_zero fun hzero => by
    rw [hzero, Nat.mul_zero] at hcol
    exact absurd hcol (Nat.not_lt_zero col)
  have hindex : col % color.length < color.length := Nat.mod_lt col hpos
  have hzero : row = 0 := Nat.lt_one_iff.1 hrow
  subst hzero
  rw [Nat.zero_mul, Nat.zero_add, getElem?_repeated hcol, List.getElem?_eq_getElem hindex]
  exact congrArg some (List.getD_eq_getElem color 0 hindex).symm

/-- A line again and again is every row of the fill. -/
theorem holds_repeated_rows {row : Bytes} {h : ℕ} {tile : Picture UInt8} {width : ℕ}
    (hlength : row.length = width) (hrow : Holds row width 1 tile) :
    Holds (repeated row h) width h fun col _ => tile col 0 := by
  intro col hcol k hk
  have hindex : k * width + col < h * row.length := by
    rw [hlength]
    exact index_lt hcol hk
  have hmod : (k * width + col) % width = col := by
    rw [Nat.mul_comm, Nat.mul_add_mod, Nat.mod_eq_of_lt hcol]
  have hcell := hrow col hcol 0 Nat.one_pos
  rw [Nat.zero_mul, Nat.zero_add] at hcell
  rw [getElem?_repeated hindex, hlength, hmod]
  exact hcell

/-! ## The loops -/

theorem blitRows_eq (stride xOff rowBytes y : ℕ) (pixels : Bytes) (n k : ℕ) (buf : Bytes) :
    blitRows stride xOff rowBytes y pixels n k buf =
      spliceRows stride xOff y (fun i => slice pixels (i * rowBytes) rowBytes) n k buf := by
  induction n generalizing k buf with
  | zero => rfl
  | succ n ih => exact ih (k + 1) _

theorem fillRows_eq (stride xOff y : ℕ) (row : Bytes) (n k : ℕ) (buf : Bytes) :
    fillRows stride xOff y row n k buf = spliceRows stride xOff y (fun _ => row) n k buf := by
  induction n generalizing k buf with
  | zero => rfl
  | succ n ih => exact ih (k + 1) _

/-! ## What a buffer shows -/

/-- A buffer over `backing` that has its part of it to write in. -/
structure Over (width height bypp : ℕ) (backing : Bytes) (buffer : RectBuffer) : Prop where
  width_eq : buffer.width = width
  height_eq : buffer.height = height
  bypp_eq : buffer.bypp = bypp
  nbytes : buffer.nbytes = height * (width * bypp)
  fits : height * (width * bypp) ≤ backing.length
  length : buffer.backing.length = backing.length
  beyond : buffer.backing.drop (height * (width * bypp)) =
    backing.drop (height * (width * bypp))

/-- A buffer that shows a canvas, held or written. -/
structure Shows (width height bypp : ℕ) (backing : Bytes) (canvas : Picture UInt8)
    (buffer : RectBuffer) : Prop extends Over width height bypp backing buffer where
  held : ∀ pixels, buffer.whole = some pixels →
    buffer.covered = true ∧ pixels.length = height * (width * bypp) ∧
      Holds pixels (width * bypp) height canvas
  written : buffer.whole = none → buffer.covered = true →
    Holds buffer.backing (width * bypp) height canvas
  blank : buffer.covered = false → canvas = fun _ _ => 0

section Shows

variable {width height bypp : ℕ} {backing : Bytes} {canvas tile : Picture UInt8}
  {buffer : RectBuffer}

/-- The part of the backing that is the buffer's is replaced. -/
theorem Over.replace (hover : Over width height bypp backing buffer) {data : Bytes}
    (hdata : data.length = height * (width * bypp)) {whole : Option Bytes} {covered : Bool} :
    Over width height bypp backing
      { buffer with
        backing := data ++ buffer.backing.drop buffer.nbytes
        whole := whole
        covered := covered } := by
  have hfits := hover.fits
  have hlength := hover.length
  refine ⟨hover.width_eq, hover.height_eq, hover.bypp_eq, hover.nbytes, hfits, ?_, ?_⟩
  · rw [List.length_append, List.length_drop, hover.nbytes, hdata]
    omega
  · have hdrop : (data ++ buffer.backing.drop buffer.nbytes).drop data.length =
        buffer.backing.drop buffer.nbytes := List.drop_left
    rw [hdata, hover.nbytes] at hdrop
    rw [hover.nbytes]
    exact hdrop.trans hover.beyond

/-- Writing into the buffer's part of the backing. -/
theorem Over.write (hover : Over width height bypp backing buffer) {data : Bytes} {covered : Bool}
    (hlength : data.length = buffer.backing.length)
    (hbeyond : data.drop (height * (width * bypp)) =
      buffer.backing.drop (height * (width * bypp))) :
    Over width height bypp backing { buffer with backing := data, covered := covered } :=
  ⟨hover.width_eq, hover.height_eq, hover.bypp_eq, hover.nbytes, hover.fits, hlength.trans hover.length,
    hbeyond.trans hover.beyond⟩

theorem Shows.materialize (hshows : Shows width height bypp backing canvas buffer) :
    Shows width height bypp backing canvas buffer.materialize ∧
      buffer.materialize.whole = none := by
  unfold RectBuffer.materialize
  cases hwhole : buffer.whole with
  | none => exact ⟨hshows, hwhole⟩
  | some pixels =>
      rcases hshows.held pixels hwhole with ⟨hcovered, hlength, hholds⟩
      refine ⟨⟨hshows.toOver.replace hlength, nofun, fun _ _ => ?_, fun hblank => ?_⟩, rfl⟩
      · exact hholds.append _
      · exact absurd hcovered (Bool.eq_false_iff.1 hblank)

/-- Once covered, the canvas is written in the backing. -/
theorem Shows.ready (hshows : Shows width height bypp backing canvas buffer) :
    Shows width height bypp backing canvas buffer.materialize.clear ∧
      buffer.materialize.clear.whole = none ∧ buffer.materialize.clear.covered = true := by
  rcases hshows.materialize with ⟨hmaterialized, hnone⟩
  unfold RectBuffer.clear
  split_ifs with hcovered
  · exact ⟨hmaterialized, hnone, hcovered⟩
  · have hblank := hmaterialized.blank (Bool.eq_false_iff.2 hcovered)
    have hzeros : (List.replicate buffer.materialize.nbytes (0 : UInt8)).length =
        height * (width * bypp) := by
      rw [List.length_replicate, hmaterialized.nbytes]
    refine ⟨⟨hmaterialized.toOver.replace hzeros, fun pixels hpixels => ?_, fun _ _ => ?_,
      fun hfalse => ?_⟩, hnone, rfl⟩
    · rw [hnone] at hpixels
      cases hpixels
    -- The backing is cleared now, and the canvas is still all zero.
    · refine Holds.append (fun col hcol row hrow => ?_) _
      rw [hblank, List.getElem?_replicate_of_lt]
      rw [hmaterialized.nbytes]
      exact index_lt hcol hrow
    · cases hfalse

/-- A canvas that has been written is shown. -/
theorem Shows.of_holds (hover : Over width height bypp backing buffer)
    (hnone : buffer.whole = none) (hcovered : buffer.covered = true)
    (hholds : Holds buffer.backing (width * bypp) height canvas) :
    Shows width height bypp backing canvas buffer := by
  refine ⟨hover, fun pixels hpixels => ?_, fun _ _ => hholds, fun hfalse => ?_⟩
  · rw [hnone] at hpixels
    cases hpixels
  · rw [hcovered] at hfalse
    cases hfalse

/-- What is shown is what `tobytes` gives. -/
theorem Shows.tobytes (hshows : Shows width height bypp backing canvas buffer)
    (hcovered : buffer.covered = true) :
    buffer.tobytes = cells (width * bypp) height canvas := by
  unfold RectBuffer.tobytes
  cases hwhole : buffer.whole with
  | some pixels =>
      rcases hshows.held pixels hwhole with ⟨_, hlength, hholds⟩
      exact hholds.unique (holds_cells _ _ _) hlength (length_cells _ _ _)
  | none =>
      dsimp only
      rw [hshows.nbytes]
      refine (hshows.written hwhole hcovered).take_eq_cells ?_
      rw [hshows.length]
      exact hshows.fits

/-! ## The methods -/

theorem ensures_checkRect {x y w h : ℤ} :
    Ensures (checkRect x y w h) buffer
      (fun _ buffer' => buffer' = buffer ∧ Inside buffer.width buffer.height x y w h)
      fun e buffer' => e = .decodeError ∧ buffer' = buffer ∧
        ¬ Inside buffer.width buffer.height x y w h := by
  refine ensures_bind.2 (ensures_ite.2 ⟨fun hnegative => ⟨rfl, rfl, fun hinside => ?_⟩,
    fun hnonneg => ensures_ite.2 ⟨fun hpast => ⟨rfl, rfl, fun hinside => ?_⟩,
      fun hends => ⟨rfl, ?_⟩⟩⟩)
  · have hpositive := hinside.1
    omega
  · have hends := hinside.2
    omega
  · exact ⟨by omega, by omega⟩

/-- Whole rows are drawn by one slice assignment. -/
theorem Shows.block (hshows : Shows width height bypp backing canvas buffer)
    (hnone : buffer.whole = none) (hcovered : buffer.covered = true) {y h : ℕ} {data : Bytes}
    (hy : y + h ≤ height) (hdata : Holds data (width * bypp) h tile)
    (hlength : data.length = h * (width * bypp)) :
    Shows width height bypp backing (canvas.paint ⟨0, y, width * bypp, h⟩ tile)
      (writeBacking (y * (width * bypp)) data buffer) := by
  have hfits : height * (width * bypp) ≤ buffer.backing.length :=
    hshows.fits.trans_eq hshows.length.symm
  have hend : y * (width * bypp) + data.length ≤ height * (width * bypp) := by
    rw [hlength, ← Nat.add_mul]
    exact Nat.mul_le_mul_right _ hy
  have hover : Over width height bypp backing (writeBacking (y * (width * bypp)) data buffer) :=
    hshows.toOver.write (length_splice (hend.trans hfits)) (drop_splice (hend.trans hfits) hend)
  exact Shows.of_holds hover hnone hcovered
    ((hshows.written hnone hcovered).splice_block hfits hy hdata hlength)

/-- A part of each of several rows is drawn by a slice assignment for every row. -/
theorem Shows.rows (hshows : Shows width height bypp backing canvas buffer)
    (hnone : buffer.whole = none) (hcovered : buffer.covered = true) {x y w h : ℕ}
    {line : ℕ → Bytes} (hx : x + w ≤ width) (hy : y + h ≤ height)
    (hlength : ∀ i < h, (line i).length = w * bypp)
    (hline : ∀ i < h, Holds (line i) (w * bypp) 1 fun col row => tile col (row + i)) :
    Shows width height bypp backing (canvas.paint ⟨x * bypp, y, w * bypp, h⟩ tile)
      { buffer with
        backing := spliceRows (width * bypp) (x * bypp) y line h 0 buffer.backing } := by
  have hfits : height * (width * bypp) ≤ buffer.backing.length :=
    hshows.fits.trans_eq hshows.length.symm
  have hcols : x * bypp + w * bypp ≤ width * bypp := by
    rw [← Nat.add_mul]
    exact Nat.mul_le_mul_right _ hx
  have hlength' : ∀ i < 0 + h, (line i).length = w * bypp := fun i hi => hlength i (by omega)
  have houtside := spliceRows_outside hfits hcols (k := 0) hy hlength'
  have hholds := (hshows.written hnone hcovered).splice_rows hfits hcols (k := 0) hy hlength'
    fun i hi => hline i (by omega)
  exact Shows.of_holds (hshows.toOver.write houtside.1 houtside.2) hnone hcovered hholds

theorem ensures_blit (hshows : Shows width height bypp backing canvas buffer) {x y w h : ℤ}
    {pixels : Bytes} :
    Ensures (blit x y w h pixels) buffer
      (fun _ buffer' => (Draw.blit x y w h pixels).Valid width height bypp ∧
        Shows width height bypp backing ((Draw.blit x y w h pixels).on bypp canvas) buffer' ∧
        buffer'.covered = true)
      fun e buffer' => e = .decodeError ∧ buffer' = buffer ∧
        ¬ (Draw.blit x y w h pixels).Valid width height bypp := by
  have hwidth := hshows.width_eq
  have hheight := hshows.height_eq
  have hbypp := hshows.bypp_eq
  subst hwidth hheight hbypp
  refine ensures_bind.2 (Ensures.mono ensures_checkRect ?_ ?_)
  · rintro _ buffer ⟨rfl, hinside⟩
    refine ensures_bind.2 (ensures_ite.2 ⟨fun hwrong => ⟨rfl, rfl, fun hvalid => ?_⟩,
      fun hright => ?_⟩)
    · exact hwrong hvalid.2
    have hlength : pixels.length = w.toNat * h.toNat * buffer.bypp := not_not.1 hright
    have hvalid : (Draw.blit x y w h pixels).Valid buffer.width buffer.height buffer.bypp :=
      ⟨hinside, hlength⟩
    have hlength' : pixels.length = h.toNat * (w.toNat * buffer.bypp) := by
      rw [hlength]
      ring
    have htile : Holds pixels (w.toNat * buffer.bypp) h.toNat
        ((Draw.blit x y w h pixels).tile buffer.bypp) := holds_getD 0 hlength'
    rcases hshows.ready with ⟨hready, hnone, hcovered⟩
    refine ensures_ite.2 ⟨fun hall => ⟨hvalid, ?_, rfl⟩, fun hpart =>
      ensures_bind.2 (ensures_bind.2 (ensures_ite.2 ⟨fun hrows => ⟨hvalid, ?_, hcovered⟩,
        fun hcols => ⟨hvalid, ?_, hcovered⟩⟩))⟩
    -- The whole rectangle is held as it came.
    · rcases hall with ⟨rfl, rfl, rfl, rfl⟩
      simp only [Int.toNat_natCast] at hlength' htile
      have hcanvas : Holds pixels (buffer.width * buffer.bypp) buffer.height
          ((Draw.blit 0 0 buffer.width buffer.height pixels).on buffer.bypp canvas) := by
        refine htile.congr fun col hcol row hrow => ?_
        have hpaint := @Picture.paint_all _ _ _ canvas
          ((Draw.blit 0 0 buffer.width buffer.height pixels).tile buffer.bypp) _ _ hcol hrow
        simpa [Draw.on, Draw.region] using hpaint
      refine ⟨⟨rfl, rfl, rfl, hshows.nbytes, hshows.fits, hshows.length, hshows.beyond⟩,
        fun p hp => ?_, fun hfalse => ?_, fun hfalse => ?_⟩
      · cases hp
        exact ⟨rfl, hlength', hcanvas⟩
      · cases hfalse
      · cases hfalse
    -- Whole rows.
    · rcases hrows with ⟨rfl, rfl⟩
      rcases hinside with ⟨hpositive, _, hbelow⟩
      have hblock := hready.block hnone hcovered (y := y.toNat) (h := h.toNat) (by omega) htile
        hlength'
      simpa [Draw.on, Draw.region] using hblock
    -- Some columns of some rows.
    · rcases hinside with ⟨hpositive, hends⟩
      have hlines : ∀ i < h.toNat, (slice pixels (i * (w.toNat * buffer.bypp))
          (w.toNat * buffer.bypp)).length = w.toNat * buffer.bypp := fun i hi => by
        have hnext : (i + 1) * (w.toNat * buffer.bypp) ≤ pixels.length := by
          rw [hlength']
          exact Nat.mul_le_mul_right _ hi
        rw [Nat.succ_mul] at hnext
        unfold slice
        rw [List.length_take, List.length_drop]
        omega
      have hdrawn := hready.rows hnone hcovered (x := x.toNat) (y := y.toNat) (by omega)
        (by omega) hlines fun i hi => htile.line hi
      rw [← blitRows_eq] at hdrawn
      exact hdrawn
  · rintro e buffer' ⟨rfl, rfl, houtside⟩
    exact ⟨rfl, rfl, fun hvalid => houtside hvalid.1⟩

theorem ensures_fill (hshows : Shows width height bypp backing canvas buffer) {x y w h : ℤ}
    {color : Bytes} :
    Ensures (fill x y w h color) buffer
      (fun _ buffer' => (Draw.fill x y w h color).Valid width height bypp ∧
        Shows width height bypp backing ((Draw.fill x y w h color).on bypp canvas) buffer' ∧
        buffer'.covered = true)
      fun e buffer' => e = .decodeError ∧ buffer' = buffer ∧
        ¬ (Draw.fill x y w h color).Valid width height bypp := by
  have hwidth := hshows.width_eq
  have hheight := hshows.height_eq
  have hbypp := hshows.bypp_eq
  subst hwidth hheight hbypp
  refine ensures_bind.2 (Ensures.mono ensures_checkRect ?_ ?_)
  · rintro _ buffer ⟨rfl, hinside⟩
    refine ensures_bind.2 (ensures_ite.2 ⟨fun hwrong => ⟨rfl, rfl, fun hvalid => ?_⟩,
      fun hsame => ?_⟩)
    · exact hwrong hvalid.2
    have hlength : color.length = buffer.bypp := not_not.1 hsame
    have hvalid : (Draw.fill x y w h color).Valid buffer.width buffer.height buffer.bypp :=
      ⟨hinside, hlength⟩
    rcases hinside with ⟨hpositive, hright, hbelow⟩
    have hrow : (repeated color w.toNat).length = w.toNat * buffer.bypp := by
      rw [length_repeated, hlength]
    have hline : Holds (repeated color w.toNat) (w.toNat * buffer.bypp) 1
        ((Draw.fill x y w h color).tile buffer.bypp) := by
      have hholds := holds_repeated color w.toNat
      rw [hlength] at hholds
      exact hholds
    have hblock : Holds (repeated (repeated color w.toNat) h.toNat) (w.toNat * buffer.bypp) h.toNat
        ((Draw.fill x y w h color).tile buffer.bypp) := holds_repeated_rows hrow hline
    have hlength' : (repeated (repeated color w.toNat) h.toNat).length =
        h.toNat * (w.toNat * buffer.bypp) := by
      rw [length_repeated, hrow]
    rcases hshows.ready with ⟨hready, hnone, hcovered⟩
    have hready' : Shows buffer.width buffer.height buffer.bypp backing canvas
        { buffer.materialize.clear with covered := true } :=
      Shows.of_holds (hready.toOver.write rfl rfl) hnone rfl (hready.written hnone hcovered)
    refine ensures_bind.2 (ensures_ite.2 ⟨fun hpart => ensures_bind.2 (ensures_bind.2
      (ensures_ite.2 ⟨fun hrows => ⟨hvalid, ?_, rfl⟩, fun hcols => ⟨hvalid, ?_, rfl⟩⟩)),
      fun hall => ensures_bind.2 (ensures_ite.2 ⟨fun _ => ⟨hvalid, ?_, rfl⟩, fun hcols => ?_⟩)⟩)
    -- Whole rows, but not all of them.
    · rcases hrows with ⟨rfl, rfl⟩
      have hdrawn := hready'.block hnone rfl (y := y.toNat) (h := h.toNat) (by omega) hblock hlength'
      simpa [Draw.on, Draw.region] using hdrawn
    -- Some columns of some rows.
    · have hlines : ∀ i < h.toNat, Holds (repeated color w.toNat) (w.toNat * buffer.bypp) 1
          fun col row => (Draw.fill x y w h color).tile buffer.bypp col (row + i) :=
        fun _ _ => hline
      have hdrawn := hready'.rows hnone rfl (x := x.toNat) (y := y.toNat) (by omega) (by omega)
        (fun _ _ => hrow) hlines
      rw [← fillRows_eq] at hdrawn
      exact hdrawn
    -- Every row: what was there is not cleared, but nothing is left of it.
    · rcases not_not.1 hall with ⟨rfl, rfl, rfl, rfl⟩
      simp only [Int.toNat_natCast] at hblock hlength'
      have hmaterialized := hshows.materialize
      have hfits : buffer.height * (buffer.width * buffer.bypp) ≤ buffer.materialize.backing.length :=
        hmaterialized.1.fits.trans_eq hmaterialized.1.length.symm
      have hend : 0 + (repeated (repeated color buffer.width) buffer.height).length ≤
          buffer.height * (buffer.width * buffer.bypp) := by
        rw [hlength', Nat.zero_add]
      have hover : Over buffer.width buffer.height buffer.bypp backing
          { buffer.materialize with
            backing := RectBuffer.write buffer.materialize.backing 0
              (repeated (repeated color buffer.width) buffer.height)
            covered := true } :=
        hmaterialized.1.toOver.write (length_splice (hend.trans hfits))
          (drop_splice (hend.trans hfits) hend)
      have hcanvas : Holds (RectBuffer.write buffer.materialize.backing 0
            (repeated (repeated color buffer.width) buffer.height)) (buffer.width * buffer.bypp)
          buffer.height (canvas.paint ⟨0, 0, buffer.width * buffer.bypp, buffer.height⟩
            ((Draw.fill 0 0 buffer.width buffer.height color).tile buffer.bypp)) := by
        refine (hblock.splice_all hfits hlength').congr fun col hcol row hrow => ?_
        exact @Picture.paint_all _ _ _ canvas
          ((Draw.fill 0 0 buffer.width buffer.height color).tile buffer.bypp) _ _ hcol hrow
      have hdrawn := Shows.of_holds hover hmaterialized.2 rfl hcanvas
      simpa [Draw.on, Draw.region, writeBacking] using hdrawn
    · exact absurd ⟨(not_not.1 hall).1, (not_not.1 hall).2.2.1⟩ hcols
  · rintro e buffer' ⟨rfl, rfl, houtside⟩
    exact ⟨rfl, rfl, fun hvalid => houtside hvalid.1⟩

theorem ensures_method (hshows : Shows width height bypp backing canvas buffer) (draw : Draw) :
    Ensures draw.method buffer
      (fun _ buffer' => draw.Valid width height bypp ∧
        Shows width height bypp backing (draw.on bypp canvas) buffer' ∧ buffer'.covered = true)
      fun e buffer' => e = .decodeError ∧ buffer' = buffer ∧ ¬ draw.Valid width height bypp := by
  cases draw with
  | blit x y w h pixels => exact ensures_blit hshows
  | fill x y w h color => exact ensures_fill hshows

end Shows

/-! ## Every sequence of calls -/

section Runs

variable {width height bypp : ℕ} {backing : Bytes}

/-- A buffer that has just been made shows the blank canvas. -/
theorem shows_make (hbacking : width * height * bypp ≤ backing.length) :
    ∃ start, make width height bypp backing = .ok start ∧
      Shows width height bypp backing (fun _ _ => 0) start := by
  have hnbytes : width * height * bypp = height * (width * bypp) := by ring
  refine ⟨_, if_neg (Nat.not_lt.2 hbacking), ?_⟩
  refine ⟨⟨rfl, rfl, rfl, hnbytes, hnbytes ▸ hbacking, rfl, rfl⟩, fun pixels hpixels => ?_,
    fun _ hfalse => ?_, fun _ => rfl⟩
  · cases hpixels
  · cases hfalse

/-- One more call. -/
theorem canvas_concat (draws : List Draw) (draw : Draw) :
    canvas width height bypp (draws ++ [draw]) =
      if draw.Valid width height bypp then draw.on bypp (canvas width height bypp draws)
      else canvas width height bypp draws := by
  unfold canvas
  rw [List.filter_append, List.foldl_append]
  by_cases hvalid : draw.Valid width height bypp
  · have hone : [draw].filter (fun draw => draw.Valid width height bypp) = [draw] :=
      List.filter_cons_of_pos (decide_eq_true hvalid)
    rw [if_pos hvalid, hone]
    rfl
  · have hnone : [draw].filter (fun draw => draw.Valid width height bypp) = [] :=
      List.filter_cons_of_neg fun htrue => hvalid (of_decide_eq_true htrue)
    rw [if_neg hvalid, hnone]
    rfl

/-- After any calls the buffer shows their canvas, and is covered if one of them was valid. -/
theorem shows_draws {start : RectBuffer} (hstart : Shows width height bypp backing (fun _ _ => 0) start)
    (calls : List Draw) :
    Shows width height bypp backing (canvas width height bypp calls) (draws calls start) ∧
      ((∃ draw ∈ calls, draw.Valid width height bypp) → (draws calls start).covered = true) := by
  -- By induction on the calls, the last one first.
  induction calls using List.reverseRecOn with
  | nil =>
      refine ⟨hstart, fun hsome => ?_⟩
      rcases hsome with ⟨_, hmem, _⟩
      exact absurd hmem List.not_mem_nil
  | append_singleton calls draw ih =>
      have hrun : draws (calls ++ [draw]) start =
          finalState (draw.method (draws calls start)) := List.foldl_append
      rw [hrun, canvas_concat]
      refine (ensures_finalState (P := fun buffer' => Shows width height bypp backing
        (if draw.Valid width height bypp then draw.on bypp (canvas width height bypp calls)
          else canvas width height bypp calls) buffer' ∧
        ((∃ draw' ∈ calls ++ [draw], draw'.Valid width height bypp) →
          buffer'.covered = true))).1 (Ensures.mono (ensures_method ih.1 draw) ?_ ?_)
      · rintro _ buffer' ⟨hvalid, hshows, hcovered⟩
        rw [if_pos hvalid]
        exact ⟨hshows, fun _ => hcovered⟩
      · rintro e buffer' ⟨_, rfl, hinvalid⟩
        rw [if_neg hinvalid]
        refine ⟨ih.1, fun hsome => ih.2 ?_⟩
        rcases hsome with ⟨draw', hmem, hvalid⟩
        rcases List.mem_append.1 hmem with hbefore | hlast
        · exact ⟨draw', hbefore, hvalid⟩
        · rw [List.mem_singleton.1 hlast] at hvalid
          exact absurd hvalid hinvalid

/-- Over any backing that is large enough, and after any calls: a call raises if and only if it is
not valid, and then leaves the buffer as it was; once a call was valid the bytes are those of the
canvas, whatever the backing held; the backing keeps its length and what it has beyond the
rectangle. -/
theorem refines_canvas (width height bypp : ℕ) (backing : Bytes)
    (hbacking : width * height * bypp ≤ backing.length) (calls : List Draw) :
    ∃ start, make width height bypp backing = .ok start ∧
      Refines width height bypp backing calls (draws calls start) := by
  rcases shows_make hbacking with ⟨start, hmake, hstart⟩
  rcases shows_draws hstart calls with ⟨hshows, hcovered⟩
  have hnbytes : width * height * bypp = height * (width * bypp) := by ring
  have hmethod (draw : Draw) := ensures_method hshows draw
  refine ⟨start, hmake, ⟨fun draw => ⟨?_, fun hinvalid => ?_⟩, fun draw => ⟨?_, fun hvalid => ?_⟩,
    fun draw e buffer' hrun => ?_, fun hsome => hshows.tobytes (hcovered hsome), hshows.length, ?_⟩⟩
  · rintro ⟨buffer', hrun⟩
    exact ((ensures_of_run_error hrun).1 (hmethod draw)).2.2
  · cases hrun : draw.method (draws calls start) with
    | ok _ buffer' => exact absurd ((ensures_of_run_ok hrun).1 (hmethod draw)).1 hinvalid
    | error e buffer' =>
        have he : e = .decodeError := ((ensures_of_run_error hrun).1 (hmethod draw)).1
        rw [he]
        exact ⟨buffer', rfl⟩
  · rintro ⟨buffer', hrun⟩
    exact ((ensures_of_run_ok hrun).1 (hmethod draw)).1
  · cases hrun : draw.method (draws calls start) with
    | ok _ buffer' => exact ⟨buffer', rfl⟩
    | error e buffer' => exact absurd hvalid ((ensures_of_run_error hrun).1 (hmethod draw)).2.2
  · exact ((ensures_of_run_error hrun).1 (hmethod draw)).2.1
  · rw [hnbytes]
    exact hshows.beyond

/-- A column of a rectangle over a backing that held something else. -/
theorem refines_canvas_column :
    ∃ start, make 2 2 1 [9, 9, 9, 9, 9] = .ok start ∧
      Refines 2 2 1 [9, 9, 9, 9, 9] [.blit 0 0 1 2 [1, 2], .fill 1 1 2 1 [7]]
        (draws [.blit 0 0 1 2 [1, 2], .fill 1 1 2 1 [7]] start) :=
  refines_canvas 2 2 1 [9, 9, 9, 9, 9] (by decide) _

example : cells 2 2 (canvas 2 2 1 [.blit 0 0 1 2 [1, 2], .fill 1 1 2 1 [7]]) = [1, 0, 2, 0] := by
  decide

end Runs

end RectBuffer

end Vncdotool
