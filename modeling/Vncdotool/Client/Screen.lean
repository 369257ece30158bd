import Vncdotool.Client.Effects

/-!
# Screen — the client's screen as a canvas

Without a cursor, the screen is what the rectangles have painted on it, the latest one on top, and
what a smaller desktop size has cut off is black when it comes back.  This is so as long as no
rectangle that finds no screen reaches past the size of the framebuffer that ServerInit announced:
the screen that is made for it has that size, and what does not fit is lost (`lastWriterWins_iff`).
-/

namespace Vncdotool

open Wire Streaming Raster

namespace VNCDoToolClient

variable {P : Pillow}

/-! ## The calls -/

/-- The calls that change the screen, and the change of the pixel format between them. -/
inductive ScreenCall
  | updateRectangle (x y width height : ℕ) (data : Bytes)
  | updateDesktopSize (width height : ℤ)
  | setPixelFormat (pf : PixelFormat)
  deriving DecidableEq

namespace ScreenCall

/-- A rectangle comes in the format of the client. -/
def run : ScreenCall → Py (VNCDoToolClient P) Unit
  | updateRectangle x y width height data => do
      let pf := (← get).pixelFormat
      VNCDoToolClient.updateRectangle x y width height data pf
  | updateDesktopSize width height => VNCDoToolClient.updateDesktopSize width height
  | setPixelFormat pf => VNCDoToolClient.setPixelFormat pf

/-- A rectangle is of positive size, and its data is of the size of its pixels. -/
def WellSized (c : RFBClient (VNCDoToolClient P)) : ScreenCall → Prop
  | updateRectangle _ _ width height data =>
      (0 < width ∧ 0 < height) ∧
        ∃ mode, c.pixelFormat.rawMode = .ok mode ∧ data.length = width * height * mode.width
  | updateDesktopSize _ _ => True
  | setPixelFormat _ => True

/-- A rectangle that finds no screen lies inside the framebuffer of ServerInit. -/
def Fits (c : RFBClient (VNCDoToolClient P)) : ScreenCall → Prop
  | updateRectangle x y width height _ =>
      c.app.screen = none → x + width ≤ c.width ∧ y + height ≤ c.height
  | updateDesktopSize _ _ => True
  | setPixelFormat _ => True

/-- What the call does to the picture: a refused size does nothing. -/
def edits (px : P.Pixels) (c : RFBClient (VNCDoToolClient P)) : ScreenCall → List (Edit px.Colour)
  | updateRectangle x y width height data =>
      match c.pixelFormat.rawMode with
      | .ok mode =>
          [.paint ⟨x, y, width, height⟩ fun col row =>
            px.decode mode (slice data ((row * width + col) * mode.width) mode.width)]
      | .error _ => []
  | updateDesktopSize width height =>
      if (0 ≤ width ∧ width < maxDesktopSize) ∧ 0 ≤ height ∧ height < maxDesktopSize then
        [.crop width.toNat height.toNat]
      else
        []
  | setPixelFormat _ => []

end ScreenCall

/-- The client after a history of calls, the latest of which stands first. -/
def replayed (c : RFBClient (VNCDoToolClient P)) : List ScreenCall → RFBClient (VNCDoToolClient P)
  | [] => c
  | call :: earlier => finalState (call.run.run (replayed c earlier))

/-- What the calls of a history do to the picture. -/
def editsOf (px : P.Pixels) (c : RFBClient (VNCDoToolClient P)) :
    List ScreenCall → List (Edit px.Colour)
  | [] => []
  | call :: earlier => call.edits px (replayed c earlier) ++ editsOf px c earlier

/-- A client that has painted nothing yet. -/
structure Unpainted (c : RFBClient (VNCDoToolClient P)) : Prop where
  screen : c.app.screen = none
  cursor : c.app.cursor = none
  uncached : c.app.rawModeFormat = none

/-- The screen contains the rectangle. -/
def Contains (screen : Option P.Image) (x y width height : ℕ) : Prop :=
  ∃ image, screen = some image ∧ x + width ≤ (P.size image).1 ∧ y + height ≤ (P.size image).2

/-- The screen after a history contains the rectangle that came last, and each of its pixels is that
of the latest rectangle that covered it and has not been cut off since. -/
structure LastWriterWins (px : P.Pixels) (c : RFBClient (VNCDoToolClient P))
    (history : List ScreenCall) : Prop where
  contains : ∀ x y width height data earlier,
    history = .updateRectangle x y width height data :: earlier →
      Contains (replayed c history).app.screen x y width height
  pixel : ∀ image, (replayed c history).app.screen = some image →
    ∀ col < (P.size image).1, ∀ row < (P.size image).2,
      px.getpixel image col row = latest px.black (editsOf px c history) col row

/-! ## Images and edits -/

section Edits

variable {px : P.Pixels} {image update : P.Image} {edits : List (Edit px.Colour)}

/-- The image shows the edits, which leave everything outside it black. -/
structure ShowsEdits (px : P.Pixels) (image : P.Image) (edits : List (Edit px.Colour)) : Prop where
  pixel : ∀ col < (P.size image).1, ∀ row < (P.size image).2,
    px.getpixel image col row = latest px.black edits col row
  outside : ∀ col row, ¬ (col < (P.size image).1 ∧ row < (P.size image).2) →
    latest px.black edits col row = px.black

/-- Before there is a screen everything is black. -/
def Depicts (px : P.Pixels) (screen : Option P.Image) (edits : List (Edit px.Colour)) : Prop :=
  match screen with
  | none => ∀ col row, latest px.black edits col row = px.black
  | some image => ShowsEdits px image edits

/-- A new image shows what is black. -/
theorem showsEdits_new (hblack : ∀ col row, latest px.black edits col row = px.black)
    (size : ℕ × ℕ) : ShowsEdits px (P.new size) edits := by
  refine ⟨fun col hcol row hrow => ?_, fun col row _ => hblack col row⟩
  rw [P.size_new] at hcol hrow
  exact (px.getpixel_new size col row hcol hrow).trans (hblack col row).symm

/-- A rectangle that the image contains is painted. -/
theorem ShowsEdits.paste (h : ShowsEdits px image edits) {x y : ℕ} {tile : Picture px.Colour}
    (hwidth : x + (P.size update).1 ≤ (P.size image).1)
    (hheight : y + (P.size update).2 ≤ (P.size image).2)
    (htile : ∀ col < (P.size update).1, ∀ row < (P.size update).2,
      px.getpixel update col row = tile col row) :
    ShowsEdits px (P.paste image update (x, y) none)
      (.paint ⟨x, y, (P.size update).1, (P.size update).2⟩ tile :: edits) := by
  refine ⟨fun col hcol row hrow => ?_, fun col row hout => ?_⟩
  · rw [P.size_paste] at hcol hrow
    rw [px.getpixel_paste image update x y col row hcol hrow]
    change _ = (latest px.black edits).paint _ tile col row
    by_cases hcovers :
        Region.Covers ⟨x, y, (P.size update).1, (P.size update).2⟩ col row
    · rw [Picture.paint_of_covers hcovers, Picture.paint_of_covers hcovers]
      rcases hcovers with ⟨⟨hx, hx'⟩, hy, hy'⟩
      exact htile _ (Nat.sub_lt_left_of_lt_add hx hx') _ (Nat.sub_lt_left_of_lt_add hy hy')
    · rw [Picture.paint_of_not_covers hcovers, Picture.paint_of_not_covers hcovers]
      exact h.pixel col hcol row hrow
  · rw [P.size_paste] at hout
    refine (Picture.paint_of_not_covers fun hcovers => hout ?_).trans (h.outside col row hout)
    exact ⟨hcovers.1.2.trans_le hwidth, hcovers.2.2.trans_le hheight⟩

/-- The image copied to the corner of a new one. -/
theorem ShowsEdits.pixel_copy (h : ShowsEdits px image edits) {size : ℕ × ℕ} {col row : ℕ}
    (hcol : col < size.1) (hrow : row < size.2) :
    px.getpixel (P.paste (P.new size) image (0, 0) none) col row =
      latest px.black edits col row := by
  have hsize : P.size (P.new size) = size := P.size_new size
  have hpaste := px.getpixel_paste (P.new size) image 0 0 col row (by rw [hsize]; exact hcol)
    (by rw [hsize]; exact hrow)
  refine hpaste.trans ?_
  by_cases hin : col < (P.size image).1 ∧ row < (P.size image).2
  · rw [← Picture.paint_all hin.1 hin.2]
    exact h.pixel col hin.1 row hin.2
  · refine (Picture.paint_of_not_covers fun hcovers => hin ?_).trans ?_
    · exact ⟨hcovers.1.2.trans_eq (Nat.zero_add _), hcovers.2.2.trans_eq (Nat.zero_add _)⟩
    · exact (px.getpixel_new size col row hcol hrow).trans (h.outside col row hin).symm

/-- A larger copy shows the same. -/
theorem ShowsEdits.grow (h : ShowsEdits px image edits) {size : ℕ × ℕ}
    (hwidth : (P.size image).1 ≤ size.1) (hheight : (P.size image).2 ≤ size.2) :
    ShowsEdits px (P.paste (P.new size) image (0, 0) none) edits := by
  have hsize : P.size (P.paste (P.new size) image (0, 0) none) = size :=
    (P.size_paste _ _ _ _).trans (P.size_new size)
  refine ⟨fun col hcol row hrow => ?_, fun col row hout => ?_⟩
  · rw [hsize] at hcol hrow
    exact h.pixel_copy hcol hrow
  · rw [hsize] at hout
    exact h.outside col row fun hin =>
      hout ⟨hin.1.trans_le hwidth, hin.2.trans_le hheight⟩

/-- A copy of another size is cut. -/
theorem ShowsEdits.resize (h : ShowsEdits px image edits) (size : ℕ × ℕ) :
    ShowsEdits px (P.paste (P.new size) image (0, 0) none) (.crop size.1 size.2 :: edits) := by
  have hsize : P.size (P.paste (P.new size) image (0, 0) none) = size :=
    (P.size_paste _ _ _ _).trans (P.size_new size)
  refine ⟨fun col hcol row hrow => ?_, fun col row hout => ?_⟩
  · rw [hsize] at hcol hrow
    exact (h.pixel_copy hcol hrow).trans (Picture.crop_of_inside ⟨hcol, hrow⟩).symm
  · rw [hsize] at hout
    exact Picture.crop_of_outside hout

/-- What is black stays black when it is cut. -/
theorem latest_crop_black (hblack : ∀ col row, latest px.black edits col row = px.black)
    (width height col row : ℕ) :
    latest px.black (.crop width height :: edits) col row = px.black := by
  by_cases hin : col < width ∧ row < height
  · exact (Picture.crop_of_inside hin).trans (hblack col row)
  · exact Picture.crop_of_outside hin

/-- How a rectangle is pasted shows it over what was there, if a first one fits. -/
theorem Depicts.painting {screen : Option P.Image} (h : Depicts px screen edits) {size : ℕ × ℕ}
    {x y : ℕ} {tile : Picture px.Colour}
    (hfits : screen = none → x + (P.size update).1 ≤ size.1 ∧ y + (P.size update).2 ≤ size.2)
    (htile : ∀ col < (P.size update).1, ∀ row < (P.size update).2,
      px.getpixel update col row = tile col row) :
    let image := (VNCDoToolClient.painting size screen update x y (P.size update).1
      (P.size update).2).result
    ShowsEdits px image (.paint ⟨x, y, (P.size update).1, (P.size update).2⟩ tile :: edits) ∧
      x + (P.size update).1 ≤ (P.size image).1 ∧ y + (P.size update).2 ≤ (P.size image).2 := by
  have hpaste {base : P.Image} (hbase : ShowsEdits px base edits)
      (hwidth : x + (P.size update).1 ≤ (P.size base).1)
      (hheight : y + (P.size update).2 ≤ (P.size base).2) :
      ShowsEdits px (P.paste base update (x, y) none)
          (.paint ⟨x, y, (P.size update).1, (P.size update).2⟩ tile :: edits) ∧
        x + (P.size update).1 ≤ (P.size (P.paste base update (x, y) none)).1 ∧
        y + (P.size update).2 ≤ (P.size (P.paste base update (x, y) none)).2 := by
    refine ⟨hbase.paste hwidth hheight htile, ?_, ?_⟩
    · exact hwidth.trans_eq (congrArg Prod.fst (P.size_paste base update _ none)).symm
    · exact hheight.trans_eq (congrArg Prod.snd (P.size_paste base update _ none)).symm
  cases screen with
  | none =>
      -- The first rectangle is pasted on a black screen of the announced size.
      rcases hfits rfl with ⟨hwidth, hheight⟩
      have hsize : P.size (P.new size) = size := P.size_new size
      apply hpaste (showsEdits_new h size)
      · rw [hsize]
        exact hwidth
      · rw [hsize]
        exact hheight
  | some image =>
      unfold VNCDoToolClient.painting
      dsimp only
      split_ifs with hlarge
      -- The screen grows to contain the rectangle.
      · have hsize (new : ℕ × ℕ) : P.size (P.paste (P.new new) image (0, 0) none) = new :=
          (P.size_paste _ _ _ _).trans (P.size_new new)
        apply hpaste
        · apply ShowsEdits.grow h
          · dsimp only
            omega
          · dsimp only
            omega
        · rw [hsize]
          dsimp only
          omega
        · rw [hsize]
          dsimp only
          omega
      · rcases not_or.1 hlarge with ⟨hwidth, hheight⟩
        have hwidth' : x + (P.size update).1 ≤ (P.size image).1 := by omega
        have hheight' : y + (P.size update).2 ≤ (P.size image).2 := by omega
        exact hpaste h hwidth' hheight'

end Edits

/-! ## The calls do their edits -/

section Calls

variable {px : P.Pixels} {c c' : RFBClient (VNCDoToolClient P)}

/-- What every call keeps of a client that has no cursor. -/
structure Cursorless (c c' : RFBClient (VNCDoToolClient P)) : Prop where
  width : c'.width = c.width
  height : c'.height = c.height
  cursor : c'.app.cursor = none
  cached : Cached c'.pixelFormat c'.app

theorem Unpainted.cursorless (h : Unpainted c) : Cursorless c c where
  width := rfl
  height := rfl
  cursor := h.cursor
  cached id hid := by
    rw [h.uncached] at hid
    cases hid

/-- Without a cursor there is nothing to draw. -/
theorem drawn_of_cursorless {app : VNCDoToolClient P} (h : app.cursor = none) : drawn app = app := by
  unfold drawn
  rw [h]

theorem ensures_drawCursor_none {Q : Unit → RFBClient (VNCDoToolClient P) → Prop}
    {E : PyError → RFBClient (VNCDoToolClient P) → Prop} (h : c.app.cursor = none) (hQ : Q () c) :
    Ensures drawCursor c Q E := by
  have happ : drawCursor c = .ok () { c with app := drawn c.app } := rfl
  rw [drawn_of_cursorless h] at happ
  exact (ensures_of_run_ok happ).2 hQ

/-- The screen after a rectangle of pixels that can be read. -/
theorem ensures_updateRectangle_screen {x y width height : ℕ} {data : Bytes} {mode : RawMode}
    (hcursor : c.app.cursor = none) (hcached : Cached c.pixelFormat c.app)
    (hmode : c.pixelFormat.rawMode = .ok mode) (hpos : 0 < width ∧ 0 < height)
    (hdata : data.length = width * height * mode.width) :
    ∃ update, P.frombytes mode (width, height) data = .ok update ∧
      Ensures (updateRectangle x y width height data c.pixelFormat) c
        (fun _ c' => Cursorless c c' ∧ c'.app.screen =
          some (painting (c.width, c.height) c.app.screen update x y width height).result)
        fun _ _ => False := by
  rcases P.frombytes_ok mode width height data hdata with ⟨update, hupdate⟩
  refine ⟨update, hupdate, ensures_ite.2 ⟨fun hempty => ?_, fun _ => ?_⟩⟩
  -- A rectangle of positive size has pixels.
  · have hlength : 0 < data.length := by
      rw [hdata]
      exact Nat.mul_pos (Nat.mul_pos hpos.1 hpos.2) mode.width_pos
    rw [List.isEmpty_iff.1 hempty] at hlength
    exact absurd hlength (Nat.lt_irrefl 0)
  · refine ensures_bind.2 (ensures_bind.2 (Ensures.mono (ensures_rawModeFor_cached hcached hmode) ?_
      fun _ _ => False.elim))
    rintro _ c₁ ⟨rfl, rfl⟩
    have hlift : (liftExcept (.ok update) : Py (VNCDoToolClient P) P.Image) = pure update := rfl
    dsimp only
    rw [hupdate, hlift, pure_bind]
    refine ensures_bind.2 (ensures_modify.2 ?_)
    refine ensures_drawCursor_none hcursor ?_
    exact ⟨⟨rfl, rfl, hcursor, fun id hid => ⟨(Option.some.inj hid).symm.le, fun _ =>
      ⟨mode, hmode, rfl⟩⟩⟩, rfl⟩

theorem Cursorless.trans {c c₁ c₂ : RFBClient (VNCDoToolClient P)} (h : Cursorless c c₁)
    (h' : Cursorless c₁ c₂) : Cursorless c c₂ where
  width := h'.width.trans h.width
  height := h'.height.trans h.height
  cursor := h'.cursor
  cached := h'.cached

/-- The pixels of the rectangle, by the mode of the client's format. -/
theorem edits_updateRectangle {mode : RawMode} (hmode : c.pixelFormat.rawMode = .ok mode)
    (x y width height : ℕ) (data : Bytes) :
    (ScreenCall.updateRectangle x y width height data).edits px c =
      [.paint ⟨x, y, width, height⟩ fun col row =>
        px.decode mode (slice data ((row * width + col) * mode.width) mode.width)] := by
  unfold ScreenCall.edits
  rw [hmode]

/-- A desktop size is refused, or the screen is cut to it. -/
theorem run_updateDesktopSize_cases (width height : ℤ) :
    (∃ exc, updateDesktopSize width height c = .error exc c ∧
        (ScreenCall.updateDesktopSize width height).edits px c = []) ∨
      ∃ screen, updateDesktopSize width height c =
          .ok () { c with app := { c.app with screen := some screen } } ∧
        (ScreenCall.updateDesktopSize width height).edits px c =
          [.crop width.toNat height.toNat] ∧
        (c.app.screen = none → screen = P.new (width.toNat, height.toNat)) ∧
        ∀ image, c.app.screen = some image →
          screen = P.paste (P.new (width.toNat, height.toNat)) image (0, 0) none := by
  unfold updateDesktopSize
  by_cases hsize : (0 ≤ width ∧ width < maxDesktopSize) ∧ 0 ≤ height ∧ height < maxDesktopSize
  · have hedits : (ScreenCall.updateDesktopSize width height).edits px c =
        [.crop width.toNat height.toNat] := if_pos hsize
    rw [if_neg (not_not.2 hsize)]
    refine Or.inr ⟨_, rfl, hedits, fun hnone => ?_, fun image hsome => ?_⟩
    · rw [hnone]
    · rw [hsome]
  · have hedits : (ScreenCall.updateDesktopSize width height).edits px c = [] := if_neg hsize
    rw [if_pos hsize]
    exact Or.inl ⟨_, rfl, hedits⟩

/-- A call does its edits, if a first rectangle fits. -/
theorem depicts_call {edits : List (Edit px.Colour)} {call : ScreenCall}
    (hdepicts : Depicts px c.app.screen edits) (hcursor : c.app.cursor = none)
    (hcached : Cached c.pixelFormat c.app) (hsized : call.WellSized c) (hfits : call.Fits c) :
    let c' := finalState (call.run.run c)
    Depicts px c'.app.screen (call.edits px c ++ edits) ∧ Cursorless c c' ∧
      ∀ x y width height data, call = .updateRectangle x y width height data →
        Contains c'.app.screen x y width height := by
  cases call with
  | updateRectangle x y width height data =>
      rcases hsized with ⟨hpos, mode, hmode, hdata⟩
      rcases ensures_updateRectangle_screen (x := x) (y := y) hcursor hcached hmode hpos hdata with
        ⟨update, hupdate, hensures⟩
      rcases hensures.exists_run_ok with ⟨_, c', hrun, hcursorless, hscreen⟩
      have hrun' : (ScreenCall.updateRectangle x y width height data).run.run c = .ok () c' := hrun
      have hsize : P.size update = (width, height) := by
        have hsize := P.size_frombytes _ _ _ _ _ hupdate
        rw [Prod.mk.injEq] at hsize
        exact Prod.ext (Int.ofNat_inj.1 hsize.1) (Int.ofNat_inj.1 hsize.2)
      have hpaint := @Depicts.painting _ px update _ _ hdepicts (c.width, c.height) x y fun col row =>
        px.decode mode (slice data ((row * width + col) * mode.width) mode.width)
      rw [hsize] at hpaint
      rcases hpaint hfits (px.getpixel_frombytes mode width height data update hupdate) with
        ⟨hshows, hwidth, hheight⟩
      rw [hrun', edits_updateRectangle hmode]
      dsimp only [finalState_ok]
      rw [hscreen]
      refine ⟨hshows, hcursorless, ?_⟩
      rintro x' y' width' height' data' hcall
      cases hcall
      exact ⟨_, rfl, hwidth, hheight⟩
  | updateDesktopSize width height =>
      have hkept (screen : Option P.Image) :
          Cursorless c { c with app := { c.app with screen := screen } } :=
        ⟨rfl, rfl, hcursor, hcached⟩
      rcases @run_updateDesktopSize_cases _ px c width height with
        ⟨exc, hrun, hedits⟩ | ⟨screen, hrun, hedits, hnone, hsome⟩
      · have hrun' : (ScreenCall.updateDesktopSize width height).run.run c = .error exc c := hrun
        rw [hrun', hedits]
        exact ⟨hdepicts, hkept _, fun _ _ _ _ _ hcall => by cases hcall⟩
      · have hrun' : (ScreenCall.updateDesktopSize width height).run.run c =
            .ok () { c with app := { c.app with screen := some screen } } := hrun
        rw [hrun', hedits]
        refine ⟨?_, hkept _, fun _ _ _ _ _ hcall => by cases hcall⟩
        cases hscreen : c.app.screen with
        | none =>
            rw [hscreen] at hdepicts
            rw [hnone hscreen]
            exact showsEdits_new (latest_crop_black hdepicts _ _) _
        | some image =>
            rw [hscreen] at hdepicts
            rw [hsome image hscreen]
            exact ShowsEdits.resize hdepicts _
  | setPixelFormat pf =>
      have hcall (c' : RFBClient (VNCDoToolClient P)) (hscreen : c'.app.screen = c.app.screen)
          (hcursorless : Cursorless c c') :
          Depicts px c'.app.screen ((ScreenCall.setPixelFormat pf).edits px c ++ edits) ∧
            Cursorless c c' ∧
            ∀ x y width height data, ScreenCall.setPixelFormat pf =
                .updateRectangle x y width height data →
              Contains c'.app.screen x y width height := by
        rw [hscreen]
        exact ⟨hdepicts, hcursorless, fun _ _ _ _ _ hcall => by cases hcall⟩
      have hset : Ensures (setPixelFormat pf) c
          (fun _ c' => c'.app.screen = c.app.screen ∧ Cursorless c c')
          fun _ c' => c'.app.screen = c.app.screen ∧ Cursorless c c' := by
        refine ensures_ite.2 ⟨fun _ => ?_, fun _ => ⟨rfl, rfl, rfl, hcursor, hcached⟩⟩
        -- What was cached belongs to an earlier format.
        refine ⟨rfl, rfl, rfl, hcursor, fun id hid => ?_⟩
        have hold : id ≤ c.app.formatId := (hcached id hid).1
        exact ⟨hold.trans (Nat.le_succ _), fun hnew => absurd hold (Nat.not_le.2 (by
          rw [hnew]
          exact Nat.lt_succ_self _))⟩
      rcases ensures_finalState.1 hset with ⟨hscreen, hcursorless⟩
      exact hcall _ hscreen hcursorless

/-- The screen depicts the history, if a first rectangle fits. -/
theorem depicts_replayed (hunpainted : Unpainted c) {history : List ScreenCall}
    (h : ∀ call earlier, call :: earlier <:+ history →
      call.WellSized (replayed c earlier) ∧ call.Fits (replayed c earlier)) :
    Depicts px (replayed c history).app.screen (editsOf px c history) ∧
      Cursorless c (replayed c history) := by
  induction history with
  | nil =>
      refine ⟨?_, hunpainted.cursorless⟩
      change Depicts px c.app.screen []
      rw [hunpainted.screen]
      exact fun _ _ => rfl
  | cons call earlier ih =>
      rcases ih fun call' earlier' hsuffix => h call' earlier' (hsuffix.trans (List.suffix_cons _ _))
        with ⟨hdepicts, hcursorless⟩
      rcases h call earlier List.suffix_rfl with ⟨hsized, hfits⟩
      rcases depicts_call hdepicts hcursorless.cursor hcursorless.cached hsized hfits with
        ⟨hdepicts', hstep, _⟩
      exact ⟨hdepicts', hcursorless.trans hstep⟩

/-- A first rectangle that does not fit is not contained in the screen that is made for it. -/
theorem not_contains_of_not_fits {x y width height : ℕ} {data : Bytes}
    (hcursor : c.app.cursor = none) (hcached : Cached c.pixelFormat c.app)
    (hsized : (ScreenCall.updateRectangle x y width height data).WellSized c)
    (hfits : ¬ (ScreenCall.updateRectangle x y width height data).Fits c) :
    ¬ Contains (finalState ((ScreenCall.updateRectangle x y width height data).run.run c)).app.screen
      x y width height := by
  rcases hsized with ⟨hpos, mode, hmode, hdata⟩
  rcases ensures_updateRectangle_screen (x := x) (y := y) hcursor hcached hmode hpos hdata with
    ⟨update, _, hensures⟩
  rcases hensures.exists_run_ok with ⟨_, c', hrun, _, hscreen⟩
  have hrun' : (ScreenCall.updateRectangle x y width height data).run.run c = .ok () c' := hrun
  rcases Classical.not_imp.1 hfits with ⟨hnone, houtside⟩
  rw [hrun', finalState_ok, hscreen, hnone]
  rintro ⟨image, himage, hwidth, hheight⟩
  have hsize : P.size image = (c.width, c.height) := by
    rw [← Option.some.inj himage]
    exact (P.size_paste _ _ _ _).trans (P.size_new _)
  rw [hsize] at hwidth hheight
  exact houtside ⟨hwidth, hheight⟩

/-- In every history of rectangles and desktop sizes, the screen is at all times what the latest
rectangles have left, and contains each rectangle that is painted on it, if and only if no rectangle
that finds no screen reaches past the size of ServerInit. -/
theorem lastWriterWins_iff (px : P.Pixels) (hunpainted : Unpainted c) (history : List ScreenCall)
    (hsized : ∀ call earlier, call :: earlier <:+ history → call.WellSized (replayed c earlier)) :
    (∀ past, past <:+ history → LastWriterWins px c past) ↔
      ∀ call earlier, call :: earlier <:+ history → call.Fits (replayed c earlier) := by
  constructor
  · intro hwins
    -- By induction on the history: what came before a call has fitted.
    induction history with
    | nil => exact fun call earlier hsuffix => absurd hsuffix.length_le (Nat.not_succ_le_zero _)
    | cons last earlier ih =>
        have hbefore := ih
          (fun call past hsuffix => hsized call past (hsuffix.trans (List.suffix_cons _ _)))
          fun past hsuffix => hwins past (hsuffix.trans (List.suffix_cons _ _))
        have hcursorless : Cursorless c (replayed c earlier) :=
          (@depicts_replayed _ px _ hunpainted _ fun call past hsuffix =>
            ⟨hsized call past (hsuffix.trans (List.suffix_cons _ _)),
              hbefore call past hsuffix⟩).2
        intro call past hsuffix
        rcases List.suffix_cons_iff.1 hsuffix with hall | hpast
        · cases hall
          cases last with
          | updateRectangle x y width height data =>
              by_contra hfits
              exact not_contains_of_not_fits hcursorless.cursor hcursorless.cached
                (hsized _ _ List.suffix_rfl) hfits
                ((hwins _ List.suffix_rfl).contains x y width height data earlier rfl)
          | updateDesktopSize width height => exact trivial
          | setPixelFormat pf => exact trivial
        · exact hbefore call past hpast
  · intro hfits past hpast
    have hall : ∀ call earlier, call :: earlier <:+ past →
        call.WellSized (replayed c earlier) ∧ call.Fits (replayed c earlier) :=
      fun call earlier hsuffix =>
        ⟨hsized call earlier (hsuffix.trans hpast), hfits call earlier (hsuffix.trans hpast)⟩
    refine ⟨?_, ?_⟩
    · rintro x y width height data earlier rfl
      rcases @depicts_replayed _ px _ hunpainted _ fun call before hsuffix =>
        hall call before (hsuffix.trans (List.suffix_cons _ _)) with ⟨hdepicts, hcursorless⟩
      rcases hall _ _ List.suffix_rfl with ⟨hsized', hfits'⟩
      exact (depicts_call hdepicts hcursorless.cursor hcursorless.cached hsized' hfits').2.2
        x y width height data rfl
    · intro image hscreen
      have hdepicts := (@depicts_replayed _ px _ hunpainted _ hall).1
      rw [hscreen] at hdepicts
      exact hdepicts.pixel

/-- A client of a framebuffer of one pixel. -/
def onePixelClient : RFBClient (VNCDoToolClient Pillow.canvas) :=
  { app := {}, width := 1, height := 1 }

theorem lastWriterWins_iff_onePixelClient :
    (∀ past, past <:+ [ScreenCall.updateRectangle 0 0 1 1 [1, 2, 3, 4]] →
        LastWriterWins Pillow.canvasPixels onePixelClient past) ↔
      ∀ call earlier, call :: earlier <:+ [ScreenCall.updateRectangle 0 0 1 1 [1, 2, 3, 4]] →
        call.Fits (replayed onePixelClient earlier) := by
  refine lastWriterWins_iff _ ⟨rfl, rfl, rfl⟩ _ fun call earlier hsuffix => ?_
  rcases List.suffix_cons_iff.1 hsuffix with hall | hnil
  · cases hall
    exact ⟨by decide, .RGBX, by decide, rfl⟩
  · exact absurd hnil.length_le (Nat.not_succ_le_zero _)

/-- The first rectangle is two pixels wide: the screen is not. -/
theorem not_lastWriterWins_onePixelClient :
    ¬ LastWriterWins Pillow.canvasPixels onePixelClient
      [.updateRectangle 0 0 2 1 [1, 2, 3, 4, 5, 6, 7, 8]] := by
  intro hwins
  rcases hwins.contains 0 0 2 1 [1, 2, 3, 4, 5, 6, 7, 8] [] rfl with ⟨image, hscreen, hwidth, _⟩
  have hsize : (replayed onePixelClient
      [.updateRectangle 0 0 2 1 [1, 2, 3, 4, 5, 6, 7, 8]]).app.screen.map Pillow.canvas.size =
        some (1, 1) := rfl
  rw [hscreen] at hsize
  rw [Option.some.inj hsize] at hwidth
  exact absurd hwidth (by decide)

end Calls

end VNCDoToolClient

end Vncdotool
