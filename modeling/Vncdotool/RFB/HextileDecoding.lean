import Vncdotool.RFB.Hextile
import Vncdotool.RFB.Rectangles

/-!
# HextileDecoding — the turns a client takes to decode a Hextile rectangle

Each tile is one turn of the loop, or two, or three.  The client comes to each in its turn and at its
place (`reaches_tiles`), and the calls it makes are those that paint the image.
-/

namespace Vncdotool

open Wire Streaming StateTransition Raster

namespace Hextile

variable {bypp : ℕ}

/-! ## Turns -/

section Turns

variable {env : Env} {format : PixelFormat} {c : RFBClient Unit}

/-- The client after it has made these calls. -/
def drew (format : PixelFormat) (cbs : List Callback) (c : RFBClient Unit) : RFBClient Unit :=
  { c with log := c.log ++ (cbs.flatMap (made format)).map .callback }

/-- The client that waits for a block. -/
def arming (handler : Handler) (size : ℕ) (c : RFBClient Unit) : RFBClient Unit :=
  { c with expectedHandler := handler, expectedLen := size }

theorem drew_nil (c : RFBClient Unit) : drew format [] c = c := by
  unfold drew
  rw [List.flatMap_nil, List.map_nil, List.append_nil]

theorem drew_append (cbs cbs' : List Callback) (c : RFBClient Unit) :
    drew format (cbs ++ cbs') c = drew format cbs' (drew format cbs c) := by
  unfold drew
  rw [List.flatMap_append, List.map_append, List.append_assoc]

theorem call_updateRectangle (hformat : c.pixelFormat = format) (x y width height : ℤ)
    (data : Bytes) :
    (RFBClient.runtime env).call (.updateRectangle x y width height data c.pixelFormat) c =
      .ok () (drew format [.updateRectangle x y width height data format] c) := by
  rw [hformat]
  rfl

theorem call_fill (hformat : c.pixelFormat = format) (r : Region) (color : Bytes) :
    (RFBClient.runtime env).call (fill r color) c = .ok () (drew format [fill r color] c) := by
  subst hformat
  unfold drew
  have hmade : [fill r color].flatMap (made c.pixelFormat) =
      [fill r color] ++
        [.updateRectangle r.x r.y r.width r.height (repeatColor color r.width r.height)
          c.pixelFormat] := rfl
  rw [hmade, List.map_append, ← List.append_assoc]
  rfl

/-- Which bits are set in the mask. -/
theorem has_flags (background foreground subrects coloured : Bool) :
    RFBClient.HextileEncoding.has (flags background foreground subrects coloured)
        RFBClient.HextileEncoding.RAW = false ∧
      RFBClient.HextileEncoding.has (flags background foreground subrects coloured)
        RFBClient.HextileEncoding.BACKGROUND_SPECIFIED = background ∧
      RFBClient.HextileEncoding.has (flags background foreground subrects coloured)
        RFBClient.HextileEncoding.FOREGROUND_SPECIFIED = foreground ∧
      RFBClient.HextileEncoding.has (flags background foreground subrects coloured)
        RFBClient.HextileEncoding.ANY_SUBRECTS = subrects ∧
      RFBClient.HextileEncoding.has (flags background foreground subrects coloured)
        RFBClient.HextileEncoding.SUBRECTS_COLORED = coloured := by
  cases background <;> cases foreground <;> cases subrects <;> cases coloured <;> decide

/-- The nibbles of a subrectangle. -/
theorem fillSubrect_eq (hformat : c.pixelFormat = format) (tile : HextileTile) (s : Subrect)
    (color : Bytes) :
    RFBClient.fillSubrect (RFBClient.runtime env) tile (UInt8.ofNat (16 * s.x + s.y))
        (UInt8.ofNat (16 * s.width + s.height)) (some color) c =
      .ok () (drew format [fill (s.region.shift tile.tx tile.ty) color] c) := by
  have hnibbles (a b : Fin 16) : (UInt8.ofNat (16 * a + b)).toNat = 16 * a + b := by
    rw [UInt8.toNat_ofNat']
    omega
  have hcall : Callback.fillRectangle (tile.tx + (UInt8.ofNat (16 * s.x + s.y)).toNat / 16)
      (tile.ty + (UInt8.ofNat (16 * s.x + s.y)).toNat % 16)
      ((UInt8.ofNat (16 * s.width + s.height)).toNat / 16 + 1)
      ((UInt8.ofNat (16 * s.width + s.height)).toNat % 16 + 1) (some color) =
        fill (s.region.shift tile.tx tile.ty) color := by
    unfold fill Subrect.region Region.shift
    rw [hnibbles, hnibbles, Callback.fillRectangle.injEq]
    dsimp only
    exact ⟨by omega, by omega, by omega, by omega, rfl⟩
  unfold RFBClient.fillSubrect
  rw [hcall]
  exact call_fill hformat _ color

/-- The subrectangles in the foreground colour. -/
theorem subrectsFG_eq {tile : HextileTile} {color : Bytes} (hcolor : tile.color = some color)
    (subrects : List Subrect) (hformat : c.pixelFormat = format) :
    RFBClient.subrectsFG (RFBClient.runtime env) tile (subrects.flatMap Subrect.encode) c =
      .ok () (drew format (subrects.map fun s => fill (s.region.shift tile.tx tile.ty) color)
        c) := by
  induction subrects generalizing c with
  | nil => exact congrArg (EStateM.Result.ok ()) (drew_nil c).symm
  | cons s subrects ih =>
      have hone := @fillSubrect_eq env format c hformat tile s color
      rw [← hcolor] at hone
      have hrest := @ih (drew format [fill (s.region.shift tile.tx tile.ty) color] c) hformat
      rw [← drew_append] at hrest
      exact (run_bind_ok hone).trans hrest

/-- The subrectangles with a colour each. -/
theorem subrectsColoured_eq (tile : HextileTile) (subrects : List (Pixel bypp × Subrect))
    (hformat : c.pixelFormat = format) {fuel : ℕ} (hfuel : subrects.length ≤ fuel)
    (color : Option Bytes) :
    ∃ color', RFBClient.subrectsColoured (RFBClient.runtime env) bypp tile fuel
        (subrects.flatMap fun s => s.1.val ++ s.2.encode) color c =
      .ok color' (drew format
        (subrects.map fun s => fill (s.2.region.shift tile.tx tile.ty) s.1.val) c) := by
  induction subrects generalizing c fuel color with
  | nil =>
      refine ⟨color, ?_⟩
      rw [List.map_nil, drew_nil]
      cases fuel with
      | zero => rfl
      | succ fuel => rfl
  | cons s subrects ih =>
      rcases Nat.exists_eq_succ_of_ne_zero (Nat.ne_of_gt (Nat.zero_lt_of_lt hfuel)) with
        ⟨fuel, rfl⟩
      have hone := @fillSubrect_eq env format c hformat tile s.2 s.1.val
      rcases ih (c := drew format [fill (s.2.region.shift tile.tx tile.ty) s.1.val] c) hformat
        (Nat.le_of_succ_le_succ hfuel) (some s.1.val) with ⟨color', hrest⟩
      rw [← drew_append] at hrest
      refine ⟨color', ?_⟩
      have hblock : ((s :: subrects).flatMap fun s => s.1.val ++ s.2.encode) =
          s.1.val ++ (s.2.encode ++ subrects.flatMap fun s => s.1.val ++ s.2.encode) := by
        rw [List.flatMap_cons, List.append_assoc]
      have hne : ¬ (s.1.val ++ (s.2.encode ++
          subrects.flatMap fun s => s.1.val ++ s.2.encode)).isEmpty = true := by
        simp [Subrect.encode]
      rw [hblock]
      unfold RFBClient.subrectsColoured
      rw [if_neg hne, List.take_left' s.1.property, List.drop_left' s.1.property]
      exact (run_bind_ok hone).trans hrest

/-- The colours that a continuation has are at least those that may be carried over. -/
structure Colours (carry : Carry bypp) (bg color : Option Bytes) : Prop where
  background : ∀ p, carry.background = some p → bg = some p.val
  foreground : ∀ p, carry.foreground = some p → color = some p.val

theorem length_specified (colour : Option (Pixel bypp)) :
    (specified colour).length = if colour.isSome then bypp else 0 := by
  cases colour with
  | none => rfl
  | some p => exact p.property

/-- What a colour is after the bytes of a tile, which may specify it. -/
theorem or_of_carried {own carried : Option (Pixel bypp)} {before : Option Bytes}
    (h : ∀ p, carried = some p → before = some p.val) (hsome : (own.or carried).isSome) :
    (own.map Subtype.val).or before = some (colour own carried) := by
  unfold colour
  cases own with
  | some p => rfl
  | none =>
      rcases Option.isSome_iff_exists.1 hsome with ⟨p, hp⟩
      rw [Option.none_or] at hp
      subst hp
      exact h p rfl

/-- The turn that reads a tile's colours and how many subrectangles it has. -/
theorem handleDecodeHextileSubrect_eq {α : Type} {tile : HextileTile} {tw th : ℕ}
    (background foreground : Option (Pixel bypp)) {subrects : Option (List α)} (coloured : Bool)
    (hbypp : c.pixelFormat.bypp = bypp) (hcount : (subrects.getD []).length ≤ 255) :
    let bg := (background.map Subtype.val).or tile.bg
    let color := (foreground.map Subtype.val).or tile.color
    RFBClient.handleDecodeHextileSubrect (RFBClient.runtime env)
        (flags background.isSome foreground.isSome subrects.isSome coloured) tile tw th
        (specified background ++ specified foreground ++ count subrects) c =
      (do
        (RFBClient.runtime env).call (.fillRectangle tile.tx tile.ty tw th bg)
        if (subrects.getD []).length ≠ 0 then
          if coloured then
            expect (.decodeHextileSubrectsColoured { tile with bg := bg, color := color })
              ((bypp + 2) * (subrects.getD []).length)
          else
            expect (.decodeHextileSubrectsFG { tile with bg := bg, color := color })
              (2 * (subrects.getD []).length)
        else
          RFBClient.doNextHextileSubrect (RFBClient.runtime env) bg color tile.rect
            (some (tile.tx, tile.ty)) : Py Unit Unit) c := by
  intro bg color
  rcases has_flags background.isSome foreground.isSome subrects.isSome coloured with
    ⟨_, hbackground, hforeground, hany, hcoloured⟩
  -- The handler cuts the colours and the count out of the block by position.
  have hbg : (if background.isSome then
      some ((specified background ++ specified foreground ++ count subrects).take bypp)
      else tile.bg) = bg := by
    cases background with
    | none => rfl
    | some p =>
        rw [List.append_assoc]
        exact congrArg some (List.take_left' p.property)
  have hpos : (if background.isSome then bypp else 0) = (specified background).length :=
    (length_specified background).symm
  have hcolor : (if foreground.isSome then
      some (slice (specified background ++ specified foreground ++ count subrects)
        (specified background).length bypp)
      else tile.color) = color := by
    cases foreground with
    | none => rfl
    | some p =>
        have hslice : slice (specified background ++ (p.val ++ count subrects))
            (specified background).length bypp = p.val := by
          unfold slice
          rw [List.drop_left]
          exact List.take_left' p.property
        rw [List.append_assoc]
        exact congrArg some hslice
  have hpos' : (if foreground.isSome then (specified background).length + bypp
      else (specified background).length) =
      (specified background ++ specified foreground).length := by
    rw [List.length_append, length_specified foreground]
    split_ifs <;> rfl
  unfold RFBClient.handleDecodeHextileSubrect
  rw [run_get_bind]
  dsimp only
  rw [hbypp, hbackground, hforeground, hany, hcoloured, hbg, hpos, hcolor, hpos']
  cases subrects with
  | none => rfl
  | some subrects =>
      have hcell : (specified background ++ specified foreground ++ count (some subrects))[
          (specified background ++ specified foreground).length]? =
            some (UInt8.ofNat subrects.length) := by
        rw [List.getElem?_append_right (Nat.le_refl _), Nat.sub_self]
        rfl
      have hnat : (UInt8.ofNat subrects.length).toNat = subrects.length := by
        rw [UInt8.toNat_ofNat']
        exact Nat.mod_eq_of_lt (Nat.lt_succ_of_le hcount)
      rw [hcell]
      dsimp only [Option.isSome_some, if_true, Option.getD_some]
      rw [hnat]
      rfl

/-- Where a tile stands on the screen. -/
def Placed.place (p : Placed bypp) (rect : Rect) : Region :=
  (p.region rect.width rect.height).shift rect.x rect.y

/-- The continuation that reads the tile. -/
def Placed.waiting (p : Placed bypp) (rect : Rect) (bg color : Option Bytes) : HextileTile where
  bg := bg
  color := color
  rect := rect
  tx := (p.place rect).x
  ty := (p.place rect).y

/-- The bytes of a tile take the client from `start` to where it looks for the next tile, having
become `done` by what was drawn. -/
def Decodes (env : Env) (rect : Rect) (p : Placed bypp) (start : RFBClient Unit) (bytes : Bytes)
    (done : RFBClient Unit) : Prop :=
  ∃ bg color handler size, Colours (p.tile.leaves p.carry) bg color ∧ ∀ rest c₂,
    RFBClient.doNextHextileSubrect (RFBClient.runtime env) bg color rect
        (some ((p.place rect).x, (p.place rect).y)) (arming handler size done) = .ok () c₂ →
      c₂.aborted = false →
        Reaches (Connection.iterate (RFBClient.runtime env)) (Connection.live start (bytes ++ rest))
          (Connection.live c₂ rest)

/-- One more turn before the tile is decoded. -/
theorem Decodes.step {rect : Rect} {p : Placed bypp} {start start' done : RFBClient Unit}
    {block bytes : Bytes} (h : Decodes env rect p start' bytes done)
    (hstage : start.stage = .handleExpected) (haborted : start.aborted = false)
    (hlen : block.length = start.expectedLen)
    (hrun : start.expectedHandler.run (RFBClient.runtime env) block start = .ok () start')
    (haborted' : start'.aborted = false) :
    Decodes env rect p start (block ++ bytes) done := by
  rcases h with ⟨bg, color, handler, size, hcolours, hrest⟩
  refine ⟨bg, color, handler, size, hcolours, fun rest c₂ hdone haborted₂ => ?_⟩
  rw [List.append_assoc]
  exact (Connection.reaches_live hstage haborted hlen hrun haborted').trans
    (hrest rest c₂ hdone haborted₂)

/-- The turn that decodes the last block of a tile. -/
theorem Decodes.last {rect : Rect} {p : Placed bypp} {done : RFBClient Unit} {handler : Handler}
    {size : ℕ} {block : Bytes} {bg color : Option Bytes}
    (hstage : c.stage = .handleExpected) (haborted : c.aborted = false)
    (hlen : block.length = size) (hcolours : Colours (p.tile.leaves p.carry) bg color)
    (hrun : handler.run (RFBClient.runtime env) block (arming handler size c) =
      RFBClient.doNextHextileSubrect (RFBClient.runtime env) bg color rect
        (some ((p.place rect).x, (p.place rect).y)) (arming handler size done)) :
    Decodes env rect p (arming handler size c) block done := by
  refine ⟨bg, color, handler, size, hcolours, fun rest c₂ hdone haborted₂ => ?_⟩
  exact Connection.reaches_live hstage haborted hlen (hrun.trans hdone) haborted₂

/-- The turn that reads the mask of a tile. -/
theorem handleDecodeHextile_eq (p : Placed bypp) (rect : Rect) (bg color : Option Bytes)
    (mask : UInt8) (hbypp : c.pixelFormat.bypp = bypp) :
    RFBClient.handleDecodeHextile (RFBClient.runtime env) (p.waiting rect bg color) [mask] c =
      (if RFBClient.HextileEncoding.has mask RFBClient.HextileEncoding.RAW then
        expect (.decodeHextileRAW (p.waiting rect bg color) (p.place rect).width
          (p.place rect).height) ((p.place rect).width * (p.place rect).height * bypp)
      else
        let numbytes :=
          (if RFBClient.HextileEncoding.has mask RFBClient.HextileEncoding.BACKGROUND_SPECIFIED
            then bypp else 0) +
          (if RFBClient.HextileEncoding.has mask RFBClient.HextileEncoding.FOREGROUND_SPECIFIED
            then bypp else 0) +
          (if RFBClient.HextileEncoding.has mask RFBClient.HextileEncoding.ANY_SUBRECTS
            then 1 else 0)
        if numbytes ≠ 0 then
          expect (.decodeHextileSubrect mask (p.waiting rect bg color) (p.place rect).width
            (p.place rect).height) numbytes
        else do
          (RFBClient.runtime env).call (.fillRectangle (p.place rect).x (p.place rect).y
            (p.place rect).width (p.place rect).height bg)
          RFBClient.doNextHextileSubrect (RFBClient.runtime env) bg color rect
            (some ((p.place rect).x, (p.place rect).y)) : Py Unit Unit) c := by
  have hedge (n : ℕ) : (if n < 16 then n else 16) = min 16 n := by
    split_ifs with hn
    · exact (Nat.min_eq_right hn.le).symm
    · exact (Nat.min_eq_left (Nat.not_lt.1 hn)).symm
  have htw : min 16 ((p.waiting rect bg color).rect.x + (p.waiting rect bg color).rect.width -
      (p.waiting rect bg color).tx) = (p.place rect).width :=
    congrArg (min 16) (Nat.add_sub_add_left _ _ _)
  have hth : min 16 ((p.waiting rect bg color).rect.y + (p.waiting rect bg color).rect.height -
      (p.waiting rect bg color).ty) = (p.place rect).height :=
    congrArg (min 16) (Nat.add_sub_add_left _ _ _)
  unfold RFBClient.handleDecodeHextile
  rw [run_get_bind, hbypp]
  dsimp only
  rw [hedge, hedge, htw, hth]
  rfl

/-- A raw tile. -/
theorem decodes_raw {p : Placed bypp} {rect : Rect} {bg color : Option Bytes} {mask : UInt8}
    {pixels : Bytes} (htile : p.tile = .raw mask pixels) (hvalid : p.Valid rect.width rect.height)
    (hstage : c.stage = .handleExpected) (haborted : c.aborted = false)
    (hformat : c.pixelFormat = format) (hbypp : format.bypp = bypp) :
    Decodes env rect p (arming (.decodeHextile (p.waiting rect bg color)) 1 c) p.tile.encode
      (drew format (p.calls format rect) c) := by
  unfold Placed.Valid at hvalid
  unfold Placed.calls
  rw [htile] at hvalid ⊢
  rcases hvalid with ⟨hraw, hlength⟩
  have hbypp' : c.pixelFormat.bypp = bypp := hformat ▸ hbypp
  have hmask := @handleDecodeHextile_eq bypp env
    (arming (.decodeHextile (p.waiting rect bg color)) 1 c) p rect bg color mask hbypp'
  rw [if_pos hraw] at hmask
  have hcall := @call_updateRectangle env format
    (arming (.decodeHextileRAW (p.waiting rect bg color) (p.place rect).width
      (p.place rect).height) ((p.place rect).width * (p.place rect).height * bypp) c) hformat
    (p.place rect).x (p.place rect).y (p.place rect).width (p.place rect).height pixels
  have hcolours : Colours (p.tile.leaves p.carry) bg color := by
    rw [htile]
    exact ⟨fun _ hnone => absurd hnone (Option.some_ne_none _).symm,
      fun _ hnone => absurd hnone (Option.some_ne_none _).symm⟩
  have hpixels : Decodes env rect p
      (arming (.decodeHextileRAW (p.waiting rect bg color) (p.place rect).width
        (p.place rect).height) ((p.place rect).width * (p.place rect).height * bypp) c) pixels
      (drew format [.updateRectangle (p.place rect).x (p.place rect).y (p.place rect).width
        (p.place rect).height pixels format] c) := by
    refine Decodes.last hstage haborted hlength hcolours ?_
    change RFBClient.handleDecodeHextileRAW (RFBClient.runtime env) _ _ _ pixels _ = _
    unfold RFBClient.handleDecodeHextileRAW
    rw [run_get_bind]
    exact run_bind_ok hcall
  exact @Decodes.step bypp env rect p _ _ _ [mask] _ hpixels hstage haborted rfl hmask haborted

/-- A tile that is not raw.  If it has subrectangles, they are the blocks of a turn of their own. -/
theorem decodes_painted {α : Type} {p : Placed bypp} {rect : Rect} {bg color : Option Bytes}
    {background foreground : Option (Pixel bypp)} {subrects : Option (List α)} {coloured : Bool}
    {tail : Bytes} {cbs : List Callback} (hcolours : Colours p.carry bg color)
    (hbackground : (background.or p.carry.background).isSome)
    (hleaves : (p.tile.leaves p.carry).background = background.or p.carry.background)
    (hnone : subrects.getD [] = [] → (p.tile.leaves p.carry).foreground = none ∨
      (p.tile.leaves p.carry).foreground = foreground.or p.carry.foreground)
    (hempty : subrects.getD [] = [] → tail = [] ∧ cbs = [])
    (hcount : (subrects.getD []).length ≤ 255)
    (htail : tail.length = (if coloured then bypp + 2 else 2) * (subrects.getD []).length)
    (hrun : subrects.getD [] ≠ [] → ∀ c' : RFBClient Unit, c'.pixelFormat = format →
      ∃ color', (∀ q, (p.tile.leaves p.carry).foreground = some q → color' = some q.val) ∧
        (if coloured then RFBClient.handleDecodeHextileSubrectsColoured
          else RFBClient.handleDecodeHextileSubrectsFG) (RFBClient.runtime env)
            (p.waiting rect (some (colour background p.carry.background))
              ((foreground.map Subtype.val).or color)) tail c' =
          RFBClient.doNextHextileSubrect (RFBClient.runtime env)
            (some (colour background p.carry.background)) color' rect
            (some ((p.place rect).x, (p.place rect).y)) (drew format cbs c'))
    (hstage : c.stage = .handleExpected) (haborted : c.aborted = false)
    (hformat : c.pixelFormat = format) (hbypp : format.bypp = bypp) (hpos : 0 < bypp) :
    Decodes env rect p (arming (.decodeHextile (p.waiting rect bg color)) 1 c)
      (flags background.isSome foreground.isSome subrects.isSome coloured ::
        (specified background ++ specified foreground ++ count subrects ++ tail))
      (drew format (fill (p.place rect) (colour background p.carry.background) :: cbs) c) := by
  have hbypp' : c.pixelFormat.bypp = bypp := hformat ▸ hbypp
  have hbg := or_of_carried hcolours.background hbackground
  have hmask := @handleDecodeHextile_eq bypp env
    (arming (.decodeHextile (p.waiting rect bg color)) 1 c) p rect bg color
    (flags background.isSome foreground.isSome subrects.isSome coloured) hbypp'
  rcases has_flags background.isSome foreground.isSome subrects.isSome coloured with
    ⟨hraw, hb, hf, hs, _⟩
  rw [hraw, hb, hf, hs] at hmask
  -- The colours after a tile without subrectangles.
  have hforeground (hnil : subrects.getD [] = []) :
      Colours (p.tile.leaves p.carry) (some (colour background p.carry.background))
        ((foreground.map Subtype.val).or color) := by
    refine ⟨fun q hq => ?_, fun q hq => ?_⟩
    · rw [hleaves] at hq
      unfold colour
      rw [hq]
      rfl
    · rcases hnone hnil with hleft | hleft
      · rw [hleft] at hq
        cases hq
      · rw [hleft] at hq
        have hsome : (foreground.or p.carry.foreground).isSome := by
          rw [hq]
          rfl
        rw [or_of_carried hcolours.foreground hsome]
        unfold colour
        rw [hq]
        rfl
  have hbackground' (color' : Option Bytes)
      (hcolor' : ∀ q, (p.tile.leaves p.carry).foreground = some q → color' = some q.val) :
      Colours (p.tile.leaves p.carry) (some (colour background p.carry.background)) color' := by
    refine ⟨fun q hq => ?_, hcolor'⟩
    rw [hleaves] at hq
    unfold colour
    rw [hq]
    rfl
  have hfill (c' : RFBClient Unit) (hc' : c'.pixelFormat = format) :=
    @call_fill env format c' hc' (p.place rect) (colour background p.carry.background)
  let head : Bytes := specified background ++ specified foreground ++ count subrects
  have hhead : head.length = (if background.isSome then bypp else 0) +
      (if foreground.isSome then bypp else 0) + (if subrects.isSome then 1 else 0) := by
    rw [List.length_append, List.length_append, length_specified, length_specified]
    cases subrects with
    | none => rfl
    | some subrects => rfl
  rw [← hhead] at hmask
  by_cases hnil : head.length = 0
  -- Nothing is specified: the tile is filled in the same turn.
  · have hall : background = none ∧ foreground = none ∧ subrects = none := by
      rw [hhead] at hnil
      refine ⟨?_, ?_, ?_⟩
      · cases background with
        | none => rfl
        | some q => simp at hnil; omega
      · cases foreground with
        | none => rfl
        | some q => simp at hnil; omega
      · cases subrects with
        | none => rfl
        | some subrects => simp at hnil
    rcases hall with ⟨rfl, rfl, rfl⟩
    rcases hempty rfl with ⟨rfl, rfl⟩
    have hbg' : bg = some (colour none p.carry.background) := hbg
    subst hbg'
    rw [if_neg Bool.false_ne_true, if_neg (not_not.2 hnil)] at hmask
    exact Decodes.last hstage haborted rfl (hforeground rfl)
      (hmask.trans (run_bind_ok (hfill _ hformat)))
  · rw [if_neg Bool.false_ne_true, if_pos hnil] at hmask
    let armed : RFBClient Unit :=
      arming (.decodeHextileSubrect
        (flags background.isSome foreground.isSome subrects.isSome coloured)
        (p.waiting rect bg color) (p.place rect).width (p.place rect).height) head.length c
    have hhead_run := @handleDecodeHextileSubrect_eq bypp env armed α (p.waiting rect bg color)
      (p.place rect).width (p.place rect).height background foreground subrects coloured hbypp'
      hcount
    have hbg' : (background.map Subtype.val).or (p.waiting rect bg color).bg =
        some (colour background p.carry.background) := hbg
    rw [hbg'] at hhead_run
    dsimp only at hhead_run
    have hcall := hfill armed hformat
    have hrest : Decodes env rect p armed (head ++ tail)
        (drew format (fill (p.place rect) (colour background p.carry.background) :: cbs) c) := by
      by_cases hsubs : subrects.getD [] = []
      · rcases hempty hsubs with ⟨rfl, rfl⟩
        have hlength : (subrects.getD []).length = 0 := List.length_eq_zero_iff.2 hsubs
        rw [if_neg (not_not.2 hlength)] at hhead_run
        rw [List.append_nil]
        exact Decodes.last hstage haborted rfl (hforeground hsubs)
          (hhead_run.trans (run_bind_ok hcall))
      · have hlength : (subrects.getD []).length ≠ 0 :=
          fun hzero => hsubs (List.length_eq_zero_iff.1 hzero)
        rw [if_pos hlength] at hhead_run
        let tile : HextileTile := p.waiting rect (some (colour background p.carry.background))
          ((foreground.map Subtype.val).or color)
        let next : Handler :=
          if coloured then .decodeHextileSubrectsColoured tile else .decodeHextileSubrectsFG tile
        have harmed : RFBClient.handleDecodeHextileSubrect (RFBClient.runtime env)
            (flags background.isSome foreground.isSome subrects.isSome coloured)
            (p.waiting rect bg color) (p.place rect).width (p.place rect).height head armed =
              .ok () (arming next tail.length
                (drew format [fill (p.place rect) (colour background p.carry.background)] c)) := by
          refine (hhead_run.trans (run_bind_ok hcall)).trans ?_
          rw [htail]
          cases coloured with
          | false => rfl
          | true => rfl
        rcases hrun hsubs (arming next tail.length
          (drew format [fill (p.place rect) (colour background p.carry.background)] c)) hformat with
          ⟨color', hcolor', htail_run⟩
        have hblock : Decodes env rect p (arming next tail.length
            (drew format [fill (p.place rect) (colour background p.carry.background)] c)) tail
            (drew format (fill (p.place rect) (colour background p.carry.background) :: cbs) c) := by
          refine Decodes.last hstage haborted rfl (hbackground' color' hcolor') ?_
          have hdrew := @drew_append format
            [fill (p.place rect) (colour background p.carry.background)] cbs c
          rw [List.singleton_append] at hdrew
          rw [hdrew]
          refine Eq.trans ?_ htail_run
          cases coloured with
          | false => rfl
          | true => rfl
        exact hblock.step hstage haborted rfl harmed haborted
    exact @Decodes.step bypp env rect p _ _ _ [_] _ hrest hstage haborted rfl hmask haborted

theorem length_blocks {α : Type} {encode : α → Bytes} {n : ℕ} (h : ∀ s, (encode s).length = n)
    (subrects : List α) : (subrects.flatMap encode).length = n * subrects.length := by
  induction subrects with
  | nil => rfl
  | cons s subrects ih =>
      rw [List.flatMap_cons, List.length_append, h, ih, List.length_cons, Nat.mul_succ,
        Nat.add_comm]

/-- A tile is decoded, and what it makes the client draw are its calls. -/
theorem decodes_tile {p : Placed bypp} {rect : Rect} {bg color : Option Bytes}
    (hcolours : Colours p.carry bg color) (hvalid : p.Valid rect.width rect.height)
    (hstage : c.stage = .handleExpected) (haborted : c.aborted = false)
    (hformat : c.pixelFormat = format) (hbypp : format.bypp = bypp) (hpos : 0 < bypp) :
    Decodes env rect p (arming (.decodeHextile (p.waiting rect bg color)) 1 c) p.tile.encode
      (drew format (p.calls format rect) c) := by
  rcases p with ⟨index, carry, tile⟩
  cases tile with
  | raw mask pixels => exact decodes_raw rfl hvalid hstage haborted hformat hbypp
  | plain background foreground subrects =>
      rcases hvalid with ⟨hbackground, hcount, hsubrects⟩
      have htail : ((subrects.getD []).flatMap Subrect.encode).length =
          2 * (subrects.getD []).length :=
        @length_blocks _ Subrect.encode 2 (fun _ => rfl) _
      have hempty (hnil : subrects.getD [] = []) (f : Subrect → Callback) :
          (subrects.getD []).flatMap Subrect.encode = [] ∧ (subrects.getD []).map f = [] := by
        rw [hnil]
        exact ⟨rfl, rfl⟩
      refine decodes_painted hcolours hbackground rfl (fun _ => Or.inr rfl)
        (fun hnil => hempty hnil _) hcount htail (fun hne c' hformat' => ?_) hstage haborted hformat
        hbypp hpos
      rcases List.exists_mem_of_ne_nil _ hne with ⟨s, hs⟩
      have hforeground := or_of_carried hcolours.foreground (hsubrects s hs).1
      refine ⟨_, fun q hq => ?_, run_bind_ok (subrectsFG_eq hforeground _ hformat')⟩
      have hq' : foreground.or carry.foreground = some q := hq
      refine hforeground.trans ?_
      unfold colour
      rw [hq']
      rfl
  | coloured background subrects =>
      rcases hvalid with ⟨hbackground, hcount, hsubrects⟩
      have htail : ((subrects.getD []).flatMap fun s => s.1.val ++ s.2.encode).length =
          (bypp + 2) * (subrects.getD []).length := by
        refine length_blocks (fun s => ?_) _
        rw [List.length_append, s.1.property]
        rfl
      have hempty (hnil : subrects.getD [] = []) (f : Pixel bypp × Subrect → Callback) :
          ((subrects.getD []).flatMap fun s => s.1.val ++ s.2.encode) = [] ∧
            (subrects.getD []).map f = [] := by
        rw [hnil]
        exact ⟨rfl, rfl⟩
      -- The colours of the subrectangles come with them, so no foreground is specified.
      have hencode : (Tile.coloured background subrects).encode =
          flags background.isSome (none : Option (Pixel bypp)).isSome subrects.isSome true ::
            (specified background ++ specified (none : Option (Pixel bypp)) ++ count subrects ++
              (subrects.getD []).flatMap fun s => s.1.val ++ s.2.encode) := by
        have hnone : specified (none : Option (Pixel bypp)) = [] := rfl
        rw [hnone, List.append_nil]
        rfl
      change Decodes env rect _ _ (Tile.coloured background subrects).encode _
      rw [hencode]
      refine decodes_painted hcolours hbackground rfl (fun _ => Or.inl rfl)
        (fun hnil => hempty hnil _) hcount htail (fun hne c' hformat' => ?_) hstage haborted hformat
        hbypp hpos
      have hbypp' : c'.pixelFormat.bypp = bypp := hformat' ▸ hbypp
      have hfuel : (subrects.getD []).length ≤
          ((subrects.getD []).flatMap fun s => s.1.val ++ s.2.encode).length := by
        rw [htail]
        exact Nat.le_mul_of_pos_left _ (Nat.succ_pos _)
      rcases @subrectsColoured_eq _ env _ _ (Placed.waiting
        ⟨index, carry, .coloured background subrects⟩ rect
        (some (colour background carry.background)) ((none : Option Bytes).or color))
        (subrects.getD []) hformat' _ hfuel color with ⟨color', hrun⟩
      refine ⟨color', fun q hq => (by cases hq), ?_⟩
      change RFBClient.handleDecodeHextileSubrectsColoured (RFBClient.runtime env) _ _ c' = _
      unfold RFBClient.handleDecodeHextileSubrectsColoured
      rw [run_get_bind, hbypp']
      exact run_bind_ok hrun

/-! ## A rectangle -/

/-- The tile after the `k`-th one. -/
theorem nextTile_eq {rect : Rect} {k : ℕ}
    (hk : k < tilesAcross 16 rect.width * tilesAcross 16 rect.height) :
    RFBClient.nextTile rect (some (rect.x + 16 * (k % tilesAcross 16 rect.width),
        rect.y + 16 * (k / tilesAcross 16 rect.width))) =
      (rect.x + 16 * ((k + 1) % tilesAcross 16 rect.width),
        rect.y + 16 * ((k + 1) / tilesAcross 16 rect.width)) := by
  have hacross : 0 < tilesAcross 16 rect.width := Nat.pos_of_ne_zero fun hzero => by
    rw [hzero, Nat.zero_mul] at hk
    exact Nat.not_lt_zero _ hk
  have hend : rect.x + rect.width ≤ rect.x + 16 * (k % tilesAcross 16 rect.width) + 16 ↔
      k % tilesAcross 16 rect.width + 1 = tilesAcross 16 rect.width := by
    rw [Nat.add_assoc, Nat.add_le_add_iff_left]
    exact le_mul_add_iff (by decide) (Nat.mod_lt k hacross)
  unfold RFBClient.nextTile
  dsimp only
  by_cases hlast : k % tilesAcross 16 rect.width + 1 = tilesAcross 16 rect.width
  · rcases succ_of_last hlast with ⟨hmod, hdiv⟩
    rw [if_pos (hend.2 hlast), hmod, hdiv, Nat.mul_succ]
    rfl
  · rcases succ_of_not_last hacross hlast with ⟨hmod, hdiv⟩
    rw [if_neg fun h => hlast (hend.1 h), hmod, hdiv, Nat.mul_succ]
    rfl

/-- The last tile ends the rectangle. -/
theorem le_row_iff {rect : Rect} {k : ℕ} (hwidth : 0 < rect.width)
    (hk : k ≤ tilesAcross 16 rect.width * tilesAcross 16 rect.height) :
    rect.y + rect.height ≤ rect.y + 16 * (k / tilesAcross 16 rect.width) ↔
      k = tilesAcross 16 rect.width * tilesAcross 16 rect.height := by
  have hacross : 0 < tilesAcross 16 rect.width := tilesAcross_pos (by decide) hwidth
  rw [Nat.add_le_add_iff_left]
  constructor
  · intro hend
    by_contra hne
    have hlt : k < tilesAcross 16 rect.width * tilesAcross 16 rect.height :=
      lt_of_le_of_ne hk hne
    have hrow : k / tilesAcross 16 rect.width < tilesAcross 16 rect.height :=
      Nat.div_lt_of_lt_mul hlt
    exact absurd hend (Nat.not_le.2 (mul_lt_of_lt_tilesAcross (by decide) hrow))
  · rintro rfl
    rw [Nat.mul_div_cancel_left _ hacross]
    exact le_mul_tilesAcross (by decide)

theorem doNextHextileSubrect_eq {rect : Rect} {p : Placed bypp} {bg color : Option Bytes}
    (hwidth : 0 < rect.width)
    (hp : p.index < tilesAcross 16 rect.width * tilesAcross 16 rect.height) (next : Placed bypp)
    (hnext : next.index = p.index + 1) :
    RFBClient.doNextHextileSubrect (RFBClient.runtime env) bg color rect
        (some ((p.place rect).x, (p.place rect).y)) c =
      if p.index + 1 = tilesAcross 16 rect.width * tilesAcross 16 rect.height then
        RFBClient.doConnection (RFBClient.runtime env) c
      else
        .ok () (arming (.decodeHextile (next.waiting rect bg color)) 1 c) := by
  have htile : RFBClient.nextTile rect (some ((p.place rect).x, (p.place rect).y)) =
      ((next.place rect).x, (next.place rect).y) := by
    refine (nextTile_eq hp).trans ?_
    rw [← hnext]
    rfl
  have hnext_le : next.index ≤ tilesAcross 16 rect.width * tilesAcross 16 rect.height :=
    hnext.trans_le hp
  have hrow : rect.y + rect.height ≤ (next.place rect).y ↔
      next.index = tilesAcross 16 rect.width * tilesAcross 16 rect.height :=
    le_row_iff hwidth hnext_le
  unfold RFBClient.doNextHextileSubrect
  rw [htile, ← hnext]
  dsimp only
  by_cases hlast : next.index = tilesAcross 16 rect.width * tilesAcross 16 rect.height
  · rw [if_pos hlast, if_pos (hrow.2 hlast)]
  · rw [if_neg hlast, if_neg fun h => hlast (hrow.1 h)]
    rfl

/-- The tiles are decoded one after the other, each where it stands. -/
theorem reaches_tiles {rect : Rect} (hwidth : 0 < rect.width) (hbypp : format.bypp = bypp)
    (hpos : 0 < bypp) (tile : Tile bypp) (tiles : List (Tile bypp)) {k : ℕ} {carry : Carry bypp}
    {bg color : Option Bytes}
    (hlength : k + (tiles.length + 1) = tilesAcross 16 rect.width * tilesAcross 16 rect.height)
    (hvalid : ∀ p ∈ place k carry (tile :: tiles), p.Valid rect.width rect.height)
    (hcolours : Colours carry bg color) (hstage : c.stage = .handleExpected)
    (haborted : c.aborted = false) (hformat : c.pixelFormat = format) :
    ∃ handler size, ∀ rest,
      (∀ c₂, RFBClient.doConnection (RFBClient.runtime env) (arming handler size
          (drew format ((place k carry (tile :: tiles)).flatMap fun p => p.calls format rect) c)) =
            .ok () c₂ → c₂.aborted = false →
        Reaches (Connection.iterate (RFBClient.runtime env))
          (Connection.live (arming (.decodeHextile
            (Placed.waiting ⟨k, carry, tile⟩ rect bg color)) 1 c)
            ((tile :: tiles).flatMap Tile.encode ++ rest))
          (Connection.live c₂ rest)) ∧
      ∀ before p after, place k carry (tile :: tiles) = before ++ p :: after →
        ∃ bg' color', Reaches (Connection.iterate (RFBClient.runtime env))
          (Connection.live (arming (.decodeHextile
            (Placed.waiting ⟨k, carry, tile⟩ rect bg color)) 1 c)
            ((tile :: tiles).flatMap Tile.encode ++ rest))
          (Connection.live (arming (.decodeHextile (p.waiting rect bg' color')) 1
            (drew format (before.flatMap fun p => p.calls format rect) c))
            ((p :: after).flatMap (fun p => p.tile.encode) ++ rest)) := by
  -- By induction on the tiles: the first one, and then those behind it.
  induction tiles generalizing k carry bg color c tile with
  | nil =>
      rcases @decodes_tile _ env _ _ ⟨k, carry, tile⟩ _ _ _ hcolours
        (hvalid _ List.mem_cons_self) hstage haborted hformat hbypp hpos with
        ⟨bg', color', handler, size, _, hrest⟩
      have hindex : k < tilesAcross 16 rect.width * tilesAcross 16 rect.height := by
        rw [← hlength]
        exact Nat.lt_add_of_pos_right (Nat.succ_pos _)
      have hcalls : ((place k carry [tile]).flatMap fun p => p.calls format rect) =
          Placed.calls ⟨k, carry, tile⟩ format rect := List.append_nil _
      have hbytes : [tile].flatMap Tile.encode = tile.encode := List.append_nil _
      refine ⟨handler, size, fun rest => ⟨fun c₂ hdone haborted₂ => ?_, fun before p after hsplit =>
        ?_⟩⟩
      · rw [hcalls] at hdone
        rw [hbytes]
        refine hrest rest c₂ ?_ haborted₂
        have hnext := @doNextHextileSubrect_eq bypp env
          (arming handler size (drew format (Placed.calls ⟨k, carry, tile⟩ format rect) c)) rect
          ⟨k, carry, tile⟩ bg' color' hwidth hindex ⟨k + 1, carry, tile⟩ rfl
        exact (hnext.trans (if_pos hlength)).trans hdone
      · cases before with
        | nil =>
            cases hsplit
            refine ⟨bg, color, ?_⟩
            have hdrew : drew format (([] : List (Placed bypp)).flatMap fun p =>
                p.calls format rect) c = c := drew_nil c
            have hbytes' : (⟨k, carry, tile⟩ :: place (k + 1) (tile.leaves carry) []).flatMap
                (fun p => p.tile.encode) = [tile].flatMap Tile.encode := encode_place k carry [tile]
            rw [hdrew, hbytes']
            exact Relation.ReflTransGen.refl
        | cons q before =>
            have hnil : [] = before ++ p :: after := (List.cons.inj hsplit).2
            exact absurd hnil.symm (List.append_ne_nil_of_right_ne_nil _ (List.cons_ne_nil _ _))
  | cons next tiles ih =>
      rcases @decodes_tile _ env _ _ ⟨k, carry, tile⟩ _ _ _ hcolours
        (hvalid _ List.mem_cons_self) hstage haborted hformat hbypp hpos with
        ⟨bg', color', handler, size, hcolours', hrest⟩
      have hindex : k < tilesAcross 16 rect.width * tilesAcross 16 rect.height := by
        rw [← hlength]
        exact Nat.lt_add_of_pos_right (Nat.succ_pos _)
      have hlength' : k + 1 + (tiles.length + 1) =
          tilesAcross 16 rect.width * tilesAcross 16 rect.height := by
        rw [← hlength, List.length_cons]
        omega
      have hlast : ¬ (⟨k, carry, tile⟩ : Placed bypp).index + 1 =
          tilesAcross 16 rect.width * tilesAcross 16 rect.height := by
        dsimp only
        omega
      have hnext := @doNextHextileSubrect_eq bypp env
        (arming handler size (drew format (Placed.calls ⟨k, carry, tile⟩ format rect) c)) rect
        ⟨k, carry, tile⟩ bg' color' hwidth hindex ⟨k + 1, tile.leaves carry, next⟩ rfl
      have hfirst (rest : Bytes) := hrest rest _ (hnext.trans (if_neg hlast)) haborted
      rcases ih (c := drew format (Placed.calls ⟨k, carry, tile⟩ format rect) c) next hlength'
        (fun p hp => hvalid p (List.mem_cons_of_mem _ hp)) hcolours' hstage haborted hformat with
        ⟨handler', size', hrest'⟩
      have hbytes (rest : Bytes) : (tile :: next :: tiles).flatMap Tile.encode ++ rest =
          tile.encode ++ ((next :: tiles).flatMap Tile.encode ++ rest) := by
        rw [List.flatMap_cons, List.append_assoc]
      refine ⟨handler', size', fun rest => ⟨fun c₂ hdone haborted₂ => ?_,
        fun before p after hsplit => ?_⟩⟩
      · rw [hbytes]
        refine (hfirst _).trans ((hrest' rest).1 c₂ ?_ haborted₂)
        rw [← drew_append]
        exact hdone
      · cases before with
        | nil =>
            cases hsplit
            refine ⟨bg, color, ?_⟩
            have hdrew : drew format (([] : List (Placed bypp)).flatMap fun p =>
                p.calls format rect) c = c := drew_nil c
            have hbytes' : (⟨k, carry, tile⟩ :: place (k + 1) (tile.leaves carry)
                (next :: tiles)).flatMap (fun p => p.tile.encode) =
                  (tile :: next :: tiles).flatMap Tile.encode :=
              encode_place k carry (tile :: next :: tiles)
            rw [hdrew, hbytes']
            exact Relation.ReflTransGen.refl
        | cons q before =>
            rcases List.cons.inj hsplit with ⟨rfl, hsplit'⟩
            rcases (hrest' rest).2 before p after hsplit' with ⟨bg'', color'', hreaches⟩
            refine ⟨bg'', color'', ?_⟩
            have hcalls : ((⟨k, carry, tile⟩ :: before : List (Placed bypp)).flatMap fun p =>
                p.calls format rect) = Placed.calls ⟨k, carry, tile⟩ format rect ++
                  before.flatMap fun p => p.calls format rect := List.flatMap_cons
            rw [hbytes, hcalls, drew_append]
            exact (hfirst _).trans hreaches

/-- The client that looks for what comes after a rectangle. -/
def handedOver (c : RFBClient Unit) : RFBClient Unit :=
  if c.rectangles ≠ 0 then Connection.awaitingRectangle c
  else
    arming .connection 1 { c with log := c.log ++ [.callback (.commitUpdate c.rectanglePos)] }

theorem doConnection_eq (c : RFBClient Unit) :
    RFBClient.doConnection (RFBClient.runtime env) c = .ok () (handedOver c) := by
  unfold handedOver
  by_cases hcount : c.rectangles ≠ 0
  · rw [if_pos hcount]
    exact Connection.doConnection_of_pos hcount
  · rw [if_neg hcount]
    exact Connection.doConnection_of_zero (not_not.1 hcount)

/-- The turn that reads the header of a rectangle. -/
theorem handleRectangle_hextile {rect : WireRect} (tile : Tile bypp) (hheight : 0 < rect.height.val)
    (hcount : c.rectangles ≠ 0) :
    RFBClient.handleRectangle (RFBClient.runtime env) (rect.header .hextile) c =
      .ok () (arming (.decodeHextile (Placed.waiting ⟨0, {}, tile⟩ rect.toRect none none)) 1
        (Connection.counted rect.toRect c)) := by
  have hplace : (rect.toRect.x, rect.toRect.y) =
      ((Placed.place ⟨0, {}, tile⟩ rect.toRect).x, (Placed.place ⟨0, {}, tile⟩ rect.toRect).y) := by
    unfold Placed.place Placed.region tileRegion Region.shift
    dsimp only
    rw [Nat.zero_mod, Nat.zero_div]
    rfl
  have hrow : ¬ rect.toRect.y + rect.toRect.height ≤ (Placed.place ⟨0, {}, tile⟩ rect.toRect).y := by
    have hy := congrArg Prod.snd hplace
    dsimp only at hy
    rw [← hy]
    exact Nat.not_le.2 (Nat.lt_add_of_pos_right hheight)
  refine (Connection.handleRectangle_eq rect (by decide) hcount).trans ?_
  change RFBClient.doNextHextileSubrect (RFBClient.runtime env) none none rect.toRect none _ = _
  unfold RFBClient.doNextHextileSubrect
  have hfirst : RFBClient.nextTile rect.toRect none = _ := hplace
  rw [hfirst]
  dsimp only
  rw [if_neg hrow]
  rfl

end Turns

/-- A client that waits for the header of a rectangle, whose pixels take `bypp` bytes. -/
structure AwaitsHeader (bypp : ℕ) (conn : Connection Unit) : Prop where
  idle : conn.Idle
  armed : conn.client.armed = (.rectangle, 12)
  announced : conn.client.rectangles ≠ 0
  format : conn.client.pixelFormat.bypp = bypp
  pixels : 0 < bypp

/-- The calls have been made, everything is read, and what comes after the rectangle is awaited. -/
structure Decoded (conn conn' : Connection Unit) (rect : Rect) (cbs : List Callback) : Prop where
  idle : conn'.Idle
  armed : conn'.client.armed =
    if conn.client.rectangles = 1 then (.connection, 1) else (.rectangle, 12)
  log : conn'.client.log = conn.client.log ++
    (cbs.flatMap (made conn.client.pixelFormat)).map Event.callback ++
      if conn.client.rectangles = 1 then
        [.callback (.commitUpdate (conn.client.rectanglePos ++ [rect]))]
      else []

/-- On the way the client comes to every tile, with the calls for those before it made and the bytes
from it on unread. -/
def Visits (env : Env) (conn : Connection Unit) (rect : Rect) (tiles : List (Tile bypp))
    (bytes : Bytes) : Prop :=
  ∀ before p after, place 0 {} tiles = before ++ p :: after →
    ∃ bg color c', Reaches (Connection.iterate (RFBClient.runtime env))
        (Connection.live conn.client bytes)
        (Connection.live (arming (.decodeHextile (p.waiting rect bg color)) 1 c')
          ((p :: after).flatMap fun p => p.tile.encode)) ∧
      c'.log = conn.client.log ++ ((before.flatMap fun p =>
        p.calls conn.client.pixelFormat rect).flatMap (made conn.client.pixelFormat)).map .callback

theorem expectedLen_handedOver (c : RFBClient Unit) : 0 < (handedOver c).expectedLen := by
  unfold handedOver
  split_ifs
  · exact Nat.succ_pos 11
  · exact Nat.succ_pos 0

/-- What comes after the rectangle is awaited. -/
theorem decoded_handedOver {bypp : ℕ} {conn : Connection Unit} (hconn : AwaitsHeader bypp conn)
    (rect : Rect) (cbs : List Callback) (handler : Handler) (size : ℕ) :
    Decoded conn
      (Connection.live (handedOver (arming handler size
        (drew conn.client.pixelFormat cbs (Connection.counted rect conn.client)))) [])
      rect cbs := by
  unfold handedOver
  by_cases hlast : conn.client.rectangles = 1
  · have hzero : ¬ conn.client.rectangles - 1 ≠ 0 := by omega
    have hcount : ¬ (arming handler size (drew conn.client.pixelFormat cbs
        (Connection.counted rect conn.client))).rectangles ≠ 0 := hzero
    rw [if_neg hcount]
    refine ⟨⟨hconn.idle.stage, hconn.idle.aborted, rfl, rfl⟩, ?_, ?_⟩
    · rw [if_pos hlast]
      rfl
    · rw [if_pos hlast]
      rfl
  · have hpos : conn.client.rectangles - 1 ≠ 0 := by
      have hannounced := hconn.announced
      omega
    have hcount : (arming handler size (drew conn.client.pixelFormat cbs
        (Connection.counted rect conn.client))).rectangles ≠ 0 := hpos
    rw [if_pos hcount]
    refine ⟨⟨hconn.idle.stage, hconn.idle.aborted, rfl, rfl⟩, ?_, ?_⟩
    · rw [if_neg hlast]
      rfl
    · rw [if_neg hlast, List.append_nil]
      rfl

/-- A Hextile rectangle that is encoded as the specification allows is read to its end and no
further, in any cut; its tiles are visited in their order, and the calls paint the image it denotes
on its region, and nothing else. -/
theorem hextile_exact {env : Env} {bypp : ℕ} {conn : Connection Unit} (rect : WireRect)
    (tiles : List (Tile bypp)) {chunks : List Bytes} (hconn : AwaitsHeader bypp conn)
    (hsize : 0 < rect.width.val ∧ 0 < rect.height.val)
    (hvalid : Valid rect.width.val rect.height.val tiles)
    (hchunks : chunks.flatten = rect.header .hextile ++ tiles.flatMap Tile.encode) :
    ∃ conn', (∀ q, conn.Receives (RFBClient.runtime env) chunks q ↔ q = conn') ∧
      Decoded conn conn' rect.toRect (calls conn.client.pixelFormat rect.toRect tiles) ∧
      Visits env conn rect.toRect tiles chunks.flatten ∧
      ∀ picture, painted bypp picture
          ((calls conn.client.pixelFormat rect.toRect tiles).flatMap
            (made conn.client.pixelFormat)) =
        picture.paint ⟨rect.x.val, rect.y.val, rect.width.val, rect.height.val⟩
          (image rect.width.val rect.height.val tiles) := by
  have hpaint := @painted_calls bypp conn.client.pixelFormat rect.toRect tiles hvalid
  have htotal : 0 < tiles.length := by
    rw [hvalid.length]
    exact Nat.mul_pos (tilesAcross_pos (by decide) hsize.1) (tilesAcross_pos (by decide) hsize.2)
  cases tiles with
  | nil => exact absurd htotal (Nat.lt_irrefl 0)
  | cons tile tiles =>
      let c₀ : RFBClient Unit := Connection.counted rect.toRect conn.client
      let cbs : List Callback :=
        calls conn.client.pixelFormat rect.toRect (tile :: tiles)
      have hhandler : conn.client.expectedHandler = .rectangle := congrArg Prod.fst hconn.armed
      have hlen : conn.client.expectedLen = 12 := congrArg Prod.snd hconn.armed
      have hcolours : Colours ({} : Carry bypp) none none :=
        ⟨fun _ hnone => (by cases hnone), fun _ hnone => (by cases hnone)⟩
      have hheader : Reaches (Connection.iterate (RFBClient.runtime env))
          (Connection.live conn.client (rect.header .hextile ++ (tile :: tiles).flatMap Tile.encode))
          (Connection.live
            (arming (.decodeHextile (Placed.waiting ⟨0, {}, tile⟩ rect.toRect none none)) 1 c₀)
            ((tile :: tiles).flatMap Tile.encode)) := by
        refine Connection.reaches_live hconn.idle.stage hconn.idle.aborted ?_ ?_
          hconn.idle.aborted
        · rw [hlen, WireRect.length_header]
        · rw [hhandler]
          exact handleRectangle_hextile tile hsize.2 hconn.announced
      have hlength : 0 + (tiles.length + 1) =
          tilesAcross 16 rect.toRect.width * tilesAcross 16 rect.toRect.height :=
        (Nat.zero_add _).trans hvalid.length
      -- From the first tile on, with no colour carried over yet, the tiles are read one by one.
      rcases @reaches_tiles _ env _ c₀ rect.toRect hsize.1 hconn.format
        hconn.pixels tile tiles 0 _ _ _ hlength hvalid.tile hcolours hconn.idle.stage hconn.idle.aborted rfl
        with ⟨handler, size, hrest⟩
      rcases hrest [] with ⟨hdone, hvisits⟩
      rw [List.append_nil] at hdone hvisits
      have haborted : (handedOver (arming handler size
          (drew conn.client.pixelFormat cbs c₀))).aborted = false := by
        unfold handedOver
        split_ifs
        · exact hconn.idle.aborted
        · exact hconn.idle.aborted
      have hreaches := hheader.trans (hdone _ (doConnection_eq _) haborted)
      rw [← hchunks] at hreaches
      have hdecoded := decoded_handedOver hconn rect.toRect cbs handler size
      have hlen' := expectedLen_handedOver (arming handler size
        (drew conn.client.pixelFormat cbs c₀))
      refine ⟨_, hconn.idle.receives_iff (by rw [hlen]; decide) (RFBClient.runtime_tame env)
        hreaches hlen', hdecoded, fun before p after hsplit => ?_, hpaint⟩
      -- Each tile is waited for when those before it have been read.
      rcases hvisits before p after hsplit with ⟨bg, color, hvisit⟩
      rw [List.append_nil] at hvisit
      rw [hchunks]
      exact ⟨bg, color, _, hheader.trans hvisit, rfl⟩

/-- A client that waits for a rectangle of pixels of one byte. -/
def awaitingOneByte : Connection Unit where
  client :=
    { app := ()
      stage := .handleExpected
      expectedHandler := .rectangle
      expectedLen := 12
      rectangles := 1
      pixelFormat := { bpp := 8 } }

/-- A tile with a subrectangle in the foreground, and one of the background that it leaves, in
seventeen pixels. -/
def twoTiles : List (Tile 1) :=
  [.plain (some ⟨[7], rfl⟩) (some ⟨[9], rfl⟩) (some [⟨1, 0, 2, 0⟩]), .plain none none none]

theorem hextile_exact_twoTiles :
    ∃ conn', (∀ q, awaitingOneByte.Receives (RFBClient.runtime .sample)
        ((WireRect.header ⟨3, 4, 17, 1⟩ .hextile ++ twoTiles.flatMap Tile.encode).map fun b => [b])
          q ↔ q = conn') ∧
      Decoded awaitingOneByte conn' ⟨3, 4, 17, 1⟩
        (calls awaitingOneByte.client.pixelFormat ⟨3, 4, 17, 1⟩ twoTiles) ∧
      Visits .sample awaitingOneByte ⟨3, 4, 17, 1⟩ twoTiles
        ((WireRect.header ⟨3, 4, 17, 1⟩ .hextile ++ twoTiles.flatMap Tile.encode).map
          fun b => [b]).flatten ∧
      ∀ picture, painted 1 picture
          ((calls awaitingOneByte.client.pixelFormat ⟨3, 4, 17, 1⟩ twoTiles).flatMap
            (made awaitingOneByte.client.pixelFormat)) =
        picture.paint ⟨3, 4, 17, 1⟩ (image 17 1 twoTiles) := by
  refine hextile_exact ⟨3, 4, 17, 1⟩ twoTiles ⟨⟨rfl, rfl, rfl, rfl⟩, rfl, by decide, rfl, by decide⟩
    (by decide) ⟨rfl, fun p hp => ?_⟩ (by decide)
  have hplaced : p = ⟨0, {}, .plain (some ⟨[7], rfl⟩) (some ⟨[9], rfl⟩) (some [⟨1, 0, 2, 0⟩])⟩ ∨
      p = ⟨1, ⟨some ⟨[7], rfl⟩, some ⟨[9], rfl⟩⟩, .plain none none none⟩ := by
    simpa [place, twoTiles, Tile.leaves] using hp
  rcases hplaced with rfl | rfl
  · refine ⟨rfl, by decide, fun s hs => ?_⟩
    rw [List.mem_singleton.1 hs]
    exact ⟨rfl, by decide⟩
  · exact ⟨rfl, by decide, fun s hs => absurd hs List.not_mem_nil⟩

end Hextile

end Vncdotool
