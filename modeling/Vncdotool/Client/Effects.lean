import Vncdotool.Client.Session
import Vncdotool.RFB.Rectangles

/-!
# Effects — what the rectangles of an update do to the screen

`effect` is what the callbacks of a rectangle do to the attributes of a client that can read its
pixels.  Whether one of its pastes sets a pixel is a matter of sizes, places and the cursor's mask
alone: a `Scene` is a client reduced to these, its steps are the effects (`scene_effect`), and
`Scene.Lands` says when a rectangle sets a pixel (`sets_effect`).
-/

namespace Vncdotool

open Wire Streaming

/-! ## Pastes -/

/-- A picture of the size `over`, pasted at a place of one of the size `base`, sets a pixel. -/
def Hits (base source : ℕ × ℕ) (place : ℤ × ℤ) (mask : Option (ℕ → ℕ → Bool)) : Prop :=
  ∃ i j : ℕ, (i < source.1 ∧ j < source.2) ∧ (0 ≤ place.1 + i ∧ place.1 + i < base.1) ∧
    (0 ≤ place.2 + j ∧ place.2 + j < base.2) ∧ ∀ m ∈ mask, m i j = true

/-- What a mask lets through. -/
def Pillow.covers (P : Pillow) (mask : P.Image) (i j : ℕ) : Bool :=
  decide (i < (P.size mask).1 ∧ j < (P.size mask).2) && P.bit mask i j

/-- A paste sets a pixel of the picture. -/
def Paste.Sets {P : Pillow} (paste : Paste P) : Prop :=
  Hits (P.size paste.base) (P.size paste.source) paste.at_ (paste.mask.map P.covers)

namespace VNCDoToolClient

variable {P : Pillow} {env : Env}

/-- The attributes after `drawCursor`. -/
def drawn (app : VNCDoToolClient P) : VNCDoToolClient P :=
  match app.cursor, app.screen with
  | some cursor, some screen =>
      let paste : Paste P := ⟨screen, cursor, (app.x - app.cfocus.1, app.y - app.cfocus.2), app.cmask⟩
      { app with screen := some paste.result, pastes := app.pastes ++ [paste] }
  | _, _ => app

/-- The paste of a rectangle's pixels. -/
def pasteOf (size : ℕ × ℕ) (rect : WireRect) (update : P.Image) (app : VNCDoToolClient P) :
    Paste P :=
  painting size app.screen update rect.x.val rect.y.val rect.width.val rect.height.val

/-- The attributes once the pixels are on the screen. -/
def pasted (size : ℕ × ℕ) (rect : WireRect) (update : P.Image) (app : VNCDoToolClient P) :
    VNCDoToolClient P :=
  { app with
    rawModeFormat := some app.formatId
    rawMode := some app.imageMode
    screen := some (pasteOf size rect update app).result
    pastes := app.pastes ++ [pasteOf size rect update app] }

/-- The attributes after `updateCursor` of a cursor that could be read. -/
def pointed (rect : WireRect) (cursor cmask : P.Image) (app : VNCDoToolClient P) :
    VNCDoToolClient P :=
  drawn
    { app with
      cursor := some cursor
      cmask := some cmask
      cfocus := (rect.x.val, rect.y.val) }

/-- What the callbacks of a rectangle do to a client that can read its pixels, `size` being what
ServerInit announced. -/
def effect (size : ℕ × ℕ) {fb : Framebuffer} (rect : ServerRect fb) (app : VNCDoToolClient P) :
    VNCDoToolClient P :=
  match rect with
  | .raw rect pixels _ _ =>
      if pixels.isEmpty then app
      else
        match P.frombytes app.imageMode (rect.width.val, rect.height.val) pixels with
        | .ok update => drawn (pasted size rect update app)
        | .error _ => app
  | .cursor rect image mask _ _ =>
      if app.factory.nocursor then app
      else
        match P.frombytes app.imageMode (rect.width.val, rect.height.val) image,
          P.frombits (rect.width.val, rect.height.val) mask with
        | .ok cursor, .ok cmask => pointed rect cursor cmask app
        | _, _ => app
  | .desktopSize rect =>
      let blank := P.new (rect.width, rect.height)
      { app with
        screen := some
          (match app.screen with
          | some screen => P.paste blank screen (0, 0) none
          | none => blank) }
  -- `copyRectangle` is not overridden: nothing is copied on the screen.
  | .copyRect _ _ _ => app
  | .qemuExtendedKeyEvent _ => app

/-! ## The callbacks have these effects -/

section Plays

variable {size : ℕ × ℕ} {fb : Framebuffer}

theorem reads_drawn {pf : PixelFormat} {app : VNCDoToolClient P} (h : Reads pf app) :
    Reads pf (drawn app) := by
  unfold drawn
  split
  · exact h.of_eq rfl rfl rfl rfl
  · exact h

/-- Reading the pixels leaves their mode cached. -/
theorem reads_pasted {pf : PixelFormat} {app : VNCDoToolClient P} (h : Reads pf app)
    (rect : WireRect) (update : P.Image) : Reads pf (drawn (pasted size rect update app)) := by
  refine reads_drawn ⟨h.imageMode, fun id hid => ?_⟩
  exact ⟨(Option.some.inj hid).symm.le, fun _ => ⟨app.imageMode, h.imageMode, rfl⟩⟩

/-- The pixels of a rectangle have the length that its image mode reads. -/
theorem exists_frombytes {app : VNCDoToolClient P} (h : Reads fb.format app) {width height : ℕ}
    {data : Bytes} (hlen : data.length = width * height * fb.format.bypp) :
    ∃ image, P.frombytes app.imageMode (width, height) data = .ok image := by
  refine P.frombytes_ok app.imageMode width height data ?_
  rw [hlen, PixelFormat.width_rawMode h.imageMode]

theorem kept_drawn (app : VNCDoToolClient P) : Kept app (drawn app) := by
  unfold drawn
  split
  · exact ⟨rfl, rfl, rfl, rfl, rfl, rfl, rfl, rfl, rfl, rfl, rfl⟩
  · exact Kept.refl app

/-- The Deferreds are left alone. -/
theorem kept_effect (rect : ServerRect fb) (app : VNCDoToolClient P) :
    Kept app (effect size rect app) := by
  cases rect with
  | raw rect pixels fits length =>
      unfold effect
      dsimp only
      split_ifs
      · exact Kept.refl app
      · split
        · have hpasted (update : P.Image) : Kept app (pasted size rect update app) :=
            ⟨rfl, rfl, rfl, rfl, rfl, rfl, rfl, rfl, rfl, rfl, rfl⟩
          exact (hpasted _).trans (kept_drawn _)
        · exact Kept.refl app
  | cursor rect image mask image_length mask_length =>
      unfold effect
      dsimp only
      split_ifs
      · exact Kept.refl app
      · split
        · have hpointed (cursor cmask : P.Image) : Kept app (pointed rect cursor cmask app) := by
            refine Kept.trans ?_ (kept_drawn _)
            exact ⟨rfl, rfl, rfl, rfl, rfl, rfl, rfl, rfl, rfl, rfl, rfl⟩
          exact hpointed _ _
        · exact Kept.refl app
  | desktopSize rect => exact ⟨rfl, rfl, rfl, rfl, rfl, rfl, rfl, rfl, rfl, rfl, rfl⟩
  | copyRect rect srcx srcy => exact Kept.refl app
  | qemuExtendedKeyEvent rect => exact Kept.refl app

theorem kept_played (rects : List (ServerRect fb)) (app : VNCDoToolClient P) :
    Kept app (Connection.played (effect size) rects app) := by
  induction rects generalizing app with
  | nil => exact Kept.refl app
  | cons rect rects ih => exact (kept_effect rect app).trans (ih _)

theorem keeps_effect (rect : ServerRect fb) {app : VNCDoToolClient P} (h : Reads fb.format app) :
    Reads fb.format (effect size rect app) := by
  cases rect with
  | raw rect pixels fits length =>
      rcases exists_frombytes h length with ⟨update, hupdate⟩
      unfold effect
      dsimp only
      rw [hupdate]
      split_ifs
      · exact h
      · exact reads_pasted h rect update
  | cursor rect image mask image_length mask_length =>
      rcases exists_frombytes h image_length with ⟨cursor, hcursor⟩
      rcases P.frombits_ok _ _ _ mask_length with ⟨cmask, hcmask, _⟩
      unfold effect
      dsimp only
      rw [hcursor, hcmask]
      split_ifs
      · exact h
      · exact reads_drawn (h.of_eq rfl rfl rfl rfl)
  | desktopSize rect => exact h.of_eq rfl rfl rfl rfl
  | copyRect rect srcx srcy => exact h
  | qemuExtendedKeyEvent rect => exact h

/-- `updateRectangle` of pixels in a format that can be read. -/
theorem ensures_updateRectangle {rect : WireRect} {pixels : Bytes} {c : RFBClient (VNCDoToolClient P)}
    (hable : Able c) (hsize : (c.width, c.height) = size)
    {update : P.Image} (hne : ¬ pixels.isEmpty)
    (hupdate : P.frombytes c.app.imageMode (rect.width.val, rect.height.val) pixels = .ok update) :
    Ensures (updateRectangle rect.x.val rect.y.val rect.width.val rect.height.val pixels
      c.pixelFormat) c (fun _ c' => c' = { c with app := drawn (pasted size rect update c.app) })
      fun _ _ => False := by
  subst hsize
  refine ensures_ite.2 ⟨fun hempty => absurd hempty hne, fun _ => ?_⟩
  refine ensures_bind.2 (ensures_bind.2 (Ensures.mono (ensures_rawModeFor hable) ?_
    fun _ _ => False.elim))
  rintro _ c₁ ⟨rfl, rfl⟩
  refine ensures_bind.2 ?_
  rw [hupdate]
  exact rfl

/-- `updateCursor` of a cursor that can be read. -/
theorem ensures_updateCursor {rect : WireRect} {image mask : Bytes}
    {c : RFBClient (VNCDoToolClient P)} {cursor cmask : P.Image}
    (hnocursor : ¬ c.app.factory.nocursor)
    (hcursor : P.frombytes c.app.imageMode (rect.width.val, rect.height.val) image = .ok cursor)
    (hcmask : P.frombits (rect.width.val, rect.height.val) mask = .ok cmask) :
    Ensures (updateCursor rect.x.val rect.y.val rect.width.val rect.height.val image mask) c
      (fun _ c' => c' = { c with app := pointed rect cursor cmask c.app }) fun _ _ => False := by
  refine ensures_bind.2 (ensures_ite.2 ⟨fun hyes => absurd hyes hnocursor, fun _ => ?_⟩)
  have hdraw {c₁ : RFBClient (VNCDoToolClient P)}
      (hpointed : pointed rect cursor cmask c₁.app = pointed rect cursor cmask c.app)
      (hparser : { c₁ with app := c.app } = c) :
      Ensures (do
        let cursor ← liftExcept (P.frombytes c.app.imageMode (rect.width.val, rect.height.val) image)
        modifyApp fun app => { app with cursor := some cursor }
        let cmask ← liftExcept (P.frombits (rect.width.val, rect.height.val) mask)
        modifyApp fun app => { app with cmask := some cmask, cfocus := (rect.x.val, rect.y.val) }
        drawCursor : Py (VNCDoToolClient P) Unit) c₁
        (fun _ c' => c' = { c with app := pointed rect cursor cmask c.app }) fun _ _ => False := by
    rw [hcursor, hcmask, ← hpointed, ← hparser]
    exact rfl
  refine ensures_ite.2 ⟨fun _ => ?_, fun _ => hdraw rfl rfl⟩
  -- An empty cursor is dropped first, and then replaced all the same.
  exact hdraw rfl rfl

/-- A size that comes off the wire is never refused. -/
theorem run_updateDesktopSize {rect : WireRect} {c : RFBClient (VNCDoToolClient P)} :
    updateDesktopSize rect.width.val rect.height.val c =
      .ok () { c with app := @effect P size fb (.desktopSize rect) c.app } := by
  have hrange (n : U16) : (0 : ℤ) ≤ n.val ∧ (n.val : ℤ) < maxDesktopSize :=
    ⟨Int.natCast_nonneg _, Int.ofNat_lt.2 n.isLt⟩
  have hboth : ((0 : ℤ) ≤ rect.width.val ∧ (rect.width.val : ℤ) < maxDesktopSize) ∧
      (0 : ℤ) ≤ rect.height.val ∧ (rect.height.val : ℤ) < maxDesktopSize :=
    ⟨hrange rect.width, hrange rect.height⟩
  unfold updateDesktopSize
  rw [if_neg (not_not.2 hboth)]
  rfl

/-- The callbacks of `VNCDoToolClient` have these effects. -/
theorem plays : Connection.Plays (runtime P env) size fb (Reads fb.format) (effect size) where
  begins _ := rfl
  plays rect c hdecoding hreads cb hcb := by
    have hable : Able c := by
      unfold Able
      rw [hdecoding.format]
      exact hreads
    have hsize : (c.width, c.height) = size := by
      rw [hdecoding.width, hdecoding.height]
    have hrun {x : Py (VNCDoToolClient P) Unit} {app : VNCDoToolClient P}
        (hx : Ensures x c (fun _ c' => c' = { c with app := app }) fun _ _ => False) :
        x c = .ok () { c with app := app } := by
      rcases hx.exists_run_ok with ⟨_, _, hrun, rfl⟩
      exact hrun
    -- Only pixels that are painted, and a cursor that is drawn, go through Pillow.
    cases rect with
    | raw rect pixels fits length =>
        rcases exists_frombytes hreads length with ⟨update, hupdate⟩
        rw [List.mem_singleton.1 hcb]
        refine hrun ?_
        rw [← hdecoding.format]
        unfold effect
        dsimp only
        split_ifs with hempty
        · exact ensures_ite.2 ⟨fun _ => rfl, fun hne => absurd hempty hne⟩
        · rw [hupdate]
          exact ensures_updateRectangle hable hsize hempty hupdate
    | cursor rect image mask image_length mask_length =>
        rcases exists_frombytes hreads image_length with ⟨cursor, hcursor⟩
        rcases P.frombits_ok _ _ _ mask_length with ⟨cmask, hcmask, _⟩
        rw [List.mem_singleton.1 hcb]
        refine hrun ?_
        unfold effect
        dsimp only
        split_ifs with hnocursor
        · exact ensures_bind.2 (ensures_ite.2 ⟨fun _ => rfl, fun hno => absurd hnocursor hno⟩)
        · rw [hcursor, hcmask]
          exact ensures_updateCursor hnocursor hcursor hcmask
    | desktopSize rect =>
        rw [List.mem_singleton.1 hcb]
        simp only [runtime, override]
        exact run_updateDesktopSize
    | copyRect rect srcx srcy =>
        rw [List.mem_singleton.1 hcb]
        rfl
    | qemuExtendedKeyEvent rect => exact absurd hcb List.not_mem_nil
  silent rect app hsilent := by
    cases rect with
    | qemuExtendedKeyEvent rect => rfl
    | _ => exact nomatch hsilent
  keeps rect app hreads := keeps_effect rect hreads

end Plays

/-! ## Scenes -/

end VNCDoToolClient

/-- A client reduced to sizes, places and the cursor's mask. -/
structure Scene where
  /-- What ServerInit announced. -/
  size : ℕ × ℕ
  nocursor : Bool
  pointer : ℤ × ℤ
  screen : Option (ℕ × ℕ)
  cursor : Option (ℕ × ℕ)
  mask : Option (ℕ → ℕ → Bool)
  focus : ℤ × ℤ

/-- The bit of a pixel in the packed rows of a mask. -/
def maskBit (width height : ℕ) (mask : Bytes) (i j : ℕ) : Bool :=
  decide (i < width ∧ j < height) &&
    ((mask[j * ((width + 7) / 8) + i / 8]?).getD 0).toNat.testBit (7 - i % 8)

namespace Scene

variable {fb : Framebuffer}

/-- Drawing the cursor sets a pixel. -/
def Shows (s : Scene) : Prop :=
  ∃ screen ∈ s.screen, ∃ cursor ∈ s.cursor,
    Hits screen cursor (s.pointer.1 - s.focus.1, s.pointer.2 - s.focus.2) s.mask

/-- The screen that a rectangle of pixels leaves. -/
def grown (s : Scene) (rect : WireRect) : ℕ × ℕ :=
  match s.screen with
  | none => s.size
  | some screen => (max (rect.x + rect.width) screen.1, max (rect.y + rect.height) screen.2)

/-- The scene after a rectangle. -/
def step (s : Scene) : ServerRect fb → Scene
  | .raw rect _ _ _ =>
      if (rect.width : ℕ) = 0 ∨ (rect.height : ℕ) = 0 then s
      else { s with screen := some (s.grown rect) }
  | .cursor rect _ mask _ _ =>
      if s.nocursor then s
      else
        { s with
          cursor := some (rect.width, rect.height)
          mask := some (maskBit rect.width rect.height mask)
          focus := (rect.x.val, rect.y.val) }
  | .desktopSize rect => { s with screen := some (rect.width, rect.height) }
  | .copyRect _ _ _ => s
  | .qemuExtendedKeyEvent _ => s

/-- The rectangle sets a pixel of the screen: its pixels do, or the cursor that is drawn over. -/
def Lands (s : Scene) (rect : ServerRect fb) : Prop :=
  match rect with
  | .raw rect pixels fits length =>
      ¬ ((rect.width : ℕ) = 0 ∨ (rect.height : ℕ) = 0) ∧
        ((s.screen = none → (rect.x : ℕ) < s.size.1 ∧ (rect.y : ℕ) < s.size.2) ∨
          (s.step (.raw rect pixels fits length)).Shows)
  | .cursor rect image mask image_length mask_length =>
      s.nocursor = false ∧ (s.step (.cursor rect image mask image_length mask_length)).Shows
  | .desktopSize _ => False
  | .copyRect _ _ _ => False
  | .qemuExtendedKeyEvent _ => False

/-- Some rectangle of an update sets a pixel of the screen that the ones before it have left. -/
def LandsSome : Scene → List (ServerRect fb) → Prop
  | _, [] => False
  | s, rect :: rects => s.Lands rect ∨ (s.step rect).LandsSome rects

end Scene

namespace VNCDoToolClient

variable {P : Pillow}

/-- The scene of a client. -/
def scene (size : ℕ × ℕ) (app : VNCDoToolClient P) : Scene where
  size := size
  nocursor := app.factory.nocursor
  pointer := (app.x, app.y)
  screen := app.screen.map P.size
  cursor := app.cursor.map P.size
  mask := app.cmask.map P.covers
  focus := app.cfocus

section Scenes

variable {size : ℕ × ℕ} {fb : Framebuffer}

/-- The pastes that are made from `app` to `app'`. -/
def Pastes (app app' : VNCDoToolClient P) (pastes : List (Paste P)) : Prop :=
  app'.pastes = app.pastes ++ pastes

theorem scene_drawn (app : VNCDoToolClient P) : scene size (drawn app) = scene size app := by
  unfold drawn
  split
  · rename_i cursor screen hcursor hscreen
    unfold scene
    simp [hcursor, hscreen, Paste.result, P.size_paste]
  · rfl

/-- The cursor is pasted, if there are a cursor and a screen. -/
theorem pastes_drawn (app : VNCDoToolClient P) :
    ∃ pastes, Pastes app (drawn app) pastes ∧
      ((∃ paste ∈ pastes, Paste.Sets paste) ↔ (scene size app).Shows) := by
  unfold drawn Scene.Shows scene
  cases hcursor : app.cursor with
  | none => exact ⟨[], (List.append_nil _).symm, by simp⟩
  | some cursor =>
      cases hscreen : app.screen with
      | none => exact ⟨[], (List.append_nil _).symm, by simp⟩
      | some screen => exact ⟨_, rfl, by simp [Paste.Sets]⟩

/-- The picture an update is pasted on. -/
theorem size_pasteOf {app : VNCDoToolClient P} {rect : WireRect} {update : P.Image} :
    P.size (pasteOf size rect update app).base = (scene size app).grown rect := by
  unfold pasteOf painting Scene.grown scene
  cases app.screen with
  | none => exact P.size_new size
  | some screen =>
      dsimp only [Option.map_some]
      split_ifs with hgrow
      · have hmax (a b n : ℕ) : (max ((a : ℤ) + b) n).toNat = max (a + b) n := by omega
        dsimp only
        rw [P.size_paste, P.size_new, hmax, hmax]
      · have hmax (a b n : ℕ) (h : ¬ (n : ℤ) < a + b) : n = max (a + b) n := by omega
        rcases not_or.1 hgrow with ⟨hwidth, hheight⟩
        exact Prod.ext (hmax _ _ _ hwidth) (hmax _ _ _ hheight)

theorem pasteOf_eq {app : VNCDoToolClient P} {rect : WireRect} {update : P.Image} :
    pasteOf size rect update app =
      { base := (pasteOf size rect update app).base
        source := update
        at_ := ((rect.x : ℕ), (rect.y : ℕ)) } := by
  unfold pasteOf painting
  cases app.screen with
  | none => rfl
  | some screen =>
      dsimp only
      split_ifs
      · rfl
      · rfl

/-- Pixels are pasted where they belong, unless they lie outside a screen that they are the first to
be painted on. -/
theorem sets_pasteOf {app : VNCDoToolClient P} {rect : WireRect} {update : P.Image}
    (hsize : P.size update = ((rect.width : ℕ), (rect.height : ℕ)))
    (hne : ¬ ((rect.width : ℕ) = 0 ∨ (rect.height : ℕ) = 0)) :
    (pasteOf size rect update app).Sets ↔
      ((scene size app).screen = none → (rect.x : ℕ) < size.1 ∧ (rect.y : ℕ) < size.2) := by
  rcases not_or.1 hne with ⟨hwidth, hheight⟩
  unfold Paste.Sets
  rw [size_pasteOf, pasteOf_eq]
  dsimp only
  rw [hsize]
  unfold Scene.grown scene
  cases app.screen with
  | none =>
      constructor
      · rintro ⟨i, j, _, ⟨_, hx⟩, ⟨_, hy⟩, _⟩ _
        dsimp only [Option.map_none] at hx hy
        omega
      · intro hinside
        rcases hinside rfl with ⟨hx, hy⟩
        refine ⟨0, 0, ⟨Nat.pos_of_ne_zero hwidth, Nat.pos_of_ne_zero hheight⟩, ?_, ?_, nofun⟩
        · dsimp only [Option.map_none]
          omega
        · dsimp only [Option.map_none]
          omega
  | some screen =>
      refine ⟨fun _ => nofun, fun _ => ?_⟩
      refine ⟨0, 0, ⟨Nat.pos_of_ne_zero hwidth, Nat.pos_of_ne_zero hheight⟩, ?_, ?_, nofun⟩
      · dsimp only [Option.map_some]
        omega
      · dsimp only [Option.map_some]
        omega

theorem scene_pasted {app : VNCDoToolClient P} {rect : WireRect} {update : P.Image} :
    scene size (pasted size rect update app) =
      { scene size app with screen := some ((scene size app).grown rect) } := by
  have hsize : P.size (pasteOf size rect update app).result = (scene size app).grown rect := by
    rw [Paste.result, P.size_paste]
    exact size_pasteOf
  rw [← hsize]
  rfl

theorem pastes_pasted {app : VNCDoToolClient P} {rect : WireRect} {update : P.Image} :
    ∃ pastes, Pastes app (drawn (pasted size rect update app)) pastes ∧
      ((∃ paste ∈ pastes, Paste.Sets paste) ↔
        (pasteOf size rect update app).Sets ∨ (scene size (pasted size rect update app)).Shows) := by
  rcases @pastes_drawn P size (pasted size rect update app) with ⟨pastes, hpastes, hsets⟩
  refine ⟨pasteOf size rect update app :: pastes, ?_, ?_⟩
  · unfold Pastes at *
    rw [hpastes]
    exact List.append_assoc _ _ _
  · rw [← hsets]
    simp

/-- The mask that is read is the one whose bits are in the message. -/
theorem covers_frombits {width height : ℕ} {mask : Bytes} {cmask : P.Image}
    (hlen : mask.length = (width + 7) / 8 * height)
    (hcmask : P.frombits (width, height) mask = .ok cmask) :
    P.covers cmask = maskBit width height mask := by
  rcases P.frombits_ok width height mask hlen with ⟨image, himage, hsize, hbit⟩
  cases hcmask.symm.trans himage
  funext i j
  unfold Pillow.covers maskBit
  rw [hsize]
  by_cases hin : i < width ∧ j < height
  · rw [hbit i j hin.1 hin.2]
  · simp [hin]

theorem size_frombytes {app : VNCDoToolClient P} {width height : ℕ} {data : Bytes} {image : P.Image}
    (himage : P.frombytes app.imageMode (width, height) data = .ok image) :
    P.size image = (width, height) := by
  have hsize := P.size_frombytes _ _ _ _ _ himage
  rw [Prod.mk.injEq] at hsize
  exact Prod.ext (Int.ofNat_inj.1 hsize.1) (Int.ofNat_inj.1 hsize.2)

/-- The pixels of a rectangle are empty if it is. -/
theorem isEmpty_pixels {format : PixelFormat} {mode : RawMode} (hmode : format.rawMode = .ok mode)
    {width height : ℕ} {pixels : Bytes} (hlen : pixels.length = width * height * format.bypp) :
    pixels.isEmpty = true ↔ width = 0 ∨ height = 0 := by
  have hbypp : format.bypp ≠ 0 := Nat.ne_of_gt (PixelFormat.bypp_pos_of_rawMode hmode)
  rw [List.isEmpty_iff, ← List.length_eq_zero_iff, hlen, Nat.mul_eq_zero, Nat.mul_eq_zero,
    or_iff_left hbypp]

/-- A rectangle takes a client's scene one step further, and pastes something that sets a pixel if
and only if it lands. -/
theorem effect_step (rect : ServerRect fb) {app : VNCDoToolClient P} (h : Reads fb.format app) :
    scene size (effect size rect app) = (scene size app).step rect ∧
      ∃ pastes, Pastes app (effect size rect app) pastes ∧
        ((∃ paste ∈ pastes, Paste.Sets paste) ↔ (scene size app).Lands rect) := by
  have hnone : ∃ pastes, Pastes app app pastes ∧
      ((∃ paste ∈ pastes, Paste.Sets paste) ↔ False) := ⟨[], (List.append_nil _).symm, by simp⟩
  cases rect with
  | raw rect pixels fits length =>
      rcases exists_frombytes h length with ⟨update, hupdate⟩
      have hempty := isEmpty_pixels h.imageMode length
      by_cases hzero : (rect.width : ℕ) = 0 ∨ (rect.height : ℕ) = 0
      -- Nothing is read of an empty rectangle.
      · have heffect : effect size (.raw rect pixels fits length) app = app :=
          if_pos (hempty.2 hzero)
        have hstep : (scene size app).step (.raw rect pixels fits length) = scene size app :=
          if_pos hzero
        rw [heffect, hstep]
        rcases hnone with ⟨pastes, hpastes, hsets⟩
        refine ⟨rfl, pastes, hpastes, hsets.trans ⟨False.elim, fun hlands => hlands.1 hzero⟩⟩
      · have heffect : effect size (.raw rect pixels fits length) app =
            drawn (pasted size rect update app) := by
          refine (if_neg fun hyes => hzero (hempty.1 hyes)).trans ?_
          rw [hupdate]
        have hstep : (scene size app).step (.raw rect pixels fits length) =
            { scene size app with screen := some ((scene size app).grown rect) } := if_neg hzero
        rcases @pastes_pasted P size app rect update with ⟨pastes, hpastes, hsets⟩
        rw [sets_pasteOf (size_frombytes hupdate) hzero, scene_pasted] at hsets
        rw [heffect, scene_drawn, scene_pasted]
        refine ⟨hstep.symm, pastes, hpastes, hsets.trans ?_⟩
        unfold Scene.Lands
        dsimp only
        rw [hstep]
        exact (and_iff_right hzero).symm
  | cursor rect image mask image_length mask_length =>
      rcases exists_frombytes h image_length with ⟨cursor, hcursor⟩
      rcases P.frombits_ok _ _ _ mask_length with ⟨cmask, hcmask, _⟩
      cases hnocursor : app.factory.nocursor with
      | true =>
          -- The cursor is not wanted.
          have heffect : effect size (.cursor rect image mask image_length mask_length) app = app :=
            if_pos hnocursor
          have hstep : (scene size app).step (.cursor rect image mask image_length mask_length) =
              scene size app := if_pos hnocursor
          rw [heffect, hstep]
          rcases hnone with ⟨pastes, hpastes, hsets⟩
          refine ⟨rfl, pastes, hpastes, hsets.trans ⟨False.elim, fun hlands => ?_⟩⟩
          exact absurd (hlands.1.symm.trans hnocursor) (by decide)
      | false =>
          let app₁ : VNCDoToolClient P :=
            { app with
              cursor := some cursor
              cmask := some cmask
              cfocus := (rect.x.val, rect.y.val) }
          have hno : ¬ app.factory.nocursor = true := by
            rw [hnocursor]
            decide
          have heffect : effect size (.cursor rect image mask image_length mask_length) app =
              drawn app₁ := by
            refine (if_neg hno).trans ?_
            rw [hcursor, hcmask]
            rfl
          have hscene : scene size app₁ =
              (scene size app).step (.cursor rect image mask image_length mask_length) := by
            refine Eq.trans ?_ (if_neg hno).symm
            rw [← size_frombytes hcursor, ← covers_frombits mask_length hcmask]
            rfl
          rcases @pastes_drawn P size app₁ with ⟨pastes, hpastes, hsets⟩
          rw [hscene] at hsets
          rw [heffect, scene_drawn]
          exact ⟨hscene, pastes, hpastes, hsets.trans (and_iff_right hnocursor).symm⟩
  | desktopSize rect =>
      refine ⟨?_, hnone⟩
      unfold effect scene Scene.step
      cases app.screen with
      | none => simp [P.size_new]
      | some screen => simp [P.size_new, P.size_paste]
  | copyRect rect srcx srcy => exact ⟨rfl, hnone⟩
  | qemuExtendedKeyEvent rect => exact ⟨rfl, hnone⟩

/-- The rectangles of an update paste something that sets a pixel if and only if one of them
lands. -/
theorem played_steps (rects : List (ServerRect fb)) :
    ∀ {app : VNCDoToolClient P}, Reads fb.format app →
      ∃ pastes, Pastes app (Connection.played (effect size) rects app) pastes ∧
        ((∃ paste ∈ pastes, Paste.Sets paste) ↔ (scene size app).LandsSome rects) := by
  induction rects with
  | nil => exact fun _ => ⟨[], (List.append_nil _).symm, by simp [Scene.LandsSome]⟩
  | cons rect rects ih =>
      intro app hreads
      rcases @effect_step P size fb rect app hreads with ⟨hscene, pastes, hpastes, hsets⟩
      rcases ih (@keeps_effect P size fb rect app hreads) with ⟨pastes', hpastes', hsets'⟩
      refine ⟨pastes ++ pastes', ?_, ?_⟩
      · unfold Pastes at *
        rw [← List.append_assoc, ← hpastes]
        exact hpastes'
      · rw [hscene] at hsets'
        unfold Scene.LandsSome
        rw [← hsets, ← hsets']
        simp only [List.mem_append, or_and_right, exists_or]

end Scenes

end VNCDoToolClient

end Vncdotool
