import Vncdotool.Client.Display
import Vncdotool.Client.Screen
import Vncdotool.RFB.Chronicle
import Vncdotool.Raster.Mirror

/-!
# Mirror — the screen shows the framebuffer of the server

A server that sends its pixels in raw rectangles, and announces a new size before it sends pixels of
it, keeps the client's screen like its own: at every commit the screen has the size of the
framebuffer and its pixels, but for those that have changed since they were last sent
(`Reflects.messages`).
-/

namespace Vncdotool

open Wire Streaming Raster Connection

namespace VNCDoToolClient

variable {P : Pillow} {env : Env} {px : P.Pixels} {fb : Framebuffer} {mode : RawMode}

/-! ## What the server does -/

/-- The rectangles of an update tell of a desktop that meanwhile may change.  The pixels are those of
the desktop, a size is announced when it changes, and the cursor is not wanted. -/
inductive Sends (px : P.Pixels) (mode : RawMode) (nocursor : Bool) :
    Desktop px.Colour → List (ServerRect fb) → Desktop px.Colour → Prop
  | done (d : Desktop px.Colour) : Sends px mode nocursor d [] d
  | draw {d d' : Desktop px.Colour} {rects : List (ServerRect fb)} (picture : Picture px.Colour)
      (hrest : Sends px mode nocursor (d.draw picture) rects d') : Sends px mode nocursor d rects d'
  | raw {d d' : Desktop px.Colour} {rects : List (ServerRect fb)} {rect : WireRect} {pixels : Bytes}
      {fits : (rect.width : ℕ) ≤ fb.width ∧ (rect.height : ℕ) ≤ fb.height}
      {length : pixels.length = rect.width * rect.height * fb.format.bypp}
      (hinside : (rect.x + rect.width : ℕ) ≤ d.width ∧ (rect.y + rect.height : ℕ) ≤ d.height)
      (hpixels : ∀ col < (rect.width : ℕ), ∀ row < (rect.height : ℕ),
        px.decode mode (slice pixels ((row * rect.width + col) * mode.width) mode.width) =
          d.picture (rect.x + col) (rect.y + row))
      (hrest : Sends px mode nocursor (d.send ⟨rect.x, rect.y, rect.width, rect.height⟩) rects d') :
      Sends px mode nocursor d (.raw rect pixels fits length :: rects) d'
  | desktopSize {d d' : Desktop px.Colour} {rects : List (ServerRect fb)} {rect : WireRect}
      (hrest : Sends px mode nocursor (d.resize rect.width rect.height) rects d') :
      Sends px mode nocursor d (.desktopSize rect :: rects) d'
  | qemuExtendedKeyEvent {d d' : Desktop px.Colour} {rects : List (ServerRect fb)} {rect : WireRect}
      (hrest : Sends px mode nocursor d rects d') :
      Sends px mode nocursor d (.qemuExtendedKeyEvent rect :: rects) d'
  | cursor {d d' : Desktop px.Colour} {rects : List (ServerRect fb)} {rect : WireRect}
      {image mask : Bytes} {image_length : image.length = rect.width * rect.height * fb.format.bypp}
      {mask_length : mask.length = (rect.width + 7) / 8 * rect.height}
      (hunwanted : nocursor = true) (hrest : Sends px mode nocursor d rects d') :
      Sends px mode nocursor d (.cursor rect image mask image_length mask_length :: rects) d'

/-- The messages tell of a desktop that may change at any time; it is noted at the end of each
update. -/
inductive Serves (px : P.Pixels) (mode : RawMode) (nocursor : Bool) :
    Desktop px.Colour → List (ServerMessage fb) → List (Desktop px.Colour) → Prop
  | done (d : Desktop px.Colour) : Serves px mode nocursor d [] []
  | draw {d : Desktop px.Colour} {messages : List (ServerMessage fb)}
      {desktops : List (Desktop px.Colour)} (picture : Picture px.Colour)
      (hrest : Serves px mode nocursor (d.draw picture) messages desktops) :
      Serves px mode nocursor d messages desktops
  | update {d d' : Desktop px.Colour} {message : ServerMessage fb} {rects : List (ServerRect fb)}
      {messages : List (ServerMessage fb)} {desktops : List (Desktop px.Colour)}
      (hupdate : message.update? = some rects) (hsends : Sends px mode nocursor d rects d')
      (hrest : Serves px mode nocursor d' messages desktops) :
      Serves px mode nocursor d (message :: messages) (d' :: desktops)
  | other {d : Desktop px.Colour} {message : ServerMessage fb} {messages : List (ServerMessage fb)}
      {desktops : List (Desktop px.Colour)} (hother : message.update? = none)
      (hrest : Serves px mode nocursor d messages desktops) :
      Serves px mode nocursor d (message :: messages) desktops

/-- The screen has the size of the desktop, and its pixels but for those that are owed. -/
structure Mirrors (px : P.Pixels) (d : Desktop px.Colour) (screen : Option P.Image) : Prop where
  size : ∀ image, screen = some image → P.size image = (d.width, d.height)
  pixel : ∀ col < d.width, ∀ row < d.height, ¬ d.owed col row →
    ∃ image, screen = some image ∧ px.getpixel image col row = d.picture col row

/-! ## The rectangles keep the screen like the desktop -/

/-- The screen shows edits through which the desktop is seen.  Before there is a screen everything
is owed, and the desktop is as large as ServerInit said. -/
structure Reflects (px : P.Pixels) (fb : Framebuffer) (d : Desktop px.Colour)
    (app : VNCDoToolClient P) : Prop where
  depicts : ∃ edits, Depicts px app.screen edits ∧ d.Seen (latest px.black edits)
  size : ∀ image, app.screen = some image → P.size image = (d.width, d.height)
  unpainted : app.screen = none → (d.width, d.height) = (fb.width, fb.height) ∧
    ∀ col < d.width, ∀ row < d.height, d.owed col row
  cursor : app.cursor = none

section Reflects

variable {d d' : Desktop px.Colour} {app : VNCDoToolClient P}

theorem Reflects.mirrors (h : Reflects px fb d app) : Mirrors px d app.screen := by
  refine ⟨h.size, fun col hcol row hrow howed => ?_⟩
  rcases h.depicts with ⟨edits, hdepicts, hseen⟩
  cases hscreen : app.screen with
  -- Where there is no screen yet, every pixel is owed.
  | none => exact absurd ((h.unpainted hscreen).2 col hcol row hrow) howed
  | some image =>
      rw [hscreen] at hdepicts
      have hsize := h.size image hscreen
      refine ⟨image, rfl, (hdepicts.pixel col ?_ row ?_).trans (hseen col hcol row hrow howed)⟩
      · rw [hsize]
        exact hcol
      · rw [hsize]
        exact hrow

theorem Reflects.draw (h : Reflects px fb d app) (picture : Picture px.Colour) :
    Reflects px fb (d.draw picture) app := by
  rcases h.depicts with ⟨edits, hdepicts, hseen⟩
  refine ⟨⟨edits, hdepicts, hseen.draw picture⟩, h.size, fun hnone => ?_, h.cursor⟩
  rcases h.unpainted hnone with ⟨hsize, howed⟩
  exact ⟨hsize, fun col hcol row hrow => Or.inl (howed col hcol row hrow)⟩

/-- A rectangle that has no pixels shows nothing. -/
theorem Reflects.send_empty (h : Reflects px fb d app) {r : Region}
    (hempty : r.width = 0 ∨ r.height = 0) : Reflects px fb (d.send r) app := by
  have hnone (col row : ℕ) : ¬ r.Covers col row := by
    rintro ⟨⟨hx, hx'⟩, hy, hy'⟩
    rcases hempty with hzero | hzero
    · rw [hzero, Nat.add_zero] at hx'
      exact absurd hx (Nat.not_le.2 hx')
    · rw [hzero, Nat.add_zero] at hy'
      exact absurd hy (Nat.not_le.2 hy')
  rcases h.depicts with ⟨edits, hdepicts, hseen⟩
  refine ⟨⟨edits, hdepicts, hseen.send_empty hnone⟩, h.size, fun hscreen => ?_, h.cursor⟩
  rcases h.unpainted hscreen with ⟨hsize, howed⟩
  exact ⟨hsize, fun col hcol row hrow => ⟨howed col hcol row hrow, hnone col row⟩⟩

/-- A rectangle of the desktop's pixels is painted where it belongs. -/
theorem Reflects.raw (h : Reflects px fb d app) (hmode : fb.format.rawMode = .ok mode)
    (hreads : Reads fb.format app) {rect : WireRect} {pixels : Bytes}
    (fits : (rect.width : ℕ) ≤ fb.width ∧ (rect.height : ℕ) ≤ fb.height)
    (length : pixels.length = rect.width * rect.height * fb.format.bypp)
    (hinside : (rect.x + rect.width : ℕ) ≤ d.width ∧ (rect.y + rect.height : ℕ) ≤ d.height)
    (hpixels : ∀ col < (rect.width : ℕ), ∀ row < (rect.height : ℕ),
      px.decode mode (slice pixels ((row * rect.width + col) * mode.width) mode.width) =
        d.picture (rect.x + col) (rect.y + row)) :
    Reflects px fb (d.send ⟨rect.x, rect.y, rect.width, rect.height⟩)
      (effect (fb.width, fb.height) (.raw rect pixels fits length) app) := by
  have himage : app.imageMode = mode := Except.ok.inj (hreads.imageMode.symm.trans hmode)
  have hempty := isEmpty_pixels hreads.imageMode length
  by_cases hzero : (rect.width : ℕ) = 0 ∨ (rect.height : ℕ) = 0
  · have heffect : effect (fb.width, fb.height) (.raw rect pixels fits length) app = app :=
      if_pos (hempty.2 hzero)
    rw [heffect]
    exact h.send_empty hzero
  -- A rectangle with pixels is decoded and pasted, and there is no cursor to draw over it.
  · rcases exists_frombytes hreads length with ⟨update, hupdate⟩
    have hsize : P.size update = ((rect.width : ℕ), (rect.height : ℕ)) := size_frombytes hupdate
    have hpasted : drawn (pasted (fb.width, fb.height) rect update app) =
        pasted (fb.width, fb.height) rect update app := drawn_of_cursorless h.cursor
    have heffect : effect (fb.width, fb.height) (.raw rect pixels fits length) app =
        pasted (fb.width, fb.height) rect update app := by
      refine (if_neg fun hyes => hzero (hempty.1 hyes)).trans ?_
      rw [hupdate]
      exact hpasted
    rw [heffect]
    rcases h.depicts with ⟨edits, hdepicts, hseen⟩
    -- The first rectangle fits, since the size of ServerInit still holds.
    have hfits : app.screen = none →
        (rect.x : ℕ) + (P.size update).1 ≤ fb.width ∧
          (rect.y : ℕ) + (P.size update).2 ≤ fb.height := by
      intro hnone
      have hinit := (h.unpainted hnone).1
      rw [Prod.mk.injEq] at hinit
      rw [hsize, ← hinit.1, ← hinit.2]
      exact hinside
    have htile : ∀ col < (P.size update).1, ∀ row < (P.size update).2,
        px.getpixel update col row = d.picture (rect.x + col) (rect.y + row) := by
      rw [hsize]
      intro col hcol row hrow
      have hpixel := px.getpixel_frombytes _ _ _ _ _ hupdate col hcol row hrow
      rw [himage] at hpixel
      exact hpixel.trans (hpixels col hcol row hrow)
    have hpaint :=
      (@Depicts.painting P px update _ _ hdepicts (fb.width, fb.height) _ _ _ hfits htile).1
    rw [hsize] at hpaint
    refine ⟨⟨_, hpaint, hseen.send fun col _ row _ hcovers => ?_⟩, fun image himg => ?_,
      fun hnone => (nomatch hnone), h.cursor⟩
    · rcases hcovers with ⟨⟨hx, _⟩, hy, _⟩
      exact congrArg₂ d.picture (Nat.add_sub_cancel' hx) (Nat.add_sub_cancel' hy)
    -- The screen does not grow: the rectangle lies inside the desktop.
    · have hresult : (pasteOf (fb.width, fb.height) rect update app).result = image :=
        Option.some.inj himg
      rw [← hresult, Paste.result, P.size_paste, size_pasteOf]
      unfold Scene.grown scene
      cases hscreen : app.screen with
      | none => exact (h.unpainted hscreen).1.symm
      | some screen =>
          have hscreen_size : P.size screen = (d.width, d.height) := h.size screen hscreen
          dsimp only [Option.map_some]
          rw [hscreen_size, Nat.max_eq_right hinside.1, Nat.max_eq_right hinside.2]
          rfl

/-- A new size cuts the screen, or makes a black one. -/
theorem Reflects.desktopSize (h : Reflects px fb d app) (rect : WireRect) :
    Reflects px fb (d.resize rect.width rect.height)
      (effect (fb.width, fb.height) (.desktopSize rect : ServerRect fb) app) := by
  rcases h.depicts with ⟨edits, hdepicts, hseen⟩
  have hseen' := hseen.resize rect.width rect.height px.black
  cases hscreen : app.screen with
  | none =>
      rw [hscreen] at hdepicts
      have heffect : (effect (fb.width, fb.height) (.desktopSize rect : ServerRect fb) app).screen =
          some (P.new (rect.width, rect.height)) := by
        unfold effect
        rw [hscreen]
      refine ⟨⟨.crop rect.width rect.height :: edits, ?_, hseen'⟩, fun image himage => ?_,
        fun hnone => (nomatch heffect.symm.trans hnone), h.cursor⟩
      · rw [heffect]
        exact showsEdits_new (latest_crop_black hdepicts _ _) _
      · rw [← Option.some.inj (heffect.symm.trans himage), P.size_new]
        rfl
  | some screen =>
      rw [hscreen] at hdepicts
      have heffect : (effect (fb.width, fb.height) (.desktopSize rect : ServerRect fb) app).screen =
          some (P.paste (P.new (rect.width, rect.height)) screen (0, 0) none) := by
        unfold effect
        rw [hscreen]
      refine ⟨⟨.crop rect.width rect.height :: edits, ?_, hseen'⟩, fun image himage => ?_,
        fun hnone => (nomatch heffect.symm.trans hnone), h.cursor⟩
      · rw [heffect]
        exact ShowsEdits.resize hdepicts (rect.width, rect.height)
      · rw [← Option.some.inj (heffect.symm.trans himage), P.size_paste, P.size_new]
        rfl

/-- The rectangles of an update keep the screen like the desktop. -/
theorem Reflects.played {nocursor : Bool} {rects : List (ServerRect fb)}
    (hmode : fb.format.rawMode = .ok mode) (hsends : Sends px mode nocursor d rects d') :
    ∀ {app : VNCDoToolClient P}, Reads fb.format app → app.factory.nocursor = nocursor →
      Reflects px fb d app →
        Reflects px fb d' (Connection.played (effect (fb.width, fb.height)) rects app) := by
  -- By induction on what the server does; each rectangle keeps the client able to read the next.
  induction hsends with
  | done d => exact fun _ _ h => h
  | draw picture _ ih => exact fun hreads hnocursor h => ih hreads hnocursor (h.draw picture)
  | @raw d d' rects rect pixels fits length hinside hpixels _ ih =>
      intro app hreads hnocursor h
      refine ih (keeps_effect _ hreads) ?_ (h.raw hmode hreads fits length hinside hpixels)
      rw [(kept_effect _ app).factory]
      exact hnocursor
  | @desktopSize d d' rects rect _ ih =>
      intro app hreads hnocursor h
      exact ih (keeps_effect _ hreads) hnocursor (h.desktopSize rect)
  | qemuExtendedKeyEvent _ ih => exact fun hreads hnocursor h => ih hreads hnocursor h
  | @cursor d d' rects rect image mask image_length mask_length hunwanted _ ih =>
      intro app hreads hnocursor h
      have heffect : effect (fb.width, fb.height)
          (.cursor rect image mask image_length mask_length : ServerRect fb) app = app :=
        if_pos (hnocursor.trans hunwanted)
      have hrest := ih hreads hnocursor h
      rw [← heffect] at hrest
      exact hrest

end Reflects

/-! ## The messages keep it so -/

/-- Nothing waits for a commit, and pixels can be read. -/
def Unasked (fb : Framebuffer) (app : VNCDoToolClient P) : Prop :=
  Reads fb.format app ∧ app.deferred = none

theorem Unasked.effect {app : VNCDoToolClient P} (h : Unasked fb app) (size : ℕ × ℕ)
    (rect : ServerRect fb) : Unasked fb (effect size rect app) :=
  ⟨keeps_effect rect h.1, (kept_effect rect app).deferred.trans h.2⟩

theorem Unasked.played (size : ℕ × ℕ) (rects : List (ServerRect fb)) :
    ∀ {app : VNCDoToolClient P}, Unasked fb app →
      Unasked fb (Connection.played (VNCDoToolClient.effect size) rects app) := by
  induction rects with
  | nil => exact fun h => h
  | cons rect rects ih => exact fun h => ih (h.effect size rect)

/-- As long as no operation waits, a commit does nothing. -/
theorem absorbs : Absorbs (runtime P env) (fb.width, fb.height) fb (Unasked fb)
    (effect (fb.width, fb.height)) fun _ app => app where
  begins _ := rfl
  plays rect c hdecoding hunasked := plays.plays rect c hdecoding hunasked.1
  silent := (@plays P env (fb.width, fb.height) fb).silent
  keeps rect app hunasked := hunasked.effect _ rect
  notifies cb hcb c := by
    cases cb with
    | bell => rfl
    | copyText text => rfl
    | setColorMap first colors => rfl
    | _ => exact hcb.elim
  commits rectangles c _ hunasked := commitUpdate_idle hunasked.2
  committed _ _ hunasked := hunasked

/-- At each commit the screen is a mirror of the desktop, and the history says so. -/
theorem Serves.mirrored {nocursor : Bool} {d : Desktop px.Colour}
    {messages : List (ServerMessage fb)} {desktops : List (Desktop px.Colour)}
    (hmode : fb.format.rawMode = .ok mode) (hserves : Serves px mode nocursor d messages desktops) :
    ∀ {r : Chronicle (VNCDoToolClient P)}, Unasked fb r.app → r.app.factory.nocursor = nocursor →
      Reflects px fb d r.app → ∃ updates,
        (messages.foldl (fun r message => absorbed (Chronicle.playing (effect (fb.width, fb.height)))
          (Chronicle.committing fun _ app => app) message r) r).updates = r.updates ++ updates ∧
        List.Forall₂ (fun d u => Mirrors px d u.before.screen) desktops updates := by
  induction hserves with
  | done d => exact fun _ _ _ => ⟨[], (List.append_nil _).symm, .nil⟩
  | draw picture _ ih => exact fun hunasked hnocursor h => ih hunasked hnocursor (h.draw picture)
  | @update d d' message rects messages desktops hupdate hsends _ ih =>
      intro r hunasked hnocursor h
      -- The rectangles are played, and the commit remembers what they led to.
      let app : VNCDoToolClient P := Connection.played (effect (fb.width, fb.height)) rects r.app
      let u : Update (VNCDoToolClient P) := ⟨rects.flatMap ServerRect.position, app, app⟩
      have hplayed : Reflects px fb d' app := h.played hmode hsends hunasked.1 hnocursor
      have hkept : Kept r.app app := kept_played rects r.app
      have hmessage : absorbed (Chronicle.playing (effect (fb.width, fb.height)))
          (Chronicle.committing fun _ app => app) message r = ⟨app, r.updates ++ [u]⟩ := by
        have hfold : ∀ (rects : List (ServerRect fb)) (r : Chronicle (VNCDoToolClient P)),
            Connection.played (Chronicle.playing (effect (fb.width, fb.height))) rects r =
              ⟨Connection.played (effect (fb.width, fb.height)) rects r.app, r.updates⟩ := by
          intro rects
          induction rects with
          | nil => exact fun _ => rfl
          | cons rect rects ih => exact fun r => ih _
        unfold absorbed
        rw [hupdate]
        dsimp only
        rw [hfold]
        rfl
      rcases @ih ⟨app, r.updates ++ [u]⟩ (hunasked.played _ rects)
        (hkept.factory ▸ hnocursor) hplayed with ⟨updates, hupdates, hmirrors⟩
      refine ⟨u :: updates, ?_, .cons hplayed.mirrors hmirrors⟩
      rw [List.foldl_cons, hmessage, hupdates, List.append_assoc]
      rfl
  | @other d message messages desktops hother _ ih =>
      intro r hunasked hnocursor h
      have hmessage : absorbed (Chronicle.playing (effect (fb.width, fb.height)))
          (Chronicle.committing fun _ app => app) message r = r := by
        unfold absorbed
        rw [hother]
      rw [List.foldl_cons, hmessage]
      exact ih hunasked hnocursor h

end VNCDoToolClient

end Vncdotool
