import Vncdotool.Client.VNCDoToolClient

/-!
# Painting — what the callbacks of an update leave alone

The callbacks that paint change the screen, the cursor and the cached raw mode.  The Deferreds, the
negotiated format and the parser are left as they are, and all that is seen of a painting is the
`updateRectangle` that `fillRectangle` falls back to (`Paints`).  A commit changes no more than the
Deferreds of the screen operations, and neither do the operations themselves; all that is seen of
them is requests for another update (`Slots`).
-/

namespace Vncdotool

open Wire Streaming

/-- What the handshake does in sight of others: no callback but those that tell how it fares. -/
def Event.OfHandshake : Event → Prop
  | .callback cb => cb.Tells
  | _ => True

namespace VNCDoToolClient

variable {P : Pillow}

/-- The attributes that painting does not touch. -/
structure Kept (app app' : VNCDoToolClient P) : Prop where
  requestedPixelFormat : app'.requestedPixelFormat = app.requestedPixelFormat
  x : app'.x = app.x
  y : app'.y = app.y
  imageMode : app'.imageMode = app.imageMode
  formatId : app'.formatId = app.formatId
  deferred : app'.deferred = app.deferred
  expected : app'.expected = app.expected
  factory : app'.factory = app.factory
  returned : app'.returned = app.returned
  outcomes : app'.outcomes = app.outcomes
  committed : app'.committed = app.committed

theorem Kept.refl (app : VNCDoToolClient P) : Kept app app :=
  ⟨rfl, rfl, rfl, rfl, rfl, rfl, rfl, rfl, rfl, rfl, rfl⟩

theorem Kept.trans {app app₁ app₂ : VNCDoToolClient P} (h : Kept app app₁) (h' : Kept app₁ app₂) :
    Kept app app₂ where
  requestedPixelFormat := h'.requestedPixelFormat.trans h.requestedPixelFormat
  x := h'.x.trans h.x
  y := h'.y.trans h.y
  imageMode := h'.imageMode.trans h.imageMode
  formatId := h'.formatId.trans h.formatId
  deferred := h'.deferred.trans h.deferred
  expected := h'.expected.trans h.expected
  factory := h'.factory.trans h.factory
  returned := h'.returned.trans h.returned
  outcomes := h'.outcomes.trans h.outcomes
  committed := h'.committed.trans h.committed

/-- A painting event. -/
def IsPaint (event : Event) : Prop :=
  ∃ x y width height data pf, event = .callback (.updateRectangle x y width height data pf)

/-- From `c` to `c'` nothing but painting was done. -/
structure Paints (c c' : RFBClient (VNCDoToolClient P)) : Prop where
  app : Kept c.app c'.app
  parser : c' = { c with app := c'.app, log := c'.log }
  log : ∃ events, c'.log = c.log ++ events ∧ ∀ event ∈ events, IsPaint event

theorem Paints.refl (c : RFBClient (VNCDoToolClient P)) : Paints c c :=
  ⟨Kept.refl _, rfl, [], (List.append_nil _).symm, nofun⟩

theorem Paints.trans {c c₁ c₂ : RFBClient (VNCDoToolClient P)} (h : Paints c c₁)
    (h' : Paints c₁ c₂) : Paints c c₂ := by
  rcases h.log with ⟨events, hlog, hevents⟩
  rcases h'.log with ⟨events', hlog', hevents'⟩
  refine ⟨h.app.trans h'.app, ?_, events ++ events', ?_, ?_⟩
  · have hparser := h'.parser
    rw [h.parser] at hparser
    exact hparser
  · rw [hlog', hlog, List.append_assoc]
  · intro event hmem
    rcases List.mem_append.1 hmem with hmem | hmem
    · exact hevents event hmem
    · exact hevents' event hmem

instance : Std.Refl (Paints (P := P)) :=
  ⟨Paints.refl⟩

instance : IsTrans (RFBClient (VNCDoToolClient P)) Paints :=
  ⟨fun _ _ _ => Paints.trans⟩

theorem paints_modifyApp {f : VNCDoToolClient P → VNCDoToolClient P} (h : ∀ app, Kept app (f app)) :
    Respects Paints (modifyApp f) :=
  fun c => ⟨h c.app, rfl, [], (List.append_nil _).symm, nofun⟩

theorem paints_liftExcept {α : Type} (x : Except PyError α) :
    Respects Paints (liftExcept x : Py (VNCDoToolClient P) α) := by
  cases x with
  | ok a => exact respects_pure a
  | error exc => exact respects_throw exc

theorem paints_drawCursor : Respects (Paints (P := P)) drawCursor := by
  refine paints_modifyApp fun app => ?_
  split
  · exact ⟨rfl, rfl, rfl, rfl, rfl, rfl, rfl, rfl, rfl, rfl, rfl⟩
  · exact Kept.refl app

theorem paints_rawModeFor (id : ℕ) (pf : PixelFormat) :
    Respects (Paints (P := P)) (rawModeFor id pf) := by
  have hmode : Respects Paints (do return (← get).app.rawMode : Py (VNCDoToolClient P) _) :=
    respects_bind respects_get fun _ => respects_pure _
  refine respects_bind respects_get fun c => respects_ite (fun _ => ?_) fun _ => hmode
  refine respects_bind (paints_modifyApp fun app => ?_) fun _ => ?_
  · exact ⟨rfl, rfl, rfl, rfl, rfl, rfl, rfl, rfl, rfl, rfl, rfl⟩
  · cases pf.rawMode with
    | ok mode =>
        refine respects_bind (paints_modifyApp fun app => ?_) fun _ => hmode
        exact ⟨rfl, rfl, rfl, rfl, rfl, rfl, rfl, rfl, rfl, rfl, rfl⟩
    | error exc => exact respects_bind (respects_throw _) fun _ => hmode

theorem paints_updateRectangle (x y width height : ℤ) (data : Bytes) (pf : PixelFormat) :
    Respects (Paints (P := P)) (updateRectangle x y width height data pf) := by
  refine respects_ite (fun _ => respects_pure _) fun _ => respects_bind respects_get fun c => ?_
  refine respects_bind (paints_rawModeFor _ pf) fun mode => ?_
  cases mode with
  | none => exact respects_throw _
  | some mode =>
      refine respects_bind (paints_liftExcept _) fun update => ?_
      refine respects_bind (fun c => ?_) fun _ => paints_drawCursor
      exact ⟨⟨rfl, rfl, rfl, rfl, rfl, rfl, rfl, rfl, rfl, rfl, rfl⟩, rfl, [],
        (List.append_nil _).symm, nofun⟩

theorem paints_updateCursor (x y width height : ℤ) (image mask : Bytes) :
    Respects (Paints (P := P)) (updateCursor x y width height image mask) := by
  have hcursor (c : RFBClient (VNCDoToolClient P)) : Respects Paints (do
      let cursor ← liftExcept (P.frombytes c.app.imageMode (width, height) image)
      modifyApp fun app => { app with cursor := some cursor }
      let cmask ← liftExcept (P.frombits (width, height) mask)
      modifyApp fun app => { app with cmask := some cmask, cfocus := (x, y) }
      drawCursor : Py (VNCDoToolClient P) Unit) := by
    refine respects_bind (paints_liftExcept _) fun cursor => ?_
    refine respects_bind (paints_modifyApp fun app => ?_) fun _ => ?_
    · exact ⟨rfl, rfl, rfl, rfl, rfl, rfl, rfl, rfl, rfl, rfl, rfl⟩
    · refine respects_bind (paints_liftExcept _) fun cmask => ?_
      refine respects_bind (paints_modifyApp fun app => ?_) fun _ => paints_drawCursor
      exact ⟨rfl, rfl, rfl, rfl, rfl, rfl, rfl, rfl, rfl, rfl, rfl⟩
  refine respects_bind respects_get fun c => respects_ite (fun _ => respects_pure _) fun _ => ?_
  refine respects_ite (fun _ => ?_) fun _ => hcursor c
  refine respects_bind (paints_modifyApp fun app => ?_) fun _ => hcursor c
  exact ⟨rfl, rfl, rfl, rfl, rfl, rfl, rfl, rfl, rfl, rfl, rfl⟩

theorem paints_updateDesktopSize (width height : ℤ) :
    Respects (Paints (P := P)) (updateDesktopSize width height) := by
  have hscreen (app : VNCDoToolClient P) (screen : Option P.Image) :
      Kept app { app with screen := screen } :=
    ⟨rfl, rfl, rfl, rfl, rfl, rfl, rfl, rfl, rfl, rfl, rfl⟩
  refine respects_ite (fun _ => respects_bind (respects_throw _) fun _ => ?_) fun _ => ?_
  · exact paints_modifyApp fun app => hscreen app _
  · exact paints_modifyApp fun app => hscreen app _

theorem paints_fillRectangle (x y width height : ℤ) (color : Option Bytes) :
    Respects (Paints (P := P)) (fillRectangle x y width height color) := by
  cases color with
  | none => exact respects_throw _
  | some color =>
      refine respects_bind respects_get fun c => respects_bind (fun c => ?_) fun _ =>
        paints_updateRectangle _ _ _ _ _ _
      refine ⟨Kept.refl _, rfl, _, rfl, ?_⟩
      intro event hmem
      rw [List.mem_singleton] at hmem
      exact ⟨_, _, _, _, _, _, hmem⟩

/-- The callbacks that only paint. -/
def Callback.OnlyPaints : Callback → Prop
  | .beginUpdate => True
  | .updateRectangle _ _ _ _ _ _ => True
  | .copyRectangle _ _ _ _ _ _ => True
  | .fillRectangle _ _ _ _ _ => True
  | .updateCursor _ _ _ _ _ _ => True
  | .updateDesktopSize _ _ => True
  | .setColorMap _ _ => True
  | .bell => True
  | .copyText _ => True
  | _ => False

theorem paints_override (env : Env) {cb : Callback} (h : Callback.OnlyPaints cb) :
    Respects (Paints (P := P)) (override env cb) := by
  cases cb with
  | vncConnectionMade => exact h.elim
  | vncRequestPassword => exact h.elim
  | vncAuthFailed reason => exact h.elim
  | vncProtocolError reason => exact h.elim
  | beginUpdate => exact respects_pure _
  | commitUpdate rectangles => exact h.elim
  | updateRectangle x y width height data pf => exact paints_updateRectangle x y width height data pf
  | copyRectangle srcx srcy x y width height => exact respects_pure _
  | fillRectangle x y width height color => exact paints_fillRectangle x y width height color
  | updateCursor x y width height image mask => exact paints_updateCursor x y width height image mask
  | updateDesktopSize width height => exact paints_updateDesktopSize width height
  | setColorMap first colors => exact respects_pure _
  | bell => exact respects_pure _
  | copyText text => exact respects_pure _

/-! ## The slot of the screen operations -/

/-- From `c` to `c'` nothing but the Deferreds of the screen operations was changed, and requests
were written. -/
structure Slots (c c' : RFBClient (VNCDoToolClient P)) : Prop where
  app : c'.app =
    { c.app with
      deferred := c'.app.deferred
      expected := c'.app.expected
      returned := c'.app.returned
      outcomes := c'.app.outcomes
      committed := c'.app.committed }
  parser : c' = { c with app := c'.app, log := c'.log }
  log : ∃ events, c'.log = c.log ++ events ∧ ∀ event ∈ events, ∃ data, event = .write data

theorem Slots.refl (c : RFBClient (VNCDoToolClient P)) : Slots c c :=
  ⟨rfl, rfl, [], (List.append_nil _).symm, nofun⟩

theorem Slots.trans {c c₁ c₂ : RFBClient (VNCDoToolClient P)} (h : Slots c c₁)
    (h' : Slots c₁ c₂) : Slots c c₂ := by
  rcases h.log with ⟨events, hlog, hevents⟩
  rcases h'.log with ⟨events', hlog', hevents'⟩
  refine ⟨?_, ?_, events ++ events', ?_, ?_⟩
  · have happ := h'.app
    rw [h.app] at happ
    exact happ
  · have hparser := h'.parser
    rw [h.parser] at hparser
    exact hparser
  · rw [hlog', hlog, List.append_assoc]
  · intro event hmem
    rcases List.mem_append.1 hmem with hmem | hmem
    · exact hevents event hmem
    · exact hevents' event hmem

instance : Std.Refl (Slots (P := P)) :=
  ⟨Slots.refl⟩

instance : IsTrans (RFBClient (VNCDoToolClient P)) Slots :=
  ⟨fun _ _ _ => Slots.trans⟩

theorem slots_modifyApp {f : VNCDoToolClient P → VNCDoToolClient P}
    (h : ∀ app, f app =
      { app with
        deferred := (f app).deferred
        expected := (f app).expected
        returned := (f app).returned
        outcomes := (f app).outcomes
        committed := (f app).committed }) :
    Respects Slots (modifyApp f) :=
  fun c => ⟨h c.app, rfl, [], (List.append_nil _).symm, nofun⟩

theorem slots_liftExcept {α : Type} (x : Except PyError α) :
    Respects Slots (liftExcept x : Py (VNCDoToolClient P) α) := by
  cases x with
  | ok a => exact respects_pure a
  | error exc => exact respects_throw exc

theorem slots_framebufferUpdateRequest (x y : ℤ) (width height : Option ℤ) (incremental : Bool) :
    Respects (Slots (P := P)) (RFBClient.framebufferUpdateRequest x y width height incremental) := by
  refine respects_bind respects_get fun c => respects_ite (fun _ c => ?_) fun _ => respects_throw _
  refine ⟨rfl, rfl, _, rfl, fun event hmem => ?_⟩
  exact ⟨_, List.mem_singleton.1 hmem⟩

theorem slots_complete (call : ℕ) (outcome : Resolution) :
    Respects (Slots (P := P)) (complete call outcome) := by
  have hcompleted : Respects (Slots (P := P)) (modifyApp fun app =>
      { app with outcomes := app.outcomes ++ [(call, outcome)] }) := slots_modifyApp fun _ => rfl
  refine respects_bind respects_get fun _ => respects_ite (fun _ => ?_) fun _ => hcompleted
  exact respects_bind (respects_throw _) fun _ => hcompleted

theorem slots_captureSave (fp : String) (box : Option Box) (format : Option String) :
    Respects (Slots (P := P)) (captureSave fp box format) := by
  refine respects_bind respects_get fun c => ?_
  cases c.app.screen with
  | none => exact respects_throw _
  | some screen =>
      cases box with
      | none => exact slots_liftExcept _
      | some box => exact respects_bind (slots_liftExcept _) fun _ => slots_liftExcept _

theorem slots_expectCompare (call : ℕ) (box : Box) (maxrms : ℚ) :
    Respects (Slots (P := P)) (expectCompare call box maxrms) := by
  refine respects_bind respects_get fun c => respects_bind (slots_liftExcept _) fun matched => ?_
  refine respects_ite (fun _ => respects_pure _) fun _ => ?_
  refine respects_bind (slots_modifyApp fun _ => rfl) fun _ => ?_
  exact respects_bind (slots_framebufferUpdateRequest _ _ _ _ _) fun _ => respects_pure _

theorem slots_callback (d : Pending) : Respects (Slots (P := P)) (callback d) := by
  unfold callback
  cases d.resume with
  | refresh => exact slots_complete _ _
  | captureSave fp box format =>
      exact respects_attempt (slots_captureSave _ _ _) (fun _ => slots_complete _ _)
        fun _ => slots_complete _ _
  | expectCompare box maxrms =>
      refine respects_attempt (slots_expectCompare _ _ _) (fun matched => ?_)
        fun _ => slots_complete _ _
      exact respects_ite (fun _ => slots_complete _ _) fun _ => respects_pure _

theorem slots_commitUpdate (rectangles : List Rect) :
    Respects (Slots (P := P)) (commitUpdate rectangles) := by
  refine respects_bind respects_get fun c => ?_
  cases c.app.deferred with
  | none => exact respects_pure _
  | some d =>
      refine respects_ite (fun _ => slots_framebufferUpdateRequest _ _ _ _ _) fun _ => ?_
      exact respects_bind (slots_modifyApp fun _ => rfl) fun _ => slots_callback d

/-- The operations an application can call. -/
theorem slots_operation (operation : Operation) : Respects (Slots (P := P)) operation.run := by
  have hrefresh (incremental : Bool) (resume : Resume) :
      Respects (Slots (P := P)) (refreshScreen incremental resume) :=
    respects_bind (slots_modifyApp fun _ => rfl) fun _ => slots_framebufferUpdateRequest _ _ _ _ _
  have hexpect (filename : String) (x y : ℤ) (maxrms : ℚ) :
      Respects (Slots (P := P)) (expectFramebuffer filename x y maxrms) := by
    refine respects_bind (slots_liftExcept _) fun image => ?_
    refine respects_bind (slots_modifyApp fun _ => rfl) fun _ => ?_
    refine respects_bind respects_get fun c => ?_
    refine respects_bind (slots_expectCompare _ _ _) fun matched => ?_
    exact respects_ite (fun _ => slots_modifyApp fun _ => rfl) fun _ => respects_pure _
  cases operation with
  | refreshScreen incremental => exact hrefresh _ _
  | captureScreen fp incremental format => exact hrefresh _ _
  | captureRegion fp x y w h incremental => exact hrefresh _ _
  | expectScreen filename maxrms => exact hexpect _ _ _ _
  | expectRegion filename x y maxrms => exact hexpect _ _ _ _

/-! ## What the other callbacks consist of -/

section Respects

variable {R : RFBClient (VNCDoToolClient P) → RFBClient (VNCDoToolClient P) → Prop} [Std.Refl R]
  [IsTrans (RFBClient (VNCDoToolClient P)) R]

theorem respects_setEncodings
    (hrecord : ∀ event : Event, event.OfHandshake → Respects R (record event))
    (encodings : List ℤ) : Respects R (RFBClient.setEncodings encodings) := by
  have hwrites : Respects R (encodings.forM fun encoding =>
      if RFBClient.PacksSigned encoding then write (packBE 4 (u32OfInt encoding))
      else throw .structError : Py (VNCDoToolClient P) Unit) := by
    induction encodings with
    | nil => exact respects_pure _
    | cons encoding encodings ih =>
        refine respects_bind ?_ fun _ => ih
        exact respects_ite (fun _ => hrecord _ trivial) fun _ => respects_throw _
  refine respects_ite (fun _ => ?_) fun _ => respects_throw _
  exact respects_bind (hrecord _ trivial) fun _ => hwrites

section ImageMode

variable (hrecord : ∀ event : Event, event.OfHandshake → Respects R (record event))
  (hfire : ∀ how, Respects R (fire how))
  (hformat : ∀ pf, Respects R (setPixelFormat pf))
  (hmode : ∀ mode, Respects R (modifyApp fun app => { app with imageMode := mode }))

include hrecord hfire hformat hmode

theorem respects_setImageMode : Respects R (setImageMode vncProtocolError) := by
  refine respects_bind respects_get fun c => ?_
  cases alternative c with
  | none =>
      cases c.pixelFormat.rawMode with
      | ok mode => exact hmode mode
      | error exc => exact respects_pure _
  | some pf =>
      dsimp only
      cases pf.rawMode with
      | ok mode => exact respects_bind (hformat pf) fun _ => hmode mode
      | error exc =>
          refine respects_bind ?_ fun _ => hrecord _ trivial
          exact respects_bind (hrecord _ trivial) fun _ => hfire .errback

theorem respects_vncConnectionMade : Respects R vncConnectionMade := by
  refine respects_bind (respects_setImageMode hrecord hfire hformat hmode) fun _ => ?_
  refine respects_bind respects_get fun c => ?_
  exact respects_bind (respects_setEncodings hrecord _) fun _ => hfire .callback

end ImageMode

theorem respects_vncRequestPassword {env : Env}
    (hrecord : ∀ event : Event, event.OfHandshake → Respects R (record event))
    (hfire : ∀ how, Respects R (fire how)) : Respects R (vncRequestPassword env) := by
  refine respects_bind respects_get fun c => ?_
  cases c.factory.password with
  | none => exact respects_bind (hrecord _ trivial) fun _ => hfire .errback
  | some password =>
      have hresponse (x : Except PyError Bytes) :
          Respects R (liftExcept x : Py (VNCDoToolClient P) Bytes) := by
        cases x with
        | ok key => exact respects_pure key
        | error exc => exact respects_throw exc
      refine respects_bind (hresponse _) fun _ => ?_
      exact respects_bind respects_get fun _ => hrecord _ trivial

end Respects

end VNCDoToolClient

end Vncdotool
