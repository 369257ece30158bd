import Vncdotool.Client.Pillow
import Vncdotool.RFB.ClientMessages
import Vncdotool.RFB.Frames

/-!
# VNCDoToolClient — what the client of the tool adds to `RFBClient`

The attributes of a `VNCDoToolClient`, the callbacks it overrides and the screen operations it
offers.  Twisted's Deferreds appear by what was documented of them: the factory's one remembers each
firing, and all but the first raise.  The Deferred of a screen operation is named by the number
of the call that returned it; the further ones that `_expectCompare` chains to it complete the same
call.
-/

namespace Vncdotool

open Wire Streaming

/-! ## Attributes -/

/-- How `factory.deferred` was fired. -/
inductive Fired
  | callback
  | errback
  deriving DecidableEq, Repr

/-- The attributes of a `VNCDoToolFactory` beyond those of `Factory`. -/
structure VNCDoToolFactory where
  pseudocursor : Bool := false
  nocursor : Bool := false
  pseudodesktop : Bool := true
  lastRect : Bool := true
  qemuExtendedKey : Bool := true
  /-- The firings of `self.deferred`; all but the first raised. -/
  deferred : List Fired := []
  /-- `_disconnect_callbacks`, numbered. -/
  disconnectCallbacks : List ℕ := []
  /-- The disconnect callbacks that were called. -/
  notified : List ℕ := []
  deriving DecidableEq, Repr

abbrev Box := ℤ × ℤ × ℤ × ℤ

/-- The first callback of the Deferred of a screen operation. -/
inductive Resume
  | refresh
  | captureSave (fp : String) (box : Option Box) (format : Option String)
  | expectCompare (box : Box) (maxrms : ℚ)
  deriving DecidableEq

/-- A Deferred: the call whose result it is, and its first callback. -/
structure Pending where
  call : ℕ
  resume : Resume
  deriving DecidableEq

/-- A call of `base.paste(over, at, mask)`. -/
structure Paste (P : Pillow) where
  base : P.Image
  source : P.Image
  at_ : ℤ × ℤ
  mask : Option P.Image := none

/-- The picture it makes. -/
def Paste.result {P : Pillow} (paste : Paste P) : P.Image :=
  P.paste paste.base paste.source paste.at_ paste.mask

/-- What a call's Deferred was fired with. -/
inductive Resolution
  | result
  | failure (exc : PyError)
  deriving DecidableEq, Repr

/-- The attributes of a `VNCDoToolClient`. -/
structure VNCDoToolClient (P : Pillow) where
  requestedPixelFormat : Option PixelFormat := none
  x : ℤ := 0
  y : ℤ := 0
  /-- The mask of the pressed buttons; no operation of it goes below zero. -/
  buttons : ℕ := 0
  screen : Option P.Image := none
  imageMode : RawMode := .RGBX
  /-- Which object `self.pixel_format` is: how often `setPixelFormat` has replaced it. -/
  formatId : ℕ := 0
  rawModeFormat : Option ℕ := none
  rawMode : Option RawMode := none
  deferred : Option Pending := none
  expected : List ℕ := []
  cursor : Option P.Image := none
  cmask : Option P.Image := none
  cfocus : ℤ × ℤ := (0, 0)
  factory : VNCDoToolFactory := {}
  /-- How many Deferreds the screen operations have returned. -/
  returned : ℕ := 0
  /-- The calls whose Deferred has fired. -/
  outcomes : List (ℕ × Resolution) := []
  /-- The Deferreds that commits have fired; a call's may be followed by another one of it. -/
  committed : List Pending := []
  /-- The pastes of an update or of the cursor onto the screen. -/
  pastes : List (Paste P) := []

namespace VNCDoToolClient

variable {P : Pillow}

/-- Set attributes of the subclass. -/
def modifyApp (f : VNCDoToolClient P → VNCDoToolClient P) : Py (VNCDoToolClient P) Unit :=
  modify fun c => { c with app := f c.app }

/-! ## The factory's Deferred -/

/-- Fire `factory.deferred`; a second time raises `AlreadyCalledError`. -/
def fire (how : Fired) : Py (VNCDoToolClient P) Unit := do
  let fired := (← get).app.factory.deferred
  modifyApp fun app => { app with factory := { app.factory with deferred := fired ++ [how] } }
  if fired ≠ [] then
    throw .alreadyCalled

/-- `factory.clientConnectionFailed`. -/
def clientConnectionFailed : Py (VNCDoToolClient P) Unit :=
  fire .errback

/-- `factory.clientConnectionMade`. -/
def clientConnectionMade : Py (VNCDoToolClient P) Unit :=
  fire .callback

/-- `factory.clientConnectionLost`. -/
def clientConnectionLost : Py (VNCDoToolClient P) Unit :=
  modifyApp fun app =>
    { app with
      factory :=
        { app.factory with
          notified := app.factory.notified ++ app.factory.disconnectCallbacks
          disconnectCallbacks := [] } }

/-- `connectionLost`; that of `RFBClient` is Twisted's, which does nothing. -/
def connectionLost : Py (VNCDoToolClient P) Unit :=
  clientConnectionLost

/-! ## Pixel formats -/

def setPixelFormat (pf : PixelFormat) : Py (VNCDoToolClient P) Unit := do
  if RFBClient.Packable pf then
    write (packBE 1 (MsgC2S.value .setPixelFormat) ++ [0, 0, 0] ++ pf.toBytes)
    modify fun c => { c with pixelFormat := pf }
    modifyApp fun app => { app with formatId := app.formatId + 1 }
  else
    throw .structError

/-- What `setImageMode` asks the server for; `none` when the server's format will do. -/
def alternative (c : RFBClient (VNCDoToolClient P)) : Option PixelFormat :=
  match c.app.requestedPixelFormat with
  | some pf => some pf
  | none =>
      match c.pixelFormat.rawMode with
      | .ok _ => none
      | .error _ =>
          if c.versionServer = ⟨3, 889⟩ then some PixelFormat.rgb565
          else some PixelFormat.rgbx8888

/-- `setImageMode`; `vncProtocolError` is the overridable one. -/
def setImageMode (vncProtocolError : ProtocolFailure → Py (VNCDoToolClient P) Unit) :
    Py (VNCDoToolClient P) Unit := do
  let c ← get
  match alternative c with
  | none =>
      match c.pixelFormat.rawMode with
      | .ok mode => modifyApp fun app => { app with imageMode := mode }
      | .error _ => pure ()
  | some pf =>
      -- Resolved before the request goes out.
      match pf.rawMode with
      | .error _ => do
          vncProtocolError .undecodableFormat
          loseConnection
      | .ok mode => do
          setPixelFormat pf
          modifyApp fun app => { app with imageMode := mode }

section ImageMode

variable {vncProtocolError : ProtocolFailure → Py (VNCDoToolClient P) Unit}
  {c : RFBClient (VNCDoToolClient P)} {pf : PixelFormat} {mode : RawMode}
  {exc : UnsupportedPixelFormat}

/-- The server's own format is kept. -/
theorem setImageMode_native (h : alternative c = none) (hmode : c.pixelFormat.rawMode = .ok mode) :
    setImageMode vncProtocolError c =
      (modifyApp fun app => { app with imageMode := mode } : Py (VNCDoToolClient P) Unit) c := by
  unfold setImageMode
  rw [run_get_bind, h]
  dsimp only
  rw [hmode]

theorem setImageMode_unknown (h : alternative c = none)
    (hmode : c.pixelFormat.rawMode = .error exc) :
    setImageMode vncProtocolError c = .ok () c := by
  unfold setImageMode
  rw [run_get_bind, h]
  dsimp only
  rw [hmode]
  rfl

/-- A format that cannot be decoded is not asked for. -/
theorem setImageMode_refused (h : alternative c = some pf) (hmode : pf.rawMode = .error exc) :
    setImageMode vncProtocolError c =
      (do
        vncProtocolError .undecodableFormat
        loseConnection) c := by
  unfold setImageMode
  rw [run_get_bind, h]
  dsimp only
  rw [hmode]

/-- Another format is asked for. -/
theorem setImageMode_asked (h : alternative c = some pf) (hmode : pf.rawMode = .ok mode) :
    setImageMode vncProtocolError c =
      (do
        setPixelFormat pf
        modifyApp fun app => { app with imageMode := mode }) c := by
  unfold setImageMode
  rw [run_get_bind, h]
  dsimp only
  rw [hmode]

end ImageMode

/-- `_rawModeFor` of the format that is object `id`. -/
def rawModeFor (id : ℕ) (pf : PixelFormat) : Py (VNCDoToolClient P) (Option RawMode) := do
  if (← get).app.rawModeFormat ≠ some id then
    modifyApp fun app => { app with rawModeFormat := some id }
    match pf.rawMode with
    | .ok mode => modifyApp fun app => { app with rawMode := some mode }
    | .error _ => throw .unsupportedPixelFormat
  return (← get).app.rawMode

/-! ## Painting -/

def drawCursor : Py (VNCDoToolClient P) Unit :=
  modifyApp fun app =>
    match app.cursor, app.screen with
    | some cursor, some screen =>
        let paste : Paste P := ⟨screen, cursor, (app.x - app.cfocus.1, app.y - app.cfocus.2), app.cmask⟩
        { app with screen := some paste.result, pastes := app.pastes ++ [paste] }
    | _, _ => app

/-- How an update is pasted, `size` being what ServerInit announced. -/
def painting (size : ℕ × ℕ) (screen : Option P.Image) (update : P.Image) (x y width height : ℤ) :
    Paste P :=
  match screen with
  | none => ⟨P.new size, update, (x, y), none⟩
  | some screen =>
      if ((P.size screen).1 : ℤ) < x + width ∨ ((P.size screen).2 : ℤ) < y + height then
        let newSize : ℕ × ℕ :=
          ((max (x + width) (P.size screen).1).toNat, (max (y + height) (P.size screen).2).toNat)
        ⟨P.paste (P.new newSize) screen (0, 0) none, update, (x, y), none⟩
      else
        ⟨screen, update, (x, y), none⟩

def updateRectangle (x y width height : ℤ) (data : Bytes) (pf : PixelFormat) :
    Py (VNCDoToolClient P) Unit := do
  -- ignore empty updates
  if data.isEmpty then
    return
  let mode ← rawModeFor (← get).app.formatId pf
  match mode with
  | none => throw .valueError
  | some mode =>
      let update ← liftExcept (P.frombytes mode (width, height) data)
      modify fun c =>
        let paste := painting (c.width, c.height) c.app.screen update x y width height
        { c with
          app :=
            { c.app with screen := some paste.result, pastes := c.app.pastes ++ [paste] } }
      drawCursor

def updateCursor (x y width height : ℤ) (image mask : Bytes) : Py (VNCDoToolClient P) Unit := do
  let app := (← get).app
  if app.factory.nocursor then
    return
  if width = 0 ∨ height = 0 then
    modifyApp fun app => { app with cursor := none }
  let cursor ← liftExcept (P.frombytes app.imageMode (width, height) image)
  modifyApp fun app => { app with cursor := some cursor }
  let cmask ← liftExcept (P.frombits (width, height) mask)
  modifyApp fun app => { app with cmask := some cmask, cfocus := (x, y) }
  drawCursor

def maxDesktopSize : ℤ := 0x10000

def updateDesktopSize (width height : ℤ) : Py (VNCDoToolClient P) Unit := do
  if ¬ ((0 ≤ width ∧ width < maxDesktopSize) ∧ 0 ≤ height ∧ height < maxDesktopSize) then
    throw .valueError
  modifyApp fun app =>
    let blank := P.new (width.toNat, height.toNat)
    { app with
      screen := some
        (match app.screen with
        | some screen => P.paste blank screen (0, 0) none
        | none => blank) }

/-! ## Screen operations -/

/-- Fire the Deferred of a call; a second time raises. -/
def complete (call : ℕ) (outcome : Resolution) : Py (VNCDoToolClient P) Unit := do
  if call ∈ (← get).app.outcomes.map Prod.fst then
    throw .alreadyCalled
  modifyApp fun app => { app with outcomes := app.outcomes ++ [(call, outcome)] }

/-- `refreshScreen`, and `_capture`, which adds its callback to the Deferred. -/
def refreshScreen (incremental : Bool) (resume : Resume) : Py (VNCDoToolClient P) Unit := do
  modifyApp fun app =>
    { app with deferred := some ⟨app.returned, resume⟩, returned := app.returned + 1 }
  RFBClient.framebufferUpdateRequest 0 0 none none incremental

/-- `_captureSave`. -/
def captureSave (fp : String) (box : Option Box) (format : Option String) :
    Py (VNCDoToolClient P) Unit := do
  match (← get).app.screen with
  | none => throw .assertionError
  | some screen =>
      let capture ←
        match box with
        | some box => liftExcept (P.crop screen box)
        | none => pure screen
      liftExcept (P.save capture fp format)

/-- The comparison of `_expectCompare`: without a screen there is nothing to compare. -/
def matched (app : VNCDoToolClient P) (expected : List ℕ) (box : Box) (maxrms : ℚ) :
    Except PyError Bool :=
  match app.screen with
  | none => .ok false
  | some screen => do
      let hist := P.histogram (← P.crop screen box)
      return hist.length == expected.length && P.rmsWithin hist expected maxrms

/-- `_expectCompare` for a call: whether it returns `self`, and not another Deferred. -/
def expectCompare (call : ℕ) (box : Box) (maxrms : ℚ) : Py (VNCDoToolClient P) Bool := do
  let app := (← get).app
  if ← liftExcept (matched app app.expected box maxrms) then
    return true
  modifyApp fun app => { app with deferred := some ⟨call, .expectCompare box maxrms⟩ }
  RFBClient.framebufferUpdateRequest 0 0 none none app.screen.isSome
  return false

/-- `_expectFramebuffer`; a Deferred is returned unless the screen matches already. -/
def expectFramebuffer (filename : String) (x y : ℤ) (maxrms : ℚ) : Py (VNCDoToolClient P) Unit := do
  let image ← liftExcept (P.load filename)
  let (w, h) := P.size image
  modifyApp fun app => { app with expected := P.histogram image }
  let matched ← expectCompare (← get).app.returned (x, y, x + w, y + h) maxrms
  if !matched then
    modifyApp fun app => { app with returned := app.returned + 1 }

/-- A Deferred's callback: what it raises becomes the Deferred's failure. -/
def callback (d : Pending) : Py (VNCDoToolClient P) Unit :=
  match d.resume with
  | .refresh => complete d.call .result
  | .captureSave fp box format =>
      attempt (captureSave fp box format) (fun _ => complete d.call .result)
        fun exc => complete d.call (.failure exc)
  | .expectCompare box maxrms =>
      attempt (expectCompare d.call box maxrms)
        (fun matched => if matched then complete d.call .result else pure ())
        fun exc => complete d.call (.failure exc)

def commitUpdate (rectangles : List Rect) : Py (VNCDoToolClient P) Unit := do
  match (← get).app.deferred with
  | none => pure ()
  | some d =>
      if rectangles.isEmpty then
        -- No rectangle in this update painted the screen.
        RFBClient.framebufferUpdateRequest 0 0 none none false
      else
        modifyApp fun app =>
          { app with deferred := none, committed := app.committed ++ [d] }
        callback d

section Commit

variable {c : RFBClient (VNCDoToolClient P)} {rectangles : List Rect} {d : Pending}

theorem commitUpdate_idle (h : c.app.deferred = none) : commitUpdate rectangles c = .ok () c := by
  unfold commitUpdate
  rw [run_get_bind, h]
  rfl

theorem commitUpdate_pending (h : c.app.deferred = some d) :
    commitUpdate rectangles c =
      (if rectangles.isEmpty then
        RFBClient.framebufferUpdateRequest 0 0 none none false
      else do
        modifyApp fun app =>
          { app with deferred := none, committed := app.committed ++ [d] }
        callback d : Py (VNCDoToolClient P) Unit) c := by
  unfold commitUpdate
  rw [run_get_bind, h]

end Commit

/-- The operations an application can call. -/
inductive Operation
  | refreshScreen (incremental : Bool)
  | captureScreen (fp : String) (incremental : Bool) (format : Option String)
  | captureRegion (fp : String) (x y w h : ℤ) (incremental : Bool)
  | expectScreen (filename : String) (maxrms : ℚ)
  | expectRegion (filename : String) (x y : ℤ) (maxrms : ℚ)
  deriving DecidableEq

def Operation.run : Operation → Py (VNCDoToolClient P) Unit
  | .refreshScreen incremental => VNCDoToolClient.refreshScreen incremental .refresh
  | .captureScreen fp incremental format =>
      VNCDoToolClient.refreshScreen incremental (.captureSave fp none format)
  | .captureRegion fp x y w h incremental =>
      VNCDoToolClient.refreshScreen incremental (.captureSave fp (some (x, y, x + w, y + h)) none)
  | .expectScreen filename maxrms => expectFramebuffer filename 0 0 maxrms
  | .expectRegion filename x y maxrms => expectFramebuffer filename x y maxrms

/-! ## The overridden callbacks -/

/-- The encodings `vncConnectionMade` offers. -/
def encodings (factory : VNCDoToolFactory) : List Encoding :=
  [.raw] ++ (if factory.pseudocursor || factory.nocursor then [.pseudoCursor] else []) ++
    (if factory.pseudodesktop then [.pseudoDesktopSize] else []) ++
    (if factory.lastRect then [.pseudoLastRect] else []) ++
    if factory.qemuExtendedKey then [.pseudoQemuExtendedKeyEvent] else []

/-- `vncProtocolError`, as a method of `self` calls it. -/
def vncProtocolError (reason : ProtocolFailure) : Py (VNCDoToolClient P) Unit := do
  record (.callback (.vncProtocolError reason))
  clientConnectionFailed

def vncConnectionMade : Py (VNCDoToolClient P) Unit := do
  setImageMode vncProtocolError
  RFBClient.setEncodings ((encodings (← get).app.factory).map Encoding.value)
  clientConnectionMade

def vncRequestPassword (env : Env) : Py (VNCDoToolClient P) Unit := do
  match (← get).factory.password with
  | none => do
      loseConnection
      clientConnectionFailed
  | some password => Runtime.sendPassword ⟨env, fun _ => pure ()⟩ password

/-- The fallback of `RFBClient`, which calls `updateRectangle`. -/
def fillRectangle (x y width height : ℤ) (color : Option Bytes) : Py (VNCDoToolClient P) Unit := do
  match color with
  | none => throw .typeError
  | some color => do
      let pf := (← get).pixelFormat
      let data := repeatColor color width height
      record (.callback (.updateRectangle x y width height data pf))
      updateRectangle x y width height data pf

def override (env : Env) : Callback → Py (VNCDoToolClient P) Unit
  | .vncConnectionMade => vncConnectionMade
  | .vncRequestPassword => vncRequestPassword env
  | .vncAuthFailed _ => clientConnectionFailed
  | .vncProtocolError _ => clientConnectionFailed
  | .beginUpdate => pure ()
  | .commitUpdate rectangles => commitUpdate rectangles
  | .updateRectangle x y width height data pf => updateRectangle x y width height data pf
  | .copyRectangle _ _ _ _ _ _ => pure ()
  | .fillRectangle x y width height color => fillRectangle x y width height color
  | .updateCursor x y width height image mask => updateCursor x y width height image mask
  | .updateDesktopSize width height => updateDesktopSize width height
  | .setColorMap _ _ => pure ()
  | .bell => pure ()
  | .copyText _ => pure ()

def runtime (P : Pillow) (env : Env) : Runtime (VNCDoToolClient P) where
  env := env
  override := override env

end VNCDoToolClient

end Vncdotool
