import Vncdotool.Client.Operations
import Vncdotool.RFB.Likeness

/-!
# Display — screen operations do not disturb the display

The screen operations share the slot `self.deferred` with the receive path, and are called whenever
the application likes: between two chunks of a message as well as between two messages.  What they
set is kept apart from everything else that the client is (`display`): two clients with the same
display that receive the same bytes have the same display again, and are the same parser.  So the
operations can be struck from a run, and what was decoded, painted and called back stays
(`undisturbed`).
-/

namespace Vncdotool

open Wire Streaming

namespace VNCDoToolClient

variable {P : Pillow} {env : Env}

/-- The attributes of a client without those that its screen operations set. -/
def display (app : VNCDoToolClient P) : VNCDoToolClient P :=
  { app with deferred := none, expected := [], returned := 0, outcomes := [], committed := [] }

/-- The same display. -/
def SameDisplay (app app' : VNCDoToolClient P) : Prop :=
  app'.display = app.display

/-- Clients that have decoded the same and have the same display. -/
abbrev Alongside (c c' : RFBClient (VNCDoToolClient P)) : Prop :=
  Alike Event.isCallback SameDisplay c c'

/-- The same display, and no Deferred has fired that is still waiting. -/
def Undisturbed (app app' : VNCDoToolClient P) : Prop :=
  SameDisplay app app' ∧ Sound app ∧ Sound app'

/-! ## Actions on the display -/

section Display

variable {c c' : RFBClient (VNCDoToolClient P)}

/-- An attribute on display. -/
theorem SameDisplay.attribute {β : Type} {app app' : VNCDoToolClient P} (h : SameDisplay app app')
    (f : VNCDoToolClient P → β) (hf : ∀ app, f app.display = f app) : f app' = f app := by
  rw [← hf app', ← hf app]
  exact congrArg f h

theorem SameDisplay.factory {app app' : VNCDoToolClient P} (h : SameDisplay app app') :
    app'.factory = app.factory :=
  h.attribute VNCDoToolClient.factory fun _ => rfl

theorem SameDisplay.screen {app app' : VNCDoToolClient P} (h : SameDisplay app app') :
    app'.screen = app.screen :=
  h.attribute VNCDoToolClient.screen fun _ => rfl

/-- A change of the attributes on display. -/
theorem couples_modifyApp {f : VNCDoToolClient P → VNCDoToolClient P}
    (hf : ∀ app, (f app).display = (f app.display).display) :
    Couples Alongside (modifyApp f : Py (VNCDoToolClient P) Unit) (modifyApp f) := by
  refine couples_modify fun c c' h => ⟨h.bare, ?_, h.sized⟩
  have happ : c'.app.display = c.app.display := h.app
  change (f c'.app).display = (f c.app).display
  rw [hf, happ, ← hf]

theorem couples_fire (how : Fired) :
    Couples Alongside (fire how : Py (VNCDoToolClient P) Unit) (fire how) := by
  refine couples_get fun c c' h => ?_
  rw [h.app.factory]
  refine couples_bind (couples_modifyApp fun _ => rfl) fun _ => ?_
  exact couples_ite (fun _ => couples_throw _) fun _ => couples_pure _

theorem couples_setPixelFormat (pf : PixelFormat) :
    Couples Alongside (setPixelFormat pf : Py (VNCDoToolClient P) Unit)
      (setPixelFormat pf) := by
  refine couples_ite (fun _ => ?_) fun _ => couples_throw _
  refine couples_bind (couples_write _) fun _ => couples_bind ?_ fun _ => ?_
  · exact couples_onParser (fun b => { b with pixelFormat := pf }) (fun _ => rfl) (fun _ => rfl)
      (fun _ => rfl) (fun _ => rfl) fun _ h => h
  · exact couples_modifyApp fun _ => rfl

theorem couples_protocolError (reason : ProtocolFailure) :
    Couples Alongside (vncProtocolError reason : Py (VNCDoToolClient P) Unit)
      (vncProtocolError reason) :=
  couples_bind (couples_record _) fun _ => couples_fire _

theorem couples_setImageMode :
    Couples Alongside (setImageMode vncProtocolError : Py (VNCDoToolClient P) Unit)
      (setImageMode vncProtocolError) := by
  have hset (mode : RawMode) : Couples Alongside
      (modifyApp fun app => { app with imageMode := mode } : Py (VNCDoToolClient P) Unit)
      (modifyApp fun app => { app with imageMode := mode }) :=
    couples_modifyApp fun _ => rfl
  refine couples_get fun c c' h => ?_
  have halternative : alternative c' = alternative c := by
    unfold alternative
    rw [h.pixelFormat, h.versionServer,
      h.app.attribute VNCDoToolClient.requestedPixelFormat fun _ => rfl]
  rw [halternative, h.pixelFormat]
  cases alternative c with
  | none =>
      dsimp only
      cases c.pixelFormat.rawMode with
      | ok mode => exact hset mode
      | error exc => exact couples_pure _
  | some pf =>
      dsimp only
      cases pf.rawMode with
      | ok mode => exact couples_bind (couples_setPixelFormat pf) fun _ => hset mode
      | error exc => exact couples_bind (couples_protocolError _) fun _ => couples_loseConnection

theorem couples_setEncodings (encodings : List ℤ) :
    Couples Alongside (RFBClient.setEncodings encodings : Py (VNCDoToolClient P) Unit)
      (RFBClient.setEncodings encodings) := by
  have hall : Couples Alongside
      (encodings.forM fun encoding =>
        if RFBClient.PacksSigned encoding then write (packBE 4 (u32OfInt encoding))
        else throw .structError : Py (VNCDoToolClient P) PUnit)
      (encodings.forM fun encoding =>
        if RFBClient.PacksSigned encoding then write (packBE 4 (u32OfInt encoding))
        else throw .structError) := by
    induction encodings with
    | nil => exact couples_pure _
    | cons encoding encodings ih =>
        refine couples_bind (couples_ite (fun _ => couples_write _) fun _ => ?_) fun _ => ih
        exact couples_throw _
  exact couples_ite (fun _ => couples_bind (couples_write _) fun _ => hall) fun _ => couples_throw _

theorem couples_vncConnectionMade :
    Couples Alongside (vncConnectionMade : Py (VNCDoToolClient P) Unit)
      vncConnectionMade := by
  refine couples_bind couples_setImageMode fun _ => couples_get fun c c' h => ?_
  rw [h.app.factory]
  exact couples_bind (couples_setEncodings _) fun _ => couples_fire _

theorem couples_vncRequestPassword :
    Couples Alongside (vncRequestPassword env : Py (VNCDoToolClient P) Unit)
      (vncRequestPassword env) := by
  refine couples_get fun c c' h => ?_
  rw [h.factory]
  cases c.factory.password with
  | none => exact couples_bind couples_loseConnection fun _ => couples_fire _
  | some password =>
      refine couples_bind (couples_liftExcept _) fun key => couples_get fun c c' h => ?_
      rw [h.challenge]
      exact couples_write _

theorem couples_rawModeFor (id : ℕ) (pf : PixelFormat) :
    Couples Alongside (rawModeFor id pf : Py (VNCDoToolClient P) (Option RawMode))
      (rawModeFor id pf) := by
  have hread : Couples Alongside
      (do return (← get).app.rawMode : Py (VNCDoToolClient P) (Option RawMode))
      (do return (← get).app.rawMode) := by
    refine couples_get fun c c' h => ?_
    rw [h.app.attribute VNCDoToolClient.rawMode fun _ => rfl]
    exact couples_pure _
  refine couples_get fun c c' h => ?_
  rw [h.app.attribute VNCDoToolClient.rawModeFormat fun _ => rfl]
  refine couples_ite (fun _ => couples_bind (couples_modifyApp fun _ => rfl) fun _ => ?_)
    fun _ => hread
  cases pf.rawMode with
  | ok mode => exact couples_bind (couples_modifyApp fun _ => rfl) fun _ => hread
  | error exc => exact couples_bind (couples_throw _) fun _ => hread

theorem couples_drawCursor :
    Couples Alongside (drawCursor : Py (VNCDoToolClient P) Unit) drawCursor := by
  refine couples_modifyApp fun app => ?_
  unfold display
  cases hcursor : app.cursor with
  | none => simp only [hcursor]
  | some cursor =>
      cases hscreen : app.screen with
      | none => simp only [hcursor, hscreen]
      | some screen => rfl

theorem couples_updateRectangle (x y width height : ℤ) (data : Bytes) (pf : PixelFormat) :
    Couples Alongside
      (updateRectangle x y width height data pf : Py (VNCDoToolClient P) Unit)
      (updateRectangle x y width height data pf) := by
  refine couples_ite (fun _ => couples_pure _) fun _ => couples_get fun c c' h => ?_
  rw [h.app.attribute VNCDoToolClient.formatId fun _ => rfl]
  refine couples_bind (couples_rawModeFor _ _) fun mode => ?_
  cases mode with
  | none => exact couples_throw _
  | some mode =>
      refine couples_bind (couples_liftExcept _) fun update => couples_bind ?_ fun _ =>
        couples_drawCursor
      refine couples_modify fun c c' h => ⟨h.bare, ?_, h.sized⟩
      unfold SameDisplay display
      dsimp only
      rw [h.width, h.height, h.app.screen, h.app.attribute VNCDoToolClient.pastes fun _ => rfl]
      exact congrArg (fun app : VNCDoToolClient P =>
        { app with
          screen := some (painting (c.width, c.height) c.app.screen update x y width height).result
          pastes := c.app.pastes ++
            [painting (c.width, c.height) c.app.screen update x y width height] }) h.app

theorem couples_fillRectangle (x y width height : ℤ) (color : Option Bytes) :
    Couples Alongside (fillRectangle x y width height color : Py (VNCDoToolClient P) Unit)
      (fillRectangle x y width height color) := by
  cases color with
  | none => exact couples_throw _
  | some color =>
      refine couples_get fun c c' h => ?_
      rw [h.pixelFormat]
      exact couples_bind (couples_record _) fun _ => couples_updateRectangle _ _ _ _ _ _

theorem couples_updateCursor (x y width height : ℤ) (image mask : Bytes) :
    Couples Alongside
      (updateCursor x y width height image mask : Py (VNCDoToolClient P) Unit)
      (updateCursor x y width height image mask) := by
  have hread (mode : RawMode) : Couples Alongside
      (do
        let cursor ← liftExcept (P.frombytes mode (width, height) image)
        modifyApp fun app => { app with cursor := some cursor }
        let cmask ← liftExcept (P.frombits (width, height) mask)
        modifyApp fun app => { app with cmask := some cmask, cfocus := (x, y) }
        drawCursor : Py (VNCDoToolClient P) Unit)
      (do
        let cursor ← liftExcept (P.frombytes mode (width, height) image)
        modifyApp fun app => { app with cursor := some cursor }
        let cmask ← liftExcept (P.frombits (width, height) mask)
        modifyApp fun app => { app with cmask := some cmask, cfocus := (x, y) }
        drawCursor) := by
    refine couples_bind (couples_liftExcept _) fun cursor => ?_
    refine couples_bind (couples_modifyApp fun _ => rfl) fun _ => ?_
    refine couples_bind (couples_liftExcept _) fun cmask => ?_
    exact couples_bind (couples_modifyApp fun _ => rfl) fun _ => couples_drawCursor
  refine couples_get fun c c' h => ?_
  dsimp only
  rw [h.app.factory, h.app.attribute VNCDoToolClient.imageMode fun _ => rfl]
  refine couples_ite (fun _ => couples_pure _) fun _ => couples_ite (fun _ => ?_) fun _ => hread _
  exact couples_bind (couples_modifyApp fun _ => rfl) fun _ => hread _

theorem couples_updateDesktopSize (width height : ℤ) :
    Couples Alongside (updateDesktopSize width height : Py (VNCDoToolClient P) Unit)
      (updateDesktopSize width height) := by
  refine couples_ite (fun _ => couples_bind (couples_throw _) fun _ => ?_) fun _ => ?_
  · exact couples_modifyApp fun _ => rfl
  · exact couples_modifyApp fun _ => rfl

/-! ## A commit -/

/-- From `c` to `c'` nothing has changed but what the screen operations set. -/
structure Quiet (c c' : RFBClient (VNCDoToolClient P)) : Prop where
  bare : c'.bare Event.isCallback = c.bare Event.isCallback
  display : c'.app.display = c.app.display

theorem Quiet.sized (h : Quiet c c') (hsized : c.Sized) : c'.Sized := by
  have hwidth : (c'.bare Event.isCallback).width = (c.bare Event.isCallback).width :=
    congrArg RFBClient.width h.bare
  have hheight : (c'.bare Event.isCallback).height = (c.bare Event.isCallback).height :=
    congrArg RFBClient.height h.bare
  exact ⟨hwidth.trans_lt hsized.1, hheight.trans_lt hsized.2⟩

/-- A commit fires a Deferred or asks for another update, and puts nothing on display. -/
theorem ensures_commitUpdate (hsized : c.Sized) (hsound : Sound c.app) (rectangles : List Rect) :
    Ensures (commitUpdate rectangles) c (fun _ c' => Quiet c c') fun _ _ => False := by
  have hwrite (d : RFBClient (VNCDoToolClient P)) (data : Bytes) :
      RFBClient.bare Event.isCallback { d with log := d.log ++ [.write data] } =
        d.bare Event.isCallback := by
    simp [RFBClient.bare, List.filter_append, Event.isCallback]
  unfold commitUpdate
  rw [ensures_bind, ensures_get]
  cases hslot : c.app.deferred with
  | none => exact ⟨rfl, rfl⟩
  | some d =>
      refine ensures_ite.2 ⟨fun _ => ?_, fun _ => ensures_bind.2 ?_⟩
      · exact (ensures_framebufferUpdateRequest hsized).2 ⟨hwrite _ _, rfl⟩
      · have hfresh : ¬ Completed c.app d.call := (hsound.waiting d hslot).2
        change Ensures (callback d) (taken d c) _ _
        refine Ensures.mono (ensures_callback (c := taken d c) hsized hfresh) ?_
          fun _ _ => False.elim
        rintro _ c' (⟨box, maxrms, rfl⟩ | ⟨outcome, rfl⟩)
        · exact ⟨hwrite { c with app := (waiting d.call box maxrms (taken d c)).app } _, rfl⟩
        · exact ⟨rfl, rfl⟩

/-- Two clients with the same display commit, and nothing is put on either. -/
theorem couples_commitUpdate (h : Alike Event.isCallback Undisturbed c c') (rectangles : List Rect) :
    Coupled Alongside (commitUpdate rectangles c) (commitUpdate rectangles c') := by
  rcases (ensures_commitUpdate h.sized h.app.2.1 rectangles).exists_run_ok with ⟨_, d, hrun, hd⟩
  rcases (ensures_commitUpdate h.sized' h.app.2.2 rectangles).exists_run_ok with
    ⟨_, d', hrun', hd'⟩
  have hrun₁ : commitUpdate rectangles c = .ok _ d := hrun
  have hrun₂ : commitUpdate rectangles c' = .ok _ d' := hrun'
  rw [hrun₁, hrun₂]
  refine ⟨rfl, ?_, ?_, ?_⟩
  · rw [hd.bare, hd'.bare, h.bare]
  · change d'.app.display = d.app.display
    rw [hd.display, hd'.display]
    exact h.app.1
  · exact hd.sized h.sized

/-! ## The callbacks -/

/-- But for the commit, no callback looks at what the operations set. -/
theorem couples_override {cb : Callback} (hcb : ∀ rectangles, cb ≠ .commitUpdate rectangles) :
    Couples Alongside (override env cb : Py (VNCDoToolClient P) Unit)
      (override env cb) := by
  cases cb with
  | vncConnectionMade => exact couples_vncConnectionMade
  | vncRequestPassword => exact couples_vncRequestPassword
  | vncAuthFailed reason => exact couples_fire _
  | vncProtocolError reason => exact couples_fire _
  | beginUpdate => exact couples_pure _
  | commitUpdate rectangles => exact absurd rfl (hcb rectangles)
  | updateRectangle x y width height data pf => exact couples_updateRectangle x y width height data pf
  | copyRectangle srcx srcy x y width height => exact couples_pure _
  | fillRectangle x y width height color => exact couples_fillRectangle x y width height color
  | updateCursor x y width height image mask => exact couples_updateCursor x y width height image mask
  | updateDesktopSize width height => exact couples_updateDesktopSize width height
  | setColorMap first colors => exact couples_pure _
  | bell => exact couples_pure _
  | copyText text => exact couples_pure _

/-- Whatever callback is made, what is on display does not depend on the operations. -/
theorem likens_runtime : Likens Event.isCallback Undisturbed (runtime P env) (runtime P env) where
  env := rfl
  call cb c c' h := by
    have hshown {d d' : RFBClient (VNCDoToolClient P)}
        (hd : Alike Event.isCallback Undisturbed d d') : Alongside d d' :=
      ⟨hd.bare, hd.app.1, hd.sized⟩
    have hcall : Coupled Alongside ((runtime P env).call cb c)
        ((runtime P env).call cb c') := by
      by_cases hcommit : ∃ rectangles, cb = .commitUpdate rectangles
      · rcases hcommit with ⟨rectangles, rfl⟩
        exact couples_bind_at (fun _ _ hd => hshown hd) (couples_record _ c c' h)
          fun _ _ _ hd => couples_commitUpdate hd rectangles
      · exact couples_bind (couples_record _)
          (fun _ => couples_override fun rectangles hcb => hcommit ⟨rectangles, hcb⟩) c c' (hshown h)
    have hsound : Sound (finalState ((runtime P env).call cb c)).app ∧
        Sound (finalState ((runtime P env).call cb c')).app :=
      ⟨h.app.2.1.moved (moves_call cb c h.sized h.app.2.1).2,
        h.app.2.2.moved (moves_call cb c' h.sized' h.app.2.2).2⟩
    refine (hcall.and (Q := fun d d' => Sound d.app ∧ Sound d'.app) hsound).mono ?_
    exact fun d d' hd => ⟨hd.1.bare, ⟨hd.1.app, hd.2⟩, hd.1.sized⟩

/-! ## The operations -/

instance : Std.Refl (Quiet (P := P)) :=
  ⟨fun _ => ⟨rfl, rfl⟩⟩

instance : IsTrans (RFBClient (VNCDoToolClient P)) Quiet :=
  ⟨fun _ _ _ h h' => ⟨h'.bare.trans h.bare, h'.display.trans h.display⟩⟩

theorem quiet_record {event : Event} (hevent : event.isCallback = false) :
    Respects (Quiet (P := P)) (record event) := by
  refine fun c => ⟨?_, rfl⟩
  simp [RFBClient.bare, record, List.filter_append, hevent, finalState]

theorem quiet_framebufferUpdateRequest (x y : ℤ) (width height : Option ℤ) (incremental : Bool) :
    Respects (Quiet (P := P))
      (RFBClient.framebufferUpdateRequest x y width height incremental) :=
  respects_bind respects_get fun _ =>
    respects_ite (fun _ => quiet_record rfl) fun _ => respects_throw _

theorem quiet_liftExcept {α : Type} (x : Except PyError α) :
    Respects Quiet (liftExcept x : Py (VNCDoToolClient P) α) := by
  cases x with
  | ok a => exact respects_pure a
  | error exc => exact respects_throw exc

theorem quiet_refreshScreen (incremental : Bool) (resume : Resume) :
    Respects (Quiet (P := P)) (refreshScreen incremental resume) :=
  respects_bind (fun _ => ⟨rfl, rfl⟩) fun _ => quiet_framebufferUpdateRequest _ _ _ _ _

theorem quiet_expectFramebuffer (filename : String) (x y : ℤ) (maxrms : ℚ) :
    Respects (Quiet (P := P)) (expectFramebuffer filename x y maxrms) := by
  have hcompare (call : ℕ) (box : Box) (maxrms : ℚ) :
      Respects (Quiet (P := P)) (expectCompare call box maxrms) := by
    refine respects_bind respects_get fun c => respects_bind (quiet_liftExcept _) fun matched => ?_
    refine respects_ite (fun _ => respects_pure _) fun _ => ?_
    refine respects_bind (fun _ => ⟨rfl, rfl⟩) fun _ => ?_
    exact respects_bind (quiet_framebufferUpdateRequest _ _ _ _ _) fun _ => respects_pure _
  refine respects_bind (quiet_liftExcept _) fun image => ?_
  refine respects_bind (fun _ => ⟨rfl, rfl⟩) fun _ => ?_
  refine respects_bind respects_get fun c => respects_bind (hcompare _ _ _) fun matched => ?_
  exact respects_ite (fun _ _ => ⟨rfl, rfl⟩) fun _ => respects_pure _

/-- An operation puts nothing on display. -/
theorem quiet_operation (operation : Operation) : Respects (Quiet (P := P)) operation.run := by
  cases operation with
  | refreshScreen incremental => exact quiet_refreshScreen incremental _
  | captureScreen fp incremental format => exact quiet_refreshScreen incremental _
  | captureRegion fp x y w h incremental => exact quiet_refreshScreen incremental _
  | expectScreen filename maxrms => exact quiet_expectFramebuffer filename 0 0 maxrms
  | expectRegion filename x y maxrms => exact quiet_expectFramebuffer filename x y maxrms

/-! ## Runs -/

end Display

/-- An action that is no call of an operation. -/
def Action.isReceiving : Action → Bool
  | .call _ => false
  | .receive _ => true
  | .turn => true

section Runs

variable {conn silent : Connection (VNCDoToolClient P)}

/-- A call on one side alone. -/
theorem abreast_call (h : conn.Abreast Event.isCallback Undisturbed silent) (operation : Operation) :
    (act P env conn (.call operation)).Abreast Event.isCallback Undisturbed silent := by
  have hquiet : Quiet conn.client (finalState (operation.run.run conn.client)) :=
    quiet_operation operation conn.client
  have hsound : Sound (finalState (operation.run.run conn.client)).app :=
    (called_operation h.client.sized operation).sound h.client.app.2.1
  refine ⟨⟨?_, ⟨?_, hsound, h.client.app.2.2⟩, hquiet.sized h.client.sized⟩, h.packet, h.raised⟩
  · exact h.client.bare.trans hquiet.bare.symm
  · exact Eq.trans h.client.app.1 hquiet.display.symm

/-- The same bytes arrive, or the loop turns, on both sides. -/
theorem abreast_receiving (h : conn.Abreast Event.isCallback Undisturbed silent) {action : Action}
    (haction : action.isReceiving) :
    (act P env conn action).Abreast Event.isCallback Undisturbed (act P env silent action) := by
  cases action with
  | call operation => exact absurd haction Bool.false_ne_true
  | receive data => exact likens_runtime.enter h data
  | turn => exact likens_runtime.turn h

/-- The calls of a run can be left out. -/
theorem abreast_run (actions : List Action) (h : conn.Abreast Event.isCallback Undisturbed silent) :
    (actions.foldl (act P env) conn).Abreast Event.isCallback Undisturbed
      ((actions.filter Action.isReceiving).foldl (act P env) silent) := by
  induction actions generalizing conn silent with
  | nil => exact h
  | cons action actions ih =>
      cases action with
      | call operation => exact ih (abreast_call h operation)
      | receive data => exact ih (abreast_receiving h rfl)
      | turn => exact ih (abreast_receiving h rfl)

/-- A client beside itself. -/
theorem abreast_fresh (requested : Option PixelFormat) (settings : VNCDoToolFactory)
    (factory : Factory) :
    (fresh P requested settings factory).Abreast Event.isCallback Undisturbed
      (fresh P requested settings factory) := by
  have hsound : Sound (fresh P requested settings factory).client.app :=
    ⟨nofun, List.nodup_nil, nofun⟩
  exact ⟨⟨rfl, ⟨rfl, hsound, hsound⟩, Nat.two_pow_pos 16, Nat.two_pow_pos 16⟩, rfl, rfl⟩

/-- Screen operations, whenever they are called and whatever becomes of them, change nothing of what
the client reads: in every run the parser, the callbacks made so far, the unread bytes, what was
raised, and the screen and cursor are those of the run without the calls. -/
theorem operations_undisturbing (P : Pillow) (env : Env) (requested : Option PixelFormat)
    (settings : VNCDoToolFactory) (factory : Factory) (actions : List Action) :
    let conn := actions.foldl (act P env) (fresh P requested settings factory)
    let silent := (actions.filter Action.isReceiving).foldl (act P env)
      (fresh P requested settings factory)
    conn.packet = silent.packet ∧ conn.raised = silent.raised ∧
      conn.client.bare Event.isCallback = silent.client.bare Event.isCallback ∧
      conn.client.app.display = silent.client.app.display := by
  intro conn silent
  have h : conn.Abreast Event.isCallback Undisturbed silent :=
    abreast_run actions (abreast_fresh _ _ _)
  exact ⟨h.packet.symm, h.raised.symm, h.client.bare.symm, Eq.symm h.client.app.1⟩

end Runs

end VNCDoToolClient

end Vncdotool
