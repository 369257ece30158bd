import Vncdotool.Client.Session

/-!
# ImageMode — the pixel format and the mode that cursors are read in

A client keeps the format that its rectangles are sized and decoded by, and beside it the mode that
`setImageMode` has settled on for its cursors.  `setImageMode` keeps the two in step, and so does
whatever the server sends; `setPixelFormat` is public and changes the format alone.
-/

namespace Vncdotool

open Wire Streaming

namespace VNCDoToolClient

variable {P : Pillow} {env : Env}

/-! ## Runs -/

/-- What can happen to a client whose application has a hand in its pixel format. -/
inductive FormatAction
  | act (action : Action)
  | setImageMode
  | setPixelFormat (pf : PixelFormat)

/-- One action.  What a method raises goes to its caller. -/
def change (P : Pillow) (env : Env) (conn : Connection (VNCDoToolClient P)) :
    FormatAction → Connection (VNCDoToolClient P)
  | .act action => act P env conn action
  | .setImageMode =>
      { conn with
        client := finalState ((VNCDoToolClient.setImageMode vncProtocolError).run conn.client) }
  | .setPixelFormat pf =>
      { conn with client := finalState ((VNCDoToolClient.setPixelFormat pf).run conn.client) }

/-- A ready client reads cursors in the mode of the format it reads rectangles in. -/
def Agrees (conn : Connection (VNCDoToolClient P)) : Prop :=
  InSession conn.client → conn.client.pixelFormat.rawMode = .ok conn.client.app.imageMode

/-- A ready client is given no format that is read in another mode. -/
def KeepsMode (conn : Connection (VNCDoToolClient P)) : FormatAction → Prop
  | .act _ => True
  | .setImageMode => True
  | .setPixelFormat pf =>
      InSession conn.client → RFBClient.Packable pf →
        pf.rawMode = .ok conn.client.app.imageMode

/-! ## `setPixelFormat` -/

section Steps

variable {conn : Connection (VNCDoToolClient P)}

/-- The format is changed when its message can be packed, and the image mode is not. -/
theorem finalState_setPixelFormat (pf : PixelFormat) (c : RFBClient (VNCDoToolClient P)) :
    Held c (finalState ((setPixelFormat pf).run c)) ∧
      Undecoded c (finalState ((setPixelFormat pf).run c)) ∧
        (finalState ((setPixelFormat pf).run c)).app.imageMode = c.app.imageMode ∧
          (finalState ((setPixelFormat pf).run c)).pixelFormat =
            if RFBClient.Packable pf then pf else c.pixelFormat := by
  refine (ensures_finalState (P := fun c' => Held c c' ∧ Undecoded c c' ∧
    c'.app.imageMode = c.app.imageMode ∧
      c'.pixelFormat = if RFBClient.Packable pf then pf else c.pixelFormat)).1 ?_
  refine ensures_ite.2 ⟨fun hpackable => ?_, fun hwide => ?_⟩
  · rw [if_pos hpackable]
    exact ⟨⟨rfl, rfl, rfl, rfl⟩, ⟨rfl, rfl⟩, rfl, rfl⟩
  · rw [if_neg hwide]
    exact ⟨Held.refl c, ⟨rfl, rfl⟩, rfl, rfl⟩

theorem inSession_iff {c c' : RFBClient (VNCDoToolClient P)} (h : Held c c') :
    InSession c' ↔ InSession c := by
  have hhandler : c'.expectedHandler = c.expectedHandler := congrArg Prod.fst h.armed
  unfold InSession
  rw [h.stage, hhandler]

/-- What has been cached is the mode of the format before. -/
theorem cached_setPixelFormat (pf : PixelFormat) {c : RFBClient (VNCDoToolClient P)}
    (h : Cached c.pixelFormat c.app) :
    Cached (finalState ((setPixelFormat pf).run c)).pixelFormat
      (finalState ((setPixelFormat pf).run c)).app := by
  refine (ensures_finalState (P := fun c' : RFBClient (VNCDoToolClient P) =>
    Cached c'.pixelFormat c'.app)).1 ?_
  refine ensures_ite.2 ⟨fun _ id hid => ?_, fun _ => h⟩
  have hle : id ≤ c.app.formatId := (h id hid).1
  exact ⟨hle.trans (Nat.le_succ _), fun heq => absurd heq (Nat.ne_of_lt (Nat.lt_succ_of_le hle))⟩

theorem Steady.setPixelFormat (h : Steady conn) {pf : PixelFormat}
    (hkeeps : KeepsMode conn (.setPixelFormat pf)) :
    Steady (change P env conn (.setPixelFormat pf)) := by
  rcases finalState_setPixelFormat pf conn.client with ⟨hheld, hundecoded, himage, hformat⟩
  rcases moves_setPixelFormat pf conn.client h.sized h.sound with ⟨hsized, hmoved⟩
  refine ⟨hsized, h.sound.moved hmoved, fun hnot => ?_, fun hsession => ?_⟩
  · have huncached := h.uncached fun hin => hnot ((inSession_iff hheld).2 hin)
    exact hundecoded.rawModeFormat.trans huncached
  · have hin : InSession conn.client := (inSession_iff hheld).1 hsession
    rcases h.able hin with ⟨hnegotiable, hable⟩
    have hmode : (finalState ((VNCDoToolClient.setPixelFormat pf).run
        conn.client)).pixelFormat.rawMode = .ok conn.client.app.imageMode := by
      rw [hformat]
      split_ifs with hpackable
      · exact hkeeps hin hpackable
      · exact hable.imageMode
    refine ⟨Eq.mpr (congrArg Negotiable hundecoded.requested) hnegotiable, ?_,
      cached_setPixelFormat pf hable.cached⟩
    exact hmode.trans (congrArg Except.ok himage.symm)

theorem Steady.setImageMode (h : Steady conn) : Steady (change P env conn .setImageMode) := by
  have hheld : Held conn.client
      (finalState ((VNCDoToolClient.setImageMode vncProtocolError).run conn.client)) :=
    respects_setImageMode (fun event _ => held_record event) held_fire
      (fun pf c => (finalState_setPixelFormat pf c).1)
      (fun _ _ => ⟨rfl, rfl, rfl, rfl⟩) conn.client
  have hundecoded : Undecoded conn.client
      (finalState ((VNCDoToolClient.setImageMode vncProtocolError).run conn.client)) :=
    respects_setImageMode (fun _ _ _ => ⟨rfl, rfl⟩) undecoded_fire
      (fun pf c => (finalState_setPixelFormat pf c).2.1) (fun _ _ => ⟨rfl, rfl⟩) conn.client
  have hmoves : Moves conn.client
      (finalState ((VNCDoToolClient.setImageMode vncProtocolError).run conn.client)) :=
    respects_setImageMode (fun event _ => moves_record event) moves_fire
      moves_setPixelFormat (fun _ _ => moves_of_eq id rfl rfl rfl) conn.client
  rcases hmoves h.sized h.sound with ⟨hsized, hmoved⟩
  refine ⟨hsized, h.sound.moved hmoved, fun hnot => ?_, fun hsession => ?_⟩
  · have huncached := h.uncached fun hin => hnot ((inSession_iff hheld).2 hin)
    exact hundecoded.rawModeFormat.trans huncached
  · have hin : InSession conn.client := (inSession_iff hheld).1 hsession
    rcases h.able hin with ⟨hnegotiable, hable⟩
    have hsettled : Able
        (finalState ((VNCDoToolClient.setImageMode vncProtocolError).run conn.client)) :=
      ensures_finalState.1 (Ensures.mono (able_setImageMode hnegotiable hable.cached)
        (fun _ _ hmode => hmode.2) fun _ _ => False.elim)
    exact ⟨Eq.mpr (congrArg Negotiable hundecoded.requested) hnegotiable, hsettled⟩

theorem Steady.change (h : Steady conn) {action : FormatAction} (hkeeps : KeepsMode conn action) :
    Steady (VNCDoToolClient.change P env conn action) := by
  cases action with
  | act action => exact h.act action
  | setImageMode => exact h.setImageMode
  | setPixelFormat pf => exact h.setPixelFormat hkeeps

theorem Steady.agrees (h : Steady conn) : Agrees conn :=
  fun hsession => (h.able hsession).2.imageMode

/-- A format that is read in another mode breaks the agreement. -/
theorem keepsMode_of_agrees (action : FormatAction)
    (h : Agrees (VNCDoToolClient.change P env conn action)) : KeepsMode conn action := by
  cases action with
  | act action => trivial
  | setImageMode => trivial
  | setPixelFormat pf =>
      intro hsession hpackable
      rcases finalState_setPixelFormat pf conn.client with ⟨hheld, _, himage, hformat⟩
      have hagrees := h ((inSession_iff hheld).2 hsession)
      rw [if_pos hpackable] at hformat
      calc pf.rawMode = (finalState ((setPixelFormat pf).run conn.client)).pixelFormat.rawMode := by
            rw [hformat]
        _ = .ok (finalState ((setPixelFormat pf).run conn.client)).app.imageMode := hagrees
        _ = .ok conn.client.app.imageMode := congrArg Except.ok himage

end Steps

/-! ## The agreement -/

theorem steady_fresh (requested : Option PixelFormat) (settings : VNCDoToolFactory)
    (factory : Factory) : Steady (fresh P requested settings factory) :=
  @steady_run _ Env.sample requested settings factory []

/-- Whatever happens to a client, its image mode is that of its format whenever it is ready, if and
only if `setPixelFormat` is never called on it for a format that is read in another mode. -/
theorem imageMode_agrees_iff (P : Pillow) (env : Env) (requested : Option PixelFormat)
    (settings : VNCDoToolFactory) (factory : Factory) (actions : List FormatAction) :
    Always (change P env) Agrees (fresh P requested settings factory) actions ↔
      Throughout (change P env) KeepsMode (fresh P requested settings factory) actions :=
  always_iff_throughout (fun _ => Steady.agrees)
    (fun _ _ hsteady hkeeps => hsteady.change hkeeps)
    (fun _ action _ hagrees => keepsMode_of_agrees action hagrees)
    (steady_fresh requested settings factory)

/-- A session that becomes ready, and then the application's own request for another format. -/
def ownFormat : List FormatAction :=
  [.act (.receive (versionLine ⟨3, 3⟩ ++ packBE 4 1)), .act .turn,
    .act (.receive (packBE 2 1 ++ packBE 2 1 ++ PixelFormat.rgbx8888.toBytes ++ packBE 4 0)),
    .act .turn, .act .turn, .setPixelFormat PixelFormat.rgb565]

theorem not_agrees_ownFormat :
    ¬ Agrees (ownFormat.foldl (change Pillow.canvas Env.sample)
      (fresh Pillow.canvas none {} {})) := by
  have hhandler : (ownFormat.foldl (change Pillow.canvas Env.sample)
      (fresh Pillow.canvas none {} {})).client.expectedHandler = .connection := by
    decide +kernel
  intro hagrees
  have hsession : InSession (ownFormat.foldl (change Pillow.canvas Env.sample)
      (fresh Pillow.canvas none {} {})).client :=
    ⟨by decide +kernel, hhandler ▸ id⟩
  exact absurd (hagrees hsession) (by decide +kernel)

end VNCDoToolClient

end Vncdotool
