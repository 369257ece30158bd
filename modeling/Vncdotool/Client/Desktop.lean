import Vncdotool.Client.Refresh

/-!
# Desktop — the size of the framebuffer after a DesktopSize

A DesktopSize makes the screen image a new one and leaves `self.width` and `self.height` as ServerInit
set them.  The bound on Raw rectangles and the requests without a size go by these two.  So the
client follows the framebuffer only as long as its size is the one that ServerInit announced.
-/

namespace Vncdotool

open Wire Streaming StateTransition

/-- The name of the server is awaited behind ServerInit. -/
theorem Handler.Arms.behind_serverInit {h : Handler} {armed : Handler × ℕ} (harms : h.Arms armed)
    (hname : armed.1 = .serverName) : h = .serverInit := by
  rcases armed with ⟨h', n⟩
  subst hname
  cases h <;> simp only [Arms, ArmsPump, ArmsTile, ArmsConnection, Prod.mk.injEq, List.mem_cons,
    List.not_mem_nil] at harms <;> grind

namespace VNCDoToolClient

variable {P : Pillow} {env : Env}

/-- The size in the last DesktopSize that was handled. -/
def lastDesktopSize (log : List Event) : Option (ℤ × ℤ) :=
  (log.filterMap fun event =>
    match event with
    | .callback (.updateDesktopSize width height) => some (width, height)
    | _ => none).getLast?

/-- The client waits for the header of a rectangle. -/
structure AwaitsRectangle (c : RFBClient (VNCDoToolClient P)) : Prop where
  stage : c.stage = .handleExpected
  aborted : c.aborted = false
  armed : c.armed = (.rectangle, 12)
  rectangles : c.rectangles ≠ 0

/-- From `c` to `c'` the pixels of a rectangle were painted where it is: the picture read of them
was pasted at its place, on one that it fits in, and that is the screen now, the cursor drawn over
it. -/
def PaintedAt (rect : WireRect) (pixels : Bytes) (c c' : RFBClient (VNCDoToolClient P)) : Prop :=
  ∃ (mode : RawMode) (update base : P.Image),
    c.pixelFormat.rawMode = .ok mode ∧
    P.frombytes mode (rect.width.val, rect.height.val) pixels = .ok update ∧
    (rect.x + rect.width ≤ (P.size base).1 ∧ rect.y + rect.height ≤ (P.size base).2) ∧
    let paste : Paste P := { base := base, source := update, at_ := ((rect.x : ℕ), (rect.y : ℕ)) }
    let app := { c.app with screen := some paste.result, pastes := c.app.pastes ++ [paste] }
    c'.app.screen = (drawn app).screen ∧ c'.app.pastes = (drawn app).pastes

/-- The client takes the framebuffer to be of this size: where a rectangle is awaited, a Raw one
that fits in it is accepted and painted, and a request without a size is for the whole of it. -/
structure Tracks (P : Pillow) (env : Env) (c : RFBClient (VNCDoToolClient P)) (width height : ℕ) :
    Prop where
  accepts : AwaitsRectangle c → ∀ (rect : WireRect) (pixels : Bytes),
    rect.x + rect.width ≤ width → rect.y + rect.height ≤ height →
    pixels.length = rect.width * rect.height * c.pixelFormat.bypp →
    ∃ c', Reaches (Connection.iterate (runtime P env))
        (Connection.live c (rect.header .raw ++ pixels)) (Connection.live c' []) ∧
      c'.aborted = false ∧
      ((rect.width : ℕ) ≠ 0 → (rect.height : ℕ) ≠ 0 → PaintedAt rect pixels c c')
  covers : ∀ incremental, RFBClient.framebufferUpdateRequest 0 0 none none incremental c =
    .ok () { c with log := c.log ++ [.write (RFBClient.wholeRequest width height incremental)] }

/-- The client takes the framebuffer to be of the size in the last DesktopSize. -/
def TracksDesktop (P : Pillow) (env : Env) (c : RFBClient (VNCDoToolClient P)) : Prop :=
  ∀ width height : U16, lastDesktopSize c.log = some ((width.val : ℤ), (height.val : ℤ)) →
    Tracks P env c width height

/-! ## What ServerInit announced -/

/-- The size that an action makes known: a turn that hands over a ServerInit does. -/
def announcedBy (conn : Connection (VNCDoToolClient P)) : Action → Option (ℕ × ℕ)
  | .turn =>
      match conn.pending with
      | some (.serverInit, block) => some (field block 0 2, field block 2 2)
      | _ => none
  | _ => none

/-- The size in the last ServerInit of a run. -/
def announcedSize (P : Pillow) (env : Env) :
    Connection (VNCDoToolClient P) → List Action → Option (ℕ × ℕ)
  | _, [] => none
  | conn, action :: actions =>
      (announcedSize P env (act P env conn action) actions).or (announcedBy conn action)

/-- The size that the bound on Raw rectangles and the requests go by. -/
def frameSize (c : RFBClient (VNCDoToolClient P)) : ℕ × ℕ :=
  (c.width, c.height)

/-- From `c` to `c'` the size stays as it is. -/
def KeepsSize (c c' : RFBClient (VNCDoToolClient P)) : Prop :=
  frameSize c' = frameSize c

section Announcing

variable {conn conn' : Connection (VNCDoToolClient P)}

theorem keepsSize_call (cb : Callback) :
    Respects (KeepsSize (P := P)) ((runtime P env).call cb) := by
  intro c
  exact (held_override cb { c with log := c.log ++ [.callback cb] }).size

theorem maintains_keepsSize : Maintains (runtime P env) KeepsSize where
  refl _ := rfl
  trans _ _ _ h h' := Eq.trans h' h
  call c cb _ := keepsSize_call cb c
  write _ _ := rfl
  loseConnection _ := rfl
  state _ _ _ _ hframe :=
    congrArg (fun frame : ℕ × ℕ × PixelFormat => (frame.1, frame.2.1)) hframe

/-- Only ServerInit sets the size. -/
theorem frameSize_turn (hiterate : conn.iterate (runtime P env) = some conn') :
    frameSize conn'.client = (announcedBy conn .turn).getD (frameSize conn.client) := by
  rcases Connection.client_iterate hiterate with ⟨handler, block, hpending, hclient⟩
  by_cases hinit : handler = .serverInit
  · subst hinit
    unfold announcedBy
    rw [hclient, hpending]
    rfl
  · have hexpected : conn.client.expectedHandler ≠ .serverInit := by
      rw [← (Connection.pending_eq_some_iff.1 hpending).2.1]
      exact hinit
    have hnone : announcedBy conn .turn = none := by
      unfold announcedBy
      rw [hpending]
      cases handler with
      | serverInit => exact absurd rfl hinit
      | _ => rfl
    rw [hnone]
    exact maintains_keepsSize.iterate_at hiterate (fun _ _ _ _ cb _ => keepsSize_call cb)
      (fun heq => absurd heq hexpected) (Or.inr fun cb _ => keepsSize_call cb)

theorem frameSize_act (action : Action) :
    frameSize (act P env conn action).client =
      (announcedBy conn action).getD (frameSize conn.client) := by
  cases action with
  | call operation =>
      exact (slots_operation operation conn.client).held.size
  | receive data =>
      exact (@maintains_keepsSize P env).enter (fun cb _ => keepsSize_call cb) conn data
  | turn =>
      unfold act
      cases hiterate : conn.iterate (runtime P env) with
      | none =>
          have hnone : conn.pending = none := Connection.iterate_eq_none_iff.1 hiterate
          unfold announcedBy
          rw [hnone]
          rfl
      | some conn' => exact frameSize_turn hiterate

/-- Over a run the size stays as ServerInit set it. -/
theorem frameSize_run (actions : List Action) : ∀ conn : Connection (VNCDoToolClient P),
    frameSize (actions.foldl (act P env) conn).client =
      (announcedSize P env conn actions).getD (frameSize conn.client) := by
  induction actions with
  | nil => exact fun _ => rfl
  | cons action actions ih =>
      intro conn
      rw [List.foldl_cons, ih, frameSize_act]
      exact Option.getD_or.symm

end Announcing

section Tracking

variable {c : RFBClient (VNCDoToolClient P)}

/-- A rectangle is followed by the next one or by a commit, which never raises. -/
theorem ensures_next (hsized : c.Sized) (hsound : Sound c.app) :
    Ensures (RFBClient.doConnection (runtime P env)) c
      (fun _ c' => c'.aborted = c.aborted ∧ c'.app.pastes = c.app.pastes ∧
        c'.app.screen = c.app.screen) fun _ _ => False := by
  by_cases hzero : c.rectangles = 0
  -- The update is over: the commit answers the operation that waits, if one does.
  · cases hslot : c.app.deferred with
    | none =>
        let c₁ : RFBClient (VNCDoToolClient P) :=
          { c with log := c.log ++ [.callback (.commitUpdate c.rectanglePos)] }
        have hidle : c₁.app.deferred = none := hslot
        refine ensures_bind.2 (ensures_ite.2 ⟨fun hpos => absurd hzero hpos, fun _ => ?_⟩)
        refine ensures_bind.2 (ensures_bind.2 ?_)
        change Ensures (commitUpdate c.rectanglePos) c₁ _ _
        exact (ensures_of_run_ok (commitUpdate_idle hidle)).2 ⟨rfl, rfl, rfl⟩
    | some d =>
        have hfresh : ¬ Completed c.app d.call := (hsound.waiting d hslot).2
        refine Ensures.mono (ensures_doConnection hsized hslot hfresh hzero) ?_ fun _ _ => id
        exact fun _ _ hdone => hdone.2.1.2
  · refine ensures_bind.2 (ensures_ite.2 ⟨fun _ => ⟨rfl, rfl, rfl⟩, fun hzero' => ?_⟩)
    exact absurd (not_not.1 hzero') hzero

/-- A request for the whole of a framebuffer says its size. -/
theorem field_wholeRequest {width height : ℕ} {incremental : Bool} (hwidth : width < 256 ^ 2)
    (hheight : height < 256 ^ 2) :
    field (RFBClient.wholeRequest width height incremental) 6 2 = width ∧
      field (RFBClient.wholeRequest width height incremental) 8 2 = height := by
  have hbefore := @field_pack (packBE 1 (MsgC2S.value .framebufferUpdateRequest) ++
    packBE 1 incremental.toNat ++ packBE 2 0 ++ packBE 2 0) (packBE 2 height) 6 2 _ (by simp) hwidth
  have hafter := @field_pack (packBE 1 (MsgC2S.value .framebufferUpdateRequest) ++
    packBE 1 incremental.toNat ++ packBE 2 0 ++ packBE 2 0 ++ packBE 2 width) [] 8 2 _ (by simp)
    hheight
  rw [List.append_nil] at hafter
  exact ⟨hbefore, hafter⟩

theorem wholeRequest_inj {width height width' height' : ℕ} {incremental : Bool}
    (hwidth : width < 256 ^ 2) (hheight : height < 256 ^ 2) (hwidth' : width' < 256 ^ 2)
    (hheight' : height' < 256 ^ 2)
    (h : RFBClient.wholeRequest width height incremental =
      RFBClient.wholeRequest width' height' incremental) :
    (width, height) = (width', height') := by
  have hfields := @field_wholeRequest width height incremental hwidth hheight
  rw [h] at hfields
  have hfields' := @field_wholeRequest width' height' incremental hwidth' hheight'
  exact Prod.ext (hfields.1.symm.trans hfields'.1) (hfields.2.symm.trans hfields'.2)

theorem run_framebufferUpdateRequest (hsized : c.Sized) (incremental : Bool) :
    RFBClient.framebufferUpdateRequest 0 0 none none incremental c =
      .ok () { c with
        log := c.log ++ [.write (RFBClient.wholeRequest c.width c.height incremental)] } := by
  have hensures : Ensures (RFBClient.framebufferUpdateRequest 0 0 none none incremental) c
      (fun _ c' => c' = { c with
        log := c.log ++ [.write (RFBClient.wholeRequest c.width c.height incremental)] })
      fun _ _ => False := (ensures_framebufferUpdateRequest hsized).2 rfl
  rcases hensures.exists_run_ok with ⟨_, _, hrun, rfl⟩
  exact hrun

/-- A rectangle that is not empty is painted where it is. -/
theorem paintedAt_effect (hable : Able c) {fb : Framebuffer} (hformat : c.pixelFormat = fb.format)
    {rect : WireRect} {pixels : Bytes} {fits} {length}
    (hx : rect.x + rect.width ≤ c.width) (hy : rect.y + rect.height ≤ c.height)
    (hwidth : (rect.width : ℕ) ≠ 0) (hheight : (rect.height : ℕ) ≠ 0)
    {c' : RFBClient (VNCDoToolClient P)}
    (hscreen : c'.app.screen = (effect (c.width, c.height)
      (.raw rect pixels fits length : ServerRect fb) c.app).screen)
    (hpastes : c'.app.pastes = (effect (c.width, c.height)
      (.raw rect pixels fits length : ServerRect fb) c.app).pastes) :
    PaintedAt rect pixels c c' := by
  have hreads : Reads fb.format c.app := by
    rw [← hformat]
    exact hable
  rcases exists_frombytes hreads length with ⟨update, hupdate⟩
  have hne : ¬ pixels.isEmpty := fun hempty =>
    not_or.2 ⟨hwidth, hheight⟩ ((isEmpty_pixels hreads.imageMode length).1 hempty)
  have heffect : effect (c.width, c.height) (.raw rect pixels fits length : ServerRect fb) c.app =
      drawn (pasted (c.width, c.height) rect update c.app) := by
    refine (if_neg hne).trans ?_
    rw [hupdate]
  let base : P.Image := (pasteOf (c.width, c.height) rect update c.app).base
  have hpaste : pasteOf (c.width, c.height) rect update c.app =
      { base := base, source := update, at_ := ((rect.x : ℕ), (rect.y : ℕ)) } := pasteOf_eq
  have hbase : P.size base = (scene (c.width, c.height) c.app).grown rect := size_pasteOf
  refine ⟨c.app.imageMode, update, base, hable.imageMode, hupdate, ?_, ?_, ?_⟩
  -- The screen grows to what is painted, and the first one has the size of the framebuffer.
  · rw [hbase]
    unfold Scene.grown scene
    cases c.app.screen with
    | none => exact ⟨hx, hy⟩
    | some screen => exact ⟨le_max_left _ _, le_max_left _ _⟩
  · rw [hscreen, heffect]
    unfold pasted drawn
    rw [hpaste]
    cases c.app.cursor with
    | none => rfl
    | some cursor => rfl
  · rw [hpastes, heffect]
    unfold pasted drawn
    rw [hpaste]
    cases c.app.cursor with
    | none => rfl
    | some cursor => rfl

/-- A Raw rectangle within the size that ServerInit announced is accepted and painted. -/
theorem accepts_raw (hawaits : AwaitsRectangle c) (hsized : c.Sized) (hsound : Sound c.app)
    (hable : Able c)
    (halloc : ∀ n ≤ c.width * c.height * c.pixelFormat.bypp, env.alloc n = true)
    {rect : WireRect} {pixels : Bytes} (hx : rect.x + rect.width ≤ c.width)
    (hy : rect.y + rect.height ≤ c.height)
    (hlen : pixels.length = rect.width * rect.height * c.pixelFormat.bypp) :
    ∃ c', Reaches (Connection.iterate (runtime P env))
        (Connection.live c (rect.header .raw ++ pixels)) (Connection.live c' []) ∧
      c'.aborted = false ∧
      ((rect.width : ℕ) ≠ 0 → (rect.height : ℕ) ≠ 0 → PaintedAt rect pixels c c') := by
  let size : ℕ × ℕ := (c.width, c.height)
  let fb : Framebuffer := ⟨c.width, c.height, c.pixelFormat⟩
  have hfits : (rect.width : ℕ) ≤ fb.width ∧ (rect.height : ℕ) ≤ fb.height :=
    ⟨(Nat.le_add_left _ _).trans hx, (Nat.le_add_left _ _).trans hy⟩
  let raw : ServerRect fb := .raw rect pixels hfits hlen
  have hdecoding : Connection.Decoding size fb c :=
    ⟨hawaits.stage, hawaits.aborted, rfl, rfl, rfl, fun _ => rfl, fun _ => rfl⟩
  rcases Nat.exists_eq_succ_of_ne_zero hawaits.rectangles with ⟨k, hcount⟩
  rcases Connection.reaches_rect plays halloc raw [] hdecoding hable hcount with
    ⟨c₁, hplayed, hreaches⟩
  have hkept : Kept c.app c₁.app := by
    rw [hplayed.app]
    exact kept_effect raw c.app
  have hsized₁ : c₁.Sized := by
    unfold RFBClient.Sized
    rw [hplayed.decoding.width, hplayed.decoding.height]
    exact hsized
  have hsound₁ : Sound c₁.app :=
    hsound.moved (Moved.kept (congrArg _ hkept.deferred) hkept.outcomes hkept.returned)
  rcases (@ensures_next P env c₁ hsized₁ hsound₁).exists_run_ok with
    ⟨_, c₂, hnext, haborted, hpastes, hscreen⟩
  have haborted₂ : c₂.aborted = false := haborted.trans hplayed.decoding.aborted
  have hrun := hreaches c₂ hnext haborted₂
  have hself : Connection.awaitingRectangle c = c := by
    have hhandler : c.expectedHandler = .rectangle := congrArg Prod.fst hawaits.armed
    have hexpected : c.expectedLen = 12 := congrArg Prod.snd hawaits.armed
    unfold Connection.awaitingRectangle
    rw [← hhandler, ← hexpected]
  rw [hself, List.append_nil] at hrun
  rw [hplayed.app] at hpastes hscreen
  exact ⟨c₂, hrun, haborted₂, fun hwidth hheight =>
    paintedAt_effect hable rfl hx hy hwidth hheight hscreen hpastes⟩

end Tracking

/-! ## Before ServerInit -/

/-- From `c` to `c'` no DesktopSize is handled. -/
def KeepsDesktop (c c' : RFBClient (VNCDoToolClient P)) : Prop :=
  lastDesktopSize c'.log = lastDesktopSize c.log

/-- ServerInit is still to come, and no DesktopSize has been handled. -/
structure Unannounced (conn : Connection (VNCDoToolClient P)) : Prop where
  handshakes : conn.client.stage = .handleExpected →
    conn.client.expectedHandler.Handshakes ∧ conn.client.expectedHandler ≠ .serverName
  unsized : lastDesktopSize conn.client.log = none

section Unannounced

variable {conn conn' : Connection (VNCDoToolClient P)}

instance : Std.Refl (KeepsDesktop (P := P)) :=
  ⟨fun _ => rfl⟩

instance : IsTrans (RFBClient (VNCDoToolClient P)) KeepsDesktop :=
  ⟨fun _ _ _ h h' => Eq.trans h' h⟩

theorem keepsDesktop_of_log {c c' : RFBClient (VNCDoToolClient P)} (h : c'.log = c.log) :
    KeepsDesktop c c' := by
  unfold KeepsDesktop
  rw [h]

theorem lastDesktopSize_append {log events : List Event}
    (h : ∀ event ∈ events, ∀ width height, event ≠ .callback (.updateDesktopSize width height)) :
    lastDesktopSize (log ++ events) = lastDesktopSize log := by
  have hnone : (events.filterMap fun event =>
      match event with
      | .callback (.updateDesktopSize width height) => some (width, height)
      | _ => none) = [] := by
    refine List.filterMap_eq_nil_iff.2 fun event hmem => ?_
    split
    · rename_i width height
      exact absurd rfl (h _ hmem width height)
    · rfl
  unfold lastDesktopSize
  rw [List.filterMap_append, hnone, List.append_nil]

theorem keepsDesktop_record {event : Event} (h : event.OfHandshake) :
    Respects (KeepsDesktop (P := P)) (record event) := by
  intro c
  refine lastDesktopSize_append fun event' hmem width height heq => ?_
  rw [List.mem_singleton.1 hmem] at heq
  rw [heq] at h
  exact h

theorem keeps_keepsDesktop : Keeps (KeepsDesktop (P := P)) where
  refl _ := rfl
  trans _ _ _ h h' := Eq.trans h' h
  write _ := keepsDesktop_record trivial
  loseConnection := keepsDesktop_record trivial
  state _ _ hlog _ _ := keepsDesktop_of_log hlog

theorem told_keepsDesktop : Told (runtime P env) KeepsDesktop := by
  have hrecord (event : Event) (h : event.OfHandshake) :
      Respects (KeepsDesktop (P := P)) (record event) := keepsDesktop_record h
  have hfire (how : Fired) : Respects (KeepsDesktop (P := P)) (fire how) := by
    intro c
    rw [finalState_fire]
    exact keepsDesktop_of_log rfl
  intro cb htells
  refine respects_bind (hrecord _ htells) fun _ => ?_
  change Respects KeepsDesktop (override env cb)
  cases cb with
  | vncConnectionMade =>
      refine respects_vncConnectionMade hrecord hfire (fun pf => ?_) fun _ _ =>
        keepsDesktop_of_log rfl
      refine respects_ite (fun _ => ?_) fun _ => respects_throw _
      refine respects_bind (hrecord _ trivial) fun _ => ?_
      exact respects_bind (fun _ => keepsDesktop_of_log rfl) fun _ _ => keepsDesktop_of_log rfl
  | vncRequestPassword => exact respects_vncRequestPassword hrecord hfire
  | vncAuthFailed reason => exact hfire .errback
  | vncProtocolError reason => exact hfire .errback
  | _ => exact htells.elim

theorem Unannounced.turn (h : Unannounced conn) (hnone : announcedBy conn .turn = none)
    (hiterate : conn.iterate (runtime P env) = some conn') : Unannounced conn' := by
  rcases Connection.turn_cases runtime_tame hiterate with ⟨handler, block, hpending, hmoved, _⟩
  rcases Connection.pending_eq_some_iff.1 hpending with ⟨⟨hstage, _⟩, hhandler, _⟩
  rcases h.handshakes hstage with ⟨hhandshakes, hname⟩
  rw [← hhandler] at hhandshakes hname
  have hinit : handler ≠ .serverInit := by
    intro heq
    subst heq
    unfold announcedBy at hnone
    rw [hpending] at hnone
    exact nomatch hnone
  refine ⟨fun _ => ?_, ?_⟩
  -- The loop is armed with the next handler, or as it was.
  · have hsame (harmed : conn'.client.armed = conn.client.armed) :
        conn'.client.expectedHandler.Handshakes ∧ conn'.client.expectedHandler ≠ .serverName := by
      have heq : conn'.client.expectedHandler = handler :=
        (congrArg Prod.fst harmed).trans hhandler.symm
      rw [heq]
      exact ⟨hhandshakes, hname⟩
    rcases hmoved with ⟨_, hmoves⟩ | ⟨_, hraises⟩
    · rcases hmoves.armed with ⟨_, harms⟩ | ⟨_, _, harmed⟩ | ⟨_, _, harmed⟩
      · exact ⟨harms.handshakes_iff.2 ⟨hhandshakes, hname⟩,
          fun heq => hinit (harms.behind_serverInit heq)⟩
      · exact hsame harmed
      · exact hsame harmed
    · exact hsame hraises.armed
  -- A handler of the handshake makes no callback of a DesktopSize.
  · rcases Connection.client_iterate hiterate with ⟨handler', block', hpending', hclient⟩
    cases hpending.symm.trans hpending'
    rw [hclient]
    exact (keeps_keepsDesktop.run_handshake hhandshakes (fun _ => told_keepsDesktop)
      fun heq => absurd heq hinit).trans h.unsized

theorem Unannounced.enter (h : Unannounced conn) (data : Bytes) :
    Unannounced (conn.enter (runtime P env) data) := by
  refine ⟨?_, (keeps_keepsDesktop.enter told_keepsDesktop conn data).trans h.unsized⟩
  rcases @Connection.enter_cases _ (runtime P env) conn data with
    ⟨_, heq⟩ | ⟨_, _, heq⟩ | ⟨_, hstage, heq⟩
  · rw [heq]
    exact h.handshakes
  · rw [heq]
    exact h.handshakes
  · rw [heq]
    rcases Connection.greet_cases (@runtime_tame P env)
      { conn with packet := conn.packet ++ data, raised := none } with
      ⟨_, _, harmed, _⟩ | ⟨hheld, _⟩
    · intro _
      have hgreeted : ∀ armed ∈ Connection.greeted, armed.1.Handshakes ∧ armed.1 ≠ .serverName := by
        intro armed hmem
        rcases List.mem_pair.1 hmem with rfl | rfl
        · exact ⟨trivial, nofun⟩
        · exact ⟨trivial, nofun⟩
      exact hgreeted _ harmed
    · intro hstage'
      have hinitial : conn.client.stage = .handleExpected := hheld.stage.symm.trans hstage'
      rw [hstage] at hinitial
      exact nomatch hinitial

theorem Unannounced.act (h : Unannounced conn) {action : Action}
    (hnone : announcedBy conn action = none) :
    Unannounced (VNCDoToolClient.act P env conn action) := by
  cases action with
  | call operation =>
      have hslots := slots_operation operation conn.client
      have hhandler : (finalState (operation.run.run conn.client)).expectedHandler =
          conn.client.expectedHandler := congrArg Prod.fst hslots.held.armed
      refine ⟨fun hstage => ?_, ?_⟩
      · change (finalState (operation.run.run conn.client)).expectedHandler.Handshakes ∧
          (finalState (operation.run.run conn.client)).expectedHandler ≠ .serverName
        rw [hhandler]
        exact h.handshakes (hslots.held.stage.symm.trans hstage)
      · rcases hslots.log with ⟨events, hlog, hwrites⟩
        change lastDesktopSize (finalState (operation.run.run conn.client)).log = none
        rw [hlog, lastDesktopSize_append, h.unsized]
        intro event hmem width height heq
        rcases hwrites event hmem with ⟨data, hdata⟩
        exact nomatch hdata.symm.trans heq
  | receive data => exact h.enter data
  | turn =>
      unfold VNCDoToolClient.act
      cases hiterate : conn.iterate (runtime P env) with
      | none => exact h
      | some conn' => exact h.turn hnone hiterate

theorem unannounced_fresh {requested : Option PixelFormat} {settings : VNCDoToolFactory}
    {factory : Factory} : Unannounced (fresh P requested settings factory) := by
  refine ⟨fun hstage => ?_, rfl⟩
  exact nomatch hstage

/-- A run without a ServerInit handles no DesktopSize. -/
theorem unannounced_run (actions : List Action) : ∀ {conn : Connection (VNCDoToolClient P)},
    Unannounced conn → announcedSize P env conn actions = none →
      Unannounced (actions.foldl (VNCDoToolClient.act P env) conn) := by
  induction actions with
  | nil => exact fun h _ => h
  | cons action actions ih =>
      intro conn h hnone
      rcases Option.or_eq_none_iff.1 hnone with ⟨hlater, hnow⟩
      exact ih (h.act hnow) hlater

end Unannounced

/-- In every state that a session reaches: the client takes the framebuffer to be of the size in the
last DesktopSize if and only if ServerInit announced that very size. -/
theorem tracks_iff {requested : Option PixelFormat} {settings : VNCDoToolFactory}
    {factory : Factory} {actions : List Action} {conn : Connection (VNCDoToolClient P)}
    (hconn : conn = actions.foldl (act P env) (fresh P requested settings factory))
    (halloc : ∀ n ≤ conn.client.width * conn.client.height * conn.client.pixelFormat.bypp,
      env.alloc n = true) :
    TracksDesktop P env conn.client ↔
      ∀ width height : U16,
        lastDesktopSize conn.client.log = some ((width.val : ℤ), (height.val : ℤ)) →
          announcedSize P env (fresh P requested settings factory) actions =
            some ((width : ℕ), (height : ℕ)) := by
  have hsteady : Steady conn := by
    rw [hconn]
    exact steady_run requested settings factory actions
  have hframe : frameSize conn.client =
      (announcedSize P env (fresh P requested settings factory) actions).getD (0, 0) := by
    rw [hconn]
    exact frameSize_run actions _
  constructor
  · intro htracks width height hlast
    have hsize : frameSize conn.client = ((width : ℕ), (height : ℕ)) := by
      -- The request goes by what ServerInit announced.
      have hrun := (run_framebufferUpdateRequest hsteady.sized false).symm.trans
        ((htracks width height hlast).covers false)
      injection hrun with _ hclient
      have hevents := List.append_cancel_left (congrArg RFBClient.log hclient)
      injection hevents with hevent _
      exact wholeRequest_inj hsteady.sized.1 hsteady.sized.2 width.isLt height.isLt
        (Event.write.inj hevent)
    cases hannounced : announcedSize P env (fresh P requested settings factory) actions with
    | none =>
        -- Without a ServerInit no DesktopSize was handled.
        have hunsized : lastDesktopSize conn.client.log = none := by
          rw [hconn]
          exact (unannounced_run actions unannounced_fresh hannounced).unsized
        exact nomatch hunsized.symm.trans hlast
    | some size =>
        rw [hannounced] at hframe
        exact congrArg some (hframe.symm.trans hsize)
  · intro hsame width height hlast
    rw [hsame width height hlast] at hframe
    rcases Prod.mk.inj hframe with ⟨hwidth, hheight⟩
    refine ⟨fun hawaits rect pixels hx hy hlen => ?_, ?_⟩
    · have hsession : InSession conn.client := by
        have hhandler : conn.client.expectedHandler = .rectangle := congrArg Prod.fst hawaits.armed
        refine ⟨hawaits.stage, ?_⟩
        rw [hhandler]
        exact False.elim
      exact accepts_raw hawaits hsteady.sized hsteady.sound (hsteady.able hsession).2 halloc
        (hwidth ▸ hx) (hheight ▸ hy) hlen
    · rw [← hwidth, ← hheight]
      exact run_framebufferUpdateRequest hsteady.sized

/-- An update with a DesktopSize and a rectangle to come. -/
def resize (width height : U16) : Bytes :=
  packBE 1 0 ++ packBE 1 0 ++ packBE 2 2 ++
    WireRect.header ⟨0, 0, width, height⟩ .pseudoDesktopSize

def resized (width height : U16) : List Action :=
  refreshing ++ [.receive (resize width height), .turn, .turn, .turn]

theorem tracks_iff_onePixel :
    TracksDesktop Pillow.canvas Env.sample ((resized 1 1).foldl (act Pillow.canvas Env.sample)
        (fresh Pillow.canvas none {} {})).client ↔
      ∀ width height : U16,
        lastDesktopSize ((resized 1 1).foldl (act Pillow.canvas Env.sample)
          (fresh Pillow.canvas none {} {})).client.log =
            some ((width.val : ℤ), (height.val : ℤ)) →
          announcedSize Pillow.canvas Env.sample (fresh Pillow.canvas none {} {}) (resized 1 1) =
            some ((width : ℕ), (height : ℕ)) :=
  tracks_iff rfl fun _ _ => rfl

/-- A Raw rectangle of two pixels. -/
def twoPixels : List Action :=
  [.receive (WireRect.header ⟨0, 0, 2, 1⟩ .raw ++ List.replicate 8 0), .turn, .turn, .turn]

/-- After a DesktopSize of two pixels a Raw rectangle of two pixels is refused. -/
theorem not_tracks_grown :
    lastDesktopSize ((resized 2 1).foldl (act Pillow.canvas Env.sample)
        (fresh Pillow.canvas none {} {})).client.log = some (2, 1) ∧
      ((resized 2 1 ++ twoPixels).foldl (act Pillow.canvas Env.sample)
        (fresh Pillow.canvas none {} {})).client.aborted = true ∧
      ¬ TracksDesktop Pillow.canvas Env.sample ((resized 2 1).foldl (act Pillow.canvas Env.sample)
        (fresh Pillow.canvas none {} {})).client := by
  have hlast : lastDesktopSize ((resized 2 1).foldl (act Pillow.canvas Env.sample)
      (fresh Pillow.canvas none {} {})).client.log = some (2, 1) := by decide +kernel
  refine ⟨hlast, by decide +kernel, fun htracks => ?_⟩
  have hsized : RFBClient.Sized ((resized 2 1).foldl (act Pillow.canvas Env.sample)
      (fresh Pillow.canvas none {} {})).client :=
    ⟨by decide +kernel, by decide +kernel⟩
  have hrun := (run_framebufferUpdateRequest hsized false).symm.trans
    ((htracks 2 1 hlast).covers false)
  injection hrun with _ hclient
  have hevents := List.append_cancel_left (congrArg RFBClient.log hclient)
  injection hevents with hevent _
  exact absurd (Event.write.inj hevent) (by decide +kernel)

end VNCDoToolClient

end Vncdotool
