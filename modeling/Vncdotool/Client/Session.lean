import Vncdotool.Client.Connecting

/-!
# Session — a client that can decode what it is sent

`vncConnectionMade` settles on a pixel format that Pillow can read, and from then on the client's
format, its image mode and the mode it has cached for the format agree (`Able`).  Up to then nothing
has been cached.  Both hold of every client that a run can reach.
-/

namespace Vncdotool

open Wire Streaming

/-- A handler of the handshake arms another one, the last of them excepted. -/
theorem Handler.Arms.handshakes_iff {h : Handler} {armed : Handler × ℕ} (harms : h.Arms armed) :
    armed.1.Handshakes ↔ h.Handshakes ∧ h ≠ .serverName := by
  rcases armed with ⟨h', n⟩
  cases h <;> simp only [Arms, ArmsPump, ArmsTile, ArmsConnection, Prod.mk.injEq, List.mem_cons,
    List.not_mem_nil] at harms <;> grind [Handshakes]

namespace VNCDoToolClient

variable {P : Pillow} {env : Env}

/-! ## The loop is left alone -/

instance : Std.Refl (Held (σ := VNCDoToolClient P)) :=
  ⟨Held.refl⟩

instance : IsTrans (RFBClient (VNCDoToolClient P)) Held :=
  ⟨fun _ _ _ => Held.trans⟩

theorem Paints.held {c c' : RFBClient (VNCDoToolClient P)} (h : Paints c c') : Held c c' := by
  rw [h.parser]
  exact ⟨rfl, rfl, rfl, rfl⟩

theorem Slots.held {c c' : RFBClient (VNCDoToolClient P)} (h : Slots c c') : Held c c' := by
  rw [h.parser]
  exact ⟨rfl, rfl, rfl, rfl⟩

theorem held_record (event : Event) : Respects (Held (σ := VNCDoToolClient P)) (record event) :=
  fun _ => ⟨rfl, rfl, rfl, rfl⟩

theorem held_fire (how : Fired) : Respects (Held (σ := VNCDoToolClient P)) (fire how) := by
  intro c
  rw [finalState_fire]
  exact ⟨rfl, rfl, rfl, rfl⟩

theorem held_override (cb : Callback) :
    Respects (Held (σ := VNCDoToolClient P)) (override env cb) := by
  have hpaints (h : Callback.OnlyPaints cb) :
      Respects (Held (σ := VNCDoToolClient P)) (override env cb) :=
    fun c => (paints_override env h c).held
  cases cb with
  | vncConnectionMade =>
      refine respects_vncConnectionMade (fun event _ => held_record event) held_fire (fun pf => ?_)
        fun _ _ => ?_
      · exact respects_ite (fun _ _ => ⟨rfl, rfl, rfl, rfl⟩) fun _ => respects_throw _
      · exact ⟨rfl, rfl, rfl, rfl⟩
  | vncRequestPassword =>
      exact respects_vncRequestPassword (fun event _ => held_record event) held_fire
  | vncAuthFailed reason => exact held_fire .errback
  | vncProtocolError reason => exact held_fire .errback
  | commitUpdate rectangles => exact fun c => (slots_commitUpdate rectangles c).held
  | _ => exact hpaints trivial

theorem runtime_tame : (runtime P env).Tame :=
  fun cb c => (held_override cb).ensures c

/-! ## The raw mode -/

/-- What `_rawModeFor` has cached is the mode of a format that the client had, or has. -/
def Cached (pf : PixelFormat) (app : VNCDoToolClient P) : Prop :=
  ∀ id, app.rawModeFormat = some id → id ≤ app.formatId ∧
    (id = app.formatId → ∃ mode, pf.rawMode = .ok mode ∧ app.rawMode = some mode)

/-- Pixels of the format can be read. -/
structure Reads (pf : PixelFormat) (app : VNCDoToolClient P) : Prop where
  imageMode : pf.rawMode = .ok app.imageMode
  cached : Cached pf app

/-- The pixels of the client's format can be read. -/
abbrev Able (c : RFBClient (VNCDoToolClient P)) : Prop :=
  Reads c.pixelFormat c.app

/-- The attributes that `Reads` is about are as they were. -/
theorem Reads.of_eq {pf : PixelFormat} {app app' : VNCDoToolClient P} (h : Reads pf app)
    (himage : app'.imageMode = app.imageMode) (hid : app'.formatId = app.formatId)
    (hcached : app'.rawModeFormat = app.rawModeFormat) (hmode : app'.rawMode = app.rawMode) :
    Reads pf app' := by
  refine ⟨by rw [himage]; exact h.imageMode, ?_⟩
  unfold Cached
  rw [hid, hcached, hmode]
  exact h.cached

theorem Able.of_eq {c c' : RFBClient (VNCDoToolClient P)} (h : Able c)
    (hformat : c'.pixelFormat = c.pixelFormat) (himage : c'.app.imageMode = c.app.imageMode)
    (hid : c'.app.formatId = c.app.formatId)
    (hcached : c'.app.rawModeFormat = c.app.rawModeFormat) (hmode : c'.app.rawMode = c.app.rawMode) :
    Able c' := by
  unfold Able
  rw [hformat]
  exact Reads.of_eq h himage hid hcached hmode

/-- From `c` to `c'` the client stays able. -/
def Stays (c c' : RFBClient (VNCDoToolClient P)) : Prop :=
  c'.app.requestedPixelFormat = c.app.requestedPixelFormat ∧
    (Negotiable c.app.requestedPixelFormat → Able c → Able c')

theorem Stays.refl (c : RFBClient (VNCDoToolClient P)) : Stays c c :=
  ⟨rfl, fun _ hable => hable⟩

theorem Stays.trans {c c₁ c₂ : RFBClient (VNCDoToolClient P)} (h : Stays c c₁)
    (h' : Stays c₁ c₂) : Stays c c₂ := by
  refine ⟨h'.1.trans h.1, fun hnegotiable hable => ?_⟩
  have hnegotiable₁ : Negotiable c₁.app.requestedPixelFormat := by
    rw [h.1]
    exact hnegotiable
  exact h'.2 hnegotiable₁ (h.2 hnegotiable hable)

instance : Std.Refl (Stays (P := P)) :=
  ⟨Stays.refl⟩

instance : IsTrans (RFBClient (VNCDoToolClient P)) Stays :=
  ⟨fun _ _ _ => Stays.trans⟩

theorem stays_record (event : Event) : Respects (Stays (P := P)) (record event) :=
  fun _ => ⟨rfl, fun _ hable => hable.of_eq rfl rfl rfl rfl rfl⟩

theorem stays_fire (how : Fired) : Respects (Stays (P := P)) (fire how) := by
  intro c
  rw [finalState_fire]
  exact ⟨rfl, fun _ hable => hable.of_eq rfl rfl rfl rfl rfl⟩

theorem Slots.stays {c c' : RFBClient (VNCDoToolClient P)} (h : Slots c c') : Stays c c' := by
  have happ := h.app
  have hparser := h.parser
  refine ⟨by rw [happ], fun _ hable => hable.of_eq (by rw [hparser]) ?_ ?_ ?_ ?_⟩
  · rw [happ]
  · rw [happ]
  · rw [happ]
  · rw [happ]

/-- The format that `setImageMode` settles on can be read. -/
theorem able_setImageMode {c : RFBClient (VNCDoToolClient P)}
    (hnegotiable : Negotiable c.app.requestedPixelFormat) (hcached : Cached c.pixelFormat c.app) :
    Ensures (setImageMode vncProtocolError) c
      (fun _ c' => c'.app.requestedPixelFormat = c.app.requestedPixelFormat ∧ Able c')
      fun _ _ => False := by
  cases halternative : alternative c with
  | none =>
      cases hmode : c.pixelFormat.rawMode with
      | ok mode =>
          refine (ensures_of_run_eq (setImageMode_native halternative hmode)).2 ?_
          exact ⟨rfl, hmode, hcached⟩
      | error exc =>
          -- The client would have chosen another format.
          unfold alternative at halternative
          rw [hmode] at halternative
          cases hrequested : c.app.requestedPixelFormat with
          | some pf =>
              rw [hrequested] at halternative
              cases halternative
          | none =>
              rw [hrequested] at halternative
              dsimp only at halternative
              split_ifs at halternative
  | some pf =>
      rcases (alternative_some halternative).1 hnegotiable with ⟨hpackable, hok⟩
      cases hmode : pf.rawMode with
      | error exc =>
          rw [hmode] at hok
          cases hok
      | ok mode =>
          refine (ensures_of_run_eq (setImageMode_asked halternative hmode)).2 ?_
          refine ensures_bind.2 (ensures_ite.2 ⟨fun _ => ?_, fun hwide => absurd hpackable hwide⟩)
          refine ⟨rfl, hmode, fun id hid => ?_⟩
          -- What is cached is the mode of an older format.
          have hle : id ≤ c.app.formatId := (hcached id hid).1
          exact ⟨hle.trans (Nat.le_succ _), fun heq => absurd heq (Nat.ne_of_lt (Nat.lt_succ_of_le hle))⟩

/-- A client that has become ready is able. -/
theorem able_vncConnectionMade {c : RFBClient (VNCDoToolClient P)}
    (hnegotiable : Negotiable c.app.requestedPixelFormat) (hcached : Cached c.pixelFormat c.app) :
    Able (finalState (vncConnectionMade.run c)) := by
  refine ensures_finalState.1 (ensures_bind.2 (Ensures.mono (able_setImageMode hnegotiable hcached)
    ?_ fun _ _ => False.elim))
  rintro _ c₁ ⟨hrequested, hable⟩
  have hrest : Respects Stays (do
      RFBClient.setEncodings ((encodings (← get).app.factory).map Encoding.value)
      clientConnectionMade : Py (VNCDoToolClient P) Unit) := by
    refine respects_bind respects_get fun c => ?_
    have hencodings := respects_setEncodings fun event _ => stays_record (P := P) event
    exact respects_bind (hencodings _) fun _ => stays_fire .callback
  have hnegotiable₁ : Negotiable c₁.app.requestedPixelFormat := by
    rw [hrequested]
    exact hnegotiable
  exact ensures_finalState.2 ((hrest c₁).2 hnegotiable₁ hable)

/-- `_rawModeFor` answers with the mode of the client's format, and caches it. -/
theorem ensures_rawModeFor_cached {c : RFBClient (VNCDoToolClient P)} {mode : RawMode}
    (hcached : Cached c.pixelFormat c.app) (hmode : c.pixelFormat.rawMode = .ok mode) :
    Ensures (rawModeFor c.app.formatId c.pixelFormat) c
      (fun answer c' => answer = some mode ∧
        c' = { c with
          app :=
            { c.app with
              rawModeFormat := some c.app.formatId
              rawMode := some mode } })
      fun _ _ => False := by
  unfold rawModeFor
  rw [ensures_bind, ensures_get]
  refine ensures_ite.2 ⟨fun _ => ?_, fun hsame => ?_⟩
  -- The mode of a new format is looked up.
  · rw [hmode]
    exact ⟨rfl, rfl⟩
  · have hid : c.app.rawModeFormat = some c.app.formatId := not_not.1 hsame
    rcases (hcached _ hid).2 rfl with ⟨mode', hmode', hcached'⟩
    have hsame_mode : mode' = mode := Except.ok.inj (hmode'.symm.trans hmode)
    have hraw : c.app.rawMode = some mode := hcached'.trans (congrArg some hsame_mode)
    refine ⟨hraw, ?_⟩
    rw [← hid, ← hraw]

/-- `_rawModeFor` answers with the image mode, and an able client stays able. -/
theorem ensures_rawModeFor {c : RFBClient (VNCDoToolClient P)} (hable : Able c) :
    Ensures (rawModeFor c.app.formatId c.pixelFormat) c
      (fun mode c' => mode = some c.app.imageMode ∧
        c' = { c with
          app :=
            { c.app with
              rawModeFormat := some c.app.formatId
              rawMode := some c.app.imageMode } })
      fun _ _ => False :=
  ensures_rawModeFor_cached hable.cached hable.imageMode

/-! ## The handshake -/

/-- From `c` to `c'` no pixels are decoded. -/
structure Undecoded (c c' : RFBClient (VNCDoToolClient P)) : Prop where
  requested : c'.app.requestedPixelFormat = c.app.requestedPixelFormat
  rawModeFormat : c'.app.rawModeFormat = c.app.rawModeFormat

instance : Std.Refl (Undecoded (P := P)) :=
  ⟨fun _ => ⟨rfl, rfl⟩⟩

instance : IsTrans (RFBClient (VNCDoToolClient P)) Undecoded :=
  ⟨fun _ _ _ h h' => ⟨h'.requested.trans h.requested, h'.rawModeFormat.trans h.rawModeFormat⟩⟩

theorem undecoded_fire (how : Fired) : Respects (Undecoded (P := P)) (fire how) := by
  intro c
  rw [finalState_fire]
  exact ⟨rfl, rfl⟩

theorem undecoded_vncConnectionMade : Respects (Undecoded (P := P)) vncConnectionMade := by
  refine respects_vncConnectionMade (fun _ _ _ => ⟨rfl, rfl⟩) undecoded_fire (fun pf => ?_)
    fun _ _ => ⟨rfl, rfl⟩
  exact respects_ite (fun _ _ => ⟨rfl, rfl⟩) fun _ => respects_throw _

theorem keeps_undecoded : Keeps (Undecoded (P := P)) where
  refl := refl_of Undecoded
  trans _ _ _ := trans_of Undecoded
  write _ _ := ⟨rfl, rfl⟩
  loseConnection _ := ⟨rfl, rfl⟩
  state c c' _ happ _ := ⟨by rw [happ], by rw [happ]⟩

theorem told_undecoded : Told (runtime P env) Undecoded := by
  intro cb htells
  refine respects_bind (fun _ => ⟨rfl, rfl⟩) fun _ => ?_
  change Respects Undecoded (override env cb)
  cases cb with
  | vncConnectionMade => exact undecoded_vncConnectionMade
  | vncRequestPassword =>
      exact respects_vncRequestPassword (fun _ _ _ => ⟨rfl, rfl⟩) undecoded_fire
  | vncAuthFailed reason => exact undecoded_fire .errback
  | vncProtocolError reason => exact undecoded_fire .errback
  | _ => exact htells.elim

theorem announced_undecoded : Announced (Undecoded (P := P)) :=
  fun c c' _ happ _ => ⟨by rw [happ], by rw [happ]⟩

/-! ## The callbacks -/

theorem stays_modifyApp {f : VNCDoToolClient P → VNCDoToolClient P}
    (h : ∀ c : RFBClient (VNCDoToolClient P), Stays c { c with app := f c.app }) :
    Respects Stays (modifyApp f) :=
  h

theorem stays_liftExcept {α : Type} (x : Except PyError α) :
    Respects Stays (liftExcept x : Py (VNCDoToolClient P) α) := by
  cases x with
  | ok a => exact respects_pure a
  | error exc => exact respects_throw exc

theorem stays_drawCursor : Respects (Stays (P := P)) drawCursor := by
  refine stays_modifyApp fun c => ?_
  dsimp only
  split
  · exact ⟨rfl, fun _ hable => hable.of_eq rfl rfl rfl rfl rfl⟩
  · exact Stays.refl c

/-- Pixels in the client's format are read in the image mode. -/
theorem stays_updateRectangle (x y width height : ℤ) (data : Bytes)
    (c : RFBClient (VNCDoToolClient P)) :
    Stays c (finalState ((updateRectangle x y width height data c.pixelFormat).run c)) := by
  have hkept := paints_updateRectangle x y width height data c.pixelFormat c
  refine ⟨hkept.app.requestedPixelFormat, fun hnegotiable hable => ?_⟩
  refine ensures_finalState.1 (ensures_ite.2 ⟨fun _ => hable, fun _ => ?_⟩)
  refine ensures_bind.2 (ensures_bind.2 (Ensures.mono (ensures_rawModeFor hable) ?_
    fun _ _ => False.elim))
  rintro _ c₁ ⟨rfl, rfl⟩
  have hable₁ : Able { c with
      app :=
        { c.app with
          rawModeFormat := some c.app.formatId
          rawMode := some c.app.imageMode } } := by
    refine ⟨hable.imageMode, fun id hid => ⟨(Option.some.inj hid).symm.le, fun _ => ?_⟩⟩
    exact ⟨c.app.imageMode, hable.imageMode, rfl⟩
  have hpaint : Respects (Stays (P := P)) (do
      let update ← liftExcept (P.frombytes c.app.imageMode (width, height) data)
      modify fun c =>
        let paste := painting (c.width, c.height) c.app.screen update x y width height
        { c with
          app :=
            { c.app with screen := some paste.result, pastes := c.app.pastes ++ [paste] } }
      drawCursor) := by
    refine respects_bind (stays_liftExcept _) fun update => ?_
    refine respects_bind (fun c => ?_) fun _ => stays_drawCursor
    exact ⟨rfl, fun _ hable => hable.of_eq rfl rfl rfl rfl rfl⟩
  exact ensures_finalState.2 ((hpaint _).2 hnegotiable hable₁)

theorem stays_fillRectangle (x y width height : ℤ) (color : Option Bytes) :
    Respects (Stays (P := P)) (fillRectangle x y width height color) := by
  intro c
  cases color with
  | none => exact Stays.refl c
  | some color =>
      let data : Bytes := repeatColor color width height
      let c₁ : RFBClient (VNCDoToolClient P) :=
        { c with
          log := c.log ++ [.callback (.updateRectangle x y width height data c.pixelFormat)] }
      have hrecorded : Stays c c₁ := stays_record _ c
      exact hrecorded.trans (stays_updateRectangle x y width height data c₁)

theorem stays_updateCursor (x y width height : ℤ) (image mask : Bytes) :
    Respects (Stays (P := P)) (updateCursor x y width height image mask) := by
  have hcursor (c : RFBClient (VNCDoToolClient P)) : Respects (Stays (P := P)) (do
      let cursor ← liftExcept (P.frombytes c.app.imageMode (width, height) image)
      modifyApp fun app => { app with cursor := some cursor }
      let cmask ← liftExcept (P.frombits (width, height) mask)
      modifyApp fun app => { app with cmask := some cmask, cfocus := (x, y) }
      drawCursor : Py (VNCDoToolClient P) Unit) := by
    refine respects_bind (stays_liftExcept _) fun cursor => ?_
    refine respects_bind (stays_modifyApp fun c => ?_) fun _ => ?_
    · exact ⟨rfl, fun _ hable => hable.of_eq rfl rfl rfl rfl rfl⟩
    · refine respects_bind (stays_liftExcept _) fun cmask => ?_
      refine respects_bind (stays_modifyApp fun c => ?_) fun _ => stays_drawCursor
      exact ⟨rfl, fun _ hable => hable.of_eq rfl rfl rfl rfl rfl⟩
  refine respects_bind respects_get fun c => respects_ite (fun _ => respects_pure _) fun _ => ?_
  refine respects_ite (fun _ => ?_) fun _ => hcursor c
  refine respects_bind (stays_modifyApp fun c => ?_) fun _ => hcursor c
  exact ⟨rfl, fun _ hable => hable.of_eq rfl rfl rfl rfl rfl⟩

theorem stays_updateDesktopSize (width height : ℤ) :
    Respects (Stays (P := P)) (updateDesktopSize width height) := by
  have hscreen (screen : VNCDoToolClient P → Option P.Image) :
      Respects (Stays (P := P)) (modifyApp fun app => { app with screen := screen app }) :=
    fun _ => ⟨rfl, fun _ hable => hable.of_eq rfl rfl rfl rfl rfl⟩
  refine respects_ite (fun _ => respects_bind (respects_throw _) fun _ => ?_) fun _ => ?_
  · exact hscreen _
  · exact hscreen _

theorem stays_call (c : RFBClient (VNCDoToolClient P)) {cb : Callback} (hcb : cb.Regular c) :
    Stays c (finalState (((runtime P env).call cb).run c)) := by
  have hcalled : Stays c { c with log := c.log ++ [.callback cb] } := stays_record _ c
  refine hcalled.trans ?_
  change Stays _ (finalState ((override env cb).run { c with log := c.log ++ [.callback cb] }))
  cases cb with
  | vncConnectionMade => exact hcb.elim
  | vncRequestPassword => exact hcb.elim
  | vncAuthFailed reason => exact hcb.elim
  | vncProtocolError reason => exact hcb.elim
  | commitUpdate rectangles => exact (slots_commitUpdate rectangles _).stays
  | updateRectangle x y width height data pf =>
      have hpf : pf = c.pixelFormat := hcb
      subst hpf
      exact stays_updateRectangle x y width height data
        { c with log := c.log ++ [.callback (.updateRectangle x y width height data c.pixelFormat)] }
  | fillRectangle x y width height color => exact stays_fillRectangle _ _ _ _ _ _
  | updateCursor x y width height image mask => exact stays_updateCursor _ _ _ _ _ _ _
  | updateDesktopSize width height => exact stays_updateDesktopSize _ _ _
  | _ => exact Stays.refl _

theorem maintains_stays : Maintains (runtime P env) Stays where
  refl := Stays.refl
  trans _ _ _ := Stays.trans
  call c _ hcb := stays_call c hcb
  write data := stays_record _
  loseConnection := stays_record _
  state c c' _ happ hframe := by
    have hformat : c'.pixelFormat = c.pixelFormat := congrArg (fun frame => frame.2.2) hframe
    refine ⟨by rw [happ], fun _ hable => hable.of_eq hformat ?_ ?_ ?_ ?_⟩
    · rw [happ]
    · rw [happ]
    · rw [happ]
    · rw [happ]

theorem told_stays : Told (runtime P env) Stays := by
  intro cb htells
  refine respects_bind (stays_record _) fun _ => ?_
  change Respects Stays (override env cb)
  cases cb with
  | vncConnectionMade =>
      intro c
      refine ⟨(undecoded_vncConnectionMade c).requested, fun hnegotiable hable => ?_⟩
      exact able_vncConnectionMade hnegotiable hable.cached
  | vncRequestPassword =>
      exact respects_vncRequestPassword (fun event _ => stays_record event) stays_fire
  | vncAuthFailed reason => exact stays_fire .errback
  | vncProtocolError reason => exact stays_fire .errback
  | _ => exact htells.elim

/-! ## Every reachable client -/

/-- Past its greeting and the handshake. -/
def InSession (c : RFBClient (VNCDoToolClient P)) : Prop :=
  c.stage = .handleExpected ∧ ¬ c.expectedHandler.Handshakes

/-- What every step keeps: nothing is decoded before the session, and the client is able in it. -/
structure Steady (conn : Connection (VNCDoToolClient P)) : Prop where
  sized : conn.client.Sized
  sound : Sound conn.client.app
  uncached : ¬ InSession conn.client → conn.client.app.rawModeFormat = none
  able : InSession conn.client →
    Negotiable conn.client.app.requestedPixelFormat ∧ Able conn.client

section Steps

variable {conn conn' : Connection (VNCDoToolClient P)}

/-- A client whose format is not negotiable never becomes ready: the Deferred is fired twice. -/
theorem negotiable_vncConnectionMade (c : RFBClient (VNCDoToolClient P)) :
    Ensures vncConnectionMade c (fun _ _ => Negotiable c.app.requestedPixelFormat)
      fun _ _ => True := by
  refine ensures_bind.2 (Ensures.mono (ensures_setImageMode c) ?_ fun _ _ _ => trivial)
  intro _ c₁ hmode
  refine ensures_bind.2 (ensures_bind.2 (Ensures.mono (ensures_setEncodings _ _) ?_
    fun _ _ => False.elim))
  intro _ c₂ hencodings
  rcases hmode with ⟨hnegotiable, _⟩ | ⟨_, hfirst, hfailed⟩
  · refine Ensures.mono (ensures_finalState.2 trivial) ?_ fun _ _ => id
    exact fun _ _ _ => hnegotiable
  · have hfired : c₂.app.factory.deferred ≠ [] := by
      rw [hencodings.deferred, hfailed.deferred, hfirst]
      exact List.cons_ne_nil _ _
    refine ensures_bind.2 (ensures_bind.2 (ensures_ite.2 ⟨fun _ => trivial, fun hno => ?_⟩))
    exact absurd hfired hno

theorem able_serverName (block : Bytes) {c : RFBClient (VNCDoToolClient P)}
    (hcached : Cached c.pixelFormat c.app) :
    Ensures (RFBClient.handleServerName (runtime P env) block) c
      (fun _ c' => Negotiable c'.app.requestedPixelFormat ∧ Able c') fun _ _ => True := by
  let c₁ : RFBClient (VNCDoToolClient P) :=
    { c with name := block, log := c.log ++ [.callback .vncConnectionMade] }
  have hmade : Ensures vncConnectionMade c₁
      (fun _ c' => Negotiable c'.app.requestedPixelFormat ∧ Able c') fun _ _ => True := by
    have hundecoded := undecoded_vncConnectionMade.ensures c₁
    by_cases hnegotiable : Negotiable c₁.app.requestedPixelFormat
    · have hable := ensures_finalState.2 (able_vncConnectionMade hnegotiable hcached)
      refine Ensures.mono (hable.and hundecoded) ?_ fun _ _ _ => trivial
      rintro _ c₂ ⟨hable, hundecoded⟩
      rw [hundecoded.requested]
      exact ⟨hnegotiable, hable⟩
    · refine Ensures.mono (negotiable_vncConnectionMade c₁) ?_ fun _ _ => id
      exact fun _ _ hyes => absurd hyes hnegotiable
  refine ensures_bind.2 (ensures_bind.2 (ensures_bind.2 ?_))
  change Ensures vncConnectionMade c₁ _ _
  refine Ensures.mono hmade ?_ fun _ _ => id
  rintro _ c₂ ⟨hnegotiable, hable⟩
  exact ⟨hnegotiable, hable.of_eq rfl rfl rfl rfl rfl⟩

/-- In the handshake nothing is decoded, and its last handler makes the client able. -/
theorem Steady.handshake_turn (h : Steady conn) (hsession : ¬ InSession conn.client)
    (hiterate : conn.iterate (runtime P env) = some conn') :
    Undecoded conn.client conn'.client ∧ (InSession conn'.client →
      Negotiable conn'.client.app.requestedPixelFormat ∧ Able conn'.client) := by
  rcases Connection.client_iterate hiterate with ⟨handler, block, hpending, hclient⟩
  rcases Connection.pending_eq_some_iff.1 hpending with ⟨⟨hstage, _⟩, hhandler, _⟩
  have hhandshakes : handler.Handshakes := by
    by_contra hnot
    exact hsession ⟨hstage, hhandler ▸ hnot⟩
  refine ⟨?_, fun hsession' => ?_⟩
  · rw [hclient]
    exact keeps_undecoded.run_handshake hhandshakes (fun _ => told_undecoded)
      fun _ => announced_undecoded
  · rcases Connection.turn_cases runtime_tame hiterate with
      ⟨handler', block', hpending', hmoved, _⟩
    cases hpending.symm.trans hpending'
    -- A turn that leaves the loop armed as it was has not ended the handshake.
    have hsame (harmed : conn'.client.armed = conn.client.armed) : False := by
      have heq : conn'.client.expectedHandler = conn.client.expectedHandler :=
        congrArg Prod.fst harmed
      refine hsession'.2 ?_
      rw [heq, ← hhandler]
      exact hhandshakes
    rcases hmoved with ⟨hraised, hmoves⟩ | ⟨_, hraises⟩
    · rcases hmoves.armed with ⟨_, harms⟩ | ⟨_, _, harmed⟩ | ⟨_, _, harmed⟩
      · have hname : handler = .serverName := by
          by_contra hne
          exact hsession'.2 (harms.handshakes_iff.2 ⟨hhandshakes, hne⟩)
        subst hname
        refine Connection.of_iterate hpending hiterate hraised (able_serverName block ?_)
        exact fun id hid => nomatch (h.uncached hsession).symm.trans hid
      · exact (hsame harmed).elim
      · exact (hsame harmed).elim
    · exact (hsame hraises.armed).elim

/-- In a session the client stays in it, and able. -/
theorem session_turn (hsession : InSession conn.client)
    (hiterate : conn.iterate (runtime P env) = some conn') :
    InSession conn'.client ∧ Stays conn.client conn'.client := by
  rcases Connection.turn_cases runtime_tame hiterate with ⟨handler, block, hpending, hmoved, _⟩
  have hhandler := (Connection.pending_eq_some_iff.1 hpending).2.1
  have hsame (hstage : conn'.client.stage = conn.client.stage)
      (harmed : conn'.client.armed = conn.client.armed) : InSession conn'.client := by
    have heq : conn'.client.expectedHandler = conn.client.expectedHandler :=
      congrArg Prod.fst harmed
    exact ⟨hstage.trans hsession.1, heq ▸ hsession.2⟩
  refine ⟨?_, ?_⟩
  · rcases hmoved with ⟨_, hmoves⟩ | ⟨_, hraises⟩
    · rcases hmoves.armed with ⟨_, harms⟩ | ⟨_, _, harmed⟩ | ⟨_, _, harmed⟩
      · refine ⟨hmoves.stage.trans hsession.1, fun hhandshakes => hsession.2 ?_⟩
        rw [← hhandler]
        exact (harms.handshakes_iff.1 hhandshakes).1
      · exact hsame hmoves.stage harmed
      · exact hsame hmoves.stage harmed
    · exact hsame hraises.stage hraises.armed
  · refine maintains_stays.iterate_at hiterate (fun _ _ _ _ => told_stays) (fun hinit => ?_)
      (Or.inr told_stays)
    refine absurd trivial (fun htrivial => hsession.2 ?_)
    rw [hinit]
    exact htrivial

theorem Steady.turn (h : Steady conn) (hiterate : conn.iterate (runtime P env) = some conn') :
    Steady conn' := by
  rcases maintains_moves.iterate told_moves announced_moves hiterate h.sized h.sound with
    ⟨hsized, hmoved⟩
  by_cases hsession : InSession conn.client
  · rcases session_turn hsession hiterate with ⟨hsession', hrequested, hstays⟩
    rcases h.able hsession with ⟨hnegotiable, hable⟩
    refine ⟨hsized, h.sound.moved hmoved, fun hnot => absurd hsession' hnot, fun _ => ⟨?_, ?_⟩⟩
    · rw [hrequested]
      exact hnegotiable
    · exact hstays hnegotiable hable
  · rcases h.handshake_turn hsession hiterate with ⟨hundecoded, hable⟩
    refine ⟨hsized, h.sound.moved hmoved, fun _ => ?_, hable⟩
    rw [hundecoded.rawModeFormat]
    exact h.uncached hsession

theorem Steady.enter (h : Steady conn) (data : Bytes) :
    Steady (conn.enter (runtime P env) data) := by
  rcases keeps_moves.enter told_moves conn data h.sized h.sound with ⟨hsized, hmoved⟩
  have hundecoded : Undecoded conn.client (conn.enter (runtime P env) data).client :=
    keeps_undecoded.enter told_undecoded conn data
  have hkept (hclient : (conn.enter (runtime P env) data).client = conn.client) :
      Steady (conn.enter (runtime P env) data) := by
    refine ⟨hsized, h.sound.moved hmoved, ?_, ?_⟩
    · rw [hclient]
      exact h.uncached
    · rw [hclient]
      exact h.able
  rcases @Connection.enter_cases _ (runtime P env) conn data with
    ⟨_, heq⟩ | ⟨_, _, heq⟩ | ⟨_, hstage, heq⟩
  · exact hkept (by rw [heq])
  · exact hkept (by rw [heq])
  -- The greeting is followed by the handshake.
  · have hsession : ¬ InSession conn.client := fun hsession => by
      have hexpected := hsession.1
      rw [hstage] at hexpected
      exact nomatch hexpected
    have hsession' : ¬ InSession (conn.enter (runtime P env) data).client := by
      rw [heq]
      rcases Connection.greet_cases (@runtime_tame P env)
        { conn with packet := conn.packet ++ data, raised := none } with
        ⟨_, _, harmed, _⟩ | ⟨hheld, _⟩
      · intro hsession
        have hhandshakes : ∀ armed ∈ Connection.greeted, armed.1.Handshakes := by
          intro armed hmem
          rcases List.mem_pair.1 hmem with rfl | rfl
          · trivial
          · trivial
        exact hsession.2 (hhandshakes _ harmed)
      · intro hsession
        have hinitial : conn.client.stage = .handleExpected := hheld.stage.symm.trans hsession.1
        rw [hstage] at hinitial
        exact nomatch hinitial
    refine ⟨hsized, h.sound.moved hmoved, fun _ => ?_, fun hnot => absurd hnot hsession'⟩
    rw [hundecoded.rawModeFormat]
    exact h.uncached hsession

theorem Steady.call (h : Steady conn) (operation : Operation) :
    Steady (act P env conn (.call operation)) := by
  have hcalled := @called_operation P conn.client h.sized operation
  have hslots := slots_operation operation conn.client
  have happ := hslots.app
  have hheld := hslots.held
  have hsession : InSession (act P env conn (.call operation)).client ↔ InSession conn.client := by
    have hhandler : (finalState (operation.run.run conn.client)).expectedHandler =
        conn.client.expectedHandler := congrArg Prod.fst hheld.armed
    unfold InSession act
    dsimp only
    rw [hheld.stage, hhandler]
  refine ⟨hcalled.sized, hcalled.sound h.sound, fun hnot => ?_, fun hin => ?_⟩
  · change (finalState (operation.run.run conn.client)).app.rawModeFormat = none
    rw [happ]
    exact h.uncached (fun hin => hnot (hsession.2 hin))
  · rcases h.able (hsession.1 hin) with ⟨hnegotiable, hable⟩
    refine ⟨?_, hslots.stays.2 hnegotiable hable⟩
    change Negotiable (finalState (operation.run.run conn.client)).app.requestedPixelFormat
    rw [happ]
    exact hnegotiable

/-- Every action keeps a client steady. -/
theorem Steady.act (h : Steady conn) (action : Action) :
    Steady (VNCDoToolClient.act P env conn action) := by
  cases action with
  | call operation => exact h.call operation
  | receive data => exact h.enter data
  | turn =>
      unfold VNCDoToolClient.act
      cases hiterate : conn.iterate (runtime P env) with
      | none => exact h
      | some conn' => exact h.turn hiterate

end Steps

/-- Whatever happens to a client. -/
theorem steady_run (requested : Option PixelFormat) (settings : VNCDoToolFactory)
    (factory : Factory) (actions : List Action) :
    Steady (actions.foldl (act P env) (fresh P requested settings factory)) := by
  have hfresh : Steady (fresh P requested settings factory) := by
    refine ⟨⟨Nat.two_pow_pos 16, Nat.two_pow_pos 16⟩, ⟨nofun, List.nodup_nil, nofun⟩, fun _ => rfl,
      fun hsession => ?_⟩
    exact nomatch hsession.1
  suffices h : ∀ conn : Connection (VNCDoToolClient P), Steady conn →
      Steady (actions.foldl (act P env) conn) from h _ hfresh
  induction actions with
  | nil => exact fun _ hconn => hconn
  | cons action actions ih => exact fun conn hconn => ih _ (hconn.act action)

end VNCDoToolClient

end Vncdotool
