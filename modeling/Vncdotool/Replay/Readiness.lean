import Vncdotool.Client.Session
import Vncdotool.Client.Connecting
import Vncdotool.Replay.Admission

/-!
# Readiness — a `VNCDoToolClient` connected to the replay of a stripped recording

Whoever recorded a session, with whatever credentials, a client that chooses the same version is let
in by the replay without any, and its Deferred is fired: whatever the pieces are in which the two
hear each other.  It is handed no framebuffer until an operation of it asks for one, and then
the rest of the recording.
-/

namespace Vncdotool

open Wire Streaming

namespace VNCDoToolClient

open Connection

variable {P : Pillow} {env : Env}

/-! ## The log -/

theorem grows_events {c c' : RFBClient (VNCDoToolClient P)} {events : List Event}
    (h : c'.log = c.log ++ events) : Grows c c' := by
  unfold Grows
  rw [h]
  exact List.prefix_append _ _

theorem grows_same {c c' : RFBClient (VNCDoToolClient P)} (h : c'.log = c.log) : Grows c c' := by
  unfold Grows
  rw [h]

theorem grows_fire (how : Fired) : Respects (Grows (σ := VNCDoToolClient P)) (fire how) := by
  intro c
  rw [finalState_fire]
  exact grows_same rfl

theorem runtime_logs : (runtime P env).Logs := by
  intro cb
  change Respects Grows (override env cb)
  have hpaints (h : Callback.OnlyPaints cb) :
      Respects (Grows (σ := VNCDoToolClient P)) (override env cb) := by
    intro c
    rcases (paints_override env h c).log with ⟨events, hlog, _⟩
    exact grows_events hlog
  cases cb with
  | vncConnectionMade =>
      refine respects_vncConnectionMade (fun event _ => grows_record event) grows_fire
        (fun pf => ?_) fun _ _ => grows_same rfl
      refine respects_ite (fun _ => ?_) fun _ => respects_throw _
      exact respects_bind (grows_record _) fun _ => respects_bind (fun _ => grows_same rfl)
        fun _ _ => grows_same rfl
  | vncRequestPassword =>
      exact respects_vncRequestPassword (fun event _ => grows_record event) grows_fire
  | vncAuthFailed reason => exact grows_fire .errback
  | vncProtocolError reason => exact grows_fire .errback
  | commitUpdate rectangles =>
      intro c
      rcases (slots_commitUpdate rectangles c).log with ⟨events, hlog, _⟩
      exact grows_events hlog
  | _ => exact hpaints trivial

/-! ## What is said on becoming ready -/

/-- From `c` to `c'` messages were written that ask for no framebuffer. -/
def SetsUp (c c' : RFBClient (VNCDoToolClient P)) : Prop :=
  ∃ events, c'.log = c.log ++ events ∧ (∀ event ∈ events, ∃ data, event = .write data) ∧
    Passes (written events) []

theorem SetsUp.refl (c : RFBClient (VNCDoToolClient P)) : SetsUp c c :=
  ⟨[], (List.append_nil _).symm, fun _ hmem => absurd hmem List.not_mem_nil, Passes.refl []⟩

theorem SetsUp.trans {c c₁ c₂ : RFBClient (VNCDoToolClient P)} (h : SetsUp c c₁)
    (h' : SetsUp c₁ c₂) : SetsUp c c₂ := by
  rcases h with ⟨events, hlog, hwrites, hpasses⟩
  rcases h' with ⟨events', hlog', hwrites', hpasses'⟩
  refine ⟨events ++ events', by rw [hlog', hlog, List.append_assoc], ?_, ?_⟩
  · intro event hmem
    rcases List.mem_append.1 hmem with hmem | hmem
    · exact hwrites event hmem
    · exact hwrites' event hmem
  · rw [written_append]
    exact (hpasses.append _).trans hpasses'

theorem passes_of_measured {kind : MsgC2S} {b : Bytes} (h : Measured kind b)
    (hkind : kind ≠ .framebufferUpdateRequest) : Passes b [] := by
  refine Passes.pass h.complete ?_ ?_
  · rw [h.kind]
    exact fun heq => hkind (Option.some.inj heq)
  · rw [List.drop_length]
    exact Passes.refl []

/-- From `c` to `c'` nothing was done but to write. -/
def OnlyWrites (c c' : RFBClient (VNCDoToolClient P)) : Prop :=
  ∃ events, c' = { c with log := c.log ++ events } ∧ ∀ event ∈ events, ∃ data, event = .write data

instance : Std.Refl (OnlyWrites (P := P)) :=
  ⟨fun c => ⟨[], by rw [List.append_nil], fun _ hmem => absurd hmem List.not_mem_nil⟩⟩

instance : IsTrans (RFBClient (VNCDoToolClient P)) OnlyWrites := by
  refine ⟨?_⟩
  rintro c _ _ ⟨events, rfl, hwrites⟩ ⟨events', rfl, hwrites'⟩
  refine ⟨events ++ events', by rw [← List.append_assoc], fun event hmem => ?_⟩
  rcases List.mem_append.1 hmem with hmem | hmem
  · exact hwrites event hmem
  · exact hwrites' event hmem

theorem onlyWrites_write (data : Bytes) : Respects (OnlyWrites (P := P)) (write data) :=
  fun _ => ⟨[.write data], rfl, fun _ hmem => ⟨data, List.mem_singleton.1 hmem⟩⟩

theorem onlyWrites_setEncodings (encodings : List ℤ) :
    Respects (OnlyWrites (P := P)) (RFBClient.setEncodings encodings) := by
  have hwrites (offer : List ℤ) : Respects OnlyWrites (offer.forM fun encoding =>
      if RFBClient.PacksSigned encoding then write (packBE 4 (u32OfInt encoding))
      else throw .structError : Py (VNCDoToolClient P) Unit) := by
    induction offer with
    | nil => exact respects_pure _
    | cons encoding offer ih =>
        refine respects_bind ?_ fun _ => ih
        exact respects_ite (fun _ => onlyWrites_write _) fun _ => respects_throw _
  exact respects_ite (fun _ => respects_bind (onlyWrites_write _) fun _ => hwrites _)
    fun _ => respects_throw _

/-- The encodings are offered in one message. -/
theorem setsUp_setEncodings (factory : VNCDoToolFactory) (c : RFBClient (VNCDoToolClient P)) :
    Ensures (RFBClient.setEncodings ((encodings factory).map Encoding.value)) c
      (fun _ c' => SetsUp c c' ∧ OnlyWrites c c') fun _ _ => False := by
  have hmessage := ensures_send (.setEncodings ((encodings factory).map Encoding.value)) c
  have honly := (onlyWrites_setEncodings ((encodings factory).map Encoding.value)).ensures c
  refine Ensures.mono ((hmessage.and honly).and (ensures_setEncodings factory c)) ?_ ?_
  · rintro _ c' ⟨⟨⟨b, hwritten, hmeasured⟩, events, rfl, hwrites⟩, _⟩
    have hb : written events = b := by
      rw [written_append] at hwritten
      exact List.append_cancel_left hwritten
    refine ⟨⟨events, rfl, hwrites, ?_⟩, events, rfl, hwrites⟩
    rw [hb]
    exact passes_of_measured hmeasured fun heq => by cases heq
  · exact fun _ _ h => h.2

/-- A format that the application can ask for is asked for, if another one is wanted at all. -/
theorem setsUp_setImageMode {c : RFBClient (VNCDoToolClient P)}
    (hnegotiable : Negotiable c.app.requestedPixelFormat) :
    Ensures (setImageMode vncProtocolError) c
      (fun _ c' => SetsUp c c' ∧ Held c c' ∧ c'.app.factory = c.app.factory) fun _ _ => False := by
  cases halternative : alternative c with
  | none =>
      cases hmode : c.pixelFormat.rawMode with
      | ok mode =>
          refine (ensures_of_run_eq (setImageMode_native halternative hmode)).2 ?_
          exact ⟨SetsUp.refl c, ⟨rfl, rfl, rfl, rfl⟩, rfl⟩
      | error exc =>
          refine (ensures_of_run_ok (setImageMode_unknown halternative hmode)).2 ?_
          exact ⟨SetsUp.refl c, Held.refl c, rfl⟩
  | some pf =>
      have hasked := (alternative_some halternative).1 hnegotiable
      cases hmode : pf.rawMode with
      | error exc =>
          rw [hmode] at hasked
          exact absurd hasked.2 Bool.false_ne_true
      | ok mode =>
          refine (ensures_of_run_eq (setImageMode_asked halternative hmode)).2 ?_
          refine ensures_bind.2 (ensures_ite.2 ⟨fun _ => ?_, fun hwide => absurd hasked.1 hwide⟩)
          have hsingle : written [.write (packBE 1 (MsgC2S.value .setPixelFormat) ++ [0, 0, 0] ++
              pf.toBytes)] =
              packBE 1 (MsgC2S.value .setPixelFormat) ++ [0, 0, 0] ++ pf.toBytes :=
            List.append_nil _
          refine ⟨⟨[.write _], rfl, fun _ hmem => ⟨_, List.mem_singleton.1 hmem⟩, ?_⟩,
            ⟨rfl, rfl, rfl, rfl⟩, rfl⟩
          rw [hsingle]
          exact passes_of_measured (measured_setPixelFormat pf) (by decide)

/-- What is left of a client's handshake when it has become ready. -/
structure MadeReady (c c' : RFBClient (VNCDoToolClient P)) : Prop where
  setsUp : SetsUp c c'
  held : Held c c'
  fired : c'.app.factory.deferred = [.callback]

theorem madeReady_vncConnectionMade {c : RFBClient (VNCDoToolClient P)}
    (hnegotiable : Negotiable c.app.requestedPixelFormat)
    (hunfired : c.app.factory.deferred = []) :
    Ensures vncConnectionMade c (fun _ => MadeReady c) fun _ _ => False := by
  refine ensures_bind.2 (Ensures.mono (setsUp_setImageMode hnegotiable) ?_ fun _ _ => False.elim)
  rintro _ c₁ ⟨hsets, hheld, hfactory⟩
  refine ensures_bind.2 (ensures_bind.2 (Ensures.mono (setsUp_setEncodings _ c₁) ?_
    fun _ _ => False.elim))
  rintro _ c₂ ⟨hsets', events, rfl, _⟩
  have hfirst : c₁.app.factory.deferred = [] := (congrArg _ hfactory).trans hunfired
  refine ensures_bind.2 (ensures_bind.2 ?_)
  change Ensures (if c₁.app.factory.deferred ≠ [] then throw PyError.alreadyCalled
    else pure () : Py (VNCDoToolClient P) Unit) _ _ _
  rw [if_neg (not_not.2 hfirst)]
  refine ⟨(hsets.trans hsets').trans ⟨[], (List.append_nil _).symm,
    fun _ hmem => absurd hmem List.not_mem_nil, Passes.refl []⟩, ⟨hheld.stage, hheld.armed,
    hheld.aborted, hheld.size⟩, ?_⟩
  change c₁.app.factory.deferred ++ [Fired.callback] = [.callback]
  rw [hfirst]
  rfl

/-! ## The end of the handshake -/

/-- The client is ready: what it said on the way asks for no framebuffer. -/
structure Admitted (c c' : RFBClient (VNCDoToolClient P)) : Prop where
  log : ∃ events, c'.log = c.log ++ events ∧ .loseConnection ∉ events ∧ Passes (written events) []
  poised : Poised c' .connection 1
  fired : c'.app.factory.deferred = [.callback]
  size : (c'.width, c'.height) = (c.width, c.height)

theorem admitted_serverName {c : RFBClient (VNCDoToolClient P)} {block : Bytes}
    (h : Poised c .serverName block.length) (hnegotiable : Negotiable c.app.requestedPixelFormat)
    (hunfired : c.app.factory.deferred = []) :
    ∃ c', Handler.serverName.run (runtime P env) block c = .ok () c' ∧ Admitted c c' := by
  have hensures : Ensures (Handler.serverName.run (runtime P env) block) c
      (fun _ => Admitted c) fun _ _ => False := by
    refine ensures_bind.2 (ensures_bind.2 (ensures_bind.2 ?_))
    let c₁ : RFBClient (VNCDoToolClient P) :=
      { c with name := block, log := c.log ++ [.callback .vncConnectionMade] }
    have hmade : Ensures vncConnectionMade c₁ (fun _ => MadeReady c₁) fun _ _ => False :=
      madeReady_vncConnectionMade hnegotiable hunfired
    change Ensures vncConnectionMade c₁ _ _
    refine Ensures.mono hmade ?_ fun _ _ => False.elim
    rintro _ c₂ ⟨⟨events, hlog, hwrites, hpasses⟩, hheld, hfired⟩
    refine ⟨⟨.callback .vncConnectionMade :: events, ?_, ?_, hpasses⟩,
      ⟨hheld.stage.trans h.stage, hheld.aborted.trans h.aborted, rfl, rfl⟩, hfired, hheld.size⟩
    · change c₂.log = _
      rw [hlog, List.append_assoc]
      rfl
    · intro hmem
      rcases List.mem_cons.1 hmem with heq | hmem
      · cases heq
      · rcases hwrites _ hmem with ⟨data, heq⟩
        cases heq
  rcases hensures.exists_run_ok with ⟨_, c', hrun, hadmitted⟩
  exact ⟨c', hrun, hadmitted⟩

/-- The client that has taken ServerInit. -/
def initialised (block : Bytes) (c : RFBClient (VNCDoToolClient P)) :
    RFBClient (VNCDoToolClient P) :=
  { c with
    width := field block 0 2
    height := field block 2 2
    pixelFormat := PixelFormat.fromBytes (slice block 4 16)
    expectedHandler := .serverName
    expectedLen := field block 20 4 }

/-- With the size of the framebuffer and the name of the server, the client is ready. -/
theorem converses_initTurns {c : RFBClient (VNCDoToolClient P)} (h : Poised c .serverInit 24)
    (hnegotiable : Negotiable c.app.requestedPixelFormat)
    (hunfired : c.app.factory.deferred = []) {s : Session} (hgranted : s.granted) :
    ∃ extra last, Converses (runtime P env) [s.shared]
        ({ client := c } : Connection (VNCDoToolClient P)) s.initTurns extra { client := last } ∧
      Admitted (initialised s.serverInit c) last ∧ Passes extra [] := by
  let c₁ := initialised s.serverInit c
  have hinit : Poised c .serverInit s.serverInit.length := by
    rw [s.length_serverInit]
    exact h
  have hrun : Handler.serverInit.run (runtime P env) s.serverInit c = .ok () c₁ := rfl
  have hname : Poised c₁ .serverName s.name.length := ⟨h.stage, h.aborted, rfl, s.length_name.symm⟩
  rcases @admitted_serverName P env c₁ s.name hname hnegotiable hunfired with
    ⟨last, hready, hadmitted⟩
  rcases hadmitted.log with ⟨events, hlog, _, hpasses⟩
  have hend : HaltsAt (advance (runtime P env))
      (({ client := c₁ } : Connection (VNCDoToolClient P)).deliver s.name) { client := last } :=
    haltsAt_block hname hready hadmitted.poised Nat.one_pos
  have hsaid : written last.log = written c₁.log ++ written events := by
    rw [hlog, written_append]
  unfold Session.initTurns
  rw [if_pos hgranted]
  by_cases hempty : s.name = []
  -- Without a name the loop goes on to the end at once.
  · rw [if_pos hempty]
    have hnil : ({ client := c₁ } : Connection (VNCDoToolClient P)).deliver s.name =
        { client := c₁ } := by
      rw [hempty]
      exact (receiveLoop (runtime P env)).deliver_nil _
    refine ⟨written events, last, ?_, hadmitted, hpasses⟩
    refine @Converses.speaks _ _ [] _ _ _ ⟨.c2s, [s.shared], [s.shared]⟩ _ rfl ?_
    refine Converses.listens rfl (HaltsAt.head (advance_block hinit hrun h.aborted) (hnil ▸ hend))
      hsaid ?_
    rw [List.nil_append]
    exact Converses.nil
  · rw [if_neg hempty]
    have hpos : 0 < s.name.length := List.length_pos_iff.2 hempty
    refine ⟨written events, last, ?_, hadmitted, hpasses⟩
    refine @Converses.speaks _ _ [] _ _ _ ⟨.c2s, [s.shared], [s.shared]⟩ _ rfl ?_
    have hquiet : written c₁.log = written c.log ++ [] := (List.append_nil _).symm
    refine Converses.listens rfl (haltsAt_block hinit hrun hname hpos) hquiet ?_
    refine Converses.listens rfl hend hsaid ?_
    exact Converses.nil

/-! ## The whole handshake -/

section Fresh

variable {s : Session} {versionServer : Ver}

/-- The server that recorded the session is one whose greeting the client answers with the version
of the recording. -/
structure Greets (s : Session) (versionServer : Ver) : Prop where
  greeted : Greeted s.greeting
  parsed : parseVersion s.greeting = some versionServer
  chosen : RFBClient.chooseVersion versionServer = some s.version

theorem exists_converses_fresh (P : Pillow) (env : Env) (requested : Option PixelFormat)
    (settings : VNCDoToolFactory) (factory : Factory) (hgreets : Greets s versionServer)
    (hnegotiable : Negotiable requested) (hunfired : settings.deferred = []) :
    ∃ extra last, Converses (runtime P env) [] (fresh P requested settings factory)
        (s.standIn (parse_versionLine_of_choose hgreets.chosen)
          (UInt8.ofNat factory.shared)).script extra { client := last } ∧
      Passes extra [] ∧ .loseConnection ∉ last.log ∧ Poised last .connection 1 ∧
      last.app.factory.deferred = [.callback] ∧
      (last.width, last.height) = (field s.serverInit 0 2, field s.serverInit 2 2) := by
  let c₀ : RFBClient (VNCDoToolClient P) := (fresh P requested settings factory).client
  let c₁ := answered s.version versionServer c₀
  have hstart : HaltsAt (advance (runtime P env)) ((fresh P requested settings factory).deliver
      s.greeting) { client := c₁ } :=
    haltsAt_greeting rfl rfl hgreets.greeted s.length_greeting hgreets.parsed hgreets.chosen
  have hwelcomed : Welcomed s c₁ := welcomed_answered versionServer rfl
  rcases @converses_upToInit _ (runtime P env) c₁ s
      (s.standIn (parse_versionLine_of_choose hgreets.chosen)
        (UInt8.ofNat factory.shared)).initTurns (UInt8.ofNat factory.shared)
      (parse_versionLine_of_choose hgreets.chosen) hwelcomed rfl with ⟨c₂, hpoised, honward, hthrough⟩
  have hnegotiable' : Negotiable c₂.app.requestedPixelFormat := by
    rw [honward.app]
    exact hnegotiable
  have hunfired' : c₂.app.factory.deferred = [] := by
    rw [honward.app]
    exact hunfired
  rcases @converses_initTurns P env c₂ hpoised hnegotiable' hunfired' _ Session.granted_standIn with
    ⟨extra, last, hconverses, hadmitted, hpasses⟩
  refine ⟨extra, last, ?_, hpasses, ?_, hadmitted.poised, hadmitted.fired, hadmitted.size⟩
  · have hsaid : written c₁.log = written c₀.log ++ versionLine s.version :=
      written_append c₀.log [_]
    refine Converses.listens rfl hstart hsaid ?_
    rw [List.nil_append, ← List.append_nil (versionLine s.version)]
    exact @Converses.speaks _ _ [] extra _ _ ⟨.c2s, versionLine s.version, versionLine s.version⟩ _
      rfl (hthrough extra _ hconverses)
  · rcases honward.log with ⟨events, hlog, hnone⟩
    rcases hadmitted.log with ⟨events', hlog', hnone', _⟩
    have hall : last.log = c₀.log ++ [.write (versionLine s.version)] ++ events ++ events' :=
      hlog'.trans (congrArg (· ++ events') hlog)
    rw [hall]
    intro hmem
    rcases List.mem_append.1 hmem with hmem | hmem
    · rcases List.mem_append.1 hmem with hmem | hmem
      · cases List.mem_singleton.1 hmem
      · exact hnone hmem
    · exact hnone' hmem

/-! ## A replay of the recording -/

/-- The archive that the proxy writes of a session, cut and interleaved like this. -/
def archive (chunks : List (Tap × Bytes)) : Capture :=
  (({} : CaptureWriter).feedAll chunks).flush.archived

/-- A whole session whose server let its client in was recorded, and a client is connected to the
replay that would choose the same version of the protocol and can ask for its pixel format. -/
structure Replays (s : Session) (chunks : List (Tap × Bytes)) (requested : Option PixelFormat)
    (settings : VNCDoToolFactory) : Prop where
  granted : s.granted
  causal : s.Causal (fun _ => []) chunks
  complete : s.Complete chunks
  greets : ∃ versionServer, Greets s versionServer
  negotiable : Negotiable requested
  unfired : settings.deferred = []

/-- The client and the replay server as they are connected. -/
def reconnected (P : Pillow) (requested : Option PixelFormat) (settings : VNCDoToolFactory)
    (factory : Factory) (chunks : List (Tap × Bytes)) :
    Duplex (Connection (VNCDoToolClient P)) ReplayProtocol UInt8 UInt8 :=
  Reconnection.introduced (archive chunks) (fresh P requested settings factory)

/-- Either of them is handed a piece of what the other one has said, any number of times. -/
def Exchanges (P : Pillow) (env : Env) :
    Duplex (Connection (VNCDoToolClient P)) ReplayProtocol UInt8 UInt8 →
      Duplex (Connection (VNCDoToolClient P)) ReplayProtocol UInt8 UInt8 → Prop :=
  Duplex.Runs (Connection.party (@runtime_logs P env)) ReplayProtocol.party

/-- What comes of it in any case. -/
def EndsIn (P : Pillow) (env : Env)
    (d : Duplex (Connection (VNCDoToolClient P)) ReplayProtocol UInt8 UInt8)
    (Q : Duplex (Connection (VNCDoToolClient P)) ReplayProtocol UInt8 UInt8 → Prop) : Prop :=
  Duplex.EndsIn (Connection.party (@runtime_logs P env)) ReplayProtocol.party d Q

/-- The handshake of the recording, gone through by the client. -/
structure Admits (env : Env) (capture : Capture) (conn : Connection (VNCDoToolClient P))
    (later : Bytes) (script : List (Turn Tap UInt8)) (extra : Bytes)
    (last : RFBClient (VNCDoToolClient P)) : Prop where
  recorded : ∃ final, ReplayProtocol.Recorded capture script final
  converses : Converses (runtime P env) [] conn script extra { client := last }
  expecting : conn.Expecting (tapBytes .s2c script)
  quiet : advance (runtime P env) conn = none
  silent : written conn.client.log = []
  connected : ({ client := last } : Connection (VNCDoToolClient P)).Connected
  poised : Poised last .connection 1
  passes : Passes extra []
  later : tapBytes .s2c script ++ later = capture.s2c

variable {requested : Option PixelFormat} {settings : VNCDoToolFactory} {factory : Factory}
  {chunks : List (Tap × Bytes)}

theorem Replays.admits (P : Pillow) (env : Env) (h : Replays s chunks requested settings)
    (factory : Factory) :
    ∃ script extra last, Admits env (archive chunks) (fresh P requested settings factory)
        s.laterS2c script extra last ∧ last.app.factory.deferred = [.callback] ∧
      (last.width, last.height) = (field s.serverInit 0 2, field s.serverInit 2 2) := by
  rcases h.greets with ⟨versionServer, hgreets⟩
  rcases exists_converses_fresh P env requested settings factory hgreets h.negotiable h.unfired with
    ⟨extra, last, hconverses, hpasses, hstays, hpoised, hfired, hsize⟩
  rcases @Session.recorded_standIn s (parse_versionLine_of_choose hgreets.chosen)
    (UInt8.ofNat factory.shared) h.granted chunks h.causal h.complete with ⟨hs2c, hrecorded⟩
  refine ⟨_, extra, last, ⟨hrecorded, hconverses, ?_, rfl, rfl, ⟨rfl, hstays⟩, hpoised, hpasses, ?_⟩,
    hfired, hsize⟩
  · intro _
    refine ⟨rfl, ?_⟩
    have hgreeted : Greeted s.greeting := hgreets.greeted
    exact hgreeted.append _
  · exact (Session.recording_standIn h.granted).trans hs2c.symm

/-- No message of the client's own asks for a framebuffer. -/
theorem not_requests_of_passes {extra : Bytes} (h : Passes extra []) : ¬ Requests extra := by
  intro hrequests
  cases h.requests hrequests with
  | request hmessage _ => exact ne_nil_of_length_ok hmessage.1 rfl
  | unknown hunknown => exact ne_nil_of_length_ok hunknown rfl
  | skip hmessage _ => exact ne_nil_of_length_ok hmessage.1 rfl

section Admits

variable {conn : Connection (VNCDoToolClient P)} {capture : Capture} {later extra : Bytes}
  {script : List (Turn Tap UInt8)} {last : RFBClient (VNCDoToolClient P)}

theorem Admits.settles (h : Admits env capture conn later script extra last) :
    ∃ e, Duplex.Settles (Connection.party (@runtime_logs P env)) ReplayProtocol.party
      (Reconnection.introduced capture conn) (tapBytes .s2c script)
      (tapBytes .c2s script ++ extra) e := by
  rcases h.recorded with ⟨final, hrecorded⟩
  rcases Reconnection.settles_of_converses runtime_logs runtime_tame h.converses h.connected
    hrecorded h.quiet h.expecting h.silent (not_requests_of_passes h.passes) with ⟨e, hsettles, _⟩
  exact ⟨e, hsettles⟩

/-- Once it has been handed the whole handshake, the client is ready. -/
theorem Admits.left_eq (h : Admits env capture conn later script extra last)
    {d : Duplex (Connection (VNCDoToolClient P)) ReplayProtocol UInt8 UInt8} {heard' : Bytes}
    (hsince : Duplex.Since (Connection.party (@runtime_logs P env)) ReplayProtocol.party
      (Reconnection.introduced capture conn) (tapBytes .s2c script) heard' d) :
    d.left = { client := last } := by
  have hexpecting : conn.Expecting (tapBytes .s2c script ++ []) := by
    rw [List.append_nil]
    exact h.expecting
  have hhalts := haltsAt_of_heard runtime_tame h.quiet hexpecting hsince.left
  exact hhalts.unique (h.converses.haltsAt h.quiet)

theorem Admits.endsIn (h : Admits env capture conn later script extra last) :
    EndsIn P env (Reconnection.introduced capture conn)
      fun d => d.left = { client := last } ∧ d.toLeft = tapBytes .s2c script := by
  rcases h.settles with ⟨e, hsettles⟩
  rcases h.recorded with ⟨final, hrecorded⟩
  have hopen : (Connection.party (@runtime_logs P env)).Open conn (tapBytes .s2c script) :=
    open_of_haltsAt runtime_tame h.quiet h.expecting (h.converses.haltsAt h.quiet) h.connected
  have hcapture : (ReplayProtocol.connectionMade capture).capture = capture :=
    ReplayProtocol.capture_advance _
  have hopen' : ReplayProtocol.party.Open (ReplayProtocol.connectionMade capture)
      (tapBytes .c2s script ++ extra) :=
    (ReplayProtocol.standby_connectionMade capture).open (hcapture.symm ▸ hrecorded)
      (Or.inr (List.prefix_append _ _))
  refine (hsettles.endsIn hopen hopen').mono fun d _ hsince => ?_
  exact ⟨h.left_eq hsince, hsince.toLeft⟩

end Admits

/-- The replay of a recorded session admits any client that would choose the same version: in every
exchange it is handed no more than the handshake, no exchange goes on for ever, and wherever one
comes to rest the client is ready, its Deferred fired and the size of the screen known. -/
theorem replay_admits (P : Pillow) (env : Env) (requested : Option PixelFormat)
    (settings : VNCDoToolFactory) (factory : Factory) (s : Session) (chunks : List (Tap × Bytes))
    (h : Replays s chunks requested settings) :
    ∃ handshake last, handshake ++ s.laterS2c = (archive chunks).s2c ∧
      last.Connected ∧ Poised last.client .connection 1 ∧
      last.client.app.factory.deferred = [.callback] ∧
      (last.client.width, last.client.height) =
        (field s.serverInit 0 2, field s.serverInit 2 2) ∧
      (∀ d, Exchanges P env (reconnected P requested settings factory chunks) d →
        d.toLeft <+: handshake) ∧
      EndsIn P env (reconnected P requested settings factory chunks) fun d =>
        d.left = last ∧ d.toLeft = handshake := by
  rcases h.admits P env factory with ⟨script, extra, last, hadmits, hfired, hsize⟩
  have hends : EndsIn P env (reconnected P requested settings factory chunks)
      fun d => d.left = { client := last } ∧ d.toLeft = tapBytes Tap.s2c script := hadmits.endsIn
  refine ⟨tapBytes Tap.s2c script, { client := last }, hadmits.later, hadmits.connected,
    hadmits.poised, hfired, hsize, ?_, hends⟩
  intro d hruns
  rcases hadmits.settles with ⟨e, hsettles⟩
  rcases hsettles.behind hruns with ⟨heard, heard', hsince, hleads, _⟩
  have htoLeft : d.toLeft = heard := hsince.toLeft
  rw [htoLeft]
  exact hleads

end Fresh

/-- The sample session is recorded, and no format is asked for. -/
theorem replays_sample : Replays Session.sample Session.sampleChunks none {} where
  granted := by decide
  causal := by decide +kernel
  complete := by
    intro tap
    cases tap <;> decide
  greets := ⟨⟨3, 8⟩, ⟨by decide, by decide, by decide⟩⟩
  negotiable := nofun
  unfired := rfl

theorem replay_admits_sample :
    ∃ handshake last, handshake ++ [2] = (archive Session.sampleChunks).s2c ∧
      last.Connected ∧ Poised last.client .connection 1 ∧
      last.client.app.factory.deferred = [.callback] ∧
      (last.client.width, last.client.height) = (0, 0) ∧
      (∀ d, Exchanges Pillow.canvas .sample
        (reconnected Pillow.canvas none {} {} Session.sampleChunks) d → d.toLeft <+: handshake) ∧
      EndsIn Pillow.canvas .sample (reconnected Pillow.canvas none {} {} Session.sampleChunks)
        fun d => d.left = last ∧ d.toLeft = handshake :=
  replay_admits Pillow.canvas .sample none {} {} Session.sample Session.sampleChunks replays_sample

/-! ## The framebuffer -/

/-- An operation that waits for an update has asked for one. -/
theorem log_operation {c : RFBClient (VNCDoToolClient P)} (hsized : c.Sized) {operation : Operation}
    (hwaits : operation.waits c.app = true) :
    ∃ incremental, (finalState (operation.run.run c)).log =
      c.log ++ [.write (RFBClient.wholeRequest c.width c.height incremental)] := by
  have hrefresh (incremental : Bool) (resume : Resume) :
      Ensures (refreshScreen incremental resume) c
        (fun _ c' => c'.log =
          c.log ++ [.write (RFBClient.wholeRequest c.width c.height incremental)])
        fun _ c' => c'.log =
          c.log ++ [.write (RFBClient.wholeRequest c.width c.height incremental)] := by
    unfold refreshScreen
    refine ensures_bind.2 ((ensures_framebufferUpdateRequest (c := { c with
      app := { c.app with
        deferred := some ⟨c.app.returned, resume⟩, returned := c.app.returned + 1 } }) hsized).2 ?_)
    rfl
  have hexpect (filename : String) (x y : ℤ) (maxrms : ℚ)
      (hwaits : Operation.waits.waitsFor c.app filename x y maxrms = true) :
      Ensures (expectFramebuffer filename x y maxrms) c
        (fun _ c' => c'.log =
          c.log ++ [.write (RFBClient.wholeRequest c.width c.height c.app.screen.isSome)])
        fun _ c' => c'.log =
          c.log ++ [.write (RFBClient.wholeRequest c.width c.height c.app.screen.isSome)] := by
    unfold Operation.waits.waitsFor at hwaits
    unfold expectFramebuffer
    refine ensures_bind.2 ?_
    cases hload : P.load filename with
    | error exc =>
        rw [hload] at hwaits
        exact absurd hwaits Bool.false_ne_true
    | ok image =>
        rw [hload] at hwaits
        dsimp only at hwaits
        have hmatched : matched { c.app with expected := P.histogram image } (P.histogram image)
            (x, y, x + (P.size image).1, y + (P.size image).2) maxrms =
            matched c.app (P.histogram image)
              (x, y, x + (P.size image).1, y + (P.size image).2) maxrms := rfl
        refine ensures_bind.2 (ensures_bind.2 (ensures_bind.2 ((ensures_expectCompare
          (c := { c with app := { c.app with expected := P.histogram image } }) hsized _ _ _).2 ?_)))
        dsimp only
        rw [hmatched]
        cases hanswer : matched c.app (P.histogram image)
          (x, y, x + (P.size image).1, y + (P.size image).2) maxrms with
        | error exc =>
            rw [hanswer] at hwaits
            exact absurd hwaits Bool.false_ne_true
        | ok b =>
            cases b with
            | true =>
                rw [hanswer] at hwaits
                exact absurd hwaits Bool.false_ne_true
            | false => rfl
  cases operation with
  | refreshScreen incremental => exact ⟨incremental, ensures_finalState.1 (hrefresh _ _)⟩
  | captureScreen fp incremental format => exact ⟨incremental, ensures_finalState.1 (hrefresh _ _)⟩
  | captureRegion fp x y w h incremental =>
      exact ⟨incremental, ensures_finalState.1 (hrefresh _ _)⟩
  | expectScreen filename maxrms =>
      exact ⟨c.app.screen.isSome, ensures_finalState.1 (hexpect _ _ _ _ hwaits)⟩
  | expectRegion filename x y maxrms =>
      exact ⟨c.app.screen.isSome, ensures_finalState.1 (hexpect _ _ _ _ hwaits)⟩

theorem requests_wholeRequest (width height : ℕ) (incremental : Bool) :
    Requests (RFBClient.wholeRequest width height incremental) := by
  have hmeasured := measured_framebufferUpdateRequest incremental.toNat 0 0 width height
  exact Requests.request hmeasured.complete hmeasured.kind

section Served

variable {s : Session} {chunks : List (Tap × Bytes)} {requested : Option PixelFormat}
  {settings : VNCDoToolFactory}

/-- A client that has been handed the handshake is admitted, whatever the server has heard so far;
as soon as an operation of it waits for an update, the rest of the recording is served, and wherever
an exchange comes to rest the client is as if it had been handed the rest in one piece. -/
theorem replay_serves (P : Pillow) (env : Env) (requested : Option PixelFormat)
    (settings : VNCDoToolFactory) (factory : Factory) (s : Session) (chunks : List (Tap × Bytes))
    (h : Replays s chunks requested settings)
    {d : Duplex (Connection (VNCDoToolClient P)) ReplayProtocol UInt8 UInt8}
    (hruns : Exchanges P env (reconnected P requested settings factory chunks) d)
    (hheard : d.toLeft ++ s.laterS2c = (archive chunks).s2c) {operation : Operation}
    (hwaits : operation.waits d.left.client.app = true) {t : Connection (VNCDoToolClient P)}
    (hhalts : HaltsAt (advance (runtime P env))
      ((act P env d.left (.call operation)).deliver s.laterS2c) t) (ht : t.Connected) :
    EndsIn P env { d with left := act P env d.left (.call operation) } fun e =>
      e.left = t ∧ e.toLeft = (archive chunks).s2c := by
  rcases h.admits P env factory with ⟨script, extra, last, hadmits, _, hsize⟩
  rcases hadmits.settles with ⟨_, hsettles⟩
  rcases hsettles.behind hruns with ⟨heard, heard', hsince, _, hleads'⟩
  have hscript : heard = tapBytes .s2c script := by
    have hsame : heard ++ s.laterS2c = tapBytes .s2c script ++ s.laterS2c := by
      rw [hadmits.later, ← hheard]
      exact congrArg (· ++ s.laterS2c) hsince.toLeft.symm
    exact List.append_cancel_right hsame
  rw [hscript] at hsince
  have hleft : d.left = { client := last } := hadmits.left_eq hsince
  have htoLeft : d.toLeft = tapBytes .s2c script := hsince.toLeft
  -- The server has heard some of what the client said, and waits.
  rcases hadmits.recorded with ⟨final, hrecorded⟩
  have hcapture : (ReplayProtocol.connectionMade (archive chunks)).capture = archive chunks :=
    ReplayProtocol.capture_advance _
  rcases (ReplayProtocol.standby_connectionMade (archive chunks)).heard hsince.right with
    ⟨hstandby, hcapture'⟩
  have hcaptured : d.right.capture = archive chunks := hcapture'.trans hcapture
  have htoRight : d.toRight = [] ++ heard' := hsince.toRight
  rw [← htoRight] at hstandby
  have hsound := hsettles.sound.runs hruns
  -- The client asks.
  have hsized : last.Sized := by
    have hwidth := congrArg Prod.fst hsize
    have hheight := congrArg Prod.snd hsize
    dsimp only at hwidth hheight
    unfold RFBClient.Sized
    rw [hwidth, hheight]
    exact ⟨field_lt _ _ _, field_lt _ _ _⟩
  let asked := act P env d.left (.call operation)
  have hasked : asked.client = finalState (operation.run.run last) := by
    change finalState (operation.run.run d.left.client) = _
    rw [hleft]
  rw [hleft] at hwaits
  rcases log_operation hsized hwaits with ⟨incremental, hlog⟩
  rw [← hasked] at hlog
  have hslots : asked.client = { last with app := asked.client.app, log := asked.client.log } := by
    have hparser := (slots_operation operation last).parser
    rw [← hasked] at hparser
    exact hparser
  have hpoised : Poised asked.client .connection 1 := by
    rw [hslots]
    exact ⟨hadmits.poised.stage, hadmits.poised.aborted, hadmits.poised.handler,
      hadmits.poised.length⟩
  have hidle : asked = { client := asked.client } := by
    change ({ d.left with client := asked.client } : Connection (VNCDoToolClient P)) = _
    rw [hleft]
  have hquiet : advance (runtime P env) asked = none := by
    rw [hidle]
    exact advance_poised hpoised Nat.one_pos
  have hconnected : asked.Connected := by
    rw [hidle]
    refine ⟨rfl, ?_⟩
    change .loseConnection ∉ asked.client.log
    rw [hlog]
    intro hmem
    rcases List.mem_append.1 hmem with hmem | hmem
    · exact hadmits.connected.stays hmem
    · cases List.mem_singleton.1 hmem
  have hsaid : written asked.client.log = tapBytes .c2s script ++
      (extra ++ RFBClient.wholeRequest last.width last.height incremental) := by
    have hlast : written last.log = [] ++ tapBytes .c2s script ++ extra :=
      hadmits.converses.said (hadmits.silent.trans (List.append_nil []).symm)
    rw [hlog, written_concat, hlast, List.nil_append, List.append_assoc]
  have hrequest : Requests (extra ++ RFBClient.wholeRequest last.width last.height incremental) := by
    have hpasses := hadmits.passes.append (RFBClient.wholeRequest last.width last.height incremental)
    exact hpasses.of_requests (requests_wholeRequest _ _ _)
  -- So the server serves the rest.
  have hrest : d.right.capture.s2c.drop (tapBytes .s2c script).length = s.laterS2c := by
    rw [hcaptured, ← hadmits.later, List.drop_left]
  have hsound' : Duplex.Sound (Connection.party (@runtime_logs P env)) ReplayProtocol.party
      { d with left := asked } := by
    refine ⟨hsound.left, hsound.right.trans ?_⟩
    change written d.left.client.log <+: written asked.client.log
    rw [hleft, hlog]
    exact written_prefix (List.prefix_append _ _)
  have hrecorded' : ReplayProtocol.Recorded d.right.capture script final :=
    hcaptured.symm ▸ hrecorded
  rcases Reconnection.settles_of_asked (d := { d with left := asked }) (@runtime_logs P env)
      runtime_tame hrecorded' hstandby hsound' htoLeft rfl hsaid hrequest hconnected hquiet
      hpoised.stage (hrest.symm ▸ hhalts) with ⟨more, e, hasks, _, htoLeft'⟩
  have hexpecting : ∀ rest, asked.Expecting rest :=
    fun _ hinitial => nomatch hpoised.stage.symm.trans hinitial
  have hopen : (Connection.party (@runtime_logs P env)).Open asked
      (d.right.capture.s2c.drop (tapBytes .s2c script).length) :=
    open_of_haltsAt runtime_tame hquiet (hexpecting _) (hrest.symm ▸ hhalts) ht
  have hopen' : ReplayProtocol.party.Open d.right more := by
    refine hstandby.open hrecorded' (Or.inr ?_)
    have hend : d.toRight ++ more = written e.left.client.log :=
      hasks.since.toRight.symm.trans hasks.atRest.right
    rw [hend]
    refine List.IsPrefix.trans ?_ (hasks.since.left.said_prefix)
    change _ <+: written asked.client.log
    rw [hsaid]
    exact List.prefix_append _ _
  refine (hasks.endsIn hopen hopen').mono fun f _ hsince' => ?_
  constructor
  · have hall := haltsAt_of_heard runtime_tame hquiet (hexpecting (_ ++ [])) hsince'.left
    rw [hrest] at hall
    exact hall.unique hhalts
  · have hend := hsince'.toLeft.trans hasks.since.toLeft.symm
    exact hend.trans (htoLeft'.trans (congrArg Capture.s2c hcaptured))

/-- Behind the handshake of the sample there is a bell. -/
theorem replay_serves_sample :
    ∃ d t, Exchanges Pillow.canvas .sample
        (reconnected Pillow.canvas none {} {} Session.sampleChunks) d ∧
      EndsIn Pillow.canvas .sample
        { d with left := act Pillow.canvas .sample d.left (.call (.refreshScreen false)) }
        fun e => e.left = t ∧ e.toLeft = (archive Session.sampleChunks).s2c := by
  rcases replays_sample.admits Pillow.canvas .sample {} with ⟨script, extra, last, hadmits, _, hsize⟩
  rcases hadmits.endsIn.continues _ Relation.ReflTransGen.refl with ⟨d, hruns, hrest⟩
  rcases hadmits.endsIn.atRest d hruns hrest with ⟨hleft, htoLeft⟩
  have hpoised : Poised (finalState ((Operation.refreshScreen false).run.run last)) .connection 1 := by
    rw [(slots_operation (.refreshScreen false) last).parser]
    exact ⟨hadmits.poised.stage, hadmits.poised.aborted, hadmits.poised.handler,
      hadmits.poised.length⟩
  have hsized : last.Sized := by
    have hzero : last.width = 0 ∧ last.height = 0 := Prod.mk.inj hsize
    exact ⟨hzero.1 ▸ Nat.two_pow_pos 16, hzero.2 ▸ Nat.two_pow_pos 16⟩
  let c := finalState ((Operation.refreshScreen false).run.run last)
  let c' := awaiting .connection 1 [.callback .bell] c
  have hbell : HaltsAt (advance (runtime Pillow.canvas .sample))
      (({ client := c } : Connection (VNCDoToolClient Pillow.canvas)).deliver [2])
      { client := c' } :=
    haltsAt_block hpoised rfl (hpoised.awaiting .connection 1 [.callback .bell]) Nat.one_pos
  have hasked : act Pillow.canvas .sample d.left (.call (.refreshScreen false)) =
      { client := c } := by
    rw [hleft]
    rfl
  have hstays : ({ client := c' } : Connection (VNCDoToolClient Pillow.canvas)).Connected := by
    refine ⟨rfl, fun hmem => ?_⟩
    rcases @log_operation _ last hsized (.refreshScreen false) rfl with ⟨incremental, hlog⟩
    have hall : .loseConnection ∈ c.log ++ [.callback .bell] := hmem
    rw [show c.log = _ from hlog] at hall
    rcases List.mem_append.1 hall with hmem | hmem
    · rcases List.mem_append.1 hmem with hmem | hmem
      · exact hadmits.connected.stays hmem
      · cases List.mem_singleton.1 hmem
    · cases List.mem_singleton.1 hmem
  refine ⟨d, { client := c' }, hruns, ?_⟩
  refine replay_serves Pillow.canvas .sample none {} {} Session.sample Session.sampleChunks
    replays_sample hruns ?_ rfl (hasked ▸ hbell) hstays
  rw [htoLeft]
  exact hadmits.later

end Served

end VNCDoToolClient

end Vncdotool
