import Vncdotool.Capture.Session
import Vncdotool.Replay.Reconnection

/-!
# Admission — a client is let in by a stripped recording

The recording of a session, stripped of its authentication, is that of a session without any: its
stand-in.  A client that chooses the recorded version goes through the handshake of the stand-in,
whatever the version is, up to the name of the server.
-/

namespace Vncdotool

open Wire Streaming

/-- What a replay reads of the archive that was written. -/
def CaptureWriter.archived (w : CaptureWriter) : Capture where
  s2c := w.s2c
  negotiatedVersion := w.scrubber.core.negotiatedVersion

/-! ## The version -/

theorem Ver.mem_of_max? : ∀ {versions : List Ver} {version : Ver},
    Ver.max? versions = some version → version ∈ versions := by
  intro versions
  induction versions with
  | nil => exact nofun
  | cons first versions ih =>
      intro version h
      unfold Ver.max? at h
      cases hrest : Ver.max? versions with
      | none =>
          rw [hrest] at h
          exact Option.some.inj h ▸ List.mem_cons_self
      | some last =>
          rw [hrest] at h
          dsimp only at h
          split_ifs at h
          · exact List.mem_cons_of_mem _ (ih (hrest.trans h))
          · exact Option.some.inj h ▸ List.mem_cons_self

/-- What the client replies is read back as the version it chose. -/
theorem parse_versionLine_of_choose {versionServer version : Ver}
    (h : RFBClient.chooseVersion versionServer = some version) :
    parseVersion (versionLine version) = some version := by
  have hall : ∀ best ∈ RFBClient.supportedServerVersions,
      parseVersion (versionLine (if RFBClient.maxClientVersion < best then
        RFBClient.maxClientVersion else best)) =
      some (if RFBClient.maxClientVersion < best then RFBClient.maxClientVersion else best) := by
    decide
  rcases Option.map_eq_some_iff.1 h with ⟨best, hbest, rfl⟩
  exact hall best (List.mem_filter.1 (Ver.mem_of_max? hbest)).1

/-! ## The stand-in -/

theorem length_versionLine (version : Ver) : (versionLine version).length = 12 := rfl

theorem length_noneType : ([1] : Bytes).length < 256 := by decide

theorem noneType_ne_nil : ([1] : Bytes) ≠ [] := List.cons_ne_nil _ _

namespace Session

/-- What a client without credentials and the replay server say to each other, for a recording of
`s`. -/
def standIn (s : Session) (hversion : parseVersion (versionLine s.version) = some s.version)
    (shared : UInt8) : Session where
  greeting := s.greeting
  reply := versionLine s.version
  version := s.version
  types := [1]
  exchange := .none
  result := 0
  shared := shared
  serverInit := s.serverInit
  name := s.name
  laterS2c := s.laterS2c
  laterC2s := []
  length_greeting := s.length_greeting
  length_reply := length_versionLine s.version
  parse_reply := hversion
  types_ne_nil := noneType_ne_nil
  length_types := length_noneType
  result_lt := success_lt
  length_serverInit := s.length_serverInit
  length_name := s.length_name

variable {s : Session} {hversion : parseVersion (versionLine s.version) = some s.version}
  {shared : UInt8}

theorem granted_standIn : (s.standIn hversion shared).granted :=
  fun _ => rfl

theorem hasResult_standIn : (s.standIn hversion shared).hasResult ↔ s.keepsResult := by
  unfold hasResult keepsResult
  rw [← Ver.not_lt]
  exact ⟨fun h hlt => h ⟨hlt, rfl⟩, fun h hlt => h hlt.1⟩

/-- The server's messages to the stand-in are those that were recorded. -/
theorem recording_standIn (hgranted : s.granted) :
    tapBytes .s2c (s.standIn hversion shared).script ++ s.laterS2c = s.recording .s2c := by
  have hone : packBE 4 1 = [0, 0, 0, 1] := by decide
  have hlist : (s.standIn hversion shared).offersList ↔ s.offersList := Iff.rfl
  have hresult : s.keepsResult → s.result = 0 := fun hkeeps =>
    hgranted (hasResult_of_keepsResult hkeeps)
  have hinit : tapBytes .s2c (s.standIn hversion shared).initTurns = s.serverInit ++ s.name := by
    rw [initTurns, if_pos granted_standIn]
    by_cases hname : s.name = []
    · simp [standIn, hname]
    · simp [standIn, hname]
  have hresults : tapBytes .s2c (s.standIn hversion shared).resultTurns =
      if s.keepsResult then packBE 4 s.result else [] := by
    unfold resultTurns
    by_cases hkeeps : s.keepsResult
    · rw [if_pos (hasResult_standIn.2 hkeeps), if_pos hkeeps, hresult hkeeps]
      exact List.append_nil _
    · rw [if_neg (mt hasResult_standIn.1 hkeeps), if_neg hkeeps]
      rfl
  have hnegotiation : tapBytes .s2c (s.standIn hversion shared).negotiationTurns =
      if s.offersList then [1, 1] else [0, 0, 0, 1] := by
    unfold negotiationTurns
    by_cases hoffers : s.offersList
    · rw [if_pos (hlist.2 hoffers), if_pos hoffers]
      rfl
    · rw [if_neg (mt hlist.1 hoffers), if_neg hoffers]
      exact (List.append_nil _).trans hone
  unfold script recording
  simp only [tapBytes_append, hinit, hresults, hnegotiation, if_pos hgranted]
  simp [standIn, Exchange.turns]

/-- When everything has been fed, the scrubber is at the end of the handshake. -/
theorem core_of_complete {final : HandshakeScrubber} {w : CaptureWriter} {fed : Tap → Bytes}
    (h : s.Captured final w fed) (hfed : ∀ tap, fed tap = s.wire tap) : w.scrubber.core = final := by
  rcases h with ⟨done, rest, hscript, hsynced⟩
  cases rest with
  | nil => exact hsynced.follows.eq_of_nil
  | cons turn rest =>
      have hshort := (hsynced.lag turn.tap).short
      rw [hfed, wire, hscript, tapBytes_append, tapBytes_cons, if_pos rfl] at hshort
      simp only [List.length_append] at hshort
      omega

/-- The archive of a whole session begins with the handshake of the stand-in. -/
theorem recorded_standIn (hgranted : s.granted) {chunks : List (Tap × Bytes)}
    (hcausal : s.Causal (fun _ => []) chunks) (hcomplete : s.Complete chunks) :
    (({} : CaptureWriter).feedAll chunks).flush.archived.s2c = s.recording .s2c ∧
      ∃ final, ReplayProtocol.Recorded (({} : CaptureWriter).feedAll chunks).flush.archived
        (s.standIn hversion shared).script final := by
  rcases captured_feedAll hcausal with ⟨recorded, hfinal, hcaptured⟩
  have hstream : (({} : CaptureWriter).feedAll chunks).flush.archived.s2c = s.recording .s2c := by
    have hflush := CaptureWriter.stream_flush hcaptured .s2c
    rw [(hcaptured.out_eq hcomplete).1, tapRecorded_script] at hflush
    exact hflush
  have hcore : (({} : CaptureWriter).feedAll chunks).flush.archived.negotiatedVersion =
      some s.version := by
    have hend := core_of_complete hcaptured hcomplete
    rcases hcaptured with ⟨done, rest, hscript, hsynced⟩
    have hall : Follows HandshakeScrubber.grammar {} s.script recorded :=
      hscript ▸ hsynced.reached.append hsynced.follows
    change (({} : CaptureWriter).feedAll chunks).scrubber.core.negotiatedVersion = _
    rw [hend]
    exact (settled_script hall).2
  rcases follows_script (s.standIn hversion shared) with ⟨final, hfollows, hdone⟩
  refine ⟨hstream, final, hfollows, ?_, ?_, ?_, ?_⟩
  · simp [HandshakeScrubber.want, hdone.gen_eq]
  · rw [width_script hfollows granted_standIn]
    rfl
  · rw [hstream, ← @recording_standIn s hversion shared hgranted]
    exact List.prefix_append _ _
  · intro archived harchived
    rw [(settled_script hfollows).2]
    exact hcore.symm.trans harchived

end Session

/-! ## One block at a time -/

namespace Connection

variable {σ : Type} {rt : Runtime σ} {c c' : RFBClient σ} {handler : Handler} {n : ℕ}

/-- The handler that the loop is armed for, with the length of its block. -/
structure Poised (c : RFBClient σ) (handler : Handler) (n : ℕ) : Prop where
  stage : c.stage = .handleExpected
  aborted : c.aborted = false
  handler : c.expectedHandler = handler
  length : c.expectedLen = n

/-- The client armed anew, with what it did in the meantime. -/
def awaiting (handler : Handler) (n : ℕ) (events : List Event) (c : RFBClient σ) : RFBClient σ :=
  { c with expectedHandler := handler, expectedLen := n, log := c.log ++ events }

theorem Poised.awaiting (h : Poised c handler n) (handler' : Handler) (n' : ℕ)
    (events : List Event) : Poised (awaiting handler' n' events c) handler' n' :=
  ⟨h.stage, h.aborted, rfl, rfl⟩

theorem advance_block {block : Bytes} (h : Poised c handler block.length)
    (hrun : handler.run rt block c = .ok () c') (haborted : c'.aborted = false) :
    advance rt (({ client := c } : Connection σ).deliver block) = some { client := c' } := by
  have hdeliver : ({ client := c } : Connection σ).deliver block =
      { client := c, packet := block } := by
    simp [deliver, h.aborted]
  have hpending : ({ client := c, packet := block } : Connection σ).pending =
      some (handler, block) := by
    refine pending_eq_some_iff.2 ⟨⟨h.stage, h.aborted, rfl, ?_⟩, h.handler.symm, ?_⟩
    · exact le_of_eq h.length
    · change block = block.take c.expectedLen
      rw [h.length, List.take_length]
  have hadvance : advance rt { client := c, packet := block } =
      iterate rt { client := c, packet := block } := by
    unfold advance
    rw [h.stage]
  rw [hdeliver, hadvance]
  refine iterate_eq_some_iff.2 ⟨handler, block, hpending, ?_⟩
  rw [hrun]
  simp [resume, haborted, h.length]

theorem advance_poised (h : Poised c handler n) (hpos : 0 < n) :
    advance rt { client := c } = none := by
  unfold advance
  rw [h.stage]
  refine iterate_eq_none_iff.2 ?_
  by_contra hpending
  have hle : c.expectedLen ≤ 0 := (pending_ne_none_iff.1 hpending).2.2.2
  rw [h.length] at hle
  omega

/-- The handler is handed its block, and the loop comes to rest armed for another one. -/
theorem haltsAt_block {block : Bytes} {handler' : Handler} (h : Poised c handler block.length)
    (hrun : handler.run rt block c = .ok () c') (h' : Poised c' handler' n) (hpos : 0 < n) :
    HaltsAt (advance rt) (({ client := c } : Connection σ).deliver block) { client := c' } :=
  HaltsAt.head (advance_block h hrun h'.aborted) (HaltsAt.refl (advance_poised h' hpos))

theorem written_append (log log' : List Event) :
    written (log ++ log') = written log ++ written log' := by
  unfold written
  exact List.flatMap_append

/-- A message of the server, answered by a handler that writes. -/
theorem Converses.block {turn : Turn Tap UInt8} {owed extra : Bytes} {last : Connection σ}
    {script : List (Turn Tap UInt8)} {handler' : Handler} {events : List Event}
    (htap : turn.tap = .s2c) (h : Poised c handler turn.bytes.length)
    (hrun : handler.run rt turn.bytes c = .ok () (awaiting handler' n events c)) (hpos : 0 < n)
    (hrest : Converses rt (owed ++ written events)
      ({ client := awaiting handler' n events c } : Connection σ) script extra last) :
    Converses rt owed ({ client := c } : Connection σ) (turn :: script) extra last :=
  Converses.listens htap (haltsAt_block h hrun (h.awaiting handler' n events) hpos)
    (written_append _ _) hrest

/-! ## Up to ServerInit -/

section Handlers

theorem run_numberSecurityTypes :
    Handler.numberSecurityTypes.run rt [1] c = .ok () (awaiting .securityTypes 1 [] c) := by
  unfold awaiting
  rw [List.append_nil]
  rfl

theorem run_securityTypes_late (hversion : ¬ c.version < ⟨3, 8⟩) :
    Handler.securityTypes.run rt [1] c =
      .ok () (awaiting .vncAuthResult 4 [.write (packBE 1 1)] c) := by
  have htypes : (([1] : Bytes).map UInt8.toNat).filter (· ∈ RFBClient.supportedAuths) = [1] := by
    decide
  unfold Handler.run RFBClient.handleSecurityTypes
  dsimp only
  rw [htypes]
  change (if c.version < ⟨3, 8⟩ then RFBClient.doClientInitialization
    else expect .vncAuthResult 4 : Py σ Unit) { c with log := c.log ++ [.write (packBE 1 1)] } = _
  rw [if_neg hversion]
  rfl

theorem run_securityTypes_early (hversion : c.version < ⟨3, 8⟩) :
    Handler.securityTypes.run rt [1] c =
      .ok () (awaiting .serverInit 24
        [.write (packBE 1 1), .write (packBE 1 c.factory.shared)] c) := by
  have htypes : (([1] : Bytes).map UInt8.toNat).filter (· ∈ RFBClient.supportedAuths) = [1] := by
    decide
  unfold Handler.run RFBClient.handleSecurityTypes
  dsimp only
  rw [htypes]
  change (if c.version < ⟨3, 8⟩ then RFBClient.doClientInitialization
    else expect .vncAuthResult 4 : Py σ Unit) { c with log := c.log ++ [.write (packBE 1 1)] } = _
  have hlog : c.log ++ [.write (packBE 1 1), .write (packBE 1 c.factory.shared)] =
      c.log ++ [.write (packBE 1 1)] ++ [.write (packBE 1 c.factory.shared)] := by
    rw [List.append_assoc]
    rfl
  rw [if_pos hversion, awaiting, hlog]
  rfl

theorem run_auth :
    Handler.auth.run rt (packBE 4 1) c =
      .ok () (awaiting .serverInit 24 [.write (packBE 1 c.factory.shared)] c) := rfl

theorem run_vncAuthResult :
    Handler.vncAuthResult.run rt (packBE 4 0) c =
      .ok () (awaiting .serverInit 24 [.write (packBE 1 c.factory.shared)] c) := rfl

end Handlers

/-- The client has answered the greeting. -/
structure Welcomed (s : Session) (c : RFBClient σ) : Prop where
  poised : if s.offersList then Poised c .numberSecurityTypes 1 else Poised c .auth 4
  version : c.version = s.version

/-- From `c` to `c'` the handshake has gone on. -/
structure Onward (c c' : RFBClient σ) : Prop where
  app : c'.app = c.app
  factory : c'.factory = c.factory
  log : ∃ events, c'.log = c.log ++ events ∧ .loseConnection ∉ events

theorem Onward.trans {c₁ : RFBClient σ} (h : Onward c c₁) (h' : Onward c₁ c') : Onward c c' := by
  rcases h.log with ⟨events, hlog, hnone⟩
  rcases h'.log with ⟨events', hlog', hnone'⟩
  refine ⟨h'.app.trans h.app, h'.factory.trans h.factory, events ++ events', ?_, ?_⟩
  · rw [hlog', hlog, List.append_assoc]
  · intro hmem
    rcases List.mem_append.1 hmem with hmem | hmem
    · exact hnone hmem
    · exact hnone' hmem

theorem onward_awaiting {events : List Event} (hnone : .loseConnection ∉ events) :
    Onward c (awaiting handler n events c) :=
  ⟨rfl, rfl, events, rfl, hnone⟩

/-- A well-formed greeting is answered with the version the client chooses for it. -/
theorem haltsAt_greeting {greeting : Bytes} {versionServer version : Ver}
    (hstage : c.stage = .handleInitial) (haborted : c.aborted = false)
    (hgreeted : Greeted greeting) (hlength : greeting.length = 12)
    (hparse : parseVersion greeting = some versionServer)
    (hchoose : RFBClient.chooseVersion versionServer = some version) :
    HaltsAt (advance rt) (({ client := c } : Connection σ).deliver greeting)
      { client := answered version versionServer c } := by
  have hdeliver : ({ client := c } : Connection σ).deliver greeting =
      { client := c, packet := greeting } := by
    simp [deliver, haborted]
  have htake : greeting.take 12 = greeting := List.take_of_length_le hlength.le
  have hadvance : advance rt { client := c, packet := greeting } =
      some { client := answered version versionServer c } := by
    unfold advance
    rw [hstage]
    dsimp only
    rw [if_pos ⟨haborted, rfl, hgreeted⟩]
    unfold greet
    rw [handleInitial_of_greeted hgreeted, htake, hparse]
    dsimp only [Option.bind_some]
    rw [hchoose]
    dsimp only [Option.map_some]
    rw [List.drop_eq_nil_of_le hlength.le]
  rw [hdeliver]
  refine HaltsAt.head hadvance (HaltsAt.refl ?_)
  by_cases hversion : version < ⟨3, 7⟩
  · have hpoised : Poised (answered version versionServer c) .auth 4 :=
      ⟨rfl, haborted, if_pos hversion, if_pos hversion⟩
    exact advance_poised hpoised (by decide)
  · have hpoised : Poised (answered version versionServer c) .numberSecurityTypes 1 :=
      ⟨rfl, haborted, if_neg hversion, if_neg hversion⟩
    exact advance_poised hpoised Nat.one_pos

theorem welcomed_answered {s : Session} (versionServer : Ver) (haborted : c.aborted = false) :
    Welcomed s (answered s.version versionServer c) := by
  refine ⟨?_, rfl⟩
  by_cases hlist : s.offersList
  · have hversion : ¬ s.version < ⟨3, 7⟩ := Ver.not_lt.2 hlist
    rw [if_pos hlist]
    exact ⟨rfl, haborted, if_neg hversion, if_neg hversion⟩
  · have hversion : s.version < ⟨3, 7⟩ := not_not.1 (mt Ver.not_lt.1 hlist)
    rw [if_neg hlist]
    exact ⟨rfl, haborted, if_pos hversion, if_pos hversion⟩

/-- Whatever the version, a client that has answered the greeting is let in without credentials. -/
theorem converses_upToInit {s : Session} {rest : List (Turn Tap UInt8)} {shared : UInt8}
    {hversion : parseVersion (versionLine s.version) = some s.version} (h : Welcomed s c)
    (hshared : packBE 1 c.factory.shared = [shared]) :
    ∃ c', Poised c' .serverInit 24 ∧ Onward c c' ∧ ∀ extra last,
      Converses rt [shared] ({ client := c' } : Connection σ) rest extra last →
      Converses rt [] ({ client := c } : Connection σ)
        ((s.standIn hversion shared).negotiationTurns ++
          ((s.standIn hversion shared).exchange.turns ++
            ((s.standIn hversion shared).resultTurns ++ rest))) extra last := by
  have hpoised := h.poised
  have hone : written [.write (packBE 1 1)] = packBE 1 1 := rfl
  have hinit : written [.write (packBE 1 c.factory.shared)] = [shared] := hshared
  have hboth : written [.write (packBE 1 1), .write (packBE 1 c.factory.shared)] =
      packBE 1 1 ++ [shared] := congrArg _ hshared
  by_cases hlist : s.offersList
  -- The server offers one type of security, and the client chooses it.
  · rw [if_pos hlist] at hpoised
    have hnegotiation : (s.standIn hversion shared).negotiationTurns =
        [⟨.s2c, [1], []⟩, ⟨.s2c, [1], [1, 1]⟩, ⟨.c2s, packBE 1 1, [1]⟩] := if_pos hlist
    have hsecond : Poised (awaiting .securityTypes 1 [] c) .securityTypes 1 :=
      hpoised.awaiting _ _ _
    by_cases hkeeps : s.keepsResult
    -- From 3.8 on there is a SecurityResult.
    · have hlate : ¬ (awaiting .securityTypes 1 [] c).version < ⟨3, 8⟩ := by
        change ¬ c.version < ⟨3, 8⟩
        rw [h.version]
        exact Ver.not_lt.2 hkeeps
      have hresults : (s.standIn hversion shared).resultTurns =
          [⟨.s2c, packBE 4 0, if (s.standIn hversion shared).keepsResult then packBE 4 0 else []⟩] :=
        if_pos (Session.hasResult_standIn.2 hkeeps)
      let c₂ := awaiting .vncAuthResult 4 [.write (packBE 1 1)] (awaiting .securityTypes 1 [] c)
      let c₃ := awaiting .serverInit 24 [.write (packBE 1 c.factory.shared)] c₂
      have hthird : Poised c₂ .vncAuthResult 4 := hsecond.awaiting _ _ _
      refine ⟨c₃, hthird.awaiting _ _ _, ?_, fun extra last hrest => ?_⟩
      · exact ((onward_awaiting (by simp)).trans (onward_awaiting (by simp))).trans
          (onward_awaiting (by simp))
      · rw [hnegotiation, hresults]
        refine Converses.block rfl hpoised run_numberSecurityTypes (by decide) ?_
        refine Converses.block rfl hsecond (run_securityTypes_late hlate) (by decide) ?_
        refine @Converses.speaks σ rt [] extra _ last ⟨.c2s, packBE 1 1, [1]⟩ _ rfl ?_
        refine Converses.block rfl hthird run_vncAuthResult (by decide) ?_
        rw [List.nil_append]
        exact hinit ▸ hrest
    -- Before 3.8 the client goes on to ClientInit in the same turn as its choice.
    · have hearly : (awaiting .securityTypes 1 [] c).version < ⟨3, 8⟩ := by
        change c.version < ⟨3, 8⟩
        rw [h.version]
        exact not_not.1 (mt Ver.not_lt.1 hkeeps)
      have hresults : (s.standIn hversion shared).resultTurns = [] :=
        if_neg (mt Session.hasResult_standIn.1 hkeeps)
      refine ⟨awaiting .serverInit 24 [.write (packBE 1 1), .write (packBE 1 c.factory.shared)]
        (awaiting .securityTypes 1 [] c), hsecond.awaiting _ _ _, ?_, fun extra last hrest => ?_⟩
      · exact (onward_awaiting (by simp)).trans (onward_awaiting (by simp))
      · rw [hnegotiation, hresults]
        refine Converses.block rfl hpoised run_numberSecurityTypes (by decide) ?_
        refine Converses.block rfl hsecond (run_securityTypes_early hearly) (by decide) ?_
        rw [List.nil_append, List.nil_append]
        change Converses rt (written [.write (packBE 1 1), .write (packBE 1 c.factory.shared)]) _ _ _ _
        rw [hboth]
        exact @Converses.speaks σ rt [shared] extra _ last ⟨.c2s, packBE 1 1, [1]⟩ _ rfl hrest
  · rw [if_neg hlist] at hpoised
    -- Before 3.7 the server decides the type, and the client chooses nothing.
    have hnegotiation : (s.standIn hversion shared).negotiationTurns =
        [⟨.s2c, packBE 4 1, packBE 4 1⟩] := if_neg hlist
    have hearly : ¬ s.keepsResult := by
      intro hkeeps
      have hversion := Ver.not_lt.2 hkeeps
      exact hlist (Ver.not_lt.1 fun hlt => hversion (Ver.lt_of_lt_of_le hlt (by decide)))
    have hresults : (s.standIn hversion shared).resultTurns = [] :=
      if_neg (mt Session.hasResult_standIn.1 hearly)
    refine ⟨awaiting .serverInit 24 [.write (packBE 1 c.factory.shared)] c,
      hpoised.awaiting _ _ _, onward_awaiting (by simp), fun extra last hrest => ?_⟩
    rw [hnegotiation, hresults]
    refine Converses.block rfl hpoised run_auth (by decide) ?_
    exact hinit ▸ hrest

end Connection

end Vncdotool
