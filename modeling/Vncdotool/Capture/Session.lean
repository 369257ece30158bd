import Vncdotool.Capture.Scrubber

/-!
# Session — the handshakes a scrubber follows, and what it records of them

A `Session` is what a client and a server say to each other through the proxy: the handshake with
its secrets, then arbitrary later traffic.  `script` lists the messages of the handshake in their
causal order, each with what a stripped capture keeps of it.
-/

namespace Vncdotool

open Wire Streaming

/-- The exchange a security type stands for.  ARD is laid out as `RFBClient._handleDHAuth` reads
it. -/
inductive Exchange
  | none
  | vnc (challenge response : Bytes) (hchallenge : challenge.length = 16)
      (hresponse : response.length = 16)
  | ard (generator modulus serverKey credentials clientKey : Bytes) (keyLen : ℕ)
      (hgenerator : generator.length = 2) (hkeyLen : keyLen < 256 ^ 2)
      (hmodulus : modulus.length = keyLen) (hserverKey : serverKey.length = keyLen)
      (hcredentials : credentials.length = ardCredentialsLen)
      (hclientKey : clientKey.length = keyLen)

namespace Exchange

def sectype : Exchange → ℕ
  | none => AuthTypes.NONE
  | vnc .. => AuthTypes.VNC_AUTHENTICATION
  | ard .. => AuthTypes.DIFFIE_HELLMAN

theorem sectype_mem (exchange : Exchange) :
    exchange.sectype ∈ [AuthTypes.NONE, AuthTypes.VNC_AUTHENTICATION, AuthTypes.DIFFIE_HELLMAN] := by
  cases exchange with
  | none => simp [sectype]
  | vnc _ _ _ _ => simp [sectype]
  | ard _ _ _ _ _ _ _ _ _ _ _ _ => simp [sectype]

theorem sectype_lt (exchange : Exchange) : exchange.sectype < 256 :=
  (by decide : ∀ n ∈ [AuthTypes.NONE, AuthTypes.VNC_AUTHENTICATION, AuthTypes.DIFFIE_HELLMAN],
    n < 256) _ exchange.sectype_mem

theorem sectype_ne_invalid (exchange : Exchange) : exchange.sectype ≠ AuthTypes.INVALID :=
  (by decide : ∀ n ∈ [AuthTypes.NONE, AuthTypes.VNC_AUTHENTICATION, AuthTypes.DIFFIE_HELLMAN],
    n ≠ AuthTypes.INVALID) _ exchange.sectype_mem

/-- Nothing of the exchange is recorded. -/
def turns : Exchange → List (Turn Tap UInt8)
  | none => []
  | vnc challenge response _ _ => [⟨.s2c, challenge, []⟩, ⟨.c2s, response, []⟩]
  | ard generator modulus serverKey credentials clientKey keyLen _ _ _ _ _ _ =>
      [⟨.s2c, generator ++ packBE 2 keyLen, []⟩, ⟨.s2c, modulus, []⟩, ⟨.s2c, serverKey, []⟩,
        ⟨.c2s, credentials, []⟩, ⟨.c2s, clientKey, []⟩]

end Exchange

/-- Zero is a SecurityResult: the client is let in. -/
theorem success_lt : 0 < 256 ^ 4 := by decide

/-- What the two sides say. -/
structure Session where
  greeting : Bytes
  reply : Bytes
  version : Ver
  /-- The security types offered to a client of version 3.7 or later. -/
  types : Bytes
  exchange : Exchange
  result : ℕ
  shared : UInt8
  serverInit : Bytes
  name : Bytes
  laterS2c : Bytes
  laterC2s : Bytes
  length_greeting : greeting.length = 12
  length_reply : reply.length = 12
  parse_reply : parseVersion reply = some version
  types_ne_nil : types ≠ []
  length_types : types.length < 256
  result_lt : result < 256 ^ 4
  length_serverInit : serverInit.length = 24
  length_name : name.length = field serverInit 20 4

namespace Session

variable (s : Session)

/-- `negotiated >= (3, 7)`: the security types are a list the client chooses from. -/
def offersList : Prop :=
  ⟨3, 7⟩ ≤ s.version

/-- `negotiated >= (3, 8)`: a `none` handshake has a SecurityResult. -/
def keepsResult : Prop :=
  ⟨3, 8⟩ ≤ s.version

/-- A SecurityResult follows in every case but one. -/
def hasResult : Prop :=
  ¬ (s.version < ⟨3, 8⟩ ∧ s.exchange.sectype = AuthTypes.NONE)

/-- The server did not refuse: the session gets past the SecurityResult. -/
def granted : Prop :=
  s.hasResult → s.result = 0

instance : Decidable s.offersList :=
  inferInstanceAs (Decidable (_ ≤ _))

instance : Decidable s.keepsResult :=
  inferInstanceAs (Decidable (_ ≤ _))

instance : Decidable s.hasResult :=
  inferInstanceAs (Decidable (¬ _))

instance : Decidable s.granted :=
  inferInstanceAs (Decidable (_ → _))

/-! ## The dialogue -/

def negotiationTurns : List (Turn Tap UInt8) :=
  if s.offersList then
    [⟨.s2c, packBE 1 s.types.length, []⟩, ⟨.s2c, s.types, [1, 1]⟩,
      ⟨.c2s, packBE 1 s.exchange.sectype, [1]⟩]
  else
    [⟨.s2c, packBE 4 s.exchange.sectype, packBE 4 1⟩]

def resultTurns : List (Turn Tap UInt8) :=
  if s.hasResult then
    [⟨.s2c, packBE 4 s.result, if s.keepsResult then packBE 4 s.result else []⟩]
  else []

def initTurns : List (Turn Tap UInt8) :=
  if s.granted then
    [⟨.c2s, [s.shared], [s.shared]⟩, ⟨.s2c, s.serverInit, s.serverInit⟩] ++
      if s.name = [] then [] else [⟨.s2c, s.name, s.name⟩]
  else []

/-- The messages of the handshake in their causal order. -/
def script : List (Turn Tap UInt8) :=
  [⟨.s2c, s.greeting, s.greeting⟩, ⟨.c2s, s.reply, s.reply⟩] ++
    (s.negotiationTurns ++ (s.exchange.turns ++ (s.resultTurns ++ s.initTurns)))

/-- The messages up to the client's ClientInit. -/
def beforeInit : List (Turn Tap UInt8) :=
  [⟨.s2c, s.greeting, s.greeting⟩, ⟨.c2s, s.reply, s.reply⟩] ++
    (s.negotiationTurns ++ (s.exchange.turns ++ s.resultTurns))

theorem script_eq : s.script = s.beforeInit ++ s.initTurns := by
  simp [script, beforeInit]

/-- The messages up to the choice of the auth. -/
def opening : List (Turn Tap UInt8) :=
  [⟨.s2c, s.greeting, s.greeting⟩, ⟨.c2s, s.reply, s.reply⟩] ++ s.negotiationTurns

theorem beforeInit_eq : s.beforeInit = s.opening ++ (s.exchange.turns ++ s.resultTurns) := by
  simp [beforeInit, opening]

def later : Tap → Bytes
  | .s2c => s.laterS2c
  | .c2s => s.laterC2s

/-- Everything that is sent over a tap. -/
def wire (tap : Tap) : Bytes :=
  tapBytes tap s.script ++ s.later tap

/-! ## The recording -/

/-- The streams of the `none` session that stands in for the real one. -/
def recording : Tap → Bytes
  | .s2c =>
      s.greeting ++ (if s.offersList then [1, 1] else [0, 0, 0, 1]) ++
        (if s.keepsResult then packBE 4 s.result else []) ++
        (if s.granted then s.serverInit ++ s.name else []) ++ s.laterS2c
  | .c2s =>
      s.reply ++ (if s.offersList then [1] else []) ++
        (if s.granted then [s.shared] else []) ++ s.laterC2s

/-! ## The scrubber follows the script -/

/-- A stripping scrubber suspended at a `yield`, or finished. -/
structure At (scrubber : HandshakeScrubber) (gen : Option Suspension) (inAuth : Bool) : Prop where
  gen_eq : scrubber.gen = gen
  inAuth_eq : scrubber.inAuth = inAuth
  stripping : scrubber.preserveAuth = false

variable {s} {scrubber final : HandshakeScrubber} {suspension : Suspension} {inAuth : Bool}

/-- The rule for one message: what its step records, and the rest of the dialogue after it. -/
theorem At.follows {turn : Turn Tap UInt8} {script : List (Turn Tap UInt8)}
    (h : At scrubber (some suspension) inAuth)
    (hwant : suspension.want = (turn.tap, turn.bytes.length))
    (hrecorded : (scrubber.send turn.bytes).recording.getD (if inAuth then [] else turn.bytes) =
      turn.recorded)
    (hrest : Follows HandshakeScrubber.grammar (scrubber.send turn.bytes) script final) :
    Follows HandshakeScrubber.grammar scrubber (turn :: script) final := by
  refine Follows.cons ?_ ?_ hrest
  · simp [HandshakeScrubber.grammar, HandshakeScrubber.want, h.gen_eq, hwant]
  · simp [HandshakeScrubber.grammar, HandshakeScrubber.advance, h.stripping, h.inAuth_eq, hrecorded]

theorem At.send_eq (h : At scrubber (some suspension) inAuth) (chunk : Bytes) :
    scrubber.send chunk =
      HandshakeScrubber.resume chunk { scrubber with recording := none } suspension := by
  simp [HandshakeScrubber.send, h.gen_eq]

/-- The name, when there is one, ends the handshake. -/
theorem follows_initTurns (h : At scrubber (some .clientInit) false) (hgranted : s.granted) :
    ∃ final, Follows HandshakeScrubber.grammar scrubber s.initTurns final ∧
      At final none false ∧ final.width = some (field s.serverInit 0 2) := by
  rw [initTurns, if_pos hgranted]
  have hinit : At (scrubber.send [s.shared]) (some .serverInit) false := by
    rw [h.send_eq]
    exact ⟨rfl, h.inAuth_eq, h.stripping⟩
  have hdefault : (scrubber.send [s.shared]).recording = none := by
    rw [h.send_eq]
    rfl
  have hserver := hinit.send_eq s.serverInit
  have hlength := s.length_name
  by_cases hname : s.name = []
  · have hzero : field s.serverInit 20 4 = 0 := by simpa [hname] using hlength.symm
    refine ⟨(scrubber.send [s.shared]).send s.serverInit, ?_, ?_⟩
    · rw [if_pos hname]
      refine h.follows rfl (by simp [hdefault]) (hinit.follows ?_ ?_ (Follows.nil _))
      · simp [Suspension.want, s.length_serverInit]
      · simp [hserver, HandshakeScrubber.resume, HandshakeScrubber.finish, hzero]
    · rw [hserver]
      simp only [HandshakeScrubber.resume, hzero, ne_eq, not_true_eq_false, if_false]
      exact ⟨⟨rfl, hinit.inAuth_eq, hinit.stripping⟩, rfl⟩
  · have hne : field s.serverInit 20 4 ≠ 0 := by
      rw [← hlength]
      exact fun hzero => hname (List.length_eq_zero_iff.1 hzero)
    have hnameAt : At ((scrubber.send [s.shared]).send s.serverInit)
        (some (.serverName (field s.serverInit 20 4))) false := by
      rw [hserver]
      simp only [HandshakeScrubber.resume, ne_eq, hne, not_false_eq_true, if_true]
      exact ⟨rfl, hinit.inAuth_eq, hinit.stripping⟩
    refine ⟨((scrubber.send [s.shared]).send s.serverInit).send s.name, ?_, ?_⟩
    · rw [if_neg hname]
      refine h.follows rfl (by simp [hdefault])
        (hinit.follows ?_ ?_ (hnameAt.follows ?_ ?_ (Follows.nil _)))
      · simp [Suspension.want, s.length_serverInit]
      · simp [hserver, HandshakeScrubber.resume, HandshakeScrubber.suspend, hne]
      · simp [Suspension.want, hlength]
      · rw [hnameAt.send_eq]
        simp [HandshakeScrubber.resume, HandshakeScrubber.finish]
    · rw [hnameAt.send_eq]
      refine ⟨⟨rfl, hnameAt.inAuth_eq, hnameAt.stripping⟩, ?_⟩
      rw [hserver]
      simp only [HandshakeScrubber.resume, ne_eq, hne, not_false_eq_true, if_true]
      rfl

/-- The suspension `endAuth` leaves the scrubber in. -/
def afterAuth (s : Session) : Suspension :=
  if s.hasResult then .securityResult s.version else .clientInit

theorem at_endAuth (hstripping : scrubber.preserveAuth = false) :
    At (scrubber.endAuth s.version s.exchange.sectype) (some s.afterAuth) false := by
  by_cases hresult : s.hasResult
  · have hafter : s.afterAuth = .securityResult s.version := if_pos hresult
    have hsplit : ¬ (s.version < ⟨3, 8⟩ ∧ s.exchange.sectype = AuthTypes.NONE) := hresult
    rw [hafter, HandshakeScrubber.endAuth, if_pos hsplit]
    exact ⟨rfl, rfl, hstripping⟩
  · have hafter : s.afterAuth = .clientInit := if_neg hresult
    have hsplit : ¬ ¬ (s.version < ⟨3, 8⟩ ∧ s.exchange.sectype = AuthTypes.NONE) := hresult
    rw [hafter, HandshakeScrubber.endAuth, if_neg hsplit]
    exact ⟨rfl, rfl, hstripping⟩

theorem recording_endAuth (negotiated : Ver) (sectype : ℕ) :
    (scrubber.endAuth negotiated sectype).recording = scrubber.recording := by
  unfold HandshakeScrubber.endAuth
  split_ifs <;> rfl

theorem follows_resultTurns (h : At scrubber (some s.afterAuth) false) :
    ∃ next, Follows HandshakeScrubber.grammar scrubber s.resultTurns next ∧
      At next (if s.granted then some .clientInit else none) false := by
  by_cases hresult : s.hasResult
  · have hafter : s.afterAuth = .securityResult s.version := if_pos hresult
    rw [hafter] at h
    have hfield : field (packBE 4 s.result) 0 4 = s.result := by
      simpa using field_pack [] [] rfl s.result_lt
    refine ⟨scrubber.send (packBE 4 s.result), ?_, ?_⟩
    · rw [resultTurns, if_pos hresult]
      refine h.follows (by simp [Suspension.want]) ?_ (Follows.nil _)
      rw [h.send_eq]
      simp only [HandshakeScrubber.resume, hfield]
      by_cases hzero : s.result = 0
      · by_cases hkeeps : s.keepsResult
        · have hversion : ⟨3, 8⟩ ≤ s.version := hkeeps
          simp [hzero, hkeeps, hversion, HandshakeScrubber.record, HandshakeScrubber.suspend]
        · have hversion : ¬ (⟨3, 8⟩ : Ver) ≤ s.version := hkeeps
          simp [hzero, hkeeps, hversion, HandshakeScrubber.record, HandshakeScrubber.suspend]
      · by_cases hkeeps : s.keepsResult
        · have hversion : ¬ s.version < ⟨3, 8⟩ := Ver.not_lt.2 hkeeps
          simp [hzero, hkeeps, hversion, HandshakeScrubber.finish]
        · have hversion : s.version < ⟨3, 8⟩ := not_not.1 (mt Ver.not_lt.1 hkeeps)
          simp [hzero, hkeeps, hversion, HandshakeScrubber.record, HandshakeScrubber.finish]
    · rw [h.send_eq]
      simp only [HandshakeScrubber.resume, hfield]
      by_cases hzero : s.result = 0
      · have hgranted : s.granted := fun _ => hzero
        simp only [hzero, ne_eq, not_true_eq_false, if_false, if_pos hgranted]
        exact ⟨rfl, h.inAuth_eq, h.stripping⟩
      · have hgranted : ¬ s.granted := fun hgranted => hzero (hgranted hresult)
        simp only [ne_eq, hzero, not_false_eq_true, if_true, if_neg hgranted]
        split_ifs
        · exact ⟨rfl, h.inAuth_eq, h.stripping⟩
        · exact ⟨rfl, h.inAuth_eq, h.stripping⟩
  · have hgranted : s.granted := fun hresult' => absurd hresult' hresult
    have hafter : s.afterAuth = .clientInit := if_neg hresult
    rw [hafter] at h
    rw [resultTurns, if_neg hresult, if_pos hgranted]
    exact ⟨scrubber, Follows.nil _, h⟩

/-- A secret block: inside the exchange a step records nothing, and goes on to the next one. -/
theorem At.follows_secret {tap : Tap} {block : Bytes} {script : List (Turn Tap UInt8)}
    {next : Suspension} {P : HandshakeScrubber → Prop} (h : At scrubber (some suspension) true)
    (hwant : suspension.want = (tap, block.length))
    (hnext : ∀ scrubber : HandshakeScrubber,
      scrubber.resume block suspension = scrubber.suspend next)
    (hrest : ∀ scrubber', At scrubber' (some next) true →
      ∃ final, Follows HandshakeScrubber.grammar scrubber' script final ∧ P final) :
    ∃ final, Follows HandshakeScrubber.grammar scrubber (⟨tap, block, []⟩ :: script) final ∧
      P final := by
  have hsend : scrubber.send block =
      HandshakeScrubber.suspend next { scrubber with recording := none } := by
    rw [h.send_eq, hnext]
  have hat : At (scrubber.send block) (some next) true := by
    rw [hsend]
    exact ⟨rfl, h.inAuth_eq, h.stripping⟩
  rcases hrest _ hat with ⟨final, hfollows, hfinal⟩
  refine ⟨final, h.follows hwant ?_ hfollows, hfinal⟩
  rw [hsend]
  rfl

/-- The last block of an exchange. -/
theorem At.follows_last_secret {tap : Tap} {block : Bytes}
    (h : At scrubber (some suspension) true) (hwant : suspension.want = (tap, block.length))
    (hend : ∀ scrubber : HandshakeScrubber, scrubber.resume block suspension =
      scrubber.endAuth s.version s.exchange.sectype) :
    ∃ final, Follows HandshakeScrubber.grammar scrubber [⟨tap, block, []⟩] final ∧
      At final (some s.afterAuth) false := by
  have hsend : scrubber.send block =
      HandshakeScrubber.endAuth s.version s.exchange.sectype { scrubber with recording := none } := by
    rw [h.send_eq, hend]
  refine ⟨scrubber.send block, h.follows hwant ?_ (Follows.nil _), ?_⟩
  · rw [hsend, recording_endAuth]
    rfl
  · rw [hsend]
    exact at_endAuth h.stripping

theorem follows_exchangeTurns (hstripping : scrubber.preserveAuth = false) :
    ∃ final, Follows HandshakeScrubber.grammar
        (scrubber.beginAuth s.version s.exchange.sectype) s.exchange.turns final ∧
      At final (some s.afterAuth) false := by
  have hlast := @At.follows_last_secret s
  cases hexchange : s.exchange with
  | none =>
      refine ⟨_, Follows.nil _, ?_⟩
      have hend := @at_endAuth s
        { scrubber with securityType := some AuthTypes.NONE, inAuth := true } hstripping
      rwa [hexchange] at hend
  | vnc challenge response hchallenge hresponse =>
      rw [hexchange] at hlast
      have hchallengeAt : At (scrubber.beginAuth s.version AuthTypes.VNC_AUTHENTICATION)
          (some (.challenge s.version)) true := ⟨rfl, rfl, hstripping⟩
      refine hchallengeAt.follows_secret (by rw [hchallenge]; rfl) (fun _ => rfl) ?_
      intro scrubber hresponseAt
      exact hlast hresponseAt (by rw [hresponse]; rfl) (fun _ => rfl)
  | ard generator modulus serverKey credentials clientKey keyLen hgenerator hkeyLen hmodulus
      hserverKey hcredentials hclientKey =>
      rw [hexchange] at hlast
      have hfield : field (generator ++ packBE 2 keyLen) 2 2 = keyLen := by
        simpa using field_pack generator [] hgenerator hkeyLen
      have hheadAt : At (scrubber.beginAuth s.version AuthTypes.DIFFIE_HELLMAN)
          (some (.ardHead s.version)) true := ⟨rfl, rfl, hstripping⟩
      refine hheadAt.follows_secret (by simp [Suspension.want, hgenerator])
        (fun _ => by rw [HandshakeScrubber.resume, hfield]) ?_
      intro scrubber hmodulusAt
      refine hmodulusAt.follows_secret (by rw [hmodulus]; rfl) (fun _ => rfl) ?_
      intro scrubber hserverKeyAt
      refine hserverKeyAt.follows_secret (by rw [hserverKey]; rfl) (fun _ => rfl) ?_
      intro scrubber hcredentialsAt
      refine hcredentialsAt.follows_secret (by rw [hcredentials]; rfl) (fun _ => rfl) ?_
      intro scrubber hclientKeyAt
      exact hlast hclientKeyAt (by rw [hclientKey]; rfl) (fun _ => rfl)

theorem recording_giveUp (why : AbortReason) :
    (scrubber.giveUp why).recording = scrubber.recording := by
  unfold HandshakeScrubber.giveUp
  split_ifs <;> rfl

theorem recording_beginAuth (negotiated : Ver) (sectype : ℕ) :
    (scrubber.beginAuth negotiated sectype).recording = scrubber.recording := by
  unfold HandshakeScrubber.beginAuth
  split_ifs
  · rfl
  · rfl
  · exact recording_giveUp _
  · exact recording_endAuth _ _

/-- The suspension after the client's version reply. -/
def afterReply (s : Session) : Suspension :=
  if s.offersList then .numTypes s.version else .auth s.version

theorem follows_negotiationTurns (h : At scrubber (some s.afterReply) false) :
    ∃ scrubber' : HandshakeScrubber, scrubber'.known = scrubber.known ∧
      Follows HandshakeScrubber.grammar scrubber s.negotiationTurns
        (scrubber'.beginAuth s.version s.exchange.sectype) := by
  have hsectype := s.exchange.sectype_lt
  by_cases hlist : s.offersList
  -- A list of types, and the choice of the client.
  · have hafter : s.afterReply = .numTypes s.version := if_pos hlist
    rw [hafter] at h
    have hcount : field (packBE 1 s.types.length) 0 1 = s.types.length := by
      simpa using field_pack [] [] rfl s.length_types
    have hchoice : field (packBE 1 s.exchange.sectype) 0 1 = s.exchange.sectype := by
      simpa using field_pack [] [] rfl hsectype
    have hsome : s.types.length ≠ 0 := fun hzero => s.types_ne_nil (List.length_eq_zero_iff.1 hzero)
    have hcountSend : scrubber.send (packBE 1 s.types.length) =
        (HandshakeScrubber.record [] { scrubber with recording := none }).suspend
          (.types s.version s.types.length) := by
      rw [h.send_eq, HandshakeScrubber.resume, hcount]
      exact if_neg hsome
    have htypes : At (scrubber.send (packBE 1 s.types.length))
        (some (.types s.version s.types.length)) false := by
      rw [hcountSend]
      exact ⟨rfl, h.inAuth_eq, h.stripping⟩
    have hchosen : At ((scrubber.send (packBE 1 s.types.length)).send s.types)
        (some (.sectype s.version)) false := by
      rw [htypes.send_eq]
      exact ⟨rfl, htypes.inAuth_eq, htypes.stripping⟩
    have hbegin := hchosen.send_eq (packBE 1 s.exchange.sectype)
    rw [HandshakeScrubber.resume, hchoice] at hbegin
    refine ⟨HandshakeScrubber.record [UInt8.ofNat AuthTypes.NONE]
      { (scrubber.send (packBE 1 s.types.length)).send s.types with recording := none }, ?_, ?_⟩
    · rw [htypes.send_eq, hcountSend]
      rfl
    rw [negotiationTurns, if_pos hlist]
    refine h.follows (by simp [Suspension.want]) ?_ (htypes.follows rfl ?_
      (hchosen.follows (by simp [Suspension.want]) ?_ ?_))
    · rw [hcountSend]
      rfl
    · rw [htypes.send_eq]
      rfl
    · rw [hbegin, recording_beginAuth]
      rfl
    · rw [hbegin]
      exact Follows.nil _
  -- A word with the type: the client has no choice.
  · have hafter : s.afterReply = .auth s.version := if_neg hlist
    rw [hafter] at h
    have hword : unpackBE (packBE 4 s.exchange.sectype) = s.exchange.sectype :=
      unpackBE_packBE_of_lt (lt_trans hsectype (by decide))
    have hvalid : s.exchange.sectype ≠ AuthTypes.INVALID := s.exchange.sectype_ne_invalid
    have hbegin := h.send_eq (packBE 4 s.exchange.sectype)
    rw [HandshakeScrubber.resume, hword, if_neg hvalid] at hbegin
    refine ⟨{ HandshakeScrubber.record (packBE 4 AuthTypes.NONE)
      { scrubber with recording := none } with securityTypes := [s.exchange.sectype] }, rfl, ?_⟩
    rw [negotiationTurns, if_neg hlist]
    refine h.follows (by simp [Suspension.want]) ?_ ?_
    · rw [hbegin, recording_beginAuth]
      rfl
    · rw [hbegin]
      exact Follows.nil _

/-- A stripping scrubber asks for the messages up to the choice of the auth. -/
theorem follows_opening (s : Session) :
    ∃ begun : HandshakeScrubber, begun.known = (false, none, some s.version, none, none) ∧
      Follows HandshakeScrubber.grammar {} s.opening
        (begun.beginAuth s.version s.exchange.sectype) := by
  have hgreeting : At {} (some .serverHead) false := ⟨rfl, rfl, rfl⟩
  have hreply : At (HandshakeScrubber.send {} s.greeting) (some .clientHead) false :=
    ⟨rfl, rfl, rfl⟩
  have hsend : (HandshakeScrubber.send {} s.greeting).send s.reply =
      HandshakeScrubber.suspend s.afterReply
        { HandshakeScrubber.send {} s.greeting with
          recording := none, negotiatedVersion := some s.version } := by
    rw [hreply.send_eq, HandshakeScrubber.resume, s.parse_reply]
    by_cases hlist : s.offersList
    · have hversion : ⟨3, 7⟩ ≤ s.version := hlist
      simp [afterReply, hlist, hversion]
    · have hversion : ¬ (⟨3, 7⟩ : Ver) ≤ s.version := hlist
      simp [afterReply, hlist, hversion]
  have hafter : At ((HandshakeScrubber.send {} s.greeting).send s.reply)
      (some s.afterReply) false := by
    rw [hsend]
    exact ⟨rfl, rfl, rfl⟩
  rcases follows_negotiationTurns hafter with ⟨begun, hknown, hnegotiation⟩
  refine ⟨begun, ?_, ?_⟩
  · rw [hknown, hsend]
    rfl
  · refine hgreeting.follows (by rw [s.length_greeting]; rfl) rfl
      (hreply.follows (by rw [s.length_reply]; rfl) ?_ hnegotiation)
    rw [hsend]
    rfl

/-- A stripping scrubber asks for the messages up to the ClientInit, and then for the ClientInit. -/
theorem follows_beforeInit (s : Session) :
    ∃ next, Follows HandshakeScrubber.grammar {} s.beforeInit next ∧
      At next (if s.granted then some .clientInit else none) false := by
  rcases follows_opening s with ⟨begun, hknown, hopening⟩
  have hstripping : begun.preserveAuth = false := (Prod.mk.inj hknown).1
  rcases @follows_exchangeTurns s begun hstripping with ⟨ended, hexchange, hended⟩
  rcases follows_resultTurns hended with ⟨next, hresult, hnext⟩
  refine ⟨next, ?_, hnext⟩
  rw [beforeInit_eq]
  exact hopening.append (hexchange.append hresult)

/-- A stripping scrubber asks for exactly the messages of the script. -/
theorem follows_script (s : Session) :
    ∃ final, Follows HandshakeScrubber.grammar {} s.script final ∧ At final none false := by
  rcases follows_beforeInit s with ⟨next, hbefore, hnext⟩
  rw [script_eq]
  by_cases hgranted : s.granted
  · rw [if_pos hgranted] at hnext
    rcases follows_initTurns hnext hgranted with ⟨final, hinit, hfinal, -⟩
    exact ⟨final, hbefore.append hinit, hfinal⟩
  · rw [if_neg hgranted] at hnext
    rw [initTurns, if_neg hgranted, List.append_nil]
    exact ⟨next, hbefore, hnext⟩

/-- The auth of a session is one that can be followed. -/
theorem known_beginAuth (exchange : Exchange) (negotiated : Ver) :
    (scrubber.beginAuth negotiated exchange.sectype).known = scrubber.known := by
  cases exchange with
  | none => exact HandshakeScrubber.known_endAuth _ _ _
  | vnc challenge response _ _ => rfl
  | ard generator modulus serverKey credentials clientKey keyLen _ _ _ _ _ _ => rfl

theorem settled_script (h : Follows HandshakeScrubber.grammar {} s.script final) :
    final.abortReason = none ∧ final.negotiatedVersion = some s.version := by
  rcases follows_opening s with ⟨begun, hknown, hopening⟩
  have hsplit : s.script = s.opening ++ (s.exchange.turns ++ s.resultTurns ++ s.initTurns) := by
    rw [script_eq, beforeInit_eq, List.append_assoc]
  rw [hsplit] at h
  rcases h.split with ⟨next, hnext, hrest⟩
  rw [hnext.deterministic hopening] at hrest
  have hbegun := (@known_beginAuth begun s.exchange s.version).trans hknown
  simp only [HandshakeScrubber.known, Prod.mk.injEq] at hbegun
  have hrank : (begun.beginAuth s.version s.exchange.sectype).rank < 10 :=
    Nat.lt_succ_of_le (HandshakeScrubber.rank_beginAuth _ _ _)
  rcases HandshakeScrubber.settled_of_follows hrest hrank with ⟨habort, hversion⟩
  exact ⟨habort.trans hbegun.2.1, hversion.trans hbegun.2.2.1⟩

/-- A client that is let in is told the size of the screen. -/
theorem width_script (h : Follows HandshakeScrubber.grammar {} s.script final)
    (hgranted : s.granted) : final.width = some (field s.serverInit 0 2) := by
  rcases follows_beforeInit s with ⟨next, hbefore, hnext⟩
  rw [if_pos hgranted] at hnext
  rcases follows_initTurns hnext hgranted with ⟨final', hinit, -, hwidth⟩
  have hall := hbefore.append hinit
  rw [← script_eq] at hall
  rw [h.deterministic hall, hwidth]

/-! ## Changes of direction -/

theorem ne_nil_of_length {b : Bytes} {n : ℕ} (h : b.length = n) (hpos : 0 < n) : b ≠ [] :=
  List.ne_nil_of_length_pos (h ▸ hpos)

theorem switches_negotiationTurns (last : Option Tap) : Switches last s.negotiationTurns := by
  have hone : ∀ n, packBE 1 n ≠ [] := fun n => ne_nil_of_length (length_packBE 1 n) (by decide)
  have hfour : ∀ n, packBE 4 n ≠ [] := fun n => ne_nil_of_length (length_packBE 4 n) (by decide)
  unfold negotiationTurns
  split_ifs
  · exact ⟨fun _ => hone _, fun _ => s.types_ne_nil, fun _ => hone _, trivial⟩
  · exact ⟨fun _ => hfour _, trivial⟩

/-- An ARD key of length zero leaves a block empty, but never the first one of a direction. -/
theorem switches_exchangeTurns (last : Option Tap) : Switches last s.exchange.turns := by
  cases s.exchange with
  | none => exact trivial
  | vnc challenge response hchallenge hresponse =>
      exact ⟨fun _ => ne_nil_of_length hchallenge (by decide),
        fun _ => ne_nil_of_length hresponse (by decide), trivial⟩
  | ard generator modulus serverKey credentials clientKey keyLen hgenerator hkeyLen hmodulus
      hserverKey hcredentials hclientKey =>
      have hhead : generator ++ packBE 2 keyLen ≠ [] :=
        List.append_ne_nil_of_left_ne_nil (ne_nil_of_length hgenerator (by decide)) _
      exact ⟨fun _ => hhead, fun h => absurd rfl h, fun h => absurd rfl h,
        fun _ => ne_nil_of_length hcredentials (by decide), fun h => absurd rfl h, trivial⟩

theorem switches_resultTurns (last : Option Tap) : Switches last s.resultTurns := by
  by_cases hresult : s.hasResult
  · rw [resultTurns, if_pos hresult]
    exact ⟨fun _ => ne_nil_of_length (length_packBE 4 _) (by decide), trivial⟩
  · rw [resultTurns, if_neg hresult]
    exact trivial

theorem switches_initTurns (last : Option Tap) : Switches last s.initTurns := by
  unfold initTurns
  split_ifs with hgranted hname
  · exact ⟨fun _ => List.cons_ne_nil _ _,
      fun _ => ne_nil_of_length s.length_serverInit (by decide), trivial⟩
  · exact ⟨fun _ => List.cons_ne_nil _ _,
      fun _ => ne_nil_of_length s.length_serverInit (by decide), fun _ => hname, trivial⟩
  · exact trivial

/-- The message after a change of direction is never empty. -/
theorem switches_script (s : Session) : Switches none s.script := by
  have hresult : ∀ last, Switches last (s.resultTurns ++ s.initTurns) := fun last =>
    Switches.append switches_initTurns (switches_resultTurns last)
  have hexchange : ∀ last, Switches last (s.exchange.turns ++ (s.resultTurns ++ s.initTurns)) :=
    fun last => Switches.append hresult (switches_exchangeTurns last)
  have hrest := fun last => Switches.append hexchange (@switches_negotiationTurns s last)
  exact ⟨fun _ => ne_nil_of_length s.length_greeting (by decide),
    fun _ => ne_nil_of_length s.length_reply (by decide), hrest _⟩

/-! ## What the script records -/

theorem tapRecorded_exchangeTurns (exchange : Exchange) (tap : Tap) :
    tapRecorded tap exchange.turns = [] := by
  cases exchange <;> simp [Exchange.turns]

theorem hasResult_of_keepsResult (h : s.keepsResult) : s.hasResult := by
  rintro ⟨hlt, _⟩
  exact Ver.not_lt.2 h hlt

theorem tapRecorded_resultTurns (tap : Tap) : tapRecorded tap s.resultTurns =
    if tap = .s2c ∧ s.keepsResult then packBE 4 s.result else [] := by
  by_cases hresult : s.hasResult
  · cases tap <;> simp [resultTurns, hresult]
  · have hkeeps : ¬ s.keepsResult := mt hasResult_of_keepsResult hresult
    simp [resultTurns, hresult, hkeeps]

theorem tapRecorded_initTurns (tap : Tap) : tapRecorded tap s.initTurns =
    if s.granted then (if tap = .s2c then s.serverInit ++ s.name else [s.shared]) else [] := by
  by_cases hgranted : s.granted
  · by_cases hname : s.name = []
    · cases tap <;> simp [initTurns, hgranted, hname]
    · cases tap <;> simp [initTurns, hgranted, hname]
  · simp [initTurns, hgranted]

theorem tapRecorded_script (s : Session) (tap : Tap) :
    tapRecorded tap s.script ++ s.later tap = s.recording tap := by
  have hone : packBE 4 1 = [0, 0, 0, 1] := by decide
  cases tap with
  | s2c =>
      by_cases hlist : s.offersList
      · simp [script, recording, later, negotiationTurns, hlist, tapRecorded_exchangeTurns,
          tapRecorded_resultTurns, tapRecorded_initTurns]
      · simp [script, recording, later, negotiationTurns, hlist, tapRecorded_exchangeTurns,
          tapRecorded_resultTurns, tapRecorded_initTurns, hone]
  | c2s =>
      by_cases hlist : s.offersList
      · simp [script, recording, later, negotiationTurns, hlist, tapRecorded_exchangeTurns,
          tapRecorded_resultTurns, tapRecorded_initTurns]
      · simp [script, recording, later, negotiationTurns, hlist, tapRecorded_exchangeTurns,
          tapRecorded_resultTurns, tapRecorded_initTurns]

/-! ## Causal feedings -/

/-- The chunks of both directions in the order the proxy sees them, `fed` being what it has seen
before: each is the next part of its stream, and no message comes before the one it answers. -/
def Causal (s : Session) : (Tap → Bytes) → List (Tap × Bytes) → Prop
  | _, [] => True
  | fed, (tap, chunk) :: chunks =>
      (fed tap ++ chunk <+: s.wire tap ∧
        Answers s.script (Function.update fed tap (fed tap ++ chunk)) tap) ∧
      s.Causal (Function.update fed tap (fed tap ++ chunk)) chunks

/-- What has been seen of each stream. -/
def seen : (Tap → Bytes) → List (Tap × Bytes) → Tap → Bytes
  | fed, [] => fed
  | fed, (tap, chunk) :: chunks => seen (Function.update fed tap (fed tap ++ chunk)) chunks

/-- Nothing is truncated. -/
def Complete (s : Session) (chunks : List (Tap × Bytes)) : Prop :=
  ∀ tap, seen (fun _ => []) chunks tap = s.wire tap

/-- The capture after some of the session has been seen. -/
def Captured (s : Session) (final : HandshakeScrubber) (w : CaptureWriter) (fed : Tap → Bytes) :
    Prop :=
  Synced HandshakeScrubber.grammar {} final s.script w.scrubber fed w.stream

theorem Captured.feed {w : CaptureWriter} {fed : Tap → Bytes} {tap : Tap} {chunk : Bytes}
    (h : s.Captured final w fed) (hfinal : final.want = none)
    (hwire : fed tap ++ chunk <+: s.wire tap)
    (hans : Answers s.script (Function.update fed tap (fed tap ++ chunk)) tap) :
    s.Captured final (w.feed tap chunk) (Function.update fed tap (fed tap ++ chunk)) :=
  CaptureWriter.synced_feed h (Coroutine.Rests.of_finished _ hfinal) hwire hans

/-- The run: every causal feeding keeps the capture in step with the script. -/
theorem Captured.feedAll {chunks : List (Tap × Bytes)} (hfinal : final.want = none) :
    ∀ {w : CaptureWriter} {fed : Tap → Bytes}, s.Captured final w fed → s.Causal fed chunks →
      s.Captured final (w.feedAll chunks) (seen fed chunks) := by
  induction chunks with
  | nil =>
      intro w fed h _
      exact h
  | cons chunk chunks ih =>
      intro w fed h hcausal
      rcases hcausal with ⟨⟨hwire, hans⟩, hcausal⟩
      exact ih (h.feed hfinal hwire hans) hcausal

theorem seen_prefix {chunks : List (Tap × Bytes)} (tap : Tap) :
    ∀ {fed : Tap → Bytes}, fed tap <+: s.wire tap → s.Causal fed chunks →
      seen fed chunks tap <+: s.wire tap := by
  induction chunks with
  | nil =>
      intro fed h _
      exact h
  | cons chunk chunks ih =>
      intro fed h hcausal
      refine ih ?_ hcausal.2
      by_cases htap : tap = chunk.1
      · subst htap
        simpa using hcausal.1.1
      · simpa [Function.update_of_ne htap] using h

theorem captured_feedAll {chunks : List (Tap × Bytes)} (hcausal : s.Causal (fun _ => []) chunks) :
    ∃ final, At final none false ∧
      s.Captured final (({} : CaptureWriter).feedAll chunks) (seen (fun _ => []) chunks) := by
  rcases follows_script s with ⟨final, hfollows, hfinal⟩
  have hwant : final.want = none := by simp [HandshakeScrubber.want, hfinal.gen_eq]
  have hinit : s.Captured final {} (fun _ => []) := by
    have hstream : ({} : CaptureWriter).stream = fun _ => [] := by
      funext tap
      cases tap <;> rfl
    rw [Captured, hstream]
    exact Synced.init hfollows (switches_script s)
  exact ⟨final, hfinal, hinit.feedAll hwant hcausal⟩

/-- Two sessions that differ in nothing but the offered security types, the choice among those with
an exchange, and the secrets exchanged. -/
structure SamePublic (s s' : Session) : Prop where
  greeting : s'.greeting = s.greeting
  reply : s'.reply = s.reply
  exchange : s'.exchange.sectype = AuthTypes.NONE ↔ s.exchange.sectype = AuthTypes.NONE
  result : s'.result = s.result
  shared : s'.shared = s.shared
  serverInit : s'.serverInit = s.serverInit
  name : s'.name = s.name
  laterS2c : s'.laterS2c = s.laterS2c
  laterC2s : s'.laterC2s = s.laterC2s

theorem SamePublic.recording_eq {s s' : Session} (h : s.SamePublic s') (tap : Tap) :
    s'.recording tap = s.recording tap := by
  have hversion : s'.version = s.version := by
    have hparse := s'.parse_reply
    rw [h.reply, s.parse_reply] at hparse
    exact (Option.some.inj hparse).symm
  have hresult : s'.hasResult ↔ s.hasResult := by
    rw [hasResult, hasResult, hversion, h.exchange]
  have hgranted : s'.granted ↔ s.granted := by
    rw [granted, granted, hresult, h.result]
  have hlist : s'.offersList ↔ s.offersList := by
    rw [offersList, offersList, hversion]
  have hkeeps : s'.keepsResult ↔ s.keepsResult := by
    rw [keepsResult, keepsResult, hversion]
  cases tap with
  | s2c =>
      simp only [recording, h.greeting, h.result, h.serverInit, h.name, h.laterS2c, hlist, hkeeps,
        hgranted]
  | c2s => simp only [recording, h.reply, h.shared, h.laterC2s, hlist, hgranted]

/-- Whatever the cuts, the interleaving and the point at which the connection drops, the capture
of a session is the beginning of the recording of the `none` session, and all of it when nothing
was truncated; another session with other secrets has the same capture. -/
theorem capture_exact (s : Session) (chunks : List (Tap × Bytes))
    (hcausal : s.Causal (fun _ => []) chunks) (tap : Tap) :
    ((({} : CaptureWriter).feedAll chunks).flush.stream tap <+: s.recording tap) ∧
      (s.Complete chunks →
        (({} : CaptureWriter).feedAll chunks).flush.stream tap = s.recording tap ∧
        ∀ s' chunks', s.SamePublic s' → s'.Causal (fun _ => []) chunks' → s'.Complete chunks' →
          (({} : CaptureWriter).feedAll chunks').flush.stream tap =
            (({} : CaptureWriter).feedAll chunks).flush.stream tap) := by
  have hleads : seen (fun _ => []) chunks tap <+: s.wire tap :=
    seen_prefix tap List.nil_prefix hcausal
  have hexact : ∀ (s : Session) (chunks : List (Tap × Bytes)), s.Causal (fun _ => []) chunks →
      s.Complete chunks →
      (({} : CaptureWriter).feedAll chunks).flush.stream tap = s.recording tap := by
    intro s chunks hcausal hcomplete
    rcases captured_feedAll hcausal with ⟨final, hfinal, hcaptured⟩
    rw [CaptureWriter.stream_flush hcaptured tap, ← tapRecorded_script]
    exact (hcaptured.out_eq hcomplete).1
  constructor
  · rcases captured_feedAll hcausal with ⟨final, hfinal, hcaptured⟩
    rw [CaptureWriter.stream_flush hcaptured tap, ← tapRecorded_script]
    exact hcaptured.out_prefix hleads
  · intro hcomplete
    refine ⟨hexact s chunks hcausal hcomplete, ?_⟩
    intro s' chunks' hpublic hcausal' hcomplete'
    rw [hexact s' chunks' hcausal' hcomplete', hexact s chunks hcausal hcomplete,
      hpublic.recording_eq]

instance decidableCausal (s : Session) :
    ∀ (fed : Tap → Bytes) (chunks : List (Tap × Bytes)), Decidable (s.Causal fed chunks)
  | _, [] => isTrue trivial
  | fed, (tap, chunk) :: chunks =>
      have := decidableCausal s (Function.update fed tap (fed tap ++ chunk)) chunks
      inferInstanceAs (Decidable ((_ ∧ _) ∧ _))

/-- A 3.8 session with VNC authentication and a two byte name. -/
def sample : Session where
  greeting := versionLine ⟨3, 8⟩
  reply := versionLine ⟨3, 8⟩
  version := ⟨3, 8⟩
  types := [1, 2]
  exchange := .vnc (List.replicate 16 7) (List.replicate 16 9) rfl rfl
  result := 0
  shared := 1
  serverInit := List.replicate 20 0 ++ [0, 0, 0, 2]
  name := [104, 105]
  laterS2c := [2]
  laterC2s := [4, 5]
  length_greeting := rfl
  length_reply := rfl
  parse_reply := by decide
  types_ne_nil := by decide
  length_types := by decide
  result_lt := success_lt
  length_serverInit := rfl
  length_name := by decide

/-- The sample session cut across its messages. -/
def sampleChunks : List (Tap × Bytes) :=
  [(.s2c, (versionLine ⟨3, 8⟩).take 5), (.s2c, (versionLine ⟨3, 8⟩).drop 5),
    (.c2s, versionLine ⟨3, 8⟩), (.s2c, [2, 1]), (.s2c, [2]), (.c2s, [2]),
    (.s2c, List.replicate 16 7), (.c2s, List.replicate 10 9), (.c2s, List.replicate 6 9),
    (.s2c, [0, 0, 0, 0]), (.c2s, [1]), (.s2c, List.replicate 20 0),
    (.s2c, [0, 0, 0, 2, 104, 105, 2]), (.c2s, [4, 5])]

theorem capture_exact_sample :
    (({} : CaptureWriter).feedAll sampleChunks).flush.s2c =
      versionLine ⟨3, 8⟩ ++ [1, 1] ++ [0, 0, 0, 0] ++ List.replicate 20 0 ++
        [0, 0, 0, 2, 104, 105, 2] := by
  have hcomplete : sample.Complete sampleChunks := by
    intro tap
    cases tap <;> decide
  have hcausal : sample.Causal (fun _ => []) sampleChunks := by decide +kernel
  exact ((capture_exact sample sampleChunks hcausal .s2c).2 hcomplete).1.trans (by decide)

end Session

end Vncdotool
