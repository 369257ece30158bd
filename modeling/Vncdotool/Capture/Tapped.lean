import Vncdotool.Capture.Credentials
import Vncdotool.Replay.Admission
import Vncdotool.Replay.Serving
import Vncdotool.Streaming.Settling

/-!
# Tapped — a client whose connection runs through the taps of a capture

`RFBClient` parks a handler for the next block of the server; `HandshakeScrubber` suspends its
generator at the next block of either side.  The two are written apart, and a capture relies on
them to take the same blocks.  Here a client talks to a server through the taps: every chunk of the
server is fed to `s2c` before the client sees it, and every write of the client to `c2s`.

Handler by handler, a turn of the client is one of the generator: a block that takes the one on
takes the other on too, and what the client writes upon it is what the generator takes next.
-/

namespace Vncdotool

open Wire Streaming

/-! ## A client behind the taps -/

/-- The data of a `transport.write`. -/
def Event.written? : Event → Option Bytes
  | .write data => some data
  | _ => none

/-- What a client has written since its log was `before`, write by write. -/
def writesSince (before after : List Event) : List Bytes :=
  (after.drop before.length).filterMap Event.written?

/-- Where in the server's stream a client has consumed the name, and what it then knows. -/
structure Naming where
  offset : ℕ
  width : ℕ
  height : ℕ
  version : Ver
  deriving DecidableEq, Repr

/-- A client and the scrubber its connection runs through. -/
structure TappedClient where
  conn : Connection Unit
  scrubber : TappedScrubber
  /-- How much of the server's stream has been received. -/
  received : ℕ := 0
  /-- How much of it the generator has been sent. -/
  taken : ℕ := 0
  naming : Option Naming := none

namespace TappedScrubber

/-- The writes of the client, fed to `c2s` in order. -/
def hear (s : TappedScrubber) (writes : List Bytes) : TappedScrubber :=
  writes.foldl (fun s data => (s.feed .c2s data).2) s

/-- How much of the server's stream is sent to the generator when `feed` is given a chunk: what is
held back and the chunk, less what the loop leaves of them. -/
def takes (s : TappedScrubber) (data : Bytes) : ℕ :=
  (s.pending .s2c ++ data).length -
    (HandshakeScrubber.grammar.remnant .s2c s.core (s.pending .s2c ++ data)).length

end TappedScrubber

namespace TappedClient

/-- Before the first byte. -/
def init (factory : Factory) (preserveAuth : Bool) : TappedClient where
  conn := Connection.init () factory
  scrubber := TappedScrubber.init preserveAuth

/-- The client has become `conn`, and what it wrote is fed to `c2s`. -/
def become (t : TappedClient) (conn : Connection Unit) : TappedClient :=
  { t with
    conn := conn
    scrubber := t.scrubber.hear (writesSince t.conn.client.log conn.client.log) }

variable (env : Env)

/-- A chunk of the server is fed to `s2c`, then the client sees it. -/
def receive (t : TappedClient) (data : Bytes) : TappedClient :=
  { t with
    scrubber := (t.scrubber.feed .s2c data).2
    received := t.received + data.length
    taken := t.taken + t.scrubber.takes data }.become (t.conn.enter (RFBClient.runtime env) data)

/-- A turn of the client's loop; the one that consumes the name is noted. -/
def turn (t : TappedClient) : TappedClient :=
  match t.conn.iterate (RFBClient.runtime env) with
  | none => t
  | some conn =>
      if t.naming = none ∧ t.conn.client.expectedHandler = .serverName then
        { t.become conn with
          naming := some
            { offset := t.received - conn.packet.length
              width := conn.client.width
              height := conn.client.height
              version := conn.client.version } }
      else
        t.become conn

inductive Action
  | receive (data : Bytes)
  | turn
  deriving DecidableEq, Repr

/-- A chunk is received when the client's loop is at rest. -/
def step (t : TappedClient) : Action → TappedClient
  | .receive data => if t.conn.pending = none then t.receive env data else t
  | .turn => t.turn env

end TappedClient

/-! ## In step -/

/-- How many bytes of the server a client waits for. -/
def Connection.awaited (conn : Connection Unit) : ℕ :=
  match conn.client.stage with
  | .handleInitial => 12
  | .handleExpected => conn.client.expectedLen

/-- The server has refused or rejected the client, or the client has given up: it waits for the
reason, or has reported a failure or closed the connection. -/
def RFBClient.TurnedAway (c : RFBClient Unit) : Prop :=
  c.expectedHandler ∈ [Handler.connFailed, .connMessage, .authFailed, .authFailedMessage] ∨
    ∃ event ∈ c.log, event.isFailure = true

/-- The handshake is complete: nothing more is waited for, and the size is known. -/
def HandshakeScrubber.Complete (s : HandshakeScrubber) : Prop :=
  s.want = none ∧ s.width ≠ none ∧ s.height ≠ none

namespace TappedClient

/-- The scrubber waits for the block that the client is parked for, with the same bytes pending,
until the name has been consumed; then it is complete, at the same offset and with the same
values. -/
structure InStep (t : TappedClient) : Prop where
  waiting : t.naming = none → t.scrubber.core.want = some (.s2c, t.conn.awaited) ∧
    t.scrubber.pending .s2c = t.conn.packet
  completes : t.scrubber.core.Complete ↔ t.naming ≠ none
  agrees : ∀ naming, t.naming = some naming →
    t.taken = naming.offset ∧ t.scrubber.core.width = some naming.width ∧
      t.scrubber.core.height = some naming.height ∧
      t.scrubber.core.negotiatedVersion = some naming.version

/-- Up to the name, the step does not turn the client away. -/
def Admitted (env : Env) (t : TappedClient) (action : Action) : Prop :=
  t.naming = none →
    (t.step env action).conn.raised = none ∧ ¬ (t.step env action).conn.client.TurnedAway

/-- Up to the name, the server waits for the client: when the client writes, it has read whatever
the server has sent. -/
def Waits (env : Env) (t : TappedClient) (action : Action) : Prop :=
  t.naming = none →
    writesSince t.conn.client.log (t.step env action).conn.client.log ≠ [] →
      (t.step env action).conn.packet = []

end TappedClient

/-- The ciphers keep the lengths of what they are given, and the credentials for Apple's
authentication fit their fields. -/
structure Env.KeepsLengths (env : Env) (factory : Factory) : Prop where
  des : ∀ key challenge, challenge.length = 16 → (env.tripleDES key challenge).length = 16
  aes : ∀ key data ciphertext, env.aesECB key data = .ok ciphertext →
    ciphertext.length = data.length
  username : FitsField (factory.username.getD env.typedUsername)
  password : FitsField (factory.password.getD env.typedPassword)

/-! ## The generator -/

namespace HandshakeScrubber

variable {m : HandshakeScrubber} {suspension : Suspension} {version : Ver} {chunk : Bytes}

/-- The generator is suspended there, the version being negotiated. -/
structure Suspended (m : HandshakeScrubber) (suspension : Suspension) (version : Ver) : Prop where
  gen : m.gen = some suspension
  version : m.negotiatedVersion = some version

theorem send_of_gen (h : m.gen = some suspension) (chunk : Bytes) :
    m.send chunk = HandshakeScrubber.resume chunk { m with recording := none } suspension := by
  simp [send, h]

theorem waitingOn_of_gen (h : m.gen = some suspension) (tap : Tap) {n : ℕ}
    (hwant : suspension.want = (tap, n)) : grammar.waitingOn m tap = some n :=
  (grammar.waitingOn_eq_some_iff).2 ((want_of_gen h).trans (congrArg some hwant))

/-- The tap that is not asked. -/
theorem not_waitingOn_of_gen (h : m.gen = some suspension) (tap : Tap)
    (hne : suspension.want.1 ≠ tap) : grammar.waitingOn m tap = none :=
  grammar.waitingOn_eq_none_of_ne (want_of_gen h) hne

/-- The version is negotiated once. -/
theorem Suspended.version_send (h : m.Suspended suspension version)
    (hne : suspension ≠ .clientHead) (chunk : Bytes) :
    (m.send chunk).negotiatedVersion = some version := by
  rw [send_of_gen h.gen, negotiatedVersion_resume _ _ hne]
  exact h.version

/-- A step after which the generator is suspended again. -/
theorem Suspended.send {next : Suspension} (h : m.Suspended suspension version)
    (hne : suspension ≠ .clientHead)
    (hgen : (HandshakeScrubber.resume chunk { m with recording := none } suspension).gen =
      some next) : (m.send chunk).Suspended next version :=
  ⟨(congrArg HandshakeScrubber.gen (send_of_gen h.gen chunk)).trans hgen, h.version_send hne chunk⟩

end HandshakeScrubber

/-! ## What the client writes -/

namespace TappedScrubber

open HandshakeScrubber

variable {m : HandshakeScrubber} {suspension : Suspension} {data : Bytes} {writes : List Bytes}

/-- A write that the generator is suspended for. -/
theorem hear_cons (hgen : m.gen = some suspension) (hwant : suspension.want = (.c2s, data.length))
    (hdata : 0 < data.length) (hnext : grammar.waitingOn (m.send data) .c2s ≠ some 0) :
    hear { core := m, pending := fun _ => [] } (data :: writes) =
      hear { core := m.send data, pending := fun _ => [] } writes := by
  have hask : grammar.waitingOn m .c2s = some data.length := waitingOn_of_gen hgen .c2s hwant
  have hsettle :=
    @Coroutine.settle_block _ _ _ _ grammar .c2s m _ data _ [] hask (advance_eq m data)
  rw [List.append_nil, Coroutine.settle_nil hnext] at hsettle
  have hfeed : (TappedScrubber.feed { core := m, pending := fun _ => [] } .c2s data).2 =
      { core := m.send data, pending := fun _ => [] } :=
    (Coroutine.feed_fresh hask hdata).trans hsettle
  rw [hear, List.foldl_cons, hfeed]
  rfl

end TappedScrubber

/-! ## Parked and suspended -/

namespace TappedClient

open HandshakeScrubber

/-- The handler and the `yield` for one block of the server. -/
inductive Opposite (c : RFBClient Unit) : Handler → Suspension → Prop
  | numTypes : Opposite c .numberSecurityTypes (.numTypes c.version)
  | types (n : ℕ) : Opposite c .securityTypes (.types c.version n)
  | auth (hversion : c.version < ⟨3, 7⟩) : Opposite c .auth (.auth c.version)
  | challenge : Opposite c .vncAuth (.challenge c.version)
  | ardHead : Opposite c .dhAuth (.ardHead c.version)
  | ardModulus : Opposite c .dhAuthKey (.ardModulus c.version c.keyLen)
  | ardServerKey : Opposite c .dhAuthCert (.ardServerKey c.version c.keyLen)
  | securityResult : Opposite c .vncAuthResult (.securityResult c.version)
  | serverInit : Opposite c .serverInit .serverInit

/-- The client is parked for the block at which the generator is suspended.  Without a name the
generator has already returned when the client comes to consume it. -/
inductive Abreast (c : RFBClient Unit) (m : HandshakeScrubber) : Prop
  | greeting (hstage : c.stage = .handleInitial) (haborted : c.aborted = false)
      (hgen : m.gen = some .serverHead)
  | block {handler : Handler} {suspension : Suspension} {n : ℕ}
      (hopposite : Opposite c handler suspension) (hpoised : Connection.Poised c handler n)
      (hwant : suspension.want = (.s2c, n)) (hsuspended : m.Suspended suspension c.version)
  | name {n : ℕ} (hpoised : Connection.Poised c .serverName n)
      (hgen : m.gen = if n = 0 then none else some (.serverName n))
      (hversion : m.negotiatedVersion = some c.version) (hwidth : m.width = some c.width)
      (hheight : m.height = some c.height)

/-- What the generator `m`, which has taken a block of the server, becomes of what the client writes
upon that block. -/
inductive Answered (m : HandshakeScrubber) : List Bytes → HandshakeScrubber → Prop
  | silent : Answered m [] m
  | reply {write : Bytes} {writes : List Bytes} {m' : HandshakeScrubber} {n : ℕ}
      (hpassing : grammar.waitingOn m .s2c = none)
      (hheard : TappedScrubber.hear { core := m, pending := fun _ => [] } (write :: writes) =
        { core := m', pending := fun _ => [] })
      (hwaits : grammar.waitingOn m' .s2c = some (n + 1)) : Answered m (write :: writes) m'

/-- The credentials of a client fit their fields. -/
def Fitting (env : Env) (c : RFBClient Unit) : Prop :=
  FitsField (c.ardUsername env) ∧ FitsField (c.ardPassword env)

/-- A turn of the client from `c` to `c'` is one of the generator too. -/
structure GoesOn (env : Env) (m : HandshakeScrubber) (block : Bytes) (c c' : RFBClient Unit) :
    Prop where
  fitting : Fitting env c → Fitting env c'
  abreast : ∃ m', Abreast c' m' ∧ Answered (m.send block) (writesSince c.log c'.log) m'

/-- The client goes on with the generator, unless it is turned away. -/
def KeepsPace (env : Env) (m : HandshakeScrubber) (block : Bytes) (c : RFBClient Unit)
    (x : Py Unit Unit) : Prop :=
  Ensures x c (fun _ c' => c'.TurnedAway ∨ GoesOn env m block c c') fun _ _ => True

section KeepsPace

variable {env : Env} {c c' : RFBClient Unit} {m : HandshakeScrubber} {block : Bytes}

theorem writesSince_append (log events : List Event) :
    writesSince log (log ++ events) = events.filterMap Event.written? := by
  rw [writesSince, List.drop_left]

theorem writesSince_self (log : List Event) : writesSince log log = [] := by
  simp [writesSince]

/-- A block that the client does not answer. -/
theorem GoesOn.of_silent (hfitting : Fitting env c → Fitting env c')
    (habreast : Abreast c' (m.send block)) (hlog : c'.log = c.log) : GoesOn env m block c c' := by
  refine ⟨hfitting, m.send block, habreast, ?_⟩
  rw [hlog, writesSince_self]
  exact Answered.silent

/-- A report leaves its trace. -/
theorem turnedAway_of_mem {event : Event} (hmem : event ∈ c.log)
    (hfailure : event.isFailure = true) : c.TurnedAway :=
  Or.inr ⟨event, hmem, hfailure⟩

theorem keepsPace_protocolError (reason : ProtocolFailure) :
    KeepsPace env m block c ((RFBClient.runtime env).protocolError reason) := by
  refine Or.inl (@turnedAway_of_mem _ .loseConnection ?_ rfl)
  exact List.mem_append_right _ List.mem_cons_self

theorem keepsPace_authFailed (reason : AuthFailure) :
    KeepsPace env m block c ((RFBClient.runtime env).authFailed reason) := by
  refine Or.inl (@turnedAway_of_mem _ .loseConnection ?_ rfl)
  exact List.mem_append_right _ List.mem_cons_self

theorem keepsPace_numberSecurityTypes {n : ℕ} (hpoised : Connection.Poised c .numberSecurityTypes n)
    (h : m.Suspended (.numTypes c.version) c.version) :
    KeepsPace env m block c (RFBClient.handleNumberSecurityTypes block) := by
  refine ensures_ite.2 ⟨fun hsome => Or.inr ?_, fun _ => Or.inl (Or.inl List.mem_cons_self)⟩
  refine GoesOn.of_silent id ?_ rfl
  refine Abreast.block (Opposite.types (field block 0 1)) ⟨hpoised.stage, hpoised.aborted, rfl, rfl⟩
    rfl (h.send (by simp) ?_)
  simp only [HandshakeScrubber.resume, if_neg hsome]
  rfl

theorem keepsPace_dhAuth {n : ℕ} (hpoised : Connection.Poised c .dhAuth n)
    (h : m.Suspended (.ardHead c.version) c.version) :
    KeepsPace env m block c (RFBClient.handleDHAuth block) := by
  refine Or.inr (GoesOn.of_silent id ?_ rfl)
  exact Abreast.block Opposite.ardModulus ⟨hpoised.stage, hpoised.aborted, rfl, rfl⟩ rfl
    (h.send (by simp) rfl)

theorem keepsPace_dhAuthKey {n : ℕ} (hpoised : Connection.Poised c .dhAuthKey n)
    (h : m.Suspended (.ardModulus c.version c.keyLen) c.version) :
    KeepsPace env m block c (RFBClient.handleDHAuthKey block) := by
  refine Or.inr (GoesOn.of_silent id ?_ rfl)
  exact Abreast.block Opposite.ardServerKey ⟨hpoised.stage, hpoised.aborted, rfl, rfl⟩ rfl
    (h.send (by simp) rfl)

theorem keepsPace_serverInit {n : ℕ} (hpoised : Connection.Poised c .serverInit n)
    (h : m.Suspended .serverInit c.version) :
    KeepsPace env m block c (RFBClient.handleServerInit block) := by
  have hresume : m.send block = HandshakeScrubber.resume block { m with recording := none }
      .serverInit := send_of_gen h.gen block
  refine Or.inr (GoesOn.of_silent id ?_ rfl)
  refine Abreast.name ⟨hpoised.stage, hpoised.aborted, rfl, rfl⟩ ?_
    (h.version_send (by simp) block) ?_ ?_
  · rw [hresume, HandshakeScrubber.resume]
    by_cases hname : field block 20 4 = 0
    · simp [hname, finish]
    · simp [hname, suspend]
  · rw [hresume, HandshakeScrubber.resume]
    split_ifs
    · rfl
    · rfl
  · rw [hresume, HandshakeScrubber.resume]
    split_ifs
    · rfl
    · rfl

/-! ### Blocks that are answered -/

/-- The generator has taken what the client wrote, and both wait for the server's next block. -/
theorem GoesOn.of_reply {write : Bytes} {writes : List Bytes} {m' : HandshakeScrubber}
    {between suspension : Suspension} {handler : Handler} {n : ℕ}
    (hfitting : Fitting env c → Fitting env c')
    (hwrites : writesSince c.log c'.log = write :: writes)
    (hbetween : (m.send block).gen = some between) (hclient : between.want.1 ≠ .s2c)
    (hheard : TappedScrubber.hear { core := m.send block, pending := fun _ => [] }
      (write :: writes) = { core := m', pending := fun _ => [] })
    (hopposite : Opposite c' handler suspension) (hpoised : Connection.Poised c' handler (n + 1))
    (hwant : suspension.want = (.s2c, n + 1)) (hsuspended : m'.Suspended suspension c'.version) :
    GoesOn env m block c c' := by
  refine ⟨hfitting, m', Abreast.block hopposite hpoised hwant hsuspended, ?_⟩
  rw [hwrites]
  exact Answered.reply (not_waitingOn_of_gen hbetween .s2c hclient) hheard
    (waitingOn_of_gen hsuspended.gen .s2c hwant)

/-- A write that takes the generator on to a block of the server. -/
theorem hear_last {suspension next : Suspension} {data : Bytes} {version : Ver}
    (h : m.Suspended suspension version) (hwant : suspension.want = (.c2s, data.length))
    (hdata : 0 < data.length) (hnext : (m.send data).gen = some next)
    (hserver : next.want.1 ≠ .c2s) :
    TappedScrubber.hear { core := m, pending := fun _ => [] } [data] =
      { core := m.send data, pending := fun _ => [] } := by
  rw [TappedScrubber.hear_cons h.gen hwant hdata]
  · rfl
  · rw [not_waitingOn_of_gen hnext .c2s hserver]
    exact (Option.some_ne_none 0).symm

/-- ClientInit. -/
theorem hear_clientInit {shared : Bytes} {version : Ver} (h : m.Suspended .clientInit version)
    (hshared : shared.length = 1) :
    TappedScrubber.hear { core := m, pending := fun _ => [] } [shared] =
        { core := m.send shared, pending := fun _ => [] } ∧
      (m.send shared).Suspended .serverInit version := by
  have hnext : (m.send shared).Suspended .serverInit version := h.send (by simp) rfl
  refine ⟨hear_last h ?_ ?_ hnext.gen (by simp [Suspension.want]), hnext⟩
  · rw [hshared]
    rfl
  · rw [hshared]
    exact Nat.one_pos

theorem keepsPace_doClientInitialization (hstage : c.stage = .handleExpected)
    (haborted : c.aborted = false) (h : (m.send block).Suspended .clientInit c.version) :
    KeepsPace env m block c RFBClient.doClientInitialization := by
  rcases hear_clientInit h (length_packBE 1 c.factory.shared) with ⟨hheard, hnext⟩
  exact Or.inr (GoesOn.of_reply id (writesSince_append c.log [.write _]) h.gen
    (by simp [Suspension.want]) hheard Opposite.serverInit ⟨hstage, haborted, rfl, rfl⟩ rfl hnext)

theorem keepsPace_vncAuthResult {n : ℕ} (hpoised : Connection.Poised c .vncAuthResult n)
    (h : m.Suspended (.securityResult c.version) c.version) :
    KeepsPace env m block c (RFBClient.handleVNCAuthResult (RFBClient.runtime env) block) := by
  have hrejected {x : Py Unit Unit} (hx : x = expect .authFailed 4 ∨ x = loseConnection) :
      KeepsPace env m block c x := by
    rcases hx with rfl | rfl
    · exact Or.inl (Or.inl (by simp))
    · refine Or.inl (@turnedAway_of_mem _ .loseConnection ?_ rfl)
      exact List.mem_append_right _ List.mem_cons_self
  refine ensures_bind.2 (ensures_ite.2 ⟨fun hgranted => ?_, fun _ => ?_⟩)
  · refine keepsPace_doClientInitialization hpoised.stage hpoised.aborted (h.send (by simp) ?_)
    simp only [HandshakeScrubber.resume, hgranted]
    rfl
  · refine ensures_ite.2 ⟨fun _ => ?_, fun _ => ensures_ite.2 ⟨fun _ => ?_, fun _ => ?_⟩⟩
    · exact ensures_ite.2 ⟨fun _ => keepsPace_authFailed _, fun _ => hrejected (Or.inl rfl)⟩
    · exact ensures_ite.2 ⟨fun _ => keepsPace_authFailed _, fun _ => hrejected (Or.inl rfl)⟩
    · exact hrejected (Or.inr rfl)

theorem supported_cases {sectype : ℕ} (h : sectype ∈ RFBClient.supportedAuths) :
    sectype = AuthTypes.NONE ∨ sectype = AuthTypes.VNC_AUTHENTICATION ∨
      sectype = AuthTypes.DIFFIE_HELLMAN := by
  simpa [RFBClient.supportedAuths] using h

/-- Where the generator goes for a type of security that the client supports. -/
theorem gen_beginAuth {sectype : ℕ} {version : Ver}
    (hsupported : sectype ∈ RFBClient.supportedAuths) :
    (m.beginAuth version sectype).gen = some
      (if sectype = AuthTypes.NONE then
        if version < ⟨3, 8⟩ then .clientInit else .securityResult version
      else if sectype = AuthTypes.VNC_AUTHENTICATION then .challenge version
      else .ardHead version) := by
  rcases supported_cases hsupported with rfl | rfl | rfl
  -- Without authentication the version decides whether there is a SecurityResult.
  · by_cases hversion : version < ⟨3, 8⟩
    · simp [beginAuth, endAuth, suspend, hversion, AuthTypes.NONE, AuthTypes.VNC_AUTHENTICATION,
        AuthTypes.DIFFIE_HELLMAN]
    · simp [beginAuth, endAuth, suspend, hversion, AuthTypes.NONE, AuthTypes.VNC_AUTHENTICATION,
        AuthTypes.DIFFIE_HELLMAN]
  · rfl
  · rfl

theorem keepsPace_auth (hpoised : Connection.Poised c .auth 4)
    (hversion : c.version < ⟨3, 7⟩) (hblock : block.length = 4)
    (h : m.Suspended (.auth c.version) c.version) :
    KeepsPace env m block c (RFBClient.handleAuth (RFBClient.runtime env) block) := by
  have hword : unpackBE block = field block 0 4 := by
    rw [field, slice, List.drop_zero, List.take_of_length_le hblock.le]
  -- A version that has no list of types has no SecurityResult for none of them.
  have hearly : c.version < ⟨3, 8⟩ := Ver.lt_of_lt_of_le hversion (by decide)
  have hsuspended {next : Suspension} (hsome : field block 0 4 ≠ AuthTypes.INVALID)
      (hgen : ∀ m' : HandshakeScrubber,
        (m'.beginAuth c.version (field block 0 4)).gen = some next) :
      (m.send block).Suspended next c.version := by
    refine h.send (by simp) ?_
    simp only [HandshakeScrubber.resume, hword, if_neg hsome]
    exact hgen _
  refine ensures_ite.2 ⟨fun _ => Or.inl (Or.inl List.mem_cons_self), fun hsome => ?_⟩
  refine ensures_ite.2 ⟨fun hnone => ?_, fun hnone => ensures_ite.2 ⟨fun hvnc => ?_, fun _ => ?_⟩⟩
  · refine keepsPace_doClientInitialization hpoised.stage hpoised.aborted (hsuspended hsome ?_)
    intro m'
    rw [hnone, gen_beginAuth (by decide), if_pos rfl, if_pos hearly]
  · refine Or.inr (GoesOn.of_silent id ?_ rfl)
    refine Abreast.block Opposite.challenge ⟨hpoised.stage, hpoised.aborted, rfl, rfl⟩ rfl
      (hsuspended hsome ?_)
    intro m'
    rw [hvnc]
    rfl
  · exact keepsPace_protocolError _

/-- The type that the client chose takes the generator on. -/
theorem hear_sectype {sectype : ℕ} {version : Ver} (h : m.Suspended (.sectype version) version)
    (hsupported : sectype ∈ RFBClient.supportedAuths) {writes : List Bytes} :
    TappedScrubber.hear { core := m, pending := fun _ => [] } (packBE 1 sectype :: writes) =
        TappedScrubber.hear { core := m.send (packBE 1 sectype), pending := fun _ => [] } writes ∧
      (m.send (packBE 1 sectype)).Suspended
        (if sectype = AuthTypes.NONE then
          if version < ⟨3, 8⟩ then .clientInit else .securityResult version
        else if sectype = AuthTypes.VNC_AUTHENTICATION then .challenge version
        else .ardHead version) version := by
  have hsectype : field (packBE 1 sectype) 0 1 = sectype := by
    have hlt : ∀ sectype ∈ RFBClient.supportedAuths, field (packBE 1 sectype) 0 1 = sectype := by
      decide
    exact hlt sectype hsupported
  have hnext : (m.send (packBE 1 sectype)).Suspended _ version :=
    h.send (by simp) (by
      simp only [HandshakeScrubber.resume, hsectype]
      exact gen_beginAuth hsupported)
  refine ⟨TappedScrubber.hear_cons h.gen rfl Nat.one_pos ?_, hnext⟩
  -- A generator that asked for nothing of the client would go on by itself.
  have hpositive : ∀ suspension : Suspension, suspension.want ≠ (.c2s, 0) →
      (m.send (packBE 1 sectype)).gen = some suspension →
      grammar.waitingOn (m.send (packBE 1 sectype)) .c2s ≠ some 0 := by
    intro suspension hne hgen hask
    have hwant := (grammar.waitingOn_eq_some_iff).1 hask
    exact hne (Option.some.inj ((want_of_gen hgen).symm.trans hwant))
  refine hpositive _ ?_ hnext.gen
  split_ifs
  · simp [Suspension.want]
  · simp [Suspension.want]
  · simp [Suspension.want]
  · simp [Suspension.want]

theorem keepsPace_securityTypes {n : ℕ} (hpoised : Connection.Poised c .securityTypes n)
    (h : m.Suspended (.types c.version n) c.version) :
    KeepsPace env m block c (RFBClient.handleSecurityTypes (RFBClient.runtime env) block) := by
  have hsectype : (m.send block).Suspended (.sectype c.version) c.version := h.send (by simp) rfl
  unfold RFBClient.handleSecurityTypes
  dsimp only
  cases hmax : ((block.map UInt8.toNat).filter (· ∈ RFBClient.supportedAuths)).max? with
  | none => exact keepsPace_protocolError _
  | some secType =>
      have hsupported : secType ∈ RFBClient.supportedAuths :=
        of_decide_eq_true (List.mem_filter.1 (List.max?_mem hmax)).2
      rcases @hear_sectype _ secType _ hsectype hsupported [] with ⟨hheard, hnext⟩
      have hwrites := writesSince_append c.log [.write (packBE 1 secType)]
      refine ensures_bind.2 (ensures_ite.2 ⟨fun hnone => ensures_bind.2 ?_, fun hnone => ?_⟩)
      · rw [if_pos hnone] at hnext
        refine ensures_ite.2 ⟨fun hversion => ?_, fun hversion => ?_⟩
        -- ClientInit comes with the answer.
        · rw [if_pos hversion] at hnext
          rcases hear_clientInit hnext (length_packBE 1 c.factory.shared) with ⟨hinit, hlast⟩
          refine Or.inr (GoesOn.of_reply id ?_ hsectype.gen (by simp [Suspension.want])
            ((hear_sectype hsectype hsupported).1.trans hinit) Opposite.serverInit
            ⟨hpoised.stage, hpoised.aborted, rfl, rfl⟩ rfl hlast)
          change writesSince c.log (c.log ++ [_] ++ [_]) = _
          rw [List.append_assoc, writesSince_append]
          rfl
        · rw [if_neg hversion] at hnext
          exact Or.inr (GoesOn.of_reply id hwrites hsectype.gen (by simp [Suspension.want]) hheard
            Opposite.securityResult ⟨hpoised.stage, hpoised.aborted, rfl, rfl⟩ rfl hnext)
      · rw [if_neg hnone] at hnext
        refine ensures_ite.2 ⟨fun hvnc => ?_, fun hvnc => ?_⟩
        · rw [if_pos hvnc] at hnext
          exact Or.inr (GoesOn.of_reply id hwrites hsectype.gen (by simp [Suspension.want]) hheard
            Opposite.challenge ⟨hpoised.stage, hpoised.aborted, rfl, rfl⟩ rfl hnext)
        · rw [if_neg hvnc] at hnext
          refine ensures_ite.2 ⟨fun _ => ?_, fun hard => ?_⟩
          · exact Or.inr (GoesOn.of_reply id hwrites hsectype.gen (by simp [Suspension.want]) hheard
              Opposite.ardHead ⟨hpoised.stage, hpoised.aborted, rfl, rfl⟩ rfl hnext)
          -- The one chosen is one of those that are supported.
          · rcases supported_cases hsupported with heq | heq | heq
            · exact absurd heq hnone
            · exact absurd heq hvnc
            · exact absurd heq hard

/-- The answer to the challenge is of its length. -/
theorem keepsPace_vncAuth {n : ℕ} {factory : Factory} (hlengths : env.KeepsLengths factory)
    (hpoised : Connection.Poised c .vncAuth n) (hblock : block.length = 16)
    (h : m.Suspended (.challenge c.version) c.version) :
    KeepsPace env m block c (RFBClient.handleVNCAuth (RFBClient.runtime env) block) := by
  have hresponse : (m.send block).Suspended (.response c.version) c.version := h.send (by simp) rfl
  refine ensures_bind.2 (ensures_bind.2 (ensures_bind.2 ?_))
  change Ensures (RFBClient.defaultCallback env .vncRequestPassword) _ _ _
  refine (RFBClient.ensures_requestPassword env).2 ⟨fun _ => ?_, fun password _ => ?_⟩
  · refine Or.inl (@turnedAway_of_mem _ .loseConnection ?_ rfl)
    exact List.mem_append_right _ List.mem_cons_self
  · refine RFBClient.ensures_sendPassword env (fun key _ => ?_) fun _ _ => trivial
    have hlength := hlengths.des key block hblock
    have hresult : (((m.send block).send (env.tripleDES key block))).Suspended
        (.securityResult c.version) c.version := by
      refine hresponse.send (by simp) ?_
      rw [HandshakeScrubber.resume, endAuth, if_pos]
      · rfl
      · rintro ⟨-, hsame⟩
        exact absurd hsame (by decide)
    -- The request for the password stands in the log before the answer.
    refine Or.inr (GoesOn.of_reply id ?_ hresponse.gen (by simp [Suspension.want])
      (hear_last hresponse ?_ ?_ hresult.gen (by simp [Suspension.want]))
      Opposite.securityResult ⟨hpoised.stage, hpoised.aborted, rfl, rfl⟩ rfl hresult)
    · change writesSince c.log (c.log ++ [_] ++ [_]) = _
      rw [List.append_assoc, writesSince_append]
      rfl
    · rw [hlength]
      rfl
    · rw [hlength]
      decide

/-- The credentials and the public value are taken one behind the other. -/
theorem hear_ard {keyLen : ℕ} {version : Ver} {message : Bytes}
    (h : m.Suspended (.ardCredentials version keyLen) version)
    (hlength : message.length = ardCredentialsLen + keyLen) :
    ∃ m', TappedScrubber.hear { core := m, pending := fun _ => [] } [message] =
        { core := m', pending := fun _ => [] } ∧
      m'.Suspended (.securityResult version) version := by
  let credentials := message.take ardCredentialsLen
  let clientKey := message.drop ardCredentialsLen
  have hcredentials : credentials.length = ardCredentialsLen := by
    rw [List.length_take, hlength]
    exact min_eq_left (Nat.le_add_right _ _)
  have hclientKey : clientKey.length = keyLen := by
    rw [List.length_drop, hlength]
    exact Nat.add_sub_cancel_left _ _
  have hkey : (m.send credentials).Suspended (.ardClientKey version keyLen) version :=
    h.send (by simp) rfl
  have hresult :
      ((m.send credentials).send clientKey).Suspended (.securityResult version) version :=
    ⟨send_ardClientKey hkey.gen _, hkey.version_send (by simp) _⟩
  have hask := waitingOn_of_gen h.gen .c2s (n := ardCredentialsLen) rfl
  have hsettle : grammar.settle .c2s m message =
      { core := (m.send credentials).send clientKey, pending := fun _ => [] } := by
    calc grammar.settle .c2s m message
        = grammar.settle .c2s m (credentials ++ clientKey) := by rw [List.take_append_drop]
      _ = grammar.settle .c2s (m.send credentials) clientKey :=
          Coroutine.settle_block (hcredentials.symm ▸ hask) (advance_eq m credentials)
      _ = grammar.settle .c2s (m.send credentials) (clientKey ++ []) := by rw [List.append_nil]
      _ = grammar.settle .c2s ((m.send credentials).send clientKey) [] :=
          Coroutine.settle_block (hclientKey.symm ▸ waitingOn_of_gen hkey.gen .c2s rfl)
            (advance_eq _ clientKey)
      _ = _ := Coroutine.settle_of_not_waiting
          (not_waitingOn_of_gen hresult.gen .c2s (by simp [Suspension.want]))
  exact ⟨_, (Coroutine.feed_fresh hask (by decide)).trans hsettle, hresult⟩

/-- A key exchange that does not go through raises. -/
theorem keepsPace_of_not_exchanges (h : ¬ c.Exchanges env block) :
    KeepsPace env m block c (RFBClient.handleDHAuthCert (RFBClient.runtime env) block) := by
  have hturns := @RFBClient.turns_dhAuthCert _ (RFBClient.runtime env) c block
  have hreturns := mt (@ensures_dhAuthCert_iff _ (RFBClient.runtime env) c block
    (fun c' => c'.armed = (.vncAuthResult, 4)) fun _ harmed => harmed).1 h
  unfold Vncdotool.Turns Ensures at hturns
  unfold Ensures at hreturns
  unfold KeepsPace Ensures
  cases hrun : (RFBClient.handleDHAuthCert (RFBClient.runtime env) block).run c with
  | error exc c' => exact trivial
  | ok _ c' =>
      -- If it returned, it would be armed for the SecurityResult.
      rw [hrun] at hturns hreturns
      refine absurd ?_ hreturns
      rcases hturns.armed with ⟨_, harms⟩ | ⟨_, hgives, _⟩ | ⟨hpumps, _⟩
      · exact harms
      · exact hgives.elim
      · exact hpumps.elim

/-- The reply to the server's key is as long as the generator takes it to be. -/
theorem keepsPace_dhAuthCert {n : ℕ} {factory : Factory} (hlengths : env.KeepsLengths factory)
    (hfits : Fitting env c) (hpoised : Connection.Poised c .dhAuthCert n)
    (h : m.Suspended (.ardServerKey c.version c.keyLen) c.version) :
    KeepsPace env m block c (RFBClient.handleDHAuthCert (RFBClient.runtime env) block) := by
  by_cases hexchanges : c.Exchanges env block
  -- What is written is the encrypted credentials, 128 octets, and the client's key.
  · rcases hexchanges with ⟨sharedKey, y, ciphertext, hdh, haes, hy⟩
    have hrun :=
      @RFBClient.encryptArd_enciphered _ (RFBClient.runtime env) c block _ _ _ hdh hy haes
    have hlength : (ciphertext ++ packBE c.keyLen y).length = ardCredentialsLen + c.keyLen := by
      rw [List.length_append, length_packBE, hlengths.aes _ _ _ haes,
        (RFBClient.length_ardCredentials_iff env c).2 hfits]
    have hcredentials : (m.send block).Suspended (.ardCredentials c.version c.keyLen) c.version :=
      h.send (by simp) rfl
    rcases hear_ard hcredentials hlength with ⟨m', hheard, hresult⟩
    refine (ensures_of_run_ok hrun).2 (Or.inr (GoesOn.of_reply (fun _ => hfits)
      (writesSince_append c.log [.write _]) hcredentials.gen (by simp [Suspension.want]) hheard
      Opposite.securityResult ⟨hpoised.stage, hpoised.aborted, rfl, rfl⟩ rfl hresult))
  · exact keepsPace_of_not_exchanges hexchanges

/-- Whatever block of the server both wait for. -/
theorem keepsPace_run {factory : Factory} {handler : Handler} {suspension : Suspension} {n : ℕ}
    (hlengths : env.KeepsLengths factory) (hfits : Fitting env c)
    (hopposite : Opposite c handler suspension) (hpoised : Connection.Poised c handler n)
    (hwant : suspension.want = (.s2c, n)) (hsuspended : m.Suspended suspension c.version)
    (hblock : block.length = n) :
    KeepsPace env m block c (handler.run (RFBClient.runtime env) block) := by
  cases hopposite with
  | numTypes => exact keepsPace_numberSecurityTypes hpoised hsuspended
  | types k =>
      obtain rfl : k = n := congrArg Prod.snd hwant
      exact keepsPace_securityTypes hpoised hsuspended
  | auth hversion =>
      obtain rfl : 4 = n := congrArg Prod.snd hwant
      exact keepsPace_auth hpoised hversion hblock hsuspended
  | challenge =>
      obtain rfl : 16 = n := congrArg Prod.snd hwant
      exact keepsPace_vncAuth hlengths hpoised hblock hsuspended
  | ardHead => exact keepsPace_dhAuth hpoised hsuspended
  | ardModulus => exact keepsPace_dhAuthKey hpoised hsuspended
  | ardServerKey => exact keepsPace_dhAuthCert hlengths hfits hpoised hsuspended
  | securityResult => exact keepsPace_vncAuthResult hpoised hsuspended
  | serverInit => exact keepsPace_serverInit hpoised hsuspended

end KeepsPace

end TappedClient

end Vncdotool
