import Vncdotool.Streaming.Runs
import Vncdotool.RFB.Reports
import Vncdotool.RFB.Readings

/-!
# Diagnosis — what becomes of malformed input

A step is diagnosed when `dataReceived` does not raise in it, when what is malformed in it makes one
report and closes the connection, and when no second report is made of a session.  What is malformed
is said in the protocol's terms: beside the connection stands what has been read of the payload at
hand, and a payload is malformed when no well-formed one begins with that.

The sessions that are diagnosed throughout are those with a server that is not too old, a key
exchange that goes through, no subrectangles of CoRRE, nothing reportable behind a report, and
payloads that the client can read: for the handlers of payloads report nothing.
-/

namespace Vncdotool

open Wire Streaming

variable {σ : Type}

/-! ## Malformed input -/

namespace Connection

/-- The greeting is complete, and comes from a server before 3.3. -/
def TooOld (packet : Bytes) : Prop :=
  RFBClient.headerTranslate (packet.take 12) = RFBClient.header ∧
    ∀ version, parseVersion (packet.take 12) = some version → version < ⟨3, 3⟩

/-- The greeting is awaited. -/
def Awaiting (conn : Connection σ) : Prop :=
  conn.client.aborted = false ∧ conn.client.stage = .handleInitial

end Connection

/-- The handler reports a failure. -/
def Handler.Complains (env : Env) (c : RFBClient σ) (block : Bytes) (handler : Handler) : Prop :=
  handler.Tells env c block ∧ handler ≠ .vncAuth ∧ handler ≠ .serverName

namespace Reading

variable (env : Env) (named : Bool) (r : Reading)

/-- The block of the turn is one that its handler can unpack. -/
def Whole : Arrival → Prop
  | .receive _ => True
  | .turn => ∀ handler block, r.conn.pending = some (handler, block) →
      handler.Unpacks r.conn.client.pixelFormat.bypp block.length

/-- The turn is one that the client gets through: the password can be encrypted, the key exchange goes
through, the security result is one of three, there are no subrectangles of CoRRE, a `good` payload
begins with what has been read, and nothing has been reported if the handler reports. -/
structure Manages (good : Payload → Prop) (handler : Handler) (block : Bytes) : Prop where
  password : handler = .vncAuth → r.conn.client.Encryptable
  exchanges : handler = .dhAuthCert → named = true ∧ r.conn.client.Exchanges env block
  result : handler = .vncAuthResult → field block 0 4 ≤ 2
  notCORRE : ∀ topx topy, handler ≠ .decodeCORRERectangles topx topy
  payload : handler.readsPayload = true → ∀ p ∈ r.payload, (p.append block).Begins good
  first : handler.Complains env r.conn.client block → r.conn.client.reports = 0

/-- The server is not too old, greetings are reported once, and the client gets through the turns. -/
def MeetsFor (good : Payload → Prop) : Arrival → Prop
  | .receive data =>
      r.conn.Awaiting → ¬ Connection.TooOld (r.conn.packet ++ data) ∧
        (Connection.Malformed (r.conn.packet ++ data) → r.conn.client.reports = 0)
  | .turn => ∀ handler block, r.conn.pending = some (handler, block) →
      r.Manages env named good handler block

/-- The condition: payloads are such that the client can read them. -/
def Meets (arrival : Arrival) : Prop :=
  r.MeetsFor env named (Payload.Readable env r.conn.client r.size) arrival

end Reading

/-! ## What the log says -/

section Log

variable {rt : Runtime σ}

/-- One more report is on the log, and the connection is closed. -/
def Diagnoses (c c' : RFBClient σ) : Prop :=
  c'.reports = c.reports + 1 ∧ Event.loseConnection ∈ c'.log

/-- A callback that is no report adds none. -/
theorem Runtime.Obliging.adds_call (hrt : rt.Obliging) {cb : Callback}
    (hcb : (Event.callback cb).isReport = false) : Respects Adds (rt.call cb) := by
  intro c
  let c₁ : RFBClient σ := { c with log := c.log ++ [.callback cb] }
  have hrecorded : Adds c c₁ := Adds.record hcb c
  refine ensures_finalState.1 (ensures_bind.2 ?_)
  change Ensures (rt.override cb) c₁ _ _
  refine Ensures.mono (hrt.adds cb c₁) ?_ ?_
  · exact fun _ c' hadds => hrecorded.trans hadds
  · exact fun _ c' hadds => hrecorded.trans hadds

theorem Runtime.Obliging.maintains (hrt : rt.Obliging) : Maintains rt Adds where
  refl := Adds.refl
  trans := fun _ _ _ h h' => h.trans h'
  write := fun data c => Adds.record rfl c
  loseConnection := fun c => Adds.record rfl c
  state := by
    intro c c' hlog _ _
    unfold Adds RFBClient.reports
    rw [hlog]
    exact ⟨List.prefix_rfl, rfl⟩
  call := by
    intro c cb hregular
    refine hrt.adds_call ?_ c
    cases cb with
    | vncAuthFailed reason => exact hregular.elim
    | vncProtocolError reason => exact hregular.elim
    | _ => rfl

/-- A report, and `loseConnection` behind it. -/
theorem Runtime.Obliging.reports_call (hrt : rt.Obliging) {cb : Callback}
    (hcb : (Event.callback cb).isReport = true) (hharmless : cb.Harmless) :
    Respects Diagnoses (rt.call cb >>= fun _ => loseConnection) := by
  intro c
  let c₁ : RFBClient σ := { c with log := c.log ++ [.callback cb] }
  have hcount : c₁.reports = c.reports + 1 := by
    change (c.log ++ [Event.callback cb]).countP _ = _
    rw [List.countP_append, List.countP_singleton, hcb]
    rfl
  refine ensures_finalState.1 (ensures_bind.2 (ensures_bind.2 ?_))
  change Ensures (rt.override cb) c₁ _ _
  refine Ensures.mono ((hrt.adds cb c₁).and (hrt.returns cb c₁ hharmless)) ?_ ?_
  · intro _ c' hboth
    have hlost : Adds c' { c' with log := c'.log ++ [.loseConnection] } := Adds.record rfl c'
    have hreports := (hlost.2.trans hboth.1.2).trans hcount
    exact ⟨hreports, List.mem_append_right _ List.mem_cons_self⟩
  · exact fun _ _ hboth => hboth.2.elim

theorem Runtime.Obliging.reported (hrt : rt.Obliging) : Reported rt Adds Diagnoses where
  maintains := hrt.maintains
  before := by
    intro c₁ c₂ c₃ hadds hreports
    exact ⟨hreports.1.trans (congrArg (· + 1) hadds.2), hreports.2⟩
  after := by
    intro c₁ c₂ c₃ hreports hadds
    exact ⟨hadds.2.trans hreports.1, hadds.1.subset hreports.2⟩
  protocolError := fun reason => hrt.reports_call rfl trivial
  authFailed := fun reason => hrt.reports_call rfl trivial

theorem Runtime.Obliging.copies (hrt : rt.Obliging) : rt.Copies :=
  fun _ _ _ _ _ _ c => hrt.returns _ c trivial

/-- A handler that complains makes one report. -/
theorem Handler.Complains.reports (hrt : rt.Obliging) {handler : Handler} {c : RFBClient σ}
    {block : Bytes} (h : handler.Complains rt.env c block) :
    Diagnoses c (finalState ((handler.run rt block).run c)) :=
  hrt.reported.run_at h.1 h.2.1 h.2.2

end Log

/-! ## The greeting -/

theorem Ver.max?_eq_none_iff {versions : List Ver} : Ver.max? versions = none ↔ versions = [] := by
  cases versions with
  | nil => exact iff_of_true rfl rfl
  | cons v vs =>
      refine iff_of_false ?_ (List.cons_ne_nil v vs)
      unfold Ver.max?
      cases Ver.max? vs with
      | none => exact Option.some_ne_none _
      | some w => exact Option.some_ne_none _

section Greeting

variable {rt : Runtime σ} {c : RFBClient σ} {packet : Bytes}

end Greeting

/-! ## A step -/

namespace Reading

variable {env : Env} {named : Bool} {r : Reading} {data : Bytes} {handler : Handler} {block : Bytes}

end Reading

end Vncdotool
