import Vncdotool.RFB.Runs

/-!
# Failure — what a client does after it has reported one

Giving up is reporting a failure without re-arming the loop.  `abortConnection` also sets the flag
that the loop and `dataReceived` test, and nothing happens after it; but only the pump calls it.  The
other exits leave the loop armed as it was, so that the server's next bytes are handled as if nothing
had been reported.
-/

namespace Vncdotool

open Wire Streaming

namespace Connection

variable {σ : Type} {rt : Runtime σ}

/-- Between `conn` and the later `conn'` a failure has been reported. -/
def Reports (conn conn' : Connection σ) : Prop :=
  ∃ event ∈ conn'.client.log.drop conn.client.log.length, event.isFailure = true

instance (conn conn' : Connection σ) : Decidable (Reports conn conn') :=
  inferInstanceAs (Decidable (∃ event ∈ conn'.client.log.drop conn.client.log.length,
    event.isFailure = true))

/-- Whatever the server still sends, no handler runs and nothing is called or written. -/
def Silent (rt : Runtime σ) (conn : Connection σ) : Prop :=
  ∀ conn', Runs rt conn conn' → conn'.client.log = conn.client.log ∧ conn'.pending = none

/-- The handler the loop is about to call is in the pump. -/
def AtPump (conn : Connection σ) : Prop :=
  ∃ handler block, conn.pending = some (handler, block) ∧ handler.Pumps block

/-! ## An aborted client -/

theorem step_of_aborted {conn conn' : Connection σ} (h : Step rt conn conn')
    (haborted : conn.client.aborted = true) : conn' = conn := by
  cases h with
  | turn h =>
      rw [iterate_eq_none_iff.2 (pending_of_aborted haborted)] at h
      cases h
  | receive data _ _ => simp [enter, haborted]

theorem silent_of_aborted {conn : Connection σ} (haborted : conn.client.aborted = true) :
    Silent rt conn := by
  intro conn' hruns
  have heq : conn' = conn := by
    refine @Runs.invariant _ rt (fun q => q = conn) ?_ _ _ hruns rfl
    rintro q q' hstep rfl
    exact step_of_aborted hstep haborted
  subst heq
  exact ⟨rfl, pending_of_aborted haborted⟩

/-! ## A client that has not aborted -/

/-- Bytes enough to call the parked handler. -/
theorem exists_runs_pending {conn : Connection σ} (hstage : conn.client.stage = .handleExpected)
    (haborted : conn.client.aborted = false) :
    ∃ conn', Runs rt conn conn' ∧ conn'.pending ≠ none := by
  by_cases hpending : conn.pending = none
  · let data : Bytes := List.replicate (conn.client.expectedLen + 1) 0
    have henter : conn.enter rt data =
        { conn with packet := conn.packet ++ data, raised := none } := by
      simp [enter, haborted, hstage]
    have hle : conn.client.expectedLen ≤ (conn.packet ++ data).length := by
      simp only [data, List.length_append, List.length_replicate]
      omega
    refine ⟨conn.enter rt data, Relation.ReflTransGen.single ?_, ?_⟩
    · exact Step.receive data hpending (by simp [data])
    · rw [henter]
      exact pending_ne_none_iff.2 ⟨hstage, haborted, rfl, hle⟩
  · exact ⟨conn, Relation.ReflTransGen.refl, hpending⟩

theorem not_silent_of_stage {conn : Connection σ} (hstage : conn.client.stage = .handleExpected)
    (haborted : conn.client.aborted = false) : ¬ Silent rt conn := by
  intro hsilent
  rcases @exists_runs_pending _ rt conn hstage haborted with ⟨conn', hruns, hpending⟩
  exact hpending (hsilent conn' hruns).2

/-- Only the pump aborts. -/
theorem aborted_of_turn (htame : rt.Tame) {conn conn' : Connection σ}
    (h : iterate rt conn = some conn') (hpump : ¬ conn.AtPump) :
    conn'.client.stage = .handleExpected ∧ conn'.client.aborted = false := by
  rcases turn_cases htame h with ⟨handler, block, hpending, houtcome, _⟩
  rcases pending_eq_some_iff.1 hpending with ⟨⟨hstage, haborted, _, _⟩, _, _⟩
  have hpumps : ¬ handler.Pumps block := fun hpumps => hpump ⟨handler, block, hpending, hpumps⟩
  rcases houtcome with ⟨_, hmoves⟩ | ⟨_, hraises⟩
  · refine ⟨hmoves.stage.trans hstage, ?_⟩
    rcases hmoves.armed with ⟨hsame, _⟩ | ⟨hsame, _⟩ | ⟨h, _⟩
    · exact hsame.trans haborted
    · exact hsame.trans haborted
    · exact absurd h hpumps
  · refine ⟨hraises.stage.trans hstage, ?_⟩
    rcases hraises.aborted with hsame | ⟨h, _⟩
    · exact hsame.trans haborted
    · exact absurd h hpumps

/-! ## The greeting -/

/-- A malformed greeting is reported, and stays in the buffer. -/
theorem greet_malformed {env : Env} {conn : Connection Unit} (h : Malformed conn.packet) :
    greet (RFBClient.runtime env) conn =
      { conn with
        client :=
          { conn.client with
            log := conn.client.log ++
              [.callback (.vncProtocolError (.invalidInitialResponse (conn.packet.take 12)))] ++
              [.loseConnection] }
        raised := none } := by
  have hnorm : ¬ RFBClient.headerTranslate (conn.packet.take 12) = RFBClient.header :=
    fun heq => h (heq ▸ List.prefix_rfl)
  have hleads : (RFBClient.headerTranslate (conn.packet.take 12)).isPrefixOf RFBClient.header
      = false :=
    Bool.eq_false_iff.2 fun htrue => h (List.isPrefixOf_iff_prefix.1 htrue)
  have hrun : RFBClient.handleInitial (RFBClient.runtime env) conn.packet conn.client =
      (do
        (RFBClient.runtime env).protocolError (.invalidInitialResponse (conn.packet.take 12))
        return conn.packet) conn.client := by
    simp [RFBClient.handleInitial, hnorm, hleads]
  unfold greet
  rw [hrun]
  rfl

/-- A malformed greeting is reported again with the next byte. -/
theorem not_silent_of_malformed {env : Env} {conn : Connection Unit}
    (hstage : conn.client.stage = .handleInitial) (haborted : conn.client.aborted = false)
    (h : Malformed conn.packet) : ¬ Silent (RFBClient.runtime env) conn := by
  intro hsilent
  have hidle : conn.pending = none := by
    by_contra hpending
    exact absurd (hstage.symm.trans (pending_ne_none_iff.1 hpending).1) (by decide)
  have henter : conn.enter (RFBClient.runtime env) [0] =
      greet (RFBClient.runtime env) { conn with packet := conn.packet ++ [0], raised := none } := by
    simp [enter, haborted, hstage]
  have hstep : Step (RFBClient.runtime env) conn (conn.enter (RFBClient.runtime env) [0]) :=
    Step.receive [0] hidle (by decide)
  have hlog := (hsilent _ (Relation.ReflTransGen.single hstep)).1
  rw [henter, greet_malformed (h.append [0])] at hlog
  simp at hlog

/-! ## The pump -/

/-- Between `c` and `c'` no failure is reported. -/
def Quiet (c c' : RFBClient Unit) : Prop :=
  ∃ events, c'.log = c.log ++ events ∧ ∀ event ∈ events, event.isFailure = false

/-- `x` reports a failure only if it aborts. -/
def Discreet (c : RFBClient Unit) {α : Type} (x : Py Unit α) : Prop :=
  Ensures x c (fun _ c' => c'.aborted = true ∨ Quiet c c')
    (fun _ c' => c'.aborted = true ∨ Quiet c c')

section Pump

variable {env : Env} {c : RFBClient Unit} {α β : Type}

theorem Quiet.refl (c : RFBClient Unit) : Quiet c c :=
  ⟨[], by simp, by simp⟩

theorem Quiet.trans {c c₁ c₂ : RFBClient Unit} (h : Quiet c c₁) (h' : Quiet c₁ c₂) :
    Quiet c c₂ := by
  rcases h with ⟨events, hlog, hquiet⟩
  rcases h' with ⟨events', hlog', hquiet'⟩
  refine ⟨events ++ events', by rw [hlog', hlog, List.append_assoc], ?_⟩
  intro event hmem
  rcases List.mem_append.1 hmem with hmem | hmem
  · exact hquiet event hmem
  · exact hquiet' event hmem

theorem quiet_of_log {c c' : RFBClient Unit} (h : c'.log = c.log) : Quiet c c' :=
  ⟨[], by simp [h], by simp⟩

theorem discreet_bind {x : Py Unit α} {k : α → Py Unit β}
    (hx : Ensures x c (fun _ => Quiet c) (fun _ => Quiet c)) (hk : ∀ a c₁, Discreet c₁ (k a)) :
    Discreet c (x >>= k) := by
  unfold Discreet
  rw [ensures_bind]
  refine Ensures.mono hx ?_ ?_
  · intro a c₁ hquiet
    refine Ensures.mono (hk a c₁) ?_ ?_
    · exact fun _ _ h => h.imp_right hquiet.trans
    · exact fun _ _ h => h.imp_right hquiet.trans
  · exact fun _ _ hquiet => Or.inr hquiet

theorem discreet_abortConnection (reason : ProtocolFailure) :
    Discreet c ((RFBClient.runtime env).abortConnection reason) := by
  have hheld : Ensures ((RFBClient.runtime env).protocolError reason) { c with aborted := true }
      (fun _ => Held { c with aborted := true }) (fun _ => Held { c with aborted := true }) :=
    held_protocolError (RFBClient.runtime_tame env) reason
  unfold Runtime.abortConnection Discreet
  rw [ensures_bind, ensures_modify]
  refine Ensures.mono hheld ?_ ?_
  · exact fun _ _ h => Or.inl h.aborted
  · exact fun _ _ h => Or.inl h.aborted

/-- The callbacks a pump makes. -/
theorem quiet_call {cb : Callback} (hcb : (RFBClient.runtime env).override cb = pure ())
    (hfailure : (Event.callback cb).isFailure = false) :
    Ensures ((RFBClient.runtime env).call cb) c (fun _ => Quiet c) (fun _ => Quiet c) := by
  unfold Runtime.call
  rw [ensures_bind, ensures_record, hcb]
  exact ⟨[.callback cb], rfl, by simpa using hfailure⟩

theorem discreet_doConnection : Discreet c (RFBClient.doConnection (RFBClient.runtime env)) := by
  refine ensures_ite.2 ⟨fun _ => Or.inr (quiet_of_log rfl), fun _ => ?_⟩
  exact discreet_bind (quiet_call rfl rfl) fun _ c₁ => Or.inr (quiet_of_log rfl)

theorem quiet_finishRectangle (target : RectBuffer) (rect : Rect) :
    Ensures (RFBClient.finishRectangle (RFBClient.runtime env) target rect) c (fun _ => Quiet c)
      (fun _ => Quiet c) := by
  unfold RFBClient.finishRectangle
  rw [ensures_bind, ensures_modify, ensures_bind, ensures_get]
  exact quiet_call rfl rfl

theorem discreet_pumpBlock (block : Bytes) (generator : Generator) (finish : Option Rect) :
    Discreet c (RFBClient.pumpBlock (RFBClient.runtime env) block generator finish) := by
  have hsend : Ensures (RFBClient.send (RFBClient.runtime env) generator block) c
      (fun _ => Quiet c) (fun _ => Quiet c) := by
    cases generator with
    | decodePixels target suspended =>
        cases suspended with
        | false => exact Quiet.refl c
        | true =>
            change Ensures (liftExcept _ >>= _) _ _ _
            rw [ensures_bind]
            cases target.after (RectBuffer.blit 0 0 target.width target.height block) with
            | ok target => exact Quiet.refl c
            | error exc => exact Quiet.refl c
    | decodeForClient rect suspended =>
        cases suspended with
        | false => exact Quiet.refl c
        | true =>
            change Ensures (Runtime.call _ _ >>= _) _ _ _
            rw [ensures_bind]
            exact quiet_call rfl rfl
  have hresume (progress : RFBClient.Progress) (c₁ : RFBClient Unit) :
      Discreet c₁ (RFBClient.resumePump (RFBClient.runtime env) finish progress) := by
    cases progress with
    | returned target =>
        cases finish with
        | none => exact discreet_doConnection
        | some rect =>
            cases target with
            | none => exact discreet_doConnection
            | some target =>
                exact discreet_bind (quiet_finishRectangle target rect)
                  fun _ c₂ => discreet_doConnection
    | yielded size generator' =>
        exact ensures_ite.2 ⟨fun _ => discreet_abortConnection _,
          fun _ => Or.inr (quiet_of_log rfl)⟩
  refine RFBClient.ensures_pumpBlock.2 (Ensures.mono hsend ?_ ?_)
  · intro progress c₁ hquiet
    refine Ensures.mono (hresume progress c₁) ?_ ?_
    · exact fun _ _ h => h.imp_right hquiet.trans
    · exact fun _ _ h => h.imp_right hquiet.trans
  · intro exc c₁ hquiet
    -- An error of a decoder is reported, any other goes on upwards.
    split
    · refine Ensures.mono (discreet_abortConnection _) ?_ ?_
      · exact fun _ _ h => h.imp_right hquiet.trans
      · exact fun _ _ h => h.imp_right hquiet.trans
    · exact Or.inr hquiet

theorem discreet_pump (decoder : Decoder) (rect : Rect) :
    Discreet c (RFBClient.pump (RFBClient.runtime env) decoder rect) := by
  cases decoder with
  | rawDecoder =>
      refine ensures_bind.2 (RFBClient.ensures_rectBuffer ?_ ?_ ?_)
      · exact fun reason => discreet_abortConnection reason
      · exact fun backing target => discreet_pumpBlock _ _ _
      · exact fun _ _ => Or.inr (quiet_of_log rfl)
  | copyRectDecoder =>
      have hpump : RFBClient.pump (RFBClient.runtime env) .copyRectDecoder rect =
          RFBClient.pumpBlock (RFBClient.runtime env) [] (.decodeForClient rect false) none := rfl
      exact hpump ▸ discreet_pumpBlock _ _ _

theorem registered_of_isSome {encoding : Option Encoding}
    (h : (Decoder.get? encoding).isSome = true) :
    encoding = some .raw ∨ encoding = some .copyRectangle := by
  unfold Decoder.get? at h
  split at h
  · exact Or.inl rfl
  · exact Or.inr rfl
  · cases h

theorem discreet_rectangle {block : Bytes} (hpumps : Handler.rectangle.Pumps block) :
    Discreet c (RFBClient.handleRectangle (RFBClient.runtime env) block) := by
  have hdispatch (c₁ : RFBClient Unit) (rect : Rect) :
      Discreet c₁ (RFBClient.dispatchRectangle (RFBClient.runtime env) rect
        (s32 (field block 8 4))) := by
    unfold RFBClient.dispatchRectangle
    rcases registered_of_isSome hpumps with hlookup | hlookup
    · rw [hlookup]
      exact discreet_bind (Quiet.refl c₁) fun _ c₂ => discreet_pump _ _
    · rw [hlookup]
      exact discreet_bind (Quiet.refl c₁) fun _ c₂ => discreet_pump _ _
  have hlast : s32 (field block 8 4) ≠ Encoding.value .pseudoLastRect := by
    intro heq
    rw [Handler.Pumps, heq] at hpumps
    exact absurd hpumps (by decide)
  unfold RFBClient.handleRectangle
  dsimp only
  refine ensures_ite.2 ⟨fun heq => absurd heq hlast, fun _ => ensures_bind.2 (ensures_get.2
    (ensures_ite.2 ⟨fun _ => ?_, fun _ => discreet_doConnection⟩))⟩
  exact hdispatch _ _

/-- In the pump, a failure is reported only by aborting. -/
theorem discreet_run {handler : Handler} {block : Bytes} (hpumps : handler.Pumps block) :
    Discreet c (handler.run (RFBClient.runtime env) block) := by
  cases handler with
  | rectangle => exact discreet_rectangle hpumps
  | pumpBlock generator finish => exact discreet_pumpBlock block generator finish
  | _ => exact absurd hpumps id

end Pump

theorem aborted_of_reports {env : Env} {conn conn' : Connection Unit}
    (h : iterate (RFBClient.runtime env) conn = some conn') (hpump : conn.AtPump)
    (hreports : Reports conn conn') : conn'.client.aborted = true := by
  rcases iterate_eq_some_iff.1 h with ⟨handler, block, hpending, rfl⟩
  rcases hpump with ⟨handler', block', hpending', hpumps⟩
  rw [hpending] at hpending'
  cases hpending'
  have hdiscreet : Discreet conn.client (handler.run (RFBClient.runtime env) block) :=
    discreet_run hpumps
  have hquiet {c : RFBClient Unit} (hquiet : Quiet conn.client c) :
      ¬ ∃ event ∈ c.log.drop conn.client.log.length, event.isFailure = true := by
    rcases hquiet with ⟨events, hlog, hnone⟩
    rw [hlog, List.drop_left]
    rintro ⟨event, hmem, hfailure⟩
    exact absurd ((hnone event hmem).symm.trans hfailure) (by decide)
  unfold Discreet Ensures EStateM.run at hdiscreet
  unfold Reports at hreports
  cases hrun : handler.run (RFBClient.runtime env) block conn.client with
  | ok _ c =>
      rw [hrun] at hdiscreet hreports
      exact hdiscreet.resolve_right fun h => hquiet h hreports
  | error exc c =>
      rw [hrun] at hdiscreet hreports
      exact hdiscreet.resolve_right fun h => hquiet h hreports

theorem not_reports_of_log {conn conn' : Connection σ} (h : conn'.client.log = conn.client.log) :
    ¬ Reports conn conn' := by
  rintro ⟨event, hmem, _⟩
  rw [h, List.drop_length] at hmem
  exact absurd hmem List.not_mem_nil

/-- A client that has just reported a failure does nothing further, on any continuation of the
server's stream, exactly when the report was made by the pump. -/
theorem silent_iff_atPump {env : Env} {conn conn' : Connection Unit}
    (hstep : Step (RFBClient.runtime env) conn conn') (hreports : Reports conn conn') :
    Silent (RFBClient.runtime env) conn' ↔ conn.AtPump := by
  have htame : (RFBClient.runtime env).Tame := RFBClient.runtime_tame env
  constructor
  · intro hsilent
    by_contra hpump
    cases hstep with
    | turn h =>
        rcases aborted_of_turn htame h hpump with ⟨hstage, haborted⟩
        exact not_silent_of_stage hstage haborted hsilent
    | receive data hidle _ =>
        -- A delivery reports a failure only through `_handleInitial`.
        rcases @enter_cases _ (RFBClient.runtime env) conn data with
          ⟨_, heq⟩ | ⟨_, _, heq⟩ | ⟨haborted, hstage, heq⟩
        · rw [heq] at hreports
          exact not_reports_of_log rfl hreports
        · rw [heq] at hreports
          exact not_reports_of_log rfl hreports
        · rw [heq] at hreports hsilent
          rcases greet_cases htame { conn with packet := conn.packet ++ data, raised := none } with
            ⟨_, hstage', _, haborted', _⟩ | ⟨hheld, hpacket, hclient | hmalformed⟩
          · exact not_silent_of_stage hstage' (haborted'.trans haborted) hsilent
          · exact not_reports_of_log (congrArg RFBClient.log hclient) hreports
          · exact not_silent_of_malformed (hheld.stage.trans hstage)
              (hheld.aborted.trans haborted) (hpacket ▸ hmalformed) hsilent
  · intro hpump
    cases hstep with
    | turn h => exact silent_of_aborted (aborted_of_reports h hpump hreports)
    | receive data hidle _ =>
        rcases hpump with ⟨_, _, hpending, _⟩
        rw [hidle] at hpending
        cases hpending

/-- About to read the header of a Raw rectangle that does not fit. -/
def oversized : Connection Unit where
  client :=
    { app := ()
      stage := .handleExpected
      expectedHandler := .rectangle
      expectedLen := 12
      width := 1
      height := 1
      rectangles := 1 }
  packet := packBE 2 0 ++ packBE 2 0 ++ packBE 2 2 ++ packBE 2 2 ++ packBE 4 0

theorem silent_iff_atPump_oversized :
    ∃ conn', Step (RFBClient.runtime .sample) oversized conn' ∧
      (Silent (RFBClient.runtime .sample) conn' ↔ oversized.AtPump) :=
  ⟨_, Step.turn rfl, silent_iff_atPump (Step.turn rfl) (by decide)⟩

/-- A 3.3 server that asks for an unknown security type, and then for none. -/
def unknownAuth : Bytes :=
  versionLine ⟨3, 3⟩ ++ packBE 4 5 ++ packBE 4 1

theorem not_silent_unknownAuth :
    ∃ conn conn', Runs (RFBClient.runtime .sample) (init () {}) conn ∧
      Step (RFBClient.runtime .sample) conn conn' ∧ Reports conn conn' ∧
      ¬ Silent (RFBClient.runtime .sample) conn' := by
  have hreceive : Step (RFBClient.runtime .sample) (init () {})
      ((init () {}).enter (RFBClient.runtime .sample) unknownAuth) :=
    Step.receive unknownAuth rfl (by decide)
  refine ⟨_, _, Relation.ReflTransGen.single hreceive, Step.turn rfl, by decide, ?_⟩
  intro hsilent
  exact absurd (hsilent _ Relation.ReflTransGen.refl).2 (by decide)

end Connection

end Vncdotool
