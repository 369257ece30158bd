import Vncdotool.RFB.Runs

/-!
# Termination — when `dataReceived` returns

A handler may be armed for no bytes, and then its turn of the loop consumes nothing.  `Zeroable`
are the handlers this can happen to, and `rank` decreases along the graph from one of them to the
next, except at the two that never re-arm the loop: `connMessage` and `authFailedMessage`.  A refusal
or a failed authentication with an empty reason parks one of these for no bytes, and the loop calls
it for ever.  Nothing else keeps the loop from coming to rest.
-/

namespace Vncdotool

open Wire Streaming StateTransition

/-! ## Handlers armed for no bytes -/

namespace Handler

/-- The handlers that may be armed for no bytes. -/
def Zeroable : Handler → Prop
  | .connMessage => True
  | .dhAuthKey => True
  | .dhAuthCert => True
  | .authFailedMessage => True
  | .serverName => True
  | .pumpBlock generator _ => generator.suspended = true
  | .decodeHextileRAW _ _ _ => True
  | .decodeZRLEdata _ => True
  | .decodePseudoCursor _ => True
  | .colourMapEntriesValue _ => True
  | .serverCutTextValue => True
  | _ => False

/-- How many handlers in a row may still be called without consuming a byte. -/
def rank (h : Handler) : ℕ :=
  if h = .dhAuthKey then 2 else 1

/-- The handlers a reason is read by.  They never re-arm the loop. -/
def IsReason (h : Handler) : Prop :=
  h = .connMessage ∨ h = .authFailedMessage

variable {h : Handler} {armed : Handler × ℕ}

theorem Arms.zeroable (harms : h.Arms armed) (hzero : armed.2 = 0) : armed.1.Zeroable := by
  rcases armed with ⟨h', n⟩
  dsimp only at hzero
  subst hzero
  cases h <;> simp only [Arms, ArmsPump, ArmsTile, ArmsConnection, Prod.mk.injEq, List.mem_cons,
    List.not_mem_nil] at harms <;> grind [Zeroable]

/-- Only a key may be read for no bytes right after another handler armed for none. -/
theorem Arms.rank_lt (harms : h.Arms armed) (hzeroable : h.Zeroable) (hzero : armed.2 = 0) :
    armed.1.rank < h.rank := by
  rcases armed with ⟨h', n⟩
  dsimp only at hzero
  subst hzero
  cases h <;> simp only [Zeroable] at hzeroable <;>
    simp only [Arms, ArmsPump, ArmsTile, ArmsConnection, Prod.mk.injEq] at harms <;> grind [rank]

theorem Arms.of_isReason (harms : h.Arms armed) (hreason : armed.1.IsReason) :
    (h = .connFailed ∨ h = .authFailed) := by
  rcases armed with ⟨h', n⟩
  cases h <;> simp only [Arms, ArmsPump, ArmsTile, ArmsConnection, Prod.mk.injEq, List.mem_cons,
    List.not_mem_nil, IsReason] at harms hreason <;> grind

theorem GivesUp.isReason (hgivesUp : h.GivesUp) (hzeroable : h.Zeroable) : h.IsReason := by
  cases h <;> simp_all [GivesUp, Zeroable, IsReason]

theorem rank_pos (h : Handler) : 0 < h.rank := by
  unfold rank
  split <;> decide

theorem rank_le_two (h : Handler) : h.rank ≤ 2 := by
  unfold rank
  split <;> decide

end Handler

namespace Connection

variable {σ : Type} {rt : Runtime σ}

/-! ## What is armed for no bytes, throughout a session -/

/-- What is armed for no bytes may be. -/
def WellArmed (conn : Connection σ) : Prop :=
  conn.client.stage = .handleExpected → conn.client.expectedLen = 0 →
    conn.client.expectedHandler.Zeroable

theorem WellArmed.of_armed {conn conn' : Connection σ} (hconn : conn.WellArmed)
    (hstage : conn'.client.stage = conn.client.stage)
    (harmed : conn'.client.armed = conn.client.armed) : conn'.WellArmed := by
  have hhandler : conn'.client.expectedHandler = conn.client.expectedHandler :=
    congrArg Prod.fst harmed
  have hlen : conn'.client.expectedLen = conn.client.expectedLen := congrArg Prod.snd harmed
  unfold WellArmed
  rw [hstage, hhandler, hlen]
  exact hconn

theorem WellArmed.turn (htame : rt.Tame) {conn conn' : Connection σ}
    (h : iterate rt conn = some conn') (hconn : conn.WellArmed) : conn'.WellArmed := by
  rcases turn_cases htame h with ⟨handler, block, _, ⟨_, hmoves⟩ | ⟨_, hraises⟩, _⟩
  · rcases hmoves.armed with ⟨_, harms⟩ | ⟨_, _, hsame⟩ | ⟨_, _, hsame⟩
    · exact fun _ hzero => harms.zeroable hzero
    · exact hconn.of_armed hmoves.stage hsame
    · exact hconn.of_armed hmoves.stage hsame
  · exact hconn.of_armed hraises.stage hraises.armed

theorem WellArmed.enter (htame : rt.Tame) {conn : Connection σ} (data : Bytes)
    (hconn : conn.WellArmed) : (conn.enter rt data).WellArmed := by
  rcases @enter_cases _ rt conn data with ⟨_, heq⟩ | ⟨_, _, heq⟩ | ⟨_, _, heq⟩
  · rw [heq]
    exact hconn
  · rw [heq]
    exact hconn
  · rw [heq]
    rcases greet_cases htame { conn with packet := conn.packet ++ data, raised := none } with
      ⟨_, _, harmed, _⟩ | ⟨hheld, _⟩
    · exact fun _ hzero => absurd hzero (pos_of_mem_greeted harmed)
    · exact hconn.of_armed hheld.stage hheld.armed

theorem WellArmed.step (htame : rt.Tame) {conn conn' : Connection σ} (h : Step rt conn conn')
    (hconn : conn.WellArmed) : conn'.WellArmed := by
  cases h with
  | turn h => exact hconn.turn htame h
  | receive data _ _ => exact hconn.enter htame data

theorem wellArmed_of_runs (htame : rt.Tame) {app : σ} {factory : Factory} {conn : Connection σ}
    (hruns : Runs rt (init app factory) conn) : conn.WellArmed :=
  hruns.invariant (fun _ _ hstep hconn => hconn.step htame hstep) fun hstage => by cases hstage

/-! ## The measure -/

/-- The next turn reads that a reason is empty. -/
def ReadsZeroReason (conn : Connection σ) : Prop :=
  ∃ handler block, conn.pending = some (handler, block) ∧
    (handler = .connFailed ∨ handler = .authFailed) ∧ field block 0 4 = 0

/-- A reason is awaited that has no bytes. -/
def AwaitsNothing (conn : Connection σ) : Prop :=
  conn.client.stage = .handleExpected ∧ conn.client.expectedHandler.IsReason ∧
    conn.client.expectedLen = 0

/-- How many more turns are possible without more input, with room for those that consume no
bytes. -/
def budget (conn : Connection σ) : ℕ :=
  4 * conn.packet.length +
    if conn.pending.isSome then
      1 + if conn.client.expectedLen = 0 then conn.client.expectedHandler.rank else 0
    else 0

theorem budget_le (conn : Connection σ) : conn.budget ≤ 4 * conn.packet.length + 3 := by
  have hrank : conn.client.expectedHandler.rank ≤ 2 := Handler.rank_le_two _
  unfold budget
  split_ifs <;> omega

theorem budget_of_idle {conn : Connection σ} (h : conn.pending = none) :
    conn.budget = 4 * conn.packet.length := by
  simp [budget, h]

/-- A turn uses up budget, unless a reason of no bytes is awaited. -/
theorem budget_lt (htame : rt.Tame) {conn conn' : Connection σ} (h : iterate rt conn = some conn')
    (hconn : conn.WellArmed) (hawaits : ¬ conn.AwaitsNothing) : conn'.budget < conn.budget := by
  rcases turn_cases htame h with ⟨handler, block, hpending, houtcome, hpacket⟩
  rcases pending_eq_some_iff.1 hpending with ⟨⟨hstage, _, _, hle⟩, hhandler, _⟩
  have hpacketLe : conn'.packet.length ≤ conn.packet.length - conn.client.expectedLen := by
    rw [hpacket]
    split
    · simp
    · simp
  have hbudget : conn.budget = 4 * conn.packet.length +
      (1 + if conn.client.expectedLen = 0 then conn.client.expectedHandler.rank else 0) := by
    simp [budget, hpending]
  have hidle (hnone : conn'.pending = none) : conn'.budget < conn.budget := by
    rw [budget_of_idle hnone, hbudget]
    omega
  by_cases hzero : conn.client.expectedLen = 0
  · have hzeroable : handler.Zeroable := hhandler ▸ hconn hstage hzero
    rcases houtcome with ⟨_, hmoves⟩ | ⟨hraised, _⟩
    · rcases hmoves.armed with ⟨_, harms⟩ | ⟨_, hgivesUp, _⟩ | ⟨_, haborted, _⟩
      · rw [hbudget, if_pos hzero, ← hhandler]
        have hpos : 0 < handler.rank := handler.rank_pos
        by_cases hzero' : conn'.client.expectedLen = 0
        · have hlt : conn'.client.expectedHandler.rank < handler.rank :=
            harms.rank_lt hzeroable hzero'
          unfold budget
          split_ifs <;> omega
        · unfold budget
          split_ifs <;> omega
      -- Only a reason gives up having consumed no bytes.
      · exact absurd ⟨hstage, hhandler ▸ hgivesUp.isReason hzeroable, hzero⟩ hawaits
      · exact hidle (pending_of_aborted haborted)
    · exact hidle (pending_of_raised hraised)
  · have hle' : conn'.budget ≤ 4 * conn'.packet.length + 3 := budget_le conn'
    omega

/-! ## Empty reasons -/

/-- Only a turn that reads an empty reason leaves one to be awaited. -/
theorem AwaitsNothing.of_turn (htame : rt.Tame) {conn conn' : Connection σ}
    (h : iterate rt conn = some conn') (hawaits' : conn'.AwaitsNothing) :
    conn.AwaitsNothing ∨ conn.ReadsZeroReason := by
  rcases turn_cases htame h with ⟨handler, block, hpending, houtcome, _⟩
  rcases hawaits' with ⟨hstage', hreason', hzero'⟩
  have hsame (hstage : conn'.client.stage = conn.client.stage)
      (harmed : conn'.client.armed = conn.client.armed) : conn.AwaitsNothing := by
    have hhandler : conn'.client.expectedHandler = conn.client.expectedHandler :=
      congrArg Prod.fst harmed
    have hlen : conn'.client.expectedLen = conn.client.expectedLen := congrArg Prod.snd harmed
    exact ⟨hstage ▸ hstage', hhandler ▸ hreason', hlen ▸ hzero'⟩
  rcases houtcome with ⟨_, hmoves⟩ | ⟨_, hraises⟩
  · rcases hmoves.armed with ⟨_, harms⟩ | ⟨_, _, harmed⟩ | ⟨_, _, harmed⟩
    · have hreads : handler = .connFailed ∨ handler = .authFailed := harms.of_isReason hreason'
      refine Or.inr ⟨handler, block, hpending, hreads, ?_⟩
      rcases iterate_eq_some_iff.1 h with ⟨_, _, hpending', rfl⟩
      rw [hpending] at hpending'
      cases hpending'
      rcases hreads with rfl | rfl
      · exact hzero'
      · exact hzero'
    · exact Or.inl (hsame hmoves.stage harmed)
    · exact Or.inl (hsame hmoves.stage harmed)
  · exact Or.inl (hsame hraises.stage hraises.armed)

/-- A loop that no empty reason is read in comes to rest. -/
theorem terminates_of_reasons (htame : rt.Tame) {conn : Connection σ} (hconn : conn.WellArmed)
    (hawaits : ¬ conn.AwaitsNothing)
    (hreasons : ∀ q, Reaches (iterate rt) conn q → ¬ q.ReadsZeroReason) :
    Terminates (iterate rt) conn := by
  refine @terminates_of_measure _ (iterate rt) ℕ (· < ·) Nat.lt_wfRel.wf budget
    (fun q => q.WellArmed ∧ ¬ q.AwaitsNothing ∧ Reaches (iterate rt) conn q) ?_ conn
    ⟨hconn, hawaits, Relation.ReflTransGen.refl⟩
  rintro q q' hturn ⟨hq, hawaitsq, hreaches⟩
  refine ⟨⟨hq.turn htame hturn, ?_, hreaches.tail hturn⟩, budget_lt htame hturn hq hawaitsq⟩
  intro hawaits'
  rcases AwaitsNothing.of_turn htame hturn hawaits' with h | h
  · exact hawaitsq h
  · exact hreasons q hreaches h

end Connection

/-! ## A plain client -/

namespace Connection

variable {env : Env}

/-- A plain client's reason handlers report it and return. -/
theorem run_isReason {handler : Handler} (hreason : handler.IsReason) (block : Bytes)
    (c : RFBClient Unit) :
    ∃ c', handler.run (RFBClient.runtime env) block c = .ok () c' ∧ Held c c' := by
  rcases hreason with rfl | rfl
  · exact ⟨_, rfl, rfl, rfl, rfl, rfl⟩
  · exact ⟨_, rfl, rfl, rfl, rfl, rfl⟩

/-- A handler armed for no bytes is called at once. -/
theorem AwaitsNothing.pending_ne_none {conn : Connection Unit} (hawaits : conn.AwaitsNothing)
    (haborted : conn.client.aborted = false) (hraised : conn.raised = none) :
    conn.pending ≠ none := by
  have hle : conn.client.expectedLen ≤ conn.packet.length := hawaits.2.2 ▸ Nat.zero_le _
  exact pending_ne_none_iff.2 ⟨hawaits.1, haborted, hraised, hle⟩

/-- The loop that awaits an empty reason calls its handler again and again. -/
theorem AwaitsNothing.turn {conn : Connection Unit} (hawaits : conn.AwaitsNothing)
    (hpending : conn.pending ≠ none) :
    ∃ conn', iterate (RFBClient.runtime env) conn = some conn' ∧ conn'.AwaitsNothing ∧
      conn'.pending ≠ none := by
  rcases Option.ne_none_iff_exists'.1 hpending with ⟨⟨handler, block⟩, heq⟩
  rcases pending_eq_some_iff.1 heq with ⟨⟨hstage, haborted, _, _⟩, hhandler, _⟩
  rcases hawaits with ⟨_, hreason, hzero⟩
  rcases @run_isReason env _ (hhandler ▸ hreason) block conn.client with ⟨c', hrun, hheld⟩
  have hhandler' : c'.expectedHandler = conn.client.expectedHandler :=
    congrArg Prod.fst hheld.armed
  have hlen' : c'.expectedLen = conn.client.expectedLen := congrArg Prod.snd hheld.armed
  have hawaits' : (resume (conn.packet.drop conn.client.expectedLen) (.ok () c')).AwaitsNothing :=
    ⟨hheld.stage.trans hstage, hhandler' ▸ hreason, hlen'.trans hzero⟩
  refine ⟨_, iterate_eq_some_iff.2 ⟨handler, block, heq, rfl⟩, ?_⟩
  rw [hrun]
  exact ⟨hawaits', hawaits'.pending_ne_none (hheld.aborted.trans haborted) rfl⟩

theorem AwaitsNothing.not_terminates {conn : Connection Unit} (hawaits : conn.AwaitsNothing)
    (hpending : conn.pending ≠ none) : ¬ Terminates (iterate (RFBClient.runtime env)) conn := by
  refine @not_terminates_of_invariant _ (iterate (RFBClient.runtime env))
    (fun q => q.AwaitsNothing ∧ q.pending ≠ none) ?_ conn ⟨hawaits, hpending⟩
  exact fun q hq => hq.1.turn hq.2

/-- A turn that reads an empty reason leaves it to be awaited. -/
theorem ReadsZeroReason.not_terminates {conn : Connection Unit} (hreads : conn.ReadsZeroReason) :
    ¬ Terminates (iterate (RFBClient.runtime env)) conn := by
  rcases hreads with ⟨handler, block, hpending, hhandler, hzero⟩
  rcases pending_eq_some_iff.1 hpending with ⟨⟨hstage, haborted, _, _⟩, _, _⟩
  have hturn := (@iterate_eq_some_iff _ (RFBClient.runtime env) conn _).2
    ⟨handler, block, hpending, rfl⟩
  rw [terminates_iff_of_reaches (Relation.ReflTransGen.single hturn)]
  rcases hhandler with rfl | rfl
  · have hawaits : (resume (conn.packet.drop conn.client.expectedLen)
        (Handler.connFailed.run (RFBClient.runtime env) block conn.client)).AwaitsNothing :=
      ⟨hstage, Or.inl rfl, hzero⟩
    exact hawaits.not_terminates (hawaits.pending_ne_none haborted rfl)
  · have hawaits : (resume (conn.packet.drop conn.client.expectedLen)
        (Handler.authFailed.run (RFBClient.runtime env) block conn.client)).AwaitsNothing :=
      ⟨hstage, Or.inr rfl, hzero⟩
    exact hawaits.not_terminates (hawaits.pending_ne_none haborted rfl)

/-- A client that awaits an empty reason has not raised: its handlers do not. -/
theorem AwaitsNothing.raised_step {conn conn' : Connection Unit}
    (h : Step (RFBClient.runtime env) conn conn') (hconn : conn.AwaitsNothing → conn.raised = none)
    (hawaits' : conn'.AwaitsNothing) : conn'.raised = none := by
  cases h with
  | turn h =>
      rcases turn_cases (RFBClient.runtime_tame env) h with
        ⟨handler, block, hpending, ⟨hraised, _⟩ | ⟨_, hraises⟩, _⟩
      · exact hraised
      -- Had it raised, it would have been in one of the handlers of reasons.
      · have hhandler' : conn'.client.expectedHandler = conn.client.expectedHandler :=
          congrArg Prod.fst hraises.armed
        have hhandler : handler = conn.client.expectedHandler := (pending_eq_some_iff.1 hpending).2.1
        have hreason : handler.IsReason := hhandler ▸ hhandler' ▸ hawaits'.2.1
        rcases @run_isReason env _ hreason block conn.client with ⟨c', hrun, _⟩
        rcases iterate_eq_some_iff.1 h with ⟨_, _, hpending', rfl⟩
        rw [hpending] at hpending'
        cases hpending'
        rw [hrun]
        rfl
  | receive data _ _ =>
      rcases @enter_cases _ (RFBClient.runtime env) conn data with
        ⟨_, heq⟩ | ⟨_, _, heq⟩ | ⟨_, hstage, heq⟩
      · rw [heq] at hawaits' ⊢
        exact hconn hawaits'
      · rw [heq]
      · rw [heq] at hawaits' ⊢
        rcases greet_cases (RFBClient.runtime_tame env)
          { conn with packet := conn.packet ++ data, raised := none } with
          ⟨hraised, _⟩ | ⟨hheld, _⟩
        · exact hraised
        · exact absurd (hstage.symm.trans (hheld.stage.symm.trans hawaits'.1)) (by decide)

/-- At rest, no client of a session awaits an empty reason. -/
theorem not_awaitsNothing_of_idle {factory : Factory} {conn : Connection Unit}
    (hruns : Runs (RFBClient.runtime env) (init () factory) conn) (hidle : conn.pending = none)
    (haborted : conn.client.aborted = false) : ¬ conn.AwaitsNothing := by
  intro hawaits
  have hraised : conn.AwaitsNothing → conn.raised = none :=
    @Runs.invariant _ _ (fun conn => conn.AwaitsNothing → conn.raised = none)
      (fun _ _ hstep hconn hawaits' => hawaits'.raised_step hstep hconn) _ _ hruns fun _ => rfl
  exact hawaits.pending_ne_none haborted (hraised hawaits) hidle

theorem not_awaitsNothing_enter {factory : Factory} {conn : Connection Unit} (data : Bytes)
    (hruns : Runs (RFBClient.runtime env) (init () factory) conn) (hidle : conn.pending = none)
    (haborted : conn.client.aborted = false) :
    ¬ (conn.enter (RFBClient.runtime env) data).AwaitsNothing := by
  intro hawaits
  rcases @enter_cases _ (RFBClient.runtime env) conn data with
    ⟨habort, _⟩ | ⟨_, _, heq⟩ | ⟨_, hstage, heq⟩
  · rw [haborted] at habort
    cases habort
  · rw [heq] at hawaits
    exact not_awaitsNothing_of_idle hruns hidle haborted hawaits
  · rw [heq] at hawaits
    rcases greet_cases (RFBClient.runtime_tame env)
      { conn with packet := conn.packet ++ data, raised := none } with ⟨_, _, harmed, _⟩ | ⟨hheld, _⟩
    · exact pos_of_mem_greeted harmed hawaits.2.2
    · exact absurd (hstage.symm.trans (hheld.stage.symm.trans hawaits.1)) (by decide)

/-- At any point of a session and on any bytes, `dataReceived` returns exactly when none of its
turns reads that the reason of a refusal or of a failed authentication is empty. -/
theorem returns_iff_no_zeroReason {factory : Factory} {conn : Connection Unit}
    (hruns : Runs (RFBClient.runtime env) (init () factory) conn) (hidle : conn.pending = none)
    (data : Bytes) :
    (∃ conn', conn.Returns (RFBClient.runtime env) data conn') ↔
      ∀ q, Reaches (iterate (RFBClient.runtime env)) (conn.enter (RFBClient.runtime env) data) q →
        ¬ q.ReadsZeroReason := by
  constructor
  · intro hreturns q hreaches hreads
    exact hreads.not_terminates ((terminates_iff_of_reaches hreaches).1 hreturns)
  · intro hreasons
    cases haborted : conn.client.aborted with
    | true =>
        -- An aborted client drops the bytes and never enters the loop.
        refine ⟨conn, ?_⟩
        unfold Returns
        rw [show conn.enter (RFBClient.runtime env) data = conn by simp [enter, haborted]]
        exact HaltsAt.refl (iterate_eq_none_iff.2 hidle)
    | false =>
        have hconn : conn.WellArmed := wellArmed_of_runs (RFBClient.runtime_tame env) hruns
        exact terminates_of_reasons (RFBClient.runtime_tame env)
          (hconn.enter (RFBClient.runtime_tame env) data)
          (not_awaitsNothing_enter data hruns hidle haborted) hreasons

/-- A 3.3 server that refuses with a reason of one byte. -/
def refusal : Bytes :=
  versionLine ⟨3, 3⟩ ++ packBE 4 0 ++ packBE 4 1 ++ [33]

theorem returns_iff_no_zeroReason_refusal :
    (∃ conn', (init () {}).Returns (RFBClient.runtime .sample) refusal conn') ↔
      ∀ q, Reaches (iterate (RFBClient.runtime .sample))
          ((init () {}).enter (RFBClient.runtime .sample) refusal) q → ¬ q.ReadsZeroReason :=
  returns_iff_no_zeroReason Relation.ReflTransGen.refl rfl refusal

/-- A 3.3 server that refuses with a reason of no bytes. -/
def emptyRefusal : Bytes :=
  versionLine ⟨3, 3⟩ ++ packBE 4 0 ++ packBE 4 0

theorem never_returns_emptyRefusal :
    ¬ ∃ conn', (init () {}).Returns (RFBClient.runtime .sample) emptyRefusal conn' := by
  have hafter : ∃ q, after (iterate (RFBClient.runtime .sample)) 1
      ((init () {}).enter (RFBClient.runtime .sample) emptyRefusal) = some q ∧
      q.pending = some (.connFailed, packBE 4 0) := by
    refine ⟨_, rfl, ?_⟩
    decide
  rcases hafter with ⟨q, hq, hpending⟩
  have hreads : q.ReadsZeroReason := ⟨_, _, hpending, Or.inl rfl, by decide⟩
  intro hreturns
  exact hreads.not_terminates ((terminates_iff_of_reaches (reaches_of_after hq)).1 hreturns)

end Connection

end Vncdotool
