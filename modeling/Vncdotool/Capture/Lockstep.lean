import Vncdotool.Capture.Tapped
import Vncdotool.RFB.Failure
import Vncdotool.Streaming.Runs

/-!
# Lockstep — the scrubber waits for what the client waits for

The turns of a client and the chunks it receives keep one relation between the parked handler and
the suspended generator, from the greeting to the name of the server.  In the middle of a chunk the
scrubber is ahead, by what the client has not read yet: it is what these bytes make of a generator
that is abreast of the client.

A tap that is not asked is not watched.  So a server has to wait for what the client answers: bytes
that it sends ahead are passed on by the scrubber, while the client reads them.
-/

namespace Vncdotool

open Wire Streaming

namespace TappedClient

open HandshakeScrubber

/-! ## Through a run -/

/-- Up to the name: the scrubber is what the client's unread bytes make of a generator that is
abreast of the client. -/
structure Going (env : Env) (t : TappedClient) : Prop where
  naming : t.naming = none
  raised : t.conn.raised = none
  fitting : Fitting env t.conn.client
  greeting : t.conn.client.stage = .handleInitial → t.conn.packet.length < 12
  abreast : ∃ m, Abreast t.conn.client m ∧ t.scrubber = grammar.settle .s2c m t.conn.packet ∧
    t.taken + (grammar.remnant .s2c m t.conn.packet).length = t.received

/-- From the name on the scrubber lets everything through. -/
structure Arrived (t : TappedClient) (naming : Naming) : Prop where
  named : t.naming = some naming
  gen : t.scrubber.core.gen = none
  pending : t.scrubber.pending = fun _ => []
  taken : t.taken = naming.offset
  width : t.scrubber.core.width = some naming.width
  height : t.scrubber.core.height = some naming.height
  version : t.scrubber.core.negotiatedVersion = some naming.version

section Run

variable {env : Env} {c : RFBClient Unit} {m : HandshakeScrubber} {t : TappedClient}
  {naming : Naming}

theorem not_waitingOn_of_finished (h : m.gen = none) (tap : Tap) :
    grammar.waitingOn m tap = none :=
  grammar.waitingOn_eq_none_of_want (by simp [grammar, want, h])

theorem Abreast.aborted (h : Abreast c m) : c.aborted = false := by
  cases h with
  | greeting _ haborted _ => exact haborted
  | block _ hpoised _ _ => exact hpoised.aborted
  | name hpoised _ _ _ _ => exact hpoised.aborted

/-- A finished generator hears nothing. -/
theorem hear_of_finished {s : TappedScrubber} (hgen : s.core.gen = none)
    (hpending : s.pending = fun _ => []) (writes : List Bytes) : s.hear writes = s := by
  have hfeed (data : Bytes) : (s.feed .c2s data).2 = s :=
    Coroutine.feed_of_not_waiting (not_waitingOn_of_finished hgen .c2s) (by rw [hpending])
  induction writes with
  | nil => rfl
  | cons data writes ih =>
      rw [TappedScrubber.hear, List.foldl_cons, hfeed]
      exact ih

theorem Arrived.become (h : Arrived t naming) (conn : Connection Unit) :
    Arrived (t.become conn) naming := by
  have hsame : (t.become conn).scrubber = t.scrubber := hear_of_finished h.gen h.pending _
  refine ⟨h.named, ?_, ?_, h.taken, ?_, ?_, ?_⟩
  · rw [hsame]
    exact h.gen
  · rw [hsame]
    exact h.pending
  · rw [hsame]
    exact h.width
  · rw [hsame]
    exact h.height
  · rw [hsame]
    exact h.version

theorem Arrived.step (h : Arrived t naming) (action : Action) :
    Arrived (t.step env action) naming := by
  cases action with
  | receive data =>
      unfold TappedClient.step
      dsimp only
      split_ifs
      · have hpassing := not_waitingOn_of_finished h.gen .s2c
        have hfeed : (t.scrubber.feed .s2c data).2 = t.scrubber :=
          Coroutine.feed_of_not_waiting hpassing (by rw [h.pending])
        have htakes : t.scrubber.takes data = 0 := by
          rw [TappedScrubber.takes, Coroutine.remnant_of_not_waiting hpassing]
          exact Nat.sub_self _
        have hfed : Arrived { t with
            scrubber := (t.scrubber.feed .s2c data).2
            received := t.received + data.length
            taken := t.taken + t.scrubber.takes data } naming := by
          rw [hfeed, htakes]
          exact ⟨h.named, h.gen, h.pending, h.taken, h.width, h.height, h.version⟩
        exact hfed.become _
      · exact h
  | turn =>
      unfold TappedClient.step TappedClient.turn
      dsimp only
      cases t.conn.iterate (RFBClient.runtime env) with
      | none => exact h
      | some conn =>
          dsimp only
          rw [if_neg fun hnone => Option.some_ne_none naming (h.named.symm.trans hnone.1)]
          exact h.become conn

/-- Nothing is unread when the client has answered. -/
theorem Answered.settle {writes : List Bytes} {block rest : Bytes} {m' : HandshakeScrubber}
    (hask : grammar.waitingOn m .s2c = some block.length)
    (hanswered : Answered (m.send block) writes m') (hrest : writes ≠ [] → rest = []) :
    TappedScrubber.hear (grammar.settle .s2c m (block ++ rest)) writes =
        grammar.settle .s2c m' rest ∧
      grammar.remnant .s2c m (block ++ rest) = grammar.remnant .s2c m' rest := by
  rw [Coroutine.settle_block hask (advance_eq m block),
    Coroutine.remnant_block hask (advance_eq m block)]
  cases hanswered with
  | silent => exact ⟨rfl, rfl⟩
  | reply hpassing hheard hwaits =>
      rw [hrest (List.cons_ne_nil _ _)]
      refine ⟨?_, Coroutine.remnant_nil.trans Coroutine.remnant_nil.symm⟩
      rw [Coroutine.settle_of_not_waiting hpassing, Coroutine.settle_nil (by simp [hwaits])]
      exact hheard

/-- A turn before the name has been consumed. -/
theorem Going.turn_block {factory : Factory} {conn : Connection Unit} {handler : Handler}
    {suspension : Suspension} {n : ℕ} (hlengths : env.KeepsLengths factory) (h : Going env t)
    (hturn : t.conn.iterate (RFBClient.runtime env) = some conn)
    (hopposite : Opposite t.conn.client handler suspension)
    (hpoised : Connection.Poised t.conn.client handler n) (hwant : suspension.want = (.s2c, n))
    (hsuspended : m.Suspended suspension t.conn.client.version)
    (hsettled : t.scrubber = grammar.settle .s2c m t.conn.packet)
    (htaken : t.taken + (grammar.remnant .s2c m t.conn.packet).length = t.received)
    (hadmitted : conn.raised = none ∧ ¬ conn.client.TurnedAway)
    (hwaits : writesSince t.conn.client.log conn.client.log ≠ [] → conn.packet = []) :
    Going env (t.become conn) := by
  have hstage := Connection.stage_iterate (RFBClient.runtime_tame env) hturn
  rcases Connection.iterate_eq_some_iff.1 hturn with ⟨handler', block, hpending, hresume⟩
  rcases Connection.pending_eq_some_iff.1 hpending with ⟨⟨hexpected, _, _, hle⟩, rfl, hblock⟩
  have hlength : block.length = n := by
    rw [hblock, List.length_take, min_eq_left hle, hpoised.length]
  have hsplit : t.conn.packet = block ++ t.conn.packet.drop t.conn.client.expectedLen := by
    rw [hblock, List.take_append_drop]
  have hpace := keepsPace_run hlengths h.fitting hopposite hpoised hwant hsuspended hlength
  rw [hpoised.handler] at hresume
  unfold KeepsPace Ensures EStateM.run at hpace
  -- The client has neither raised nor been turned away, so its turn was one of the generator.
  cases hrun : handler.run (RFBClient.runtime env) block t.conn.client with
  | error exc c' =>
      rw [hrun] at hresume
      rw [hresume] at hadmitted
      exact absurd hadmitted.1 (Option.some_ne_none exc)
  | ok _ c' =>
      rw [hrun] at hresume hpace
      have hclient : conn.client = c' := congrArg Connection.client hresume
      rcases hpace.resolve_left (hclient ▸ hadmitted.2) with ⟨hfitting, m', habreast, hanswered⟩
      have hpacket : conn.packet = t.conn.packet.drop t.conn.client.expectedLen := by
        rw [hresume, Connection.resume, habreast.aborted]
        rfl
      have hask : grammar.waitingOn m .s2c = some block.length :=
        waitingOn_of_gen hsuspended.gen .s2c (hlength ▸ hwant)
      -- An answer leaves nothing unread, as the server waits for it.
      have hdrop : writesSince t.conn.client.log c'.log ≠ [] →
          t.conn.packet.drop t.conn.client.expectedLen = [] := fun hne =>
        hpacket.symm.trans (hwaits (hclient.symm ▸ hne))
      rcases hanswered.settle hask hdrop with ⟨hheard, hremnant⟩
      rw [← hsplit] at hheard hremnant
      refine ⟨h.naming, hadmitted.1, hclient.symm ▸ hfitting h.fitting, ?_, m',
        hclient.symm ▸ habreast, ?_, ?_⟩
      · intro hinitial
        exact absurd (hinitial.symm.trans (hstage.trans hexpected)) (by decide)
      · change TappedScrubber.hear t.scrubber (writesSince t.conn.client.log conn.client.log) =
          grammar.settle .s2c m' conn.packet
        rw [hsettled, hclient, hpacket]
        exact hheard
      · change t.taken + (grammar.remnant .s2c m' conn.packet).length = t.received
        rw [hpacket, ← hremnant]
        exact htaken

/-- The turn that consumes the name. -/
theorem Going.turn_name {conn : Connection Unit} {n : ℕ} (h : Going env t)
    (hturn : t.conn.iterate (RFBClient.runtime env) = some conn)
    (hpoised : Connection.Poised t.conn.client .serverName n)
    (hgen : m.gen = if n = 0 then none else some (.serverName n))
    (hversion : m.negotiatedVersion = some t.conn.client.version)
    (hwidth : m.width = some t.conn.client.width) (hheight : m.height = some t.conn.client.height)
    (hsettled : t.scrubber = grammar.settle .s2c m t.conn.packet)
    (htaken : t.taken + (grammar.remnant .s2c m t.conn.packet).length = t.received) :
    ∃ naming, Arrived (t.turn env) naming := by
  rcases Connection.iterate_eq_some_iff.1 hturn with ⟨handler, block, hpending, hresume⟩
  rcases Connection.pending_eq_some_iff.1 hpending with ⟨⟨_, _, _, hle⟩, rfl, hblock⟩
  rw [hpoised.handler, hpoised.length] at hresume
  rw [hpoised.length] at hle hblock
  have hlength : block.length = n := by
    rw [hblock, List.length_take, min_eq_left hle]
  let rest := t.conn.packet.drop n
  have hsplit : t.conn.packet = block ++ rest := by
    rw [hblock, List.take_append_drop]
  let named : RFBClient Unit := { t.conn.client with
    name := block
    log := t.conn.client.log ++ [.callback .vncConnectionMade]
    expectedHandler := .connection
    expectedLen := 1 }
  have hconn : conn = { client := named, packet := rest } := by
    have hrun : Handler.serverName.run (RFBClient.runtime env) block t.conn.client = .ok () named :=
      rfl
    rw [hresume, hrun, Connection.resume]
    change ({ client := named, packet := if t.conn.client.aborted then [] else rest } :
      Connection Unit) = _
    rw [hpoised.aborted]
    rfl
  -- The generator returns at the end of the name, or did so at the end of ServerInit.
  have hfinished : ∃ m', m'.gen = none ∧ m'.negotiatedVersion = some t.conn.client.version ∧
      m'.width = some t.conn.client.width ∧ m'.height = some t.conn.client.height ∧
      grammar.settle .s2c m t.conn.packet = { core := m', pending := fun _ => [] } ∧
      grammar.remnant .s2c m t.conn.packet = rest := by
    by_cases hnone : n = 0
    · rw [if_pos hnone] at hgen
      have hempty : block = [] := List.length_eq_zero_iff.1 (hlength.trans hnone)
      have hpassing := not_waitingOn_of_finished hgen .s2c
      refine ⟨m, hgen, hversion, hwidth, hheight, Coroutine.settle_of_not_waiting hpassing, ?_⟩
      rw [Coroutine.remnant_of_not_waiting hpassing, hsplit, hempty]
      rfl
    · rw [if_neg hnone] at hgen
      have hask : grammar.waitingOn m .s2c = some block.length :=
        waitingOn_of_gen hgen .s2c (hlength ▸ rfl)
      have hsend := send_of_gen hgen block
      have hdone : (m.send block).gen = none := by
        rw [hsend]
        rfl
      have hpassing := not_waitingOn_of_finished hdone .s2c
      refine ⟨m.send block, hdone, ?_, ?_, ?_, ?_, ?_⟩
      · rw [hsend]
        exact hversion
      · rw [hsend]
        exact hwidth
      · rw [hsend]
        exact hheight
      · rw [hsplit, Coroutine.settle_block hask (advance_eq m block),
          Coroutine.settle_of_not_waiting hpassing]
      · rw [hsplit, Coroutine.remnant_block hask (advance_eq m block),
          Coroutine.remnant_of_not_waiting hpassing]
  rcases hfinished with ⟨m', hdone, hversion', hwidth', hheight', hsettle, hremnant⟩
  have hscrubber : (t.become conn).scrubber = { core := m', pending := fun _ => [] } := by
    change TappedScrubber.hear t.scrubber (writesSince t.conn.client.log conn.client.log) = _
    rw [hsettled, hsettle]
    exact hear_of_finished hdone rfl _
  have htaken' : t.taken = t.received - rest.length := by
    rw [hremnant] at htaken
    omega
  unfold TappedClient.turn
  rw [hturn]
  dsimp only
  rw [if_pos ⟨h.naming, hpoised.handler⟩]
  refine ⟨_, rfl, ?_, ?_, ?_, ?_, ?_, ?_⟩
  · exact (congrArg (fun s => s.core.gen) hscrubber).trans hdone
  · exact congrArg (fun s => s.pending) hscrubber
  · rw [hconn]
    exact htaken'
  · rw [hconn] at hscrubber ⊢
    exact (congrArg (fun s => s.core.width) hscrubber).trans hwidth'
  · rw [hconn] at hscrubber ⊢
    exact (congrArg (fun s => s.core.height) hscrubber).trans hheight'
  · rw [hconn] at hscrubber ⊢
    exact (congrArg (fun s => s.core.negotiatedVersion) hscrubber).trans hversion'

/-- At rest the scrubber holds back what the client has not read. -/
theorem Going.at_rest (h : Going env t) (hrest : t.conn.pending = none) :
    ∃ m, Abreast t.conn.client m ∧ grammar.waitingOn m .s2c = some t.conn.awaited ∧
      t.conn.packet.length < t.conn.awaited ∧
      t.scrubber =
        { core := m, pending := Function.update (fun _ => []) .s2c t.conn.packet } ∧
      t.taken + t.conn.packet.length = t.received := by
  rcases h.abreast with ⟨m, habreast, hsettled, htaken⟩
  have hshort (hstage : t.conn.client.stage = .handleExpected)
      (haborted : t.conn.client.aborted = false) :
      t.conn.packet.length < t.conn.client.expectedLen := by
    by_contra hle
    exact Connection.pending_ne_none_iff.2 ⟨hstage, haborted, h.raised, not_lt.1 hle⟩ hrest
  have hawaited (hstage : t.conn.client.stage = .handleExpected) :
      t.conn.awaited = t.conn.client.expectedLen := by
    rw [Connection.awaited, hstage]
  have hwaits : grammar.waitingOn m .s2c = some t.conn.awaited ∧
      t.conn.packet.length < t.conn.awaited := by
    cases habreast with
    | greeting hstage _ hgen =>
        have htwelve : t.conn.awaited = 12 := by
          rw [Connection.awaited, hstage]
        rw [htwelve]
        exact ⟨waitingOn_of_gen hgen .s2c rfl, h.greeting hstage⟩
    | block hopposite hpoised hwant hsuspended =>
        rw [hawaited hpoised.stage]
        refine ⟨?_, hshort hpoised.stage hpoised.aborted⟩
        rw [hpoised.length]
        exact waitingOn_of_gen hsuspended.gen .s2c hwant
    | name hpoised hgen _ _ _ =>
        rename_i n
        have hlt := hshort hpoised.stage hpoised.aborted
        rw [hawaited hpoised.stage]
        refine ⟨?_, hlt⟩
        rw [hpoised.length] at hlt ⊢
        -- An empty name would not be waited for.
        rw [if_neg (Nat.ne_zero_of_lt hlt)] at hgen
        exact waitingOn_of_gen hgen .s2c rfl
  refine ⟨m, habreast, hwaits.1, hwaits.2, ?_, ?_⟩
  · rw [hsettled, Coroutine.settle_of_short hwaits.1 hwaits.2]
  · rw [Coroutine.remnant_of_short hwaits.1 hwaits.2] at htaken
    exact htaken

/-- What a chunk makes of the scrubber. -/
theorem fed_of_waiting {packet data : Bytes} {n : ℕ} (hask : grammar.waitingOn m .s2c = some n)
    (hshort : packet.length < n)
    (hscrubber : t.scrubber = { core := m, pending := Function.update (fun _ => []) .s2c packet })
    (htaken : t.taken + packet.length = t.received) :
    (t.scrubber.feed .s2c data).2 = grammar.settle .s2c m (packet ++ data) ∧
      t.taken + t.scrubber.takes data + (grammar.remnant .s2c m (packet ++ data)).length =
        t.received + data.length := by
  rw [hscrubber]
  refine ⟨Coroutine.feed_settle hask hshort, ?_⟩
  have hle := @Coroutine.length_remnant_le _ _ _ _ grammar .s2c m (packet ++ data)
  rw [TappedScrubber.takes]
  dsimp only
  rw [Function.update_self]
  rw [List.length_append] at *
  omega

/-- The version that the client replies with is the one that is negotiated. -/
theorem answered_version {greeting : Bytes} {versionServer version : Ver}
    (hgen : m.gen = some .serverHead)
    (hchoose : RFBClient.chooseVersion versionServer = some version) :
    ∃ m', Answered (m.send greeting) [versionLine version] m' ∧
      m'.Suspended (if version < ⟨3, 7⟩ then .auth version else .numTypes version) version := by
  have hclientHead : (m.send greeting).gen = some .clientHead := by
    rw [send_of_gen hgen]
    rfl
  have hreply : (m.send greeting).send (versionLine version) =
      HandshakeScrubber.resume (versionLine version)
        { m.send greeting with recording := none } .clientHead := send_of_gen hclientHead _
  have hsuspended : ((m.send greeting).send (versionLine version)).Suspended
      (if version < ⟨3, 7⟩ then .auth version else .numTypes version) version := by
    rw [hreply]
    simp only [HandshakeScrubber.resume, parse_versionLine_of_choose hchoose]
    by_cases hversion : version < ⟨3, 7⟩
    · rw [if_neg (mt Ver.not_lt.2 (not_not.2 hversion)), if_pos hversion]
      exact ⟨rfl, rfl⟩
    · rw [if_pos (Ver.not_lt.1 hversion), if_neg hversion]
      exact ⟨rfl, rfl⟩
  -- Upon the greeting the generator asks the client, and what it writes is taken at once.
  have hpassing := not_waitingOn_of_gen hclientHead .s2c (by simp [Suspension.want])
  have hheard : TappedScrubber.hear { core := m.send greeting, pending := fun _ => [] }
      [versionLine version] =
      { core := (m.send greeting).send (versionLine version), pending := fun _ => [] } := by
    have hwant : Suspension.clientHead.want = (.c2s, (versionLine version).length) := rfl
    have hpos : 0 < (versionLine version).length := by
      rw [length_versionLine]
      exact Nat.succ_pos 11
    rw [TappedScrubber.hear_cons hclientHead hwant hpos]
    · rfl
    · rw [not_waitingOn_of_gen hsuspended.gen]
      · exact (Option.some_ne_none 0).symm
      · split_ifs
        · simp [Suspension.want]
        · simp [Suspension.want]
  refine ⟨_, ?_, hsuspended⟩
  by_cases hversion : version < ⟨3, 7⟩
  · rw [if_pos hversion] at hsuspended
    exact Answered.reply hpassing hheard (waitingOn_of_gen hsuspended.gen .s2c (n := 3 + 1) rfl)
  · rw [if_neg hversion] at hsuspended
    exact Answered.reply hpassing hheard (waitingOn_of_gen hsuspended.gen .s2c (n := 0 + 1) rfl)

/-- What a chunk does to a client that awaits the greeting. -/
theorem greet_outcome {conn : Connection Unit} (hraised : conn.raised = none)
    (hadmitted : (conn.greet (RFBClient.runtime env)).raised = none ∧
      ¬ (conn.greet (RFBClient.runtime env)).client.TurnedAway) :
    (conn.greet (RFBClient.runtime env) = conn ∧ conn.packet.length < 12) ∨
      ∃ versionServer version, RFBClient.chooseVersion versionServer = some version ∧
        12 ≤ conn.packet.length ∧ conn.greet (RFBClient.runtime env) =
          { conn with
            client := Connection.answered version versionServer conn.client
            packet := conn.packet.drop 12 } := by
  by_cases hgreeted : Connection.Greeted conn.packet
  · refine Or.inr ?_
    unfold Connection.greet at hadmitted ⊢
    rw [Connection.handleInitial_of_greeted hgreeted] at hadmitted ⊢
    cases hparse : parseVersion (conn.packet.take 12) with
    | none =>
        rw [hparse] at hadmitted
        exact absurd hadmitted.1 (Option.some_ne_none _)
    | some versionServer =>
        rw [hparse] at hadmitted
        cases hchoose : RFBClient.chooseVersion versionServer with
        | none =>
            simp only [Option.bind_some, hchoose] at hadmitted
            exact absurd hadmitted.1 (Option.some_ne_none _)
        | some version =>
            refine ⟨versionServer, version, hchoose, hgreeted.length_le, ?_⟩
            simp only [Option.bind_some, hchoose, Option.map_some, hraised]
  · refine Or.inl ?_
    have hformed : ¬ Connection.Malformed conn.packet := by
      intro hmalformed
      rw [Connection.greet_malformed hmalformed] at hadmitted
      exact hadmitted.2 (@turnedAway_of_mem _ .loseConnection
        (List.mem_append_right _ List.mem_cons_self) rfl)
    refine ⟨Connection.greet_of_incomplete hraised hgreeted hformed, ?_⟩
    -- A beginning of a greeting that is not the whole of one is shorter.
    have hleads : RFBClient.headerTranslate (conn.packet.take 12) <+: RFBClient.header :=
      not_not.1 hformed
    by_contra hlong
    refine hgreeted (hleads.eq_of_length ?_)
    rw [RFBClient.headerTranslate, List.length_map, List.length_take,
      min_eq_left (not_lt.1 hlong)]
    rfl

/-- A chunk that is put behind what the client has not read. -/
theorem Going.receive_unread (h : Going env t) (hrest : t.conn.pending = none) {data : Bytes}
    (henter : t.conn.enter (RFBClient.runtime env) data =
      { t.conn with packet := t.conn.packet ++ data, raised := none })
    (hgreeting : t.conn.client.stage = .handleInitial → (t.conn.packet ++ data).length < 12) :
    Going env (t.receive env data) := by
  rcases h.at_rest hrest with ⟨m, habreast, hask, hshort, hscrubber, htaken⟩
  rcases @fed_of_waiting _ t _ data _ hask hshort hscrubber htaken with ⟨hfed, htaken'⟩
  have hconn : (t.receive env data).conn =
      { t.conn with packet := t.conn.packet ++ data, raised := none } := henter
  have hscrubber' : (t.receive env data).scrubber =
      grammar.settle .s2c m (t.conn.packet ++ data) := by
    change TappedScrubber.hear _
      (writesSince t.conn.client.log (t.receive env data).conn.client.log) = _
    rw [hconn, writesSince_self]
    exact hfed
  refine ⟨h.naming, ?_, ?_, ?_, m, ?_, ?_, ?_⟩
  · rw [hconn]
  · rw [hconn]
    exact h.fitting
  · rw [hconn]
    exact hgreeting
  · rw [hconn]
    exact habreast
  · rw [hconn]
    exact hscrubber'
  · rw [hconn]
    exact htaken'

/-- The chunk that completes the greeting, and nothing more. -/
theorem Going.receive_greeting (h : Going env t) (hrest : t.conn.pending = none) {data : Bytes}
    {versionServer version : Ver} (hstage : t.conn.client.stage = .handleInitial)
    (hchoose : RFBClient.chooseVersion versionServer = some version)
    (hlength : (t.conn.packet ++ data).length = 12)
    (henter : t.conn.enter (RFBClient.runtime env) data =
      { client := Connection.answered version versionServer t.conn.client }) :
    Going env (t.receive env data) := by
  rcases h.at_rest hrest with ⟨m, habreast, hask, hshort, hscrubber, htaken⟩
  rcases @fed_of_waiting _ t _ data _ hask hshort hscrubber htaken with ⟨hfed, htaken'⟩
  have hgen : m.gen = some .serverHead := by
    cases habreast with
    | greeting _ _ hgen => exact hgen
    | block _ hpoised _ _ => exact absurd (hstage.symm.trans hpoised.stage) (by decide)
    | name hpoised _ _ _ _ => exact absurd (hstage.symm.trans hpoised.stage) (by decide)
  have hconn : (t.receive env data).conn =
      { client := Connection.answered version versionServer t.conn.client } := henter
  -- The greeting is taken and answered, so that nothing is left of the chunk on either side.
  rcases @answered_version m (t.conn.packet ++ data) _ _ hgen hchoose with
    ⟨m', hanswered, hsuspended⟩
  have hblock : grammar.waitingOn m .s2c = some (t.conn.packet ++ data).length :=
    waitingOn_of_gen hgen .s2c (hlength ▸ rfl)
  rcases hanswered.settle hblock (fun _ => rfl) with ⟨hheard, hremnant⟩
  rw [List.append_nil] at hheard hremnant
  have hscrubber' : (t.receive env data).scrubber = grammar.settle .s2c m' [] := by
    change TappedScrubber.hear (t.scrubber.feed .s2c data).2
      (writesSince t.conn.client.log (t.receive env data).conn.client.log) = _
    rw [hconn, hfed]
    exact (congrArg _ (writesSince_append _ _)).trans hheard
  refine ⟨h.naming, ?_, ?_, ?_, m', ?_, ?_, ?_⟩
  · rw [hconn]
  · rw [hconn]
    exact h.fitting
  · intro hinitial
    rw [hconn] at hinitial
    change Stage.handleExpected = Stage.handleInitial at hinitial
    exact absurd hinitial (by decide)
  · rw [hconn]
    by_cases hversion : version < ⟨3, 7⟩
    · rw [if_pos hversion] at hsuspended
      exact Abreast.block (Opposite.auth hversion)
        ⟨rfl, habreast.aborted, if_pos hversion, if_pos hversion⟩ rfl hsuspended
    · rw [if_neg hversion] at hsuspended
      exact Abreast.block Opposite.numTypes
        ⟨rfl, habreast.aborted, if_neg hversion, if_neg hversion⟩ rfl hsuspended
  · rw [hscrubber', hconn]
  · rw [hconn]
    change t.taken + t.scrubber.takes data + (grammar.remnant .s2c m' []).length =
      t.received + data.length
    rw [← hremnant]
    exact htaken'

theorem Going.receive (h : Going env t) (hrest : t.conn.pending = none) {data : Bytes}
    (hadmitted : (t.receive env data).conn.raised = none ∧
      ¬ (t.receive env data).conn.client.TurnedAway)
    (hwaits : writesSince t.conn.client.log (t.receive env data).conn.client.log ≠ [] →
      (t.receive env data).conn.packet = []) : Going env (t.receive env data) := by
  have hconn : (t.receive env data).conn = t.conn.enter (RFBClient.runtime env) data := rfl
  rw [hconn] at hadmitted hwaits
  rcases @Connection.enter_cases _ (RFBClient.runtime env) t.conn data with
    ⟨haborted, _⟩ | ⟨_, hstage, henter⟩ | ⟨_, hstage, henter⟩
  · rcases h.abreast with ⟨m, habreast, _⟩
    exact absurd (haborted.symm.trans habreast.aborted) (by decide)
  · refine h.receive_unread hrest henter fun hinitial => ?_
    exact absurd (hinitial.symm.trans hstage) (by decide)
  · rw [henter] at hadmitted hwaits
    rcases greet_outcome rfl hadmitted with
      ⟨hsame, hpartial⟩ | ⟨versionServer, version, hchoose, hle, hanswer⟩
    · exact h.receive_unread hrest (henter.trans hsame) fun _ => hpartial
    · rw [hanswer] at henter hwaits
      -- The version is an answer: nothing comes behind the greeting.
      have hnothing : (t.conn.packet ++ data).drop 12 = [] := by
        refine hwaits ?_
        have hwrites := writesSince_append t.conn.client.log [.write (versionLine version)]
        exact fun hnil => List.cons_ne_nil _ _ (hwrites.symm.trans hnil)
      have hlength : (t.conn.packet ++ data).length = 12 := by
        have hdrop := congrArg List.length hnothing
        rw [List.length_drop, List.length_nil] at hdrop
        exact le_antisymm (Nat.sub_eq_zero_iff_le.1 hdrop) hle
      refine h.receive_greeting hrest hstage hchoose hlength (henter.trans ?_)
      dsimp only
      rw [hnothing]

/-- In lockstep: under way, or through. -/
def Lockstep (env : Env) (t : TappedClient) : Prop :=
  Going env t ∨ ∃ naming, Arrived t naming

theorem Going.step {factory : Factory} {action : Action} (hlengths : env.KeepsLengths factory)
    (h : Going env t) (hadmitted : Admitted env t action) (hwaits : Waits env t action) :
    Lockstep env (t.step env action) := by
  have hadmitted := hadmitted h.naming
  have hwaits := hwaits h.naming
  cases action with
  | receive data =>
      unfold TappedClient.step at hadmitted hwaits ⊢
      dsimp only at hadmitted hwaits ⊢
      by_cases hrest : t.conn.pending = none
      · rw [if_pos hrest] at hadmitted hwaits ⊢
        exact Or.inl (h.receive hrest hadmitted hwaits)
      · rw [if_neg hrest]
        exact Or.inl h
  | turn =>
      cases hturn : t.conn.iterate (RFBClient.runtime env) with
      | none =>
          have hsame : t.step env .turn = t := by
            unfold TappedClient.step TappedClient.turn
            rw [hturn]
          rw [hsame]
          exact Or.inl h
      | some conn =>
          rcases h.abreast with ⟨m, habreast, hsettled, htaken⟩
          cases habreast with
          | greeting hstage _ _ =>
              rcases Connection.iterate_eq_some_iff.1 hturn with ⟨_, _, hpending, _⟩
              have hexpected := (Connection.pending_eq_some_iff.1 hpending).1.1
              exact absurd (hstage.symm.trans hexpected) (by decide)
          | name hpoised hgen hversion hwidth hheight =>
              exact Or.inr (h.turn_name hturn hpoised hgen hversion hwidth hheight hsettled htaken)
          | block hopposite hpoised hwant hsuspended =>
              -- Only the handler of the name notes that it has been consumed.
              have hname : t.conn.client.expectedHandler ≠ .serverName := by
                rw [hpoised.handler]
                cases hopposite <;> simp
              have hstep : t.step env .turn = t.become conn := by
                unfold TappedClient.step TappedClient.turn
                rw [hturn]
                exact if_neg fun hboth => hname hboth.2
              rw [hstep] at hadmitted hwaits ⊢
              exact Or.inl (h.turn_block hlengths hturn hopposite hpoised hwant hsuspended hsettled
                htaken hadmitted hwaits)

theorem Lockstep.step {factory : Factory} {action : Action} (hlengths : env.KeepsLengths factory)
    (h : Lockstep env t) (hadmitted : Admitted env t action) (hwaits : Waits env t action) :
    Lockstep env (t.step env action) := by
  rcases h with hgoing | ⟨naming, harrived⟩
  · exact hgoing.step hlengths hadmitted hwaits
  · exact Or.inr ⟨naming, harrived.step action⟩

theorem lockstep_init {factory : Factory} (hlengths : env.KeepsLengths factory)
    (preserveAuth : Bool) : Lockstep env (init factory preserveAuth) := by
  refine Or.inl ⟨rfl, rfl, ⟨hlengths.username, hlengths.password⟩, fun _ => Nat.succ_pos 11, _,
    Abreast.greeting rfl rfl (m := { preserveAuth := preserveAuth }) rfl, ?_, ?_⟩
  · refine (Coroutine.settle_nil ?_).symm
    simp [grammar, want, Coroutine.waitingOn, Suspension.want]
  · change 0 + (grammar.remnant _ _ []).length = 0
    rw [Coroutine.remnant_nil]
    rfl

/-- At rest, in lockstep is in step. -/
theorem Lockstep.inStep (h : Lockstep env t) (hrest : t.conn.pending = none) : t.InStep := by
  rcases h with hgoing | ⟨naming, harrived⟩
  · rcases hgoing.at_rest hrest with ⟨m, _, hask, _, hscrubber, _⟩
    have hwant : t.scrubber.core.want = some (.s2c, t.conn.awaited) := by
      rw [hscrubber]
      exact (grammar.waitingOn_eq_some_iff).1 hask
    refine ⟨fun _ => ⟨hwant, ?_⟩, ?_, fun naming hnaming => ?_⟩
    · rw [hscrubber]
      simp
    · refine iff_of_false (fun hcomplete => ?_) (not_not.2 hgoing.naming)
      exact Option.some_ne_none _ (hwant.symm.trans hcomplete.1)
    · exact absurd (hgoing.naming.symm.trans hnaming) (Option.some_ne_none naming).symm
  · have hnaming : t.naming ≠ none := by
      rw [harrived.named]
      exact Option.some_ne_none _
    refine ⟨fun hnone => absurd hnone hnaming, iff_of_true ⟨?_, ?_, ?_⟩ hnaming, fun k hk => ?_⟩
    · rw [want, harrived.gen]
      rfl
    · rw [harrived.width]
      exact Option.some_ne_none _
    · rw [harrived.height]
      exact Option.some_ne_none _
    · cases harrived.named.symm.trans hk
      exact ⟨harrived.taken, harrived.width, harrived.height, harrived.version⟩

/-- However the server's bytes are cut, and whatever version and type of security are agreed on: as
long as the server waits for the client's answers and does not turn it away, the scrubber waits for
what the client is parked for, and is complete when the client has consumed the name, having taken
as many bytes and found the same size and version. -/
theorem scrubber_inStep {factory : Factory} (hlengths : env.KeepsLengths factory)
    (preserveAuth : Bool) {actions : List Action}
    (hadmitted : Throughout (step env) (Admitted env) (init factory preserveAuth) actions)
    (hwaits : Throughout (step env) (Waits env) (init factory preserveAuth) actions) :
    Always (step env) (fun t => t.conn.pending = none → t.InStep) (init factory preserveAuth)
      actions := by
  have hboth : Throughout (step env) (fun t action => Admitted env t action ∧ Waits env t action)
      (init factory preserveAuth) actions :=
    fun before action hleads => ⟨hadmitted before action hleads, hwaits before action hleads⟩
  have hlockstep : Always (step env) (Lockstep env) (init factory preserveAuth) actions :=
    always_of_throughout (fun _ _ h hmeets => h.step hlengths hmeets.1 hmeets.2)
      (lockstep_init hlengths preserveAuth) hboth
  exact fun before hleads hrest => (hlockstep before hleads).inStep hrest

end Run

/-! ## Two runs -/

instance (c : RFBClient Unit) : Decidable c.TurnedAway :=
  inferInstanceAs (Decidable (_ ∨ _))

instance (t : TappedClient) (action : Action) : Decidable (Admitted .sample t action) :=
  inferInstanceAs (Decidable (_ → _))

instance (t : TappedClient) (action : Action) : Decidable (Waits .sample t action) :=
  inferInstanceAs (Decidable (_ → _))

def sampleFactory : Factory where
  password := some "secret"

theorem keepsLengths_sample : Env.sample.KeepsLengths sampleFactory where
  des _ _ hlength := hlength
  aes _ _ _ hok := by
    cases hok
    rfl
  username := by
    refine ⟨by simp [Env.sample, sampleFactory], by simp [Env.sample, sampleFactory]⟩
  password := by
    refine ⟨by simp [sampleFactory], by simp [sampleFactory]⟩

/-- A 3.8 server that offers two types of security, cut in the middle of its messages. -/
def sampleActions : List Action :=
  [.receive ((versionLine ⟨3, 8⟩).take 5), .receive ((versionLine ⟨3, 8⟩).drop 5),
    .receive [2], .turn, .receive [1], .receive [2], .turn, .receive (List.replicate 16 7), .turn,
    .receive [0, 0], .receive [0, 0], .turn, .receive (List.replicate 23 0),
    .receive [1, 65, 2], .turn, .turn, .turn]

theorem scrubber_inStep_sample :
    Always (step .sample) (fun t => t.conn.pending = none → t.InStep) (init sampleFactory false)
      sampleActions :=
  scrubber_inStep keepsLengths_sample false (by decide +kernel) (by decide +kernel)

/-- It gets as far as the name. -/
example : (sampleActions.foldl (step .sample) (init sampleFactory false)).naming =
    some { offset := 60, width := 0, height := 0, version := ⟨3, 8⟩ } := by
  decide +kernel

/-- A server that sends its types of security along with the greeting. -/
def eagerActions : List Action :=
  [.receive (versionLine ⟨3, 8⟩ ++ [1, 1]), .turn, .turn]

/-- What it sends ahead is passed on by the scrubber, which then waits for it, while the client has
read it and waits for the SecurityResult. -/
theorem not_inStep_eager :
    Env.sample.KeepsLengths sampleFactory ∧
      Throughout (step .sample) (Admitted .sample) (init sampleFactory false) eagerActions ∧
      ¬ Always (step .sample) (fun t => t.conn.pending = none → t.InStep)
        (init sampleFactory false) eagerActions := by
  refine ⟨keepsLengths_sample, by decide +kernel, fun h => ?_⟩
  let t := eagerActions.foldl (step .sample) (init sampleFactory false)
  have hstate : t.conn.pending = none ∧ t.naming = none ∧ t.conn.awaited = 4 ∧
      t.scrubber.core.want = some (.s2c, 1) := by
    decide +kernel
  rcases hstate with ⟨hrest, hnaming, hawaited, hwant⟩
  have hinStep := h eagerActions List.prefix_rfl hrest
  have hwaiting := (hinStep.waiting hnaming).1
  rw [hawaited, hwant] at hwaiting
  exact absurd hwaiting (by decide)

end TappedClient

end Vncdotool
