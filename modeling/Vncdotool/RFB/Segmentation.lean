import Vncdotool.RFB.Runs

/-!
# Segmentation — how the server's bytes are cut does not matter to a client

A client is a receive loop whose greeting is one more step: `advance`.  Its deliveries commute with
its steps, an abort included, since an aborted client drops what it had and what it is given.  So
the cuts of a stream that begins with a greeting, and on which no handler raises, cannot be told
from the callbacks, the writes or the state in which the client is left.
-/

namespace Vncdotool

open Wire Streaming StateTransition

namespace Connection

variable {σ : Type} {rt : Runtime σ}

/-! ## The loop with its greeting -/

/-- The greeting has arrived. -/
def Greeted (packet : Bytes) : Prop :=
  RFBClient.headerTranslate (packet.take 12) = RFBClient.header

instance (packet : Bytes) : Decidable (Greeted packet) :=
  inferInstanceAs (Decidable (_ = _))

/-- A step of the parser: the greeting, once it is complete, or a turn of the loop. -/
def advance (rt : Runtime σ) (conn : Connection σ) : Option (Connection σ) :=
  match conn.client.stage with
  | .handleInitial =>
      if conn.client.aborted = false ∧ conn.raised = none ∧ Greeted conn.packet then
        some (greet rt conn)
      else
        none
  | .handleExpected => iterate rt conn

/-- More bytes behind those in the buffer; an aborted client drops them. -/
def deliver (conn : Connection σ) (data : Bytes) : Connection σ :=
  if conn.client.aborted then conn else { conn with packet := conn.packet ++ data }

theorem client_deliver (conn : Connection σ) (data : Bytes) :
    (conn.deliver data).client = conn.client := by
  unfold deliver
  split_ifs
  · rfl
  · rfl

theorem raised_deliver (conn : Connection σ) (data : Bytes) :
    (conn.deliver data).raised = conn.raised := by
  unfold deliver
  split_ifs
  · rfl
  · rfl

theorem Greeted.length_le {packet : Bytes} (h : Greeted packet) : 12 ≤ packet.length := by
  have hlen : (RFBClient.headerTranslate (packet.take 12)).length = 12 := by
    rw [h]
    rfl
  rw [RFBClient.headerTranslate, List.length_map, List.length_take] at hlen
  omega

theorem Greeted.take_append {packet : Bytes} (h : Greeted packet) (data : Bytes) :
    (packet ++ data).take 12 = packet.take 12 :=
  List.take_append_of_le_length h.length_le

theorem Greeted.append {packet : Bytes} (h : Greeted packet) (data : Bytes) :
    Greeted (packet ++ data) := by
  rw [Greeted, h.take_append]
  exact h

/-- The client that has answered a greeting. -/
def answered (version versionServer : Ver) (c : RFBClient σ) : RFBClient σ :=
  { c with
    stage := .handleExpected
    version := version
    versionServer := versionServer
    expectedHandler := if version < ⟨3, 7⟩ then .auth else .numberSecurityTypes
    expectedLen := if version < ⟨3, 7⟩ then 4 else 1
    log := c.log ++ [.write (versionLine version)] }

theorem handleInitial_of_greeted {packet : Bytes} (h : Greeted packet) (c : RFBClient σ) :
    RFBClient.handleInitial rt packet c =
      match (parseVersion (packet.take 12)).bind fun versionServer =>
        (RFBClient.chooseVersion versionServer).map fun version => (version, versionServer) with
      | none => .error .valueError c
      | some (version, versionServer) =>
          .ok (packet.drop 12) (answered version versionServer c) := by
  have hnorm : RFBClient.headerTranslate (packet.take 12) = RFBClient.header := h
  unfold RFBClient.handleInitial
  simp only [hnorm, if_true]
  cases parseVersion (packet.take 12) with
  | none => rfl
  | some versionServer =>
      dsimp only [Option.bind_some]
      rw [pure_bind]
      cases RFBClient.chooseVersion versionServer with
      | none => rfl
      | some version =>
          dsimp only [Option.map_some]
          rw [pure_bind]
          by_cases hversion : version < ⟨3, 7⟩
          · simp only [hversion, if_true, answered]
            rfl
          · simp only [hversion, if_false, answered]
            rfl

/-- The greeting is taken the same way with more bytes behind it. -/
theorem greet_append {conn : Connection σ} (haborted : conn.client.aborted = false)
    (h : Greeted conn.packet) (data : Bytes) :
    greet rt { conn with packet := conn.packet ++ data } = (greet rt conn).deliver data := by
  have hdrop : (conn.packet ++ data).drop 12 = conn.packet.drop 12 ++ data :=
    List.drop_append_of_le_length h.length_le
  unfold greet
  rw [handleInitial_of_greeted h, handleInitial_of_greeted (h.append data), h.take_append]
  cases (parseVersion (conn.packet.take 12)).bind fun versionServer =>
      (RFBClient.chooseVersion versionServer).map fun version => (version, versionServer) with
  | none => simp [deliver, haborted]
  | some versions => simp [deliver, answered, haborted, hdrop]

/-- An incomplete greeting is waited for. -/
theorem greet_of_incomplete {conn : Connection σ} (hraised : conn.raised = none)
    (h : ¬ Greeted conn.packet) (hformed : ¬ Malformed conn.packet) : greet rt conn = conn := by
  have hnorm : ¬ RFBClient.headerTranslate (conn.packet.take 12) = RFBClient.header := h
  have hisPrefix :
      (RFBClient.headerTranslate (conn.packet.take 12)).isPrefixOf RFBClient.header = true :=
    List.isPrefixOf_iff_prefix.2 (not_not.1 hformed)
  have hrun : RFBClient.handleInitial rt conn.packet conn.client = .ok conn.packet conn.client := by
    unfold RFBClient.handleInitial
    simp only [hnorm, if_false, hisPrefix, if_true]
    rfl
  unfold greet
  rw [hrun]
  cases conn
  simp_all

/-! ## Deliveries commute with steps -/

theorem pending_deliver {conn : Connection σ} {called : Handler × Bytes} (data : Bytes)
    (h : conn.pending = some called) : (conn.deliver data).pending = some called := by
  rcases called with ⟨handler, block⟩
  rcases pending_eq_some_iff.1 h with ⟨⟨hstage, haborted, hraised, hle⟩, hhandler, hblock⟩
  have hdeliver : conn.deliver data = { conn with packet := conn.packet ++ data } := by
    simp [deliver, haborted]
  rw [hdeliver]
  refine pending_eq_some_iff.2 ⟨⟨hstage, haborted, hraised, ?_⟩, hhandler, ?_⟩
  · rw [List.length_append]
    exact Nat.le_add_right_of_le hle
  · rw [hblock]
    exact (List.take_append_of_le_length hle).symm

theorem resume_append (rest data : Bytes) (result : EStateM.Result PyError (RFBClient σ) Unit) :
    resume (rest ++ data) result = (resume rest result).deliver data := by
  cases result with
  | ok _ c =>
      cases haborted : c.aborted with
      | true => simp [resume, deliver, haborted]
      | false => simp [resume, deliver, haborted]
  | error exc c =>
      cases haborted : c.aborted with
      | true => simp [resume, deliver, haborted]
      | false => simp [resume, deliver, haborted]

theorem iterate_deliver {conn conn' : Connection σ} (data : Bytes)
    (h : iterate rt conn = some conn') : iterate rt (conn.deliver data) = some (conn'.deliver data) := by
  rcases iterate_eq_some_iff.1 h with ⟨handler, block, hpending, rfl⟩
  rcases pending_eq_some_iff.1 hpending with ⟨⟨_, haborted, _, hle⟩, _, _⟩
  have hdeliver : conn.deliver data = { conn with packet := conn.packet ++ data } := by
    simp [deliver, haborted]
  refine iterate_eq_some_iff.2 ⟨handler, block, pending_deliver data hpending, ?_⟩
  rw [← resume_append, hdeliver, List.drop_append_of_le_length hle]

theorem advance_deliver {conn conn' : Connection σ} (data : Bytes)
    (h : advance rt conn = some conn') :
    advance rt (conn.deliver data) = some (conn'.deliver data) := by
  have hstage : (conn.deliver data).client.stage = conn.client.stage := by
    unfold deliver
    split
    · rfl
    · rfl
  unfold advance at h ⊢
  rw [hstage]
  cases hcase : conn.client.stage with
  | handleExpected =>
      rw [hcase] at h
      exact iterate_deliver data h
  | handleInitial =>
      rw [hcase] at h
      dsimp only at h ⊢
      split_ifs at h with hready
      rcases hready with ⟨haborted, hraised, hgreeted⟩
      cases h
      have hdeliver : conn.deliver data = { conn with packet := conn.packet ++ data } := by
        simp [deliver, haborted]
      rw [hdeliver, if_pos ⟨haborted, hraised, hgreeted.append data⟩,
        greet_append haborted hgreeted]

/-- The client as a receive loop. -/
def receiveLoop (rt : Runtime σ) : ReceiveLoop (Connection σ) UInt8 where
  step := advance rt
  deliver := deliver
  deliver_nil conn := by
    unfold deliver
    split
    · rfl
    · simp
  deliver_deliver conn a b := by
    cases haborted : conn.client.aborted with
    | true => simp [deliver, haborted]
    | false => simp [deliver, haborted]
  step_deliver _ _ data h := advance_deliver data h

/-! ## `dataReceived` and the loop with its greeting -/

theorem stage_iterate (htame : rt.Tame) {conn conn' : Connection σ}
    (h : iterate rt conn = some conn') : conn'.client.stage = conn.client.stage := by
  rcases turn_cases htame h with ⟨_, _, _, ⟨_, hmoves⟩ | ⟨_, hraises⟩, _⟩
  · exact hmoves.stage
  · exact hraises.stage

theorem haltsAt_iterate_iff (htame : rt.Tame) {conn conn' : Connection σ}
    (hstage : conn.client.stage = .handleExpected) :
    HaltsAt (iterate rt) conn conn' ↔ HaltsAt (advance rt) conn conn' := by
  refine @HaltsAt.congr _ _ _ (fun q => q.client.stage = .handleExpected) ?_ ?_ _ _ hstage
  · intro q hq
    simp [advance, hq]
  · exact fun _ _ hturn hq => (stage_iterate htame hturn).trans hq

theorem haltsAt_iff_of_rest {conn conn' : Connection σ} (hiterate : iterate rt conn = none)
    (hadvance : advance rt conn = none) :
    HaltsAt (iterate rt) conn conn' ↔ HaltsAt (advance rt) conn conn' := by
  constructor
  · intro h
    obtain rfl := h.eq_of_none hiterate
    exact HaltsAt.refl hadvance
  · intro h
    obtain rfl := h.eq_of_none hadvance
    exact HaltsAt.refl hiterate

theorem iterate_of_initial {conn : Connection σ} (hstage : conn.client.stage = .handleInitial) :
    iterate rt conn = none := by
  refine iterate_eq_none_iff.2 ?_
  by_contra hpending
  exact absurd (hstage.symm.trans (pending_ne_none_iff.1 hpending).1) (by decide)

/-- A complete greeting is answered, or raises for its version. -/
theorem greet_of_greeted {conn : Connection σ} (h : Greeted conn.packet) :
    (greet rt conn).client.stage = .handleExpected ∨
      ((greet rt conn).client = conn.client ∧ (greet rt conn).raised ≠ none) := by
  unfold greet
  rw [handleInitial_of_greeted h]
  cases (parseVersion (conn.packet.take 12)).bind fun versionServer =>
      (RFBClient.chooseVersion versionServer).map fun version => (version, versionServer) with
  | none => exact Or.inr ⟨rfl, nofun⟩
  | some versions => exact Or.inl rfl

/-- What is still to come completes the greeting, if it is awaited. -/
def Expecting (conn : Connection σ) (rest : Bytes) : Prop :=
  conn.client.stage = .handleInitial →
    conn.client.aborted = false ∧ Greeted (conn.packet ++ rest)

theorem not_malformed_of_greeted {packet rest : Bytes} (h : Greeted (packet ++ rest)) :
    ¬ Malformed packet :=
  fun hmalformed => hmalformed.append rest (h ▸ List.prefix_rfl)

/-- `dataReceived` on a chunk of a stream that begins with a greeting. -/
theorem returns_iff_haltsAt (htame : rt.Tame) {conn conn' : Connection σ} {data rest : Bytes}
    (hraised : conn.raised = none) (hexpecting : conn.Expecting (data ++ rest)) :
    conn.Returns rt data conn' ↔ HaltsAt (advance rt) (conn.deliver data) conn' := by
  unfold Returns
  cases hstage : conn.client.stage with
  | handleExpected =>
      have henter : conn.enter rt data = conn.deliver data := by
        cases haborted : conn.client.aborted with
        | true => simp [enter, deliver, haborted]
        | false => simp [enter, deliver, haborted, hstage, hraised]
      have hstage' : (conn.deliver data).client.stage = .handleExpected := by
        unfold deliver
        split
        · exact hstage
        · exact hstage
      rw [henter]
      exact haltsAt_iterate_iff htame hstage'
  | handleInitial =>
      rcases hexpecting hstage with ⟨haborted, hgreeted⟩
      have hdeliver : conn.deliver data = { conn with packet := conn.packet ++ data } := by
        simp [deliver, haborted]
      have henter : conn.enter rt data = greet rt (conn.deliver data) := by
        simp [enter, hdeliver, haborted, hstage, hraised]
      have hstage' : (conn.deliver data).client.stage = .handleInitial := by
        rw [hdeliver]
        exact hstage
      have hraised' : (conn.deliver data).raised = none := by
        rw [hdeliver]
        exact hraised
      have haborted' : (conn.deliver data).client.aborted = false := by
        rw [hdeliver]
        exact haborted
      rw [henter]
      by_cases hcomplete : Greeted (conn.deliver data).packet
      · have hadvance : advance rt (conn.deliver data) = some (greet rt (conn.deliver data)) := by
          simp [advance, hstage', haborted', hraised', hcomplete]
        rw [HaltsAt.iff_of_step hadvance]
        rcases @greet_of_greeted _ rt _ hcomplete with hexpected | ⟨hclient, hexc⟩
        · exact haltsAt_iterate_iff htame hexpected
        · have hinitial : (greet rt (conn.deliver data)).client.stage = .handleInitial :=
            (congrArg RFBClient.stage hclient).trans hstage'
          refine haltsAt_iff_of_rest (iterate_of_initial hinitial) ?_
          simp [advance, hinitial, hexc]
      -- The chunk ends inside the greeting: nothing happens yet.
      · have hpartial : ¬ Malformed (conn.deliver data).packet := by
          rw [hdeliver]
          refine @not_malformed_of_greeted _ rest ?_
          rw [List.append_assoc]
          exact hgreeted
        rw [greet_of_incomplete hraised' hcomplete hpartial]
        refine haltsAt_iff_of_rest (iterate_of_initial hstage') ?_
        simp [advance, hstage', hcomplete]

/-! ## Chunks -/

/-- Receive the chunks one after the other, each `dataReceived` returning. -/
def Receives (rt : Runtime σ) : Connection σ → List Bytes → Connection σ → Prop
  | conn, [], conn' => conn = conn'
  | conn, chunk :: chunks, conn' =>
      ∃ m, conn.Returns rt chunk m ∧ m.raised = none ∧ Receives rt m chunks conn'

/-- What is at rest after an exception stays so. -/
theorem raised_of_receives {chunks : List Bytes} :
    ∀ {conn conn' : Connection σ}, (receiveLoop rt).Receives conn chunks conn' →
      conn.raised ≠ none → conn'.raised ≠ none := by
  induction chunks with
  | nil =>
      rintro conn conn' rfl hraised
      exact hraised
  | cons chunk chunks ih =>
      rintro conn conn' ⟨m, hm, hrest⟩ hraised
      have hdeliver : (conn.deliver chunk).raised ≠ none := by
        unfold deliver
        split
        · exact hraised
        · exact hraised
      have hnone : advance rt (conn.deliver chunk) = none := by
        unfold advance
        cases (conn.deliver chunk).client.stage with
        | handleInitial => simp [hdeliver]
        | handleExpected => exact iterate_eq_none_iff.2 (pending_of_raised hdeliver)
      have heq : m = conn.deliver chunk := HaltsAt.eq_of_none hnone hm
      exact ih hrest (heq ▸ hdeliver)

/-- The greeting is awaited only once. -/
theorem stage_of_haltsAt (htame : rt.Tame) {conn m : Connection σ}
    (h : HaltsAt (advance rt) conn m) (hstage : conn.client.stage = .handleExpected) :
    m.client.stage = .handleExpected := by
  refine @reaches_invariant _ (advance rt) (fun q => q.client.stage = .handleExpected) ?_ _ _ h.1
    hstage
  intro q q' hadvance hq
  have hturn : iterate rt q = some q' := by simpa [advance, hq] using hadvance
  exact (stage_iterate htame hturn).trans hq

theorem Expecting.of_haltsAt (htame : rt.Tame) {conn m : Connection σ} {data rest : Bytes}
    (hexpecting : conn.Expecting (data ++ rest))
    (h : HaltsAt (advance rt) (conn.deliver data) m) (hraised : m.raised = none) :
    m.Expecting rest := by
  intro hinitial
  have hnotExpected {q : Connection σ} (hq : HaltsAt (advance rt) q m) :
      q.client.stage ≠ .handleExpected := by
    intro hstage
    exact absurd (hinitial.symm.trans (stage_of_haltsAt htame hq hstage)) (by decide)
  have hstage : conn.client.stage = .handleInitial := by
    cases hcase : conn.client.stage with
    | handleInitial => rfl
    | handleExpected =>
        refine absurd ?_ (hnotExpected h)
        unfold deliver
        split
        · exact hcase
        · exact hcase
  rcases hexpecting hstage with ⟨haborted, hgreeted⟩
  have hdeliver : conn.deliver data = { conn with packet := conn.packet ++ data } := by
    simp [deliver, haborted]
  cases hadvance : advance rt (conn.deliver data) with
  | none =>
      obtain rfl := h.eq_of_none hadvance
      rw [hdeliver]
      exact ⟨haborted, List.append_assoc conn.packet data rest ▸ hgreeted⟩
  | some q =>
      -- The greeting has been taken: answered, the client is past it; refused, it has raised.
      have hready : q = greet rt (conn.deliver data) ∧ Greeted (conn.deliver data).packet := by
        rw [hdeliver] at hadvance ⊢
        unfold advance at hadvance
        dsimp only at hadvance
        rw [hstage] at hadvance
        dsimp only at hadvance
        split_ifs at hadvance with hready
        exact ⟨(Option.some.inj hadvance).symm, hready.2.2⟩
      rcases hready with ⟨rfl, hcomplete⟩
      have hq : HaltsAt (advance rt) (greet rt (conn.deliver data)) m :=
        (HaltsAt.iff_of_step hadvance).1 h
      rcases @greet_of_greeted _ rt _ hcomplete with hexpected | ⟨hclient, hexc⟩
      · exact absurd hexpected (hnotExpected hq)
      · have hnone : advance rt (greet rt (conn.deliver data)) = none := by
          have hinitial' : (greet rt (conn.deliver data)).client.stage = .handleInitial := by
            rw [hclient, hdeliver]
            exact hstage
          simp [advance, hinitial', hexc]
        obtain rfl := hq.eq_of_none hnone
        exact absurd hraised hexc

theorem receives_iff (htame : rt.Tame) {chunks : List Bytes} :
    ∀ {conn conn' : Connection σ}, conn.raised = none → conn.Expecting chunks.flatten →
      (conn.Receives rt chunks conn' ↔
        (receiveLoop rt).Receives conn chunks conn' ∧ conn'.raised = none) := by
  induction chunks with
  | nil =>
      intro conn conn' hraised _
      constructor
      · rintro rfl
        exact ⟨rfl, hraised⟩
      · rintro ⟨rfl, _⟩
        rfl
  | cons chunk chunks ih =>
      intro conn conn' hraised hexpecting
      constructor
      · rintro ⟨m, hm, hmraised, hrest⟩
        have hm' : HaltsAt (advance rt) (conn.deliver chunk) m :=
          (returns_iff_haltsAt htame hraised hexpecting).1 hm
        have hmexpecting : m.Expecting chunks.flatten := hexpecting.of_haltsAt htame hm' hmraised
        rcases (ih hmraised hmexpecting).1 hrest with ⟨hrest', hfinal⟩
        exact ⟨⟨m, hm', hrest'⟩, hfinal⟩
      · rintro ⟨⟨m, hm', hrest'⟩, hfinal⟩
        have hmraised : m.raised = none := by
          by_contra hne
          exact raised_of_receives hrest' hne hfinal
        have hmexpecting : m.Expecting chunks.flatten := hexpecting.of_haltsAt htame hm' hmraised
        exact ⟨m, (returns_iff_haltsAt htame hraised hexpecting).2 hm', hmraised,
          (ih hmraised hmexpecting).2 ⟨hrest', hfinal⟩⟩

/-- A stream that begins with a well-formed greeting, and on which no handler raises and the loop
terminates when it is cut in one way, is received alike when it is cut in any other: the same
callbacks and writes in the same order, the same state and the same unread bytes. -/
theorem receives_of_flatten_eq {env : Env} {factory : Factory} {greeting rest : Bytes}
    {chunks chunks' : List Bytes} {conn : Connection Unit}
    (hgreeting : RFBClient.headerTranslate greeting = RFBClient.header)
    (hchunks : chunks.flatten = greeting ++ rest) (hchunks' : chunks'.flatten = greeting ++ rest)
    (h : (init () factory).Receives (RFBClient.runtime env) chunks conn) :
    (init () factory).Receives (RFBClient.runtime env) chunks' conn := by
  have htame : (RFBClient.runtime env).Tame := RFBClient.runtime_tame env
  have hgreeted : Greeted (greeting ++ rest) := by
    have hlen : (RFBClient.headerTranslate greeting).length = 12 := by
      rw [hgreeting]
      rfl
    rw [RFBClient.headerTranslate, List.length_map] at hlen
    rw [Greeted, List.take_left' hlen]
    exact hgreeting
  have hexpecting : (init () factory).Expecting (greeting ++ rest) := fun _ => ⟨rfl, hgreeted⟩
  have hrest : (receiveLoop (RFBClient.runtime env)).step (init () factory) = none := rfl
  rw [receives_iff htame rfl (hchunks ▸ hexpecting)] at h
  rw [receives_iff htame rfl (hchunks' ▸ hexpecting)]
  refine ⟨?_, h.2⟩
  exact (receiveLoop (RFBClient.runtime env)).receives_congr hrest (hchunks.trans hchunks'.symm) h.1

/-- A 3.8 server that offers no security. -/
def hello : Bytes :=
  versionLine ⟨3, 8⟩ ++ [1, 1]

theorem receives_of_flatten_eq_hello :
    ∃ conn, (init () {}).Receives (RFBClient.runtime .sample) [hello] conn ∧
      (init () {}).Receives (RFBClient.runtime .sample) (hello.map fun b => [b]) conn := by
  have hwhole : ∃ conn, (init () {}).Receives (RFBClient.runtime .sample) [hello] conn :=
    ⟨_, _, haltsAt_of_run (n := 3) rfl, rfl, rfl⟩
  rcases hwhole with ⟨conn, h⟩
  have hgreeting : RFBClient.headerTranslate (versionLine ⟨3, 8⟩) = RFBClient.header := by decide
  exact ⟨conn, h, receives_of_flatten_eq hgreeting rfl (by decide) h⟩

end Connection

end Vncdotool
