import Vncdotool.RFB.Graph

/-!
# Runs — a session of a client, one step at a time

A step of a session is a turn of the receive loop, or, the loop being at rest, a delivery of more of
the server's bytes.  What either kind of step can do to a connection is said once, by `turn_cases`
and by `enter_cases` with `greet_cases`; invariants of whole sessions are derived from these.
-/

namespace Vncdotool

open Wire Streaming

/-- An environment to run examples in: no want of memory, and ciphers that copy. -/
def Env.sample : Env where
  alloc _ := true
  tripleDES _ data := data
  dhExchange _ _ _ := .ok ([], 0)
  md5 data := data
  aesECB _ data := .ok data
  inflate _ data := .ok data
  typedUsername := ""
  typedPassword := ""

namespace Connection

variable {σ : Type} (rt : Runtime σ)

/-- One step of a session. -/
inductive Step : Connection σ → Connection σ → Prop
  | turn {conn conn' : Connection σ} (h : iterate rt conn = some conn') : Step conn conn'
  | receive {conn : Connection σ} (data : Bytes) (hidle : conn.pending = none)
      (hdata : data ≠ []) : Step conn (conn.enter rt data)

/-- `conn'` comes after `conn` in a session. -/
def Runs (conn conn' : Connection σ) : Prop :=
  Relation.ReflTransGen (Step rt) conn conn'

variable {rt}

/-- What every step preserves holds throughout a session. -/
theorem Runs.invariant {I : Connection σ → Prop}
    (hstep : ∀ conn conn', Step rt conn conn' → I conn → I conn')
    {conn conn' : Connection σ} (hruns : Runs rt conn conn') (hconn : I conn) : I conn' := by
  induction hruns with
  | refl => exact hconn
  | tail _ hlast ih => exact hstep _ _ hlast ih

/-! ## A turn of the loop -/

theorem pending_of_raised {conn : Connection σ} (h : conn.raised ≠ none) : conn.pending = none := by
  by_contra hpending
  exact h (pending_ne_none_iff.1 hpending).2.2.1

theorem pending_of_aborted {conn : Connection σ} (h : conn.client.aborted = true) :
    conn.pending = none := by
  by_contra hpending
  exact absurd (h.symm.trans (pending_ne_none_iff.1 hpending).2.1) (by decide)

theorem turn_cases (htame : rt.Tame) {conn conn' : Connection σ}
    (h : iterate rt conn = some conn') :
    ∃ handler block, conn.pending = some (handler, block) ∧
      ((conn'.raised = none ∧ Moves handler block conn.client conn'.client) ∨
        (conn'.raised ≠ none ∧ Raises handler block conn.client conn'.client)) ∧
      conn'.packet =
        if conn'.client.aborted then [] else conn.packet.drop conn.client.expectedLen := by
  rcases iterate_eq_some_iff.1 h with ⟨handler, block, hpending, rfl⟩
  have hturns : Turns handler block conn.client (handler.run rt block) :=
    run_moves htame handler block conn.client
  unfold Turns Ensures EStateM.run at hturns
  refine ⟨handler, block, hpending, ?_⟩
  cases hrun : handler.run rt block conn.client with
  | ok _ c =>
      rw [hrun] at hturns
      exact ⟨Or.inl ⟨rfl, hturns⟩, rfl⟩
  | error exc c =>
      rw [hrun] at hturns
      exact ⟨Or.inr ⟨nofun, hturns⟩, rfl⟩

/-! ## A delivery -/

theorem enter_cases (conn : Connection σ) (data : Bytes) :
    (conn.client.aborted = true ∧ conn.enter rt data = conn) ∨
    (conn.client.aborted = false ∧ conn.client.stage = .handleExpected ∧
      conn.enter rt data = { conn with packet := conn.packet ++ data, raised := none }) ∨
    (conn.client.aborted = false ∧ conn.client.stage = .handleInitial ∧
      conn.enter rt data =
        greet rt { conn with packet := conn.packet ++ data, raised := none }) := by
  unfold enter
  cases haborted : conn.client.aborted with
  | true => exact Or.inl ⟨rfl, rfl⟩
  | false =>
      cases hstage : conn.client.stage with
      | handleInitial => exact Or.inr (Or.inr ⟨rfl, rfl, by simp [hstage]⟩)
      | handleExpected => exact Or.inr (Or.inl ⟨rfl, rfl, by simp [hstage]⟩)

/-- What a greeted client waits for. -/
def greeted : List (Handler × ℕ) :=
  [(.auth, 4), (.numberSecurityTypes, 1)]

theorem pos_of_mem_greeted {armed : Handler × ℕ} (h : armed ∈ greeted) : armed.2 ≠ 0 := by
  rcases List.mem_pair.1 h with rfl | rfl
  · decide
  · decide

/-- The greeting received so far is neither complete nor the beginning of one. -/
def Malformed (packet : Bytes) : Prop :=
  ¬ RFBClient.headerTranslate (packet.take 12) <+: RFBClient.header

/-- More bytes do not mend a greeting. -/
theorem Malformed.append {packet : Bytes} (h : Malformed packet) (data : Bytes) :
    Malformed (packet ++ data) := by
  intro hleads
  have htake : packet.take 12 <+: (packet ++ data).take 12 :=
    List.IsPrefix.take (List.prefix_append packet data) 12
  exact h ((htake.map _).trans hleads)

theorem ensures_handleInitial (htame : rt.Tame) (packet : Bytes) (c : RFBClient σ) :
    Ensures (RFBClient.handleInitial rt packet) c
      (fun rest c' =>
        (c'.stage = .handleExpected ∧ c'.armed ∈ greeted ∧ c'.aborted = c.aborted ∧
          rest = packet.drop 12) ∨
        (Held c c' ∧ rest = packet ∧ (c' = c ∨ Malformed packet)))
      (fun _ c' => Held c c' ∧ (c' = c ∨ Malformed packet)) := by
  unfold RFBClient.handleInitial
  dsimp only
  refine ensures_ite.2 ⟨fun _ => ?_, fun _ => ensures_ite.2 ⟨fun _ => ?_, fun hleads => ?_⟩⟩
  · cases parseVersion (packet.take 12) with
    | none => exact ⟨Held.refl c, Or.inl rfl⟩
    | some versionServer =>
        dsimp only
        rw [pure_bind]
        cases RFBClient.chooseVersion versionServer with
        | none => exact ⟨Held.refl c, Or.inl rfl⟩
        | some version =>
            dsimp only
            simp only [pure_bind, ensures_bind, write, ensures_record, ensures_modify]
            refine ensures_ite.2 ⟨fun _ => Or.inl ⟨rfl, ?_, rfl, rfl⟩,
              fun _ => Or.inl ⟨rfl, ?_, rfl, rfl⟩⟩
            · exact List.mem_cons_self
            · exact List.mem_cons_of_mem _ List.mem_cons_self
  · exact Or.inr ⟨Held.refl c, rfl, Or.inl rfl⟩
  · have hmalformed : Malformed packet := fun h => hleads (List.isPrefixOf_iff_prefix.2 h)
    rw [ensures_bind]
    refine Ensures.mono (held_protocolError htame _) ?_ ?_
    · exact fun _ _ hheld => Or.inr ⟨hheld, rfl, Or.inr hmalformed⟩
    · exact fun _ _ hheld => ⟨hheld, Or.inr hmalformed⟩

/-- Either the greeting is complete and its version is answered, or the loop is not entered. -/
theorem greet_cases (htame : rt.Tame) (conn : Connection σ) :
    ((greet rt conn).raised = none ∧ (greet rt conn).client.stage = .handleExpected ∧
      (greet rt conn).client.armed ∈ greeted ∧
      (greet rt conn).client.aborted = conn.client.aborted ∧
      (greet rt conn).packet = conn.packet.drop 12) ∨
    (Held conn.client (greet rt conn).client ∧ (greet rt conn).packet = conn.packet ∧
      ((greet rt conn).client = conn.client ∨ Malformed conn.packet)) := by
  have hgreet := ensures_handleInitial htame conn.packet conn.client
  unfold Ensures EStateM.run at hgreet
  unfold greet
  cases hrun : RFBClient.handleInitial rt conn.packet conn.client with
  | ok rest c =>
      rw [hrun] at hgreet
      rcases hgreet with ⟨hstage, harmed, haborted, hrest⟩ | ⟨hheld, hrest, hlog⟩
      · exact Or.inl ⟨rfl, hstage, harmed, haborted, hrest⟩
      · exact Or.inr ⟨hheld, hrest, hlog⟩
  | error exc c =>
      rw [hrun] at hgreet
      exact Or.inr ⟨hgreet.1, rfl, hgreet.2⟩

end Connection

end Vncdotool
