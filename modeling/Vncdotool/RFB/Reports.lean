import Vncdotool.RFB.Frames

/-!
# Reports — the turns that report a failure

`Handler.Tells` says of a handler and the block it is handed whether one of the four callbacks that
tell how the connection fares is made.  Two handlers make the other two; all the rest of them report
a failure, once, with nothing but the ordinary work of a handler before and behind it.
-/

namespace Vncdotool

open Wire Streaming

variable {σ : Type}

/-- `S` relates the states around the report of a failure, and what `R` allows may come before and
behind it. -/
structure Reported (rt : Runtime σ) (R S : RFBClient σ → RFBClient σ → Prop) : Prop where
  maintains : Maintains rt R
  before : ∀ c₁ c₂ c₃, R c₁ c₂ → S c₂ c₃ → S c₁ c₃
  after : ∀ c₁ c₂ c₃, S c₁ c₂ → R c₂ c₃ → S c₁ c₃
  protocolError : ∀ reason, Respects S (rt.protocolError reason)
  authFailed : ∀ reason, Respects S (rt.authFailed reason)

namespace Reported

variable {rt : Runtime σ} {R S : RFBClient σ → RFBClient σ → Prop} (h : Reported rt R S)
  {α β : Type} {block : Bytes} {c : RFBClient σ}

include h

/-! ## Rules -/

theorem modify_bind {g : RFBClient σ → RFBClient σ} {k : PUnit → Py σ β} {c : RFBClient σ}
    (hg : R c (g c)) (hk : S (g c) (finalState ((k ⟨⟩).run (g c)))) :
    S c (finalState ((modify g >>= k).run c)) :=
  h.before _ _ _ hg hk

theorem bind {x : Py σ α} {k : α → Py σ β} (hx : S c (finalState (x.run c)))
    (hk : ∀ a, Respects R (k a)) : S c (finalState ((x >>= k).run c)) := by
  rw [EStateM.run_bind]
  cases hrun : x.run c with
  | ok a c' =>
      rw [hrun] at hx
      exact h.after _ _ _ hx (hk a c')
  | error exc c' =>
      rw [hrun] at hx
      exact hx

theorem abortConnection (reason : ProtocolFailure) : Respects S (rt.abortConnection reason) :=
  fun _ => h.modify_bind (h.maintains.state _ _ rfl rfl rfl) (h.protocolError reason _)

/-! ## The handlers that report -/

theorem securityTypes (htells : ∀ b ∈ block, b.toNat ∉ RFBClient.supportedAuths) :
    S c (finalState ((RFBClient.handleSecurityTypes rt block).run c)) := by
  have hnone : (block.map UInt8.toNat).filter (· ∈ RFBClient.supportedAuths) = [] := by
    refine List.filter_eq_nil_iff.2 fun n hn => ?_
    rcases List.mem_map.1 hn with ⟨b, hb, rfl⟩
    simpa using htells b hb
  unfold RFBClient.handleSecurityTypes
  dsimp only
  rw [hnone]
  exact h.protocolError _ c

theorem auth
    (htells : field block 0 4 ≠ AuthTypes.INVALID ∧ field block 0 4 ≠ AuthTypes.NONE ∧
      field block 0 4 ≠ AuthTypes.VNC_AUTHENTICATION) :
    S c (finalState ((RFBClient.handleAuth rt block).run c)) := by
  unfold RFBClient.handleAuth
  dsimp only
  rw [if_neg htells.1, if_neg htells.2.1, if_neg htells.2.2]
  exact h.protocolError _ c

theorem vncAuthResult
    (htells : (field block 0 4 = 1 ∨ field block 0 4 = 2) ∧ c.version < ⟨3, 8⟩) :
    S c (finalState ((RFBClient.handleVNCAuthResult rt block).run c)) := by
  refine ensures_finalState.1 ?_
  unfold RFBClient.handleVNCAuthResult
  refine ensures_bind.2 (ensures_ite.2 ⟨fun hok => ?_, fun _ => ?_⟩)
  · rcases htells.1 with hresult | hresult
    · exact absurd (hresult.symm.trans hok) (by decide)
    · exact absurd (hresult.symm.trans hok) (by decide)
  · refine ensures_ite.2 ⟨fun _ => ensures_ite.2 ⟨fun _ => ?_, fun hlate => ?_⟩, fun hone => ?_⟩
    · exact ensures_finalState.2 (h.authFailed _ c)
    · exact absurd htells.2 hlate
    · refine ensures_ite.2 ⟨fun _ => ensures_ite.2 ⟨fun _ => ?_, fun hlate => ?_⟩, fun htwo => ?_⟩
      · exact ensures_finalState.2 (h.authFailed _ c)
      · exact absurd htells.2 hlate
      · exact absurd htells.1 (not_or.2 ⟨hone, htwo⟩)

theorem connection (htells : MsgS2C.lookup (field block 0 1) = none) :
    S c (finalState ((RFBClient.handleConnection rt block).run c)) := by
  unfold RFBClient.handleConnection
  dsimp only
  rw [htells]
  exact h.protocolError _ c

theorem rectBuffer {width height : ℕ} (htells : ¬ c.Fits rt.env width height) :
    Ensures (RFBClient.rectBuffer rt width height) c (fun target c' => target = none ∧ S c c')
      fun _ c' => S c c' := by
  have habort (reason : ProtocolFailure) :
      Ensures (do
        rt.abortConnection reason
        return none : Py σ (Option RectBuffer)) c (fun target c' => target = none ∧ S c c')
        fun _ c' => S c c' := by
    refine ensures_bind.2 (Ensures.mono (ensures_finalState.2 (h.abortConnection reason c)) ?_ ?_)
    · exact fun _ _ hreported => ⟨rfl, hreported⟩
    · exact fun _ _ hreported => hreported
  unfold RFBClient.rectBuffer
  refine ensures_bind.2 (ensures_ite.2 ⟨fun _ => habort _, fun hlimit => ?_⟩)
  refine ensures_ite.2 ⟨fun hshort => ?_, fun hlong => ?_⟩
  · refine ensures_ite.2 ⟨fun halloc => ?_, fun _ => habort _⟩
    exact absurd ⟨not_not.1 hlimit, fun _ => halloc⟩ htells
  · exact absurd ⟨not_not.1 hlimit, fun hshort => absurd hshort hlong⟩ htells

theorem pumpRaw {rect : Rect} (htells : ¬ c.Fits rt.env rect.width rect.height) :
    S c (finalState ((RFBClient.pump rt .rawDecoder rect).run c)) := by
  refine ensures_finalState.1 (ensures_bind.2 (Ensures.mono (h.rectBuffer htells) ?_ ?_))
  · rintro target c' ⟨rfl, hreported⟩
    exact hreported
  · exact fun _ _ hreported => hreported

theorem rectangle (htells : Handler.rectangle.Tells rt.env c block) :
    S c (finalState ((RFBClient.handleRectangle rt block).run c)) := by
  rcases htells with ⟨⟨hlast, hpos⟩, hencoding⟩
  let rect : Rect :=
    { x := field block 0 2, y := field block 2 2, width := field block 4 2,
      height := field block 6 2 }
  let c₁ : RFBClient σ :=
    { c with rectangles := c.rectangles - 1, rectanglePos := c.rectanglePos ++ [rect] }
  have hdispatch : S c₁ (finalState
      ((RFBClient.dispatchRectangle rt rect (s32 (field block 8 4))).run c₁)) := by
    unfold RFBClient.dispatchRectangle
    cases hlookup : Encoding.lookup (s32 (field block 8 4)) with
    | none => exact h.protocolError _ c₁
    | some known =>
        rw [hlookup] at hencoding
        cases known with
        | raw => exact h.pumpRaw hencoding
        | copyRectangle => exact False.elim hencoding
        | hextile => exact False.elim hencoding
        | corre => exact False.elim hencoding
        | rre => exact False.elim hencoding
        | zrle => exact False.elim hencoding
        | pseudoCursor => exact False.elim hencoding
        | pseudoDesktopSize => exact False.elim hencoding
        | pseudoQemuExtendedKeyEvent => exact False.elim hencoding
        | _ => exact h.protocolError _ c₁
  refine ensures_finalState.1 ?_
  unfold RFBClient.handleRectangle
  dsimp only
  refine ensures_ite.2 ⟨fun heq => absurd heq hlast, fun _ => ensures_bind.2 ?_⟩
  refine ensures_ite.2 ⟨fun _ => ensures_bind.2 (ensures_bind.2 ?_), fun hzero => ?_⟩
  · change Ensures (RFBClient.dispatchRectangle rt rect (s32 (field block 8 4))) c₁ _ _
    have hcounted : R c c₁ := h.maintains.state _ _ rfl rfl rfl
    exact ensures_finalState.2 (h.before _ _ _ hcounted hdispatch)
  · exact absurd hpos hzero

theorem pumpBlock {generator : Generator} {finish : Option Rect}
    (htells : generator.Refuses block) :
    S c (finalState ((RFBClient.pumpBlock rt block generator finish).run c)) := by
  cases generator with
  | decodeForClient rect suspended => exact False.elim htells
  | decodePixels target suspended =>
      cases suspended with
      | false => exact False.elim htells
      | true =>
          have hblit := target.blit_short htells
          refine ensures_finalState.1 (RFBClient.ensures_pumpBlock.2 ?_)
          refine ensures_bind.2 ?_
          rw [hblit]
          exact ensures_finalState.2 (h.abortConnection _ c)

/-! ## Every handler -/

/-- A handler that tells how the connection fares reports a failure, but for the one that asks for
the password and the one that the client is ready in. -/
theorem run_at {handler : Handler} (htells : handler.Tells rt.env c block)
    (hpassword : handler ≠ .vncAuth) (hready : handler ≠ .serverName) :
    S c (finalState ((handler.run rt block).run c)) := by
  cases handler with
  | securityTypes => exact h.securityTypes htells
  | auth => exact h.auth htells
  | connMessage => exact h.protocolError _ c
  | vncAuth => exact absurd rfl hpassword
  | vncAuthResult => exact h.vncAuthResult htells
  | authFailedMessage => exact h.authFailed _ c
  | serverName => exact absurd rfl hready
  | connection => exact h.connection htells
  | rectangle => exact h.rectangle htells
  | pumpBlock generator finish => exact h.pumpBlock htells
  | _ => exact False.elim htells

/-- A malformed greeting is reported. -/
theorem enter {conn : Connection σ} {data : Bytes} (haborted : conn.client.aborted = false)
    (hstage : conn.client.stage = .handleInitial)
    (hmalformed : Connection.Malformed (conn.packet ++ data)) :
    S conn.client (conn.enter rt data).client := by
  have hnorm : ¬ RFBClient.headerTranslate ((conn.packet ++ data).take 12) = RFBClient.header :=
    fun heq => hmalformed (heq ▸ List.prefix_rfl)
  have hleads : ¬ (RFBClient.headerTranslate ((conn.packet ++ data).take 12)).isPrefixOf
      RFBClient.header = true :=
    fun htrue => hmalformed (List.isPrefixOf_iff_prefix.1 htrue)
  have hgreeting : S conn.client (finalState
      ((RFBClient.handleInitial rt (conn.packet ++ data)).run conn.client)) := by
    unfold RFBClient.handleInitial
    dsimp only
    rw [if_neg hnorm, if_neg hleads]
    exact h.bind (h.protocolError _ _) fun _ => h.maintains.pure _
  unfold EStateM.run at hgreeting
  rcases @Connection.enter_cases σ rt conn data with
    ⟨haborted', _⟩ | ⟨_, hstage', _⟩ | ⟨_, _, henter⟩
  · exact absurd (haborted'.symm.trans haborted) (by decide)
  · exact absurd (hstage'.symm.trans hstage) (by decide)
  · rw [henter]
    unfold Connection.greet
    dsimp only
    cases hresult : RFBClient.handleInitial rt (conn.packet ++ data) conn.client with
    | ok rest c =>
        rw [hresult] at hgreeting
        exact hgreeting
    | error exc c =>
        rw [hresult] at hgreeting
        exact hgreeting

end Reported

end Vncdotool
