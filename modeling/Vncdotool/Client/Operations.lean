import Vncdotool.Client.Painting
import Vncdotool.Streaming.Runs

/-!
# Operations — the Deferreds of the screen operations

All screen operations share the slot `self.deferred`.  A commit fires the Deferred in the slot, or
lets `_expectCompare` put the next one of the same call there; nothing else ever touches it
(`Moves`).  So a call whose Deferred is overwritten stays without an answer, and so does the one that
is in the slot when the connection goes away.
-/

namespace Vncdotool

open Wire Streaming

namespace VNCDoToolClient

variable {P : Pillow} {env : Env}

/-! ## Runs -/

/-- What can happen to a client: an operation is called, bytes arrive, or the receive loop turns. -/
inductive Action
  | call (operation : Operation)
  | receive (data : Bytes)
  | turn

/-- One action.  What an operation raises goes to its caller. -/
def act (P : Pillow) (env : Env) (conn : Connection (VNCDoToolClient P)) :
    Action → Connection (VNCDoToolClient P)
  | .call operation => { conn with client := finalState (operation.run.run conn.client) }
  | .receive data => conn.enter (runtime P env) data
  | .turn => (conn.iterate (runtime P env)).getD conn

/-- The transport tells the client that the connection is lost. -/
def lose (conn : Connection (VNCDoToolClient P)) : Connection (VNCDoToolClient P) :=
  { conn with client := finalState (connectionLost.run conn.client) }

/-- The call's Deferred has fired. -/
def Completed (app : VNCDoToolClient P) (call : ℕ) : Prop :=
  call ∈ app.outcomes.map Prod.fst

instance (app : VNCDoToolClient P) (call : ℕ) : Decidable (Completed app call) :=
  inferInstanceAs (Decidable (_ ∈ _))

/-- Every Deferred that was returned has fired, and no Deferred has fired twice. -/
def Resolved (app : VNCDoToolClient P) : Prop :=
  (app.outcomes.map Prod.fst).Nodup ∧ ∀ call < app.returned, Completed app call

/-! ## What a step does to the slot -/

/-- The Deferreds of `app` and those of `app'`, if no operation was called in between. -/
inductive Moved (app app' : VNCDoToolClient P) : Prop
  | kept (hslot : app'.deferred.map Pending.call = app.deferred.map Pending.call)
      (houtcomes : app'.outcomes = app.outcomes) (hreturned : app'.returned = app.returned)
  | fired {d : Pending} {outcome : Resolution} (hd : app.deferred = some d)
      (hslot : app'.deferred = none) (houtcomes : app'.outcomes = app.outcomes ++ [(d.call, outcome)])
      (hreturned : app'.returned = app.returned)

/-- The Deferred in the slot was returned by a call, and has not fired. -/
structure Sound (app : VNCDoToolClient P) : Prop where
  waiting : ∀ d, app.deferred = some d → d.call < app.returned ∧ ¬ Completed app d.call
  nodup : (app.outcomes.map Prod.fst).Nodup
  issued : ∀ call, Completed app call → call < app.returned

theorem Moved.refl (app : VNCDoToolClient P) : Moved app app :=
  Moved.kept rfl rfl rfl

theorem Moved.trans {app app₁ app₂ : VNCDoToolClient P} (h : Moved app app₁)
    (h' : Moved app₁ app₂) : Moved app app₂ := by
  cases h with
  | kept hslot houtcomes hreturned =>
      cases h' with
      | kept hslot' houtcomes' hreturned' =>
          exact Moved.kept (hslot'.trans hslot) (houtcomes'.trans houtcomes)
            (hreturned'.trans hreturned)
      | @fired d outcome hd hslot' houtcomes' hreturned' =>
          rw [hd] at hslot
          rcases Option.map_eq_some_iff.1 hslot.symm with ⟨d₀, hd₀, hcall⟩
          rw [houtcomes, ← hcall] at houtcomes'
          exact Moved.fired hd₀ hslot' houtcomes' (hreturned'.trans hreturned)
  | fired hd hslot houtcomes hreturned =>
      cases h' with
      | kept hslot' houtcomes' hreturned' =>
          rw [hslot, Option.map_none, Option.map_eq_none_iff] at hslot'
          exact Moved.fired hd hslot' (houtcomes'.trans houtcomes) (hreturned'.trans hreturned)
      | fired hd' _ _ _ => exact nomatch hslot.symm.trans hd'

theorem Sound.moved {app app' : VNCDoToolClient P} (h : Sound app) (hmoved : Moved app app') :
    Sound app' := by
  cases hmoved with
  | kept hslot houtcomes hreturned =>
      have hcompleted (call : ℕ) : Completed app' call ↔ Completed app call := by
        rw [Completed, houtcomes]
        exact Iff.rfl
      refine ⟨fun d hd => ?_, by rw [houtcomes]; exact h.nodup, fun call hcall => ?_⟩
      · rw [hd] at hslot
        rcases Option.map_eq_some_iff.1 hslot.symm with ⟨d₀, hd₀, hcall⟩
        rw [hcompleted, hreturned, ← hcall]
        exact h.waiting d₀ hd₀
      · rw [hreturned]
        exact h.issued call ((hcompleted call).1 hcall)
  | @fired d outcome hd hslot houtcomes hreturned =>
      rcases h.waiting d hd with ⟨hlt, hfresh⟩
      refine ⟨fun d' hd' => (nomatch hslot.symm.trans hd'), ?_, fun call hcall => ?_⟩
      · rw [houtcomes, List.map_append]
        refine List.Nodup.append h.nodup (List.nodup_singleton _) ?_
        exact List.disjoint_singleton.2 hfresh
      · rw [hreturned]
        rw [Completed, houtcomes, List.map_append] at hcall
        rcases List.mem_append.1 hcall with hcall | hcall
        · exact h.issued call hcall
        · exact (List.mem_singleton.1 hcall) ▸ hlt

/-- From `c` to `c'` no operation was called. -/
def Moves (c c' : RFBClient (VNCDoToolClient P)) : Prop :=
  c.Sized → Sound c.app → c'.Sized ∧ Moved c.app c'.app

instance : Std.Refl (Moves (P := P)) :=
  ⟨fun c hsized _ => ⟨hsized, Moved.refl c.app⟩⟩

instance : IsTrans (RFBClient (VNCDoToolClient P)) Moves := by
  refine ⟨fun c c₁ c₂ h h' hsized hsound => ?_⟩
  rcases h hsized hsound with ⟨hsized₁, hmoved⟩
  rcases h' hsized₁ (hsound.moved hmoved) with ⟨hsized₂, hmoved'⟩
  exact ⟨hsized₂, hmoved.trans hmoved'⟩

theorem moves_of_eq {c c' : RFBClient (VNCDoToolClient P)} (hsized : c.Sized → c'.Sized)
    (hslot : c'.app.deferred = c.app.deferred) (houtcomes : c'.app.outcomes = c.app.outcomes)
    (hreturned : c'.app.returned = c.app.returned) : Moves c c' :=
  fun h _ => ⟨hsized h, Moved.kept (congrArg _ hslot) houtcomes hreturned⟩

theorem Paints.moves {c c' : RFBClient (VNCDoToolClient P)} (h : Paints c c') : Moves c c' := by
  refine moves_of_eq (fun hsized => ?_) h.app.deferred h.app.outcomes h.app.returned
  rw [h.parser]
  exact hsized

/-- Writing is no operation. -/
theorem moves_record (event : Event) : Respects (Moves (P := P)) (record event) :=
  fun _ => moves_of_eq id rfl rfl rfl

/-! ## The callbacks are no operations -/

theorem moves_fire (how : Fired) : Respects (Moves (P := P)) (fire how) := by
  refine respects_bind respects_get fun c => respects_bind ?_ fun _ => ?_
  · exact fun _ => moves_of_eq id rfl rfl rfl
  · exact respects_ite (fun _ => respects_throw _) fun _ => respects_pure _

theorem moves_setPixelFormat (pf : PixelFormat) : Respects (Moves (P := P)) (setPixelFormat pf) := by
  refine respects_ite (fun _ => ?_) fun _ => respects_throw _
  refine respects_bind (moves_record _) fun _ => ?_
  exact respects_bind (fun _ => moves_of_eq id rfl rfl rfl) fun _ _ => moves_of_eq id rfl rfl rfl

/-! ## A commit -/

/-- A request without a size is one for the whole framebuffer, and never fails. -/
theorem ensures_framebufferUpdateRequest {c : RFBClient (VNCDoToolClient P)} (hsized : c.Sized)
    {incremental : Bool} {Q : Unit → RFBClient (VNCDoToolClient P) → Prop}
    {E : PyError → RFBClient (VNCDoToolClient P) → Prop} :
    Ensures (RFBClient.framebufferUpdateRequest 0 0 none none incremental) c Q E ↔
      Q () { c with
        log := c.log ++ [.write (RFBClient.wholeRequest c.width c.height incremental)] } := by
  have hpacks : RFBClient.Packs 2 0 ∧ RFBClient.Packs 2 0 ∧ RFBClient.Packs 2 ((c.width : ℤ) - 0) ∧
      RFBClient.Packs 2 ((c.height : ℤ) - 0) := by
    rcases hsized with ⟨hwidth, hheight⟩
    unfold RFBClient.Packs
    omega
  unfold RFBClient.framebufferUpdateRequest
  rw [ensures_bind, ensures_get]
  simp only [Option.getD_none]
  rw [if_pos hpacks]
  simp only [sub_zero, Int.toNat_natCast, Int.toNat_zero]
  exact Iff.rfl

/-- The client whose call goes on waiting for its image. -/
def waiting (call : ℕ) (box : Box) (maxrms : ℚ) (c : RFBClient (VNCDoToolClient P)) :
    RFBClient (VNCDoToolClient P) :=
  { c with
    app := { c.app with deferred := some ⟨call, .expectCompare box maxrms⟩ }
    log := c.log ++ [.write (RFBClient.wholeRequest c.width c.height c.app.screen.isSome)] }

theorem ensures_expectCompare {c : RFBClient (VNCDoToolClient P)} (hsized : c.Sized) (call : ℕ)
    (box : Box) (maxrms : ℚ) {Q : Bool → RFBClient (VNCDoToolClient P) → Prop}
    {E : PyError → RFBClient (VNCDoToolClient P) → Prop} :
    Ensures (expectCompare call box maxrms) c Q E ↔
      match matched c.app c.app.expected box maxrms with
      | .error exc => E exc c
      | .ok true => Q true c
      | .ok false => Q false (waiting call box maxrms c) := by
  unfold expectCompare
  rw [ensures_bind, ensures_get, ensures_bind]
  cases matched c.app c.app.expected box maxrms with
  | error exc => exact Iff.rfl
  | ok b =>
      cases b with
      | true => exact Iff.rfl
      | false =>
          change Ensures (modifyApp _ >>= _) c Q E ↔ _
          rw [ensures_bind]
          change Ensures (RFBClient.framebufferUpdateRequest 0 0 none none c.app.screen.isSome >>= _)
            { c with app := { c.app with deferred := some ⟨call, .expectCompare box maxrms⟩ } } Q E ↔ _
          exact ensures_bind.trans (ensures_framebufferUpdateRequest
            (c := { c with app := { c.app with deferred := some ⟨call, .expectCompare box maxrms⟩ } })
            hsized)

theorem ensures_complete {c : RFBClient (VNCDoToolClient P)} {call : ℕ} {outcome : Resolution}
    {Q : Unit → RFBClient (VNCDoToolClient P) → Prop}
    {E : PyError → RFBClient (VNCDoToolClient P) → Prop} (hfresh : ¬ Completed c.app call) :
    Ensures (complete call outcome) c Q E ↔
      Q () { c with app := { c.app with outcomes := c.app.outcomes ++ [(call, outcome)] } } := by
  unfold complete
  rw [ensures_bind, ensures_get]
  dsimp only
  rw [ensures_ite]
  exact ⟨fun h => h.2 hfresh, fun h => ⟨fun hfired => absurd hfired hfresh, fun _ => h⟩⟩

/-- Saving a capture changes nothing, whether it succeeds or not. -/
theorem ensures_captureSave {c : RFBClient (VNCDoToolClient P)} {fp : String} {box : Option Box}
    {format : Option String} :
    Ensures (captureSave fp box format) c (fun _ c' => c' = c) fun _ c' => c' = c := by
  have hlift {α : Type} (x : Except PyError α) :
      Ensures (liftExcept x) c (fun _ c' => c' = c) fun _ c' => c' = c := by
    cases x with
    | ok a => exact rfl
    | error exc => exact rfl
  unfold captureSave
  rw [ensures_bind, ensures_get]
  cases c.app.screen with
  | none => exact rfl
  | some screen =>
      cases box with
      | none => exact hlift _
      | some box =>
          refine ensures_bind.2 (Ensures.mono (hlift _) ?_ fun _ _ heq => heq)
          rintro image c' rfl
          exact hlift _

/-- The callback of a Deferred that has not fired completes its call, or the call goes on waiting. -/
theorem ensures_callback {c : RFBClient (VNCDoToolClient P)} (hsized : c.Sized) {d : Pending}
    (hfresh : ¬ Completed c.app d.call) :
    Ensures (callback d) c
      (fun _ c' => (∃ box maxrms, c' = waiting d.call box maxrms c) ∨ ∃ outcome, c' =
        { c with app := { c.app with outcomes := c.app.outcomes ++ [(d.call, outcome)] } })
      fun _ _ => False := by
  have hcomplete (outcome : Resolution) : Ensures (complete d.call outcome) c
      (fun _ c' => (∃ box maxrms, c' = waiting d.call box maxrms c) ∨ ∃ outcome, c' =
        { c with app := { c.app with outcomes := c.app.outcomes ++ [(d.call, outcome)] } })
      fun _ _ => False :=
    (ensures_complete hfresh).2 (Or.inr ⟨outcome, rfl⟩)
  unfold callback
  cases d.resume with
  | refresh => exact hcomplete .result
  | captureSave fp box format =>
      refine ensures_attempt.2 (Ensures.mono ensures_captureSave ?_ ?_)
      · rintro _ c' rfl
        exact hcomplete .result
      · rintro exc c' rfl
        exact hcomplete (.failure exc)
  | expectCompare box maxrms =>
      refine ensures_attempt.2 ((ensures_expectCompare hsized _ _ _).2 ?_)
      cases matched c.app c.app.expected box maxrms with
      | error exc => exact hcomplete (.failure exc)
      | ok b =>
          cases b with
          | true => exact hcomplete .result
          | false => exact Or.inl ⟨box, maxrms, rfl⟩

/-- The client that has taken the Deferred out of its slot. -/
def taken (d : Pending) (c : RFBClient (VNCDoToolClient P)) : RFBClient (VNCDoToolClient P) :=
  { c with app := { c.app with deferred := none, committed := c.app.committed ++ [d] } }

theorem moves_commitUpdate (rectangles : List Rect) :
    Respects (Moves (P := P)) (commitUpdate rectangles) := by
  intro c hsized hsound
  refine (ensures_finalState (P := fun c' : RFBClient (VNCDoToolClient P) =>
    c'.Sized ∧ Moved c.app c'.app)).1 ?_
  unfold commitUpdate
  rw [ensures_bind, ensures_get]
  cases hslot : c.app.deferred with
  | none => exact ⟨hsized, Moved.refl c.app⟩
  | some d =>
      refine ensures_ite.2 ⟨fun _ => ?_, fun _ => ensures_bind.2 ?_⟩
      · exact (ensures_framebufferUpdateRequest hsized).2 ⟨hsized, Moved.kept rfl rfl rfl⟩
      · have hfresh : ¬ Completed c.app d.call := (hsound.waiting d hslot).2
        change Ensures (callback d) (taken d c) _ _
        refine Ensures.mono (ensures_callback (c := taken d c) hsized hfresh) ?_
          (fun _ _ => False.elim)
        rintro _ c' (⟨box, maxrms, rfl⟩ | ⟨outcome, rfl⟩)
        · refine ⟨hsized, Moved.kept ?_ rfl rfl⟩
          rw [hslot]
          rfl
        · exact ⟨hsized, Moved.fired hslot rfl rfl rfl⟩

theorem moves_call (cb : Callback) : Respects Moves ((runtime P env).call cb) := by
  refine respects_bind (moves_record _) fun _ => ?_
  have hpaints (h : Callback.OnlyPaints cb) : Respects (Moves (P := P)) (override env cb) :=
    fun c => (paints_override env h c).moves
  cases cb with
  | vncConnectionMade =>
      exact respects_vncConnectionMade (fun event _ => moves_record event) moves_fire
        moves_setPixelFormat
        fun _ _ => moves_of_eq id rfl rfl rfl
  | vncRequestPassword =>
      exact respects_vncRequestPassword (fun event _ => moves_record event) moves_fire
  | vncAuthFailed reason => exact moves_fire _
  | vncProtocolError reason => exact moves_fire _
  | commitUpdate rectangles => exact moves_commitUpdate rectangles
  | _ => exact hpaints trivial

theorem keeps_moves : Keeps (Moves (P := P)) where
  refl c := refl_of Moves c
  trans _ _ _ := trans_of Moves
  write data := moves_record _
  loseConnection := moves_record _
  state c c' _ happ hframe := by
    refine moves_of_eq (fun hsized => ?_) (by rw [happ]) (by rw [happ]) (by rw [happ])
    have hwidth : c'.width = c.width := congrArg Prod.fst hframe
    have hheight : c'.height = c.height := congrArg (fun frame => frame.2.1) hframe
    unfold RFBClient.Sized
    rw [hwidth, hheight]
    exact hsized

theorem maintains_moves : Maintains (runtime P env) Moves where
  toKeeps := keeps_moves
  call c cb _ := moves_call cb c

theorem told_moves : Told (runtime P env) Moves :=
  fun cb _ => moves_call cb

theorem announced_moves : Announced (Moves (P := P)) :=
  fun _ _ _ happ hsized =>
    moves_of_eq (fun _ => hsized) (by rw [happ]) (by rw [happ]) (by rw [happ])

/-! ## An operation -/

/-- Whether the operation returns a Deferred of its own. -/
def Operation.waits (app : VNCDoToolClient P) : Operation → Bool
  | .refreshScreen _ => true
  | .captureScreen _ _ _ => true
  | .captureRegion _ _ _ _ _ _ => true
  | .expectScreen filename maxrms => waitsFor app filename 0 0 maxrms
  | .expectRegion filename x y maxrms => waitsFor app filename x y maxrms
where
  /-- The image can be loaded, and the screen can be compared with it and does not match. -/
  waitsFor (app : VNCDoToolClient P) (filename : String) (x y : ℤ) (maxrms : ℚ) : Bool :=
    match P.load filename with
    | .error _ => false
    | .ok image =>
        match matched app (P.histogram image)
          (x, y, x + (P.size image).1, y + (P.size image).2) maxrms with
        | .ok false => true
        | _ => false

/-- What a call does to the Deferreds: the slot goes to the one it returns, if it returns one. -/
structure Called (waits : Bool) (c c' : RFBClient (VNCDoToolClient P)) : Prop where
  sized : c'.Sized
  outcomes : c'.app.outcomes = c.app.outcomes
  slot : if waits then
      c'.app.returned = c.app.returned + 1 ∧
        c'.app.deferred.map Pending.call = some c.app.returned
    else c'.app.returned = c.app.returned ∧ c'.app.deferred = c.app.deferred

theorem called_refreshScreen {c : RFBClient (VNCDoToolClient P)} (hsized : c.Sized)
    (incremental : Bool) (resume : Resume) :
    Ensures (refreshScreen incremental resume) c (fun _ => Called true c) fun _ => Called true c := by
  unfold refreshScreen
  refine ensures_bind.2 ((ensures_framebufferUpdateRequest (c := { c with
    app := { c.app with
      deferred := some ⟨c.app.returned, resume⟩, returned := c.app.returned + 1 } }) hsized).2 ?_)
  exact ⟨hsized, rfl, rfl, rfl⟩

theorem called_expectFramebuffer {c : RFBClient (VNCDoToolClient P)} (hsized : c.Sized)
    (filename : String) (x y : ℤ) (maxrms : ℚ) :
    Ensures (expectFramebuffer filename x y maxrms) c
      (fun _ => Called (Operation.waits.waitsFor c.app filename x y maxrms) c)
      fun _ => Called (Operation.waits.waitsFor c.app filename x y maxrms) c := by
  unfold expectFramebuffer Operation.waits.waitsFor
  refine ensures_bind.2 ?_
  cases P.load filename with
  | error exc => exact ⟨hsized, rfl, rfl, rfl⟩
  | ok image =>
      have hmatched : matched { c.app with expected := P.histogram image } (P.histogram image)
          (x, y, x + (P.size image).1, y + (P.size image).2) maxrms =
          matched c.app (P.histogram image)
            (x, y, x + (P.size image).1, y + (P.size image).2) maxrms := rfl
      refine ensures_bind.2 (ensures_bind.2 (ensures_bind.2 ((ensures_expectCompare
        (c := { c with app := { c.app with expected := P.histogram image } }) hsized _ _ _).2 ?_)))
      dsimp only
      rw [hmatched]
      cases matched c.app (P.histogram image)
        (x, y, x + (P.size image).1, y + (P.size image).2) maxrms with
      | error exc => exact ⟨hsized, rfl, rfl, rfl⟩
      | ok b =>
          cases b with
          | true => exact ⟨hsized, rfl, rfl, rfl⟩
          | false => exact ⟨hsized, rfl, rfl, rfl⟩

theorem called_operation {c : RFBClient (VNCDoToolClient P)} (hsized : c.Sized)
    (operation : Operation) :
    Called (operation.waits c.app) c (finalState (operation.run.run c)) := by
  refine (ensures_finalState (P := Called (operation.waits c.app) c)).1 ?_
  cases operation with
  | refreshScreen incremental => exact called_refreshScreen hsized incremental _
  | captureScreen fp incremental format => exact called_refreshScreen hsized incremental _
  | captureRegion fp x y w h incremental => exact called_refreshScreen hsized incremental _
  | expectScreen filename maxrms => exact called_expectFramebuffer hsized filename 0 0 maxrms
  | expectRegion filename x y maxrms => exact called_expectFramebuffer hsized filename x y maxrms

/-! ## Answered and unanswered calls -/

/-- No Deferred will ever fire for the call. -/
structure Lost (call : ℕ) (app : VNCDoToolClient P) : Prop where
  issued : call < app.returned
  unanswered : ¬ Completed app call
  overwritten : app.deferred.map Pending.call ≠ some call

/-- The slot has the only call that is not completed. -/
structure Tracked (c : RFBClient (VNCDoToolClient P)) : Prop where
  sized : c.Sized
  sound : Sound c.app
  pending : ∀ call < c.app.returned,
    Completed c.app call ∨ c.app.deferred.map Pending.call = some call

section Steps

variable {c c' : RFBClient (VNCDoToolClient P)} {waits : Bool} {call : ℕ}

theorem completed_of_outcomes {app app' : VNCDoToolClient P} (h : app'.outcomes = app.outcomes) :
    Completed app' call ↔ Completed app call := by
  rw [Completed, h]
  exact Iff.rfl

theorem Called.slot_waits (h : Called true c c') : c'.app.returned = c.app.returned + 1 ∧
    c'.app.deferred.map Pending.call = some c.app.returned :=
  h.slot

theorem Called.slot_kept (h : Called false c c') :
    c'.app.returned = c.app.returned ∧ c'.app.deferred = c.app.deferred :=
  h.slot

theorem Called.sound (h : Called waits c c') (hsound : Sound c.app) : Sound c'.app := by
  have hnodup : (c'.app.outcomes.map Prod.fst).Nodup := by
    rw [h.outcomes]
    exact hsound.nodup
  cases waits with
  | true =>
      rcases h.slot_waits with ⟨hreturned, hcall⟩
      refine ⟨fun d hd => ?_, hnodup, fun call hcompleted => ?_⟩
      · rw [hd] at hcall
        have heq : d.call = c.app.returned := Option.some.inj hcall
        rw [heq, hreturned, completed_of_outcomes h.outcomes]
        exact ⟨Nat.lt_succ_self _, fun hdone => absurd (hsound.issued _ hdone) (lt_irrefl _)⟩
      · rw [hreturned]
        exact Nat.lt_succ_of_lt (hsound.issued call ((completed_of_outcomes h.outcomes).1 hcompleted))
  | false =>
      rcases h.slot_kept with ⟨hreturned, hdeferred⟩
      refine ⟨fun d hd => ?_, hnodup, fun call hcompleted => ?_⟩
      · rw [hreturned, completed_of_outcomes h.outcomes]
        exact hsound.waiting d (hdeferred.symm.trans hd)
      · rw [hreturned]
        exact hsound.issued call ((completed_of_outcomes h.outcomes).1 hcompleted)

theorem Called.lost (h : Called waits c c') (hlost : Lost call c.app) : Lost call c'.app := by
  have hunanswered : ¬ Completed c'.app call :=
    fun hdone => hlost.unanswered ((completed_of_outcomes h.outcomes).1 hdone)
  cases waits with
  | true =>
      rcases h.slot_waits with ⟨hreturned, hcall⟩
      refine ⟨?_, hunanswered, ?_⟩
      · rw [hreturned]
        exact Nat.lt_succ_of_lt hlost.issued
      · rw [hcall]
        exact fun heq => absurd (Option.some.inj heq) (ne_of_gt hlost.issued)
  | false =>
      rcases h.slot_kept with ⟨hreturned, hdeferred⟩
      exact ⟨hreturned ▸ hlost.issued, hunanswered, hdeferred ▸ hlost.overwritten⟩

/-- A Deferred that is overwritten is lost. -/
theorem Called.overwrites {d : Pending} (h : Called true c c') (hsound : Sound c.app)
    (hd : c.app.deferred = some d) : Lost d.call c'.app := by
  rcases h.slot_waits with ⟨hreturned, hcall⟩
  rcases hsound.waiting d hd with ⟨hlt, hfresh⟩
  refine ⟨?_, fun hdone => hfresh ((completed_of_outcomes h.outcomes).1 hdone), ?_⟩
  · rw [hreturned]
    exact Nat.lt_succ_of_lt hlt
  · rw [hcall]
    exact fun heq => absurd (Option.some.inj heq) (ne_of_gt hlt)

theorem Called.tracked (h : Called waits c c') (htracked : Tracked c)
    (hfree : waits = true → c.app.deferred = none) : Tracked c' := by
  refine ⟨h.sized, h.sound htracked.sound, fun call hlt => ?_⟩
  rw [completed_of_outcomes h.outcomes]
  cases waits with
  | true =>
      rcases h.slot_waits with ⟨hreturned, hcall⟩
      rw [hreturned] at hlt
      rcases Nat.lt_succ_iff_lt_or_eq.1 hlt with hlt | rfl
      · rcases htracked.pending call hlt with hdone | hwaiting
        · exact Or.inl hdone
        · rw [hfree rfl] at hwaiting
          exact nomatch hwaiting
      · exact Or.inr hcall
  | false =>
      rcases h.slot_kept with ⟨hreturned, hdeferred⟩
      rw [hdeferred]
      exact htracked.pending call (hreturned ▸ hlt)

theorem Moved.lost {app app' : VNCDoToolClient P} (h : Moved app app') (hlost : Lost call app) :
    Lost call app' := by
  cases h with
  | kept hslot houtcomes hreturned =>
      refine ⟨hreturned ▸ hlost.issued, ?_, hslot ▸ hlost.overwritten⟩
      exact fun hdone => hlost.unanswered ((completed_of_outcomes houtcomes).1 hdone)
  | @fired d outcome hd hslot houtcomes hreturned =>
      refine ⟨hreturned ▸ hlost.issued, fun hdone => ?_, ?_⟩
      · rw [Completed, houtcomes, List.map_append] at hdone
        rcases List.mem_append.1 hdone with hdone | hdone
        · exact hlost.unanswered hdone
        · have hcall : call = d.call := List.mem_singleton.1 hdone
          exact hlost.overwritten (by rw [hd, hcall]; rfl)
      · rw [hslot]
        exact nofun

theorem Moved.tracked (h : Moved c.app c'.app) (hsized : c'.Sized) (htracked : Tracked c) :
    Tracked c' := by
  refine ⟨hsized, htracked.sound.moved h, fun call hlt => ?_⟩
  cases h with
  | kept hslot houtcomes hreturned =>
      rw [completed_of_outcomes houtcomes, hslot]
      exact htracked.pending call (hreturned ▸ hlt)
  | @fired d outcome hd hslot houtcomes hreturned =>
      refine Or.inl ?_
      rw [Completed, houtcomes, List.map_append]
      rcases htracked.pending call (hreturned ▸ hlt) with hdone | hwaiting
      · exact List.mem_append_left _ hdone
      · rw [hd] at hwaiting
        exact List.mem_append_right _ (List.mem_singleton.2 (Option.some.inj hwaiting).symm)

end Steps

/-! ## Whole runs -/

section Runs

variable {conn : Connection (VNCDoToolClient P)}

/-- What an action does: it moves the Deferreds, or it is a call. -/
theorem act_cases (hsized : conn.client.Sized) (hsound : Sound conn.client.app) (action : Action) :
    ((act P env conn action).client.Sized ∧
        Moved conn.client.app (act P env conn action).client.app) ∨
      ∃ operation, action = .call operation ∧
        Called (operation.waits conn.client.app) conn.client (act P env conn action).client := by
  cases action with
  | call operation => exact Or.inr ⟨operation, rfl, called_operation hsized operation⟩
  | receive data => exact Or.inl (keeps_moves.enter told_moves conn data hsized hsound)
  | turn =>
      refine Or.inl ?_
      unfold act
      cases hiterate : conn.iterate (runtime P env) with
      | none => exact ⟨hsized, Moved.refl _⟩
      | some conn' => exact maintains_moves.iterate told_moves announced_moves hiterate hsized hsound

theorem Lost.act {call : ℕ} (hsized : conn.client.Sized) (hsound : Sound conn.client.app)
    (hlost : Lost call conn.client.app) (actions : List Action) :
    Lost call (actions.foldl (act P env) conn).client.app := by
  induction actions generalizing conn with
  | nil => exact hlost
  | cons action actions ih =>
      rcases @act_cases P env conn hsized hsound action with
        ⟨hsized', hmoved⟩ | ⟨operation, _, hcalled⟩
      · exact ih hsized' (hsound.moved hmoved) (hmoved.lost hlost)
      · exact ih hcalled.sized (hcalled.sound hsound) (hcalled.lost hlost)

/-- An operation that returns a Deferred is called only when none is pending. -/
def Meets (conn : Connection (VNCDoToolClient P)) : Action → Prop
  | .call operation => operation.waits conn.client.app = true → conn.client.app.deferred = none
  | _ => True

theorem Tracked.act {action : Action} (htracked : Tracked conn.client) (hmeets : Meets conn action) :
    Tracked (act P env conn action).client := by
  rcases @act_cases P env conn htracked.sized htracked.sound action with
    ⟨hsized, hmoved⟩ | ⟨operation, rfl, hcalled⟩
  · exact hmoved.tracked hsized htracked
  · exact hcalled.tracked htracked hmeets

theorem resolved_iff_of_tracked {actions : List Action} (htracked : Tracked conn.client) :
    Resolved (actions.foldl (act P env) conn).client.app ↔
      Throughout (act P env) Meets conn actions ∧
        (actions.foldl (act P env) conn).client.app.deferred = none := by
  constructor
  · intro hresolved
    induction actions generalizing conn with
    | nil =>
        refine ⟨throughout_nil, ?_⟩
        cases hslot : conn.client.app.deferred with
        | none => exact hslot
        | some d =>
            rcases htracked.sound.waiting d hslot with ⟨hlt, hfresh⟩
            exact absurd (hresolved.2 d.call hlt) hfresh
    | cons action actions ih =>
        have hmeets : Meets conn action := by
          cases action with
          | receive data => exact trivial
          | turn => exact trivial
          | call operation =>
              intro hwaits
              cases hslot : conn.client.app.deferred with
              | none => rfl
              | some d =>
                  have hcalled := @called_operation P conn.client htracked.sized operation
                  rw [hwaits] at hcalled
                  -- A second call overwrites the slot, and the first Deferred is never fired.
                  have hlost := hcalled.overwrites htracked.sound hslot
                  have hend := @Lost.act P env { conn with
                    client := finalState (operation.run.run conn.client) } d.call hcalled.sized
                    (hcalled.sound htracked.sound) hlost actions
                  exact absurd (hresolved.2 d.call hend.issued) hend.unanswered
        rcases ih (htracked.act hmeets) hresolved with ⟨hrest, hslot⟩
        exact ⟨throughout_cons.2 ⟨hmeets, hrest⟩, hslot⟩
  · rintro ⟨hmeets, hslot⟩
    have hend : Tracked (actions.foldl (act P env) conn).client :=
      always_of_throughout (I := fun conn => Tracked conn.client)
        (fun _ _ htracked hmeets => htracked.act hmeets) htracked hmeets actions
        (List.prefix_refl actions)
    refine ⟨hend.sound.nodup, fun call hlt => ?_⟩
    rcases hend.pending call hlt with hdone | hwaiting
    · exact hdone
    · rw [hslot] at hwaiting
      exact nomatch hwaiting

/-- A client as its factory builds it. -/
def fresh (P : Pillow) (requested : Option PixelFormat) (settings : VNCDoToolFactory)
    (factory : Factory) : Connection (VNCDoToolClient P) :=
  Connection.init { requestedPixelFormat := requested, factory := settings } factory

/-- In a run that ends with the loss of the connection, every Deferred has fired exactly once if and
only if no operation was called while another was pending, and none was pending at the end. -/
theorem resolved_iff (P : Pillow) (env : Env) (requested : Option PixelFormat)
    (settings : VNCDoToolFactory) (factory : Factory) (actions : List Action) :
    Resolved (lose (actions.foldl (act P env) (fresh P requested settings factory))).client.app ↔
      Throughout (act P env) Meets (fresh P requested settings factory) actions ∧
        (actions.foldl (act P env) (fresh P requested settings factory)).client.app.deferred =
          none := by
  -- The loss of the connection fires none of them.
  have hlose (conn : Connection (VNCDoToolClient P)) :
      Resolved (lose conn).client.app ↔ Resolved conn.client.app := Iff.rfl
  refine (hlose _).trans (resolved_iff_of_tracked ⟨⟨Nat.two_pow_pos 16, Nat.two_pow_pos 16⟩, ?_, ?_⟩)
  · exact ⟨nofun, List.nodup_nil, nofun⟩
  · exact fun call hlt => absurd hlt (Nat.not_lt_zero call)

/-- Two refreshes, one after the other, on a connected client that is then disconnected. -/
def overwriting : List Action :=
  [.receive (versionLine ⟨3, 3⟩ ++ packBE 4 1), .turn,
    .receive (packBE 2 1 ++ packBE 2 1 ++ PixelFormat.rgbx8888.toBytes ++ packBE 4 0), .turn, .turn,
    .call (.refreshScreen false), .call (.refreshScreen true)]

theorem not_resolved_overwritten :
    ¬ Resolved (lose (overwriting.foldl (act Pillow.canvas Env.sample)
      (fresh Pillow.canvas none {} {}))).client.app := by
  rintro ⟨_, hall⟩
  exact absurd (hall 0 (by decide +kernel)) (by decide +kernel)

end Runs

end VNCDoToolClient

end Vncdotool
