import Vncdotool.Client.Mirror
import Vncdotool.Client.Refresh

/-!
# Captures — what a capture saves

A capture is answered by a commit, in the middle of whatever chunk the server's bytes came in.  A
client that remembers its updates tells what the screen was then, and that its Deferred was fired
with what saving this very screen came to (`Truthful`).  The screen is the one of a client on which
no operation is called (`Client/Display.lean`), and that one mirrors the framebuffer of the server
(`Client/Mirror.lean`).
-/

namespace Vncdotool

open Wire Streaming Raster Connection

namespace VNCDoToolClient

variable {P : Pillow} {env : Env}

/-! ## Saving -/

/-- The part of a screen that a capture saves. -/
def captured (screen : Option P.Image) (box : Option Box) : Except PyError P.Image :=
  match screen, box with
  | none, _ => .error .assertionError
  | some screen, some box => P.crop screen box
  | some screen, none => .ok screen

/-- What the Deferred of a capture is fired with if this is the screen. -/
def saving (screen : Option P.Image) (fp : String) (box : Option Box) (format : Option String) :
    Resolution :=
  match (captured screen box).bind fun image => P.save image fp format with
  | .ok () => .result
  | .error exc => .failure exc

section Saving

variable {c c' : RFBClient (VNCDoToolClient P)}

theorem ensures_captureSave_iff {fp : String} {box : Option Box} {format : Option String}
    {Q : Unit → RFBClient (VNCDoToolClient P) → Prop}
    {E : PyError → RFBClient (VNCDoToolClient P) → Prop} :
    Ensures (captureSave fp box format) c Q E ↔
      match (captured c.app.screen box).bind fun image => P.save image fp format with
      | .ok () => Q () c
      | .error exc => E exc c := by
  have hsave (image : P.Image) :
      Ensures (liftExcept (P.save image fp format) : Py (VNCDoToolClient P) Unit) c Q E ↔
        match P.save image fp format with
        | .ok () => Q () c
        | .error exc => E exc c := by
    cases P.save image fp format with
    | ok a => exact Iff.rfl
    | error exc => exact Iff.rfl
  unfold captureSave captured
  rw [ensures_bind, ensures_get]
  cases c.app.screen with
  | none => exact Iff.rfl
  | some screen =>
      cases box with
      | none => exact hsave screen
      | some box =>
          dsimp only
          rw [ensures_bind]
          cases P.crop screen box with
          | error exc => exact Iff.rfl
          | ok image => exact hsave image

/-- A capture's callback saves the screen as it is. -/
theorem ensures_callback_capture {d : Pending} {fp : String} {box : Option Box}
    {format : Option String} (hd : d.resume = .captureSave fp box format)
    (hfresh : ¬ Completed c.app d.call) :
    Ensures (callback d) c
      (fun _ c' => c' = { c with
        app :=
          { c.app with
            outcomes := c.app.outcomes ++ [(d.call, saving c.app.screen fp box format)] } })
      fun _ _ => False := by
  unfold callback saving
  rw [hd]
  refine ensures_attempt.2 (ensures_captureSave_iff.2 ?_)
  cases (captured c.app.screen box).bind fun image => P.save image fp format with
  | ok a => exact (ensures_complete hfresh).2 rfl
  | error exc => exact (ensures_complete hfresh).2 rfl

/-- The Deferred that a commit fires, if it fires one: a capture's has been answered with what
saving the screen came to. -/
def Discharges (c c' : RFBClient (VNCDoToolClient P)) : Prop :=
  c'.app.committed = c.app.committed ∨ ∃ d, c.app.deferred = some d ∧
    c'.app.committed = c.app.committed ++ [d] ∧
    ∀ fp box format, d.resume = .captureSave fp box format →
      (d.call, saving c.app.screen fp box format) ∈ c'.app.outcomes

theorem ensures_commitUpdate_discharges (hsized : c.Sized) (hsound : Sound c.app)
    (rectangles : List Rect) :
    Ensures (commitUpdate rectangles) c (fun _ => Discharges c) fun _ _ => False := by
  cases hslot : c.app.deferred with
  | none => exact (ensures_of_run_ok (commitUpdate_idle hslot)).2 (Or.inl rfl)
  | some d =>
      refine (ensures_of_run_eq (commitUpdate_pending hslot)).2 ?_
      refine ensures_ite.2 ⟨fun _ => ?_, fun _ => ensures_bind.2 ?_⟩
      · exact (ensures_framebufferUpdateRequest hsized).2 (Or.inl rfl)
      · have hfresh : ¬ Completed c.app d.call := (hsound.waiting d hslot).2
        change Ensures (callback d) (taken d c) _ _
        have hdischarges (c' : RFBClient (VNCDoToolClient P))
            (hcommitted : c'.app.committed = c.app.committed ++ [d])
            (hanswered : ∀ fp box format, d.resume = .captureSave fp box format →
              (d.call, saving c.app.screen fp box format) ∈ c'.app.outcomes) : Discharges c c' :=
          Or.inr ⟨d, hslot, hcommitted, hanswered⟩
        cases hd : d.resume with
        | captureSave fp box format =>
            refine Ensures.mono (ensures_callback_capture (c := taken d c) hd hfresh) ?_
              fun _ _ => False.elim
            rintro _ c' rfl
            refine hdischarges _ rfl fun fp' box' format' hd' => ?_
            cases hd.symm.trans hd'
            exact List.mem_append_right _ (List.mem_singleton_self _)
        | refresh =>
            refine Ensures.mono (ensures_callback (c := taken d c) hsized hfresh) ?_
              fun _ _ => False.elim
            rintro _ c' (⟨box, maxrms, rfl⟩ | ⟨outcome, rfl⟩)
            · exact hdischarges _ rfl fun _ _ _ hd' => nomatch hd.symm.trans hd'
            · exact hdischarges _ rfl fun _ _ _ hd' => nomatch hd.symm.trans hd'
        | expectCompare box maxrms =>
            refine Ensures.mono (ensures_callback (c := taken d c) hsized hfresh) ?_
              fun _ _ => False.elim
            rintro _ c' (⟨box, maxrms, rfl⟩ | ⟨outcome, rfl⟩)
            · exact hdischarges _ rfl fun _ _ _ hd' => nomatch hd.symm.trans hd'
            · exact hdischarges _ rfl fun _ _ _ hd' => nomatch hd.symm.trans hd'

end Saving

/-! ## The other callbacks and the operations fire nothing -/

section Aside

variable {c c' : RFBClient (VNCDoToolClient P)}

/-- From `c` to `c'` the Deferreds were left alone. -/
structure Aside (c c' : RFBClient (VNCDoToolClient P)) : Prop where
  sized : c.Sized → c'.Sized
  deferred : c'.app.deferred = c.app.deferred
  returned : c'.app.returned = c.app.returned
  outcomes : c'.app.outcomes = c.app.outcomes
  committed : c'.app.committed = c.app.committed

instance refl_aside : Std.Refl (Aside (P := P)) :=
  ⟨fun _ => ⟨id, rfl, rfl, rfl, rfl⟩⟩

instance trans_aside : IsTrans (RFBClient (VNCDoToolClient P)) Aside :=
  ⟨fun _ _ _ h h' => ⟨fun hsized => h'.sized (h.sized hsized), h'.deferred.trans h.deferred,
    h'.returned.trans h.returned, h'.outcomes.trans h.outcomes, h'.committed.trans h.committed⟩⟩

theorem aside_record (event : Event) : Respects (Aside (P := P)) (record event) :=
  fun _ => ⟨id, rfl, rfl, rfl, rfl⟩

theorem aside_fire (how : Fired) : Respects (Aside (P := P)) (fire how) := by
  intro c
  rw [finalState_fire]
  exact ⟨id, rfl, rfl, rfl, rfl⟩

theorem aside_call {cb : Callback} (hcb : ∀ rectangles, cb ≠ .commitUpdate rectangles) :
    Respects (Aside (P := P)) ((runtime P env).call cb) := by
  refine respects_bind (aside_record _) fun _ => ?_
  have hpaints (h : Callback.OnlyPaints cb) : Respects (Aside (P := P)) (override env cb) := by
    intro c
    have hpaint := paints_override env h c
    refine ⟨fun hsized => ?_, hpaint.app.deferred, hpaint.app.returned, hpaint.app.outcomes,
      hpaint.app.committed⟩
    rw [hpaint.parser]
    exact hsized
  cases cb with
  | vncConnectionMade =>
      refine respects_vncConnectionMade (fun event _ => aside_record event) aside_fire (fun pf => ?_)
        fun _ _ => ⟨id, rfl, rfl, rfl, rfl⟩
      exact respects_ite (fun _ _ => ⟨id, rfl, rfl, rfl, rfl⟩) fun _ => respects_throw _
  | vncRequestPassword =>
      exact respects_vncRequestPassword (fun event _ => aside_record event) aside_fire
  | vncAuthFailed reason => exact aside_fire _
  | vncProtocolError reason => exact aside_fire _
  | commitUpdate rectangles => exact absurd rfl (hcb rectangles)
  | _ => exact hpaints trivial

/-- From `c` to `c'` no Deferred was fired by a commit. -/
def Uncommitted (c c' : RFBClient (VNCDoToolClient P)) : Prop :=
  c'.app.committed = c.app.committed

instance refl_uncommitted : Std.Refl (Uncommitted (P := P)) :=
  ⟨fun _ => rfl⟩

instance trans_uncommitted : IsTrans (RFBClient (VNCDoToolClient P)) Uncommitted :=
  ⟨fun _ _ _ h h' => Eq.trans h' h⟩

theorem uncommitted_request (incremental : Bool) :
    Respects (Uncommitted (P := P))
      (RFBClient.framebufferUpdateRequest 0 0 none none incremental) :=
  respects_bind respects_get fun _ =>
    respects_ite (fun _ _ => rfl) fun _ => respects_throw _

theorem uncommitted_operation (operation : Operation) :
    Respects (Uncommitted (P := P)) operation.run := by
  have hrefresh (incremental : Bool) (resume : Resume) :
      Respects (Uncommitted (P := P)) (refreshScreen incremental resume) :=
    respects_bind (fun _ => rfl) fun _ => uncommitted_request _
  have hlift {α : Type} (x : Except PyError α) :
      Respects Uncommitted (liftExcept x : Py (VNCDoToolClient P) α) := by
    cases x with
    | ok a => exact respects_pure a
    | error exc => exact respects_throw exc
  have hcompare (call : ℕ) (box : Box) (maxrms : ℚ) :
      Respects (Uncommitted (P := P)) (expectCompare call box maxrms) := by
    refine respects_bind respects_get fun c => respects_bind (hlift _) fun matched => ?_
    refine respects_ite (fun _ => respects_pure _) fun _ => respects_bind (fun _ => rfl) fun _ => ?_
    exact respects_bind (uncommitted_request _) fun _ => respects_pure _
  have hexpect (filename : String) (x y : ℤ) (maxrms : ℚ) :
      Respects (Uncommitted (P := P)) (expectFramebuffer filename x y maxrms) := by
    refine respects_bind (hlift _) fun image => respects_bind (fun _ => rfl) fun _ => ?_
    refine respects_bind respects_get fun c => respects_bind (hcompare _ _ _) fun matched => ?_
    exact respects_ite (fun _ _ => rfl) fun _ => respects_pure _
  cases operation with
  | refreshScreen incremental => exact hrefresh _ _
  | captureScreen fp incremental format => exact hrefresh _ _
  | captureRegion fp x y w h incremental => exact hrefresh _ _
  | expectScreen filename maxrms => exact hexpect _ _ _ _
  | expectRegion filename x y maxrms => exact hexpect _ _ _ _

end Aside

/-! ## What a client remembers of its captures -/

/-- Every Deferred that a commit has fired was issued before that commit; a capture's was answered
with what saving the screen of that commit came to. -/
structure Truthful (c : RFBClient (Chronicle (VNCDoToolClient P))) : Prop where
  sized : c.Sized
  sound : Sound c.app.app
  issued : ∀ u ∈ c.app.updates, u.before.returned ≤ c.app.app.returned
  committed : ∀ d ∈ c.app.app.committed, ∃ u ∈ c.app.updates, d.call < u.before.returned ∧
    ∀ fp box format, d.resume = .captureSave fp box format →
      (d.call, saving u.before.screen fp box format) ∈ c.app.app.outcomes

section Truthful

variable {c c' : RFBClient (Chronicle (VNCDoToolClient P))}

/-- What leaves the Deferreds that were fired and the updates alone. -/
theorem Truthful.of_same (h : Truthful c) (hsized : c'.Sized) (hsound : Sound c'.app.app)
    (hupdates : c'.app.updates = c.app.updates)
    (hreturned : c.app.app.returned ≤ c'.app.app.returned)
    (houtcomes : c'.app.app.outcomes = c.app.app.outcomes)
    (hcommitted : c'.app.app.committed = c.app.app.committed) : Truthful c' where
  sized := hsized
  sound := hsound
  issued := by
    rw [hupdates]
    exact fun u hu => (h.issued u hu).trans hreturned
  committed := by
    rw [hcommitted, hupdates, houtcomes]
    exact h.committed

theorem Truthful.aside {d : RFBClient (VNCDoToolClient P)} (h : Truthful c)
    (haside : Aside c.present d) : Truthful (d.remembering c.app.updates) := by
  refine h.of_same (haside.sized h.sized) ?_ rfl haside.returned.ge haside.outcomes
    haside.committed
  exact h.sound.moved (Moved.kept (congrArg _ haside.deferred) haside.outcomes haside.returned)

/-- A commit is noted, and what it fires was issued before. -/
theorem Truthful.commit {d : RFBClient (VNCDoToolClient P)} (h : Truthful c)
    (rectangles : List Rect) (hsized : d.Sized) (hmoved : Moved c.app.app d.app)
    (hdischarges : Discharges c.present d) :
    Truthful { d with
      app := (⟨d.app, c.app.updates⟩ : Chronicle _).note c.app.app (.commitUpdate rectangles) } := by
  have hreturned : d.app.returned = c.app.app.returned := by
    cases hmoved with
    | kept _ _ hreturned => exact hreturned
    | fired _ _ _ hreturned => exact hreturned
  have houtcomes : c.app.app.outcomes <+: d.app.outcomes := by
    cases hmoved with
    | kept _ houtcomes _ => exact houtcomes ▸ List.prefix_rfl
    | fired _ _ houtcomes _ => exact houtcomes ▸ List.prefix_append _ _
  let u : Update (VNCDoToolClient P) := ⟨rectangles, c.app.app, d.app⟩
  -- What was fired earlier is still answered.
  have hearlier : ∀ e ∈ c.app.app.committed, ∃ u' ∈ c.app.updates ++ [u],
      e.call < u'.before.returned ∧ ∀ fp box format, e.resume = .captureSave fp box format →
        (e.call, saving u'.before.screen fp box format) ∈ d.app.outcomes := by
    intro e he
    rcases h.committed e he with ⟨u', hu', hissued, hanswered⟩
    refine ⟨u', List.mem_append_left _ hu', hissued, fun fp box format he => ?_⟩
    exact houtcomes.subset (hanswered fp box format he)
  refine ⟨hsized, h.sound.moved hmoved, fun u' hu' => ?_, fun e he => ?_⟩
  · change u'.before.returned ≤ d.app.returned
    rw [hreturned]
    rcases List.mem_append.1 hu' with hold | hnew
    · exact h.issued u' hold
    · rw [List.mem_singleton.1 hnew]
  · change e ∈ d.app.committed at he
    rcases hdischarges with hsame | ⟨e', hslot, hcommitted, hanswered⟩
    · rw [hsame] at he
      exact hearlier e he
    · rw [hcommitted] at he
      rcases List.mem_append.1 he with hold | hnew
      · exact hearlier e hold
      · rw [List.mem_singleton.1 hnew]
        refine ⟨u, List.mem_append_right _ (List.mem_singleton_self _), ?_, hanswered⟩
        exact (h.sound.waiting e' hslot).1

/-- From `c` to `c'` the client stays truthful. -/
def StaysTruthful (c c' : RFBClient (Chronicle (VNCDoToolClient P))) : Prop :=
  Truthful c → Truthful c'

theorem keeps_truthful : Keeps (StaysTruthful (P := P)) where
  refl _ h := h
  trans _ _ _ h h' htruthful := h' (h htruthful)
  write _ _ h := h.of_same h.sized h.sound rfl le_rfl rfl rfl
  loseConnection _ h := h.of_same h.sized h.sound rfl le_rfl rfl rfl
  state c c' _ happ hframe h := by
    have hwidth : c'.width = c.width := congrArg Prod.fst hframe
    have hheight : c'.height = c.height := congrArg (fun frame => frame.2.1) hframe
    refine h.of_same ?_ (happ ▸ h.sound) (by rw [happ]) (by rw [happ]) (by rw [happ]) (by rw [happ])
    unfold RFBClient.Sized
    rw [hwidth, hheight]
    exact h.sized

theorem truthful_call (cb : Callback) :
    Respects (StaysTruthful (P := P)) ((runtime P env).chronicle.call cb) := by
  intro c h
  change Truthful (finalState ((runtime P env).chronicle.call cb c))
  by_cases hcommit : ∃ rectangles, cb = .commitUpdate rectangles
  · rcases hcommit with ⟨rectangles, rfl⟩
    let c₁ : RFBClient (VNCDoToolClient P) :=
      { c.present with log := c.log ++ [.callback (.commitUpdate rectangles)] }
    have hsized₁ : c₁.Sized := h.sized
    have hmoves := moves_commitUpdate rectangles c₁ hsized₁ h.sound
    rcases (ensures_commitUpdate_discharges hsized₁ h.sound rectangles).exists_run_ok with
      ⟨_, d, hrun, hdischarges⟩
    have hcall : (runtime P env).call (.commitUpdate rectangles) c.present = .ok () d := hrun
    rw [hrun] at hmoves
    rw [call_chronicle_ok hcall]
    exact h.commit rectangles hmoves.1 hmoves.2 hdischarges
  · have hother : ∀ rectangles, cb ≠ .commitUpdate rectangles :=
      fun rectangles hcb => hcommit ⟨rectangles, hcb⟩
    have haside := @aside_call P env cb hother c.present
    unfold EStateM.run at haside
    cases hrun : (runtime P env).call cb c.present with
    | error exc d =>
        rw [hrun] at haside
        rw [call_chronicle_error hrun]
        exact h.aside haside
    | ok a d =>
        rw [hrun] at haside
        rw [call_chronicle_ok hrun]
        have hnote (r : Chronicle (VNCDoToolClient P)) : r.note c.app.app cb = r := by
          cases cb with
          | commitUpdate rectangles => exact absurd rfl (hother rectangles)
          | _ => rfl
        rw [hnote]
        exact h.aside haside

theorem maintains_truthful : Maintains (runtime P env).chronicle StaysTruthful where
  toKeeps := keeps_truthful
  call c cb _ := truthful_call cb c

theorem told_truthful : Told (runtime P env).chronicle (StaysTruthful (P := P)) :=
  fun cb _ => truthful_call cb

theorem announced_truthful : Announced (StaysTruthful (P := P)) :=
  fun c c' _ happ hsized h => h.of_same hsized (happ ▸ h.sound) (by rw [happ]) (by rw [happ])
    (by rw [happ]) (by rw [happ])

/-- A call may issue a Deferred, and fires none. -/
theorem Truthful.call (h : Truthful c) (operation : Operation) :
    Truthful (finalState ((Chronicle.lift operation.run).run c)) := by
  rw [Chronicle.finalState_lift]
  have hcalled := @called_operation P c.present h.sized operation
  have hcommitted := uncommitted_operation operation c.present
  refine h.of_same hcalled.sized (hcalled.sound h.sound) rfl ?_ hcalled.outcomes hcommitted
  change c.present.app.returned ≤ (finalState (operation.run.run c.present)).app.returned
  cases hwaits : operation.waits c.present.app with
  | true =>
      rw [hwaits] at hcalled
      rw [hcalled.slot_waits.1]
      exact Nat.le_succ _
  | false =>
      rw [hwaits] at hcalled
      exact hcalled.slot_kept.1.ge

end Truthful

/-! ## Runs with a memory -/

/-- One action of a client that remembers its updates. -/
def remember (P : Pillow) (env : Env) (conn : Connection (Chronicle (VNCDoToolClient P))) :
    Action → Connection (Chronicle (VNCDoToolClient P))
  | .call operation =>
      { conn with client := finalState ((Chronicle.lift operation.run).run conn.client) }
  | .receive data => conn.enter (runtime P env).chronicle data
  | .turn => (conn.iterate (runtime P env).chronicle).getD conn

/-- The bytes that arrive in a run. -/
def received (actions : List Action) : Bytes :=
  actions.flatMap fun action =>
    match action with
    | .receive data => data
    | _ => []

theorem received_filter (actions : List Action) :
    received (actions.filter Action.isReceiving) = received actions := by
  unfold received
  induction actions with
  | nil => rfl
  | cons action actions ih =>
      cases action with
      | call operation => exact ih
      | receive data => exact congrArg (data ++ ·) ih
      | turn => exact ih

section Runs

variable {conn silent : Connection (Chronicle (VNCDoToolClient P))}

theorem Truthful.remember (h : Truthful conn.client) (action : Action) :
    Truthful (remember P env conn action).client := by
  cases action with
  | call operation => exact h.call operation
  | receive data =>
      exact keeps_truthful.enter (@told_truthful P env) conn data h
  | turn =>
      unfold VNCDoToolClient.remember
      cases hiterate : conn.iterate (runtime P env).chronicle with
      | none => exact h
      | some conn' => exact maintains_truthful.iterate told_truthful announced_truthful hiterate h

theorem Truthful.recalls (h : Truthful conn.client) (actions : List Action) :
    Truthful (actions.foldl (VNCDoToolClient.remember P env) conn).client := by
  induction actions generalizing conn with
  | nil => exact h
  | cons action actions ih => exact ih (h.remember action)

/-- Two clients in the same state do the same. -/
theorem likens_same : Likens (fun _ => true) (fun a a' => a' = a ∧ Sound a) (runtime P env)
    (runtime P env) where
  env := rfl
  call cb c c' h := by
    obtain rfl := Alike.eq_of_bare h.bare h.app.1
    have hmoves := @moves_call P env cb c' h.sized h.app.2
    unfold EStateM.run at hmoves
    cases hrun : (runtime P env).call cb c' with
    | ok a d =>
        rw [hrun] at hmoves
        exact ⟨rfl, rfl, ⟨rfl, h.app.2.moved hmoves.2⟩, hmoves.1⟩
    | error exc d =>
        rw [hrun] at hmoves
        exact ⟨rfl, rfl, ⟨rfl, h.app.2.moved hmoves.2⟩, hmoves.1⟩

/-- The memory changes nothing of what the client does. -/
theorem present_remember (h : Truthful conn.client) (action : Action) :
    (remember P env conn action).present = act P env conn.present action := by
  have habreast : conn.Abreast (fun _ => true) (fun r a' => a' = r.app ∧ Sound r.app)
      conn.present :=
    ⟨⟨rfl, ⟨rfl, h.sound⟩, h.sized⟩, rfl, rfl⟩
  have hpresent {conn' : Connection (Chronicle (VNCDoToolClient P))}
      {conn'' : Connection (VNCDoToolClient P)}
      (h : conn'.Abreast (fun _ => true) (fun r a' => a' = r.app ∧ Sound r.app) conn'') :
      conn'.present = conn'' := by
    have hclient : conn''.client = conn'.client.present :=
      Alike.eq_of_bare h.client.bare h.client.app.1
    have hpacket := h.packet
    have hraised := h.raised
    rcases conn'' with ⟨client, packet, raised⟩
    dsimp only at hclient hpacket hraised
    rw [hclient, hpacket, hraised]
    rfl
  cases action with
  | call operation =>
      unfold VNCDoToolClient.remember
      dsimp only
      rw [Chronicle.finalState_lift]
      rfl
  | receive data => exact hpresent (likens_same.chronicle.enter habreast data)
  | turn => exact hpresent (likens_same.chronicle.turn habreast)

theorem present_recalls (h : Truthful conn.client) (actions : List Action) :
    (actions.foldl (remember P env) conn).present = actions.foldl (act P env) conn.present := by
  induction actions generalizing conn with
  | nil => rfl
  | cons action actions ih =>
      rw [List.foldl_cons, List.foldl_cons, ih (h.remember action), present_remember h]

/-- The history is that of the run without the calls, as far as the display goes. -/
theorem abreast_recalls (actions : List Action)
    (h : conn.Abreast Event.isCallback (Chronicle.Alike Undisturbed) silent) :
    (actions.foldl (remember P env) conn).Abreast Event.isCallback (Chronicle.Alike Undisturbed)
      ((actions.filter Action.isReceiving).foldl (remember P env) silent) := by
  induction actions generalizing conn silent with
  | nil => exact h
  | cons action actions ih =>
      cases action with
      | call operation =>
          -- The call is struck out on the other side, and leaves display and history alone here.
          refine ih ?_
          have hplain : conn.present.Abreast Event.isCallback Undisturbed silent.present :=
            ⟨⟨h.client.bare, h.client.app.app, h.client.sized⟩, h.packet, h.raised⟩
          have hcall := @abreast_call P env _ _ hplain operation
          unfold VNCDoToolClient.remember
          dsimp only
          rw [Chronicle.finalState_lift]
          exact ⟨⟨hcall.client.bare, ⟨hcall.client.app, h.client.app.updates⟩, hcall.client.sized⟩,
            h.packet, h.raised⟩
      | receive data => exact ih (likens_runtime.chronicles.enter h data)
      | turn => exact ih (likens_runtime.chronicles.turn h)

/-- The history only grows. -/
theorem recalls_run (actions : List Action) :
    conn.client.app.updates <+: (actions.foldl (remember P env) conn).client.app.updates := by
  induction actions generalizing conn with
  | nil => exact List.prefix_rfl
  | cons action actions ih =>
      refine List.IsPrefix.trans ?_ ih
      cases action with
      | call operation =>
          unfold VNCDoToolClient.remember
          dsimp only
          rw [Chronicle.finalState_lift]
          exact List.prefix_rfl
      | receive data =>
          have htold : Told (runtime P env).chronicle Recalls := fun cb _ => recalls_call cb
          exact keeps_recalls.enter htold conn data
      | turn =>
          unfold VNCDoToolClient.remember
          cases hiterate : conn.iterate (runtime P env).chronicle with
          | none => exact List.prefix_rfl
          | some conn' => exact recalls_iterate hiterate

/-- On the way through a stream on which nothing raises, a client that is only fed remembers a part
of what it remembers at the end. -/
theorem recalls_of_haltsAt {rest : Bytes} {last : Connection (Chronicle (VNCDoToolClient P))}
    {actions : List Action} (hreceiving : ∀ action ∈ actions, action.isReceiving)
    (hstage : conn.client.stage = .handleExpected) (hraised : conn.raised = none)
    (hhalts : HaltsAt (Connection.iterate (runtime P env).chronicle)
      (conn.deliver (received actions ++ rest)) last) (hlast : last.raised = none) :
    (actions.foldl (remember P env) conn).client.app.updates <+: last.client.app.updates := by
  induction actions generalizing conn with
  | nil =>
      have hgrows : Recalls (conn.deliver rest).client last.client :=
        reaches_invariant (I := fun q => Recalls (conn.deliver rest).client q.client)
          (fun _ _ hturn hq => keeps_recalls.trans _ _ _ hq (recalls_iterate hturn)) hhalts.1
          (keeps_recalls.refl _)
      rw [client_deliver] at hgrows
      exact hgrows
  | cons action actions ih =>
      have hrest : ∀ action ∈ actions, action.isReceiving :=
        fun action hmem => hreceiving action (List.mem_cons_of_mem _ hmem)
      cases action with
      | call operation => exact absurd (hreceiving _ List.mem_cons_self) Bool.false_ne_true
      | receive data =>
          -- The rest of the stream comes behind this chunk, and leads to the same end.
          have henter : conn.enter (runtime P env).chronicle data = conn.deliver data := by
            unfold Connection.enter Connection.deliver
            split_ifs
            · rfl
            · dsimp only
              rw [hstage, hraised]
          have hcut : received (.receive data :: actions) ++ rest =
              data ++ (received actions ++ rest) := by
            unfold received
            rw [List.flatMap_cons, List.append_assoc]
          have hdeliver : (conn.deliver data).deliver (received actions ++ rest) =
              conn.deliver (data ++ (received actions ++ rest)) :=
            (receiveLoop (runtime P env).chronicle).deliver_deliver conn data _
          rw [hcut, ← hdeliver] at hhalts
          rw [List.foldl_cons]
          change (actions.foldl (remember P env)
            (conn.enter (runtime P env).chronicle data)).client.app.updates <+: _
          rw [henter]
          refine ih hrest ?_ ?_ hhalts
          · rw [client_deliver]
            exact hstage
          · rw [raised_deliver]
            exact hraised
      | turn =>
          rw [List.foldl_cons]
          change (actions.foldl (remember P env)
            ((conn.iterate (runtime P env).chronicle).getD conn)).client.app.updates <+: _
          have hcut : received (.turn :: actions) = received actions := List.nil_append _
          rw [hcut] at hhalts
          cases hiterate : conn.iterate (runtime P env).chronicle with
          | none => exact ih hrest hstage hraised hhalts
          | some conn' =>
              have hstep := iterate_deliver (received actions ++ rest) hiterate
              have hhalts' := (HaltsAt.iff_of_step hstep).1 hhalts
              refine ih hrest ?_ ?_ hhalts'
              · exact (stage_iterate runtime_tame.chronicle hiterate).trans hstage
              -- A client that had raised would stay so.
              · by_contra hexc
                have hexc' : (conn'.deliver (received actions ++ rest)).raised ≠ none := by
                  rw [raised_deliver]
                  exact hexc
                have hnone : Connection.iterate (runtime P env).chronicle
                    (conn'.deliver (received actions ++ rest)) = none :=
                  iterate_eq_none_iff.2 (pending_of_raised hexc')
                exact hexc' (hhalts'.eq_of_none hnone ▸ hlast)

end Runs

/-! ## Captures of a desktop -/

/-- A client between two messages of a session with this framebuffer, that has shown nothing and of
which nothing is asked. -/
structure Opened (fb : Framebuffer) (conn : Connection (VNCDoToolClient P)) : Prop where
  between : conn.Between
  width : conn.client.width = fb.width
  height : conn.client.height = fb.height
  format : conn.client.pixelFormat = fb.format
  screen : conn.client.app.screen = none
  cursor : conn.client.app.cursor = none
  deferred : conn.client.app.deferred = none
  committed : conn.client.app.committed = []

/-- At the end of each update so far the screen mirrored the desktop, and a capture that has been
answered was answered with what saving the screen came to at the end of an update that was committed
after the call. -/
structure Captured (px : P.Pixels) (env : Env) (start : Connection (VNCDoToolClient P))
    (desktops : List (Desktop px.Colour)) (actions : List Action) : Prop where
  /-- The client with its memory is the client. -/
  present : (actions.foldl (remember P env) start.remembering).present =
    actions.foldl (act P env) start
  mirrors : ∀ (k : ℕ) (u : Update (VNCDoToolClient P)),
    (actions.foldl (remember P env) start.remembering).client.app.updates[k]? = some u →
      ∃ desktop, desktops[k]? = some desktop ∧ Mirrors px desktop u.before.screen
  answered : ∀ early late, actions = early ++ late →
    ∀ d ∈ (actions.foldl (act P env) start).client.app.committed,
      (early.foldl (act P env) start).client.app.returned ≤ d.call →
        ∀ fp box format, d.resume = .captureSave fp box format →
          ∃ (k : ℕ) (u : Update (VNCDoToolClient P)),
          (early.foldl (remember P env) start.remembering).client.app.updates.length ≤ k ∧
          (actions.foldl (remember P env) start.remembering).client.app.updates[k]? = some u ∧
          (d.call, saving u.before.screen fp box format) ∈
            (actions.foldl (act P env) start).client.app.outcomes

section Captures

variable {px : P.Pixels} {fb : Framebuffer} {mode : RawMode}
  {conn : Connection (VNCDoToolClient P)}

theorem getElem?_of_prefix {α : Type*} {l l' : List α} (h : l <+: l') {k : ℕ} {a : α}
    (hget : l[k]? = some a) : l'[k]? = some a := by
  rcases h with ⟨rest, rfl⟩
  exact (List.getElem?_append_left (List.getElem?_eq_some_iff.1 hget).1).trans hget

/-- What stands beside an entry of one list in the other. -/
theorem getElem?_of_forall₂ {α β : Type*} {R : α → β → Prop} {l : List α} {l' : List β}
    (h : List.Forall₂ R l l') :
    ∀ {k : ℕ} {a : α}, l[k]? = some a → ∃ b, l'[k]? = some b ∧ R a b := by
  induction h with
  | nil => exact fun hget => nomatch hget
  | @cons a b l l' hab _ ih =>
      intro k a' hget
      cases k with
      | zero => exact ⟨b, rfl, Option.some.inj hget ▸ hab⟩
      | succ k => exact ih hget

theorem truthful_opened (hopened : Opened fb conn) (hsteady : Steady conn) :
    Truthful conn.remembering.client where
  sized := hsteady.sized
  sound := hsteady.sound
  issued _ hu := absurd hu List.not_mem_nil
  committed d hd := by
    have hnone : conn.remembering.client.app.app.committed = [] := hopened.committed
    rw [hnone] at hd
    exact absurd hd List.not_mem_nil

/-- A client that is only fed what a server sends remembers mirrors of its desktop. -/
theorem mirrors_silent (hopened : Opened fb conn) (hsteady : Steady conn)
    (hmode : fb.format.rawMode = .ok mode)
    (halloc : ∀ n ≤ fb.width * fb.height * fb.format.bypp, env.alloc n = true)
    {picture : Picture px.Colour} {messages : List (ServerMessage fb)}
    {desktops : List (Desktop px.Colour)}
    (hserves : Serves px mode conn.client.app.factory.nocursor
      (.unsent fb.width fb.height picture) messages desktops)
    {actions : List Action} (hreceiving : ∀ action ∈ actions, action.isReceiving)
    (hreceived : received actions <+: messages.flatMap ServerMessage.encode) {k : ℕ}
    {u : Update (VNCDoToolClient P)}
    (hu : (actions.foldl (remember P env) conn.remembering).client.app.updates[k]? = some u) :
    ∃ desktop, desktops[k]? = some desktop ∧ Mirrors px desktop u.before.screen := by
  let start : RFBClient (Chronicle (VNCDoToolClient P)) := conn.remembering.client
  have hreads : Reads fb.format conn.client.app := by
    rw [← hopened.format]
    exact (hsteady.able (InSession.of_armed hopened.between.stage hopened.between.armed)).2
  have hwaiting : Waiting (fb.width, fb.height) fb start :=
    ⟨⟨hopened.between.stage, hopened.between.aborted, hopened.width, hopened.height,
      hopened.format, fun _ => rfl, fun _ => rfl⟩, hopened.between.armed⟩
  -- The whole stream in one piece, and what is remembered at its end.
  rcases leaves_messages (@absorbs P env fb).chronicle halloc messages hwaiting
    ⟨hreads, hopened.deferred⟩ [] with ⟨last, hreaches, hwaiting', _, happ⟩
  have hreflects : Reflects px fb (.unsent fb.width fb.height picture) conn.client.app := by
    refine ⟨⟨[], ?_, Desktop.seen_unsent _ _ _ _⟩, ?_, fun _ => ⟨rfl, fun _ _ _ _ => trivial⟩,
      hopened.cursor⟩
    · rw [hopened.screen]
      exact fun _ _ => rfl
    · rw [hopened.screen]
      exact fun _ himage => nomatch himage
  rcases hserves.mirrored hmode (r := start.app) ⟨hreads, hopened.deferred⟩ rfl hreflects with
    ⟨updates, hupdates, hmirrors⟩
  have hend : last.app.updates = updates := by
    rw [happ]
    exact hupdates
  rcases hreceived with ⟨rest, hrest⟩
  have hlive : conn.remembering.deliver (received actions ++ rest) =
      live start (messages.flatMap ServerMessage.encode ++ []) := by
    have haborted : conn.remembering.client.aborted = false := hopened.between.aborted
    have hpacket : conn.remembering.packet = [] := hopened.between.packet
    have hraised : conn.remembering.raised = none := hopened.between.raised
    unfold Connection.deliver
    rw [haborted, if_neg Bool.false_ne_true, hpacket, List.nil_append, hrest, List.append_nil,
      hraised]
    rfl
  have hhalts : HaltsAt (Connection.iterate (runtime P env).chronicle)
      (conn.remembering.deliver (received actions ++ rest)) (live last []) := by
    rw [hlive]
    exact ⟨hreaches, iterate_of_expecting (expecting_of_armed hwaiting'.armed)⟩
  have hprefix := recalls_of_haltsAt hreceiving hopened.between.stage hopened.between.raised hhalts
    rfl
  have hlast : updates[k]? = some u := by
    rw [← hend]
    exact getElem?_of_prefix hprefix hu
  rcases getElem?_of_forall₂ hmirrors.flip hlast with ⟨desktop, hdesktop, hmirror⟩
  exact ⟨desktop, hdesktop, hmirror⟩

/-- In every session of a server that sends what it shows, however its bytes are cut and whatever
operations are called in between, the screen mirrors the desktop at the end of each update, and every
capture that has been answered has saved the screen of an update that was committed after the
call. -/
theorem captures_desktop {requested : Option PixelFormat} {settings : VNCDoToolFactory}
    {factory : Factory} {opening : List Action}
    (hconn : conn = opening.foldl (act P env) (fresh P requested settings factory))
    (hopened : Opened fb conn) (hmode : fb.format.rawMode = .ok mode)
    (halloc : ∀ n ≤ fb.width * fb.height * fb.format.bypp, env.alloc n = true)
    {picture : Picture px.Colour} {messages : List (ServerMessage fb)}
    {desktops : List (Desktop px.Colour)}
    (hserves : Serves px mode conn.client.app.factory.nocursor
      (.unsent fb.width fb.height picture) messages desktops)
    {actions : List Action}
    (hreceived : received actions <+: messages.flatMap ServerMessage.encode) :
    Captured px env conn desktops actions := by
  have hsteady : Steady conn := by
    rw [hconn]
    exact steady_run requested settings factory opening
  have htruthful := truthful_opened hopened hsteady
  have hpresent (actions : List Action) :
      (actions.foldl (remember P env) conn.remembering).present =
        actions.foldl (act P env) conn :=
    present_recalls htruthful actions
  refine ⟨hpresent actions, fun k u hu => ?_, ?_⟩
  -- The run without the calls remembers the same screens.
  · have hsame : conn.remembering.Abreast Event.isCallback (Chronicle.Alike Undisturbed)
        conn.remembering :=
      ⟨⟨rfl, ⟨⟨rfl, hsteady.sound, hsteady.sound⟩, .nil⟩, hsteady.sized⟩, rfl, rfl⟩
    have habreast := @abreast_recalls P env _ _ actions hsame
    rcases getElem?_of_forall₂ habreast.client.app.updates hu with ⟨u', hu', hupdate⟩
    have hquiet := received_filter actions
    rcases mirrors_silent hopened hsteady hmode halloc hserves
      (fun action hmem => (List.mem_filter.1 hmem).2) (hquiet.symm ▸ hreceived) hu' with
      ⟨desktop, hdesktop, hmirror⟩
    refine ⟨desktop, hdesktop, ?_⟩
    rw [← SameDisplay.screen hupdate.before.1]
    exact hmirror
  · rintro early late rfl d hd hcall fp box format hresume
    have hnow := @Truthful.recalls P env _ htruthful (early ++ late)
    have hpast := @Truthful.recalls P env _ htruthful early
    rw [← hpresent] at hd hcall ⊢
    rcases hnow.committed d hd with ⟨u, hu, hissued, hanswered⟩
    rcases List.getElem?_of_mem hu with ⟨k, hk⟩
    refine ⟨k, u, ?_, hk, hanswered fp box format hresume⟩
    -- An update from before the call would have been committed before its Deferred was issued.
    by_contra hearly
    have hgrows := @recalls_run P env (early.foldl (remember P env) conn.remembering) late
    rw [← List.foldl_append] at hgrows
    have hlt := Nat.not_le.1 hearly
    have hold := getElem?_of_prefix hgrows (List.getElem?_eq_getElem hlt)
    have hmem : u ∈ (early.foldl (remember P env) conn.remembering).client.app.updates := by
      rw [← Option.some.inj (hold.symm.trans hk)]
      exact List.getElem_mem hlt
    exact absurd (hissued.trans_le (hpast.issued u hmem)) (Nat.not_lt.2 hcall)

end Captures

/-- A session with a screen of one pixel, after the handshake. -/
def opening : List Action :=
  [.receive (versionLine ⟨3, 3⟩ ++ packBE 4 1), .turn,
    .receive (packBE 2 1 ++ packBE 2 1 ++ PixelFormat.rgbx8888.toBytes ++ packBE 4 0), .turn, .turn]

def opened : Connection (VNCDoToolClient Pillow.canvas) :=
  opening.foldl (act Pillow.canvas Env.sample) (fresh Pillow.canvas none {} {})

theorem opened_onePixel : Opened onePixel opened where
  between :=
    ⟨by decide +kernel, by decide +kernel, by decide +kernel, by decide +kernel, by decide +kernel⟩
  width := by decide +kernel
  height := by decide +kernel
  format := by decide +kernel
  screen := Option.isNone_iff_eq_none.1 (by decide +kernel)
  cursor := Option.isNone_iff_eq_none.1 (by decide +kernel)
  deferred := by decide +kernel
  committed := by decide +kernel

/-- The desktop that `pixelUpdate` sends. -/
def pixelDesktop : Desktop Pillow.canvasPixels.Colour :=
  .unsent 1 1 fun _ _ => (1, 2, 3)

theorem serves_pixelUpdate (nocursor : Bool) :
    Serves Pillow.canvasPixels .RGBX nocursor pixelDesktop [pixelUpdate]
      [pixelDesktop.send ⟨0, 0, 1, 1⟩] := by
  refine .update rfl (.raw (by decide) ?_ (.done _)) (.done _)
  intro col hcol row hrow
  have hzero : col = 0 := Nat.lt_one_iff.1 hcol
  have hzero' : row = 0 := Nat.lt_one_iff.1 hrow
  subst hzero hzero'
  rfl

/-- A capture is called in the middle of the update that answers it. -/
def capturing : List Action :=
  [.receive (pixelUpdate.encode.take 7), .turn, .call (.captureScreen "screen.png" false none),
    .receive (pixelUpdate.encode.drop 7), .turn, .turn, .turn, .turn]

theorem captures_desktop_capturing :
    (capturing.foldl (act Pillow.canvas Env.sample) opened).client.app.committed =
        [⟨0, .captureSave "screen.png" none none⟩] ∧
      Captured Pillow.canvasPixels Env.sample opened [pixelDesktop.send ⟨0, 0, 1, 1⟩] capturing := by
  refine ⟨by decide +kernel, ?_⟩
  have hmode : onePixel.format.rawMode = .ok .RGBX := by decide
  refine captures_desktop rfl opened_onePixel hmode (fun _ _ => rfl) (serves_pixelUpdate _) ?_
  exact ⟨[], by decide +kernel⟩

end VNCDoToolClient

end Vncdotool
