import Vncdotool.Client.Effects

/-!
# Refresh — when the Deferred of a screen operation fires

A commit fires the pending Deferred if the update has noted the position of a rectangle, and asks for
another update if it has not.  A position is noted of every rectangle that is not about the desktop
or the keyboard; whether anything was painted is not looked at.  So the Deferred fires on painted
pixels exactly if a rectangle that is counted comes with one that lands on the screen.
-/

namespace Vncdotool

open Wire Streaming

namespace VNCDoToolClient

variable {P : Pillow} {env : Env}

/-! ## What is to happen -/

/-- From `c` to `c'` an update or the cursor was pasted and set a pixel of the screen. -/
def Painted (c c' : RFBClient (VNCDoToolClient P)) : Prop :=
  ∃ pastes, Pastes c.app c'.app pastes ∧ ∃ paste ∈ pastes, Paste.Sets paste

/-- From `c` to `c'` the Deferred was fired, and no other. -/
def Commits (d : Pending) (c c' : RFBClient (VNCDoToolClient P)) : Prop :=
  c'.app.committed = c.app.committed ++ [d]

/-- From `c` to `c'` no Deferred was fired, the pending one stayed so, and in the end another update
was requested. -/
structure Rerequests (d : Pending) (c c' : RFBClient (VNCDoToolClient P)) : Prop where
  committed : c'.app.committed = c.app.committed
  deferred : c'.app.deferred = some d
  request : ∃ log, c'.log = log ++ [.write (RFBClient.wholeRequest c.width c.height false)]

/-- The Deferred fires on painted pixels, and only on these. -/
def Completes (d : Pending) (c c' : RFBClient (VNCDoToolClient P)) : Prop :=
  (Painted c c' ∧ Commits d c c') ∨ (¬ Painted c c' ∧ Rerequests d c c')

/-- No rectangle of the update is counted, or one of them sets a pixel of the screen. -/
def Accounted {fb : Framebuffer} (s : Scene) (rects : List (ServerRect fb)) : Prop :=
  (∀ rect ∈ rects, rect.position = []) ∨ s.LandsSome rects

/-! ## The commit -/

section Commit

variable {c : RFBClient (VNCDoToolClient P)} {d : Pending}

/-- The commit of an update fires the Deferred if a rectangle was counted, and re-requests if not. -/
theorem ensures_doConnection (hsized : c.Sized) (hslot : c.app.deferred = some d)
    (hfresh : ¬ Completed c.app d.call) (hzero : c.rectangles = 0) :
    Ensures (RFBClient.doConnection (runtime P env)) c
      (fun _ c' => c'.armed = (.connection, 1) ∧
        (c'.stage = c.stage ∧ c'.aborted = c.aborted ∧ c'.app.pastes = c.app.pastes ∧
          c'.app.screen = c.app.screen) ∧
        if c.rectanglePos = [] then Rerequests d c c' else Commits d c c')
      fun _ _ => False := by
  let c₁ : RFBClient (VNCDoToolClient P) :=
    { c with log := c.log ++ [.callback (.commitUpdate c.rectanglePos)] }
  have hcommit : Ensures (commitUpdate c.rectanglePos) c₁
      (fun _ c' =>
        (c'.stage = c.stage ∧ c'.aborted = c.aborted ∧ c'.app.pastes = c.app.pastes ∧
          c'.app.screen = c.app.screen) ∧
        if c.rectanglePos = [] then Rerequests d c c' else Commits d c c')
      fun _ _ => False := by
    -- Without a rectangle the whole is asked for again, and the Deferred stays.
    have hdone : Ensures (commitUpdate c.rectanglePos) c₁
        (fun _ c' => if c.rectanglePos = [] then Rerequests d c c' else Commits d c c')
        fun _ _ => False := by
      have hpending : c₁.app.deferred = some d := hslot
      refine (ensures_of_run_eq (commitUpdate_pending hpending)).2 ?_
      refine ensures_ite.2 ⟨fun hempty => ?_, fun hne => ?_⟩
      · have hnil : c.rectanglePos = [] := List.isEmpty_iff.1 hempty
        refine (@ensures_framebufferUpdateRequest P c₁ hsized false _ _).2 ?_
        rw [if_pos hnil]
        exact ⟨rfl, hslot, c₁.log, rfl⟩
      · have hcons : c.rectanglePos ≠ [] := fun hnil => hne (List.isEmpty_iff.2 hnil)
        refine ensures_bind.2 ?_
        change Ensures (callback d) (taken d c₁) _ _
        refine Ensures.mono (@ensures_callback P (taken d c₁) hsized d hfresh) ?_
          fun _ _ => False.elim
        rintro _ c' (⟨box, maxrms, rfl⟩ | ⟨outcome, rfl⟩)
        · rw [if_neg hcons]
          rfl
        · rw [if_neg hcons]
          rfl
    refine Ensures.mono (Ensures.and ((slots_commitUpdate c.rectanglePos).ensures c₁) hdone) ?_ ?_
    · rintro _ c' ⟨hslots, hdone⟩
      refine ⟨⟨hslots.held.stage, hslots.held.aborted, ?_, ?_⟩, hdone⟩
      · rw [hslots.app]
      · rw [hslots.app]
    · exact fun _ _ hboth => hboth.2
  refine ensures_bind.2 (ensures_ite.2 ⟨fun hpos => absurd hzero hpos, fun _ => ?_⟩)
  refine ensures_bind.2 (ensures_bind.2 ?_)
  change Ensures (commitUpdate c.rectanglePos) c₁ _ _
  refine Ensures.mono hcommit ?_ fun _ _ => False.elim
  rintro _ c' ⟨hkept, hdone⟩
  refine ⟨rfl, hkept, ?_⟩
  split_ifs with hempty
  · rw [if_pos hempty] at hdone
    exact ⟨hdone.committed, hdone.deferred, hdone.request⟩
  · rw [if_neg hempty] at hdone
    exact hdone

end Commit

/-! ## Every update -/

/-- A rectangle that lands is counted. -/
theorem position_of_lands {fb : Framebuffer} {s : Scene} {rect : ServerRect fb}
    (h : s.Lands rect) : rect.position ≠ [] := by
  cases rect with
  | raw rect pixels fits length => exact List.cons_ne_nil _ _
  | cursor rect image mask image_length mask_length => exact List.cons_ne_nil _ _
  | _ => exact h.elim

theorem exists_position_of_landsSome {fb : Framebuffer} {rects : List (ServerRect fb)} :
    ∀ {s : Scene}, s.LandsSome rects → ∃ rect ∈ rects, rect.position ≠ [] := by
  induction rects with
  | nil => exact fun h => h.elim
  | cons rect rects ih =>
      rintro s (hlands | hrest)
      · exact ⟨rect, List.mem_cons_self, position_of_lands hlands⟩
      · rcases ih hrest with ⟨rect', hmem, hposition⟩
        exact ⟨rect', List.mem_cons_of_mem _ hmem, hposition⟩

theorem InSession.of_armed {c : RFBClient (VNCDoToolClient P)} (hstage : c.stage = .handleExpected)
    (harmed : c.armed = (.connection, 1)) : InSession c := by
  have hhandler : c.expectedHandler = .connection := congrArg Prod.fst harmed
  refine ⟨hstage, ?_⟩
  rw [hhandler]
  exact False.elim

theorem painted_iff {c c' : RFBClient (VNCDoToolClient P)} {pastes : List (Paste P)}
    (hpastes : Pastes c.app c'.app pastes) :
    Painted c c' ↔ ∃ paste ∈ pastes, Paste.Sets paste := by
  constructor
  · rintro ⟨pastes', hpastes', hsets⟩
    have heq : pastes' = pastes := List.append_cancel_left (hpastes'.symm.trans hpastes)
    exact heq ▸ hsets
  · exact fun hsets => ⟨pastes, hpastes, hsets⟩

/-- Firing is not re-requesting. -/
theorem Commits.not_rerequests {d : Pending} {c c' : RFBClient (VNCDoToolClient P)}
    (h : Commits d c c') : ¬ Rerequests d c c' := by
  intro hrequests
  have hnil : [d] = [] := List.append_right_eq_self.1 (h.symm.trans hrequests.committed)
  exact List.cons_ne_nil _ _ hnil

/-- In every session: whenever a client that waits between two
messages, with a Deferred pending, receives an update in any cut, then the Deferred fires on painted
pixels and only on these, if and only if a counted rectangle comes with one that lands. -/
theorem completes_iff {requested : Option PixelFormat} {settings : VNCDoToolFactory}
    {factory : Factory} {actions : List Action} {conn : Connection (VNCDoToolClient P)}
    {fb : Framebuffer} {d : Pending} {message : ServerMessage fb} {rects : List (ServerRect fb)}
    {chunks : List Bytes}
    (hconn : conn = actions.foldl (act P env) (fresh P requested settings factory))
    (hbetween : conn.Between) (hpending : conn.client.app.deferred = some d)
    (hformat : conn.client.pixelFormat = fb.format)
    (hwidth : conn.client.width ≠ 0 → conn.client.width = fb.width)
    (hheight : conn.client.height ≠ 0 → conn.client.height = fb.height)
    (halloc : ∀ n ≤ fb.width * fb.height * fb.format.bypp, env.alloc n = true)
    (hupdate : message.update? = some rects) (hchunks : chunks.flatten = message.encode) :
    ∃ conn', (∀ q, conn.Receives (runtime P env) chunks q ↔ q = conn') ∧ conn'.Between ∧
      (Completes d conn.client conn'.client ↔
        Accounted (scene (conn.client.width, conn.client.height) conn.client.app) rects) := by
  have hsteady : Steady conn := by
    rw [hconn]
    exact steady_run requested settings factory actions
  let c : RFBClient (VNCDoToolClient P) := conn.client
  let size : ℕ × ℕ := (c.width, c.height)
  have hreads : Reads fb.format c.app := by
    rw [← hformat]
    exact (hsteady.able (InSession.of_armed hbetween.stage hbetween.armed)).2
  have hwaiting : Connection.Waiting size fb c :=
    ⟨⟨hbetween.stage, hbetween.aborted, rfl, rfl, hformat, hwidth, hheight⟩, hbetween.armed⟩
  rcases Connection.commits_update plays halloc hwaiting hreads hupdate [] with
    ⟨n, c₁, hplayed, hreaches⟩
  -- Up to the commit, the rectangles have painted what lands.
  have hkept : Kept c.app c₁.app := by
    rw [hplayed.app]
    exact kept_played rects c.app
  rcases @played_steps P size fb rects c.app hreads with ⟨pastes, hpastes, hsets⟩
  rw [← hplayed.app] at hpastes
  have hpositions : c₁.rectanglePos = rects.flatMap ServerRect.position := hplayed.rectanglePos
  have hsized : c₁.Sized := by
    unfold RFBClient.Sized
    rw [hplayed.decoding.width, hplayed.decoding.height]
    exact hsteady.sized
  have hslot : c₁.app.deferred = some d := hkept.deferred.trans hpending
  have hfresh : ¬ Completed c₁.app d.call := by
    rw [completed_of_outcomes hkept.outcomes]
    exact (hsteady.sound.waiting d hpending).2
  rcases (@ensures_doConnection P env c₁ d hsized hslot hfresh hplayed.rectangles).exists_run_ok with
    ⟨_, c₂, hdone, harmed, ⟨hstage, haborted, hcommitted, _⟩, hcommit⟩
  have haborted₂ : c₂.aborted = false := haborted.trans hplayed.decoding.aborted
  have hrun := hreaches c₂ hdone haborted₂
  rw [List.append_nil, ← hchunks] at hrun
  refine ⟨Connection.live c₂ [], hbetween.receives_iff runtime_tame hrun harmed, ?_, ?_⟩
  · exact ⟨hstage.trans hplayed.decoding.stage, haborted₂, harmed, rfl, rfl⟩
  have hpastes₂ : Pastes c.app c₂.app pastes := hcommitted.trans hpastes
  have hpainted : Painted c c₂ ↔ (scene size c.app).LandsSome rects :=
    (painted_iff hpastes₂).trans hsets
  change Completes d c c₂ ↔ _
  unfold Completes Accounted
  rw [hpainted]
  rw [hpositions] at hcommit
  by_cases huncounted : ∀ rect ∈ rects, rect.position = []
  -- Nothing is counted, nothing lands, and the update is requested again.
  · have hnone : ¬ (scene size c.app).LandsSome rects := by
      intro hlands
      rcases exists_position_of_landsSome hlands with ⟨rect, hmem, hposition⟩
      exact hposition (huncounted rect hmem)
    rw [if_pos (List.flatMap_eq_nil_iff.2 huncounted)] at hcommit
    have hrequest : ∃ log, c₂.log = log ++ [.write (RFBClient.wholeRequest c.width c.height false)] := by
      have hrequest := hcommit.request
      rw [hplayed.decoding.width, hplayed.decoding.height] at hrequest
      exact hrequest
    refine ⟨fun _ => Or.inl huncounted, fun _ => Or.inr ⟨hnone, ?_⟩⟩
    exact ⟨hcommit.committed.trans hkept.committed, hcommit.deferred, hrequest⟩
  -- The Deferred fires, so something has to land.
  · rw [if_neg fun hnil => huncounted (List.flatMap_eq_nil_iff.1 hnil)] at hcommit
    have hfired : Commits d c c₂ := hcommit.trans (congrArg (· ++ [d]) hkept.committed)
    constructor
    · rintro (⟨hlands, _⟩ | ⟨_, hrequests⟩)
      · exact Or.inr hlands
      · exact absurd hrequests hfired.not_rerequests
    · rintro (hnone | hlands)
      · exact absurd hnone huncounted
      · exact Or.inl ⟨hlands, hfired⟩

/-- A screen of one pixel. -/
def onePixel : Framebuffer where
  width := 1
  height := 1
  format := .rgbx8888

/-- A session with it, in which a refresh is pending. -/
def refreshing : List Action :=
  [.receive (versionLine ⟨3, 3⟩ ++ packBE 4 1), .turn,
    .receive (packBE 2 1 ++ packBE 2 1 ++ PixelFormat.rgbx8888.toBytes ++ packBE 4 0), .turn, .turn,
    .call (.refreshScreen false)]

def refreshed : Connection (VNCDoToolClient Pillow.canvas) :=
  refreshing.foldl (act Pillow.canvas Env.sample) (fresh Pillow.canvas none {} {})

def pixelUpdate : ServerMessage onePixel :=
  .framebufferUpdate [.raw ⟨0, 0, 1, 1⟩ [1, 2, 3, 4] (by decide) (by decide)] (by decide)

theorem refreshed_eq : refreshed =
    refreshing.foldl (act Pillow.canvas Env.sample) (fresh Pillow.canvas none {} {}) := rfl

theorem between_refreshed : refreshed.Between :=
  ⟨by decide +kernel, by decide +kernel, by decide +kernel, by decide +kernel, by decide +kernel⟩

theorem completes_iff_pixelUpdate :
    ∃ conn', (∀ q, refreshed.Receives (runtime Pillow.canvas Env.sample) [pixelUpdate.encode] q ↔
        q = conn') ∧ conn'.Between ∧
      (Completes ⟨0, .refresh⟩ refreshed.client conn'.client ↔
        Accounted (scene (refreshed.client.width, refreshed.client.height) refreshed.client.app)
          [@ServerRect.raw onePixel ⟨0, 0, 1, 1⟩ [1, 2, 3, 4] (by decide) (by decide)]) :=
  completes_iff refreshed_eq between_refreshed (by decide +kernel)
    (by decide +kernel) (by decide +kernel) (by decide +kernel) (fun _ _ => rfl) rfl
    (List.append_nil _)

def copyUpdate : ServerMessage onePixel :=
  .framebufferUpdate [.copyRect ⟨0, 0, 1, 1⟩ 0 0] (by decide)

/-- A CopyRect paints nothing, and completes the refresh all the same. -/
theorem not_completes_copyUpdate :
    ([.receive copyUpdate.encode, .turn, .turn, .turn, .turn].foldl (act Pillow.canvas Env.sample)
        refreshed).client.app.committed = [⟨0, .refresh⟩] ∧
      ¬ Completes ⟨0, .refresh⟩ refreshed.client
        ([.receive copyUpdate.encode, .turn, .turn, .turn, .turn].foldl
          (act Pillow.canvas Env.sample) refreshed).client := by
  refine ⟨by decide +kernel, ?_⟩
  have hnone : ([.receive copyUpdate.encode, .turn, .turn, .turn, .turn].foldl
      (act Pillow.canvas Env.sample) refreshed).client.app.pastes = [] :=
    List.length_eq_zero_iff.1 (by decide +kernel)
  have hbefore : refreshed.client.app.pastes = [] :=
    List.length_eq_zero_iff.1 (by decide +kernel)
  rintro (⟨⟨pastes, hpastes, paste, hmem, _⟩, _⟩ | ⟨_, hrequests⟩)
  · unfold Pastes at hpastes
    rw [hnone, hbefore, List.nil_append] at hpastes
    rw [← hpastes] at hmem
    exact absurd hmem List.not_mem_nil
  · exact absurd hrequests.committed (by decide +kernel)

end VNCDoToolClient

end Vncdotool
