import Vncdotool.RFB.Likeness
import Vncdotool.RFB.Updates

/-!
# Chronicle — a client that remembers the updates it has committed

A history variable for the receive loop: beside the attributes of a subclass stand the updates that
have been committed so far, each with the attributes before and after its commit.  Nothing reads
them, so the client behaves as it did without (`Likens.chronicle`); they only grow (`Recalls`); and two
clients that are alike have alike histories (`Likens.chronicles`).  What a client was like in the
middle of a chunk, between two updates, can so be told from the state it is left in.
-/

namespace Vncdotool

open Wire Streaming

variable {σ σ' α : Type}

/-- A committed update: the positions it had noted, and the attributes before and after it. -/
structure Update (σ : Type) where
  rectangles : List Rect
  before : σ
  after : σ

/-- The attributes of a subclass, and the updates committed so far. -/
structure Chronicle (σ : Type) where
  app : σ
  updates : List (Update σ) := []

/-- The client without its memory. -/
def RFBClient.present (c : RFBClient (Chronicle σ)) : RFBClient σ :=
  { c with app := c.app.app }

/-- The client that remembers these updates. -/
def RFBClient.remembering (updates : List (Update σ)) (c : RFBClient σ) :
    RFBClient (Chronicle σ) :=
  { c with app := ⟨c.app, updates⟩ }

/-- The connection without its client's memory. -/
def Connection.present (conn : Connection (Chronicle σ)) : Connection σ :=
  ⟨conn.client.present, conn.packet, conn.raised⟩

/-- The connection, remembering from now on. -/
def Connection.remembering (conn : Connection σ) : Connection (Chronicle σ) :=
  ⟨conn.client.remembering [], conn.packet, conn.raised⟩

namespace Chronicle

/-- What the client does without its memory leaves the memory alone. -/
def lift (x : Py σ α) : Py (Chronicle σ) α := fun c =>
  match x c.present with
  | .ok a c' => .ok a (c'.remembering c.app.updates)
  | .error exc c' => .error exc (c'.remembering c.app.updates)

theorem finalState_lift (x : Py σ α) (c : RFBClient (Chronicle σ)) :
    finalState ((lift x).run c) = (finalState (x.run c.present)).remembering c.app.updates := by
  change finalState (lift x c) = (finalState (x c.present)).remembering c.app.updates
  unfold lift
  cases x c.present with
  | ok a d => rfl
  | error exc d => rfl

/-- A commit is noted, with the attributes that it found. -/
def note (before : σ) (cb : Callback) (r : Chronicle σ) : Chronicle σ :=
  match cb with
  | .commitUpdate rectangles => { r with updates := r.updates ++ [⟨rectangles, before, r.app⟩] }
  | _ => r

theorem app_note (before : σ) (cb : Callback) (r : Chronicle σ) : (r.note before cb).app = r.app := by
  cases cb with
  | commitUpdate rectangles => rfl
  | _ => rfl

theorem updates_note (before : σ) (cb : Callback) (r : Chronicle σ) :
    r.updates <+: (r.note before cb).updates := by
  cases cb with
  | commitUpdate rectangles => exact List.prefix_append _ _
  | _ => exact List.prefix_rfl

end Chronicle

/-- The callbacks of the client, each commit being noted. -/
def Runtime.chronicle (rt : Runtime σ) : Runtime (Chronicle σ) where
  env := rt.env
  override cb := do
    let c ← get
    Chronicle.lift (rt.override cb)
    modify fun c' => { c' with app := c'.app.note c.app.app cb }

section Calls

variable {rt : Runtime σ} {c : RFBClient (Chronicle σ)} {d : RFBClient σ} {cb : Callback}

/-- A callback that returns. -/
theorem override_chronicle_ok (h : rt.override cb c.present = .ok () d) :
    rt.chronicle.override cb c =
      .ok () { d with app := (⟨d.app, c.app.updates⟩ : Chronicle σ).note c.app.app cb } := by
  have hlift : Chronicle.lift (rt.override cb) c = .ok () (d.remembering c.app.updates) := by
    unfold Chronicle.lift
    rw [h]
  exact run_bind_ok (x := Chronicle.lift (rt.override cb)) hlift

/-- A callback that raises notes nothing. -/
theorem override_chronicle_error {exc : PyError} (h : rt.override cb c.present = .error exc d) :
    rt.chronicle.override cb c = .error exc (d.remembering c.app.updates) := by
  have hlift : Chronicle.lift (rt.override cb) c = .error exc (d.remembering c.app.updates) := by
    unfold Chronicle.lift
    rw [h]
  exact run_bind_error (x := Chronicle.lift (rt.override cb)) hlift

theorem call_chronicle_ok (h : rt.call cb c.present = .ok () d) :
    rt.chronicle.call cb c =
      .ok () { d with app := (⟨d.app, c.app.updates⟩ : Chronicle σ).note c.app.app cb } :=
  override_chronicle_ok (c := { c with log := c.log ++ [.callback cb] }) h

theorem call_chronicle_error {exc : PyError} (h : rt.call cb c.present = .error exc d) :
    rt.chronicle.call cb c = .error exc (d.remembering c.app.updates) :=
  override_chronicle_error (c := { c with log := c.log ++ [.callback cb] }) h

end Calls

/-! ## Likeness -/

section Likeness

variable {kind : Event → Bool} {S : σ → σ' → Prop} {rt : Runtime σ} {rt' : Runtime σ'}

/-- Updates of the same positions, found and left alike. -/
structure Update.Alike (S : σ → σ' → Prop) (u : Update σ) (u' : Update σ') : Prop where
  rectangles : u'.rectangles = u.rectangles
  before : S u.before u'.before
  after : S u.after u'.after

/-- Alike attributes with alike histories. -/
structure Chronicle.Alike (S : σ → σ' → Prop) (r : Chronicle σ) (r' : Chronicle σ') : Prop where
  app : S r.app r'.app
  updates : List.Forall₂ (Update.Alike S) r.updates r'.updates

/-- A client that remembers is like the one it would be without its memory. -/
theorem Likens.chronicle (h : Likens kind S rt rt') :
    Likens kind (fun r a' => S r.app a') rt.chronicle rt' where
  env := h.env
  call cb c c' hc := by
    have hcall := h.call cb c.present c' ⟨hc.bare, hc.app, hc.sized⟩
    cases hrun : rt.call cb c.present with
    | ok a d =>
        rw [call_chronicle_ok hrun]
        rw [hrun] at hcall
        cases hrun' : rt'.call cb c' with
        | error exc' d' =>
            rw [hrun'] at hcall
            exact hcall.elim
        | ok a' d' =>
            rw [hrun'] at hcall
            refine ⟨rfl, hcall.2.bare, ?_, hcall.2.sized⟩
            dsimp only
            rw [Chronicle.app_note]
            exact hcall.2.app
    | error exc d =>
        rw [call_chronicle_error hrun]
        rw [hrun] at hcall
        cases hrun' : rt'.call cb c' with
        | ok a' d' =>
            rw [hrun'] at hcall
            exact hcall.elim
        | error exc' d' =>
            rw [hrun'] at hcall
            exact ⟨hcall.1, hcall.2.bare, hcall.2.app, hcall.2.sized⟩

/-- The same commit is noted alike. -/
theorem Chronicle.Alike.note {a : σ} {a' : σ'} {r : Chronicle σ} {r' : Chronicle σ'}
    (h : Chronicle.Alike S r r') (hbefore : S a a') (cb : Callback) :
    Chronicle.Alike S (r.note a cb) (r'.note a' cb) := by
  cases cb with
  | commitUpdate rectangles =>
      exact ⟨h.app, List.rel_append h.updates (.cons ⟨rfl, hbefore, h.app⟩ .nil)⟩
  | _ => exact h

/-- Alike clients have alike histories. -/
theorem Likens.chronicles (h : Likens kind S rt rt') :
    Likens kind (Chronicle.Alike S) rt.chronicle rt'.chronicle where
  env := h.env
  call cb c c' hc := by
    have hcall := h.call cb c.present c'.present ⟨hc.bare, hc.app.app, hc.sized⟩
    cases hrun : rt.call cb c.present with
    | ok a d =>
        rw [call_chronicle_ok hrun]
        rw [hrun] at hcall
        cases hrun' : rt'.call cb c'.present with
        | error exc' d' =>
            rw [hrun'] at hcall
            exact hcall.elim
        | ok a' d' =>
            rw [call_chronicle_ok hrun']
            rw [hrun'] at hcall
            have hunnoted : Chronicle.Alike S ⟨d.app, c.app.updates⟩ ⟨d'.app, c'.app.updates⟩ :=
              ⟨hcall.2.app, hc.app.updates⟩
            exact ⟨rfl, hcall.2.bare, hunnoted.note hc.app.app cb, hcall.2.sized⟩
    | error exc d =>
        rw [call_chronicle_error hrun]
        rw [hrun] at hcall
        cases hrun' : rt'.call cb c'.present with
        | ok a' d' =>
            rw [hrun'] at hcall
            exact hcall.elim
        | error exc' d' =>
            rw [call_chronicle_error hrun']
            rw [hrun'] at hcall
            exact ⟨hcall.1, hcall.2.bare, ⟨hcall.2.app, hc.app.updates⟩, hcall.2.sized⟩

end Likeness

/-! ## The history only grows -/

section Growth

variable {rt : Runtime σ}

/-- From `c` to `c'` nothing was forgotten. -/
def Recalls (c c' : RFBClient (Chronicle σ)) : Prop :=
  c.app.updates <+: c'.app.updates

theorem keeps_recalls : Keeps (Recalls (σ := σ)) where
  refl _ := List.prefix_rfl
  trans _ _ _ := List.IsPrefix.trans
  write _ _ := List.prefix_rfl
  loseConnection _ := List.prefix_rfl
  state c c' _ happ _ := by
    unfold Recalls
    rw [happ]

theorem recalls_call (cb : Callback) : Respects Recalls (rt.chronicle.call cb) := by
  intro c
  change Recalls c (finalState (rt.chronicle.call cb c))
  cases hrun : rt.call cb c.present with
  | ok a d =>
      rw [call_chronicle_ok hrun]
      exact Chronicle.updates_note c.app.app cb ⟨d.app, c.app.updates⟩
  | error exc d =>
      rw [call_chronicle_error hrun]
      exact List.prefix_rfl

theorem maintains_recalls : Maintains rt.chronicle Recalls where
  toKeeps := keeps_recalls
  call c cb _ := recalls_call cb c

/-- A turn of the loop. -/
theorem recalls_iterate {conn conn' : Connection (Chronicle σ)}
    (h : conn.iterate rt.chronicle = some conn') : Recalls conn.client conn'.client := by
  refine maintains_recalls.iterate (fun cb _ => recalls_call cb) (fun c c' _ happ _ => ?_) h
  unfold Recalls
  rw [happ]

/-- The loop is left alone as it is without the memory. -/
theorem Runtime.Tame.chronicle (h : rt.Tame) : rt.chronicle.Tame := by
  intro cb c
  have hheld := h cb c.present
  unfold Ensures EStateM.run at hheld ⊢
  cases hrun : rt.override cb c.present with
  | ok a d =>
      rw [hrun] at hheld
      rw [override_chronicle_ok hrun]
      exact ⟨hheld.stage, hheld.armed, hheld.aborted, hheld.size⟩
  | error exc d =>
      rw [hrun] at hheld
      rw [override_chronicle_error hrun]
      exact ⟨hheld.stage, hheld.armed, hheld.aborted, hheld.size⟩

end Growth

/-! ## The history of a stream of messages -/

section Messages

open Connection

variable {rt : Runtime σ} {size : ℕ × ℕ} {fb : Framebuffer} {I : σ → Prop}
  {effect : ServerRect fb → σ → σ} {commit : List Rect → σ → σ}

/-- A rectangle is not remembered. -/
def Chronicle.playing (effect : ServerRect fb → σ → σ) (rect : ServerRect fb) (r : Chronicle σ) :
    Chronicle σ :=
  { r with app := effect rect r.app }

/-- A commit is remembered. -/
def Chronicle.committing (commit : List Rect → σ → σ) (rectangles : List Rect) (r : Chronicle σ) :
    Chronicle σ :=
  (⟨commit rectangles r.app, r.updates⟩ : Chronicle σ).note r.app (.commitUpdate rectangles)

theorem note_of_mem_denote {rect : ServerRect fb} {cb : Callback} (hcb : cb ∈ rect.denote)
    (before : σ) (r : Chronicle σ) : r.note before cb = r := by
  cases rect with
  | qemuExtendedKeyEvent rect => exact absurd hcb List.not_mem_nil
  | _ =>
      rw [List.mem_singleton.1 hcb]
      rfl

theorem note_of_notifies {cb : Callback} (hcb : Notifies cb) (before : σ) (r : Chronicle σ) :
    r.note before cb = r := by
  cases cb with
  | commitUpdate rectangles => exact hcb.elim
  | _ => rfl

/-- What a class of clients does with its callbacks, it does with a memory beside it. -/
theorem Connection.Absorbs.chronicle (h : Absorbs rt size fb I effect commit) :
    Absorbs rt.chronicle size fb (fun r => I r.app) (Chronicle.playing effect)
      (Chronicle.committing commit) where
  begins c := override_chronicle_ok (h.begins c.present)
  plays rect c hdecoding hI cb hcb := by
    have hrun := h.plays rect c.present
      ⟨hdecoding.stage, hdecoding.aborted, hdecoding.width, hdecoding.height, hdecoding.format,
        hdecoding.bound⟩ hI cb hcb
    have hoverride := override_chronicle_ok hrun
    rw [note_of_mem_denote hcb] at hoverride
    exact hoverride
  silent rect r hsilent := by
    unfold Chronicle.playing
    rw [h.silent rect r.app hsilent]
  keeps rect r hI := h.keeps rect r.app hI
  notifies cb hcb c := by
    have hoverride := override_chronicle_ok (h.notifies cb hcb c.present)
    rw [note_of_notifies hcb] at hoverride
    exact hoverride
  commits rectangles c hdecoding hI :=
    override_chronicle_ok (h.commits rectangles c.present
      ⟨hdecoding.stage, hdecoding.aborted, hdecoding.width, hdecoding.height, hdecoding.format,
        hdecoding.bound⟩ hI)
  committed rectangles r hI := h.committed rectangles r.app hI

end Messages

end Vncdotool
