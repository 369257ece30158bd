import Vncdotool.Client.Operations

/-!
# ModeCache — the mode that is looked up once for each rectangle

`_rawModeFor` notes which object it was asked about before it asks `raw_mode`.  When that raises,
the object stays noted beside a mode that is not its own, and is answered with it the next time.
Objects are numbered, since the cache compares them by identity.
-/

namespace Vncdotool

open Streaming

namespace PixelFormat

/-- `raw_mode(pixel_format)`, as a caller sees it. -/
def rawModeAnswer (pf : PixelFormat) : Except PyError (Option RawMode) :=
  match pf.rawMode with
  | .ok mode => .ok (some mode)
  | .error _ => .error .unsupportedPixelFormat

theorem rawModeAnswer_ok {pf : PixelFormat} {mode : RawMode} (h : pf.rawMode = .ok mode) :
    pf.rawModeAnswer = .ok (some mode) := by
  unfold rawModeAnswer
  rw [h]

theorem rawModeAnswer_error {pf : PixelFormat} {exc : UnsupportedPixelFormat}
    (h : pf.rawMode = .error exc) : pf.rawModeAnswer = .error .unsupportedPixelFormat := by
  unfold rawModeAnswer
  rw [h]

end PixelFormat

namespace VNCDoToolClient

variable {P : Pillow} (objects : ℕ → PixelFormat)

/-! ## Calls -/

/-- How a call ends. -/
def outcome {ε σ α : Type} : EStateM.Result ε σ α → Except ε α
  | .ok a _ => .ok a
  | .error e _ => .error e

/-- What the calls of `_rawModeFor` with these objects answer, one after the other. -/
def answers : RFBClient (VNCDoToolClient P) → List ℕ → List (Except PyError (Option RawMode))
  | _, [] => []
  | c, id :: ids =>
      let result := rawModeFor id (objects id) c
      outcome result :: answers (finalState result) ids

/-- The object asked about last is noted, with its mode if it has one. -/
structure Noted (last : ℕ) (c : RFBClient (VNCDoToolClient P)) : Prop where
  rawModeFormat : c.app.rawModeFormat = some last
  rawMode : ∀ mode, (objects last).rawMode = .ok mode → c.app.rawMode = some mode

variable {objects} {c : RFBClient (VNCDoToolClient P)} {id last : ℕ}

/-- An object that is not noted is looked up, and noted whatever comes of it. -/
theorem rawModeFor_other (h : c.app.rawModeFormat ≠ some id) :
    outcome (rawModeFor id (objects id) c) = (objects id).rawModeAnswer ∧
      Noted objects id (finalState (rawModeFor id (objects id) c)) := by
  let noted : RFBClient (VNCDoToolClient P) :=
    { c with app := { c.app with rawModeFormat := some id } }
  cases hmode : (objects id).rawMode with
  | ok mode =>
      let cached : RFBClient (VNCDoToolClient P) :=
        { noted with app := { noted.app with rawMode := some mode } }
      have hrun : rawModeFor id (objects id) c = .ok (some mode) cached := by
        unfold rawModeFor
        rw [run_get_bind, if_pos h, hmode]
        rfl
      rw [hrun]
      refine ⟨(PixelFormat.rawModeAnswer_ok hmode).symm, rfl, ?_⟩
      intro mode' hmode'
      have hsame : mode = mode' := Except.ok.inj (hmode.symm.trans hmode')
      exact congrArg some hsame
  | error exc =>
      have hrun : rawModeFor id (objects id) c = .error .unsupportedPixelFormat noted := by
        unfold rawModeFor
        rw [run_get_bind, if_pos h, hmode]
        rfl
      rw [hrun]
      refine ⟨(PixelFormat.rawModeAnswer_error hmode).symm, rfl, ?_⟩
      intro mode hmode'
      exact absurd (hmode.symm.trans hmode') (by simp)

/-- The noted object is answered with what is cached. -/
theorem rawModeFor_same (h : c.app.rawModeFormat = some id) :
    rawModeFor id (objects id) c = .ok c.app.rawMode c := by
  unfold rawModeFor
  rw [run_get_bind, if_neg (not_not.2 h)]
  rfl

/-- From then on the answers are right as long as no object without a mode is asked about twice in
a row. -/
theorem Noted.answers_iff (h : Noted objects last c) (ids : List ℕ) :
    answers objects c ids = ids.map (fun id => (objects id).rawModeAnswer) ↔
      (last :: ids).IsChain fun a b => a = b → (objects b).rawMode.isOk = true := by
  induction ids generalizing c last with
  | nil => exact iff_of_true rfl (List.isChain_singleton _)
  | cons id ids ih =>
      rw [answers, List.map_cons, List.cons.injEq, List.isChain_cons_cons]
      by_cases hsame : last = id
      · subst hsame
        have hrun := @rawModeFor_same _ objects _ _ h.rawModeFormat
        rw [hrun]
        refine and_congr ?_ (ih h)
        cases hmode : (objects last).rawMode with
        | ok mode =>
            refine iff_of_true ?_ fun _ => rfl
            rw [PixelFormat.rawModeAnswer_ok hmode]
            exact congrArg Except.ok (h.rawMode mode hmode)
        | error exc =>
            refine iff_of_false ?_ fun hok => absurd (hok rfl) (by simp [Except.isOk, Except.toBool])
            rw [PixelFormat.rawModeAnswer_error hmode]
            exact fun heq => absurd heq (by simp [outcome])
      · have hother : c.app.rawModeFormat ≠ some id := by
          intro heq
          exact hsame (Option.some.inj (h.rawModeFormat.symm.trans heq))
        rcases @rawModeFor_other _ objects _ _ hother with ⟨hanswer, hnoted⟩
        refine and_congr ?_ (ih hnoted)
        exact iff_of_true hanswer fun heq => absurd heq hsame

/-- On a client that has not looked up a mode yet, every call of `_rawModeFor` does what `raw_mode`
does on its argument exactly when no object without a mode is asked about twice in a row. -/
theorem rawModeFor_transparent_iff (objects : ℕ → PixelFormat) (c : RFBClient (VNCDoToolClient P))
    (hfresh : c.app.rawModeFormat = none) (ids : List ℕ) :
    answers objects c ids = ids.map (fun id => (objects id).rawModeAnswer) ↔
      ids.IsChain fun a b => a = b → (objects b).rawMode.isOk = true := by
  cases ids with
  | nil => exact iff_of_true rfl List.isChain_nil
  | cons id ids =>
      have hother : c.app.rawModeFormat ≠ some id := by
        rw [hfresh]
        exact (Option.some_ne_none id).symm
      rcases @rawModeFor_other _ objects _ _ hother with ⟨hanswer, hnoted⟩
      rw [answers, List.map_cons, List.cons.injEq]
      exact (and_iff_right hanswer).trans (hnoted.answers_iff ids)

/-- An object with a mode, asked about for two rectangles in a row. -/
theorem rawModeFor_transparent_iff_twice :
    (answers (fun _ => PixelFormat.rgb565) (fresh Pillow.canvas none {} {}).client [4, 4] =
        [4, 4].map fun _ => PixelFormat.rgb565.rawModeAnswer) ↔
      [4, 4].IsChain fun a b => a = b → PixelFormat.rgb565.rawMode.isOk = true :=
  rawModeFor_transparent_iff (fun _ => PixelFormat.rgb565)
    (fresh Pillow.canvas none {} {}).client rfl [4, 4]

/-- Colour-mapped pixels have no mode, and the second time that is not noticed. -/
theorem not_transparent_twice :
    ¬ ∀ (objects : ℕ → PixelFormat) (ids : List ℕ),
      answers objects (fresh Pillow.canvas none {} {}).client ids =
        ids.map fun id => (objects id).rawModeAnswer := by
  intro hclaim
  have htwice := hclaim (fun _ => { truecolor := false }) [0, 0]
  have hsecond := congrArg (fun results => results[1]?) htwice
  exact absurd hsecond (by decide)

end VNCDoToolClient

end Vncdotool
