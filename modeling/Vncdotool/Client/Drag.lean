import Vncdotool.Client.Pointer
import Vncdotool.Raster.Interpolation

/-!
# Drag — moving the pointer in steps

`mouseDrag` is a generator: it moves the pointer, yields the Deferred of a pause, and is resumed
when that fires.  A `Drag` is what it holds while it waits, and `Dragging` is the client together
with it.  Between two resumptions anything may happen that leaves the pointer alone.
-/

namespace Vncdotool

open Wire Streaming

namespace VNCDoToolClient

variable {P : Pillow}

/-! ## The method -/

/-- `range(0, stop, step)`. -/
def range (stop step : ℤ) : Except PyError (List ℤ) :=
  if step = 0 then
    .error .valueError
  else if 0 < step then
    .ok (Raster.multiples stop step)
  else
    .ok ((Raster.multiples (-stop) (-step)).map fun s => -s)

/-- The locals of a `mouseDrag` that waits, and what its loop has still to go through. -/
structure Drag where
  x : ℤ
  y : ℤ
  ox : ℤ
  oy : ℤ
  dx : ℤ
  dy : ℤ
  dmax : ℤ
  rest : List ℤ
  deriving DecidableEq, Repr

/-- From one pause to the next, or to the end.  In the loop `dmax` is positive. -/
def Drag.resume (d : Drag) : Py (VNCDoToolClient P) (Option Drag) :=
  match d.rest with
  | [] => do
      mouseMove d.x d.y
      pure none
  | s :: rest => do
      mouseMove (d.ox + d.dx * s / d.dmax) (d.oy + d.dy * s / d.dmax)
      pure (some { d with rest := rest })

/-- `mouseDrag(x, y, step)`, up to its first pause. -/
def mouseDrag (x y step : ℤ) : Py (VNCDoToolClient P) (Option Drag) := do
  let app := (← get).app
  let dx := x - app.x
  let dy := y - app.y
  let dmax := max |dx| |dy|
  let rest ← liftExcept (range dmax step)
  Drag.resume { x, y, ox := app.x, oy := app.y, dx, dy, dmax, rest }

/-! ## A drag and what happens around it -/

/-- A client, the drag it is in, what the drag has written, and what has ended it. -/
structure Dragging (P : Pillow) where
  client : RFBClient (VNCDoToolClient P)
  drag : Option Drag := none
  written : List Event := []
  raised : Option PyError := none

/-- Run the generator up to where it waits next.  An exception goes to the Deferred of the drag. -/
def Dragging.run (act : Py (VNCDoToolClient P) (Option Drag)) (r : Dragging P) : Dragging P :=
  match act r.client with
  | .ok drag c =>
      { r with
        client := c
        drag := drag
        written := r.written ++ c.log.drop r.client.log.length }
  | .error e c =>
      { client := c
        drag := none
        written := r.written ++ c.log.drop r.client.log.length
        raised := some e }

/-- The pause is over, or something else happened, which is no operation of the pointer. -/
inductive DragEvent (P : Pillow)
  | resume
  | elsewhere (f : RFBClient (VNCDoToolClient P) → RFBClient (VNCDoToolClient P))
      (hx : ∀ c, (f c).app.x = c.app.x) (hy : ∀ c, (f c).app.y = c.app.y)
      (hbuttons : ∀ c, (f c).app.buttons = c.app.buttons)

def Dragging.passes (r : Dragging P) : DragEvent P → Dragging P
  | .resume =>
      match r.drag with
      | some d => r.run d.resume
      | none => r
  | .elsewhere f _ _ _ => { r with client := f r.client }

/-- A drag from here to there, and the events after it. -/
def Dragging.after (c : RFBClient (VNCDoToolClient P)) (x y step : ℤ)
    (events : List (DragEvent P)) : Dragging P :=
  events.foldl Dragging.passes (({ client := c } : Dragging P).run (mouseDrag x y step))

/-- How many of the events end a pause. -/
def resumes : List (DragEvent P) → ℕ
  | [] => 0
  | .resume :: events => resumes events + 1
  | .elsewhere _ _ _ _ :: events => resumes events

/-! ## What is written -/

/-- A PointerEvent has room for this position and the mask. -/
def Carries (mask : ℕ) (p : ℤ × ℤ) : Prop :=
  mask < 2 ^ 8 ∧ RFBClient.Packs 2 p.1 ∧ RFBClient.Packs 2 p.2

/-- The events that tell of these positions. -/
def announced (mask : ℕ) (moves : List (ℤ × ℤ)) : List Event :=
  moves.map fun p => .write (pointerMessage p.1.toNat p.2.toNat mask)

/-- The drag has moved the pointer along an initial part of the path, and nowhere else.  It ends at
the end of the path, or where a message has no room for the next position. -/
structure Traces (mask : ℕ) (path moves rest : List (ℤ × ℤ)) (r : Dragging P) : Prop where
  split : path = moves ++ rest
  written : r.written = announced mask moves
  carried : ∀ p ∈ moves, Carries mask p
  arrives : r.drag = none → r.raised = none → rest = []
  refused : r.raised ≠ none → ∃ p later, rest = p :: later ∧ ¬ Carries mask p

/-! ## One move -/

/-- The positions a drag has still to go to. -/
def Drag.remaining (d : Drag) : List (ℤ × ℤ) :=
  d.rest.map (fun s => (d.ox + d.dx * s / d.dmax, d.oy + d.dy * s / d.dmax)) ++ [(d.x, d.y)]

section Moves

variable {c : RFBClient (VNCDoToolClient P)} {p : ℤ × ℤ}

theorem mouseMove_carried (h : Carries c.app.buttons p) :
    mouseMove p.1 p.2 c =
      .ok () { c with
        app := { c.app with x := p.1, y := p.2 }
        log := c.log ++ announced c.app.buttons [p] } :=
  @pointerEvent_written P p.1 p.2 c.app.buttons
    { c with app := { c.app with x := p.1, y := p.2 } } h.2.1 h.2.2 h.1

theorem mouseMove_refused (h : ¬ Carries c.app.buttons p) :
    mouseMove p.1 p.2 c =
      .error .structError { c with app := { c.app with x := p.1, y := p.2 } } :=
  @pointerEvent_refused P p.1 p.2 c.app.buttons
    { c with app := { c.app with x := p.1, y := p.2 } } h

/-- A resumption moves to the next position; after the last one the drag is over. -/
theorem Drag.resume_eq (d : Drag) :
    ∃ p, ∃ next : Option Drag, d.remaining = p :: (next.elim [] Drag.remaining) ∧
      (d.resume : Py (VNCDoToolClient P) (Option Drag)) =
        (mouseMove p.1 p.2 >>= fun _ => pure next) := by
  cases hrest : d.rest with
  | nil =>
      refine ⟨(d.x, d.y), none, ?_, ?_⟩
      · rw [remaining, hrest]
        rfl
      · rw [resume, hrest]
  | cons s rest =>
      refine ⟨(d.ox + d.dx * s / d.dmax, d.oy + d.dy * s / d.dmax), some { d with rest := rest },
        ?_, ?_⟩
      · rw [remaining, hrest]
        rfl
      · rw [resume, hrest]

end Moves

/-! ## One resumption -/

/-- While the drag waits, what remains of the path is what the drag has still to go to. -/
structure Underway (mask : ℕ) (path moves rest : List (ℤ × ℤ)) (r : Dragging P) : Prop
    extends Traces mask path moves rest r where
  buttons : r.client.app.buttons = mask
  waits : ∀ d, r.drag = some d → d.remaining = rest ∧ r.raised = none

/-- The positions to go to; none when the drag is over. -/
def Dragging.remaining (r : Dragging P) : List (ℤ × ℤ) :=
  r.drag.elim [] Drag.remaining

section Resumption

variable {mask : ℕ} {path moves rest : List (ℤ × ℤ)} {r : Dragging P} {d : Drag}

theorem announced_append (moves : List (ℤ × ℤ)) (p : ℤ × ℤ) :
    announced mask moves ++ announced mask [p] = announced mask (moves ++ [p]) :=
  List.map_append.symm

theorem Drag.remaining_ne_nil (d : Drag) : d.remaining ≠ [] := by
  intro hnil
  rw [remaining] at hnil
  exact List.cons_ne_nil _ _ (List.append_eq_nil_iff.1 hnil).2

/-- A resumption writes the next position, or raises because no message has room for it. -/
theorem run_resume (hsplit : path = moves ++ d.remaining)
    (hbuttons : r.client.app.buttons = mask) (hwritten : r.written = announced mask moves)
    (hcarried : ∀ p ∈ moves, Carries mask p) (hraised : r.raised = none) :
    ∃ moves' rest', Underway mask path moves' rest' (r.run d.resume) := by
  rcases d.resume_eq (P := P) with ⟨p, next, hremaining, hresume⟩
  rw [hremaining] at hsplit
  by_cases hroom : Carries mask p
  -- The position is assigned and written.
  · refine ⟨moves ++ [p], next.elim [] Drag.remaining, ?_⟩
    have hmove : d.resume r.client = .ok next { r.client with
        app := { r.client.app with x := p.1, y := p.2 }
        log := r.client.log ++ announced mask [p] } := by
      rw [hresume, ← hbuttons]
      exact run_bind_ok (mouseMove_carried (by rw [hbuttons]; exact hroom))
    have hrun : r.run d.resume =
        { r with
          client := { r.client with
            app := { r.client.app with x := p.1, y := p.2 }
            log := r.client.log ++ announced mask [p] }
          drag := next
          written := r.written ++ announced mask [p] } := by
      rw [Dragging.run, hmove]
      dsimp only
      rw [List.drop_left]
    rw [hrun]
    refine ⟨⟨?_, ?_, ?_, ?_, ?_⟩, hbuttons, ?_⟩
    · rw [hsplit, List.append_assoc]
      rfl
    · rw [hwritten, announced_append]
    · intro q hq
      rcases List.mem_append.1 hq with hbefore | hlast
      · exact hcarried q hbefore
      · rw [List.mem_singleton.1 hlast]
        exact hroom
    · intro hover _
      have hnext : next = none := hover
      rw [hnext]
      rfl
    · intro hne
      exact absurd hraised hne
    · intro d' hd'
      have hnext : next = some d' := hd'
      rw [hnext]
      exact ⟨rfl, hraised⟩
  -- The position is assigned, but `pack` raises, and the drag ends.
  · refine ⟨moves, p :: next.elim [] Drag.remaining, ?_⟩
    have hmove : d.resume r.client = .error .structError { r.client with
        app := { r.client.app with x := p.1, y := p.2 } } := by
      rw [hresume]
      exact run_bind_error (mouseMove_refused (by rw [hbuttons]; exact hroom))
    have hrun : r.run d.resume =
        { client := { r.client with app := { r.client.app with x := p.1, y := p.2 } }
          drag := none
          written := r.written
          raised := some .structError } := by
      rw [Dragging.run, hmove]
      dsimp only
      rw [List.drop_length, List.append_nil]
    rw [hrun]
    refine ⟨⟨hsplit, hwritten, hcarried, ?_, ?_⟩, hbuttons, ?_⟩
    · intro _ hnone
      exact absurd hnone (Option.some_ne_none _)
    · intro _
      exact ⟨p, _, rfl, hroom⟩
    · intro d' hd'
      exact absurd hd'.symm (Option.some_ne_none d')

/-- After a resumption one position less remains, and none when it raised. -/
theorem remaining_run_resume :
    (r.run d.resume).remaining.length ≤ d.remaining.length - 1 := by
  rcases d.resume_eq (P := P) with ⟨p, next, hremaining, hresume⟩
  rw [hremaining, List.length_cons, Nat.add_sub_cancel]
  by_cases hroom : Carries r.client.app.buttons p
  · rw [Dragging.run, hresume, run_bind_ok (mouseMove_carried hroom)]
    exact le_rfl
  · rw [Dragging.run, hresume, run_bind_error (mouseMove_refused hroom)]
    exact Nat.zero_le _

end Resumption

/-! ## Events -/

section Events

variable {mask : ℕ} {path : List (ℤ × ℤ)} {r : Dragging P}

/-- What one event preserves. -/
theorem Underway.passes {moves rest : List (ℤ × ℤ)} (h : Underway mask path moves rest r)
    (event : DragEvent P) : ∃ moves' rest', Underway mask path moves' rest' (r.passes event) := by
  cases event with
  | resume =>
      cases hdrag : r.drag with
      | none =>
          -- No pause is waited for.
          refine ⟨moves, rest, ?_⟩
          rw [Dragging.passes, hdrag]
          exact h
      | some d =>
          rcases h.waits d hdrag with ⟨hremaining, hraised⟩
          rw [Dragging.passes, hdrag]
          refine run_resume ?_ h.buttons h.written h.carried hraised
          rw [hremaining]
          exact h.split
  | elsewhere f _ _ hbuttons =>
      have hmask : (f r.client).app.buttons = mask := (hbuttons r.client).trans h.buttons
      exact ⟨moves, rest, ⟨h.split, h.written, h.carried, h.arrives, h.refused⟩, hmask, h.waits⟩

/-- What a whole run preserves. -/
theorem underway_foldl {moves rest : List (ℤ × ℤ)} (h : Underway mask path moves rest r)
    (events : List (DragEvent P)) :
    ∃ moves' rest', Underway mask path moves' rest' (events.foldl Dragging.passes r) := by
  induction events generalizing r moves rest with
  | nil => exact ⟨moves, rest, h⟩
  | cons event events ih =>
      rcases h.passes event with ⟨moves', rest', hnext⟩
      exact ih hnext

theorem remaining_foldl (events : List (DragEvent P)) :
    (events.foldl Dragging.passes r).remaining.length ≤ r.remaining.length - resumes events := by
  induction events generalizing r with
  | nil => exact le_rfl
  | cons event events ih =>
      rw [List.foldl_cons]
      cases event with
      | elsewhere f hx hy hbuttons => exact ih
      | resume =>
          have hone : (r.passes .resume).remaining.length ≤ r.remaining.length - 1 := by
            cases hdrag : r.drag with
            | none =>
                rw [Dragging.passes, hdrag]
                dsimp only
                rw [Dragging.remaining, hdrag]
                exact Nat.zero_le _
            | some d =>
                rw [Dragging.passes, hdrag]
                have hremaining : r.remaining = d.remaining := by
                  rw [Dragging.remaining, hdrag]
                  rfl
                rw [hremaining]
                exact remaining_run_resume
          have hlater := @ih (r.passes .resume)
          rw [resumes]
          omega

/-- The drag is over when no position remains. -/
theorem drag_eq_none_of_remaining (h : r.remaining.length = 0) : r.drag = none := by
  cases hdrag : r.drag with
  | none => rfl
  | some d =>
      rw [Dragging.remaining, hdrag] at h
      exact absurd (List.eq_nil_of_length_eq_zero h) d.remaining_ne_nil

end Events

/-! ## A whole drag -/

section Whole

variable {c : RFBClient (VNCDoToolClient P)} {x y step : ℤ}

/-- The path of a drag. -/
def dragPath (c : RFBClient (VNCDoToolClient P)) (x y step : ℤ) : List (ℤ × ℤ) :=
  Raster.path (c.app.x, c.app.y) (x, y) step

/-- The drag that `mouseDrag` is in before its first move. -/
theorem mouseDrag_eq (hstep : 1 ≤ step) :
    ∃ d : Drag, d.remaining = dragPath c x y step ∧ mouseDrag x y step c = d.resume c := by
  have hrange : range (max |x - c.app.x| |y - c.app.y|) step =
      .ok (Raster.multiples (max |x - c.app.x| |y - c.app.y|) step) := by
    rw [range, if_neg (by omega), if_pos (by omega)]
  refine ⟨{ x, y, ox := c.app.x, oy := c.app.y, dx := x - c.app.x, dy := y - c.app.y
            dmax := max |x - c.app.x| |y - c.app.y|
            rest := Raster.multiples (max |x - c.app.x| |y - c.app.y|) step }, ?_, ?_⟩
  · have htarget := @Raster.point_extent (c.app.x, c.app.y) (x, y)
    rw [dragPath, Raster.path, Raster.marks, List.map_append, List.map_singleton, htarget]
    rfl
  · unfold mouseDrag
    rw [run_get_bind, hrange]
    rfl

theorem dragging_after (hstep : 1 ≤ step) (events : List (DragEvent P)) :
    (∃ moves rest,
      Underway c.app.buttons (dragPath c x y step) moves rest (Dragging.after c x y step events)) ∧
    (Dragging.after c x y step events).remaining.length ≤
      (dragPath c x y step).length - 1 - resumes events := by
  rcases @mouseDrag_eq P c x y step hstep with ⟨d, hremaining, hresume⟩
  have hrun : ({ client := c } : Dragging P).run (mouseDrag x y step) =
      ({ client := c } : Dragging P).run d.resume := by
    rw [Dragging.run, Dragging.run, hresume]
  have hnothing (p : ℤ × ℤ) (hp : p ∈ ([] : List (ℤ × ℤ))) : Carries c.app.buttons p :=
    absurd hp List.not_mem_nil
  rw [Dragging.after, hrun]
  constructor
  · rcases @run_resume P c.app.buttons (dragPath c x y step) [] { client := c } d
      hremaining.symm rfl rfl hnothing rfl with ⟨moves, rest, hfirst⟩
    exact underway_foldl hfirst events
  · have hfirst := @remaining_run_resume P { client := c } d
    have hlater := @remaining_foldl P (({ client := c } : Dragging P).run d.resume) events
    rw [hremaining] at hfirst
    omega

/-- Between two numbers that a field has room for there is room for every number. -/
theorem packs_of_mem_uIcc {n : ℕ} {a b v : ℤ} (ha : RFBClient.Packs n a) (hb : RFBClient.Packs n b)
    (hv : v ∈ Set.uIcc a b) : RFBClient.Packs n v := by
  rcases Set.mem_uIcc.1 hv with ⟨hlow, hhigh⟩ | ⟨hlow, hhigh⟩
  · exact ⟨ha.1.trans hlow, lt_of_le_of_lt (Int.toNat_le_toNat hhigh) hb.2⟩
  · exact ⟨hb.1.trans hlow, lt_of_le_of_lt (Int.toNat_le_toNat hhigh) ha.2⟩

theorem carries_of_interpolates {mask : ℕ} {start target p : ℤ × ℤ} {path : List (ℤ × ℤ)}
    (h : Raster.Interpolates start target step path) (hstart : Carries mask start)
    (htarget : Carries mask target) (hp : p ∈ path) : Carries mask p := by
  rcases h.inside p hp with ⟨hfst, hsnd⟩
  exact ⟨hstart.1, packs_of_mem_uIcc hstart.2.1 htarget.2.1 hfst,
    packs_of_mem_uIcc hstart.2.2 htarget.2.2 hsnd⟩

/-- From any position to any other, a drag writes an initial part of a path that interpolates
between them.  Where a message has room for the two of them it writes all of it. -/
theorem mouseDrag_interpolates (c : RFBClient (VNCDoToolClient P)) (x y : ℤ) (hstep : 1 ≤ step) :
    ∃ path, Raster.Interpolates (c.app.x, c.app.y) (x, y) step path ∧
      ∀ events, ∃ moves rest,
        Traces c.app.buttons path moves rest (Dragging.after c x y step events) ∧
        (path.length ≤ 1 + resumes events → (Dragging.after c x y step events).drag = none) ∧
        (Carries c.app.buttons (c.app.x, c.app.y) → Carries c.app.buttons (x, y) →
          (Dragging.after c x y step events).raised = none ∧
            (path.length ≤ 1 + resumes events → moves = path)) := by
  have hpath := @Raster.interpolates_path (c.app.x, c.app.y) (x, y) step hstep
  refine ⟨dragPath c x y step, hpath, ?_⟩
  intro events
  rcases @dragging_after P c x y step hstep events with ⟨⟨moves, rest, htraces⟩, hremaining⟩
  have hover (henough : (dragPath c x y step).length ≤ 1 + resumes events) :
      (Dragging.after c x y step events).drag = none := by
    apply drag_eq_none_of_remaining
    omega
  refine ⟨moves, rest, htraces.toTraces, hover, ?_⟩
  intro hstart htarget
  have hraised : (Dragging.after c x y step events).raised = none := by
    by_contra hraised
    rcases htraces.refused hraised with ⟨p, later, hrest, hroom⟩
    refine hroom (carries_of_interpolates hpath hstart htarget ?_)
    have hmem : p ∈ moves ++ rest := by
      rw [hrest]
      exact List.mem_append_right _ List.mem_cons_self
    rw [← htraces.split] at hmem
    exact hmem
  refine ⟨hraised, ?_⟩
  intro henough
  have hsplit := htraces.split
  rw [htraces.arrives (hover henough) hraised, List.append_nil] at hsplit
  exact hsplit.symm

end Whole

/-- A client whose pointer is in the last column. -/
def lastColumn : RFBClient (VNCDoToolClient Pillow.canvas) :=
  { app := { x := 65535 } }

theorem mouseDrag_interpolates_backwards :
    ∃ path, Raster.Interpolates (65535, 0) (-3, 7) 2 path ∧
      ∀ events, ∃ moves rest,
        Traces 0 path moves rest (Dragging.after lastColumn (-3) 7 2 events) ∧
        (path.length ≤ 1 + resumes events →
          (Dragging.after lastColumn (-3) 7 2 events).drag = none) ∧
        (Carries 0 (65535, 0) → Carries 0 (-3, 7) →
          (Dragging.after lastColumn (-3) 7 2 events).raised = none ∧
            (path.length ≤ 1 + resumes events → moves = path)) :=
  mouseDrag_interpolates lastColumn (-3) 7 (by decide)

/-- Beyond the last column a drag does not get: the move to there raises. -/
theorem mouseDrag_offScreen :
    ¬ ∃ events path, Raster.Interpolates (65535, 0) (65536, 0) 1 path ∧
      (Dragging.after lastColumn 65536 0 1 events).written = announced 0 path := by
  rintro ⟨events, path, hpath, hwritten⟩
  rcases (@dragging_after _ lastColumn 65536 0 1 le_rfl events).1 with ⟨moves, rest, htraces⟩
  have hsplit : [((65535 : ℤ), (0 : ℤ)), (65536, 0)] = moves ++ rest := htraces.split
  have hlength : moves.length = path.length := by
    have hsame : announced 0 moves = announced 0 path := htraces.written.symm.trans hwritten
    have hcount := congrArg List.length hsame
    rw [announced, announced, List.length_map, List.length_map] at hcount
    exact hcount
  -- A path between different points has at least two of them.
  have htwo : 2 ≤ path.length := by
    have hstarts := hpath.starts
    have hends := hpath.ends
    rcases path with _ | ⟨p, _ | ⟨q, later⟩⟩
    · exact absurd hstarts (by decide)
    · have hp : p = (65535, 0) := Option.some.inj hstarts
      rw [hp] at hends
      exact absurd hends (by decide)
    · rw [List.length_cons, List.length_cons]
      exact Nat.le_add_left 2 _
  have hall := congrArg List.length hsplit
  rw [List.length_append, hlength] at hall
  have hrest : rest = [] := by
    apply List.eq_nil_of_length_eq_zero
    have hpair : [((65535 : ℤ), (0 : ℤ)), (65536, 0)].length = 2 := rfl
    omega
  rw [hrest, List.append_nil] at hsplit
  have hlast : ((65536 : ℤ), (0 : ℤ)) ∈ moves := by
    rw [← hsplit]
    decide
  have hcarried := htraces.carried _ hlast
  exact absurd hcarried.2.1 (by decide)

end VNCDoToolClient

end Vncdotool
