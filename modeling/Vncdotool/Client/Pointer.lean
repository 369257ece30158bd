import Mathlib.Data.Set.Image
import Vncdotool.Client.VNCDoToolClient
import Vncdotool.Wire.BitFields

/-!
# Pointer — moving the pointer and pressing its buttons

`mouseMove`, `mouseDown`, `mouseUp` and `mousePress` store the position or the mask of the buttons
and then pack them into a message, and packing raises where a field has no room.  What the calls
are for is told by a `Pointer`: a position, and the set of the buttons that are pressed.  The client
follows it for as long as it stores nothing that cannot be packed; the first such call leaves behind
what it stored.
-/

namespace Vncdotool

open Wire Streaming

namespace VNCDoToolClient

variable {P : Pillow}

/-! ## The methods -/

/-- `1 << n`; a negative shift count raises. -/
def shiftOne (n : ℤ) : Except PyError ℕ :=
  if n < 0 then .error .valueError else .ok (1 <<< n.toNat)

def mouseMove (x y : ℤ) : Py (VNCDoToolClient P) Unit := do
  modifyApp fun app => { app with x := x, y := y }
  RFBClient.pointerEvent x y (← get).app.buttons

def mouseDown (button : ℤ) : Py (VNCDoToolClient P) Unit := do
  let bit ← liftExcept (shiftOne (button - 1))
  modifyApp fun app => { app with buttons := app.buttons ||| bit }
  let app := (← get).app
  RFBClient.pointerEvent app.x app.y app.buttons

def mouseUp (button : ℤ) : Py (VNCDoToolClient P) Unit := do
  let bit ← liftExcept (shiftOne (button - 1))
  modifyApp fun app => { app with buttons := app.buttons.ldiff bit }
  let app := (← get).app
  RFBClient.pointerEvent app.x app.y app.buttons

def mousePress (button : ℤ) : Py (VNCDoToolClient P) Unit := do
  mouseDown button
  mouseUp button

/-- A call of one of the methods. -/
inductive PointerCall
  | mouseMove (x y : ℤ)
  | mouseDown (button : ℤ)
  | mouseUp (button : ℤ)
  | mousePress (button : ℤ)
  deriving DecidableEq, Repr

def PointerCall.run : PointerCall → Py (VNCDoToolClient P) Unit
  | .mouseMove x y => VNCDoToolClient.mouseMove x y
  | .mouseDown button => VNCDoToolClient.mouseDown button
  | .mouseUp button => VNCDoToolClient.mouseUp button
  | .mousePress button => VNCDoToolClient.mousePress button

/-! ## What they are for -/

/-- A pointer: where it is, and its buttons that are pressed and not yet released. -/
@[ext] structure Pointer where
  x : ℤ := 0
  y : ℤ := 0
  held : Set ℤ := ∅

namespace Pointer

def moveTo (p : Pointer) (x y : ℤ) : Pointer :=
  { p with x := x, y := y }

def press (p : Pointer) (button : ℤ) : Pointer :=
  { p with held := insert button p.held }

def release (p : Pointer) (button : ℤ) : Pointer :=
  { p with held := p.held \ {button} }

end Pointer

namespace PointerCall

/-- The pointer as each event of a successful call tells it. -/
def events (p : Pointer) : PointerCall → List Pointer
  | mouseMove x y => [p.moveTo x y]
  | mouseDown button => [p.press button]
  | mouseUp button => [p.release button]
  | mousePress button => [p.press button, (p.press button).release button]

/-- The pointer after a successful call. -/
def after (p : Pointer) : PointerCall → Pointer
  | mouseMove x y => p.moveTo x y
  | mouseDown button => p.press button
  | mouseUp button => p.release button
  | mousePress button => (p.press button).release button

/-- A message can tell what the call asks for: a position of two octets each, or one of 8 buttons. -/
def Representable : PointerCall → Prop
  | mouseMove x y => RFBClient.Packs 2 x ∧ RFBClient.Packs 2 y
  | mouseDown button => 1 ≤ button ∧ button ≤ 8
  | mouseUp button => 1 ≤ button ∧ button ≤ 8
  | mousePress button => 1 ≤ button ∧ button ≤ 8

/-- The call stores nothing that a message has no room for: no coordinate outside 16 bits, and no
button from 9 on that is pressed.  A button that is below 1 raises before anything is stored, and
one that is released leaves the mask as narrow as it was. -/
def Fits : PointerCall → Prop
  | mouseMove x y => RFBClient.Packs 2 x ∧ RFBClient.Packs 2 y
  | mouseDown button => button ≤ 8
  | mouseUp _ => True
  | mousePress button => button ≤ 8

end PointerCall

/-- The buttons of a mask, which are numbered from 1. -/
def maskButtons (mask : ℕ) : Set ℤ :=
  (fun i : ℕ => (i : ℤ) + 1) '' setBits mask

/-- The PointerEvent that carries this pointer. -/
structure Pointer.CarriedBy (p : Pointer) (message : Bytes) : Prop where
  length : message.length = 6
  type : field message 0 1 = MsgC2S.value .pointerEvent
  held : p.held = maskButtons (field message 1 1)
  x : p.x = field message 2 2
  y : p.y = field message 4 2

/-- From one state to the next, the events that carry these pointers were written. -/
def Announces (pointers : List Pointer) (c c' : RFBClient (VNCDoToolClient P)) : Prop :=
  ∃ messages, List.Forall₂ Pointer.CarriedBy pointers messages ∧
    c'.log = c.log ++ messages.map Event.write

/-- Nothing was written, and the attributes of the pointer are what they were. -/
structure Untouched (c c' : RFBClient (VNCDoToolClient P)) : Prop where
  log : c'.log = c.log
  x : c'.app.x = c.app.x
  y : c'.app.y = c.app.y
  buttons : c'.app.buttons = c.app.buttons

/-- All through the calls, a call that returns has written the events that tell the pointer it leads
to, and one that raises asked for what a message cannot tell and has done nothing. -/
def AllOrNothing : Pointer → List PointerCall → RFBClient (VNCDoToolClient P) → Prop
  | _, [], _ => True
  | p, call :: calls, c =>
      Ensures call.run c
        (fun _ c' => Announces (call.events p) c c' ∧ AllOrNothing (call.after p) calls c')
        fun _ c' => ¬ call.Representable ∧ Untouched c c' ∧ AllOrNothing p calls c'

/-! ## Masks -/

theorem maskButtons_press {button : ℤ} (h : 1 ≤ button) (mask : ℕ) :
    maskButtons (mask ||| 1 <<< (button - 1).toNat) = insert button (maskButtons mask) := by
  have hbutton : ((button - 1).toNat : ℤ) + 1 = button := by omega
  calc maskButtons (mask ||| 1 <<< (button - 1).toNat)
      = (fun i : ℕ => (i : ℤ) + 1) '' insert (button - 1).toNat (setBits mask) := by
        rw [maskButtons, Nat.one_shiftLeft, setBits_or_two_pow]
    _ = insert (((button - 1).toNat : ℤ) + 1) (maskButtons mask) := Set.image_insert_eq
    _ = insert button (maskButtons mask) := by rw [hbutton]

theorem maskButtons_release {button : ℤ} (h : 1 ≤ button) (mask : ℕ) :
    maskButtons (mask.ldiff (1 <<< (button - 1).toNat)) = maskButtons mask \ {button} := by
  have hbutton : ((button - 1).toNat : ℤ) + 1 = button := by omega
  have hinjective : Function.Injective fun i : ℕ => (i : ℤ) + 1 := by
    intro i j hij
    exact Int.ofNat_inj.1 (add_right_cancel hij)
  calc maskButtons (mask.ldiff (1 <<< (button - 1).toNat))
      = (fun i : ℕ => (i : ℤ) + 1) '' (setBits mask \ {(button - 1).toNat}) := by
        rw [maskButtons, Nat.one_shiftLeft, setBits_ldiff_two_pow]
    _ = maskButtons mask \ {((button - 1).toNat : ℤ) + 1} := by
        rw [Set.image_sdiff hinjective, Set.image_singleton]
        rfl
    _ = maskButtons mask \ {button} := by rw [hbutton]

/-- A mask of one octet has room for the first eight buttons. -/
theorem or_shiftOne_lt_iff {button : ℤ} (h : 1 ≤ button) {mask : ℕ} (hmask : mask < 2 ^ 8) :
    mask ||| 1 <<< (button - 1).toNat < 2 ^ 8 ↔ button ≤ 8 := by
  rw [lt_two_pow_iff_setBits, Nat.one_shiftLeft, setBits_or_two_pow]
  constructor
  · intro hall
    have hlt := hall _ (Set.mem_insert _ _)
    omega
  · intro hle i hi
    rcases hi with rfl | hi
    · omega
    · exact lt_two_pow_iff_setBits.1 hmask i hi

theorem ldiff_lt {mask : ℕ} (bit : ℕ) (hmask : mask < 2 ^ 8) : mask.ldiff bit < 2 ^ 8 := by
  refine Nat.lt_pow_two_of_testBit _ fun i hi => ?_
  have hbit : mask.testBit i = false :=
    Nat.testBit_lt_two_pow (lt_of_lt_of_le hmask (Nat.pow_le_pow_right (by decide) hi))
  rw [Nat.testBit_ldiff, hbit, Bool.false_and]

/-! ## One event -/

section Events

variable {x y : ℤ} {mask : ℕ} {c : RFBClient (VNCDoToolClient P)}

/-- The message for a pointer. -/
def pointerMessage (x y mask : ℕ) : Bytes :=
  packBE 1 (MsgC2S.value .pointerEvent) ++ packBE 1 mask ++ packBE 2 x ++ packBE 2 y

theorem carriedBy_pointerMessage {p : Pointer} (hx : RFBClient.Packs 2 p.x)
    (hy : RFBClient.Packs 2 p.y) (hmask : mask < 2 ^ 8) (hheld : p.held = maskButtons mask) :
    p.CarriedBy (pointerMessage p.x.toNat p.y.toNat mask) := by
  have htype := field_pack [] (packBE 1 mask ++ packBE 2 p.x.toNat ++ packBE 2 p.y.toNat) rfl
    (by decide : MsgC2S.value .pointerEvent < 256 ^ 1)
  have hmaskField := field_pack (packBE 1 (MsgC2S.value .pointerEvent))
    (packBE 2 p.x.toNat ++ packBE 2 p.y.toNat) (length_packBE 1 _)
    (by simpa using hmask : mask < 256 ^ 1)
  have hxField := field_pack (packBE 1 (MsgC2S.value .pointerEvent) ++ packBE 1 mask)
    (packBE 2 p.y.toNat) rfl hx.2
  have hyField := field_pack
    (packBE 1 (MsgC2S.value .pointerEvent) ++ packBE 1 mask ++ packBE 2 p.x.toNat) [] rfl hy.2
  rw [List.append_nil] at hyField
  have hassoc : pointerMessage p.x.toNat p.y.toNat mask =
      packBE 1 (MsgC2S.value .pointerEvent) ++ packBE 1 mask ++
        (packBE 2 p.x.toNat ++ packBE 2 p.y.toNat) := List.append_assoc _ _ _
  refine ⟨rfl, ?_, ?_, ?_, ?_⟩
  · rw [hassoc, List.append_assoc]
    exact htype
  · rw [hassoc, hmaskField]
    exact hheld
  · exact (Int.toNat_of_nonneg hx.1).symm.trans (congrArg Nat.cast hxField.symm)
  · exact (Int.toNat_of_nonneg hy.1).symm.trans (congrArg Nat.cast hyField.symm)

theorem pointerEvent_written (hx : RFBClient.Packs 2 x) (hy : RFBClient.Packs 2 y)
    (hmask : mask < 2 ^ 8) :
    RFBClient.pointerEvent x y mask c =
      .ok () { c with log := c.log ++ [.write (pointerMessage x.toNat y.toNat mask)] } := by
  have hpacks : RFBClient.Packs 1 (mask : ℤ) := ⟨Int.natCast_nonneg _, by simpa using hmask⟩
  rw [RFBClient.pointerEvent, if_pos ⟨hpacks, hx, hy⟩]
  rfl

theorem pointerEvent_refused
    (h : ¬ (mask < 2 ^ 8 ∧ RFBClient.Packs 2 x ∧ RFBClient.Packs 2 y)) :
    RFBClient.pointerEvent x y mask c = .error .structError c := by
  rw [RFBClient.pointerEvent, if_neg fun hpacks => h ⟨by simpa using hpacks.1.2, hpacks.2⟩]
  rfl

end Events

/-! ## One call -/

/-- The client follows the pointer, and what it has stored can be packed. -/
structure Follows (p : Pointer) (c : RFBClient (VNCDoToolClient P)) : Prop where
  x : c.app.x = p.x
  y : c.app.y = p.y
  held : p.held = maskButtons c.app.buttons
  packsX : RFBClient.Packs 2 p.x
  packsY : RFBClient.Packs 2 p.y
  packsMask : c.app.buttons < 2 ^ 8

section Calls

variable {p p' : Pointer} {c c' : RFBClient (VNCDoToolClient P)} {x y button : ℤ}

/-- A client in which nothing of the pointer has changed follows it still. -/
theorem Follows.untouched (h : Follows p c) (hsame : Untouched c c') : Follows p c' where
  x := hsame.x.trans h.x
  y := hsame.y.trans h.y
  held := by rw [hsame.buttons]; exact h.held
  packsX := h.packsX
  packsY := h.packsY
  packsMask := by rw [hsame.buttons]; exact h.packsMask

/-- A client that has stored the pointer announces it, and goes on following it. -/
theorem Follows.announces (h : Follows p c) :
    Ensures (RFBClient.pointerEvent c.app.x c.app.y c.app.buttons) c
      (fun _ c' => Announces [p] c c' ∧ Follows p c') fun _ _ => False := by
  have hx : RFBClient.Packs 2 c.app.x := by rw [h.x]; exact h.packsX
  have hy : RFBClient.Packs 2 c.app.y := by rw [h.y]; exact h.packsY
  refine (ensures_of_run_ok (pointerEvent_written hx hy h.packsMask)).2 ⟨?_, ?_⟩
  · rw [h.x, h.y]
    have hcarried := carriedBy_pointerMessage h.packsX h.packsY h.packsMask h.held
    exact ⟨[_], List.Forall₂.cons hcarried List.Forall₂.nil, rfl⟩
  · exact ⟨h.x, h.y, h.held, h.packsX, h.packsY, h.packsMask⟩

/-- What is written after something was stored is written from the state before it as well. -/
theorem Announces.of_log {pointers : List Pointer} {c₀ : RFBClient (VNCDoToolClient P)}
    (h : Announces pointers c c') (hlog : c.log = c₀.log) : Announces pointers c₀ c' := by
  rcases h with ⟨messages, hcarried, hwritten⟩
  exact ⟨messages, hcarried, by rw [hwritten, hlog]⟩

theorem Announces.append {before later : List Pointer} {c₀ : RFBClient (VNCDoToolClient P)}
    (h : Announces before c₀ c) (h' : Announces later c c') : Announces (before ++ later) c₀ c' := by
  rcases h with ⟨messages, hcarried, hwritten⟩
  rcases h' with ⟨messages', hcarried', hwritten'⟩
  refine ⟨messages ++ messages', List.rel_append hcarried hcarried', ?_⟩
  rw [hwritten', hwritten, List.map_append, List.append_assoc]

theorem mouseMove_follows (h : Follows p c) (hx : RFBClient.Packs 2 x)
    (hy : RFBClient.Packs 2 y) :
    Ensures (mouseMove x y) c
      (fun _ c' => Announces [p.moveTo x y] c c' ∧ Follows (p.moveTo x y) c')
      fun _ _ => False := by
  have hstored : Follows (p.moveTo x y) { c with app := { c.app with x := x, y := y } } :=
    ⟨rfl, rfl, h.held, hx, hy, h.packsMask⟩
  have hsent := hstored.announces
  apply Ensures.mono hsent
  · intro _ c' hc'
    exact ⟨hc'.1.of_log rfl, hc'.2⟩
  · intro _ _ hfalse
    exact hfalse

theorem mouseDown_follows (h : Follows p c) (hlow : 1 ≤ button) (hhigh : button ≤ 8) :
    Ensures (mouseDown button) c
      (fun _ c' => Announces [p.press button] c c' ∧ Follows (p.press button) c')
      fun _ _ => False := by
  have hbit : shiftOne (button - 1) = .ok (1 <<< (button - 1).toNat) :=
    if_neg (by omega)
  have hheld : insert button p.held =
      maskButtons (c.app.buttons ||| 1 <<< (button - 1).toNat) := by
    rw [maskButtons_press hlow, h.held]
  have hroom : c.app.buttons ||| 1 <<< (button - 1).toNat < 2 ^ 8 :=
    (or_shiftOne_lt_iff hlow h.packsMask).2 hhigh
  have hstored : Follows (p.press button)
      { c with app := { c.app with buttons := c.app.buttons ||| 1 <<< (button - 1).toNat } } :=
    ⟨h.x, h.y, hheld, h.packsX, h.packsY, hroom⟩
  have hsent := hstored.announces
  unfold mouseDown
  rw [hbit]
  apply Ensures.mono hsent
  · intro _ c' hc'
    exact ⟨hc'.1.of_log rfl, hc'.2⟩
  · intro _ _ hfalse
    exact hfalse

theorem mouseUp_follows (h : Follows p c) (hlow : 1 ≤ button) :
    Ensures (mouseUp button) c
      (fun _ c' => Announces [p.release button] c c' ∧ Follows (p.release button) c')
      fun _ _ => False := by
  have hbit : shiftOne (button - 1) = .ok (1 <<< (button - 1).toNat) :=
    if_neg (by omega)
  have hheld : p.held \ {button} =
      maskButtons (c.app.buttons.ldiff (1 <<< (button - 1).toNat)) := by
    rw [maskButtons_release hlow, h.held]
  have hstored : Follows (p.release button)
      { c with app := { c.app with buttons := c.app.buttons.ldiff (1 <<< (button - 1).toNat) } } :=
    ⟨h.x, h.y, hheld, h.packsX, h.packsY, ldiff_lt _ h.packsMask⟩
  have hsent := hstored.announces
  unfold mouseUp
  rw [hbit]
  apply Ensures.mono hsent
  · intro _ c' hc'
    exact ⟨hc'.1.of_log rfl, hc'.2⟩
  · intro _ _ hfalse
    exact hfalse

theorem mousePress_follows (h : Follows p c) (hlow : 1 ≤ button) (hhigh : button ≤ 8) :
    Ensures (mousePress button) c
      (fun _ c' => Announces [p.press button, (p.press button).release button] c c' ∧
        Follows ((p.press button).release button) c')
      fun _ _ => False := by
  unfold mousePress
  apply ensures_bind.2
  apply Ensures.mono (mouseDown_follows h hlow hhigh)
  · intro _ c₁ hdown
    apply Ensures.mono (mouseUp_follows hdown.2 hlow)
    · intro _ c₂ hup
      exact ⟨hdown.1.append hup.1, hup.2⟩
    · intro _ _ hfalse
      exact hfalse
  · intro _ _ hfalse
    exact hfalse

/-- A button below 1 raises before anything is stored. -/
theorem shiftOne_low (h : button < 1) : shiftOne (button - 1) = .error .valueError :=
  if_pos (by omega)

theorem mouseDown_low (h : button < 1) : mouseDown button c = .error .valueError c := by
  unfold mouseDown
  rw [shiftOne_low h]
  rfl

theorem mouseUp_low (h : button < 1) : mouseUp button c = .error .valueError c := by
  unfold mouseUp
  rw [shiftOne_low h]
  rfl

theorem mousePress_low (h : button < 1) : mousePress button c = .error .valueError c :=
  run_bind_error (mouseDown_low h)

/-- A call that stores nothing too wide returns with what it is for announced, or raises and has
done nothing. -/
theorem PointerCall.run_fits {call : PointerCall} (h : Follows p c) (hfits : call.Fits) :
    Ensures call.run c
      (fun _ c' => Announces (call.events p) c c' ∧ Follows (call.after p) c')
      fun _ c' => ¬ call.Representable ∧ Untouched c c' := by
  have hnothing : Untouched c c := ⟨rfl, rfl, rfl, rfl⟩
  cases call with
  | mouseMove x y =>
      apply Ensures.mono (mouseMove_follows h hfits.1 hfits.2)
      · exact fun _ _ hc' => hc'
      · exact fun _ _ hfalse => hfalse.elim
  | mouseDown button =>
      rcases lt_or_ge button 1 with hlow | hlow
      · refine (ensures_of_run_error (mouseDown_low hlow)).2 ⟨?_, hnothing⟩
        exact fun hbutton => absurd hbutton.1 (not_le.2 hlow)
      · apply Ensures.mono (mouseDown_follows h hlow hfits)
        · exact fun _ _ hc' => hc'
        · exact fun _ _ hfalse => hfalse.elim
  | mouseUp button =>
      rcases lt_or_ge button 1 with hlow | hlow
      · refine (ensures_of_run_error (mouseUp_low hlow)).2 ⟨?_, hnothing⟩
        exact fun hbutton => absurd hbutton.1 (not_le.2 hlow)
      · apply Ensures.mono (mouseUp_follows h hlow)
        · exact fun _ _ hc' => hc'
        · exact fun _ _ hfalse => hfalse.elim
  | mousePress button =>
      rcases lt_or_ge button 1 with hlow | hlow
      · refine (ensures_of_run_error (mousePress_low hlow)).2 ⟨?_, hnothing⟩
        exact fun hbutton => absurd hbutton.1 (not_le.2 hlow)
      · apply Ensures.mono (mousePress_follows h hlow hfits)
        · exact fun _ _ hc' => hc'
        · exact fun _ _ hfalse => hfalse.elim

/-! ## What is too wide -/

theorem mouseMove_wide (h : Follows p c) (hwide : ¬ (RFBClient.Packs 2 x ∧ RFBClient.Packs 2 y)) :
    Ensures (mouseMove x y) c (fun _ _ => False) fun _ c' => ¬ Untouched c c' := by
  have hraises : mouseMove x y c =
      .error .structError { c with app := { c.app with x := x, y := y } } :=
    pointerEvent_refused fun hpacks => hwide hpacks.2
  refine (ensures_of_run_error hraises).2 fun hsame => hwide ⟨?_, ?_⟩
  -- The stored position would be the one before, which is not too wide.
  · have hx : x = p.x := hsame.x.trans h.x
    rw [hx]
    exact h.packsX
  · have hy : y = p.y := hsame.y.trans h.y
    rw [hy]
    exact h.packsY

theorem mouseDown_wide (h : Follows p c) (hwide : ¬ button ≤ 8) :
    Ensures (mouseDown button) c (fun _ _ => False) fun _ c' => ¬ Untouched c c' := by
  have hlow : 1 ≤ button := by omega
  have hbit : shiftOne (button - 1) = .ok (1 <<< (button - 1).toNat) :=
    if_neg (by omega)
  have hroom : ¬ c.app.buttons ||| 1 <<< (button - 1).toNat < 2 ^ 8 := by
    intro hlt
    exact hwide ((or_shiftOne_lt_iff hlow h.packsMask).1 hlt)
  have hraises : mouseDown button c = .error .structError
      { c with app := { c.app with buttons := c.app.buttons ||| 1 <<< (button - 1).toNat } } := by
    unfold mouseDown
    rw [hbit]
    exact pointerEvent_refused fun hpacks => hroom hpacks.1
  refine (ensures_of_run_error hraises).2 fun hsame => hroom ?_
  have hmask : c.app.buttons ||| 1 <<< (button - 1).toNat = c.app.buttons := hsame.buttons
  rw [hmask]
  exact h.packsMask

theorem mousePress_wide (h : Follows p c) (hwide : ¬ button ≤ 8) :
    Ensures (mousePress button) c (fun _ _ => False) fun _ c' => ¬ Untouched c c' := by
  unfold mousePress
  apply ensures_bind.2
  apply Ensures.mono (mouseDown_wide h hwide)
  · exact fun _ _ hfalse => hfalse.elim
  · exact fun _ _ hc' => hc'

/-- A call that stores what is too wide raises and leaves it behind. -/
theorem PointerCall.run_wide {call : PointerCall} (h : Follows p c) (hwide : ¬ call.Fits) :
    Ensures call.run c (fun _ _ => False) fun _ c' => ¬ Untouched c c' := by
  cases call with
  | mouseMove x y => exact mouseMove_wide h hwide
  | mouseDown button => exact mouseDown_wide h hwide
  | mouseUp button => exact absurd trivial hwide
  | mousePress button => exact mousePress_wide h hwide

end Calls

/-! ## Runs -/

/-- From a client that follows a pointer, its calls are all or nothing and tell the pointer exactly
if none of them stores what is too wide. -/
theorem allOrNothing_iff_fits {p : Pointer} {c : RFBClient (VNCDoToolClient P)} (h : Follows p c)
    (calls : List PointerCall) :
    AllOrNothing p calls c ↔ ∀ call ∈ calls, call.Fits := by
  induction calls generalizing p c with
  | nil => exact ⟨fun _ call hmem => absurd hmem List.not_mem_nil, fun _ => trivial⟩
  | cons call calls ih =>
      rw [List.forall_mem_cons]
      by_cases hfits : call.Fits
      · have hrun := PointerCall.run_fits h hfits
        constructor
        · intro hall
          refine ⟨hfits, ?_⟩
          have hboth := hrun.and hall
          cases hcall : call.run c with
          | ok a c' =>
              have hc' := (ensures_of_run_ok hcall).1 hboth
              exact (ih hc'.1.2).1 hc'.2.2
          | error exc c' =>
              have hc' := (ensures_of_run_error hcall).1 hboth
              exact (ih (h.untouched hc'.1.2)).1 hc'.2.2.2
        · intro hall
          apply Ensures.mono hrun
          · intro _ c' hc'
            exact ⟨hc'.1, (ih hc'.2).2 hall.2⟩
          · intro _ c' hc'
            exact ⟨hc'.1, hc'.2, (ih (h.untouched hc'.2)).2 hall.2⟩
      · refine ⟨fun hall => ?_, fun hall => absurd hall.1 hfits⟩
        have hboth := (PointerCall.run_wide h hfits).and hall
        exfalso
        cases hcall : call.run c with
        | ok a c' => exact ((ensures_of_run_ok hcall).1 hboth).1
        | error exc c' =>
            have hc' := (ensures_of_run_error hcall).1 hboth
            exact hc'.1 hc'.2.2.1

/-- The pointer of a client that none of the methods was called on is at the origin, with no button
pressed.  From there the calls are all or nothing and tell the pointer exactly if none of them moves
it out of 16 bits or presses a button above 8. -/
theorem pointer_allOrNothing_iff {c : RFBClient (VNCDoToolClient P)} (hx : c.app.x = 0)
    (hy : c.app.y = 0) (hbuttons : c.app.buttons = 0) (calls : List PointerCall) :
    AllOrNothing {} calls c ↔ ∀ call ∈ calls, call.Fits := by
  have hzero : RFBClient.Packs 2 0 := by decide
  have hnone : (∅ : Set ℤ) = maskButtons c.app.buttons := by
    refine (Set.eq_empty_of_forall_notMem ?_).symm
    rintro _ ⟨i, hi, rfl⟩
    rw [hbuttons] at hi
    exact Bool.false_ne_true ((Nat.zero_testBit i).symm.trans hi)
  refine allOrNothing_iff_fits ⟨hx, hy, hnone, hzero, hzero, ?_⟩ calls
  rw [hbuttons]
  exact Nat.two_pow_pos 8

/-- A client that was just built. -/
def unmoved : RFBClient (VNCDoToolClient Pillow.canvas) :=
  { app := {} }

theorem pointer_allOrNothing_iff_dragging :
    AllOrNothing {} [.mouseMove 3 4, .mouseDown 0, .mouseDown 1, .mouseUp 9, .mouseUp 1] unmoved ↔
      ∀ call ∈ [PointerCall.mouseMove 3 4, .mouseDown 0, .mouseDown 1, .mouseUp 9, .mouseUp 1],
        call.Fits :=
  pointer_allOrNothing_iff rfl rfl rfl _

/-- A move to a position that cannot be sent raises, but is kept: the press that follows cannot be
sent either. -/
theorem not_allOrNothing_offScreen :
    ¬ AllOrNothing {} [.mouseMove 70000 0] unmoved ∧
      Ensures (mouseDown 1) (finalState ((mouseMove 70000 0).run unmoved)) (fun _ _ => False)
        fun exc _ => exc = .structError := by
  have hraises : (mouseMove 70000 0).run unmoved =
      .error .structError { unmoved with app := { unmoved.app with x := 70000, y := 0 } } := rfl
  constructor
  · intro h
    have hafter := (ensures_of_run_error hraises).1 h
    have hx : (70000 : ℤ) = 0 := hafter.2.1.x
    exact absurd hx (by decide)
  · rw [hraises]
    exact rfl

end VNCDoToolClient

end Vncdotool
