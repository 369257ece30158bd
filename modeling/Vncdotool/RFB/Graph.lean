import Vncdotool.Streaming.Effects
import Vncdotool.RFB.Receive

/-!
# Graph — which handlers a handler arms

Every handler either re-arms the loop with one of its successors, or gives up: outside the pump it
then leaves the loop armed as it was, the pump sets the abort flag.  `Handler.Arms` is this graph,
and `run_moves` says that no handler does anything else to the attributes on which the loop turns.
The rules before it are those of a small program logic for the bodies of handlers.
-/

namespace Vncdotool

open Wire Streaming

/-! ## The graph -/

/-- `_expected_handler` and `_expected_len`. -/
def RFBClient.armed {σ : Type} (c : RFBClient σ) : Handler × ℕ :=
  (c.expectedHandler, c.expectedLen)

/-- The generator stands at its `yield`. -/
def Generator.suspended : Generator → Bool
  | .decodePixels _ suspended => suspended
  | .decodeForClient _ suspended => suspended

namespace Handler

/-- Where `_doConnection` goes. -/
def ArmsConnection (armed : Handler × ℕ) : Prop :=
  armed = (.rectangle, 12) ∨ armed = (.connection, 1)

/-- Where `_doNextHextileSubrect` goes. -/
def ArmsTile (armed : Handler × ℕ) : Prop :=
  ArmsConnection armed ∨ ∃ tile, armed = (.decodeHextile tile, 1)

/-- Where the pump goes: it parks a generator only at its `yield`. -/
def ArmsPump (armed : Handler × ℕ) : Prop :=
  ArmsConnection armed ∨
    ∃ generator finish n, generator.suspended = true ∧ armed = (.pumpBlock generator finish, n)

/-- What a handler may arm the loop with. -/
def Arms : Handler → Handler × ℕ → Prop
  | .numberSecurityTypes, armed =>
      armed = (.connFailed, 4) ∨ ∃ n, n ≠ 0 ∧ armed = (.securityTypes, n)
  | .securityTypes, armed =>
      armed ∈ [(.serverInit, 24), (.vncAuthResult, 4), (.vncAuth, 16), (.dhAuth, 4)]
  | .auth, armed => armed ∈ [(.connFailed, 4), (.serverInit, 24), (.vncAuth, 16)]
  | .connFailed, armed => ∃ n, armed = (.connMessage, n)
  | .vncAuth, armed => armed = (.vncAuthResult, 4)
  | .dhAuth, armed => ∃ n, armed = (.dhAuthKey, n)
  | .dhAuthKey, armed => ∃ n, armed = (.dhAuthCert, n)
  | .dhAuthCert, armed => armed = (.vncAuthResult, 4)
  | .vncAuthResult, armed => armed ∈ [(.serverInit, 24), (.authFailed, 4)]
  | .authFailed, armed => ∃ n, armed = (.authFailedMessage, n)
  | .serverInit, armed => ∃ n, armed = (.serverName, n)
  | .serverName, armed => armed = (.connection, 1)
  | .connection, armed =>
      armed ∈ [(.framebufferUpdate, 3), (.colourMapEntries, 5), (.connection, 1),
        (.serverCutText, 7)]
  | .framebufferUpdate, armed => ArmsConnection armed
  | .rectangle, armed =>
      ArmsPump armed ∨ ArmsTile armed ∨
        (∃ rect n, n ≠ 0 ∧ (armed = (.decodeCORRE rect, n) ∨ armed = (.decodeRRE rect, n) ∨
          armed = (.decodeZRLE rect, n))) ∨
        ∃ rect n, armed = (.decodePseudoCursor rect, n)
  | .pumpBlock generator _, armed =>
      ArmsPump armed ∧ (generator.suspended = true → ArmsConnection armed)
  | .decodeRRE _, armed =>
      ArmsConnection armed ∨ ∃ x y n, n ≠ 0 ∧ armed = (.rreSubRectangles x y, n)
  | .rreSubRectangles _ _, armed => ArmsConnection armed
  | .decodeCORRE _, armed =>
      ArmsConnection armed ∨ ∃ x y n, n ≠ 0 ∧ armed = (.decodeCORRERectangles x y, n)
  | .decodeHextile _, armed =>
      ArmsTile armed ∨ (∃ tile tw th n, armed = (.decodeHextileRAW tile tw th, n)) ∨
        ∃ sub tile tw th n, n ≠ 0 ∧ armed = (.decodeHextileSubrect sub tile tw th, n)
  | .decodeHextileSubrect _ _ _ _, armed =>
      ArmsTile armed ∨ ∃ tile n, n ≠ 0 ∧
        (armed = (.decodeHextileSubrectsColoured tile, n) ∨
          armed = (.decodeHextileSubrectsFG tile, n))
  | .decodeHextileRAW _ _ _, armed => ArmsTile armed
  | .decodeHextileSubrectsColoured _, armed => ArmsTile armed
  | .decodeHextileSubrectsFG _, armed => ArmsTile armed
  | .decodeZRLE _, armed => ∃ rect n, armed = (.decodeZRLEdata rect, n)
  | .decodeZRLEdata _, armed => ArmsConnection armed
  | .decodePseudoCursor _, armed => ArmsConnection armed
  | .colourMapEntries, armed => ∃ first n, armed = (.colourMapEntriesValue first, n)
  | .colourMapEntriesValue _, armed => armed = (.connection, 1)
  | .serverCutText, armed => ∃ n, armed = (.serverCutTextValue, n)
  | .serverCutTextValue, armed => armed = (.connection, 1)
  | .connMessage, _ => False
  | .authFailedMessage, _ => False
  | .decodeCORRERectangles _ _, _ => False

/-- The handlers that may give up without setting the abort flag. -/
def GivesUp : Handler → Prop
  | .securityTypes => True
  | .auth => True
  | .connMessage => True
  | .vncAuthResult => True
  | .authFailedMessage => True
  | .connection => True
  | .rectangle => True
  | _ => False

/-- The handler is in the pump: it sends a block to a parked generator, or `block` is the header of
a rectangle in an encoding that has a registered decoder. -/
def Pumps : Handler → Bytes → Prop
  | .rectangle, block => (Decoder.get? (Encoding.lookup (s32 (field block 8 4)))).isSome = true
  | .pumpBlock _ _, _ => True
  | _, _ => False

end Handler

/-! ## What a handler does to the loop -/

variable {σ : Type}

/-- The loop is armed as before, and the framebuffer has the size it had. -/
structure Held (c c' : RFBClient σ) : Prop where
  stage : c'.stage = c.stage
  armed : c'.armed = c.armed
  aborted : c'.aborted = c.aborted
  size : (c'.width, c'.height) = (c.width, c.height)

/-- A turn of the handler `h` that raises: the loop stays armed as it was. -/
structure Raises (h : Handler) (block : Bytes) (c c' : RFBClient σ) : Prop where
  stage : c'.stage = c.stage
  armed : c'.armed = c.armed
  aborted : c'.aborted = c.aborted ∨ (h.Pumps block ∧ c'.aborted = true)
  size : (c'.width, c'.height) = (c.width, c.height)

/-- A turn of the handler `h` that does not raise. -/
structure Moves (h : Handler) (block : Bytes) (c c' : RFBClient σ) : Prop where
  stage : c'.stage = c.stage
  size : h ≠ .serverInit → (c'.width, c'.height) = (c.width, c.height)
  armed : (c'.aborted = c.aborted ∧ h.Arms c'.armed) ∨
    (c'.aborted = c.aborted ∧ h.GivesUp ∧ c'.armed = c.armed) ∨
    (h.Pumps block ∧ c'.aborted = true ∧ c'.armed = c.armed)

theorem Held.refl (c : RFBClient σ) : Held c c :=
  ⟨rfl, rfl, rfl, rfl⟩

theorem Held.trans {c c₁ c₂ : RFBClient σ} (h : Held c c₁) (h' : Held c₁ c₂) : Held c c₂ :=
  ⟨h'.stage.trans h.stage, h'.armed.trans h.armed, h'.aborted.trans h.aborted,
    h'.size.trans h.size⟩

theorem Held.raises {h : Handler} {block : Bytes} {c c' : RFBClient σ} (hheld : Held c c') : Raises h block c c' :=
  ⟨hheld.stage, hheld.armed, Or.inl hheld.aborted, hheld.size⟩

theorem Held.trans_raises {h : Handler} {block : Bytes} {c c₁ c₂ : RFBClient σ} (hheld : Held c c₁)
    (hraises : Raises h block c₁ c₂) : Raises h block c c₂ := by
  refine ⟨hraises.stage.trans hheld.stage, hraises.armed.trans hheld.armed, ?_,
    hraises.size.trans hheld.size⟩
  rw [← hheld.aborted]
  exact hraises.aborted

theorem Held.moves {h : Handler} {block : Bytes} {c c₁ c₂ : RFBClient σ} (hheld : Held c c₁)
    (hmoves : Moves h block c₁ c₂) : Moves h block c c₂ := by
  refine ⟨hmoves.stage.trans hheld.stage, fun hne => (hmoves.size hne).trans hheld.size, ?_⟩
  rw [← hheld.aborted, ← hheld.armed]
  exact hmoves.armed

/-- The callbacks of a class of clients leave the loop alone. -/
def Runtime.Tame (rt : Runtime σ) : Prop :=
  ∀ cb c, Ensures (rt.override cb) c (fun _ => Held c) (fun _ => Held c)

/-- `x`, run in a turn of `h` from `c`, goes where the graph allows. -/
def Turns (h : Handler) (block : Bytes) (c : RFBClient σ) {α : Type} (x : Py σ α) : Prop :=
  Ensures x c (fun _ => Moves h block c) (fun _ => Raises h block c)

/-! ## Rules for the bodies of handlers -/

section Rules

variable {rt : Runtime σ} {h : Handler} {block : Bytes} {c : RFBClient σ} {α β : Type}

@[simp] theorem ensures_record {event : Event} {Q : Unit → RFBClient σ → Prop}
    {E : PyError → RFBClient σ → Prop} :
    Ensures (record event) c Q E ↔ Q () { c with log := c.log ++ [event] } := Iff.rfl

@[simp] theorem ensures_expect {handler : Handler} {size : ℕ} {Q : Unit → RFBClient σ → Prop}
    {E : PyError → RFBClient σ → Prop} :
    Ensures (expect handler size) c Q E ↔
      Q () { c with expectedHandler := handler, expectedLen := size } := Iff.rfl

/-- What leaves the loop alone may stand in front. -/
theorem turns_bind {x : Py σ α} {k : α → Py σ β}
    (hx : Ensures x c (fun _ => Held c) (fun _ => Held c))
    (hk : ∀ a c₁, Held c c₁ → Turns h block c₁ (k a)) : Turns h block c (x >>= k) := by
  unfold Turns
  rw [ensures_bind]
  refine Ensures.mono hx ?_ ?_
  · intro a c₁ hheld
    refine Ensures.mono (hk a c₁ hheld) ?_ ?_
    · exact fun _ c₂ hmoves => hheld.moves hmoves
    · exact fun _ c₂ hraises => hheld.trans_raises hraises
  · exact fun _ _ hheld => hheld.raises

theorem held_call (htame : rt.Tame) (cb : Callback) :
    Ensures (rt.call cb) c (fun _ => Held c) (fun _ => Held c) := by
  unfold Runtime.call
  rw [ensures_bind, ensures_record]
  have hheld : Held c { c with log := c.log ++ [.callback cb] } := ⟨rfl, rfl, rfl, rfl⟩
  refine Ensures.mono (htame cb _) ?_ ?_
  · exact fun _ _ h => hheld.trans h
  · exact fun _ _ h => hheld.trans h

theorem held_modify {g : RFBClient σ → RFBClient σ} (hg : Held c (g c)) :
    Ensures (modify g : Py σ PUnit) c (fun _ => Held c) (fun _ => Held c) := hg

theorem held_write (data : Bytes) :
    Ensures (write data) c (fun _ => Held c) (fun _ => Held c) := ⟨rfl, rfl, rfl, rfl⟩

theorem held_loseConnection :
    Ensures loseConnection c (fun _ => Held c) (fun _ => Held c) := ⟨rfl, rfl, rfl, rfl⟩

theorem held_liftExcept (x : Except PyError α) :
    Ensures (liftExcept x : Py σ α) c (fun _ => Held c) (fun _ => Held c) := by
  cases x with
  | ok a => exact Held.refl c
  | error exc => exact Held.refl c

/-- Actions that leave the loop alone, one after the other. -/
theorem held_bind {x : Py σ α} {k : α → Py σ β}
    (hx : Ensures x c (fun _ => Held c) (fun _ => Held c))
    (hk : ∀ a c₁, Held c c₁ → Ensures (k a) c₁ (fun _ => Held c₁) (fun _ => Held c₁)) :
    Ensures (x >>= k) c (fun _ => Held c) (fun _ => Held c) := by
  rw [ensures_bind]
  refine Ensures.mono hx ?_ ?_
  · intro a c₁ hheld
    refine Ensures.mono (hk a c₁ hheld) ?_ ?_
    · exact fun _ _ h => hheld.trans h
    · exact fun _ _ h => hheld.trans h
  · exact fun _ _ hheld => hheld

theorem turns_call (htame : rt.Tame) {cb : Callback} {k : Unit → Py σ β}
    (hk : ∀ c₁, Held c c₁ → Turns h block c₁ (k ())) : Turns h block c (rt.call cb >>= k) :=
  turns_bind (held_call htame cb) fun _ => hk

theorem turns_get {k : RFBClient σ → Py σ β} (hk : Turns h block c (k c)) : Turns h block c (get >>= k) := hk

theorem turns_expect {handler : Handler} {size : ℕ} (harms : h.Arms (handler, size)) :
    Turns h block c (expect handler size) :=
  ⟨rfl, fun _ => rfl, Or.inl ⟨rfl, harms⟩⟩

theorem turns_throw {exc : PyError} : Turns h block c (throw exc : Py σ α) := (Held.refl c).raises

theorem turns_ite {p : Prop} [Decidable p] {x y : Py σ α} (hx : p → Turns h block c x)
    (hy : ¬ p → Turns h block c y) : Turns h block c (if p then x else y) :=
  ensures_ite.2 ⟨hx, hy⟩

/-- Giving up. -/
theorem turns_of_held {x : Py σ α} (hgivesUp : h.GivesUp)
    (hx : Ensures x c (fun _ => Held c) (fun _ => Held c)) : Turns h block c x := by
  refine Ensures.mono hx ?_ ?_
  · intro _ c' hheld
    exact ⟨hheld.stage, fun _ => hheld.size, Or.inr (Or.inl ⟨hheld.aborted, hgivesUp, hheld.armed⟩)⟩
  · exact fun _ _ hheld => hheld.raises

theorem held_protocolError (htame : rt.Tame) (reason : ProtocolFailure) :
    Ensures (rt.protocolError reason) c (fun _ => Held c) (fun _ => Held c) :=
  held_bind (held_call htame _) fun _ _ _ => held_loseConnection

theorem held_authFailed (htame : rt.Tame) (reason : AuthFailure) :
    Ensures (rt.authFailed reason) c (fun _ => Held c) (fun _ => Held c) :=
  held_bind (held_call htame _) fun _ _ _ => held_loseConnection

end Rules

/-! ## The handshake -/

namespace RFBClient

section Handshake

variable {rt : Runtime σ} {c : RFBClient σ} {block : Bytes}

theorem turns_numberSecurityTypes :
    Turns .numberSecurityTypes block c (handleNumberSecurityTypes block) := by
  refine turns_ite ?_ ?_
  · exact fun hn => turns_expect (Or.inr ⟨_, hn, rfl⟩)
  · exact fun _ => turns_expect (Or.inl rfl)

theorem turns_doClientInitialization {h : Handler} (harms : h.Arms (.serverInit, 24)) :
    Turns h block c doClientInitialization := by
  refine turns_get (turns_bind (held_write _) fun _ _ _ => ?_)
  exact turns_expect harms

theorem turns_securityTypes (htame : rt.Tame) :
    Turns .securityTypes block c (handleSecurityTypes rt block) := by
  unfold handleSecurityTypes
  dsimp only
  split
  · refine turns_bind (held_write _) fun _ c₁ _ => ?_
    refine turns_ite (fun _ => turns_get (turns_ite ?_ ?_)) fun _ => turns_ite ?_ fun _ =>
      turns_ite ?_ ?_
    · exact fun _ => turns_doClientInitialization (by simp [Handler.Arms])
    · exact fun _ => turns_expect (by simp [Handler.Arms])
    · exact fun _ => turns_expect (by simp [Handler.Arms])
    · exact fun _ => turns_expect (by simp [Handler.Arms])
    · exact fun _ => turns_of_held trivial (Held.refl c₁)
  · exact turns_of_held trivial (held_protocolError htame _)

theorem turns_auth (htame : rt.Tame) : Turns .auth block c (handleAuth rt block) := by
  refine turns_ite ?_ fun _ => turns_ite ?_ fun _ => turns_ite ?_ ?_
  · exact fun _ => turns_expect (by simp [Handler.Arms])
  · exact fun _ => turns_doClientInitialization (by simp [Handler.Arms])
  · exact fun _ => turns_expect (by simp [Handler.Arms])
  · exact fun _ => turns_of_held trivial (held_protocolError htame _)

theorem turns_vncAuth (htame : rt.Tame) : Turns .vncAuth block c (handleVNCAuth rt block) := by
  refine turns_bind (held_modify ⟨rfl, rfl, rfl, rfl⟩) fun _ c₁ _ => turns_call htame fun c₂ _ => ?_
  exact turns_expect rfl

theorem turns_dhAuth : Turns .dhAuth block c (handleDHAuth block) := by
  refine turns_bind (held_modify ⟨rfl, rfl, rfl, rfl⟩) fun _ c₁ _ => ?_
  exact turns_expect ⟨_, rfl⟩

theorem turns_dhAuthKey : Turns .dhAuthKey block c (handleDHAuthKey block) := by
  refine turns_bind (held_modify ⟨rfl, rfl, rfl, rfl⟩) fun _ c₁ _ => turns_get ?_
  exact turns_expect ⟨_, rfl⟩

theorem held_encryptArd : Ensures rt.encryptArd c (fun _ => Held c) (fun _ => Held c) := by
  refine held_bind (Held.refl c) fun c₀ c₁ _ => held_bind (held_liftExcept _) fun keys c₂ _ =>
    held_bind (held_liftExcept _) fun ciphertext c₃ _ => ?_
  exact ensures_ite.2 ⟨fun _ => Held.refl c₃, fun _ => held_write _⟩

theorem turns_dhAuthCert : Turns .dhAuthCert block c (handleDHAuthCert rt block) := by
  refine turns_bind (held_modify ⟨rfl, rfl, rfl, rfl⟩) fun _ c₁ _ =>
    turns_bind (held_modify ⟨rfl, rfl, rfl, rfl⟩) fun _ c₂ _ =>
    turns_bind held_encryptArd fun _ c₃ _ => ?_
  exact turns_expect rfl

theorem turns_vncAuthResult (htame : rt.Tame) :
    Turns .vncAuthResult block c (handleVNCAuthResult rt block) := by
  refine turns_get (turns_ite ?_ fun _ => turns_ite (fun _ => turns_ite ?_ ?_) fun _ =>
    turns_ite (fun _ => turns_ite ?_ ?_) ?_)
  · exact fun _ => turns_doClientInitialization (by simp [Handler.Arms])
  · exact fun _ => turns_of_held trivial (held_authFailed htame _)
  · exact fun _ => turns_expect (by simp [Handler.Arms])
  · exact fun _ => turns_of_held trivial (held_authFailed htame _)
  · exact fun _ => turns_expect (by simp [Handler.Arms])
  · exact fun _ => turns_of_held trivial held_loseConnection

theorem turns_serverInit : Turns .serverInit block c (handleServerInit block) := by
  have hmoves : Moves .serverInit block c
      { c with
        width := field block 0 2
        height := field block 2 2
        pixelFormat := PixelFormat.fromBytes (slice block 4 16)
        expectedHandler := .serverName
        expectedLen := field block 20 4 } :=
    ⟨rfl, fun hne => absurd rfl hne, Or.inl ⟨rfl, _, rfl⟩⟩
  exact hmoves

theorem turns_serverName (htame : rt.Tame) : Turns .serverName block c (handleServerName rt block) := by
  refine turns_bind (held_modify ⟨rfl, rfl, rfl, rfl⟩) fun _ c₁ _ => turns_call htame fun c₂ _ => ?_
  exact turns_expect rfl

end Handshake

/-! ## Messages -/

section Messages

variable {rt : Runtime σ} {c : RFBClient σ} {block : Bytes}

theorem turns_connection (htame : rt.Tame) :
    Turns .connection block c (handleConnection rt block) := by
  unfold handleConnection
  dsimp only
  split
  · exact turns_expect (by simp [Handler.Arms])
  · exact turns_expect (by simp [Handler.Arms])
  · exact turns_call htame fun _ _ => turns_expect (by simp [Handler.Arms])
  · exact turns_expect (by simp [Handler.Arms])
  · exact turns_of_held trivial (held_protocolError htame _)

theorem turns_doConnection (htame : rt.Tame) {h : Handler}
    (harms : ∀ armed, Handler.ArmsConnection armed → h.Arms armed) :
    Turns h block c (doConnection rt) := by
  refine turns_get (turns_ite ?_ ?_)
  · exact fun _ => turns_expect (harms _ (Or.inl rfl))
  · exact fun _ => turns_call htame fun _ _ => turns_expect (harms _ (Or.inr rfl))

theorem turns_framebufferUpdate (htame : rt.Tame) :
    Turns .framebufferUpdate block c (handleFramebufferUpdate rt block) := by
  refine turns_bind (held_modify ⟨rfl, rfl, rfl, rfl⟩) fun _ c₁ _ => turns_call htame fun c₂ _ => ?_
  exact turns_doConnection htame fun _ harms => harms

/-! ## The pump -/

theorem turns_abortConnection (htame : rt.Tame) {h : Handler} (hpumps : h.Pumps block)
    (reason : ProtocolFailure) : Turns h block c (rt.abortConnection reason) := by
  have haborted : Ensures (rt.protocolError reason) { c with aborted := true }
      (fun _ => Held { c with aborted := true }) (fun _ => Held { c with aborted := true }) :=
    held_protocolError htame reason
  refine Ensures.mono haborted ?_ ?_
  · intro _ c' hheld
    exact ⟨hheld.stage, fun _ => hheld.size, Or.inr (Or.inr ⟨hpumps, hheld.aborted, hheld.armed⟩)⟩
  · intro _ c' hheld
    exact ⟨hheld.stage, hheld.armed, Or.inr ⟨hpumps, hheld.aborted⟩, hheld.size⟩

/-- `_rectBuffer` answers with `none` after aborting; otherwise the backing alone has changed. -/
theorem ensures_rectBuffer {width height : ℕ} {Q : Option RectBuffer → RFBClient σ → Prop}
    {E : PyError → RFBClient σ → Prop}
    (habort : ∀ reason, Ensures (rt.abortConnection reason) c (fun _ => Q none) E)
    (hmake : ∀ backing target, Q (some target) { c with rectBacking := backing })
    (hraise : ∀ backing exc, E exc { c with rectBacking := backing }) :
    Ensures (rectBuffer rt width height) c Q E := by
  have hlift (backing : Bytes) (x : Except PyError RectBuffer) :
      Ensures (do return some (← liftExcept x)) { c with rectBacking := backing } Q E := by
    cases x with
    | ok target => exact hmake backing target
    | error exc => exact hraise backing exc
  unfold rectBuffer
  rw [ensures_bind, ensures_get]
  dsimp only
  refine ensures_ite.2 ⟨fun _ => ?_, fun _ => ensures_ite.2 ⟨fun _ => ensures_ite.2
    ⟨fun _ => ?_, fun _ => ?_⟩, fun _ => ?_⟩⟩
  · rw [ensures_bind]
    exact habort _
  · rw [ensures_bind, ensures_modify, ensures_bind, ensures_get]
    exact hlift _ _
  · rw [ensures_bind]
    exact habort _
  · exact hlift c.rectBacking _

/-- A generator that is sent a block leaves the loop alone; at its `yield` it has to return. -/
theorem ensures_send (htame : rt.Tame) (generator : Generator) :
    Ensures (send rt generator block) c
      (fun progress c' => Held c c' ∧
        match progress with
        | .yielded _ generator' => generator.suspended = false ∧ generator'.suspended = true
        | .returned _ => True)
      (fun _ => Held c) := by
  cases generator with
  | decodePixels target suspended =>
      cases suspended with
      | false => exact ⟨Held.refl c, rfl, rfl⟩
      | true =>
          change Ensures (liftExcept _ >>= _) _ _ _
          rw [ensures_bind]
          refine Ensures.mono (held_liftExcept _) ?_ ?_
          · exact fun _ _ hheld => ⟨hheld, trivial⟩
          · exact fun _ _ hheld => hheld
  | decodeForClient rect suspended =>
      cases suspended with
      | false => exact ⟨Held.refl c, rfl, rfl⟩
      | true =>
          change Ensures (rt.call _ >>= _) _ _ _
          rw [ensures_bind]
          refine Ensures.mono (held_call htame _) ?_ ?_
          · exact fun _ _ hheld => ⟨hheld, trivial⟩
          · exact fun _ _ hheld => hheld

theorem held_finishRectangle (htame : rt.Tame) (target : RectBuffer) (rect : Rect) :
    Ensures (finishRectangle rt target rect) c (fun _ => Held c) (fun _ => Held c) := by
  refine held_bind (held_modify ⟨rfl, rfl, rfl, rfl⟩) fun _ c₁ _ => held_bind (Held.refl c₁) ?_
  exact fun c₂ _ _ => held_call htame _

/-- What `_pumpBlock` does once the generator has answered. -/
def resumePump (rt : Runtime σ) (finish : Option Rect) : Progress → Py σ Unit
  | .returned target => do
      match finish, target with
      | some rect, some target => finishRectangle rt target rect
      | _, _ => pure ()
      doConnection rt
  | .yielded size generator =>
      if size < 0 then
        rt.abortConnection (.negativeSize size)
      else
        expect (.pumpBlock generator finish) size.toNat

theorem ensures_pumpBlock {generator : Generator} {finish : Option Rect}
    {Q : Unit → RFBClient σ → Prop} {E : PyError → RFBClient σ → Prop} :
    Ensures (pumpBlock rt block generator finish) c Q E ↔
      Ensures (send rt generator block) c
        (fun progress c₁ => Ensures (resumePump rt finish progress) c₁ Q E)
        (fun exc c₁ =>
          if pumpCatches exc then Ensures (rt.abortConnection (.cannotDecode exc)) c₁ Q E
          else E exc c₁) := by
  unfold Ensures EStateM.run pumpBlock
  cases send rt generator block c with
  | ok progress c₁ =>
      cases progress with
      | returned target => rfl
      | yielded size generator' =>
          by_cases hsize : size < 0
          · simp [resumePump, hsize]
          · simp [resumePump, hsize]
  | error exc c₁ =>
      by_cases hcatches : pumpCatches exc
      · simp [hcatches]
      · simp [hcatches]

theorem turns_pumpBlock (htame : rt.Tame) {h : Handler} (hpumps : h.Pumps block) (data : Bytes)
    (generator : Generator) (finish : Option Rect)
    (harms : ∀ armed, Handler.ArmsPump armed →
      (generator.suspended = true → Handler.ArmsConnection armed) → h.Arms armed) :
    Turns h block c (pumpBlock rt data generator finish) := by
  have hconnection (armed : Handler × ℕ) (h' : Handler.ArmsConnection armed) : h.Arms armed :=
    harms armed (Or.inl h') fun _ => h'
  have hturns (progress : Progress) (c₁ : RFBClient σ)
      (hprogress : match progress with
        | .yielded _ generator' => generator.suspended = false ∧ generator'.suspended = true
        | .returned _ => True) :
      Turns h block c₁ (resumePump rt finish progress) := by
    cases progress with
    | returned target =>
        have hdone (c₂ : RFBClient σ) : Turns h block c₂ (doConnection rt) :=
          turns_doConnection htame hconnection
        cases finish with
        | none => exact hdone c₁
        | some rect =>
            cases target with
            | none => exact hdone c₁
            | some target =>
                exact turns_bind (held_finishRectangle htame target rect) fun _ c₂ _ => hdone c₂
    | yielded size generator' =>
        refine turns_ite (fun _ => turns_abortConnection htame hpumps _) fun _ => turns_expect ?_
        refine harms _ (Or.inr ⟨generator', finish, _, hprogress.2, rfl⟩) fun hsuspended => ?_
        -- A suspended generator does not yield again.
        rw [hprogress.1] at hsuspended
        exact absurd hsuspended (by decide)
  refine ensures_pumpBlock.2 (Ensures.mono (ensures_send htame generator) ?_ ?_)
  · rintro progress c₁ ⟨hheld, hprogress⟩
    refine Ensures.mono (hturns progress c₁ hprogress) ?_ ?_
    · exact fun _ _ hmoves => hheld.moves hmoves
    · exact fun _ _ hraises => hheld.trans_raises hraises
  · intro exc c₁ hheld
    split
    · refine Ensures.mono (turns_abortConnection htame hpumps _) ?_ ?_
      · exact fun _ _ hmoves => hheld.moves hmoves
      · exact fun _ _ hraises => hheld.trans_raises hraises
    · exact hheld.raises

theorem turns_pump (htame : rt.Tame) {h : Handler} (hpumps : h.Pumps block) (decoder : Decoder)
    (rect : Rect) (harms : ∀ armed, Handler.ArmsPump armed → h.Arms armed) :
    Turns h block c (pump rt decoder rect) := by
  cases decoder with
  | rawDecoder =>
      refine ensures_bind.2 (ensures_rectBuffer ?_ ?_ ?_)
      · exact fun reason => turns_abortConnection htame hpumps reason
      · intro backing target
        have hheld : Held c { c with rectBacking := backing } := ⟨rfl, rfl, rfl, rfl⟩
        refine Ensures.mono (turns_pumpBlock htame hpumps [] _ _ fun a ha _ => harms a ha) ?_ ?_
        · exact fun _ _ hmoves => hheld.moves hmoves
        · exact fun _ _ hraises => hheld.trans_raises hraises
      · exact fun _ _ => ⟨rfl, rfl, Or.inl rfl, rfl⟩
  | copyRectDecoder =>
      change Turns h block c (pumpBlock rt [] (.decodeForClient rect false) none)
      exact turns_pumpBlock htame hpumps [] _ _ fun armed harmed _ => harms armed harmed

end Messages

/-! ## The encodings outside the pump -/

section Encodings

variable {rt : Runtime σ} {c : RFBClient σ} {block : Bytes}

theorem turns_decodeRRE (htame : rt.Tame) (rect : Rect) :
    Turns (.decodeRRE rect) block c (handleDecodeRRE rt rect block) := by
  refine turns_call htame fun c₁ _ => turns_ite (fun hsubrects => turns_get ?_) fun _ => ?_
  · exact turns_expect (Or.inr ⟨_, _, _, Nat.mul_ne_zero (by omega) hsubrects, rfl⟩)
  · exact turns_doConnection htame fun _ => Or.inl

theorem held_rreSubRectangles (htame : rt.Tame) (bypp topx topy fuel : ℕ) :
    ∀ (block : Bytes) (c : RFBClient σ),
      Ensures (rreSubRectangles rt bypp topx topy fuel block) c (fun _ => Held c)
        (fun _ => Held c) := by
  induction fuel with
  | zero => exact fun block c => Held.refl c
  | succ fuel ih =>
      intro block c
      unfold rreSubRectangles
      refine ensures_ite.2 ⟨fun _ => Held.refl c, fun _ => ensures_ite.2
        ⟨fun _ => Held.refl c, fun _ => ?_⟩⟩
      exact held_bind (held_call htame _) fun _ c₁ _ => ih _ c₁

theorem turns_rreSubRectangles (htame : rt.Tame) (topx topy : ℕ) :
    Turns (.rreSubRectangles topx topy) block c (handleRRESubRectangles rt topx topy block) := by
  refine turns_get (turns_bind (held_rreSubRectangles htame _ _ _ _ _ _) fun _ c₁ _ => ?_)
  exact turns_doConnection htame fun _ harms => harms

theorem turns_decodeCORRE (htame : rt.Tame) (rect : Rect) :
    Turns (.decodeCORRE rect) block c (handleDecodeCORRE rt rect block) := by
  refine turns_call htame fun c₁ _ => turns_ite (fun hsubrects => turns_get ?_) fun _ => ?_
  · exact turns_expect (Or.inr ⟨_, _, _, Nat.mul_ne_zero (by omega) hsubrects, rfl⟩)
  · exact turns_doConnection htame fun _ => Or.inl

theorem turns_doNextHextileSubrect (htame : rt.Tame) {h : Handler} (bg color : Option Bytes)
    (rect : Rect) (last : Option (ℕ × ℕ)) (harms : ∀ armed, Handler.ArmsTile armed → h.Arms armed) :
    Turns h block c (doNextHextileSubrect rt bg color rect last) := by
  refine turns_ite (fun _ => ?_) fun _ => turns_expect (harms _ (Or.inr ⟨_, rfl⟩))
  exact turns_doConnection htame fun armed harmed => harms armed (Or.inl harmed)

theorem turns_decodeHextile (htame : rt.Tame) (tile : HextileTile) :
    Turns (.decodeHextile tile) block c (handleDecodeHextile rt tile block) := by
  refine turns_get ?_
  cases block with
  | nil => exact turns_throw
  | cons subencoding _ =>
      refine turns_ite (fun _ => ?_) fun _ => turns_ite (fun hbytes => ?_) fun _ => ?_
      · exact turns_expect (Or.inr (Or.inl ⟨_, _, _, _, rfl⟩))
      · exact turns_expect (Or.inr (Or.inr ⟨_, _, _, _, _, hbytes, rfl⟩))
      · exact turns_call htame fun c₁ _ => turns_doNextHextileSubrect htame _ _ _ _ fun _ => Or.inl

theorem turns_decodeHextileSubrect (htame : rt.Tame) (subencoding : UInt8) (tile : HextileTile)
    (tw th : ℕ) :
    Turns (.decodeHextileSubrect subencoding tile tw th) block c
      (handleDecodeHextileSubrect rt subencoding tile tw th block) := by
  have hpainted (c₁ : RFBClient σ) (bypp : ℕ) (tile' : HextileTile) (subrects : ℕ) :
      Turns (.decodeHextileSubrect subencoding tile tw th) block c₁
        (if subrects ≠ 0 then
          if HextileEncoding.has subencoding HextileEncoding.SUBRECTS_COLORED then
            expect (.decodeHextileSubrectsColoured tile') ((bypp + 2) * subrects)
          else expect (.decodeHextileSubrectsFG tile') (2 * subrects)
        else doNextHextileSubrect rt tile'.bg tile'.color tile'.rect (some (tile'.tx, tile'.ty))) := by
    refine turns_ite (fun hsubrects => turns_ite (fun _ => ?_) fun _ => ?_) fun _ => ?_
    · exact turns_expect (Or.inr ⟨_, _, Nat.mul_ne_zero (by omega) hsubrects, Or.inl rfl⟩)
    · exact turns_expect (Or.inr ⟨_, _, Nat.mul_ne_zero (by decide) hsubrects, Or.inr rfl⟩)
    · exact turns_doNextHextileSubrect htame _ _ _ _ fun _ => Or.inl
  refine turns_get (turns_call htame fun c₁ _ => turns_ite (fun _ => ?_) fun _ => ?_)
  · dsimp only
    split
    · refine turns_bind ?_ fun subrects c₂ _ => hpainted c₂ _ _ subrects
      exact Held.refl c₁
    · exact turns_throw
  · refine turns_bind ?_ fun subrects c₂ _ => hpainted c₂ _ _ subrects
    exact Held.refl c₁

theorem turns_decodeHextileRAW (htame : rt.Tame) (tile : HextileTile) (tw th : ℕ) :
    Turns (.decodeHextileRAW tile tw th) block c (handleDecodeHextileRAW rt tile tw th block) := by
  refine turns_get (turns_call htame fun c₁ _ => ?_)
  exact turns_doNextHextileSubrect htame _ _ _ _ fun _ harms => harms

theorem held_subrectsColoured (htame : rt.Tame) (bypp : ℕ) (tile : HextileTile) (fuel : ℕ) :
    ∀ (block : Bytes) (color : Option Bytes) (c : RFBClient σ),
      Ensures (subrectsColoured rt bypp tile fuel block color) c (fun _ => Held c)
        (fun _ => Held c) := by
  induction fuel with
  | zero => exact fun block color c => Held.refl c
  | succ fuel ih =>
      intro block color c
      unfold subrectsColoured
      refine ensures_ite.2 ⟨fun _ => Held.refl c, fun _ => ?_⟩
      dsimp only
      split
      · exact held_bind (held_call htame _) fun _ c₁ _ => ih _ _ c₁
      · exact Held.refl c

theorem turns_decodeHextileSubrectsColoured (htame : rt.Tame) (tile : HextileTile) :
    Turns (.decodeHextileSubrectsColoured tile) block c
      (handleDecodeHextileSubrectsColoured rt tile block) := by
  refine turns_get (turns_bind (held_subrectsColoured htame _ _ _ _ _ _) fun color c₁ _ => ?_)
  exact turns_doNextHextileSubrect htame _ _ _ _ fun _ harms => harms

theorem held_subrectsFG (htame : rt.Tame) (tile : HextileTile) (block : Bytes) :
    ∀ c : RFBClient σ,
      Ensures (subrectsFG rt tile block) c (fun _ => Held c) (fun _ => Held c) := by
  induction block using subrectsFG.induct with
  | case1 => exact fun c => Held.refl c
  | case2 => exact fun c => Held.refl c
  | case3 xy wh rest ih => exact fun c => held_bind (held_call htame _) fun _ c₁ _ => ih c₁

theorem turns_decodeHextileSubrectsFG (htame : rt.Tame) (tile : HextileTile) :
    Turns (.decodeHextileSubrectsFG tile) block c (handleDecodeHextileSubrectsFG rt tile block) := by
  refine turns_bind (held_subrectsFG htame tile block c) fun _ c₁ _ => ?_
  exact turns_doNextHextileSubrect htame _ _ _ _ fun _ harms => harms

theorem held_zrleTiles (htame : rt.Tame) (rect : Rect) (fuel : ℕ) :
    ∀ (tx ty : ℤ) (it : Bytes) (c : RFBClient σ),
      Ensures (zrleTiles rt rect fuel tx ty it) c (fun _ => Held c) (fun _ => Held c) := by
  induction fuel with
  | zero => exact fun tx ty it c => Held.refl c
  | succ fuel ih =>
      intro tx ty it c
      cases it with
      | nil => exact Held.refl c
      | cons subencoding it =>
          have hrest (it : Bytes) (c₂ : RFBClient σ) :
              Ensures (if (rect.x + rect.width : ℤ) ≤ tx + 64 then
                  zrleTiles rt rect fuel rect.x (ty + 64) it
                else zrleTiles rt rect fuel (tx + 64) ty it) c₂ (fun _ => Held c₂)
                (fun _ => Held c₂) :=
            ensures_ite.2 ⟨fun _ => ih _ _ _ c₂, fun _ => ih _ _ _ c₂⟩
          refine held_bind (held_liftExcept _) fun tile c₁ _ => ?_
          cases tile with
          | mk tile it' =>
              cases tile with
              | pixels data =>
                  exact held_bind (Held.refl c₁) fun _ _ _ =>
                    held_bind (held_call htame _) fun _ c₂ _ => hrest it' c₂
              | solid color => exact held_bind (held_call htame _) fun _ c₂ _ => hrest it' c₂

theorem turns_decodeZRLEdata (htame : rt.Tame) (rect : Rect) :
    Turns (.decodeZRLEdata rect) block c (handleDecodeZRLEdata rt rect block) := by
  refine turns_get (turns_bind (held_liftExcept _) fun data c₁ _ =>
    turns_bind (held_modify ⟨rfl, rfl, rfl, rfl⟩) fun _ c₂ _ =>
    turns_bind (held_zrleTiles htame _ _ _ _ _ _) fun _ c₃ _ => ?_)
  exact turns_doConnection htame fun _ harms => harms

theorem turns_decodePseudoCursor (htame : rt.Tame) (rect : Rect) :
    Turns (.decodePseudoCursor rect) block c (handleDecodePseudoCursor rt rect block) := by
  refine turns_get (turns_call htame fun c₁ _ => ?_)
  exact turns_doConnection htame fun _ harms => harms

/-! ## The rectangle header -/

theorem turns_dispatchRectangle (htame : rt.Tame) (rect : Rect) {encoding : ℤ}
    (hencoding : encoding = s32 (field block 8 4)) :
    Turns .rectangle block c (dispatchRectangle rt rect encoding) := by
  have hpumps {decoder : Decoder} (hget : Decoder.get? (Encoding.lookup encoding) = some decoder) :
      Handler.rectangle.Pumps block := by
    rw [Handler.Pumps, ← hencoding, hget]
    rfl
  have hheader : 4 + c.pixelFormat.bypp ≠ 0 := by omega
  have hpump (armed : Handler × ℕ) (harms : Handler.ArmsPump armed) :
      Handler.rectangle.Arms armed := Or.inl harms
  have hconnection (armed : Handler × ℕ) (harms : Handler.ArmsConnection armed) :
      Handler.rectangle.Arms armed := Or.inl (Or.inl harms)
  unfold dispatchRectangle
  refine turns_get ?_
  dsimp only
  split
  case h_1 hlookup => exact turns_pump htame (hpumps (congrArg Decoder.get? hlookup)) _ _ hpump
  case h_2 hlookup => exact turns_pump htame (hpumps (congrArg Decoder.get? hlookup)) _ _ hpump
  · exact turns_doNextHextileSubrect htame _ _ _ _ fun _ harms => Or.inr (Or.inl harms)
  · exact turns_expect (Or.inr (Or.inr (Or.inl ⟨rect, _, hheader, Or.inl rfl⟩)))
  · exact turns_expect (Or.inr (Or.inr (Or.inl ⟨rect, _, hheader, Or.inr (Or.inl rfl)⟩)))
  · exact turns_expect (Or.inr (Or.inr (Or.inl ⟨rect, _, by decide, Or.inr (Or.inr rfl)⟩)))
  · exact turns_expect (Or.inr (Or.inr (Or.inr ⟨rect, _, rfl⟩)))
  · refine turns_bind (held_modify ⟨rfl, rfl, rfl, rfl⟩) fun _ c₁ _ => turns_call htame fun c₂ _ => ?_
    exact turns_doConnection htame hconnection
  · refine turns_bind (held_modify ⟨rfl, rfl, rfl, rfl⟩) fun _ c₁ _ =>
      turns_bind (held_modify ⟨rfl, rfl, rfl, rfl⟩) fun _ c₂ _ => ?_
    exact turns_doConnection htame hconnection
  · exact turns_of_held trivial (held_protocolError htame _)

theorem turns_rectangle (htame : rt.Tame) : Turns .rectangle block c (handleRectangle rt block) := by
  have hcounted (c₁ : RFBClient σ) (rect : Rect) : Turns .rectangle block c₁ (do
      if (← get).rectangles ≠ 0 then
        modify fun c => { c with rectangles := c.rectangles - 1 }
        appendRectangle rect
        dispatchRectangle rt rect (s32 (field block 8 4))
      else
        doConnection rt) := by
    refine turns_get (turns_ite (fun _ => ?_) fun _ => ?_)
    · exact turns_bind (held_modify ⟨rfl, rfl, rfl, rfl⟩) fun _ c₂ _ =>
        turns_bind (held_modify ⟨rfl, rfl, rfl, rfl⟩) fun _ c₃ _ =>
        turns_dispatchRectangle htame _ rfl
    · exact turns_doConnection htame fun _ harms => Or.inl (Or.inl harms)
  refine turns_ite (fun _ => ?_) fun _ => hcounted c _
  exact turns_bind (held_modify ⟨rfl, rfl, rfl, rfl⟩) fun _ c₁ _ => hcounted c₁ _

end Encodings

end RFBClient

/-! ## Every handler -/

/-- A handler that does not raise goes where the graph allows; one that raises leaves the loop armed
as it was. -/
theorem run_moves {rt : Runtime σ} (htame : rt.Tame) (h : Handler) (block : Bytes)
    (c : RFBClient σ) : Turns h block c (h.run rt block) := by
  cases h with
  | numberSecurityTypes => exact RFBClient.turns_numberSecurityTypes
  | securityTypes => exact RFBClient.turns_securityTypes htame
  | auth => exact RFBClient.turns_auth htame
  | connFailed => exact turns_expect ⟨_, rfl⟩
  | connMessage => exact turns_of_held trivial (held_protocolError htame _)
  | vncAuth => exact RFBClient.turns_vncAuth htame
  | dhAuth => exact RFBClient.turns_dhAuth
  | dhAuthKey => exact RFBClient.turns_dhAuthKey
  | dhAuthCert => exact RFBClient.turns_dhAuthCert
  | vncAuthResult => exact RFBClient.turns_vncAuthResult htame
  | authFailed => exact turns_expect ⟨_, rfl⟩
  | authFailedMessage => exact turns_of_held trivial (held_authFailed htame _)
  | serverInit => exact RFBClient.turns_serverInit
  | serverName => exact RFBClient.turns_serverName htame
  | connection => exact RFBClient.turns_connection htame
  | framebufferUpdate => exact RFBClient.turns_framebufferUpdate htame
  | rectangle => exact RFBClient.turns_rectangle htame
  | pumpBlock generator finish =>
      exact RFBClient.turns_pumpBlock htame (h := .pumpBlock generator finish) trivial _ _ _
        fun _ harms hsuspended => ⟨harms, hsuspended⟩
  | decodeRRE rect => exact RFBClient.turns_decodeRRE htame rect
  | rreSubRectangles topx topy => exact RFBClient.turns_rreSubRectangles htame topx topy
  | decodeCORRE rect => exact RFBClient.turns_decodeCORRE htame rect
  | decodeCORRERectangles topx topy => exact turns_throw
  | decodeHextile tile => exact RFBClient.turns_decodeHextile htame tile
  | decodeHextileSubrect subencoding tile tw th =>
      exact RFBClient.turns_decodeHextileSubrect htame subencoding tile tw th
  | decodeHextileRAW tile tw th => exact RFBClient.turns_decodeHextileRAW htame tile tw th
  | decodeHextileSubrectsColoured tile =>
      exact RFBClient.turns_decodeHextileSubrectsColoured htame tile
  | decodeHextileSubrectsFG tile => exact RFBClient.turns_decodeHextileSubrectsFG htame tile
  | decodeZRLE rect => exact turns_expect ⟨_, _, rfl⟩
  | decodeZRLEdata rect => exact RFBClient.turns_decodeZRLEdata htame rect
  | decodePseudoCursor rect => exact RFBClient.turns_decodePseudoCursor htame rect
  | colourMapEntries => exact turns_expect ⟨_, _, rfl⟩
  | colourMapEntriesValue first =>
      exact turns_call htame fun _ _ => turns_expect rfl
  | serverCutText => exact turns_expect ⟨_, rfl⟩
  | serverCutTextValue => exact turns_call htame fun _ _ => turns_expect rfl

/-- The callbacks of a plain `RFBClient` leave the loop alone. -/
theorem RFBClient.runtime_tame (env : Env) : (RFBClient.runtime env).Tame := by
  intro cb c
  have hidle : Ensures (pure () : Py Unit Unit) c (fun _ => Held c) (fun _ => Held c) := Held.refl c
  cases cb with
  | vncRequestPassword =>
      refine held_bind (Held.refl c) fun c₁ _ _ => ?_
      cases c₁.factory.password with
      | none => exact held_loseConnection
      | some password =>
          exact held_bind (held_liftExcept _) fun _ c₂ _ =>
            held_bind (Held.refl c₂) fun _ _ _ => held_write _
  | fillRectangle x y width height color =>
      cases color with
      | none => exact Held.refl c
      | some color => exact held_bind (Held.refl c) fun _ _ _ => ⟨rfl, rfl, rfl, rfl⟩
  | _ => exact hidle

end Vncdotool
