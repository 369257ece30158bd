import Vncdotool.Const
import Vncdotool.Streaming.Effects
import Vncdotool.Streaming.Loop
import Vncdotool.RFB.PixelFormat
import Vncdotool.Decoders.Buffer

/-!
# Server — `RFBServer`, the parser of what a client sends

The parser is parked on a bound method and a threshold; `dataReceived` calls the method for as long
as the buffer reaches the threshold.  The methods are `EStateM` actions, so that an exception
leaves the parser as it was mutated up to the raise.  What a subclass does in its hooks goes on in
its own attributes, `app`; every call of a hook is listed in `calls`.
-/

namespace Vncdotool

open Wire Streaming StateTransition

/-- What `RFBServer` calls: the `handle_*` hooks, `loseConnection`, and `clientInit` for the end of
`_handle_clientInit`, where a subclass starts its logging client. -/
inductive Call
  | loseConnection
  | clientInit (shared : ℕ)
  | setPixelFormat (pixelFormat : PixelFormat)
  | setEncodings (encodings : List ℕ)
  | framebufferUpdate (x y w h incremental : ℕ)
  | keyEvent (key down : ℕ)
  | pointerEvent (x y buttonmask : ℕ)
  | clientCutText (block : Bytes)
  | keyEventExtended (keysym down keycode : ℕ)
  deriving DecidableEq, Repr

/-- What a subclass may override; its bodies work on the subclass's attributes and may raise. -/
structure Hooks (σ : Type) where
  keyEvent : ℕ → ℕ → σ → Except PyError σ := fun _ _ app => .ok app
  pointerEvent : ℕ → ℕ → ℕ → σ → Except PyError σ := fun _ _ _ app => .ok app
  clientInit : σ → Except PyError σ := .ok

/-- The body of a call; extended key events become key events, the rest are `pass`. -/
def Hooks.body {σ : Type} (hooks : Hooks σ) : Call → σ → Except PyError σ
  | .clientInit _ => hooks.clientInit
  | .keyEvent key down => hooks.keyEvent key down
  | .pointerEvent x y buttonmask => hooks.pointerEvent x y buttonmask
  | .keyEventExtended keysym down _ => hooks.keyEvent keysym down
  | _ => .ok

/-- The method of `_handler`. -/
inductive Method
  | handleVersion
  | handleSecurity
  | handleVNCAuthResponse
  | handleClientInit
  | handleProtocol
  | handleQemuExtendedKeyEvent
  deriving DecidableEq, Repr

/-- The attributes of a connected `RFBServer`. -/
structure RFBServer (σ : Type) where
  handler : Method × ℕ := (.handleVersion, 12)
  buffer : Bytes := []
  passwordRequired : Bool := false
  app : σ
  calls : List Call := []
  deriving DecidableEq, Repr

/-- An action of an `RFBServer` method. -/
abbrev Srv (σ : Type) := EStateM PyError (RFBServer σ)

/-- `TYPE_LEN`; a ClientCutText has no entry. -/
def TYPE_LEN : MsgC2S → Option ℕ
  | .setPixelFormat => some 20
  | .setEncoding => some 4
  | .framebufferUpdateRequest => some 10
  | .keyEvent => some 8
  | .pointerEvent => some 6
  | .clientCutText => none
  | .qemuClientMessage => some 1

/-- `TYPE_LEN.get(ptype, 0)`. -/
def typeLen (ptype : ℕ) : ℕ :=
  ((MsgC2S.lookup ptype).bind TYPE_LEN).getD 0

theorem typeLen_of_lookup {ptype : ℕ} {kind : MsgC2S} (h : MsgC2S.lookup ptype = some kind) :
    typeLen ptype = (TYPE_LEN kind).getD 0 := by
  simp [typeLen, h]

namespace RFBServer

variable {σ : Type} (hooks : Hooks σ)

/-- `self._handler = method, threshold`. -/
def arm (method : Method) (threshold : ℕ) : Srv σ Unit :=
  modify fun s => { s with handler := (method, threshold) }

/-- `del self.buffer[:n]`. -/
def del (n : ℕ) : Srv σ Unit :=
  modify fun s => { s with buffer := s.buffer.drop n }

/-- Call a hook. -/
def call (c : Call) : Srv σ Unit := fun s =>
  match hooks.body c s.app with
  | .ok app => .ok () { s with app := app, calls := s.calls ++ [c] }
  | .error exc => .error exc { s with calls := s.calls ++ [c] }

def oldVersions : List Bytes :=
  [[48, 48, 51], [48, 48, 53]]

def newVersions : List Bytes :=
  [[48, 48, 55], [48, 48, 56]]

/-- `b"RFB 003."`. -/
def versionStart : Bytes :=
  [82, 70, 66, 32, 48, 48, 51, 46]

def handleVersion : Srv σ Unit := do
  let msg := (← get).buffer.take 12
  del 12
  if ¬ versionStart.isPrefixOf msg ∧ msg.getLast? = some 10 then
    call hooks .loseConnection
  -- Only the minor number is looked at.
  let version := slice msg 8 3
  if version ∈ oldVersions then
    if (← get).passwordRequired then
      arm .handleVNCAuthResponse 16
    else
      arm .handleClientInit 1
  -- Any other version is read as a line again.
  else if version ∈ newVersions then
    arm .handleSecurity 1

def handleSecurity : Srv σ Unit := do
  let sectype := field (← get).buffer 0 1
  del 1
  if sectype = AuthTypes.VNC_AUTHENTICATION then
    arm .handleVNCAuthResponse 16
  else
    arm .handleClientInit 1

def handleVNCAuthResponse : Srv σ Unit := do
  del 16
  arm .handleClientInit 1

/-- `_handle_clientInit`, with what an override does after calling it. -/
def handleClientInit : Srv σ Unit := do
  let shared := field (← get).buffer 0 1
  del 1
  arm .handleProtocol 1
  call hooks (.clientInit shared)

/-- `unpack_from("!" + "I" * n, buffer)`. -/
def words (n : ℕ) (buffer : Bytes) : List ℕ :=
  (List.range n).map fun i => field buffer (4 * i) 4

/-- `_handle_protocol` on a message whose fixed part, `block` after the type byte, has been taken off
the buffer. -/
def handleBlock (kind : Option MsgC2S) (block : Bytes) : Srv σ Unit :=
  match kind with
  | some .setPixelFormat =>
      call hooks (.setPixelFormat (PixelFormat.fromBytes (slice block 3 16)))
  | some .setEncoding => do
      let nencodings := field block 1 2
      let buffer := (← get).buffer
      if buffer.length < 4 * nencodings then
        throw .structError
      else
        del (4 * nencodings)
        call hooks (.setEncodings (words nencodings buffer))
  | some .framebufferUpdateRequest =>
      call hooks (.framebufferUpdate (field block 1 2) (field block 3 2) (field block 5 2)
        (field block 7 2) (field block 0 1))
  | some .keyEvent => call hooks (.keyEvent (field block 3 4) (field block 0 1))
  | some .pointerEvent =>
      call hooks (.pointerEvent (field block 1 2) (field block 3 2) (field block 0 1))
  | some .clientCutText => call hooks (.clientCutText block)
  | some .qemuClientMessage =>
      -- The block of a message of length one is empty.
      if block.length ≠ 1 then throw .structError
      else if field block 0 1 = qemuExtendedKeyEvent then arm .handleQemuExtendedKeyEvent 10
      else throw .protocolError
  | none => throw .protocolError

def handleProtocol : Srv σ Unit := do
  let buffer := (← get).buffer
  let ptype := field buffer 0 1
  let nbytes := typeLen ptype
  if buffer.length < nbytes then
    arm .handleProtocol (nbytes + 1)
  else
    del nbytes
    handleBlock hooks (MsgC2S.lookup ptype) (slice buffer 1 (nbytes - 1))

def handleQemuExtendedKeyEvent : Srv σ Unit := do
  let buffer := (← get).buffer
  if buffer.length < 10 then
    throw .structError
  else
    del 12
    call hooks (.keyEventExtended (field buffer 2 4) (field buffer 0 2) (field buffer 6 4))
    arm .handleProtocol 1

/-- `self._handler[0]()`. -/
def dispatch : Method → Srv σ Unit
  | .handleVersion => handleVersion hooks
  | .handleSecurity => handleSecurity
  | .handleVNCAuthResponse => handleVNCAuthResponse
  | .handleClientInit => handleClientInit hooks
  | .handleProtocol => handleProtocol hooks
  | .handleQemuExtendedKeyEvent => handleQemuExtendedKeyEvent hooks

/-! ## What the methods do to the parser -/

section Spec

variable {hooks} {s : RFBServer σ}

@[simp] theorem run_arm (method : Method) (threshold : ℕ) :
    (arm method threshold).run s = .ok () { s with handler := (method, threshold) } := rfl

@[simp] theorem run_del (n : ℕ) :
    (del n).run s = .ok () { s with buffer := s.buffer.drop n } := rfl

theorem run_call_ok {c : Call} {app : σ} (h : hooks.body c s.app = .ok app) :
    (call hooks c).run s = .ok () { s with app := app, calls := s.calls ++ [c] } := by
  simp [call, EStateM.run, h]

theorem run_call_error {c : Call} {exc : PyError} (h : hooks.body c s.app = .error exc) :
    (call hooks c).run s = .error exc { s with calls := s.calls ++ [c] } := by
  simp [call, EStateM.run, h]

@[simp] theorem ensures_arm {method : Method} {threshold : ℕ} {Q : Unit → RFBServer σ → Prop}
    {E : PyError → RFBServer σ → Prop} :
    Ensures (arm method threshold) s Q E ↔ Q () { s with handler := (method, threshold) } :=
  Iff.rfl

@[simp] theorem ensures_del {n : ℕ} {Q : Unit → RFBServer σ → Prop}
    {E : PyError → RFBServer σ → Prop} :
    Ensures (del n) s Q E ↔ Q () { s with buffer := s.buffer.drop n } :=
  Iff.rfl

/-- The handler after a version line; an unknown version leaves the old one. -/
def afterVersion (passwordRequired : Bool) (handler : Method × ℕ) (msg : Bytes) : Method × ℕ :=
  if slice msg 8 3 ∈ oldVersions then
    if passwordRequired then (.handleVNCAuthResponse, 16) else (.handleClientInit, 1)
  else if slice msg 8 3 ∈ newVersions then (.handleSecurity, 1)
  else handler

def versionCalls (msg : Bytes) : List Call :=
  if ¬ versionStart.isPrefixOf msg ∧ msg.getLast? = some 10 then [.loseConnection] else []

def afterSecurity (sectype : ℕ) : Method × ℕ :=
  if sectype = AuthTypes.VNC_AUTHENTICATION then (.handleVNCAuthResponse, 16)
  else (.handleClientInit, 1)

theorem run_handleVersion :
    (handleVersion hooks).run s = .ok ()
      { s with
        handler := afterVersion s.passwordRequired s.handler (s.buffer.take 12)
        buffer := s.buffer.drop 12
        calls := s.calls ++ versionCalls (s.buffer.take 12) } := by
  have hlose : ∀ t : RFBServer σ, (call hooks .loseConnection).run t =
      .ok () { t with calls := t.calls ++ [.loseConnection] } := fun t => run_call_ok rfl
  have hread : (get : Srv σ (RFBServer σ)).run s = .ok s s := rfl
  simp only [handleVersion, EStateM.run_bind, hread, run_del]
  unfold afterVersion versionCalls
  split_ifs <;> simp [*, EStateM.run_bind]

theorem run_handleSecurity :
    handleSecurity.run s = .ok ()
      { s with handler := afterSecurity (field s.buffer 0 1), buffer := s.buffer.drop 1 } := by
  have hread : (get : Srv σ (RFBServer σ)).run s = .ok s s := rfl
  simp only [handleSecurity, EStateM.run_bind, hread, run_del]
  unfold afterSecurity
  split_ifs <;> rfl

theorem run_handleVNCAuthResponse :
    handleVNCAuthResponse.run s = .ok ()
      { s with handler := (.handleClientInit, 1), buffer := s.buffer.drop 16 } := rfl

theorem run_handleClientInit :
    (handleClientInit hooks).run s =
      (call hooks (.clientInit (field s.buffer 0 1))).run
        { s with handler := (.handleProtocol, 1), buffer := s.buffer.drop 1 } := rfl

theorem run_handleProtocol_short (h : s.buffer.length < typeLen (field s.buffer 0 1)) :
    (handleProtocol hooks).run s = .ok ()
      { s with handler := (.handleProtocol, typeLen (field s.buffer 0 1) + 1) } := by
  have hread : (get : Srv σ (RFBServer σ)).run s = .ok s s := rfl
  simp only [handleProtocol, EStateM.run_bind, hread, if_pos h, run_arm]

theorem run_handleProtocol_block (h : typeLen (field s.buffer 0 1) ≤ s.buffer.length) :
    (handleProtocol hooks).run s =
      (handleBlock hooks (MsgC2S.lookup (field s.buffer 0 1))
        (slice s.buffer 1 (typeLen (field s.buffer 0 1) - 1))).run
          { s with buffer := s.buffer.drop (typeLen (field s.buffer 0 1)) } := by
  have hread : (get : Srv σ (RFBServer σ)).run s = .ok s s := rfl
  simp only [handleProtocol, EStateM.run_bind, hread, if_neg (Nat.not_lt.2 h), run_del]

/-! ## Progress -/

theorem one_le_afterVersion {passwordRequired : Bool} {handler : Method × ℕ} {msg : Bytes}
    (h : 1 ≤ handler.2) : 1 ≤ (afterVersion passwordRequired handler msg).2 := by
  unfold afterVersion
  split_ifs
  · exact Nat.le_add_left 1 15
  · exact le_rfl
  · exact le_rfl
  · exact h

theorem one_le_afterSecurity (sectype : ℕ) : 1 ≤ (afterSecurity sectype).2 := by
  unfold afterSecurity
  split_ifs
  · exact Nat.le_add_left 1 15
  · exact le_rfl

/-- Only a type that the protocol does not define and the one without an entry have length zero. -/
theorem typeLen_eq_zero_iff {ptype : ℕ} :
    typeLen ptype = 0 ↔
      MsgC2S.lookup ptype = none ∨ MsgC2S.lookup ptype = some .clientCutText := by
  unfold typeLen
  cases MsgC2S.lookup ptype with
  | none => simp
  | some kind => cases kind <;> simp [TYPE_LEN]

/-- The buffer got shorter, or the parser waits for more of it. -/
def Advanced (s t : RFBServer σ) : Prop :=
  1 ≤ t.handler.2 ∧
    (t.buffer.length < s.buffer.length ∨
      (t.buffer = s.buffer ∧ t.buffer.length < t.handler.2))

theorem call_keeps {c : Call} {n : ℕ} (hpos : 1 ≤ s.handler.2) (hlen : s.buffer.length ≤ n) :
    Ensures (call hooks c) s (fun _ t => 1 ≤ t.handler.2 ∧ t.buffer.length ≤ n)
      (fun _ t => 1 ≤ t.handler.2) := by
  cases hbody : hooks.body c s.app with
  | ok app => exact (ensures_of_run_ok (run_call_ok hbody)).2 ⟨hpos, hlen⟩
  | error exc => exact (ensures_of_run_error (run_call_error hbody)).2 hpos

/-- Behind the block the buffer is left as it is or gets shorter still. -/
theorem handleBlock_keeps {kind : Option MsgC2S} {block : Bytes} (hpos : 1 ≤ s.handler.2) :
    Ensures (handleBlock hooks kind block) s
      (fun _ t => 1 ≤ t.handler.2 ∧ t.buffer.length ≤ s.buffer.length)
      (fun _ t => 1 ≤ t.handler.2) := by
  unfold handleBlock
  split
  · exact call_keeps hpos le_rfl
  · simp only [ensures_bind, ensures_get, ensures_ite, ensures_throw, ensures_del]
    refine ⟨fun _ => hpos, fun _ => call_keeps hpos ?_⟩
    simp
  · exact call_keeps hpos le_rfl
  · exact call_keeps hpos le_rfl
  · exact call_keeps hpos le_rfl
  · exact call_keeps hpos le_rfl
  · simp only [ensures_ite, ensures_throw]
    exact ⟨fun _ => hpos, fun _ => ⟨fun _ => ⟨Nat.le_add_left 1 9, le_rfl⟩, fun _ => hpos⟩⟩
  · exact hpos

/-- Every call of a parked method takes something off the buffer, leaves the parser waiting for
more, or raises, unless it is called on a ClientCutText. -/
theorem dispatch_advances (hpos : 1 ≤ s.handler.2) (hready : s.handler.2 ≤ s.buffer.length)
    (hcut : ¬ (s.handler.1 = .handleProtocol ∧
      MsgC2S.lookup (field s.buffer 0 1) = some .clientCutText)) :
    Ensures (dispatch hooks s.handler.1) s (fun _ => Advanced s) (fun _ t => 1 ≤ t.handler.2) := by
  have hdrop : ∀ {n}, 1 ≤ n → (s.buffer.drop n).length < s.buffer.length := by
    intro n hn
    rw [List.length_drop]
    omega
  cases hmethod : s.handler.1 with
  | handleVersion =>
      refine (ensures_of_run_ok run_handleVersion).2 ⟨one_le_afterVersion hpos, Or.inl ?_⟩
      exact hdrop (by decide)
  | handleSecurity =>
      refine (ensures_of_run_ok run_handleSecurity).2 ⟨one_le_afterSecurity _, Or.inl ?_⟩
      exact hdrop le_rfl
  | handleVNCAuthResponse =>
      exact (ensures_of_run_ok run_handleVNCAuthResponse).2 ⟨le_rfl, Or.inl (hdrop (by decide))⟩
  | handleClientInit =>
      refine (ensures_of_run_eq run_handleClientInit).2 ((call_keeps le_rfl le_rfl).mono ?_ ?_)
      · rintro _ t ⟨ht, hlen⟩
        exact ⟨ht, Or.inl (lt_of_le_of_lt hlen (hdrop le_rfl))⟩
      · exact fun _ _ ht => ht
  | handleProtocol =>
      by_cases hshort : s.buffer.length < typeLen (field s.buffer 0 1)
      · refine (ensures_of_run_ok (run_handleProtocol_short hshort)).2
          ⟨Nat.le_add_left 1 _, Or.inr ⟨rfl, ?_⟩⟩
        exact Nat.lt_succ_of_lt hshort
      · have hrun := @run_handleProtocol_block _ hooks s (Nat.not_lt.1 hshort)
        refine (ensures_of_run_eq hrun).2 ?_
        cases hkind : MsgC2S.lookup (field s.buffer 0 1) with
        | none => exact hpos
        | some kind =>
            have hlen : 1 ≤ typeLen (field s.buffer 0 1) := by
              refine Nat.one_le_iff_ne_zero.2 fun hzero => ?_
              rcases typeLen_eq_zero_iff.1 hzero with hnone | hcuttext
              · simp [hkind] at hnone
              · exact hcut ⟨hmethod, hcuttext⟩
            refine Ensures.mono (handleBlock_keeps ?_) ?_ ?_
            · exact hpos
            · rintro _ t ⟨ht, ht'⟩
              exact ⟨ht, Or.inl (lt_of_le_of_lt ht' (hdrop hlen))⟩
            · exact fun _ _ ht => ht
  | handleQemuExtendedKeyEvent =>
      simp only [dispatch, handleQemuExtendedKeyEvent, ensures_bind, ensures_get, ensures_ite,
        ensures_throw, ensures_del, ensures_arm]
      refine ⟨fun _ => hpos, fun _ => Ensures.mono (call_keeps ?_ le_rfl) ?_ ?_⟩
      · exact hpos
      · rintro _ t ⟨_, hlen⟩
        exact ⟨le_rfl, Or.inl (lt_of_le_of_lt hlen (hdrop (by decide)))⟩
      · exact fun _ _ ht => ht

end Spec

end RFBServer

/-- A parser with the exception, if any, that escaped its last `dataReceived`. -/
structure Parser (σ : Type) where
  server : RFBServer σ
  raised : Option PyError := none
  deriving DecidableEq, Repr

namespace Parser

variable {σ : Type} (hooks : Hooks σ)

/-- The parser as `connectionMade` leaves it. -/
def init (passwordRequired : Bool) (app : σ) : Parser σ :=
  { server := { passwordRequired := passwordRequired, app := app } }

def ofResult : EStateM.Result PyError (RFBServer σ) Unit → Parser σ
  | .ok _ s => { server := s }
  | .error exc s => { server := s, raised := some exc }

/-- `while len(self.buffer) >= self._handler[1]`, as long as nothing was raised. -/
def Ready (p : Parser σ) : Prop :=
  p.raised = none ∧ p.server.handler.2 ≤ p.server.buffer.length

instance (p : Parser σ) : Decidable p.Ready :=
  inferInstanceAs (Decidable (_ ∧ _))

/-- One turn of the loop. -/
def iterate (p : Parser σ) : Option (Parser σ) :=
  if p.Ready then
    some (ofResult ((RFBServer.dispatch hooks p.server.handler.1).run p.server))
  else
    none

/-- `self.buffer += data`. -/
def enter (p : Parser σ) (data : Bytes) : Parser σ :=
  { server := { p.server with buffer := p.server.buffer ++ data } }

/-- `dataReceived(data)` returns or raises, leaving `p'`. -/
def Receives (p : Parser σ) (data : Bytes) (p' : Parser σ) : Prop :=
  HaltsAt (iterate hooks) (p.enter data) p'

/-- The chunks one after the other, whether or not the parser raises on them. -/
def ReceivesAll : Parser σ → List Bytes → Parser σ → Prop
  | p, [], p' => p = p'
  | p, chunk :: chunks, p' => ∃ m, p.Receives hooks chunk m ∧ ReceivesAll m chunks p'

/-- `dataReceived(data)`, given up on after `fuel` turns of the loop. -/
def dataReceived (fuel : ℕ) (p : Parser σ) (data : Bytes) : Option (Parser σ) :=
  run (iterate hooks) fuel (p.enter data)

theorem exists_dataReceived_iff {p p' : Parser σ} {data : Bytes} :
    (∃ fuel, dataReceived hooks fuel p data = some p') ↔ p.Receives hooks data p' :=
  exists_run_iff_haltsAt

/-! ## The loop -/

variable {hooks} {p p' : Parser σ}

/-- Thresholds are positive: a method is never called on an empty buffer. -/
def Armed (p : Parser σ) : Prop :=
  1 ≤ p.server.handler.2

/-- The loop is about to handle a ClientCutText. -/
def AtCutText (p : Parser σ) : Prop :=
  p.Ready ∧ p.server.handler.1 = .handleProtocol ∧
    MsgC2S.lookup (field p.server.buffer 0 1) = some .clientCutText

/-- The condition of a chunk: the loop never stands before a ClientCutText. -/
def NoCutText (hooks : Hooks σ) (p : Parser σ) (data : Bytes) : Prop :=
  ∀ q, Reaches (iterate hooks) (p.enter data) q → ¬ q.AtCutText

theorem iterate_eq_some_iff : iterate hooks p = some p' ↔
    p.Ready ∧ p' = ofResult ((RFBServer.dispatch hooks p.server.handler.1).run p.server) := by
  unfold iterate
  split_ifs with hready
  · simp [hready, eq_comm]
  · simp [hready]

theorem iterate_eq_none_iff : iterate hooks p = none ↔ ¬ p.Ready := by
  unfold iterate
  split_ifs with hready
  · simp [hready]
  · simp [hready]

/-- The handled ClientCutText is still there. -/
theorem iterate_cutText (h : p.AtCutText) :
    iterate hooks p = some { server := { p.server with
      calls := p.server.calls ++ [.clientCutText []] } } := by
  rcases h with ⟨hready, hmethod, hkind⟩
  have hzero : typeLen (field p.server.buffer 0 1) = 0 :=
    RFBServer.typeLen_eq_zero_iff.2 (Or.inr hkind)
  have hrun : (RFBServer.handleProtocol hooks).run p.server = .ok ()
      { p.server with calls := p.server.calls ++ [.clientCutText []] } := by
    have hle : typeLen (field p.server.buffer 0 1) ≤ p.server.buffer.length := by
      rw [hzero]
      exact Nat.zero_le _
    have hbody : hooks.body (.clientCutText []) p.server.app = .ok p.server.app := rfl
    have hblock : slice p.server.buffer 1 (0 - 1) = [] := by simp [slice]
    rw [RFBServer.run_handleProtocol_block hle, hkind, hzero, hblock, List.drop_zero]
    exact RFBServer.run_call_ok hbody
  rw [iterate, if_pos hready, hmethod, RFBServer.dispatch, hrun]
  rfl

theorem AtCutText.stalls (h : p.AtCutText) : ¬ Terminates (iterate hooks) p := by
  refine not_terminates_of_invariant ?_ h
  rintro q ⟨hready, hmethod, hkind⟩
  refine ⟨_, iterate_cutText ⟨hready, hmethod, hkind⟩, ?_⟩
  exact ⟨⟨rfl, hready.2⟩, hmethod, hkind⟩

/-- What the loop still has to do: nothing once a method has raised, else one for every byte and one
more while a method is due. -/
def work (p : Parser σ) : ℕ :=
  if p.raised.isSome then 0 else 2 * p.server.buffer.length + (if p.Ready then 1 else 0) + 1

theorem iterate_armed (hstep : iterate hooks p = some p') (harmed : p.Armed)
    (hcut : ¬ p.AtCutText) : p'.Armed ∧ p'.work < p.work := by
  rcases iterate_eq_some_iff.1 hstep with ⟨hready, rfl⟩
  have hadvances := @RFBServer.dispatch_advances _ hooks p.server harmed hready.2
    (fun h => hcut ⟨hready, h⟩)
  have hwork : p.work = 2 * p.server.buffer.length + 1 + 1 := by
    simp [work, hready, hready.1]
  rw [hwork]
  cases hrun : (RFBServer.dispatch hooks p.server.handler.1).run p.server with
  | ok _ t =>
      rcases (ensures_of_run_ok hrun).1 hadvances with ⟨ht, hless⟩
      refine ⟨ht, ?_⟩
      rcases hless with hshorter | ⟨hsame, hwaits⟩
      · have hle : (ofResult (.ok () t)).work ≤ 2 * t.buffer.length + 1 + 1 := by
          unfold work
          split_ifs <;> simp [ofResult]
        exact lt_of_le_of_lt hle (by omega)
      · have hidle : ¬ (ofResult (.ok () t)).Ready := by
          rintro ⟨_, hle⟩
          exact absurd hwaits (Nat.not_lt.2 hle)
        have hrest : (ofResult (.ok () t)).work = 2 * t.buffer.length + 0 + 1 := by
          simp only [work, if_neg hidle]
          rfl
        rw [hrest, hsame]
        omega
  | error exc t =>
      exact ⟨(ensures_of_run_error hrun).1 hadvances, Nat.succ_pos _⟩

/-- A loop that never stands before a ClientCutText comes to rest. -/
theorem terminates_of_noCutText (harmed : p.Armed)
    (hnone : ∀ q, Reaches (iterate hooks) p q → ¬ q.AtCutText) : Terminates (iterate hooks) p := by
  have hstart : p.Armed ∧ Reaches (iterate hooks) p p := ⟨harmed, Relation.ReflTransGen.refl⟩
  refine @terminates_of_measure _ (iterate hooks) ℕ (· < ·) Nat.lt_wfRel.wf work
    (fun q => q.Armed ∧ Reaches (iterate hooks) p q) ?_ _ hstart
  rintro q q' hstep ⟨hq, hreach⟩
  rcases iterate_armed hstep hq (hnone q hreach) with ⟨hq', hwork⟩
  exact ⟨⟨hq', hreach.tail hstep⟩, hwork⟩

/-- A chunk comes to an end exactly when the loop never stands before a ClientCutText. -/
theorem receives_iff_noCutText {data : Bytes} (harmed : p.Armed) :
    (∃ p', p.Receives hooks data p') ↔ p.NoCutText hooks data := by
  constructor
  · intro hreceives q hreach hcut
    exact hcut.stalls ((terminates_iff_of_reaches hreach).1 hreceives)
  · intro hnone
    exact @terminates_of_noCutText _ hooks (p.enter data) harmed hnone

theorem armed_of_iterate (hstep : iterate hooks p = some p') (harmed : p.Armed) : p'.Armed := by
  by_cases hcut : p.AtCutText
  · rw [iterate_cutText hcut] at hstep
    cases hstep
    exact harmed
  · exact (iterate_armed hstep harmed hcut).1

theorem Receives.armed {data : Bytes} (h : p.Receives hooks data p') (harmed : p.Armed) :
    p'.Armed :=
  reaches_invariant (fun _ _ => armed_of_iterate) h.1 harmed

end Parser

end Vncdotool
