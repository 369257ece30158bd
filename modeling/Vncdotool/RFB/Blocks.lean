import Vncdotool.RFB.Frames

/-!
# Blocks — the lengths of block that the handlers unpack

A handler unpacks, slices and indexes the block it is handed, and it is handed what the handler
before it asked for.  `Handler.Unpacks` says which lengths a handler can take; `Feeds` says of an
action that it returns and leaves the loop armed for such a length.  Every handler feeds the next
one, but for those whose block is a payload that they cannot decode (`Handler.Undecodable`), a
password that cannot be encrypted, a key exchange that fails, and the subrectangles of CoRRE.
-/

namespace Vncdotool

open Wire Streaming

variable {σ : Type}

/-! ## The lengths -/

namespace RFBClient.HextileEncoding

/-- The bytes of the fields that a Hextile subencoding announces. -/
def fieldsLength (bypp : ℕ) (subencoding : UInt8) : ℕ :=
  (if has subencoding BACKGROUND_SPECIFIED then bypp else 0) +
    (if has subencoding FOREGROUND_SPECIFIED then bypp else 0) +
    (if has subencoding ANY_SUBRECTS then 1 else 0)

end RFBClient.HextileEncoding

/-- The generator stands at its `yield` and has asked for `n` bytes. -/
def Generator.Awaits (n : ℕ) : Generator → Prop
  | .decodePixels target suspended =>
      suspended = true ∧ n = target.width * target.height * target.bypp
  | .decodeForClient _ suspended => suspended = true ∧ n = 4

/-- `n` bytes are a block that the handler can unpack, where a pixel has `bypp` bytes. -/
def Handler.Unpacks (bypp n : ℕ) : Handler → Prop
  | .numberSecurityTypes => n = 1
  | .auth => n = 4
  | .connFailed => n = 4
  | .vncAuth => n = 16
  | .dhAuth => n = 4
  | .vncAuthResult => n = 4
  | .authFailed => n = 4
  | .serverInit => n = 24
  | .connection => n = 1
  | .framebufferUpdate => n = 3
  | .rectangle => n = 12
  | .pumpBlock generator _ => generator.Awaits n
  | .decodeRRE _ => n = 4 + bypp
  | .rreSubRectangles _ _ => ∃ k, n = (8 + bypp) * k
  | .decodeCORRE _ => n = 4 + bypp
  | .decodeHextile _ => n = 1
  | .decodeHextileSubrect subencoding _ _ _ =>
      n = RFBClient.HextileEncoding.fieldsLength bypp subencoding
  | .decodeHextileRAW _ tw th => n = tw * th * bypp
  | .decodeHextileSubrectsColoured _ => ∃ k, n = (bypp + 2) * k
  | .decodeHextileSubrectsFG _ => ∃ k, n = 2 * k
  | .decodeZRLE _ => n = 4
  | .decodePseudoCursor rect => n = RFBClient.cursorLength bypp rect.width rect.height
  | .colourMapEntries => n = 5
  | .colourMapEntriesValue _ => ∃ k, n = 6 * k
  | .serverCutText => n = 7
  | _ => True

/-- The loop is armed for a block that the parked handler can unpack. -/
def RFBClient.Fed (c : RFBClient σ) : Prop :=
  c.expectedHandler.Unpacks c.pixelFormat.bypp c.expectedLen

/-! ## The payloads -/

/-- The factory's password, if it has one, is one that `_vnc_des` takes. -/
def RFBClient.Encryptable (c : RFBClient σ) : Prop :=
  ∀ password ∈ c.factory.password, ∃ key, vncDes password = .ok key

/-- The credentials that `_encryptArd` encrypts. -/
def RFBClient.ardCredentials (env : Env) (c : RFBClient σ) : Bytes :=
  (String.ofList (padNul 64 (c.factory.username.getD env.typedUsername).toList ++
    padNul 64 (c.factory.password.getD env.typedPassword).toList)).toUTF8.toList

/-- The key exchange with the server key `block` goes through. -/
def RFBClient.Exchanges (env : Env) (c : RFBClient σ) (block : Bytes) : Prop :=
  ∃ sharedKey y ciphertext,
    env.dhExchange (unpackBE c.modulus) c.generator (unpackBE block) = .ok (sharedKey, y) ∧
      env.aesECB (env.md5 sharedKey) (c.ardCredentials env) = .ok ciphertext ∧
        y < 256 ^ c.keyLen

/-- `vncProtocolError` or `vncAuthFailed`. -/
def Event.isReport : Event → Bool
  | .callback (.vncProtocolError _) => true
  | .callback (.vncAuthFailed _) => true
  | _ => false

/-- The failures that have been reported. -/
def RFBClient.reports (c : RFBClient σ) : ℕ :=
  c.log.countP Event.isReport

/-- Nothing but more that is not a report is on the log. -/
def Adds (c c' : RFBClient σ) : Prop :=
  c.log <+: c'.log ∧ c'.reports = c.reports

theorem Adds.refl (c : RFBClient σ) : Adds c c :=
  ⟨List.prefix_rfl, rfl⟩

theorem Adds.trans {c c₁ c₂ : RFBClient σ} (h : Adds c c₁) (h' : Adds c₁ c₂) : Adds c c₂ :=
  ⟨h.1.trans h'.1, h'.2.trans h.2⟩

theorem Adds.record {event : Event} (h : event.isReport = false) (c : RFBClient σ) :
    Adds c { c with log := c.log ++ [event] } := by
  refine ⟨List.prefix_append _ _, ?_⟩
  change (c.log ++ [event]).countP _ = _
  rw [List.countP_append, List.countP_singleton, h]
  rfl

/-- What is filled is filled with a colour, and no password is asked for. -/
def Callback.Harmless : Callback → Prop
  | .fillRectangle _ _ _ _ color => color ≠ none
  | .vncRequestPassword => False
  | _ => True

/-- The callbacks of a class of clients leave the parser alone, do not report failures of their own,
and do not raise but for a fill without a colour and a password that cannot be encrypted. -/
structure Runtime.Obliging (rt : Runtime σ) : Prop where
  tame : rt.Tame
  adds : ∀ cb c, Ensures (rt.override cb) c (fun _ => Adds c) fun _ => Adds c
  format : ∀ cb c, cb ≠ .vncConnectionMade →
    Ensures (rt.override cb) c (fun _ c' => c'.pixelFormat = c.pixelFormat) fun _ _ => True
  returns : ∀ cb c, cb.Harmless → Ensures (rt.override cb) c (fun _ _ => True) fun _ _ => False
  asks : ∀ c : RFBClient σ, c.Encryptable →
    Ensures (rt.override .vncRequestPassword) c (fun _ _ => True) fun _ _ => False

/-! ## Feeding -/

/-- `x`, run from `c`, returns, and the loop is armed for a block that the handler can unpack. -/
def Feeds (c : RFBClient σ) (x : Py σ Unit) : Prop :=
  Ensures x c (fun _ c' => c'.Fed) fun _ _ => False

section Rules

variable {rt : Runtime σ} {c : RFBClient σ} {block : Bytes}

theorem RFBClient.Fed.of_armed {c' : RFBClient σ} (hfed : c.Fed) (harmed : c'.armed = c.armed)
    (hformat : c'.pixelFormat = c.pixelFormat) : c'.Fed := by
  unfold RFBClient.Fed
  rw [show c'.expectedHandler = c.expectedHandler from congrArg Prod.fst harmed,
    show c'.expectedLen = c.expectedLen from congrArg Prod.snd harmed, hformat]
  exact hfed

/-- A callback that the client may make anywhere. -/
theorem Runtime.Obliging.call (hrt : rt.Obliging) {cb : Callback} (hpainted : cb.Harmless)
    (hmade : cb ≠ .vncConnectionMade) {Q : RFBClient σ → Prop} (c : RFBClient σ)
    (hQ : ∀ c' : RFBClient σ, Held c c' → c'.pixelFormat = c.pixelFormat → Q c') :
    Ensures (rt.call cb) c (fun _ => Q) fun _ _ => False := by
  let c₁ : RFBClient σ := { c with log := c.log ++ [.callback cb] }
  have hheld := hrt.tame cb c₁
  have hformat := hrt.format cb c₁ hmade
  have hreturns := hrt.returns cb c₁ hpainted
  refine ensures_bind.2 ?_
  change Ensures (rt.override cb) c₁ _ _
  refine Ensures.mono ((hheld.and hformat).and hreturns) ?_ ?_
  · intro _ c' hall
    have hheld := hall.1.1
    exact hQ c' ⟨hheld.stage, hheld.armed, hheld.aborted, hheld.size⟩ hall.1.2
  · exact fun _ _ hall => hall.2

theorem Runtime.Obliging.feeds_call (hrt : rt.Obliging) {cb : Callback} (hpainted : cb.Harmless)
    (hmade : cb ≠ .vncConnectionMade) {k : Unit → Py σ Unit}
    (hk : ∀ c' : RFBClient σ, c'.armed = c.armed → c'.pixelFormat = c.pixelFormat →
      Feeds c' (k ())) : Feeds c (rt.call cb >>= k) :=
  ensures_bind.2 (hrt.call hpainted hmade c fun c' hheld => hk c' hheld.armed)

/-- Setting attributes of the parser. -/
theorem feeds_modify {g : RFBClient σ → RFBClient σ} {k : PUnit → Py σ Unit}
    (hk : Feeds (g c) (k ⟨⟩)) : Feeds c (modify g >>= k) :=
  hk

variable (hrt : rt.Obliging)

include hrt

/-- A client that gives up outside the pump stays armed as it was. -/
theorem feeds_protocolError (hfed : c.Fed) (reason : ProtocolFailure) :
    Feeds c (rt.protocolError reason) := by
  refine hrt.feeds_call (by trivial) (by simp) ?_
  intro c' harmed hformat
  exact hfed.of_armed harmed hformat

theorem feeds_abortConnection (hfed : c.Fed) (reason : ProtocolFailure) :
    Feeds c (rt.abortConnection reason) := by
  have hfed' : RFBClient.Fed { c with aborted := true } := hfed
  exact feeds_modify (feeds_protocolError hrt hfed' reason)

end Rules

/-! ## The handshake -/

section Handshake

variable {rt : Runtime σ} {c : RFBClient σ} {block : Bytes}

/-- The key exchange goes through exactly when the DH call, the cipher and the encoding of the own
public value do. -/
theorem ensures_dhAuthCert_iff {Q : RFBClient σ → Prop}
    (hQ : ∀ c' : RFBClient σ, c'.armed = (.vncAuthResult, 4) → Q c') :
    Ensures (RFBClient.handleDHAuthCert rt block) c (fun _ => Q) (fun _ _ => False) ↔
      c.Exchanges rt.env block := by
  let c₁ : RFBClient σ := { c with
    serverKey := block
    factory := { c.factory with
      username := some (c.factory.username.getD rt.env.typedUsername)
      password := some (c.factory.password.getD rt.env.typedPassword) } }
  change Ensures (rt.encryptArd >>= fun _ => expect .vncAuthResult 4) c₁ _ _ ↔ _
  rw [ensures_bind]
  unfold Runtime.encryptArd RFBClient.Exchanges
  rw [ensures_bind, ensures_get]
  dsimp only
  rw [ensures_bind]
  change Ensures (liftExcept (rt.env.dhExchange (unpackBE c.modulus) c.generator
    (unpackBE block))) c₁ _ _ ↔ _
  cases hdh : rt.env.dhExchange (unpackBE c.modulus) c.generator (unpackBE block) with
  | error exc => exact iff_of_false id fun ⟨_, _, _, hok, _⟩ => by cases hok
  | ok keys =>
      rcases keys with ⟨sharedKey, y⟩
      change Ensures (liftExcept (rt.env.aesECB (rt.env.md5 sharedKey) (c.ardCredentials rt.env)) >>=
        fun ciphertext => _) c₁ _ _ ↔ _
      rw [ensures_bind]
      cases haes : rt.env.aesECB (rt.env.md5 sharedKey) (c.ardCredentials rt.env) with
      | error exc =>
          refine iff_of_false id ?_
          rintro ⟨sharedKey', y', ciphertext, hok, hcipher, _⟩
          cases hok
          rw [haes] at hcipher
          cases hcipher
      | ok ciphertext =>
          change Ensures (if 256 ^ c.keyLen ≤ y then throw PyError.overflowError >>= _ else _)
            c₁ _ _ ↔ _
          rw [ensures_ite]
          constructor
          · intro h
            refine ⟨sharedKey, y, ciphertext, rfl, haes, not_le.1 fun hlarge => ?_⟩
            exact h.1 hlarge
          · rintro ⟨sharedKey', y', ciphertext', hok, _, hsmall⟩
            cases hok
            exact ⟨fun hlarge => absurd hsmall (not_lt.2 hlarge), fun _ => hQ _ rfl⟩

variable (hrt : rt.Obliging)

include hrt

end Handshake

/-! ## Messages and the pump -/

section Pump

variable {rt : Runtime σ} {c : RFBClient σ} {block : Bytes} (hrt : rt.Obliging)

include hrt

/-- A buffer, or the connection is given up. -/
theorem ensures_rectBuffer (hfed : c.Fed) (width height : ℕ) :
    Ensures (RFBClient.rectBuffer rt width height) c
      (fun target c' => (target = none ∧ c'.Fed) ∨
        (target.isSome = true ∧ c'.pixelFormat = c.pixelFormat)) fun _ _ => False := by
  have habort (reason : ProtocolFailure) :
      Ensures (do
        rt.abortConnection reason
        return none : Py σ (Option RectBuffer)) c
        (fun target c' => (target = none ∧ c'.Fed) ∨
          (target.isSome = true ∧ c'.pixelFormat = c.pixelFormat)) fun _ _ => False := by
    refine ensures_bind.2 (Ensures.mono (feeds_abortConnection hrt hfed reason) ?_ ?_)
    · exact fun _ _ hfed' => Or.inl ⟨rfl, hfed'⟩
    · exact fun _ _ h => h
  have hmake (c' : RFBClient σ) (hformat : c'.pixelFormat = c.pixelFormat)
      (hlong : width * height * c'.pixelFormat.bypp ≤ c'.rectBacking.length) :
      Ensures (do
        let c ← get
        let buffer ← liftExcept
          (RectBuffer.make width height c.pixelFormat.bypp c.rectBacking)
        return some buffer : Py σ (Option RectBuffer)) c'
        (fun target c' => (target = none ∧ c'.Fed) ∨
          (target.isSome = true ∧ c'.pixelFormat = c.pixelFormat)) fun _ _ => False := by
    refine ensures_bind.2 (ensures_bind.2 ?_)
    unfold RectBuffer.make
    dsimp only
    rw [if_neg (not_lt.2 hlong)]
    exact Or.inr ⟨rfl, hformat⟩
  refine ensures_bind.2 (ensures_ite.2 ⟨fun _ => habort _, fun _ => ensures_ite.2 ⟨?_, ?_⟩⟩)
  · intro _
    refine ensures_ite.2 ⟨fun _ => ensures_bind.2 ?_, fun _ => habort _⟩
    refine hmake _ rfl ?_
    exact (List.length_replicate ..).ge
  · exact fun hlong => hmake c rfl (not_lt.1 hlong)

end Pump

/-! ## The encodings outside the pump -/

section Encodings

variable {rt : Runtime σ} {c : RFBClient σ} {block : Bytes} (hrt : rt.Obliging)

include hrt

end Encodings

/-! ## Every handler -/

namespace RFBClient

/-- The answer to the challenge is written, unless the password cannot be encrypted. -/
theorem ensures_sendPassword (env : Env) {password : String} {c : RFBClient σ}
    {Q : RFBClient σ → Prop} {E : PyError → RFBClient σ → Prop}
    (hwritten : ∀ key, vncDes password = .ok key →
      Q { c with log := c.log ++ [.write (env.tripleDES key c.challenge)] })
    (hraised : ∀ exc, vncDes password = .error exc → E exc c) :
    Ensures (Runtime.sendPassword ⟨env, fun _ => pure ()⟩ password) c (fun _ => Q) E := by
  refine ensures_bind.2 ?_
  cases hkey : vncDes password with
  | error exc => exact hraised exc hkey
  | ok key => exact hwritten key hkey

/-- A request for a password closes the connection where there is none, and else is answered. -/
theorem ensures_requestPassword (env : Env) {c : RFBClient σ} {Q : Unit → RFBClient σ → Prop}
    {E : PyError → RFBClient σ → Prop} :
    Ensures (defaultCallback env .vncRequestPassword) c Q E ↔
      (c.factory.password = none → Ensures loseConnection c Q E) ∧
        ∀ password, c.factory.password = some password →
          Ensures (Runtime.sendPassword ⟨env, fun _ => pure ()⟩ password) c Q E := by
  cases hpassword : c.factory.password with
  | none =>
      have hrun : (defaultCallback env .vncRequestPassword).run c = loseConnection.run c :=
        (run_bind_ok rfl).trans (by simp only [hpassword]; rfl)
      refine (ensures_of_run_eq hrun).trans ⟨fun h => ⟨fun _ => h, fun _ hsome => ?_⟩, fun h => h.1 rfl⟩
      cases hsome
  | some password =>
      have hrun : (defaultCallback env .vncRequestPassword).run c =
          (Runtime.sendPassword ⟨env, fun _ => pure ()⟩ password).run c :=
        (run_bind_ok rfl).trans (by simp only [hpassword]; rfl)
      refine (ensures_of_run_eq hrun).trans ⟨fun h => ⟨fun hnone => ?_, fun _ hsome => ?_⟩,
        fun h => h.2 password rfl⟩
      · cases hnone
      · cases hsome
        exact h

end RFBClient

end Vncdotool
