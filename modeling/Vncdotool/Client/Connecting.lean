import Vncdotool.Client.Operations
import Vncdotool.RFB.Reports

/-!
# Connecting — the Deferred of a connection attempt

`factory.deferred` is fired with an errback by every report of a failure and by a request for a
password that the factory lacks, and with a callback when the client is ready.  Nothing else touches
it, the loss of the connection included.  So an attempt is resolved exactly once if one turn fires
and no other does.
-/

namespace Vncdotool

open Wire Streaming

namespace VNCDoToolClient

variable {P : Pillow} {env : Env}

/-! ## Attempts -/

/-- What becomes of an attempt to connect. -/
inductive Attempt
  /-- `ep.connect(factory)` fails, and there never is a client. -/
  | failed
  /-- There is a client until the connection is lost. -/
  | connected (actions : List Action)

/-- The client when the attempt is over; where there never is one, the factory's. -/
def Attempt.run (P : Pillow) (env : Env) (requested : Option PixelFormat)
    (settings : VNCDoToolFactory) (factory : Factory) : Attempt → RFBClient (VNCDoToolClient P)
  | .failed => finalState (clientConnectionFailed.run (fresh P requested settings factory).client)
  | .connected actions =>
      (lose (actions.foldl (act P env) (fresh P requested settings factory))).client

/-- The session has become ready. -/
def Ready (c : RFBClient (VNCDoToolClient P)) : Prop :=
  .callback .vncConnectionMade ∈ c.log

instance (c : RFBClient (VNCDoToolClient P)) : Decidable (Ready c) :=
  inferInstanceAs (Decidable (_ ∈ _))

/-- The Deferred was fired once and only once: with a callback if the session became ready, with an
errback if not. -/
def Settled (c : RFBClient (VNCDoToolClient P)) : Prop :=
  (Ready c ∧ c.app.factory.deferred = [.callback]) ∨
    (¬ Ready c ∧ c.app.factory.deferred = [.errback])

instance (c : RFBClient (VNCDoToolClient P)) : Decidable (Settled c) :=
  inferInstanceAs (Decidable (_ ∨ _))

/-- The format the application asks for, if any, is one that can be requested and decoded. -/
def Negotiable (requested : Option PixelFormat) : Prop :=
  ∀ pf ∈ requested, RFBClient.Packable pf ∧ pf.rawMode.isOk = true

/-- On this block the handler fires the Deferred. -/
def Fires (env : Env) (c : RFBClient (VNCDoToolClient P)) (handler : Handler) (block : Bytes) :
    Prop :=
  handler.Tells env c block ∧ (handler = .vncAuth → c.factory.password = none)

/-- The step fires the Deferred: it completes a malformed greeting, or is a turn that fires it. -/
def FiresAt (env : Env) (conn : Connection (VNCDoToolClient P)) : Action → Prop
  | .call _ => False
  | .receive data =>
      conn.client.aborted = false ∧ conn.client.stage = .handleInitial ∧
        Connection.Malformed (conn.packet ++ data)
  | .turn =>
      ∃ handler block, conn.pending = some (handler, block) ∧ Fires env conn.client handler block

/-- When the server's name is handled, the format can be had. -/
def Negotiates (conn : Connection (VNCDoToolClient P)) : Action → Prop
  | .turn =>
      ∀ block, conn.pending = some (.serverName, block) →
        Negotiable conn.client.app.requestedPixelFormat
  | _ => True

/-- One step of the attempt fires the Deferred and no other does, and the format can be had. -/
def Attempt.Meets (P : Pillow) (env : Env) (requested : Option PixelFormat)
    (settings : VNCDoToolFactory) (factory : Factory) : Attempt → Prop
  | .failed => True
  | .connected actions =>
      ExactlyOne (act P env) (FiresAt env) (fresh P requested settings factory) actions ∧
        Throughout (act P env) Negotiates (fresh P requested settings factory) actions

/-! ## Steps that leave the Deferred alone -/

/-- From `c` to `c'` the Deferred is not fired. -/
structure Unfired (c c' : RFBClient (VNCDoToolClient P)) : Prop where
  deferred : c'.app.factory.deferred = c.app.factory.deferred
  requested : c'.app.requestedPixelFormat = c.app.requestedPixelFormat
  ready : Ready c' ↔ Ready c

theorem Unfired.refl (c : RFBClient (VNCDoToolClient P)) : Unfired c c :=
  ⟨rfl, rfl, Iff.rfl⟩

theorem Unfired.trans {c c₁ c₂ : RFBClient (VNCDoToolClient P)} (h : Unfired c c₁)
    (h' : Unfired c₁ c₂) : Unfired c c₂ :=
  ⟨h'.deferred.trans h.deferred, h'.requested.trans h.requested, h'.ready.trans h.ready⟩

instance : Std.Refl (Unfired (P := P)) :=
  ⟨Unfired.refl⟩

instance : IsTrans (RFBClient (VNCDoToolClient P)) Unfired :=
  ⟨fun _ _ _ => Unfired.trans⟩

/-- Only one event makes a session ready. -/
theorem ready_of_log {c c' : RFBClient (VNCDoToolClient P)} {events : List Event}
    (hlog : c'.log = c.log ++ events) (h : .callback .vncConnectionMade ∉ events) :
    Ready c' ↔ Ready c := by
  unfold Ready
  rw [hlog, List.mem_append]
  exact ⟨fun hmem => hmem.resolve_right h, Or.inl⟩

theorem ready_record {c : RFBClient (VNCDoToolClient P)} {event : Event}
    (h : event ≠ .callback .vncConnectionMade) :
    Ready { c with log := c.log ++ [event] } ↔ Ready c :=
  ready_of_log rfl fun hmem => h (List.mem_singleton.1 hmem).symm

theorem unfired_record {event : Event} (h : event ≠ .callback .vncConnectionMade) :
    Respects (Unfired (P := P)) (record event) :=
  fun _ => ⟨rfl, rfl, ready_record h⟩

theorem unfired_liftExcept {α : Type} (x : Except PyError α) :
    Respects Unfired (liftExcept x : Py (VNCDoToolClient P) α) := by
  cases x with
  | ok a => exact respects_pure a
  | error exc => exact respects_throw exc

theorem Paints.unfired {c c' : RFBClient (VNCDoToolClient P)} (h : Paints c c') : Unfired c c' := by
  refine ⟨congrArg VNCDoToolFactory.deferred h.app.factory, h.app.requestedPixelFormat, ?_⟩
  rcases h.log with ⟨events, hlog, hevents⟩
  refine ready_of_log hlog fun hmem => ?_
  rcases hevents _ hmem with ⟨x, y, width, height, data, pf, heq⟩
  exact nomatch heq

theorem Slots.unfired {c c' : RFBClient (VNCDoToolClient P)} (h : Slots c c') : Unfired c c' := by
  have happ := h.app
  refine ⟨by rw [happ], by rw [happ], ?_⟩
  rcases h.log with ⟨events, hlog, hevents⟩
  refine ready_of_log hlog fun hmem => ?_
  rcases hevents _ hmem with ⟨data, heq⟩
  exact nomatch heq

theorem unfired_call {cb : Callback} (htells : ¬ cb.Tells) :
    Respects (Unfired (P := P)) ((runtime P env).call cb) := by
  have hrecord : Respects (Unfired (P := P)) (record (.callback cb)) := by
    refine unfired_record fun heq => htells ?_
    cases heq
    trivial
  refine respects_bind hrecord fun _ => ?_
  have hpaints (h : Callback.OnlyPaints cb) : Respects (Unfired (P := P)) (override env cb) :=
    fun c => (paints_override env h c).unfired
  cases cb with
  | vncConnectionMade => exact absurd trivial htells
  | vncRequestPassword => exact absurd trivial htells
  | vncAuthFailed reason => exact absurd trivial htells
  | vncProtocolError reason => exact absurd trivial htells
  | commitUpdate rectangles => exact fun c => (slots_commitUpdate rectangles c).unfired
  | _ => exact hpaints trivial

theorem keeps_unfired : Keeps (Unfired (P := P)) where
  refl := Unfired.refl
  trans _ _ _ := Unfired.trans
  write data := unfired_record nofun
  loseConnection := unfired_record nofun
  state c c' hlog happ _ := by
    refine ⟨by rw [happ], by rw [happ], ready_of_log (hlog.trans (List.append_nil _).symm) ?_⟩
    exact List.not_mem_nil

theorem maintains_unfired : Maintains (runtime P env) Unfired where
  toKeeps := keeps_unfired
  call c _ hcb := unfired_call (fun htells => hcb.not_tells htells) c

theorem announced_unfired : Announced (Unfired (P := P)) := by
  intro c c' hlog happ _
  refine ⟨by rw [happ], by rw [happ], ready_of_log (hlog.trans (List.append_nil _).symm) ?_⟩
  exact List.not_mem_nil

theorem copies : (runtime P env).Copies :=
  fun _ _ _ _ _ _ _ => trivial

/-! ## Failures -/

/-- From `c` to `c'` the Deferred is fired with an errback, once. -/
structure Failed (c c' : RFBClient (VNCDoToolClient P)) : Prop where
  deferred : c'.app.factory.deferred = c.app.factory.deferred ++ [.errback]
  requested : c'.app.requestedPixelFormat = c.app.requestedPixelFormat
  ready : Ready c' ↔ Ready c

theorem Unfired.failed {c c₁ c₂ : RFBClient (VNCDoToolClient P)} (h : Unfired c c₁)
    (h' : Failed c₁ c₂) : Failed c c₂ :=
  ⟨h'.deferred.trans (congrArg (· ++ [Fired.errback]) h.deferred), h'.requested.trans h.requested,
    h'.ready.trans h.ready⟩

theorem Failed.unfired {c c₁ c₂ : RFBClient (VNCDoToolClient P)} (h : Failed c c₁)
    (h' : Unfired c₁ c₂) : Failed c c₂ :=
  ⟨h'.deferred.trans h.deferred, h'.requested.trans h.requested, h'.ready.trans h.ready⟩

/-- Firing counts, whether it raises or not. -/
theorem finalState_fire (how : Fired) (c : RFBClient (VNCDoToolClient P)) :
    finalState ((fire how).run c) =
      { c with
        app :=
          { c.app with
            factory := { c.app.factory with deferred := c.app.factory.deferred ++ [how] } } } := by
  refine (ensures_finalState (P := fun c' : RFBClient (VNCDoToolClient P) => c' =
    { c with
      app :=
        { c.app with
          factory := { c.app.factory with deferred := c.app.factory.deferred ++ [how] } } })).1 ?_
  exact ensures_bind.2 (ensures_bind.2 (ensures_ite.2 ⟨fun _ => rfl, fun _ => rfl⟩))

theorem failed_fire : Respects (Failed (P := P)) (fire .errback) := by
  intro c
  rw [finalState_fire]
  exact ⟨rfl, rfl, Iff.rfl⟩

theorem failed_bind {α β : Type} {x : Py (VNCDoToolClient P) α} {k : α → Py (VNCDoToolClient P) β}
    (hx : Respects Failed x) (hk : ∀ a, Respects Unfired (k a)) : Respects Failed (x >>= k) := by
  intro c
  refine ensures_finalState.1 (ensures_bind.2 (Ensures.mono (hx.ensures c) ?_ ?_))
  · intro a c₁ hfailed
    refine Ensures.mono ((hk a).ensures c₁) ?_ ?_
    · exact fun _ _ => hfailed.unfired
    · exact fun _ _ => hfailed.unfired
  · exact fun _ _ hfailed => hfailed

theorem bind_failed {α β : Type} {x : Py (VNCDoToolClient P) α} {k : α → Py (VNCDoToolClient P) β}
    {c : RFBClient (VNCDoToolClient P)} (hx : Ensures x c (fun _ => Unfired c) fun _ _ => False)
    (hk : ∀ a, Respects Failed (k a)) : Failed c (finalState ((x >>= k).run c)) := by
  refine ensures_finalState.1 (ensures_bind.2 (Ensures.mono hx ?_ fun _ _ => False.elim))
  intro a c₁ hunfired
  refine Ensures.mono ((hk a).ensures c₁) ?_ ?_
  · exact fun _ _ => hunfired.failed
  · exact fun _ _ => hunfired.failed

theorem failed_call {cb : Callback} (hcb : cb ≠ .vncConnectionMade)
    (hoverride : override env cb = fire (P := P) .errback) :
    Respects (Failed (P := P)) ((runtime P env).call cb) := by
  intro c
  refine bind_failed (k := fun _ => (runtime P env).override cb) ?_ fun _ => ?_
  · exact ⟨rfl, rfl, ready_record fun heq => hcb (Event.callback.inj heq)⟩
  · change Respects Failed (override env cb)
    rw [hoverride]
    exact failed_fire

theorem reported_failed : Reported (runtime P env) Unfired Failed where
  maintains := maintains_unfired
  before _ _ _ := Unfired.failed
  after _ _ _ := Failed.unfired
  protocolError _ := failed_bind (failed_call nofun rfl) fun _ => unfired_record nofun
  authFailed _ := failed_bind (failed_call nofun rfl) fun _ => unfired_record nofun

/-! ## The password -/

/-- The password is sent, or the attempt fails for want of it. -/
theorem vncAuth_cases (block : Bytes) (c : RFBClient (VNCDoToolClient P)) :
    if c.factory.password = none then
      Failed c (finalState ((RFBClient.handleVNCAuth (runtime P env) block).run c))
    else Unfired c (finalState ((RFBClient.handleVNCAuth (runtime P env) block).run c)) := by
  let c₁ : RFBClient (VNCDoToolClient P) :=
    { c with challenge := block, log := c.log ++ [.callback .vncRequestPassword] }
  have hcalled : Unfired c c₁ := ⟨rfl, rfl, ready_record (fun h => by cases h)⟩
  have hexpect : Respects (Unfired (P := P)) (expect .vncAuthResult 4) :=
    fun _ => ⟨rfl, rfl, Iff.rfl⟩
  split_ifs with hpassword
  · have hfailed : Respects Failed (loseConnection >>= fun _ => fire (P := P) .errback) :=
      fun c => bind_failed (k := fun _ => fire .errback) ⟨rfl, rfl, ready_record (fun h => by cases h)⟩
        fun _ => failed_fire
    have hoverride : vncRequestPassword env c₁ =
        (loseConnection >>= fun _ => fire (P := P) .errback) c₁ := by
      have hnone : c₁.factory.password = none := hpassword
      unfold vncRequestPassword
      rw [run_get_bind, hnone]
      rfl
    refine ensures_finalState.1 (ensures_bind.2 (ensures_bind.2 (ensures_bind.2 ?_)))
    refine (ensures_of_run_eq hoverride).2 (Ensures.mono (hfailed.ensures c₁) ?_ ?_)
    · exact fun _ c₂ hfailed => hcalled.failed (hfailed.unfired (hexpect c₂))
    · exact fun _ _ hfailed => hcalled.failed hfailed
  · have hsend : Unfired c₁ (finalState ((vncRequestPassword env).run c₁)) := by
      unfold vncRequestPassword
      refine finalState_get ?_
      cases hsome : c₁.factory.password with
      | none => exact absurd hsome hpassword
      | some password =>
          refine respects_bind (unfired_liftExcept _) fun _ => respects_bind respects_get fun _ => ?_
          exact unfired_record (fun h => by cases h)
    refine ensures_finalState.1 (ensures_bind.2 (ensures_bind.2 (ensures_bind.2 ?_)))
    change Ensures (vncRequestPassword env) c₁ _ _
    refine Ensures.mono (ensures_finalState.2 hsend) ?_ ?_
    · exact fun _ c₂ hsent => hcalled.trans (hsent.trans (hexpect c₂))
    · exact fun _ _ hsent => hcalled.trans hsent

/-! ## Readiness -/

/-- From `c` to `c'` the client negotiates and tells the factory that it is ready. -/
structure Made (c c' : RFBClient (VNCDoToolClient P)) : Prop where
  requested : c'.app.requestedPixelFormat = c.app.requestedPixelFormat
  ready : Ready c'
  made : Negotiable c.app.requestedPixelFormat →
    c'.app.factory.deferred = c.app.factory.deferred ++ [.callback]
  refused : ¬ Negotiable c.app.requestedPixelFormat →
    c'.app.factory.deferred = c.app.factory.deferred ∨
      ∃ fired, c'.app.factory.deferred = c.app.factory.deferred ++ .errback :: fired ∧
        2 ≤ c'.app.factory.deferred.length

theorem alternative_none {c : RFBClient (VNCDoToolClient P)} (h : alternative c = none) :
    Negotiable c.app.requestedPixelFormat := by
  intro pf hpf
  unfold alternative at h
  rw [Option.mem_def.1 hpf] at h
  exact nomatch h

/-- The formats that the client chooses by itself can be requested and decoded. -/
theorem alternative_some {c : RFBClient (VNCDoToolClient P)} {pf : PixelFormat}
    (h : alternative c = some pf) :
    Negotiable c.app.requestedPixelFormat ↔ RFBClient.Packable pf ∧ pf.rawMode.isOk = true := by
  cases hrequested : c.app.requestedPixelFormat with
  | some requested =>
      have heq : requested = pf := by
        unfold alternative at h
        rw [hrequested] at h
        exact Option.some.inj h
      subst heq
      constructor
      · exact fun hnegotiable => hnegotiable _ rfl
      · intro hok pf' hpf'
        cases hpf'
        exact hok
  | none =>
      have hown : pf = PixelFormat.rgb565 ∨ pf = PixelFormat.rgbx8888 := by
        unfold alternative at h
        rw [hrequested] at h
        dsimp only at h
        split at h
        · exact nomatch h
        · split_ifs at h
          · exact Or.inl (Option.some.inj h).symm
          · exact Or.inr (Option.some.inj h).symm
      refine ⟨fun _ => ?_, fun _ => nofun⟩
      rcases hown with rfl | rfl
      · decide +kernel
      · decide +kernel

theorem ensures_setImageMode (c : RFBClient (VNCDoToolClient P)) :
    Ensures (setImageMode vncProtocolError) c
      (fun _ c' => (Negotiable c.app.requestedPixelFormat ∧ Unfired c c') ∨
        ¬ Negotiable c.app.requestedPixelFormat ∧ c.app.factory.deferred = [] ∧ Failed c c')
      fun _ c' => ¬ Negotiable c.app.requestedPixelFormat ∧
        (Unfired c c' ∨ c.app.factory.deferred ≠ [] ∧ Failed c c') := by
  cases halternative : alternative c with
  | none =>
      have hnegotiable := alternative_none halternative
      cases hmode : c.pixelFormat.rawMode with
      | ok mode =>
          refine (ensures_of_run_eq (setImageMode_native halternative hmode)).2 ?_
          exact Or.inl ⟨hnegotiable, rfl, rfl, Iff.rfl⟩
      | error exc =>
          refine (ensures_of_run_ok (setImageMode_unknown halternative hmode)).2 ?_
          exact Or.inl ⟨hnegotiable, Unfired.refl c⟩
  | some pf =>
      have hnegotiable := alternative_some halternative
      cases hmode : pf.rawMode with
      | error exc =>
          -- The format cannot be decoded.
          have hno : ¬ Negotiable c.app.requestedPixelFormat := by
            rw [hnegotiable, hmode]
            exact fun hok => Bool.false_ne_true hok.2
          refine (ensures_of_run_eq (setImageMode_refused halternative hmode)).2 ?_
          refine ensures_bind.2 (ensures_bind.2 (ensures_bind.2 (ensures_bind.2 ?_)))
          refine ensures_ite.2 ⟨fun hfired => ?_, fun hfirst => ?_⟩
          · exact ⟨hno, Or.inr ⟨hfired, rfl, rfl, ready_record (fun h => by cases h)⟩⟩
          · refine Or.inr ⟨hno, not_not.1 hfirst, rfl, rfl, ?_⟩
            exact ready_of_log (List.append_assoc _ _ _) (by simp)
      | ok mode =>
          refine (ensures_of_run_eq (setImageMode_asked halternative hmode)).2 ?_
          refine ensures_bind.2 (ensures_ite.2 ⟨fun hpackable => ?_, fun hwide => ?_⟩)
          · have hyes : Negotiable c.app.requestedPixelFormat := by
              rw [hnegotiable, hmode]
              exact ⟨hpackable, rfl⟩
            exact Or.inl ⟨hyes, rfl, rfl, ready_record (fun h => by cases h)⟩
          · refine ⟨fun hyes => hwide (hnegotiable.1 hyes).1, Or.inl (Unfired.refl c)⟩

/-- The offer is short. -/
theorem packs_encodings (factory : VNCDoToolFactory) :
    RFBClient.Packs 2 ((encodings factory).map Encoding.value).length := by
  unfold encodings
  split_ifs <;> exact ⟨by decide, by decide⟩

/-- Offering the encodings never raises. -/
theorem ensures_setEncodings (factory : VNCDoToolFactory) (c : RFBClient (VNCDoToolClient P)) :
    Ensures (RFBClient.setEncodings ((encodings factory).map Encoding.value)) c
      (fun _ => Unfired c) fun _ _ => False := by
  have hwrite (data : Bytes) (k : Unit → Py (VNCDoToolClient P) Unit)
      (hk : ∀ c, Ensures (k ()) c (fun _ => Unfired c) fun _ _ => False)
      (c : RFBClient (VNCDoToolClient P)) :
      Ensures (write data >>= k) c (fun _ => Unfired c) fun _ _ => False := by
    have hwritten : Unfired c { c with log := c.log ++ [.write data] } :=
      ⟨rfl, rfl, ready_record fun h => by cases h⟩
    refine ensures_bind.2 ?_
    change Ensures (k ()) { c with log := c.log ++ [.write data] } _ _
    refine Ensures.mono (hk _) ?_ fun _ _ => False.elim
    exact fun _ _ hrest => hwritten.trans hrest
  have hwrites (offer : List Encoding) : ∀ c : RFBClient (VNCDoToolClient P),
      Ensures ((offer.map Encoding.value).forM fun encoding =>
          if RFBClient.PacksSigned encoding then write (packBE 4 (u32OfInt encoding))
          else throw .structError) c
        (fun _ => Unfired c) fun _ _ => False := by
    induction offer with
    | nil => exact fun c => Unfired.refl c
    | cons encoding offer ih =>
        intro c
        refine ensures_bind.2 (ensures_ite.2 ⟨fun _ => ?_, fun hwide => ?_⟩)
        · exact ensures_bind.1 (hwrite _ (fun _ => (offer.map Encoding.value).forM _) ih c)
        · exact absurd encoding.value_range hwide
  refine ensures_ite.2 ⟨fun _ => hwrite _ _ (hwrites _) c, fun hwide => ?_⟩
  exact absurd (packs_encodings factory) hwide

theorem made_vncConnectionMade {c : RFBClient (VNCDoToolClient P)} (hready : Ready c) :
    Made c (finalState (vncConnectionMade.run c)) := by
  refine ensures_finalState.1 (ensures_bind.2 (Ensures.mono (ensures_setImageMode c) ?_ ?_))
  · intro _ c₁ hmode
    refine ensures_bind.2 (ensures_bind.2 (Ensures.mono (ensures_setEncodings _ _) ?_
      fun _ _ => False.elim))
    intro _ c₂ hencodings
    refine ensures_finalState.2 ?_
    unfold clientConnectionMade
    rw [finalState_fire]
    rcases hmode with ⟨hnegotiable, hunfired⟩ | ⟨hno, hfirst, hfailed⟩
    · have h := hunfired.trans hencodings
      refine ⟨h.requested, h.ready.2 hready, fun _ => ?_, fun hno => absurd hnegotiable hno⟩
      exact congrArg (· ++ [Fired.callback]) h.deferred
    · have h := hfailed.unfired hencodings
      refine ⟨h.requested, h.ready.2 hready, fun hyes => absurd hyes hno, fun _ => Or.inr ?_⟩
      have hdeferred : c₂.app.factory.deferred ++ [Fired.callback] =
          c.app.factory.deferred ++ [.errback, .callback] := by
        rw [h.deferred, List.append_assoc]
        rfl
      refine ⟨[.callback], hdeferred, ?_⟩
      change 2 ≤ (c₂.app.factory.deferred ++ [Fired.callback]).length
      rw [hdeferred, List.length_append]
      exact Nat.le_add_left 2 _
  · rintro exc c₁ ⟨hno, hunfired | ⟨hfired, hfailed⟩⟩
    · exact ⟨hunfired.requested, hunfired.ready.2 hready, fun hyes => absurd hyes hno,
        fun _ => Or.inl hunfired.deferred⟩
    · refine ⟨hfailed.requested, hfailed.ready.2 hready, fun hyes => absurd hyes hno,
        fun _ => Or.inr ⟨[], hfailed.deferred, ?_⟩⟩
      rw [hfailed.deferred, List.length_append]
      exact Nat.succ_le_succ (List.length_pos_iff.2 hfired)

theorem made_serverName (block : Bytes) (c : RFBClient (VNCDoToolClient P)) :
    Made c (finalState ((RFBClient.handleServerName (runtime P env) block).run c)) := by
  let c₁ : RFBClient (VNCDoToolClient P) :=
    { c with name := block, log := c.log ++ [.callback .vncConnectionMade] }
  have hmade : Made c₁ (finalState (vncConnectionMade.run c₁)) :=
    made_vncConnectionMade (List.mem_append_right _ (List.mem_singleton.2 rfl))
  refine ensures_finalState.1 (ensures_bind.2 (ensures_bind.2 (ensures_bind.2 ?_)))
  change Ensures vncConnectionMade c₁ _ _
  refine Ensures.mono (ensures_finalState.2 hmade) ?_ ?_
  · exact fun _ _ h => ⟨h.requested, h.ready, h.made, h.refused⟩
  · exact fun _ _ h => ⟨h.requested, h.ready, h.made, h.refused⟩

/-! ## A step -/

/-- What a step can do to the Deferred. -/
structure Stepped (c c' : RFBClient (VNCDoToolClient P)) : Prop where
  requested : c'.app.requestedPixelFormat = c.app.requestedPixelFormat
  ready : Ready c → Ready c'
  grows : c.app.factory.deferred <+: c'.app.factory.deferred
  refused : ¬ Negotiable c.app.requestedPixelFormat →
    c.app.factory.deferred.head? ≠ some .callback →
    c'.app.factory.deferred.head? ≠ some .callback

theorem Unfired.stepped {c c' : RFBClient (VNCDoToolClient P)} (h : Unfired c c') :
    Stepped c c' where
  requested := h.requested
  ready := h.ready.2
  grows := h.deferred ▸ List.prefix_rfl
  refused _ hhead := h.deferred ▸ hhead

/-- An errback at the end does not put a callback in front. -/
theorem head_append_errback {fired rest : List Fired} (h : fired.head? ≠ some .callback) :
    (fired ++ .errback :: rest).head? ≠ some .callback := by
  cases fired with
  | nil => exact nofun
  | cons how fired => exact h

theorem Failed.stepped {c c' : RFBClient (VNCDoToolClient P)} (h : Failed c c') :
    Stepped c c' where
  requested := h.requested
  ready := h.ready.2
  grows := h.deferred ▸ List.prefix_append _ _
  refused _ hhead := h.deferred ▸ head_append_errback hhead

theorem Made.stepped {c c' : RFBClient (VNCDoToolClient P)} (h : Made c c') : Stepped c c' where
  requested := h.requested
  ready _ := h.ready
  grows := by
    by_cases hnegotiable : Negotiable c.app.requestedPixelFormat
    · exact h.made hnegotiable ▸ List.prefix_append _ _
    · rcases h.refused hnegotiable with hsame | ⟨fired, hfired, _⟩
      · exact hsame ▸ List.prefix_rfl
      · exact hfired ▸ List.prefix_append _ _
  refused hnegotiable hhead := by
    rcases h.refused hnegotiable with hsame | ⟨fired, hfired, _⟩
    · exact hsame ▸ hhead
    · exact hfired ▸ head_append_errback hhead

section Steps

variable {conn : Connection (VNCDoToolClient P)} {handler : Handler} {block : Bytes}

/-- The client after a turn that calls the handler. -/
theorem finalState_turn (hpending : conn.pending = some (handler, block)) :
    (act P env conn .turn).client =
      finalState ((handler.run (runtime P env) block).run conn.client) := by
  unfold act Connection.iterate
  rw [hpending]
  dsimp only [Option.getD_some]
  unfold Connection.resume EStateM.run
  cases handler.run (runtime P env) block conn.client with
  | ok _ c => rfl
  | error exc c => rfl

/-- A turn leaves the Deferred alone, fires it with an errback, or makes the client ready. -/
theorem turn_unfired (hpending : conn.pending = some (handler, block))
    (hfires : ¬ Fires env conn.client handler block) :
    Unfired conn.client (act P env conn .turn).client := by
  rw [finalState_turn hpending]
  by_cases htells : handler.Tells env conn.client block
  · have hpassword : handler = .vncAuth ∧ conn.client.factory.password ≠ none := by
      by_contra hnot
      exact hfires ⟨htells, fun heq => not_not.1 fun hne => hnot ⟨heq, hne⟩⟩
    rcases hpassword with ⟨rfl, hpassword⟩
    have hcases := @vncAuth_cases P env block conn.client
    rw [if_neg hpassword] at hcases
    exact hcases
  · exact maintains_unfired.run_at (fun h => absurd h htells) (fun _ => announced_unfired)
      (Or.inl copies)

theorem turn_failed (hpending : conn.pending = some (handler, block))
    (hfires : Fires env conn.client handler block) (hready : handler ≠ .serverName) :
    Failed conn.client (act P env conn .turn).client := by
  rw [finalState_turn hpending]
  by_cases hpassword : handler = .vncAuth
  · subst hpassword
    have hcases := @vncAuth_cases P env block conn.client
    rw [if_pos (hfires.2 rfl)] at hcases
    exact hcases
  · exact reported_failed.run_at hfires.1 hpassword hready

theorem turn_made (hpending : conn.pending = some (.serverName, block)) :
    Made conn.client (act P env conn .turn).client := by
  rw [finalState_turn hpending]
  exact made_serverName block conn.client

/-- A chunk that does not complete a malformed greeting leaves the Deferred alone. -/
theorem receive_cases (data : Bytes) :
    (¬ (conn.client.aborted = false ∧ conn.client.stage = .handleInitial ∧
        Connection.Malformed (conn.packet ++ data)) ∧
      Unfired conn.client (act P env conn (.receive data)).client) ∨
    ((conn.client.aborted = false ∧ conn.client.stage = .handleInitial ∧
        Connection.Malformed (conn.packet ++ data)) ∧
      Failed conn.client (act P env conn (.receive data)).client) := by
  by_cases hreports : conn.client.aborted = false ∧ conn.client.stage = .handleInitial ∧
      Connection.Malformed (conn.packet ++ data)
  · exact Or.inr ⟨hreports, reported_failed.enter hreports.1 hreports.2.1 hreports.2.2⟩
  · refine Or.inl ⟨hreports, keeps_unfired.enter_at conn data fun haborted hstage hmal => ?_⟩
    exact absurd ⟨haborted, hstage, hmal⟩ hreports

theorem act_stepped (action : Action) : Stepped conn.client (act P env conn action).client := by
  cases action with
  | call operation => exact (slots_operation operation conn.client).unfired.stepped
  | receive data =>
      rcases @receive_cases P env conn data with ⟨_, hunfired⟩ | ⟨_, hfailed⟩
      · exact hunfired.stepped
      · exact hfailed.stepped
  | turn =>
      cases hpending : conn.pending with
      | none =>
          have hiterate : conn.iterate (runtime P env) = none :=
            Connection.iterate_eq_none_iff.2 hpending
          unfold act
          dsimp only
          rw [hiterate]
          exact (Unfired.refl _).stepped
      | some called =>
          rcases called with ⟨handler, block⟩
          by_cases hready : handler = .serverName
          · subst hready
            exact (turn_made hpending).stepped
          · by_cases hfires : Fires env conn.client handler block
            · exact (turn_failed hpending hfires hready).stepped
            · exact (turn_unfired hpending hfires).stepped

end Steps

/-! ## One step fires -/

section Runs

variable {conn : Connection (VNCDoToolClient P)} {c c' : RFBClient (VNCDoToolClient P)}
  {action : Action}

/-- A step that does not fire. -/
theorem act_unfired (hquiet : ¬ FiresAt env conn action) :
    Unfired conn.client (act P env conn action).client := by
  cases action with
  | call operation => exact (slots_operation operation conn.client).unfired
  | receive data =>
      rcases @receive_cases P env conn data with ⟨_, hunfired⟩ | ⟨hreports, _⟩
      · exact hunfired
      · exact absurd hreports hquiet
  | turn =>
      cases hpending : conn.pending with
      | none =>
          have hiterate : conn.iterate (runtime P env) = none :=
            Connection.iterate_eq_none_iff.2 hpending
          unfold act
          dsimp only
          rw [hiterate]
          exact Unfired.refl _
      | some called =>
          rcases called with ⟨handler, block⟩
          exact turn_unfired hpending fun hfires => hquiet ⟨handler, block, hpending, hfires⟩

/-- A step that fires does so with an errback, or it makes the client ready. -/
theorem act_fired (hfires : FiresAt env conn action) :
    (Failed conn.client (act P env conn action).client ∧ Negotiates conn action) ∨
      (Made conn.client (act P env conn action).client ∧
        (Negotiates conn action ↔ Negotiable conn.client.app.requestedPixelFormat)) := by
  cases action with
  | call operation => exact hfires.elim
  | receive data =>
      rcases @receive_cases P env conn data with ⟨hquiet, _⟩ | ⟨_, hfailed⟩
      · exact absurd hfires hquiet
      · exact Or.inl ⟨hfailed, trivial⟩
  | turn =>
      rcases hfires with ⟨handler, block, hpending, hfires⟩
      by_cases hname : handler = .serverName
      · subst hname
        refine Or.inr ⟨turn_made hpending, fun h => h block hpending, fun h _ _ => h⟩
      · refine Or.inl ⟨turn_failed hpending hfires hname, fun block' hpending' => ?_⟩
        have hsame : handler = .serverName :=
          congrArg Prod.fst (Option.some.inj (hpending.symm.trans hpending'))
        exact absurd hsame hname

theorem Settled.unfired (h : Settled c) (hunfired : Unfired c c') : Settled c' := by
  unfold Settled at *
  rw [hunfired.ready, hunfired.deferred]
  exact h

theorem Settled.fired (h : Settled c) : c.app.factory.deferred ≠ [] := by
  intro hnone
  rcases h with ⟨_, hfired⟩ | ⟨_, hfired⟩
  · exact nomatch hnone.symm.trans hfired
  · exact nomatch hnone.symm.trans hfired

/-- Nothing has been fired yet, and the session is not ready. -/
def Untried (c : RFBClient (VNCDoToolClient P)) : Prop :=
  ¬ Ready c ∧ c.app.factory.deferred = []

theorem Untried.unfired (h : Untried c) (hunfired : Unfired c c') : Untried c' := by
  unfold Untried
  rw [hunfired.ready, hunfired.deferred]
  exact h

theorem Untried.failed (h : Untried c) (hfailed : Failed c c') : Settled c' := by
  refine Or.inr ⟨?_, ?_⟩
  · rw [hfailed.ready]
    exact h.1
  · rw [hfailed.deferred, h.2]
    rfl

theorem Untried.made (h : Untried c) (hmade : Made c c')
    (hnegotiable : Negotiable c.app.requestedPixelFormat) : Settled c' := by
  refine Or.inl ⟨hmade.ready, ?_⟩
  rw [hmade.made hnegotiable, h.2]
  rfl

/-! ## An attempt that is past mending -/

/-- The Deferred was fired twice, or the session is ready and never will be by the Deferred. -/
def Spoilt (c : RFBClient (VNCDoToolClient P)) : Prop :=
  2 ≤ c.app.factory.deferred.length ∨
    (Ready c ∧ ¬ Negotiable c.app.requestedPixelFormat ∧
      c.app.factory.deferred.head? ≠ some .callback)

theorem Spoilt.not_settled (h : Spoilt c) : ¬ Settled c := by
  rintro (⟨_, hfired⟩ | ⟨hready, hfired⟩)
  · rcases h with hlength | ⟨_, _, hhead⟩
    · rw [hfired] at hlength
      exact absurd hlength (by decide)
    · rw [hfired] at hhead
      exact hhead rfl
  · rcases h with hlength | ⟨hready', _, _⟩
    · rw [hfired] at hlength
      exact absurd hlength (by decide)
    · exact hready hready'

theorem Spoilt.stepped (h : Spoilt c) (hstep : Stepped c c') : Spoilt c' := by
  rcases h with hlength | ⟨hready, hno, hhead⟩
  · exact Or.inl (hlength.trans hstep.grows.length_le)
  · refine Or.inr ⟨hstep.ready hready, ?_, hstep.refused hno hhead⟩
    rw [hstep.requested]
    exact hno

theorem Spoilt.run (h : Spoilt conn.client) (actions : List Action) :
    Spoilt (actions.foldl (act P env) conn).client := by
  induction actions generalizing conn with
  | nil => exact h
  | cons action actions ih => exact ih (h.stepped (act_stepped action))

/-- A client whose requested format is not negotiable does not get to its callback first. -/
def Refused (c : RFBClient (VNCDoToolClient P)) : Prop :=
  ¬ Negotiable c.app.requestedPixelFormat → c.app.factory.deferred.head? ≠ some .callback

theorem Refused.stepped (h : Refused c) (hstep : Stepped c c') : Refused c' := by
  intro hno
  rw [hstep.requested] at hno
  exact hstep.refused hno (h hno)

theorem Untried.refused (h : Untried c) : Refused c := by
  intro _
  rw [h.2]
  exact nofun

theorem Failed.spoilt (h : Failed c c') (hfired : c.app.factory.deferred ≠ []) : Spoilt c' := by
  refine Or.inl ?_
  rw [h.deferred, List.length_append]
  exact Nat.succ_le_succ (List.length_pos_iff.2 hfired)

/-- Becoming ready spoils the attempt if the Deferred was fired before, or the format cannot be
had. -/
theorem Made.spoilt (h : Made c c') (hrefused : Refused c)
    (hagain : Negotiable c.app.requestedPixelFormat → c.app.factory.deferred ≠ []) :
    Spoilt c' := by
  by_cases hnegotiable : Negotiable c.app.requestedPixelFormat
  · refine Or.inl ?_
    rw [h.made hnegotiable, List.length_append]
    exact Nat.succ_le_succ (List.length_pos_iff.2 (hagain hnegotiable))
  · rcases h.refused hnegotiable with hsame | ⟨_, _, hlength⟩
    · refine Or.inr ⟨h.ready, ?_, ?_⟩
      · rw [h.requested]
        exact hnegotiable
      · rw [hsame]
        exact hrefused hnegotiable
    · exact Or.inl hlength

/-! ## Every attempt -/

/-- A step that does not fire does not handle the server's name. -/
theorem negotiates_of_quiet (hquiet : ¬ FiresAt env conn action) : Negotiates conn action := by
  cases action with
  | turn =>
      intro block hpending
      exact absurd ⟨.serverName, block, hpending, trivial, nofun⟩ hquiet
  | _ => trivial

/-- A settled attempt stays so as long as no step fires, and no longer. -/
theorem settled_iff_of_settled {actions : List Action} (hsettled : Settled conn.client)
    (hrefused : Refused conn.client) :
    Settled (actions.foldl (act P env) conn).client ↔
      Throughout (act P env) (fun conn action => ¬ FiresAt env conn action) conn actions := by
  induction actions generalizing conn with
  | nil => exact iff_of_true hsettled throughout_nil
  | cons action actions ih =>
      rw [throughout_cons, List.foldl_cons]
      by_cases hfires : FiresAt env conn action
      -- A second firing spoils the attempt.
      · have hspoilt : Spoilt (act P env conn action).client := by
          rcases act_fired hfires with ⟨hfailed, _⟩ | ⟨hmade, _⟩
          · exact hfailed.spoilt hsettled.fired
          · exact hmade.spoilt hrefused fun _ => hsettled.fired
        exact iff_of_false (hspoilt.run actions).not_settled fun h => h.1 hfires
      · rw [ih (hsettled.unfired (act_unfired hfires)) (hrefused.stepped (act_stepped action))]
        exact (and_iff_right hfires).symm

/-- Where no step fires, the server's name is not handled. -/
theorem throughout_negotiates {actions : List Action}
    (h : Throughout (act P env) (fun conn action => ¬ FiresAt env conn action) conn actions) :
    Throughout (act P env) Negotiates conn actions :=
  fun before action hleads => negotiates_of_quiet (h before action hleads)

theorem settled_iff_of_untried {actions : List Action} (huntried : Untried conn.client) :
    Settled (actions.foldl (act P env) conn).client ↔
      ExactlyOne (act P env) (FiresAt env) conn actions ∧
        Throughout (act P env) Negotiates conn actions := by
  induction actions generalizing conn with
  | nil =>
      refine iff_of_false (fun hsettled => hsettled.fired huntried.2) fun h => ?_
      exact not_exactlyOne_nil h.1
  | cons action actions ih =>
      rw [exactlyOne_cons, throughout_cons, List.foldl_cons]
      by_cases hfires : FiresAt env conn action
      · have hrest : Settled (act P env conn action).client →
            (Settled (actions.foldl (act P env) (act P env conn action)).client ↔
              Throughout (act P env) (fun conn action => ¬ FiresAt env conn action)
                (act P env conn action) actions) :=
          fun hsettled =>
            settled_iff_of_settled hsettled (huntried.refused.stepped (act_stepped action))
        by_cases hnegotiates : Negotiates conn action
        · have hsettled : Settled (act P env conn action).client := by
            rcases act_fired hfires with ⟨hfailed, _⟩ | ⟨hmade, hiff⟩
            · exact huntried.failed hfailed
            · exact huntried.made hmade (hiff.1 hnegotiates)
          rw [hrest hsettled]
          -- This step is the one, and what is left is that no later one fires.
          constructor
          · exact fun h => ⟨Or.inl ⟨hfires, h⟩, hnegotiates, throughout_negotiates h⟩
          · rintro ⟨⟨_, h⟩ | ⟨hquiet, _⟩, _⟩
            · exact h
            · exact absurd hfires hquiet
        -- The client becomes ready in a format that cannot be had.
        · have hspoilt : Spoilt (act P env conn action).client := by
            rcases act_fired hfires with ⟨_, hyes⟩ | ⟨hmade, hiff⟩
            · exact absurd hyes hnegotiates
            · exact hmade.spoilt huntried.refused fun hyes => absurd (hiff.2 hyes) hnegotiates
          exact iff_of_false (hspoilt.run actions).not_settled fun h => hnegotiates h.2.1
      -- The step leaves the attempt untried, so it is settled by the others.
      · rw [ih (huntried.unfired (act_unfired hfires))]
        constructor
        · exact fun h => ⟨Or.inr ⟨hfires, h.1⟩, negotiates_of_quiet hfires, h.2⟩
        · rintro ⟨⟨hyes, _⟩ | ⟨_, hone⟩, _, hrest⟩
          · exact absurd hyes hfires
          · exact ⟨hone, hrest⟩

end Runs

/-- An attempt to connect resolves the factory's Deferred exactly once, with a callback if the
session became ready and with an errback otherwise, if and only if exactly one of its steps fires
it, and in a format that can be had if it is the one that handles the server's name. -/
theorem settled_iff (P : Pillow) (env : Env) (requested : Option PixelFormat)
    (settings : VNCDoToolFactory) (factory : Factory) (attempt : Attempt) :
    Settled (attempt.run P env requested { settings with deferred := [] } factory) ↔
      attempt.Meets P env requested { settings with deferred := [] } factory := by
  have hready : ¬ Ready (fresh P requested { settings with deferred := [] } factory).client :=
    List.not_mem_nil
  cases attempt with
  | failed =>
      refine ⟨fun _ => trivial, fun _ => Or.inr ?_⟩
      unfold Attempt.run clientConnectionFailed
      dsimp only
      rw [finalState_fire]
      exact ⟨hready, rfl⟩
  | connected actions =>
      -- The loss of the connection fires nothing.
      have hlose (conn : Connection (VNCDoToolClient P)) :
          Settled (lose conn).client ↔ Settled conn.client := Iff.rfl
      exact (hlose _).trans (settled_iff_of_untried ⟨hready, rfl⟩)

/-- A session that becomes ready, and then a message of an unknown type. -/
def unknownMessage : List Action :=
  [.receive (versionLine ⟨3, 3⟩ ++ packBE 4 1), .turn,
    .receive (packBE 2 1 ++ packBE 2 1 ++ PixelFormat.rgbx8888.toBytes ++ packBE 4 0), .turn, .turn,
    .receive [255], .turn]

/-- The second firing raises before `loseConnection` is reached. -/
theorem not_settled_unknownMessage :
    (unknownMessage.foldl (act Pillow.canvas Env.sample) (fresh Pillow.canvas none {} {})).raised =
        some .alreadyCalled ∧
      ¬ Settled ((Attempt.connected unknownMessage).run Pillow.canvas Env.sample none {} {}) := by
  decide +kernel

end VNCDoToolClient

end Vncdotool
