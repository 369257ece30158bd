import Vncdotool.Proxy.Forwarding

/-!
# OneShot — who owns the session of `vnclog --one-shot`

A `Vnclog` is a proxy factory with the connections it has accepted or refused, in the order of
`connectionMade`, each with the two halves of its proxy as `Forwarding.lean` has them.  Connections
come in, either side sends, and connections are lost, in any order; bytes of the server may still
arrive when the client is gone.  A parser that never comes to rest holds up the whole process, so a
run has no step for it.

The recorder of a connection is its own `StringIO`, so what it has recorded is part of the
attributes its parser works on; the factory's `_capture_vdo` says whose `StringIO` it is.
-/

namespace Vncdotool

open Wire Streaming

/-! ## The factory and its connections -/

/-- The attributes of a `VNCLoggingServerFactory` that decide who is served. -/
structure SessionFactory where
  oneShot : Bool
  capturePath : Option String
  capturePreserveAuth : Bool
  passwordRequired : Bool
  sessionTaken : Bool := false
  captureFailed : Bool := false
  captureVdo : Option ℕ := none
  /-- How often `sessionFinished` has been called. -/
  sessionsFinished : ℕ := 0

/-- A `VNCLoggingServerProxy` with its connection. -/
structure ProxiedClient (σ : Type) where
  proxy : Proxy σ
  tookSession : Bool := false
  /-- The chunks that have arrived, of the client and of its server. -/
  heard : List (Tap × Bytes) := []
  /-- Once the connection is lost: what had arrived until then. -/
  lost : Option (List (Tap × Bytes)) := none

/-- An archive as `_writeCapture` writes it: of the connection `client`, with the session recorded
in `_capture_vdo`. -/
structure SessionArchive (σ : Type) where
  client : ℕ
  path : String
  capture : CaptureWriter
  session : Option σ

structure Vnclog (σ : Type) where
  factory : SessionFactory
  clients : List (ProxiedClient σ) := []
  archives : List (SessionArchive σ) := []

inductive Vnclog.Event
  | accept
  | received (client : ℕ) (tap : Tap) (data : Bytes)
  /-- `connectionLost` of the client's side; `writes` says whether `write_archive` succeeds. -/
  | lost (client : ℕ) (writes : Bool)
  deriving DecidableEq, Repr

namespace Vnclog

variable {σ : Type}

/-- `getRecorder`. -/
def getRecorder (factory : SessionFactory) (client : ℕ) : SessionFactory :=
  match factory.capturePath with
  | some _ => { factory with captureVdo := some client }
  | none => factory

/-- `connectionMade`, `app` being the attributes of a fresh proxy. -/
def connectionMade (app : σ) (s : Vnclog σ) : Vnclog σ :=
  let proxy := Proxy.init (s.factory.capturePath.map fun _ => s.factory.capturePreserveAuth)
    s.factory.passwordRequired app
  if s.factory.oneShot && s.factory.sessionTaken then
    -- It owns nothing: neither capture nor recorder, nor a connection to the server.
    { s with
      clients := s.clients ++
        [{ proxy := { proxy with refused := true, capture := none, lostConnection := true } }] }
  else
    let factory := getRecorder s.factory s.clients.length
    if s.factory.oneShot then
      { s with
        factory := { factory with sessionTaken := true }
        clients := s.clients ++ [{ proxy := proxy, tookSession := true }] }
    else
      { s with factory := factory, clients := s.clients ++ [{ proxy := proxy }] }

/-- `getRecordedSession`. -/
def getRecordedSession (s : Vnclog σ) : Option σ :=
  s.factory.captureVdo.bind fun k => s.clients[k]?.map fun client => client.proxy.parser.server.app

/-- `_writeCapture`, or the exception handler around it. -/
def writeCapture (s : Vnclog σ) (i : ℕ) (client : ProxiedClient σ) (writes : Bool) :
    Vnclog σ × ProxiedClient σ :=
  match client.proxy.capture with
  | none => (s, client)
  | some w =>
      if writes then
        ({ s with
            archives := s.archives ++
              [{ client := i
                 path := s.factory.capturePath.getD ""
                 capture := w.flush
                 session := s.getRecordedSession }] },
          { client with proxy := { client.proxy with capture := none } })
      else
        ({ s with factory := { s.factory with captureFailed := true } }, client)

/-- `connectionLost` of the `i`-th connection. -/
def connectionLost (s : Vnclog σ) (i : ℕ) (client : ProxiedClient σ) (writes : Bool) : Vnclog σ :=
  let client := { client with lost := some client.heard }
  -- A connection that was refused has taken nothing, and releases nothing.
  if client.proxy.refused then { s with clients := s.clients.set i client }
  else if client.proxy.sawBytes then
    let (s, client) := s.writeCapture i client writes
    { s with
      factory :=
        { s.factory with
          sessionsFinished := s.factory.sessionsFinished + if s.factory.oneShot then 1 else 0
          captureVdo := none }
      clients := s.clients.set i client }
  else
    { s with
      -- Nothing was said: the session may be taken by another connection.
      factory :=
        { s.factory with
          sessionTaken := s.factory.sessionTaken && !client.tookSession
          captureVdo := none }
      clients :=
        s.clients.set i { client with proxy := { client.proxy with capture := none } } }

/-- `dataReceived` of one of the two sides leaves the `i`-th proxy as `proxy`. -/
def receive (s : Vnclog σ) (i : ℕ) (client : ProxiedClient σ) (tap : Tap) (data : Bytes)
    (proxy : Proxy σ) : Vnclog σ :=
  { s with
    factory :=
      { s.factory with captureFailed := s.factory.captureFailed || proxy.captureFailed }
    clients :=
      s.clients.set i { client with proxy := proxy, heard := client.heard ++ [(tap, data)] } }

/-- A client is heard while its connection lives, its server if there is one. -/
def Hears (client : ProxiedClient σ) : Tap → Prop
  | .c2s => client.lost = none
  | .s2c => client.proxy.refused = false

inductive Step (hooks : Hooks σ) (app : σ) (s : Vnclog σ) : Event → Vnclog σ → Prop
  | accept : Step hooks app s .accept (s.connectionMade app)
  | received {i : ℕ} {tap : Tap} {data : Bytes} {client : ProxiedClient σ} {proxy : Proxy σ}
      (hclient : s.clients[i]? = some client) (hhears : Hears client tap)
      (hproxy : client.proxy.Receives hooks tap data proxy) :
      Step hooks app s (.received i tap data) (s.receive i client tap data proxy)
  | lost {i : ℕ} {writes : Bool} {client : ProxiedClient σ}
      (hclient : s.clients[i]? = some client) (hlive : client.lost = none) :
      Step hooks app s (.lost i writes) (s.connectionLost i client writes)

inductive Runs (hooks : Hooks σ) (app : σ) : Vnclog σ → List Event → Vnclog σ → Prop
  | nil (s : Vnclog σ) : Runs hooks app s [] s
  | cons {s s' s'' : Vnclog σ} {event : Event} {events : List Event}
      (hstep : Step hooks app s event s') (hrest : Runs hooks app s' events s'') :
      Runs hooks app s (event :: events) s''

/-- `vnclog --one-shot`, or `--capture-raw`, which implies it. -/
def init (capturePath : Option String) (capturePreserveAuth passwordRequired : Bool) : Vnclog σ where
  factory :=
    { oneShot := true
      capturePath := capturePath
      capturePreserveAuth := capturePreserveAuth
      passwordRequired := passwordRequired }

/-! ## What ownership means -/

/-- The `i`-th connection was refused. -/
def Refused (s : Vnclog σ) (i : ℕ) : Prop :=
  ∃ client, s.clients[i]? = some client ∧ client.proxy.refused = true

/-- The `i`-th connection was accepted and lives. -/
def Serving (s : Vnclog σ) (i : ℕ) : Prop :=
  ∃ client, s.clients[i]? = some client ∧ client.proxy.refused = false ∧ client.lost = none

/-- Bytes of either side. -/
def Carried (heard : List (Tap × Bytes)) : Bool :=
  heard.any fun chunk => !chunk.2.isEmpty

/-- Nothing has changed but the `i`-th connection. -/
structure OnlyClient (i : ℕ) (s s' : Vnclog σ) : Prop where
  factory : s'.factory = s.factory
  archives : s'.archives = s.archives
  others : ∀ j, j ≠ i → s'.clients[j]? = s.clients[j]?

/-- The events of a connection. -/
def Event.client : Event → Option ℕ
  | .accept => none
  | .received i _ _ => some i
  | .lost i _ => some i

/-- What `--one-shot` promises in state `s`, and of what comes next. -/
structure Owned (hooks : Hooks σ) (app : σ) (s : Vnclog σ) : Prop where
  exclusive : ∀ i j, s.Serving i → s.Serving j → i = j
  /-- A connection that is refused, and its events, change nothing else. -/
  turnedAway : ∀ s', Step hooks app s .accept s' → s'.Refused s.clients.length →
    OnlyClient s.clients.length s s'
  refused : ∀ i event s', s.Refused i → event.client = some i → Step hooks app s event s' →
    OnlyClient i s s'
  /-- A connection that closes without a byte releases the claim and writes nothing. -/
  released : ∀ i client writes s', s.clients[i]? = some client → s.Serving i →
    Carried client.heard = false → Step hooks app s (.lost i writes) s' →
      s'.factory.sessionTaken = false ∧ s'.archives = s.archives
  /-- Once a connection that carried bytes has closed, every later one is refused. -/
  spent : ∀ (i : ℕ) (client : ProxiedClient σ) (heard : List (Tap × Bytes)),
    s.clients[i]? = some client → client.proxy.refused = false → client.lost = some heard →
      Carried heard = true → ∀ events s', Runs hooks app s events s' →
        ∀ j, s.clients.length ≤ j → j < s'.clients.length → s'.Refused j
  archives : s.archives.length ≤ 1
  /-- No archive is of an aborted capture. -/
  kept : ∀ archive ∈ s.archives, archive.capture.abortReason = none

end Vnclog

/-! ## What a chunk does to a proxy -/

namespace Proxy

variable {σ : Type} {hooks : Hooks σ} {p p' q : Proxy σ} {tap : Tap} {data : Bytes}

/-- A capture that goes on has not been aborted. -/
theorem captureChunk_kept (h : p.captureChunk tap data = .ok q ∨ p.captureChunk tap data = .error q) :
    q.refused = p.refused ∧ q.sawBytes = (p.sawBytes || !data.isEmpty) ∧
      ∀ w, q.capture = some w → w.abortReason = none := by
  unfold captureChunk at h
  cases hcapture : p.capture with
  | none =>
      simp only [hcapture, Except.ok.injEq, reduceCtorEq, or_false] at h
      subst h
      refine ⟨rfl, rfl, fun w hw => ?_⟩
      exact absurd hw (by simp)
  | some w =>
      simp only [hcapture] at h
      by_cases habort : (w.feed tap data).abortReason.isSome
      · simp only [if_pos habort, Except.error.injEq, reduceCtorEq, false_or] at h
        subst h
        exact ⟨rfl, rfl, fun w hw => absurd hw (by simp [abortCapture])⟩
      · simp only [if_neg habort, Except.ok.injEq, reduceCtorEq, or_false] at h
        subst h
        refine ⟨rfl, rfl, fun w' hw' => ?_⟩
        cases Option.some.inj hw'
        exact Option.not_isSome_iff_eq_none.1 habort

theorem Receives.kept (h : p.Receives hooks tap data p') (haccepted : p.refused = false) :
    p'.refused = false ∧ p'.sawBytes = (p.sawBytes || !data.isEmpty) ∧
      ∀ w, p'.capture = some w → w.abortReason = none := by
  cases tap with
  | c2s =>
      simp only [Receives, haccepted, Bool.false_eq_true, if_false] at h
      cases hchunk : p.captureChunk .c2s data with
      | error q =>
          simp only [hchunk] at h
          rcases captureChunk_kept (Or.inr hchunk) with ⟨hrefused, hsaw, hkept⟩
          exact h ▸ ⟨hrefused.trans haccepted, hsaw, hkept⟩
      | ok q =>
          simp only [hchunk] at h
          rcases h with ⟨parser, _, rfl⟩
          rcases captureChunk_kept (Or.inl hchunk) with ⟨hrefused, hsaw, hkept⟩
          exact ⟨hrefused.trans haccepted, hsaw, hkept⟩
  | s2c =>
      simp only [Receives] at h
      cases hchunk : p.captureChunk .s2c data with
      | error q =>
          simp only [hchunk] at h
          rcases captureChunk_kept (Or.inr hchunk) with ⟨hrefused, hsaw, hkept⟩
          exact h ▸ ⟨hrefused.trans haccepted, hsaw, hkept⟩
      | ok q =>
          simp only [hchunk] at h
          subst h
          rcases captureChunk_kept (Or.inl hchunk) with ⟨hrefused, hsaw, hkept⟩
          exact ⟨hrefused.trans haccepted, hsaw, hkept⟩

end Proxy

namespace Vnclog

variable {σ : Type} {hooks : Hooks σ} {app : σ} {s s' : Vnclog σ} {i j : ℕ}
  {client client' : ProxiedClient σ}

/-! ## The list of connections -/

theorem serving_append (h : s'.clients = s.clients ++ [client]) :
    s'.Serving i ↔ s.Serving i ∨
      (i = s.clients.length ∧ client.proxy.refused = false ∧ client.lost = none) := by
  unfold Serving
  rw [h]
  rcases lt_trichotomy i s.clients.length with hlt | heq | hgt
  · rw [List.getElem?_append_left hlt]
    constructor
    · exact Or.inl
    · rintro (hserving | ⟨heq, _⟩)
      · exact hserving
      · omega
  · subst heq
    simp
  · have hnone : (s.clients ++ [client])[i]? = none := by
      rw [List.getElem?_eq_none_iff, List.length_append, List.length_singleton]
      omega
    have hnone' : s.clients[i]? = none := List.getElem?_eq_none_iff.2 hgt.le
    constructor
    · rintro ⟨_, hsome, _⟩
      simp [hnone] at hsome
    · rintro (⟨_, hsome, _⟩ | ⟨heq, _⟩)
      · simp [hnone'] at hsome
      · omega

theorem serving_set (hclient : s.clients[j]? = some client)
    (h : s'.clients = s.clients.set j client') :
    s'.Serving i ↔ (i = j ∧ client'.proxy.refused = false ∧ client'.lost = none) ∨
      (i ≠ j ∧ s.Serving i) := by
  unfold Serving
  rw [h]
  by_cases heq : i = j
  · subst heq
    have hlt : i < s.clients.length := (List.getElem?_eq_some_iff.1 hclient).1
    rw [List.getElem?_set_self hlt]
    simp
  · rw [List.getElem?_set_ne (Ne.symm heq)]
    simp [heq]

theorem mem_set {clients : List (ProxiedClient σ)} {P : ProxiedClient σ → Prop}
    (hall : ∀ client ∈ clients, P client) (hnew : P client') :
    ∀ client ∈ clients.set j client', P client := by
  intro client hmem
  rcases List.mem_or_eq_of_mem_set hmem with hmem | rfl
  · exact hall client hmem
  · exact hnew

/-! ## The invariant -/

/-- What the flags of a connection say. -/
structure Sound (client : ProxiedClient σ) : Prop where
  refused : client.proxy.refused = true → client.proxy.captureFailed = false
  took : client.proxy.refused = false → client.tookSession = true
  saw : client.proxy.refused = false → client.lost = none →
    client.proxy.sawBytes = Carried client.heard
  capture : ∀ w, client.proxy.capture = some w → w.abortReason = none

/-- The claim is held by the connection that is served, and for good by one that carried bytes and
has closed; archives are written by the latter only. -/
structure Claimed (s : Vnclog σ) : Prop where
  oneShot : s.factory.oneShot = true
  exclusive : ∀ i j, s.Serving i → s.Serving j → i = j
  taken : ∀ i, s.Serving i → s.factory.sessionTaken = true
  finished : 0 < s.factory.sessionsFinished →
    s.factory.sessionTaken = true ∧ ∀ i, ¬ s.Serving i
  carried : ∀ client ∈ s.clients, client.proxy.refused = false → ∀ heard, client.lost = some heard →
    Carried heard = true → 0 < s.factory.sessionsFinished
  once : s.factory.sessionsFinished ≤ 1
  archives : s.archives.length ≤ s.factory.sessionsFinished
  kept : ∀ archive ∈ s.archives, archive.capture.abortReason = none
  sound : ∀ client ∈ s.clients, Sound client

theorem claimed_init (capturePath : Option String) (capturePreserveAuth passwordRequired : Bool) :
    Claimed (init capturePath capturePreserveAuth passwordRequired : Vnclog σ) where
  oneShot := rfl
  exclusive := fun i _ hi => absurd hi (by simp [Serving, init])
  taken := fun i hi => absurd hi (by simp [Serving, init])
  finished := fun h => absurd h (lt_irrefl 0)
  carried := fun _ hmem => absurd hmem List.not_mem_nil
  once := Nat.zero_le 1
  archives := le_rfl
  kept := fun _ hmem => absurd hmem List.not_mem_nil
  sound := fun _ hmem => absurd hmem List.not_mem_nil

/-! ## `connectionMade` -/

/-- A connection that comes while the session is taken. -/
theorem connectionMade_refuses (honeShot : s.factory.oneShot = true)
    (htaken : s.factory.sessionTaken = true) :
    ∃ client, s.connectionMade app = { s with clients := s.clients ++ [client] } ∧
      client.proxy.refused = true ∧ client.lost = none ∧ Sound client := by
  refine ⟨_, by simp only [connectionMade, honeShot, htaken]; rfl, rfl, rfl, ?_⟩
  exact ⟨fun _ => rfl, fun h => absurd h (by simp), fun h => absurd h (by simp),
    fun w hw => absurd hw (by simp)⟩

/-- A connection that takes the session. -/
theorem connectionMade_accepts (honeShot : s.factory.oneShot = true)
    (htaken : s.factory.sessionTaken = false) :
    ∃ client, (s.connectionMade app).clients = s.clients ++ [client] ∧
      client.proxy.refused = false ∧ client.lost = none ∧ Sound client ∧
        (s.connectionMade app).archives = s.archives ∧
        (s.connectionMade app).factory.oneShot = true ∧
        (s.connectionMade app).factory.sessionTaken = true ∧
        (s.connectionMade app).factory.sessionsFinished = s.factory.sessionsFinished := by
  have hmade : s.connectionMade app =
      { s with
        factory := { getRecorder s.factory s.clients.length with sessionTaken := true }
        clients := s.clients ++
          [{ proxy := Proxy.init (s.factory.capturePath.map fun _ => s.factory.capturePreserveAuth)
               s.factory.passwordRequired app
             tookSession := true }] } := by
    simp [connectionMade, honeShot, htaken]
  have hrecorder : (getRecorder s.factory s.clients.length).oneShot = true ∧
      (getRecorder s.factory s.clients.length).sessionsFinished = s.factory.sessionsFinished := by
    unfold getRecorder
    split
    · exact ⟨honeShot, rfl⟩
    · exact ⟨honeShot, rfl⟩
  rw [hmade]
  refine ⟨_, rfl, rfl, rfl, ?_, rfl, hrecorder.1, rfl, hrecorder.2⟩
  refine ⟨fun _ => rfl, fun _ => rfl, fun _ _ => rfl, fun w hw => ?_⟩
  rcases Option.map_eq_some_iff.1 hw with ⟨preserve, _, rfl⟩
  rfl

theorem Claimed.accept (h : Claimed s) : Claimed (s.connectionMade app) := by
  cases htaken : s.factory.sessionTaken with
  | true =>
      rcases @connectionMade_refuses _ app _ h.oneShot htaken with
        ⟨client, hmade, hrefused, hlost, hsound⟩
      have hserving (i : ℕ) : (s.connectionMade app).Serving i ↔ s.Serving i := by
        rw [serving_append (by rw [hmade])]
        simp [hrefused]
      rw [hmade] at hserving ⊢
      refine ⟨h.oneShot, ?_, ?_, ?_, ?_, h.once, h.archives, h.kept, ?_⟩
      · exact fun i j hi hj => h.exclusive i j ((hserving i).1 hi) ((hserving j).1 hj)
      · exact fun i hi => h.taken i ((hserving i).1 hi)
      · exact fun hfinished => ⟨htaken, fun i hi => (h.finished hfinished).2 i ((hserving i).1 hi)⟩
      · intro client' hmem haccepted heard hheard
        rcases List.mem_append.1 hmem with hmem | hmem
        · exact h.carried client' hmem haccepted heard hheard
        · cases List.mem_singleton.1 hmem
          exact absurd (hlost.symm.trans hheard) (by simp)
      · intro client' hmem
        rcases List.mem_append.1 hmem with hmem | hmem
        · exact h.sound client' hmem
        · exact List.mem_singleton.1 hmem ▸ hsound
  | false =>
      rcases @connectionMade_accepts _ app _ h.oneShot htaken with
        ⟨client, hclients, haccepted, hlost, hsound, harchives, honeShot, htaken', hfinished⟩
      -- Nobody is served yet, so the new connection is the only one.
      have hfree (i : ℕ) : ¬ s.Serving i := fun hi => by
        have hheld := h.taken i hi
        simp [htaken] at hheld
      have hunspent : s.factory.sessionsFinished = 0 := by
        by_contra hpos
        have hheld := (h.finished (Nat.pos_of_ne_zero hpos)).1
        simp [htaken] at hheld
      have hserving (i : ℕ) : (s.connectionMade app).Serving i ↔ i = s.clients.length := by
        rw [serving_append hclients]
        simp [hfree i, haccepted, hlost]
      refine ⟨honeShot, ?_, fun _ _ => htaken', ?_, ?_, ?_, ?_, ?_, ?_⟩
      · intro i j hi hj
        exact ((hserving i).1 hi).trans ((hserving j).1 hj).symm
      · exact fun hpos => absurd hpos (by simp [hfinished, hunspent])
      · intro client' hmem hrefused heard hheard hcarried
        rw [hclients] at hmem
        rcases List.mem_append.1 hmem with hmem | hmem
        · exact hfinished ▸ h.carried client' hmem hrefused heard hheard hcarried
        · cases List.mem_singleton.1 hmem
          exact absurd (hlost.symm.trans hheard) (by simp)
      · exact hfinished ▸ h.once
      · exact harchives ▸ hfinished ▸ h.archives
      · exact harchives ▸ h.kept
      · intro client' hmem
        rw [hclients] at hmem
        rcases List.mem_append.1 hmem with hmem | hmem
        · exact h.sound client' hmem
        · exact List.mem_singleton.1 hmem ▸ hsound

/-! ## `dataReceived` -/

theorem Carried_append (heard : List (Tap × Bytes)) (tap : Tap) (data : Bytes) :
    Carried (heard ++ [(tap, data)]) = (Carried heard || !data.isEmpty) := by
  simp [Carried]

/-- A refused connection drops what it is sent, and has no server to hear. -/
theorem refused_receives {tap : Tap} {data : Bytes} {proxy : Proxy σ}
    (hrefused : client.proxy.refused = true) (hhears : Hears client tap)
    (hproxy : client.proxy.Receives hooks tap data proxy) : proxy = client.proxy := by
  cases tap with
  | c2s => simpa [Proxy.Receives, hrefused] using hproxy
  | s2c => exact absurd (hrefused.symm.trans hhears) (by simp)

theorem Sound.receive {tap : Tap} {data : Bytes} {proxy : Proxy σ} (h : Sound client)
    (hhears : Hears client tap) (hproxy : client.proxy.Receives hooks tap data proxy) :
    proxy.refused = client.proxy.refused ∧
      Sound { client with proxy := proxy, heard := client.heard ++ [(tap, data)] } := by
  cases hrefused : client.proxy.refused with
  | true =>
      have hsame := refused_receives hrefused hhears hproxy
      subst hsame
      refine ⟨hrefused, h.refused, h.took, fun haccepted => ?_, h.capture⟩
      exact absurd (hrefused.symm.trans haccepted) (by simp)
  | false =>
      rcases hproxy.kept hrefused with ⟨haccepted, hsaw, hkept⟩
      refine ⟨haccepted, fun hrefused' => ?_, fun _ => h.took hrefused, fun _ hlost => ?_, hkept⟩
      · exact absurd (haccepted.symm.trans hrefused') (by simp)
      · calc proxy.sawBytes
            = (client.proxy.sawBytes || !data.isEmpty) := hsaw
          _ = (Carried client.heard || !data.isEmpty) := by rw [h.saw hrefused hlost]
          _ = Carried (client.heard ++ [(tap, data)]) := (Carried_append _ tap data).symm

theorem Claimed.receive {tap : Tap} {data : Bytes} {proxy : Proxy σ} (h : Claimed s)
    (hclient : s.clients[i]? = some client) (hhears : Hears client tap)
    (hproxy : client.proxy.Receives hooks tap data proxy) :
    Claimed (s.receive i client tap data proxy) := by
  have hmem := List.mem_of_getElem? hclient
  rcases (h.sound client hmem).receive hhears hproxy with ⟨hrefused, hsound⟩
  have hserving (j : ℕ) : (s.receive i client tap data proxy).Serving j ↔ s.Serving j := by
    rw [serving_set hclient rfl]
    by_cases heq : j = i
    · subst heq
      simp [Serving, hclient, hrefused]
    · simp [heq]
  refine ⟨h.oneShot, ?_, ?_, ?_, ?_, h.once, h.archives, h.kept, mem_set h.sound hsound⟩
  · exact fun j k hj hk => h.exclusive j k ((hserving j).1 hj) ((hserving k).1 hk)
  · exact fun j hj => h.taken j ((hserving j).1 hj)
  · intro hpos
    exact ⟨(h.finished hpos).1, fun j hj => (h.finished hpos).2 j ((hserving j).1 hj)⟩
  · exact mem_set h.carried fun haccepted heard hheard =>
      h.carried client hmem (hrefused.symm.trans haccepted) heard hheard

/-! ## `connectionLost` -/

/-- What `_writeCapture` leaves alone, and what it writes. -/
theorem writeCapture_spec (s : Vnclog σ) (i : ℕ) (client : ProxiedClient σ) (writes : Bool)
    (hkept : ∀ w, client.proxy.capture = some w → w.abortReason = none) :
    ∃ s' client', s.writeCapture i client writes = (s', client') ∧
      s'.clients = s.clients ∧ s'.factory.oneShot = s.factory.oneShot ∧
      s'.factory.sessionTaken = s.factory.sessionTaken ∧
      s'.factory.sessionsFinished = s.factory.sessionsFinished ∧
      s'.archives.length ≤ s.archives.length + 1 ∧
      (∀ archive ∈ s'.archives, archive ∈ s.archives ∨ archive.capture.abortReason = none) ∧
      client'.proxy.refused = client.proxy.refused ∧ client'.tookSession = client.tookSession ∧
      client'.heard = client.heard ∧ client'.lost = client.lost ∧
      ∀ w, client'.proxy.capture = some w → w.abortReason = none := by
  unfold writeCapture
  cases hcapture : client.proxy.capture with
  | none =>
      refine ⟨s, client, rfl, rfl, rfl, rfl, rfl, Nat.le_succ _, fun _ => Or.inl, rfl, rfl, rfl, rfl,
        hkept⟩
  | some w =>
      cases writes with
      | true =>
          refine ⟨_, _, rfl, rfl, rfl, rfl, rfl, ?_, ?_, rfl, rfl, rfl, rfl, fun w' hw' => ?_⟩
          · simp
          · intro archive hmem
            rcases List.mem_append.1 hmem with hmem | hmem
            · exact Or.inl hmem
            · cases List.mem_singleton.1 hmem
              -- Flushing what is held back aborts nothing.
              exact Or.inr (hkept w hcapture)
          · exact absurd hw' (by simp)
      | false =>
          exact ⟨_, _, rfl, rfl, rfl, rfl, rfl, Nat.le_succ _, fun _ => Or.inl, rfl, rfl, rfl, rfl,
            hkept⟩

theorem Sound.lost (h : Sound client) (heard : List (Tap × Bytes)) :
    Sound { client with lost := some heard } :=
  ⟨h.refused, h.took, fun _ hlost => absurd hlost (by simp), h.capture⟩

/-- Nobody is served once the connection that was has closed. -/
theorem Claimed.none_serving (h : Claimed s) (hclient : s.clients[i]? = some client)
    (hserving : s.Serving i) (hset : s'.clients = s.clients.set i client')
    (hlost : client'.lost ≠ none) (j : ℕ) : ¬ s'.Serving j := by
  rw [serving_set hclient hset]
  rintro (⟨_, _, hlive⟩ | ⟨hne, hj⟩)
  · exact hlost hlive
  · exact hne (h.exclusive j i hj hserving)

theorem Claimed.lose_refused (h : Claimed s) (hclient : s.clients[i]? = some client)
    (hrefused : client.proxy.refused = true) (heard : List (Tap × Bytes)) :
    Claimed { s with clients := s.clients.set i { client with lost := some heard } } := by
  have hserving (j : ℕ) :
      Serving { s with clients := s.clients.set i { client with lost := some heard } } j ↔
        s.Serving j := by
    rw [serving_set hclient rfl]
    by_cases heq : j = i
    · subst heq
      simp [Serving, hclient, hrefused]
    · simp [heq]
  have hsound := (h.sound client (List.mem_of_getElem? hclient)).lost heard
  refine ⟨h.oneShot, ?_, ?_, ?_, ?_, h.once, h.archives, h.kept, mem_set h.sound hsound⟩
  · exact fun j k hj hk => h.exclusive j k ((hserving j).1 hj) ((hserving k).1 hk)
  · exact fun j hj => h.taken j ((hserving j).1 hj)
  · intro hpos
    exact ⟨(h.finished hpos).1, fun j hj => (h.finished hpos).2 j ((hserving j).1 hj)⟩
  · exact mem_set h.carried fun haccepted => absurd (hrefused.symm.trans haccepted) (by simp)

theorem Claimed.lose (h : Claimed s) (hclient : s.clients[i]? = some client)
    (hlive : client.lost = none) (writes : Bool) :
    Claimed (s.connectionLost i client writes) := by
  have hmem := List.mem_of_getElem? hclient
  have hsound := h.sound client hmem
  unfold connectionLost
  dsimp only
  by_cases hrefused : client.proxy.refused = true
  · rw [if_pos hrefused]
    exact h.lose_refused hclient hrefused client.heard
  · rw [if_neg hrefused]
    have haccepted : client.proxy.refused = false := by simpa using hrefused
    have hserving : s.Serving i := ⟨client, hclient, haccepted, hlive⟩
    have hunspent : s.factory.sessionsFinished = 0 := by
      by_contra hpos
      exact (h.finished (Nat.pos_of_ne_zero hpos)).2 i hserving
    have hempty : s.archives.length = 0 := Nat.le_zero.1 (hunspent ▸ h.archives)
    by_cases hsaw : client.proxy.sawBytes = true
    · rw [if_pos hsaw]
      -- A session ends: its capture is written, and the claim is never released.
      rcases writeCapture_spec s i { client with lost := some client.heard } writes
          hsound.capture with
        ⟨s', client', hwrite, hclients, honeShot, htaken, hfinished, hlength, harchives, hrefused',
          htook, hheard, hlost, hkept⟩
      rw [hwrite]
      dsimp only
      have hone : s'.factory.sessionsFinished + (if s'.factory.oneShot then 1 else 0) = 1 := by
        rw [hfinished, hunspent, honeShot, h.oneShot]
        rfl
      have hlost' : client'.lost ≠ none := by simp [hlost]
      have hset : s'.clients.set i client' = s.clients.set i client' := by rw [hclients]
      let ended : Vnclog σ := { s' with
        factory := { s'.factory with
          sessionsFinished := s'.factory.sessionsFinished + if s'.factory.oneShot then 1 else 0
          captureVdo := none }
        clients := s'.clients.set i client' }
      have hnone := @Claimed.none_serving _ _ ended _ _ _ h hclient hserving hset hlost'
      refine ⟨honeShot.trans h.oneShot, ?_, ?_, ?_, ?_, hone.le, ?_, ?_, ?_⟩
      · exact fun j _ hj => absurd hj (hnone j)
      · exact fun j hj => absurd hj (hnone j)
      · exact fun _ => ⟨htaken.trans (h.taken i hserving), hnone⟩
      · exact fun _ _ _ _ _ _ => Nat.lt_of_lt_of_le Nat.one_pos hone.ge
      · refine le_trans hlength ?_
        rw [hone, hempty]
      · intro archive hin
        rcases harchives archive hin with hold | hnew
        · exact h.kept archive hold
        · exact hnew
      · rw [hclients]
        refine mem_set h.sound ⟨fun h' => ?_, fun _ => ?_, fun _ hl => absurd hl hlost', hkept⟩
        · exact absurd (hrefused'.symm.trans h') (by simpa using hrefused)
        · exact htook.trans (hsound.took haccepted)
    · rw [if_neg hsaw]
      have hsilent : Carried client.heard = false := by
        rw [← hsound.saw haccepted hlive]
        simpa using hsaw
      let ended : Vnclog σ := { s with
        factory := { s.factory with
          sessionTaken := s.factory.sessionTaken && !client.tookSession
          captureVdo := none }
        clients := s.clients.set i { client with
          lost := some client.heard
          proxy := { client.proxy with capture := none } } }
      have hnone := @Claimed.none_serving _ _ ended _ _ _ h hclient hserving rfl (by simp)
      refine ⟨h.oneShot, ?_, ?_, ?_, ?_, h.once, h.archives, h.kept, ?_⟩
      · exact fun j _ hj => absurd hj (hnone j)
      · exact fun j hj => absurd hj (hnone j)
      · exact fun hpos => absurd hpos (by simp [hunspent])
      · refine mem_set h.carried fun _ heard hheard hcarried => ?_
        cases Option.some.inj hheard
        exact absurd (hsilent.symm.trans hcarried) (by simp)
      · refine mem_set h.sound ⟨hsound.refused, hsound.took, fun _ hl => ?_, fun w hw => ?_⟩
        · exact absurd hl (by simp)
        · exact absurd hw (by simp)

/-! ## Steps and runs -/

variable {event : Event} {events : List Event}

theorem Claimed.step (h : Claimed s) (hstep : Step hooks app s event s') : Claimed s' := by
  cases hstep with
  | accept => exact h.accept
  | received hclient hhears hproxy => exact h.receive hclient hhears hproxy
  | lost hclient hlive => exact h.lose hclient hlive _

theorem Claimed.runs (h : Claimed s) (hruns : Runs hooks app s events s') : Claimed s' := by
  induction hruns with
  | nil _ => exact h
  | cons hstep _ ih => exact ih (h.step hstep)

/-- The claim of a session that is over stays taken, so whoever comes is refused. -/
structure Spent (s : Vnclog σ) : Prop where
  claimed : Claimed s
  finished : 0 < s.factory.sessionsFinished

theorem connectionLost_clients (s : Vnclog σ) (i : ℕ) (client : ProxiedClient σ) (writes : Bool)
    (hkept : ∀ w, client.proxy.capture = some w → w.abortReason = none) :
    ∃ client', (s.connectionLost i client writes).clients = s.clients.set i client' ∧
      client'.proxy.refused = client.proxy.refused ∧
        s.factory.sessionsFinished ≤ (s.connectionLost i client writes).factory.sessionsFinished := by
  unfold connectionLost
  dsimp only
  by_cases hrefused : client.proxy.refused = true
  · rw [if_pos hrefused]
    exact ⟨_, rfl, rfl, le_rfl⟩
  · rw [if_neg hrefused]
    by_cases hsaw : client.proxy.sawBytes = true
    · rw [if_pos hsaw]
      rcases writeCapture_spec s i { client with lost := some client.heard } writes hkept with
        ⟨s', client', hwrite, hclients, _, _, hfinished, _, _, hrefused', _⟩
      rw [hwrite]
      exact ⟨client', by rw [hclients], hrefused', hfinished ▸ Nat.le_add_right _ _⟩
    · rw [if_neg hsaw]
      exact ⟨_, rfl, rfl, le_rfl⟩

/-- A step changes a connection at most, or adds one; who was refused stays refused. -/
theorem Claimed.step_clients (h : Claimed s) (hstep : Step hooks app s event s') :
    s.factory.sessionsFinished ≤ s'.factory.sessionsFinished ∧
      (s'.clients.length = s.clients.length ∨
        event = .accept ∧ s'.clients.length = s.clients.length + 1) ∧
      ∀ j, s.Refused j → s'.Refused j := by
  have hset {i : ℕ} {client client' : ProxiedClient σ} {s' : Vnclog σ}
      (hclient : s.clients[i]? = some client) (hclients : s'.clients = s.clients.set i client')
      (hrefused : client'.proxy.refused = client.proxy.refused) (j : ℕ) (hj : s.Refused j) :
      s'.Refused j := by
    rcases hj with ⟨other, hother, hrefused'⟩
    unfold Refused
    rw [hclients]
    by_cases heq : i = j
    · subst heq
      have hsame : client = other := Option.some.inj (hclient.symm.trans hother)
      have hlt := (List.getElem?_eq_some_iff.1 hclient).1
      exact ⟨client', List.getElem?_set_self hlt, hrefused.trans (hsame ▸ hrefused')⟩
    · exact ⟨other, (List.getElem?_set_ne heq).trans hother, hrefused'⟩
  -- A connection is added, or one of them is replaced by what became of it.
  cases hstep with
  | accept =>
      have hmade : ∃ client, (s.connectionMade app).clients = s.clients ++ [client] ∧
          s.factory.sessionsFinished ≤ (s.connectionMade app).factory.sessionsFinished := by
        cases htaken : s.factory.sessionTaken with
        | true =>
            rcases @connectionMade_refuses _ app _ h.oneShot htaken with ⟨client, hmade, _⟩
            exact ⟨client, by rw [hmade], by rw [hmade]⟩
        | false =>
            rcases @connectionMade_accepts _ app _ h.oneShot htaken with
              ⟨client, hclients, _, _, _, _, _, _, hfinished⟩
            exact ⟨client, hclients, hfinished.ge⟩
      rcases hmade with ⟨client, hclients, hle⟩
      refine ⟨hle, Or.inr ⟨rfl, by rw [hclients, List.length_append, List.length_singleton]⟩, ?_⟩
      rintro j ⟨other, hother, hrefused⟩
      refine ⟨other, ?_, hrefused⟩
      rw [hclients, List.getElem?_append_left (List.getElem?_eq_some_iff.1 hother).1]
      exact hother
  | received hclient hhears hproxy =>
      have hsound := h.sound _ (List.mem_of_getElem? hclient)
      have hrefused := (hsound.receive hhears hproxy).1
      exact ⟨le_rfl, Or.inl (List.length_set), hset hclient rfl hrefused⟩
  | lost hclient hlive =>
      rename_i i writes client
      have hkept := (h.sound client (List.mem_of_getElem? hclient)).capture
      rcases connectionLost_clients s i client writes hkept with
        ⟨client', hclients, hrefused, hle⟩
      refine ⟨hle, Or.inl (by rw [hclients, List.length_set]), hset hclient hclients hrefused⟩

theorem Spent.step (h : Spent s) (hstep : Step hooks app s event s') {n : ℕ}
    (hn : ∀ j, n ≤ j → j < s.clients.length → s.Refused j) :
    Spent s' ∧ ∀ j, n ≤ j → j < s'.clients.length → s'.Refused j := by
  rcases h.claimed.step_clients hstep with ⟨hle, hlength, hkeeps⟩
  refine ⟨⟨h.claimed.step hstep, h.finished.trans_le hle⟩, fun j hj hlt => ?_⟩
  rcases hlength with hlength | ⟨haccept, hlength⟩
  · exact hkeeps j (hn j hj (hlength ▸ hlt))
  · by_cases hold : j < s.clients.length
    · exact hkeeps j (hn j hj hold)
    -- The connection that has just come in.
    · have hnew : j = s.clients.length := by omega
      subst haccept
      cases hstep
      have htaken := (h.claimed.finished h.finished).1
      rcases @connectionMade_refuses _ app _ h.claimed.oneShot htaken with
        ⟨client, hmade, hrefused, _⟩
      refine ⟨client, ?_, hrefused⟩
      rw [hmade, hnew]
      exact List.getElem?_concat_length

theorem Spent.runs (h : Spent s) (hruns : Runs hooks app s events s') {n : ℕ}
    (hn : ∀ j, n ≤ j → j < s.clients.length → s.Refused j) :
    ∀ j, n ≤ j → j < s'.clients.length → s'.Refused j := by
  induction hruns with
  | nil _ => exact hn
  | cons hstep _ ih =>
      rcases h.step hstep hn with ⟨hspent, hn'⟩
      exact ih hspent hn'

/-! ## Ownership -/

theorem Claimed.turnedAway (h : Claimed s) (hstep : Step hooks app s .accept s')
    (hrefused : s'.Refused s.clients.length) : OnlyClient s.clients.length s s' := by
  cases hstep
  cases htaken : s.factory.sessionTaken with
  | true =>
      rcases @connectionMade_refuses _ app _ h.oneShot htaken with ⟨client, hmade, _⟩
      rw [hmade]
      refine ⟨rfl, rfl, fun j hj => ?_⟩
      rcases Nat.lt_or_gt_of_ne hj with hlt | hgt
      · exact List.getElem?_append_left hlt
      · rw [List.getElem?_eq_none_iff.2 hgt.le, List.getElem?_eq_none_iff]
        rw [List.length_append, List.length_singleton]
        omega
  | false =>
      rcases @connectionMade_accepts _ app _ h.oneShot htaken with
        ⟨client, hclients, haccepted, _⟩
      rcases hrefused with ⟨other, hother, hrefused⟩
      rw [hclients, List.getElem?_concat_length] at hother
      cases Option.some.inj hother
      exact absurd (haccepted.symm.trans hrefused) (by simp)

theorem Claimed.refused_step (h : Claimed s) (hrefused : s.Refused i) (hevent : event.client = some i)
    (hstep : Step hooks app s event s') : OnlyClient i s s' := by
  rcases hrefused with ⟨other, hother, hrefused⟩
  have hothers {client' : ProxiedClient σ} (j : ℕ) (hne : j ≠ i) :
      (s.clients.set i client')[j]? = s.clients[j]? := List.getElem?_set_ne hne.symm
  cases hstep with
  | accept => cases hevent
  | received hclient hhears hproxy =>
      cases Option.some.inj hevent
      cases Option.some.inj (hother.symm.trans hclient)
      have hsame := refused_receives hrefused hhears hproxy
      have hfailed := (h.sound _ (List.mem_of_getElem? hother)).refused hrefused
      refine ⟨?_, rfl, hothers⟩
      simp [Vnclog.receive, hsame, hfailed]
  | lost hclient hlive =>
      cases Option.some.inj hevent
      cases Option.some.inj (hother.symm.trans hclient)
      simp only [connectionLost, hrefused, if_true]
      exact ⟨rfl, rfl, hothers⟩

/-- In every state of every run, with whatever hooks, the session has one owner. -/
theorem owned_of_runs (hooks : Hooks σ) (app : σ) (capturePath : Option String)
    (capturePreserveAuth passwordRequired : Bool) (events : List Event) (s : Vnclog σ)
    (hruns : Runs hooks app (init capturePath capturePreserveAuth passwordRequired) events s) :
    Owned hooks app s := by
  have h : Claimed s := (claimed_init _ _ _).runs hruns
  refine ⟨h.exclusive, fun s' => h.turnedAway, fun i event s' => h.refused_step, ?_, ?_,
    h.archives.trans h.once, h.kept⟩
  · intro i client writes s' hclient hserving hsilent hstep
    have hmem := List.mem_of_getElem? hclient
    rcases hserving with ⟨other, hother, haccepted, hlive⟩
    cases Option.some.inj (hclient.symm.trans hother)
    have hsaw : client.proxy.sawBytes = false := by
      rw [(h.sound client hmem).saw haccepted hlive, hsilent]
    have htook := (h.sound client hmem).took haccepted
    cases hstep with
    | lost hclient' hlive' =>
        cases Option.some.inj (hclient.symm.trans hclient')
        simp [connectionLost, haccepted, hsaw, htook]
  · intro i client heard hclient haccepted hlost hcarried events s' hruns' j hj hlt
    have hmem := List.mem_of_getElem? hclient
    have hspent : Spent s := ⟨h, h.carried client hmem haccepted heard hlost hcarried⟩
    exact hspent.runs hruns' (fun k hk hk' => absurd hk' (Nat.not_lt.2 hk)) j hj hlt

/-- A port probe, then a session that is joined by a second connection and ends with it, and one
that comes too late. -/
def sampleEvents : List Event :=
  [.accept, .lost 0 true, .accept, .accept, .received 1 .s2c [82], .received 2 .c2s [82],
    .lost 1 true, .lost 2 true, .accept]

theorem owned_of_runs_sample :
    ∃ s, Runs ({} : Hooks Unit) () (init (some "capture.zip") false false) sampleEvents s ∧
      Owned {} () s ∧ s.archives.length = 1 := by
  have hs2c {p q : Proxy Unit} {data : Bytes} (h : p.captureChunk .s2c data = .ok q) :
      p.Receives {} .s2c data { q with delivered := q.delivered ++ [data] } := by
    simp [Proxy.Receives, h]
  have hc2s {p : Proxy Unit} {data : Bytes} (h : p.refused = true) :
      p.Receives {} .c2s data p := by
    simp [Proxy.Receives, h]
  have hruns : ∃ s, Runs ({} : Hooks Unit) () (init (some "capture.zip") false false)
      sampleEvents s ∧ s.archives.length = 1 := by
    refine ⟨_, .cons .accept (.cons (.lost rfl rfl) (.cons .accept (.cons .accept
      (.cons (.received rfl rfl (hs2c rfl)) (.cons (.received rfl rfl (hc2s rfl))
        (.cons (.lost rfl rfl) (.cons (.lost rfl rfl) (.cons .accept (.nil _))))))))), ?_⟩
    rfl
  rcases hruns with ⟨s, hruns, harchives⟩
  exact ⟨s, hruns, owned_of_runs {} () _ _ _ sampleEvents s hruns, harchives⟩

end Vnclog

end Vncdotool
