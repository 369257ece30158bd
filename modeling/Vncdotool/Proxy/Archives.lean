import Vncdotool.Capture.Archive
import Vncdotool.Capture.Preserved
import Vncdotool.Proxy.OneShot
import Vncdotool.Streaming.Files

/-!
# Archives — what `vnclog --capture-raw` leaves on the disk

The connections of `OneShot.lean`, with the files of the machine.  When a connection is lost its
capture is written; each effect on the disk may fail then, and the process may be killed.
`Stored` is kept by every event, and says what is at the path of the archive.
-/

namespace Vncdotool

open Wire Streaming

/-! ## Connections and files -/

/-- `vnclog --capture-raw path`, with what its archive is made from beside the connections: the
other fields of each `CaptureWriter`, and `getvalue().encode()` of what a recorder has been told. -/
structure CaptureSetup (σ ε : Type) where
  path : String
  preserveAuth : Bool
  passwordRequired : Bool
  version : String
  evidence : ℕ → Evidence
  getvalue : σ → Except ε Bytes

/-- The proxy with the files. -/
structure CaptureRun (σ : Type) where
  vnclog : Vnclog σ
  disk : ZipDisk

namespace CaptureSetup

variable {σ ε : Type} (setup : CaptureSetup σ ε)

/-- The path at which the archive is built. -/
def part : String :=
  setup.path ++ ".part"

/-- The capture of a fresh connection. -/
def fresh : CaptureWriter :=
  { scrubber := TappedScrubber.init setup.preserveAuth }

def init (disk : ZipDisk) : CaptureRun σ where
  vnclog := Vnclog.init (some setup.path) setup.preserveAuth setup.passwordRequired
  disk := disk

/-- `getRecordedSession`, encoded. -/
def recorded (s : Vnclog σ) : Except ε Bytes :=
  match s.getRecordedSession with
  | none => .ok []
  | some app => setup.getvalue app

/-- `_writeCapture`, of the `i`-th connection. -/
def writeCapture (s : Vnclog σ) (i : ℕ) (client : ProxiedClient σ) : Archiving ε Unit :=
  match client.proxy.capture with
  | none => pure ()
  | some w => do
      let session ← computing (setup.recorded s)
      w.writeArchive (s.factory.capturePath.getD "")
        (w.captureMeta (setup.evidence i) setup.version) session

/-- `connectionLost` of the `i`-th connection, `.error` with the files that are left when the
process is killed. -/
def connectionLost (s : CaptureRun σ) (i : ℕ) (client : ProxiedClient σ)
    (fates : List (Fate ε (Option ZipContents))) : Except ZipDisk (CaptureRun σ) :=
  if client.proxy.refused || !client.proxy.sawBytes then
    .ok { vnclog := s.vnclog.connectionLost i client true, disk := s.disk }
  else
    match (setup.writeCapture s.vnclog i client).run { state := s.disk, fates := fates } with
    | .ok _ world =>
        .ok { vnclog := s.vnclog.connectionLost i client true, disk := world.state }
    | .error (.raised _) world =>
        .ok { vnclog := s.vnclog.connectionLost i client false, disk := world.state }
    | .error .killed world => .error world.state

/-- What may happen next. -/
inductive Step (hooks : Hooks σ) (app : σ) (s : CaptureRun σ) : CaptureRun σ → Prop
  | other {event : Vnclog.Event} {v : Vnclog σ} (hstep : Vnclog.Step hooks app s.vnclog event v)
      (hother : ∀ i writes, event ≠ .lost i writes) :
      Step hooks app s { vnclog := v, disk := s.disk }
  | lost {i : ℕ} {client : ProxiedClient σ} {fates : List (Fate ε (Option ZipContents))}
      {s' : CaptureRun σ} (hclient : s.vnclog.clients[i]? = some client)
      (hlive : client.lost = none) (hlost : setup.connectionLost s i client fates = .ok s') :
      Step hooks app s s'

/-- The files that are found if the process is killed now, or while a capture is being written. -/
inductive Leaves (s : CaptureRun σ) : ZipDisk → Prop
  | now : Leaves s s.disk
  | writing {i : ℕ} {client : ProxiedClient σ} {fates : List (Fate ε (Option ZipContents))}
      {disk : ZipDisk} (hclient : s.vnclog.clients[i]? = some client) (hlive : client.lost = none)
      (hkilled : setup.connectionLost s i client fates = .error disk) : Leaves s disk

/-! ## What is kept -/

/-- The capture of a connection that has heard `heard` and recorded `session`. -/
def kept (i : ℕ) (heard : List (Tap × Bytes)) (session : Bytes) : LoadedCapture :=
  let w := setup.fresh.feedAll heard
  { s2c := w.flush.s2c
    sessionVdo := session
    metadata := some (w.captureMeta (setup.evidence i) setup.version) }

/-- The archive can be read, and is that of a connection which has closed: of all that had arrived
until then, and of all that was recorded. -/
def Keeps (s : CaptureRun σ) (disk : ZipDisk) : Prop :=
  ∃ i client heard session, s.vnclog.clients[i]? = some client ∧ client.proxy.refused = false ∧
    client.lost = some heard ∧ setup.getvalue client.proxy.parser.server.app = .ok session ∧
      loadCapture disk setup.path = .ok (setup.kept i heard session)

/-- What the user of `vnclog --capture-raw` relies on. -/
structure Safe (start : ZipDisk) (s : CaptureRun σ) : Prop where
  /-- At no moment is there anything but a whole archive. -/
  whole : ∀ disk, setup.Leaves s disk → disk setup.path = none ∨ setup.Keeps s disk
  elsewhere : ∀ disk, setup.Leaves s disk →
    ∀ path, path ≠ setup.path → path ≠ setup.part → disk path = start path
  /-- A session that is over without a failure has its archive. -/
  finished : 0 < s.vnclog.factory.sessionsFinished → s.vnclog.factory.captureFailed = false →
    setup.Keeps s s.disk
  /-- A replay of it serves what the scrubber has let out of a connection that has closed, in the
  version of its session, and knows a handshake that was preserved; then nothing is missing. -/
  replays : ∀ disk, setup.Leaves s disk → ∀ capture, loadCapture disk setup.path = .ok capture →
    ∃ (i : ℕ) (client : ProxiedClient σ) (heard : List (Tap × Bytes)),
      s.vnclog.clients[i]? = some client ∧ client.lost = some heard ∧
      capture.toCapture =
        { s2c := (setup.fresh.feedAll heard).flush.s2c
          negotiatedVersion := (setup.fresh.feedAll heard).scrubber.core.negotiatedVersion } ∧
      capture.authPreserved = setup.preserveAuth ∧
      (setup.preserveAuth = true → capture.s2c = Session.seen (fun _ => []) heard .s2c)

end CaptureSetup

/-! ## What a chunk does to a capture -/

theorem CaptureWriter.feedAll_concat (w : CaptureWriter) (chunks : List (Tap × Bytes)) (tap : Tap)
    (data : Bytes) : w.feedAll (chunks ++ [(tap, data)]) = (w.feedAll chunks).feed tap data := by
  unfold feedAll
  rw [List.foldl_append]
  rfl

namespace Proxy

variable {σ : Type} {hooks : Hooks σ} {p p' q : Proxy σ} {tap : Tap} {data : Bytes}

/-- A capture goes on with the chunk, or is given up for good. -/
structure Captures (p p' : Proxy σ) (tap : Tap) (data : Bytes) : Prop where
  fed : ∀ w', p'.capture = some w' → ∃ w, p.capture = some w ∧ w' = w.feed tap data
  given : p'.capture = none → p.capture = none ∨ p'.captureFailed = true

theorem captureChunk_captures
    (h : p.captureChunk tap data = .ok q ∨ p.captureChunk tap data = .error q) :
    p.Captures q tap data := by
  unfold captureChunk at h
  cases hcapture : p.capture with
  | none =>
      simp only [hcapture, Except.ok.injEq, reduceCtorEq, or_false] at h
      subst h
      exact ⟨fun w' hw' => absurd hw' (by simp), fun _ => Or.inl hcapture⟩
  | some w =>
      simp only [hcapture] at h
      by_cases habort : (w.feed tap data).abortReason.isSome
      · simp only [if_pos habort, Except.error.injEq, reduceCtorEq, false_or] at h
        subst h
        exact ⟨fun w' hw' => absurd hw' (by simp [abortCapture]), fun _ => Or.inr rfl⟩
      · simp only [if_neg habort, Except.ok.injEq, reduceCtorEq, or_false] at h
        subst h
        exact ⟨fun w' hw' => ⟨w, hcapture, (Option.some.inj hw').symm⟩,
          fun hnone => absurd hnone (by simp)⟩

theorem Receives.captures (h : p.Receives hooks tap data p') (haccepted : p.refused = false) :
    p.Captures p' tap data := by
  cases tap with
  | c2s =>
      simp only [Receives, haccepted, Bool.false_eq_true, if_false] at h
      cases hchunk : p.captureChunk .c2s data with
      | error q =>
          simp only [hchunk] at h
          exact h ▸ captureChunk_captures (Or.inr hchunk)
      | ok q =>
          simp only [hchunk] at h
          rcases h with ⟨parser, _, rfl⟩
          have hcaptures := captureChunk_captures (Or.inl hchunk)
          exact ⟨hcaptures.fed, hcaptures.given⟩
  | s2c =>
      simp only [Receives] at h
      cases hchunk : p.captureChunk .s2c data with
      | error q =>
          simp only [hchunk] at h
          exact h ▸ captureChunk_captures (Or.inr hchunk)
      | ok q =>
          simp only [hchunk] at h
          subst h
          have hcaptures := captureChunk_captures (Or.inl hchunk)
          exact ⟨hcaptures.fed, hcaptures.given⟩

/-- The bytes of the server are nothing to the parser of the client's. -/
theorem Receives.parser_eq (h : p.Receives hooks .s2c data p') : p'.parser = p.parser := by
  simp only [Receives] at h
  cases hchunk : p.captureChunk .s2c data with
  | error q =>
      simp only [hchunk] at h
      unfold captureChunk at hchunk
      cases hcapture : p.capture with
      | none =>
          simp only [hcapture] at hchunk
          cases hchunk
      | some w =>
          simp only [hcapture] at hchunk
          split_ifs at hchunk
          cases hchunk
          exact h ▸ rfl
  | ok q =>
      simp only [hchunk] at h
      subst h
      exact (captureChunk_ok hchunk).1

end Proxy

namespace CaptureSetup

variable {σ ε : Type} {setup : CaptureSetup σ ε} {hooks : Hooks σ} {app : σ} {s s' : CaptureRun σ}
  {start disk : ZipDisk} {i : ℕ} {client : ProxiedClient σ}

/-! ## Writing the capture of a connection -/

theorem part_ne (setup : CaptureSetup σ ε) : setup.path ≠ setup.part := by
  intro heq
  have hlength := congrArg String.length heq
  rw [part, String.length_append] at hlength
  exact absurd hlength (by simp)

/-- What `load_capture` reads is what is at its path. -/
theorem loadCapture_congr {d d' : ZipDisk} {path : String} (h : d' path = d path) :
    loadCapture d' path = loadCapture d path := by
  unfold loadCapture
  rw [h]

theorem withstands_writeCapture (hpath : s.vnclog.factory.capturePath = some setup.path) :
    Withstands (setup.writeCapture s.vnclog i client) s.disk
      (fun _ disk => (client.proxy.capture = none ∧ disk = s.disk) ∨
        ∃ w session, client.proxy.capture = some w ∧ setup.recorded s.vnclog = .ok session ∧
          disk = Function.update (Function.update s.disk setup.part none) setup.path
            (some (.archive
              (w.flush.members (w.captureMeta (setup.evidence i) setup.version) session))))
      (fun _ => SameBut setup.part s.disk) (SameBut setup.part s.disk) := by
  unfold writeCapture
  cases hcapture : client.proxy.capture with
  | none => exact withstands_pure (Or.inl ⟨rfl, rfl⟩)
  | some w =>
      have hsession : Withstands
          (computing (setup.recorded s.vnclog) : Archiving ε Bytes) s.disk
          (fun session disk => setup.recorded s.vnclog = .ok session ∧ disk = s.disk)
          (fun _ => SameBut setup.part s.disk) (SameBut setup.part s.disk) :=
        withstands_computing (fun session hok => ⟨hok, rfl⟩) fun _ _ => sameBut_refl
      refine hsession.bind ?_
      rintro session d ⟨hok, rfl⟩
      rw [hpath]
      refine withstands_writeArchive.mono (fun _ disk hdisk => ?_) (fun _ _ => id) fun _ => id
      exact Or.inr ⟨w, session, rfl, hok, hdisk⟩

/-! ## The invariant -/

/-- The capture of a connection that lives has been fed what has arrived, and what is recorded is
recorded for it. -/
structure Feeding (setup : CaptureSetup σ ε) (s : Vnclog σ) (i : ℕ) (client : ProxiedClient σ) :
    Prop where
  vdo : s.factory.captureVdo = some i
  fed : ∀ w, client.proxy.capture = some w → w = setup.fresh.feedAll client.heard
  given : client.proxy.capture = none → s.factory.captureFailed = true

/-- The archive is there when a session is over, or writing it has failed. -/
structure Stored (setup : CaptureSetup σ ε) (start : ZipDisk) (s : CaptureRun σ) : Prop where
  claimed : s.vnclog.Claimed
  path : s.vnclog.factory.capturePath = some setup.path
  preserve : s.vnclog.factory.capturePreserveAuth = setup.preserveAuth
  feeding : ∀ i client, s.vnclog.clients[i]? = some client → client.proxy.refused = false →
    client.lost = none → setup.Feeding s.vnclog i client
  elsewhere : ∀ path, path ≠ setup.path → path ≠ setup.part → s.disk path = start path
  unfinished : s.vnclog.factory.sessionsFinished = 0 → s.disk setup.path = none
  finished : 0 < s.vnclog.factory.sessionsFinished →
    setup.Keeps s s.disk ∨
      (s.disk setup.path = none ∧ s.vnclog.factory.captureFailed = true)

theorem stored_init (hstart : start setup.path = none) :
    setup.Stored start (setup.init start) where
  claimed := Vnclog.claimed_init _ _ _
  path := rfl
  preserve := rfl
  feeding _ _ hclient := absurd hclient (by simp [init, Vnclog.init])
  elsewhere _ _ _ := rfl
  unfinished _ := hstart
  finished hpos := absurd hpos (lt_irrefl 0)

/-- The connections that have closed stay as they are, as far as an archive goes. -/
def StaysClosed (s s' : Vnclog σ) : Prop :=
  ∀ (i : ℕ) (client : ProxiedClient σ) (heard : List (Tap × Bytes)),
    s.clients[i]? = some client → client.proxy.refused = false → client.lost = some heard →
      ∃ client' : ProxiedClient σ, s'.clients[i]? = some client' ∧
        client'.proxy.refused = false ∧ client'.lost = some heard ∧
          client'.proxy.parser.server.app = client.proxy.parser.server.app

theorem Keeps.mono (h : setup.Keeps s disk) (hstays : StaysClosed s.vnclog s'.vnclog)
    {disk' : ZipDisk} (hdisk : disk' setup.path = disk setup.path) : setup.Keeps s' disk' := by
  rcases h with ⟨i, client, heard, session, hclient, haccepted, hlost, hsession, hload⟩
  rcases hstays i client heard hclient haccepted hlost with
    ⟨client', hclient', haccepted', hlost', happ⟩
  refine ⟨i, client', heard, session, hclient', haccepted', hlost', happ ▸ hsession, ?_⟩
  rw [loadCapture_congr hdisk]
  exact hload

/-- A change of a connection that is refused or lives. -/
theorem staysClosed_set {v v' : Vnclog σ} {client' : ProxiedClient σ}
    (hclient : v.clients[i]? = some client) (hset : v'.clients = v.clients.set i client')
    (hopen : client.proxy.refused = true ∨ client.lost = none) : StaysClosed v v' := by
  intro j other heard hother haccepted hlost
  by_cases heq : i = j
  · subst heq
    cases Option.some.inj (hclient.symm.trans hother)
    rcases hopen with hrefused | hlive
    · exact absurd (hrefused.symm.trans haccepted) (by simp)
    · exact absurd (hlive.symm.trans hlost) (by simp)
  · refine ⟨other, ?_, haccepted, hlost, rfl⟩
    rw [hset, List.getElem?_set_ne heq]
    exact hother

/-! ## Connections come in -/

theorem Stored.accept (h : setup.Stored start s) :
    setup.Stored start { vnclog := s.vnclog.connectionMade app, disk := s.disk } := by
  have hclaimed : (s.vnclog.connectionMade app).Claimed := h.claimed.accept
  have hstays {client : ProxiedClient σ}
      (hclients : (s.vnclog.connectionMade app).clients = s.vnclog.clients ++ [client]) :
      StaysClosed s.vnclog (s.vnclog.connectionMade app) := by
    intro i other heard hother haccepted hlost
    refine ⟨other, ?_, haccepted, hlost, rfl⟩
    rw [hclients, List.getElem?_append_left (List.getElem?_eq_some_iff.1 hother).1]
    exact hother
  cases htaken : s.vnclog.factory.sessionTaken with
  | true =>
      -- The session is taken, and the newcomer is refused.
      rcases @Vnclog.connectionMade_refuses _ app _ h.claimed.oneShot htaken with
        ⟨client, hmade, hrefused, _, _⟩
      have hstays' := hstays (congrArg Vnclog.clients hmade)
      rw [hmade] at hclaimed hstays' ⊢
      refine ⟨hclaimed, h.path, h.preserve, fun i other hother haccepted hlive => ?_, h.elsewhere,
        h.unfinished, fun hpos => ?_⟩
      · rcases getElem?_concat_cases hother with ⟨_, rfl⟩ | ⟨_, hold⟩
        · exact absurd (hrefused.symm.trans haccepted) (by simp)
        · have hfeeding := h.feeding i other hold haccepted hlive
          exact ⟨hfeeding.vdo, hfeeding.fed, hfeeding.given⟩
      · exact (h.finished hpos).imp_left fun hkeeps => hkeeps.mono hstays' rfl
  | false =>
      -- Nobody is served, so the new connection is the only one that lives.
      have hmade : s.vnclog.connectionMade app =
          { s.vnclog with
            factory :=
              { s.vnclog.factory with
                captureVdo := some s.vnclog.clients.length
                sessionTaken := true }
            clients := s.vnclog.clients ++
              [{ proxy := Proxy.init (some setup.preserveAuth) s.vnclog.factory.passwordRequired app
                 tookSession := true }] } := by
        simp [Vnclog.connectionMade, Vnclog.getRecorder, h.claimed.oneShot, htaken, h.path,
          h.preserve]
      have hstays' := hstays (congrArg Vnclog.clients hmade)
      rw [hmade] at hclaimed hstays' ⊢
      refine ⟨hclaimed, h.path, h.preserve, fun i other hother haccepted hlive => ?_, h.elsewhere,
        h.unfinished, fun hpos => ?_⟩
      · rcases getElem?_concat_cases hother with ⟨hi, rfl⟩ | ⟨_, hold⟩
        · refine ⟨congrArg some hi.symm, fun w hw => ?_, fun hnone => ?_⟩
          · exact (Option.some.inj hw).symm
          · exact absurd hnone (by simp [Proxy.init])
        · have hserving : s.vnclog.Serving i := ⟨other, hold, haccepted, hlive⟩
          exact absurd ((h.claimed.taken i hserving).symm.trans htaken) (by simp)
      · exact (h.finished hpos).imp_left fun hkeeps => hkeeps.mono hstays' rfl

/-! ## Chunks arrive -/

theorem Stored.receive (h : setup.Stored start s) {tap : Tap} {data : Bytes} {proxy : Proxy σ}
    (hclient : s.vnclog.clients[i]? = some client) (hhears : Vnclog.Hears client tap)
    (hproxy : client.proxy.Receives hooks tap data proxy) :
    setup.Stored start { vnclog := s.vnclog.receive i client tap data proxy, disk := s.disk } := by
  have hlt : i < s.vnclog.clients.length := (List.getElem?_eq_some_iff.1 hclient).1
  have hrefused := ((h.claimed.sound client (List.mem_of_getElem? hclient)).receive hhears hproxy).1
  have hstays : StaysClosed s.vnclog (s.vnclog.receive i client tap data proxy) := by
    intro j other heard hother haccepted hlost
    by_cases heq : i = j
    · subst heq
      cases Option.some.inj (hclient.symm.trans hother)
      refine ⟨_, List.getElem?_set_self hlt, hrefused.trans haccepted, hlost, ?_⟩
      -- A client that has gone is not heard any more, but its server is.
      cases tap with
      | c2s => exact absurd (hhears.symm.trans hlost) (by simp)
      | s2c => exact congrArg (fun parser => parser.server.app) hproxy.parser_eq
    · exact ⟨other, (List.getElem?_set_ne heq).trans hother, haccepted, hlost, rfl⟩
  refine ⟨h.claimed.receive hclient hhears hproxy, h.path, h.preserve, ?_, h.elsewhere,
    h.unfinished, fun hpos => ?_⟩
  · intro j other hother haccepted hlive
    rcases getElem?_set_cases hother with ⟨rfl, rfl⟩ | ⟨_, hold⟩
    · have haccepted' : client.proxy.refused = false := hrefused.symm.trans haccepted
      have hfeeding := h.feeding j client hclient haccepted' hlive
      have hcaptures := hproxy.captures haccepted'
      refine ⟨hfeeding.vdo, fun w' hw' => ?_, fun hnone => ?_⟩
      · rcases hcaptures.fed w' hw' with ⟨w, hw, rfl⟩
        rw [hfeeding.fed w hw]
        exact (CaptureWriter.feedAll_concat _ _ _ _).symm
      · rcases hcaptures.given hnone with hgiven | hfailed
        · exact Bool.or_eq_true_iff.2 (Or.inl (hfeeding.given hgiven))
        · exact Bool.or_eq_true_iff.2 (Or.inr hfailed)
    · have hfeeding := h.feeding j other hold haccepted hlive
      refine ⟨hfeeding.vdo, hfeeding.fed, fun hnone => ?_⟩
      exact Bool.or_eq_true_iff.2 (Or.inl (hfeeding.given hnone))
  · refine (h.finished hpos).imp (fun hkeeps => hkeeps.mono hstays rfl) fun hfailed => ?_
    exact ⟨hfailed.1, Bool.or_eq_true_iff.2 (Or.inl hfailed.2)⟩

/-! ## Connections are lost -/

/-- A connection that was refused or carried nothing leaves the files alone. -/
theorem Stored.close (h : setup.Stored start s) (hclient : s.vnclog.clients[i]? = some client)
    (hlive : client.lost = none)
    (hquiet : client.proxy.refused = true ∨ client.proxy.sawBytes = false) (writes : Bool) :
    setup.Stored start
      { vnclog := s.vnclog.connectionLost i client writes, disk := s.disk } := by
  have hclaimed : (s.vnclog.connectionLost i client writes).Claimed :=
    h.claimed.lose hclient hlive writes
  by_cases hrefused : client.proxy.refused = true
  -- A refused connection leaves the factory as it is.
  · have hlost : s.vnclog.connectionLost i client writes =
        { s.vnclog with
          clients := s.vnclog.clients.set i { client with lost := some client.heard } } := by
      simp [Vnclog.connectionLost, hrefused]
    rw [hlost] at hclaimed ⊢
    refine ⟨hclaimed, h.path, h.preserve, ?_, h.elsewhere, h.unfinished, fun hpos => ?_⟩
    · intro j other hother haccepted hlive'
      rcases getElem?_set_cases hother with ⟨rfl, rfl⟩ | ⟨_, hold⟩
      · exact absurd (hrefused.symm.trans haccepted) (by simp)
      · have hfeeding := h.feeding j other hold haccepted hlive'
        exact ⟨hfeeding.vdo, hfeeding.fed, hfeeding.given⟩
    · exact (h.finished hpos).imp_left fun hkeeps =>
        hkeeps.mono (staysClosed_set hclient rfl (Or.inl hrefused)) rfl
  -- An accepted one that carried nothing gives the session back.
  · have haccepted : client.proxy.refused = false := by simpa using hrefused
    have hsaw : client.proxy.sawBytes = false := hquiet.resolve_left hrefused
    have hserving : s.vnclog.Serving i := ⟨client, hclient, haccepted, hlive⟩
    have hlost : s.vnclog.connectionLost i client writes =
        { s.vnclog with
          factory :=
            { s.vnclog.factory with
              sessionTaken := s.vnclog.factory.sessionTaken && !client.tookSession
              captureVdo := none }
          clients := s.vnclog.clients.set i
            { client with
              lost := some client.heard
              proxy := { client.proxy with capture := none } } } := by
      simp [Vnclog.connectionLost, haccepted, hsaw]
    rw [hlost] at hclaimed ⊢
    refine ⟨hclaimed, h.path, h.preserve, ?_, h.elsewhere, h.unfinished, fun hpos => ?_⟩
    · intro j other hother haccepted' hlive'
      rcases getElem?_set_cases hother with ⟨rfl, rfl⟩ | ⟨hne, hold⟩
      · exact absurd hlive' (by simp)
      · exact absurd (h.claimed.exclusive j i ⟨other, hold, haccepted', hlive'⟩ hserving) hne
    · exact (h.finished hpos).imp_left fun hkeeps =>
        hkeeps.mono (staysClosed_set hclient rfl (Or.inr hlive)) rfl

/-- What the end of a session does to the connections and to the factory. -/
theorem connectionLost_session {v : Vnclog σ} (haccepted : client.proxy.refused = false)
    (hsaw : client.proxy.sawBytes = true) (honeShot : v.factory.oneShot = true) (writes : Bool) :
    ∃ client', (v.connectionLost i client writes).clients = v.clients.set i client' ∧
      client'.proxy.refused = false ∧ client'.lost = some client.heard ∧
      client'.proxy.parser = client.proxy.parser ∧
      (v.connectionLost i client writes).factory.capturePath = v.factory.capturePath ∧
      (v.connectionLost i client writes).factory.capturePreserveAuth =
        v.factory.capturePreserveAuth ∧
      (v.connectionLost i client writes).factory.sessionsFinished =
        v.factory.sessionsFinished + 1 ∧
      (v.connectionLost i client writes).factory.captureFailed =
        (v.factory.captureFailed || (client.proxy.capture.isSome && !writes)) := by
  unfold Vnclog.connectionLost Vnclog.writeCapture
  simp only [haccepted, hsaw, Bool.false_eq_true, if_false, if_true]
  cases hcapture : client.proxy.capture with
  | none => exact ⟨_, rfl, haccepted, rfl, rfl, rfl, rfl, by simp [honeShot], by simp⟩
  | some w =>
      cases writes with
      | true => exact ⟨_, rfl, rfl, rfl, rfl, rfl, rfl, by simp [honeShot], by simp⟩
      | false => exact ⟨_, rfl, haccepted, rfl, rfl, rfl, rfl, by simp [honeShot], by simp⟩

/-- A session ends, and its capture is written or not. -/
theorem Stored.write (h : setup.Stored start s) (hclient : s.vnclog.clients[i]? = some client)
    (hlive : client.lost = none) (haccepted : client.proxy.refused = false)
    (hsaw : client.proxy.sawBytes = true) {writes : Bool}
    (hdisk : (writes = true ∧
        ((client.proxy.capture = none ∧ disk = s.disk) ∨
          ∃ w session, client.proxy.capture = some w ∧ setup.recorded s.vnclog = .ok session ∧
            disk = Function.update (Function.update s.disk setup.part none) setup.path
              (some (.archive
                (w.flush.members (w.captureMeta (setup.evidence i) setup.version) session))))) ∨
      (writes = false ∧ SameBut setup.part s.disk disk)) :
    setup.Stored start
      { vnclog := s.vnclog.connectionLost i client writes, disk := disk } := by
  have hserving : s.vnclog.Serving i := ⟨client, hclient, haccepted, hlive⟩
  have hfeeding := h.feeding i client hclient haccepted hlive
  -- There is one session only, so nothing has been written before.
  have hzero : s.vnclog.factory.sessionsFinished = 0 := by
    by_contra hpos
    exact (h.claimed.finished (Nat.pos_of_ne_zero hpos)).2 i hserving
  have hnone := h.unfinished hzero
  rcases @connectionLost_session σ i client s.vnclog haccepted hsaw h.claimed.oneShot writes with
    ⟨client', hclients, haccepted', hlost, hparser, hpath, hpreserve, hfinished, hfailed⟩
  have hlt : i < s.vnclog.clients.length := (List.getElem?_eq_some_iff.1 hclient).1
  refine ⟨h.claimed.lose hclient hlive writes, hpath.trans h.path, hpreserve.trans h.preserve,
    ?_, ?_, ?_, fun _ => ?_⟩
  · intro j other hother haccepted'' hlive'
    rw [hclients] at hother
    rcases getElem?_set_cases hother with ⟨rfl, rfl⟩ | ⟨hne, hold⟩
    · exact absurd (hlost.symm.trans hlive') (by simp)
    · exact absurd (h.claimed.exclusive j i ⟨other, hold, haccepted'', hlive'⟩ hserving) hne
  · intro path hne hne'
    rcases hdisk with ⟨_, ⟨_, rfl⟩ | ⟨_, _, _, _, rfl⟩⟩ | ⟨_, hsame⟩
    · exact h.elsewhere path hne hne'
    · exact ((Function.update_of_ne hne _ _).trans (Function.update_of_ne hne' _ _)).trans
        (h.elsewhere path hne hne')
    · exact (hsame path hne').trans (h.elsewhere path hne hne')
  · intro hzero'
    exact absurd (hfinished.symm.trans hzero') (Nat.succ_ne_zero _)
  · rcases hdisk with ⟨rfl, ⟨hcapture, rfl⟩ | ⟨w, session, hcapture, hsession, rfl⟩⟩ | ⟨rfl, hsame⟩
    -- The capture had been given up.
    · refine Or.inr ⟨hnone, ?_⟩
      rw [hfailed, hfeeding.given hcapture]
      rfl
    -- The archive is that of all that this connection has heard.
    · refine Or.inl ⟨i, client', client.heard, session, ?_, haccepted', hlost, ?_, ?_⟩
      · rw [hclients]
        exact List.getElem?_set_self hlt
      · have hrecorded : setup.recorded s.vnclog =
            setup.getvalue client.proxy.parser.server.app := by
          simp [recorded, Vnclog.getRecordedSession, hfeeding.vdo, hclient]
        rw [hparser, ← hrecorded]
        exact hsession
      · rw [loadCapture_members (Function.update_self _ _ _), hfeeding.fed w hcapture]
        rfl
    -- It could not be written, and that is noted.
    · have hsame' : disk setup.path = none := (hsame _ (part_ne setup)).trans hnone
      refine Or.inr ⟨hsame', ?_⟩
      rw [hfailed]
      cases hcapture : client.proxy.capture with
      | none => simp [hfeeding.given hcapture]
      | some w => simp

theorem Stored.lost (h : setup.Stored start s) (hclient : s.vnclog.clients[i]? = some client)
    (hlive : client.lost = none) {fates : List (Fate ε (Option ZipContents))}
    (hlost : setup.connectionLost s i client fates = .ok s') : setup.Stored start s' := by
  unfold connectionLost at hlost
  split_ifs at hlost with hquiet
  · cases hlost
    refine h.close hclient hlive ?_ true
    simpa using hquiet
  · rw [Bool.not_eq_true, Bool.or_eq_false_iff, Bool.not_eq_false'] at hquiet
    have hspec := @withstands_writeCapture σ ε setup s i client h.path fates
    unfold Ensures at hspec
    cases hrun : (setup.writeCapture s.vnclog i client).run ⟨s.disk, fates⟩ with
    | ok a world =>
        rw [hrun] at hspec hlost
        cases hlost
        exact h.write hclient hlive hquiet.1 hquiet.2 (Or.inl ⟨rfl, hspec⟩)
    | error halt world =>
        rw [hrun] at hspec hlost
        cases halt with
        | raised e =>
            cases hlost
            exact h.write hclient hlive hquiet.1 hquiet.2 (Or.inr ⟨rfl, hspec⟩)
        | killed => cases hlost

/-! ## Replays -/

/-- A replay of the archive serves what the scrubber has let out, in the version of the session. -/
theorem toCapture_kept (heard : List (Tap × Bytes)) (session : Bytes) :
    (setup.kept i heard session).toCapture =
      { s2c := (setup.fresh.feedAll heard).flush.s2c
        negotiatedVersion := (setup.fresh.feedAll heard).scrubber.core.negotiatedVersion } := by
  unfold LoadedCapture.toCapture kept
  rw [negotiatedVersion_captureMeta]

theorem authPreserved_kept (heard : List (Tap × Bytes)) (session : Bytes) :
    (setup.kept i heard session).authPreserved = setup.preserveAuth := by
  unfold kept
  rw [authPreserved_captureMeta]
  exact setup.fresh.preserveAuth_feedAll heard

/-- With `--capture-raw-unsafe` that is all that the server has sent. -/
theorem s2c_kept_preserving (hpreserve : setup.preserveAuth = true) (heard : List (Tap × Bytes))
    (session : Bytes) :
    (setup.kept i heard session).s2c = Session.seen (fun _ => []) heard .s2c := by
  have hfresh : setup.fresh = CaptureWriter.preserving := by
    unfold fresh CaptureWriter.preserving
    rw [hpreserve]
  have hinit : setup.fresh.Lossless fun _ => [] := by
    rw [hfresh]
    exact ⟨⟨rfl, rfl⟩, fun tap => by cases tap <;> rfl⟩
  have hfed : (setup.fresh.feedAll heard).Lossless (Session.seen (fun _ => []) heard) :=
    hinit.feedAll
  exact hfed.flush .s2c

/-! ## Runs -/

theorem Stored.step (h : setup.Stored start s) (hstep : setup.Step hooks app s s') :
    setup.Stored start s' := by
  cases hstep with
  | other hstep hother =>
      cases hstep with
      | accept => exact h.accept
      | received hclient hhears hproxy => exact h.receive hclient hhears hproxy
      | lost hclient hlive => exact absurd rfl (hother _ _)
  | lost hclient hlive hlost => exact h.lost hclient hlive hlost

theorem Stored.runs (h : setup.Stored start s)
    (hruns : Relation.ReflTransGen (setup.Step hooks app) s s') : setup.Stored start s' := by
  induction hruns with
  | refl => exact h
  | tail _ hstep ih => exact ih.step hstep

/-- A process that is killed while it writes leaves the path of the archive as it was. -/
theorem Stored.killed (h : setup.Stored start s) {fates : List (Fate ε (Option ZipContents))}
    (hkilled : setup.connectionLost s i client fates = .error disk) :
    SameBut setup.part s.disk disk := by
  unfold connectionLost at hkilled
  split_ifs at hkilled
  have hspec := @withstands_writeCapture σ ε setup s i client h.path fates
  unfold Ensures at hspec
  cases hrun : (setup.writeCapture s.vnclog i client).run ⟨s.disk, fates⟩ with
  | ok a world =>
      rw [hrun] at hkilled
      cases hkilled
  | error halt world =>
      rw [hrun] at hspec hkilled
      cases halt with
      | raised e => cases hkilled
      | killed =>
          cases hkilled
          exact hspec

theorem Stored.present (h : setup.Stored start s) :
    s.disk setup.path = none ∨ setup.Keeps s s.disk := by
  rcases Nat.eq_zero_or_pos s.vnclog.factory.sessionsFinished with hzero | hpos
  · exact Or.inl (h.unfinished hzero)
  · exact (h.finished hpos).symm.imp_left And.left

theorem Stored.safe (h : setup.Stored start s) : setup.Safe start s := by
  have hsame {disk : ZipDisk} (hleaves : setup.Leaves s disk) :
      SameBut setup.part s.disk disk := by
    cases hleaves with
    | now => exact sameBut_refl
    | writing _ _ hkilled => exact h.killed hkilled
  have hwhole {disk : ZipDisk} (hleaves : setup.Leaves s disk) :
      disk setup.path = none ∨ setup.Keeps s disk := by
    have hpath := hsame hleaves setup.path (part_ne setup)
    rcases h.present with hnone | hkeeps
    · exact Or.inl (hpath.trans hnone)
    · exact Or.inr (hkeeps.mono (fun _ client _ hclient haccepted hlost =>
        ⟨client, hclient, haccepted, hlost, rfl⟩) hpath)
  refine ⟨fun disk => hwhole, fun disk hleaves path hne hne' => ?_, fun hpos hkept => ?_,
    fun disk hleaves capture hload => ?_⟩
  · exact (hsame hleaves path hne').trans (h.elsewhere path hne hne')
  · refine (h.finished hpos).resolve_right fun hfailed => ?_
    exact absurd (hkept.symm.trans hfailed.2) (by simp)
  · rcases hwhole hleaves with hnone | ⟨i, client, heard, session, hclient, _, hlost, _, hkept⟩
    · unfold loadCapture at hload
      rw [hnone] at hload
      cases hload
    · cases hkept.symm.trans hload
      exact ⟨i, client, heard, hclient, hlost, setup.toCapture_kept heard session,
        setup.authPreserved_kept heard session,
        fun hpreserve => setup.s2c_kept_preserving hpreserve heard session⟩

/-- In every run of `vnclog --capture-raw` on a target that `check_capture_target` lets pass,
whatever connects, sends and hangs up, whatever fails on the disk and whenever the process is killed:
what is found at the path is nothing, or the whole archive of a session that has closed; no other
file is touched but the one the archive is built in; when a session is over and no failure was
noted, the archive is there; and a replay of it serves what the scrubber has let out. -/
theorem archive_safe (setup : CaptureSetup σ ε) (hooks : Hooks σ) (app : σ) {isdir : Bool}
    (hcheck : checkCaptureTarget start isdir setup.path = .ok ())
    (hruns : Relation.ReflTransGen (setup.Step hooks app) (setup.init start) s) :
    setup.Safe start s := by
  have hstart : start setup.path = none := by
    unfold checkCaptureTarget at hcheck
    split_ifs at hcheck with _ hexists
    exact Option.not_isSome_iff_eq_none.1 hexists
  exact ((stored_init hstart).runs hruns).safe

/-- A server is connected to, speaks and hangs up. -/
def sampleSetup : CaptureSetup Unit Unit where
  path := "capture.zip"
  preserveAuth := false
  passwordRequired := false
  version := "1.0"
  evidence _ := { server := "host", captureTimestamp := "", encodingsSeen := .arr [] }
  getvalue _ := .ok []

theorem archive_safe_sample :
    ∃ s : CaptureRun Unit,
      Relation.ReflTransGen (sampleSetup.Step {} ()) (sampleSetup.init fun _ => none) s ∧
        sampleSetup.Safe (fun _ => none) s ∧ s.vnclog.factory.sessionsFinished = 1 := by
  have hs2c {p q : Proxy Unit} {data : Bytes} (h : p.captureChunk .s2c data = .ok q) :
      p.Receives {} .s2c data { q with delivered := q.delivered ++ [data] } := by
    simp [Proxy.Receives, h]
  have haccept : ∀ i writes, Vnclog.Event.accept ≠ .lost i writes := by
    intro i writes h
    cases h
  have hreceived : ∀ i writes, Vnclog.Event.received 0 .s2c [82] ≠ .lost i writes := by
    intro i writes h
    cases h
  have hruns : ∃ s : CaptureRun Unit,
      Relation.ReflTransGen (sampleSetup.Step {} ()) (sampleSetup.init fun _ => none) s ∧
        s.vnclog.factory.sessionsFinished = 1 := by
    refine ⟨_, .tail (.tail (.tail .refl (.other .accept haccept))
      (@Step.other _ _ _ _ _ _ (.received 0 .s2c [82]) _ (.received rfl rfl (hs2c rfl)) hreceived))
      (@Step.lost _ _ _ _ _ _ 0 _ [] _ rfl rfl rfl), rfl⟩
  rcases hruns with ⟨s, hruns, hfinished⟩
  have hcheck : checkCaptureTarget (fun _ => none) true sampleSetup.path = .ok () := by
    decide +kernel
  exact ⟨s, hruns, archive_safe sampleSetup {} () hcheck hruns, hfinished⟩

end CaptureSetup

end Vncdotool
