import Vncdotool.Client.Session
import Vncdotool.RFB.Rectangles

/-!
# VMware — a client that answers updates of a single pixel with a request

`VMWareClient.dataReceived` looks at the chunks of the transport: one that looks like an update of
the pixel at the origin is not given to the parser, and an update is requested in its place.  What
that is for is told by `Serves`: a `VNCDoToolClient` receives the stream of the server, of which
complete messages of that kind, standing between two others, may have been replaced.  The source
says itself that a chunk is no message.
-/

namespace Vncdotool

open Wire Streaming

namespace Connection

variable {σ : Type}

/-- The chunks are given to the client one after the other; an exception loses the connection, and
nothing more is given to it. -/
def Delivers (returns : Connection σ → Bytes → Connection σ → Prop) :
    Connection σ → List Bytes → Connection σ → Prop
  | conn, [], conn' => conn' = conn
  | conn, chunk :: chunks, conn' =>
      ∃ m, returns conn chunk m ∧ (m.raised = none → Delivers returns m chunks conn') ∧
        (m.raised ≠ none → conn' = m)

end Connection

namespace VMWareClient

variable {σ : Type}

/-! ## The method -/

/-- `SINGLE_PIXEL_UPDATE`. -/
def singlePixelUpdate : Bytes :=
  packBE 1 (MsgS2C.value .framebufferUpdate) ++ [0] ++ packBE 2 1 ++ packBE 2 0 ++ packBE 2 0 ++
    packBE 2 1 ++ packBE 2 1 ++ packBE 4 0 ++ [0, 0, 0, 0]

/-- What the chunk is compared to: the message apart from its padding and its pixel. -/
def Matches (data : Bytes) : Prop :=
  data.length = 20 ∧ data[0]? = singlePixelUpdate[0]? ∧
    slice data 2 14 = slice singlePixelUpdate 2 14

instance (data : Bytes) : Decidable (Matches data) :=
  inferInstanceAs (Decidable (_ ∧ _))

/-- `self.framebufferUpdateRequest()`. -/
def requested (conn : Connection σ) : Connection σ :=
  match RFBClient.framebufferUpdateRequest 0 0 none none false conn.client with
  | .ok _ c => { conn with client := c, raised := none }
  | .error exc c => { conn with client := c, raised := some exc }

/-- `self._handler()` up to the loop, unless the request has raised. -/
def handle (rt : Runtime σ) (conn : Connection σ) : Connection σ :=
  if conn.raised = none then
    match conn.client.stage with
    | .handleInitial => conn.greet rt
    | .handleExpected => conn
  else conn

/-- `dataReceived(data)` up to the loop. -/
def enter (rt : Runtime σ) (conn : Connection σ) (data : Bytes) : Connection σ :=
  if Matches data then handle rt (requested conn) else conn.enter rt data

/-- `dataReceived(data)` on `conn` returns, or raises, leaving `conn'`. -/
def Returns (rt : Runtime σ) (conn : Connection σ) (data : Bytes) (conn' : Connection σ) : Prop :=
  HaltsAt (Connection.iterate rt) (enter rt conn data) conn'

/-! ## What it is for -/

/-- A complete update that is the one pixel at the origin, in the client's pixel format. -/
def IsSinglePixel (conn : Connection σ) (message : Bytes) : Prop :=
  ∃ padding pixel, pixel.length = conn.client.pixelFormat.bypp ∧
    message = packBE 1 (MsgS2C.value .framebufferUpdate) ++ [padding] ++ packBE 2 1 ++
      packBE 2 0 ++ packBE 2 0 ++ packBE 2 1 ++ packBE 2 1 ++ packBE 4 0 ++ pixel

/-- A client that reads bytes as `reads` says receives the stream, of which complete updates of the
single pixel that stand between two messages may have been replaced by a request. -/
inductive Serves (reads : Connection σ → Bytes → Connection σ → Prop) :
    Connection σ → Bytes → Connection σ → Prop
  | rest {conn conn' : Connection σ} {stream : Bytes} (h : reads conn stream conn') :
      Serves reads conn stream conn'
  | replaced {conn m conn' : Connection σ} {kept message stream : Bytes} (hkept : reads conn kept m)
      (hbetween : m.Between) (hmessage : IsSinglePixel m message)
      (hrest : (requested m).raised = none → Serves reads (requested m) stream conn')
      (hraised : (requested m).raised ≠ none → conn' = requested m) :
      Serves reads conn (kept ++ (message ++ stream)) conn'

/-- The client without the filter reads these bytes in some cut. -/
def ReadsCut (rt : Runtime σ) (conn : Connection σ) (data : Bytes) (conn' : Connection σ) : Prop :=
  ∃ chunks, chunks.flatten = data ∧ Connection.Delivers (Connection.Returns rt) conn chunks conn'

/-- It does so in every cut, and is then the same client. -/
def ReadsAny (rt : Runtime σ) (conn : Connection σ) (data : Bytes) (conn' : Connection σ) : Prop :=
  ∀ chunks, chunks.flatten = data → ∃ m, Connection.Delivers (Connection.Returns rt) conn chunks m ∧
    m.client = conn'.client ∧ m.raised = conn'.raised

/-- All through the run, a chunk that matches arrives between two messages, and a pixel has four
octets. -/
def Framed (rt : Runtime σ) (conn : Connection σ) (chunks : List Bytes) : Prop :=
  ∀ before chunk after m, chunks = before ++ chunk :: after →
    Connection.Delivers (Returns rt) conn before m → m.raised = none → Matches chunk →
      m.Between ∧ m.client.pixelFormat.bypp = 4

/-! ## A chunk that matches -/

section Step

variable {rt : Runtime σ} {conn conn' m : Connection σ} {chunk stream : Bytes}

/-- A chunk that matches is a complete message, where a pixel has four octets. -/
theorem isSinglePixel_of_matches (h : Matches chunk) (hbypp : conn.client.pixelFormat.bypp = 4) :
    IsSinglePixel conn chunk := by
  rcases h with ⟨hlength, htype, hfields⟩
  rcases chunk with _ | ⟨type, _ | ⟨padding, rest⟩⟩
  · exact absurd hlength (by decide)
  · rw [List.length_singleton] at hlength
    exact absurd hlength (by decide)
  · have htype' : type = 0 := Option.some.inj htype
    have hfields' : rest.take 14 = slice singlePixelUpdate 2 14 := hfields
    refine ⟨padding, rest.drop 14, ?_, ?_⟩
    · rw [List.length_cons, List.length_cons] at hlength
      rw [List.length_drop, hbypp]
      omega
    · rw [htype', ← List.take_append_drop 14 rest, hfields', List.drop_append]
      rfl

theorem requested_client (h : (requested conn).raised = none) :
    ∃ event, requested conn = { conn with
      client := { conn.client with log := conn.client.log ++ [event] }
      raised := none } := by
  unfold requested at h ⊢
  rw [RFBClient.framebufferUpdateRequest, run_get_bind] at h ⊢
  dsimp only at h ⊢
  split_ifs at h ⊢
  · exact ⟨_, rfl⟩
  · cases h

/-- The request changes nothing that the parser goes by. -/
theorem Between.requested (h : conn.Between) (hraised : (requested conn).raised = none) :
    (VMWareClient.requested conn).Between := by
  rcases requested_client hraised with ⟨event, heq⟩
  rw [heq]
  exact ⟨h.stage, h.aborted, h.armed, h.packet, rfl⟩

theorem iterate_of_between (h : conn.Between) : Connection.iterate rt conn = none := by
  have hrest := @Connection.iterate_of_expecting σ rt conn.client
    (Connection.expecting_of_armed h.armed)
  rwa [← h.idle.eq_live] at hrest

/-- Between two messages the chunk is replaced by the request, and nothing else happens. -/
theorem returns_between (h : conn.Between) (hmatches : Matches chunk) :
    Returns rt conn chunk conn' ↔ conn' = requested conn := by
  have hrests : enter rt conn chunk = requested conn ∧
      Connection.iterate rt (requested conn) = none := by
    rw [enter, if_pos hmatches, handle]
    by_cases hraised : (requested conn).raised = none
    · have hbetween := Between.requested h hraised
      rw [if_pos hraised, hbetween.stage]
      exact ⟨rfl, iterate_of_between hbetween⟩
    · rw [if_neg hraised]
      exact ⟨rfl, Connection.iterate_eq_none_iff.2 (Connection.pending_of_raised hraised)⟩
  rw [Returns, hrests.1]
  constructor
  · intro hhalts
    exact hhalts.eq_of_none hrests.2
  · rintro rfl
    exact HaltsAt.refl hrests.2

end Step

/-! ## A whole run -/

section Run

variable {rt : Runtime σ} {conn conn' m : Connection σ} {chunk stream : Bytes}
  {chunks : List Bytes}

theorem readsCut_nil (conn : Connection σ) : ReadsCut rt conn [] conn :=
  ⟨[], rfl, rfl⟩

theorem ReadsCut.cons (hreturns : Connection.Returns rt conn chunk m) (hraised : m.raised = none)
    (h : ReadsCut rt m stream conn') : ReadsCut rt conn (chunk ++ stream) conn' := by
  rcases h with ⟨chunks, hflatten, hdelivers⟩
  refine ⟨chunk :: chunks, ?_, m, hreturns, fun _ => hdelivers, fun hne => absurd hraised hne⟩
  rw [List.flatten_cons, hflatten]

/-- A chunk that is given to the parser comes before whatever is served behind it. -/
theorem Serves.cons (hreturns : Connection.Returns rt conn chunk m) (hraised : m.raised = none)
    (h : Serves (ReadsCut rt) m stream conn') :
    Serves (ReadsCut rt) conn (chunk ++ stream) conn' := by
  cases h with
  | rest h => exact .rest (h.cons hreturns hraised)
  | replaced hkept hbetween hmessage hrest hraised' =>
      rw [← List.append_assoc]
      exact .replaced (hkept.cons hreturns hraised) hbetween hmessage hrest hraised'

theorem Framed.tail (h : Framed rt conn (chunk :: chunks)) (hreturns : Returns rt conn chunk m)
    (hraised : m.raised = none) : Framed rt m chunks := by
  intro before chunk' after m' hsplit hdelivers hnone hmatches
  refine h (chunk :: before) chunk' after m' ?_ ?_ hnone hmatches
  · rw [hsplit]
    rfl
  · exact ⟨m, hreturns, fun _ => hdelivers, fun hne => absurd hraised hne⟩

/-- A run in which every chunk that matches is a message. -/
theorem serves_of_framed (hraised : conn.raised = none) (hframed : Framed rt conn chunks)
    (h : Connection.Delivers (Returns rt) conn chunks conn') :
    Serves (ReadsCut rt) conn chunks.flatten conn' := by
  induction chunks generalizing conn with
  | nil =>
      have hsame : conn' = conn := h
      rw [hsame]
      exact .rest (readsCut_nil conn)
  | cons chunk chunks ih =>
      rcases h with ⟨m, hreturns, hnext, hstop⟩
      rw [List.flatten_cons]
      by_cases hmatches : Matches chunk
      · rcases hframed [] chunk chunks conn rfl rfl hraised hmatches with ⟨hbetween, hbypp⟩
        have hrequested := (returns_between hbetween hmatches).1 hreturns
        rw [hrequested] at hnext hstop
        have hserves := @Serves.replaced σ (ReadsCut rt) conn conn conn' [] chunk chunks.flatten
          (readsCut_nil conn) hbetween (isSinglePixel_of_matches hmatches hbypp)
        refine hserves ?_ hstop
        intro hnone
        rw [hrequested] at hreturns
        exact ih hnone (hframed.tail hreturns hnone) (hnext hnone)
      · have hplain : Connection.Returns rt conn chunk m := by
          rw [Returns, enter, if_neg hmatches] at hreturns
          exact hreturns
        by_cases hnone : m.raised = none
        · exact (ih hnone (hframed.tail hreturns hnone) (hnext hnone)).cons hplain hnone
        -- The exception ends the run.
        · refine .rest ⟨chunk :: chunks, List.flatten_cons, m, hplain, ?_, hstop⟩
          intro hnone'
          exact absurd hnone' hnone

end Run

/-! ## Any cut -/

section Cuts

open Connection

variable {rt : Runtime σ} {conn conn' m t : Connection σ} {rest : Bytes} {chunks : List Bytes}

theorem advance_of_raised (h : conn.raised ≠ none) : advance rt conn = none := by
  unfold advance
  cases conn.client.stage with
  | handleInitial =>
      dsimp only
      rw [if_neg]
      exact fun hready => h hready.2.1
  | handleExpected => exact iterate_eq_none_iff.2 (pending_of_raised h)

/-- What was delivered is what the parser makes of all the bytes; those behind an exception are not
looked at. -/
theorem haltsAt_of_delivers (htame : rt.Tame) (hraised : conn.raised = none)
    (hrest : advance rt conn = none) (hexpecting : conn.Expecting (chunks.flatten ++ rest))
    (h : Delivers (Connection.Returns rt) conn chunks conn') :
    ∃ undelivered, HaltsAt (advance rt) (conn.deliver chunks.flatten)
      (conn'.deliver undelivered) := by
  induction chunks generalizing conn with
  | nil =>
      have hsame : conn' = conn := h
      refine ⟨[], ?_⟩
      have hnil : conn.deliver [] = conn := (receiveLoop rt).deliver_nil conn
      rw [hsame, List.flatten_nil, hnil]
      exact HaltsAt.refl hrest
  | cons chunk chunks ih =>
      rcases h with ⟨m, hreturns, hnext, hstop⟩
      rw [List.flatten_cons, List.append_assoc] at hexpecting
      have hhalts := (returns_iff_haltsAt htame hraised hexpecting).1 hreturns
      rw [List.flatten_cons]
      by_cases hnone : m.raised = none
      · rcases ih hnone hhalts.2 (hexpecting.of_haltsAt htame hhalts hnone) (hnext hnone) with
          ⟨undelivered, hlater⟩
        exact ⟨undelivered, ((receiveLoop rt).haltsAt_append_iff).2 ⟨m, hhalts, hlater⟩⟩
      · rw [hstop hnone]
        have hraised' : (m.deliver chunks.flatten).raised ≠ none := by
          rw [raised_deliver m chunks.flatten]
          exact hnone
        have hlater : HaltsAt (advance rt) (m.deliver chunks.flatten) (m.deliver chunks.flatten) :=
          HaltsAt.refl (advance_of_raised hraised')
        exact ⟨chunks.flatten, ((receiveLoop rt).haltsAt_append_iff).2 ⟨m, hhalts, hlater⟩⟩

theorem delivers_of_haltsAt (htame : rt.Tame) (hraised : conn.raised = none)
    (hrest : advance rt conn = none) (hexpecting : conn.Expecting (chunks.flatten ++ rest))
    (h : HaltsAt (advance rt) (conn.deliver chunks.flatten) t) :
    ∃ m, Delivers (Connection.Returns rt) conn chunks m ∧ m.client = t.client ∧
      m.raised = t.raised := by
  induction chunks generalizing conn with
  | nil =>
      have hnil : conn.deliver [] = conn := (receiveLoop rt).deliver_nil conn
      rw [List.flatten_nil, hnil] at h
      have hsame := h.eq_of_none hrest
      exact ⟨conn, rfl, by rw [hsame], by rw [hsame]⟩
  | cons chunk chunks ih =>
      rw [List.flatten_cons, List.append_assoc] at hexpecting
      rw [List.flatten_cons] at h
      rcases ((receiveLoop rt).haltsAt_append_iff).1 h with ⟨m, hhalts, hlater⟩
      have hreturns := (returns_iff_haltsAt htame hraised hexpecting).2 hhalts
      by_cases hnone : m.raised = none
      · rcases ih hnone hhalts.2 (hexpecting.of_haltsAt htame hhalts hnone) hlater with
          ⟨m', hdelivers, hclient, hsame⟩
        exact ⟨m', ⟨m, hreturns, fun _ => hdelivers, fun hne => absurd hnone hne⟩, hclient, hsame⟩
      · have hraised' : (m.deliver chunks.flatten).raised ≠ none := by
          rw [raised_deliver m chunks.flatten]
          exact hnone
        have ht : t = m.deliver chunks.flatten :=
          HaltsAt.eq_of_none (advance_of_raised hraised') hlater
        refine ⟨m, ⟨m, hreturns, fun hnone' => absurd hnone' hnone, fun _ => rfl⟩, ?_, ?_⟩
        · rw [ht, client_deliver m chunks.flatten]
        · rw [ht, raised_deliver m chunks.flatten]

/-- A client at rest whose stream begins with a greeting, or has begun, reads alike in any cut. -/
theorem ReadsCut.any (htame : rt.Tame) (hraised : conn.raised = none)
    (hrest : advance rt conn = none) {data : Bytes} (hexpecting : conn.Expecting (data ++ rest))
    (h : ReadsCut rt conn data conn') : ReadsAny rt conn data conn' := by
  rcases h with ⟨chunks, rfl, hdelivers⟩
  rcases haltsAt_of_delivers htame hraised hrest hexpecting hdelivers with ⟨undelivered, hhalts⟩
  intro chunks' hflatten
  rw [← hflatten] at hhalts hexpecting
  rcases delivers_of_haltsAt htame hraised hrest hexpecting hhalts with
    ⟨m, hdelivers', hclient, hsame⟩
  refine ⟨m, hdelivers', ?_, ?_⟩
  · rw [hclient, client_deliver conn' undelivered]
  · rw [hsame, raised_deliver conn' undelivered]

theorem advance_of_between (h : conn.Between) : advance rt conn = none := by
  unfold advance
  rw [h.stage]
  exact iterate_of_between h

theorem Serves.any (htame : rt.Tame) (hraised : conn.raised = none) {stream : Bytes}
    (hrest : advance rt conn = none) (hexpecting : conn.Expecting stream)
    (h : Serves (ReadsCut rt) conn stream conn') : Serves (ReadsAny rt) conn stream conn' := by
  induction h with
  | @rest conn conn' stream h =>
      have hnothing : conn.Expecting (stream ++ []) := by
        rw [List.append_nil]
        exact hexpecting
      exact .rest (h.any htame hraised hrest hnothing)
  | @replaced conn m conn' kept message stream hkept hbetween hmessage _ hstop ih =>
      refine .replaced (hkept.any htame hraised hrest hexpecting) hbetween hmessage ?_ hstop
      intro hnone
      have hbetween' := Between.requested hbetween hnone
      refine ih hnone hnone (advance_of_between hbetween') ?_
      intro hinitial
      exact absurd (hbetween'.stage.symm.trans hinitial) (by decide)

end Cuts

/-! ## `VNCDoToolClient` -/

open VNCDoToolClient in
/-- In every run in which each chunk that matches arrives between two messages, and pixels have four
octets by then, the stream is served; where it begins with a greeting, whatever its cut. -/
theorem serves_of_delivers {P : Pillow} {env : Env} {app : VNCDoToolClient P} {factory : Factory}
    {chunks : List Bytes} {conn' : Connection (VNCDoToolClient P)}
    (hframed : Framed (runtime P env) (.init app factory) chunks)
    (h : Connection.Delivers (Returns (runtime P env)) (.init app factory) chunks conn') :
    Serves (ReadsCut (runtime P env)) (.init app factory) chunks.flatten conn' ∧
      (Connection.Greeted chunks.flatten →
        Serves (ReadsAny (runtime P env)) (.init app factory) chunks.flatten conn') := by
  have hserves := serves_of_framed rfl hframed h
  refine ⟨hserves, fun hgreeted => ?_⟩
  exact hserves.any runtime_tame rfl rfl fun _ => ⟨rfl, hgreeted⟩

/-! ## Two sessions -/

/-- The server's side of a handshake, for a framebuffer of one pixel. -/
def opening : Bytes :=
  versionLine ⟨3, 3⟩ ++ packBE 4 1 ++
    (packBE 2 1 ++ packBE 2 1 ++ PixelFormat.rgbx8888.toBytes ++ packBE 4 0)

/-- The head of a ServerCutText of 20 characters. -/
def cutTextHead : Bytes :=
  packBE 1 (MsgS2C.value .serverCutText) ++ [0, 0, 0] ++ packBE 4 20

abbrev canvasRuntime : Runtime (VNCDoToolClient Pillow.canvas) :=
  VNCDoToolClient.runtime Pillow.canvas Env.sample

abbrev unconnected : Connection (VNCDoToolClient Pillow.canvas) :=
  .init {} {}

/-- What the parser goes by. -/
structure ParserState where
  stage : Stage
  aborted : Bool
  armed : Handler × ℕ
  packet : Bytes
  raised : Option PyError
  bypp : ℕ
  deriving DecidableEq

def parserState (conn : Connection σ) : ParserState where
  stage := conn.client.stage
  aborted := conn.client.aborted
  armed := conn.client.armed
  packet := conn.packet
  raised := conn.raised
  bypp := conn.client.pixelFormat.bypp

/-- Waiting for this much of this handler's block, with pixels of four octets. -/
def waiting (handler : Handler) (n : ℕ) : ParserState where
  stage := .handleExpected
  aborted := false
  armed := (handler, n)
  packet := []
  raised := none
  bypp := 4

theorem between_of_parserState {conn : Connection σ}
    (h : parserState conn = waiting .connection 1) :
    conn.Between ∧ conn.client.pixelFormat.bypp = 4 :=
  ⟨⟨congrArg ParserState.stage h, congrArg ParserState.aborted h, congrArg ParserState.armed h,
    congrArg ParserState.packet h, congrArg ParserState.raised h⟩, congrArg ParserState.bypp h⟩

/-- A call that comes to rest within so many turns of the loop. -/
theorem returns_of_run {rt : Runtime σ} {conn : Connection σ} {data : Bytes} {n : ℕ}
    {state : ParserState}
    (h : (run (Connection.iterate rt) n (enter rt conn data)).map parserState = some state) :
    ∃ conn', Returns rt conn data conn' ∧ parserState conn' = state := by
  rcases Option.map_eq_some_iff.1 h with ⟨conn', hrun, hstate⟩
  exact ⟨conn', haltsAt_of_run hrun, hstate⟩

/-- The chunks, each given up on after so many turns of the loop. -/
def delivered (rt : Runtime σ) (fuel : ℕ) : Connection σ → List Bytes → Option (Connection σ)
  | conn, [] => some conn
  | conn, chunk :: chunks =>
      (run (Connection.iterate rt) fuel (enter rt conn chunk)).bind fun m =>
        if m.raised = none then delivered rt fuel m chunks else some m

theorem delivers_of_delivered {rt : Runtime σ} {fuel : ℕ} {conn conn' : Connection σ}
    {chunks : List Bytes} (h : delivered rt fuel conn chunks = some conn') :
    Connection.Delivers (Returns rt) conn chunks conn' := by
  induction chunks generalizing conn with
  | nil => exact (Option.some.inj h).symm
  | cons chunk chunks ih =>
      rcases Option.bind_eq_some_iff.1 h with ⟨m, hrun, hrest⟩
      refine ⟨m, haltsAt_of_run hrun, ?_, ?_⟩
      · intro hnone
        rw [if_pos hnone] at hrest
        exact ih hrest
      · intro hne
        rw [if_neg hne] at hrest
        exact (Option.some.inj hrest).symm

/-- The handshake is over. -/
theorem returns_opening : ∃ conn, Returns canvasRuntime unconnected opening conn ∧
    parserState conn = waiting .connection 1 := by
  apply @returns_of_run _ canvasRuntime unconnected opening 3
  decide +kernel

theorem framed_alone :
    Framed canvasRuntime unconnected [opening, singlePixelUpdate] := by
  rcases returns_opening with ⟨conn, hopening, hstate⟩
  rcases between_of_parserState hstate with ⟨hbetween, hbypp⟩
  rintro before chunk after m hsplit hdelivers hnone hmatches
  rcases before with _ | ⟨first, _ | ⟨second, before⟩⟩
  · have hfirst : opening = chunk := (List.cons.inj hsplit).1
    rw [← hfirst] at hmatches
    exact absurd hmatches (by decide)
  · have hfirst : opening = first := (List.cons.inj hsplit).1
    rcases hdelivers with ⟨m', hreturns, hnext, hstop⟩
    rw [← hfirst] at hreturns
    have hsame : m' = conn := hreturns.unique hopening
    have hm : m = m' := hnext (by rw [hsame]; exact hbetween.raised)
    rw [hm, hsame]
    exact ⟨hbetween, hbypp⟩
  · have hlength := congrArg List.length hsplit
    rw [List.length_append, List.length_cons, List.length_cons] at hlength
    rw [List.length_nil, List.length_cons, List.length_cons, List.length_cons] at hlength
    omega

/-- An update that arrives on its own is replaced. -/
theorem serves_of_delivers_alone :
    ∃ conn', Connection.Delivers (Returns canvasRuntime) unconnected [opening, singlePixelUpdate]
        conn' ∧
      Serves (ReadsCut canvasRuntime) unconnected [opening, singlePixelUpdate].flatten conn' ∧
        (Connection.Greeted [opening, singlePixelUpdate].flatten →
          Serves (ReadsAny canvasRuntime) unconnected [opening, singlePixelUpdate].flatten
            conn') := by
  rcases returns_opening with ⟨conn, hopening, hstate⟩
  rcases between_of_parserState hstate with ⟨hbetween, -⟩
  have hreturns : Returns canvasRuntime conn singlePixelUpdate (requested conn) :=
    (returns_between hbetween (by decide)).2 rfl
  have hdelivers : Connection.Delivers (Returns canvasRuntime) unconnected
      [opening, singlePixelUpdate] (requested conn) :=
    ⟨conn, hopening, fun _ => ⟨_, hreturns, fun _ => rfl, fun _ => rfl⟩,
      fun hne => absurd hbetween.raised hne⟩
  exact ⟨requested conn, hdelivers, serves_of_delivers framed_alone hdelivers⟩

/-- The parser's rest after bytes that begin with the handshake. -/
theorem client_of_readsCut {data : Bytes} {n : ℕ} {state : ParserState}
    {conn : Connection (VNCDoToolClient Pillow.canvas)}
    (hgreeted : Connection.Greeted data)
    (h : (run (Connection.advance canvasRuntime) n (unconnected.deliver data)).map parserState =
      some state)
    (hreads : ReadsCut canvasRuntime unconnected data conn) : conn.client.armed = state.armed := by
  rcases hreads with ⟨chunks, rfl, hdelivers⟩
  rcases Option.map_eq_some_iff.1 h with ⟨t, hrun, hstate⟩
  have hexpecting : unconnected.Expecting (chunks.flatten ++ []) := by
    rw [List.append_nil]
    exact fun _ => ⟨rfl, hgreeted⟩
  rcases haltsAt_of_delivers VNCDoToolClient.runtime_tame rfl rfl hexpecting hdelivers with
    ⟨undelivered, hhalts⟩
  have hsame : conn.deliver undelivered = t := hhalts.unique (haltsAt_of_run hrun)
  rw [← hstate, ← hsame]
  exact (congrArg RFBClient.armed (Connection.client_deliver conn undelivered)).symm

/-- A text of 20 characters that looks like the update. -/
def lookalike : List Bytes :=
  [opening, cutTextHead, singlePixelUpdate]

/-- The only place in these bytes that looks like the update. -/
theorem lookalike_offset {k : ℕ} (hk : k < 69) (htype : (lookalike.flatten.drop k)[0]? = some 0)
    (hfields : slice (lookalike.flatten.drop k) 2 14 = slice singlePixelUpdate 2 14) : k = 48 := by
  have hall : ∀ k < 69, (lookalike.flatten.drop k)[0]? = some 0 →
      slice (lookalike.flatten.drop k) 2 14 = slice singlePixelUpdate 2 14 → k = 48 := by
    decide +kernel
  exact hall k hk htype hfields

/-- The text is dropped, and the bytes behind it are taken for it. -/
theorem not_serves_lookalike :
    ∃ conn', Connection.Delivers (Returns canvasRuntime) unconnected lookalike conn' ∧
      ¬ Serves (ReadsCut canvasRuntime) unconnected lookalike.flatten conn' := by
  have hrun : (delivered canvasRuntime 3 unconnected lookalike).map parserState =
      some (waiting .serverCutTextValue 20) := by decide +kernel
  rcases Option.map_eq_some_iff.1 hrun with ⟨conn', hdelivered, hstate⟩
  refine ⟨conn', delivers_of_delivered hdelivered, ?_⟩
  have harmed : conn'.client.armed = (.serverCutTextValue, 20) := congrArg ParserState.armed hstate
  intro hserves
  generalize hstream : lookalike.flatten = stream at hserves
  cases hserves with
  | rest h =>
      -- The parser has read the text.
      rw [← hstream] at h
      have hread := @client_of_readsCut lookalike.flatten 8 (waiting .connection 1) conn'
        (by decide +kernel) (by decide +kernel) h
      rw [harmed] at hread
      exact absurd (congrArg Prod.snd hread) (by decide)
  | @replaced _ m _ kept message stream hkept hbetween hmessage =>
      rcases hmessage with ⟨padding, pixel, -, rfl⟩
      have hlength := congrArg List.length hstream
      have hbound : lookalike.flatten.length = 68 := by decide +kernel
      rw [hbound, List.length_append] at hlength
      have hdrop {behind : Bytes} (hbehind : lookalike.flatten = kept ++ behind) :
          lookalike.flatten.drop kept.length = behind := by
        rw [hbehind, List.drop_left]
      have hoffset : kept.length = 48 := by
        refine lookalike_offset (by omega) ?_ ?_
        · rw [hdrop hstream]
          rfl
        · rw [hdrop hstream]
          rfl
      have hbefore : kept = [opening, cutTextHead].flatten := by
        have htake : kept = lookalike.flatten.take 48 := by
          rw [hstream, ← hoffset, List.take_left]
        rw [htake]
        decide +kernel
      rw [hbefore] at hkept
      -- There the parser is in the middle of a message.
      have hread := @client_of_readsCut [opening, cutTextHead].flatten 8
        (waiting .serverCutTextValue 20) m (by decide +kernel) (by decide +kernel) hkept
      rw [hbetween.armed] at hread
      exact absurd (congrArg Prod.snd hread) (by decide)

end VMWareClient

end Vncdotool
