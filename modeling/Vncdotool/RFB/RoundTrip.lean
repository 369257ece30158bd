import Vncdotool.RFB.Updates

/-!
# RoundTrip — a client decodes what a server encodes

The plain client is the one whose callbacks do nothing, so a stream of messages leaves nothing but
the callbacks it means (`RFB/Updates.lean`).  The cuts of the stream are no concern of this module
(`RFB/Segmentation.lean`).
-/

namespace Vncdotool

open Wire Streaming StateTransition

namespace Connection

variable {env : Env} {c : RFBClient Unit}

/-! ## The plain client -/

/-- A client that can go on decoding the framebuffer's messages. -/
structure Ready (fb : Framebuffer) (c : RFBClient Unit) : Prop where
  stage : c.stage = .handleExpected
  aborted : c.aborted = false
  width : c.width = fb.width
  height : c.height = fb.height
  format : c.pixelFormat = fb.format

/-- Between two messages. -/
structure Parked (fb : Framebuffer) (c : RFBClient Unit) : Prop extends Ready fb c where
  armed : c.armed = (.connection, 1)

variable {fb : Framebuffer}

theorem Parked.waiting (h : Parked fb c) : Waiting (fb.width, fb.height) fb c :=
  ⟨⟨h.stage, h.aborted, h.width, h.height, h.format, fun _ => rfl, fun _ => rfl⟩, h.armed⟩

theorem Waiting.parked (h : Waiting (fb.width, fb.height) fb c) : Parked fb c :=
  ⟨⟨h.decoding.stage, h.decoding.aborted, h.decoding.width, h.decoding.height,
    h.decoding.format⟩, h.armed⟩

/-- The callbacks of `RFBClient` do nothing. -/
theorem absorbs : Absorbs (RFBClient.runtime env) (fb.width, fb.height) fb (fun _ => True)
    (fun _ app => app) fun _ app => app where
  begins _ := rfl
  plays rect c _ _ cb hcb := by
    cases rect with
    | qemuExtendedKeyEvent rect => exact absurd hcb List.not_mem_nil
    | _ =>
        rw [List.mem_singleton.1 hcb]
        rfl
  silent _ _ _ := rfl
  keeps _ _ _ := trivial
  notifies cb hcb c := by
    cases cb with
    | bell => rfl
    | copyText text => rfl
    | setColorMap first colors => rfl
    | _ => exact hcb.elim
  commits _ _ _ _ := rfl
  committed _ _ _ := trivial

/-! ## Streams -/

/-- Between two messages, with nothing left unread. -/
structure AtBoundary (fb : Framebuffer) (conn : Connection Unit) : Prop where
  parked : Parked fb conn.client
  packet : conn.packet = []
  raised : conn.raised = none

theorem AtBoundary.between {fb : Framebuffer} {conn : Connection Unit} (h : conn.AtBoundary fb) :
    conn.Between :=
  ⟨h.parked.stage, h.parked.aborted, h.parked.armed, h.packet, h.raised⟩

/-- A client between messages, fed a stream of messages in any cut, makes exactly the callbacks they
mean, and is then between messages again with nothing left unread. -/
theorem decodes_messages {env : Env} {fb : Framebuffer} {conn : Connection Unit}
    (messages : List (ServerMessage fb)) {chunks : List Bytes}
    (halloc : ∀ n ≤ fb.width * fb.height * fb.format.bypp, env.alloc n = true)
    (hconn : conn.AtBoundary fb)
    (hchunks : chunks.flatten = messages.flatMap ServerMessage.encode) :
    ∃ conn', (∀ q, conn.Receives (RFBClient.runtime env) chunks q ↔ q = conn') ∧
      conn'.client.log =
        conn.client.log ++ (messages.flatMap ServerMessage.denote).map .callback ∧
      conn'.AtBoundary fb := by
  rcases leaves_messages absorbs halloc messages hconn.parked.waiting trivial [] with
    ⟨c', hreaches, hwaiting, hlog, _⟩
  rw [List.append_nil, ← hchunks] at hreaches
  have htame : (RFBClient.runtime env).Tame := RFBClient.runtime_tame env
  exact ⟨live c' [], hconn.between.receives_iff htame hreaches hwaiting.armed, hlog,
    hwaiting.parked, rfl, rfl⟩

/-- A framebuffer of two pixels. -/
def twoPixels : Framebuffer where
  width := 2
  height := 1
  format := {}

/-- A client connected to it. -/
def betweenMessages : Connection Unit where
  client :=
    { app := ()
      stage := .handleExpected
      expectedHandler := .connection
      expectedLen := 1
      width := 2
      height := 1 }

def someMessages : List (ServerMessage twoPixels) :=
  [.bell,
    .framebufferUpdateLast
      [.raw ⟨1, 0, 1, 1⟩ [1, 2, 3, 4] (by decide) (by decide), .desktopSize ⟨0, 0, 3, 1⟩] 3
      ⟨0, 0, 0, 0⟩ (by decide),
    .serverCutText [104, 105] (by decide)]

theorem decodes_messages_someMessages :
    ∃ conn', (∀ q, betweenMessages.Receives (RFBClient.runtime .sample)
        ((someMessages.flatMap ServerMessage.encode).map fun b => [b]) q ↔ q = conn') ∧
      conn'.client.log = betweenMessages.client.log ++
        (someMessages.flatMap ServerMessage.denote).map .callback ∧
      conn'.AtBoundary twoPixels :=
  decodes_messages someMessages (fun _ _ => rfl)
    ⟨⟨⟨rfl, rfl, rfl, rfl, rfl⟩, rfl⟩, rfl, rfl⟩ (by decide)

end Connection

end Vncdotool
