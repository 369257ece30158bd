import Vncdotool.Capture.Scrubber
import Vncdotool.Replay.Messages

/-!
# Protocol — `ReplayProtocol`, serving a recording back at a client

The protocol is driven by the handshake grammar of the scrubber: it writes the blocks the grammar
asks of the server out of the recording, and feeds it the client's bytes as it asks for those.  What
the transport was given is the field `written`.  The stall warning and the log are left out: neither
changes what is written.
-/

namespace Vncdotool

open Wire Streaming

/-- A `vnclog --capture-raw` archive, as far as replay cares. -/
structure Capture where
  s2c : Bytes
  negotiatedVersion : Option Ver := none
  deriving DecidableEq, Repr

/-! ## The protocol -/

structure ReplayProtocol where
  capture : Capture
  buffer : Bytes := []
  pos : ℕ := 0
  exhausted : Bool := false
  awaitingRequest : Bool := false
  served : Bool := false
  versionChecked : Bool := false
  scrubber : TappedScrubber := TappedScrubber.init false
  written : Bytes := []
  /-- `loseConnection` was called, on a version mismatch. -/
  disconnecting : Bool := false

namespace ReplayProtocol

/-- `_version_mismatch`. -/
def versionMismatch (p : ReplayProtocol) : Bool × ReplayProtocol :=
  match p.versionChecked, p.scrubber.core.negotiatedVersion with
  | false, some negotiated =>
      let p := { p with versionChecked := true }
      match p.capture.negotiatedVersion with
      | none => (false, p)
      | some archived =>
          if archived = negotiated then (false, p)
          else (true, { p with disconnecting := true, exhausted := true })
  | _, _ => (false, p)

/-- Hold the framebuffer until the client asks for one. -/
def serveSession (p : ReplayProtocol) : ReplayProtocol :=
  let handshakeDone := p.scrubber.core.want.isNone
  let p :=
    if !p.awaitingRequest && handshakeDone && p.scrubber.core.width.isSome then
      { p with awaitingRequest := true }
    else p
  -- Without a size the handshake was cut short, and what there is goes out at once.
  let seen := if p.awaitingRequest then sawUpdateRequest p.buffer else (true, p.buffer)
  let p := { p with buffer := seen.2 }
  if seen.1 then
    let remainder := p.capture.s2c.drop p.pos
    { p with
      written := p.written ++ remainder
      pos := if remainder.isEmpty then p.pos else p.capture.s2c.length
      exhausted := true }
  else
    p

/-- How a turn of the loop of `advance` ends. -/
inductive Turned
  | again (p : ReplayProtocol)
  | serve (p : ReplayProtocol)
  | done (p : ReplayProtocol)

/-- One turn of `while (waiting := scrubber.waiting()) is not None`. -/
def turn (p : ReplayProtocol) : Turned :=
  match p.scrubber.core.want with
  | none => .serve p
  | some (.s2c, n) =>
      let chunk := slice p.capture.s2c p.pos n
      if chunk.length < n then
        -- Truncated capture: the short remainder is left to the final send.
        .serve p
      else
        .again
          { p with
            written := p.written ++ chunk
            pos := p.pos + n
            scrubber := (p.scrubber.feed .s2c chunk).2 }
  | some (.c2s, n) =>
      if p.buffer.length < n then .done p
      else
        let p :=
          { p with
            buffer := p.buffer.drop n
            scrubber := (p.scrubber.feed .c2s (p.buffer.take n)).2 }
        match p.versionMismatch with
        | (true, p) => .done p
        | (false, p) => .again p

/-- The loop; the grammar gets nearer its end with every turn. -/
def advanceLoop : ℕ → ReplayProtocol → ReplayProtocol
  | 0, p => p
  | fuel + 1, p =>
      match p.turn with
      | .again p => advanceLoop fuel p
      | .serve p => p.serveSession
      | .done p => p

def advance (p : ReplayProtocol) : ReplayProtocol :=
  if p.exhausted then p else advanceLoop (p.scrubber.core.rank + 1) p

def connectionMade (capture : Capture) : ReplayProtocol :=
  advance { capture := capture }

def dataReceived (p : ReplayProtocol) (data : Bytes) : ReplayProtocol :=
  let p := if data.isEmpty then p else { p with served := true }
  if p.exhausted then p else { p with buffer := p.buffer ++ data }.advance

end ReplayProtocol

end Vncdotool
