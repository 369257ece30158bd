import Vncdotool.Capture.Scrubber
import Vncdotool.Proxy.Server
import Vncdotool.Version

/-!
# Forwarding — when the observer lets a client's bytes through

`VNCLoggingServerProxy` hands every chunk of a client to its capture, to the `RFBServer` that it is
itself, and then to the server.  The parser's loop comes to rest on a chunk exactly when it never
stands before a ClientCutText: the type has no entry in `TYPE_LEN`, and a message of length zero is
handled without being taken off the buffer.
-/

namespace Vncdotool

open Wire Streaming StateTransition

/-! ## The proxy -/

/-- A `VNCLoggingServerProxy` and its connection to the server.  What the logging client makes of
the server's bytes is not read on the client's side and left out. -/
structure Proxy (σ : Type) where
  refused : Bool := false
  sawBytes : Bool := false
  capture : Option CaptureWriter := none
  captureFailed : Bool := false
  lostConnection : Bool := false
  parser : Parser σ
  /-- What was written to the server. -/
  forwarded : List Bytes := []
  /-- What was written to the client. -/
  delivered : List Bytes := []

namespace Proxy

variable {σ : Type} (hooks : Hooks σ)

/-- An accepted connection; `capture` holds `capture_preserve_auth` when there is a capture. -/
def init (capture : Option Bool) (passwordRequired : Bool) (app : σ) : Proxy σ :=
  { capture := capture.map fun preserve => { scrubber := TappedScrubber.init preserve }
    parser := Parser.init passwordRequired app }

/-- `_abortCapture`. -/
def abortCapture (p : Proxy σ) : Proxy σ :=
  { p with captureFailed := true, capture := none, lostConnection := true }

/-- The beginning of both `dataReceived`s: the chunk is captured; `.error` is their early return
after an abort. -/
def captureChunk (p : Proxy σ) (tap : Tap) (data : Bytes) : Except (Proxy σ) (Proxy σ) :=
  let p := { p with sawBytes := p.sawBytes || !data.isEmpty }
  match p.capture with
  | none => .ok p
  | some w =>
      let w := w.feed tap data
      let p := { p with capture := some w }
      if w.abortReason.isSome then .error p.abortCapture else .ok p

/-- `dataReceived` of the side that hears tap `tap`. -/
def Receives (p : Proxy σ) (tap : Tap) (data : Bytes) (p' : Proxy σ) : Prop :=
  match tap with
  | .c2s =>
      if p.refused then p' = p
      else
        match p.captureChunk .c2s data with
        | .error q => p' = q
        | .ok q =>
            -- The chunk is parsed first, and forwarded as it came.
            ∃ parser, q.parser.Receives hooks data parser ∧
              p' = { q with parser := parser, forwarded := q.forwarded ++ [data] }
  | .s2c =>
      match p.captureChunk .s2c data with
      | .error q => p' = q
      | .ok q => p' = { q with delivered := q.delivered ++ [data] }

/-- The chunks of both directions, in the order they arrive. -/
def Runs : Proxy σ → List (Tap × Bytes) → Proxy σ → Prop
  | p, [], p' => p' = p
  | p, (tap, data) :: chunks, p' => ∃ m, p.Receives hooks tap data m ∧ Runs m chunks p'

/-- What the client sent. -/
def clientBytes (chunks : List (Tap × Bytes)) : Bytes :=
  chunks.flatMap fun chunk => if chunk.1 = .c2s then chunk.2 else []

/-! ## What a run forwards -/

variable {hooks} {p p' q : Proxy σ} {tap : Tap} {data : Bytes}

theorem captureChunk_ok (h : p.captureChunk tap data = .ok q) :
    q.parser = p.parser ∧ q.forwarded = p.forwarded ∧ q.refused = p.refused ∧
      q.captureFailed = p.captureFailed := by
  unfold captureChunk at h
  cases hcapture : p.capture with
  | none =>
      simp only [hcapture] at h
      cases h
      exact ⟨rfl, rfl, rfl, rfl⟩
  | some w =>
      simp only [hcapture] at h
      split_ifs at h
      cases h
      exact ⟨rfl, rfl, rfl, rfl⟩

theorem captureChunk_error (h : p.captureChunk tap data = .error q) : q.captureFailed = true := by
  unfold captureChunk at h
  cases hcapture : p.capture with
  | none =>
      simp only [hcapture] at h
      cases h
  | some w =>
      simp only [hcapture] at h
      split_ifs at h
      cases h
      rfl

/-- What a chunk does: an abort of the capture, or the chunk is passed on. -/
theorem Receives.cases (h : p.Receives hooks tap data p') (haccepted : p.refused = false) :
    p'.captureFailed = true ∨
      (p'.captureFailed = p.captureFailed ∧ p'.refused = false ∧
        p'.forwarded.flatten = p.forwarded.flatten ++ (if tap = .c2s then data else []) ∧
        (p.parser.Armed → p'.parser.Armed)) := by
  cases tap with
  | c2s =>
      simp only [Receives, haccepted, Bool.false_eq_true, if_false] at h
      cases hcapture : p.captureChunk .c2s data with
      | error q =>
          simp only [hcapture] at h
          exact Or.inl (h ▸ captureChunk_error hcapture)
      | ok q =>
          simp only [hcapture] at h
          rcases h with ⟨parser, hparser, rfl⟩
          rcases captureChunk_ok hcapture with ⟨hsame, hforwarded, hrefused, hfailed⟩
          refine Or.inr ⟨hfailed, hrefused.trans haccepted, ?_, ?_⟩
          · simp [hforwarded]
          · intro harmed
            rw [hsame] at hparser
            exact hparser.armed harmed
  | s2c =>
      simp only [Receives] at h
      cases hcapture : p.captureChunk .s2c data with
      | error q =>
          simp only [hcapture] at h
          exact Or.inl (h ▸ captureChunk_error hcapture)
      | ok q =>
          simp only [hcapture] at h
          rcases captureChunk_ok hcapture with ⟨hsame, hforwarded, hrefused, hfailed⟩
          subst h
          refine Or.inr ⟨hfailed, hrefused.trans haccepted, ?_, ?_⟩
          · simp [hforwarded]
          · intro harmed
            rwa [← hsame] at harmed

/-- An aborted capture stays aborted. -/
theorem Receives.captureFailed (h : p.Receives hooks tap data p')
    (hfailed : p.captureFailed = true) : p'.captureFailed = true := by
  cases hrefused : p.refused with
  | false =>
      rcases h.cases hrefused with habort | ⟨hsame, _⟩
      · exact habort
      · exact hsame.trans hfailed
  | true =>
      cases tap with
      | c2s =>
          simp only [Receives, hrefused, if_true] at h
          exact h ▸ hfailed
      | s2c =>
          simp only [Receives] at h
          cases hcapture : p.captureChunk .s2c data with
          | error q =>
              simp only [hcapture] at h
              exact h ▸ captureChunk_error hcapture
          | ok q =>
              simp only [hcapture] at h
              rcases captureChunk_ok hcapture with ⟨_, _, _, hsame⟩
              exact h ▸ hsame.trans hfailed

theorem Runs.captureFailed {chunks : List (Tap × Bytes)} :
    ∀ {p : Proxy σ}, p.Runs hooks chunks p' → p.captureFailed = true →
      p'.captureFailed = true := by
  induction chunks with
  | nil =>
      intro p h hfailed
      exact h ▸ hfailed
  | cons chunk chunks ih =>
      rintro p ⟨m, hm, hrest⟩ hfailed
      exact ih hrest (hm.captureFailed hfailed)

/-- The run: as long as the capture is not aborted, what has been forwarded is what the client has
sent. -/
theorem Runs.forwards {chunks : List (Tap × Bytes)} (hkept : p'.captureFailed = false) :
    ∀ {p : Proxy σ}, p.Runs hooks chunks p' → p.refused = false → p.parser.Armed →
      p'.forwarded.flatten = p.forwarded.flatten ++ clientBytes chunks ∧ p'.refused = false ∧
        p'.parser.Armed := by
  induction chunks with
  | nil =>
      rintro p rfl haccepted harmed
      exact ⟨by simp [clientBytes], haccepted, harmed⟩
  | cons chunk chunks ih =>
      rintro p ⟨m, hm, hrest⟩ haccepted harmed
      rcases hm.cases haccepted with habort | ⟨_, hrefused, hforwarded, hparser⟩
      · have hfailed := hrest.captureFailed habort
        rw [hkept] at hfailed
        cases hfailed
      · rcases ih hrest hrefused (hparser harmed) with ⟨hrest', haccepted', harmed'⟩
        refine ⟨?_, haccepted', harmed'⟩
        rw [hrest', hforwarded, List.append_assoc]
        rfl

/-- In every state of a connection whose capture was not aborted, what the client has sent so far
has been forwarded once and in order; and the next chunk, unless the capture is aborted on it, is
parsed and forwarded exactly when the parser's loop never stands before a ClientCutText. -/
theorem forwards_iff_noCutText (capture : Option Bool) (passwordRequired : Bool) (app : σ)
    (chunks : List (Tap × Bytes)) (p : Proxy σ)
    (hrun : (init capture passwordRequired app).Runs hooks chunks p)
    (hkept : p.captureFailed = false) :
    p.forwarded.flatten = clientBytes chunks ∧
      ∀ data q, p.captureChunk .c2s data = .ok q →
        ((∃ p', p.Receives hooks .c2s data p' ∧
            p'.forwarded.flatten = clientBytes chunks ++ data) ↔
          p.parser.NoCutText hooks data) := by
  have hinit : (init capture passwordRequired app).parser.Armed := Nat.le_add_left 1 11
  rcases hrun.forwards hkept rfl hinit with ⟨hforwarded, haccepted, harmed⟩
  have hforwarded : p.forwarded.flatten = clientBytes chunks := by simpa [init] using hforwarded
  refine ⟨hforwarded, ?_⟩
  intro data q hcapture
  rcases captureChunk_ok hcapture with ⟨hsame, hsameForwarded, _, _⟩
  rw [← Parser.receives_iff_noCutText harmed, ← hsame]
  constructor
  · rintro ⟨p', hp', _⟩
    simp only [Receives, haccepted, Bool.false_eq_true, if_false, hcapture] at hp'
    rcases hp' with ⟨parser, hparser, _⟩
    exact ⟨parser, hparser⟩
  · rintro ⟨parser, hparser⟩
    refine ⟨{ q with parser := parser, forwarded := q.forwarded ++ [data] }, ?_, ?_⟩
    · simp only [Receives, haccepted, Bool.false_eq_true, if_false, hcapture]
      exact ⟨parser, hparser, rfl⟩
    · simp [hsameForwarded, hforwarded]

/-- A 3.8 client that has chosen `none` and sends a ClientCutText of one letter. -/
def cutTextStream : Bytes :=
  versionLine ⟨3, 8⟩ ++ [1, 1] ++ [6, 0, 0, 0, 0, 0, 0, 1, 97]

/-- The loop does not come to rest on it, so it is never forwarded. -/
theorem cutText_never_forwarded :
    ¬ ∃ p', (init none false ()).Receives ({} : Hooks Unit) .c2s cutTextStream p' := by
  have hreach : Reaches (Parser.iterate {})
      ((Parser.init false ()).enter cutTextStream)
      { server := { handler := (.handleProtocol, 1)
                    buffer := [6, 0, 0, 0, 0, 0, 0, 1, 97]
                    app := ()
                    calls := [.clientInit 1] } } :=
    reaches_of_after (n := 3) (by decide)
  rintro ⟨p', parser, hparser, _⟩
  have hterminates := (terminates_iff_of_reaches hreach).1 ⟨parser, hparser⟩
  refine Parser.AtCutText.stalls ?_ hterminates
  exact ⟨by decide, rfl, by decide⟩

/-- A client that has sent its version line is about to send the security type it chose. -/
theorem forwards_iff_noCutText_greeting :
    ∃ p : Proxy Unit, p.forwarded.flatten = versionLine ⟨3, 8⟩ ∧
      ((∃ p', p.Receives {} .c2s [1] p' ∧ p'.forwarded.flatten = versionLine ⟨3, 8⟩ ++ [1]) ↔
        p.parser.NoCutText {} [1]) := by
  have hparser : (Parser.init false ()).Receives {} (versionLine ⟨3, 8⟩)
      { server := { handler := (.handleSecurity, 1), app := () } } :=
    (Parser.exists_dataReceived_iff {}).1 ⟨2, by decide⟩
  have hrun : (init none false ()).Runs {} [(.c2s, versionLine ⟨3, 8⟩)]
      { sawBytes := true
        parser := { server := { handler := (.handleSecurity, 1), app := () } }
        forwarded := [versionLine ⟨3, 8⟩] } :=
    ⟨_, ⟨_, hparser, rfl⟩, rfl⟩
  have hforwards := forwards_iff_noCutText none false () _ _ hrun rfl
  exact ⟨_, hforwards.1, hforwards.2 [1] _ rfl⟩

end Proxy

end Vncdotool
