import Vncdotool.Capture.Session

/-!
# Preserved — the scrubber with `preserve_auth`

`--capture-raw-unsafe` keeps the handshake as it was sent: the grammar is still followed, for the
version, the size and the auth type, but no block is rewritten and nothing makes it give up.  So
the bytes of either direction come out as they went in, whatever they are and in whatever order
the two directions arrive.
-/

namespace Vncdotool

open Wire Streaming

namespace HandshakeScrubber

variable {s : HandshakeScrubber}

/-- `preserve_auth` is set, and nothing was given up. -/
structure Preserves (s : HandshakeScrubber) : Prop where
  preserve : s.preserveAuth = true
  reason : s.abortReason = none

/-! ## No step gives up -/

theorem Preserves.giveUp (h : s.Preserves) (why : AbortReason) : (s.giveUp why).Preserves := by
  rw [HandshakeScrubber.giveUp, if_pos h.preserve]
  exact h

theorem Preserves.endAuth (h : s.Preserves) (negotiated : Ver) (sectype : ℕ) :
    (s.endAuth negotiated sectype).Preserves := by
  unfold HandshakeScrubber.endAuth
  split_ifs
  · exact ⟨h.preserve, h.reason⟩
  · exact ⟨h.preserve, h.reason⟩

theorem Preserves.beginAuth (h : s.Preserves) (negotiated : Ver) (sectype : ℕ) :
    (s.beginAuth negotiated sectype).Preserves := by
  unfold HandshakeScrubber.beginAuth
  split_ifs
  · exact ⟨h.preserve, h.reason⟩
  · exact ⟨h.preserve, h.reason⟩
  -- The exchange cannot be followed, but with `preserve_auth` that is no reason to abort.
  · have hgive := Preserves.giveUp (s := { s with
      securityType := some sectype, inAuth := true, unstrippableAuth := some (authName sectype) })
      ⟨h.preserve, h.reason⟩ (.unstrippable (authName sectype))
    exact ⟨hgive.preserve, hgive.reason⟩
  · have hbegun : ({ s with securityType := some sectype, inAuth := true } :
        HandshakeScrubber).Preserves := ⟨h.preserve, h.reason⟩
    exact hbegun.endAuth negotiated sectype

theorem Preserves.resume (h : s.Preserves) (sent : Bytes) (suspension : Suspension) :
    (s.resume sent suspension).Preserves := by
  have hrecord : ∀ data, (s.record data).Preserves := fun data => ⟨h.preserve, h.reason⟩
  cases suspension with
  | clientHead =>
      simp only [HandshakeScrubber.resume]
      cases parseVersion sent with
      | none =>
          have hgive := h.giveUp (.unparsedReply sent)
          exact ⟨hgive.preserve, hgive.reason⟩
      | some negotiated =>
          dsimp only
          split_ifs
          · exact ⟨h.preserve, h.reason⟩
          · exact ⟨h.preserve, h.reason⟩
  | numTypes negotiated =>
      simp only [HandshakeScrubber.resume]
      split_ifs
      · exact ⟨h.preserve, h.reason⟩
      · exact ⟨h.preserve, h.reason⟩
  | auth negotiated =>
      simp only [HandshakeScrubber.resume]
      split_ifs
      · exact ⟨h.preserve, h.reason⟩
      · refine Preserves.beginAuth ?_ negotiated (unpackBE sent)
        exact ⟨h.preserve, h.reason⟩
  | securityResult negotiated =>
      simp only [HandshakeScrubber.resume]
      split_ifs
      · exact ⟨h.preserve, h.reason⟩
      · exact ⟨h.preserve, h.reason⟩
      · exact ⟨h.preserve, h.reason⟩
      · exact ⟨h.preserve, h.reason⟩
  | serverInit =>
      simp only [HandshakeScrubber.resume]
      split_ifs
      · exact ⟨h.preserve, h.reason⟩
      · exact ⟨h.preserve, h.reason⟩
  | sectype negotiated => exact (hrecord _).beginAuth negotiated (field sent 0 1)
  | response negotiated => exact h.endAuth negotiated AuthTypes.VNC_AUTHENTICATION
  | ardClientKey negotiated _ => exact h.endAuth negotiated AuthTypes.DIFFIE_HELLMAN
  | serverHead => exact ⟨h.preserve, h.reason⟩
  | types negotiated _ => exact ⟨h.preserve, h.reason⟩
  | challenge negotiated => exact ⟨h.preserve, h.reason⟩
  | ardHead negotiated => exact ⟨h.preserve, h.reason⟩
  | ardModulus negotiated _ => exact ⟨h.preserve, h.reason⟩
  | ardServerKey negotiated _ => exact ⟨h.preserve, h.reason⟩
  | ardCredentials negotiated _ => exact ⟨h.preserve, h.reason⟩
  | clientInit => exact ⟨h.preserve, h.reason⟩
  | serverName _ => exact ⟨h.preserve, h.reason⟩

theorem Preserves.send (h : s.Preserves) (chunk : Bytes) : (s.send chunk).Preserves := by
  have hcleared : ({ s with recording := none } : HandshakeScrubber).Preserves :=
    ⟨h.preserve, h.reason⟩
  unfold HandshakeScrubber.send
  split
  · exact hcleared
  · exact hcleared.resume chunk _

theorem verbatim_preserves : grammar.Verbatim Preserves := by
  intro s block hs
  have hadvance : grammar.advance s block = (block, s.send block) := by
    change s.advance block = _
    unfold advance
    rw [if_pos hs.preserve]
  rw [hadvance]
  exact ⟨rfl, hs.send block⟩

end HandshakeScrubber

/-! ## Any feeding -/

/-- What has come out of each tap, with what it holds back, is what was fed to it. -/
structure CaptureWriter.Lossless (w : CaptureWriter) (fed : Tap → Bytes) : Prop where
  core : w.scrubber.core.Preserves
  conserved : ∀ tap, w.stream tap ++ w.scrubber.pending tap = fed tap

namespace CaptureWriter.Lossless

variable {w : CaptureWriter} {fed : Tap → Bytes}

theorem feed (h : w.Lossless fed) (tap : Tap) (chunk : Bytes) :
    (w.feed tap chunk).Lossless (Function.update fed tap (fed tap ++ chunk)) := by
  have hstream : (w.feed tap chunk).stream = Function.update w.stream tap
      (w.stream tap ++ (w.scrubber.feed tap chunk).1) := by
    funext tap'
    cases tap <;> cases tap' <;> rfl
  have hscrubber : (w.feed tap chunk).scrubber = (w.scrubber.feed tap chunk).2 := by
    cases tap <;> rfl
  rcases HandshakeScrubber.verbatim_preserves.feed h.core tap chunk with ⟨hhere, helse, hcore⟩
  refine ⟨by rw [hscrubber]; exact hcore, fun tap' => ?_⟩
  rw [hstream, hscrubber]
  by_cases htap : tap' = tap
  · subst htap
    rw [Function.update_self, Function.update_self, ← h.conserved, List.append_assoc,
      List.append_assoc]
    exact congrArg (w.stream tap' ++ ·) hhere
  · rw [Function.update_of_ne htap, Function.update_of_ne htap, ← h.conserved]
    exact congrArg (w.stream tap' ++ ·) (helse tap' htap)

theorem feedAll {chunks : List (Tap × Bytes)} (h : w.Lossless fed) :
    (w.feedAll chunks).Lossless (Session.seen fed chunks) := by
  induction chunks generalizing w fed with
  | nil => exact h
  | cons chunk chunks ih => exact ih (h.feed chunk.1 chunk.2)

/-- Letting go of what is held back completes the streams. -/
theorem flush (h : w.Lossless fed) (tap : Tap) : w.flush.stream tap = fed tap := by
  have hflush : ∀ tap, (w.scrubber.flush tap).1 = w.scrubber.pending tap := by
    intro tap
    simp [TappedScrubber.flush, h.core.preserve]
  have hstream : w.flush.stream tap = w.stream tap ++ (w.scrubber.flush tap).1 := by
    cases tap with
    | s2c => exact w.flush_s2c
    | c2s => exact w.flush_c2s
  rw [hstream, hflush]
  exact h.conserved tap

end CaptureWriter.Lossless

/-- A capture that keeps the handshake. -/
def CaptureWriter.preserving : CaptureWriter :=
  { scrubber := TappedScrubber.init true }

namespace CaptureWriter

/-- With `preserve_auth`, whatever is fed to the two taps in whatever order and pieces: what has
come out of a tap is what was fed to it but for the bytes it holds back, the final flush brings
these out, and no feeding is given up. -/
theorem preserving_lossless (chunks : List (Tap × Bytes)) :
    (∀ tap, (preserving.feedAll chunks).stream tap ++
        (preserving.feedAll chunks).scrubber.pending tap =
          Session.seen (fun _ => []) chunks tap) ∧
      (∀ tap, (preserving.feedAll chunks).flush.stream tap =
        Session.seen (fun _ => []) chunks tap) ∧
        (preserving.feedAll chunks).abortReason = none := by
  have hinit : preserving.Lossless fun _ => [] :=
    ⟨⟨rfl, rfl⟩, fun tap => by cases tap <;> rfl⟩
  have hfed : (preserving.feedAll chunks).Lossless (Session.seen (fun _ => []) chunks) :=
    hinit.feedAll
  exact ⟨hfed.conserved, hfed.flush, hfed.core.reason⟩

end CaptureWriter

end Vncdotool
