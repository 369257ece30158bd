import Vncdotool.Replay.Protocol
import Vncdotool.Streaming.Dialogues

/-!
# Pacing — a recording is served exactly, and never too early

`Paced` couples the write position, the client's buffer, the grammar and the flags of a
`ReplayProtocol`.  The grammar has always followed some dialogue, whose server bytes are cut off the
recording and whose client bytes have all arrived; more than these server bytes is written only for
one of the reasons of `Released`.
-/

namespace Vncdotool

open Wire Streaming

/-! ## The grammar changes directions to ask for something -/

theorem HandshakeScrubber.want_endAuth_pos {s : HandshakeScrubber} {negotiated : Ver} {sectype : ℕ}
    {tap : Tap} {n : ℕ} (h : (s.endAuth negotiated sectype).want = some (tap, n)) : 0 < n := by
  unfold endAuth at h
  split_ifs at h
  · cases h
    decide
  · cases h
    decide

theorem HandshakeScrubber.want_beginAuth_pos {s : HandshakeScrubber} {negotiated : Ver}
    {sectype : ℕ} {tap : Tap} {n : ℕ} (h : (s.beginAuth negotiated sectype).want = some (tap, n)) :
    0 < n := by
  unfold beginAuth at h
  split_ifs at h
  · cases h
    decide
  · cases h
    decide
  · exact nomatch h
  · exact want_endAuth_pos h

theorem HandshakeScrubber.want_resume_pos {s : HandshakeScrubber} {sent : Bytes}
    {suspension : Suspension} {tap : Tap} {n : ℕ}
    (h : (s.resume sent suspension).want = some (tap, n)) (hother : tap ≠ suspension.want.1) :
    0 < n := by
  cases suspension with
  | serverHead => cases h; decide
  | clientHead =>
      simp only [resume] at h
      cases hparse : parseVersion sent with
      | none =>
          rw [hparse] at h
          cases h
      | some negotiated =>
          rw [hparse] at h
          dsimp only at h
          split_ifs at h
          · cases h; decide
          · cases h; decide
  | numTypes negotiated =>
      simp only [resume] at h
      split_ifs at h
      · cases h
      · cases h
        exact absurd rfl hother
  | types negotiated m => cases h; decide
  | sectype negotiated => exact want_beginAuth_pos h
  | auth negotiated =>
      simp only [resume] at h
      split_ifs at h
      · cases h
      · exact want_beginAuth_pos h
  | challenge negotiated => cases h; decide
  | response negotiated => exact want_endAuth_pos h
  | ardHead negotiated =>
      cases h
      exact absurd rfl hother
  | ardModulus negotiated keyLen =>
      cases h
      exact absurd rfl hother
  | ardServerKey negotiated keyLen => cases h; decide
  | ardCredentials negotiated keyLen =>
      cases h
      exact absurd rfl hother
  | ardClientKey negotiated keyLen => exact want_endAuth_pos h
  | securityResult negotiated =>
      simp only [resume] at h
      split_ifs at h
      · cases h
      · cases h
      · cases h; decide
      · cases h; decide
  | clientInit => cases h; decide
  | serverInit =>
      simp only [resume] at h
      split_ifs at h
      · cases h
        exact absurd rfl hother
      · cases h
  | serverName m => cases h

/-- Only the blocks behind another one of the same direction can be empty. -/
theorem HandshakeScrubber.attentive : HandshakeScrubber.grammar.Attentive := by
  intro s tap m block tap' n hwant hnext hother
  change s.want = some (tap, m) at hwant
  change (s.advance block).2.want = some (tap', n) at hnext
  unfold want at hwant
  rcases Option.map_eq_some_iff.1 hwant with ⟨suspension, hgen, htap⟩
  rw [advance_snd, send, hgen] at hnext
  refine want_resume_pos hnext ?_
  rw [htap]
  exact hother

namespace ReplayProtocol

variable {p : ReplayProtocol} {done : List (Turn Tap UInt8)} {cs : Bytes}

/-! ## The invariant -/

/-- The dialogue the grammar has followed, `cs` being what the client has sent. -/
structure Standing (p : ReplayProtocol) (done : List (Turn Tap UInt8)) (cs : Bytes) : Prop where
  follows : Follows HandshakeScrubber.grammar ({} : HandshakeScrubber) done p.scrubber.core
  pending : p.scrubber.pending = fun _ => []
  recorded : tapBytes .s2c done <+: p.capture.s2c
  replied : tapBytes .c2s done <+: cs
  asks : ∀ tap n, p.scrubber.core.want = some (tap, n) → 0 < n

/-- Why the rest of the recording may be served. -/
inductive Released (p : ReplayProtocol) (done : List (Turn Tap UInt8)) (cs : Bytes) : Prop
  | unpaced (hwant : p.scrubber.core.want = none) (hwidth : p.scrubber.core.width = none)
  | truncated {n : ℕ} (hwant : p.scrubber.core.want = some (.s2c, n))
      (hshort : p.capture.s2c.length < (tapBytes .s2c done).length + n)
  | requested (hwant : p.scrubber.core.want = none)
      (hrequest : Requests (cs.drop (tapBytes .c2s done).length))

/-- The grammar is being driven: what it has taken is what was written and what is not buffered. -/
structure Driving (p : ReplayProtocol) (done : List (Turn Tap UInt8)) (cs : Bytes) : Prop where
  exhausted : p.exhausted = false
  awaiting : p.awaitingRequest = false
  written : p.written = tapBytes .s2c done
  pos : p.pos = p.written.length
  buffer : cs = tapBytes .c2s done ++ p.buffer

/-- How far the protocol has come with a dialogue. -/
inductive Phase (p : ReplayProtocol) (done : List (Turn Tap UInt8)) (cs : Bytes) : Prop
  | handshake (hdriving : Driving p done cs)
  | awaiting (hexhausted : p.exhausted = false) (hawaiting : p.awaitingRequest = true)
      (hwritten : p.written = tapBytes .s2c done) (hpos : p.pos = p.written.length)
      (hwant : p.scrubber.core.want = none) (hwidth : p.scrubber.core.width.isSome = true)
      (hskips : Skips (cs.drop (tapBytes .c2s done).length) p.buffer)
  | refused (hexhausted : p.exhausted = true) (hclosed : p.disconnecting = true)
      (hwritten : p.written = tapBytes .s2c done) (hpos : p.pos = p.written.length)
  | served (hexhausted : p.exhausted = true) (hwritten : p.written = p.capture.s2c)
      (hpos : p.pos = p.written.length) (hreleased : Released p done cs)

/-- What holds between two calls of the transport. -/
def Paced (p : ReplayProtocol) (cs : Bytes) : Prop :=
  ∃ done, Standing p done cs ∧ Phase p done cs

/-! ## One turn of the loop -/

/-- A block goes through the scrubber: the dialogue is longer by it. -/
theorem Standing.feed (h : Standing p done cs) {tap : Tap} {n : ℕ} {chunk : Bytes}
    (hwant : p.scrubber.core.want = some (tap, n)) (hchunk : chunk.length = n) :
    ∃ read, read ≠ [] ∧ (∀ turn ∈ read, turn.tap = tap) ∧ tapBytes tap read = chunk ∧
      Follows HandshakeScrubber.grammar ({} : HandshakeScrubber) (done ++ read)
        (p.scrubber.feed tap chunk).2.core ∧
      (p.scrubber.feed tap chunk).2.core.rank < p.scrubber.core.rank ∧
      (p.scrubber.feed tap chunk).2.pending = (fun _ => []) ∧
      ∀ tap' n', (p.scrubber.feed tap chunk).2.core.want = some (tap', n') → 0 < n' := by
  have hpos : 0 < n := h.asks tap n hwant
  have hpending : p.scrubber.pending tap = [] := congrFun h.pending tap
  rcases feed_block HandshakeScrubber.attentive hwant hpos hpending hchunk with
    ⟨read, hne, htap, hfollows, hbytes, _, hleft, hasks⟩
  refine ⟨read, hne, htap, hbytes, h.follows.append hfollows, ?_, hleft.trans h.pending, hasks⟩
  have hle := hfollows.rank_le
  have hread : 0 < read.length := List.length_pos_iff.2 hne
  change (p.scrubber.feed tap chunk).2.core.rank + read.length ≤ p.scrubber.core.rank at hle
  omega

theorem tapBytes_other {read : List (Turn Tap UInt8)} {tap tap' : Tap}
    (htap : ∀ turn ∈ read, turn.tap = tap) (hother : tap ≠ tap') : tapBytes tap' read = [] :=
  tapBytes_eq_nil fun turn hmem => by
    rw [htap turn hmem]
    exact hother

/-- The rest of the recording is written. -/
theorem Standing.release (h : Standing p done cs) (hwritten : p.written = tapBytes .s2c done)
    (hpos : p.pos = p.written.length) (hreleased : Released p done cs) (buffer : Bytes)
    (held : Bool) :
    Paced
      { p with
        buffer := buffer
        awaitingRequest := held
        written := p.written ++ p.capture.s2c.drop p.pos
        pos := if (p.capture.s2c.drop p.pos).isEmpty then p.pos else p.capture.s2c.length
        exhausted := true } cs := by
  have hleads : p.written <+: p.capture.s2c := hwritten ▸ h.recorded
  have hwhole : p.written ++ p.capture.s2c.drop p.pos = p.capture.s2c := by
    rw [hpos]
    exact List.prefix_iff_eq_append.1 hleads
  refine ⟨done, ⟨h.follows, h.pending, h.recorded, h.replied, h.asks⟩, ?_⟩
  refine Phase.served rfl hwhole ?_ ?_
  · dsimp only
    split_ifs with hnil
    · have hempty : p.capture.s2c.drop p.pos = [] := List.isEmpty_iff.1 hnil
      rw [hempty, List.append_nil]
      exact hpos
    · rw [hwhole]
  · cases hreleased with
    | unpaced hwant hwidth => exact Released.unpaced hwant hwidth
    | truncated hwant hshort => exact Released.truncated hwant hshort
    | requested hwant hrequest => exact Released.requested hwant hrequest

/-- Behind the server name the client's messages are looked through. -/
theorem Standing.hold (h : Standing p done cs) (hexhausted : p.exhausted = false)
    (hwritten : p.written = tapBytes .s2c done) (hpos : p.pos = p.written.length)
    (hwant : p.scrubber.core.want = none) (hwidth : p.scrubber.core.width.isSome = true)
    (hskips : Skips (cs.drop (tapBytes .c2s done).length) p.buffer) :
    Paced p.serveSession cs := by
  have hheld : (if !p.awaitingRequest && p.scrubber.core.want.isNone && p.scrubber.core.width.isSome
      then { p with awaitingRequest := true } else p) = { p with awaitingRequest := true } := by
    rw [hwant, hwidth]
    cases hawaiting : p.awaitingRequest with
    | false => rfl
    | true =>
        cases p
        cases hawaiting
        rfl
  unfold serveSession
  dsimp only
  rw [hheld]
  dsimp only
  rw [if_pos rfl]
  cases hsaw : (sawUpdateRequest p.buffer).1 with
  | true =>
      rw [if_pos rfl]
      have hrequest : Requests (cs.drop (tapBytes .c2s done).length) :=
        hskips.requests (requests_of_saw hsaw)
      exact h.release hwritten hpos (Released.requested hwant hrequest) _ true
  | false =>
      rw [if_neg Bool.false_ne_true]
      have hleft := hskips.trans (skips_of_not_saw hsaw)
      exact ⟨done, ⟨h.follows, h.pending, h.recorded, h.replied, h.asks⟩,
        Phase.awaiting hexhausted rfl hwritten hpos hwant hwidth hleft⟩

/-- Where the grammar cannot pace the recording, the rest of it is served at once. -/
theorem Standing.serve_unpaced (h : Standing p done cs) (hdriving : Driving p done cs)
    (hpace : p.scrubber.core.want = none → p.scrubber.core.width = none)
    (hreleased : Released p done cs) : Paced p.serveSession cs := by
  have hskip : (!p.awaitingRequest && p.scrubber.core.want.isNone && p.scrubber.core.width.isSome) =
      false := by
    cases hwant : p.scrubber.core.want with
    | none => rw [hpace hwant, Option.isSome_none, Bool.and_false]
    | some w => rw [Option.isNone_some, Bool.and_false, Bool.false_and]
  have hserve : p.serveSession =
      { p with
        buffer := p.buffer
        awaitingRequest := false
        written := p.written ++ p.capture.s2c.drop p.pos
        pos := if (p.capture.s2c.drop p.pos).isEmpty then p.pos else p.capture.s2c.length
        exhausted := true } := by
    unfold serveSession
    dsimp only
    rw [hskip, if_neg Bool.false_ne_true, hdriving.awaiting, if_neg Bool.false_ne_true, if_pos rfl]
  rw [hserve]
  exact h.release hdriving.written hdriving.pos hreleased p.buffer false

/-! ## The loop -/

theorem append_slice_prefix {a b : Bytes} (h : a <+: b) (n : ℕ) : a ++ slice b a.length n <+: b := by
  rcases h with ⟨rest, rfl⟩
  rw [slice, List.drop_left]
  exact (List.prefix_append_right_inj a).2 (List.take_prefix n rest)

theorem length_slice_of_leads {a b : Bytes} (h : a <+: b) (n : ℕ) :
    (slice b a.length n).length < n ↔ b.length < a.length + n := by
  have hle := h.length_le
  rw [slice, List.length_take, List.length_drop]
  omega

/-- The version check leaves the dialogue alone; a mismatch closes the connection. -/
theorem versionMismatch_cases (p : ReplayProtocol) :
    (∃ checked, p.versionMismatch = (false, { p with versionChecked := checked })) ∨
      p.versionMismatch =
        (true, { p with versionChecked := true, disconnecting := true, exhausted := true }) := by
  unfold versionMismatch
  cases hchecked : p.versionChecked with
  | true =>
      refine Or.inl ⟨true, ?_⟩
      dsimp only
      rw [← hchecked]
  | false =>
      cases p.scrubber.core.negotiatedVersion with
      | none =>
          refine Or.inl ⟨false, ?_⟩
          dsimp only
          rw [← hchecked]
      | some negotiated =>
          dsimp only
          cases p.capture.negotiatedVersion with
          | none => exact Or.inl ⟨true, rfl⟩
          | some archived =>
              dsimp only
              by_cases heq : archived = negotiated
              · rw [if_pos heq]
                exact Or.inl ⟨true, rfl⟩
              · rw [if_neg heq]
                exact Or.inr rfl

/-- A block is written to the client. -/
theorem Standing.write (h : Standing p done cs) (hdriving : Driving p done cs) {n : ℕ}
    (hwant : p.scrubber.core.want = some (.s2c, n))
    (hlong : ¬ (slice p.capture.s2c p.pos n).length < n) :
    ∃ done', let p' : ReplayProtocol :=
        { p with
          written := p.written ++ slice p.capture.s2c p.pos n
          pos := p.pos + n
          scrubber := (p.scrubber.feed .s2c (slice p.capture.s2c p.pos n)).2 }
      Standing p' done' cs ∧ Driving p' done' cs ∧
        p'.scrubber.core.rank < p.scrubber.core.rank := by
  have hlength : (slice p.capture.s2c p.pos n).length = n := by
    refine le_antisymm ?_ (Nat.not_lt.1 hlong)
    rw [slice, List.length_take]
    exact Nat.min_le_left _ _
  rcases h.feed hwant hlength with ⟨read, _, htap, hbytes, hfollows, hrank, hpending, hasks⟩
  have hother : tapBytes .c2s read = [] := tapBytes_other htap (by decide)
  have hs2c : tapBytes .s2c (done ++ read) = p.written ++ slice p.capture.s2c p.pos n := by
    rw [tapBytes_append, hbytes, hdriving.written]
  have hc2s : tapBytes .c2s (done ++ read) = tapBytes .c2s done := by
    rw [tapBytes_append, hother, List.append_nil]
  refine ⟨done ++ read, ⟨hfollows, hpending, ?_, ?_, hasks⟩, ⟨hdriving.exhausted, hdriving.awaiting,
    hs2c.symm, ?_, ?_⟩, hrank⟩
  · dsimp only
    rw [hs2c, hdriving.pos]
    refine append_slice_prefix ?_ n
    rw [hdriving.written]
    exact h.recorded
  · rw [hc2s]
    exact h.replied
  · dsimp only
    rw [List.length_append, hlength, hdriving.pos]
  · dsimp only
    rw [hc2s]
    exact hdriving.buffer

/-- A block is taken off what the client has sent. -/
theorem Standing.read (h : Standing p done cs) (hdriving : Driving p done cs) {n : ℕ}
    (hwant : p.scrubber.core.want = some (.c2s, n)) (hlong : ¬ p.buffer.length < n) :
    ∃ done', let p' : ReplayProtocol :=
        { p with
          buffer := p.buffer.drop n
          scrubber := (p.scrubber.feed .c2s (p.buffer.take n)).2 }
      Standing p' done' cs ∧ Driving p' done' cs ∧
        p'.scrubber.core.rank < p.scrubber.core.rank := by
  have hlength : (p.buffer.take n).length = n := List.length_take_of_le (Nat.not_lt.1 hlong)
  rcases h.feed hwant hlength with ⟨read, _, htap, hbytes, hfollows, hrank, hpending, hasks⟩
  have hother : tapBytes .s2c read = [] := tapBytes_other htap (by decide)
  have hs2c : tapBytes .s2c (done ++ read) = tapBytes .s2c done := by
    rw [tapBytes_append, hother, List.append_nil]
  have hc2s : cs = tapBytes .c2s (done ++ read) ++ p.buffer.drop n := by
    rw [tapBytes_append, hbytes, List.append_assoc, List.take_append_drop]
    exact hdriving.buffer
  refine ⟨done ++ read, ⟨hfollows, hpending, ?_, ?_, hasks⟩, ⟨hdriving.exhausted, hdriving.awaiting,
    ?_, hdriving.pos, hc2s⟩, hrank⟩
  · rw [hs2c]
    exact h.recorded
  · exact ⟨p.buffer.drop n, hc2s.symm⟩
  · rw [hs2c]
    exact hdriving.written

/-- The loop ends, and keeps the protocol paced. -/
theorem paced_advanceLoop {fuel : ℕ} : ∀ {p : ReplayProtocol} {done : List (Turn Tap UInt8)},
    p.scrubber.core.rank < fuel → Standing p done cs → Driving p done cs →
      Paced (advanceLoop fuel p) cs := by
  induction fuel with
  | zero => exact fun hrank => absurd hrank (Nat.not_lt_zero _)
  | succ fuel ih =>
      intro p done hrank hstanding hdriving
      unfold advanceLoop turn
      cases hwant : p.scrubber.core.want with
      | none =>
          dsimp only
          -- The generator has returned: with the size if the handshake was recorded to its end.
          cases hwidth : p.scrubber.core.width with
          | none =>
              exact hstanding.serve_unpaced hdriving (fun _ => hwidth) (Released.unpaced hwant hwidth)
          | some w =>
              have hskips : Skips (cs.drop (tapBytes .c2s done).length) p.buffer := by
                rw [hdriving.buffer, List.drop_left]
                exact Skips.refl p.buffer
              exact hstanding.hold hdriving.exhausted hdriving.written hdriving.pos hwant
                (hwidth ▸ rfl) hskips
      | some w =>
          rcases w with ⟨tap, n⟩
          cases tap with
          | s2c =>
              dsimp only
              by_cases hshort : (slice p.capture.s2c p.pos n).length < n
              · rw [if_pos hshort]
                have hlack : p.capture.s2c.length < (tapBytes .s2c done).length + n := by
                  refine (length_slice_of_leads hstanding.recorded n).1 ?_
                  rw [← hdriving.written, ← hdriving.pos]
                  exact hshort
                exact hstanding.serve_unpaced hdriving (fun h => nomatch hwant.symm.trans h)
                  (Released.truncated hwant hlack)
              · rw [if_neg hshort]
                -- A block of the server is written, and the rank of the generator falls.
                rcases hstanding.write hdriving hwant hshort with ⟨done', hstanding', hdriving', hlt⟩
                exact ih (Nat.lt_of_lt_of_le hlt (Nat.lt_succ_iff.1 hrank)) hstanding' hdriving'
          | c2s =>
              dsimp only
              by_cases hshort : p.buffer.length < n
              · rw [if_pos hshort]
                exact ⟨done, hstanding, Phase.handshake hdriving⟩
              · rw [if_neg hshort]
                -- A block of the client is taken; the one with the version may be refused.
                rcases hstanding.read hdriving hwant hshort with ⟨done', hstanding', hdriving', hlt⟩
                dsimp only at hstanding' hdriving' hlt
                rcases versionMismatch_cases
                    { p with
                      buffer := p.buffer.drop n
                      scrubber := (p.scrubber.feed .c2s (p.buffer.take n)).2 } with
                  ⟨checked, hversion⟩ | hversion
                · rw [hversion]
                  refine @ih _ done' (Nat.lt_of_lt_of_le hlt (Nat.lt_succ_iff.1 hrank)) ?_ ?_
                  · exact ⟨hstanding'.follows, hstanding'.pending, hstanding'.recorded,
                      hstanding'.replied, hstanding'.asks⟩
                  · exact ⟨hdriving'.exhausted, hdriving'.awaiting, hdriving'.written,
                      hdriving'.pos, hdriving'.buffer⟩
                · rw [hversion]
                  refine ⟨done', ?_, Phase.refused rfl rfl hdriving'.written hdriving'.pos⟩
                  exact ⟨hstanding'.follows, hstanding'.pending, hstanding'.recorded,
                    hstanding'.replied, hstanding'.asks⟩

/-- The loop is entered with a turn to spare for every block the grammar can still ask for. -/
theorem Paced.advance (h : Paced p cs) : Paced p.advance cs := by
  rcases h with ⟨done, hstanding, hphase⟩
  unfold ReplayProtocol.advance
  cases hphase with
  | handshake hdriving =>
      rw [hdriving.exhausted, if_neg Bool.false_ne_true]
      exact paced_advanceLoop (Nat.lt_succ_self _) hstanding hdriving
  | awaiting hexhausted hawaiting hwritten hpos hwant hwidth hskips =>
      rw [hexhausted, if_neg Bool.false_ne_true, advanceLoop, turn, hwant]
      exact hstanding.hold hexhausted hwritten hpos hwant hwidth hskips
  | refused hexhausted hclosed hwritten hpos =>
      rw [hexhausted, if_pos rfl]
      exact ⟨done, hstanding, Phase.refused hexhausted hclosed hwritten hpos⟩
  | served hexhausted hwritten hpos hreleased =>
      rw [hexhausted, if_pos rfl]
      exact ⟨done, hstanding, Phase.served hexhausted hwritten hpos hreleased⟩

/-! ## The runs -/

theorem Released.append (h : Released p done cs) (hreplied : tapBytes .c2s done <+: cs)
    (data : Bytes) : Released p done (cs ++ data) := by
  cases h with
  | unpaced hwant hwidth => exact Released.unpaced hwant hwidth
  | truncated hwant hshort => exact Released.truncated hwant hshort
  | requested hwant hrequest =>
      refine Released.requested hwant ?_
      rw [List.drop_append_of_le_length hreplied.length_le]
      exact hrequest.append data

theorem paced_connectionMade (capture : Capture) : Paced (connectionMade capture) [] := by
  refine Paced.advance ⟨[], ?_, Phase.handshake ⟨rfl, rfl, rfl, rfl, rfl⟩⟩
  refine ⟨Follows.nil _, rfl, List.nil_prefix, List.nil_prefix, ?_⟩
  intro tap n hwant
  cases hwant
  decide

/-- What the client sends while the recording is being served is kept for the loop. -/
theorem Paced.receive (h : Paced p cs) (hexhausted : p.exhausted = false) (data : Bytes) :
    Paced { p with buffer := p.buffer ++ data } (cs ++ data) := by
  rcases h with ⟨done, hstanding, hphase⟩
  refine ⟨done, ⟨hstanding.follows, hstanding.pending, hstanding.recorded,
    hstanding.replied.trans (List.prefix_append cs data), hstanding.asks⟩, ?_⟩
  cases hphase with
  | handshake hdriving =>
      refine Phase.handshake ⟨hexhausted, hdriving.awaiting, hdriving.written, hdriving.pos, ?_⟩
      dsimp only
      rw [hdriving.buffer, List.append_assoc]
  | awaiting _ hawaiting hwritten hpos hwant hwidth hskips =>
      refine Phase.awaiting hexhausted hawaiting hwritten hpos hwant hwidth ?_
      rw [List.drop_append_of_le_length hstanding.replied.length_le]
      exact hskips.append data
  | refused h _ _ _ => exact nomatch hexhausted.symm.trans h
  | served h _ _ _ => exact nomatch hexhausted.symm.trans h

theorem Paced.dataReceived (h : Paced p cs) (data : Bytes) :
    Paced (p.dataReceived data) (cs ++ data) := by
  have hserved : ∀ q : ReplayProtocol, Paced q cs → Paced { q with served := true } cs := by
    rintro q ⟨done, hstanding, hphase⟩
    refine ⟨done, ⟨hstanding.follows, hstanding.pending, hstanding.recorded, hstanding.replied,
      hstanding.asks⟩, ?_⟩
    cases hphase with
    | handshake hdriving =>
        exact Phase.handshake ⟨hdriving.exhausted, hdriving.awaiting, hdriving.written,
          hdriving.pos, hdriving.buffer⟩
    | awaiting hexhausted hawaiting hwritten hpos hwant hwidth hskips =>
        exact Phase.awaiting hexhausted hawaiting hwritten hpos hwant hwidth hskips
    | refused hexhausted hclosed hwritten hpos =>
        exact Phase.refused hexhausted hclosed hwritten hpos
    | served hexhausted hwritten hpos hreleased =>
        refine Phase.served hexhausted hwritten hpos ?_
        cases hreleased with
        | unpaced hwant hwidth => exact Released.unpaced hwant hwidth
        | truncated hwant hshort => exact Released.truncated hwant hshort
        | requested hwant hrequest => exact Released.requested hwant hrequest
  have htouched : Paced (if data.isEmpty then p else { p with served := true }) cs := by
    split_ifs
    · exact h
    · exact hserved p h
  unfold ReplayProtocol.dataReceived
  dsimp only
  generalize (if data.isEmpty then p else { p with served := true }) = q at htouched ⊢
  by_cases hexhausted : q.exhausted = true
  · rw [if_pos hexhausted]
    rcases htouched with ⟨done, hstanding, hphase⟩
    refine ⟨done, ⟨hstanding.follows, hstanding.pending, hstanding.recorded,
      hstanding.replied.trans (List.prefix_append cs data), hstanding.asks⟩, ?_⟩
    cases hphase with
    | handshake hdriving => exact nomatch hexhausted.symm.trans hdriving.exhausted
    | awaiting h _ _ _ _ _ _ => exact nomatch hexhausted.symm.trans h
    | refused _ hclosed hwritten hpos => exact Phase.refused hexhausted hclosed hwritten hpos
    | served _ hwritten hpos hreleased =>
        exact Phase.served hexhausted hwritten hpos (hreleased.append hstanding.replied data)
  · rw [if_neg hexhausted]
    exact (htouched.receive (Bool.eq_false_of_not_eq_true hexhausted) data).advance

/-- The client's bytes arrive, however they are cut. -/
def run (capture : Capture) (chunks : List Bytes) : ReplayProtocol :=
  chunks.foldl dataReceived (connectionMade capture)

theorem paced_run (capture : Capture) (chunks : List Bytes) :
    Paced (run capture chunks) chunks.flatten := by
  have hfold : ∀ (chunks : List Bytes) (p : ReplayProtocol) (cs : Bytes), Paced p cs →
      Paced (chunks.foldl dataReceived p) (cs ++ chunks.flatten) := by
    intro chunks
    induction chunks with
    | nil =>
        intro p cs h
        rw [List.flatten_nil, List.append_nil]
        exact h
    | cons data chunks ih =>
        intro p cs h
        rw [List.flatten_cons, ← List.append_assoc]
        exact ih _ _ (h.dataReceived data)
  exact hfold chunks _ [] (paced_connectionMade capture)

/-! ## The recording stays what it is -/

theorem capture_serveSession (p : ReplayProtocol) : p.serveSession.capture = p.capture := by
  unfold serveSession
  dsimp only
  split_ifs <;> rfl

theorem capture_advanceLoop {fuel : ℕ} : ∀ p : ReplayProtocol,
    (advanceLoop fuel p).capture = p.capture := by
  induction fuel with
  | zero => exact fun _ => rfl
  | succ fuel ih =>
      intro p
      unfold advanceLoop turn
      cases p.scrubber.core.want with
      | none => exact capture_serveSession p
      | some w =>
          rcases w with ⟨tap, n⟩
          cases tap with
          | s2c =>
              dsimp only
              split_ifs
              · exact capture_serveSession p
              · exact ih _
          | c2s =>
              dsimp only
              split_ifs
              · rfl
              · rcases versionMismatch_cases
                    { p with
                      buffer := p.buffer.drop n
                      scrubber := (p.scrubber.feed .c2s (p.buffer.take n)).2 } with
                  ⟨checked, hversion⟩ | hversion
                · rw [hversion]
                  exact ih _
                · rw [hversion]

theorem capture_advance (p : ReplayProtocol) : p.advance.capture = p.capture := by
  unfold advance
  split_ifs
  · rfl
  · exact capture_advanceLoop p

theorem capture_dataReceived (p : ReplayProtocol) (data : Bytes) :
    (p.dataReceived data).capture = p.capture := by
  unfold dataReceived
  dsimp only
  split_ifs
  · rfl
  · exact capture_advance _
  · rfl
  · exact capture_advance _

theorem capture_run (capture : Capture) (chunks : List Bytes) :
    (run capture chunks).capture = capture := by
  have hfold : ∀ (chunks : List Bytes) (p : ReplayProtocol),
      (chunks.foldl dataReceived p).capture = p.capture := by
    intro chunks
    induction chunks with
    | nil => exact fun _ => rfl
    | cons data chunks ih => exact fun p => (ih _).trans (capture_dataReceived p data)
  exact (hfold chunks _).trans (capture_advance _)

/-! ## What was written, and when -/

/-- The streams a dialogue with the protocol is cut from. -/
def streams (s2c client : Bytes) : Tap → Bytes
  | .s2c => s2c
  | .c2s => client

/-- A dialogue whose server bytes have all been passed has been followed. -/
theorem Standing.prefix_of_passed {before : List (Turn Tap UInt8)} {core : HandshakeScrubber}
    {client : Bytes} (h : Standing p done cs) (hphase : Phase p done cs) (hclient : cs <+: client)
    (hbefore : Follows HandshakeScrubber.grammar ({} : HandshakeScrubber) before core)
    (hs2c : tapBytes .s2c before <+: p.capture.s2c) (hc2s : tapBytes .c2s before <+: client)
    (hpassed : (tapBytes .s2c before).length < p.written.length) : before <+: done := by
  have hdone : ∀ tap, tapBytes tap done <+: streams p.capture.s2c client tap := by
    intro tap
    cases tap with
    | s2c => exact h.recorded
    | c2s => exact h.replied.trans hclient
  have hothers : ∀ tap, tapBytes tap before <+: streams p.capture.s2c client tap := by
    intro tap
    cases tap with
    | s2c => exact hs2c
    | c2s => exact hc2s
  rcases hbefore.comparable h.follows hothers hdone with hleads | ⟨rest, rfl⟩
  · exact hleads
  · rcases hbefore.split with ⟨core', hfollows, hrest⟩
    have hcore : p.scrubber.core = core' := h.follows.deterministic hfollows
    subst hcore
    -- Only a protocol that has served the recording has written more than the dialogue.
    have hserved : p.written ≠ tapBytes .s2c done := by
      intro hwritten
      rw [hwritten, tapBytes_append, List.length_append] at hpassed
      omega
    have hempty : rest = [] := by
      cases hrest with
      | nil => rfl
      | @cons _ _ _ turn rest' hwant _ _ =>
          cases hphase with
          | handshake hdriving => exact absurd hdriving.written hserved
          | awaiting _ _ hwritten _ _ _ _ => exact absurd hwritten hserved
          | refused _ _ hwritten _ => exact absurd hwritten hserved
          | served _ _ _ hreleased =>
              cases hreleased with
              | unpaced hnone _ => exact nomatch hnone.symm.trans hwant
              | requested hnone _ => exact nomatch hnone.symm.trans hwant
              | @truncated n hasked hshort =>
                  have hturn := hasked.symm.trans hwant
                  rw [Option.some.injEq, Prod.mk.injEq] at hturn
                  have hle := hs2c.length_le
                  rw [tapBytes_append, tapBytes_cons, if_pos hturn.1.symm, List.length_append,
                    List.length_append, ← hturn.2] at hle
                  omega
    rw [hempty, List.append_nil]

/-- What was written is the recording up to the position. -/
theorem Phase.written_eq_take (h : Phase p done cs) (hstanding : Standing p done cs) :
    p.written = p.capture.s2c.take p.pos := by
  have hleads : p.written <+: p.capture.s2c ∧ p.pos = p.written.length := by
    cases h with
    | handshake hdriving => exact ⟨hdriving.written ▸ hstanding.recorded, hdriving.pos⟩
    | awaiting _ _ hwritten hpos _ _ _ => exact ⟨hwritten ▸ hstanding.recorded, hpos⟩
    | refused _ _ hwritten hpos => exact ⟨hwritten ▸ hstanding.recorded, hpos⟩
    | served _ hwritten hpos _ => exact ⟨hwritten ▸ List.prefix_refl _, hpos⟩
  rw [hleads.2]
  exact List.prefix_iff_eq_take.1 hleads.1

/-- Behind the name, only a request lets the recording go on. -/
theorem Phase.requests {script : List (Turn Tap UInt8)} {core : HandshakeScrubber}
    (h : Phase p done cs) (hstanding : Standing p done cs) (hleads : script <+: done)
    (hscript : Follows HandshakeScrubber.grammar ({} : HandshakeScrubber) script core)
    (hwant : core.want = none) (hwidth : core.width.isSome = true)
    (hpassed : (tapBytes .s2c script).length < p.written.length) :
    Requests (cs.drop (tapBytes .c2s script).length) := by
  rcases hleads with ⟨rest, rfl⟩
  rcases hstanding.follows.split with ⟨core', hfollows, hrest⟩
  have hcore : core = core' := hscript.deterministic hfollows
  subst hcore
  cases hrest with
  | cons hask _ _ => exact nomatch hwant.symm.trans hask
  | nil =>
      rw [List.append_nil] at h
      cases h with
      | handshake hdriving =>
          rw [hdriving.written] at hpassed
          exact absurd hpassed (lt_irrefl _)
      | awaiting _ _ hwritten _ _ _ _ =>
          rw [hwritten] at hpassed
          exact absurd hpassed (lt_irrefl _)
      | refused _ _ hwritten _ =>
          rw [hwritten] at hpassed
          exact absurd hpassed (lt_irrefl _)
      | served _ _ _ hreleased =>
          cases hreleased with
          | unpaced _ hnone =>
              rw [hnone] at hwidth
              exact nomatch hwidth
          | truncated hask _ => exact nomatch hwant.symm.trans hask
          | requested _ hrequest => exact hrequest

/-- Whatever the recording, and whatever the client sends and however that is cut: the recording is
written without a gap, all of it when the protocol is done with a client of its version, no block of
the handshake before the client's bytes in front of it, and nothing behind the name before the client
asks for a framebuffer.  `client` is all the client will ever send. -/
theorem serves_exactly (capture : Capture) (chunks : List Bytes) :
    (run capture chunks).written = capture.s2c.take (run capture chunks).pos ∧
      ((run capture chunks).exhausted = true → (run capture chunks).disconnecting = false →
        (run capture chunks).written = capture.s2c) ∧
      ∀ (client : Bytes) (before : List (Turn Tap UInt8)) (core : HandshakeScrubber),
        chunks.flatten <+: client →
        Follows HandshakeScrubber.grammar ({} : HandshakeScrubber) before core →
        tapBytes .s2c before <+: capture.s2c → tapBytes .c2s before <+: client →
        (tapBytes .s2c before).length < (run capture chunks).written.length →
        (∀ n, core.want = some (.s2c, n) → tapBytes .c2s before <+: chunks.flatten) ∧
          (core.want = none → core.width.isSome = true →
            Requests (chunks.flatten.drop (tapBytes .c2s before).length)) := by
  rcases paced_run capture chunks with ⟨done, hstanding, hphase⟩
  have hcapture : (run capture chunks).capture = capture := capture_run capture chunks
  refine ⟨?_, ?_, ?_⟩
  · have hwritten := hphase.written_eq_take hstanding
    rw [hcapture] at hwritten
    exact hwritten
  · intro hexhausted hopen
    cases hphase with
    | handshake hdriving => exact nomatch hexhausted.symm.trans hdriving.exhausted
    | awaiting h _ _ _ _ _ _ => exact nomatch hexhausted.symm.trans h
    | refused _ hclosed _ _ => exact nomatch hopen.symm.trans hclosed
    | served _ hwritten _ _ => exact hwritten.trans (congrArg Capture.s2c hcapture)
  · intro client before core hclient hbefore hs2c hc2s hpassed
    have hrecorded : tapBytes .s2c before <+: (run capture chunks).capture.s2c :=
      hcapture.symm ▸ hs2c
    have hleads := hstanding.prefix_of_passed hphase hclient hbefore hrecorded hc2s hpassed
    constructor
    · intro n _
      rcases hleads with ⟨rest, rfl⟩
      have hreplied := hstanding.replied
      rw [tapBytes_append] at hreplied
      exact (List.prefix_append _ _).trans hreplied
    · intro hwant hwidth
      exact hphase.requests hstanding hleads hbefore hwant hwidth hpassed

/-- A session without a password, its framebuffer held back from a client that has not asked. -/
example :
    let head := versionLine ⟨3, 8⟩ ++ [1, 1] ++ [0, 0, 0, 0] ++ List.replicate 24 0
    let replies := [versionLine ⟨3, 8⟩, [1], [1, 4, 0]]
    let request := [List.replicate 6 0, 3 :: List.replicate 9 0]
    (run { s2c := head ++ [0, 0, 0, 0] } replies).written = head ∧
      (run { s2c := head ++ [0, 0, 0, 0] } (replies ++ request)).written =
        head ++ [0, 0, 0, 0] := by
  decide +kernel

end ReplayProtocol

end Vncdotool
