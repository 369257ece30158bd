import Vncdotool.Capture.Session
import Vncdotool.Streaming.Echoes

/-!
# Rereading — a scrubber on what a scrubber recorded

The scrubber that reads a recording takes another path than the one that made it: it is always in
a `none` handshake.  `Suspension.mirror` says at which `yield` the second one stands when the first
one is at a given one, and `Mirrors.step` that every chunk of the first is answered by the second,
which takes exactly what was recorded of the chunk, and records the same.
-/

namespace Vncdotool

open Wire Streaming

namespace Suspension

/-- The `yield`s between `_in_auth = True` and `_in_auth = False`. -/
def secret : Suspension → Bool
  | challenge _ | response _ => true
  | ardHead _ | ardModulus _ _ | ardServerKey _ _ | ardCredentials _ _ | ardClientKey _ _ => true
  | _ => false

/-- The version that was negotiated. -/
def negotiated? : Suspension → Option Ver
  | numTypes v | types v _ | sectype v | auth v | securityResult v => some v
  | challenge v | response v => some v
  | ardHead v | ardModulus v _ | ardServerKey v _ | ardCredentials v _ | ardClientKey v _ => some v
  | serverHead | clientHead | clientInit | serverInit | serverName _ => none

/-- ServerInit is still to come. -/
def early : Suspension → Bool
  | serverName _ => false
  | _ => true

/-- There is a name to read. -/
def named : Suspension → Prop
  | serverName nameLen => 0 < nameLen
  | _ => True

/-- After the auth of a `none` handshake. -/
def afterNone (v : Ver) : Suspension :=
  if ⟨3, 8⟩ ≤ v then securityResult v else clientInit

/-- Where the scrubber that reads the recording stands. -/
def mirror : Suspension → Suspension
  | types v _ => numTypes v
  | challenge v | response v | securityResult v => afterNone v
  | ardHead v | ardModulus v _ | ardServerKey v _ | ardCredentials v _ | ardClientKey v _ =>
      afterNone v
  | suspension => suspension

end Suspension

namespace HandshakeScrubber

/-! ## What is known at a `yield` -/

/-- The version is the one that was negotiated, the screen is not known before ServerInit, and an
empty name is not waited for. -/
def Informed (m : HandshakeScrubber) : Prop :=
  ∀ suspension, m.gen = some suspension →
    (∀ v, suspension.negotiated? = some v → m.negotiatedVersion = some v) ∧
      (suspension.early → m.width = none) ∧ suspension.named

theorem Informed.of_suspend {m : HandshakeScrubber} {suspension : Suspension}
    (hversion : ∀ v, suspension.negotiated? = some v → m.negotiatedVersion = some v)
    (hwidth : suspension.early → m.width = none) (hnamed : suspension.named) :
    (m.suspend suspension).Informed := by
  intro suspension' hgen
  cases hgen
  exact ⟨hversion, hwidth, hnamed⟩

theorem Informed.of_unversioned {m : HandshakeScrubber} {suspension : Suspension}
    (hversion : suspension.negotiated? = none) (hwidth : suspension.early → m.width = none)
    (hnamed : suspension.named) : (m.suspend suspension).Informed := by
  refine Informed.of_suspend ?_ hwidth hnamed
  intro v hv
  rw [hversion] at hv
  cases hv

theorem Informed.of_finish (m : HandshakeScrubber) : m.finish.Informed := by
  intro suspension hgen
  cases hgen

theorem Informed.endAuth {m : HandshakeScrubber} {v : Ver} (hversion : m.negotiatedVersion = some v)
    (hwidth : m.width = none) (sectype : ℕ) : (m.endAuth v sectype).Informed := by
  unfold HandshakeScrubber.endAuth
  dsimp only
  split_ifs
  · exact Informed.of_unversioned rfl (fun _ => hwidth) trivial
  · exact Informed.of_suspend (fun _ hv => hversion.trans hv) (fun _ => hwidth) trivial

theorem Informed.beginAuth {m : HandshakeScrubber} {v : Ver}
    (hversion : m.negotiatedVersion = some v) (hwidth : m.width = none) (sectype : ℕ) :
    (m.beginAuth v sectype).Informed := by
  unfold HandshakeScrubber.beginAuth
  dsimp only
  split_ifs
  · exact Informed.of_suspend (fun _ hv => hversion.trans hv) (fun _ => hwidth) trivial
  · exact Informed.of_suspend (fun _ hv => hversion.trans hv) (fun _ => hwidth) trivial
  · exact Informed.of_finish _
  · refine Informed.endAuth ?_ ?_ _
    · exact hversion
    · exact hwidth

theorem Informed.send {m : HandshakeScrubber} (h : m.Informed) (chunk : Bytes) :
    (m.send chunk).Informed := by
  cases hgen : m.gen with
  | none =>
      intro suspension hgen'
      simp [HandshakeScrubber.send, hgen] at hgen'
  | some suspension =>
      -- Each suspension carries the version on to the next; the size is unknown up to ServerInit.
      rcases h suspension hgen with ⟨hversion, hwidth, hnamed⟩
      simp only [HandshakeScrubber.send, hgen]
      cases suspension with
      | serverHead => exact Informed.of_unversioned rfl (fun _ => hwidth rfl) trivial
      | clientHead =>
          simp only [resume]
          cases parseVersion chunk with
          | none => exact Informed.of_finish _
          | some v =>
              dsimp only
              split_ifs
              · exact Informed.of_suspend (fun _ hv => hv) (fun _ => hwidth rfl) trivial
              · exact Informed.of_suspend (fun _ hv => hv) (fun _ => hwidth rfl) trivial
      | numTypes v =>
          simp only [resume]
          split_ifs
          · exact Informed.of_finish _
          · exact Informed.of_suspend hversion (fun _ => hwidth rfl) trivial
      | types v n => exact Informed.of_suspend hversion (fun _ => hwidth rfl) trivial
      | sectype v =>
          refine Informed.beginAuth ?_ ?_ _
          · exact hversion v rfl
          · exact hwidth rfl
      | auth v =>
          simp only [resume]
          split_ifs
          · exact Informed.of_finish _
          · refine Informed.beginAuth ?_ ?_ _
            · exact hversion v rfl
            · exact hwidth rfl
      | challenge v => exact Informed.of_suspend hversion (fun _ => hwidth rfl) trivial
      | response v =>
          refine Informed.endAuth ?_ ?_ _
          · exact hversion v rfl
          · exact hwidth rfl
      | ardHead v => exact Informed.of_suspend hversion (fun _ => hwidth rfl) trivial
      | ardModulus v keyLen => exact Informed.of_suspend hversion (fun _ => hwidth rfl) trivial
      | ardServerKey v keyLen => exact Informed.of_suspend hversion (fun _ => hwidth rfl) trivial
      | ardCredentials v keyLen => exact Informed.of_suspend hversion (fun _ => hwidth rfl) trivial
      | ardClientKey v keyLen =>
          refine Informed.endAuth ?_ ?_ _
          · exact hversion v rfl
          · exact hwidth rfl
      | securityResult v =>
          simp only [resume]
          split_ifs
          · exact Informed.of_finish _
          · exact Informed.of_finish _
          · exact Informed.of_unversioned rfl (fun _ => hwidth rfl) trivial
          · exact Informed.of_unversioned rfl (fun _ => hwidth rfl) trivial
      | clientInit => exact Informed.of_unversioned rfl (fun _ => hwidth rfl) trivial
      | serverInit =>
          simp only [resume]
          split_ifs
          · rename_i hname
            refine Informed.of_unversioned rfl ?_ (Nat.pos_of_ne_zero hname)
            intro hearly
            cases hearly
          · exact Informed.of_finish _
      | serverName n => exact Informed.of_finish _

/-! ## The two scrubbers -/

/-- Two stripping scrubbers that found out the same, the second one outside any auth exchange. -/
structure Agrees (m n : HandshakeScrubber) : Prop where
  stripping : m.preserveAuth = false
  mirror_stripping : n.preserveAuth = false
  mirror_inAuth : n.inAuth = false
  mirror_abortReason : n.abortReason = none
  negotiatedVersion : n.negotiatedVersion = m.negotiatedVersion
  width : n.width = m.width
  height : n.height = m.height

theorem Agrees.congr {m n m₁ n₁ : HandshakeScrubber} (h : m.Agrees n) (hm : m₁.known = m.known)
    (hn : n₁.known = n.known) (hinAuth : n₁.inAuth = n.inAuth) : m₁.Agrees n₁ := by
  simp only [known, Prod.mk.injEq] at hm hn
  rcases hm with ⟨hstripping, -, hversion, hwidth, hheight⟩
  rcases hn with ⟨hstripping', habort', hversion', hwidth', hheight'⟩
  constructor
  · rw [hstripping, h.stripping]
  · rw [hstripping', h.mirror_stripping]
  · rw [hinAuth, h.mirror_inAuth]
  · rw [habort', h.mirror_abortReason]
  · rw [hversion, hversion', h.negotiatedVersion]
  · rw [hwidth, hwidth', h.width]
  · rw [hheight, hheight', h.height]

/-- The auth failed below 3.8, where a `none` handshake has no SecurityResult to say so. -/
def FailedBelow (m : HandshakeScrubber) : Prop :=
  m.gen = none ∧ m.width = none ∧ ∃ v, v < ⟨3, 8⟩ ∧ m.negotiatedVersion = some v

/-- The second scrubber stands where the first one's recording takes it. -/
structure Mirrors (m n : HandshakeScrubber) : Prop where
  agrees : m.Agrees n
  inAuth : ∀ suspension, m.gen = some suspension → m.inAuth = suspension.secret
  place : n.gen = m.gen.map Suspension.mirror ∨ m.FailedBelow ∧ n.gen = some .clientInit

variable {m n m' : HandshakeScrubber} {suspension : Suspension} {turn : Turn Tap UInt8}

theorem Mirrors.of_finish (h : m.Agrees n) : m.finish.Mirrors n.finish where
  agrees := h.congr rfl rfl rfl
  inAuth := by
    intro suspension hgen
    cases hgen
  place := Or.inl rfl

/-- The first scrubber goes on alone. -/
theorem Mirrors.of_silent (h : m.Agrees n) (hinAuth : m.inAuth = suspension.secret)
    (hn : n.gen = some suspension.mirror) : (m.suspend suspension).Mirrors n where
  agrees := h.congr rfl rfl rfl
  inAuth := by
    intro suspension' hgen
    cases hgen
    exact hinAuth
  place := Or.inl hn

/-- The two go on together. -/
theorem Mirrors.of_suspend {mirrored : Suspension} (h : m.Agrees n)
    (hmirror : suspension.mirror = mirrored) (hinAuth : m.inAuth = suspension.secret) :
    (m.suspend suspension).Mirrors (n.suspend mirrored) := by
  refine Mirrors.of_silent (h.congr rfl rfl rfl) hinAuth ?_
  rw [hmirror]
  rfl

/-- Below 3.8 a `none` handshake goes straight on to ClientInit. -/
theorem endAuth_none (v : Ver) (m : HandshakeScrubber) :
    m.endAuth v AuthTypes.NONE =
      { m with inAuth := false }.suspend (Suspension.afterNone v) := by
  unfold endAuth Suspension.afterNone
  by_cases hkeeps : ⟨3, 8⟩ ≤ v
  · simp [hkeeps, Ver.not_lt.2 hkeeps]
  · have hbelow : v < ⟨3, 8⟩ := not_not.1 (mt Ver.not_lt.1 hkeeps)
    simp [hkeeps, hbelow]

theorem endAuth_of_ne {sectype : ℕ} (hne : sectype ≠ AuthTypes.NONE) (v : Ver)
    (m : HandshakeScrubber) :
    m.endAuth v sectype = { m with inAuth := false }.suspend (.securityResult v) := by
  unfold endAuth
  rw [if_pos]
  intro hboth
  exact hne hboth.2

theorem mirror_afterNone (v : Ver) : (Suspension.afterNone v).mirror = Suspension.afterNone v := by
  unfold Suspension.afterNone
  by_cases hkeeps : ⟨3, 8⟩ ≤ v
  · rw [if_pos hkeeps]
    exact if_pos hkeeps
  · rw [if_neg hkeeps]
    rfl

theorem secret_afterNone (v : Ver) : (Suspension.afterNone v).secret = false := by
  unfold Suspension.afterNone
  split_ifs <;> rfl

/-! ## One step -/

/-- The second scrubber, from `n`, takes what was recorded of the turn, and keeps up. -/
def Answered (n : HandshakeScrubber) (turn : Turn Tap UInt8) (m' : HandshakeScrubber) : Prop :=
  ∃ (echo : Echo Tap UInt8) (n' : HandshakeScrubber), echo.turn = turn ∧
    Follows grammar n echo.block n' ∧ m'.Mirrors n'

theorem Answered.silent (hrecorded : turn.recorded = []) (h : m'.Mirrors n) :
    Answered n turn m' :=
  ⟨Echo.silent turn hrecorded, n, rfl, Follows.nil n, h⟩

/-- The rule for a message that is recorded as one message. -/
theorem Answered.verbatim {suspension : Suspension} (h : m.Agrees n)
    (hn : n.gen = some suspension) (hpos : 0 < turn.recorded.length)
    (hwant : suspension.want = (turn.tap, turn.recorded.length))
    (hrecords : (n.send turn.recorded).recording.getD turn.recorded = turn.recorded)
    (hnext : m'.Mirrors (n.send turn.recorded)) : Answered n turn m' := by
  have hat : Session.At n (some suspension) false := ⟨hn, h.mirror_inAuth, h.mirror_stripping⟩
  refine ⟨Echo.verbatim turn (List.ne_nil_of_length_pos hpos), n.send turn.recorded, rfl, ?_, hnext⟩
  exact @Session.At.follows _ _ _ _ turn.kept _ hat hwant hrecords (Follows.nil _)

/-- A turn of the first scrubber at a `yield`, with the second one at the mirror of it. -/
structure Facing (m n : HandshakeScrubber) (suspension : Suspension) (turn : Turn Tap UInt8)
    (m' : HandshakeScrubber) : Prop where
  agrees : m.Agrees n
  place : n.gen = some suspension.mirror
  inAuth : m.inAuth = suspension.secret
  asks : suspension.want = (turn.tap, turn.bytes.length)
  next : m' = resume turn.bytes { m with recording := none } suspension
  recorded : turn.recorded =
    m'.recording.getD (if suspension.secret then [] else turn.bytes)
  sound : m'.abortReason = none

namespace Facing

variable {v : Ver}

theorem send_mirror (h : Facing m n suspension turn m') (chunk : Bytes) :
    n.send chunk = resume chunk { n with recording := none } suspension.mirror := by
  rw [HandshakeScrubber.send, h.place]

theorem serverHead (h : Facing m n .serverHead turn m') : Answered n turn m' := by
  have hrecorded : turn.recorded = turn.bytes := by
    rw [h.recorded, h.next]
    rfl
  have hasks := h.asks
  rw [← hrecorded] at hasks
  have hlength : 12 = turn.recorded.length := (Prod.mk.inj hasks).2
  refine Answered.verbatim h.agrees h.place (by omega) hasks ?_ ?_
  · rw [h.send_mirror]
    rfl
  · rw [h.send_mirror, h.next, hrecorded]
    exact Mirrors.of_suspend (h.agrees.congr rfl rfl rfl) rfl h.inAuth

theorem clientHead (h : Facing m n .clientHead turn m') : Answered n turn m' := by
  cases hparse : parseVersion turn.bytes with
  | none =>
      -- The first scrubber has given up.
      have hsound := h.sound
      rw [h.next] at hsound
      simp [resume, hparse, giveUp, finish, h.agrees.stripping] at hsound
  | some v =>
      have hnext (s : HandshakeScrubber) : resume turn.bytes s .clientHead =
          { s with negotiatedVersion := some v }.suspend
            (if (⟨3, 7⟩ : Ver) ≤ v then .numTypes v else .auth v) := by
        simp only [resume, hparse]
        split_ifs <;> rfl
      have hrecorded : turn.recorded = turn.bytes := by
        rw [h.recorded, h.next, hnext]
        rfl
      have hasks := h.asks
      rw [← hrecorded] at hasks
      have hlength : 12 = turn.recorded.length := (Prod.mk.inj hasks).2
      have hmirror : (if (⟨3, 7⟩ : Ver) ≤ v then Suspension.numTypes v else .auth v).mirror =
          if (⟨3, 7⟩ : Ver) ≤ v then .numTypes v else .auth v := by
        split_ifs <;> rfl
      have hsecret :
          (if (⟨3, 7⟩ : Ver) ≤ v then Suspension.numTypes v else .auth v).secret = false := by
        split_ifs <;> rfl
      have hsend : n.send turn.bytes =
          { n with recording := none, negotiatedVersion := some v }.suspend
            (if (⟨3, 7⟩ : Ver) ≤ v then .numTypes v else .auth v) := by
        rw [h.send_mirror]
        exact hnext _
      refine Answered.verbatim h.agrees h.place (by omega) hasks ?_ ?_
      · rw [hrecorded, hsend]
        rfl
      · rw [hrecorded, hsend, h.next, hnext]
        refine Mirrors.of_suspend ?_ hmirror (h.inAuth.trans hsecret.symm)
        exact ⟨h.agrees.stripping, h.agrees.mirror_stripping, h.agrees.mirror_inAuth,
          h.agrees.mirror_abortReason, rfl, h.agrees.width, h.agrees.height⟩

theorem numTypes (h : Facing m n (.numTypes v) turn m') : Answered n turn m' := by
  by_cases hzero : field turn.bytes 0 1 = 0
  -- A refusal is recorded as it is.
  · have hnext (s : HandshakeScrubber) : resume turn.bytes s (.numTypes v) = s.finish := by
      rw [resume]
      exact if_pos hzero
    have hrecorded : turn.recorded = turn.bytes := by
      rw [h.recorded, h.next, hnext]
      rfl
    have hasks := h.asks
    rw [← hrecorded] at hasks
    have hlength : 1 = turn.recorded.length := (Prod.mk.inj hasks).2
    have hsend : n.send turn.bytes = finish { n with recording := none } := by
      rw [h.send_mirror]
      exact hnext _
    refine Answered.verbatim h.agrees h.place (by omega) hasks ?_ ?_
    · rw [hrecorded, hsend]
      rfl
    · rw [hrecorded, hsend, h.next, hnext]
      exact Mirrors.of_finish (h.agrees.congr rfl rfl rfl)
  · have hnext : m' = (record [] { m with recording := none }).suspend
        (.types v (field turn.bytes 0 1)) := by
      rw [h.next, resume]
      exact if_neg hzero
    refine Answered.silent ?_ ?_
    · rw [h.recorded, hnext]
      rfl
    · rw [hnext]
      exact Mirrors.of_silent (h.agrees.congr rfl rfl rfl) h.inAuth h.place

/-- The one type of the recording, with its count. -/
theorem types {count : ℕ} (h : Facing m n (.types v count) turn m') : Answered n turn m' := by
  have htap : .s2c = turn.tap := (Prod.mk.inj h.asks).1
  have hrecorded : turn.recorded = [1, 1] := by
    rw [h.recorded, h.next]
    rfl
  have hcount : Session.At n (some (.numTypes v)) false :=
    ⟨h.place, h.agrees.mirror_inAuth, h.agrees.mirror_stripping⟩
  have hfirst : n.send [1] = (record [] { n with recording := none }).suspend (.types v 1) := by
    rw [hcount.send_eq, resume]
    exact if_neg (by decide)
  have hlist : Session.At (n.send [1]) (some (.types v 1)) false := by
    rw [hfirst]
    exact ⟨rfl, hcount.inAuth_eq, hcount.stripping⟩
  let echo : Echo Tap UInt8 :=
    { turn := turn
      block := [⟨.s2c, [1], []⟩, ⟨.s2c, [1], [1, 1]⟩]
      ofTap := by simp [htap]
      nonempty := by simp
      bytes := by simp [htap, hrecorded]
      recorded := by simp [htap, hrecorded] }
  refine ⟨echo, (n.send [1]).send [1], rfl, ?_, ?_⟩
  · refine hcount.follows rfl ?_ (hlist.follows rfl ?_ (Follows.nil _))
    · rw [hfirst]
      rfl
    · rw [hlist.send_eq]
      rfl
  · rw [hlist.send_eq, h.next, hfirst]
    exact Mirrors.of_suspend (h.agrees.congr rfl rfl rfl) rfl h.inAuth

/-- Whatever was chosen, the second scrubber is told `none`. -/
theorem beginAuth {sectype : ℕ} (h : m.Agrees n)
    (hsound : (m.beginAuth v sectype).abortReason = none) :
    (m.beginAuth v sectype).Mirrors (n.beginAuth v AuthTypes.NONE) := by
  have hmirror : n.beginAuth v AuthTypes.NONE =
      HandshakeScrubber.suspend (Suspension.afterNone v)
        { n with securityType := some AuthTypes.NONE, inAuth := false } :=
    endAuth_none v _
  rw [hmirror]
  have hended (s : HandshakeScrubber) (hs : s.known = m.known) (hinAuth : s.inAuth = false) :
      (s.suspend (Suspension.afterNone v)).Mirrors
        (HandshakeScrubber.suspend (Suspension.afterNone v)
          { n with securityType := some AuthTypes.NONE, inAuth := false }) :=
    Mirrors.of_suspend (h.congr hs rfl h.mirror_inAuth.symm) (mirror_afterNone v)
      (hinAuth.trans (secret_afterNone v).symm)
  by_cases hvnc : sectype = AuthTypes.VNC_AUTHENTICATION
  · rw [hvnc]
    exact Mirrors.of_suspend (h.congr rfl rfl h.mirror_inAuth.symm) rfl rfl
  · by_cases hard : sectype = AuthTypes.DIFFIE_HELLMAN
    · rw [hard]
      exact Mirrors.of_suspend (h.congr rfl rfl h.mirror_inAuth.symm) rfl rfl
    · by_cases hnone : sectype = AuthTypes.NONE
      · have hbegin : m.beginAuth v AuthTypes.NONE =
            HandshakeScrubber.suspend (Suspension.afterNone v)
              { m with securityType := some AuthTypes.NONE, inAuth := false } :=
          endAuth_none v _
        rw [hnone, hbegin]
        exact hended _ rfl rfl
      · by_cases hinvalid : sectype = AuthTypes.INVALID
        · have hbegin : m.beginAuth v AuthTypes.INVALID =
              HandshakeScrubber.suspend (.securityResult v)
                { m with securityType := some AuthTypes.INVALID, inAuth := false } :=
            endAuth_of_ne (by decide) v _
          rw [hinvalid, hbegin]
          exact Mirrors.of_suspend (h.congr rfl rfl h.mirror_inAuth.symm) rfl rfl
        -- No grammar for this type: the first scrubber has given up.
        · simp [HandshakeScrubber.beginAuth, hvnc, hard, hnone, hinvalid, giveUp, finish,
            h.stripping] at hsound

theorem sectype (h : Facing m n (.sectype v) turn m') : Answered n turn m' := by
  have hrecorded : turn.recorded = [1] := by
    rw [h.recorded, h.next, resume, Session.recording_beginAuth]
    rfl
  have htap : .c2s = turn.tap := (Prod.mk.inj h.asks).1
  have hsend : n.send [1] =
      (record [1] { n with recording := none }).beginAuth v AuthTypes.NONE := by
    rw [h.send_mirror]
    rfl
  refine Answered.verbatim h.agrees h.place (by rw [hrecorded]; decide) ?_ ?_ ?_
  · rw [hrecorded, ← htap]
    rfl
  · rw [hrecorded, hsend, Session.recording_beginAuth]
    rfl
  · have hsound := h.sound
    rw [h.next, resume] at hsound
    rw [hrecorded, hsend, h.next, resume]
    exact beginAuth (h.agrees.congr rfl rfl rfl) hsound

theorem auth (h : Facing m n (.auth v) turn m') : Answered n turn m' := by
  have htap : .s2c = turn.tap := (Prod.mk.inj h.asks).1
  by_cases hinvalid : unpackBE turn.bytes = AuthTypes.INVALID
  · have hnext (s : HandshakeScrubber) : resume turn.bytes s (.auth v) = s.finish := by
      rw [resume]
      exact if_pos hinvalid
    have hrecorded : turn.recorded = turn.bytes := by
      rw [h.recorded, h.next, hnext]
      rfl
    have hasks := h.asks
    rw [← hrecorded] at hasks
    have hlength : 4 = turn.recorded.length := (Prod.mk.inj hasks).2
    have hsend : n.send turn.bytes = finish { n with recording := none } := by
      rw [h.send_mirror]
      exact hnext _
    refine Answered.verbatim h.agrees h.place (by omega) hasks ?_ ?_
    · rw [hrecorded, hsend]
      rfl
    · rw [hrecorded, hsend, h.next, hnext]
      exact Mirrors.of_finish (h.agrees.congr rfl rfl rfl)
  · have hnext : m' =
        { record (packBE 4 AuthTypes.NONE) { m with recording := none } with
          securityTypes := [unpackBE turn.bytes] }.beginAuth v (unpackBE turn.bytes) := by
      rw [h.next, resume]
      exact if_neg hinvalid
    have hrecorded : turn.recorded = packBE 4 AuthTypes.NONE := by
      rw [h.recorded, hnext, Session.recording_beginAuth]
      rfl
    have hword : unpackBE (packBE 4 AuthTypes.NONE) = AuthTypes.NONE :=
      unpackBE_packBE_of_lt (by decide)
    have hsend : n.send (packBE 4 AuthTypes.NONE) =
        { record (packBE 4 AuthTypes.NONE) { n with recording := none } with
          securityTypes := [AuthTypes.NONE] }.beginAuth v AuthTypes.NONE := by
      have hmirrored : (Suspension.auth v).mirror = .auth v := rfl
      rw [h.send_mirror, hmirrored, resume, hword]
      exact if_neg (by decide)
    refine Answered.verbatim h.agrees h.place (by rw [hrecorded]; decide) ?_ ?_ ?_
    · rw [hrecorded, ← htap, length_packBE]
      rfl
    · rw [hrecorded, hsend, Session.recording_beginAuth]
      rfl
    · have hsound := h.sound
      rw [hnext] at hsound
      rw [hrecorded, hsend, hnext]
      exact beginAuth (h.agrees.congr rfl rfl rfl) hsound

/-- Inside the exchange nothing is recorded, and the second scrubber stays where it is. -/
theorem secret {next : Suspension} (h : Facing m n suspension turn m')
    (hsecret : suspension.secret = true) (hmirror : suspension.mirror = next.mirror)
    (hinAuth : next.secret = true)
    (hnext : ∀ s : HandshakeScrubber, s.resume turn.bytes suspension = s.suspend next) :
    Answered n turn m' := by
  refine Answered.silent ?_ ?_
  · rw [h.recorded, h.next, hnext, if_pos hsecret]
    rfl
  · rw [h.next, hnext]
    refine Mirrors.of_silent (h.agrees.congr rfl rfl rfl) ?_ ?_
    · exact h.inAuth.trans (hsecret.trans hinAuth.symm)
    · rw [h.place, hmirror]

/-- The exchange ends in a SecurityResult. -/
theorem lastSecret {sectype : ℕ} (h : Facing m n suspension turn m')
    (hsecret : suspension.secret = true) (hmirror : suspension.mirror = Suspension.afterNone v)
    (hne : sectype ≠ AuthTypes.NONE)
    (hnext : ∀ s : HandshakeScrubber, s.resume turn.bytes suspension = s.endAuth v sectype) :
    Answered n turn m' := by
  refine Answered.silent ?_ ?_
  · rw [h.recorded, h.next, hnext, Session.recording_endAuth, if_pos hsecret]
    rfl
  · rw [h.next, hnext, endAuth_of_ne hne]
    refine Mirrors.of_silent (h.agrees.congr rfl rfl rfl) rfl ?_
    rw [h.place, hmirror]
    rfl

theorem securityResult (h : Facing m n (.securityResult v) turn m')
    (hversion : m.negotiatedVersion = some v) (hwidth : m.width = none) :
    Answered n turn m' := by
  have htap : .s2c = turn.tap := (Prod.mk.inj h.asks).1
  have hlength : 4 = turn.bytes.length := (Prod.mk.inj h.asks).2
  have hplace : n.gen = some (Suspension.afterNone v) := h.place
  have hsend (chunk : Bytes) : n.send chunk =
      resume chunk { n with recording := none } (Suspension.afterNone v) :=
    h.send_mirror chunk
  by_cases hkeeps : (⟨3, 8⟩ : Ver) ≤ v
  -- From 3.8 on the result is recorded, and the second scrubber takes it too.
  · have hafter : Suspension.afterNone v = .securityResult v := if_pos hkeeps
    rw [hafter] at hplace hsend
    by_cases hzero : field turn.bytes 0 4 = 0
    · have hnext (s : HandshakeScrubber) (chunk : Bytes) (hchunk : field chunk 0 4 = 0) :
          s.resume chunk (.securityResult v) = (s.record (packBE 4 0)).suspend .clientInit := by
        simp only [resume, hchunk, if_pos hkeeps]
        exact if_neg (by simp)
      have hrecorded : turn.recorded = packBE 4 0 := by
        rw [h.recorded, h.next, hnext _ _ hzero]
        rfl
      have hfield : field (packBE 4 0) 0 4 = 0 := by decide
      refine Answered.verbatim h.agrees hplace (by rw [hrecorded]; decide) ?_ ?_ ?_
      · rw [hrecorded, ← htap]
        rfl
      · rw [hrecorded, hsend, hnext _ _ hfield]
        rfl
      · rw [hrecorded, hsend, hnext _ _ hfield, h.next, hnext _ _ hzero]
        exact Mirrors.of_suspend (h.agrees.congr rfl rfl rfl) rfl h.inAuth
    · have hnext (s : HandshakeScrubber) :
          s.resume turn.bytes (.securityResult v) = s.finish := by
        have habove : ¬ v < ⟨3, 8⟩ := Ver.not_lt.2 hkeeps
        simp [resume, hzero, habove]
      have hrecorded : turn.recorded = turn.bytes := by
        rw [h.recorded, h.next, hnext]
        rfl
      refine Answered.verbatim h.agrees hplace (by rw [hrecorded]; omega) ?_ ?_ ?_
      · rw [hrecorded]
        exact h.asks
      · rw [hrecorded, hsend, hnext]
        rfl
      · rw [hrecorded, hsend, hnext, h.next, hnext]
        exact Mirrors.of_finish (h.agrees.congr rfl rfl rfl)
  -- Before 3.8 it is left out, and the second scrubber waits for ClientInit already.
  · have hafter : Suspension.afterNone v = .clientInit := if_neg hkeeps
    have hbelow : v < ⟨3, 8⟩ := not_not.1 (mt Ver.not_lt.1 hkeeps)
    rw [hafter] at hplace
    by_cases hzero : field turn.bytes 0 4 = 0
    · have hnext : m' = (record [] { m with recording := none }).suspend .clientInit := by
        rw [h.next]
        simp [resume, hzero, hkeeps]
      refine Answered.silent ?_ ?_
      · rw [h.recorded, hnext]
        rfl
      · rw [hnext]
        exact Mirrors.of_silent (h.agrees.congr rfl rfl rfl) h.inAuth hplace
    -- The failure is dropped: the second scrubber goes on to ClientInit.
    · have hnext : m' = (record [] { m with recording := none }).finish := by
        rw [h.next]
        simp [resume, hzero, hbelow]
      refine Answered.silent ?_ ⟨?_, ?_, Or.inr ⟨?_, hplace⟩⟩
      · rw [h.recorded, hnext]
        rfl
      · rw [hnext]
        exact h.agrees.congr rfl rfl rfl
      · intro suspension hgen
        rw [hnext] at hgen
        cases hgen
      · rw [hnext]
        exact ⟨rfl, hwidth, v, hbelow, hversion⟩

theorem clientInit (h : Facing m n .clientInit turn m') : Answered n turn m' := by
  have hrecorded : turn.recorded = turn.bytes := by
    rw [h.recorded, h.next]
    rfl
  have hlength : 1 = turn.bytes.length := (Prod.mk.inj h.asks).2
  refine Answered.verbatim h.agrees h.place (by rw [hrecorded]; omega) ?_ ?_ ?_
  · rw [hrecorded]
    exact h.asks
  · rw [h.send_mirror]
    rfl
  · rw [hrecorded, h.send_mirror, h.next]
    exact Mirrors.of_suspend (h.agrees.congr rfl rfl rfl) rfl h.inAuth

theorem serverInit (h : Facing m n .serverInit turn m') : Answered n turn m' := by
  have hlength : 24 = turn.bytes.length := (Prod.mk.inj h.asks).2
  have hscreen : Agrees
      { m with recording := none, width := some (field turn.bytes 0 2),
               height := some (field turn.bytes 2 2) }
      { n with recording := none, width := some (field turn.bytes 0 2),
               height := some (field turn.bytes 2 2) } :=
    ⟨h.agrees.stripping, h.agrees.mirror_stripping, h.agrees.mirror_inAuth,
      h.agrees.mirror_abortReason, h.agrees.negotiatedVersion, rfl, rfl⟩
  by_cases hname : field turn.bytes 20 4 = 0
  -- Without a name both are finished.
  · have hnext (s : HandshakeScrubber) : s.resume turn.bytes .serverInit =
        finish { s with width := some (field turn.bytes 0 2),
                        height := some (field turn.bytes 2 2) } := by
      simp [resume, hname]
    have hrecorded : turn.recorded = turn.bytes := by
      rw [h.recorded, h.next, hnext]
      rfl
    have hsend : n.send turn.bytes = finish
        { n with recording := none, width := some (field turn.bytes 0 2),
                 height := some (field turn.bytes 2 2) } := by
      rw [h.send_mirror]
      exact hnext _
    refine Answered.verbatim h.agrees h.place (by rw [hrecorded]; omega) ?_ ?_ ?_
    · rw [hrecorded]
      exact h.asks
    · rw [hrecorded, hsend]
      rfl
    · rw [hrecorded, hsend, h.next, hnext]
      exact Mirrors.of_finish hscreen
  · have hnext (s : HandshakeScrubber) : s.resume turn.bytes .serverInit =
        suspend (.serverName (field turn.bytes 20 4))
          { s with width := some (field turn.bytes 0 2),
                   height := some (field turn.bytes 2 2) } := by
      simp [resume, hname]
    have hrecorded : turn.recorded = turn.bytes := by
      rw [h.recorded, h.next, hnext]
      rfl
    have hsend : n.send turn.bytes = suspend (.serverName (field turn.bytes 20 4))
        { n with recording := none, width := some (field turn.bytes 0 2),
                 height := some (field turn.bytes 2 2) } := by
      rw [h.send_mirror]
      exact hnext _
    refine Answered.verbatim h.agrees h.place (by rw [hrecorded]; omega) ?_ ?_ ?_
    · rw [hrecorded]
      exact h.asks
    · rw [hrecorded, hsend]
      rfl
    · rw [hrecorded, hsend, h.next, hnext]
      exact Mirrors.of_suspend hscreen rfl h.inAuth

theorem serverName {length : ℕ} (h : Facing m n (.serverName length) turn m')
    (hpos : 0 < length) : Answered n turn m' := by
  have hrecorded : turn.recorded = turn.bytes := by
    rw [h.recorded, h.next]
    rfl
  have hlength : length = turn.bytes.length := (Prod.mk.inj h.asks).2
  refine Answered.verbatim h.agrees h.place (by rw [hrecorded]; omega) ?_ ?_ ?_
  · rw [hrecorded]
    exact h.asks
  · rw [h.send_mirror]
    rfl
  · rw [h.send_mirror, h.next]
    exact Mirrors.of_finish (h.agrees.congr rfl rfl rfl)

end Facing

/-- Whatever the first scrubber takes, the second one takes what was recorded of it. -/
theorem Mirrors.step (h : m.Mirrors n) (hinformed : m.Informed)
    (hwant : grammar.want m = some (turn.tap, turn.bytes.length))
    (hadvance : grammar.advance m turn.bytes = (turn.recorded, m'))
    (hsound : m'.abortReason = none) : Answered n turn m' := by
  rcases Option.map_eq_some_iff.1 hwant with ⟨suspension, hgen, hasks⟩
  rcases hinformed suspension hgen with ⟨hversion, hwidth, hnamed⟩
  have hplace : n.gen = some suspension.mirror := by
    rcases h.place with hplace | ⟨hfailed, -⟩
    · rw [hplace, hgen]
      rfl
    · rw [hfailed.1] at hgen
      cases hgen
  have hsend : m.send turn.bytes = resume turn.bytes { m with recording := none } suspension := by
    rw [HandshakeScrubber.send, hgen]
  have hinAuth := h.inAuth suspension hgen
  have hadvance' : m.advance turn.bytes = (turn.recorded, m') := hadvance
  have hnext : m' = m.send turn.bytes := by
    rw [← advance_snd, hadvance']
  have hrecorded : turn.recorded =
      m'.recording.getD (if suspension.secret then [] else turn.bytes) := by
    have hfst : (m.advance turn.bytes).1 = turn.recorded := congrArg Prod.fst hadvance'
    rw [← hfst, hnext, advance, h.agrees.stripping, hinAuth]
    simp
  have hfacing : Facing m n suspension turn m' :=
    ⟨h.agrees, hplace, hinAuth, hasks, hnext.trans hsend, hrecorded, hsound⟩
  -- Where the second scrubber stands: at the same suspension, or behind an authentication that was
  -- left out.
  cases suspension with
  | serverHead => exact hfacing.serverHead
  | clientHead => exact hfacing.clientHead
  | numTypes v => exact hfacing.numTypes
  | types v count => exact hfacing.types
  | sectype v => exact hfacing.sectype
  | auth v => exact hfacing.auth
  | challenge v =>
      exact @Facing.secret _ _ _ _ _ (.response v) hfacing rfl rfl rfl (fun _ => rfl)
  | response v => exact hfacing.lastSecret rfl rfl (by decide) (fun _ => rfl)
  | ardHead v =>
      exact @Facing.secret _ _ _ _ _ (.ardModulus v _) hfacing rfl rfl rfl (fun _ => rfl)
  | ardModulus v keyLen =>
      exact @Facing.secret _ _ _ _ _ (.ardServerKey v keyLen) hfacing rfl rfl rfl (fun _ => rfl)
  | ardServerKey v keyLen =>
      exact @Facing.secret _ _ _ _ _ (.ardCredentials v keyLen) hfacing rfl rfl rfl (fun _ => rfl)
  | ardCredentials v keyLen =>
      exact @Facing.secret _ _ _ _ _ (.ardClientKey v keyLen) hfacing rfl rfl rfl (fun _ => rfl)
  | ardClientKey v keyLen => exact hfacing.lastSecret rfl rfl (by decide) (fun _ => rfl)
  | securityResult v => exact hfacing.securityResult (hversion v rfl) (hwidth rfl)
  | clientInit => exact hfacing.clientInit
  | serverInit => exact hfacing.serverInit
  | serverName length => exact hfacing.serverName hnamed

/-! ## A whole dialogue -/

theorem abortReason_of_giveUp {why : AbortReason} (h : (m.giveUp why).abortReason = none) :
    m.abortReason = none := by
  unfold giveUp at h
  split_ifs at h with hpreserve
  · exact h

theorem abortReason_endAuth (v : Ver) (sectype : ℕ) (m : HandshakeScrubber) :
    (m.endAuth v sectype).abortReason = m.abortReason := by
  have hknown := m.known_endAuth v sectype
  simp only [known, Prod.mk.injEq] at hknown
  exact hknown.2.1

theorem abortReason_of_beginAuth {v : Ver} {sectype : ℕ}
    (h : (m.beginAuth v sectype).abortReason = none) : m.abortReason = none := by
  unfold beginAuth at h
  dsimp only at h
  split_ifs at h with hvnc hard hother
  · exact h
  · exact h
  · have hbegun := @abortReason_of_giveUp _ (.unstrippable (authName sectype)) h
    exact hbegun
  · rwa [abortReason_endAuth] at h

/-- What has been given up stays given up. -/
theorem abortReason_of_resume {sent : Bytes}
    (h : (m.resume sent suspension).abortReason = none) : m.abortReason = none := by
  cases suspension with
  | serverHead => exact h
  | clientHead =>
      simp only [resume] at h
      cases hparse : parseVersion sent with
      | none =>
          rw [hparse] at h
          exact abortReason_of_giveUp h
      | some v =>
          rw [hparse] at h
          dsimp only at h
          split_ifs at h
          · exact h
          · exact h
  | numTypes v =>
      simp only [resume] at h
      split_ifs at h
      · exact h
      · exact h
  | types v count => exact h
  | sectype v =>
      have hrecord : (m.record [UInt8.ofNat AuthTypes.NONE]).abortReason = none :=
        abortReason_of_beginAuth h
      exact hrecord
  | auth v =>
      simp only [resume] at h
      split_ifs at h
      · exact h
      · have hrecord := abortReason_of_beginAuth h
        exact hrecord
  | challenge v => exact h
  | response v => exact (abortReason_endAuth _ _ _).symm.trans h
  | ardHead v => exact h
  | ardModulus v keyLen => exact h
  | ardServerKey v keyLen => exact h
  | ardCredentials v keyLen => exact h
  | ardClientKey v keyLen => exact (abortReason_endAuth _ _ _).symm.trans h
  | securityResult v =>
      simp only [resume] at h
      split_ifs at h
      · exact h
      · exact h
      · exact h
      · exact h
  | clientInit => exact h
  | serverInit =>
      simp only [resume] at h
      split_ifs at h
      · exact h
      · exact h
  | serverName length => exact h

theorem abortReason_of_advance {chunk : Bytes}
    (h : (grammar.advance m chunk).2.abortReason = none) : m.abortReason = none := by
  have hsend : (m.send chunk).abortReason = none := by
    rwa [← advance_snd]
  unfold send at hsend
  cases hgen : m.gen with
  | none =>
      rw [hgen] at hsend
      exact hsend
  | some suspension =>
      simp only [hgen] at hsend
      have hresumed := abortReason_of_resume hsend
      exact hresumed

/-- The states of the two scrubbers between two messages. -/
def Tracks (m n : HandshakeScrubber) : Prop :=
  m.Informed ∧ m.Mirrors n

/-- Before anything was said. -/
theorem tracks_init : Tracks {} {} := by
  refine ⟨?_, ⟨rfl, rfl, rfl, rfl, rfl, rfl, rfl⟩, ?_, Or.inl rfl⟩
  · exact Informed.of_unversioned (m := {}) rfl (fun _ => rfl) trivial
  · intro suspension hgen
    cases hgen
    rfl

/-- A dialogue that is not given up is read again from its recording. -/
theorem parallel_of_follows {final : HandshakeScrubber} {script : List (Turn Tap UInt8)}
    (h : Follows grammar {} script final) (hsound : final.abortReason = none) :
    ∃ plan n, said plan = script ∧ Parallel grammar Tracks {} {} plan final n := by
  refine (@Follows.parallel _ _ _ _ grammar Tracks (fun m => m.abortReason = none) ?_ ?_ _ _ _ h
    hsound).2 tracks_init
  · intro m chunk
    exact abortReason_of_advance
  · rintro m n m' turn ⟨hinformed, hmirrors⟩ hsound' hwant hadvance
    rcases hmirrors.step hinformed hwant hadvance hsound' with ⟨echo, n', hturn, hblock, hnext⟩
    refine ⟨echo, n', hturn, hblock, ?_, hnext⟩
    have hsend : m' = m.send turn.bytes := by
      rw [← advance_snd]
      exact (congrArg Prod.snd hadvance).symm
    rw [hsend]
    exact hinformed.send _

end HandshakeScrubber

end Vncdotool
