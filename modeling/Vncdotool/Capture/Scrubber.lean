import Vncdotool.Const
import Vncdotool.Version
import Vncdotool.Streaming.Taps

/-!
# Scrubber — `HandshakeScrubber` and `CaptureWriter`

`_run` is a generator: a `Suspension` is the `yield` it is suspended at, with the local variables
that are live there.  `HandshakeScrubber.grammar` is the scrubber as a coroutine in the sense of
`Streaming/Taps.lean`, whose `feed` is the source's `_feed`: one call of `advance` is one turn of
its loop, and a step records what it left in `_recording`, or else the default computed before it
ran.
-/

namespace Vncdotool

open Wire Streaming

/-! ## The handshake grammar -/

/-- The two directions of a proxied connection. -/
inductive Tap
  | s2c
  | c2s
  deriving DecidableEq, Repr

/-- `ARD_CREDENTIALS_LEN`. -/
def ardCredentialsLen : ℕ := 128

/-- Why a capture is given up; both texts end in the advice to use `--capture-raw-unsafe`. -/
inductive AbortReason
  /-- `could not parse the client's version reply {client_head!r}; …` -/
  | unparsedReply (clientHead : Bytes)
  /-- `the session negotiated {unstrippable_auth}, whose exchange vncdotool cannot follow; …` -/
  | unstrippable (auth : String)
  deriving DecidableEq, Repr

/-- The `yield`s of `_run`. -/
inductive Suspension
  | serverHead
  | clientHead
  | numTypes (negotiated : Ver)
  | types (negotiated : Ver) (numTypes : ℕ)
  | sectype (negotiated : Ver)
  | auth (negotiated : Ver)
  | challenge (negotiated : Ver)
  | response (negotiated : Ver)
  | ardHead (negotiated : Ver)
  | ardModulus (negotiated : Ver) (keyLen : ℕ)
  | ardServerKey (negotiated : Ver) (keyLen : ℕ)
  | ardCredentials (negotiated : Ver) (keyLen : ℕ)
  | ardClientKey (negotiated : Ver) (keyLen : ℕ)
  | securityResult (negotiated : Ver)
  | clientInit
  | serverInit
  | serverName (nameLen : ℕ)
  deriving DecidableEq, Repr

namespace Suspension

/-- The `_Want` that is yielded. -/
def want : Suspension → Tap × ℕ
  | serverHead => (.s2c, 12)
  | clientHead => (.c2s, 12)
  | numTypes _ => (.s2c, 1)
  | types _ n => (.s2c, n)
  | sectype _ => (.c2s, 1)
  | auth _ => (.s2c, 4)
  | challenge _ => (.s2c, 16)
  | response _ => (.c2s, 16)
  | ardHead _ => (.s2c, 4)
  | ardModulus _ keyLen => (.s2c, keyLen)
  | ardServerKey _ keyLen => (.s2c, keyLen)
  | ardCredentials _ _ => (.c2s, ardCredentialsLen)
  | ardClientKey _ keyLen => (.c2s, keyLen)
  | securityResult _ => (.s2c, 4)
  | clientInit => (.c2s, 1)
  | serverInit => (.s2c, 24)
  | serverName n => (.s2c, n)

/-- How many `yield`s are still to come at most, this one included. -/
def rank : Suspension → ℕ
  | serverHead => 14
  | clientHead => 13
  | numTypes _ => 12
  | types _ _ => 11
  | sectype _ => 10
  | auth _ => 10
  | ardHead _ => 9
  | ardModulus _ _ => 8
  | ardServerKey _ _ => 7
  | challenge _ => 6
  | ardCredentials _ _ => 6
  | response _ => 5
  | ardClientKey _ _ => 5
  | securityResult _ => 4
  | clientInit => 3
  | serverInit => 2
  | serverName _ => 1

end Suspension

/-- The attributes of a `HandshakeScrubber`, its taps' buffers apart.  `_want` is what the
suspension wants. -/
structure HandshakeScrubber where
  preserveAuth : Bool := false
  protocolVersion : Option String := none
  negotiatedVersion : Option Ver := none
  securityTypes : List ℕ := []
  securityType : Option ℕ := none
  unstrippableAuth : Option String := none
  abortReason : Option AbortReason := none
  width : Option ℕ := none
  height : Option ℕ := none
  gen : Option Suspension := some .serverHead
  recording : Option Bytes := none
  inAuth : Bool := false
  deriving DecidableEq, Repr

namespace HandshakeScrubber

/-- `self._record(data)`. -/
def record (data : Bytes) (s : HandshakeScrubber) : HandshakeScrubber :=
  { s with recording := some data }

/-- `yield`. -/
def suspend (at_ : Suspension) (s : HandshakeScrubber) : HandshakeScrubber :=
  { s with gen := some at_ }

/-- `return`. -/
def finish (s : HandshakeScrubber) : HandshakeScrubber :=
  { s with gen := none }

/-- `self._give_up(why)`. -/
def giveUp (why : AbortReason) (s : HandshakeScrubber) : HandshakeScrubber :=
  if s.preserveAuth then s else { s with abortReason := some why }

/-- `head.decode("ascii", "replace").rstrip("\n")`. -/
def decodeVersion (head : Bytes) : String :=
  let text := head.map fun b => if b < 128 then Char.ofNat b.toNat else Char.ofNat 0xFFFD
  String.ofList (text.reverse.dropWhile (· = Char.ofNat 10)).reverse

/-- `f"{name.lower().replace('_', '-')}({int(sectype)})"`. -/
def authName (sectype : ℕ) : String :=
  (AuthTypes.lookupName sectype).toLower.replace "_" "-" ++ "(" ++ Nat.repr sectype ++ ")"

/-- The end of the auth exchange, on to the SecurityResult where there is one. -/
def endAuth (negotiated : Ver) (sectype : ℕ) (s : HandshakeScrubber) : HandshakeScrubber :=
  let s := { s with inAuth := false }
  if ¬ (negotiated < ⟨3, 8⟩ ∧ sectype = AuthTypes.NONE) then
    s.suspend (.securityResult negotiated)
  else
    s.suspend .clientInit

/-- From `self.security_type = sectype` on. -/
def beginAuth (negotiated : Ver) (sectype : ℕ) (s : HandshakeScrubber) : HandshakeScrubber :=
  let s := { s with securityType := some sectype, inAuth := true }
  if sectype = AuthTypes.VNC_AUTHENTICATION then
    s.suspend (.challenge negotiated)
  else if sectype = AuthTypes.DIFFIE_HELLMAN then
    s.suspend (.ardHead negotiated)
  else if sectype ≠ AuthTypes.NONE ∧ sectype ≠ AuthTypes.INVALID then
    let s := { s with unstrippableAuth := some (authName sectype) }
    (s.giveUp (.unstrippable (authName sectype))).finish
  else
    s.endAuth negotiated sectype

/-- `_run` from one `yield` to the next, `sent` being what the first one returns. -/
def resume (sent : Bytes) (s : HandshakeScrubber) : Suspension → HandshakeScrubber
  | .serverHead => { s with protocolVersion := some (decodeVersion sent) }.suspend .clientHead
  -- The reply of the client decides, not the greeting of the server.
  | .clientHead =>
      match parseVersion sent with
      | none => (s.giveUp (.unparsedReply sent)).finish
      | some negotiated =>
          let s := { s with negotiatedVersion := some negotiated }
          if ⟨3, 7⟩ ≤ negotiated then s.suspend (.numTypes negotiated)
          else s.suspend (.auth negotiated)
  -- A refusal is recorded as it comes; the count of a list is written with the list.
  | .numTypes negotiated =>
      let numTypes := field sent 0 1
      if numTypes = 0 then s.finish
      else (s.record []).suspend (.types negotiated numTypes)
  -- What is recorded offers one type of security, which needs no credentials.
  | .types negotiated _ =>
      let s := { s with securityTypes := sent.map UInt8.toNat }
      (s.record [1, UInt8.ofNat AuthTypes.NONE]).suspend (.sectype negotiated)
  | .sectype negotiated =>
      (s.record [UInt8.ofNat AuthTypes.NONE]).beginAuth negotiated (field sent 0 1)
  | .auth negotiated =>
      let sectype := unpackBE sent
      if sectype = AuthTypes.INVALID then s.finish
      else
        let s := s.record (packBE 4 AuthTypes.NONE)
        { s with securityTypes := [sectype] }.beginAuth negotiated sectype
  -- In an authentication nothing is recorded, unless it is preserved.
  | .challenge negotiated => s.suspend (.response negotiated)
  | .response negotiated => s.endAuth negotiated AuthTypes.VNC_AUTHENTICATION
  | .ardHead negotiated => s.suspend (.ardModulus negotiated (field sent 2 2))
  | .ardModulus negotiated keyLen => s.suspend (.ardServerKey negotiated keyLen)
  | .ardServerKey negotiated keyLen => s.suspend (.ardCredentials negotiated keyLen)
  | .ardCredentials negotiated keyLen => s.suspend (.ardClientKey negotiated keyLen)
  | .ardClientKey negotiated _ => s.endAuth negotiated AuthTypes.DIFFIE_HELLMAN
  -- Before 3.8 a recording without authentication has no place for a SecurityResult.
  | .securityResult negotiated =>
      let result := field sent 0 4
      if result ≠ 0 then
        if negotiated < ⟨3, 8⟩ then (s.record []).finish else s.finish
      else
        (s.record (if ⟨3, 8⟩ ≤ negotiated then packBE 4 0 else [])).suspend .clientInit
  | .clientInit => s.suspend .serverInit
  | .serverInit =>
      let s := { s with width := some (field sent 0 2), height := some (field sent 2 2) }
      let nameLen := field sent 20 4
      if nameLen ≠ 0 then s.suspend (.serverName nameLen) else s.finish
  | .serverName _ => s.finish

/-- `self._recording = None`, then `self._advance(chunk)`. -/
def send (s : HandshakeScrubber) (chunk : Bytes) : HandshakeScrubber :=
  match s.gen with
  | none => { s with recording := none }
  | some suspension => { s with recording := none }.resume chunk suspension

/-- One turn of the loop of `_feed`: what the chunk records, and the scrubber after it. -/
def advance (s : HandshakeScrubber) (chunk : Bytes) : Bytes × HandshakeScrubber :=
  -- A step that forgets to record inside the auth exchange must drop the chunk, not leak it.
  let failClosedDefault := if s.inAuth && !s.preserveAuth then [] else chunk
  let s' := s.send chunk
  if s.preserveAuth then (chunk, s') else (s'.recording.getD failClosedDefault, s')

/-! ## `preserve_auth` never changes -/

@[simp] theorem preserveAuth_record (data : Bytes) (s : HandshakeScrubber) :
    (s.record data).preserveAuth = s.preserveAuth := rfl

@[simp] theorem preserveAuth_suspend (at_ : Suspension) (s : HandshakeScrubber) :
    (s.suspend at_).preserveAuth = s.preserveAuth := rfl

@[simp] theorem preserveAuth_finish (s : HandshakeScrubber) :
    s.finish.preserveAuth = s.preserveAuth := rfl

@[simp] theorem preserveAuth_giveUp (why : AbortReason) (s : HandshakeScrubber) :
    (s.giveUp why).preserveAuth = s.preserveAuth := by
  unfold giveUp
  split_ifs <;> rfl

@[simp] theorem preserveAuth_endAuth (negotiated : Ver) (sectype : ℕ) (s : HandshakeScrubber) :
    (s.endAuth negotiated sectype).preserveAuth = s.preserveAuth := by
  unfold endAuth
  split_ifs <;> rfl

@[simp] theorem preserveAuth_beginAuth (negotiated : Ver) (sectype : ℕ) (s : HandshakeScrubber) :
    (s.beginAuth negotiated sectype).preserveAuth = s.preserveAuth := by
  unfold beginAuth
  split_ifs
  · rfl
  · rfl
  · exact preserveAuth_giveUp _ _
  · exact preserveAuth_endAuth _ _ _

theorem preserveAuth_resume (sent : Bytes) (s : HandshakeScrubber) (suspension : Suspension) :
    (s.resume sent suspension).preserveAuth = s.preserveAuth := by
  cases suspension with
  | clientHead =>
      simp only [resume]
      cases parseVersion sent with
      | none => simp
      | some negotiated => dsimp only; split_ifs <;> rfl
  | numTypes negotiated => simp only [resume]; split_ifs <;> rfl
  | auth negotiated => simp only [resume]; split_ifs <;> simp
  | securityResult negotiated => simp only [resume]; split_ifs <;> rfl
  | serverInit => simp only [resume]; split_ifs <;> rfl
  | sectype negotiated => exact preserveAuth_beginAuth _ _ _
  | response negotiated => exact preserveAuth_endAuth _ _ _
  | ardClientKey negotiated keyLen => exact preserveAuth_endAuth _ _ _
  | serverHead => rfl
  | types negotiated n => rfl
  | challenge negotiated => rfl
  | ardHead negotiated => rfl
  | ardModulus negotiated keyLen => rfl
  | ardServerKey negotiated keyLen => rfl
  | ardCredentials negotiated keyLen => rfl
  | clientInit => rfl
  | serverName n => rfl

theorem preserveAuth_send (s : HandshakeScrubber) (chunk : Bytes) :
    (s.send chunk).preserveAuth = s.preserveAuth := by
  unfold send
  cases s.gen with
  | none => rfl
  | some suspension => exact preserveAuth_resume _ _ _

/-! ## What a handshake is asked for -/

/-- Whether to preserve the auth, whether to abort, and what the capture's `meta` has of a session. -/
def known (s : HandshakeScrubber) :
    Bool × Option AbortReason × Option Ver × Option ℕ × Option ℕ :=
  (s.preserveAuth, s.abortReason, s.negotiatedVersion, s.width, s.height)

theorem known_endAuth (s : HandshakeScrubber) (negotiated : Ver) (sectype : ℕ) :
    (s.endAuth negotiated sectype).known = s.known := by
  unfold endAuth
  split_ifs <;> rfl

/-- From the auth exchange on nothing is given up, and the version has been settled. -/
theorem settled_resume {suspension : Suspension} (hrank : suspension.rank < 10)
    (s : HandshakeScrubber) (sent : Bytes) :
    (s.resume sent suspension).abortReason = s.abortReason ∧
      (s.resume sent suspension).negotiatedVersion = s.negotiatedVersion := by
  have hend (negotiated : Ver) (sectype : ℕ) :
      (s.endAuth negotiated sectype).abortReason = s.abortReason ∧
        (s.endAuth negotiated sectype).negotiatedVersion = s.negotiatedVersion := by
    have hknown := s.known_endAuth negotiated sectype
    simp only [known, Prod.mk.injEq] at hknown
    exact ⟨hknown.2.1, hknown.2.2.1⟩
  cases suspension with
  | serverHead => exact absurd hrank (by decide)
  | clientHead => exact absurd hrank (by decide)
  | numTypes negotiated => exact absurd hrank (by simp [Suspension.rank])
  | types negotiated n => exact absurd hrank (by simp [Suspension.rank])
  | sectype negotiated => exact absurd hrank (by simp [Suspension.rank])
  | auth negotiated => exact absurd hrank (by simp [Suspension.rank])
  | challenge negotiated => exact ⟨rfl, rfl⟩
  | response negotiated => exact hend _ _
  | ardHead negotiated => exact ⟨rfl, rfl⟩
  | ardModulus negotiated keyLen => exact ⟨rfl, rfl⟩
  | ardServerKey negotiated keyLen => exact ⟨rfl, rfl⟩
  | ardCredentials negotiated keyLen => exact ⟨rfl, rfl⟩
  | ardClientKey negotiated keyLen => exact hend _ _
  | securityResult negotiated =>
      simp only [resume]
      split_ifs
      · exact ⟨rfl, rfl⟩
      · exact ⟨rfl, rfl⟩
      · exact ⟨rfl, rfl⟩
      · exact ⟨rfl, rfl⟩
  | clientInit => exact ⟨rfl, rfl⟩
  | serverInit =>
      simp only [resume]
      split_ifs
      · exact ⟨rfl, rfl⟩
      · exact ⟨rfl, rfl⟩
  | serverName n => exact ⟨rfl, rfl⟩

/-! ## The scrubber as a coroutine -/

@[simp] theorem advance_snd (s : HandshakeScrubber) (chunk : Bytes) :
    (s.advance chunk).2 = s.send chunk := by
  unfold advance
  split_ifs <;> rfl

def want (s : HandshakeScrubber) : Option (Tap × ℕ) :=
  s.gen.map Suspension.want

def rank (s : HandshakeScrubber) : ℕ :=
  match s.gen with
  | none => 0
  | some suspension => suspension.rank

@[simp] theorem rank_finish (s : HandshakeScrubber) : s.finish.rank = 0 := rfl

@[simp] theorem rank_suspend (s : HandshakeScrubber) (at_ : Suspension) :
    (s.suspend at_).rank = at_.rank := rfl

theorem rank_endAuth (s : HandshakeScrubber) (negotiated : Ver) (sectype : ℕ) :
    (s.endAuth negotiated sectype).rank ≤ 4 := by
  unfold endAuth
  split_ifs <;> simp [Suspension.rank]

theorem rank_beginAuth (s : HandshakeScrubber) (negotiated : Ver) (sectype : ℕ) :
    (s.beginAuth negotiated sectype).rank ≤ 9 := by
  unfold beginAuth
  split_ifs
  · simp [Suspension.rank]
  · simp [Suspension.rank]
  · simp
  · exact (rank_endAuth _ _ _).trans (by decide)

/-- Every step of the generator gets nearer its end. -/
theorem rank_resume (s : HandshakeScrubber) (sent : Bytes) (suspension : Suspension) :
    (s.resume sent suspension).rank < suspension.rank := by
  cases suspension with
  | serverHead => simp [resume, Suspension.rank]
  | clientHead =>
      simp only [resume]
      cases parseVersion sent with
      | none => simp [Suspension.rank]
      | some negotiated => dsimp only; split_ifs <;> simp [Suspension.rank]
  | numTypes negotiated => simp only [resume]; split_ifs <;> simp [Suspension.rank]
  | types negotiated n => simp [resume, Suspension.rank]
  | sectype negotiated => exact Nat.lt_succ_of_le (rank_beginAuth _ _ _)
  | auth negotiated =>
      simp only [resume]
      split_ifs
      · simp [Suspension.rank]
      · exact Nat.lt_succ_of_le (rank_beginAuth _ _ _)
  | challenge negotiated => simp [resume, Suspension.rank]
  | response negotiated => exact Nat.lt_succ_of_le (rank_endAuth _ _ _)
  | ardHead negotiated => simp [resume, Suspension.rank]
  | ardModulus negotiated keyLen => simp [resume, Suspension.rank]
  | ardServerKey negotiated keyLen => simp [resume, Suspension.rank]
  | ardCredentials negotiated keyLen => simp [resume, Suspension.rank]
  | ardClientKey negotiated keyLen => exact Nat.lt_succ_of_le (rank_endAuth _ _ _)
  | securityResult negotiated => simp only [resume]; split_ifs <;> simp [Suspension.rank]
  | clientInit => simp [resume, Suspension.rank]
  | serverInit => simp only [resume]; split_ifs <;> simp [Suspension.rank]
  | serverName n => simp [resume, Suspension.rank]

theorem rank_advance (s : HandshakeScrubber) (w : Tap × ℕ) (chunk : Bytes)
    (hwant : s.want = some w) : (s.advance chunk).2.rank < s.rank := by
  rcases Option.map_eq_some_iff.1 hwant with ⟨suspension, hgen, _⟩
  have hrank : s.rank = suspension.rank := by simp [rank, hgen]
  rw [advance_snd, send, hgen, hrank]
  exact rank_resume _ chunk suspension

def grammar : Coroutine Tap HandshakeScrubber UInt8 where
  want := want
  advance := advance
  rank := rank
  rank_advance := rank_advance

theorem preserveAuth_advance (s : HandshakeScrubber) (block : Bytes) :
    (grammar.advance s block).2.preserveAuth = s.preserveAuth :=
  (congrArg preserveAuth (advance_snd _ _)).trans (preserveAuth_send _ _)

/-- What has been settled stays so along a dialogue. -/
theorem settled_of_follows {m final : HandshakeScrubber} {script : List (Turn Tap UInt8)}
    (h : Follows grammar m script final) (hrank : m.rank < 10) :
    final.abortReason = m.abortReason ∧ final.negotiatedVersion = m.negotiatedVersion := by
  induction h with
  | nil m => exact ⟨rfl, rfl⟩
  | cons hwant hadvance _ ih =>
      rename_i m m' final turn script _
      have hsend : m' = m.send turn.bytes := by
        rw [← advance_snd]
        exact (congrArg Prod.snd hadvance).symm
      have hlower : m'.rank < m.rank := by
        have hlt := rank_advance m _ turn.bytes hwant
        rwa [advance_snd, ← hsend] at hlt
      have hstep : m'.abortReason = m.abortReason ∧
          m'.negotiatedVersion = m.negotiatedVersion := by
        rcases Option.map_eq_some_iff.1 hwant with ⟨suspension, hgen, -⟩
        have hplace : suspension.rank < 10 := by
          rw [rank, hgen] at hrank
          exact hrank
        rw [hsend, send, hgen]
        exact settled_resume hplace _ _
      rcases ih (by omega) with ⟨habort, hversion⟩
      exact ⟨habort.trans hstep.1, hversion.trans hstep.2⟩

end HandshakeScrubber

/-- A `HandshakeScrubber` with the `pending` of its two taps. -/
abbrev TappedScrubber := Tapped Tap HandshakeScrubber UInt8

namespace TappedScrubber

/-- `HandshakeScrubber(preserve_auth)`. -/
def init (preserveAuth : Bool) : TappedScrubber :=
  { core := { preserveAuth := preserveAuth }, pending := fun _ => [] }

/-- `_feed`. -/
def feed (s : TappedScrubber) (tap : Tap) (data : Bytes) : Bytes × TappedScrubber :=
  HandshakeScrubber.grammar.feed s tap data

/-- `_flush`: what is held back is dropped while a handshake is still being rewritten. -/
def flush (s : TappedScrubber) (tap : Tap) : Bytes × TappedScrubber :=
  let midRewrite := s.core.gen.isSome && !s.core.preserveAuth
  let out := if midRewrite && !(s.pending tap).isEmpty then [] else s.pending tap
  (out, { s with pending := Function.update s.pending tap [] })

end TappedScrubber

/-! ## The capture -/

/-- The scrubber and the two recorded streams of a `CaptureWriter`. -/
structure CaptureWriter where
  scrubber : TappedScrubber := TappedScrubber.init false
  s2c : Bytes := []
  c2s : Bytes := []

namespace CaptureWriter

def feedS2c (w : CaptureWriter) (data : Bytes) : CaptureWriter :=
  let (out, scrubber) := w.scrubber.feed .s2c data
  { w with scrubber := scrubber, s2c := w.s2c ++ out }

def feedC2s (w : CaptureWriter) (data : Bytes) : CaptureWriter :=
  let (out, scrubber) := w.scrubber.feed .c2s data
  { w with scrubber := scrubber, c2s := w.c2s ++ out }

def feed (w : CaptureWriter) : Tap → Bytes → CaptureWriter
  | .s2c, data => w.feedS2c data
  | .c2s, data => w.feedC2s data

def flush (w : CaptureWriter) : CaptureWriter :=
  let (s2c, scrubber) := w.scrubber.flush .s2c
  let (c2s, scrubber) := scrubber.flush .c2s
  { scrubber := scrubber, s2c := w.s2c ++ s2c, c2s := w.c2s ++ c2s }

@[simp] theorem flush_s2c (w : CaptureWriter) :
    w.flush.s2c = w.s2c ++ (w.scrubber.flush .s2c).1 := rfl

/-- Letting go of one direction leaves what the other one holds back. -/
@[simp] theorem flush_c2s (w : CaptureWriter) :
    w.flush.c2s = w.c2s ++ (w.scrubber.flush .c2s).1 := by
  simp [flush, TappedScrubber.flush]

def abortReason (w : CaptureWriter) : Option AbortReason :=
  w.scrubber.core.abortReason

/-- The recorded stream of a tap. -/
def stream (w : CaptureWriter) : Tap → Bytes
  | .s2c => w.s2c
  | .c2s => w.c2s

/-- The chunks of a connection, in the order they were seen. -/
def feedAll (w : CaptureWriter) (chunks : List (Tap × Bytes)) : CaptureWriter :=
  chunks.foldl (fun w chunk => w.feed chunk.1 chunk.2) w

/-- Whether the handshake is preserved is settled from the start. -/
theorem preserveAuth_feedAll (w : CaptureWriter) (chunks : List (Tap × Bytes)) :
    (w.feedAll chunks).scrubber.core.preserveAuth = w.scrubber.core.preserveAuth := by
  induction chunks generalizing w with
  | nil => rfl
  | cons chunk chunks ih =>
      refine (ih (w.feed chunk.1 chunk.2)).trans ?_
      rcases chunk with ⟨tap, data⟩
      cases tap with
      | s2c => exact HandshakeScrubber.grammar.feed_invariant HandshakeScrubber.preserveAuth_advance _ _ _
      | c2s => exact HandshakeScrubber.grammar.feed_invariant HandshakeScrubber.preserveAuth_advance _ _ _

/-! ## A capture in step with a dialogue -/

section Synced

variable {w : CaptureWriter} {final : HandshakeScrubber} {script : List (Turn Tap UInt8)}
  {fed later : Tap → Bytes} {tap : Tap} {chunk : Bytes}

theorem synced_feed
    (h : Synced HandshakeScrubber.grammar {} final script w.scrubber fed w.stream)
    (hfinal : HandshakeScrubber.grammar.Rests final tap (later tap))
    (hwire : fed tap ++ chunk <+: tapBytes tap script ++ later tap)
    (hans : Answers script (Function.update fed tap (fed tap ++ chunk)) tap) :
    Synced HandshakeScrubber.grammar {} final script (w.feed tap chunk).scrubber
      (Function.update fed tap (fed tap ++ chunk)) (w.feed tap chunk).stream := by
  have hfeed := Synced.feed h hfinal hwire hans
  have hstream : (w.feed tap chunk).stream = Function.update w.stream tap
      (w.stream tap ++ (w.scrubber.feed tap chunk).1) := by
    funext tap'
    cases tap <;> cases tap' <;> rfl
  have hscrubber : (w.feed tap chunk).scrubber = (w.scrubber.feed tap chunk).2 := by
    cases tap <;> rfl
  rw [hstream, hscrubber]
  exact hfeed

/-- At the end of a connection nothing that was held back is let out. -/
theorem stream_flush
    (h : Synced HandshakeScrubber.grammar {} final script w.scrubber fed w.stream) (tap : Tap) :
    w.flush.stream tap = w.stream tap := by
  have hstripping : w.scrubber.core.preserveAuth = false := by
    rcases h with ⟨done, rest, hscript, hsynced⟩
    exact (hsynced.reached.invariant HandshakeScrubber.preserveAuth_advance).trans rfl
  have hnothing : (w.scrubber.flush tap).1 = [] := by
    cases hgen : w.scrubber.core.gen with
    | none =>
        have hpending : w.scrubber.pending tap = [] :=
          Synced.pending_eq_nil h (by
            simp [HandshakeScrubber.grammar, HandshakeScrubber.want, hgen])
        simp [TappedScrubber.flush, hgen, hpending]
    | some suspension => simp [TappedScrubber.flush, hgen, hstripping]
  cases tap with
  | s2c => simp [CaptureWriter.stream, hnothing]
  | c2s => simp [CaptureWriter.stream, hnothing]

end Synced

end CaptureWriter

end Vncdotool
