import Vncdotool.Capture.Rereading

/-!
# Conversation — a recording is a handshake of its own

A `Conversation` is a session or a refusal, with whatever is said after it.  Its recording, fed to a
fresh capture in an order in which no message comes before the one it answers, is recorded as it is,
and tells the capture what the conversation told the first one.

One kind of conversation is an exception.  Below 3.8 a `none` handshake has no place for a
SecurityResult, so the recording of a failed auth ends where a ClientInit would come: what the two
sides go on saying to each other could then be read as the rest of a handshake.
-/

namespace Vncdotool

open Wire Streaming

/-- A server that refuses: it offers no security types, or announces the invalid one. -/
structure Refusal where
  greeting : Bytes
  reply : Bytes
  version : Ver
  laterS2c : Bytes
  laterC2s : Bytes
  length_greeting : greeting.length = 12
  length_reply : reply.length = 12
  parse_reply : parseVersion reply = some version

namespace Refusal

variable (r : Refusal)

/-- What stands in the place of the security types. -/
def announcement : Bytes :=
  if ⟨3, 7⟩ ≤ r.version then packBE 1 0 else packBE 4 AuthTypes.INVALID

/-- Nothing was negotiated, so nothing is rewritten. -/
def script : List (Turn Tap UInt8) :=
  [⟨.s2c, r.greeting, r.greeting⟩, ⟨.c2s, r.reply, r.reply⟩,
    ⟨.s2c, r.announcement, r.announcement⟩]

/-- A reason that follows is not tracked. -/
def later : Tap → Bytes
  | .s2c => r.laterS2c
  | .c2s => r.laterC2s

end Refusal

/-- What a client and a server say to each other, if the scrubber can follow it. -/
inductive Conversation
  | session (s : Session)
  | refusal (r : Refusal)

/-- The chunks of both directions as they come, `fed` being what has come before: each is the next
part of its stream, and none comes before what it answers. -/
def CausalFeed (script : List (Turn Tap UInt8)) (later : Tap → Bytes) :
    (Tap → Bytes) → List (Tap × Bytes) → Prop
  | _, [] => True
  | fed, (tap, chunk) :: chunks =>
      (fed tap ++ chunk <+: tapBytes tap script ++ later tap ∧
        Answers script (Function.update fed tap (fed tap ++ chunk)) tap) ∧
      CausalFeed script later (Function.update fed tap (fed tap ++ chunk)) chunks

namespace Conversation

def script : Conversation → List (Turn Tap UInt8)
  | session s => s.script
  | refusal r => r.script

def later : Conversation → Tap → Bytes
  | session s => s.later
  | refusal r => r.later

/-- The conversation, cut anywhere and dropped anywhere. -/
def Causal (c : Conversation) (chunks : List (Tap × Bytes)) : Prop :=
  CausalFeed c.script c.later (fun _ => []) chunks

/-- The whole of what was recorded of the first chunks, message after message, cut anywhere. -/
def Replays (c : Conversation) (chunks chunks' : List (Tap × Bytes)) : Prop :=
  CausalFeed (c.script.map Turn.kept) c.later (fun _ => []) chunks' ∧
    ∀ tap, Session.seen (fun _ => []) chunks' tap =
      (({} : CaptureWriter).feedAll chunks).flush.stream tap

/-- After an auth that failed below 3.8 at most one side goes on talking. -/
def Quiet : Conversation → Prop
  | session s => ¬ s.granted → ¬ s.keepsResult → s.laterS2c = [] ∨ s.laterC2s = []
  | refusal _ => True

end Conversation

/-- The second capture has recorded what the first one did, and knows the same. -/
structure Rereads (first second : CaptureWriter) : Prop where
  stream : ∀ tap, second.stream tap = first.flush.stream tap
  flushed : ∀ tap, second.flush.stream tap = first.flush.stream tap
  abortReason : second.abortReason = none
  negotiatedVersion :
    second.scrubber.core.negotiatedVersion = first.scrubber.core.negotiatedVersion
  width : second.scrubber.core.width = first.scrubber.core.width
  height : second.scrubber.core.height = first.scrubber.core.height

/-! ## Causal feedings -/

section Feedings

variable {script script' : List (Turn Tap UInt8)} {later later' : Tap → Bytes}
  {final : HandshakeScrubber}

/-- The run: a causal feeding keeps the capture in step with the dialogue. -/
theorem CausalFeed.synced (hfinal : ∀ tap, HandshakeScrubber.grammar.Rests final tap (later tap)) :
    ∀ {chunks : List (Tap × Bytes)} {w : CaptureWriter} {fed : Tap → Bytes},
      Synced HandshakeScrubber.grammar {} final script w.scrubber fed w.stream →
      CausalFeed script later fed chunks →
        Synced HandshakeScrubber.grammar {} final script (w.feedAll chunks).scrubber
          (Session.seen fed chunks) (w.feedAll chunks).stream := by
  intro chunks
  induction chunks with
  | nil =>
      intro w fed h _
      exact h
  | cons chunk chunks ih =>
      intro w fed h hcausal
      rcases hcausal with ⟨⟨hwire, hans⟩, hcausal⟩
      exact ih (CaptureWriter.synced_feed h (hfinal chunk.1) hwire hans) hcausal

/-- What has been seen stays seen. -/
theorem fed_prefix_seen (tap : Tap) :
    ∀ {chunks : List (Tap × Bytes)} {fed : Tap → Bytes},
      fed tap <+: Session.seen fed chunks tap := by
  intro chunks
  induction chunks with
  | nil => exact fun {fed} => List.prefix_refl _
  | cons chunk chunks ih =>
      intro fed
      refine List.IsPrefix.trans ?_ ih
      by_cases htap : tap = chunk.1
      · subst htap
        rw [Function.update_self]
        exact List.prefix_append _ _
      · rw [Function.update_of_ne htap]

/-- A feeding is causal for another dialogue if its streams are, and the order of its messages. -/
theorem CausalFeed.transfer
    (hans : ∀ (fed : Tap → Bytes) (tap : Tap), Answers script fed tap → Answers script' fed tap) :
    ∀ {chunks : List (Tap × Bytes)} {fed : Tap → Bytes},
      (∀ tap, Session.seen fed chunks tap <+: tapBytes tap script' ++ later' tap) →
      CausalFeed script later fed chunks → CausalFeed script' later' fed chunks := by
  intro chunks
  induction chunks with
  | nil => exact fun _ _ => trivial
  | cons chunk chunks ih =>
      intro fed hwire hcausal
      refine ⟨⟨?_, hans _ _ hcausal.1.2⟩, ih hwire hcausal.2⟩
      refine List.IsPrefix.trans ?_ (hwire chunk.1)
      have hfed := @fed_prefix_seen chunk.1 chunks
        (Function.update fed chunk.1 (fed chunk.1 ++ chunk.2))
      rw [Function.update_self] at hfed
      exact hfed

/-- Before anything has been fed. -/
theorem synced_init (hfollows : Follows HandshakeScrubber.grammar {} script final)
    (hswitches : Switches none script) :
    Synced HandshakeScrubber.grammar {} final script ({} : CaptureWriter).scrubber (fun _ => [])
      ({} : CaptureWriter).stream := by
  have hstream : ({} : CaptureWriter).stream = fun _ => [] := by
    funext tap
    cases tap <;> rfl
  rw [hstream]
  exact Synced.init hfollows hswitches

/-- A capture that is fed the blocks `d` of a dialogue without empty blocks, and on no tap it still
reads anything more. -/
theorem settled_feedAll {d r : List (Turn Tap UInt8)} {through : Tap → Bytes}
    {chunks : List (Tap × Bytes)}
    (hfollows : Follows HandshakeScrubber.grammar {} (d ++ r) final)
    (hne : ∀ u ∈ d ++ r, u.bytes ≠ [])
    (hrests : ∀ tap, HandshakeScrubber.grammar.Rests final tap (later tap))
    (hcausal : CausalFeed (d ++ r) later (fun _ => []) chunks)
    (hseen : ∀ tap, Session.seen (fun _ => []) chunks tap = tapBytes tap d ++ through tap)
    (hthrough : ∀ tap, through tap = [] ∨ ∀ u ∈ r, u.tap ≠ tap) :
    Follows HandshakeScrubber.grammar {} d (({} : CaptureWriter).feedAll chunks).scrubber.core ∧
      ∀ tap, (({} : CaptureWriter).feedAll chunks).stream tap = tapRecorded tap d ++ through tap ∧
        (({} : CaptureWriter).feedAll chunks).flush.stream tap =
          tapRecorded tap d ++ through tap := by
  have hsynced := CausalFeed.synced hrests
    (synced_init hfollows (Switches.of_nonempty hne none)) hcausal
  have hflush := CaptureWriter.stream_flush hsynced
  rcases hsynced with ⟨done, rest, hsplit, hat⟩
  rcases hat.settled hsplit.symm hne hseen hthrough with ⟨rfl, hout⟩
  refine ⟨hat.reached, ?_⟩
  intro tap
  exact ⟨(hout tap).2, (hflush tap).trans (hout tap).2⟩

theorem CausalFeed.seen_prefix (tap : Tap) :
    ∀ {chunks : List (Tap × Bytes)} {fed : Tap → Bytes},
      fed tap <+: tapBytes tap script ++ later tap → CausalFeed script later fed chunks →
        Session.seen fed chunks tap <+: tapBytes tap script ++ later tap := by
  intro chunks
  induction chunks with
  | nil =>
      intro fed h _
      exact h
  | cons chunk chunks ih =>
      intro fed h hcausal
      refine ih ?_ hcausal.2
      by_cases htap : tap = chunk.1
      · subst htap
        rw [Function.update_self]
        exact hcausal.1.1
      · rw [Function.update_of_ne htap]
        exact h

/-- What the first capture has of a dialogue: the turns it has read, and behind them, on a tap it
has read to the end, what came later. -/
theorem recorded_feedAll {chunks : List (Tap × Bytes)}
    (hfollows : Follows HandshakeScrubber.grammar {} script final) (hfinal : final.want = none)
    (hswitches : Switches none script) (hcausal : CausalFeed script later (fun _ => []) chunks) :
    ∃ (done rest : List (Turn Tap UInt8)) (through : Tap → Bytes), script = done ++ rest ∧
      Follows HandshakeScrubber.grammar {} done
        (({} : CaptureWriter).feedAll chunks).scrubber.core ∧
      (∀ tap, (({} : CaptureWriter).feedAll chunks).flush.stream tap =
        tapRecorded tap done ++ through tap) ∧
      (∀ tap, through tap = [] ∨ ∀ u ∈ rest, u.tap ≠ tap) ∧
      ∀ tap, later tap = [] → through tap = [] := by
  have hsynced := CausalFeed.synced (fun _ => Coroutine.Rests.of_finished _ hfinal)
    (synced_init hfollows hswitches) hcausal
  have hflush := CaptureWriter.stream_flush hsynced
  rcases hsynced with ⟨done, rest, rfl, hat⟩
  have hlag : ∀ tap, ∃ through, (({} : CaptureWriter).feedAll chunks).stream tap =
      tapRecorded tap done ++ through ∧ (through = [] ∨ ∀ u ∈ rest, u.tap ≠ tap) ∧
        (later tap = [] → through = []) := by
    intro tap
    cases hat.lag tap with
    | asked turn script hrest htap hfed hout hshort =>
        exact ⟨[], by rw [hout, List.append_nil], Or.inl rfl, fun _ => rfl⟩
    | passing through hrest hfed hout hpending hlater =>
        refine ⟨through, hout, hlater, ?_⟩
        intro hnone
        rcases hlater with hnil | hother
        · exact hnil
        -- Nothing is said over the tap any more, and nothing comes later.
        · have hseen := CausalFeed.seen_prefix tap List.nil_prefix hcausal
          rw [hfed, hnone, tapBytes_append, tapBytes_eq_nil hother, List.append_nil,
            List.append_nil] at hseen
          have hle := hseen.length_le
          rw [List.length_append] at hle
          exact List.length_eq_zero_iff.1 (by omega)
  choose through hout hthrough hnone using hlag
  refine ⟨done, rest, through, rfl, hat.reached, ?_, hthrough, hnone⟩
  intro tap
  exact (hflush tap).trans (hout tap)

end Feedings

/-! ## Reading a recording again -/

section Rereading

variable {R : HandshakeScrubber → HandshakeScrubber → Prop} {final next : HandshakeScrubber}
  {plan a b : List (Echo Tap UInt8)} {later through : Tap → Bytes}
  {chunks chunks' : List (Tap × Bytes)}

/-- What the second capture knows, if it stands where the recording leads. -/
theorem rereads_of_known {first second : CaptureWriter} {m n : HandshakeScrubber}
    (hagrees : m.Agrees n) (hfirst : first.scrubber.core = m)
    (hsecond : second.scrubber.core.known = n.known)
    (hstream : ∀ tap, second.stream tap = first.flush.stream tap ∧
      second.flush.stream tap = first.flush.stream tap) : Rereads first second := by
  simp only [HandshakeScrubber.known, Prod.mk.injEq] at hsecond
  rcases hsecond with ⟨-, habort, hversion, hwidth, hheight⟩
  constructor
  · exact fun tap => (hstream tap).1
  · exact fun tap => (hstream tap).2
  · exact habort.trans hagrees.mirror_abortReason
  · rw [hversion, hfirst, hagrees.negotiatedVersion]
  · rw [hwidth, hfirst, hagrees.width]
  · rw [hheight, hfirst, hagrees.height]

/-- The second capture asks for nothing that it could mistake for the handshake. -/
theorem rereads_of_rests (hR : ∀ m n, R m n → m.Agrees n)
    (hparallel : Parallel HandshakeScrubber.grammar R {} {} (a ++ b) final next)
    (hreached : Follows HandshakeScrubber.grammar {} (said a)
      (({} : CaptureWriter).feedAll chunks).scrubber.core)
    (hstream : ∀ tap, (({} : CaptureWriter).feedAll chunks).flush.stream tap =
      tapRecorded tap (said a) ++ through tap)
    (hthrough : ∀ tap, through tap = [] ∨ ∀ u ∈ said b, u.tap ≠ tap)
    (hrests : ∀ tap, HandshakeScrubber.grammar.Rests next tap (through tap))
    (hreplay : CausalFeed ((said (a ++ b)).map Turn.kept) later (fun _ => []) chunks')
    (hseen : ∀ tap, Session.seen (fun _ => []) chunks' tap =
      (({} : CaptureWriter).feedAll chunks).flush.stream tap) :
    Rereads (({} : CaptureWriter).feedAll chunks) (({} : CaptureWriter).feedAll chunks') := by
  have hseen' (tap : Tap) : Session.seen (fun _ => []) chunks' tap =
      tapBytes tap (echoed a) ++ through tap := by
    rw [hseen, hstream, tapBytes_echoed]
  have hthrough' (tap : Tap) : through tap = [] ∨ ∀ u ∈ echoed b, u.tap ≠ tap :=
    (hthrough tap).imp_right echoed_ne_of_said_ne
  -- What the first capture has kept is fed to the second one in a causal order.
  have hcausal : CausalFeed (echoed a ++ echoed b) through (fun _ => []) chunks' := by
    refine CausalFeed.transfer ?_ ?_ hreplay
    · intro fed tap hans
      rw [← echoed_append]
      exact hans.echoed
    · intro tap
      rw [hseen', tapBytes_append]
      rcases hthrough' tap with hnil | hother
      · rw [hnil, List.append_nil, List.append_nil]
        exact List.prefix_append _ _
      · rw [tapBytes_eq_nil hother, List.append_nil]
  have hfollows := hparallel.echoed
  rw [echoed_append] at hfollows
  have hne : ∀ u ∈ echoed a ++ echoed b, u.bytes ≠ [] := by
    rw [← echoed_append]
    exact fun u hmem => nonempty_of_mem_echoed hmem
  rcases settled_feedAll hfollows hne hrests hcausal hseen' hthrough' with ⟨hend, hout⟩
  rcases hparallel.split with ⟨m, n, hbefore, -⟩
  refine rereads_of_known (hR m n hbefore.related) (hreached.deterministic hbefore.said) ?_ ?_
  · rw [hend.deterministic hbefore.echoed]
  · intro tap
    rw [hstream, (hout tap).1, (hout tap).2, tapRecorded_echoed]
    exact ⟨rfl, rfl⟩

/-- Of what is left nothing was recorded, when all of a tap has been said and the last turn of that
tap was the last one recorded. -/
theorem unrecorded_of_last {done rest pre post : List (Turn Tap UInt8)} {u : Turn Tap UInt8}
    (hsplit : done ++ rest = pre ++ u :: post) (hpost : ∀ v ∈ post, v.recorded = [])
    (hrest : ∀ v ∈ rest, v.tap ≠ u.tap) : ∀ v ∈ rest, v.recorded = [] := by
  rcases List.append_eq_append_iff.1 hsplit with ⟨w, rfl, hw⟩ | ⟨w, rfl, hw⟩
  · exact absurd rfl (hrest u (by rw [hw]; simp))
  · cases w with
    | nil => exact absurd rfl (hrest u (by rw [← List.nil_append rest, ← hw]; simp))
    | cons v w =>
        cases hw
        intro v hv
        exact hpost v (List.mem_append_right _ hv)

/-- The second capture takes the first byte the client sent after a failed auth for a ClientInit,
and then waits for a server that says nothing more. -/
theorem rereads_of_clientInit {pre post : List (Turn Tap UInt8)} {u : Turn Tap UInt8} {x : UInt8}
    {xs : Bytes} (hR : ∀ m n, R m n → m.Agrees n)
    (hparallel : Parallel HandshakeScrubber.grammar R {} {} (a ++ b) final next)
    (hreached : Follows HandshakeScrubber.grammar {} (said a)
      (({} : CaptureWriter).feedAll chunks).scrubber.core)
    (hstream : ∀ tap, (({} : CaptureWriter).feedAll chunks).flush.stream tap =
      tapRecorded tap (said a) ++ through tap)
    (hthrough : ∀ tap, through tap = [] ∨ ∀ u ∈ said b, u.tap ≠ tap)
    (hnext : next.gen = some .clientInit)
    (hlast : said (a ++ b) = pre ++ u :: post) (hu : u.tap = .c2s)
    (hpost : ∀ v ∈ post, v.recorded = []) (hclient : through .c2s = x :: xs)
    (hserver : through .s2c = [])
    (hreplay : CausalFeed ((said (a ++ b)).map Turn.kept) later (fun _ => []) chunks')
    (hseen : ∀ tap, Session.seen (fun _ => []) chunks' tap =
      (({} : CaptureWriter).feedAll chunks).flush.stream tap) :
    Rereads (({} : CaptureWriter).feedAll chunks) (({} : CaptureWriter).feedAll chunks') := by
  have hrest : ∀ v ∈ said b, v.tap ≠ u.tap := by
    rw [hu]
    refine (hthrough .c2s).resolve_left ?_
    rw [hclient]
    exact List.cons_ne_nil _ _
  have hsaid := hlast
  rw [said_append] at hsaid
  have hnothing : echoed b = [] := echoed_eq_nil (unrecorded_of_last hsaid hpost hrest)
  have hwhole (tap : Tap) : tapRecorded tap (said (a ++ b)) = tapBytes tap (echoed a) := by
    rw [← tapBytes_echoed, echoed_append, hnothing, List.append_nil]
  -- The recorded dialogue, with the byte that is taken for a ClientInit.
  let init : Turn Tap UInt8 := ⟨.c2s, [x], [x]⟩
  let through' : Tap → Bytes := fun tap => if tap = .c2s then xs else []
  have hagrees := hR final next hparallel.related
  have hat : Session.At next (some .clientInit) false :=
    ⟨hnext, hagrees.mirror_inAuth, hagrees.mirror_stripping⟩
  have hsend : next.send [x] = HandshakeScrubber.suspend .serverInit
      { next with recording := none } := hat.send_eq [x]
  have hfollows : Follows HandshakeScrubber.grammar {} (echoed a ++ [init] ++ [])
      (next.send [x]) := by
    have hinit : Follows HandshakeScrubber.grammar next [init] (next.send [x]) := by
      refine hat.follows rfl ?_ (Follows.nil _)
      rw [hsend]
      rfl
    have hechoed := hparallel.echoed
    rw [echoed_append, hnothing, List.append_nil] at hechoed
    rw [List.append_nil]
    exact hechoed.append hinit
  have hne : ∀ v ∈ echoed a ++ [init] ++ [], v.bytes ≠ [] := by
    intro v hmem
    rw [List.append_nil] at hmem
    rcases List.mem_append.1 hmem with hmem | hmem
    · exact nonempty_of_mem_echoed hmem
    · rw [List.mem_singleton.1 hmem]
      exact List.cons_ne_nil _ _
  have hrests (tap : Tap) : HandshakeScrubber.grammar.Rests (next.send [x]) tap (through' tap) := by
    intro n hwant
    rw [hsend] at hwant
    cases hwant
    exact ⟨by decide, rfl⟩
  have hseen' (tap : Tap) : Session.seen (fun _ => []) chunks' tap =
      tapBytes tap (echoed a ++ [init]) ++ through' tap := by
    rw [hseen, hstream, tapBytes_append, tapBytes_echoed]
    cases tap with
    | s2c =>
        rw [hserver]
        simp [init, through']
    | c2s =>
        rw [hclient]
        simp [init, through']
  have hcausal : CausalFeed (echoed a ++ [init] ++ []) through' (fun _ => []) chunks' := by
    refine CausalFeed.transfer ?_ ?_ hreplay
    · intro fed tap hans
      rw [List.append_nil]
      have hechoed := hans.echoed
      rw [echoed_append, hnothing, List.append_nil] at hechoed
      refine hechoed.snoc ?_
      intro htap hahead t'
      rw [← hwhole] at hahead ⊢
      exact hans.whole hlast (hu.trans htap) hpost hahead t'
    · intro tap
      rw [hseen', List.append_nil]
  rcases settled_feedAll hfollows hne hrests hcausal hseen' (fun _ => Or.inr nofun) with
    ⟨hend, hout⟩
  rcases hparallel.split with ⟨m, n, hbefore, hbehind⟩
  have hstays : n = next := by
    have hempty := hbehind.echoed
    rw [hnothing] at hempty
    cases hempty
    rfl
  refine rereads_of_known (hR m n hbefore.related) (hreached.deterministic hbefore.said) ?_ ?_
  · have hsecond : (({} : CaptureWriter).feedAll chunks').scrubber.core = next.send [x] := by
      rw [List.append_nil] at hfollows
      exact hend.deterministic hfollows
    rw [hsecond, hsend, hstays]
    rfl
  · intro tap
    have hrecorded : tapRecorded tap (echoed a ++ [init]) ++ through' tap =
        (({} : CaptureWriter).feedAll chunks).flush.stream tap := by
      rw [hstream, tapRecorded_append, tapRecorded_echoed]
      cases tap with
      | s2c =>
          rw [hserver]
          simp [init, through']
      | c2s =>
          rw [hclient]
          simp [init, through']
    rw [(hout tap).1, (hout tap).2, hrecorded]
    exact ⟨rfl, rfl⟩

end Rereading

/-! ## Refusals -/

namespace Refusal

/-- One scrubber beside itself. -/
def Beside (m n : HandshakeScrubber) : Prop :=
  n = m ∧ m.Agrees n

theorem Beside.verbatim {m final : HandshakeScrubber} {suspension : Suspension} {tap : Tap}
    {block : Bytes} {plan : List (Echo Tap UInt8)} (h : Session.At m (some suspension) false)
    (hbeside : Beside m m) (hblock : block ≠ [])
    (hwant : suspension.want = (tap, block.length)) (hrecording : (m.send block).recording = none)
    (hrest : Parallel HandshakeScrubber.grammar Beside (m.send block) (m.send block) plan final
      final) :
    Parallel HandshakeScrubber.grammar Beside m m
      (Echo.verbatim ⟨tap, block, block⟩ hblock :: plan) final final := by
  have hstep : Follows HandshakeScrubber.grammar m [⟨tap, block, block⟩] (m.send block) := by
    refine h.follows hwant ?_ (Follows.nil _)
    rw [hrecording]
    rfl
  have hasked : HandshakeScrubber.grammar.want m = some (tap, block.length) ∧
      HandshakeScrubber.grammar.advance m block = (block, m.send block) := by
    cases hstep with
    | cons hask hadvance hnil =>
        cases hnil
        exact ⟨hask, hadvance⟩
  exact Parallel.cons hbeside hasked.1 hasked.2 hstep hrest

theorem announcement_ne_nil (r : Refusal) : r.announcement ≠ [] := by
  unfold announcement
  split_ifs
  · exact Session.ne_nil_of_length (length_packBE 1 0) (by decide)
  · exact Session.ne_nil_of_length (length_packBE 4 _) (by decide)

theorem nonempty_script (r : Refusal) : ∀ u ∈ r.script, u.bytes ≠ [] := by
  intro u hmem
  simp only [script, List.mem_cons, List.not_mem_nil, or_false] at hmem
  rcases hmem with rfl | rfl | rfl
  · exact Session.ne_nil_of_length r.length_greeting (by decide)
  · exact Session.ne_nil_of_length r.length_reply (by decide)
  · exact r.announcement_ne_nil

/-- A refusal is its own recording. -/
theorem parallel (r : Refusal) :
    ∃ plan final, said plan = r.script ∧ final.gen = none ∧
      Parallel HandshakeScrubber.grammar Beside {} {} plan final final := by
  have hbeside (m : HandshakeScrubber) (hstripping : m.preserveAuth = false)
      (hinAuth : m.inAuth = false) (habort : m.abortReason = none) : Beside m m :=
    ⟨rfl, hstripping, hstripping, hinAuth, habort, rfl, rfl, rfl⟩
  have hgreeting : Session.At {} (some .serverHead) false := ⟨rfl, rfl, rfl⟩
  have hreply : Session.At (HandshakeScrubber.send {} r.greeting) (some .clientHead) false :=
    ⟨rfl, rfl, rfl⟩
  have hsend : (HandshakeScrubber.send {} r.greeting).send r.reply =
      HandshakeScrubber.suspend
        (if (⟨3, 7⟩ : Ver) ≤ r.version then .numTypes r.version else .auth r.version)
        { HandshakeScrubber.send {} r.greeting with
          recording := none, negotiatedVersion := some r.version } := by
    rw [hreply.send_eq, HandshakeScrubber.resume, r.parse_reply]
    dsimp only
    split_ifs <;> rfl
  have hafter : Session.At ((HandshakeScrubber.send {} r.greeting).send r.reply)
      (some (if (⟨3, 7⟩ : Ver) ≤ r.version then .numTypes r.version else .auth r.version))
      false := by
    rw [hsend]
    exact ⟨rfl, rfl, rfl⟩
  have hlast : ((HandshakeScrubber.send {} r.greeting).send r.reply).send r.announcement =
      HandshakeScrubber.finish { HandshakeScrubber.send {} r.greeting with
        gen := some (if (⟨3, 7⟩ : Ver) ≤ r.version then .numTypes r.version else .auth r.version)
        recording := none, negotiatedVersion := some r.version } := by
    rw [hafter.send_eq, hsend, announcement]
    by_cases hlist : (⟨3, 7⟩ : Ver) ≤ r.version
    · have hcount : field (packBE 1 0) 0 1 = 0 := by decide
      simp [hlist, HandshakeScrubber.resume, hcount, HandshakeScrubber.suspend]
    · have hword : unpackBE (packBE 4 AuthTypes.INVALID) = AuthTypes.INVALID := by decide
      simp [hlist, HandshakeScrubber.resume, hword, HandshakeScrubber.suspend]
  have hgreetingNe : r.greeting ≠ [] := Session.ne_nil_of_length r.length_greeting (by decide)
  have hreplyNe : r.reply ≠ [] := Session.ne_nil_of_length r.length_reply (by decide)
  -- The three messages, from the last one.
  have hend : Beside (((HandshakeScrubber.send {} r.greeting).send r.reply).send r.announcement)
      (((HandshakeScrubber.send {} r.greeting).send r.reply).send r.announcement) := by
    rw [hlast]
    exact hbeside _ rfl rfl rfl
  have hthird := @Beside.verbatim _ _ _ .s2c _ [] hafter
    (hbeside _ hafter.stripping hafter.inAuth_eq (by rw [hsend]; rfl)) r.announcement_ne_nil
    (by
      unfold announcement
      split_ifs
      · rw [length_packBE]
        rfl
      · rw [length_packBE]
        rfl)
    (by rw [hlast]; rfl) (Parallel.nil hend)
  have hsecond := @Beside.verbatim _ _ _ .c2s _ _ hreply (hbeside _ rfl rfl rfl) hreplyNe
    (by rw [r.length_reply]; rfl) (by rw [hsend]; rfl) hthird
  have hfirst := @Beside.verbatim _ _ _ .s2c _ _ hgreeting (hbeside _ rfl rfl rfl) hgreetingNe
    (by rw [r.length_greeting]; rfl) rfl hsecond
  refine ⟨_, _, rfl, ?_, hfirst⟩
  rw [hlast]
  rfl

end Refusal

/-! ## The recording of a conversation -/

namespace Session

variable {s : Session} {final : HandshakeScrubber}

/-- The client's last message before a SecurityResult that is dropped. -/
theorem last_of_failed (hfailed : ¬ s.granted) (hbelow : ¬ s.keepsResult) :
    ∃ pre u post, s.script = pre ++ u :: post ∧ u.tap = .c2s ∧ ∀ v ∈ post, v.recorded = [] := by
  have hresult : s.hasResult := by
    by_contra hnone
    exact hfailed fun hresult => absurd hresult hnone
  have hinit : s.initTurns = [] := if_neg hfailed
  have hdropped : s.resultTurns = [⟨.s2c, packBE 4 s.result, []⟩] := by
    rw [resultTurns, if_pos hresult, if_neg hbelow]
  have hexchange : ∃ front u, s.exchange.turns = front ++ [u] ∧ u.tap = .c2s := by
    cases hexchange : s.exchange with
    | none =>
        -- There is no SecurityResult to fail.
        have hversion : s.version < ⟨3, 8⟩ := not_not.1 (mt Ver.not_lt.1 hbelow)
        exact absurd ⟨hversion, by rw [hexchange]; rfl⟩ hresult
    | vnc challenge response _ _ => exact ⟨[⟨.s2c, challenge, []⟩], _, rfl, rfl⟩
    | ard generator modulus serverKey credentials clientKey keyLen _ _ _ _ _ _ =>
        exact ⟨[⟨.s2c, generator ++ packBE 2 keyLen, []⟩, ⟨.s2c, modulus, []⟩,
          ⟨.s2c, serverKey, []⟩, ⟨.c2s, credentials, []⟩], _, rfl, rfl⟩
  rcases hexchange with ⟨front, u, hturns, hu⟩
  refine ⟨s.opening ++ front, u, [⟨.s2c, packBE 4 s.result, []⟩], ?_, hu, ?_⟩
  · rw [script_eq, beforeInit_eq, hinit, hdropped, hturns]
    simp
  · intro v hv
    rw [List.mem_singleton.1 hv]

/-- Only an auth that failed below 3.8 is read as a handshake that goes on. -/
theorem failed_of_failedBelow (h : Follows HandshakeScrubber.grammar {} s.script final)
    (hfailed : final.FailedBelow) : ¬ s.granted ∧ ¬ s.keepsResult := by
  rcases hfailed with ⟨-, hwidth, v, hbelow, hversion⟩
  constructor
  · intro hgranted
    rw [width_script h hgranted] at hwidth
    cases hwidth
  · intro hkeeps
    have hsame : s.version = v :=
      Option.some.inj ((settled_script h).2.symm.trans hversion)
    exact Ver.not_lt.2 hkeeps (hsame ▸ hbelow)

end Session

namespace Conversation

theorem split_plan {plan : List (Echo Tap UInt8)} {done rest : List (Turn Tap UInt8)}
    (h : said plan = done ++ rest) : ∃ a b, plan = a ++ b ∧ said a = done ∧ said b = rest :=
  List.map_eq_append_iff.1 h

/-- Whatever was cut off and wherever, what was recorded of a conversation is recorded again as it
is, however it is cut now. -/
theorem reread_exact (c : Conversation) (chunks chunks' : List (Tap × Bytes))
    (hcausal : c.Causal chunks) (hquiet : c.Quiet) (hreplays : c.Replays chunks chunks') :
    Rereads (({} : CaptureWriter).feedAll chunks) (({} : CaptureWriter).feedAll chunks') := by
  rcases hreplays with ⟨hreplay, hseen⟩
  cases c with
  | refusal r =>
      rcases r.parallel with ⟨plan, final, hplan, hgen, hparallel⟩
      have hwant : final.want = none := by rw [HandshakeScrubber.want, hgen]; rfl
      have hswitches : Switches none r.script := by
        rw [← hplan]
        have hbytes : ∀ u ∈ said plan, u.bytes ≠ [] := by
          rw [hplan]
          exact r.nonempty_script
        exact Switches.of_nonempty hbytes none
      have hfollows := hparallel.said
      rw [hplan] at hfollows
      rcases recorded_feedAll hfollows hwant hswitches hcausal with
        ⟨done, rest, through, hsplit, hreached, hstream, hthrough, -⟩
      rcases split_plan (hplan.trans hsplit) with ⟨a, b, rfl, rfl, rfl⟩
      have hreplay' : CausalFeed ((said (a ++ b)).map Turn.kept) r.later (fun _ => []) chunks' := by
        rw [hplan]
        exact hreplay
      have hR : ∀ m n : HandshakeScrubber, Refusal.Beside m n → m.Agrees n := by
        rintro m n ⟨rfl, hagrees⟩
        exact hagrees
      exact rereads_of_rests hR hparallel hreached hstream hthrough
        (fun _ => Coroutine.Rests.of_finished _ hwant) hreplay' hseen
  | session s =>
      rcases Session.follows_script s with ⟨final, hfollows, hfinal⟩
      have hwant : final.want = none := by rw [HandshakeScrubber.want, hfinal.gen_eq]; rfl
      rcases HandshakeScrubber.parallel_of_follows hfollows (Session.settled_script hfollows).1 with
        ⟨plan, next, hplan, hparallel⟩
      rcases recorded_feedAll hfollows hwant (Session.switches_script s) hcausal with
        ⟨done, rest, through, hsplit, hreached, hstream, hthrough, hnone⟩
      rcases split_plan (hplan.trans hsplit) with ⟨a, b, rfl, rfl, rfl⟩
      have hR : ∀ m n : HandshakeScrubber, m.Tracks n → m.Agrees n := fun _ _ h => h.2.agrees
      have hreplay' : CausalFeed ((said (a ++ b)).map Turn.kept) s.later (fun _ => []) chunks' := by
        rw [hplan]
        exact hreplay
      have hasIs (hrests : ∀ tap, HandshakeScrubber.grammar.Rests next tap (through tap)) :=
        rereads_of_rests hR hparallel hreached hstream hthrough hrests hreplay' hseen
      rcases hparallel.related.2.place with hplace | ⟨hfailed, hplace⟩
      · rw [hfinal.gen_eq] at hplace
        refine hasIs fun _ => Coroutine.Rests.of_finished _ ?_
        exact congrArg (Option.map Suspension.want) hplace
      -- The second capture waits for a ClientInit.
      · have hclientInit : next.want = some (.c2s, 1) :=
          congrArg (Option.map Suspension.want) hplace
        have hrests (hsilent : through .c2s = []) (tap : Tap) :
            HandshakeScrubber.grammar.Rests next tap (through tap) := by
          intro n hask
          have hboth : some (Tap.c2s, 1) = some (tap, n) := hclientInit.symm.trans hask
          cases hboth
          exact ⟨Nat.one_pos, hsilent⟩
        rcases Session.failed_of_failedBelow hfollows hfailed with ⟨hdenied, hbelow⟩
        rcases hquiet hdenied hbelow with hserver | hclient
        · cases hthroughC2s : through .c2s with
          | nil => exact hasIs (hrests hthroughC2s)
          | cons x xs =>
              rcases Session.last_of_failed hdenied hbelow with ⟨pre, u, post, hlast, hu, hpost⟩
              exact rereads_of_clientInit hR hparallel hreached hstream hthrough hplace
                (hplan.trans hlast) hu hpost hthroughC2s (hnone .s2c hserver) hreplay' hseen
        · exact hasIs (hrests (hnone .c2s hclient))

instance decidableCausalFeed (script : List (Turn Tap UInt8)) (later : Tap → Bytes) :
    ∀ (fed : Tap → Bytes) (chunks : List (Tap × Bytes)),
      Decidable (CausalFeed script later fed chunks)
  | _, [] => isTrue trivial
  | fed, (tap, chunk) :: chunks =>
      have := decidableCausalFeed script later
        (Function.update fed tap (fed tap ++ chunk)) chunks
      inferInstanceAs (Decidable ((_ ∧ _) ∧ _))

/-- The recording of the sample session, cut across its messages again. -/
def sampleRecording : List (Tap × Bytes) :=
  [(.s2c, versionLine ⟨3, 8⟩), (.c2s, (versionLine ⟨3, 8⟩).take 7),
    (.c2s, (versionLine ⟨3, 8⟩).drop 7), (.s2c, [1]), (.s2c, [1]), (.c2s, [1]),
    (.s2c, [0, 0, 0]), (.s2c, [0]), (.c2s, [1]), (.s2c, List.replicate 23 0),
    (.s2c, [2, 104]), (.s2c, [105, 2]), (.c2s, [4, 5])]

theorem reread_exact_sample :
    Rereads (({} : CaptureWriter).feedAll Session.sampleChunks)
      (({} : CaptureWriter).feedAll sampleRecording) := by
  have hcausal : (session Session.sample).Causal Session.sampleChunks := by
    unfold Causal
    decide +kernel
  have hquiet : (session Session.sample).Quiet := by
    intro hdenied
    exact absurd (by decide) hdenied
  have hreplay : CausalFeed (Session.sample.script.map Turn.kept) Session.sample.later
      (fun _ => []) sampleRecording := by
    decide +kernel
  have hseen : ∀ tap, Session.seen (fun _ => []) sampleRecording tap =
      (({} : CaptureWriter).feedAll Session.sampleChunks).flush.stream tap := by
    intro tap
    cases tap with
    | s2c => decide +kernel
    | c2s => decide +kernel
  exact reread_exact _ _ _ hcausal hquiet ⟨hreplay, hseen⟩

theorem refusal_lt : 1 < 256 ^ 4 := by decide

theorem length_reply37 : (versionLine ⟨3, 7⟩).length = 12 := rfl

theorem parse_reply37 : parseVersion (versionLine ⟨3, 7⟩) = some ⟨3, 7⟩ := by decide

theorem length_zeroInit : (List.replicate 24 (0 : UInt8)).length = 24 := List.length_replicate

theorem length_noName : ([] : Bytes).length = field (List.replicate 24 (0 : UInt8)) 20 4 := by decide

theorem oneType_ne_nil : ([2] : Bytes) ≠ [] := List.cons_ne_nil 2 []

theorem length_oneType : ([2] : Bytes).length < 256 := by decide

/-- A 3.7 session whose auth failed, with both sides going on. -/
def talkative : Session where
  greeting := versionLine ⟨3, 7⟩
  reply := versionLine ⟨3, 7⟩
  version := ⟨3, 7⟩
  types := [2]
  exchange := Session.sample.exchange
  result := 1
  shared := 1
  serverInit := List.replicate 24 0
  name := []
  laterS2c := List.replicate 24 0
  laterC2s := [0]
  length_greeting := length_reply37
  length_reply := length_reply37
  parse_reply := parse_reply37
  types_ne_nil := oneType_ne_nil
  length_types := length_oneType
  result_lt := refusal_lt
  length_serverInit := length_zeroInit
  length_name := length_noName

def talkativeChunks : List (Tap × Bytes) :=
  [(.s2c, versionLine ⟨3, 7⟩), (.c2s, versionLine ⟨3, 7⟩), (.s2c, [1, 2]), (.c2s, [2]),
    (.s2c, List.replicate 16 7), (.c2s, List.replicate 16 9), (.s2c, [0, 0, 0, 1]), (.c2s, [0]),
    (.s2c, List.replicate 24 0)]

def talkativeRecording : List (Tap × Bytes) :=
  [(.s2c, versionLine ⟨3, 7⟩), (.c2s, versionLine ⟨3, 7⟩), (.s2c, [1, 1]), (.c2s, [1]),
    (.c2s, [0]), (.s2c, List.replicate 24 0)]

/-- The client's next byte is taken for a ClientInit, and what the server says for a ServerInit: the
second capture has a screen of no size, where the first one had none. -/
theorem not_reread_talkative :
    ¬ ∀ (c : Conversation) (chunks chunks' : List (Tap × Bytes)), c.Causal chunks →
      c.Replays chunks chunks' →
        Rereads (({} : CaptureWriter).feedAll chunks) (({} : CaptureWriter).feedAll chunks') := by
  intro hall
  have hcausal : (session talkative).Causal talkativeChunks := by
    unfold Causal
    decide +kernel
  have hreplay : CausalFeed (talkative.script.map Turn.kept) talkative.later
      (fun _ => []) talkativeRecording := by
    decide +kernel
  have hseen : ∀ tap, Session.seen (fun _ => []) talkativeRecording tap =
      (({} : CaptureWriter).feedAll talkativeChunks).flush.stream tap := by
    intro tap
    cases tap with
    | s2c => decide +kernel
    | c2s => decide +kernel
  have hsame := (hall _ _ _ hcausal ⟨hreplay, hseen⟩).width
  have hsecond :
      (({} : CaptureWriter).feedAll talkativeRecording).scrubber.core.width = some 0 := by
    decide +kernel
  have hfirst : (({} : CaptureWriter).feedAll talkativeChunks).scrubber.core.width = none := by
    decide +kernel
  rw [hsecond, hfirst] at hsame
  cases hsame

end Conversation

end Vncdotool
