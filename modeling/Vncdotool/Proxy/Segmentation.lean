import Vncdotool.Proxy.Stream
import Vncdotool.Version

/-!
# Segmentation — which client streams may be cut anywhere

A short message leaves `RFBServer` with a threshold one above the length it waits for, and no later
message arms it anew; the list of a SetEncodings is read without waiting for it.  So a stream may
be cut anywhere exactly when it holds no list, and when what is left at its end keeps even the
highest of these thresholds reachable for its last message.
-/

namespace Vncdotool

open Wire Streaming StateTransition

/-- A message without a list is as long as its fixed part. -/
theorem Served.length_eq_typeLen {m : Bytes} (hm : Served m)
    (hfixed : MsgC2S.lookup (field m 0 1) = some .setEncoding → field m 2 2 = 0) :
    m.length = typeLen (field m 0 1) := by
  rcases hm.complete.cases with ⟨kind, hkind, -, -, hencodings, hlength⟩
  rw [typeLen_of_lookup hkind]
  by_cases hencoding : kind = .setEncoding
  · subst hencoding
    have hlen := hencodings rfl
    rw [hfixed hkind] at hlen
    exact hlen
  · exact (hlength hencoding (fun h => hm.not_cutText (h ▸ hkind))
      (fun h => hm.not_qemu (h ▸ hkind))).symm

theorem Served.one_lt_length {m : Bytes} (hm : Served m) : 1 < m.length := by
  rcases hm.complete.cases with ⟨kind, hkind, hle, -⟩
  cases kind with
  | clientCutText => exact absurd hkind hm.not_cutText
  | qemuClientMessage => exact absurd hkind hm.not_qemu
  | setPixelFormat => exact lt_of_lt_of_le (show 1 < 20 by decide) hle
  | setEncoding => exact lt_of_lt_of_le (show 1 < 4 by decide) hle
  | framebufferUpdateRequest => exact lt_of_lt_of_le (show 1 < 10 by decide) hle
  | keyEvent => exact lt_of_lt_of_le (show 1 < 8 by decide) hle
  | pointerEvent => exact lt_of_lt_of_le (show 1 < 6 by decide) hle

namespace Parser

variable {pw : Bool} {t : ℕ} {b m x r s : Bytes} {ms done todo : List Bytes} {calls : List Call}
  {p q : Parser Unit}

/-! ## The condition -/

/-- Every complete message is fixed, and shorter than the last of them with what follows it. -/
def Cuttable (passwordRequired : Bool) (b : Bytes) : Prop :=
  ∀ s, protocolBytes passwordRequired b = some s → ∀ m ∈ (messages s).1,
    (MsgC2S.lookup (field m 0 1) = some .setEncoding → field m 2 2 = 0) ∧
    ∀ last ∈ (messages s).1.getLast?,
      typeLen (field m 0 1) < last.length + (messages s).2.length

/-- However the stream is cut, the calls and what is left are those of the single delivery. -/
def SameUncut (passwordRequired : Bool) (b : Bytes) (t : Parser Unit) : Prop :=
  ∀ chunks : List Bytes, chunks.flatten = b →
    ∃ q, (init passwordRequired ()).ReceivesAll {} chunks q ∧
      q.server.calls = t.server.calls ∧ q.server.buffer = t.server.buffer

/-! ## Served messages, one after the other -/

theorem Parsed.served (h : Parsed s ms r) : ∀ m ∈ ms, Served m := by
  induction h with
  | tail r h => exact nofun
  | message m s ms r hm _ ih =>
      intro m' hmem
      rcases List.mem_cons.1 hmem with rfl | hmem
      · exact hm
      · exact ih m' hmem

theorem Parsed.eq_flatten (h : Parsed s ms r) : s = ms.flatten ++ r := by
  induction h with
  | tail r h => rfl
  | message m s ms r hm _ ih => simp [← ih]

theorem Parsed.tail_short (h : Parsed s ms r) :
    r = [] ∨ (1 ≤ r.length ∧ r.length < typeLen (field r 0 1)) := by
  induction h with
  | tail r h => exact h
  | message m s ms r hm _ ih => exact ih

/-- With the threshold at one, complete messages are handled at once. -/
theorem reaches_messages (hdone : ∀ m ∈ done, Served m) : ∀ {calls : List Call},
    Reaches (iterate {}) (behind pw 1 (done.flatten ++ x) calls)
      (behind pw 1 x (calls ++ done.map callOf)) := by
  induction done with
  | nil =>
      intro calls
      rw [List.flatten_nil, List.map_nil, List.nil_append, List.append_nil]
      exact Relation.ReflTransGen.refl
  | cons m done ih =>
      intro calls
      have hm := hdone m (by simp)
      have hready : 1 ≤ (m ++ (done.flatten ++ x)).length := by
        rw [List.length_append]
        exact le_add_right hm.length_pos
      have hstep := @iterate_message pw 1 m (done.flatten ++ x) calls hm hready
      have hrest := @ih (fun m' hmem => hdone m' (by simp [hmem])) (calls ++ [callOf m])
      have hcalls : calls ++ [callOf m] ++ done.map callOf = calls ++ (m :: done).map callOf := by
        simp
      rw [hcalls] at hrest
      rw [List.flatten_cons, List.append_assoc]
      exact Relation.ReflTransGen.head hstep hrest

/-! ## The handshake, however it is cut -/

/-- The parser after the handshake has seen `b`. -/
def Greeted (pw : Bool) (b : Bytes) (s : RFBServer Unit) : Prop :=
  HaltsAt RFBServer.greetStep ((init pw ()).server.deliver b) s ∧
    RFBServer.GreetedAt pw (protocolBytes pw b) s

theorem exists_greeted (pw : Bool) (b : Bytes) : ∃ s, Greeted pw b s :=
  @RFBServer.greets_version b.length ((init pw ()).server.deliver b) rfl le_rfl

theorem greeted_init : Greeted pw [] (init pw ()).server :=
  ⟨HaltsAt.refl rfl, nofun, Nat.succ_pos 11⟩

theorem Greeted.deliver {a b : Bytes} {s s' : RFBServer Unit} (h : Greeted pw a s)
    (h' : Greeted pw (a ++ b) s') :
    HaltsAt RFBServer.greetStep (s.deliver b) s' := by
  rcases (RFBServer.greetLoop.haltsAt_append_iff).1 h'.1 with ⟨m, hm, hs'⟩
  exact h.1.unique hm ▸ hs'

/-- The loop goes through the handshake first. -/
theorem Greeted.reaches {a : Bytes} {s : RFBServer Unit} (h : Greeted pw a s)
    {a' : Bytes} {s' : RFBServer Unit} (h' : Greeted pw (a ++ a') s') :
    Reaches (iterate {}) (enter { server := s } a') { server := s' } :=
  RFBServer.reaches_of_greetStep (h.deliver h').1

theorem Greeted.rest_none {s : RFBServer Unit} (h : Greeted pw b s)
    (hnone : protocolBytes pw b = none) : iterate {} { server := s } = none := by
  refine iterate_eq_none_iff.2 fun hready => ?_
  have hwaits := h.2
  rw [hnone] at hwaits
  exact absurd hready.2 (Nat.not_le.2 hwaits.2)

theorem Greeted.behind {s : RFBServer Unit} {rest : Bytes} (h : Greeted pw b s)
    (hsome : protocolBytes pw b = some rest) :
    ({ server := s } : Parser Unit) = Parser.behind pw 1 rest s.calls := by
  have hgreeted := h.2
  rw [hsome] at hgreeted
  exact hgreeted

/-- Behind the handshake, what is delivered is left to the messages. -/
theorem Greeted.append {a : Bytes} {s s' : RFBServer Unit} {rest : Bytes} (h : Greeted pw a s)
    (hsome : protocolBytes pw a = some rest) (h' : Greeted pw (a ++ b) s') :
    ({ server := s' } : Parser Unit) = Parser.behind pw 1 (rest ++ b) s.calls := by
  have hserver : s = (Parser.behind pw 1 rest s.calls).server :=
    congrArg Parser.server (h.behind hsome)
  have hrest : RFBServer.greetStep (s.deliver b) = none := by
    rw [hserver]
    rfl
  have hhalt := (h.deliver h').eq_of_none hrest
  rw [hhalt, hserver]
  rfl

/-! ## Fixed messages, however they are cut -/

/-- Messages without a list, and a tail too short to be one. -/
structure Fixed (ms : List Bytes) (r : Bytes) : Prop where
  served : ∀ m ∈ ms, Served m
  length_eq : ∀ m ∈ ms, m.length = typeLen (field m 0 1)
  tail : r = [] ∨ (1 ≤ r.length ∧ r.length < typeLen (field r 0 1))

/-- The parser has handled the messages `done` of a stream that will turn out to begin with
`ms`.  Its threshold is one or what a short message left, and does not matter once nothing is to do. -/
def Midway (pw : Bool) (calls : List Call) (ms : List Bytes) (arrived : Bytes)
    (p : Parser Unit) : Prop :=
  ∃ done todo buffer t, ms = done ++ todo ∧ arrived = done.flatten ++ buffer ∧
    p = behind pw t buffer (calls ++ done.map callOf) ∧
    1 ≤ t ∧ (t = 1 ∨ (∃ m ∈ ms, t = typeLen (field m 0 1) + 1) ∨ todo = [])

theorem head_eq {x' : Bytes} (h : b ++ x = m ++ x') (hb : 1 ≤ b.length) (hm : 1 ≤ m.length) :
    field b 0 1 = field m 0 1 := by
  have hleft : field (b ++ x) 0 1 = field b 0 1 := field_append_left b x hb
  have hright : field (m ++ x') 0 1 = field m 0 1 := field_append_left m x' hm
  rw [← hleft, h, hright]

theorem Midway.deliver {arrived : Bytes} (h : Midway pw calls ms arrived p) (x : Bytes) :
    Midway pw calls ms (arrived ++ x) (p.enter x) := by
  rcases h with ⟨done, todo, buffer, t, hsplit, harrived, rfl, hpos, hthreshold⟩
  refine ⟨done, todo, buffer ++ x, t, hsplit, ?_, rfl, hpos, hthreshold⟩
  rw [harrived, List.append_assoc]

/-- A turn of the loop stays midway, and never meets a ClientCutText. -/
theorem Midway.next {arrived y : Bytes} (hfixed : Fixed ms r)
    (hall : arrived ++ y = ms.flatten ++ r) (h : Midway pw calls ms arrived p) (hready : p.Ready) :
    ¬ p.AtCutText ∧ ∃ p', iterate {} p = some p' ∧ Midway pw calls ms arrived p' := by
  rcases h with ⟨done, todo, buffer, t, rfl, rfl, rfl, hpos, hthreshold⟩
  have hle := ready_behind_iff.1 hready
  have hbuffer : 1 ≤ buffer.length := hpos.trans hle
  have hrest : buffer ++ y = todo.flatten ++ r := by
    rw [List.append_assoc, List.flatten_append, List.append_assoc] at hall
    exact List.append_cancel_left hall
  cases todo with
  | nil =>
      -- What is left of the stream is the tail, and only a part of it has arrived.
      rw [List.flatten_nil, List.nil_append] at hrest
      have hlen : buffer.length ≤ r.length := by
        rw [← hrest, List.length_append]
        exact Nat.le_add_right _ _
      rcases hfixed.tail with rfl | ⟨hr, htail⟩
      · rw [List.length_nil] at hlen
        omega
      · have hhead : field buffer 0 1 = field r 0 1 :=
          head_eq (hrest.trans (List.append_nil r).symm) hbuffer hr
        have hshort : buffer.length < typeLen (field buffer 0 1) := by
          rw [hhead]
          exact lt_of_le_of_lt hlen htail
        refine ⟨?_, _, iterate_short hle hshort, ?_⟩
        · rintro ⟨-, -, hkind⟩
          have hzero : typeLen (field buffer 0 1) = 0 :=
            RFBServer.typeLen_eq_zero_iff.2 (Or.inr hkind)
          omega
        · exact ⟨done, [], buffer, _, rfl, rfl, rfl, Nat.le_add_left 1 _, Or.inr (Or.inr rfl)⟩
  | cons m todo =>
      have hmem : m ∈ done ++ m :: todo := by simp
      have hm := hfixed.served m hmem
      rw [List.flatten_cons, List.append_assoc] at hrest
      have hhead : field buffer 0 1 = field m 0 1 := head_eq hrest hbuffer hm.length_pos
      have hnot : ¬ (behind pw t buffer (calls ++ done.map callOf)).AtCutText := by
        rintro ⟨-, -, hkind⟩
        have hkind' : MsgC2S.lookup (field buffer 0 1) = some .clientCutText := hkind
        rw [hhead] at hkind'
        exact hm.not_cutText hkind'
      refine ⟨hnot, ?_⟩
      by_cases hcomplete : m.length ≤ buffer.length
      · have hleads : m <+: buffer :=
          List.prefix_of_prefix_length_le ⟨_, hrest.symm⟩ ⟨y, rfl⟩ hcomplete
        rcases hleads with ⟨z, rfl⟩
        refine ⟨_, iterate_message hm hle, done ++ [m], todo, z, t, ?_, ?_, ?_, hpos, ?_⟩
        · simp
        · simp
        · simp
        · rcases hthreshold with rfl | hleft | hnil
          · exact Or.inl rfl
          · exact Or.inr (Or.inl hleft)
          · cases hnil
      · have hshort : buffer.length < typeLen (field buffer 0 1) := by
          rw [hhead, ← hfixed.length_eq m hmem]
          exact Nat.not_le.1 hcomplete
        refine ⟨_, iterate_short hle hshort, done, m :: todo, buffer, _, rfl, rfl, rfl, ?_, ?_⟩
        · exact Nat.le_add_left 1 _
        · exact Or.inr (Or.inl ⟨m, hmem, by rw [hhead]⟩)

/-- A delivery comes to an end midway. -/
theorem Midway.halts {arrived y : Bytes} (hfixed : Fixed ms r)
    (hall : arrived ++ y = ms.flatten ++ r) (h : Midway pw calls ms arrived p) :
    ∃ q, HaltsAt (iterate {}) p q ∧ Midway pw calls ms arrived q := by
  have hinv : ∀ q, Reaches (iterate {}) p q → Midway pw calls ms arrived q := by
    intro q hreach
    refine @reaches_invariant _ (iterate {}) (Midway pw calls ms arrived) ?_ _ _ hreach h
    intro a b hstep ha
    rcases (ha.next hfixed hall (iterate_eq_some_iff.1 hstep).1).2 with ⟨b', hb', hmid⟩
    have hsame : b' = b := Option.some.inj (hb'.symm.trans hstep)
    exact hsame ▸ hmid
  have harmed : p.Armed := by
    rcases h with ⟨done, todo, buffer, t, -, -, rfl, hpos, -⟩
    exact hpos
  have hterminates : Terminates (iterate {}) p :=
    terminates_of_noCutText harmed fun q hreach hcut =>
      ((hinv q hreach).next hfixed hall hcut.1).1 hcut
  rcases hterminates with ⟨q, hq⟩
  exact ⟨q, hq, hinv q hq.1⟩

/-- A parser at rest midway has nothing to do, once everything has arrived and no threshold is out
of reach. -/
theorem Midway.all_done (hfixed : Fixed ms r)
    (hlast : ∀ last ∈ ms.getLast?, ∀ m ∈ ms, typeLen (field m 0 1) < last.length + r.length)
    (h : Midway pw calls ms (ms.flatten ++ r) q) (hrest : ¬ q.Ready) :
    q.server.calls = calls ++ ms.map callOf ∧ q.server.buffer = r := by
  rcases h with ⟨done, todo, buffer, t, rfl, hall, rfl, hpos, hthreshold⟩
  have hwaits : buffer.length < t := Nat.not_le.1 fun hle => hrest (ready_behind_iff.2 hle)
  have hbuffer : todo.flatten ++ r = buffer := by
    rw [List.flatten_append, List.append_assoc] at hall
    exact List.append_cancel_left hall
  have hnil : todo = [] := by
    by_contra hne
    -- The last message is still in the buffer, and with the tail it reaches every threshold.
    rcases List.eq_nil_or_concat todo with hnil | ⟨init, last, hconcat⟩
    · exact hne hnil
    · rw [List.concat_eq_append] at hconcat
      have hmem : last ∈ done ++ todo := by simp [hconcat]
      have hgetLast : last ∈ (done ++ todo).getLast? := by simp [hconcat]
      have hpos := (hfixed.served last hmem).length_pos
      have hlen : last.length + r.length ≤ buffer.length := by
        rw [← hbuffer, hconcat]
        simp
      rcases hthreshold with rfl | ⟨m, hm, rfl⟩ | hdone
      · omega
      · have := hlast last hgetLast m hm
        omega
      · exact hne hdone
  subst hnil
  rw [List.flatten_nil, List.nil_append] at hbuffer
  exact ⟨by simp [behind], hbuffer.symm⟩

/-! ## A run over the chunks -/

theorem protocolBytes_append {a rest : Bytes} (h : protocolBytes pw a = some rest) (x : Bytes) :
    protocolBytes pw (a ++ x) = some (rest ++ x) := by
  rcases protocolBytes_split h with ⟨head, rfl, hhead⟩
  rw [List.append_assoc]
  exact hhead _

/-- Between two deliveries the parser waits in the handshake, or midway. -/
def Stage (pw : Bool) (calls : List Call) (ms : List Bytes) (arrived : Bytes)
    (p : Parser Unit) : Prop :=
  ¬ p.Ready ∧
    match protocolBytes pw arrived with
    | none => ∃ s, p = { server := s } ∧ Greeted pw arrived s
    | some rest => Midway pw calls ms rest p

theorem stage_init : Stage pw calls ms [] (init pw ()) := by
  refine ⟨fun hready => ?_, (init pw ()).server, rfl, greeted_init⟩
  have hle : 12 ≤ ([] : Bytes).length := hready.2
  exact absurd hle (by decide)

theorem Stage.waiting {s : RFBServer Unit} (hs : Greeted pw x s)
    (hnone : protocolBytes pw x = none) : Stage pw calls ms x { server := s } := by
  refine ⟨iterate_eq_none_iff.1 (hs.rest_none hnone), ?_⟩
  rw [hnone]
  exact ⟨s, rfl, hs⟩

/-- A chunk takes the parser from one stage to the next. -/
theorem Stage.receives {a c y : Bytes} {s₀ : RFBServer Unit} (hfixed : Fixed ms r)
    (hb : ∀ s, protocolBytes pw (a ++ (c ++ y)) = some s → s = ms.flatten ++ r)
    (hs₀ : Greeted pw (a ++ (c ++ y)) s₀) (h : Stage pw s₀.calls ms a p) :
    ∃ q, p.Receives {} c q ∧ Stage pw s₀.calls ms (a ++ c) q := by
  have hmidway : ∀ rest, protocolBytes pw (a ++ c) = some rest →
      Midway pw s₀.calls ms rest (p.enter c) →
        ∃ q, p.Receives {} c q ∧ Stage pw s₀.calls ms (a ++ c) q := by
    intro rest hrest hmid
    have hall : rest ++ y = ms.flatten ++ r := by
      refine hb _ ?_
      rw [← List.append_assoc]
      exact protocolBytes_append hrest y
    rcases hmid.halts hfixed hall with ⟨q, hq, hmid'⟩
    refine ⟨q, hq, iterate_eq_none_iff.1 hq.2, ?_⟩
    rw [hrest]
    exact hmid'
  rcases h with ⟨-, h⟩
  cases ha : protocolBytes pw a with
  | some rest =>
      rw [ha] at h
      exact hmidway (rest ++ c) (protocolBytes_append ha c) (h.deliver c)
  | none =>
      rw [ha] at h
      rcases h with ⟨s, rfl, hs⟩
      rcases exists_greeted pw (a ++ c) with ⟨s', hs'⟩
      have hreach := hs.reaches hs'
      cases hac : protocolBytes pw (a ++ c) with
      | none =>
          exact ⟨{ server := s' }, ⟨hreach, hs'.rest_none hac⟩, Stage.waiting hs' hac⟩
      | some rest =>
          have hcalls : s₀.calls = s'.calls := by
            have happend : Greeted pw (a ++ c ++ y) s₀ := by
              rw [List.append_assoc]
              exact hs₀
            exact congrArg (fun q : Parser Unit => q.server.calls) (hs'.append hac happend)
          -- The handshake ends in this chunk: nothing is done yet, and the threshold is one.
          have hmid : Midway pw s₀.calls ms rest { server := s' } := by
            refine ⟨[], ms, rest, 1, rfl, rfl, ?_, le_rfl, Or.inl rfl⟩
            rw [hcalls, List.map_nil, List.append_nil]
            exact hs'.behind hac
          have hall : rest ++ y = ms.flatten ++ r := by
            refine hb _ ?_
            rw [← List.append_assoc]
            exact protocolBytes_append hac y
          rcases hmid.halts hfixed hall with ⟨q, hq, hmid'⟩
          refine ⟨q, (HaltsAt.iff_of_reaches hreach).2 hq, iterate_eq_none_iff.1 hq.2, ?_⟩
          rw [hac]
          exact hmid'

theorem Stage.receivesAll {b : Bytes} {s₀ : RFBServer Unit} (hfixed : Fixed ms r)
    (hb : ∀ s, protocolBytes pw b = some s → s = ms.flatten ++ r) (hs₀ : Greeted pw b s₀) :
    ∀ {chunks : List Bytes} {a : Bytes} {p : Parser Unit}, a ++ chunks.flatten = b →
      Stage pw s₀.calls ms a p → ∃ q, p.ReceivesAll {} chunks q ∧ Stage pw s₀.calls ms b q := by
  intro chunks
  induction chunks with
  | nil =>
      intro a p hflat h
      rw [List.flatten_nil, List.append_nil] at hflat
      exact ⟨p, rfl, hflat ▸ h⟩
  | cons c chunks ih =>
      intro a p hflat h
      rw [List.flatten_cons] at hflat
      subst hflat
      rcases h.receives hfixed hb hs₀ with ⟨m, hm, hstage⟩
      rcases ih (List.append_assoc a c chunks.flatten) hstage with ⟨q, hq, hstage'⟩
      exact ⟨q, ⟨m, hm, hq⟩, hstage'⟩

/-! ## The single delivery -/

/-- The single delivery waits in the handshake, or parses what follows it. -/
theorem uncut {t : Parser Unit} (ht : (init pw ()).Receives {} b t) (hraised : t.raised = none)
    {s₀ : RFBServer Unit} (hs₀ : Greeted pw b s₀) :
    match protocolBytes pw b with
    | none => t = { server := s₀ }
    | some s => ∃ ms r, Parsed s ms r ∧ t.server.calls = s₀.calls ++ ms.map callOf ∧
        t.server.buffer = r := by
  have hreach : Reaches (iterate {}) ((init pw ()).enter b) { server := s₀ } :=
    RFBServer.reaches_of_greetStep hs₀.1.1
  have hrest := (HaltsAt.iff_of_reaches hreach).1 ht
  cases hb : protocolBytes pw b with
  | none => exact hrest.eq_of_none (hs₀.rest_none hb)
  | some s =>
      rw [hs₀.behind hb] at hrest
      exact parsed_of_haltsAt hraised rfl hrest

/-- A stream that may be cut anywhere is not told from the single delivery. -/
theorem sameUncut_of_cuttable {t : Parser Unit} (ht : (init pw ()).Receives {} b t)
    (hraised : t.raised = none) (h : Cuttable pw b) : SameUncut pw b t := by
  intro chunks hchunks
  rcases exists_greeted pw b with ⟨s₀, hs₀⟩
  have huncut := uncut ht hraised hs₀
  cases hb : protocolBytes pw b with
  | none =>
      rw [hb] at huncut
      have hfixed : Fixed [] [] := ⟨nofun, nofun, Or.inl rfl⟩
      have hnone : ∀ s, protocolBytes pw b = some s → s = [].flatten ++ [] := by
        intro s hs
        rw [hb] at hs
        cases hs
      rcases Stage.receivesAll hfixed hnone hs₀ hchunks stage_init with ⟨q, hq, -, hstage⟩
      rw [hb] at hstage
      rcases hstage with ⟨s, rfl, hs⟩
      have hsame : s = s₀ := hs.1.unique hs₀.1
      exact ⟨_, hq, by rw [huncut, hsame], by rw [huncut, hsame]⟩
  | some s =>
      rw [hb] at huncut
      rcases huncut with ⟨ms, r, hparsed, hcalls, hbuffer⟩
      have hmessages : messages s = (ms, r) := hparsed.messages_eq le_rfl
      have hcut := h s hb
      rw [hmessages] at hcut
      have hfixed : Fixed ms r :=
        ⟨hparsed.served, fun m hm => (hparsed.served m hm).length_eq_typeLen (hcut m hm).1,
          hparsed.tail_short⟩
      have hsplit : ∀ s', protocolBytes pw b = some s' → s' = ms.flatten ++ r := by
        intro s' hs'
        rw [hb] at hs'
        cases hs'
        exact hparsed.eq_flatten
      rcases Stage.receivesAll hfixed hsplit hs₀ hchunks stage_init with ⟨q, hq, hrest, hstage⟩
      rw [hb] at hstage
      have hstage' : Midway pw s₀.calls ms s q := hstage
      rw [hparsed.eq_flatten] at hstage'
      rcases hstage'.all_done hfixed (fun last hlast m hm => (hcut m hm).2 last hlast) hrest with
        ⟨hcalls', hbuffer'⟩
      exact ⟨q, hq, hcalls'.trans hcalls.symm, hbuffer'.trans hbuffer.symm⟩

/-! ## A delivery that ends inside a message -/

/-- A chunk that ends behind the messages `done` leaves `x` to the next turn. -/
theorem reaches_cut {head : Bytes} {s₀ : RFBServer Unit}
    (hhead : ∀ x, protocolBytes pw (head ++ x) = some x) (hs₀ : Greeted pw (head ++ s) s₀)
    (hdone : ∀ m ∈ done, Served m) :
    Reaches (iterate {}) ((init pw ()).enter (head ++ (done.flatten ++ x)))
      (behind pw 1 x (s₀.calls ++ done.map callOf)) := by
  rcases exists_greeted pw head with ⟨s₁, hs₁⟩
  rcases exists_greeted pw (head ++ (done.flatten ++ x)) with ⟨s', hs'⟩
  have hnothing : protocolBytes pw head = some [] := by
    have hnil := hhead []
    rwa [List.append_nil] at hnil
  have hcalls : s₀.calls = s₁.calls :=
    congrArg (fun q : Parser Unit => q.server.calls) (hs₁.append hnothing hs₀)
  have hbehind := hs₁.append hnothing hs'
  rw [List.nil_append, ← hcalls] at hbehind
  refine Relation.ReflTransGen.trans (RFBServer.reaches_of_greetStep hs'.1.1) ?_
  rw [hbehind]
  exact reaches_messages hdone

/-- The bytes that the message of a call takes. -/
def weight : Call → ℕ
  | .setPixelFormat _ => 20
  | .setEncodings encodings => 4 + 4 * encodings.length
  | .framebufferUpdate _ _ _ _ _ => 10
  | .keyEvent _ _ => 8
  | .pointerEvent _ _ _ => 6
  | _ => 0

/-- The bytes accounted for: handled, or still in the buffer. -/
def account (p : Parser Unit) : ℕ :=
  (p.server.calls.map weight).sum + p.server.buffer.length

theorem weight_callOf (hm : Served m) : weight (callOf m) = m.length := by
  rcases hm.complete.cases with ⟨kind, hkind, -, -, hencodings, hlength⟩
  have hfixed : kind ≠ .setEncoding → (TYPE_LEN kind).getD 0 = m.length := fun h =>
    hlength h (fun heq => hm.not_cutText (heq ▸ hkind)) (fun heq => hm.not_qemu (heq ▸ hkind))
  unfold callOf messageCall
  rw [hkind]
  cases kind with
  | setPixelFormat => exact hfixed nofun
  | setEncoding => simp [weight, RFBServer.words, hencodings rfl]
  | framebufferUpdateRequest => exact hfixed nofun
  | keyEvent => exact hfixed nofun
  | pointerEvent => exact hfixed nofun
  | clientCutText => exact absurd hkind hm.not_cutText
  | qemuClientMessage => exact absurd hkind hm.not_qemu

theorem weight_messages (hms : ∀ m ∈ ms, Served m) :
    ((ms.map callOf).map weight).sum = ms.flatten.length := by
  induction ms with
  | nil => rfl
  | cons m ms ih =>
      have hm := weight_callOf (hms m (by simp))
      have hrest := ih fun m' hmem => hms m' (by simp [hmem])
      simp only [List.map_cons, List.sum_cons, List.flatten_cons, List.length_append, hm, hrest]

/-- A call of `_handle_protocol` accounts for no more bytes than it takes. -/
theorem account_handleProtocol (u : RFBServer Unit) :
    account (ofResult ((RFBServer.handleProtocol {}).run u)) ≤ account { server := u } := by
  by_cases hshort : u.buffer.length < typeLen (field u.buffer 0 1)
  · rw [RFBServer.run_handleProtocol_short hshort]
    exact le_rfl
  · have hle := Nat.not_lt.1 hshort
    -- A call weighs what has been taken off the buffer for it.
    have hcall : ∀ (n : ℕ) (c : Call), weight c = n → n ≤ u.buffer.length →
        account (ofResult ((RFBServer.call {} c).run { u with buffer := u.buffer.drop n })) ≤
          account { server := u } := by
      intro n c hweight hn
      rw [RFBServer.run_call_base]
      simp only [account, ofResult, List.map_append, List.sum_append, List.map_cons, List.map_nil,
        List.sum_cons, List.sum_nil, List.length_drop, hweight]
      omega
    rw [RFBServer.run_handleProtocol_block hle]
    cases hkind : MsgC2S.lookup (field u.buffer 0 1) with
    | none => simp [RFBServer.handleBlock, account, ofResult]
    | some kind =>
        rw [typeLen_of_lookup hkind] at hle ⊢
        cases kind with
        | setPixelFormat => exact hcall 20 (.setPixelFormat _) rfl hle
        | setEncoding =>
            have hread : ∀ v : RFBServer Unit, (get : Srv Unit (RFBServer Unit)).run v = .ok v v :=
              fun _ => rfl
            have hhead : 4 ≤ u.buffer.length := hle
            have htype : (TYPE_LEN .setEncoding).getD 0 = 4 := rfl
            simp only [RFBServer.handleBlock, EStateM.run_bind, hread, htype]
            split_ifs with htail
            · have hdrop : (u.buffer.drop 4).length ≤ u.buffer.length := by simp
              exact Nat.add_le_add_left hdrop _
            · rw [List.length_drop] at htail
              simp only [EStateM.run_bind, RFBServer.run_del, List.drop_drop]
              exact hcall _ _ (by simp [weight, RFBServer.words]) (by omega)
        | framebufferUpdateRequest => exact hcall 10 (.framebufferUpdate _ _ _ _ _) rfl hle
        | keyEvent => exact hcall 8 (.keyEvent _ _) rfl hle
        | pointerEvent => exact hcall 6 (.pointerEvent _ _ _) rfl hle
        | clientCutText => exact hcall 0 (.clientCutText _) rfl (Nat.zero_le _)
        | qemuClientMessage =>
            simp [RFBServer.handleBlock, account, ofResult, TYPE_LEN, slice]

theorem account_of_iterate {p' : Parser Unit}
    (hstep : iterate {} p = some p') (hmethod : p.server.handler.1 = .handleProtocol) :
    p'.server.handler.1 = .handleProtocol ∧ account p' ≤ account p := by
  rcases iterate_eq_some_iff.1 hstep with ⟨-, rfl⟩
  rw [hmethod, RFBServer.dispatch]
  refine ⟨?_, account_handleProtocol p.server⟩
  have hhandler := @RFBServer.handleProtocol_handler _ {} p.server
  cases hrun : (RFBServer.handleProtocol {}).run p.server with
  | ok _ u =>
      rcases (ensures_of_run_ok hrun).1 hhandler with hsame | ⟨hsame, -⟩
      · exact (congrArg Prod.fst hsame).trans hmethod
      · exact hsame
  | error exc u =>
      exact (congrArg Prod.fst ((ensures_of_run_error hrun).1 hhandler)).trans hmethod

theorem account_of_reaches (h : Reaches (iterate {}) p q)
    (hmethod : p.server.handler.1 = .handleProtocol) : account q ≤ account p := by
  have hinv : q.server.handler.1 = .handleProtocol ∧ account q ≤ account p := by
    refine @reaches_invariant _ (iterate {})
      (fun q => q.server.handler.1 = .handleProtocol ∧ account q ≤ account p) ?_ _ _ h
      ⟨hmethod, le_rfl⟩
    rintro a b hstep ⟨ha, hle⟩
    rcases account_of_iterate hstep ha with ⟨hb, hle'⟩
    exact ⟨hb, hle'.trans hle⟩
  exact hinv.2

/-- Below a threshold that the last message does not reach, messages are left over. -/
theorem stuck (hms : ∀ m ∈ todo, Served m) (hne : todo ≠ [])
    (hlast : ∀ last ∈ todo.getLast?, last.length + r.length < t) : ∀ {calls : List Call},
    HaltsAt (iterate {}) (behind pw t (todo.flatten ++ r) calls) q →
      q.server.calls.length < calls.length + todo.length := by
  induction todo with
  | nil => exact absurd rfl hne
  | cons m todo ih =>
      intro calls hq
      by_cases hready : t ≤ ((m :: todo).flatten ++ r).length
      · have hm := hms m (by simp)
        have hne' : todo ≠ [] := by
          rintro rfl
          have hlen := hlast m rfl
          simp only [List.flatten_cons, List.flatten_nil, List.append_nil,
            List.length_append] at hready
          omega
        have hlast' : ∀ last ∈ todo.getLast?, last.length + r.length < t := by
          intro last hmem
          refine hlast last ?_
          rw [List.getLast?_cons_of_ne_nil hne']
          exact hmem
        rw [List.flatten_cons, List.append_assoc] at hq hready
        have hrest := (HaltsAt.iff_of_step (iterate_message hm hready)).1 hq
        have hlt := ih (fun m' hmem => hms m' (by simp [hmem])) hne' hlast' hrest
        rw [List.length_append, List.length_singleton] at hlt
        rw [List.length_cons]
        omega
      · have hrest : iterate {} (behind pw t ((m :: todo).flatten ++ r) calls) = none :=
          iterate_eq_none_iff.2 fun h => hready (ready_behind_iff.1 h)
        rw [hq.eq_of_none hrest, List.length_cons]
        exact Nat.lt_add_of_pos_right (Nat.succ_pos _)

/-! ## Exactly which streams -/

/-- A stream and its handshake, complete messages and tail. -/
structure Whole (pw : Bool) (b head : Bytes) (ms : List Bytes) (r : Bytes) (s₀ : RFBServer Unit)
    (t : Parser Unit) : Prop where
  eq_append : b = head ++ (ms.flatten ++ r)
  head_spec : ∀ x, protocolBytes pw (head ++ x) = some x
  served : ∀ m ∈ ms, Served m
  greeted : Greeted pw b s₀
  calls_eq : t.server.calls = s₀.calls ++ ms.map callOf
  buffer_eq : t.server.buffer = r

theorem field_take {n off len : ℕ} (h : off + len ≤ (m.take n).length) :
    field (m.take n) off len = field m off len := by
  have hsplit := field_append_left (m.take n) (m.drop n) h
  rw [List.take_append_drop] at hsplit
  exact hsplit.symm

/-- A cut inside a message: the first chunk ends `k` bytes into it. -/
theorem Whole.cut {head : Bytes} {before after : List Bytes} {s₀ : RFBServer Unit}
    {t : Parser Unit} (h : Whole pw b head (before ++ m :: after) r s₀ t)
    (hsame : SameUncut pw b t) (k : ℕ) :
    ∃ p₁ p₂, HaltsAt (iterate {}) (behind pw 1 (m.take k) (s₀.calls ++ before.map callOf)) p₁ ∧
      p₁.Receives {} (m.drop k ++ (after.flatten ++ r)) p₂ ∧
      p₂.server.calls = t.server.calls ∧ p₂.server.buffer = t.server.buffer := by
  have hbefore : ∀ m' ∈ before, Served m' := fun m' hmem => h.served m' (by simp [hmem])
  have hchunks : [head ++ (before.flatten ++ m.take k),
      m.drop k ++ (after.flatten ++ r)].flatten = b := by
    simp only [h.eq_append, List.flatten_cons, List.flatten_nil, List.append_nil,
      List.flatten_append, List.append_assoc, List.append_cancel_left_eq]
    rw [← List.append_assoc, List.take_append_drop]
  rcases hsame _ hchunks with ⟨q, ⟨p₁, hp₁, p₂, hp₂, rfl⟩, hcalls, hbuffer⟩
  have hreach := @reaches_cut pw (m.take k) _ before head s₀ h.head_spec
    (h.eq_append ▸ h.greeted) hbefore
  exact ⟨p₁, p₂, (HaltsAt.iff_of_reaches hreach).1 hp₁, hp₂, hcalls, hbuffer⟩

/-- No message has a list, or it would be read before it has arrived. -/
theorem Whole.no_list {head : Bytes} {s₀ : RFBServer Unit} {t : Parser Unit}
    (h : Whole pw b head ms r s₀ t) (hsame : SameUncut pw b t) (hm : m ∈ ms)
    (hkind : MsgC2S.lookup (field m 0 1) = some .setEncoding) : field m 2 2 = 0 := by
  by_contra hcount
  rcases List.append_of_mem hm with ⟨before, after, rfl⟩
  have hbefore : ∀ m' ∈ before, Served m' := fun m' hmem => h.served m' (by simp [hmem])
  have htodo : ∀ m' ∈ m :: after, Served m' := fun m' hmem =>
    h.served m' (List.mem_append_right before hmem)
  have hlength : m.length = 4 + 4 * field m 2 2 := by
    rcases (h.served m hm).complete.cases with ⟨kind, hkind', -, -, hencodings, -⟩
    rw [hkind] at hkind'
    exact hencodings (Option.some.inj hkind').symm
  have htake : (m.take 4).length = 4 := List.length_take_of_le (by omega)
  -- The first chunk ends behind the header of the list, which is lost.
  rcases h.cut hsame 4 with ⟨p₁, p₂, hp₁, hp₂, hcalls, hbuffer⟩
  have hstep := @iterate_cutList pw 1 (m.take 4) (s₀.calls ++ before.map callOf)
    (by omega) (by rw [field_take (by omega)]; exact hkind) (le_of_eq htake.symm)
    (by rw [field_take (by omega)]; omega)
  have hfirst := eq_of_raised hstep nofun hp₁
  have hle := account_of_reaches hp₂.1 (by rw [hfirst]; rfl)
  have hdrop : (m.take 4).drop 4 = [] := List.drop_eq_nil_of_le (le_of_eq htake)
  rw [account, account, hcalls, hbuffer, h.calls_eq, h.buffer_eq, hfirst] at hle
  simp only [List.map_append, List.sum_append, weight_messages hbefore, weight_messages htodo,
    enter, behind, hdrop, List.nil_append, List.length_append, List.length_drop,
    List.flatten_cons] at hle
  omega

/-- No threshold is out of reach of the last message. -/
theorem Whole.reached {head last : Bytes} {s₀ : RFBServer Unit} {t : Parser Unit}
    (h : Whole pw b head ms r s₀ t) (hsame : SameUncut pw b t) (hm : m ∈ ms)
    (hlist : MsgC2S.lookup (field m 0 1) = some .setEncoding → field m 2 2 = 0)
    (hlast : last ∈ ms.getLast?) : typeLen (field m 0 1) < last.length + r.length := by
  by_contra hle
  rcases List.append_of_mem hm with ⟨before, after, rfl⟩
  have htodo : ∀ m' ∈ m :: after, Served m' := fun m' hmem =>
    h.served m' (List.mem_append_right before hmem)
  have hserved := h.served m hm
  have hlength := hserved.length_eq_typeLen hlist
  have htake : (m.take 1).length = 1 := List.length_take_of_le hserved.length_pos
  have hhead : field (m.take 1) 0 1 = field m 0 1 := field_take (by omega)
  -- The first chunk ends behind the first byte of the message, which raises the threshold.
  rcases h.cut hsame 1 with ⟨p₁, p₂, hp₁, hp₂, hcalls, -⟩
  have hstep := @iterate_short pw 1 (m.take 1) (s₀.calls ++ before.map callOf)
    (le_of_eq htake.symm) (by rw [hhead, htake, ← hlength]; exact hserved.one_lt_length)
  rw [hhead] at hstep
  have hwaits : iterate {} (behind pw (typeLen (field m 0 1) + 1) (m.take 1)
      (s₀.calls ++ before.map callOf)) = none := by
    refine iterate_eq_none_iff.2 fun hready => ?_
    have hlen := ready_behind_iff.1 hready
    have hone := hserved.one_lt_length
    omega
  have hfirst := hp₁.unique (HaltsAt.head hstep (HaltsAt.refl hwaits))
  have henter : p₁.enter (m.drop 1 ++ (after.flatten ++ r)) =
      behind pw (typeLen (field m 0 1) + 1) ((m :: after).flatten ++ r)
        (s₀.calls ++ before.map callOf) := by
    have hbytes : m.take 1 ++ (m.drop 1 ++ (after.flatten ++ r)) =
        (m :: after).flatten ++ r := by
      rw [← List.append_assoc, List.take_append_drop, List.flatten_cons, List.append_assoc]
    rw [hfirst, ← hbytes]
    rfl
  have hsecond : HaltsAt (iterate {}) (behind pw (typeLen (field m 0 1) + 1)
      ((m :: after).flatten ++ r) (s₀.calls ++ before.map callOf)) p₂ := henter ▸ hp₂
  have hlast' : ∀ last' ∈ (m :: after).getLast?,
      last'.length + r.length < typeLen (field m 0 1) + 1 := by
    intro last' hmem
    have heq : last' = last := by
      rw [List.getLast?_append_of_ne_nil before (by simp)] at hlast
      exact Option.some.inj (hmem.symm.trans hlast)
    rw [heq]
    omega
  have hlt := stuck htodo (by simp) hlast' hsecond
  rw [hcalls, h.calls_eq] at hlt
  simp only [List.length_append, List.length_map, List.length_cons] at hlt
  omega

theorem cuttable_of_sameUncut {t : Parser Unit} (ht : (init pw ()).Receives {} b t)
    (hraised : t.raised = none) (h : SameUncut pw b t) : Cuttable pw b := by
  intro s hs
  rcases exists_greeted pw b with ⟨s₀, hs₀⟩
  have huncut := uncut ht hraised hs₀
  rw [hs] at huncut
  rcases huncut with ⟨ms, r, hparsed, hcalls, hbuffer⟩
  have hmessages : messages s = (ms, r) := hparsed.messages_eq le_rfl
  rcases protocolBytes_split hs with ⟨head, hhead, hspec⟩
  have hwhole : Whole pw b head ms r s₀ t :=
    ⟨by rw [hhead, hparsed.eq_flatten], hspec, hparsed.served, hs₀, hcalls, hbuffer⟩
  rw [hmessages]
  intro m hm
  have hlist := hwhole.no_list h hm
  exact ⟨hlist, fun last hlast => hwhole.reached h hm hlist hlast⟩

/-- A stream handled in one delivery is handled alike in every cut exactly if it is `Cuttable`. -/
theorem sameUncut_iff_cuttable (passwordRequired : Bool) (b : Bytes) (t : Parser Unit)
    (ht : (init passwordRequired ()).Receives {} b t) (hraised : t.raised = none) :
    SameUncut passwordRequired b t ↔ Cuttable passwordRequired b :=
  ⟨cuttable_of_sameUncut ht hraised, sameUncut_of_cuttable ht hraised⟩

/-- The handshake of a client without a password, and a key. -/
def keyStream : Bytes :=
  versionLine ⟨3, 8⟩ ++ [1, 1] ++ [4, 1, 0, 0, 0, 0, 0, 97]

/-- With one more byte behind it the key may be cut. -/
theorem sameUncut_iff_cuttable_key : ∃ t, SameUncut false (keyStream ++ [4]) t := by
  have ht : (init false ()).Receives {} (keyStream ++ [4])
      (behind false 9 [4] [.clientInit 1, .keyEvent 97 1]) :=
    (exists_dataReceived_iff {}).1 ⟨5, by decide⟩
  have hprotocol : protocolBytes false (keyStream ++ [4]) =
      some [4, 1, 0, 0, 0, 0, 0, 97, 4] := by decide
  refine ⟨_, (sameUncut_iff_cuttable false (keyStream ++ [4]) _ ht rfl).2 ?_⟩
  intro s hs
  have hs' : s = [4, 1, 0, 0, 0, 0, 0, 97, 4] := Option.some.inj (hs.symm.trans hprotocol)
  subst hs'
  decide

/-- A key is handled in one delivery, and lost when it is cut behind its first byte. -/
theorem key_lost : ∃ t, (init false ()).Receives {} keyStream t ∧ t.raised = none ∧
    ¬ SameUncut false keyStream t := by
  have ht : (init false ()).Receives {} keyStream
      (behind false 1 [] [.clientInit 1, .keyEvent 97 1]) :=
    (exists_dataReceived_iff {}).1 ⟨4, by decide⟩
  refine ⟨_, ht, rfl, fun hsame => ?_⟩
  rcases hsame [versionLine ⟨3, 8⟩ ++ [1, 1] ++ [4], [1, 0, 0, 0, 0, 0, 97]] (by decide) with
    ⟨q, ⟨p₁, hp₁, p₂, hp₂, rfl⟩, hcalls, -⟩
  have hfirst : (init false ()).Receives {} (versionLine ⟨3, 8⟩ ++ [1, 1] ++ [4])
      (behind false 9 [4] [.clientInit 1]) :=
    (exists_dataReceived_iff {}).1 ⟨4, by decide⟩
  have hsecond : (behind false 9 [4] [.clientInit 1]).Receives {} [1, 0, 0, 0, 0, 0, 97]
      (behind false 9 [4, 1, 0, 0, 0, 0, 0, 97] [.clientInit 1]) :=
    (exists_dataReceived_iff {}).1 ⟨0, by decide⟩
  rw [hp₁.unique hfirst] at hp₂
  rw [hp₂.unique hsecond] at hcalls
  exact absurd hcalls (by decide)

end Parser

end Vncdotool
