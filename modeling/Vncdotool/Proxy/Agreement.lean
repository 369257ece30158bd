import Vncdotool.Capture.Session
import Vncdotool.Proxy.Segmentation
import Vncdotool.Proxy.Forwarding

/-!
# Agreement — where the two followers of a handshake see it end

`HandshakeScrubber` follows both directions of a session, `RFBServer` the client's alone.  Each
takes the ClientInit byte off the client's stream at some offset.  The parser's offset is a
function of the client's bytes, `protocolBytes`; the scrubber's is where the client's part of the
script ends.  They are compared on what was negotiated: the version reply and the security type.
-/

namespace Vncdotool

open Wire Streaming StateTransition

/-! ## The parser's offset -/

namespace Parser

variable {pw : Bool} {b data : Bytes} {p q : Parser Unit} {n : ℕ}

/-- In a run over the chunks the parser takes the ClientInit byte at the offset `n`, and interprets
messages from the next byte on. -/
def TakesClientInitAt (passwordRequired : Bool) (chunks : List Bytes) (n : ℕ) : Prop :=
  ∃ pre data post p q q', chunks = pre ++ data :: post ∧
    (init passwordRequired ()).ReceivesAll {} pre p ∧ Reaches (iterate {}) (p.enter data) q ∧
    q.server.handler.1 = .handleClientInit ∧ iterate {} q = some q' ∧
    n + q.server.buffer.length = (pre.flatten ++ data).length ∧
    q'.server.handler = (.handleProtocol, 1) ∧ q'.server.buffer = q.server.buffer.drop 1

theorem handleProtocol_of_reaches (h : Reaches (iterate {}) p q)
    (hmethod : p.server.handler.1 = .handleProtocol) : q.server.handler.1 = .handleProtocol :=
  @reaches_invariant _ (iterate {}) (fun q => q.server.handler.1 = .handleProtocol)
    (fun _ _ hstep hmethod => (account_of_iterate hstep hmethod).1) _ _ h hmethod

/-- A path of the loop from a state of the handshake stays in the handshake, or leads through its
end. -/
theorem reaches_cases {s s' : RFBServer Unit} (h : Reaches RFBServer.greetStep s s')
    (hq : Reaches (iterate {}) { server := s } q) :
    (∃ u, q = { server := u } ∧ Reaches RFBServer.greetStep u s') ∨
      Reaches (iterate {}) { server := s' } q := by
  induction h using Relation.ReflTransGen.head_induction_on with
  | refl => exact Or.inr hq
  | head hstep hrest ih =>
      rename_i u u'
      rcases Relation.ReflTransGen.cases_head hq with rfl | ⟨m, hm, hq'⟩
      · exact Or.inl ⟨u, rfl, Relation.ReflTransGen.head hstep hrest⟩
      · have hnext := RFBServer.iterate_of_greetStep hstep
        have hsame : m = { server := u' } := by
          have hm' : iterate {} { server := u } = some m := hm
          rw [hnext] at hm'
          exact (Option.some.inj hm').symm
        exact ih (hsame ▸ hq')

/-- The handshake ends with the step that takes the ClientInit byte. -/
theorem exists_clientInit {s s' : RFBServer Unit} (h : Reaches RFBServer.greetStep s s')
    (hs : s.handler.1 ≠ .handleProtocol) (hs' : s'.handler.1 = .handleProtocol) :
    ∃ u, Reaches RFBServer.greetStep s u ∧ RFBServer.greetStep u = some s' ∧
      u.handler.1 = .handleClientInit := by
  rcases Relation.ReflTransGen.cases_tail h with rfl | ⟨u, hu, hstep⟩
  · exact absurd hs' hs
  · have hstep' : RFBServer.greetStep u = some s' := hstep
    refine ⟨u, hu, hstep', ?_⟩
    rcases RFBServer.greetStep_eq_some_iff.1 hstep' with ⟨⟨hthreshold, -⟩, rfl⟩
    unfold RFBServer.greeted at hs'
    cases hmethod : u.handler.1 with
    | handleVersion =>
        -- An unknown version leaves the old handler.
        simp only [hmethod, RFBServer.afterVersion] at hs'
        split_ifs at hs'
        rw [hmethod] at hs'
        cases hs'
    | handleSecurity =>
        simp only [hmethod, RFBServer.afterSecurity] at hs'
        split_ifs at hs'
    | handleVNCAuthResponse => simp [hmethod] at hs'
    | handleClientInit => rfl
    | handleProtocol => simp [hmethod, RFBServer.greetThreshold] at hthreshold
    | handleQemuExtendedKeyEvent => simp [hmethod, RFBServer.greetThreshold] at hthreshold

theorem greetStep_clientInit {u u' : RFBServer Unit} (h : RFBServer.greetStep u = some u')
    (hmethod : u.handler.1 = .handleClientInit) :
    u'.handler = (.handleProtocol, 1) ∧ u'.buffer = u.buffer.drop 1 ∧ 1 ≤ u.buffer.length := by
  rcases RFBServer.greetStep_eq_some_iff.1 h with ⟨⟨hthreshold, hready⟩, rfl⟩
  rw [hmethod] at hthreshold
  have hone : 1 = u.handler.2 := Option.some.inj hthreshold
  unfold RFBServer.greeted
  rw [hmethod]
  exact ⟨rfl, rfl, hone ▸ hready⟩

/-- After some chunks the parser is in the handshake, or past it. -/
theorem receivesAll_cases : ∀ {chunks : List Bytes} {a : Bytes} {p : Parser Unit},
    ((protocolBytes pw a = none ∧ ∃ s, p = { server := s } ∧ Greeted pw a s) ∨
      p.server.handler.1 = .handleProtocol) →
    p.ReceivesAll {} chunks q →
    (protocolBytes pw (a ++ chunks.flatten) = none ∧
        ∃ s, q = { server := s } ∧ Greeted pw (a ++ chunks.flatten) s) ∨
      q.server.handler.1 = .handleProtocol := by
  intro chunks
  induction chunks with
  | nil =>
      rintro a p h rfl
      rwa [List.flatten_nil, List.append_nil]
  | cons c chunks ih =>
      rintro a p h ⟨m, hm, hq⟩
      rw [List.flatten_cons, ← List.append_assoc]
      refine ih ?_ hq
      rcases h with ⟨hnone, s, rfl, hs⟩ | hmethod
      · rcases exists_greeted pw (a ++ c) with ⟨s', hs'⟩
        have hrest := (HaltsAt.iff_of_reaches (hs.reaches hs')).1 hm
        cases hac : protocolBytes pw (a ++ c) with
        | none => exact Or.inl ⟨rfl, s', hrest.eq_of_none (hs'.rest_none hac), hs'⟩
        | some rest =>
            rw [hs'.behind hac] at hrest
            exact Or.inr (handleProtocol_of_reaches hrest.1 rfl)
      · exact Or.inr (handleProtocol_of_reaches hm.1 hmethod)

/-- A chunk that takes the ClientInit byte ends the handshake. -/
theorem protocolBytes_of_clientInit {a : Bytes} {s : RFBServer Unit} {q' : Parser Unit}
    (hs : Greeted pw a s) (hreach : Reaches (iterate {}) (enter { server := s } data) q)
    (hmethod : q.server.handler.1 = .handleClientInit) (hstep : iterate {} q = some q') :
    ∃ rest, protocolBytes pw (a ++ data) = some rest ∧
      q.server.buffer.length = rest.length + 1 := by
  rcases exists_greeted pw (a ++ data) with ⟨s', hs'⟩
  have hends : ¬ Reaches (iterate {}) { server := s' } q := by
    intro hpast
    cases hac : protocolBytes pw (a ++ data) with
    | none =>
        rcases Relation.ReflTransGen.cases_head hpast with rfl | ⟨m, hm, -⟩
        · rw [hs'.rest_none hac] at hstep
          cases hstep
        · have hm' : iterate {} { server := s' } = some m := hm
          rw [hs'.rest_none hac] at hm'
          cases hm'
    | some rest =>
        rw [hs'.behind hac] at hpast
        rw [handleProtocol_of_reaches hpast rfl] at hmethod
        cases hmethod
  rcases reaches_cases (hs.deliver hs').1 hreach with ⟨u, rfl, hu⟩ | hpast
  · rcases Relation.ReflTransGen.cases_head hu with rfl | ⟨u', hu', hrest⟩
    · exact absurd Relation.ReflTransGen.refl hends
    · have hu'' : RFBServer.greetStep u = some u' := hu'
      rcases greetStep_clientInit hu'' hmethod with ⟨hhandler, hbuffer, hpos⟩
      have hnone : RFBServer.greetStep u' = none := by
        refine if_neg fun h => ?_
        rw [hhandler] at h
        cases h.1
      have hsame : s' = u' := HaltsAt.eq_of_none hnone ⟨hrest, (hs.deliver hs').2⟩
      cases hac : protocolBytes pw (a ++ data) with
      | none =>
          have hwaits := hs'.2
          rw [hac, hsame] at hwaits
          exact absurd (congrArg Prod.fst hhandler) hwaits.1
      | some rest =>
          refine ⟨rest, rfl, ?_⟩
          have hbehind := hs'.behind hac
          have hrest' : s'.buffer = rest := congrArg (fun p : Parser Unit => p.server.buffer) hbehind
          rw [← hrest', hsame, hbuffer, List.length_drop]
          have hpos' : 1 ≤ u.buffer.length := hpos
          dsimp only
          omega
  · exact absurd hpast hends

/-- The chunk that ends the handshake takes the ClientInit byte. -/
theorem clientInit_of_protocolBytes {a rest : Bytes} {s : RFBServer Unit}
    (hs : Greeted pw a s) (hnone : protocolBytes pw a = none)
    (hsome : protocolBytes pw (a ++ data) = some rest) :
    ∃ q q', Reaches (iterate {}) (enter { server := s } data) q ∧
      q.server.handler.1 = .handleClientInit ∧ iterate {} q = some q' ∧
      q.server.buffer.length = rest.length + 1 ∧
      q'.server.handler = (.handleProtocol, 1) ∧
      q'.server.buffer = q.server.buffer.drop 1 := by
  rcases exists_greeted pw (a ++ data) with ⟨s', hs'⟩
  have hbehind := hs'.behind hsome
  have hmethod : s'.handler.1 = .handleProtocol :=
    congrArg (fun p : Parser Unit => p.server.handler.1) hbehind
  have hrest : s'.buffer = rest := congrArg (fun p : Parser Unit => p.server.buffer) hbehind
  have hstart : (s.deliver data).handler.1 ≠ .handleProtocol := by
    have hwaits := hs.2
    rw [hnone] at hwaits
    exact hwaits.1
  rcases exists_clientInit (hs.deliver hs').1 hstart hmethod with ⟨u, hu, hstep, hu'⟩
  rcases greetStep_clientInit hstep hu' with ⟨hhandler, hbuffer, hpos⟩
  refine ⟨{ server := u }, { server := s' }, RFBServer.reaches_of_greetStep hu, hu',
    RFBServer.iterate_of_greetStep hstep, ?_, hhandler, hbuffer⟩
  rw [← hrest, hbuffer, List.length_drop]
  dsimp only
  omega

/-- The chunk in which the handshake ends. -/
theorem exists_crossing : ∀ {chunks : List Bytes} {a rest : Bytes} {s : RFBServer Unit},
    Greeted pw a s → protocolBytes pw a = none →
    protocolBytes pw (a ++ chunks.flatten) = some rest →
    ∃ pre data post rest' s', chunks = pre ++ data :: post ∧
      protocolBytes pw (a ++ pre.flatten) = none ∧
      protocolBytes pw (a ++ pre.flatten ++ data) = some rest' ∧
      ReceivesAll {} { server := s } pre { server := s' } ∧ Greeted pw (a ++ pre.flatten) s' := by
  intro chunks
  induction chunks with
  | nil =>
      intro a rest s _ hnone hsome
      rw [List.flatten_nil, List.append_nil, hnone] at hsome
      cases hsome
  | cons c chunks ih =>
      intro a rest s hs hnone hsome
      cases hac : protocolBytes pw (a ++ c) with
      | some rest' =>
          refine ⟨[], c, chunks, rest', s, rfl, ?_, ?_, rfl, ?_⟩
          · rwa [List.flatten_nil, List.append_nil]
          · rwa [List.flatten_nil, List.append_nil]
          · rwa [List.flatten_nil, List.append_nil]
      | none =>
          rcases exists_greeted pw (a ++ c) with ⟨s', hs'⟩
          rw [List.flatten_cons, ← List.append_assoc] at hsome
          rcases ih hs' hac hsome with ⟨pre, data, post, rest', s'', rfl, hpre, hdata, hrun, hs''⟩
          refine ⟨c :: pre, data, post, rest', s'', rfl, ?_, ?_, ?_, ?_⟩
          · rwa [List.flatten_cons, ← List.append_assoc]
          · rwa [List.flatten_cons, ← List.append_assoc]
          · exact ⟨_, ⟨hs.reaches hs', hs'.rest_none hac⟩, hrun⟩
          · rwa [List.flatten_cons, ← List.append_assoc]

/-- The offset of the ClientInit byte is a matter of the bytes, not of the chunks. -/
theorem takesClientInitAt_iff {chunks : List Bytes} :
    TakesClientInitAt pw chunks n ↔
      protocolBytes pw chunks.flatten = some (chunks.flatten.drop (n + 1)) ∧
        n < chunks.flatten.length := by
  constructor
  · rintro ⟨pre, data, post, p, q, q', rfl, hpre, hreach, hmethod, hstep, hoffset, -, -⟩
    have hnot : q.server.handler.1 ≠ .handleProtocol := by
      rw [hmethod]
      exact (fun h => by cases h)
    rcases receivesAll_cases (Or.inl ⟨rfl, _, rfl, greeted_init⟩) hpre with
      ⟨-, s, rfl, hs⟩ | hpast
    · rcases protocolBytes_of_clientInit hs hreach hmethod hstep with ⟨rest, hrest, hlen⟩
      rw [List.nil_append] at hrest
      rcases protocolBytes_split hrest with ⟨head, hhead, -⟩
      have hlength := congrArg List.length hhead
      rw [List.length_append, hlen] at hoffset
      rw [List.length_append, List.length_append] at hlength
      have hhead' : head.length = n + 1 := by omega
      have hdrop : (pre.flatten ++ data).drop (n + 1) = rest := by
        rw [hhead, ← hhead']
        exact List.drop_left
      have hflat : (pre ++ data :: post).flatten = pre.flatten ++ data ++ post.flatten := by simp
      rw [hflat, protocolBytes_append hrest, List.drop_append_of_le_length, hdrop]
      · refine ⟨rfl, ?_⟩
        rw [List.length_append, List.length_append]
        omega
      · rw [List.length_append]
        omega
    · exact absurd (handleProtocol_of_reaches hreach hpast) hnot
  · rintro ⟨hprotocol, hlt⟩
    rcases exists_crossing greeted_init rfl hprotocol with
      ⟨pre, data, post, rest, s, rfl, hnone, hsome, hpre, hs⟩
    rw [List.nil_append] at hnone hsome hs
    rcases clientInit_of_protocolBytes hs hnone hsome with
      ⟨q, q', hreach, hmethod, hstep, hlen, hhandler, hbuffer⟩
    refine ⟨pre, data, post, _, q, q', rfl, hpre, hreach, hmethod, hstep, ?_, hhandler, hbuffer⟩
    have hflat : (pre ++ data :: post).flatten = pre.flatten ++ data ++ post.flatten := by simp
    rw [hflat, protocolBytes_append hsome, Option.some.injEq] at hprotocol
    have hlength := congrArg List.length hprotocol
    rw [hflat] at hlt
    rw [List.length_append] at hlength hlt
    rw [List.length_drop, List.length_append] at hlength
    omega

end Parser

/-! ## The scrubber's offset -/

/-- In a run over the chunks of both directions the scrubber takes the ClientInit byte off the
client's stream at the offset `n`. -/
def CaptureWriter.TakesClientInitAt (chunks : List (Tap × Bytes)) (n : ℕ) : Prop :=
  ∃ pre data post core buffer, chunks = pre ++ (.c2s, data) :: post ∧
    (core, buffer) ∈
      HandshakeScrubber.grammar.handedBy (({} : CaptureWriter).feedAll pre).scrubber .c2s data ∧
    core.gen = some .clientInit ∧
    n + buffer.length = (Proxy.clientBytes pre ++ data).length

namespace Session

variable {s : Session} {chunks : List (Tap × Bytes)} {n : ℕ}

/-- Where the client's part of the handshake ends. -/
def clientInitOffset (s : Session) : ℕ :=
  (tapBytes .c2s s.beforeInit).length

theorem seen_c2s : ∀ {chunks : List (Tap × Bytes)} {fed : Tap → Bytes},
    seen fed chunks .c2s = fed .c2s ++ Proxy.clientBytes chunks := by
  intro chunks
  induction chunks with
  | nil => exact fun {fed} => (List.append_nil _).symm
  | cons chunk chunks ih =>
      intro fed
      rcases chunk with ⟨tap, data⟩
      rw [seen, ih]
      cases tap with
      | c2s => simp [Proxy.clientBytes]
      | s2c => simp [Proxy.clientBytes]

theorem causal_append : ∀ {pre post : List (Tap × Bytes)} {fed : Tap → Bytes},
    s.Causal fed (pre ++ post) ↔ s.Causal fed pre ∧ s.Causal (seen fed pre) post := by
  intro pre
  induction pre with
  | nil => exact fun {post fed} => ⟨fun h => ⟨trivial, h⟩, fun h => h.2⟩
  | cons chunk pre ih =>
      intro post fed
      rw [List.cons_append, Causal, Causal, ih, seen]
      exact and_assoc.symm

/-- The chunk that takes the client's stream past an offset. -/
theorem exists_chunk : ∀ {chunks : List (Tap × Bytes)},
    n < (Proxy.clientBytes chunks).length →
      ∃ pre data post, chunks = pre ++ (.c2s, data) :: post ∧
        (Proxy.clientBytes pre).length ≤ n ∧ n < (Proxy.clientBytes pre ++ data).length := by
  intro chunks
  induction chunks using List.reverseRecOn with
  | nil => exact nofun
  | append_singleton chunks chunk ih =>
      intro hlt
      by_cases hearlier : n < (Proxy.clientBytes chunks).length
      · rcases ih hearlier with ⟨pre, data, post, rfl, hle, hlt'⟩
        exact ⟨pre, data, post ++ [chunk], by simp, hle, hlt'⟩
      · rcases chunk with ⟨tap, data⟩
        cases tap with
        | c2s =>
            refine ⟨chunks, data, [], rfl, Nat.not_lt.1 hearlier, ?_⟩
            simpa [Proxy.clientBytes] using hlt
        | s2c =>
            refine absurd ?_ hearlier
            simpa [Proxy.clientBytes] using hlt

theorem clientBytes_prefix (hcausal : s.Causal (fun _ => []) chunks) :
    Proxy.clientBytes chunks <+: s.wire .c2s := by
  have hseen : seen (fun _ => []) chunks .c2s = Proxy.clientBytes chunks := seen_c2s
  rw [← hseen]
  exact seen_prefix .c2s List.nil_prefix hcausal

/-- The ClientInit byte is taken where the handshake of the session has it, once it is there. -/
theorem takesClientInitAt_iff (hgranted : s.granted) (hcausal : s.Causal (fun _ => []) chunks) :
    CaptureWriter.TakesClientInitAt chunks n ↔
      n = s.clientInitOffset ∧ n < (Proxy.clientBytes chunks).length := by
  rcases follows_beforeInit s with ⟨next, hbefore, hnext⟩
  rw [if_pos hgranted] at hnext
  have hscript : s.script = s.beforeInit ++ ⟨.c2s, [s.shared], [s.shared]⟩ ::
      (⟨.s2c, s.serverInit, s.serverInit⟩ ::
        if s.name = [] then [] else [⟨.s2c, s.name, s.name⟩]) := by
    rw [script_eq, initTurns, if_pos hgranted]
    rfl
  -- What a single chunk hands over.
  have hchunk : ∀ pre data post, chunks = pre ++ (.c2s, data) :: post →
      ∀ core buffer, core.rank = next.rank →
      ((core, buffer) ∈ HandshakeScrubber.grammar.handedBy
          (({} : CaptureWriter).feedAll pre).scrubber .c2s data ↔
        core = next ∧ Proxy.clientBytes pre ++ data = tapBytes .c2s s.beforeInit ++ buffer ∧
          (Proxy.clientBytes pre).length < s.clientInitOffset + 1 ∧ 1 ≤ buffer.length) := by
    rintro pre data post rfl core buffer hrank
    rw [causal_append] at hcausal
    rcases captured_feedAll hcausal.1 with ⟨final, hfinal, hcaptured⟩
    have hwant : final.want = none := by simp [HandshakeScrubber.want, hfinal.gen_eq]
    rcases hcausal.2.1 with ⟨hwire, hans⟩
    have hseen : seen (fun _ => []) pre .c2s = Proxy.clientBytes pre := seen_c2s
    by_cases hdata : data = []
    · subst hdata
      constructor
      · exact (fun h => by cases h)
      · rintro ⟨-, hbytes, hlt, hle⟩
        have hlength := congrArg List.length hbytes
        rw [List.append_nil, List.length_append] at hlength
        unfold clientInitOffset at hlt
        omega
    · have hhanded : (core, buffer) ∈ HandshakeScrubber.grammar.handedBy
          (({} : CaptureWriter).feedAll pre).scrubber .c2s data ↔ _ :=
        Synced.mem_handedBy_iff hcaptured hwant hdata hwire hans hscript rfl
          (List.cons_ne_nil s.shared []) hbefore hrank
      rw [hseen] at hhanded
      exact hhanded
  constructor
  · rintro ⟨pre, data, post, core, buffer, hchunks, hmem, hgen, hoffset⟩
    have hrank : core.rank = next.rank := by
      simp [HandshakeScrubber.rank, hgen, hnext.gen_eq]
    rcases (hchunk pre data post hchunks core buffer hrank).1 hmem with ⟨-, hbytes, hlt, hle⟩
    have hlength : (Proxy.clientBytes pre ++ data).length =
        (tapBytes .c2s s.beforeInit).length + buffer.length := by
      rw [hbytes, List.length_append]
    have htotal : (Proxy.clientBytes pre ++ data).length ≤ (Proxy.clientBytes chunks).length := by
      rw [hchunks]
      simp [Proxy.clientBytes]
    unfold clientInitOffset
    omega
  · rintro ⟨rfl, hlt⟩
    -- The chunk that takes the client's stream past the offset.
    rcases exists_chunk hlt with ⟨pre, data, post, hchunks, hle, hlt'⟩
    refine ⟨pre, data, post, next, (Proxy.clientBytes pre ++ data).drop s.clientInitOffset,
      hchunks, ?_, hnext.gen_eq, ?_⟩
    · refine (hchunk pre data post hchunks next _ rfl).2 ⟨rfl, ?_, Nat.lt_succ_of_le hle, ?_⟩
      · have hwire := clientBytes_prefix hcausal
        have hpre : Proxy.clientBytes pre ++ data <+: s.wire .c2s := by
          refine List.IsPrefix.trans ?_ hwire
          rw [hchunks]
          simp [Proxy.clientBytes]
        have hbytes : tapBytes .c2s s.beforeInit <+: Proxy.clientBytes pre ++ data := by
          refine List.prefix_of_prefix_length_le ?_ hpre (le_of_lt hlt')
          rw [wire, script_eq, tapBytes_append, List.append_assoc]
          exact List.prefix_append _ _
        rcases hbytes with ⟨w, hw⟩
        rw [← hw]
        exact congrArg _ List.drop_left.symm
      · rw [List.length_drop]
        omega
    · rw [List.length_drop]
      omega

/-! ## The two offsets -/

/-- What `RFBServer` receives. -/
def clientChunks (chunks : List (Tap × Bytes)) : List Bytes :=
  chunks.filterMap fun chunk => if chunk.1 = .c2s then some chunk.2 else none

theorem flatten_clientChunks (chunks : List (Tap × Bytes)) :
    (clientChunks chunks).flatten = Proxy.clientBytes chunks := by
  induction chunks with
  | nil => rfl
  | cons chunk chunks ih =>
      rcases chunk with ⟨tap, data⟩
      have ih' : (clientChunks chunks).flatten = Proxy.clientBytes chunks := ih
      cases tap with
      | c2s =>
          have hchunks : clientChunks ((.c2s, data) :: chunks) = data :: clientChunks chunks := rfl
          rw [hchunks, List.flatten_cons, ih']
          simp [Proxy.clientBytes]
      | s2c =>
          have hchunks : clientChunks ((.s2c, data) :: chunks) = clientChunks chunks := rfl
          rw [hchunks, ih']
          simp [Proxy.clientBytes]

/-- In every causal feeding the scrubber and the parser take the ClientInit byte at one offset. -/
def Agrees (s : Session) (passwordRequired : Bool) : Prop :=
  ∀ chunks, s.Causal (fun _ => []) chunks → ∀ n,
    CaptureWriter.TakesClientInitAt chunks n ↔
      Parser.TakesClientInitAt passwordRequired (clientChunks chunks) n

/-- `password_required` as it should be set for a server below 3.7. -/
def PasswordCorrect (s : Session) (passwordRequired : Bool) : Prop :=
  ¬ s.offersList → (passwordRequired = true ↔ s.exchange.sectype = AuthTypes.VNC_AUTHENTICATION)

/-- The number in the version reply is one that `RFBServer` knows, on the side of 3.7 on which the
reply is. -/
def Understood (s : Session) : Prop :=
  (slice s.reply 8 3 ∈ RFBServer.oldVersions ∧ ¬ s.offersList) ∨
    (slice s.reply 8 3 ∈ RFBServer.newVersions ∧ s.offersList)

instance : Decidable s.Understood :=
  inferInstanceAs (Decidable (_ ∨ _))

/-- The sessions with the same version reply and the same security type. -/
def SameNegotiation (s s' : Session) : Prop :=
  s'.reply = s.reply ∧ s'.exchange.sectype = s.exchange.sectype

/-- The choice of a security type from a list. -/
def choice (s : Session) : Bytes :=
  if s.offersList then packBE 1 s.exchange.sectype else []

/-- The client's stream. -/
theorem wire_c2s (hgranted : s.granted) :
    s.wire .c2s = s.reply ++ (s.choice ++ (tapBytes .c2s s.exchange.turns ++
      s.shared :: s.laterC2s)) ∧
    s.clientInitOffset =
      12 + (s.choice.length + (tapBytes .c2s s.exchange.turns).length) := by
  have hreply := s.length_reply
  have hresult : tapBytes .c2s s.resultTurns = [] := by
    unfold resultTurns
    split_ifs <;> simp
  have hinit : tapBytes .c2s s.initTurns = [s.shared] := by
    unfold initTurns
    split_ifs <;> simp
  have hnegotiation : tapBytes .c2s s.negotiationTurns = s.choice := by
    unfold negotiationTurns choice
    split_ifs <;> simp
  constructor
  · simp [wire, script, later, hresult, hinit, hnegotiation]
  · simp [clientInitOffset, beforeInit, hresult, hnegotiation, hreply]

/-- The session message by message. -/
def inOrder (s : Session) : List (Tap × Bytes) :=
  s.script.map (fun turn => (turn.tap, turn.bytes)) ++ [(.s2c, s.laterS2c), (.c2s, s.laterC2s)]

theorem causal_turns : ∀ {b a : List (Turn Tap UInt8)}, s.script = a ++ b →
    s.Causal (fun tap => tapBytes tap a) (b.map fun turn => (turn.tap, turn.bytes)) ∧
      seen (fun tap => tapBytes tap a) (b.map fun turn => (turn.tap, turn.bytes)) =
        fun tap => tapBytes tap s.script := by
  intro b
  induction b with
  | nil =>
      intro a hscript
      rw [List.append_nil] at hscript
      exact ⟨trivial, by rw [hscript]; rfl⟩
  | cons turn b ih =>
      intro a hscript
      have hscript' : s.script = (a ++ [turn]) ++ b := by simp [hscript]
      have hfed : Function.update (fun tap => tapBytes tap a) turn.tap
          (tapBytes turn.tap a ++ turn.bytes) = fun tap => tapBytes tap (a ++ [turn]) := by
        funext tap
        by_cases htap : tap = turn.tap
        · subst htap
          simp
        · simp [Function.update_of_ne htap, Ne.symm htap]
      rcases ih hscript' with ⟨hcausal, hseen⟩
      rw [List.map_cons, Causal, seen, hfed]
      refine ⟨⟨⟨?_, ?_⟩, hcausal⟩, hseen⟩
      · rw [wire, hscript', tapBytes_append, tapBytes_append]
        simp
      · rw [hscript']
        exact Answers.of_turns

theorem causal_inOrder (s : Session) : s.Causal (fun _ => []) s.inOrder := by
  rcases @causal_turns s s.script [] rfl with ⟨hcausal, hseen⟩
  refine causal_append.2 ⟨hcausal, ?_⟩
  have hseen' : seen (fun _ => []) (s.script.map fun turn => (turn.tap, turn.bytes)) =
      fun tap => tapBytes tap s.script := hseen
  rw [hseen']
  refine ⟨⟨List.prefix_rfl, Answers.of_complete ?_⟩, ⟨?_, Answers.of_complete ?_⟩, trivial⟩
  · intro tap
    cases tap <;> simp
  · exact List.prefix_rfl
  · intro tap
    cases tap <;> simp

theorem clientBytes_inOrder (s : Session) : Proxy.clientBytes s.inOrder = s.wire .c2s := by
  have hturns : ∀ script : List (Turn Tap UInt8),
      Proxy.clientBytes (script.map fun turn => (turn.tap, turn.bytes)) = tapBytes .c2s script := by
    intro script
    simp [Proxy.clientBytes, tapBytes, List.flatMap_map]
  have hsplit : Proxy.clientBytes s.inOrder =
      Proxy.clientBytes (s.script.map fun turn => (turn.tap, turn.bytes)) ++ s.laterC2s := by
    simp [Proxy.clientBytes, inOrder]
  rw [hsplit, hturns]
  rfl

/-- The parser agrees exactly if its handshake ends where the session's does. -/
theorem agrees_iff (hgranted : s.granted) {pw : Bool} :
    s.Agrees pw ↔ protocolBytes pw (s.wire .c2s) = some s.laterC2s := by
  rcases wire_c2s hgranted with ⟨hwire, hoffset⟩
  have hlength : (s.wire .c2s).length = s.clientInitOffset + 1 + s.laterC2s.length := by
    rw [hwire, hoffset]
    simp only [List.length_append, List.length_cons, s.length_reply]
    omega
  have hdrop : (s.wire .c2s).drop (s.clientInitOffset + 1) = s.laterC2s := by
    have hhead : s.wire .c2s = (s.reply ++ (s.choice ++ (tapBytes .c2s s.exchange.turns ++
        [s.shared]))) ++ s.laterC2s := by
      rw [hwire]
      simp
    have hlen : (s.reply ++ (s.choice ++ (tapBytes .c2s s.exchange.turns ++
        [s.shared]))).length = s.clientInitOffset + 1 := by
      rw [hoffset]
      simp only [List.length_append, List.length_singleton, s.length_reply]
      omega
    rw [hhead, ← hlen]
    exact List.drop_left
  constructor
  · intro hagrees
    -- Fed in order, the scrubber takes the ClientInit at its offset, and so does the parser.
    have hscrubber : CaptureWriter.TakesClientInitAt s.inOrder s.clientInitOffset := by
      refine (takesClientInitAt_iff hgranted (causal_inOrder s)).2 ⟨rfl, ?_⟩
      rw [clientBytes_inOrder, hlength]
      omega
    have hparser := (hagrees s.inOrder (causal_inOrder s) _).1 hscrubber
    rw [Parser.takesClientInitAt_iff, flatten_clientChunks, clientBytes_inOrder, hdrop] at hparser
    exact hparser.1
  · intro hprotocol chunks hcausal n
    rw [takesClientInitAt_iff hgranted hcausal, Parser.takesClientInitAt_iff, flatten_clientChunks]
    -- What has been sent so far is a prefix of the wire, on which the handshake ends at one place.
    rcases clientBytes_prefix hcausal with ⟨w, hw⟩
    refine and_congr_left fun hlt => ?_
    rcases protocolBytes_split hprotocol with ⟨head, hhead, hspec⟩
    have hheadLength : head.length = s.clientInitOffset + 1 := by
      have hsum := congrArg List.length hhead
      rw [List.length_append] at hsum
      omega
    constructor
    · rintro rfl
      have hleads : head <+: Proxy.clientBytes chunks := by
        refine List.prefix_of_prefix_length_le ⟨_, hhead.symm⟩ ⟨w, hw⟩ ?_
        omega
      rcases hleads with ⟨x, hx⟩
      rw [← hx, hspec, ← hheadLength, List.drop_left]
    · intro hsome
      have happend := Parser.protocolBytes_append hsome w
      rw [hw, hprotocol, Option.some.injEq] at happend
      have hsum := congrArg List.length happend
      have htotal := congrArg List.length hw
      rw [List.length_append] at hsum htotal
      rw [List.length_drop] at hsum
      omega

/-! ## Which negotiations are understood -/

/-- In a negotiation that is understood the parser follows the session. -/
theorem protocolBytes_of_understood (hgranted : s.granted) {pw : Bool}
    (hpw : s.PasswordCorrect pw) (hunderstood : s.Understood)
    (hard : s.exchange.sectype ≠ AuthTypes.DIFFIE_HELLMAN) :
    protocolBytes pw (s.wire .c2s) = some s.laterC2s := by
  have hdisjoint : ∀ number ∈ RFBServer.newVersions, number ∉ RFBServer.oldVersions := by decide
  rw [(wire_c2s hgranted).1, protocolBytes_reply s.length_reply]
  rcases hunderstood with ⟨hold, hlist⟩ | ⟨hnew, hlist⟩
  · have hcorrect := hpw hlist
    rw [if_pos hold, choice, if_neg hlist, List.nil_append]
    cases hexchange : s.exchange with
    | none =>
        rw [hexchange] at hcorrect
        have hfalse : ¬ pw = true := fun htrue => absurd (hcorrect.1 htrue) (by decide)
        rw [if_neg hfalse]
        rfl
    | vnc challenge response hchallenge hresponse =>
        rw [hexchange] at hcorrect
        have hbytes : tapBytes .c2s
            (Exchange.vnc challenge response hchallenge hresponse).turns = response := by
          simp [Exchange.turns]
        rw [if_pos (hcorrect.2 rfl), hbytes, afterAuth_response hresponse]
        rfl
    | ard _ _ _ _ _ _ _ _ _ _ _ _ =>
        rw [hexchange] at hard
        exact absurd rfl hard
  · rw [if_neg (hdisjoint _ hnew), if_pos hnew, choice, if_pos hlist]
    cases hexchange : s.exchange with
    | none => rfl
    | vnc challenge response hchallenge hresponse =>
        have hbytes : tapBytes .c2s
            (Exchange.vnc challenge response hchallenge hresponse).turns = response := by
          simp [Exchange.turns]
        rw [hbytes, Exchange.sectype, afterSectype_vnc, afterAuth_response hresponse]
        rfl
    | ard _ _ _ _ _ _ _ _ _ _ _ _ =>
        rw [hexchange] at hard
        exact absurd rfl hard

/-- The bytes of the client's exchange. -/
theorem length_exchange (exchange : Exchange) :
    (exchange.sectype = AuthTypes.NONE ∧ (tapBytes .c2s exchange.turns).length = 0) ∨
      (exchange.sectype = AuthTypes.VNC_AUTHENTICATION ∧
        (tapBytes .c2s exchange.turns).length = 16) ∨
      (exchange.sectype = AuthTypes.DIFFIE_HELLMAN ∧
        128 ≤ (tapBytes .c2s exchange.turns).length) := by
  cases exchange with
  | none => exact Or.inl ⟨rfl, rfl⟩
  | vnc challenge response hchallenge hresponse =>
      exact Or.inr (Or.inl ⟨rfl, by simp [Exchange.turns, hresponse]⟩)
  | ard generator modulus serverKey credentials clientKey keyLen hgenerator hkeyLen hmodulus
      hserverKey hcredentials hclientKey =>
      refine Or.inr (Or.inr ⟨rfl, ?_⟩)
      simp [Exchange.turns, hcredentials, ardCredentialsLen]

/-- In any other negotiation the parser's handshake ends elsewhere, unless it reads the
credentials of an ARD exchange as version lines. -/
theorem not_protocolBytes (hgranted : s.granted) {pw : Bool}
    (hnot : ¬ (s.Understood ∧ s.exchange.sectype ≠ AuthTypes.DIFFIE_HELLMAN))
    (hknown : s.exchange.sectype = AuthTypes.DIFFIE_HELLMAN →
      slice s.reply 8 3 ∈ RFBServer.oldVersions ∨ slice s.reply 8 3 ∈ RFBServer.newVersions) :
    protocolBytes pw (s.wire .c2s) ≠ some s.laterC2s := by
  intro hprotocol
  rw [(wire_c2s hgranted).1, protocolBytes_reply s.length_reply] at hprotocol
  have hlength : (s.choice ++ (tapBytes .c2s s.exchange.turns ++ s.shared :: s.laterC2s)).length =
      s.choice.length + (tapBytes .c2s s.exchange.turns).length + 1 + s.laterC2s.length := by
    simp only [List.length_append, List.length_cons]
    omega
  have hchoice : s.choice.length = if s.offersList then 1 else 0 := by
    unfold choice
    split_ifs
    · exact length_packBE 1 _
    · rfl
  have hexchange := length_exchange s.exchange
  have hlarge : s.exchange.sectype = AuthTypes.DIFFIE_HELLMAN →
      128 ≤ (tapBytes .c2s s.exchange.turns).length := by
    intro hard
    rw [hard] at hexchange
    rcases hexchange with ⟨h, -⟩ | ⟨h, -⟩ | ⟨-, h⟩
    · exact absurd h (by decide)
    · exact absurd h (by decide)
    · exact h
  have hsmall : (tapBytes .c2s s.exchange.turns).length = 0 ∨
      (tapBytes .c2s s.exchange.turns).length = 16 ∨
      128 ≤ (tapBytes .c2s s.exchange.turns).length := by
    rcases hexchange with ⟨-, h⟩ | ⟨-, h⟩ | ⟨-, h⟩
    · exact Or.inl h
    · exact Or.inr (Or.inl h)
    · exact Or.inr (Or.inr h)
  by_cases hold : slice s.reply 8 3 ∈ RFBServer.oldVersions
  -- The parser takes 1 or 17 bytes behind the reply.
  · have htaken : (s.choice ++ (tapBytes .c2s s.exchange.turns ++
        s.shared :: s.laterC2s)).length = s.laterC2s.length + 17 ∨
        (s.choice ++ (tapBytes .c2s s.exchange.turns ++
          s.shared :: s.laterC2s)).length = s.laterC2s.length + 1 := by
      rw [if_pos hold] at hprotocol
      split_ifs at hprotocol
      · exact Or.inl (length_afterAuth hprotocol)
      · exact Or.inr (length_afterInit hprotocol)
    by_cases hlist : s.offersList
    · rw [if_pos hlist] at hchoice
      omega
    · rw [if_neg hlist] at hchoice
      have hard := hlarge (not_not.1 fun hne => hnot ⟨Or.inl ⟨hold, hlist⟩, hne⟩)
      omega
  · by_cases hnew : slice s.reply 8 3 ∈ RFBServer.newVersions
    -- Here it takes 2 or 18.
    · rw [if_neg hold, if_pos hnew] at hprotocol
      have htaken := length_afterSectype hprotocol
      by_cases hlist : s.offersList
      · rw [if_pos hlist] at hchoice
        have hard := hlarge (not_not.1 fun hne => hnot ⟨Or.inr ⟨hnew, hlist⟩, hne⟩)
        omega
      · rw [if_neg hlist] at hchoice
        omega
    -- At least one more line is skipped.
    · rw [if_neg hold, if_neg hnew] at hprotocol
      rcases length_clientProtocol hprotocol with ⟨k, htaken⟩
      have hnotArd : ¬ s.exchange.sectype = AuthTypes.DIFFIE_HELLMAN := fun hard =>
        (hknown hard).elim hold hnew
      have hsize : (tapBytes .c2s s.exchange.turns).length = 0 ∨
          (tapBytes .c2s s.exchange.turns).length = 16 := by
        rcases hexchange with ⟨-, h⟩ | ⟨-, h⟩ | ⟨h, -⟩
        · exact Or.inl h
        · exact Or.inr h
        · exact absurd h hnotArd
      by_cases hlist : s.offersList
      · rw [if_pos hlist] at hchoice
        omega
      · rw [if_neg hlist] at hchoice
        omega

/-! ## The negotiations on which the followers agree -/

/-- A session of the same negotiation that is granted, with credentials of nothing but zeros. -/
def zeroed (s : Session) : Session :=
  { s with
    exchange := .ard [0, 0] [] [] (List.replicate ardCredentialsLen 0) [] 0 rfl (by decide) rfl rfl
      rfl rfl
    result := 0
    shared := 0
    laterC2s := []
    result_lt := success_lt }

theorem not_protocolBytes_zeroed {pw : Bool}
    (hunknown : ¬ (slice s.reply 8 3 ∈ RFBServer.oldVersions ∨
      slice s.reply 8 3 ∈ RFBServer.newVersions)) :
    protocolBytes pw (s.zeroed.wire .c2s) ≠ some s.zeroed.laterC2s := by
  have hgranted : s.zeroed.granted := fun _ => rfl
  have hreply : s.zeroed.reply = s.reply := rfl
  have hold : ¬ slice s.reply 8 3 ∈ RFBServer.oldVersions := fun h => hunknown (Or.inl h)
  have hnew : ¬ slice s.reply 8 3 ∈ RFBServer.newVersions := fun h => hunknown (Or.inr h)
  have hbytes : tapBytes .c2s s.zeroed.exchange.turns ++ s.zeroed.shared :: s.zeroed.laterC2s =
      List.replicate 129 0 := rfl
  have hsectype : s.zeroed.exchange.sectype = AuthTypes.DIFFIE_HELLMAN := rfl
  have hlater : s.zeroed.laterC2s = [] := rfl
  -- No line of zeros has a number that is known.
  have hlist : ∀ pw, clientProtocol pw 141 (packBE 1 AuthTypes.DIFFIE_HELLMAN ++
      List.replicate 129 0) ≠ some [] := by decide +kernel
  have hword : ∀ pw, clientProtocol pw 140 ([] ++ List.replicate 129 0) ≠ some [] := by
    decide +kernel
  rw [(wire_c2s hgranted).1, protocolBytes_reply s.zeroed.length_reply, hreply, if_neg hold,
    if_neg hnew, hbytes, hlater, choice, hsectype]
  split_ifs
  · exact hlist pw
  · exact hword pw

/-- The sessions of a negotiation all agree, with `password_required` as it should be, exactly if
the parser understands the version reply and the security type is not ARD. -/
theorem agrees_iff_understood (s : Session) (passwordRequired : Bool)
    (hpw : s.PasswordCorrect passwordRequired) :
    (∀ s', s.SameNegotiation s' → s'.granted → s'.Agrees passwordRequired) ↔
      s.Understood ∧ s.exchange.sectype ≠ AuthTypes.DIFFIE_HELLMAN := by
  constructor
  · intro hagrees
    by_contra hnot
    by_cases hcoincidence : s.exchange.sectype = AuthTypes.DIFFIE_HELLMAN ∧
        ¬ (slice s.reply 8 3 ∈ RFBServer.oldVersions ∨ slice s.reply 8 3 ∈ RFBServer.newVersions)
    -- The credentials decide what the parser makes of them; zeros are no version numbers.
    · rcases hcoincidence with ⟨hard, hunknown⟩
      have hgranted : s.zeroed.granted := fun _ => rfl
      have hsame : s.SameNegotiation s.zeroed := ⟨rfl, hard.symm⟩
      exact not_protocolBytes_zeroed hunknown
        ((agrees_iff hgranted).1 (hagrees s.zeroed hsame hgranted))
    · have hgranted : ({ s with result := 0, result_lt := success_lt } : Session).granted :=
        fun _ => rfl
      refine not_protocolBytes hgranted hnot ?_
        ((agrees_iff hgranted).1 (hagrees _ ⟨rfl, rfl⟩ hgranted))
      intro hard
      by_contra hunknown
      exact hcoincidence ⟨hard, hunknown⟩
  · rintro ⟨hunderstood, hard⟩ s' ⟨hreply, hsectype⟩ hgranted
    have hversion : s'.version = s.version := by
      have hparse := s'.parse_reply
      rw [hreply, s.parse_reply] at hparse
      exact (Option.some.inj hparse).symm
    have hlist : s'.offersList ↔ s.offersList := by
      rw [offersList, offersList, hversion]
    refine (agrees_iff hgranted).2 (protocolBytes_of_understood hgranted ?_ ?_ ?_)
    · rw [PasswordCorrect, hlist, hsectype]
      exact hpw
    · rw [Understood, hlist, hreply]
      exact hunderstood
    · rw [hsectype]
      exact hard

theorem agrees_iff_understood_sample : sample.Agrees false :=
  (agrees_iff_understood sample false (fun h => absurd (by decide) h)).2 (by decide) sample
    ⟨rfl, rfl⟩ (fun _ => rfl)

/-- A session of version 3.889 without authentication. -/
def sample889 : Session :=
  { sample with
    reply := versionLine ⟨3, 889⟩
    version := ⟨3, 889⟩
    exchange := .none
    length_reply := rfl
    parse_reply := by decide }

/-- `RFBServer` takes the rest of the handshake for another version line. -/
theorem not_agrees_889 :
    sample889.granted ∧ sample889.PasswordCorrect false ∧ ¬ sample889.Agrees false := by
  have hgranted : sample889.granted := fun _ => rfl
  refine ⟨hgranted, fun h => absurd (by decide) h, fun hagrees => ?_⟩
  exact not_protocolBytes hgranted (by decide) (fun h => absurd h (by decide))
    ((agrees_iff hgranted).1 hagrees)

end Session

end Vncdotool
