import Vncdotool.Proxy.Server
import Vncdotool.Replay.Messages

/-!
# Framing — `client_message_length` beside `RFBServer`'s protocol handlers

The replay server measures a client message with one function, the recorder's parser takes it
apart with a length table and special cases.  On a message that is complete the two agree, apart
from the types that have no usable entry in the table, and from a threshold that an earlier short
message has left behind.
-/

namespace Vncdotool

open Wire Streaming StateTransition

/-! ## A message and its hook -/

/-- The hook that a message calls, with the fields the message encodes. -/
def messageCall (buffer : Bytes) : Option Call :=
  match MsgC2S.lookup (field buffer 0 1) with
  | some .setPixelFormat => some (.setPixelFormat (PixelFormat.fromBytes (slice buffer 4 16)))
  | some .setEncoding =>
      some (.setEncodings (RFBServer.words (field buffer 2 2) (buffer.drop 4)))
  | some .framebufferUpdateRequest =>
      some (.framebufferUpdate (field buffer 2 2) (field buffer 4 2) (field buffer 6 2)
        (field buffer 8 2) (field buffer 1 1))
  | some .keyEvent => some (.keyEvent (field buffer 4 4) (field buffer 1 1))
  | some .pointerEvent =>
      some (.pointerEvent (field buffer 2 2) (field buffer 4 2) (field buffer 1 1))
  | some .clientCutText => some (.clientCutText (slice buffer 8 (field buffer 4 4)))
  | some .qemuClientMessage =>
      some (.keyEventExtended (field buffer 4 4) (field buffer 2 2) (field buffer 8 4))
  | none => none

/-- What is known of a complete message of each type. -/
theorem CompleteMessage.cases {buffer : Bytes} {n : ℕ} (h : CompleteMessage buffer n) :
    ∃ kind, MsgC2S.lookup (field buffer 0 1) = some kind ∧ (TYPE_LEN kind).getD 0 ≤ n ∧ 1 ≤ n ∧
      (kind = .setEncoding → n = 4 + 4 * field buffer 2 2) ∧
      (kind ≠ .setEncoding → kind ≠ .clientCutText → kind ≠ .qemuClientMessage →
        (TYPE_LEN kind).getD 0 = n) := by
  have hlength := h.length_eq
  cases hkind : MsgC2S.lookup (field buffer 0 1) with
  | none =>
      simp only [hkind, lengthOfKind, unknownMessage] at hlength
      omega
  | some kind =>
      refine ⟨kind, rfl, ?_⟩
      rw [hkind] at hlength
      cases kind with
      | setEncoding =>
          simp only [lengthOfKind, needMore] at hlength
          split_ifs at hlength
          simp [TYPE_LEN]
          omega
      | clientCutText =>
          simp only [lengthOfKind, needMore] at hlength
          split_ifs at hlength
          simp [TYPE_LEN]
          omega
      | qemuClientMessage =>
          simp only [lengthOfKind, needMore, unknownMessage] at hlength
          split_ifs at hlength
          simp [TYPE_LEN]
          omega
      | setPixelFormat =>
          have hn : n = 20 := by simpa [lengthOfKind] using (Int.ofNat_inj.1 hlength).symm
          simp [TYPE_LEN, hn]
      | framebufferUpdateRequest =>
          have hn : n = 10 := by simpa [lengthOfKind] using (Int.ofNat_inj.1 hlength).symm
          simp [TYPE_LEN, hn]
      | keyEvent =>
          have hn : n = 8 := by simpa [lengthOfKind] using (Int.ofNat_inj.1 hlength).symm
          simp [TYPE_LEN, hn]
      | pointerEvent =>
          have hn : n = 6 := by simpa [lengthOfKind] using (Int.ofNat_inj.1 hlength).symm
          simp [TYPE_LEN, hn]

/-! ## A block and its buffer -/

theorem slice_slice (b : Bytes) {off len off' len' : ℕ} (h : off' + len' ≤ len) :
    slice (slice b off len) off' len' = slice b (off + off') len' := by
  rw [slice, slice, slice, List.drop_take, List.drop_drop, List.take_take]
  congr 1
  omega

theorem field_slice (b : Bytes) {off len off' len' : ℕ} (h : off' + len' ≤ len) :
    field (slice b off len) off' len' = field b (off + off') len' := by
  rw [field, field, slice_slice b h]

theorem field_head (kind : UInt8) (rest : Bytes) : field (kind :: rest) 0 1 = kind.toNat := by
  simp [field, slice, unpackBE]

namespace RFBServer

variable {σ : Type} {hooks : Hooks σ} {s : RFBServer σ}

/-- On its own, `RFBServer` does nothing in its hooks. -/
theorem run_call_base (c : Call) :
    (call ({} : Hooks σ) c).run s = .ok () { s with calls := s.calls ++ [c] } := by
  have hbody : ({} : Hooks σ).body c s.app = .ok s.app := by cases c <;> rfl
  exact run_call_ok hbody

/-- A message that the table measures is handled in one call. -/
theorem run_handleProtocol_message {n : ℕ} (h : CompleteMessage s.buffer n)
    (hcut : MsgC2S.lookup (field s.buffer 0 1) ≠ some .clientCutText)
    (hqemu : MsgC2S.lookup (field s.buffer 0 1) ≠ some .qemuClientMessage) :
    ∃ call, messageCall s.buffer = some call ∧
      (handleProtocol ({} : Hooks σ)).run s = .ok ()
        { s with buffer := s.buffer.drop n, calls := s.calls ++ [call] } := by
  have hn := h.2
  rcases h.cases with ⟨kind, hkind, hle, -, hencodings, hfixed⟩
  have htype := typeLen_of_lookup hkind
  have hblock : typeLen (field s.buffer 0 1) ≤ s.buffer.length := by
    rw [htype]
    exact hle.trans hn
  rw [run_handleProtocol_block hblock, htype, hkind]
  -- The type has been taken off the block, so each field stands one byte earlier in it.
  cases kind with
  | setPixelFormat =>
      refine ⟨.setPixelFormat (PixelFormat.fromBytes (slice s.buffer 4 16)),
        by simp [messageCall, hkind], ?_⟩
      have hlen : (20 : ℕ) = n := hfixed (fun h => by cases h) (fun h => by cases h) (fun h => by cases h)
      subst hlen
      have hslice : slice (slice s.buffer 1 (20 - 1)) 3 16 = slice s.buffer 4 16 :=
        slice_slice _ (by decide)
      simp only [TYPE_LEN, Option.getD_some, handleBlock, hslice]
      exact run_call_base _
  | setEncoding =>
      refine ⟨.setEncodings (words (field s.buffer 2 2) (s.buffer.drop 4)),
        by simp [messageCall, hkind], ?_⟩
      have hlen : n = 4 + 4 * field s.buffer 2 2 := hencodings rfl
      have hcount : field (slice s.buffer 1 (4 - 1)) 1 2 = field s.buffer 2 2 :=
        field_slice _ (by decide)
      have htail : ¬ (s.buffer.drop 4).length < 4 * field s.buffer 2 2 := by
        rw [List.length_drop]
        omega
      have hread : ∀ t : RFBServer σ, (get : Srv σ (RFBServer σ)).run t = .ok t t := fun _ => rfl
      simp only [TYPE_LEN, Option.getD_some, handleBlock, EStateM.run_bind, hread, hcount,
        if_neg htail, run_del, List.drop_drop, ← hlen]
      exact run_call_base _
  | framebufferUpdateRequest =>
      refine ⟨.framebufferUpdate (field s.buffer 2 2) (field s.buffer 4 2) (field s.buffer 6 2)
          (field s.buffer 8 2) (field s.buffer 1 1),
        by simp [messageCall, hkind], ?_⟩
      have hlen : (10 : ℕ) = n := hfixed (fun h => by cases h) (fun h => by cases h) (fun h => by cases h)
      subst hlen
      have h2 : field (slice s.buffer 1 (10 - 1)) 1 2 = field s.buffer 2 2 :=
        field_slice _ (by decide)
      have h4 : field (slice s.buffer 1 (10 - 1)) 3 2 = field s.buffer 4 2 :=
        field_slice _ (by decide)
      have h6 : field (slice s.buffer 1 (10 - 1)) 5 2 = field s.buffer 6 2 :=
        field_slice _ (by decide)
      have h8 : field (slice s.buffer 1 (10 - 1)) 7 2 = field s.buffer 8 2 :=
        field_slice _ (by decide)
      have h1 : field (slice s.buffer 1 (10 - 1)) 0 1 = field s.buffer 1 1 :=
        field_slice _ (by decide)
      simp only [TYPE_LEN, Option.getD_some, handleBlock, h2, h4, h6, h8, h1]
      exact run_call_base _
  | keyEvent =>
      refine ⟨.keyEvent (field s.buffer 4 4) (field s.buffer 1 1),
        by simp [messageCall, hkind], ?_⟩
      have hlen : (8 : ℕ) = n := hfixed (fun h => by cases h) (fun h => by cases h) (fun h => by cases h)
      subst hlen
      have h4 : field (slice s.buffer 1 (8 - 1)) 3 4 = field s.buffer 4 4 :=
        field_slice _ (by decide)
      have h1 : field (slice s.buffer 1 (8 - 1)) 0 1 = field s.buffer 1 1 :=
        field_slice _ (by decide)
      simp only [TYPE_LEN, Option.getD_some, handleBlock, h4, h1]
      exact run_call_base _
  | pointerEvent =>
      refine ⟨.pointerEvent (field s.buffer 2 2) (field s.buffer 4 2) (field s.buffer 1 1),
        by simp [messageCall, hkind], ?_⟩
      have hlen : (6 : ℕ) = n := hfixed (fun h => by cases h) (fun h => by cases h) (fun h => by cases h)
      subst hlen
      have h2 : field (slice s.buffer 1 (6 - 1)) 1 2 = field s.buffer 2 2 :=
        field_slice _ (by decide)
      have h4 : field (slice s.buffer 1 (6 - 1)) 3 2 = field s.buffer 4 2 :=
        field_slice _ (by decide)
      have h1 : field (slice s.buffer 1 (6 - 1)) 0 1 = field s.buffer 1 1 :=
        field_slice _ (by decide)
      simp only [TYPE_LEN, Option.getD_some, handleBlock, h2, h4, h1]
      exact run_call_base _
  | clientCutText => exact absurd hkind hcut
  | qemuClientMessage => exact absurd hkind hqemu

/-- The second stage of an extended key event is never armed: the block of a message of length one
is empty, and unpacking it raises. -/
theorem run_handleProtocol_qemu
    (hkind : MsgC2S.lookup (field s.buffer 0 1) = some .qemuClientMessage)
    (hlen : 1 ≤ s.buffer.length) :
    (handleProtocol hooks).run s = .error .structError { s with buffer := s.buffer.drop 1 } := by
  have htype : typeLen (field s.buffer 0 1) = 1 := by
    rw [typeLen_of_lookup hkind]
    rfl
  have hblock : slice s.buffer 1 (1 - 1) = [] := by simp [slice]
  have hle : typeLen (field s.buffer 0 1) ≤ s.buffer.length := by
    rw [htype]
    exact hlen
  rw [run_handleProtocol_block hle, hkind, htype, hblock]
  rfl

/-- A call of `_handle_protocol` keeps the handler, or raises the threshold above one. -/
theorem handleProtocol_handler :
    Ensures (handleProtocol hooks) s
      (fun _ t => t.handler = s.handler ∨ (t.handler.1 = .handleProtocol ∧ t.handler.2 ≠ 1))
      (fun _ t => t.handler = s.handler) := by
  have hcall : ∀ {u : RFBServer σ} {c : Call}, u.handler = s.handler →
      Ensures (call hooks c) u
        (fun _ t => t.handler = s.handler ∨ (t.handler.1 = .handleProtocol ∧ t.handler.2 ≠ 1))
        (fun _ t => t.handler = s.handler) := by
    intro u c hu
    cases hbody : hooks.body c u.app with
    | ok app => exact (ensures_of_run_ok (run_call_ok hbody)).2 (Or.inl hu)
    | error exc => exact (ensures_of_run_error (run_call_error hbody)).2 hu
  by_cases hshort : s.buffer.length < typeLen (field s.buffer 0 1)
  · refine (ensures_of_run_ok (run_handleProtocol_short hshort)).2 (Or.inr ⟨rfl, ?_⟩)
    have hlen : typeLen (field s.buffer 0 1) ≠ 0 := Nat.ne_zero_of_lt hshort
    simpa using hlen
  · have hle := Nat.not_lt.1 hshort
    refine (ensures_of_run_eq (run_handleProtocol_block hle)).2 ?_
    unfold handleBlock
    split
    · exact hcall (by rfl)
    · simp only [ensures_bind, ensures_get, ensures_ite, ensures_throw, ensures_del]
      exact ⟨fun _ => trivial, fun _ => hcall (by rfl)⟩
    · exact hcall (by rfl)
    · exact hcall (by rfl)
    · exact hcall (by rfl)
    · exact hcall (by rfl)
    · next hkind =>
      have htype : typeLen (field s.buffer 0 1) = 1 := by
        rw [typeLen_of_lookup hkind]
        rfl
      simp [htype, slice]
    · simp

end RFBServer

/-! ## The two framers -/

namespace Parser

variable {σ : Type}

/-- The parser takes the message of `n` bytes off the buffer, calls its hook, and is ready for the
next message. -/
def Handles (p : Parser σ) (n : ℕ) : Prop :=
  ∃ q call, Reaches (iterate {}) p q ∧ messageCall p.server.buffer = some call ∧
    q.server.buffer = p.server.buffer.drop n ∧ q.server.calls = p.server.calls ++ [call] ∧
    q.server.handler = (.handleProtocol, 1) ∧ q.raised = none

variable {p q : Parser σ}

/-- A threshold that is not one stays so, as no message arms it anew. -/
theorem threshold_ne_one {hooks : Hooks σ} (hreach : Reaches (iterate hooks) p q)
    (h : p.server.handler.1 = .handleProtocol ∧ p.server.handler.2 ≠ 1) :
    q.server.handler.1 = .handleProtocol ∧ q.server.handler.2 ≠ 1 := by
  refine @reaches_invariant _ (iterate hooks)
    (fun q => q.server.handler.1 = .handleProtocol ∧ q.server.handler.2 ≠ 1) ?_ _ _ hreach h
  rintro a b hstep ⟨hmethod, hthreshold⟩
  rcases iterate_eq_some_iff.1 hstep with ⟨_, rfl⟩
  have hhandler := @RFBServer.handleProtocol_handler _ hooks a.server
  rw [hmethod, RFBServer.dispatch]
  cases hrun : (RFBServer.handleProtocol hooks).run a.server with
  | ok _ t =>
      rcases (ensures_of_run_ok hrun).1 hhandler with hsame | hraised
      · exact hsame ▸ ⟨hmethod, hthreshold⟩
      · exact hraised
  | error exc t =>
      have hsame := (ensures_of_run_error hrun).1 hhandler
      exact hsame ▸ ⟨hmethod, hthreshold⟩

/-- Before a ClientCutText the buffer stays what it is. -/
theorem AtCutText.buffer_eq {hooks : Hooks σ} (hreach : Reaches (iterate hooks) p q)
    (h : p.AtCutText) : q.server.buffer = p.server.buffer := by
  refine (@reaches_invariant _ (iterate hooks)
    (fun q => q.AtCutText ∧ q.server.buffer = p.server.buffer) ?_ _ _ hreach ⟨h, rfl⟩).2
  rintro a b hstep ⟨hcut, hbuffer⟩
  rw [iterate_cutText hcut] at hstep
  cases hstep
  rcases hcut with ⟨hready, hmethod, hkind⟩
  exact ⟨⟨⟨rfl, hready.2⟩, hmethod, hkind⟩, hbuffer⟩

/-- A QEMU message raises. -/
theorem raised_of_qemu {hooks : Hooks σ} (hreach : Reaches (iterate hooks) p q)
    (hmethod : p.server.handler.1 = .handleProtocol)
    (hkind : MsgC2S.lookup (field p.server.buffer 0 1) = some .qemuClientMessage)
    (hlen : 1 ≤ p.server.buffer.length) : q = p ∨ q.raised ≠ none := by
  rcases Relation.ReflTransGen.cases_head hreach with rfl | ⟨m, hstep, hrest⟩
  · exact Or.inl rfl
  · refine Or.inr ?_
    rcases iterate_eq_some_iff.1 hstep with ⟨_, rfl⟩
    rw [hmethod, RFBServer.dispatch, RFBServer.run_handleProtocol_qemu hkind hlen] at hrest
    rcases Relation.ReflTransGen.cases_head hrest with rfl | ⟨m', hstep', _⟩
    · exact fun hnone => by cases hnone
    · exact absurd (iterate_eq_some_iff.1 hstep').1.1 fun hnone => by cases hnone

/-- On a complete message, whatever follows it, the recorder's parser agrees with
`client_message_length` exactly when the type is one the length table serves and no earlier short
message has left its threshold behind. -/
theorem handles_iff (p : Parser σ) (n : ℕ) (hready : p.Ready)
    (hmethod : p.server.handler.1 = .handleProtocol)
    (hmessage : CompleteMessage p.server.buffer n) :
    p.Handles n ↔
      MsgC2S.lookup (field p.server.buffer 0 1) ≠ some .clientCutText ∧
      MsgC2S.lookup (field p.server.buffer 0 1) ≠ some .qemuClientMessage ∧
      p.server.handler.2 = 1 := by
  have hpos : 1 ≤ n := by
    rcases hmessage.cases with ⟨_, _, _, hpos, _⟩
    exact hpos
  have hlen : 1 ≤ p.server.buffer.length := hpos.trans hmessage.2
  constructor
  · rintro ⟨q, call, hreach, _, hbuffer, _, hhandler, hraised⟩
    have hshorter : q.server.buffer ≠ p.server.buffer := by
      intro hsame
      have hdrop := congrArg List.length (hbuffer.symm.trans hsame)
      rw [List.length_drop] at hdrop
      omega
    refine ⟨fun hkind => ?_, fun hkind => ?_, ?_⟩
    · exact hshorter (AtCutText.buffer_eq hreach ⟨hready, hmethod, hkind⟩)
    · rcases raised_of_qemu hreach hmethod hkind hlen with rfl | hraised'
      · exact hshorter rfl
      · exact hraised' hraised
    · by_contra hthreshold
      have hne := threshold_ne_one hreach ⟨hmethod, hthreshold⟩
      exact hne.2 (by rw [hhandler])
  · rintro ⟨hcut, hqemu, hthreshold⟩
    rcases RFBServer.run_handleProtocol_message hmessage hcut hqemu with ⟨call, hcall, hrun⟩
    refine ⟨_, call, Relation.ReflTransGen.single (iterate_eq_some_iff.2 ⟨hready, rfl⟩), hcall, ?_⟩
    rw [hmethod, RFBServer.dispatch, hrun]
    exact ⟨rfl, rfl, Prod.ext hmethod hthreshold, rfl⟩

/-- A parser at the beginning of its first message. -/
def started (buffer : Bytes) : Parser Unit :=
  { server := { handler := (.handleProtocol, 1), buffer := buffer, app := () } }

theorem handles_keyEvent : (started [4, 1, 0, 0, 0, 0, 0, 97, 3]).Handles 8 :=
  (handles_iff (started [4, 1, 0, 0, 0, 0, 0, 97, 3]) 8 (by decide) rfl (by decide)).2 (by decide)

/-- An empty ClientCutText is a complete message of eight bytes. -/
theorem not_handles_cutText :
    CompleteMessage [6, 0, 0, 0, 0, 0, 0, 0] 8 ∧
      ¬ (started [6, 0, 0, 0, 0, 0, 0, 0]).Handles 8 := by
  refine ⟨by decide, ?_⟩
  rintro ⟨q, call, hreach, _, hbuffer, _⟩
  have hsame := AtCutText.buffer_eq hreach ⟨by decide, rfl, by decide⟩
  rw [hsame] at hbuffer
  exact absurd hbuffer (by decide)

end Parser

end Vncdotool
