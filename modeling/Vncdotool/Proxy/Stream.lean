import Vncdotool.Proxy.Framing

/-!
# Stream — a client's byte stream as `RFBServer` takes it apart

A client's stream is the client side of the handshake, complete messages, and what is left.
`clientProtocol` finds the first byte behind the handshake; `splitMessages` cuts what follows it
into messages by `client_message_length`.  The second half describes the parser's loop on the two
parts: the handshake's methods make a `ReceiveLoop`, and a complete message takes one turn.
-/

namespace Vncdotool

open Wire Streaming StateTransition

/-! ## The handshake -/

def afterInit : Bytes → Option Bytes
  | [] => none
  | _ :: rest => some rest

def afterAuth (b : Bytes) : Option Bytes :=
  if 16 ≤ b.length then afterInit (b.drop 16) else none

def afterSectype : Bytes → Option Bytes
  | [] => none
  | sectype :: rest =>
      if sectype.toNat = AuthTypes.VNC_AUTHENTICATION then afterAuth rest else afterInit rest

/-- What follows the handshake, `none` while it is incomplete.  A version line whose number is not
known is skipped. -/
def clientProtocol (passwordRequired : Bool) : ℕ → Bytes → Option Bytes
  | 0, _ => none
  | fuel + 1, b =>
      if b.length < 12 then none
      else if slice b 8 3 ∈ RFBServer.oldVersions then
        if passwordRequired then afterAuth (b.drop 12) else afterInit (b.drop 12)
      else if slice b 8 3 ∈ RFBServer.newVersions then afterSectype (b.drop 12)
      else clientProtocol passwordRequired fuel (b.drop 12)

/-- `clientProtocol` with fuel for every line. -/
def protocolBytes (passwordRequired : Bool) (b : Bytes) : Option Bytes :=
  clientProtocol passwordRequired b.length b

/-- What stands before the rest decides where the rest begins. -/
theorem afterInit_split {b rest : Bytes} (h : afterInit b = some rest) :
    ∃ head, b = head ++ rest ∧ ∀ x, afterInit (head ++ x) = some x := by
  cases b with
  | nil => cases h
  | cons shared tail =>
      cases h
      exact ⟨[shared], rfl, fun _ => rfl⟩

theorem afterAuth_split {b rest : Bytes} (h : afterAuth b = some rest) :
    ∃ head, b = head ++ rest ∧ ∀ x, afterAuth (head ++ x) = some x := by
  unfold afterAuth at h
  split_ifs at h with hlen
  rcases afterInit_split h with ⟨head, hhead, hrest⟩
  have htake : (b.take 16).length = 16 := List.length_take_of_le hlen
  refine ⟨b.take 16 ++ head, ?_, ?_⟩
  · rw [List.append_assoc, ← hhead, List.take_append_drop]
  · intro x
    have hdrop : (b.take 16 ++ head ++ x).drop 16 = head ++ x := by
      rw [List.append_assoc, List.drop_append, htake]
      simp
    rw [afterAuth, hdrop, if_pos (by simp [htake]), hrest]

theorem afterSectype_split {b rest : Bytes} (h : afterSectype b = some rest) :
    ∃ head, b = head ++ rest ∧ ∀ x, afterSectype (head ++ x) = some x := by
  cases b with
  | nil => cases h
  | cons sectype tail =>
      simp only [afterSectype] at h
      split_ifs at h with hvnc
      · rcases afterAuth_split h with ⟨head, hhead, hrest⟩
        refine ⟨sectype :: head, by simp [hhead], ?_⟩
        intro x
        simp [afterSectype, hvnc, hrest]
      · rcases afterInit_split h with ⟨head, hhead, hrest⟩
        refine ⟨sectype :: head, by simp [hhead], ?_⟩
        intro x
        simp [afterSectype, hvnc, hrest]

theorem clientProtocol_line {pw : Bool} {fuel : ℕ} {line : Bytes} (hline : line.length = 12)
    (b : Bytes) : clientProtocol pw (fuel + 1) (line ++ b) =
      if slice line 8 3 ∈ RFBServer.oldVersions then
        if pw then afterAuth b else afterInit b
      else if slice line 8 3 ∈ RFBServer.newVersions then afterSectype b
      else clientProtocol pw fuel b := by
  have hlen : ¬ (line ++ b).length < 12 := by
    rw [List.length_append]
    omega
  have hslice : slice (line ++ b) 8 3 = slice line 8 3 := slice_append_left _ _ (by omega)
  have hdrop : (line ++ b).drop 12 = b := by
    rw [← hline]
    exact List.drop_left
  rw [clientProtocol, if_neg hlen, hslice, hdrop]

theorem clientProtocol_split {pw : Bool} {fuel : ℕ} :
    ∀ {b rest : Bytes}, clientProtocol pw fuel b = some rest →
      ∃ head, b = head ++ rest ∧
        ∀ x fuel', head.length ≤ fuel' → clientProtocol pw fuel' (head ++ x) = some x := by
  induction fuel with
  | zero =>
      intro b rest h
      cases h
  | succ fuel ih =>
      intro b rest h
      by_cases hlen : b.length < 12
      · rw [clientProtocol, if_pos hlen] at h
        cases h
      · have htake : (b.take 12).length = 12 := List.length_take_of_le (Nat.not_lt.1 hlen)
        -- Whatever part the line leads to, the line goes in front of its head.
        have hfront : ∀ {part : ℕ → Bytes → Option Bytes} {head : Bytes},
            b.drop 12 = head ++ rest →
            (∀ f y, clientProtocol pw (f + 1) (b.take 12 ++ y) = part f y) →
            (∀ x f, head.length ≤ f → part f (head ++ x) = some x) →
            ∃ head, b = head ++ rest ∧
              ∀ x fuel', head.length ≤ fuel' → clientProtocol pw fuel' (head ++ x) = some x := by
          intro part head hhead hpart hrest
          refine ⟨b.take 12 ++ head, ?_, ?_⟩
          · rw [List.append_assoc, ← hhead, List.take_append_drop]
          · intro x fuel' hfuel
            rw [List.length_append, htake] at hfuel
            cases fuel' with
            | zero => omega
            | succ f =>
                rw [List.append_assoc, hpart]
                exact hrest x f (by omega)
        have hline : ∀ f y, clientProtocol pw (f + 1) (b.take 12 ++ y) = _ := fun f y =>
          clientProtocol_line htake y
        rw [← List.take_append_drop 12 b, clientProtocol_line htake] at h
        by_cases hold : slice (b.take 12) 8 3 ∈ RFBServer.oldVersions
        · cases pw with
          | true =>
              rw [if_pos hold] at h
              rcases afterAuth_split h with ⟨head, hhead, hrest⟩
              exact hfront hhead hline fun x f _ => by simp [hold, hrest]
          | false =>
              rw [if_pos hold] at h
              rcases afterInit_split h with ⟨head, hhead, hrest⟩
              exact hfront hhead hline fun x f _ => by simp [hold, hrest]
        · by_cases hnew : slice (b.take 12) 8 3 ∈ RFBServer.newVersions
          · rw [if_neg hold, if_pos hnew] at h
            rcases afterSectype_split h with ⟨head, hhead, hrest⟩
            exact hfront hhead hline fun x f _ => by simp [hold, hnew, hrest]
          · rw [if_neg hold, if_neg hnew] at h
            rcases ih h with ⟨head, hhead, hrest⟩
            exact hfront hhead hline fun x f hf => by simp [hold, hnew, hrest x f hf]

theorem protocolBytes_split {pw : Bool} {b rest : Bytes} (h : protocolBytes pw b = some rest) :
    ∃ head, b = head ++ rest ∧ ∀ x, protocolBytes pw (head ++ x) = some x := by
  rcases clientProtocol_split h with ⟨head, hhead, hrest⟩
  refine ⟨head, hhead, fun x => hrest x _ ?_⟩
  rw [List.length_append]
  exact Nat.le_add_right _ _

theorem protocolBytes_reply {pw : Bool} {line : Bytes} (hline : line.length = 12) (b : Bytes) :
    protocolBytes pw (line ++ b) =
      if slice line 8 3 ∈ RFBServer.oldVersions then
        if pw then afterAuth b else afterInit b
      else if slice line 8 3 ∈ RFBServer.newVersions then afterSectype b
      else clientProtocol pw (b.length + 11) b := by
  have hfuel : (line ++ b).length = b.length + 11 + 1 := by
    rw [List.length_append, hline]
    omega
  rw [protocolBytes, hfuel, clientProtocol_line hline]

theorem afterSectype_vnc (b : Bytes) :
    afterSectype (packBE 1 AuthTypes.VNC_AUTHENTICATION ++ b) = afterAuth b := rfl

theorem afterAuth_response {response b : Bytes} (h : response.length = 16) :
    afterAuth (response ++ b) = afterInit b := by
  have hdrop : (response ++ b).drop 16 = b := by
    rw [← h]
    exact List.drop_left
  rw [afterAuth, if_pos (by simp [h]), hdrop]

/-! ## The length of the handshake -/

theorem length_afterInit {b rest : Bytes} (h : afterInit b = some rest) :
    b.length = rest.length + 1 := by
  cases b with
  | nil => cases h
  | cons shared tail =>
      cases h
      rfl

theorem length_afterAuth {b rest : Bytes} (h : afterAuth b = some rest) :
    b.length = rest.length + 17 := by
  unfold afterAuth at h
  split_ifs at h with hlen
  have hdrop := length_afterInit h
  rw [List.length_drop] at hdrop
  omega

theorem length_afterSectype {b rest : Bytes} (h : afterSectype b = some rest) :
    b.length = rest.length + 2 ∨ b.length = rest.length + 18 := by
  cases b with
  | nil => cases h
  | cons sectype tail =>
      simp only [afterSectype] at h
      split_ifs at h
      · exact Or.inr (congrArg Nat.succ (length_afterAuth h))
      · exact Or.inl (congrArg Nat.succ (length_afterInit h))

/-- Behind the lines it skips, the parser takes one of four lengths. -/
theorem length_clientProtocol {pw : Bool} {fuel : ℕ} :
    ∀ {b rest : Bytes}, clientProtocol pw fuel b = some rest →
      ∃ k, b.length = rest.length + 12 * (k + 1) + 1 ∨ b.length = rest.length + 12 * (k + 1) + 17 ∨
        b.length = rest.length + 12 * (k + 1) + 2 ∨ b.length = rest.length + 12 * (k + 1) + 18 := by
  induction fuel with
  | zero =>
      intro b rest h
      cases h
  | succ fuel ih =>
      intro b rest h
      unfold clientProtocol at h
      have hdrop : (b.drop 12).length = b.length - 12 := List.length_drop
      split_ifs at h with hlen hold hpw hnew
      · have hlength := length_afterAuth h
        exact ⟨0, by omega⟩
      · have hlength := length_afterInit h
        exact ⟨0, by omega⟩
      · rcases length_afterSectype h with hlength | hlength
        · exact ⟨0, by omega⟩
        · exact ⟨0, by omega⟩
      · rcases ih h with ⟨k, hlength⟩
        exact ⟨k + 1, by omega⟩

/-! ## The messages -/

/-- The length of the complete message at the head of the buffer. -/
def nextMessage (b : Bytes) : Option ℕ :=
  match clientMessageLength b with
  | .ok n => if 0 ≤ n ∧ n ≤ b.length then some n.toNat else none
  | .error _ => none

/-- The complete messages of a buffer, and what is left behind them. -/
def splitMessages : ℕ → Bytes → List Bytes × Bytes
  | 0, b => ([], b)
  | fuel + 1, b =>
      match nextMessage b with
      | none => ([], b)
      | some n => (b.take n :: (splitMessages fuel (b.drop n)).1, (splitMessages fuel (b.drop n)).2)

def messages (b : Bytes) : List Bytes × Bytes :=
  splitMessages b.length b

theorem nextMessage_eq_some_iff {b : Bytes} {n : ℕ} :
    nextMessage b = some n ↔ CompleteMessage b n := by
  unfold nextMessage CompleteMessage
  cases clientMessageLength b with
  | error exc => simp
  | ok z =>
      simp only [Except.ok.injEq]
      split_ifs with h
      · rw [Option.some.injEq]
        omega
      · simp only [false_iff]
        omega

/-! ## A message and what follows it -/

/-- For the types the length table serves, a message measures the same whatever follows it. -/
theorem lengthOfKind_append {kind : MsgC2S} {m : Bytes} (x : Bytes) (hcut : kind ≠ .clientCutText)
    (hqemu : kind ≠ .qemuClientMessage) (hlen : (TYPE_LEN kind).getD 0 ≤ m.length) :
    lengthOfKind (m ++ x) (some kind) = lengthOfKind m (some kind) := by
  cases kind with
  | setEncoding =>
      have hfour : 2 + 2 ≤ m.length := hlen
      have hm : ¬ m.length < 4 := Nat.not_lt.2 hfour
      have hmx : ¬ (m ++ x).length < 4 := by
        rw [List.length_append]
        omega
      simp only [lengthOfKind, if_neg hm, if_neg hmx, field_append_left m x hfour]
  | clientCutText => exact absurd rfl hcut
  | qemuClientMessage => exact absurd rfl hqemu
  | setPixelFormat => rfl
  | framebufferUpdateRequest => rfl
  | keyEvent => rfl
  | pointerEvent => rfl

/-- A complete message of a type the length table serves. -/
structure Served (m : Bytes) : Prop where
  complete : CompleteMessage m m.length
  not_cutText : MsgC2S.lookup (field m 0 1) ≠ some .clientCutText
  not_qemu : MsgC2S.lookup (field m 0 1) ≠ some .qemuClientMessage

/-- The hook a message calls. -/
def callOf (m : Bytes) : Call :=
  (messageCall m).getD .loseConnection

theorem words_append (a b : Bytes) {n : ℕ} (h : 4 * n ≤ a.length) :
    RFBServer.words n (a ++ b) = RFBServer.words n a := by
  refine List.map_congr_left ?_
  intro i hi
  have hlt : i < n := List.mem_range.1 hi
  exact field_append_left a b (by omega)

namespace Served

variable {m : Bytes}

theorem length_pos (h : Served m) : 1 ≤ m.length := by
  rcases h.complete.cases with ⟨_, _, _, hpos, _⟩
  exact hpos

theorem head_append (h : Served m) (x : Bytes) : field (m ++ x) 0 1 = field m 0 1 :=
  field_append_left m x h.length_pos

theorem complete_append (h : Served m) (x : Bytes) : CompleteMessage (m ++ x) m.length := by
  have hpos : 1 ≤ (m ++ x).length := by
    rw [List.length_append]
    exact le_add_right h.length_pos
  rcases h.complete.cases with ⟨kind, hkind, hle, -⟩
  have hcut : kind ≠ .clientCutText := fun heq => h.not_cutText (heq ▸ hkind)
  have hqemu : kind ≠ .qemuClientMessage := fun heq => h.not_qemu (heq ▸ hkind)
  refine ⟨?_, by simp⟩
  rw [clientMessageLength_of_pos hpos, h.head_append, hkind, lengthOfKind_append x hcut hqemu hle,
    ← hkind, h.complete.length_eq]

/-- The message at the head of a buffer. -/
theorem of_buffer {b : Bytes} {n : ℕ} (h : CompleteMessage b n)
    (hcut : MsgC2S.lookup (field b 0 1) ≠ some .clientCutText)
    (hqemu : MsgC2S.lookup (field b 0 1) ≠ some .qemuClientMessage) :
    Served (b.take n) ∧ (b.take n).length = n := by
  have hlen : (b.take n).length = n := List.length_take_of_le h.2
  rcases h.cases with ⟨kind, hkind, hle, hpos, -⟩
  have hhead : field (b.take n) 0 1 = field b 0 1 := by
    have hone : 0 + 1 ≤ (b.take n).length := by
      rw [hlen]
      exact hpos
    have hsplit := field_append_left (b.take n) (b.drop n) hone
    rw [List.take_append_drop] at hsplit
    exact hsplit.symm
  have hlength : lengthOfKind (b.take n) (some kind) = n := by
    have hsplit := lengthOfKind_append (b.drop n) (fun heq => hcut (heq ▸ hkind))
      (fun heq => hqemu (heq ▸ hkind)) (hlen.symm ▸ hle)
    rw [List.take_append_drop, ← hkind, h.length_eq] at hsplit
    exact hkind ▸ hsplit.symm
  refine ⟨⟨⟨?_, le_rfl⟩, hhead.symm ▸ hcut, hhead.symm ▸ hqemu⟩, hlen⟩
  rw [clientMessageLength_of_pos (hlen.symm ▸ hpos), hhead, hkind, hlength, hlen]

theorem messageCall_append (h : Served m) (x : Bytes) :
    messageCall (m ++ x) = some (callOf m) := by
  rcases h.complete.cases with ⟨kind, hkind, hle, -, hencodings, -⟩
  have hhead := h.head_append x
  unfold callOf messageCall
  rw [hhead, hkind]
  cases kind with
  | setPixelFormat =>
      have hlen : 20 ≤ m.length := hle
      simp [slice_append_left m x (show 4 + 16 ≤ m.length from hlen)]
  | setEncoding =>
      have hlen : m.length = 4 + 4 * field m 2 2 := hencodings rfl
      have hcount : field (m ++ x) 2 2 = field m 2 2 := field_append_left m x (by omega)
      have hdrop : (m ++ x).drop 4 = m.drop 4 ++ x := List.drop_append_of_le_length (by omega)
      have hwords : RFBServer.words (field m 2 2) (m.drop 4 ++ x) =
          RFBServer.words (field m 2 2) (m.drop 4) := by
        refine words_append _ _ ?_
        rw [List.length_drop]
        omega
      simp [hcount, hdrop, hwords]
  | framebufferUpdateRequest =>
      have hlen : 10 ≤ m.length := hle
      have hfield : ∀ off len, off + len ≤ 10 → field (m ++ x) off len = field m off len :=
        fun off len hoff => field_append_left m x (hoff.trans hlen)
      simp [hfield]
  | keyEvent =>
      have hlen : 8 ≤ m.length := hle
      have hfield : ∀ off len, off + len ≤ 8 → field (m ++ x) off len = field m off len :=
        fun off len hoff => field_append_left m x (hoff.trans hlen)
      simp [hfield]
  | pointerEvent =>
      have hlen : 6 ≤ m.length := hle
      have hfield : ∀ off len, off + len ≤ 6 → field (m ++ x) off len = field m off len :=
        fun off len hoff => field_append_left m x (hoff.trans hlen)
      simp [hfield]
  | clientCutText => exact absurd hkind h.not_cutText
  | qemuClientMessage => exact absurd hkind h.not_qemu

end Served

/-! ## The loop behind the handshake -/

namespace Parser

/-- A parser behind the handshake. -/
def behind (passwordRequired : Bool) (threshold : ℕ) (buffer : Bytes) (calls : List Call) :
    Parser Unit :=
  { server :=
      { handler := (.handleProtocol, threshold), buffer := buffer,
        passwordRequired := passwordRequired, app := (), calls := calls } }

section Behind

variable {pw : Bool} {t : ℕ} {b m x : Bytes} {calls : List Call}

theorem ready_behind_iff : (behind pw t b calls).Ready ↔ t ≤ b.length := by
  simp [Ready, behind]

theorem iterate_behind (h : t ≤ b.length) : iterate {} (behind pw t b calls) =
    some (ofResult ((RFBServer.handleProtocol {}).run (behind pw t b calls).server)) := by
  rw [iterate, if_pos (ready_behind_iff.2 h)]
  rfl

/-- A message that has not arrived completely sets the threshold one too high. -/
theorem iterate_short (h : t ≤ b.length) (hshort : b.length < typeLen (field b 0 1)) :
    iterate {} (behind pw t b calls) =
      some (behind pw (typeLen (field b 0 1) + 1) b calls) := by
  rw [iterate_behind h, RFBServer.run_handleProtocol_short hshort]
  rfl

/-- A complete message takes one turn. -/
theorem iterate_message (hm : Served m) (h : t ≤ (m ++ x).length) :
    iterate {} (behind pw t (m ++ x) calls) = some (behind pw t x (calls ++ [callOf m])) := by
  have hhead := hm.head_append x
  have hcomplete := hm.complete_append x
  rcases @RFBServer.run_handleProtocol_message _ (behind pw t (m ++ x) calls).server m.length
    hcomplete (fun hkind => hm.not_cutText (hhead ▸ hkind))
    (fun hkind => hm.not_qemu (hhead ▸ hkind)) with ⟨call, hcall, hrun⟩
  have hsame : call = callOf m :=
    Option.some.inj (hcall.symm.trans (hm.messageCall_append x))
  rw [iterate_behind h, hrun, hsame]
  simp [behind, ofResult]

theorem eq_of_raised {p p' q : Parser Unit} {hooks : Hooks Unit}
    (hstep : iterate hooks p = some p') (hraised : p'.raised ≠ none)
    (hq : HaltsAt (iterate hooks) p q) : q = p' := by
  have hrest : iterate hooks p' = none := iterate_eq_none_iff.2 fun hready => hraised hready.1
  exact hq.unique (HaltsAt.head hstep (HaltsAt.refl hrest))

/-- A type the protocol does not define raises. -/
theorem iterate_unknown (h : t ≤ b.length) (hkind : MsgC2S.lookup (field b 0 1) = none) :
    iterate {} (behind pw t b calls) =
      some { behind pw t b calls with raised := some .protocolError } := by
  have htype : typeLen (field b 0 1) = 0 := by simp [typeLen, hkind]
  have hle : typeLen (field (behind pw t b calls).server.buffer 0 1) ≤
      (behind pw t b calls).server.buffer.length := by
    have hbuffer : (behind pw t b calls).server.buffer = b := rfl
    rw [hbuffer, htype]
    exact Nat.zero_le _
  have hkind' : MsgC2S.lookup (field (behind pw t b calls).server.buffer 0 1) = none := hkind
  rw [iterate_behind h, RFBServer.run_handleProtocol_block hle, hkind']
  have htype' : typeLen (field (behind pw t b calls).server.buffer 0 1) = 0 := htype
  rw [htype']
  rfl

/-- A SetEncodings whose header is there and whose list is not raises, its header lost. -/
theorem iterate_cutList (h : t ≤ b.length)
    (hkind : MsgC2S.lookup (field b 0 1) = some .setEncoding) (hhead : 4 ≤ b.length)
    (htail : b.length < 4 + 4 * field b 2 2) :
    iterate {} (behind pw t b calls) =
      some { behind pw t (b.drop 4) calls with raised := some .structError } := by
  have htype : typeLen (field b 0 1) = 4 := by
    rw [typeLen_of_lookup hkind]
    rfl
  have hcount : field (slice b 1 (4 - 1)) 1 2 = field b 2 2 := field_slice _ (by decide)
  have hshort : (b.drop 4).length < 4 * field b 2 2 := by
    rw [List.length_drop]
    omega
  have hbuffer : (behind pw t b calls).server.buffer = b := rfl
  have hle : typeLen (field (behind pw t b calls).server.buffer 0 1) ≤
      (behind pw t b calls).server.buffer.length := by
    rw [hbuffer, htype]
    exact hhead
  have hread : ∀ u : RFBServer Unit, (get : Srv Unit (RFBServer Unit)).run u = .ok u u :=
    fun _ => rfl
  rw [iterate_behind h, RFBServer.run_handleProtocol_block hle, hbuffer, hkind, htype]
  simp only [RFBServer.handleBlock, EStateM.run_bind, hread, hcount, if_pos hshort]
  rfl

/-! ## A run over the whole of the messages -/

/-- A stretch of served messages, and a tail that is shorter than the fixed part of its type. -/
inductive Parsed : Bytes → List Bytes → Bytes → Prop
  | tail (r : Bytes) (h : r = [] ∨ (1 ≤ r.length ∧ r.length < typeLen (field r 0 1))) :
      Parsed r [] r
  | message (m s : Bytes) (ms : List Bytes) (r : Bytes) (hm : Served m) (h : Parsed s ms r) :
      Parsed (m ++ s) (m :: ms) r

/-- When the loop comes to rest without raising, the message it began with was a served one. -/
theorem complete_of_haltsAt {q : Parser Unit} (hready : t ≤ b.length) (hpos : 1 ≤ b.length)
    (hlong : typeLen (field b 0 1) ≤ b.length)
    (hq : HaltsAt (iterate {}) (behind pw t b calls) q) (hraised : q.raised = none) :
    ∃ n, CompleteMessage b n ∧ MsgC2S.lookup (field b 0 1) ≠ some .clientCutText ∧
      MsgC2S.lookup (field b 0 1) ≠ some .qemuClientMessage := by
  cases hkind : MsgC2S.lookup (field b 0 1) with
  | none =>
      have heq := eq_of_raised (iterate_unknown hready hkind) (fun h => by cases h) hq
      rw [heq] at hraised
      cases hraised
  | some kind =>
      have hlength := clientMessageLength_of_pos hpos
      rw [typeLen_of_lookup hkind] at hlong
      rw [hkind] at hlength
      cases kind with
      | setPixelFormat => exact ⟨20, ⟨hlength, hlong⟩, (fun h => by cases h), (fun h => by cases h)⟩
      | framebufferUpdateRequest => exact ⟨10, ⟨hlength, hlong⟩, (fun h => by cases h), (fun h => by cases h)⟩
      | keyEvent => exact ⟨8, ⟨hlength, hlong⟩, (fun h => by cases h), (fun h => by cases h)⟩
      | pointerEvent => exact ⟨6, ⟨hlength, hlong⟩, (fun h => by cases h), (fun h => by cases h)⟩
      | setEncoding =>
          by_cases htail : b.length < 4 + 4 * field b 2 2
          · have heq := eq_of_raised (iterate_cutList hready hkind hlong htail) (fun h => by cases h) hq
            rw [heq] at hraised
            cases hraised
          · have hhead : ¬ b.length < 4 := Nat.not_lt.2 hlong
            rw [lengthOfKind, if_neg hhead] at hlength
            exact ⟨4 + 4 * field b 2 2, ⟨hlength, Nat.not_lt.1 htail⟩, (fun h => by cases h), (fun h => by cases h)⟩
      | clientCutText =>
          have hcut : (behind pw t b calls).AtCutText := ⟨ready_behind_iff.2 hready, rfl, hkind⟩
          exact absurd ⟨q, hq⟩ hcut.stalls
      | qemuClientMessage =>
          have hstep := @iterate_behind pw t b calls hready
          rw [RFBServer.run_handleProtocol_qemu hkind hpos] at hstep
          have heq := eq_of_raised hstep (fun h => by cases h) hq
          rw [heq] at hraised
          cases hraised

/-- On a stream behind the handshake a single delivery that does not raise parses it to its end. -/
theorem parsed_of_haltsAt {q : Parser Unit} (hraised : q.raised = none) :
    ∀ {n : ℕ} {b : Bytes} {calls : List Call}, b.length = n →
      HaltsAt (iterate {}) (behind pw 1 b calls) q →
        ∃ ms r, Parsed b ms r ∧ q.server.calls = calls ++ ms.map callOf ∧ q.server.buffer = r := by
  intro n
  induction n using Nat.strong_induction_on with
  | h n ih =>
      intro b calls hlen hq
      by_cases hready : 1 ≤ b.length
      · by_cases hshort : b.length < typeLen (field b 0 1)
        · have hrest : iterate {} (behind pw (typeLen (field b 0 1) + 1) b calls) = none := by
            refine iterate_eq_none_iff.2 fun hready' => ?_
            have hle := ready_behind_iff.1 hready'
            omega
          -- A message that is not complete is waited for.
          have heq := hq.unique (HaltsAt.head (iterate_short hready hshort) (HaltsAt.refl hrest))
          exact ⟨[], b, Parsed.tail b (Or.inr ⟨hready, hshort⟩), by simp [heq, behind],
            by simp [heq, behind]⟩
        -- A message is complete: it is handled, and the rest of the stream is shorter.
        · rcases complete_of_haltsAt hready hready (Nat.not_lt.1 hshort) hq hraised with
            ⟨k, hcomplete, hcut, hqemu⟩
          rcases Served.of_buffer hcomplete hcut hqemu with ⟨hm, hmlen⟩
          have hpos := hm.length_pos
          have hready' : 1 ≤ (b.take k ++ b.drop k).length := by
            rw [List.take_append_drop]
            exact hready
          have hstep := @iterate_message pw 1 (b.take k) (b.drop k) calls hm hready'
          rw [List.take_append_drop] at hstep
          have hdrop : (b.drop k).length < n := by
            rw [List.length_drop]
            omega
          rcases ih _ hdrop rfl ((HaltsAt.iff_of_step hstep).1 hq) with
            ⟨ms, r, hparsed, hcalls, hbuffer⟩
          have hcons := Parsed.message (b.take k) (b.drop k) ms r hm hparsed
          rw [List.take_append_drop] at hcons
          exact ⟨b.take k :: ms, r, hcons, by simp [hcalls], hbuffer⟩
      · have hnil : b = [] := List.length_eq_zero_iff.1 (by omega)
        have hrest : iterate {} (behind pw 1 b calls) = none :=
          iterate_eq_none_iff.2 fun hready' => hready (ready_behind_iff.1 hready')
        have heq := hq.eq_of_none hrest
        exact ⟨[], b, Parsed.tail b (Or.inl hnil), by simp [heq, behind], by simp [heq, behind]⟩

/-- Such a parse is what `client_message_length` makes of the stream. -/
theorem Parsed.messages_eq {s : Bytes} {ms : List Bytes} {r : Bytes} (h : Parsed s ms r) :
    ∀ {fuel : ℕ}, s.length ≤ fuel → splitMessages fuel s = (ms, r) := by
  induction h with
  | tail r h =>
      intro fuel _
      have hnone : nextMessage r = none := by
        refine Option.eq_none_iff_forall_ne_some.2 fun n hn => ?_
        have hcomplete := nextMessage_eq_some_iff.1 hn
        rcases hcomplete.cases with ⟨kind, hkind, hle, hpos, -⟩
        rw [← typeLen_of_lookup hkind] at hle
        have hn := hcomplete.2
        rcases h with rfl | ⟨_, hshort⟩
        · rw [List.length_nil] at hn
          omega
        · omega
      cases fuel with
      | zero => rfl
      | succ fuel => simp [splitMessages, hnone]
  | message m s ms r hm h ih =>
      intro fuel hfuel
      have hpos := hm.length_pos
      rw [List.length_append] at hfuel
      cases fuel with
      | zero => omega
      | succ fuel =>
          have hnext := nextMessage_eq_some_iff.2 (hm.complete_append s)
          have hrest : splitMessages fuel s = (ms, r) := ih (by omega)
          simp [splitMessages, hnext, hrest]

end Behind

end Parser

/-! ## The loop of the handshake -/

namespace RFBServer

/-- The thresholds the handshake's methods are armed with. -/
def greetThreshold : Method → Option ℕ
  | .handleVersion => some 12
  | .handleSecurity => some 1
  | .handleVNCAuthResponse => some 16
  | .handleClientInit => some 1
  | .handleProtocol => none
  | .handleQemuExtendedKeyEvent => none

/-- What a method of the handshake does; no hook of `RFBServer` raises in it. -/
def greeted (s : RFBServer Unit) : RFBServer Unit :=
  match s.handler.1 with
  | .handleVersion =>
      { s with
        handler := afterVersion s.passwordRequired s.handler (s.buffer.take 12)
        buffer := s.buffer.drop 12
        calls := s.calls ++ versionCalls (s.buffer.take 12) }
  | .handleSecurity =>
      { s with handler := afterSecurity (field s.buffer 0 1), buffer := s.buffer.drop 1 }
  | .handleVNCAuthResponse =>
      { s with handler := (.handleClientInit, 1), buffer := s.buffer.drop 16 }
  | .handleClientInit =>
      { s with
        handler := (.handleProtocol, 1)
        buffer := s.buffer.drop 1
        calls := s.calls ++ [.clientInit (field s.buffer 0 1)] }
  | _ => s

/-- One turn of the loop as long as the handshake lasts. -/
def greetStep (s : RFBServer Unit) : Option (RFBServer Unit) :=
  if greetThreshold s.handler.1 = some s.handler.2 ∧ s.handler.2 ≤ s.buffer.length then
    some s.greeted
  else none

/-- `self.buffer += data`. -/
def deliver (s : RFBServer Unit) (data : Bytes) : RFBServer Unit :=
  { s with buffer := s.buffer ++ data }

theorem greetStep_eq_some_iff {s s' : RFBServer Unit} : greetStep s = some s' ↔
    (greetThreshold s.handler.1 = some s.handler.2 ∧ s.handler.2 ≤ s.buffer.length) ∧
      s' = s.greeted := by
  unfold greetStep
  split_ifs with h
  · simp [h, eq_comm]
  · simp [h]

theorem iterate_of_greetStep {s s' : RFBServer Unit} (h : greetStep s = some s') :
    Parser.iterate {} { server := s } = some { server := s' } := by
  rcases greetStep_eq_some_iff.1 h with ⟨⟨hthreshold, hready⟩, rfl⟩
  have hp : Parser.Ready { server := s } := ⟨rfl, hready⟩
  rw [Parser.iterate, if_pos hp]
  dsimp only
  unfold greeted
  cases hmethod : s.handler.1 with
  | handleVersion =>
      rw [dispatch, run_handleVersion]
      rfl
  | handleSecurity =>
      rw [dispatch, run_handleSecurity]
      rfl
  | handleVNCAuthResponse =>
      rw [dispatch, run_handleVNCAuthResponse]
      rfl
  | handleClientInit =>
      rw [dispatch, run_handleClientInit, run_call_base]
      rfl
  | handleProtocol =>
      rw [hmethod] at hthreshold
      cases hthreshold
  | handleQemuExtendedKeyEvent =>
      rw [hmethod] at hthreshold
      cases hthreshold

theorem reaches_of_greetStep {s s' : RFBServer Unit} (h : Reaches greetStep s s') :
    Reaches (Parser.iterate {}) { server := s } { server := s' } := by
  induction h with
  | refl => exact Relation.ReflTransGen.refl
  | tail _ hlast ih => exact ih.tail (iterate_of_greetStep hlast)

/-- The methods of the handshake look at no more of the buffer than their thresholds. -/
theorem greetStep_deliver (s s' : RFBServer Unit) (data : Bytes) (h : greetStep s = some s') :
    greetStep (s.deliver data) = some (s'.deliver data) := by
  rcases greetStep_eq_some_iff.1 h with ⟨⟨hthreshold, hready⟩, rfl⟩
  have hready' : s.handler.2 ≤ (s.buffer ++ data).length := by
    rw [List.length_append]
    exact le_add_right hready
  refine greetStep_eq_some_iff.2 ⟨⟨hthreshold, hready'⟩, ?_⟩
  unfold greeted deliver
  dsimp only
  cases hmethod : s.handler.1 with
  | handleVersion =>
      rw [hmethod] at hthreshold
      have hlen : 12 ≤ s.buffer.length := Option.some.inj hthreshold ▸ hready
      simp only [List.take_append_of_le_length hlen, List.drop_append_of_le_length hlen]
  | handleSecurity =>
      rw [hmethod] at hthreshold
      have hlen : 1 ≤ s.buffer.length := Option.some.inj hthreshold ▸ hready
      have hhead : field (s.buffer ++ data) 0 1 = field s.buffer 0 1 :=
        field_append_left s.buffer data hlen
      simp only [hhead, List.drop_append_of_le_length hlen]
  | handleVNCAuthResponse =>
      rw [hmethod] at hthreshold
      have hlen : 16 ≤ s.buffer.length := Option.some.inj hthreshold ▸ hready
      simp only [List.drop_append_of_le_length hlen]
  | handleClientInit =>
      rw [hmethod] at hthreshold
      have hlen : 1 ≤ s.buffer.length := Option.some.inj hthreshold ▸ hready
      have hhead : field (s.buffer ++ data) 0 1 = field s.buffer 0 1 :=
        field_append_left s.buffer data hlen
      simp only [hhead, List.drop_append_of_le_length hlen]
  | handleProtocol => rfl
  | handleQemuExtendedKeyEvent => rfl

def greetLoop : ReceiveLoop (RFBServer Unit) UInt8 where
  step := greetStep
  deliver := deliver
  deliver_nil := fun s => by simp [deliver]
  deliver_deliver := fun s a b => by simp [deliver]
  step_deliver := greetStep_deliver

/-! ## Where the handshake ends -/

/-- The handshake's loop at rest: behind the handshake with what follows it, or waiting. -/
def GreetedAt (pw : Bool) (rest : Option Bytes) (s : RFBServer Unit) : Prop :=
  match rest with
  | none => s.handler.1 ≠ .handleProtocol ∧ s.buffer.length < s.handler.2
  | some rest => { server := s } = Parser.behind pw 1 rest s.calls

/-- The loop ends as `rest` says. -/
def Greets (s : RFBServer Unit) (rest : Option Bytes) : Prop :=
  ∃ t, HaltsAt greetStep s t ∧ GreetedAt s.passwordRequired rest t

theorem Greets.step {s s' : RFBServer Unit} {rest : Option Bytes} (h : greetStep s = some s')
    (hpw : s'.passwordRequired = s.passwordRequired) (hs' : Greets s' rest) : Greets s rest := by
  rcases hs' with ⟨t, ht, hgreeted⟩
  exact ⟨t, HaltsAt.head h ht, hpw ▸ hgreeted⟩

/-- A method whose threshold is not reached waits. -/
theorem Greets.wait {s : RFBServer Unit} (hmethod : s.handler.1 ≠ .handleProtocol)
    (hshort : s.buffer.length < s.handler.2) : Greets s none := by
  have hrest : greetStep s = none := if_neg fun h => absurd h.2 (Nat.not_le.2 hshort)
  exact ⟨s, HaltsAt.refl hrest, hmethod, hshort⟩

theorem greets_init {s : RFBServer Unit} (h : s.handler = (.handleClientInit, 1)) :
    Greets s (afterInit s.buffer) := by
  have hmethod : s.handler.1 = .handleClientInit := congrArg Prod.fst h
  cases hbuffer : s.buffer with
  | nil => exact Greets.wait (by rw [hmethod]; exact nofun) (by simp [hbuffer, h])
  | cons b rest =>
      have hstep : greetStep s = some s.greeted :=
        greetStep_eq_some_iff.2 ⟨by simp [h, greetThreshold, hbuffer], rfl⟩
      have hgreeted : s.greeted = { s with
          handler := (.handleProtocol, 1)
          buffer := s.buffer.drop 1
          calls := s.calls ++ [.clientInit (field s.buffer 0 1)] } := by
        rw [greeted, hmethod]
      refine Greets.step hstep (by rw [hgreeted]) ?_
      refine ⟨s.greeted, HaltsAt.refl ?_, ?_⟩
      · rw [hgreeted]
        rfl
      · rw [hgreeted, hbuffer]
        rfl

theorem greets_auth {s : RFBServer Unit} (h : s.handler = (.handleVNCAuthResponse, 16)) :
    Greets s (afterAuth s.buffer) := by
  have hmethod : s.handler.1 = .handleVNCAuthResponse := congrArg Prod.fst h
  unfold afterAuth
  split_ifs with hlen
  · have hstep : greetStep s = some s.greeted :=
      greetStep_eq_some_iff.2 ⟨by simp [h, greetThreshold, hlen], rfl⟩
    have hgreeted : s.greeted =
        { s with handler := (.handleClientInit, 1), buffer := s.buffer.drop 16 } := by
      rw [greeted, hmethod]
    rw [hgreeted] at hstep
    exact Greets.step hstep rfl (greets_init rfl)
  · exact Greets.wait (by rw [hmethod]; exact nofun) (by rw [h]; exact Nat.not_le.1 hlen)

theorem greets_sectype {s : RFBServer Unit} (h : s.handler = (.handleSecurity, 1)) :
    Greets s (afterSectype s.buffer) := by
  have hmethod : s.handler.1 = .handleSecurity := congrArg Prod.fst h
  cases hbuffer : s.buffer with
  | nil => exact Greets.wait (by rw [hmethod]; exact nofun) (by simp [hbuffer, h])
  | cons b rest =>
      have hstep : greetStep s = some s.greeted :=
        greetStep_eq_some_iff.2 ⟨by simp [h, greetThreshold, hbuffer], rfl⟩
      have hgreeted : s.greeted = { s with
          handler := afterSecurity b.toNat
          buffer := rest } := by
        rw [greeted, hmethod, hbuffer, field_head]
        rfl
      rw [hgreeted] at hstep
      refine Greets.step hstep rfl ?_
      simp only [afterSectype, afterSecurity]
      split_ifs
      · exact @greets_auth { s with handler := (.handleVNCAuthResponse, 16), buffer := rest } rfl
      · exact @greets_init { s with handler := (.handleClientInit, 1), buffer := rest } rfl

theorem greets_version :
    ∀ {fuel : ℕ} {s : RFBServer Unit}, s.handler = (.handleVersion, 12) → s.buffer.length ≤ fuel →
      Greets s (clientProtocol s.passwordRequired fuel s.buffer) := by
  intro fuel
  induction fuel with
  | zero =>
      intro s h hfuel
      exact Greets.wait (by rw [h]; exact nofun) (by rw [h]; omega)
  | succ fuel ih =>
      intro s h hfuel
      have hmethod : s.handler.1 = .handleVersion := congrArg Prod.fst h
      by_cases hlen : s.buffer.length < 12
      · rw [clientProtocol, if_pos hlen]
        exact Greets.wait (by rw [hmethod]; exact nofun) (by rw [h]; exact hlen)
      · have hle := Nat.not_lt.1 hlen
        have hstep : greetStep s = some s.greeted :=
          greetStep_eq_some_iff.2 ⟨by simp [h, greetThreshold, hle], rfl⟩
        have hnumber : slice (s.buffer.take 12) 8 3 = slice s.buffer 8 3 := by
          have hslice := slice_append_left (s.buffer.take 12) (s.buffer.drop 12)
            (show 8 + 3 ≤ (s.buffer.take 12).length by rw [List.length_take_of_le hle]; decide)
          rw [List.take_append_drop] at hslice
          exact hslice.symm
        have hgreeted : s.greeted = { s with
            handler := afterVersion s.passwordRequired s.handler (s.buffer.take 12)
            buffer := s.buffer.drop 12
            calls := s.calls ++ versionCalls (s.buffer.take 12) } := by
          rw [greeted, hmethod]
        rw [hgreeted] at hstep
        refine Greets.step hstep rfl ?_
        unfold clientProtocol afterVersion
        rw [if_neg hlen, hnumber]
        split_ifs
        · exact greets_auth rfl
        · exact greets_init rfl
        · exact greets_sectype rfl
        · refine ih h ?_
          dsimp only
          rw [List.length_drop]
          omega

end RFBServer

end Vncdotool
