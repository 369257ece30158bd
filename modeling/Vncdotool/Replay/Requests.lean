import Vncdotool.RFB.ClientMessages
import Vncdotool.Replay.Messages
import Vncdotool.Streaming.Effects

/-!
# Requests — the client's messages as the replay server measures them

What `RFBClient` writes is measured by `client_message_length` as exactly as long as it is.  So the
replay server sees the first update request as soon as its last byte has arrived, however the
client's bytes are cut, and keeps nothing but an incomplete message until then.
-/

namespace Vncdotool

open Wire Streaming

/-! ## What a client writes -/

/-- A call of one of the methods that write a message. -/
inductive ClientMessage
  | setPixelFormat (pf : PixelFormat)
  | setEncodings (encodings : List ℤ)
  | framebufferUpdateRequest (x y : ℤ) (width height : Option ℤ) (incremental : Bool)
  | keyEvent (key : ℤ) (down : Bool)
  | pointerEvent (x y buttonmask : ℤ)
  | clientCutText (message : String)
  deriving DecidableEq, Repr

/-- The bytes given to the transport, in order. -/
def written (log : List Event) : Bytes :=
  log.flatMap fun event =>
    match event with
    | .write data => data
    | _ => []

namespace ClientMessage

variable {σ : Type}

/-- The method that is called. -/
def send : ClientMessage → Py σ Unit
  | setPixelFormat pf => RFBClient.setPixelFormat pf
  | setEncodings encodings => RFBClient.setEncodings encodings
  | framebufferUpdateRequest x y width height incremental =>
      RFBClient.framebufferUpdateRequest x y width height incremental
  | keyEvent key down => RFBClient.keyEvent key down
  | pointerEvent x y buttonmask => RFBClient.pointerEvent x y buttonmask
  | clientCutText message => RFBClient.clientCutText message

def kind : ClientMessage → MsgC2S
  | setPixelFormat _ => .setPixelFormat
  | setEncodings _ => .setEncoding
  | framebufferUpdateRequest .. => .framebufferUpdateRequest
  | keyEvent .. => .keyEvent
  | pointerEvent .. => .pointerEvent
  | clientCutText _ => .clientCutText

end ClientMessage

/-- A message, with the bytes that some client wrote for it. -/
structure Sent (σ : Type) where
  message : ClientMessage
  bytes : Bytes
  writes : ∃ c c' : RFBClient σ, message.send c = .ok () c' ∧
    written c'.log = written c.log ++ bytes

/-! ## Its length -/

/-- The bytes are one message of this kind, from the first to the last. -/
structure Measured (kind : MsgC2S) (b : Bytes) : Prop where
  complete : CompleteMessage b b.length
  kind : MsgC2S.lookup (field b 0 1) = some kind

theorem Measured.length_pos {kind : MsgC2S} {b : Bytes} (h : Measured kind b) : 0 < b.length :=
  List.length_pos_iff.2 (ne_nil_of_length_ok h.complete.1)

section Measuring

/-- The kind stands at the head. -/
theorem field_kind (kind : MsgC2S) (rest : Bytes) :
    field (packBE 1 kind.value ++ rest) 0 1 = kind.value := by
  have hlt : kind.value < 256 ^ 1 := by cases kind <;> decide
  have hfield := field_pack [] rest (k := 1) rfl hlt
  rw [List.nil_append] at hfield
  exact hfield

theorem Measured.of_length {kind : MsgC2S} {rest : Bytes}
    (hlength : lengthOfKind (packBE 1 kind.value ++ rest) (some kind) =
      (packBE 1 kind.value ++ rest).length) :
    Measured kind (packBE 1 kind.value ++ rest) := by
  have hkind : MsgC2S.lookup (field (packBE 1 kind.value ++ rest) 0 1) = some kind := by
    rw [field_kind, MsgC2S.lookup_value]
  have hpos : 1 ≤ (packBE 1 kind.value ++ rest).length := by
    rw [List.length_append, length_packBE]
    exact Nat.le_add_right 1 _
  refine ⟨⟨?_, Nat.le_refl _⟩, hkind⟩
  rw [clientMessageLength_of_pos hpos, hkind, hlength]

theorem measured_setPixelFormat (pf : PixelFormat) :
    Measured .setPixelFormat
      (packBE 1 (MsgC2S.value .setPixelFormat) ++ [0, 0, 0] ++ pf.toBytes) := by
  rw [List.append_assoc]
  apply Measured.of_length
  simp [lengthOfKind]

theorem measured_setEncodings {n : ℕ} {encodings : Bytes} (hn : n < 256 ^ 2)
    (hlength : encodings.length = 4 * n) :
    Measured .setEncoding
      (packBE 1 (MsgC2S.value .setEncoding) ++ [0] ++ packBE 2 n ++ encodings) := by
  have hfield : field (packBE 1 (MsgC2S.value .setEncoding) ++ [0] ++ packBE 2 n ++ encodings) 2 2 =
      n := field_pack _ encodings (by simp) hn
  rw [List.append_assoc, List.append_assoc] at hfield ⊢
  apply Measured.of_length
  unfold lengthOfKind
  rw [hfield, if_neg (by simp; omega)]
  simp [hlength]
  omega

theorem measured_framebufferUpdateRequest (incremental x y width height : ℕ) :
    Measured .framebufferUpdateRequest
      (packBE 1 (MsgC2S.value .framebufferUpdateRequest) ++ packBE 1 incremental ++ packBE 2 x ++
        packBE 2 y ++ packBE 2 width ++ packBE 2 height) := by
  simp only [List.append_assoc]
  apply Measured.of_length
  simp [lengthOfKind]

theorem measured_keyEvent (down key : ℕ) :
    Measured .keyEvent
      (packBE 1 (MsgC2S.value .keyEvent) ++ packBE 1 down ++ [0, 0] ++ packBE 4 key) := by
  simp only [List.append_assoc]
  apply Measured.of_length
  simp [lengthOfKind]

theorem measured_pointerEvent (buttonmask x y : ℕ) :
    Measured .pointerEvent
      (packBE 1 (MsgC2S.value .pointerEvent) ++ packBE 1 buttonmask ++ packBE 2 x ++
        packBE 2 y) := by
  simp only [List.append_assoc]
  apply Measured.of_length
  simp [lengthOfKind]

theorem measured_clientCutText {data : Bytes} (hdata : data.length < 256 ^ 4) :
    Measured .clientCutText
      (packBE 1 (MsgC2S.value .clientCutText) ++ [0, 0, 0] ++ packBE 4 data.length ++ data) := by
  have hfield : field (packBE 1 (MsgC2S.value .clientCutText) ++ [0, 0, 0] ++
      packBE 4 data.length ++ data) 4 4 = data.length := field_pack _ data (by simp) hdata
  rw [List.append_assoc, List.append_assoc] at hfield ⊢
  apply Measured.of_length
  unfold lengthOfKind
  rw [hfield, if_neg (by simp; omega)]
  simp
  omega

variable {σ : Type} {c : RFBClient σ}

theorem written_concat (log : List Event) (data : Bytes) :
    written (log ++ [.write data]) = written log ++ data := by
  unfold written
  rw [List.flatMap_append]
  exact congrArg _ (List.append_nil data)

/-- The encodings take four bytes each. -/
theorem ensures_offer (encodings : List ℤ) : ∀ c : RFBClient σ,
    Ensures (encodings.forM fun encoding =>
        if RFBClient.PacksSigned encoding then write (packBE 4 (u32OfInt encoding))
        else throw .structError) c
      (fun _ c' => ∃ offer, written c'.log = written c.log ++ offer ∧
        offer.length = 4 * encodings.length)
      fun _ _ => True := by
  induction encodings with
  | nil => exact fun c => ⟨[], (List.append_nil _).symm, rfl⟩
  | cons encoding encodings ih =>
      intro c
      refine ensures_bind.2 (ensures_ite.2 ⟨fun _ => ?_, fun _ => trivial⟩)
      change Ensures (encodings.forM _)
        { c with log := c.log ++ [Event.write (packBE 4 (u32OfInt encoding))] } _ _
      refine Ensures.mono (ih _) ?_ fun _ _ => id
      rintro _ c' ⟨offer, hwritten, hlength⟩
      rw [written_concat, List.append_assoc] at hwritten
      refine ⟨_, hwritten, ?_⟩
      rw [List.length_append, length_packBE, hlength, List.length_cons]
      omega

/-- What a method writes is one message of its kind. -/
theorem ensures_send (message : ClientMessage) (c : RFBClient σ) :
    Ensures message.send c
      (fun _ c' => ∃ b, written c'.log = written c.log ++ b ∧ Measured message.kind b)
      fun _ _ => True := by
  cases message with
  | setPixelFormat pf =>
      refine ensures_ite.2 ⟨fun _ => ensures_bind.2 ?_, fun _ => trivial⟩
      exact ⟨_, written_concat _ _, measured_setPixelFormat pf⟩
  | setEncodings encodings =>
      refine ensures_ite.2 ⟨fun hpacks => ensures_bind.2 ?_, fun _ => trivial⟩
      change Ensures (encodings.forM _) { c with log := c.log ++ [Event.write _] } _ _
      refine Ensures.mono (ensures_offer encodings _) ?_ fun _ _ => id
      rintro _ c' ⟨offer, hwritten, hlength⟩
      rw [written_concat, List.append_assoc] at hwritten
      exact ⟨_, hwritten, measured_setEncodings hpacks.2 hlength⟩
  | framebufferUpdateRequest x y width height incremental =>
      refine ensures_bind.2 (ensures_ite.2 ⟨fun _ => ?_, fun _ => trivial⟩)
      exact ⟨_, written_concat _ _, measured_framebufferUpdateRequest _ _ _ _ _⟩
  | keyEvent key down =>
      refine ensures_ite.2 ⟨fun _ => ?_, fun _ => trivial⟩
      exact ⟨_, written_concat _ _, measured_keyEvent _ _⟩
  | pointerEvent x y buttonmask =>
      refine ensures_ite.2 ⟨fun _ => ?_, fun _ => trivial⟩
      exact ⟨_, written_concat _ _, measured_pointerEvent _ _ _⟩
  | clientCutText message =>
      refine ensures_bind.2 ?_
      cases RFBClient.encodeLatin1 message with
      | error e => exact trivial
      | ok data =>
          refine ensures_ite.2 ⟨fun hpacks => ?_, fun _ => trivial⟩
          exact ⟨_, written_concat _ _, measured_clientCutText hpacks.2⟩

theorem Sent.measured (sent : Sent σ) : Measured sent.message.kind sent.bytes := by
  rcases sent.writes with ⟨c, c', hrun, hbytes⟩
  rcases (ensures_of_run_ok hrun).1 (ensures_send sent.message c) with ⟨b, hwritten, hmeasured⟩
  rw [List.append_cancel_left (hbytes.symm.trans hwritten)]
  exact hmeasured

end Measuring

/-! ## Reads of the buffer -/

/-- `struct.unpack` of a field, which has to be there. -/
def unpackField (buffer : Bytes) (off len : ℕ) : Except PyError ℕ :=
  if (slice buffer off len).length = len then .ok (field buffer off len) else .error .structError

/-- `client_message_length(buffer)`, every read of the buffer checked. -/
def checkedLength (buffer : Bytes) : Except PyError ℤ :=
  match buffer with
  | [] => .error .indexError
  | head :: _ =>
      match MsgC2S.lookup head.toNat with
      | some .setPixelFormat => .ok 20
      | some .setEncoding =>
          if buffer.length < 4 then .ok needMore
          else do
            let n ← unpackField buffer 2 2
            return 4 + 4 * n
      | some .framebufferUpdateRequest => .ok 10
      | some .keyEvent => .ok 8
      | some .pointerEvent => .ok 6
      | some .clientCutText =>
          if buffer.length < 8 then .ok needMore
          else do
            let n ← unpackField buffer 4 4
            return 8 + n
      | some .qemuClientMessage =>
          if buffer.length < 2 then .ok needMore
          else do
            let subtype ← unpackField buffer 1 1
            if subtype = qemuExtendedKeyEvent then return 12 else return unknownMessage
      | none => .ok unknownMessage

/-- The loop of `saw_update_request`, every read of the buffer checked. -/
def checkedMessages : ℕ → Bytes → Except PyError (Bool × Bytes)
  | 0, buffer => .ok (false, buffer)
  | fuel + 1, buffer =>
      if buffer.isEmpty then .ok (false, buffer)
      else do
        let length ← checkedLength buffer
        if length = unknownMessage then return (true, [])
        else if length = needMore ∨ buffer.length < length then return (false, buffer)
        else
          let rest := buffer.drop length.toNat
          if MsgC2S.lookup (← unpackField buffer 0 1) = some .framebufferUpdateRequest then
            return (true, rest)
          else checkedMessages fuel rest

section Reads

theorem unpackField_ok {buffer : Bytes} {off len : ℕ} (h : off + len ≤ buffer.length) :
    unpackField buffer off len = .ok (field buffer off len) := by
  apply if_pos
  unfold slice
  rw [List.length_take, List.length_drop]
  omega

/-- A buffer that is not empty is never read past its end. -/
theorem checkedLength_eq {buffer : Bytes} (hne : buffer ≠ []) :
    checkedLength buffer = .ok (lengthOfKind buffer (MsgC2S.lookup (field buffer 0 1))) := by
  cases buffer with
  | nil => exact absurd rfl hne
  | cons head rest =>
      have hhead : field (head :: rest) 0 1 = head.toNat := by
        simp [field, slice, unpackBE]
      rw [hhead]
      unfold checkedLength
      cases hkind : MsgC2S.lookup head.toNat with
      | none => simp only [hkind, lengthOfKind]
      | some kind =>
          cases kind with
          | setPixelFormat => simp only [hkind, lengthOfKind]
          | framebufferUpdateRequest => simp only [hkind, lengthOfKind]
          | keyEvent => simp only [hkind, lengthOfKind]
          | pointerEvent => simp only [hkind, lengthOfKind]
          | setEncoding =>
              simp only [hkind, lengthOfKind]
              split_ifs with hshort
              · rfl
              · rw [unpackField_ok (Nat.not_lt.1 hshort)]
                rfl
          | clientCutText =>
              simp only [hkind, lengthOfKind]
              split_ifs with hshort
              · rfl
              · rw [unpackField_ok (Nat.not_lt.1 hshort)]
                rfl
          | qemuClientMessage =>
              simp only [hkind, lengthOfKind]
              split_ifs with hshort hsubtype
              · rfl
              · rw [unpackField_ok (Nat.not_lt.1 hshort)]
                exact if_pos hsubtype
              · rw [unpackField_ok (Nat.not_lt.1 hshort)]
                exact if_neg hsubtype

theorem checkedMessages_eq (fuel : ℕ) (buffer : Bytes) :
    checkedMessages fuel buffer = .ok (takeMessages fuel buffer) := by
  induction fuel generalizing buffer with
  | zero => rfl
  | succ fuel ih =>
      unfold checkedMessages takeMessages
      by_cases hempty : buffer.isEmpty = true
      · rw [if_pos hempty, if_pos hempty]
      · have hne : buffer ≠ [] := fun hnil => hempty (List.isEmpty_iff.2 hnil)
        have hpos : 0 + 1 ≤ buffer.length := List.length_pos_iff.2 hne
        rw [if_neg hempty, if_neg hempty, checkedLength_eq hne, unpackField_ok hpos]
        dsimp only [bind, Except.bind, pure, Except.pure]
        split_ifs with hunknown hshort hrequest
        · rfl
        · rfl
        · rfl
        · exact ih _

end Reads

/-! ## The stream, cut anywhere -/

section Stream

variable {σ : Type}

/-- The bytes of the messages, one after the other. -/
def stream (messages : List (Sent σ)) : Bytes :=
  messages.flatMap Sent.bytes

/-- None of the messages asks for a framebuffer. -/
def Unasked (messages : List (Sent σ)) : Prop :=
  ∀ sent ∈ messages, sent.message.kind ≠ .framebufferUpdateRequest

/-- The first request, with all that comes before it, is in what was received. -/
def Arrived (messages : List (Sent σ)) (received : Bytes) : Prop :=
  ∃ before request after, messages = before ++ request :: after ∧ Unasked before ∧
    request.message.kind = .framebufferUpdateRequest ∧
    stream before ++ request.bytes <+: received

/-- Less than the first of the messages, and nothing if there is none. -/
def Incomplete (rest : Bytes) : List (Sent σ) → Prop
  | [] => rest = []
  | sent :: _ => rest <+: sent.bytes ∧ rest.length < sent.bytes.length

/-- What `saw_update_request` is to say of what was received, and to leave of it. -/
inductive Verdict (messages : List (Sent σ)) (received : Bytes) : Bool × Bytes → Prop
  | waiting (done todo : List (Sent σ)) {rest : Bytes} (hmessages : messages = done ++ todo)
      (hdone : Unasked done) (hreceived : received = stream done ++ rest)
      (hrest : Incomplete rest todo) : Verdict messages received (false, rest)
  | asked (before : List (Sent σ)) (request : Sent σ) (after : List (Sent σ)) {rest : Bytes}
      (hmessages : messages = before ++ request :: after) (hbefore : Unasked before)
      (hrequest : request.message.kind = .framebufferUpdateRequest)
      (hreceived : received = stream before ++ request.bytes ++ rest) :
      Verdict messages received (true, rest)

/-- The replay buffer, to which the pieces are appended until the request has been seen. -/
def arrive (pieces : List Bytes) : Except PyError (Bool × Bytes) :=
  pieces.foldlM
    (fun state piece =>
      if state.1 then .ok state
      else checkedMessages (state.2 ++ piece).length (state.2 ++ piece))
    (false, [])

theorem stream_append (messages messages' : List (Sent σ)) :
    stream (messages ++ messages') = stream messages ++ stream messages' :=
  List.flatMap_append

theorem unasked_append {messages messages' : List (Sent σ)} (h : Unasked messages)
    (h' : Unasked messages') : Unasked (messages ++ messages') := by
  intro sent hmem
  rcases List.mem_append.1 hmem with hleft | hright
  · exact h sent hleft
  · exact h' sent hright

/-- Messages that were taken off before are put back. -/
theorem Verdict.prepend {messages done : List (Sent σ)} {received : Bytes} {state : Bool × Bytes}
    (h : Verdict messages received state) (hdone : Unasked done) :
    Verdict (done ++ messages) (stream done ++ received) state := by
  cases h with
  | waiting done' todo hmessages hdone' hreceived hrest =>
      refine .waiting (done ++ done') todo ?_ (unasked_append hdone hdone') ?_ hrest
      · rw [hmessages, List.append_assoc]
      · rw [hreceived, stream_append, List.append_assoc]
  | asked before request after hmessages hbefore hrequest hreceived =>
      refine .asked (done ++ before) request after ?_ (unasked_append hdone hbefore) hrequest ?_
      · rw [hmessages, List.append_assoc]
      · rw [hreceived, stream_append]
        simp only [List.append_assoc]

/-- A message that has not arrived completely is not measured, or measured as longer. -/
theorem short_of_incomplete (sent : Sent σ) {received : Bytes} (hne : received ≠ [])
    (hleads : received <+: sent.bytes) (hlength : received.length < sent.bytes.length) :
    lengthOfKind received (MsgC2S.lookup (field received 0 1)) ≠ unknownMessage ∧
      (lengthOfKind received (MsgC2S.lookup (field received 0 1)) = needMore ∨
        received.length < lengthOfKind received (MsgC2S.lookup (field received 0 1))) := by
  rcases hleads with ⟨x, hx⟩
  have hwhole := sent.measured.complete.1
  have hhead := clientMessageLength_of_pos (List.length_pos_iff.2 hne)
  by_cases hmore : lengthOfKind received (MsgC2S.lookup (field received 0 1)) = needMore
  · rw [hmore]
    exact ⟨by decide, Or.inl rfl⟩
  · have happend := clientMessageLength_append x hhead hmore
    rw [hx, hwhole] at happend
    have hsame := Except.ok.inj happend
    rw [← hsame]
    unfold unknownMessage
    exact ⟨by omega, Or.inr (by exact_mod_cast hlength)⟩

/-- The loop finds the first request, if it is there. -/
theorem takeMessages_verdict (messages : List (Sent σ)) {received : Bytes} {fuel : ℕ}
    (hreceived : received <+: stream messages) (hfuel : received.length ≤ fuel) :
    Verdict messages received (takeMessages fuel received) := by
  -- By induction on the messages: one turn takes off the first of them.
  induction messages generalizing received fuel with
  | nil =>
      have hnil : received = [] := List.prefix_nil.1 hreceived
      subst hnil
      have hrun : takeMessages fuel [] = (false, []) := by
        cases fuel with
        | zero => rfl
        | succ fuel => rfl
      rw [hrun]
      exact .waiting [] [] rfl (fun _ hmem => absurd hmem List.not_mem_nil) rfl rfl
  | cons sent messages ih =>
      have hwaiting (hleads : received <+: sent.bytes)
          (hlength : received.length < sent.bytes.length) :
          Verdict (sent :: messages) received (false, received) :=
        .waiting [] (sent :: messages) rfl (fun _ hmem => absurd hmem List.not_mem_nil) rfl
          ⟨hleads, hlength⟩
      by_cases hnil : received = []
      · subst hnil
        have hrun : takeMessages fuel [] = (false, []) := by
          cases fuel with
          | zero => rfl
          | succ fuel => rfl
        rw [hrun]
        exact hwaiting List.nil_prefix sent.measured.length_pos
      · have hpos : 0 < received.length := List.length_pos_iff.2 hnil
        rcases Nat.exists_eq_succ_of_ne_zero (Nat.pos_iff_ne_zero.1 (hpos.trans_le hfuel)) with
          ⟨fuel, rfl⟩
        unfold takeMessages
        rw [if_neg fun hempty => hnil (List.isEmpty_iff.1 hempty)]
        dsimp only
        have hstream : stream (sent :: messages) = sent.bytes ++ stream messages := rfl
        rw [hstream] at hreceived
        by_cases hlength : received.length < sent.bytes.length
        · have hleads : received <+: sent.bytes :=
            List.prefix_of_prefix_length_le hreceived (List.prefix_append _ _) hlength.le
          rcases short_of_incomplete sent hnil hleads hlength with ⟨hknown, hshort⟩
          rw [if_neg hknown, if_pos hshort]
          exact hwaiting hleads hlength
        · have hwhole : sent.bytes <+: received :=
            List.prefix_of_prefix_length_le (List.prefix_append _ _) hreceived
              (Nat.not_lt.1 hlength)
          rcases hwhole with ⟨rest, rfl⟩
          have hrest : rest <+: stream messages := (List.prefix_append_right_inj _).1 hreceived
          have hkind : MsgC2S.lookup (field (sent.bytes ++ rest) 0 1) = some sent.message.kind := by
            rw [field_append_left _ _ sent.measured.length_pos]
            exact sent.measured.kind
          have hcomplete := (sent.measured.complete.append rest).length_eq
          have hknown : ¬ (sent.bytes.length : ℤ) = unknownMessage := by
            unfold unknownMessage
            omega
          have hlong : ¬ ((sent.bytes.length : ℤ) = needMore ∨
              ((sent.bytes ++ rest).length : ℤ) < sent.bytes.length) := by
            unfold needMore
            omega
          rw [hcomplete, hkind, Int.toNat_natCast, List.drop_left, if_neg hknown, if_neg hlong]
          by_cases hrequest : sent.message.kind = .framebufferUpdateRequest
          · rw [if_pos (congrArg some hrequest)]
            exact .asked [] sent messages rfl (fun _ hmem => absurd hmem List.not_mem_nil) hrequest
              rfl
          · rw [if_neg fun hsome => hrequest (Option.some.inj hsome)]
            have hfuel' : rest.length ≤ fuel := by
              have hlength_pos := sent.measured.length_pos
              rw [List.length_append] at hfuel
              omega
            have hone : Unasked [sent] := by
              intro sent' hmem
              rw [List.mem_singleton.1 hmem]
              exact hrequest
            have hrun := (ih hrest hfuel').prepend hone
            have hsingle : stream [sent] = sent.bytes := List.append_nil _
            rw [hsingle] at hrun
            exact hrun

/-- While less than a request is left of the messages, none has arrived. -/
theorem not_arrived_of_waiting {messages done todo : List (Sent σ)} {received rest : Bytes}
    (hmessages : messages = done ++ todo) (hdone : Unasked done)
    (hreceived : received = stream done ++ rest) (hrest : Incomplete rest todo) :
    ¬ Arrived messages received := by
  rintro ⟨before, request, after, hsplit, _, hrequest, hleads⟩
  rw [hsplit] at hmessages
  rw [hreceived] at hleads
  rcases List.append_eq_append_iff.1 hmessages with ⟨more, hmore, htail⟩ | ⟨more, hmore, htail⟩
  -- The request would be among those that have been taken off.
  · cases more with
    | nil =>
        rw [List.append_nil] at hmore
        rw [List.nil_append] at htail
        subst hmore htail
        have hhead : request.bytes <+: rest := (List.prefix_append_right_inj _).1 hleads
        exact absurd hhead.length_le (Nat.not_le.2 hrest.2)
    | cons sent more =>
        rw [List.cons_append, List.cons.injEq] at htail
        refine hdone request ?_ hrequest
        rw [hmore, htail.1]
        exact List.mem_append_right _ List.mem_cons_self
  -- It is behind the one that is incomplete.
  · rw [hmore, stream_append, List.append_assoc] at hleads
    have hhead := (List.prefix_append_right_inj _).1 hleads
    cases more with
    | nil =>
        rw [List.nil_append] at htail
        subst htail
        exact absurd hhead.length_le (Nat.not_le.2 hrest.2)
    | cons sent more =>
        subst htail
        have hlength := hhead.length_le
        have hshort := hrest.2
        have hcons : stream (sent :: more) = sent.bytes ++ stream more := rfl
        rw [hcons, List.length_append, List.length_append] at hlength
        omega

/-- What the replay buffer comes to. -/
structure Watched (messages : List (Sent σ)) (pieces : List Bytes) (saw : Bool) (rest : Bytes) :
    Prop where
  saw_iff : saw = true ↔ Arrived messages pieces.flatten
  waiting : saw = false → ∃ done todo, messages = done ++ todo ∧ Unasked done ∧
    pieces.flatten = stream done ++ rest ∧ Incomplete rest todo
  asked : saw = true → ∃ early late before request after, pieces = early ++ late ∧
    ¬ Arrived messages early.dropLast.flatten ∧ messages = before ++ request :: after ∧
    Unasked before ∧ request.message.kind = .framebufferUpdateRequest ∧
    early.flatten = stream before ++ request.bytes ++ rest

theorem arrive_concat (pieces : List Bytes) (piece : Bytes) {state : Bool × Bytes}
    (h : arrive pieces = .ok state) :
    arrive (pieces ++ [piece]) =
      if state.1 then .ok state
      else .ok (takeMessages (state.2 ++ piece).length (state.2 ++ piece)) := by
  unfold arrive at h ⊢
  simp only [List.foldlM_append, List.foldlM_cons, List.foldlM_nil, bind_pure]
  rw [h]
  change (if state.1 then Except.ok state
    else checkedMessages (state.2 ++ piece).length (state.2 ++ piece)) = _
  rw [checkedMessages_eq]

theorem Watched.of_waiting {messages done todo : List (Sent σ)} {pieces : List Bytes} {rest : Bytes}
    (hmessages : messages = done ++ todo) (hdone : Unasked done)
    (hreceived : pieces.flatten = stream done ++ rest) (hrest : Incomplete rest todo) :
    Watched messages pieces false rest := by
  refine ⟨⟨fun hsaw => ?_, fun harrived => ?_⟩, fun _ => ⟨done, todo, hmessages, hdone, hreceived,
    hrest⟩, fun hsaw => ?_⟩
  · cases hsaw
  · exact absurd harrived (not_arrived_of_waiting hmessages hdone hreceived hrest)
  · cases hsaw

/-- For every sequence of messages that a client can write, and every cut of their bytes: the update
request is seen as soon as the first one has arrived completely, and what was taken off the buffer
are the messages up to it; until then the rest is the incomplete message.  No read goes past the
buffer. -/
theorem arrive_exact (messages : List (Sent σ)) (pieces : List Bytes)
    (hpieces : pieces.flatten <+: stream messages) :
    ∃ saw rest, arrive pieces = .ok (saw, rest) ∧ Watched messages pieces saw rest := by
  -- By induction on the pieces, the last one first.
  induction pieces using List.reverseRecOn with
  | nil =>
      have hincomplete : Incomplete [] messages := by
        cases messages with
        | nil => rfl
        | cons sent messages => exact ⟨List.nil_prefix, sent.measured.length_pos⟩
      refine ⟨false, [], rfl, ?_⟩
      have hunasked : Unasked ([] : List (Sent σ)) := fun _ hmem => absurd hmem List.not_mem_nil
      exact Watched.of_waiting rfl hunasked rfl hincomplete
  | append_singleton pieces piece ih =>
      have hflatten : (pieces ++ [piece]).flatten = pieces.flatten ++ piece := by
        rw [List.flatten_append, List.flatten_singleton]
      rw [hflatten] at hpieces
      rcases ih ((List.prefix_append _ _).trans hpieces) with ⟨saw, rest, hrun, hwatched⟩
      rw [arrive_concat pieces piece hrun]
      cases saw with
      | true =>
          -- The replay server asks no more.
          refine ⟨true, rest, rfl, ⟨⟨fun _ => ?_, fun _ => rfl⟩, fun hfalse => ?_, fun _ => ?_⟩⟩
          · rcases hwatched.saw_iff.1 rfl with ⟨before, request, after, h₁, h₂, h₃, hleads⟩
            rw [hflatten]
            exact ⟨before, request, after, h₁, h₂, h₃, hleads.trans (List.prefix_append _ _)⟩
          · cases hfalse
          · rcases hwatched.asked rfl with ⟨early, late, before, request, after, hsplit, hfirst⟩
            refine ⟨early, late ++ [piece], before, request, after, ?_, hfirst⟩
            rw [hsplit, List.append_assoc]
      | false =>
          rcases hwatched.waiting rfl with ⟨done, todo, hmessages, hdone, hreceived, hrest⟩
          have hall : pieces.flatten ++ piece = stream done ++ (rest ++ piece) := by
            rw [hreceived, List.append_assoc]
          have hleft : rest ++ piece <+: stream todo := by
            rw [hall, hmessages, stream_append] at hpieces
            exact (List.prefix_append_right_inj _).1 hpieces
          have hverdict := (takeMessages_verdict todo hleft (Nat.le_refl _)).prepend hdone
          rw [← hmessages, ← hall] at hverdict
          change ∃ saw' rest', Except.ok (takeMessages (rest ++ piece).length (rest ++ piece)) =
            Except.ok (saw', rest') ∧ _
          generalize takeMessages (rest ++ piece).length (rest ++ piece) = state at hverdict ⊢
          cases hverdict with
          | waiting done' todo' hmessages' hdone' hreceived' hrest' =>
              exact ⟨false, _, rfl, Watched.of_waiting hmessages' hdone' (hflatten.trans hreceived')
                hrest'⟩
          | asked before request after hmessages' hbefore hrequest hreceived' =>
              have harrived : Arrived messages (pieces ++ [piece]).flatten := by
                rw [hflatten, hreceived']
                exact ⟨before, request, after, hmessages', hbefore, hrequest,
                  List.prefix_append _ _⟩
              have hfirst : ¬ Arrived messages (pieces ++ [piece]).dropLast.flatten := by
                rw [List.dropLast_concat]
                exact not_arrived_of_waiting hmessages hdone hreceived hrest
              refine ⟨true, _, rfl, ⟨⟨fun _ => harrived, fun _ => rfl⟩, fun hfalse => ?_, fun _ => ?_⟩⟩
              · cases hfalse
              · exact ⟨pieces ++ [piece], [], before, request, after, (List.append_nil _).symm,
                  hfirst, hmessages', hbefore, hrequest, hflatten.trans hreceived'⟩

/-- A key event and a request, the request cut in the middle. -/
def keyThenRequest : List (Sent Unit) :=
  [{ message := .keyEvent 0x61 true
     bytes := [4, 1, 0, 0, 0, 0, 0, 0x61]
     writes := ⟨{ app := () }, _, rfl, rfl⟩ },
   { message := .framebufferUpdateRequest 0 0 none none true
     bytes := [3, 1, 0, 0, 0, 0, 0, 0, 0, 0]
     writes := ⟨{ app := () }, _, rfl, rfl⟩ }]

theorem arrive_exact_keyThenRequest :
    ∃ saw rest, arrive [[4, 1, 0, 0, 0, 0, 0, 0x61, 3, 1], [0, 0, 0, 0, 0, 0, 0, 0]] =
        .ok (saw, rest) ∧
      Watched keyThenRequest [[4, 1, 0, 0, 0, 0, 0, 0x61, 3, 1], [0, 0, 0, 0, 0, 0, 0, 0]] saw
        rest :=
  arrive_exact keyThenRequest _ (by decide)

end Stream

end Vncdotool
