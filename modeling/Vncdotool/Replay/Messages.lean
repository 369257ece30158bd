import Vncdotool.Const
import Vncdotool.Decoders.Buffer

/-!
# Messages — `client_message_length` and `saw_update_request`

The replay server measures the client's messages, to tell when a framebuffer is asked for.
`Requests` says that a stream of client bytes asks for one, or comes to a message that cannot be
measured; `sawUpdateRequest` finds out, and takes off the buffer what it has measured.
-/

namespace Vncdotool

open Wire

/-! ## Measuring a message -/

def needMore : ℤ := -1

def unknownMessage : ℤ := -2

/-- `client_message_length(buffer)`, for a buffer whose first byte is of this kind. -/
def lengthOfKind (buffer : Bytes) : Option MsgC2S → ℤ
  | some .setPixelFormat => 20
  | some .setEncoding => if buffer.length < 4 then needMore else 4 + 4 * field buffer 2 2
  | some .framebufferUpdateRequest => 10
  | some .keyEvent => 8
  | some .pointerEvent => 6
  | some .clientCutText => if buffer.length < 8 then needMore else 8 + field buffer 4 4
  | some .qemuClientMessage =>
      if buffer.length < 2 then needMore
      else if field buffer 1 1 = qemuExtendedKeyEvent then 12
      else unknownMessage
  | none => unknownMessage

/-- `client_message_length(buffer)`; there is no `buffer[0]` in an empty one. -/
def clientMessageLength (buffer : Bytes) : Except PyError ℤ :=
  if buffer.isEmpty then .error .indexError
  else .ok (lengthOfKind buffer (MsgC2S.lookup (field buffer 0 1)))

/-- The buffer begins with a message of `n` bytes that has arrived completely. -/
def CompleteMessage (buffer : Bytes) (n : ℕ) : Prop :=
  clientMessageLength buffer = .ok (n : ℤ) ∧ n ≤ buffer.length

instance (buffer : Bytes) (n : ℕ) : Decidable (CompleteMessage buffer n) :=
  inferInstanceAs (Decidable (_ ∧ _))

theorem CompleteMessage.length_eq {buffer : Bytes} {n : ℕ} (h : CompleteMessage buffer n) :
    lengthOfKind buffer (MsgC2S.lookup (field buffer 0 1)) = n := by
  have hlength := h.1
  unfold clientMessageLength at hlength
  split_ifs at hlength
  exact Except.ok.inj hlength

theorem clientMessageLength_of_pos {b : Bytes} (h : 1 ≤ b.length) :
    clientMessageLength b = .ok (lengthOfKind b (MsgC2S.lookup (field b 0 1))) := by
  cases b with
  | nil => simp at h
  | cons _ _ => rfl

theorem field_append_left (a b : Bytes) {off len : ℕ} (h : off + len ≤ a.length) :
    field (a ++ b) off len = field a off len := by
  rw [field, field, slice_append_left a b h]

/-! ## The first request -/

/-- The loop of `saw_update_request`; every message that is taken off has some bytes. -/
def takeMessages : ℕ → Bytes → Bool × Bytes
  | 0, buffer => (false, buffer)
  | fuel + 1, buffer =>
      if buffer.isEmpty then (false, buffer)
      else
        let length := lengthOfKind buffer (MsgC2S.lookup (field buffer 0 1))
        if length = unknownMessage then (true, [])
        else if length = needMore ∨ buffer.length < length then (false, buffer)
        else
          let rest := buffer.drop length.toNat
          if MsgC2S.lookup (field buffer 0 1) = some .framebufferUpdateRequest then (true, rest)
          else takeMessages fuel rest

/-- Take whole client messages off `buffer` until one asks for a framebuffer. -/
def sawUpdateRequest (buffer : Bytes) : Bool × Bytes :=
  takeMessages buffer.length buffer

/-- The messages at the head of the stream come to a `FramebufferUpdateRequest`, or to a message
that cannot be measured. -/
inductive Requests : Bytes → Prop
  | request {b : Bytes} {n : ℕ} (h : CompleteMessage b n)
      (hkind : MsgC2S.lookup (field b 0 1) = some .framebufferUpdateRequest) : Requests b
  | unknown {b : Bytes} (h : clientMessageLength b = .ok unknownMessage) : Requests b
  | skip {b : Bytes} {n : ℕ} (h : CompleteMessage b n) (hrest : Requests (b.drop n)) : Requests b

/-- Taking complete messages off `b` leaves `b'`. -/
inductive Skips : Bytes → Bytes → Prop
  | refl (b : Bytes) : Skips b b
  | skip {b b' : Bytes} {n : ℕ} (h : CompleteMessage b n) (hrest : Skips (b.drop n) b') : Skips b b'

theorem ne_nil_of_length_ok {b : Bytes} {z : ℤ} (h : clientMessageLength b = .ok z) : b ≠ [] := by
  rintro rfl
  exact nomatch h

/-- What has been measured measures the same whatever follows it. -/
theorem clientMessageLength_append {b : Bytes} {z : ℤ} (x : Bytes)
    (h : clientMessageLength b = .ok z) (hz : z ≠ needMore) :
    clientMessageLength (b ++ x) = .ok z := by
  have hpos : 1 ≤ b.length := List.length_pos_iff.2 (ne_nil_of_length_ok h)
  have hlen : b.length ≤ (b ++ x).length := by simp
  have hhead : field (b ++ x) 0 1 = field b 0 1 := field_append_left b x hpos
  rw [clientMessageLength_of_pos hpos] at h
  rw [clientMessageLength_of_pos (hpos.trans hlen), hhead]
  have hz' := Except.ok.inj h
  refine congrArg Except.ok ?_
  rw [← hz'] at hz ⊢
  cases hkind : MsgC2S.lookup (field b 0 1) with
  | none => rfl
  | some kind =>
      rw [hkind] at hz
      cases kind with
      | setPixelFormat => rfl
      | framebufferUpdateRequest => rfl
      | keyEvent => rfl
      | pointerEvent => rfl
      | setEncoding =>
          have hfour : ¬ b.length < 4 := fun hlt => hz (if_pos hlt)
          have hfield : field (b ++ x) 2 2 = field b 2 2 := field_append_left b x (Nat.not_lt.1 hfour)
          simp only [lengthOfKind, if_neg hfour, if_neg (not_lt.2 ((Nat.not_lt.1 hfour).trans hlen)),
            hfield]
      | clientCutText =>
          have height : ¬ b.length < 8 := fun hlt => hz (if_pos hlt)
          have hfield : field (b ++ x) 4 4 = field b 4 4 := field_append_left b x (Nat.not_lt.1 height)
          simp only [lengthOfKind, if_neg height,
            if_neg (not_lt.2 ((Nat.not_lt.1 height).trans hlen)), hfield]
      | qemuClientMessage =>
          have htwo : ¬ b.length < 2 := fun hlt => hz (if_pos hlt)
          have hfield : field (b ++ x) 1 1 = field b 1 1 := field_append_left b x (Nat.not_lt.1 htwo)
          simp only [lengthOfKind, if_neg htwo, if_neg (not_lt.2 ((Nat.not_lt.1 htwo).trans hlen)),
            hfield]

theorem CompleteMessage.append {b : Bytes} {n : ℕ} (h : CompleteMessage b n) (x : Bytes) :
    CompleteMessage (b ++ x) n := by
  refine ⟨clientMessageLength_append x h.1 ?_, h.2.trans (by simp)⟩
  unfold needMore
  omega

theorem Requests.append {b : Bytes} (h : Requests b) (x : Bytes) : Requests (b ++ x) := by
  induction h with
  | @request b n hmessage hkind =>
      have hpos : 1 ≤ b.length := List.length_pos_iff.2 (ne_nil_of_length_ok hmessage.1)
      refine Requests.request (hmessage.append x) ?_
      rw [field_append_left b x hpos]
      exact hkind
  | unknown hunknown => exact Requests.unknown (clientMessageLength_append x hunknown (by decide))
  | @skip b n hmessage hrest ih =>
      refine Requests.skip (hmessage.append x) ?_
      rw [List.drop_append_of_le_length hmessage.2]
      exact ih

theorem Skips.append {b b' : Bytes} (h : Skips b b') (x : Bytes) : Skips (b ++ x) (b' ++ x) := by
  induction h with
  | refl b => exact Skips.refl (b ++ x)
  | @skip b b' n hmessage hrest ih =>
      refine Skips.skip (hmessage.append x) ?_
      rw [List.drop_append_of_le_length hmessage.2]
      exact ih

theorem Skips.trans {b b' b'' : Bytes} (h : Skips b b') (h' : Skips b' b'') : Skips b b'' := by
  induction h with
  | refl b => exact h'
  | skip hmessage hrest ih => exact Skips.skip hmessage (ih h')

theorem Skips.requests {b b' : Bytes} (h : Skips b b') (hb' : Requests b') : Requests b := by
  induction h with
  | refl b => exact hb'
  | skip hmessage hrest ih => exact Requests.skip hmessage (ih hb')

/-- What a turn of the loop has measured is a complete message. -/
theorem completeMessage_of_lengthOfKind {b : Bytes} (hne : b ≠ [])
    (hunknown : lengthOfKind b (MsgC2S.lookup (field b 0 1)) ≠ unknownMessage)
    (hlong : ¬ (lengthOfKind b (MsgC2S.lookup (field b 0 1)) = needMore ∨
      b.length < lengthOfKind b (MsgC2S.lookup (field b 0 1)))) :
    CompleteMessage b (lengthOfKind b (MsgC2S.lookup (field b 0 1))).toNat ∧
      0 < (lengthOfKind b (MsgC2S.lookup (field b 0 1))).toNat := by
  have hpos : 0 < lengthOfKind b (MsgC2S.lookup (field b 0 1)) := by
    unfold lengthOfKind unknownMessage needMore at *
    cases hkind : MsgC2S.lookup (field b 0 1) with
    | none =>
        rw [hkind] at hunknown
        exact absurd rfl hunknown
    | some kind =>
        rw [hkind] at hunknown hlong
        cases kind with
        | setPixelFormat => dsimp only; omega
        | framebufferUpdateRequest => dsimp only; omega
        | keyEvent => dsimp only; omega
        | pointerEvent => dsimp only; omega
        | setEncoding => dsimp only at hlong ⊢; split_ifs at hlong ⊢ <;> omega
        | clientCutText => dsimp only at hlong ⊢; split_ifs at hlong ⊢ <;> omega
        | qemuClientMessage => dsimp only at hunknown hlong ⊢; split_ifs at hunknown hlong ⊢ <;> omega
  have hcast : ((lengthOfKind b (MsgC2S.lookup (field b 0 1))).toNat : ℤ) =
      lengthOfKind b (MsgC2S.lookup (field b 0 1)) := Int.toNat_of_nonneg hpos.le
  refine ⟨⟨?_, by omega⟩, by omega⟩
  rw [hcast]
  exact clientMessageLength_of_pos (List.length_pos_iff.2 hne)

/-- What `saw_update_request` finds. -/
theorem takeMessages_spec {fuel : ℕ} : ∀ {b : Bytes},
    ((takeMessages fuel b).1 = true → Requests b) ∧
      ((takeMessages fuel b).1 = false → Skips b (takeMessages fuel b).2) := by
  induction fuel with
  | zero => exact fun {b} => ⟨nofun, fun _ => Skips.refl b⟩
  | succ fuel ih =>
      intro b
      unfold takeMessages
      by_cases hnil : b.isEmpty
      · rw [if_pos hnil]
        exact ⟨nofun, fun _ => Skips.refl b⟩
      · rw [if_neg hnil]
        have hne : b ≠ [] := by simpa using hnil
        dsimp only
        by_cases hunknown : lengthOfKind b (MsgC2S.lookup (field b 0 1)) = unknownMessage
        · rw [if_pos hunknown]
          refine ⟨fun _ => Requests.unknown ?_, nofun⟩
          rw [clientMessageLength_of_pos (List.length_pos_iff.2 hne), hunknown]
        · rw [if_neg hunknown]
          by_cases hlong : lengthOfKind b (MsgC2S.lookup (field b 0 1)) = needMore ∨
              b.length < lengthOfKind b (MsgC2S.lookup (field b 0 1))
          · rw [if_pos hlong]
            exact ⟨nofun, fun _ => Skips.refl b⟩
          · rw [if_neg hlong]
            rcases completeMessage_of_lengthOfKind hne hunknown hlong with ⟨hmessage, _⟩
            by_cases hkind : MsgC2S.lookup (field b 0 1) = some .framebufferUpdateRequest
            · rw [if_pos hkind]
              exact ⟨fun _ => Requests.request hmessage hkind, nofun⟩
            · rw [if_neg hkind]
              exact ⟨fun h => Requests.skip hmessage (ih.1 h), fun h => Skips.skip hmessage (ih.2 h)⟩

theorem requests_of_saw {b : Bytes} (h : (sawUpdateRequest b).1 = true) : Requests b :=
  takeMessages_spec.1 h

theorem skips_of_not_saw {b : Bytes} (h : (sawUpdateRequest b).1 = false) :
    Skips b (sawUpdateRequest b).2 :=
  takeMessages_spec.2 h

end Vncdotool
