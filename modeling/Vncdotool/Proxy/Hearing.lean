import Vncdotool.Proxy.Segmentation
import Vncdotool.Replay.Requests

/-!
# Hearing — what `RFBServer` hears of what `RFBClient` says

The client packs the arguments of its methods into messages, and the server's parser unpacks them
from the stream it listens to.  When no delivery ends inside a message, every call of the client
comes to the hook that it stands for, with its arguments, in the order of the calls.
-/

namespace Vncdotool

open Wire Streaming StateTransition

/-! ## What is said -/

/-- The hook that a call of the client comes to.  An encoding arrives as its 32-bit field, and a
size that was left out is the rest of the framebuffer. -/
def ClientMessage.told {σ : Type} (c : RFBClient σ) : ClientMessage → Call
  | setPixelFormat pf => .setPixelFormat pf
  | setEncodings encodings => .setEncodings (encodings.map u32OfInt)
  | framebufferUpdateRequest x y width height incremental =>
      .framebufferUpdate x.toNat y.toNat (width.getD (c.width - x)).toNat
        (height.getD (c.height - y)).toNat incremental.toNat
  | keyEvent key down => .keyEvent key.toNat down.toNat
  | pointerEvent x y buttonmask => .pointerEvent x.toNat y.toNat buttonmask.toNat
  | clientCutText message => .clientCutText (message.toList.map fun ch => UInt8.ofNat ch.toNat)

/-- The calls whose messages are heard: no ClientCutText, which the parser has no length for, and no
list of encodings that fails half-way. -/
def ClientMessage.Plain : ClientMessage → Prop
  | setEncodings encodings => ∀ encoding ∈ encodings, RFBClient.PacksSigned encoding
  | clientCutText _ => False
  | _ => True

instance ClientMessage.decidablePlain : ∀ message : ClientMessage, Decidable message.Plain
  | .setEncodings encodings =>
      inferInstanceAs (Decidable (∀ encoding ∈ encodings, RFBClient.PacksSigned encoding))
  | .clientCutText _ => inferInstanceAs (Decidable False)
  | .setPixelFormat _ => inferInstanceAs (Decidable True)
  | .framebufferUpdateRequest _ _ _ _ _ => inferInstanceAs (Decidable True)
  | .keyEvent _ _ => inferInstanceAs (Decidable True)
  | .pointerEvent _ _ _ => inferInstanceAs (Decidable True)

/-- The methods are called one after the other.  Those that return write the messages `pieces`,
which stand for `calls`; those that raise have written nothing. -/
inductive Says {σ : Type} :
    RFBClient σ → List ClientMessage → List Bytes → List Call → RFBClient σ → Prop
  | nothing (c : RFBClient σ) : Says c [] [] [] c
  | returned {c c₁ c' : RFBClient σ} {message : ClientMessage} {said : List ClientMessage}
      {piece : Bytes} {pieces : List Bytes} {calls : List Call}
      (hsend : message.send c = .ok () c₁) (hwritten : written c₁.log = written c.log ++ piece)
      (hlater : Says c₁ said pieces calls c') :
      Says c (message :: said) (piece :: pieces) (message.told c :: calls) c'
  | raised {c c₁ c' : RFBClient σ} {message : ClientMessage} {said : List ClientMessage}
      {pieces : List Bytes} {calls : List Call} {exc : PyError}
      (hsend : message.send c = .error exc c₁) (hwritten : written c₁.log = written c.log)
      (hlater : Says c₁ said pieces calls c') :
      Says c (message :: said) pieces calls c'

/-! ## Fields that were packed -/

/-- A block that stands behind `before` is cut out of its buffer. -/
theorem slice_between (before block after : Bytes) {off len : ℕ} (hoff : before.length = off)
    (hlen : block.length = len) : slice (before ++ block ++ after) off len = block := by
  rw [List.append_assoc, slice_append_right _ _ _ hoff.le, hoff, Nat.sub_self,
    slice_append_left _ _ (by omega), ← hlen]
  exact slice_zero_length block

/-- A packed integer is read back where it stands in its block. -/
theorem field_of_eq (before : Bytes) {block after : Bytes} {off k n : ℕ}
    (hblock : block = before ++ (packBE k n ++ after)) (hoff : before.length = off)
    (hn : n < 256 ^ k) : field block off k = n := by
  rw [hblock, ← List.append_assoc]
  exact field_pack before after hoff hn

/-- `from_bytes` undoes `to_bytes`. -/
theorem PixelFormat.fromBytes_toBytes {pf : PixelFormat} (h : RFBClient.Packable pf) :
    PixelFormat.fromBytes pf.toBytes = pf := by
  rcases h with ⟨⟨hbpp, hdepth⟩, ⟨hredmax, hgreenmax, hbluemax⟩, hredshift, hgreenshift, hblueshift⟩
  have hbool (b : Bool) : b.toNat < 256 ^ 1 := by cases b <;> decide
  have hnonzero (b : Bool) : (b.toNat != 0) = b := by cases b <;> rfl
  -- Each field stands behind those before it, however the record is bracketed.
  have hall : pf.toBytes = [] ++ packBE 1 pf.bpp ++ (packBE 1 pf.depth ++
      (packBE 1 pf.bigendian.toNat ++ (packBE 1 pf.truecolor.toNat ++ (packBE 2 pf.redmax ++
        (packBE 2 pf.greenmax ++ (packBE 2 pf.bluemax ++ (packBE 1 pf.redshift ++
          (packBE 1 pf.greenshift ++ (packBE 1 pf.blueshift ++ [0, 0, 0]))))))))) := by
    simp only [toBytes, List.append_assoc, List.nil_append]
  have hbpp' : field pf.toBytes 0 1 = pf.bpp := field_of_eq [] hall rfl hbpp
  have hdepth' : field pf.toBytes 1 1 = pf.depth :=
    field_of_eq (packBE 1 pf.bpp) hall rfl hdepth
  have hbigendian' : field pf.toBytes 2 1 = pf.bigendian.toNat :=
    field_of_eq (packBE 1 pf.bpp ++ packBE 1 pf.depth) hall rfl (hbool _)
  have htruecolor' : field pf.toBytes 3 1 = pf.truecolor.toNat :=
    field_of_eq (packBE 1 pf.bpp ++ packBE 1 pf.depth ++ packBE 1 pf.bigendian.toNat) hall rfl
      (hbool _)
  have hredmax' : field pf.toBytes 4 2 = pf.redmax :=
    field_of_eq (packBE 1 pf.bpp ++ packBE 1 pf.depth ++ packBE 1 pf.bigendian.toNat ++
      packBE 1 pf.truecolor.toNat) hall rfl hredmax
  have hgreenmax' : field pf.toBytes 6 2 = pf.greenmax :=
    field_of_eq (packBE 1 pf.bpp ++ packBE 1 pf.depth ++ packBE 1 pf.bigendian.toNat ++
      packBE 1 pf.truecolor.toNat ++ packBE 2 pf.redmax) hall rfl hgreenmax
  have hbluemax' : field pf.toBytes 8 2 = pf.bluemax :=
    field_of_eq (packBE 1 pf.bpp ++ packBE 1 pf.depth ++ packBE 1 pf.bigendian.toNat ++
      packBE 1 pf.truecolor.toNat ++ packBE 2 pf.redmax ++ packBE 2 pf.greenmax) hall rfl hbluemax
  have hredshift' : field pf.toBytes 10 1 = pf.redshift :=
    field_of_eq (packBE 1 pf.bpp ++ packBE 1 pf.depth ++ packBE 1 pf.bigendian.toNat ++
      packBE 1 pf.truecolor.toNat ++ packBE 2 pf.redmax ++ packBE 2 pf.greenmax ++
      packBE 2 pf.bluemax) hall rfl hredshift
  have hgreenshift' : field pf.toBytes 11 1 = pf.greenshift :=
    field_of_eq (packBE 1 pf.bpp ++ packBE 1 pf.depth ++ packBE 1 pf.bigendian.toNat ++
      packBE 1 pf.truecolor.toNat ++ packBE 2 pf.redmax ++ packBE 2 pf.greenmax ++
      packBE 2 pf.bluemax ++ packBE 1 pf.redshift) hall rfl hgreenshift
  have hblueshift' : field pf.toBytes 12 1 = pf.blueshift :=
    field_of_eq (packBE 1 pf.bpp ++ packBE 1 pf.depth ++ packBE 1 pf.bigendian.toNat ++
      packBE 1 pf.truecolor.toNat ++ packBE 2 pf.redmax ++ packBE 2 pf.greenmax ++
      packBE 2 pf.bluemax ++ packBE 1 pf.redshift ++ packBE 1 pf.greenshift) hall rfl hblueshift
  unfold fromBytes
  simp only [hbpp', hdepth', hbigendian', htruecolor', hredmax', hgreenmax', hbluemax',
    hredshift', hgreenshift', hblueshift', hnonzero]

/-! ## What a message tells -/

theorem length_packed (values : List ℕ) :
    (values.map (packBE 4)).flatten.length = 4 * values.length := by
  induction values with
  | nil => rfl
  | cons n values ih =>
      rw [List.map_cons, List.flatten_cons, List.length_append, ih, length_packBE, List.length_cons]
      omega

/-- The words of a list that were packed into four bytes each. -/
theorem words_packed (values : List ℕ) (hvalues : ∀ n ∈ values, n < 256 ^ 4) (after : Bytes) :
    RFBServer.words values.length ((values.map (packBE 4)).flatten ++ after) = values := by
  refine List.ext_getElem (by simp [RFBServer.words]) fun i hi hi' => ?_
  have hlength : ((values.take i).map (packBE 4)).flatten.length = 4 * i := by
    rw [length_packed, List.length_take_of_le hi'.le]
  have hsplit : (values.map (packBE 4)).flatten ++ after =
      ((values.take i).map (packBE 4)).flatten ++ packBE 4 values[i] ++
        (((values.drop (i + 1)).map (packBE 4)).flatten ++ after) := by
    calc (values.map (packBE 4)).flatten ++ after
        = ((values.take i ++ values[i] :: values.drop (i + 1)).map (packBE 4)).flatten ++
            after := by
          rw [List.cons_getElem_drop_succ, List.take_append_drop]
      _ = _ := by
          simp only [List.map_append, List.map_cons, List.flatten_append, List.flatten_cons,
            List.append_assoc]
  simp only [RFBServer.words, List.getElem_map, List.getElem_range]
  rw [hsplit]
  exact field_pack _ _ hlength (hvalues _ (List.getElem_mem hi'))

section Telling

variable {σ : Type} {c : RFBClient σ}

/-- What is written for a message is one message of its kind, and calls the hook it stands for. -/
structure Tells (c : RFBClient σ) (message : ClientMessage) (piece : Bytes) : Prop where
  measured : Measured message.kind piece
  told : callOf piece = message.told c

theorem Tells.of_measured {message : ClientMessage} {piece : Bytes}
    (h : Measured message.kind piece)
    (hcall : MsgC2S.lookup (field piece 0 1) = some message.kind →
      messageCall piece = some (message.told c)) : Tells c message piece := by
  refine ⟨h, ?_⟩
  rw [callOf, hcall h.kind]
  rfl

theorem tells_setPixelFormat {pf : PixelFormat} (h : RFBClient.Packable pf) :
    Tells c (.setPixelFormat pf)
      (packBE 1 (MsgC2S.value .setPixelFormat) ++ [0, 0, 0] ++ pf.toBytes) := by
  refine Tells.of_measured (measured_setPixelFormat pf) fun hkind => ?_
  have hslice : slice (packBE 1 (MsgC2S.value .setPixelFormat) ++ [0, 0, 0] ++ pf.toBytes ++ [])
      4 16 = pf.toBytes := slice_between _ _ _ rfl (PixelFormat.length_toBytes pf)
  rw [List.append_nil] at hslice
  unfold messageCall
  rw [hkind]
  simp only [ClientMessage.kind, hslice, PixelFormat.fromBytes_toBytes h, ClientMessage.told]

theorem tells_setEncodings {encodings : List ℤ} (h : RFBClient.Packs 2 encodings.length) :
    Tells c (.setEncodings encodings)
      (packBE 1 (MsgC2S.value .setEncoding) ++ [0] ++ packBE 2 encodings.length ++
        ((encodings.map u32OfInt).map (packBE 4)).flatten) := by
  have hcount : encodings.length < 256 ^ 2 := h.2
  have hlength : ((encodings.map u32OfInt).map (packBE 4)).flatten.length =
      4 * encodings.length := by
    rw [length_packed, List.length_map]
  refine Tells.of_measured (measured_setEncodings hcount hlength) fun hkind => ?_
  have hfield : field (packBE 1 (MsgC2S.value .setEncoding) ++ [0] ++ packBE 2 encodings.length ++
      ((encodings.map u32OfInt).map (packBE 4)).flatten) 2 2 = encodings.length :=
    field_pack _ _ rfl hcount
  have hdrop : (packBE 1 (MsgC2S.value .setEncoding) ++ [0] ++ packBE 2 encodings.length ++
      ((encodings.map u32OfInt).map (packBE 4)).flatten).drop 4 =
        ((encodings.map u32OfInt).map (packBE 4)).flatten := rfl
  have hroom : ∀ n ∈ encodings.map u32OfInt, n < 256 ^ 4 := by
    intro n hn
    rcases List.mem_map.1 hn with ⟨encoding, _, rfl⟩
    exact u32OfInt_lt encoding
  have hwords := words_packed (encodings.map u32OfInt) hroom []
  rw [List.length_map, List.append_nil] at hwords
  unfold messageCall
  rw [hkind]
  simp only [ClientMessage.kind, hfield, hdrop, hwords, ClientMessage.told]

theorem tells_framebufferUpdateRequest {x y w h : ℤ} {width height : Option ℤ}
    {incremental : Bool} {piece : Bytes} (hw : width.getD (c.width - x) = w)
    (hh : height.getD (c.height - y) = h)
    (hpacks : RFBClient.Packs 2 x ∧ RFBClient.Packs 2 y ∧ RFBClient.Packs 2 w ∧ RFBClient.Packs 2 h)
    (hpiece : piece = packBE 1 (MsgC2S.value .framebufferUpdateRequest) ++
      packBE 1 incremental.toNat ++ packBE 2 x.toNat ++ packBE 2 y.toNat ++ packBE 2 w.toNat ++
        packBE 2 h.toNat) :
    Tells c (.framebufferUpdateRequest x y width height incremental) piece := by
  have hmeasured := hpiece ▸ measured_framebufferUpdateRequest incremental.toNat x.toNat y.toNat
    w.toNat h.toNat
  refine Tells.of_measured hmeasured fun hkind => ?_
  have hbool : incremental.toNat < 256 ^ 1 := by cases incremental <;> decide
  have hincremental : field piece 1 1 = incremental.toNat :=
    field_of_eq (packBE 1 (MsgC2S.value .framebufferUpdateRequest)) hpiece rfl hbool
  have hx : field piece 2 2 = x.toNat :=
    field_of_eq (packBE 1 (MsgC2S.value .framebufferUpdateRequest) ++ packBE 1 incremental.toNat)
      hpiece rfl hpacks.1.2
  have hy : field piece 4 2 = y.toNat :=
    field_of_eq (packBE 1 (MsgC2S.value .framebufferUpdateRequest) ++ packBE 1 incremental.toNat ++
      packBE 2 x.toNat) hpiece rfl hpacks.2.1.2
  have hwidth : field piece 6 2 = w.toNat :=
    field_of_eq (packBE 1 (MsgC2S.value .framebufferUpdateRequest) ++ packBE 1 incremental.toNat ++
      packBE 2 x.toNat ++ packBE 2 y.toNat) hpiece rfl hpacks.2.2.1.2
  have hheight : field piece 8 2 = h.toNat :=
    field_of_eq (packBE 1 (MsgC2S.value .framebufferUpdateRequest) ++ packBE 1 incremental.toNat ++
      packBE 2 x.toNat ++ packBE 2 y.toNat ++ packBE 2 w.toNat) hpiece rfl hpacks.2.2.2.2
  unfold messageCall
  rw [hkind]
  simp only [ClientMessage.kind, hincremental, hx, hy, hwidth, hheight, ClientMessage.told, hw, hh]

theorem tells_keyEvent {key : ℤ} {down : Bool} (h : RFBClient.Packs 4 key) :
    Tells c (.keyEvent key down)
      (packBE 1 (MsgC2S.value .keyEvent) ++ packBE 1 down.toNat ++ [0, 0] ++
        packBE 4 key.toNat) := by
  refine Tells.of_measured (measured_keyEvent _ _) fun hkind => ?_
  have hbool : down.toNat < 256 ^ 1 := by cases down <;> decide
  have hdown : field (packBE 1 (MsgC2S.value .keyEvent) ++ packBE 1 down.toNat ++ [0, 0] ++
      packBE 4 key.toNat) 1 1 = down.toNat :=
    field_of_eq (packBE 1 (MsgC2S.value .keyEvent)) rfl rfl hbool
  have hkey : field (packBE 1 (MsgC2S.value .keyEvent) ++ packBE 1 down.toNat ++ [0, 0] ++
      packBE 4 key.toNat) 4 4 = key.toNat :=
    field_of_eq (packBE 1 (MsgC2S.value .keyEvent) ++ packBE 1 down.toNat ++ [0, 0]) rfl rfl h.2
  unfold messageCall
  rw [hkind]
  simp only [ClientMessage.kind, hdown, hkey, ClientMessage.told]

theorem tells_pointerEvent {x y buttonmask : ℤ} (hmask : RFBClient.Packs 1 buttonmask)
    (hx : RFBClient.Packs 2 x) (hy : RFBClient.Packs 2 y) :
    Tells c (.pointerEvent x y buttonmask)
      (packBE 1 (MsgC2S.value .pointerEvent) ++ packBE 1 buttonmask.toNat ++ packBE 2 x.toNat ++
        packBE 2 y.toNat) := by
  refine Tells.of_measured (measured_pointerEvent _ _ _) fun hkind => ?_
  have hmask' : field (packBE 1 (MsgC2S.value .pointerEvent) ++ packBE 1 buttonmask.toNat ++
      packBE 2 x.toNat ++ packBE 2 y.toNat) 1 1 = buttonmask.toNat :=
    field_of_eq (packBE 1 (MsgC2S.value .pointerEvent)) rfl rfl hmask.2
  have hx' : field (packBE 1 (MsgC2S.value .pointerEvent) ++ packBE 1 buttonmask.toNat ++
      packBE 2 x.toNat ++ packBE 2 y.toNat) 2 2 = x.toNat :=
    field_of_eq (packBE 1 (MsgC2S.value .pointerEvent) ++ packBE 1 buttonmask.toNat) rfl rfl hx.2
  have hy' : field (packBE 1 (MsgC2S.value .pointerEvent) ++ packBE 1 buttonmask.toNat ++
      packBE 2 x.toNat ++ packBE 2 y.toNat) 4 2 = y.toNat :=
    field_of_eq (packBE 1 (MsgC2S.value .pointerEvent) ++ packBE 1 buttonmask.toNat ++
      packBE 2 x.toNat) rfl rfl hy.2
  unfold messageCall
  rw [hkind]
  simp only [ClientMessage.kind, hmask', hx', hy', ClientMessage.told]

/-- The entries of a list that all have room are written one after the other. -/
theorem ensures_offered {encodings : List ℤ}
    (hwords : ∀ encoding ∈ encodings, RFBClient.PacksSigned encoding) : ∀ c : RFBClient σ,
    Ensures (encodings.forM fun encoding =>
        if RFBClient.PacksSigned encoding then write (packBE 4 (u32OfInt encoding))
        else throw .structError) c
      (fun _ c' => written c'.log =
        written c.log ++ ((encodings.map u32OfInt).map (packBE 4)).flatten)
      fun _ _ => False := by
  induction encodings with
  | nil => exact fun c => (List.append_nil _).symm
  | cons encoding encodings ih =>
      intro c
      rw [List.forall_mem_cons] at hwords
      refine ensures_bind.2 (ensures_ite.2 ⟨fun _ => ?_, fun hnone => hnone hwords.1⟩)
      change Ensures (encodings.forM _)
        { c with log := c.log ++ [Event.write (packBE 4 (u32OfInt encoding))] } _ _
      refine Ensures.mono (ih hwords.2 _) ?_ fun _ _ => id
      intro _ c' hwritten
      rw [hwritten, written_concat, List.append_assoc]
      rfl

/-- A call that returns has written its message, and one that raises nothing. -/
theorem ensures_tells {message : ClientMessage} (hplain : message.Plain) (c : RFBClient σ) :
    Ensures message.send c
      (fun _ c' => ∃ piece, written c'.log = written c.log ++ piece ∧ Tells c message piece)
      fun _ c' => written c'.log = written c.log := by
  cases message with
  | setPixelFormat pf =>
      refine ensures_ite.2 ⟨fun hpacks => ensures_bind.2 ?_, fun _ => rfl⟩
      exact ⟨_, written_concat _ _, tells_setPixelFormat hpacks⟩
  | setEncodings encodings =>
      refine ensures_ite.2 ⟨fun hpacks => ensures_bind.2 ?_, fun _ => rfl⟩
      change Ensures (encodings.forM _) { c with log := c.log ++ [Event.write _] } _ _
      refine Ensures.mono (ensures_offered hplain _) ?_ fun _ _ hfalse => hfalse.elim
      intro _ c' hwritten
      rw [written_concat, List.append_assoc] at hwritten
      exact ⟨_, hwritten, tells_setEncodings hpacks⟩
  | framebufferUpdateRequest x y width height incremental =>
      refine ensures_bind.2 (ensures_ite.2 ⟨fun hpacks => ?_, fun _ => rfl⟩)
      exact ⟨_, written_concat _ _, tells_framebufferUpdateRequest rfl rfl hpacks rfl⟩
  | keyEvent key down =>
      refine ensures_ite.2 ⟨fun hpacks => ?_, fun _ => rfl⟩
      exact ⟨_, written_concat _ _, tells_keyEvent hpacks⟩
  | pointerEvent x y buttonmask =>
      refine ensures_ite.2 ⟨fun hpacks => ?_, fun _ => rfl⟩
      exact ⟨_, written_concat _ _, tells_pointerEvent hpacks.1 hpacks.2.1 hpacks.2.2⟩
  | clientCutText message => exact hplain.elim

theorem Tells.served {message : ClientMessage} {piece : Bytes} (h : Tells c message piece)
    (hplain : message.Plain) : Served piece := by
  refine ⟨h.measured.complete, ?_, ?_⟩
  · rw [h.measured.kind]
    cases message with
    | clientCutText => exact hplain.elim
    | _ => exact fun heq => by cases heq
  · rw [h.measured.kind]
    cases message <;> exact fun heq => by cases heq

end Telling

/-! ## Every sequence of calls -/

section Saying

variable {σ : Type}

/-- Whatever is called, something is said: messages that a parser serves, and that are all that was
written. -/
theorem exists_says {said : List ClientMessage} (hplain : ∀ message ∈ said, message.Plain) :
    ∀ c : RFBClient σ, ∃ pieces calls c', Says c said pieces calls c' ∧
      (∀ piece ∈ pieces, Served piece) ∧ calls = pieces.map callOf ∧
        written c'.log = written c.log ++ pieces.flatten := by
  induction said with
  | nil =>
      intro c
      have hnone : ∀ piece ∈ ([] : List Bytes), Served piece := fun _ hmem =>
        absurd hmem List.not_mem_nil
      exact ⟨[], [], c, .nothing c, hnone, rfl, (List.append_nil _).symm⟩
  | cons message said ih =>
      intro c
      rw [List.forall_mem_cons] at hplain
      have htells := ensures_tells hplain.1 c
      cases hsend : message.send c with
      | ok _ c₁ =>
          rcases (ensures_of_run_ok hsend).1 htells with ⟨piece, hwritten, hpiece⟩
          rcases ih hplain.2 c₁ with ⟨pieces, calls, c', hsays, hserved, rfl, hlater⟩
          refine ⟨piece :: pieces, _, c', .returned hsend hwritten hsays, ?_, ?_, ?_⟩
          · exact List.forall_mem_cons.2 ⟨hpiece.served hplain.1, hserved⟩
          · rw [List.map_cons, hpiece.told]
          · rw [hlater, hwritten, List.flatten_cons, List.append_assoc]
      | error exc c₁ =>
          have hwritten := (ensures_of_run_error hsend).1 htells
          rcases ih hplain.2 c₁ with ⟨pieces, calls, c', hsays, hserved, hcalls, hlater⟩
          exact ⟨pieces, calls, c', .raised hsend hwritten hsays, hserved, hcalls,
            hlater.trans (hwritten ▸ rfl)⟩

end Saying

/-! ## What is heard -/

namespace Parser

variable {pw : Bool} {handshake : List Bytes} {delivery : List Bytes} {calls : List Call}

/-- However the messages are put together into deliveries, and however the handshake before them was
cut, the hooks are called for all of them and nothing is left. -/
def Hears (passwordRequired : Bool) (handshake pieces : List Bytes) (calls : List Call) : Prop :=
  ∀ deliveries : List (List Bytes), deliveries.flatten = pieces →
    ∃ p q : Parser Unit, (init passwordRequired ()).ReceivesAll {} handshake p ∧
      p.ReceivesAll {} (deliveries.map List.flatten) q ∧
        q.server.calls = p.server.calls ++ calls ∧ q.server.buffer = [] ∧ q.raised = none

theorem rests_behind : iterate {} (behind pw 1 [] calls) = none :=
  iterate_eq_none_iff.2 fun hready => absurd (ready_behind_iff.1 hready) (by decide)

/-- The handshake is followed chunk by chunk to its end. -/
theorem Greeted.receivesAll : ∀ {a : Bytes} {s : RFBServer Unit}, Greeted pw a s →
    protocolBytes pw (a ++ handshake.flatten) = some [] →
      ∃ s', ReceivesAll {} { server := s } handshake { server := s' } ∧
        Greeted pw (a ++ handshake.flatten) s' := by
  induction handshake with
  | nil =>
      intro a s hs _
      rw [List.flatten_nil, List.append_nil]
      exact ⟨s, rfl, hs⟩
  | cons chunk handshake ih =>
      intro a s hs hend
      rw [List.flatten_cons, ← List.append_assoc] at hend ⊢
      rcases exists_greeted pw (a ++ chunk) with ⟨s₁, hs₁⟩
      have hrests : iterate {} ({ server := s₁ } : Parser Unit) = none := by
        cases harrived : protocolBytes pw (a ++ chunk) with
        | none => exact hs₁.rest_none harrived
        | some rest =>
            -- Nothing follows the handshake yet.
            have happend := protocolBytes_append harrived handshake.flatten
            have hnothing : rest ++ handshake.flatten = [] :=
              Option.some.inj (happend.symm.trans hend)
            rw [(List.append_eq_nil_iff.1 hnothing).1] at harrived
            rw [hs₁.behind harrived]
            exact rests_behind
      rcases ih hs₁ hend with ⟨s', hlater, hs'⟩
      exact ⟨s', ⟨{ server := s₁ }, ⟨hs.reaches hs₁, hrests⟩, hlater⟩, hs'⟩

/-- A delivery of whole messages is handled to its end. -/
theorem receives_delivery (hserved : ∀ piece ∈ delivery, Served piece) :
    (behind pw 1 [] calls).Receives {} delivery.flatten
      (behind pw 1 [] (calls ++ delivery.map callOf)) := by
  have hreaches := @reaches_messages pw [] delivery hserved calls
  rw [List.append_nil] at hreaches
  exact ⟨hreaches, rests_behind⟩

theorem receivesAll_deliveries {deliveries : List (List Bytes)}
    (hserved : ∀ piece ∈ deliveries.flatten, Served piece) : ∀ {calls : List Call},
    (behind pw 1 [] calls).ReceivesAll {} (deliveries.map List.flatten)
      (behind pw 1 [] (calls ++ deliveries.flatten.map callOf)) := by
  induction deliveries with
  | nil =>
      intro calls
      exact congrArg (behind pw 1 []) (List.append_nil calls).symm
  | cons delivery deliveries ih =>
      intro calls
      rw [List.flatten_cons, List.forall_mem_append] at hserved
      have hlater := @ih hserved.2 (calls ++ delivery.map callOf)
      rw [List.append_assoc, ← List.map_append] at hlater
      exact ⟨_, receives_delivery hserved.1, hlater⟩

theorem hears_served {pieces : List Bytes}
    (hhandshake : protocolBytes pw handshake.flatten = some [])
    (hserved : ∀ piece ∈ pieces, Served piece) : Hears pw handshake pieces (pieces.map callOf) := by
  rintro deliveries rfl
  -- Wherever the handshake was cut, the parser stands behind it with nothing in its buffer.
  rcases greeted_init.receivesAll hhandshake with ⟨s, hgreets, hs⟩
  have hbehind : ({ server := s } : Parser Unit) = behind pw 1 [] s.calls := hs.behind hhandshake
  have hall := @receivesAll_deliveries pw deliveries hserved s.calls
  exact ⟨{ server := s }, _, hgreets, hbehind ▸ hall, rfl, rfl, rfl⟩

/-- Behind the handshake, every sequence of calls of a client that writes neither a ClientCutText
nor half a list of encodings is heard as it was said: the calls that return come to the hooks they
stand for, one after the other and with their arguments, and those that raise are not heard of. -/
theorem hears_says {σ : Type} (passwordRequired : Bool)
    (hhandshake : protocolBytes passwordRequired handshake.flatten = some [])
    {said : List ClientMessage} (hplain : ∀ message ∈ said, message.Plain) (c : RFBClient σ) :
    ∃ pieces calls c', Says c said pieces calls c' ∧
      written c'.log = written c.log ++ pieces.flatten ∧
        Hears passwordRequired handshake pieces calls := by
  rcases exists_says hplain c with ⟨pieces, _, c', hsays, hserved, rfl, hwritten⟩
  exact ⟨pieces, _, c', hsays, hwritten, hears_served hhandshake hserved⟩

/-- A client without a password greets in two pieces, presses a key that fits no field, offers two
encodings, asks for the screen and presses `a`. -/
theorem hears_says_typing :
    ∃ pieces calls c', Says ({ app := () } : RFBClient Unit)
        [.keyEvent (-1) true, .setEncodings [0, -239], .framebufferUpdateRequest 0 0 none none true,
          .keyEvent 97 true] pieces calls c' ∧
      written c'.log = written [] ++ pieces.flatten ∧
        Hears false [versionLine ⟨3, 8⟩ ++ [1], [1]] pieces calls :=
  hears_says false (by decide) (by decide) { app := () }

end Parser

end Vncdotool
