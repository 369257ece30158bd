import Vncdotool.RFB.HextileDecoding

/-!
# RRE — rectangles of subrectangles, and the same in fewer bytes

An RRE rectangle is a background and subrectangles on it, each in a colour of its own.  CoRRE is the
same with coordinates of one byte.  The two are decoded by parallel pairs of handlers, of which the
last one, for the subrectangles of CoRRE, never gets past its first `unpack`.
-/

namespace Vncdotool

open Wire Streaming StateTransition
open Hextile (Pixel fill made drew drew_nil drew_append arming AwaitsHeader Decoded)

namespace RRE

variable {bypp : ℕ}

/-! ## Rectangles -/

structure Subrect (bypp : ℕ) where
  color : Pixel bypp
  x : U16
  y : U16
  width : U16
  height : U16

/-- What a rectangle holds. -/
structure Content (bypp : ℕ) where
  background : Pixel bypp
  subrects : List (Subrect bypp)
  count_lt : subrects.length < 256 ^ 4

/-- Where a subrectangle stands on the screen. -/
def Subrect.region (s : Subrect bypp) (rect : Rect) : Raster.Region :=
  ⟨rect.x + s.x, rect.y + s.y, s.width, s.height⟩

/-- The coordinates fit in a byte. -/
def Subrect.Small (s : Subrect bypp) : Prop :=
  (s.x.val < 256 ∧ s.y.val < 256) ∧ s.width.val < 256 ∧ s.height.val < 256

/-- A subrectangle with coordinates of `size` bytes. -/
def Subrect.encode (size : ℕ) (s : Subrect bypp) : Bytes :=
  s.color.val ++ packBE size s.x ++ packBE size s.y ++ packBE size s.width ++ packBE size s.height

/-- The payload of a rectangle with coordinates of `size` bytes. -/
def Content.encode (size : ℕ) (content : Content bypp) : Bytes :=
  packBE 4 content.subrects.length ++ content.background.val ++
    content.subrects.flatMap (Subrect.encode size)

/-- The fills for a rectangle. -/
def Content.calls (content : Content bypp) (rect : Rect) : List Callback :=
  fill ⟨rect.x, rect.y, rect.width, rect.height⟩ content.background.val ::
    content.subrects.map fun s => fill (s.region rect) s.color.val

theorem Subrect.length_encode (size : ℕ) (s : Subrect bypp) :
    (s.encode size).length = bypp + 4 * size := by
  unfold encode
  rw [List.length_append, List.length_append, List.length_append, List.length_append,
    length_packBE, length_packBE, length_packBE, length_packBE, s.color.property]
  omega

theorem length_subrects (size : ℕ) (subrects : List (Subrect bypp)) :
    (subrects.flatMap (Subrect.encode size)).length = subrects.length * (bypp + 4 * size) := by
  induction subrects with
  | nil => exact (Nat.zero_mul _).symm
  | cons s subrects ih =>
      rw [List.flatMap_cons, List.length_append, s.length_encode, ih, List.length_cons,
        Nat.succ_mul subrects.length, Nat.add_comm]

theorem Content.length_encode (size : ℕ) (content : Content bypp) :
    (content.encode size).length =
      4 + bypp + content.subrects.length * (bypp + 4 * size) := by
  unfold encode
  rw [List.length_append, List.length_append, length_packBE, content.background.property,
    length_subrects]

/-! ## Turns -/

section Turns

variable {env : Env} {c : RFBClient Unit}

/-- The coordinates of a subrectangle are read from its bytes. -/
theorem field_encode (size : ℕ) {s : Subrect bypp}
    (hfits : (s.x.val < 256 ^ size ∧ s.y.val < 256 ^ size) ∧ s.width.val < 256 ^ size ∧
      s.height.val < 256 ^ size) :
    field (s.encode size) bypp size = s.x.val ∧ field (s.encode size) (bypp + size) size = s.y.val ∧
      field (s.encode size) (bypp + 2 * size) size = s.width.val ∧
        field (s.encode size) (bypp + 3 * size) size = s.height.val := by
  have hcolor := s.color.property
  rcases hfits with ⟨⟨hx, hy⟩, hwidth, hheight⟩
  refine ⟨?_, ?_, ?_, ?_⟩
  · have hfield := field_pack s.color.val
      (packBE size s.y ++ packBE size s.width ++ packBE size s.height) hcolor hx
    simpa [Subrect.encode, List.append_assoc] using hfield
  · have hbefore : (s.color.val ++ packBE size s.x).length = bypp + size := by
      rw [List.length_append, hcolor, length_packBE]
    have hfield := field_pack _ (packBE size s.width ++ packBE size s.height) hbefore hy
    simpa [Subrect.encode, List.append_assoc] using hfield
  · have hbefore : (s.color.val ++ packBE size s.x ++ packBE size s.y).length = bypp + 2 * size := by
      rw [List.length_append, List.length_append, hcolor, length_packBE, length_packBE]
      omega
    have hfield := field_pack _ (packBE size s.height) hbefore hwidth
    simpa [Subrect.encode, List.append_assoc] using hfield
  · have hbefore : (s.color.val ++ packBE size s.x ++ packBE size s.y ++
        packBE size s.width).length = bypp + 3 * size := by
      rw [List.length_append, List.length_append, List.length_append, hcolor, length_packBE,
        length_packBE, length_packBE]
      omega
    have hfield := field_pack _ [] hbefore hheight
    simpa [Subrect.encode, List.append_assoc] using hfield

/-- The loop over the subrectangles of an RRE rectangle. -/
theorem rreSubRectangles_eq (rect : Rect) (subrects : List (Subrect bypp)) {fuel : ℕ}
    (hfuel : subrects.length ≤ fuel) :
    RFBClient.rreSubRectangles (RFBClient.runtime env) bypp rect.x rect.y fuel
        (subrects.flatMap (Subrect.encode 2)) c =
      .ok () (drew c.pixelFormat (subrects.map fun s => fill (s.region rect) s.color.val) c) := by
  -- By induction on the subrectangles that are left.
  induction subrects generalizing c fuel with
  | nil =>
      rw [List.map_nil, drew_nil]
      cases fuel with
      | zero => rfl
      | succ fuel => rfl
  | cons s subrects ih =>
      rcases Nat.exists_eq_succ_of_ne_zero (Nat.ne_of_gt (Nat.zero_lt_of_lt hfuel)) with
        ⟨fuel, rfl⟩
      have hlength : (s.encode 2).length = bypp + 8 := s.length_encode 2
      have hne : ¬ ((s :: subrects).flatMap (Subrect.encode 2)).isEmpty = true := by
        intro hempty
        have hnil := congrArg List.length (List.isEmpty_iff.1 hempty)
        rw [length_subrects, List.length_nil, List.length_cons] at hnil
        rcases Nat.mul_eq_zero.1 hnil with hzero | hzero
        · cases hzero
        · omega
      rcases field_encode 2 (s := s) ⟨⟨s.x.isLt, s.y.isLt⟩, s.width.isLt, s.height.isLt⟩ with
        ⟨hx, hy, hwidth, hheight⟩
      have hcolor : (s.encode 2).take bypp = s.color.val := by
        unfold Subrect.encode
        rw [List.append_assoc, List.append_assoc, List.append_assoc]
        exact List.take_left' s.color.property
      have hcall := @Hextile.call_fill env c.pixelFormat c rfl (s.region rect) s.color.val
      have hrest := @ih (drew c.pixelFormat [fill (s.region rect) s.color.val] c) fuel
        (Nat.le_of_succ_le_succ hfuel)
      unfold RFBClient.rreSubRectangles
      rw [if_neg hne, List.flatMap_cons, List.take_left' hlength, if_neg (not_not.2 hlength),
        List.drop_left' hlength, hcolor, hx, hy, hwidth, hheight, List.map_cons]
      change _ = EStateM.Result.ok () (drew c.pixelFormat ([fill (s.region rect) s.color.val] ++
        subrects.map fun s => fill (s.region rect) s.color.val) c)
      rw [drew_append]
      exact (run_bind_ok hcall).trans hrest

/-- The first block of a rectangle: how many subrectangles there are, and the background. -/
theorem header_eq (content : Content bypp) :
    field (packBE 4 content.subrects.length ++ content.background.val) 0 4 =
        content.subrects.length ∧
      (packBE 4 content.subrects.length ++ content.background.val).drop 4 =
        content.background.val := by
  refine ⟨?_, List.drop_left' (length_packBE 4 _)⟩
  exact field_pack [] content.background.val rfl content.count_lt

/-- The handler of a rectangle's first block fills the background, and waits for the subrectangles if
there are any. -/
theorem first_eq (rect : Rect) (content : Content bypp) (handler : Handler) (extra : ℕ)
    (hbypp : c.pixelFormat.bypp = bypp) :
    (do
      (RFBClient.runtime env).call (.fillRectangle rect.x rect.y rect.width rect.height
        (some content.background.val))
      if content.subrects.length ≠ 0 then
        expect handler ((extra + (← get).pixelFormat.bypp) * content.subrects.length)
      else
        RFBClient.doConnection (RFBClient.runtime env) : Py Unit Unit) c =
      if content.subrects.length ≠ 0 then
        .ok () (arming handler ((extra + bypp) * content.subrects.length)
          (drew c.pixelFormat
            [fill ⟨rect.x, rect.y, rect.width, rect.height⟩ content.background.val] c))
      else
        RFBClient.doConnection (RFBClient.runtime env) (drew c.pixelFormat
          [fill ⟨rect.x, rect.y, rect.width, rect.height⟩ content.background.val] c) := by
  have hcall := @Hextile.call_fill env c.pixelFormat c rfl
    ⟨rect.x, rect.y, rect.width, rect.height⟩ content.background.val
  refine (run_bind_ok hcall).trans ?_
  split_ifs with hnone
  · change EStateM.Result.ok () (arming handler ((extra + c.pixelFormat.bypp) *
      content.subrects.length) _) = _
    rw [hbypp]
  · rfl

end Turns

/-! ## A rectangle of either encoding -/

/-- The handlers of an encoding, and the bytes that a subrectangle takes beside its colour. -/
structure Reader where
  encoding : Encoding
  first : Rect → Handler
  subrects : ℕ → ℕ → Handler
  extra : ℕ

def rre : Reader := ⟨.rre, .decodeRRE, .rreSubRectangles, 8⟩

def corre : Reader := ⟨.corre, .decodeCORRE, .decodeCORRERectangles, 4⟩

/-- The client after the first block of a rectangle. -/
def Reader.begun (reader : Reader) (content : Content bypp) (rect : Rect) (c : RFBClient Unit) :
    RFBClient Unit :=
  let filled := arming (reader.first rect) (4 + bypp) (drew c.pixelFormat
    [fill ⟨rect.x, rect.y, rect.width, rect.height⟩ content.background.val] c)
  if content.subrects.length ≠ 0 then
    arming (reader.subrects rect.x rect.y) ((reader.extra + bypp) * content.subrects.length) filled
  else
    Hextile.handedOver filled

section Rectangle

variable {env : Env} {conn : Connection Unit}

theorem aborted_handedOver (c : RFBClient Unit) : (Hextile.handedOver c).aborted = c.aborted := by
  unfold Hextile.handedOver
  split_ifs
  · rfl
  · rfl

/-- The turns that read the header and the first block of a rectangle. -/
theorem reaches_begun {reader : Reader} (hreader : reader = rre ∨ reader = corre)
    (hconn : AwaitsHeader bypp conn) (rect : WireRect) (content : Content bypp) (rest : Bytes) :
    Reaches (Connection.iterate (RFBClient.runtime env))
      (Connection.live conn.client (rect.header reader.encoding ++
        (packBE 4 content.subrects.length ++ content.background.val ++ rest)))
      (Connection.live
        (reader.begun content rect.toRect (Connection.counted rect.toRect conn.client)) rest) := by
  let c₀ : RFBClient Unit := Connection.counted rect.toRect conn.client
  let c₁ : RFBClient Unit := arming (reader.first rect.toRect) (4 + bypp) c₀
  have hhandler : conn.client.expectedHandler = .rectangle := congrArg Prod.fst hconn.armed
  have hlen : conn.client.expectedLen = 12 := congrArg Prod.snd hconn.armed
  have hbypp : c₁.pixelFormat.bypp = bypp := hconn.format
  rcases header_eq content with ⟨hcount, hcolor⟩
  -- The header arms the reader of the first block, which fills the background.
  have hheader : RFBClient.handleRectangle (RFBClient.runtime env) (rect.header reader.encoding)
      conn.client = .ok () c₁ := by
    have harm : c₁ = arming (reader.first rect.toRect) (4 + conn.client.pixelFormat.bypp) c₀ := by
      rw [hconn.format]
    rw [harm]
    rcases hreader with rfl | rfl
    · exact Connection.handleRectangle_eq rect (by decide) hconn.announced
    · exact Connection.handleRectangle_eq rect (by decide) hconn.announced
  have hfirst : (reader.first rect.toRect).run (RFBClient.runtime env)
      (packBE 4 content.subrects.length ++ content.background.val) c₁ =
        .ok () (reader.begun content rect.toRect c₀) := by
    have hbody := @first_eq bypp env c₁ rect.toRect content
      (reader.subrects rect.toRect.x rect.toRect.y) reader.extra hbypp
    -- Without subrectangles the rectangle is over.
    have hended : (if content.subrects.length ≠ 0 then
        .ok () (arming (reader.subrects rect.toRect.x rect.toRect.y)
          ((reader.extra + bypp) * content.subrects.length) (drew c₁.pixelFormat
            [fill ⟨rect.toRect.x, rect.toRect.y, rect.toRect.width, rect.toRect.height⟩
              content.background.val] c₁))
        else RFBClient.doConnection (RFBClient.runtime env) (drew c₁.pixelFormat
          [fill ⟨rect.toRect.x, rect.toRect.y, rect.toRect.width, rect.toRect.height⟩
            content.background.val] c₁)) =
        EStateM.Result.ok () (reader.begun content rect.toRect c₀) := by
      unfold Reader.begun
      split_ifs
      · rfl
      · exact Hextile.doConnection_eq _
    rcases hreader with rfl | rfl
    · change RFBClient.handleDecodeRRE (RFBClient.runtime env) rect.toRect _ c₁ = _
      unfold RFBClient.handleDecodeRRE
      rw [hcount, hcolor]
      exact hbody.trans hended
    · change RFBClient.handleDecodeCORRE (RFBClient.runtime env) rect.toRect _ c₁ = _
      unfold RFBClient.handleDecodeCORRE
      rw [hcount, hcolor]
      exact hbody.trans hended
  have haborted : (reader.begun content rect.toRect c₀).aborted = false := by
    unfold Reader.begun
    dsimp only
    split_ifs
    · exact hconn.idle.aborted
    · exact (aborted_handedOver _).trans hconn.idle.aborted
  have hblock : (packBE 4 content.subrects.length ++ content.background.val).length =
      c₁.expectedLen := by
    rw [List.length_append, length_packBE, content.background.property]
    rfl
  have hturn : Reaches (Connection.iterate (RFBClient.runtime env))
      (Connection.live conn.client (rect.header reader.encoding ++
        (packBE 4 content.subrects.length ++ content.background.val ++ rest)))
      (Connection.live c₁
        (packBE 4 content.subrects.length ++ content.background.val ++ rest)) := by
    refine Connection.reaches_live hconn.idle.stage hconn.idle.aborted ?_ ?_ hconn.idle.aborted
    · rw [hlen, WireRect.length_header]
    · rw [hhandler]
      exact hheader
  exact hturn.trans (@Connection.reaches_live Unit (RFBClient.runtime env) c₁ _ _ rest
    hconn.idle.stage hconn.idle.aborted hblock hfirst haborted)

/-- In any cut the bytes are read to their end and no further, and these calls are made. -/
def Decodes (env : Env) (conn : Connection Unit) (rect : WireRect) (bytes : Bytes)
    (cbs : List Callback) : Prop :=
  ∀ chunks : List Bytes, chunks.flatten = bytes →
    ∃ conn', (∀ q, conn.Receives (RFBClient.runtime env) chunks q ↔ q = conn') ∧
      Decoded conn conn' rect.toRect cbs

theorem decodes_of_reaches (hconn : AwaitsHeader bypp conn) {rect : WireRect} {bytes : Bytes}
    {cbs : List Callback} {handler : Handler} {size : ℕ}
    (hreaches : Reaches (Connection.iterate (RFBClient.runtime env))
      (Connection.live conn.client bytes)
      (Connection.live (Hextile.handedOver (arming handler size
        (drew conn.client.pixelFormat cbs (Connection.counted rect.toRect conn.client)))) [])) :
    Decodes env conn rect bytes cbs := by
  intro chunks hchunks
  have hlen : conn.client.expectedLen = 12 := congrArg Prod.snd hconn.armed
  refine ⟨_, hconn.idle.receives_iff (by rw [hlen]; decide) (RFBClient.runtime_tame env)
    (hchunks ▸ hreaches) (Hextile.expectedLen_handedOver _), ?_⟩
  exact Hextile.decoded_handedOver hconn rect.toRect cbs handler size

/-- A rectangle without subrectangles, in either encoding. -/
theorem decodes_none {reader : Reader} (hreader : reader = rre ∨ reader = corre)
    (hconn : AwaitsHeader bypp conn) (rect : WireRect) {content : Content bypp} (size : ℕ)
    (hnone : content.subrects = []) :
    Decodes env conn rect (rect.header reader.encoding ++ content.encode size)
      (content.calls rect.toRect) := by
  have hreaches := @reaches_begun bypp env conn reader hreader hconn rect content []
  have hbytes : packBE 4 content.subrects.length ++ content.background.val ++ [] =
      content.encode size := by
    unfold Content.encode
    rw [hnone]
    rfl
  have hcalls : content.calls rect.toRect = [fill ⟨rect.toRect.x, rect.toRect.y, rect.toRect.width,
      rect.toRect.height⟩ content.background.val] := by
    unfold Content.calls
    rw [hnone]
    rfl
  have hbegun : reader.begun content rect.toRect (Connection.counted rect.toRect conn.client) =
      Hextile.handedOver (arming (reader.first rect.toRect) (4 + bypp)
        (drew conn.client.pixelFormat (content.calls rect.toRect)
          (Connection.counted rect.toRect conn.client))) := by
    unfold Reader.begun
    rw [hcalls, hnone]
    rfl
  rw [hbytes, hbegun] at hreaches
  exact decodes_of_reaches hconn hreaches

/-- An RRE rectangle. -/
theorem decodes_rre (hconn : AwaitsHeader bypp conn) (rect : WireRect) (content : Content bypp) :
    Decodes env conn rect (rect.header .rre ++ content.encode 2) (content.calls rect.toRect) := by
  by_cases hnone : content.subrects = []
  · exact @decodes_none bypp env conn rre (.inl rfl) hconn rect content 2 hnone
  · have hcount : content.subrects.length ≠ 0 := fun hzero =>
      hnone (List.eq_nil_of_length_eq_zero hzero)
    let c₁ : RFBClient Unit := arming (.rreSubRectangles rect.toRect.x rect.toRect.y)
      ((8 + bypp) * content.subrects.length) (drew conn.client.pixelFormat
        [fill ⟨rect.toRect.x, rect.toRect.y, rect.toRect.width, rect.toRect.height⟩
          content.background.val] (Connection.counted rect.toRect conn.client))
    have hbegun := @reaches_begun bypp env conn rre (.inl rfl) hconn rect content
      (content.subrects.flatMap (Subrect.encode 2))
    have hc₁ : rre.begun content rect.toRect (Connection.counted rect.toRect conn.client) = c₁ :=
      if_pos hcount
    have hblock : (content.subrects.flatMap (Subrect.encode 2)).length = c₁.expectedLen := by
      rw [length_subrects]
      change _ = (8 + bypp) * content.subrects.length
      rw [Nat.mul_comm, Nat.add_comm bypp]
    have hbypp : c₁.pixelFormat.bypp = bypp := hconn.format
    -- The bytes of the block are fuel enough for its subrectangles.
    have hloop := @rreSubRectangles_eq bypp env c₁ rect.toRect content.subrects
      (content.subrects.flatMap (Subrect.encode 2)).length (by
        rw [length_subrects]
        exact Nat.le_mul_of_pos_right _ (by omega))
    have hdrew : drew c₁.pixelFormat (content.subrects.map fun s =>
        fill (s.region rect.toRect) s.color.val) c₁ =
          arming (.rreSubRectangles rect.toRect.x rect.toRect.y)
            ((8 + bypp) * content.subrects.length) (drew conn.client.pixelFormat
              (content.calls rect.toRect) (Connection.counted rect.toRect conn.client)) := by
      have hcalls : content.calls rect.toRect =
          [fill ⟨rect.toRect.x, rect.toRect.y, rect.toRect.width, rect.toRect.height⟩
            content.background.val] ++
            content.subrects.map fun s => fill (s.region rect.toRect) s.color.val := rfl
      rw [hcalls, drew_append]
      rfl
    have hrun : c₁.expectedHandler.run (RFBClient.runtime env)
        (content.subrects.flatMap (Subrect.encode 2)) c₁ =
          .ok () (Hextile.handedOver (arming (.rreSubRectangles rect.toRect.x rect.toRect.y)
            ((8 + bypp) * content.subrects.length) (drew conn.client.pixelFormat
              (content.calls rect.toRect) (Connection.counted rect.toRect conn.client)))) := by
      change RFBClient.handleRRESubRectangles (RFBClient.runtime env) _ _ _ c₁ = _
      unfold RFBClient.handleRRESubRectangles
      rw [run_get_bind, hbypp]
      refine (run_bind_ok hloop).trans ?_
      rw [hdrew]
      exact Hextile.doConnection_eq _
    have hlast := @Connection.reaches_live Unit (RFBClient.runtime env) c₁ _ _ []
      hconn.idle.stage hconn.idle.aborted hblock hrun
      ((aborted_handedOver _).trans hconn.idle.aborted)
    rw [List.append_nil] at hlast
    rw [hc₁] at hbegun
    exact decodes_of_reaches hconn (hbegun.trans hlast)

/-- A CoRRE rectangle with a subrectangle raises. -/
theorem not_decodes_corre (hconn : AwaitsHeader bypp conn) (rect : WireRect) {content : Content bypp}
    (hsome : content.subrects ≠ []) (cbs : List Callback) :
    ¬ Decodes env conn rect (rect.header .corre ++ content.encode 1) cbs := by
  intro h
  have hcount : content.subrects.length ≠ 0 := fun hzero =>
    hsome (List.eq_nil_of_length_eq_zero hzero)
  let c₁ : RFBClient Unit := arming (.decodeCORRERectangles rect.toRect.x rect.toRect.y)
    ((4 + bypp) * content.subrects.length) (drew conn.client.pixelFormat
      [fill ⟨rect.toRect.x, rect.toRect.y, rect.toRect.width, rect.toRect.height⟩
        content.background.val] (Connection.counted rect.toRect conn.client))
  have hc₁ : corre.begun content rect.toRect (Connection.counted rect.toRect conn.client) = c₁ :=
    if_pos hcount
  have hbegun := @reaches_begun bypp env conn corre (.inr rfl) hconn rect content
    (content.subrects.flatMap (Subrect.encode 1))
  rw [hc₁] at hbegun
  have hblock : (content.subrects.flatMap (Subrect.encode 1)).length = c₁.expectedLen := by
    rw [length_subrects]
    change _ = (4 + bypp) * content.subrects.length
    rw [Nat.mul_comm, Nat.add_comm bypp]
  -- The turn that raises, after which the loop is at rest.
  have hraise : Connection.iterate (RFBClient.runtime env)
      (Connection.live c₁ (content.subrects.flatMap (Subrect.encode 1))) =
        some { client := c₁, packet := [], raised := some .structError } := by
    have hpending : (Connection.live c₁ (content.subrects.flatMap (Subrect.encode 1))).pending =
        some (.decodeCORRERectangles rect.toRect.x rect.toRect.y,
          content.subrects.flatMap (Subrect.encode 1)) := by
      refine Connection.pending_eq_some_iff.2 ⟨⟨hconn.idle.stage, hconn.idle.aborted, rfl, ?_⟩, rfl, ?_⟩
      · exact hblock.symm.le
      · exact (List.take_of_length_le hblock.le).symm
    unfold Connection.iterate
    rw [hpending]
    have hrest : (Connection.live c₁ (content.subrects.flatMap (Subrect.encode 1))).packet.drop
        c₁.expectedLen = [] := List.drop_eq_nil_of_le hblock.le
    change some (Connection.resume ((Connection.live c₁
      (content.subrects.flatMap (Subrect.encode 1))).packet.drop c₁.expectedLen)
        (.error .structError c₁)) = _
    rw [hrest]
    unfold Connection.resume
    dsimp only
    rw [ite_self]
  have hhalts : HaltsAt (Connection.iterate (RFBClient.runtime env))
      (Connection.live conn.client (rect.header .corre ++ content.encode 1))
      { client := c₁, packet := [], raised := some .structError } := by
    refine ⟨hbegun.trans (Relation.ReflTransGen.single hraise), ?_⟩
    refine Connection.iterate_eq_none_iff.2 (Connection.pending_of_raised ?_)
    exact Option.some_ne_none _
  rcases h [rect.header .corre ++ content.encode 1] (List.append_nil _) with ⟨conn', hreceives, _⟩
  rcases (hreceives conn').2 rfl with ⟨m, hreturns, hnone, _⟩
  have henter : conn.enter (RFBClient.runtime env) (rect.header .corre ++ content.encode 1) =
      Connection.live conn.client (rect.header .corre ++ content.encode 1) := by
    unfold Connection.enter
    rw [if_neg (by rw [hconn.idle.aborted]; exact Bool.false_ne_true)]
    dsimp only
    rw [hconn.idle.stage, hconn.idle.packet]
    rfl
  unfold Connection.Returns at hreturns
  rw [henter] at hreturns
  rw [hreturns.unique hhalts] at hnone
  cases hnone

/-- RRE rectangles are read exactly, whatever they hold; CoRRE rectangles take as many bytes as they
should, but are read, with the calls of the same rectangle in RRE, if and only if they have no
subrectangles. -/
theorem rre_exact_corre_iff (hconn : AwaitsHeader bypp conn) (rect : WireRect)
    (content : Content bypp) :
    ((content.encode 2).length = 4 + bypp + content.subrects.length * (bypp + 8) ∧
      Decodes env conn rect (rect.header .rre ++ content.encode 2) (content.calls rect.toRect)) ∧
    ((∀ s ∈ content.subrects, s.Small) →
      (content.encode 1).length = 4 + bypp + content.subrects.length * (bypp + 4) ∧
      (Decodes env conn rect (rect.header .corre ++ content.encode 1) (content.calls rect.toRect) ↔
        content.subrects = [])) := by
  refine ⟨⟨content.length_encode 2, decodes_rre hconn rect content⟩,
    fun _ => ⟨content.length_encode 1, fun h => ?_, fun hnone => ?_⟩⟩
  · by_contra hsome
    exact not_decodes_corre hconn rect hsome _ h
  · exact @decodes_none bypp env conn corre (.inr rfl) hconn rect content 1 hnone

end Rectangle

theorem length_seven : ([7] : Bytes).length = 1 := rfl

theorem length_nine : ([9] : Bytes).length = 1 := rfl

/-- A background of one byte, and a subrectangle in its corner. -/
def corner : Content 1 where
  background := ⟨[7], length_seven⟩
  subrects := [⟨⟨[9], length_nine⟩, 0, 0, 1, 1⟩]
  count_lt := by decide

/-- Where it stands. -/
def cornerRect : WireRect :=
  ⟨3, 4, 2, 2⟩

theorem awaitsHeader_oneByte : AwaitsHeader 1 Hextile.awaitingOneByte :=
  ⟨⟨rfl, rfl, rfl, rfl⟩, rfl, by decide, rfl, by decide⟩

theorem small_corner : ∀ s ∈ corner.subrects, s.Small := by
  intro s hs
  rcases List.mem_singleton.1 hs with rfl
  exact ⟨⟨by decide, by decide⟩, by decide, by decide⟩

theorem rre_exact_corre_iff_corner :
    ((corner.encode 2).length = 4 + 1 + 1 * (1 + 8) ∧
      Decodes .sample Hextile.awaitingOneByte cornerRect (cornerRect.header .rre ++ corner.encode 2)
        (corner.calls cornerRect.toRect)) ∧
    ((corner.encode 1).length = 4 + 1 + 1 * (1 + 4) ∧
      (Decodes .sample Hextile.awaitingOneByte cornerRect
          (cornerRect.header .corre ++ corner.encode 1) (corner.calls cornerRect.toRect) ↔
        corner.subrects = [])) := by
  have hboth := @rre_exact_corre_iff 1 .sample Hextile.awaitingOneByte awaitsHeader_oneByte
    cornerRect corner
  exact ⟨hboth.1, hboth.2 small_corner⟩

/-- The corner in CoRRE. -/
theorem not_decodes_corner :
    (∀ s ∈ corner.subrects, s.Small) ∧
      ¬ Decodes .sample Hextile.awaitingOneByte cornerRect
        (cornerRect.header .corre ++ corner.encode 1) (corner.calls cornerRect.toRect) :=
  have hsome : corner.subrects ≠ [] := List.cons_ne_nil _ _
  ⟨small_corner, not_decodes_corre awaitsHeader_oneByte cornerRect hsome _⟩

end RRE

end Vncdotool
