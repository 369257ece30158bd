import Vncdotool.Client.CPixel
import Vncdotool.RFB.RRE
import Vncdotool.RFB.Blocks
import Vncdotool.RFB.ZrlePacking

/-!
# Payloads — the payloads of rectangles, as their encodings have them

What follows the header of a rectangle is the payload of an encoding, and each encoding says which
bytes are one (`Payload.WellFormed`).  A payload of which a part has been read is malformed when no
well-formed one begins with that part.  The formats are those of the protocol, not those of the
handlers: a tile of ZRLE may have rows that end within a byte and pixels of any size, where the client
reads neither (`Payload.Readable`).
-/

namespace Vncdotool

open Wire Streaming StateTransition Raster

variable {σ : Type}

/-! ## Tiles of ZRLE -/

namespace Zrle

/-- A tile in any of the subencodings, whose pixels take `n` bytes. -/
inductive AnyTile (n : ℕ)
  | plain (tile : Tile (Hextile.Pixel n))
  | packed (s : PackedSize) (palette : List (Hextile.Pixel n)) (rows : List (PackedRow s))

namespace AnyTile

variable {n : ℕ}

def encode : AnyTile n → Bytes
  | plain tile => tile.encode Subtype.val
  | packed s palette rows =>
      UInt8.ofNat s.colors :: (palette.flatMap Subtype.val ++
        rows.flatMap fun row => packBytes s.bits s.perByte s.rowBytes row.slots)

/-- A tile of this size is encoded as the specification allows. -/
def Valid (width height : ℕ) : AnyTile n → Prop
  | plain tile => tile.Valid (width * height)
  | packed s palette rows =>
      (s.width = width ∧ s.height = height) ∧ palette.length = s.colors ∧ rows.length = s.height

/-- The pixels take three bytes, and packed rows end with a byte, but for a single one. -/
def Legible : AnyTile n → Prop
  | plain _ => n = 3
  | packed s _ _ => n = 3 ∧ (s.padding = 0 ∨ s.height = 1)

end AnyTile

/-- A rectangle of this size is encoded as the specification allows. -/
structure ValidTiles (n width height : ℕ) (tiles : List (AnyTile n)) : Prop where
  length : tiles.length = tilesAcross 64 width * tilesAcross 64 height
  tile : ∀ i, ∀ tile : AnyTile n, tiles[i]? = some tile →
    tile.Valid (tileRegion 64 width height i).width (tileRegion 64 width height i).height

end Zrle

/-! ## Payloads -/

/-- The rectangle lies in a framebuffer of this size. -/
def Rect.Inside (rect : Rect) (size : ℕ × ℕ) : Prop :=
  rect.x + rect.width ≤ size.1 ∧ rect.y + rect.height ≤ size.2

/-- The subrectangle lies in its rectangle. -/
def RRE.Subrect.Inside {bypp : ℕ} (s : RRE.Subrect bypp) (rect : Rect) : Prop :=
  Rect.Inside ⟨s.x, s.y, s.width, s.height⟩ (rect.width, rect.height)

/-- What has been read of the payload of a rectangle. -/
structure Payload where
  rect : Rect
  encoding : Encoding
  read : Bytes

namespace Payload

/-- More of the payload has been read. -/
def append (p : Payload) (block : Bytes) : Payload :=
  { p with read := p.read ++ block }

/-- A rectangle of pixels lies in the framebuffer, and so do the pixels that are copied. -/
def InFramebuffer (size : ℕ × ℕ) (p : Payload) : Prop :=
  match p.encoding with
  | .raw => p.rect.Inside size
  | .copyRectangle =>
      p.rect.Inside size ∧
        Rect.Inside ⟨field p.read 0 2, field p.read 2 2, p.rect.width, p.rect.height⟩ size
  | .rre => p.rect.Inside size
  | .corre => p.rect.Inside size
  | .hextile => p.rect.Inside size
  | .zrle => p.rect.Inside size
  | _ => True

/-- What has been read is a payload of the encoding for the rectangle, in the format and behind the
zlib blocks that `c` has; `P` is a condition on the tiles of ZRLE. -/
def Encodes (env : Env) (c : RFBClient σ) (P : Zrle.AnyTile c.pixelFormat.cpixelBytes → Prop)
    (p : Payload) : Prop :=
  match p.encoding with
  | .raw => p.read.length = p.rect.width * p.rect.height * c.pixelFormat.bypp
  | .copyRectangle => p.read.length = 4
  | .rre =>
      ∃ content : RRE.Content c.pixelFormat.bypp,
        (∀ s ∈ content.subrects, s.Inside p.rect) ∧ p.read = content.encode 2
  | .corre =>
      ∃ content : RRE.Content c.pixelFormat.bypp,
        (∀ s ∈ content.subrects, s.Small ∧ s.Inside p.rect) ∧ p.read = content.encode 1
  | .hextile =>
      ∃ tiles : List (Hextile.Tile c.pixelFormat.bypp),
        Hextile.Valid p.rect.width p.rect.height tiles ∧
          p.read = tiles.flatMap Hextile.Tile.encode
  | .zrle =>
      ∃ (block : Bytes) (tiles : List (Zrle.AnyTile c.pixelFormat.cpixelBytes)),
        (block.length < 256 ^ 4 ∧ p.read = packBE 4 block.length ++ block) ∧
          env.inflate c.zlibStream block = .ok (tiles.flatMap Zrle.AnyTile.encode) ∧
            Zrle.ValidTiles _ p.rect.width p.rect.height tiles ∧ ∀ tile ∈ tiles, P tile
  | .pseudoCursor =>
      p.read.length = RFBClient.cursorLength c.pixelFormat.bypp p.rect.width p.rect.height
  | _ => p.read = []

/-- It is one, and the client can read it too: pixels have bytes where Hextile sends them, and the
tiles of ZRLE are legible. -/
structure Readable (env : Env) (c : RFBClient σ) (size : ℕ × ℕ) (p : Payload) : Prop where
  inFramebuffer : p.InFramebuffer size
  encodes : p.Encodes env c Zrle.AnyTile.Legible
  pixels : p.encoding = .hextile → 0 < c.pixelFormat.bypp

/-- A payload that is `good` begins with what has been read. -/
def Begins (good : Payload → Prop) (p : Payload) : Prop :=
  ∃ rest, good (p.append rest)

variable {env : Env} {c : RFBClient σ} {size : ℕ × ℕ} {p : Payload}

theorem Begins.mono {good good' : Payload → Prop} (hgood : ∀ q, good q → good' q)
    (h : p.Begins good) : p.Begins good' := by
  rcases h with ⟨rest, hrest⟩
  exact ⟨rest, hgood _ hrest⟩

end Payload

/-! ## ZRLE -/

namespace Hextile

variable {env : Env} {rect : Rect} {c : RFBClient Unit}

/-- The continuation behind the header of a rectangle. -/
def first (rect : Rect) : HextileTile :=
  { bg := none, color := none, rect := rect, tx := rect.x, ty := rect.y }

/-- The client waits for the first tile of a rectangle. -/
structure AtFirst (rect : Rect) (c : RFBClient Unit) : Prop where
  stage : c.stage = .handleExpected
  aborted : c.aborted = false
  armed : c.armed = (.decodeHextile (first rect), 1)

/-- From the header of a Hextile rectangle, by what has been read since, the client has come here. -/
def CameBy (env : Env) (rect : Rect) (read : Bytes) (c : RFBClient Unit) : Prop :=
  ∃ c₀, AtFirst rect c₀ ∧ c.pixelFormat = c₀.pixelFormat ∧ ∀ rest,
    Reaches (Connection.iterate (RFBClient.runtime env)) (Connection.live c₀ (read ++ rest))
      (Connection.live c rest)

theorem waiting_first {bypp : ℕ} (tile : Tile bypp) :
    Placed.waiting ⟨0, {}, tile⟩ rect none none = first rect := by
  unfold Placed.waiting Placed.place Placed.region tileRegion Region.shift first
  dsimp only
  rw [Nat.zero_mod, Nat.zero_div]
  rfl

/-- The loop comes to rest behind a rectangle that is encoded as the specification allows, and
nothing has been raised. -/
theorem AtFirst.haltsAt (h : AtFirst rect c) (hpixels : 0 < c.pixelFormat.bypp)
    {tiles : List (Tile c.pixelFormat.bypp)} (hvalid : Valid rect.width rect.height tiles) :
    ∃ c₂, HaltsAt (Connection.iterate (RFBClient.runtime env))
      (Connection.live c (tiles.flatMap Tile.encode)) (Connection.live c₂ []) := by
  have hrest (c₂ : RFBClient Unit) (hlen : 0 < c₂.expectedLen) :
      Connection.iterate (RFBClient.runtime env) (Connection.live c₂ []) = none := by
    refine Connection.iterate_eq_none_iff.2 (not_not.1 fun hpending => ?_)
    have hle := (Connection.pending_ne_none_iff.1 hpending).2.2.2
    exact absurd hlen (Nat.not_lt.2 hle)
  cases tiles with
  | nil =>
      refine ⟨c, HaltsAt.refl (hrest c ?_)⟩
      rw [show c.expectedLen = 1 from congrArg Prod.snd h.armed]
      exact Nat.one_pos
  | cons tile tiles =>
      have hwidth : 0 < rect.width := by
        refine Nat.pos_of_ne_zero fun hzero => ?_
        have hnone := hvalid.length
        rw [hzero] at hnone
        exact absurd hnone (by simp [tilesAcross])
      have hcolours : Colours ({} : Carry c.pixelFormat.bypp) none none :=
        ⟨fun _ hnone => (by cases hnone), fun _ hnone => (by cases hnone)⟩
      rcases @reaches_tiles _ env c.pixelFormat c rect hwidth rfl hpixels tile tiles 0 {} none none
        ((Nat.zero_add _).trans hvalid.length) hvalid.tile hcolours h.stage h.aborted rfl with
        ⟨handler, size, hreaches⟩
      have hdone := (hreaches []).1 _ (doConnection_eq _)
        ((RRE.aborted_handedOver _).trans h.aborted)
      have harmed : arming (.decodeHextile (first rect)) 1 c = c := by
        rcases c with ⟨⟩
        cases h.armed
        rfl
      rw [waiting_first tile, harmed, List.append_nil] at hdone
      exact ⟨_, hdone, hrest _ (expectedLen_handedOver _)⟩

/-- The handler returns, if what it is handed belongs to a rectangle that the protocol allows: no
exception is on the way to where the loop comes to rest. -/
theorem CameBy.returns {read block : Bytes} {size : ℕ × ℕ} (h : CameBy env rect read c)
    (hstage : c.stage = .handleExpected) (haborted : c.aborted = false)
    (hlen : block.length = c.expectedLen)
    (hbegins : (Payload.append ⟨rect, .hextile, read⟩ block).Begins
      (Payload.Readable env c size)) :
    ∃ c', c.expectedHandler.run (RFBClient.runtime env) block c = .ok () c' := by
  rcases h with ⟨c₀, hfirst, hformat, hreaches⟩
  rcases hbegins with ⟨rest, hreadable⟩
  rcases hreadable.encodes with ⟨tiles, hvalid, hread⟩
  have hbytes : read ++ (block ++ rest) = tiles.flatMap Tile.encode := by
    rw [← List.append_assoc]
    exact hread
  have hpixels' : 0 < c.pixelFormat.bypp := hreadable.pixels rfl
  -- The tiles are lists over the present format, which is the one at the header.
  clear hread hreadable
  revert tiles
  rw [hformat] at hpixels' ⊢
  intro tiles hvalid hbytes
  have hread : ∃ c₂, HaltsAt (Connection.iterate (RFBClient.runtime env))
      (Connection.live c₀ (tiles.flatMap Tile.encode)) (Connection.live c₂ []) :=
    hfirst.haltsAt hpixels' hvalid
  rcases hread with ⟨c₂, hhalts⟩
  rw [← hbytes] at hhalts
  -- Runs are unique, so the one from the header comes by here.
  have hhere := (HaltsAt.iff_of_reaches (hreaches (block ++ rest))).1 hhalts
  cases hrun : c.expectedHandler.run (RFBClient.runtime env) block c with
  | ok _ c' => exact ⟨c', rfl⟩
  | error exc c' =>
      -- A turn that raises is the last one, and would be where the loop comes to rest.
      have hle : c.expectedLen ≤ (block ++ rest).length := by
        rw [List.length_append, hlen]
        exact Nat.le_add_right _ _
      have hpending : (Connection.live c (block ++ rest)).pending =
          some (c.expectedHandler, block) :=
        Connection.pending_eq_some_iff.2 ⟨⟨hstage, haborted, rfl, hle⟩, rfl,
          (List.take_left' hlen).symm⟩
      have hturn : Connection.iterate (RFBClient.runtime env) (Connection.live c (block ++ rest)) =
          some (Connection.resume ((block ++ rest).drop c.expectedLen) (.error exc c')) := by
        refine Connection.iterate_eq_some_iff.2 ⟨_, _, hpending, ?_⟩
        exact congrArg (Connection.resume _) hrun.symm
      have hraised := (HaltsAt.iff_of_step hturn).1 hhere
      have hrest : Connection.iterate (RFBClient.runtime env)
          (Connection.resume ((block ++ rest).drop c.expectedLen) (.error exc c')) = none :=
        Connection.iterate_eq_none_iff.2 (Connection.pending_of_raised (Option.some_ne_none exc))
      have hend := congrArg Connection.raised (hraised.eq_of_none hrest)
      cases hend

/-- One more block. -/
theorem CameBy.step {read block : Bytes} {c' : RFBClient Unit} (h : CameBy env rect read c)
    (hstage : c.stage = .handleExpected) (haborted : c.aborted = false)
    (hlen : block.length = c.expectedLen)
    (hrun : c.expectedHandler.run (RFBClient.runtime env) block c = .ok () c')
    (haborted' : c'.aborted = false) (hformat : c'.pixelFormat = c.pixelFormat) :
    CameBy env rect (read ++ block) c' := by
  rcases h with ⟨c₀, hfirst, hformat₀, hreaches⟩
  refine ⟨c₀, hfirst, hformat.trans hformat₀, fun rest => ?_⟩
  rw [List.append_assoc]
  exact (hreaches (block ++ rest)).trans
    (Connection.reaches_live hstage haborted hlen hrun haborted')

end Hextile

end Vncdotool
