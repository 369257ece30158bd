import Vncdotool.Wire.Bytes

/-!
# PixelFormat — the pixel format record of RFC 6143 §7.4

The sixteen byte record a server announces in ServerInit and a client sends back in
SetPixelFormat, with `from_bytes`, `to_bytes` and the derived `bypp`.
-/

namespace Vncdotool

open Wire

structure PixelFormat where
  bpp : ℕ := 32
  depth : ℕ := 24
  bigendian : Bool := false
  truecolor : Bool := true
  redmax : ℕ := 255
  greenmax : ℕ := 255
  bluemax : ℕ := 255
  redshift : ℕ := 0
  greenshift : ℕ := 8
  blueshift : ℕ := 16
  deriving DecidableEq, Repr

namespace PixelFormat

/-- Bytes per pixel. -/
def bypp (pf : PixelFormat) : ℕ :=
  (7 + pf.bpp) / 8

/-- `struct.unpack("!BB??HHHBBBxxx", block)`; a `?` field is any non-zero octet. -/
def fromBytes (block : Bytes) : PixelFormat where
  bpp := field block 0 1
  depth := field block 1 1
  bigendian := field block 2 1 != 0
  truecolor := field block 3 1 != 0
  redmax := field block 4 2
  greenmax := field block 6 2
  bluemax := field block 8 2
  redshift := field block 10 1
  greenshift := field block 11 1
  blueshift := field block 12 1

/-- `struct.pack("!BB??HHHBBBxxx", ...)`. -/
def toBytes (pf : PixelFormat) : Bytes :=
  packBE 1 pf.bpp ++ packBE 1 pf.depth ++ packBE 1 pf.bigendian.toNat ++
    packBE 1 pf.truecolor.toNat ++ packBE 2 pf.redmax ++ packBE 2 pf.greenmax ++
    packBE 2 pf.bluemax ++ packBE 1 pf.redshift ++ packBE 1 pf.greenshift ++
    packBE 1 pf.blueshift ++ [0, 0, 0]

@[simp] theorem length_toBytes (pf : PixelFormat) : pf.toBytes.length = 16 := by
  simp [toBytes]

end PixelFormat

end Vncdotool
