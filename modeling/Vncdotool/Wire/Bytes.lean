import Mathlib.Algebra.Order.Group.Nat
import Mathlib.Data.List.Induction
import Mathlib.Tactic.Ring

/-!
# Bytes — byte strings and big-endian integers

Byte strings are lists of octets.  The `struct` formats used by RFB are big-endian throughout, so
`unpackBE` / `packBE` are their two directions for unsigned fields of any width, and `s32` adds the
two's complement reading of a four byte field.  Fields of a block are read by offset and width.
-/

namespace Wire

abbrev Bytes := List UInt8

instance : LawfulBEq Bytes := inferInstanceAs (LawfulBEq (List UInt8))

/-! ## Big-endian integers -/

/-- The unsigned big-endian value of a byte string. -/
def unpackBE (b : Bytes) : ℕ :=
  b.foldl (fun n byte => 256 * n + byte.toNat) 0

/-- The low `k` octets of `n`, most significant first. -/
def packBE : ℕ → ℕ → Bytes
  | 0, _ => []
  | k + 1, n => packBE k (n / 256) ++ [UInt8.ofNat n]

@[simp] theorem unpackBE_nil : unpackBE [] = 0 := rfl

theorem unpackBE_concat (b : Bytes) (byte : UInt8) :
    unpackBE (b ++ [byte]) = 256 * unpackBE b + byte.toNat := by
  simp [unpackBE]

@[simp] theorem length_packBE (k n : ℕ) : (packBE k n).length = k := by
  induction k generalizing n with
  | zero => rfl
  | succ k ih => simp [packBE, ih]

theorem unpackBE_packBE (k n : ℕ) : unpackBE (packBE k n) = n % 256 ^ k := by
  induction k generalizing n with
  | zero => simp [packBE, Nat.mod_one]
  | succ k ih =>
      have hlow : (UInt8.ofNat n).toNat = n % 256 := by simp
      calc
        unpackBE (packBE (k + 1) n)
            = 256 * (n / 256 % 256 ^ k) + n % 256 := by
              rw [packBE, unpackBE_concat, ih, hlow]
        _ = n % (256 * 256 ^ k) := by
              rw [Nat.mod_mul, Nat.add_comm]
        _ = n % 256 ^ (k + 1) := by rw [Nat.pow_succ, Nat.mul_comm]

theorem unpackBE_packBE_of_lt {k n : ℕ} (h : n < 256 ^ k) : unpackBE (packBE k n) = n := by
  rw [unpackBE_packBE, Nat.mod_eq_of_lt h]

theorem unpackBE_lt (b : Bytes) : unpackBE b < 256 ^ b.length := by
  induction b using List.reverseRecOn with
  | nil => simp
  | append_singleton b byte ih =>
      have hbyte : byte.toNat < 256 := byte.toNat_lt
      rw [unpackBE_concat, List.length_append, List.length_singleton, Nat.pow_succ]
      omega

/-! ## Fields of a block -/

/-- `block[off : off + len]`. -/
def slice (block : Bytes) (off len : ℕ) : Bytes :=
  (block.drop off).take len

/-- The unsigned field of `len` octets at offset `off`. -/
def field (block : Bytes) (off len : ℕ) : ℕ :=
  unpackBE (slice block off len)

theorem slice_append_right (a b : Bytes) {off : ℕ} (len : ℕ) (h : a.length ≤ off) :
    slice (a ++ b) off len = slice b (off - a.length) len := by
  rw [slice, slice, List.drop_append, List.drop_eq_nil_of_le h, List.nil_append]

theorem slice_append_left (a b : Bytes) {off len : ℕ} (h : off + len ≤ a.length) :
    slice (a ++ b) off len = slice a off len := by
  rw [slice, slice, List.drop_append_of_le_length (by omega),
    List.take_append_of_le_length (by rw [List.length_drop]; omega)]

theorem slice_zero_length (a : Bytes) : slice a 0 a.length = a := by
  simp [slice]

/-- The field of a packed integer, wherever it stands in its block. -/
theorem field_pack (before after : Bytes) {off k n : ℕ} (hoff : before.length = off)
    (hn : n < 256 ^ k) : field (before ++ packBE k n ++ after) off k = n := by
  have hlen : (packBE k n).length = k := length_packBE k n
  have hslice : slice (before ++ packBE k n ++ after) off k = packBE k n := by
    rw [List.append_assoc, slice_append_right _ _ _ hoff.le, hoff, Nat.sub_self,
      slice_append_left _ _ (by omega)]
    conv_lhs => rw [← hlen]
    rw [hlen]
    simpa [hlen] using slice_zero_length (packBE k n)
  rw [field, hslice, unpackBE_packBE_of_lt hn]

theorem field_lt (block : Bytes) (off len : ℕ) : field block off len < 256 ^ len := by
  have hlen : (slice block off len).length ≤ len := by simp [slice]
  exact lt_of_lt_of_le (unpackBE_lt _) (Nat.pow_le_pow_right (by decide) hlen)

/-! ## Two's complement -/

/-- The signed reading of a 32-bit field. -/
def s32 (n : ℕ) : ℤ :=
  if n < 0x80000000 then n else (n : ℤ) - 0x100000000

/-- The 32-bit field of a signed value. -/
def u32OfInt (z : ℤ) : ℕ :=
  (z % 0x100000000).toNat

theorem u32OfInt_lt (z : ℤ) : u32OfInt z < 256 ^ 4 := by
  have hlt : z % 0x100000000 < 0x100000000 := Int.emod_lt_of_pos z (by decide)
  have hnn : 0 ≤ z % 0x100000000 := Int.emod_nonneg z (by decide)
  have hpow : (256 : ℕ) ^ 4 = 0x100000000 := by decide
  rw [hpow, u32OfInt]
  omega

theorem s32_u32OfInt {z : ℤ} (hlow : -0x80000000 ≤ z) (hhigh : z < 0x80000000) :
    s32 (u32OfInt z) = z := by
  unfold s32 u32OfInt
  split <;> omega

end Wire
