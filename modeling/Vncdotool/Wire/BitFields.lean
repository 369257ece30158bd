import Mathlib.Data.Nat.Bitwise
import Vncdotool.Wire.Bytes

/-!
# BitFields — numbers that are packed into the bits of another

`bits v s w` are the `w` bits of `v` from the bit `s` up.  A field that is shifted into place is read
back from there, and is not seen from a place beside it; so several fields, joined by `|||`, are each
read back as long as they do not overlap.  The octets of a packed integer are such fields.
-/

namespace Wire

/-- The `w` bits from the bit `s` up. -/
def bits (v s w : ℕ) : ℕ :=
  v / 2 ^ s % 2 ^ w

theorem testBit_bits (v s w i : ℕ) : (bits v s w).testBit i = (decide (i < w) && v.testBit (s + i)) := by
  rw [bits, Nat.testBit_mod_two_pow, Nat.testBit_div_two_pow, Nat.add_comm]

theorem bits_lt (v s w : ℕ) : bits v s w < 2 ^ w :=
  Nat.mod_lt _ (Nat.two_pow_pos w)

theorem bits_or (x y s w : ℕ) : bits (x ||| y) s w = bits x s w ||| bits y s w := by
  refine Nat.eq_of_testBit_eq fun i => ?_
  rw [Nat.testBit_or, testBit_bits, testBit_bits, testBit_bits, Nat.testBit_or, Bool.and_or_distrib_left]

/-- A field is read back from where it was put. -/
theorem bits_shiftLeft {n w : ℕ} (hn : n < 2 ^ w) (s : ℕ) : bits (n <<< s) s w = n := by
  rw [bits, Nat.shiftLeft_eq, Nat.mul_div_cancel n (Nat.two_pow_pos s), Nat.mod_eq_of_lt hn]

/-- Beside it nothing is seen of it. -/
theorem bits_shiftLeft_apart {n t m : ℕ} (hn : n < 2 ^ m) {s w : ℕ} (h : t + m ≤ s ∨ s + w ≤ t) :
    bits (n <<< t) s w = 0 := by
  refine Nat.eq_of_testBit_eq fun i => ?_
  rw [testBit_bits, Nat.testBit_shiftLeft, Nat.zero_testBit]
  by_cases hi : i < w
  · rcases h with hbelow | habove
    · have hhigh : n.testBit (s + i - t) = false := by
        refine Nat.testBit_lt_two_pow (lt_of_lt_of_le hn ?_)
        exact Nat.pow_le_pow_right (by decide) (by omega)
      rw [hhigh, Bool.and_false, Bool.and_false]
    · have hlow : decide (s + i ≥ t) = false := decide_eq_false (by omega)
      rw [hlow, Bool.false_and, Bool.and_false]
  · rw [decide_eq_false hi, Bool.false_and]

/-- A field of a value that only has bits elsewhere. -/
theorem bits_eq_zero_of_lt {v s : ℕ} (hv : v < 2 ^ s) (w : ℕ) : bits v s w = 0 := by
  rw [bits, Nat.div_eq_of_lt hv, Nat.zero_mod]

theorem bits_bits {v s w t u : ℕ} (h : t + u ≤ w) : bits (bits v s w) t u = bits v (s + t) u := by
  refine Nat.eq_of_testBit_eq fun i => ?_
  rw [testBit_bits, testBit_bits, testBit_bits]
  by_cases hi : i < u
  · rw [decide_eq_true hi, decide_eq_true (by omega : t + i < w), Nat.add_assoc]
    rfl
  · rw [decide_eq_false hi, Bool.false_and, Bool.false_and]

/-- Masks of two shifted values agree if these agree in the bits of the mask. -/
theorem shiftRight_and_eq_iff {x y s m : ℕ} :
    x >>> s &&& m = y >>> s &&& m ↔ ∀ i, m.testBit i → x.testBit (s + i) = y.testBit (s + i) := by
  constructor
  · intro h i hi
    have hbit := congrArg (fun n => n.testBit i) h
    simpa [Nat.testBit_and, Nat.testBit_shiftRight, hi] using hbit
  · intro h
    refine Nat.eq_of_testBit_eq fun i => ?_
    rw [Nat.testBit_and, Nat.testBit_and, Nat.testBit_shiftRight, Nat.testBit_shiftRight]
    cases hi : m.testBit i with
    | false => rw [Bool.and_false, Bool.and_false]
    | true => rw [h i hi]

/-! ## Masks -/

/-- The positions of the bits that are set. -/
def setBits (mask : ℕ) : Set ℕ :=
  {i | mask.testBit i}

theorem setBits_or_two_pow (mask i : ℕ) : setBits (mask ||| 2 ^ i) = insert i (setBits mask) := by
  ext j
  change (mask ||| 2 ^ i).testBit j = true ↔ j = i ∨ mask.testBit j = true
  rw [Nat.testBit_or, Nat.testBit_two_pow, Bool.or_eq_true, decide_eq_true_eq, or_comm, eq_comm]

theorem setBits_ldiff_two_pow (mask i : ℕ) : setBits (mask.ldiff (2 ^ i)) = setBits mask \ {i} := by
  ext j
  change (mask.ldiff (2 ^ i)).testBit j = true ↔ mask.testBit j = true ∧ j ≠ i
  rw [Nat.testBit_ldiff, Nat.testBit_two_pow, Bool.and_eq_true, Bool.not_eq_true',
    decide_eq_false_iff_not, ne_comm]

/-- A mask fits `w` bits when no bit beyond them is set. -/
theorem lt_two_pow_iff_setBits {mask w : ℕ} : mask < 2 ^ w ↔ ∀ i ∈ setBits mask, i < w := by
  constructor
  · intro h i hi
    by_contra hle
    have hbit : mask.testBit i = false :=
      Nat.testBit_lt_two_pow (lt_of_lt_of_le h (Nat.pow_le_pow_right (by decide) (not_lt.1 hle)))
    exact Bool.false_ne_true (hbit.symm.trans hi)
  · intro h
    refine Nat.lt_pow_two_of_testBit mask fun i hi => ?_
    exact Bool.eq_false_iff.2 fun hset => absurd (h i hset) (not_lt.2 hi)

/-! ## Fields side by side -/

/-- Fields of `w` bits, the first one highest. -/
def joinFields (w : ℕ) (fields : List ℕ) : ℕ :=
  fields.foldl (fun n field => n * 2 ^ w + field) 0

theorem joinFields_concat (w : ℕ) (fields : List ℕ) (field : ℕ) :
    joinFields w (fields ++ [field]) = joinFields w fields * 2 ^ w + field := by
  unfold joinFields
  rw [List.foldl_append]
  rfl

theorem joinFields_lt {w : ℕ} {fields : List ℕ} (h : ∀ field ∈ fields, field < 2 ^ w) :
    joinFields w fields < 2 ^ (w * fields.length) := by
  induction fields using List.reverseRecOn with
  | nil => exact Nat.one_pos
  | append_singleton fields field ih =>
      have hfield : field < 2 ^ w := h field (List.mem_append_right _ (List.mem_singleton_self field))
      have hfields := ih fun field' hfield' => h field' (List.mem_append_left _ hfield')
      rw [joinFields_concat, List.length_append, List.length_singleton, Nat.mul_succ, Nat.pow_add]
      calc
        joinFields w fields * 2 ^ w + field < joinFields w fields * 2 ^ w + 2 ^ w :=
          Nat.add_lt_add_left hfield _
        _ = (joinFields w fields + 1) * 2 ^ w := (Nat.succ_mul _ _).symm
        _ ≤ 2 ^ (w * fields.length) * 2 ^ w := Nat.mul_le_mul_right _ hfields

/-- Each field is read back from its place. -/
theorem bits_joinFields {w : ℕ} {fields : List ℕ} (h : ∀ field ∈ fields, field < 2 ^ w) {i : ℕ}
    (hi : i < fields.length) :
    bits (joinFields w fields) (w * (fields.length - 1 - i)) w = fields[i] := by
  induction fields using List.reverseRecOn generalizing i with
  | nil => exact absurd hi (Nat.not_lt_zero i)
  | append_singleton fields field ih =>
      have hfield : field < 2 ^ w := h field (List.mem_append_right _ (List.mem_singleton_self field))
      have hfields := fun field' hfield' => h field' (List.mem_append_left [field] hfield')
      rw [List.length_append, List.length_singleton] at hi
      rw [joinFields_concat]
      rcases Nat.lt_succ_iff_lt_or_eq.1 hi with hlt | rfl
      · have hplace : w * ((fields ++ [field]).length - 1 - i) =
            w + w * (fields.length - 1 - i) := by
          have hcount : fields.length + 1 - 1 - i = 1 + (fields.length - 1 - i) := by omega
          rw [List.length_append, List.length_singleton, hcount, Nat.mul_add, Nat.mul_one]
        have hhigh : (joinFields w fields * 2 ^ w + field) / 2 ^ w = joinFields w fields := by
          rw [Nat.mul_comm, Nat.mul_add_div (Nat.two_pow_pos w), Nat.div_eq_of_lt hfield]
          rfl
        rw [hplace, List.getElem_append_left hlt, ← ih hfields hlt, bits, bits, Nat.pow_add,
          ← Nat.div_div_eq_div_mul, hhigh]
      · have hplace : w * ((fields ++ [field]).length - 1 - fields.length) = 0 := by
          rw [List.length_append, List.length_singleton, Nat.add_sub_cancel, Nat.sub_self,
            Nat.mul_zero]
        rw [hplace, bits, Nat.pow_zero, Nat.div_one, Nat.mul_comm, Nat.mul_add_mod,
          Nat.mod_eq_of_lt hfield]
        simp

/-! ## Octets -/

/-- The octets of a packed integer, most significant first. -/
theorem getElem?_packBE {k i : ℕ} (hi : i < k) (v : ℕ) :
    (packBE k v)[i]? = some (UInt8.ofNat (bits v (8 * (k - 1 - i)) 8)) := by
  induction k generalizing v i with
  | zero => exact absurd hi (Nat.not_lt_zero i)
  | succ k ih =>
      rcases Nat.lt_succ_iff_lt_or_eq.1 hi with hlt | rfl
      · have hshift : bits (v / 256) (8 * (k - 1 - i)) 8 = bits v (8 * (k + 1 - 1 - i)) 8 := by
          have hexp : 256 * 2 ^ (8 * (k - 1 - i)) = 2 ^ (8 * (k + 1 - 1 - i)) := by
            rw [show (256 : ℕ) = 2 ^ 8 from rfl, ← Nat.pow_add]
            congr 1
            omega
          rw [bits, bits, Nat.div_div_eq_div_mul, hexp]
        rw [packBE, List.getElem?_append_left (by rw [length_packBE]; exact hlt), ih hlt, hshift]
      · rw [packBE, List.getElem?_append_right (by rw [length_packBE]), length_packBE, Nat.sub_self]
        have hlow : UInt8.ofNat v = UInt8.ofNat (v % 256) := UInt8.toNat_inj.1 (by simp)
        simpa [bits] using hlow

/-- The octets of an integer that was unpacked. -/
theorem packBE_unpackBE (b : Bytes) : packBE b.length (unpackBE b) = b := by
  induction b using List.reverseRecOn with
  | nil => rfl
  | append_singleton b byte ih =>
      have hbyte := byte.toNat_lt
      have hhigh : (256 * unpackBE b + byte.toNat) / 256 = unpackBE b := by omega
      have hlow : UInt8.ofNat (256 * unpackBE b + byte.toNat) = byte := by
        refine UInt8.toNat_inj.1 ?_
        rw [UInt8.toNat_ofNat']
        omega
      rw [unpackBE_concat, List.length_append, List.length_singleton, packBE, hhigh, ih, hlow]

theorem field_one {b : Bytes} {i : ℕ} {byte : UInt8} (h : b[i]? = some byte) :
    field b i 1 = byte.toNat := by
  rcases List.getElem?_eq_some_iff.1 h with ⟨hlt, hget⟩
  have hslice : slice b i 1 = [byte] := by
    rw [slice, List.drop_eq_getElem_cons hlt, hget]
    rfl
  rw [field, hslice]
  simp [unpackBE]

/-- The octets of an integer, least significant first. -/
theorem bits_unpackBE_reverse {b : Bytes} {i : ℕ} (hi : i < b.length) :
    bits (unpackBE b.reverse) (8 * i) 8 = field b i 1 := by
  have hoctets : packBE b.length (unpackBE b.reverse) = b.reverse := by
    simpa using packBE_unpackBE b.reverse
  have hplace : b.length - 1 - (b.length - 1 - i) = i := by omega
  have hget := getElem?_packBE (by omega : b.length - 1 - i < b.length) (unpackBE b.reverse)
  rw [hoctets, List.getElem?_reverse (by omega), hplace] at hget
  have hbound : bits (unpackBE b.reverse) (8 * i) 8 < 256 := bits_lt _ _ 8
  rw [field_one hget, UInt8.toNat_ofNat']
  exact (Nat.mod_eq_of_lt hbound).symm

end Wire
