import Vncdotool.Wire.Bytes
import Mathlib.Tactic.Ring

/-!
# Version — protocol version pairs and Python's `int(bytes)`

Versions are compared as Python tuples, lexicographically.  `pyInt` is `int()` on a byte string:
surrounding ASCII whitespace, one sign, and digits with single underscores between them.
-/

namespace Vncdotool

open Wire

/-- A `(major, minor)` tuple; `int()` accepts a sign, so either part can be negative. -/
@[ext] structure Ver where
  major : ℤ
  minor : ℤ
  deriving DecidableEq, Repr

namespace Ver

instance : LT Ver :=
  ⟨fun a b => a.major < b.major ∨ (a.major = b.major ∧ a.minor < b.minor)⟩

instance : LE Ver :=
  ⟨fun a b => a.major < b.major ∨ (a.major = b.major ∧ a.minor ≤ b.minor)⟩

instance (a b : Ver) : Decidable (a < b) :=
  inferInstanceAs (Decidable (_ ∨ _))

instance (a b : Ver) : Decidable (a ≤ b) :=
  inferInstanceAs (Decidable (_ ∨ _))

theorem lt_def {a b : Ver} :
    a < b ↔ a.major < b.major ∨ (a.major = b.major ∧ a.minor < b.minor) := Iff.rfl

theorem le_def {a b : Ver} :
    a ≤ b ↔ a.major < b.major ∨ (a.major = b.major ∧ a.minor ≤ b.minor) := Iff.rfl

theorem not_lt {a b : Ver} : ¬ a < b ↔ b ≤ a := by
  rw [lt_def, le_def]
  omega

theorem lt_of_lt_of_le {a b c : Ver} (hab : a < b) (hbc : b ≤ c) : a < c := by
  rw [lt_def] at *
  rw [le_def] at hbc
  omega

/-- `max()` of the versions in a list, `none` when there is none. -/
def max? : List Ver → Option Ver
  | [] => none
  | v :: vs =>
      match max? vs with
      | none => some v
      | some w => some (if v < w then w else v)

end Ver

/-! ## `int()` -/

def isSpace (b : UInt8) : Bool :=
  b = 32 || (9 ≤ b && b ≤ 13)

def isDigit (b : UInt8) : Bool :=
  48 ≤ b && b ≤ 57

def digitValue (b : UInt8) : ℕ :=
  b.toNat - 48

/-- The digits at the head of the text, `acc` being the value so far; an underscore has to stand
between two digits. -/
def scanDigits (acc : ℕ) (afterUnderscore : Bool) : Bytes → Option (ℕ × Bytes)
  | [] => if afterUnderscore then none else some (acc, [])
  | b :: bs =>
      if isDigit b then scanDigits (10 * acc + digitValue b) false bs
      else if afterUnderscore then none
      else if b = 95 then scanDigits acc true bs
      else some (acc, b :: bs)

/-- Digits up to the end of the text, trailing whitespace apart. -/
def unsignedInt : Bytes → Option ℕ
  | [] => none
  | b :: bs =>
      if isDigit b then
        match scanDigits (digitValue b) false bs with
        | some (n, rest) => if rest.all isSpace then some n else none
        | none => none
      else none

/-- `int(text)`; `none` is its `ValueError`. -/
def pyInt (text : Bytes) : Option ℤ :=
  match text.dropWhile isSpace with
  | 43 :: digits => (unsignedInt digits).map fun n => (n : ℤ)
  | 45 :: digits => (unsignedInt digits).map fun n => -(n : ℤ)
  | digits => (unsignedInt digits).map fun n => (n : ℤ)

/-- `(int(head[4:7]), int(head[8:11]))`. -/
def parseVersion (head : Bytes) : Option Ver :=
  match pyInt (slice head 4 3), pyInt (slice head 8 3) with
  | some major, some minor => some ⟨major, minor⟩
  | _, _ => none

/-- A number of at most three digits, zero padded: `b"%03d" % n`. -/
def pad3 (n : ℕ) : Bytes :=
  [UInt8.ofNat (48 + n / 100 % 10), UInt8.ofNat (48 + n / 10 % 10), UInt8.ofNat (48 + n % 10)]

/-- `b"RFB %03d.%03d\n" % version`. -/
def versionLine (version : Ver) : Bytes :=
  [82, 70, 66, 32] ++ pad3 version.major.toNat ++ [46] ++ pad3 version.minor.toNat ++ [10]

example : parseVersion (versionLine ⟨3, 889⟩) = some ⟨3, 889⟩ := by decide

end Vncdotool
