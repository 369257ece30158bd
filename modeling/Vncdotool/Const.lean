import Vncdotool.Wire.Bytes

/-!
# Const — the enumerations of `const.py`

Wire numbers and their names.  `lookup` takes a number to the member the code dispatches on, so
that a handler's `if`/`elif` chain over an `IntEnum` becomes a match; a number without a member is
`none`.  Only members some handler distinguishes are listed, except for `AuthTypes`, whose whole
table is read when an unknown security type is reported by name.
-/

namespace Vncdotool

/-! ## Encodings -/

inductive Encoding
  | raw
  | copyRectangle
  | rre
  | corre
  | hextile
  | zrle
  | pseudoCursor
  | pseudoDesktopSize
  | pseudoLastRect
  | pseudoQemuExtendedKeyEvent
  deriving DecidableEq, Repr

namespace Encoding

def value : Encoding → ℤ
  | raw => 0
  | copyRectangle => 1
  | rre => 2
  | corre => 4
  | hextile => 5
  | zrle => 16
  | pseudoCursor => -239
  | pseudoDesktopSize => -223
  | pseudoLastRect => -224
  | pseudoQemuExtendedKeyEvent => -258

def members : List Encoding :=
  [raw, copyRectangle, rre, corre, hextile, zrle, pseudoCursor, pseudoDesktopSize,
    pseudoLastRect, pseudoQemuExtendedKeyEvent]

def lookup (value : ℤ) : Option Encoding :=
  members.find? fun encoding => encoding.value = value

@[simp] theorem lookup_value (encoding : Encoding) : lookup encoding.value = some encoding := by
  cases encoding <;> decide

theorem value_range (encoding : Encoding) :
    -0x80000000 ≤ encoding.value ∧ encoding.value < 0x80000000 := by
  cases encoding <;> decide

end Encoding

/-! ## Message types -/

inductive MsgS2C
  | framebufferUpdate
  | setColourMapEntries
  | bell
  | serverCutText
  deriving DecidableEq, Repr

namespace MsgS2C

def value : MsgS2C → ℕ
  | framebufferUpdate => 0
  | setColourMapEntries => 1
  | bell => 2
  | serverCutText => 3

def lookup : ℕ → Option MsgS2C
  | 0 => some framebufferUpdate
  | 1 => some setColourMapEntries
  | 2 => some bell
  | 3 => some serverCutText
  | _ => none

end MsgS2C

inductive MsgC2S
  | setPixelFormat
  | setEncoding
  | framebufferUpdateRequest
  | keyEvent
  | pointerEvent
  | clientCutText
  | qemuClientMessage
  deriving DecidableEq, Repr

namespace MsgC2S

def value : MsgC2S → ℕ
  | setPixelFormat => 0
  | setEncoding => 2
  | framebufferUpdateRequest => 3
  | keyEvent => 4
  | pointerEvent => 5
  | clientCutText => 6
  | qemuClientMessage => 255

def lookup : ℕ → Option MsgC2S
  | 0 => some setPixelFormat
  | 2 => some setEncoding
  | 3 => some framebufferUpdateRequest
  | 4 => some keyEvent
  | 5 => some pointerEvent
  | 6 => some clientCutText
  | 255 => some qemuClientMessage
  | _ => none

@[simp] theorem lookup_value (kind : MsgC2S) : lookup kind.value = some kind := by
  cases kind <;> rfl

end MsgC2S

/-- `QemuClientMessage.EXTENDED_KEY_EVENT`. -/
def qemuExtendedKeyEvent : ℕ := 0

/-! ## Security types -/

namespace AuthTypes

def INVALID : ℕ := 0
def NONE : ℕ := 1
def VNC_AUTHENTICATION : ℕ := 2
def DIFFIE_HELLMAN : ℕ := 30

/-- Every member of `AuthTypes`, by number. -/
def names : List (ℕ × String) :=
  [(0, "INVALID"), (1, "NONE"), (2, "VNC_AUTHENTICATION"), (3, "REALVNC_3"), (4, "REALVNC_4"),
    (5, "RSA_AES"), (6, "RSA_AES_UNENCRYPTED"), (7, "REALVNC_7"), (8, "REALVNC_8"),
    (9, "REALVNC_9"), (10, "REALVNC_10"), (11, "REALVNC_11"), (12, "REALVNC_12"),
    (13, "RSA_AES_2STEP"), (14, "REALVNC_14"), (15, "REALVNC_15"), (16, "TIGHT"), (17, "ULTRA"),
    (18, "TLS"), (19, "VENCRYPT"), (20, "SASL"), (21, "MD5"), (22, "XVP"), (23, "SECURE_TUNNEL"),
    (24, "INTEGRATED_SSH"), (30, "DIFFIE_HELLMAN"), (31, "APPLE_31"), (32, "APPLE_32"),
    (33, "APPLE_33"), (34, "APPLE_34"), (35, "APPLE_35"), (113, "MSLOGON2"), (128, "REALVNC_128"),
    (129, "RSA_AES256"), (130, "RSA_AES256_UNENCRYPTED"), (131, "REALVNC_131"),
    (132, "REALVNC_132"), (133, "RSA_AES256_2STEP"), (134, "REALVNC_134"), (192, "REALVNC_192")]

/-- The member's name, or the placeholder text `IntEnumLookup.lookup` answers for an unknown
number. -/
def lookupName (value : ℕ) : String :=
  match names.lookup value with
  | some name => name
  | none => "<AuthTypes.UNKNOWN: " ++ String.ofList (Nat.toDigits 16 value) ++ ">"

end AuthTypes

end Vncdotool
