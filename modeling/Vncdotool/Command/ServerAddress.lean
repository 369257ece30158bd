import Mathlib.Data.List.TakeWhile
import Vncdotool.Logging.SessionReplay

/-!
# ServerAddress — where the server is

`parse_server` reads `address[:display|::port]`.  What it asks of the operating system and of
`ipaddress` is a `Machine`, and so are the digits and blanks beyond ASCII that `int` knows.  A
`Written` address is one of the forms that there are; `Stray` is text that belongs to none and that
is not looked at.
-/

namespace Vncdotool

/-- The Python that runs the program, and the files it sees. -/
structure Machine where
  /-- `hasattr(socket, "AF_UNIX")`. -/
  hasUnix : Bool := true
  /-- `os.path.exists(path)`. -/
  pathExists : Text → Bool := fun _ => false
  /-- `ipaddress.IPv4Address(host)` does not raise. -/
  isIPv4 : Text → Bool
  /-- `ipaddress.IPv6Address(host)` does not raise. -/
  isIPv6 : Text → Bool
  /-- `sys.get_int_max_str_digits()`; 0 is no limit. -/
  intMaxStrDigits : ℕ := 4300
  /-- `c.isspace()`, beyond ASCII. -/
  isSpace : ℕ → Bool := fun _ => false
  /-- `unicodedata.decimal(c)`, beyond ASCII. -/
  digit : ℕ → Option (Fin 10) := fun _ => none

namespace Machine

/-! ## `int` of a text -/

def isBlank (c : ℕ) : Bool :=
  c = 32 || (9 ≤ c && c ≤ 13)

def isDecimal (c : ℕ) : Bool :=
  48 ≤ c && c ≤ 57

/-- Blanks and digits become those of ASCII; what is neither becomes a question mark. -/
def toASCII (m : Machine) (c : ℕ) : ℕ :=
  if c < 128 then c
  else if m.isSpace c then 32
  else
    match m.digit c with
    | some d => 48 + d.val
    | none => 63

/-- Without the blanks at both ends. -/
def strip (s : Text) : Text :=
  ((s.dropWhile isBlank).reverse.dropWhile isBlank).reverse

/-- The digits of a number, in which an underscore may stand between two of them. -/
def digitsOf : Text → Option Text
  | [] => none
  | [c] => if isDecimal c then some [c] else none
  | c :: d :: s =>
      if isDecimal c then
        if d = 95 then (digitsOf s).map (c :: ·) else (digitsOf (d :: s)).map (c :: ·)
      else none

/-- A number without a sign; too many digits are refused. -/
def natural (m : Machine) (s : Text) : Option ℕ :=
  match digitsOf s with
  | none => none
  | some digits =>
      if m.intMaxStrDigits ≠ 0 ∧ m.intMaxStrDigits < digits.length then none
      else digitsValue digits

/-- `int(s)`; `none` is its `ValueError`. -/
def int (m : Machine) (s : Text) : Option ℤ :=
  let s := strip (s.map m.toASCII)
  if s.head? = some 43 then (m.natural s.tail).map fun n : ℕ => (n : ℤ)
  else if s.head? = some 45 then (m.natural s.tail).map fun n : ℕ => -(n : ℤ)
  else (m.natural s).map fun n : ℕ => (n : ℤ)

end Machine

/-! ## The function -/

inductive AddressFamily
  | unix
  | inet
  | inet6
  | unspec
  deriving DecidableEq, Repr

/-- What `parse_server` returns. -/
structure ServerAddress where
  family : AddressFamily
  host : Text
  port : ℤ
  deriving DecidableEq, Repr

/-- Family and host, and the rest of the argument at its colons. -/
structure SplitAddress where
  family : AddressFamily
  host : Text
  split : List Text
  deriving DecidableEq, Repr

namespace Machine

/-- After an opening bracket.  What stands before the first colon behind the closing one is not
looked at. -/
def splitBracketed (m : Machine) (server : Text) : Except PyError SplitAddress :=
  -- `host, sep, server = server.partition("]")`
  let host := server.takeWhile (· ≠ 93)
  if 93 ∉ server then .error .valueError
  else if m.isIPv6 host then
    .ok { family := .inet6, host, split := (server.drop (host.length + 1)).splitOn 58 }
  else .error .valueError

/-- The family of an address that is not in brackets. -/
def familyOf (m : Machine) (host : Text) : AddressFamily :=
  if m.hasUnix && m.pathExists host then .unix
  else if m.isIPv4 host then .inet
  else .unspec

def splitPlain (m : Machine) (server : Text) : SplitAddress :=
  let split := server.splitOn 58
  let host := if (split.headD []).isEmpty then text "127.0.0.1" else split.headD []
  { family := m.familyOf host, host, split }

def portOf (m : Machine) : List Text → Except PyError ℤ
  | [_, _, port] =>
      match m.int port with
      | some port => .ok port
      | none => .error .valueError
  | [_, display] =>
      match m.int display with
      | some display => .ok (display + 5900)
      | none => .error .valueError
  | [_] => .ok 5900
  | _ => .error .valueError

def splitAddress (m : Machine) (server : Text) : Except PyError SplitAddress :=
  if server.head? = some 91 then m.splitBracketed server.tail else .ok (m.splitPlain server)

def parseServer (m : Machine) (server : Text) : Except PyError ServerAddress := do
  let address ← m.splitAddress server
  let port ← m.portOf address.split
  pure { family := address.family, host := address.host, port }

/-! ## The language -/

/-- An address and the host it stands for, which is this one where it is left out. -/
inductive Denotes (m : Machine) : Text → Text → Prop
  | omitted : Denotes m [] (text "127.0.0.1")
  | named {host : Text} (hne : host ≠ []) (hbracket : host.head? ≠ some 91) (hcolon : 58 ∉ host) :
      Denotes m host host
  | bracketed {host : Text} (hIPv6 : m.isIPv6 host = true) (hbracket : 93 ∉ host) :
      Denotes m (91 :: host ++ [93]) host

/-- `address[:display|::port]`, for this host and this port. -/
inductive Written (m : Machine) : Text → Text → ℤ → Prop
  | default {address host : Text} (h : m.Denotes address host) : Written m address host 5900
  | display {address host field : Text} {display : ℤ} (h : m.Denotes address host)
      (hfield : m.int field = some display) :
      Written m (address ++ 58 :: field) host (display + 5900)
  | port {address host field : Text} {port : ℤ} (h : m.Denotes address host)
      (hfield : m.int field = some port) : Written m (address ++ 58 :: 58 :: field) host port

/-- Text between a closing bracket and what follows it, or between the two colons before a port. -/
inductive Stray (m : Machine) : Text → Prop
  | afterBracket {host rest : Text} {c : ℕ} (hbracket : 93 ∉ host) (hcolon : c ≠ 58) :
      Stray m (91 :: host ++ 93 :: c :: rest)
  | betweenColons {address host field rest : Text} (h : m.Denotes address host) (hne : field ≠ [])
      (hcolon : 58 ∉ field) : Stray m (address ++ 58 :: field ++ 58 :: rest)

/-- The family that goes with an address and the host it stands for. -/
def familyFor (m : Machine) (address host : Text) : AddressFamily :=
  if address.head? = some 91 then .inet6 else m.familyOf host

/-- A number is not too long to be converted. -/
def Converts (m : Machine) (n : ℕ) : Prop :=
  m.intMaxStrDigits = 0 ∨ (decimal n).length ≤ m.intMaxStrDigits

instance (m : Machine) (n : ℕ) : Decidable (m.Converts n) :=
  inferInstanceAs (Decidable (_ ∨ _))

/-! ## What `int` reads -/

section Int

variable {m : Machine} {s digits : Text}

/-- Only digits and underscores are read. -/
theorem digitsOf_chars (h : digitsOf s = some digits) {c : ℕ} (hc : c ∈ s) :
    isDecimal c = true ∨ c = 95 := by
  induction s using digitsOf.induct generalizing digits with
  | case1 => cases hc
  | case2 d hd =>
      rw [List.mem_singleton.1 hc]
      exact Or.inl hd
  | case3 d hd =>
      rw [digitsOf, if_neg hd] at h
      cases h
  | case4 d s hd ih =>
      rw [digitsOf, if_pos hd, if_pos rfl] at h
      rcases Option.map_eq_some_iff.1 h with ⟨rest, hrest, -⟩
      rcases List.mem_cons.1 hc with rfl | hc
      · exact Or.inl hd
      · rcases List.mem_cons.1 hc with rfl | hc
        · exact Or.inr rfl
        · exact ih hrest hc
  | case5 d e s hd he ih =>
      rw [digitsOf, if_pos hd, if_neg he] at h
      rcases Option.map_eq_some_iff.1 h with ⟨rest, hrest, -⟩
      rcases List.mem_cons.1 hc with rfl | hc
      · exact Or.inl hd
      · exact ih hrest hc
  | case6 d e s hd =>
      rw [digitsOf, if_neg hd] at h
      cases h

theorem digitsOf_self (hne : s ≠ []) (hs : ∀ c ∈ s, isDecimal c = true) : digitsOf s = some s := by
  induction s using digitsOf.induct with
  | case1 => exact absurd rfl hne
  | case2 d hd => rw [digitsOf, if_pos hd]
  | case3 d hd => exact absurd (hs d List.mem_cons_self) hd
  | case4 d s hd ih =>
      -- An underscore is no digit.
      have hunderscore := hs 95 (List.mem_cons_of_mem _ List.mem_cons_self)
      exact absurd hunderscore (by decide)
  | case5 d e s hd he ih =>
      rw [digitsOf, if_pos hd, if_neg he, ih (List.cons_ne_nil _ _), Option.map_some]
      intro c hc
      exact hs c (List.mem_cons_of_mem _ hc)
  | case6 d e s hd => exact absurd (hs d List.mem_cons_self) hd

theorem natural_chars {n : ℕ} (h : m.natural s = some n) {c : ℕ} (hc : c ∈ s) :
    isDecimal c = true ∨ c = 95 := by
  cases hdigits : digitsOf s with
  | none =>
      rw [natural, hdigits] at h
      cases h
  | some digits => exact digitsOf_chars hdigits hc

/-- What is stripped is blank. -/
theorem mem_strip {c : ℕ} (hc : c ∈ s) (hblank : isBlank c = false) : c ∈ strip s := by
  have hkept {t : Text} (ht : c ∈ t) : c ∈ t.dropWhile isBlank := by
    rw [← List.takeWhile_append_dropWhile (p := isBlank) (l := t)] at ht
    rcases List.mem_append.1 ht with htaken | hdropped
    · have hyes := List.mem_takeWhile_imp htaken
      rw [hblank] at hyes
      cases hyes
    · exact hdropped
  rw [strip, List.mem_reverse]
  exact hkept (List.mem_reverse.2 (hkept hc))

theorem strip_eq_self (hs : ∀ c ∈ s, isBlank c = false) : strip s = s := by
  have hkept {t : Text} (ht : ∀ c ∈ t, isBlank c = false) : t.dropWhile isBlank = t := by
    refine List.dropWhile_eq_self_iff.2 ?_
    intro hpos hblank
    rw [ht _ (List.getElem_mem hpos)] at hblank
    cases hblank
  have hreverse : ∀ c ∈ s.reverse, isBlank c = false := fun c hc => hs c (List.mem_reverse.1 hc)
  rw [strip, hkept hs, hkept hreverse, List.reverse_reverse]

/-- No number has a colon. -/
theorem not_colon_of_int {field : Text} {n : ℤ} (h : m.int field = some n) : 58 ∉ field := by
  intro hcolon
  have hmapped : 58 ∈ field.map m.toASCII := List.mem_map.2 ⟨58, hcolon, rfl⟩
  have hmem : 58 ∈ strip (field.map m.toASCII) := mem_strip hmapped (by decide)
  have hno {t : Text} (ht : 58 ∈ t) (k : ℕ) : m.natural t ≠ some k := by
    intro hk
    rcases natural_chars hk ht with hdecimal | hunderscore
    · exact absurd hdecimal (by decide)
    · exact absurd hunderscore (by decide)
  -- Behind a sign the colon is still there.
  have htail {sign : ℕ} (hsign : sign ≠ 58)
      (hhead : (strip (field.map m.toASCII)).head? = some sign) :
      58 ∈ (strip (field.map m.toASCII)).tail := by
    rw [List.head?_eq_some_iff] at hhead
    rcases hhead with ⟨rest, hrest⟩
    rw [hrest] at hmem ⊢
    rcases List.mem_cons.1 hmem with heq | hmem
    · exact absurd heq.symm hsign
    · exact hmem
  rw [int] at h
  split_ifs at h with hplus hminus
  · rcases Option.map_eq_some_iff.1 h with ⟨k, hk, -⟩
    exact hno (htail (by decide) hplus) k hk
  · rcases Option.map_eq_some_iff.1 h with ⟨k, hk, -⟩
    exact hno (htail (by decide) hminus) k hk
  · rcases Option.map_eq_some_iff.1 h with ⟨k, hk, -⟩
    exact hno hmem k hk

theorem isDecimal_of_mem_decimal {n c : ℕ} (hc : c ∈ decimal n) : isDecimal c = true := by
  rcases decimal_digits hc with ⟨hlow, hhigh⟩
  rw [isDecimal, Bool.and_eq_true, decide_eq_true_eq, decide_eq_true_eq]
  exact ⟨hlow, hhigh⟩

/-- `int` undoes `"%d"`, unless the text is too long. -/
theorem int_decimal (m : Machine) (n : ℕ) :
    m.int (decimal n) = if m.Converts n then some (n : ℤ) else none := by
  have hascii : (decimal n).map m.toASCII = decimal n := by
    refine (List.map_congr_left fun c hc => ?_).trans (List.map_id _)
    exact if_pos (ascii_decimal n c hc)
  have hblank : ∀ c ∈ decimal n, isBlank c = false := by
    intro c hc
    have hdigit := decimal_digits hc
    have hall : ∀ c < 58, 48 ≤ c → isBlank c = false := by decide
    exact hall c (by omega) hdigit.1
  have hhead {c : ℕ} (hc : c < 48) : (decimal n).head? ≠ some c := by
    intro hsome
    have hdigit := decimal_digits (List.mem_of_head? hsome)
    omega
  have hdigits : digitsOf (decimal n) = some (decimal n) :=
    digitsOf_self (decimal_ne_nil n) fun c hc => isDecimal_of_mem_decimal hc
  have hstrip : strip ((decimal n).map m.toASCII) = decimal n := by
    rw [hascii, strip_eq_self hblank]
  have hnatural : m.natural (decimal n) = if m.Converts n then some n else none := by
    simp only [natural, hdigits, digitsValue_decimal]
    by_cases hfits : m.Converts n
    · rw [if_pos hfits, if_neg]
      rintro ⟨hlimit, hlong⟩
      rcases hfits with hzero | hshort
      · exact hlimit hzero
      · exact absurd hlong (not_lt.2 hshort)
    · rw [if_neg hfits, if_pos]
      rw [Converts, not_or, not_le] at hfits
      exact hfits
  rw [int, hstrip, if_neg (hhead (by decide)), if_neg (hhead (by decide)), hnatural]
  split_ifs
  · rfl
  · rfl

end Int

/-! ## Fields between colons -/

section Fields

variable {m : Machine} {s : Text} {fields : List Text}

theorem not_mem_of_mem_splitOn {a : ℕ} {field : Text} (h : field ∈ s.splitOn a) : a ∉ field := by
  induction s generalizing field with
  | nil =>
      rw [List.splitOn_nil, List.mem_singleton] at h
      rw [h]
      exact List.not_mem_nil
  | cons c s ih =>
      rw [List.splitOn_cons_eq_if_modifyHead] at h
      split_ifs at h with hc
      · rcases List.mem_cons.1 h with rfl | h
        · exact List.not_mem_nil
        · exact ih h
      -- The character is put before the first field.
      · cases hsplit : s.splitOn a with
        | nil => exact absurd hsplit (List.splitOn_ne_nil a s)
        | cons first fields =>
            rw [hsplit] at h ih
            rcases List.mem_cons.1 h with rfl | h
            · intro hmem
              rcases List.mem_cons.1 hmem with rfl | hmem
              · exact hc (beq_self_eq_true a)
              · exact ih List.mem_cons_self hmem
            · exact ih (List.mem_cons_of_mem _ h)

/-- Each of the fields behind a colon. -/
def behindColons (fields : List Text) : Text :=
  fields.flatMap fun field => 58 :: field

theorem intercalate_colon (first : Text) (fields : List Text) :
    [58].intercalate (first :: fields) = first ++ behindColons fields := by
  induction fields generalizing first with
  | nil => simp [behindColons]
  | cons second fields ih =>
      calc [58].intercalate (first :: second :: fields)
          = first ++ [58] ++ [58].intercalate (second :: fields) :=
            List.intercalate_cons_cons
        _ = first ++ [58] ++ (second ++ behindColons fields) := by rw [ih]
        _ = first ++ behindColons (second :: fields) := List.append_assoc first _ _

/-- The fields of a text, the colons put back. -/
theorem splitOn_colon (s : Text) :
    ∃ first fields, s.splitOn 58 = first :: fields ∧ s = first ++ behindColons fields ∧
      58 ∉ first ∧ ∀ field ∈ fields, 58 ∉ field := by
  cases hsplit : s.splitOn 58 with
  | nil => exact absurd hsplit (List.splitOn_ne_nil 58 s)
  | cons first fields =>
      have hback : [58].intercalate (s.splitOn 58) = s := List.intercalate_splitOn 58
      rw [hsplit, intercalate_colon] at hback
      refine ⟨first, fields, rfl, hback.symm, ?_, ?_⟩
      · apply @not_mem_of_mem_splitOn s
        rw [hsplit]
        exact List.mem_cons_self
      · intro field hfield
        apply @not_mem_of_mem_splitOn s
        rw [hsplit]
        exact List.mem_cons_of_mem _ hfield

theorem splitOn_behindColons {first : Text} (hfirst : 58 ∉ first)
    (hfields : ∀ field ∈ fields, 58 ∉ field) :
    (first ++ behindColons fields).splitOn 58 = first :: fields := by
  rw [← intercalate_colon]
  refine List.splitOn_intercalate 58 ?_ (List.cons_ne_nil _ _)
  intro field hfield
  rcases List.mem_cons.1 hfield with rfl | hfield
  · exact hfirst
  · exact hfields field hfield

end Fields

/-! ## What is written is read -/

theorem parseServer_of_split {m : Machine} {server : Text} {split : SplitAddress}
    (h : m.splitAddress server = .ok split) :
    m.parseServer server =
      (m.portOf split.split).map fun port =>
        { family := split.family, host := split.host, port } := by
  rw [parseServer, h]
  rfl

section Reads

variable {m : Machine} {address host : Text} {fields : List Text}

theorem splitBracketed_denoted (hIPv6 : m.isIPv6 host = true) (hbracket : 93 ∉ host)
    (hfields : ∀ field ∈ fields, 58 ∉ field) :
    m.splitBracketed (host ++ 93 :: behindColons fields) =
      .ok { family := .inet6, host, split := [] :: fields } := by
  have htaken : (host ++ 93 :: behindColons fields).takeWhile (· ≠ 93) = host := by
    rw [List.takeWhile_append_of_pos]
    · simp
    · intro c hc
      rw [decide_eq_true_eq]
      rintro rfl
      exact hbracket hc
  have hdropped : (host ++ 93 :: behindColons fields).drop (host.length + 1) =
      behindColons fields := by
    rw [List.drop_append]
    simp
  have hsplit := splitOn_behindColons List.not_mem_nil hfields
  rw [List.nil_append] at hsplit
  rw [splitBracketed, htaken, hdropped, if_neg, if_pos hIPv6, hsplit]
  rw [not_not]
  exact List.mem_append_right _ List.mem_cons_self

theorem splitPlain_fields {first : Text} (hfirst : 58 ∉ first)
    (hfields : ∀ field ∈ fields, 58 ∉ field)
    (hhost : host = if first.isEmpty then text "127.0.0.1" else first) :
    m.splitPlain (first ++ behindColons fields) =
      { family := m.familyOf host, host, split := first :: fields } := by
  rw [splitPlain, splitOn_behindColons hfirst hfields, hhost]
  rfl

/-- Where an address ends, a colon or the end follows. -/
theorem head?_behindColons (fields : List Text) : (behindColons fields).head? ≠ some 91 := by
  cases fields with
  | nil => exact (Option.some_ne_none 91).symm
  | cons field fields =>
      intro hhead
      exact absurd (Option.some.inj hhead) (by decide)

/-- An address is read up to where it ends. -/
theorem splitAddress_denoted (h : m.Denotes address host)
    (hfields : ∀ field ∈ fields, 58 ∉ field) :
    ∃ first, m.splitAddress (address ++ behindColons fields) =
      .ok { family := m.familyFor address host, host, split := first :: fields } := by
  cases h with
  | omitted =>
      refine ⟨[], ?_⟩
      rw [splitAddress, List.nil_append, if_neg (head?_behindColons fields)]
      exact congrArg Except.ok (splitPlain_fields List.not_mem_nil hfields rfl)
  | named hne hbracket hcolon =>
      refine ⟨address, ?_⟩
      have hhead : (address ++ behindColons fields).head? = address.head? :=
        List.head?_append_of_ne_nil _ hne
      have hhost : address = if address.isEmpty then text "127.0.0.1" else address := by
        rw [if_neg]
        rw [List.isEmpty_iff]
        exact hne
      rw [splitAddress, hhead, if_neg hbracket, familyFor, if_neg hbracket]
      exact congrArg Except.ok (splitPlain_fields hcolon hfields hhost)
  | bracketed hIPv6 hbracket =>
      refine ⟨[], ?_⟩
      have htail : (91 :: host ++ [93] ++ behindColons fields).tail =
          host ++ 93 :: behindColons fields := by
        rw [List.cons_append, List.cons_append, List.tail_cons, List.append_assoc]
        rfl
      rw [splitAddress, htail]
      exact splitBracketed_denoted hIPv6 hbracket hfields

/-- An address with the fields behind it that say the port. -/
theorem parseServer_fields {port : ℤ} (h : m.Denotes address host)
    (hfields : ∀ field ∈ fields, 58 ∉ field)
    (hport : ∀ first, m.portOf (first :: fields) = .ok port) :
    m.parseServer (address ++ behindColons fields) =
      .ok { family := m.familyFor address host, host, port } := by
  rcases splitAddress_denoted h hfields with ⟨first, hsplit⟩
  rw [parseServer_of_split hsplit, hport]
  rfl

theorem parseServer_default (h : m.Denotes address host) :
    m.parseServer address = .ok { family := m.familyFor address host, host, port := 5900 } := by
  have hread := @parseServer_fields m address host [] 5900 h
    (fun _ hfield => absurd hfield List.not_mem_nil) fun _ => rfl
  rwa [behindColons, List.flatMap_nil, List.append_nil] at hread

theorem parseServer_display {field : Text} {display : ℤ} (h : m.Denotes address host)
    (hfield : m.int field = some display) :
    m.parseServer (address ++ 58 :: field) =
      .ok { family := m.familyFor address host, host, port := display + 5900 } := by
  have hcolon : ∀ f ∈ [field], 58 ∉ f := by
    intro f hf
    rw [List.mem_singleton.1 hf]
    exact not_colon_of_int hfield
  have hread := parseServer_fields h hcolon fun first => by rw [portOf, hfield]
  rwa [behindColons, List.flatMap_cons, List.flatMap_nil, List.append_nil] at hread

theorem parseServer_port {field : Text} {port : ℤ} (h : m.Denotes address host)
    (hfield : m.int field = some port) :
    m.parseServer (address ++ 58 :: 58 :: field) =
      .ok { family := m.familyFor address host, host, port } := by
  have hcolon : ∀ f ∈ [[], field], 58 ∉ f := by
    intro f hf
    rcases List.mem_cons.1 hf with rfl | hf
    · exact List.not_mem_nil
    · rw [List.mem_singleton.1 hf]
      exact not_colon_of_int hfield
  have hread := parseServer_fields h hcolon fun first => by rw [portOf, hfield]
  rwa [behindColons, List.flatMap_cons, List.flatMap_cons, List.flatMap_nil,
    List.append_nil] at hread

/-- What is written is read as what it stands for. -/
theorem parseServer_written {server : Text} {port : ℤ} (h : m.Written server host port) :
    ∃ family, m.parseServer server = .ok { family, host, port } := by
  cases h with
  | default h => exact ⟨_, parseServer_default h⟩
  | display h hfield => exact ⟨_, parseServer_display h hfield⟩
  | port h hfield => exact ⟨_, parseServer_port h hfield⟩

end Reads

/-! ## What is read is written -/

section Accepts

variable {m : Machine} {address host : Text} {fields : List Text} {port : ℤ}

/-- Behind an address nothing but a display or a port is accepted, stray text apart. -/
theorem written_of_portOf (h : m.Denotes address host) {first : Text}
    (hfields : ∀ field ∈ fields, 58 ∉ field) (hport : m.portOf (first :: fields) = .ok port)
    (hstray : ¬ m.Stray (address ++ behindColons fields)) :
    m.Written (address ++ behindColons fields) host port := by
  rcases fields with _ | ⟨field, _ | ⟨field', _ | ⟨field'', fields⟩⟩⟩
  · have hdefault : port = 5900 := (Except.ok.inj hport).symm
    rw [hdefault, behindColons, List.flatMap_nil, List.append_nil]
    exact .default h
  · rw [behindColons, List.flatMap_cons, List.flatMap_nil, List.append_nil]
    cases hint : m.int field with
    | none =>
        rw [portOf, hint] at hport
        cases hport
    | some display =>
        rw [portOf, hint] at hport
        rw [← Except.ok.inj hport]
        exact .display h hint
  · by_cases hempty : field = []
    · rw [hempty, behindColons, List.flatMap_cons, List.flatMap_cons, List.flatMap_nil,
        List.append_nil]
      cases hint : m.int field' with
      | none =>
          rw [portOf, hint] at hport
          cases hport
      | some n =>
          rw [portOf, hint] at hport
          rw [← Except.ok.inj hport]
          exact .port h hint
    -- Between the two colons nothing is looked at.
    · refine absurd ?_ hstray
      have hcolon := hfields field List.mem_cons_self
      have hbetween := @Stray.betweenColons m address host field field' h hempty hcolon
      rw [behindColons, List.flatMap_cons, List.flatMap_cons, List.flatMap_nil, List.append_nil]
      rwa [List.append_assoc] at hbetween
  · cases hport

theorem partition_eq {c : ℕ} {s : Text} (h : c ∈ s) :
    s = s.takeWhile (· ≠ c) ++ c :: s.drop ((s.takeWhile (· ≠ c)).length + 1) := by
  induction s with
  | nil => cases h
  | cons d s ih =>
      by_cases hd : d = c
      · rw [hd]
        simp
      · rcases List.mem_cons.1 h with rfl | h
        · exact absurd rfl hd
        · have htaken : (d :: s).takeWhile (· ≠ c) = d :: s.takeWhile (· ≠ c) :=
            List.takeWhile_cons_of_pos (decide_eq_true hd)
          rw [htaken]
          exact congrArg (d :: ·) (ih h)

/-- A bracket that is closed, around an address. -/
theorem splitBracketed_ok {server : Text} {split : SplitAddress}
    (h : m.splitBracketed server = .ok split) :
    ∃ host rest, server = host ++ 93 :: rest ∧ 93 ∉ host ∧ m.isIPv6 host = true ∧
      split = { family := .inet6, host, split := rest.splitOn 58 } := by
  rw [splitBracketed] at h
  split_ifs at h with hclosed hIPv6
  refine ⟨server.takeWhile (· ≠ 93), server.drop ((server.takeWhile (· ≠ 93)).length + 1),
    partition_eq hclosed, ?_, hIPv6, (Except.ok.inj h).symm⟩
  intro hmem
  have hother := List.mem_takeWhile_imp hmem
  exact absurd rfl (of_decide_eq_true hother)

/-- The address that was read, and the fields behind it, unless there is text behind the bracket. -/
theorem splitAddress_ok {server : Text} {split : SplitAddress}
    (h : m.splitAddress server = .ok split) (hstray : ¬ m.Stray server) :
    ∃ address first fields, m.Denotes address split.host ∧ server = address ++ behindColons fields ∧
      split.split = first :: fields ∧ ∀ field ∈ fields, 58 ∉ field := by
  rw [splitAddress] at h
  split_ifs at h with hhead
  · rcases List.head?_eq_some_iff.1 hhead with ⟨tail, rfl⟩
    rcases splitBracketed_ok h with ⟨host, rest, htail, hbracket, hIPv6, rfl⟩
    rcases splitOn_colon rest with ⟨first, fields, hsplit, hrest, hfirst, hfields⟩
    rw [List.tail_cons] at htail
    refine ⟨91 :: host ++ [93], first, fields, .bracketed hIPv6 hbracket, ?_, hsplit, hfields⟩
    cases first with
    | nil =>
        rw [htail, hrest, List.append_assoc]
        rfl
    | cons c first =>
        refine absurd ?_ hstray
        have hc : c ≠ 58 := by
          rintro rfl
          exact hfirst List.mem_cons_self
        rw [htail, hrest]
        exact .afterBracket hbracket hc
  · rcases splitOn_colon server with ⟨first, fields, hsplit, hserver, hfirst, hfields⟩
    have hplain : m.splitPlain server = split := Except.ok.inj h
    have hhost : split.host = if first.isEmpty then text "127.0.0.1" else first := by
      rw [← hplain, splitPlain, hsplit]
      rfl
    refine ⟨first, first, fields, ?_, hserver, ?_, hfields⟩
    · rw [hhost]
      cases first with
      | nil => exact .omitted
      | cons c first =>
          refine .named (List.cons_ne_nil c first) ?_ hfirst
          rw [hserver] at hhead
          exact hhead
    · rw [← hplain]
      exact hsplit

/-- What is read is written, unless there is stray text in it. -/
theorem written_of_parseServer {server : Text} {result : ServerAddress}
    (h : m.parseServer server = .ok result) (hstray : ¬ m.Stray server) :
    m.Written server result.host result.port := by
  cases hsplit : m.splitAddress server with
  | error exc =>
      rw [parseServer, hsplit] at h
      cases h
  | ok split =>
      rw [parseServer_of_split hsplit] at h
      rcases splitAddress_ok hsplit hstray with
        ⟨address, first, fields, haddress, rfl, hfields, hcolon⟩
      rw [hfields] at h
      cases hport : m.portOf (first :: fields) with
      | error exc =>
          rw [hport] at h
          cases h
      | ok port =>
          rw [hport] at h
          rw [← Except.ok.inj h]
          exact written_of_portOf haddress hcolon hport hstray

end Accepts

/-! ## The language and the function -/

/-- Every address with every display and every port is read as what it stands for, numbers that are
too long apart, and what is read is such an address as a whole, unless there is stray text in it. -/
theorem parseServer_inverts (m : Machine) :
    (∀ address host, m.Denotes address host →
      m.parseServer address = .ok { family := m.familyFor address host, host, port := 5900 } ∧
      ∀ n : ℕ, m.Converts n →
        m.parseServer (address ++ 58 :: decimal n) =
            .ok { family := m.familyFor address host, host, port := n + 5900 } ∧
          m.parseServer (address ++ 58 :: 58 :: decimal n) =
            .ok { family := m.familyFor address host, host, port := n }) ∧
    (∀ server host port, m.Written server host port →
      ∃ family, m.parseServer server = .ok { family, host, port }) ∧
    ∀ server result, m.parseServer server = .ok result → ¬ m.Stray server →
      m.Written server result.host result.port := by
  refine ⟨?_, fun _ _ _ h => parseServer_written h, fun _ _ h => written_of_parseServer h⟩
  intro address host h
  refine ⟨parseServer_default h, ?_⟩
  intro n hconverts
  have hdecimal : m.int (decimal n) = some (n : ℤ) := by
    rw [int_decimal, if_pos hconverts]
  exact ⟨parseServer_display h hdecimal, parseServer_port h hdecimal⟩

/-! ## Beyond the documentation -/

/-- The README's `address[:display|::port]`: the address is given, and is a host without colons or
brackets or an IPv6 address in brackets, and a number is nothing but its digits. -/
def Documented (m : Machine) (server host : Text) (port : ℤ) : Prop :=
  ∃ address, ((address = host ∧ host ≠ [] ∧ 58 ∉ host ∧ 91 ∉ host ∧ 93 ∉ host) ∨
      (m.isIPv6 host = true ∧ address = 91 :: host ++ [93])) ∧
    ((server = address ∧ port = 5900) ∨
      ∃ n : ℕ, (server = address ++ 58 :: decimal n ∧ port = n + 5900) ∨
        (server = address ++ 58 :: 58 :: decimal n ∧ port = n))

/-- A number of more digits than the limit. -/
theorem not_converts {m : Machine} {n : ℕ} (hlimit : m.intMaxStrDigits ≠ 0)
    (hn : 10 ^ m.intMaxStrDigits ≤ n) : ¬ m.Converts n := by
  rintro (hzero | hshort)
  · exact hlimit hzero
  · have hpos : n ≠ 0 := by
      have hpower : 0 < 10 ^ m.intMaxStrDigits := Nat.pow_pos (by decide)
      omega
    rw [decimal, if_neg hpos, List.length_map, List.length_reverse] at hshort
    have hlt : n < 10 ^ m.intMaxStrDigits :=
      lt_of_lt_of_le (Nat.lt_base_pow_length_digits (by decide))
        (Nat.pow_le_pow_right (by decide) hshort)
    exact absurd hn (not_le.2 hlt)

/-- A machine that knows an address of each kind, and no file. -/
def localMachine : Machine where
  isIPv4 host := host = text "127.0.0.1"
  isIPv6 host := host = text "::1"

example : localMachine.parseServer (text "[::1]::4444") =
    .ok { family := .inet6, host := text "::1", port := 4444 } := by decide +kernel

example : localMachine.parseServer (text "127.0.0.1:stray:5901") =
    .ok { family := .inet, host := text "127.0.0.1", port := 5901 } := by decide +kernel

/-- More than the documented addresses is read: one that is left out, a bracket in a name, a number
as `int` reads it; and a number of too many digits is not. -/
theorem parseServer_undocumented :
    (localMachine.parseServer [] =
        .ok { family := .inet, host := text "127.0.0.1", port := 5900 } ∧
      ¬ localMachine.Documented [] (text "127.0.0.1") 5900) ∧
    (localMachine.parseServer (text "a]") =
        .ok { family := .unspec, host := text "a]", port := 5900 } ∧
      ¬ localMachine.Documented (text "a]") (text "a]") 5900) ∧
    (localMachine.parseServer (text "a: -3") =
        .ok { family := .unspec, host := text "a", port := 5897 } ∧
      ¬ localMachine.Documented (text "a: -3") (text "a") 5897) ∧
    localMachine.Documented (text "a" ++ 58 :: decimal (10 ^ 4300)) (text "a")
        ((10 ^ 4300 : ℕ) + 5900) ∧
      localMachine.parseServer (text "a" ++ 58 :: decimal (10 ^ 4300)) = .error .valueError := by
  have hnamed : localMachine.Denotes (text "a") (text "a") :=
    .named (by decide) (by decide) (by decide)
  refine ⟨⟨by decide +kernel, ?_⟩, ⟨by decide +kernel, ?_⟩, ⟨by decide +kernel, ?_⟩, ?_, ?_⟩
  · rintro ⟨address, ⟨rfl, hne, -⟩ | ⟨hIPv6, -⟩, ⟨hserver, -⟩ | ⟨n, ⟨hserver, -⟩ | ⟨hserver, -⟩⟩⟩
    · exact hne hserver.symm
    · exact hne (List.append_eq_nil_iff.1 hserver.symm).1
    · exact hne (List.append_eq_nil_iff.1 hserver.symm).1
    all_goals exact absurd hIPv6 (by decide +kernel)
  · rintro ⟨address, ⟨rfl, -, -, -, hbracket⟩ | ⟨hIPv6, -⟩, -⟩
    · exact hbracket (by decide)
    · exact absurd hIPv6 (by decide +kernel)
  · rintro ⟨address, ⟨rfl, -⟩ | ⟨hIPv6, -⟩, hserver⟩
    · rcases hserver with ⟨hserver, -⟩ | ⟨n, ⟨hserver, -⟩ | ⟨hserver, -⟩⟩
      · exact absurd hserver (by decide)
      · have hdecimal : text " -3" = decimal n := by
          have hbehind : text "a:" ++ text " -3" = text "a:" ++ decimal n := hserver
          exact List.append_cancel_left hbehind
        have hblank : 32 ∈ decimal n := by
          rw [← hdecimal]
          decide
        have hdigit := decimal_digits hblank
        omega
      · have hcolon : 32 = 58 := by
          have hsecond := congrArg (fun s : Text => s.getD 2 0) hserver
          exact hsecond
        omega
    · exact absurd hIPv6 (by decide +kernel)
  · refine ⟨text "a", Or.inl ⟨rfl, by decide, by decide, by decide, by decide⟩, Or.inr ?_⟩
    exact ⟨10 ^ 4300, Or.inl ⟨rfl, rfl⟩⟩
  · have hlong : ¬ localMachine.Converts (10 ^ 4300) := not_converts (by decide) le_rfl
    have hcolon : ∀ f ∈ [decimal (10 ^ 4300)], 58 ∉ f := by
      intro f hf hmem
      rw [List.mem_singleton.1 hf] at hmem
      exact absurd (decimal_digits hmem).2 (by decide)
    rcases splitAddress_denoted hnamed hcolon with ⟨first, hsplit⟩
    rw [behindColons, List.flatMap_cons, List.flatMap_nil, List.append_nil] at hsplit
    rw [parseServer_of_split hsplit, portOf, int_decimal, if_neg hlong]
    rfl

end Machine

end Vncdotool
