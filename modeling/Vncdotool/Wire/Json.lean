import Mathlib.Data.Int.Notation
import Mathlib.Data.List.Basic

/-!
# Json — the documents of `json.dumps` and `json.loads`

A document is written as `json.dumps(doc, indent=2, sort_keys=True)` writes it: one item a line,
every character outside printable ASCII escaped.  `Json.loads` reads any layout and all escapes; it
knows neither floating point numbers nor halves of surrogate pairs, which are in no document here.
The entries of an object stand in the order of their keys.

What was written is read back (`Json.loads_dumps`).
-/

namespace Wire

/-- A document. -/
inductive Json
  | null
  | bool (b : Bool)
  | int (n : ℤ)
  | str (s : String)
  | arr (items : List Json)
  | obj (entries : List (String × Json))

namespace Json

/-- `doc.get(key)`; the last of several entries counts. -/
def get (doc : Json) (key : String) : Option Json :=
  match doc with
  | .obj entries => entries.reverse.lookup key
  | _ => none

/-! ## Characters with a meaning -/

abbrev quote : Char := Char.ofNat 34

abbrev backslash : Char := Char.ofNat 92

abbrev openBrace : Char := Char.ofNat 123

abbrev closeBrace : Char := Char.ofNat 125

def isBlank (c : Char) : Bool :=
  c = ' ' || c = '\n' || c = '\t' || c = '\r'

/-- The letters behind a backslash, and what they stand for. -/
def shortEscapes : List (Char × Char) :=
  [(quote, quote), (backslash, backslash), ('n', '\n'), ('r', '\r'), ('t', '\t'),
    ('f', Char.ofNat 12), ('b', Char.ofNat 8)]

/-! ## Writing -/

/-- Four hexadecimal digits. -/
def hex4 (n : ℕ) : List Char :=
  [n / 4096 % 16, n / 256 % 16, n / 16 % 16, n % 16].map Nat.digitChar

/-- A character in a string. -/
def escape (c : Char) : List Char :=
  match shortEscapes.find? fun entry => entry.2 = c with
  | some entry => [backslash, entry.1]
  | none =>
      if ' ' ≤ c ∧ c ≤ '~' then [c]
      else if c.toNat < 0x10000 then backslash :: 'u' :: hex4 c.toNat
      else
        -- A surrogate pair.
        backslash :: 'u' :: hex4 (0xD800 + (c.toNat - 0x10000) / 0x400) ++
          backslash :: 'u' :: hex4 (0xDC00 + (c.toNat - 0x10000) % 0x400)

def quoted (s : String) : List Char :=
  quote :: (s.toList.flatMap escape ++ [quote])

def newline (level : ℕ) : List Char :=
  '\n' :: List.replicate (2 * level) ' '

def integer (n : ℤ) : List Char :=
  (if n < 0 then ['-'] else []) ++ Nat.toDigits 10 n.natAbs

mutual

/-- A document at a level of indentation. -/
def pretty (level : ℕ) : Json → List Char
  | .null => ['n', 'u', 'l', 'l']
  | .bool true => ['t', 'r', 'u', 'e']
  | .bool false => ['f', 'a', 'l', 's', 'e']
  | .int n => integer n
  | .str s => quoted s
  | .arr [] => ['[', ']']
  | .arr (item :: items) =>
      '[' :: (newline (level + 1) ++ pretty (level + 1) item ++ prettyItems (level + 1) items ++
        newline level ++ [']'])
  | .obj [] => [openBrace, closeBrace]
  | .obj ((key, doc) :: entries) =>
      openBrace :: (newline (level + 1) ++ quoted key ++ [':', ' '] ++ pretty (level + 1) doc ++
        prettyEntries (level + 1) entries ++ newline level ++ [closeBrace])

/-- The items after the first one. -/
def prettyItems (level : ℕ) : List Json → List Char
  | [] => []
  | item :: items => ',' :: (newline level ++ pretty level item ++ prettyItems level items)

/-- The entries after the first one. -/
def prettyEntries (level : ℕ) : List (String × Json) → List Char
  | [] => []
  | (key, doc) :: entries =>
      ',' :: (newline level ++ quoted key ++ [':', ' '] ++ pretty level doc ++
        prettyEntries level entries)

end

/-- `json.dumps(doc, indent=2, sort_keys=True)`. -/
def dumps (doc : Json) : List Char :=
  pretty 0 doc

/-! ## Reading -/

def skipBlank (input : List Char) : List Char :=
  input.dropWhile isBlank

/-- What follows the character `c`, if that comes next. -/
def after (c : Char) (input : List Char) : Option (List Char) :=
  match skipBlank input with
  | [] => none
  | c' :: rest => if c' = c then some rest else none

def hexValue (c : Char) : Option ℕ :=
  (List.range 16).find? fun d => Nat.digitChar d = c.toLower

def readHex4 : List Char → Option (ℕ × List Char)
  | a :: b :: c :: d :: rest => do
      let a ← hexValue a
      let b ← hexValue b
      let c ← hexValue c
      let d ← hexValue d
      return (4096 * a + 256 * b + 16 * c + d, rest)
  | _ => none

/-- A character by its code point. -/
def charOf (n : ℕ) : Option Char :=
  if n.isValidChar then some (Char.ofNat n) else none

/-- What stands behind a backslash and a `u`. -/
def readUnicode (input : List Char) : Option (Char × List Char) := do
  let (high, rest) ← readHex4 input
  if 0xD800 ≤ high ∧ high < 0xDC00 then
    match rest with
    | c :: u :: rest =>
        if c = backslash ∧ u = 'u' then do
          let (low, rest) ← readHex4 rest
          if 0xDC00 ≤ low ∧ low < 0xE000 then
            return (← charOf (0x10000 + (high - 0xD800) * 0x400 + (low - 0xDC00)), rest)
          else none
        else none
    | _ => none
  else
    return (← charOf high, rest)

/-- A character of a string. -/
def readChar : List Char → Option (Char × List Char)
  | [] => none
  | c :: rest =>
      if c = backslash then
        match rest with
        | [] => none
        | c :: rest =>
            if c = 'u' then readUnicode rest
            else if c = '/' then some ('/', rest)
            else (shortEscapes.lookup c).map fun c => (c, rest)
      else if c < ' ' then none
      else some (c, rest)

/-- A string to its closing quote, which takes `fuel` characters at most. -/
def readChars : ℕ → List Char → Option (List Char × List Char)
  | 0, _ => none
  | _ + 1, [] => none
  | fuel + 1, c :: rest =>
      if c = quote then some ([], rest)
      else do
        let (c, rest) ← readChar (c :: rest)
        let (cs, rest) ← readChars fuel rest
        return (c :: cs, rest)

/-- The string behind an opening quote. -/
def readString (input : List Char) : Option (String × List Char) := do
  let (cs, rest) ← readChars input.length input
  return (String.ofList cs, rest)

/-- Digits; a zero stands alone. -/
def readNat : List Char → Option (ℕ × List Char)
  | [] => none
  | c :: rest =>
      if c = '0' then some (0, rest)
      else if c.isDigit then
        some (Nat.ofDigitChars 10 (c :: rest.takeWhile Char.isDigit) 0,
          rest.dropWhile Char.isDigit)
      else none

def readInt : List Char → Option (ℤ × List Char)
  | [] => none
  | c :: rest =>
      if c = '-' then (readNat rest).map fun (n, rest) => (-n, rest)
      else (readNat (c :: rest)).map fun (n, rest) => (n, rest)

/-- The rest of a word. -/
def readWord (word : List Char) (doc : Json) (input : List Char) : Option (Json × List Char) :=
  if word <+: input then some (doc, input.drop word.length) else none

mutual

/-- A document, with at most `fuel` documents inside each other or one after the other. -/
def readDoc : ℕ → List Char → Option (Json × List Char)
  | 0, _ => none
  | fuel + 1, input =>
      match skipBlank input with
      | [] => none
      | c :: rest =>
          if c = quote then (readString rest).map fun (s, rest) => (.str s, rest)
          else if c = '[' then
            match after ']' rest with
            | some rest => some (.arr [], rest)
            | none => do
                let (item, rest) ← readDoc fuel rest
                let (items, rest) ← readItems fuel rest
                return (.arr (item :: items), rest)
          else if c = openBrace then
            match after closeBrace rest with
            | some rest => some (.obj [], rest)
            | none => do
                let (entry, rest) ← readEntry fuel rest
                let (entries, rest) ← readEntries fuel rest
                return (.obj (entry :: entries), rest)
          else if c = 'n' then readWord ['u', 'l', 'l'] .null rest
          else if c = 't' then readWord ['r', 'u', 'e'] (.bool true) rest
          else if c = 'f' then readWord ['a', 'l', 's', 'e'] (.bool false) rest
          else (readInt (c :: rest)).map fun (n, rest) => (.int n, rest)

def readItems : ℕ → List Char → Option (List Json × List Char)
  | 0, _ => none
  | fuel + 1, input =>
      match after ']' input with
      | some rest => some ([], rest)
      | none => do
          let rest ← after ',' input
          let (item, rest) ← readDoc fuel rest
          let (items, rest) ← readItems fuel rest
          return (item :: items, rest)

def readEntry : ℕ → List Char → Option ((String × Json) × List Char)
  | 0, _ => none
  | fuel + 1, input => do
      let rest ← after quote input
      let (key, rest) ← readString rest
      let rest ← after ':' rest
      let (doc, rest) ← readDoc fuel rest
      return ((key, doc), rest)

def readEntries : ℕ → List Char → Option (List (String × Json) × List Char)
  | 0, _ => none
  | fuel + 1, input =>
      match after closeBrace input with
      | some rest => some ([], rest)
      | none => do
          let rest ← after ',' input
          let (entry, rest) ← readEntry fuel rest
          let (entries, rest) ← readEntries fuel rest
          return (entry :: entries, rest)

end

/-- `json.loads(text)`. -/
def loads (text : List Char) : Option Json := do
  let (doc, rest) ← readDoc (text.length + 1) text
  if (skipBlank rest).isEmpty then return doc else none

/-! ## Strings -/

section Strings

variable {c : Char} {n : ℕ} {rest : List Char}

theorem hexValue_digitChar : ∀ d < 16, hexValue (Nat.digitChar d) = some d := by
  decide

theorem readHex4_hex4 (h : n < 0x10000) : readHex4 (hex4 n ++ rest) = some (n, rest) := by
  have hdigit (m : ℕ) : hexValue (Nat.digitChar (m % 16)) = some (m % 16) :=
    hexValue_digitChar _ (Nat.mod_lt m (by decide))
  have hsum : 4096 * (n / 4096 % 16) + 256 * (n / 256 % 16) + 16 * (n / 16 % 16) + n % 16 = n := by
    omega
  simp [hex4, readHex4, hdigit, hsum]

theorem charOf_toNat (c : Char) : charOf c.toNat = some c := by
  have hvalid : c.toNat.isValidChar := c.valid
  rw [charOf, if_pos hvalid, Char.ofNat_toNat]

theorem toNat_range (c : Char) :
    c.toNat < 0xD800 ∨ (0xDFFF < c.toNat ∧ c.toNat < 0x110000) :=
  c.valid

theorem readUnicode_single (h : c.toNat < 0x10000) :
    readUnicode (hex4 c.toNat ++ rest) = some (c, rest) := by
  have hscalar : ¬ (0xD800 ≤ c.toNat ∧ c.toNat < 0xDC00) := by
    have hrange := toNat_range c
    omega
  unfold readUnicode
  rw [readHex4_hex4 h]
  simp only [Option.bind_eq_bind, Option.bind_some]
  rw [if_neg hscalar, charOf_toNat]
  rfl

/-- The two halves of a surrogate pair. -/
theorem readUnicode_pair {high low : ℕ} (hhigh : 0xD800 ≤ high ∧ high < 0xDC00)
    (hlow : 0xDC00 ≤ low ∧ low < 0xE000)
    (hsum : 0x10000 + (high - 0xD800) * 0x400 + (low - 0xDC00) = c.toNat) :
    readUnicode (hex4 high ++ backslash :: 'u' :: (hex4 low ++ rest)) = some (c, rest) := by
  have hhigh' : high < 0x10000 := by omega
  have hlow' : low < 0x10000 := by omega
  unfold readUnicode
  rw [readHex4_hex4 hhigh']
  simp only [Option.bind_eq_bind, Option.bind_some]
  rw [if_pos hhigh, if_pos ⟨trivial, trivial⟩, readHex4_hex4 hlow']
  simp only [Option.bind_some]
  rw [if_pos hlow, hsum, charOf_toNat]
  rfl

theorem shortEscapes_spec : ∀ entry ∈ shortEscapes,
    entry.1 ≠ 'u' ∧ entry.1 ≠ '/' ∧ shortEscapes.lookup entry.1 = some entry.2 := by
  decide

/-- An escaped character is read. -/
theorem readChar_escape (c : Char) (rest : List Char) :
    readChar (escape c ++ rest) = some (c, rest) := by
  unfold escape
  cases hfind : shortEscapes.find? fun entry => entry.2 = c with
  | some entry =>
      have hc : entry.2 = c := by simpa using List.find?_some hfind
      rcases shortEscapes_spec entry (List.mem_of_find?_eq_some hfind) with ⟨hu, hslash, hlookup⟩
      simp [readChar, hu, hslash, hlookup, hc]
  | none =>
      -- A backslash has a short escape, so this is a character as it is, or its code point.
      have hplain : c ≠ backslash := by
        rintro rfl
        exact absurd hfind (by decide)
      dsimp only
      split_ifs with hprintable hsmall
      · have hspace : ¬ c < ' ' := fun hlt => absurd hprintable.1 (Char.not_le.2 hlt)
        simp only [List.singleton_append, readChar]
        rw [if_neg hplain, if_neg hspace]
      · exact readUnicode_single hsmall
      · have hrange := toNat_range c
        rw [List.append_assoc, List.cons_append, List.cons_append, List.cons_append,
          List.cons_append]
        refine readUnicode_pair ?_ ?_ ?_
        · omega
        · omega
        · omega

/-- An escaped character does not look like the end of its string. -/
theorem escape_head (c : Char) : ∃ d text, escape c = d :: text ∧ d ≠ quote := by
  unfold escape
  cases hfind : shortEscapes.find? fun entry => entry.2 = c with
  | some entry => exact ⟨_, _, rfl, by decide⟩
  | none =>
      dsimp only
      split_ifs
      · refine ⟨_, _, rfl, ?_⟩
        rintro rfl
        exact absurd hfind (by decide)
      · exact ⟨_, _, rfl, by decide⟩
      · exact ⟨_, _, rfl, by decide⟩

theorem readChars_escape (cs rest : List Char) :
    ∀ fuel, cs.length < fuel →
      readChars fuel (cs.flatMap escape ++ quote :: rest) = some (cs, rest) := by
  induction cs with
  | nil =>
      intro fuel hfuel
      rcases Nat.exists_eq_add_of_lt hfuel with ⟨fuel, rfl⟩
      exact if_pos rfl
  | cons c cs ih =>
      intro fuel hfuel
      rcases fuel with _ | fuel
      · exact absurd hfuel (Nat.not_lt_zero _)
      -- What is escaped does not begin with the closing quote, so the loop goes on.
      · have hchar := readChar_escape c (cs.flatMap escape ++ quote :: rest)
        rcases escape_head c with ⟨d, text, hescape, hd⟩
        rw [hescape] at hchar
        rw [List.flatMap_cons, hescape, List.cons_append, List.cons_append, readChars, if_neg hd]
        rw [List.cons_append] at hchar
        rw [List.append_assoc, hchar]
        simp only [Option.bind_eq_bind, Option.bind_some]
        rw [ih fuel (Nat.lt_of_succ_lt_succ hfuel)]
        rfl

theorem length_le_flatMap_escape (cs : List Char) : cs.length ≤ (cs.flatMap escape).length := by
  induction cs with
  | nil => exact Nat.le_refl 0
  | cons c cs ih =>
      rcases escape_head c with ⟨d, text, hescape, -⟩
      rw [List.flatMap_cons, hescape, List.length_append, List.length_cons, List.length_cons]
      omega

theorem readString_quoted (s : String) (rest : List Char) :
    readString (s.toList.flatMap escape ++ quote :: rest) = some (s, rest) := by
  have hlength := length_le_flatMap_escape s.toList
  unfold readString
  rw [readChars_escape]
  · simp only [Option.bind_eq_bind, Option.bind_some, String.ofList_toList]
    rfl
  · rw [List.length_append, List.length_cons]
    omega

end Strings

/-! ## Numbers -/

/-- What follows a number does not go on with it. -/
def Ends (rest : List Char) : Prop :=
  ∀ c ∈ rest.head?, c.isDigit = false

theorem ends_cons {c : Char} {rest : List Char} (h : c.isDigit = false) : Ends (c :: rest) :=
  fun _ hc => Option.some.inj hc ▸ h

theorem isDigit_toDigits (n : ℕ) : ∀ c ∈ Nat.toDigits 10 n, c.isDigit = true :=
  fun _ => Nat.isDigit_of_mem_toDigits (by decide) (by decide)

/-- Only zero begins with a zero. -/
theorem head_toDigits {n : ℕ} (h : (Nat.toDigits 10 n).head? = some '0') : n = 0 := by
  induction n using Nat.strongRecOn with
  | ind n ih =>
      rcases Nat.lt_or_ge n 10 with hlt | hge
      · rw [Nat.toDigits_of_lt_base hlt] at h
        have hall : ∀ m < 10, [Nat.digitChar m].head? = some '0' → m = 0 := by decide
        exact hall n hlt h
      · rw [Nat.toDigits_of_base_le (by decide) hge,
          List.head?_append_of_ne_nil _ Nat.toDigits_ne_nil] at h
        have hzero := ih (n / 10) (by omega) h
        omega

theorem readNat_toDigits (n : ℕ) {rest : List Char} (hrest : Ends rest) :
    readNat (Nat.toDigits 10 n ++ rest) = some (n, rest) := by
  have hvalue : Nat.ofDigitChars 10 (Nat.toDigits 10 n) 0 = n := Nat.ofDigitChars_ten_toDigits
  have hdigits := isDigit_toDigits n
  have hhead := @head_toDigits n
  have hzero : n = 0 → Nat.toDigits 10 n = ['0'] := by
    rintro rfl
    rfl
  cases htext : Nat.toDigits 10 n with
  | nil => exact absurd htext Nat.toDigits_ne_nil
  | cons c digits =>
      rw [htext] at hvalue hdigits hhead hzero
      rw [List.cons_append, readNat]
      by_cases hc : c = '0'
      · have hn := hhead (congrArg some hc)
        rw [if_pos hc, (List.cons.inj (hzero hn)).2, hn]
        rfl
      -- The number is not zero, and its digits are read to the first character that is none.
      · have hall : ∀ d ∈ digits, d.isDigit = true := by
          intro d hd
          exact hdigits d (List.mem_cons_of_mem _ hd)
        have htake : (digits ++ rest).takeWhile Char.isDigit = digits := by
          rw [List.takeWhile_append_of_pos hall]
          cases rest with
          | nil => exact List.append_nil _
          | cons d rest =>
              rw [List.takeWhile_cons_of_neg (by rw [hrest d rfl]; decide), List.append_nil]
        have hdrop : (digits ++ rest).dropWhile Char.isDigit = rest := by
          rw [List.dropWhile_append_of_pos hall]
          cases rest with
          | nil => rfl
          | cons d rest => exact List.dropWhile_cons_of_neg (by rw [hrest d rfl]; decide)
        rw [if_neg hc, if_pos (hdigits c List.mem_cons_self), htake, hdrop, hvalue]

theorem readInt_integer (n : ℤ) {rest : List Char} (hrest : Ends rest) :
    readInt (integer n ++ rest) = some (n, rest) := by
  have hread := readNat_toDigits n.natAbs hrest
  unfold integer
  by_cases hneg : n < 0
  · have habs : -(n.natAbs : ℤ) = n := by omega
    rw [if_pos hneg, List.append_assoc, List.singleton_append, readInt, if_pos rfl, hread]
    exact congrArg (fun m => some (m, rest)) habs
  · rw [if_neg hneg, List.nil_append]
    have habs : (n.natAbs : ℤ) = n := by omega
    cases htext : Nat.toDigits 10 n.natAbs with
    | nil => exact absurd htext Nat.toDigits_ne_nil
    | cons c digits =>
        have hdigit := isDigit_toDigits n.natAbs c (htext ▸ List.mem_cons_self)
        have hc : c ≠ '-' := by
          rintro rfl
          exact absurd hdigit (by decide)
        rw [htext] at hread
        rw [List.cons_append] at hread ⊢
        rw [readInt, if_neg hc, hread]
        exact congrArg (fun m => some (m, rest)) habs

/-! ## Layout -/

section Layout

variable {c d : Char} {rest input : List Char} (level : ℕ) {level' : ℕ}

theorem isBlank_newline : ∀ c ∈ newline level, isBlank c = true := by
  intro c hc
  rcases List.mem_cons.1 hc with rfl | hspace
  · rfl
  · rw [List.eq_of_mem_replicate hspace]
    rfl

theorem skipBlank_newline : skipBlank (newline level ++ input) = skipBlank input :=
  List.dropWhile_append_of_pos (isBlank_newline level)

theorem skipBlank_cons (h : isBlank c = false) : skipBlank (c :: rest) = c :: rest :=
  List.dropWhile_cons_of_neg (by simp [h])

theorem after_newline : after c (newline level ++ input) = after c input := by
  unfold after
  rw [skipBlank_newline]

theorem after_self (h : isBlank c = false) : after c (c :: rest) = some rest := by
  unfold after
  rw [skipBlank_cons h]
  exact if_pos rfl

theorem after_other (h : isBlank d = false) (hne : d ≠ c) : after c (d :: rest) = none := by
  unfold after
  rw [skipBlank_cons h]
  exact if_neg hne

theorem readDoc_newline (fuel : ℕ) :
    readDoc fuel (newline level ++ input) = readDoc fuel input := by
  cases fuel with
  | zero => rfl
  | succ fuel => rw [readDoc, readDoc, skipBlank_newline]

theorem ends_newline : Ends (newline level ++ input) :=
  ends_cons rfl

theorem ends_prettyEntries (entries : List (String × Json)) :
    Ends (prettyEntries level entries ++ (newline level' ++ input)) := by
  cases entries with
  | nil => exact ends_newline level'
  | cons entry entries => exact ends_cons rfl

theorem ends_prettyItems (items : List Json) :
    Ends (prettyItems level items ++ (newline level' ++ input)) := by
  cases items with
  | nil => exact ends_newline level'
  | cons item items => exact ends_cons rfl

end Layout

/-- The first character of a document. -/
structure Opens (c : Char) : Prop where
  blank : isBlank c = false
  bracket : c ≠ ']'
  brace : c ≠ closeBrace

theorem Opens.of_digit {c : Char} (h : c.isDigit = true) : Opens c := by
  have hne (d : Char) (hd : d.isDigit = false) : c ≠ d := by
    rintro rfl
    exact absurd (h.symm.trans hd) (by decide)
  refine ⟨?_, hne _ (by decide), hne _ (by decide)⟩
  simp [isBlank, hne ' ' (by decide), hne '\n' (by decide), hne '\t' (by decide),
    hne '\r' (by decide)]

theorem opens_integer (n : ℤ) : ∃ c text, integer n = c :: text ∧ Opens c ∧
    (c = '-' ∨ c.isDigit = true) := by
  unfold integer
  by_cases hneg : n < 0
  · rw [if_pos hneg]
    exact ⟨_, _, rfl, ⟨by decide, by decide, by decide⟩, Or.inl rfl⟩
  · rw [if_neg hneg]
    cases htext : Nat.toDigits 10 n.natAbs with
    | nil => exact absurd htext Nat.toDigits_ne_nil
    | cons c digits =>
        have hdigit := isDigit_toDigits n.natAbs c (htext ▸ List.mem_cons_self)
        exact ⟨_, _, rfl, .of_digit hdigit, Or.inr hdigit⟩

theorem opens_pretty (level : ℕ) (doc : Json) : ∃ c text, pretty level doc = c :: text ∧ Opens c := by
  have hopens (c : Char) (h : Opens c) (text : List Char) :
      ∃ c' text', c :: text = c' :: text' ∧ Opens c' := ⟨c, text, rfl, h⟩
  cases doc with
  | null => exact hopens _ ⟨by decide, by decide, by decide⟩ _
  | bool b =>
      cases b with
      | true => exact hopens _ ⟨by decide, by decide, by decide⟩ _
      | false => exact hopens _ ⟨by decide, by decide, by decide⟩ _
  | int n =>
      rcases opens_integer n with ⟨c, text, htext, hc, -⟩
      exact ⟨c, text, htext, hc⟩
  | str s => exact hopens _ ⟨by decide, by decide, by decide⟩ _
  | arr items =>
      cases items with
      | nil => exact hopens _ ⟨by decide, by decide, by decide⟩ _
      | cons item items => exact hopens _ ⟨by decide, by decide, by decide⟩ _
  | obj entries =>
      cases entries with
      | nil => exact hopens _ ⟨by decide, by decide, by decide⟩ _
      | cons entry entries => exact hopens _ ⟨by decide, by decide, by decide⟩ _

/-! ## Round trip -/

theorem readDoc_integer (fuel : ℕ) (n : ℤ) {rest : List Char} (hrest : Ends rest) :
    readDoc (fuel + 1) (integer n ++ rest) = some (.int n, rest) := by
  have hread := readInt_integer n hrest
  rcases opens_integer n with ⟨c, text, htext, hopens, hc⟩
  have hne (d : Char) (hdash : d ≠ '-') (hd : d.isDigit = false) : c ≠ d := by
    rintro rfl
    rcases hc with hc | hc
    · exact hdash hc
    · exact absurd (hc.symm.trans hd) (by decide)
  rw [htext, List.cons_append] at hread ⊢
  rw [readDoc, skipBlank_cons hopens.blank]
  dsimp only
  rw [if_neg (hne _ (by decide) (by decide)), if_neg (hne _ (by decide) (by decide)),
    if_neg (hne _ (by decide) (by decide)), if_neg (hne _ (by decide) (by decide)),
    if_neg (hne _ (by decide) (by decide)), if_neg (hne _ (by decide) (by decide)), hread]
  rfl

theorem readDoc_quoted (fuel : ℕ) (s : String) (rest : List Char) :
    readDoc (fuel + 1) (quoted s ++ rest) = some (.str s, rest) := by
  have hread := readString_quoted s rest
  rw [quoted, List.cons_append, List.append_assoc, List.singleton_append, readDoc,
    skipBlank_cons (by decide)]
  dsimp only
  rw [if_pos rfl, hread]
  rfl

theorem readWord_append (word : List Char) (doc : Json) (rest : List Char) :
    readWord word doc (word ++ rest) = some (doc, rest) := by
  rw [readWord, if_pos (List.prefix_append _ _), List.drop_left]

theorem readDoc_space (fuel : ℕ) (input : List Char) :
    readDoc fuel (' ' :: input) = readDoc fuel input := by
  cases fuel with
  | zero => rfl
  | succ fuel =>
      have hspace : skipBlank (' ' :: input) = skipBlank input := rfl
      rw [readDoc, readDoc, hspace]

theorem readEntry_pretty {fuel level : ℕ} {doc : Json} {rest : List Char} (key : String)
    (hdoc : readDoc fuel (pretty level doc ++ rest) = some (doc, rest)) :
    readEntry (fuel + 1)
      (newline level ++ (quoted key ++ (':' :: ' ' :: (pretty level doc ++ rest)))) =
      some ((key, doc), rest) := by
  have hkey := readString_quoted key (':' :: ' ' :: (pretty level doc ++ rest))
  rw [readEntry, after_newline, quoted, List.cons_append, after_self (by decide),
    List.append_assoc, List.singleton_append]
  simp only [Option.bind_eq_bind, Option.bind_some]
  rw [hkey]
  simp only [Option.bind_some]
  rw [after_self (by decide)]
  simp only [Option.bind_some]
  rw [readDoc_space, hdoc]
  rfl

mutual

/-- A document is read back, whatever follows it. -/
theorem readDoc_pretty : ∀ (doc : Json) (level fuel : ℕ) (rest : List Char),
    (pretty level doc).length ≤ fuel → Ends rest →
      readDoc fuel (pretty level doc ++ rest) = some (doc, rest)
  | .null, level, fuel, rest, hfuel, _ => by
      cases fuel with
      | zero => exact absurd hfuel (Nat.not_succ_le_zero _)
      | succ fuel => exact readWord_append ['u', 'l', 'l'] .null rest
  | .bool true, level, fuel, rest, hfuel, _ => by
      cases fuel with
      | zero => exact absurd hfuel (Nat.not_succ_le_zero _)
      | succ fuel => exact readWord_append ['r', 'u', 'e'] (.bool true) rest
  | .bool false, level, fuel, rest, hfuel, _ => by
      cases fuel with
      | zero => exact absurd hfuel (Nat.not_succ_le_zero _)
      | succ fuel => exact readWord_append ['a', 'l', 's', 'e'] (.bool false) rest
  | .int n, level, fuel, rest, hfuel, hrest => by
      cases fuel with
      | zero =>
          rcases opens_integer n with ⟨c, text, htext, -⟩
          rw [pretty, htext] at hfuel
          exact absurd hfuel (Nat.not_succ_le_zero _)
      | succ fuel => exact readDoc_integer fuel n hrest
  | .str s, level, fuel, rest, hfuel, _ => by
      cases fuel with
      | zero => exact absurd hfuel (Nat.not_succ_le_zero _)
      | succ fuel => exact readDoc_quoted fuel s rest
  | .arr [], level, fuel, rest, hfuel, _ => by
      cases fuel with
      | zero => exact absurd hfuel (Nat.not_succ_le_zero _)
      | succ fuel => rfl
  | .arr (item :: items), level, fuel, rest, hfuel, _ => by
      cases fuel with
      | zero => exact absurd hfuel (Nat.not_succ_le_zero _)
      | succ fuel =>
          simp only [pretty, List.length_cons, List.length_append, List.length_nil] at hfuel
          -- The first item ends where the text of the others, or the bracket, begins.
          have hitem := readDoc_pretty item (level + 1) fuel
            (prettyItems (level + 1) items ++ (newline level ++ ']' :: rest)) (by omega)
            (ends_prettyItems _ _)
          have hitems := readItems_pretty items (level + 1) level fuel rest (by omega)
          rcases opens_pretty (level + 1) item with ⟨c, text, htext, hc⟩
          simp only [pretty, List.cons_append, List.append_assoc, List.nil_append]
          rw [readDoc, skipBlank_cons (by decide)]
          dsimp only
          rw [if_neg (by decide), if_pos rfl, after_newline, readDoc_newline, hitem, htext,
            List.cons_append, after_other hc.blank hc.bracket]
          simp only [Option.bind_eq_bind, Option.bind_some]
          rw [hitems]
          rfl
  | .obj [], level, fuel, rest, hfuel, _ => by
      cases fuel with
      | zero => exact absurd hfuel (Nat.not_succ_le_zero _)
      | succ fuel => rfl
  | .obj ((key, doc) :: entries), level, fuel, rest, hfuel, _ => by
      cases fuel with
      | zero => exact absurd hfuel (Nat.not_succ_le_zero _)
      | succ fuel =>
          cases fuel with
          | zero =>
              simp only [pretty, newline, List.length_cons, List.length_append] at hfuel
              omega
          | succ fuel =>
              simp only [pretty, newline, List.length_cons, List.length_append, List.length_nil]
                at hfuel
              -- The first entry ends where the text of the others, or the brace, begins.
              have hdoc := readDoc_pretty doc (level + 1) fuel
                (prettyEntries (level + 1) entries ++ (newline level ++ closeBrace :: rest))
                (by omega) (ends_prettyEntries _ _)
              have hentry := readEntry_pretty key hdoc
              have hentries := readEntries_pretty entries (level + 1) level (fuel + 1) rest
                (by omega)
              simp only [pretty, List.cons_append, List.append_assoc, List.nil_append]
              rw [readDoc, skipBlank_cons (by decide)]
              dsimp only
              rw [if_neg (by decide), if_neg (by decide), if_pos rfl, after_newline, hentry,
                quoted, List.cons_append, after_other (by decide) (by decide)]
              simp only [Option.bind_eq_bind, Option.bind_some]
              rw [hentries]
              rfl

theorem readItems_pretty : ∀ (items : List Json) (level level' fuel : ℕ) (rest : List Char),
    (prettyItems level items).length < fuel →
      readItems fuel (prettyItems level items ++ (newline level' ++ ']' :: rest)) =
        some (items, rest)
  | [], level, level', fuel, rest, hfuel => by
      rcases Nat.exists_eq_add_of_lt hfuel with ⟨fuel, rfl⟩
      rw [prettyItems, List.nil_append, readItems, after_newline, after_self (by decide)]
  | item :: items, level, level', fuel, rest, hfuel => by
      cases fuel with
      | zero => exact absurd hfuel (Nat.not_lt_zero _)
      | succ fuel =>
          simp only [prettyItems, List.length_cons, List.length_append] at hfuel
          have hitem := readDoc_pretty item level fuel
            (prettyItems level items ++ (newline level' ++ ']' :: rest)) (by omega)
            (ends_prettyItems _ _)
          have hitems := readItems_pretty items level level' fuel rest (by omega)
          simp only [prettyItems, List.cons_append, List.append_assoc]
          rw [readItems, after_other (by decide) (by decide), after_self (by decide)]
          simp only [Option.bind_eq_bind, Option.bind_some]
          rw [readDoc_newline, hitem]
          simp only [Option.bind_some]
          rw [hitems]
          rfl

theorem readEntries_pretty : ∀ (entries : List (String × Json)) (level level' fuel : ℕ)
    (rest : List Char), (prettyEntries level entries).length < fuel →
      readEntries fuel (prettyEntries level entries ++ (newline level' ++ closeBrace :: rest)) =
        some (entries, rest)
  | [], level, level', fuel, rest, hfuel => by
      rcases Nat.exists_eq_add_of_lt hfuel with ⟨fuel, rfl⟩
      rw [prettyEntries, List.nil_append, readEntries, after_newline, after_self (by decide)]
  | (key, doc) :: entries, level, level', fuel, rest, hfuel => by
      cases fuel with
      | zero => exact absurd hfuel (Nat.not_lt_zero _)
      | succ fuel =>
          cases fuel with
          | zero =>
              simp only [prettyEntries, newline, List.length_cons, List.length_append] at hfuel
              omega
          | succ fuel =>
              simp only [prettyEntries, newline, List.length_cons, List.length_append] at hfuel
              have hdoc := readDoc_pretty doc level fuel
                (prettyEntries level entries ++ (newline level' ++ closeBrace :: rest))
                (by omega) (ends_prettyEntries _ _)
              have hentry := readEntry_pretty key hdoc
              have hentries := readEntries_pretty entries level level' (fuel + 1) rest (by omega)
              simp only [prettyEntries, List.cons_append, List.append_assoc, List.nil_append]
              rw [readEntries, after_other (by decide) (by decide), after_self (by decide)]
              simp only [Option.bind_eq_bind, Option.bind_some]
              rw [hentry]
              simp only [Option.bind_some]
              rw [hentries]
              rfl

end

/-- What was written is read back, also with a line feed behind it. -/
theorem loads_dumps (doc : Json) : loads (dumps doc ++ ['\n']) = some doc := by
  have hfuel : (pretty 0 doc).length ≤ (pretty 0 doc ++ ['\n']).length + 1 := by
    rw [List.length_append]
    omega
  unfold loads dumps
  rw [readDoc_pretty doc 0 _ ['\n'] hfuel (ends_cons rfl)]
  rfl

/-! ## Files -/

/-- Text as UTF-8. -/
def utf8 (text : List Char) : List UInt8 :=
  text.flatMap String.utf8EncodeChar

/-- `json.loads(data)`, of data that is UTF-8. -/
def ofBytes (data : List UInt8) : Option Json := do
  let text ← data.toByteArray.utf8Decode?
  loads text.toList

/-- `json.dumps(doc, indent=2, sort_keys=True) + "\n"`, as it is put into a file. -/
def toBytes (doc : Json) : List UInt8 :=
  utf8 (dumps doc ++ ['\n'])

theorem ofBytes_toBytes (doc : Json) : ofBytes doc.toBytes = some doc := by
  have hbytes : doc.toBytes.toByteArray = (dumps doc ++ ['\n']).utf8Encode := rfl
  unfold ofBytes
  rw [hbytes, List.utf8Decode?_utf8Encode]
  exact loads_dumps doc

end Json

end Wire
