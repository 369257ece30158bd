import Mathlib.Data.Nat.Digits.Defs
import Vncdotool.Decoders.Buffer
import Vncdotool.Keys
import Vncdotool.Streaming.Files

/-!
# Recorder — what `vnclog` writes down of its clients' input

The part of `VNCLoggingServerFactory` and `VNCLoggingServerProxy` that records key and pointer
events, with a directory as output.  The command line refuses to combine `--file-per-client` with
`--one-shot` and `--capture-raw`, so `getRecorder` takes its second branch and no connection is
refused.

A `str` is the list of its code points, and a time is a number of ten-thousandths of a second: the
four decimals that are written.
-/

namespace Vncdotool

open Streaming

/-- A Python `str`. -/
abbrev Text := List ℕ

def text (s : String) : Text :=
  s.toList.map Char.toNat

/-! ## Words -/

/-- `" ".join(words)`. -/
def join (words : List Text) : Text :=
  [32].intercalate words

/-- `"%d"`. -/
def decimal (n : ℕ) : Text :=
  if n = 0 then [48] else (Nat.digits 10 n).reverse.map (48 + ·)

/-- `"%.4f"`. -/
def formatSeconds (t : ℤ) : Text :=
  (if t < 0 then [45] else []) ++ decimal (t.natAbs / 10000) ++ [46] ++
    [48 + t.natAbs / 1000 % 10, 48 + t.natAbs / 100 % 10, 48 + t.natAbs / 10 % 10,
      48 + t.natAbs % 10]

/-- The characters `shlex` does not quote: ASCII letters and digits, and `_@%+=:,.` with the slash
and the hyphen. -/
def isSafe (c : ℕ) : Bool :=
  (48 ≤ c && c ≤ 57) || (65 ≤ c && c ≤ 90) || (97 ≤ c && c ≤ 122) ||
    [95, 64, 37, 43, 61, 58, 44, 46, 47, 45].contains c

/-- `shlex.quote(s)`. -/
def shlexQuote (s : Text) : Text :=
  if s.isEmpty then [39, 39]
  else if s.all isSafe then s
  else 39 :: s.flatMap (fun c => if c = 39 then [39, 34, 39, 34, 39] else [c]) ++ [39]

/-- `chr(key)`. -/
def chr (key : ℕ) : Except PyError Text :=
  if key < 0x110000 then .ok [key] else .error .valueError

/-! ## Lines -/

/-- The attributes of a `VNCLoggingServerProxy` that the next line depends on. -/
structure Noted where
  mouse : Option (ℕ × ℕ) := none
  lastEvent : ℤ
  deriving DecidableEq, Repr

inductive InputEvent
  | keyEvent (key : ℕ) (down : Bool)
  | pointerEvent (x y buttonmask : ℕ)
  deriving DecidableEq, Repr

/-- `shlex.quote(REVERSE_MAP.get(key, chr(key)))`: the default is computed in any case. -/
def keyText (key : ℕ) : Except PyError Text := do
  let char ← chr key
  return shlexQuote ((reverseMap key).elim char text)

/-- The line of a key event, and what is noted for the next one. -/
def keyLine (noted : Noted) (now : ℤ) (key : ℕ) (down : Bool) : Except PyError (Text × Noted) := do
  let rev ← keyText key
  let cmds := [text "pause", formatSeconds (now - noted.lastEvent),
    text (if down then "keydown" else "keyup"), rev, [10]]
  return (join cmds, { noted with lastEvent := now })

/-- `["click %d" % button for button in range(1, 9) if buttonmask & (1 << (button - 1))]`. -/
def clicks (buttonmask : ℕ) : List Text :=
  ((List.range 8).filter fun i => buttonmask.testBit i).map fun i => text "click " ++ decimal (i + 1)

def pointerLine (noted : Noted) (now : ℤ) (x y buttonmask : ℕ) : Text × Noted :=
  let move :=
    if noted.mouse ≠ some (x, y) then [text "move " ++ decimal x ++ [32] ++ decimal y] else []
  let cmds := [text "pause", formatSeconds (now - noted.lastEvent)] ++ move ++
    clicks buttonmask ++ [[10]]
  (join cmds, { mouse := some (x, y), lastEvent := now })

/-- What `handle_keyEvent` and `handle_pointerEvent` hand to the recorder. -/
def InputEvent.line (noted : Noted) (now : ℤ) : InputEvent → Except PyError (Text × Noted)
  | .keyEvent key down => keyLine noted now key down
  | .pointerEvent x y buttonmask => .ok (pointerLine noted now x y buttonmask)

/-! ## Proxies and their factory -/

/-- A connection's proxy: its recorder is the `write` of a file object. -/
structure VNCLoggingServerProxy where
  recorder : ℕ
  noted : Noted
  deriving DecidableEq, Repr

/-- The factory, with the proxies it has built in the order of their connections and the file
objects of the process. -/
structure VNCLoggingServerFactory where
  output : String
  out : Option ℕ := none
  files : Files String ℕ := { disk := fun _ => [] }
  proxies : List VNCLoggingServerProxy := []

namespace VNCLoggingServerFactory

/-- `os.path.join(self.output, "%s.vdo" % now)`. -/
def outfile (factory : VNCLoggingServerFactory) (stamp : String) : String :=
  let name := stamp ++ ".vdo"
  if factory.output.isEmpty || factory.output.endsWith "/" then factory.output ++ name
  else factory.output ++ "/" ++ name

/-- `getRecorder`: the file object that was opened, `stamp` being what `strftime` returns. -/
def getRecorder (factory : VNCLoggingServerFactory) (stamp : String) :
    ℕ × VNCLoggingServerFactory :=
  let file := factory.files.opened.length
  (file, { factory with files := factory.files.openW (factory.outfile stamp), out := some file })

/-- `VNCLoggingServerProxy.connectionMade`. -/
def connectionMade (factory : VNCLoggingServerFactory) (stamp : String) (now : ℤ) :
    VNCLoggingServerFactory :=
  let (recorder, factory) := factory.getRecorder stamp
  { factory with
    proxies := factory.proxies ++ [{ recorder := recorder, noted := { lastEvent := now } }] }

/-- `self.recorder(line)`; `none` when the file is closed or its encoding lacks a character. -/
def record (encodes : ℕ → Bool) (factory : VNCLoggingServerFactory) (recorder : ℕ) (line : Text) :
    Option VNCLoggingServerFactory :=
  if line.all encodes then
    (factory.files.write recorder line).map fun files => { factory with files := files }
  else
    none

/-- `handle_keyEvent` and `handle_pointerEvent` of the `i`-th proxy.  The caller is an observer: it
logs an exception as a warning and goes on. -/
def handleEvent (encodes : ℕ → Bool) (factory : VNCLoggingServerFactory) (i : ℕ) (now : ℤ)
    (event : InputEvent) : VNCLoggingServerFactory :=
  match factory.proxies[i]? with
  | none => factory
  | some proxy =>
      match event.line proxy.noted now with
      | .error _ => factory
      | .ok (line, noted) =>
          let factory := { factory with proxies := factory.proxies.set i { proxy with noted := noted } }
          (factory.record encodes proxy.recorder line).getD factory

/-- `clientConnectionLost`: whichever file was opened last is closed. -/
def clientConnectionLost (factory : VNCLoggingServerFactory) : VNCLoggingServerFactory :=
  match factory.out with
  | none => factory
  | some file => { factory with files := factory.files.close 0 file, out := none }

end VNCLoggingServerFactory

/-! ## Which lines can be written -/

/-- The event can be written down in an encoding: the key has a name, or is a character of it. -/
def InputEvent.Recordable (encodes : ℕ → Bool) : InputEvent → Prop
  | .keyEvent key _ => key < 0x110000 ∧ (reverseMap key = none → encodes key = true)
  | .pointerEvent _ _ _ => True

instance (encodes : ℕ → Bool) (event : InputEvent) : Decidable (event.Recordable encodes) :=
  match event with
  | .keyEvent _ _ => inferInstanceAs (Decidable (_ ∧ _))
  | .pointerEvent _ _ _ => inferInstanceAs (Decidable True)

/-- A text of ASCII characters. -/
def Ascii (s : Text) : Prop :=
  ∀ c ∈ s, c < 128

instance (s : Text) : Decidable (Ascii s) :=
  inferInstanceAs (Decidable (∀ c ∈ s, c < 128))

theorem Ascii.append {s t : Text} (hs : Ascii s) (ht : Ascii t) : Ascii (s ++ t) := by
  intro c hc
  rcases List.mem_append.1 hc with hc | hc
  · exact hs c hc
  · exact ht c hc

theorem ascii_decimal (n : ℕ) : Ascii (decimal n) := by
  unfold decimal
  split_ifs
  · decide
  · intro c hc
    rcases List.mem_map.1 hc with ⟨digit, hdigit, rfl⟩
    have hlt : digit < 10 := Nat.digits_lt_base (by decide) (List.mem_reverse.1 hdigit)
    exact Nat.lt_trans (Nat.add_lt_add_left hlt 48) (by decide)

theorem ascii_formatSeconds (t : ℤ) : Ascii (formatSeconds t) := by
  have hdigit (n : ℕ) : 48 + n % 10 < 128 :=
    Nat.lt_trans (Nat.add_lt_add_left (Nat.mod_lt n (by decide)) 48) (by decide)
  refine Ascii.append (Ascii.append (Ascii.append ?_ (ascii_decimal _)) (by decide)) ?_
  · split_ifs <;> decide
  · intro c hc
    simp only [List.mem_cons, List.not_mem_nil, or_false] at hc
    rcases hc with rfl | rfl | rfl | rfl <;> exact hdigit _

theorem ascii_name {key : ℕ} {name : String} (h : reverseMap key = some name) :
    Ascii (text name) := by
  have hall : ∀ entry ∈ keymap, Ascii (text entry.1) := by decide +kernel
  exact hall (name, key) (mem_keymap h)

/-- Quoting adds ASCII characters only. -/
theorem mem_shlexQuote {s : Text} {c : ℕ} (h : c ∈ shlexQuote s) : c ∈ s ∨ c < 128 := by
  unfold shlexQuote at h
  split_ifs at h
  · exact Or.inr ((by decide : Ascii [39, 39]) c h)
  · exact Or.inl h
  · rcases List.mem_append.1 h with h | h
    · rcases List.mem_cons.1 h with rfl | h
      · exact Or.inr (by decide)
      · rcases List.mem_flatMap.1 h with ⟨c', hc', hmem⟩
        split_ifs at hmem
        · exact Or.inr ((by decide : Ascii [39, 34, 39, 34, 39]) c hmem)
        · exact Or.inl (List.mem_singleton.1 hmem ▸ hc')
    · exact Or.inr ((by decide : Ascii [39]) c h)

/-- Quoting drops nothing. -/
theorem mem_shlexQuote_of_mem {s : Text} {c : ℕ} (h : c ∈ s) : c ∈ shlexQuote s := by
  unfold shlexQuote
  split_ifs with hempty
  · rw [List.isEmpty_iff.1 hempty] at h
    exact nomatch h
  · exact h
  · refine List.mem_append_left _ (List.mem_cons_of_mem _ (List.mem_flatMap.2 ⟨c, h, ?_⟩))
    split_ifs with hc
    · exact hc ▸ by simp
    · exact List.mem_singleton_self c

theorem mem_intercalate_of_mem {α : Type*} {sep word : List α} {a : α} (ha : a ∈ word) :
    ∀ {words : List (List α)}, word ∈ words → a ∈ sep.intercalate words
  | [word'], h => by
      rw [List.mem_singleton.1 h] at ha
      simpa [List.intercalate] using ha
  | word' :: next :: words, h => by
      have hsplit : sep.intercalate (word' :: next :: words) =
          word' ++ sep ++ sep.intercalate (next :: words) := by
        simp [List.intercalate, List.append_assoc]
      rw [hsplit]
      rcases List.mem_cons.1 h with rfl | h
      · exact List.mem_append_left _ (List.mem_append_left _ ha)
      · exact List.mem_append_right _ (mem_intercalate_of_mem ha h)

theorem mem_of_mem_intercalate {α : Type*} {sep : List α} {a : α} :
    ∀ {words : List (List α)}, a ∈ sep.intercalate words →
      a ∈ sep ∨ ∃ word ∈ words, a ∈ word
  | [], h => by simp [List.intercalate] at h
  | [word], h => by
      refine Or.inr ⟨word, by simp, ?_⟩
      simpa [List.intercalate] using h
  | word :: next :: words, h => by
      have h' : a ∈ word ++ sep ++ sep.intercalate (next :: words) := by
        simpa [List.intercalate, List.append_assoc] using h
      rcases List.mem_append.1 h' with h' | h'
      · rcases List.mem_append.1 h' with h' | h'
        · exact Or.inr ⟨word, by simp, h'⟩
        · exact Or.inl h'
      · rcases mem_of_mem_intercalate h' with h' | ⟨word', hmem, ha⟩
        · exact Or.inl h'
        · exact Or.inr ⟨word', List.mem_cons_of_mem _ hmem, ha⟩

section Encoding

variable {encodes : ℕ → Bool} (hascii : ∀ c < 128, encodes c = true)

include hascii

theorem encodes_join {words : List Text}
    (h : ∀ word ∈ words, ∀ c ∈ word, encodes c = true) : (join words).all encodes = true := by
  rw [List.all_eq_true]
  intro c hc
  rcases mem_of_mem_intercalate hc with hc | ⟨word, hmem, hc⟩
  · exact hascii c ((by decide : Ascii [32]) c hc)
  · exact h word hmem c hc

theorem encodes_pointerLine (noted : Noted) (now : ℤ) (x y buttonmask : ℕ) :
    (pointerLine noted now x y buttonmask).1.all encodes = true := by
  refine encodes_join hascii fun word hword c hc => hascii c ?_
  rcases List.mem_append.1 hword with hword | hword
  · rcases List.mem_append.1 hword with hword | hword
    · rcases List.mem_append.1 hword with hword | hword
      · rcases List.mem_cons.1 hword with rfl | hword
        · exact (by decide : Ascii (text "pause")) c hc
        · exact ascii_formatSeconds _ c (List.mem_singleton.1 hword ▸ hc)
      · split_ifs at hword
        · have hascii' : Ascii (text "move " ++ decimal x ++ [32] ++ decimal y) :=
            Ascii.append (Ascii.append (Ascii.append (by decide) (ascii_decimal x)) (by decide))
              (ascii_decimal y)
          exact hascii' c (List.mem_singleton.1 hword ▸ hc)
        · exact nomatch hword
    · rcases List.mem_map.1 hword with ⟨i, _, rfl⟩
      exact Ascii.append (by decide) (ascii_decimal (i + 1)) c hc
  · exact (by decide : Ascii [10]) c (List.mem_singleton.1 hword ▸ hc)

omit hascii in
theorem keyLine_eq (noted : Noted) (now : ℤ) {key : ℕ} (down : Bool) (hkey : key < 0x110000) :
    keyLine noted now key down =
      .ok (join [text "pause", formatSeconds (now - noted.lastEvent),
        text (if down then "keydown" else "keyup"),
        shlexQuote ((reverseMap key).elim [key] text), [10]],
        { noted with lastEvent := now }) := by
  simp only [keyLine, keyText, chr, if_pos hkey]
  rfl

/-- An event can be written down exactly when its line comes to be, in characters of the
encoding. -/
theorem exists_line_iff (noted : Noted) (now : ℤ) (event : InputEvent) :
    (∃ line noted', event.line noted now = .ok (line, noted') ∧ line.all encodes = true) ↔
      event.Recordable encodes := by
  cases event with
  | pointerEvent x y buttonmask =>
      refine iff_of_true ⟨_, _, rfl, ?_⟩ trivial
      exact encodes_pointerLine hascii noted now x y buttonmask
  | keyEvent key down =>
      by_cases hkey : key < 0x110000
      · have hline := keyLine_eq noted now down hkey
        have hword : InputEvent.Recordable encodes (.keyEvent key down) ↔
            (reverseMap key = none → encodes key = true) :=
          and_iff_right hkey
        rw [hword]
        constructor
        · rintro ⟨line, noted', heq, hall⟩ hnone
          cases hline.symm.trans heq
          have hmem : key ∈ shlexQuote ((reverseMap key).elim [key] text) := by
            rw [hnone]
            exact mem_shlexQuote_of_mem (List.mem_singleton_self key)
          exact List.all_eq_true.1 hall key (mem_intercalate_of_mem hmem (by simp))
        · intro hencodes
          refine ⟨_, _, hline, encodes_join hascii fun word hword c hc => ?_⟩
          simp only [List.mem_cons, List.not_mem_nil, or_false] at hword
          rcases hword with rfl | rfl | rfl | rfl | rfl
          · exact hascii c ((by decide : Ascii (text "pause")) c hc)
          · exact hascii c (ascii_formatSeconds _ c hc)
          · refine hascii c ?_
            split_ifs at hc
            · exact (by decide : Ascii (text "keydown")) c hc
            · exact (by decide : Ascii (text "keyup")) c hc
          · rcases mem_shlexQuote hc with hc | hlt
            · cases hname : reverseMap key with
              | none =>
                  rw [hname] at hc
                  exact List.mem_singleton.1 hc ▸ hencodes hname
              | some name =>
                  rw [hname] at hc
                  exact hascii c (ascii_name hname c hc)
            · exact hascii c hlt
          · exact hascii c ((by decide : Ascii [10]) c hc)
      · refine iff_of_false ?_ fun h => hkey h.1
        rintro ⟨line, noted', heq, _⟩
        simp only [InputEvent.line, keyLine, keyText, chr, if_neg hkey] at heq
        exact nomatch heq

end Encoding

end Vncdotool
