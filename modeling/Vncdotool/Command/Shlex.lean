import Vncdotool.Logging.Recorder

/-!
# Shlex — reading a script file

`build_command_list` reads a script with `shlex.shlex(open(cmd), posix=True)` and
`whitespace_split`.  `shlexSplit` is that tokenizer, one character at a time: whitespace ends a
token, `#` starts a comment, both quotes and the backslash have their POSIX meaning.  What
`shlex.quote` has quoted comes back as one token, whatever it is.
-/

namespace Vncdotool

/-! ## Text files -/

/-- The universal newlines of a file that is opened for reading as text. -/
def newlines : Text → Text
  | [] => []
  | 13 :: 10 :: rest => 10 :: newlines rest
  | c :: rest => (if c = 13 then 10 else c) :: newlines rest

theorem newlines_cons {c : ℕ} (hc : c ≠ 13) (rest : Text) :
    newlines (c :: rest) = c :: newlines rest := by
  rw [newlines]
  · rw [if_neg hc]
  · rintro rest' hc' -
    exact hc hc'

theorem newlines_append {s : Text} (hs : 13 ∉ s) (rest : Text) :
    newlines (s ++ rest) = s ++ newlines rest := by
  induction s with
  | nil => rfl
  | cons c s ih =>
      rw [List.mem_cons, not_or] at hs
      rw [List.cons_append, newlines_cons (Ne.symm hs.1), ih hs.2]
      rfl

/-- A carriage return of its own is read as a line feed. -/
theorem newlines_return {c : ℕ} (hc : c ≠ 10) (rest : Text) :
    newlines (13 :: c :: rest) = 10 :: newlines (c :: rest) := by
  rw [newlines]
  · rfl
  · rintro rest' - heq
    exact hc (List.cons.inj heq).1

/-! ## The tokenizer -/

/-- `self.state`; in an escape with `escapedstate`. -/
inductive LexState
  | blank
  | word
  | quote (q : ℕ)
  /-- Behind a backslash, in the quotes `q` if there are any. -/
  | escape (q : Option ℕ)
  /-- In what `readline` skips. -/
  | comment
  deriving DecidableEq, Repr

/-- `self.whitespace`. -/
def isBlank (c : ℕ) : Bool :=
  [32, 9, 13, 10].contains c

/-- `self.quotes`. -/
def isQuote (c : ℕ) : Bool :=
  [39, 34].contains c

/-- A token goes out unless it is empty and was not quoted. -/
def emit (token : Text) (quoted : Bool) (tokens : List Text) : List Text :=
  if token.isEmpty && !quoted then tokens else token :: tokens

/-- The tokens that are read from here on. -/
def lex : LexState → Text → Bool → Text → Except PyError (List Text)
  | .blank, _, _, [] => .ok []
  | .blank, _, _, c :: rest =>
      if isBlank c then lex .blank [] false rest
      else if c = 35 then lex .comment [] false rest
      else if c = 92 then lex (.escape none) [] false rest
      else if isQuote c then lex (.quote c) [] false rest
      else lex .word [c] false rest
  | .word, token, quoted, [] => .ok (emit token quoted [])
  | .word, token, quoted, c :: rest =>
      if isBlank c then (lex .blank [] false rest).map (emit token quoted)
      else if c = 35 then (lex .comment [] false rest).map (emit token quoted)
      else if isQuote c then lex (.quote c) token quoted rest
      else if c = 92 then lex (.escape none) token quoted rest
      else lex .word (token ++ [c]) quoted rest
  -- `No closing quotation`
  | .quote _, _, _, [] => .error .valueError
  | .quote q, token, _, c :: rest =>
      if c = q then lex .word token true rest
      else if c = 92 && q = 34 then lex (.escape (some q)) token true rest
      else lex (.quote q) (token ++ [c]) true rest
  -- `No escaped character`
  | .escape _, _, _, [] => .error .valueError
  | .escape none, token, quoted, c :: rest => lex .word (token ++ [c]) quoted rest
  | .escape (some q), token, quoted, c :: rest =>
      lex (.quote q) (token ++ if c ≠ 92 && c ≠ q then [92, c] else [c]) quoted rest
  | .comment, _, _, [] => .ok []
  | .comment, _, _, c :: rest =>
      if c = 10 then lex .blank [] false rest else lex .comment [] false rest

/-- `list(lex)`. -/
def shlexSplit (script : Text) : Except PyError (List Text) :=
  lex .blank [] false script

example : shlexSplit (text "keydown 'a'\"b\" \\# # c") = .ok [text "keydown", text "ab", text "#"] := by
  decide

/-! ## One character of a script -/

section Characters

variable (token : Text) (quoted : Bool) (c : ℕ) (rest : Text)

theorem lex_blank_cons : lex .blank token quoted (c :: rest) =
    if isBlank c then lex .blank [] false rest
    else if c = 35 then lex .comment [] false rest
    else if c = 92 then lex (.escape none) [] false rest
    else if isQuote c then lex (.quote c) [] false rest
    else lex .word [c] false rest := rfl

theorem lex_word_cons : lex .word token quoted (c :: rest) =
    if isBlank c then (lex .blank [] false rest).map (emit token quoted)
    else if c = 35 then (lex .comment [] false rest).map (emit token quoted)
    else if isQuote c then lex (.quote c) token quoted rest
    else if c = 92 then lex (.escape none) token quoted rest
    else lex .word (token ++ [c]) quoted rest := rfl

/-- Between quotes the flag is not read: the token counts as quoted from the next character on. -/
theorem lex_quote_cons (q : ℕ) : lex (.quote q) token quoted (c :: rest) =
    if c = q then lex .word token true rest
    else if c = 92 && q = 34 then lex (.escape (some q)) token true rest
    else lex (.quote q) (token ++ [c]) true rest := rfl

end Characters

/-! ## Words of a script -/

/-- The text comes out as these tokens, whatever follows. -/
def Splits (s : Text) (tokens : List Text) : Prop :=
  ∀ rest, shlexSplit (s ++ rest) = (shlexSplit rest).map (tokens ++ ·)

theorem Splits.append {s t : Text} {a b : List Text} (hs : Splits s a) (ht : Splits t b) :
    Splits (s ++ t) (a ++ b) := by
  intro rest
  rw [List.append_assoc, hs, ht]
  cases shlexSplit rest with
  | error exc => rfl
  | ok tokens => exact congrArg Except.ok (List.append_assoc a b tokens).symm

theorem splits_nil : Splits [] [] := by
  intro rest
  rw [List.nil_append]
  cases shlexSplit rest <;> rfl

theorem splits_blank {c : ℕ} (hc : isBlank c = true) : Splits [c] [] := by
  intro rest
  have hskip : shlexSplit ([c] ++ rest) = shlexSplit rest := by
    change lex .blank [] false (c :: rest) = _
    rw [lex_blank_cons, if_pos hc]
    rfl
  rw [hskip]
  cases shlexSplit rest <;> rfl

/-! ## Safe words -/

theorem not_special {c : ℕ} (hc : isSafe c = true) :
    isBlank c = false ∧ c ≠ 35 ∧ c ≠ 92 ∧ isQuote c = false := by
  have hbound : c < 123 := by
    by_contra hge
    simp only [isSafe, Bool.or_eq_true, Bool.and_eq_true, decide_eq_true_eq, List.contains_eq_mem,
      List.mem_cons, List.not_mem_nil, or_false] at hc
    omega
  have hall : ∀ c < 123, isSafe c = true →
      isBlank c = false ∧ c ≠ 35 ∧ c ≠ 92 ∧ isQuote c = false := by decide
  exact hall c hbound hc

theorem lex_word {s : Text} (hs : s.all isSafe = true) (token : Text) (quoted : Bool)
    (rest : Text) : lex .word token quoted (s ++ rest) = lex .word (token ++ s) quoted rest := by
  induction s generalizing token with
  | nil => simp
  | cons c s ih =>
      rw [List.all_cons, Bool.and_eq_true] at hs
      rcases not_special hs.1 with ⟨hblank, hcomment, hescape, hquote⟩
      rw [List.cons_append, lex_word_cons]
      simp only [hblank, hquote, Bool.false_eq_true, if_false, hcomment, hescape]
      rw [ih hs.2, List.append_assoc]
      rfl

/-- A word ends with the blank behind it. -/
theorem lex_blank_end {c : ℕ} (hc : isBlank c = true) {token : Text} {quoted : Bool}
    (htoken : (token.isEmpty && !quoted) = false) (rest : Text) :
    lex .word token quoted (c :: rest) = (shlexSplit rest).map ([token] ++ ·) := by
  rw [lex_word_cons, if_pos hc]
  have hemit : emit token quoted = ([token] ++ ·) := by
    funext tokens
    rw [emit, htoken]
    rfl
  rw [hemit]
  rfl

theorem splits_safe {s : Text} (hs : s.all isSafe = true) (hne : s ≠ []) {c : ℕ}
    (hc : isBlank c = true) : Splits (s ++ [c]) [s] := by
  cases s with
  | nil => exact absurd rfl hne
  | cons a s =>
      intro rest
      rw [List.all_cons, Bool.and_eq_true] at hs
      rcases not_special hs.1 with ⟨hblank, hcomment, hescape, hquote⟩
      have hstart : shlexSplit (a :: s ++ [c] ++ rest) = lex .word [a] false (s ++ c :: rest) := by
        rw [List.append_assoc, List.cons_append, shlexSplit, lex_blank_cons]
        simp only [hblank, hquote, Bool.false_eq_true, if_false, hcomment, hescape]
        rfl
      rw [hstart, lex_word hs.2, lex_blank_end hc (by simp)]
      rfl

/-! ## Quoted words -/

/-- What `shlex.quote` puts for a character between its quotes. -/
def quoteChar (c : ℕ) : Text :=
  if c = 39 then [39, 34, 39, 34, 39] else [c]

theorem lex_quoteChar (c : ℕ) (token rest : Text) :
    lex (.quote 39) token true (quoteChar c ++ rest) = lex (.quote 39) (token ++ [c]) true rest := by
  unfold quoteChar
  split_ifs with hc
  -- Out of the quotes, a quoted quote, and in again.
  · subst hc
    simp [lex_quote_cons, lex_word_cons, isBlank, isQuote]
  · rw [List.singleton_append, lex_quote_cons, if_neg hc]
    simp

theorem lex_quoteChars (s token rest : Text) :
    lex (.quote 39) token true (s.flatMap quoteChar ++ rest) =
      lex (.quote 39) (token ++ s) true rest := by
  induction s generalizing token with
  | nil => simp
  | cons c s ih =>
      rw [List.flatMap_cons, List.append_assoc, lex_quoteChar, ih, List.append_assoc]
      rfl

/-- The first character between the quotes tells the tokenizer that the token is quoted. -/
theorem lex_quote_start (s rest : Text) :
    lex (.quote 39) [] false (s.flatMap quoteChar ++ 39 :: rest) = lex .word s true rest := by
  have hsame : ∀ (token : Text) (c : ℕ) (rest : Text),
      lex (.quote 39) token false (c :: rest) = lex (.quote 39) token true (c :: rest) := by
    intro token c rest
    rw [lex_quote_cons, lex_quote_cons]
  have hclose : ∀ token, lex (.quote 39) token true (39 :: rest) = lex .word token true rest := by
    intro token
    rw [lex_quote_cons, if_pos rfl]
  cases hs : s.flatMap quoteChar ++ 39 :: rest with
  | nil => simp at hs
  | cons c more =>
      rw [hsame, ← hs, lex_quoteChars, hclose]
      rfl

theorem shlexQuote_quoted {s : Text} (hne : s ≠ []) (hs : s.all isSafe = false) :
    shlexQuote s = 39 :: s.flatMap quoteChar ++ [39] := by
  have hempty : s.isEmpty = false := by simpa using hne
  unfold shlexQuote
  rw [hempty, hs]
  rfl

/-- What `shlex.quote` makes of a text is read as that text. -/
theorem splits_quote {s : Text} (hne : s ≠ []) {c : ℕ} (hc : isBlank c = true) :
    Splits (shlexQuote s ++ [c]) [s] := by
  cases hs : s.all isSafe with
  | true =>
      have hquote : shlexQuote s = s := by
        have hempty : s.isEmpty = false := by simpa using hne
        unfold shlexQuote
        rw [hempty, hs]
        rfl
      rw [hquote]
      exact splits_safe hs hne hc
  | false =>
      intro rest
      rw [shlexQuote_quoted hne hs]
      have hstart : shlexSplit (39 :: s.flatMap quoteChar ++ [39] ++ [c] ++ rest) =
          lex (.quote 39) [] false (s.flatMap quoteChar ++ 39 :: (c :: rest)) := by
        simp [shlexSplit, lex_blank_cons, isBlank, isQuote]
      rw [hstart, lex_quote_start, lex_blank_end hc (by simp)]

end Vncdotool
