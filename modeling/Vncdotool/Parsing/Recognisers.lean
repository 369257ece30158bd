import Mathlib.Logic.Basic
import Vncdotool.Streaming.Effects

/-!
# Recognisers — parsers of tokens and the phrases they read

A parser takes tokens from the front of a list, over a state of its own.  `Recognises p S` says
what it reads exactly: it returns `a` just where the tokens begin with a spelling of `a`, and it
takes that spelling.  `Raises p E` bounds the exceptions it ends with.  Both follow the parser's
own shape: there is one rule for each of the ways in which parsers are built.
-/

namespace Parsing

variable {ε σ τ α β : Type}

/-- A parser of tokens `τ` over a state `σ`. -/
abbrev Parser (ε σ τ α : Type) : Type :=
  EStateM ε (σ × List τ) α

/-- A language: `S a s spelling s'` when the spelling stands for `a`, taking the state `s` to `s'`. -/
abbrev Phrase (σ τ α : Type) : Type :=
  α → σ → List τ → σ → Prop

/-! ## Building parsers -/

/-- Take the next token; raise where there is none. -/
def next (missing : ε) : Parser ε σ τ τ
  | (s, []) => .error missing (s, [])
  | (s, token :: tokens) => .ok token (s, tokens)

/-- Return or raise what was computed. -/
def lift (x : Except ε α) : Parser ε σ τ α
  | input =>
      match x with
      | .ok a => .ok a input
      | .error exc => .error exc input

/-- Put tokens before those that are still to come. -/
def unread (tokens : List τ) : Parser ε σ τ Unit
  | (s, rest) => .ok () (s, tokens ++ rest)

/-- The parser's own state. -/
def getState : Parser ε σ τ σ
  | (s, tokens) => .ok s (s, tokens)

def setState (s : σ) : Parser ε σ τ Unit
  | (_, tokens) => .ok () (s, tokens)

/-! ## What they read -/

/-- `p` reads the spellings of `S`, and nothing else. -/
def Recognises (p : Parser ε σ τ α) (S : Phrase σ τ α) : Prop :=
  ∀ a s s' tokens rest,
    p (s, tokens) = .ok a (s', rest) ↔ ∃ spelling, tokens = spelling ++ rest ∧ S a s spelling s'

/-- A phrase without a token. -/
def silent (x : Except ε α) : Phrase σ τ α :=
  fun a s spelling s' => spelling = [] ∧ s' = s ∧ x = .ok a

/-- A phrase of one token. -/
def single (R : α → τ → Prop) : Phrase σ τ α :=
  fun a s spelling s' => s' = s ∧ ∃ token, spelling = [token] ∧ R a token

/-- A phrase and then another one. -/
def andThen (S : Phrase σ τ α) (T : α → Phrase σ τ β) : Phrase σ τ β :=
  fun b s spelling s' =>
    ∃ a before s₁ after, spelling = before ++ after ∧ S a s before s₁ ∧ T a b s₁ after s'

section Recognises

variable {p : Parser ε σ τ α} {S T : Phrase σ τ α}

theorem Recognises.congr (h : Recognises p S)
    (hsame : ∀ a s spelling s', S a s spelling s' ↔ T a s spelling s') : Recognises p T := by
  intro a s s' tokens rest
  rw [h a s s' tokens rest]
  apply exists_congr
  intro spelling
  rw [hsame]

theorem recognises_lift (x : Except ε α) : Recognises (lift x : Parser ε σ τ α) (silent x) := by
  intro a s s' tokens rest
  constructor
  · intro h
    cases x with
    | ok b =>
        cases h
        exact ⟨[], rfl, rfl, rfl, rfl⟩
    | error exc => cases h
  · rintro ⟨_, rfl, rfl, rfl, rfl⟩
    rfl

theorem recognises_pure (a : α) :
    Recognises (pure a : Parser ε σ τ α) (silent (.ok a : Except ε α)) :=
  recognises_lift (.ok a)

/-- What always raises reads nothing. -/
theorem recognises_throw (exc : ε) :
    Recognises (throw exc : Parser ε σ τ α) fun _ _ _ _ => False := by
  intro a s s' tokens rest
  constructor
  · intro h
    cases h
  · rintro ⟨_, _, hfalse⟩
    exact hfalse.elim

theorem recognises_next (missing : ε) :
    Recognises (next missing : Parser ε σ τ τ) (single Eq) := by
  intro a s s' tokens rest
  constructor
  · intro h
    cases tokens with
    | nil => cases h
    | cons token tokens =>
        cases h
        exact ⟨[a], rfl, rfl, a, rfl, rfl⟩
  · rintro ⟨_, rfl, rfl, _, rfl, rfl⟩
    rfl

/-- The rule for `do`: one phrase after the other. -/
theorem Recognises.bind {f : α → Parser ε σ τ β} {T : α → Phrase σ τ β} (h : Recognises p S)
    (hf : ∀ a, Recognises (f a) (T a)) : Recognises (p >>= f) (andThen S T) := by
  intro b s s' tokens rest
  constructor
  · intro hrun
    cases hp : p (s, tokens) with
    | error exc input =>
        rw [Streaming.run_bind_error hp] at hrun
        cases hrun
    | ok a input =>
        rcases input with ⟨s₁, tokens₁⟩
        rw [Streaming.run_bind_ok hp] at hrun
        rcases (h a s s₁ tokens tokens₁).1 hp with ⟨before, rfl, hbefore⟩
        rcases (hf a b s₁ s' tokens₁ rest).1 hrun with ⟨after, rfl, hafter⟩
        exact ⟨before ++ after, (List.append_assoc _ _ _).symm, a, before, s₁, after, rfl, hbefore,
          hafter⟩
  · rintro ⟨_, rfl, a, before, s₁, after, rfl, hbefore, hafter⟩
    have hp := (h a s s₁ (before ++ after ++ rest) (after ++ rest)).2
      ⟨before, List.append_assoc _ _ _, hbefore⟩
    rw [Streaming.run_bind_ok hp]
    exact (hf a b s₁ s' (after ++ rest) rest).2 ⟨after, rfl, hafter⟩

/-- A token that is read by a function. -/
theorem Recognises.token {R : α → τ → Prop} {f : τ → Parser ε σ τ α} {missing : ε}
    (hf : ∀ token, Recognises (f token) fun a s spelling s' => spelling = [] ∧ s' = s ∧ R a token) :
    Recognises (next missing >>= f) (single R) := by
  refine ((recognises_next missing).bind hf).congr ?_
  intro a s spelling s'
  constructor
  · rintro ⟨token, _, _, _, rfl, ⟨rfl, _, rfl, rfl⟩, rfl, rfl, hread⟩
    exact ⟨rfl, token, rfl, hread⟩
  · rintro ⟨rfl, token, rfl, hread⟩
    exact ⟨token, [token], s', [], rfl, ⟨rfl, token, rfl, rfl⟩, rfl, rfl, hread⟩

/-- The phrases whose first token is read on its own. -/
theorem andThen_single {R : α → τ → Prop} {T : α → Phrase σ τ β} {b : β} {s s' : σ}
    {spelling : List τ} :
    andThen (single R) T b s spelling s' ↔
      ∃ a token after, spelling = token :: after ∧ R a token ∧ T a b s after s' := by
  constructor
  · rintro ⟨a, _, _, after, rfl, ⟨rfl, token, rfl, hread⟩, hafter⟩
    exact ⟨a, token, after, rfl, hread, hafter⟩
  · rintro ⟨a, token, after, rfl, hread, hafter⟩
    exact ⟨a, [token], s, after, rfl, ⟨rfl, token, rfl, hread⟩, hafter⟩

end Recognises

/-! ## What they raise -/

/-- Every exception of `p` is one of `E`. -/
def Raises (p : Parser ε σ τ α) (E : ε → Prop) : Prop :=
  ∀ input exc input', p input = .error exc input' → E exc

section Raises

variable {p : Parser ε σ τ α} {E : ε → Prop}

theorem raises_pure (a : α) : Raises (pure a : Parser ε σ τ α) E := by
  intro input exc input' h
  cases h

theorem raises_lift {x : Except ε α} (hx : ∀ exc, x = .error exc → E exc) :
    Raises (lift x : Parser ε σ τ α) E := by
  intro input exc input' h
  cases x with
  | ok a => cases h
  | error exc' =>
      cases h
      exact hx _ rfl

theorem raises_throw {exc : ε} (h : E exc) : Raises (throw exc : Parser ε σ τ α) E := by
  intro input exc' input' hrun
  cases hrun
  exact h

theorem raises_next {missing : ε} (h : E missing) :
    Raises (next missing : Parser ε σ τ τ) E := by
  intro input exc input' hrun
  rcases input with ⟨s, tokens⟩
  cases tokens with
  | nil =>
      cases hrun
      exact h
  | cons token tokens => cases hrun

theorem Raises.bind {f : α → Parser ε σ τ β} (h : Raises p E) (hf : ∀ a, Raises (f a) E) :
    Raises (p >>= f) E := by
  intro input exc input' hrun
  cases hp : p input with
  | error exc' input₁ =>
      rw [Streaming.run_bind_error hp] at hrun
      cases hrun
      exact h input _ _ hp
  | ok a input₁ =>
      rw [Streaming.run_bind_ok hp] at hrun
      exact hf a input₁ _ _ hrun

/-- An exception that the first part does not raise comes from the second. -/
theorem Raises.second {f : α → Parser ε σ τ β} {input input' : σ × List τ} {exc : ε}
    (h : Raises p E) (hexc : ¬ E exc) (hrun : (p >>= f) input = .error exc input') :
    ∃ a input₁, p input = .ok a input₁ ∧ f a input₁ = .error exc input' := by
  cases hp : p input with
  | error exc' input₁ =>
      rw [Streaming.run_bind_error hp] at hrun
      cases hrun
      exact absurd (h input _ _ hp) hexc
  | ok a input₁ =>
      rw [Streaming.run_bind_ok hp] at hrun
      exact ⟨a, input₁, rfl, hrun⟩

/-- The same where the first part reads one token. -/
theorem Raises.second_single {f : α → Parser ε σ τ β} {R : α → τ → Prop} {s : σ} {tokens : List τ}
    {input' : σ × List τ} {exc : ε} (h : Raises p E) (hp : Recognises p (single R))
    (hexc : ¬ E exc) (hrun : (p >>= f) (s, tokens) = .error exc input') :
    ∃ a token rest, tokens = token :: rest ∧ R a token ∧ f a (s, rest) = .error exc input' := by
  rcases h.second hexc hrun with ⟨a, ⟨s₁, rest⟩, hfirst, hsecond⟩
  rcases (hp _ _ _ _ _).1 hfirst with ⟨_, rfl, rfl, token, rfl, hread⟩
  exact ⟨a, token, rest, rfl, hread, hsecond⟩

end Raises

/-! ## Phrases in a row -/

/-- A spelling that is the spellings of phrases one after the other. -/
inductive Phrases (S : Phrase σ τ α) : List α → σ → List τ → σ → Prop
  | nil (s : σ) : Phrases S [] s [] s
  | cons {a : α} {as : List α} {s s₁ s' : σ} {before after : List τ} :
      S a s before s₁ → Phrases S as s₁ after s' → Phrases S (a :: as) s (before ++ after) s'

theorem Phrases.map {S : Phrase σ τ α} {T : Phrase σ τ β} {f : α → β}
    (hsame : ∀ a s spelling s', S a s spelling s' → T (f a) s spelling s') {as : List α} {s s' : σ}
    {spelling : List τ} (h : Phrases S as s spelling s') :
    Phrases T (as.map f) s spelling s' := by
  induction h with
  | nil s => exact Phrases.nil s
  | cons hfirst _ ih => exact Phrases.cons (hsame _ _ _ _ hfirst) ih

end Parsing
