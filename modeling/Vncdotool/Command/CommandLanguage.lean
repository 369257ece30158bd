import Mathlib.Algebra.Field.Rat
import Vncdotool.Command.CommandGrammar
import Vncdotool.Command.CommandList

/-!
# CommandLanguage — the loop of `build_command_list` reads the grammar

Every branch of the loop is a parser that recognises its own phrases, so a turn takes just what the
grammar has for a command, or a piece of `drag`; and of the exceptions that a turn can end in, the
one for a bad command comes from just what is refused.  By induction on the commands, and for the
other direction on the turns, the loop comes to the same for all of the words.
-/

namespace Vncdotool

open Parsing

namespace CommandLine

variable {F : Type}

/-! ## The arguments -/

section Arguments

variable {host : Host F} {closed closed' : Bool} {words : List Text}

theorem recognises_pop : Recognises pop (single Eq : Phrase Bool Text Text) :=
  recognises_next _

theorem recognises_converted {α : Type} (read : Text → Option α) :
    Recognises (pop >>= fun word => converted (read word))
      (single fun a word => read word = some a : Phrase Bool Text α) := by
  apply Recognises.token
  intro word
  cases hword : read word with
  | none =>
      apply (recognises_throw _).congr
      intro a s spelling s'
      constructor
      · intro hfalse
        exact hfalse.elim
      · rintro ⟨_, _, hnone⟩
        cases hnone
  | some a =>
      apply (recognises_pure a).congr
      intro b s spelling s'
      constructor
      · rintro ⟨hspelling, hs, hab⟩
        exact ⟨hspelling, hs, congrArg some (Except.ok.inj hab)⟩
      · rintro ⟨hspelling, hs, hab⟩
        exact ⟨hspelling, hs, congrArg Except.ok (Option.some.inj hab)⟩

theorem recognises_popInt :
    Recognises (popInt host) (single fun x word => host.int word = some x) :=
  recognises_converted host.int

theorem recognises_popFloat :
    Recognises (popFloat host) (single fun x word => host.float word = some x) :=
  recognises_converted host.float

/-- The content of a file, whose name is a word. -/
theorem recognises_popContent :
    Recognises (popContent host) fun t closed words closed' =>
      ∃ filename, words = [filename] ∧ content host closed filename = .ok t ∧
        closed' = closedBehind closed filename := by
  intro t closed closed' words rest
  cases words with
  | nil =>
      constructor
      · intro h
        cases h
      · rintro ⟨_, happend, filename, rfl, _⟩
        cases happend
  | cons filename words =>
      have hrun : popContent host (closed, filename :: words) =
          (lift (content host closed filename) >>= fun t => do
            setState (closedBehind closed filename)
            return t : WordParser Text) (closed, words) := rfl
      rw [hrun]
      cases hcontent : content host closed filename with
      | error exc =>
          constructor
          · intro h
            cases h
          · rintro ⟨_, happend, filename', rfl, hread, _⟩
            cases happend
            rw [hcontent] at hread
            cases hread
      | ok t' =>
          constructor
          · intro h
            cases h
            exact ⟨[filename], rfl, filename, rfl, hcontent, rfl⟩
          · rintro ⟨_, happend, filename', rfl, hread, rfl⟩
            cases happend
            rw [hcontent] at hread
            cases hread
            rfl

end Arguments

/-! ## The branches -/

section Branches

variable {host : Host F}

/-- A command of one word. -/
theorem recognises_word (f : Text → List (ClientCall F)) :
    Recognises (pop >>= fun word => pure (f word)) fun calls closed words closed' =>
      ∃ a, words = [a] ∧ closed' = closed ∧ f a = calls := by
  apply (recognises_pop.bind fun word => recognises_pure (f word)).congr
  intro calls closed words closed'
  simp [andThen_single, silent]

/-- A command of one number. -/
theorem recognises_int (f : ℤ → List (ClientCall F)) :
    Recognises (popInt host >>= fun x => pure (f x)) fun calls closed words closed' =>
      ∃ x a, words = [a] ∧ host.int a = some x ∧ closed' = closed ∧ f x = calls := by
  apply (recognises_popInt.bind fun x => recognises_pure (f x)).congr
  intro calls closed words closed'
  simp [andThen_single, silent]

/-- A command of two numbers. -/
theorem recognises_ints (f : ℤ → ℤ → List (ClientCall F)) :
    Recognises (popInt host >>= fun x => popInt host >>= fun y => pure (f x y))
      fun calls closed words closed' =>
        ∃ x a y b, words = [a, b] ∧ host.int a = some x ∧ host.int b = some y ∧
          closed' = closed ∧ f x y = calls := by
  apply (recognises_popInt.bind fun x => recognises_popInt.bind fun y =>
    recognises_pure (f x y)).congr
  intro calls closed words closed'
  simp [andThen_single, silent]

/-- A command of a file that is read. -/
theorem recognises_content (f : Text → List (ClientCall F)) :
    Recognises (popContent host >>= fun t => pure (f t)) fun calls closed words closed' =>
      ∃ t filename, words = [filename] ∧ content host closed filename = .ok t ∧
        closed' = closedBehind closed filename ∧ f t = calls := by
  apply (recognises_popContent.bind fun t => recognises_pure (f t)).congr
  intro calls closed words closed'
  constructor
  · rintro ⟨t, _, _, _, rfl, ⟨filename, rfl, hread, rfl⟩, rfl, rfl, hcalls⟩
    exact ⟨t, filename, rfl, hread, rfl, Except.ok.inj hcalls⟩
  · rintro ⟨t, filename, rfl, hread, rfl, hcalls⟩
    exact ⟨t, [filename], _, [], rfl, ⟨filename, rfl, hread, rfl⟩, rfl, rfl,
      congrArg Except.ok hcalls⟩

theorem recognises_expect :
    Recognises (pop >>= fun filename => popFloat host >>= fun rms =>
      pure [ClientCall.expectScreen filename rms]) fun calls closed words closed' =>
        ∃ filename rms a, words = [filename, a] ∧ host.float a = some rms ∧ closed' = closed ∧
          [ClientCall.expectScreen filename rms] = calls := by
  apply (recognises_pop.bind fun filename => recognises_popFloat.bind fun rms =>
    recognises_pure [ClientCall.expectScreen filename rms]).congr
  intro calls closed words closed'
  simp [andThen_single, silent]

theorem recognises_rexpect :
    Recognises (pop >>= fun filename => popInt host >>= fun x => popInt host >>= fun y =>
      popFloat host >>= fun rms => pure [ClientCall.expectRegion filename x y rms])
      fun calls closed words closed' =>
        ∃ filename x a y b rms c, words = [filename, a, b, c] ∧ host.int a = some x ∧
          host.int b = some y ∧ host.float c = some rms ∧ closed' = closed ∧
          [ClientCall.expectRegion filename x y rms] = calls := by
  apply (recognises_pop.bind fun filename => recognises_popInt.bind fun x =>
    recognises_popInt.bind fun y => recognises_popFloat.bind fun rms =>
      recognises_pure [ClientCall.expectRegion filename x y rms]).congr
  intro calls closed words closed'
  simp [andThen_single, silent]

/-- A picture's format is checked without a word being taken. -/
theorem recognises_check {P : Prop} [Decidable P] (exc : BuildException)
    {p : WordParser (List (ClientCall F))} {S : Phrase Bool Text (List (ClientCall F))}
    (h : Recognises p S) :
    Recognises ((if P then pure () else throw exc) >>= fun _ => p)
      fun calls closed words closed' => P ∧ S calls closed words closed' := by
  by_cases hP : P
  · rw [if_pos hP]
    apply h.congr
    intro calls closed words closed'
    exact (and_iff_right hP).symm
  · rw [if_neg hP]
    apply (recognises_throw exc).congr
    intro calls closed words closed'
    exact ⟨fun hfalse => hfalse.elim, fun hboth => hP hboth.1⟩

theorem recognises_capture (incremental : ℕ) :
    Recognises (pop >>= fun filename => checkFormat filename >>= fun _ =>
      pure [(ClientCall.captureScreen filename incremental : ClientCall F)])
      fun calls closed words closed' =>
        ∃ filename, words = [filename] ∧ Picture filename ∧ closed' = closed ∧
          [ClientCall.captureScreen filename incremental] = calls := by
  apply (recognises_pop.bind fun filename => recognises_check _
    (recognises_pure [ClientCall.captureScreen filename incremental])).congr
  intro calls closed words closed'
  simp [andThen_single, silent, Picture]

theorem recognises_rcapture :
    Recognises (pop >>= fun filename => popInt host >>= fun x => popInt host >>= fun y =>
      popInt host >>= fun w => popInt host >>= fun h => checkFormat filename >>= fun _ =>
        pure [(ClientCall.captureRegion filename x y w h : ClientCall F)])
      fun calls closed words closed' =>
        ∃ filename x a y b w c h d, words = [filename, a, b, c, d] ∧ host.int a = some x ∧
          host.int b = some y ∧ host.int c = some w ∧ host.int d = some h ∧ Picture filename ∧
          closed' = closed ∧ [ClientCall.captureRegion filename x y w h] = calls := by
  apply (recognises_pop.bind fun filename => recognises_popInt.bind fun x =>
    recognises_popInt.bind fun y => recognises_popInt.bind fun w => recognises_popInt.bind fun h =>
      recognises_check _ (recognises_pure [ClientCall.captureRegion filename x y w h])).congr
  intro calls closed words closed'
  simp [andThen_single, silent, Picture]

section Pause

variable [Zero F] [Div F] [DecidableEq F] {options : Options F}

theorem recognises_pause (hwarp : options.warp ≠ 0) :
    Recognises (popFloat host >>= fun seconds => quotient seconds options.warp >>= fun duration =>
      pure [ClientCall.pause duration]) fun calls closed words closed' =>
        ∃ seconds a, words = [a] ∧ host.float a = some seconds ∧ closed' = closed ∧
          [ClientCall.pause (seconds / options.warp)] = calls := by
  have hquotient (seconds : F) :
      quotient seconds options.warp = pure (seconds / options.warp) := if_neg hwarp
  simp only [hquotient, pure_bind]
  apply (recognises_popFloat.bind fun seconds =>
    recognises_pure [ClientCall.pause (seconds / options.warp)]).congr
  intro calls closed words closed'
  simp [andThen_single, silent]

end Pause

end Branches

/-! ## Exceptions -/

section Exceptions

variable {host : Host F} {closed : Bool} {rest : List Text} {calls : List (ClientCall F)}

/-- An exception other than that of a bad command. -/
def Unforeseen (exc : BuildException) : Prop :=
  ∀ reason, exc ≠ .commandParseError reason

theorem raises_pop : Raises pop Unforeseen := by
  apply raises_next
  intro reason h
  cases h

theorem raises_converted {α : Type} (read : Text → Option α) :
    Raises (pop >>= fun word => converted (read word)) Unforeseen := by
  apply raises_pop.bind
  intro word
  cases hword : read word with
  | none =>
      apply raises_throw
      intro reason h
      cases h
  | some a => exact raises_pure a

theorem raises_popInt : Raises (popInt host) Unforeseen :=
  raises_converted host.int

theorem raises_popFloat : Raises (popFloat host) Unforeseen :=
  raises_converted host.float

theorem unforeseen_content {filename : Text} {exc : BuildException}
    (h : content host closed filename = .error exc) : Unforeseen exc := by
  intro reason hexc
  rw [hexc] at h
  unfold content at h
  split_ifs at h with hname
  · cases hread : host.read filename with
    | ok t =>
        rw [hread] at h
        cases h
    | error exc' =>
        rw [hread] at h
        cases h
  · cases h
  · cases hstdin : host.stdin with
    | ok t =>
        rw [hstdin] at h
        cases h
    | error exc' =>
        rw [hstdin] at h
        cases h

theorem raises_popContent : Raises (popContent host) Unforeseen := by
  apply raises_pop.bind
  intro filename input exc input' h
  rcases input with ⟨closed, rest⟩
  have hread : Raises (lift (content host closed filename) >>= fun t => do
      setState (closedBehind closed filename)
      return t : WordParser Text) Unforeseen := by
    apply (raises_lift fun exc hexc => unforeseen_content hexc).bind
    intro t input exc input' h
    cases h
  exact hread _ _ _ h

theorem raises_quotient [Zero F] [Div F] [DecidableEq F] (a b : F) :
    Raises (quotient a b) Unforeseen := by
  unfold quotient
  split_ifs
  · apply raises_throw
    intro reason h
    cases h
  · exact raises_pure _

/-- The check of a picture's format fails for what is no picture. -/
theorem not_picture_of_error {exc : BuildException} {filename : Text}
    {input input' : Bool × List Text}
    (h : (checkFormat filename >>= fun _ => (pure calls : WordParser (List (ClientCall F)))) input =
      .error exc input') : ¬ Picture filename := by
  intro hpicture
  have hcheck : checkFormat filename = pure () := if_pos hpicture
  rw [hcheck] at h
  cases h

/-- A word is taken, whatever it is. -/
theorem pop_cons (a : Text) : pop (closed, a :: rest) = .ok a (closed, rest) := rfl

theorem popInt_cons {x : ℤ} {a : Text} (h : host.int a = some x) :
    popInt host (closed, a :: rest) = .ok x (closed, rest) :=
  (recognises_popInt _ _ _ _ _).2 ⟨[a], rfl, rfl, a, rfl, h⟩

theorem checkFormat_error {filename : Text} (h : ¬ Picture filename) (input : Bool × List Text) :
    checkFormat filename input =
      .error (.commandParseError (.unsupportedFormat (imageFormat filename))) input := by
  have hcheck : checkFormat filename =
      throw (.commandParseError (.unsupportedFormat (imageFormat filename))) := if_neg h
  rw [hcheck]
  rfl

end Exceptions

/-! ## One turn -/

section Turn

variable [Zero F] [NatCast F] [Div F] [DecidableEq F] {host : Host F} {options : Options F}
  {cmd : Text} {closed closed' : Bool} {words args rest : List Text}
  {calls : List (ClientCall F)} {instruction : Instruction F}

/-- A word that no other branch asks for comes to the last three. -/
theorem parseCommand_other (h : ∀ other ∈ commandWords.dropLast, cmd ≠ other) :
    parseCommand host options cmd =
      if cmd <:+: text "drag" then
        popInt host >>= fun x => popInt host >>= fun y => pure [.mouseDrag x y]
      else if host.isfile cmd then do
        let script ← lift ((host.read cmd).mapError .file)
        let words ← lift ((shlexSplit script).mapError .python)
        unread words
        return []
      else
        throw (.commandParseError (.unknownCmd cmd)) := by
  have htwo {a b : Text} (ha : a ∈ commandWords.dropLast) (hb : b ∈ commandWords.dropLast) :
      ¬ (cmd = a ∨ cmd = b) := fun hab => hab.elim (h a ha) (h b hb)
  unfold parseCommand
  rw [if_neg (h _ (by decide)), if_neg (htwo (by decide) (by decide)),
    if_neg (htwo (by decide) (by decide)), if_neg (htwo (by decide) (by decide)),
    if_neg (h _ (by decide)), if_neg (htwo (by decide) (by decide)),
    if_neg (htwo (by decide) (by decide)), if_neg (h _ (by decide)), if_neg (h _ (by decide)),
    if_neg (h _ (by decide)), if_neg (h _ (by decide)), if_neg (h _ (by decide)),
    if_neg (h _ (by decide)), if_neg (h _ (by decide)), if_neg (htwo (by decide) (by decide))]

/-- None of them is a piece of `drag`. -/
theorem ne_of_piece (h : cmd <:+: text "drag") : ∀ other ∈ commandWords.dropLast, cmd ≠ other := by
  have hall : ∀ other ∈ commandWords.dropLast, ¬ other <:+: text "drag" := by decide
  intro other hother heq
  exact hall other hother (heq ▸ h)

/-- The turn of a word whose branch is known. -/
theorem parses {p : WordParser (List (ClientCall F))} {S : Phrase Bool Text (List (ClientCall F))}
    (hbranch : parseCommand host options cmd = p) (h : Recognises p S)
    (hphrase : S calls closed args closed') (rest : List Text) :
    parseCommand host options cmd (closed, args ++ rest) = .ok calls (closed', rest) := by
  rw [hbranch]
  exact (h _ _ _ _ _).2 ⟨args, rfl, hphrase⟩

/-- A command is read as its calls, whatever follows. -/
theorem Written.parses (h : Written host instruction closed words closed')
    (hwarp : options.warp ≠ 0) :
    ∃ cmd args, words = cmd :: args ∧ ∀ rest,
      parseCommand host options cmd (closed, args ++ rest) =
        .ok (instruction.calls options) (closed', rest) := by
  -- For each command: the branch of the parser that its word selects recognises the arguments, and
  -- leaves what is behind them.
  cases h with
  | key _ k =>
      refine ⟨_, _, rfl, CommandLine.parses rfl (recognises_word fun k => [.keyPress k]) ?_⟩
      exact ⟨k, rfl, rfl, rfl⟩
  | @keydown _ word k hword =>
      have hbranch : parseCommand host options word =
          pop >>= fun k => pure [ClientCall.keyDown k] := by
        rcases hword with rfl | rfl <;> rfl
      refine ⟨_, _, rfl, CommandLine.parses hbranch (recognises_word _) ?_⟩
      exact ⟨k, rfl, rfl, rfl⟩
  | @keyup _ word k hword =>
      have hbranch : parseCommand host options word =
          pop >>= fun k => pure [ClientCall.keyUp k] := by
        rcases hword with rfl | rfl <;> rfl
      refine ⟨_, _, rfl, CommandLine.parses hbranch (recognises_word _) ?_⟩
      exact ⟨k, rfl, rfl, rfl⟩
  | @move _ word a b x y hword hx hy =>
      have hbranch : parseCommand host options word =
          popInt host >>= fun x => popInt host >>= fun y => pure [.mouseMove x y] := by
        rcases hword with rfl | rfl <;> rfl
      refine ⟨_, _, rfl, CommandLine.parses hbranch (recognises_ints _) ?_⟩
      exact ⟨x, a, y, b, rfl, hx, hy, rfl, rfl⟩
  | @click _ a button hbutton =>
      refine ⟨_, _, rfl, CommandLine.parses rfl (recognises_int fun n => [.mousePress n]) ?_⟩
      exact ⟨button, a, rfl, hbutton, rfl, rfl⟩
  | @mousedown _ word a button hword hbutton =>
      have hbranch : parseCommand host options word =
          popInt host >>= fun n => pure [.mouseDown n] := by
        rcases hword with rfl | rfl <;> rfl
      refine ⟨_, _, rfl, CommandLine.parses hbranch (recognises_int _) ?_⟩
      exact ⟨button, a, rfl, hbutton, rfl, rfl⟩
  | @mouseup _ word a button hword hbutton =>
      have hbranch : parseCommand host options word =
          popInt host >>= fun n => pure [.mouseUp n] := by
        rcases hword with rfl | rfl <;> rfl
      refine ⟨_, _, rfl, CommandLine.parses hbranch (recognises_int _) ?_⟩
      exact ⟨button, a, rfl, hbutton, rfl, rfl⟩
  | type _ t =>
      refine ⟨_, _, rfl, CommandLine.parses rfl
        (recognises_word fun t => typing options (t.map typedKey)) ?_⟩
      exact ⟨t, rfl, rfl, rfl⟩
  | @typefile _ filename t hread =>
      have hbranch : parseCommand host options (text "typefile") = popContent host >>= fun t =>
          pure (typing options ((t.filter (· ≠ 13)).map typedFileKey)) := rfl
      refine ⟨_, _, rfl, CommandLine.parses hbranch (recognises_content _) ?_⟩
      exact ⟨t, filename, rfl, hread, rfl, rfl⟩
  | @pastefile _ filename t hread =>
      refine ⟨_, _, rfl, CommandLine.parses rfl
        (recognises_content fun t => [.paste (replaceCRLF t)]) ?_⟩
      exact ⟨t, filename, rfl, hread, rfl, rfl⟩
  | @capture _ filename hpicture =>
      refine ⟨_, _, rfl, CommandLine.parses rfl (recognises_capture _) ?_⟩
      exact ⟨filename, rfl, hpicture, rfl, rfl⟩
  | @expect _ filename a fuzz hfuzz =>
      refine ⟨_, _, rfl, CommandLine.parses rfl recognises_expect ?_⟩
      exact ⟨filename, fuzz, a, rfl, hfuzz, rfl, rfl⟩
  | @rcapture _ filename a b c d x y w h hx hy hw hh hpicture =>
      refine ⟨_, _, rfl, CommandLine.parses rfl recognises_rcapture ?_⟩
      exact ⟨filename, x, a, y, b, w, c, h, d, rfl, hx, hy, hw, hh, hpicture, rfl, rfl⟩
  | @rexpect _ filename a b c x y fuzz hx hy hfuzz =>
      refine ⟨_, _, rfl, CommandLine.parses rfl recognises_rexpect ?_⟩
      exact ⟨filename, x, a, y, b, fuzz, c, rfl, hx, hy, hfuzz, rfl, rfl⟩
  | @pause _ word a seconds hword hseconds =>
      have hbranch : parseCommand host options word = popFloat host >>= fun seconds =>
          quotient seconds options.warp >>= fun duration => pure [.pause duration] := by
        rcases hword with rfl | rfl <;> rfl
      refine ⟨_, _, rfl, CommandLine.parses hbranch (recognises_pause hwarp) ?_⟩
      exact ⟨seconds, a, rfl, hseconds, rfl, rfl⟩
  | @drag _ a b x y hx hy =>
      refine ⟨_, _, rfl, CommandLine.parses rfl (recognises_ints fun x y => [.mouseDrag x y]) ?_⟩
      exact ⟨x, a, y, b, rfl, hx, hy, rfl, rfl⟩

/-- A piece of `drag` is read as `drag` is. -/
theorem Taken.parses (h : Taken host instruction closed words closed') (hwarp : options.warp ≠ 0) :
    ∃ cmd args, words = cmd :: args ∧ ∀ rest,
      parseCommand host options cmd (closed, args ++ rest) =
        .ok (instruction.calls options) (closed', rest) := by
  cases h with
  | written h => exact h.parses hwarp
  | @piece _ _ x y h =>
      rcases h with ⟨word, a, b, hpiece, hx, hy, rfl⟩
      have hbranch : parseCommand host options word =
          popInt host >>= fun x => popInt host >>= fun y => pure [.mouseDrag x y] :=
        (parseCommand_other (ne_of_piece hpiece)).trans (if_pos hpiece)
      refine ⟨word, [a, b], rfl, CommandLine.parses hbranch (recognises_ints _) ?_⟩
      exact ⟨x, a, y, b, rfl, hx, hy, rfl, rfl⟩

/-- The branches of the loop, apart from that of a script: the words they are for and what they do. -/
inductive Branch (host : Host F) (options : Options F) :
    Text → WordParser (List (ClientCall F)) → Prop
  | key : Branch host options (text "key") (pop >>= fun k => pure [.keyPress k])
  | keydown {word : Text} : word = text "kdown" ∨ word = text "keydown" →
      Branch host options word (pop >>= fun k => pure [.keyDown k])
  | keyup {word : Text} : word = text "kup" ∨ word = text "keyup" →
      Branch host options word (pop >>= fun k => pure [.keyUp k])
  | move {word : Text} : word = text "move" ∨ word = text "mousemove" →
      Branch host options word
        (popInt host >>= fun x => popInt host >>= fun y => pure [.mouseMove x y])
  | click : Branch host options (text "click") (popInt host >>= fun n => pure [.mousePress n])
  | mousedown {word : Text} : word = text "mdown" ∨ word = text "mousedown" →
      Branch host options word (popInt host >>= fun n => pure [.mouseDown n])
  | mouseup {word : Text} : word = text "mup" ∨ word = text "mouseup" →
      Branch host options word (popInt host >>= fun n => pure [.mouseUp n])
  | type : Branch host options (text "type")
      (pop >>= fun t => pure (typing options (t.map typedKey)))
  | typefile : Branch host options (text "typefile")
      (popContent host >>= fun t =>
        pure (typing options ((t.filter (· ≠ 13)).map typedFileKey)))
  | pastefile : Branch host options (text "pastefile")
      (popContent host >>= fun t => pure [.paste (replaceCRLF t)])
  | capture : Branch host options (text "capture")
      (pop >>= fun filename => checkFormat filename >>= fun _ =>
        pure [.captureScreen filename options.incrementalRefreshes.toNat])
  | expect : Branch host options (text "expect")
      (pop >>= fun filename => popFloat host >>= fun rms => pure [.expectScreen filename rms])
  | rcapture : Branch host options (text "rcapture")
      (pop >>= fun filename => popInt host >>= fun x => popInt host >>= fun y =>
        popInt host >>= fun w => popInt host >>= fun h => checkFormat filename >>= fun _ =>
          pure [.captureRegion filename x y w h])
  | rexpect : Branch host options (text "rexpect")
      (pop >>= fun filename => popInt host >>= fun x => popInt host >>= fun y =>
        popFloat host >>= fun rms => pure [.expectRegion filename x y rms])
  | pause {word : Text} : word = text "pause" ∨ word = text "sleep" →
      Branch host options word
        (popFloat host >>= fun seconds => quotient seconds options.warp >>= fun duration =>
          pure [.pause duration])
  | drag {word : Text} : word <:+: text "drag" →
      Branch host options word
        (popInt host >>= fun x => popInt host >>= fun y => pure [.mouseDrag x y])
  | unknown {word : Text} : word ∉ commandWords → ¬ word <:+: text "drag" →
      Branch host options word (throw (.commandParseError (.unknownCmd word)))

/-- A word that names no file has one of these branches. -/
theorem parseCommand_branch (hfile : host.isfile cmd = false) :
    Branch host options cmd (parseCommand host options cmd) := by
  by_cases hcommand : cmd ∈ commandWords.dropLast
  · have hwords : commandWords.dropLast = [text "key", text "kdown", text "keydown", text "kup",
        text "keyup", text "move", text "mousemove", text "click", text "mdown", text "mousedown",
        text "mup", text "mouseup", text "type", text "typefile", text "pastefile", text "capture",
        text "expect", text "rcapture", text "rexpect", text "pause", text "sleep"] := rfl
    rw [hwords] at hcommand
    simp only [List.mem_cons, List.not_mem_nil, or_false] at hcommand
    rcases hcommand with rfl | rfl | rfl | rfl | rfl | rfl | rfl | rfl | rfl | rfl | rfl | rfl |
      rfl | rfl | rfl | rfl | rfl | rfl | rfl | rfl | rfl
    · exact .key
    · exact .keydown (.inl rfl)
    · exact .keydown (.inr rfl)
    · exact .keyup (.inl rfl)
    · exact .keyup (.inr rfl)
    · exact .move (.inl rfl)
    · exact .move (.inr rfl)
    · exact .click
    · exact .mousedown (.inl rfl)
    · exact .mousedown (.inr rfl)
    · exact .mouseup (.inl rfl)
    · exact .mouseup (.inr rfl)
    · exact .type
    · exact .typefile
    · exact .pastefile
    · exact .capture
    · exact .expect
    · exact .rcapture
    · exact .rexpect
    · exact .pause (.inl rfl)
    · exact .pause (.inr rfl)
  · have hne : ∀ other ∈ commandWords.dropLast, cmd ≠ other := by
      intro other hother heq
      exact hcommand (heq ▸ hother)
    rw [parseCommand_other hne]
    by_cases hpiece : cmd <:+: text "drag"
    · rw [if_pos hpiece]
      exact .drag hpiece
    · have hunknown : cmd ∉ commandWords := by
        intro hmem
        have hlast : commandWords = commandWords.dropLast ++ [text "drag"] := rfl
        rw [hlast, List.mem_append, List.mem_singleton] at hmem
        rcases hmem with hmem | rfl
        · exact hcommand hmem
        · exact hpiece (List.infix_refl _)
      rw [if_neg hpiece, if_neg (by rw [hfile]; exact Bool.false_ne_true)]
      exact .unknown hunknown hpiece

/-- What a turn takes from the front of the words. -/
def Takes (host : Host F) (options : Options F) (calls : List (ClientCall F)) (closed : Bool)
    (words : List Text) (closed' : Bool) (rest : List Text) : Prop :=
  ∃ instruction spelling, words = spelling ++ rest ∧
    Taken host instruction closed spelling closed' ∧ calls = instruction.calls options

theorem Written.takes (h : Written host instruction closed words closed') (rest : List Text) :
    Takes host options (instruction.calls options) closed (words ++ rest) closed' rest :=
  ⟨instruction, words, rfl, .written h, rfl⟩

/-- A turn that returns has taken a command, or a piece of `drag`. -/
theorem takes_of_parses (hfile : host.isfile cmd = false) (hwarp : options.warp ≠ 0)
    (h : parseCommand host options cmd (closed, args) = .ok calls (closed', rest)) :
    Takes host options calls closed (cmd :: args) closed' rest := by
  have hbranch := @parseCommand_branch _ _ _ _ _ host options cmd hfile
  generalize parseCommand host options cmd = p at h hbranch
  cases hbranch with
  | key =>
      rcases (recognises_word _ _ _ _ _ _).1 h with ⟨_, rfl, k, rfl, rfl, rfl⟩
      exact (Written.key _ k).takes rest
  | keydown hword =>
      rcases (recognises_word _ _ _ _ _ _).1 h with ⟨_, rfl, k, rfl, rfl, rfl⟩
      exact (Written.keydown _ k hword).takes rest
  | keyup hword =>
      rcases (recognises_word _ _ _ _ _ _).1 h with ⟨_, rfl, k, rfl, rfl, rfl⟩
      exact (Written.keyup _ k hword).takes rest
  | move hword =>
      rcases (recognises_ints _ _ _ _ _ _).1 h with ⟨_, rfl, x, a, y, b, rfl, hx, hy, rfl, rfl⟩
      exact (Written.move _ hword hx hy).takes rest
  | click =>
      rcases (recognises_int _ _ _ _ _ _).1 h with ⟨_, rfl, n, a, rfl, hn, rfl, rfl⟩
      exact (Written.click _ hn).takes rest
  | mousedown hword =>
      rcases (recognises_int _ _ _ _ _ _).1 h with ⟨_, rfl, n, a, rfl, hn, rfl, rfl⟩
      exact (Written.mousedown _ hword hn).takes rest
  | mouseup hword =>
      rcases (recognises_int _ _ _ _ _ _).1 h with ⟨_, rfl, n, a, rfl, hn, rfl, rfl⟩
      exact (Written.mouseup _ hword hn).takes rest
  | type =>
      rcases (recognises_word _ _ _ _ _ _).1 h with ⟨_, rfl, t, rfl, rfl, rfl⟩
      exact (Written.type _ t).takes rest
  | typefile =>
      rcases (recognises_content _ _ _ _ _ _).1 h with ⟨_, rfl, t, filename, rfl, hread, rfl, rfl⟩
      exact (Written.typefile _ hread).takes rest
  | pastefile =>
      rcases (recognises_content _ _ _ _ _ _).1 h with ⟨_, rfl, t, filename, rfl, hread, rfl, rfl⟩
      exact (Written.pastefile _ hread).takes rest
  | capture =>
      rcases (recognises_capture _ _ _ _ _ _).1 h with ⟨_, rfl, filename, rfl, hpicture, rfl, rfl⟩
      exact (Written.capture _ hpicture).takes rest
  | expect =>
      rcases (recognises_expect _ _ _ _ _).1 h with
        ⟨_, rfl, filename, fuzz, a, rfl, hfuzz, rfl, rfl⟩
      exact (Written.expect _ filename hfuzz).takes rest
  | rcapture =>
      rcases (recognises_rcapture _ _ _ _ _).1 h with
        ⟨_, rfl, filename, x, a, y, b, w, c, v, d, rfl, hx, hy, hw, hv, hpicture, rfl, rfl⟩
      exact (Written.rcapture _ hx hy hw hv hpicture).takes rest
  | rexpect =>
      rcases (recognises_rexpect _ _ _ _ _).1 h with
        ⟨_, rfl, filename, x, a, y, b, fuzz, c, rfl, hx, hy, hfuzz, rfl, rfl⟩
      exact (Written.rexpect _ filename hx hy hfuzz).takes rest
  | pause hword =>
      rcases (recognises_pause hwarp _ _ _ _ _).1 h with
        ⟨_, rfl, seconds, a, rfl, hseconds, rfl, rfl⟩
      exact (Written.pause _ hword hseconds).takes rest
  | drag hpiece =>
      rcases (recognises_ints _ _ _ _ _ _).1 h with ⟨_, rfl, x, a, y, b, rfl, hx, hy, rfl, rfl⟩
      exact ⟨.drag x y, [cmd, a, b], rfl, .piece ⟨cmd, a, b, hpiece, hx, hy, rfl⟩, rfl⟩
  | unknown => cases h

/-! ## Refusals -/

/-- The exception of a bad command comes from what is refused. -/
theorem refused_of_error {reason : ParseFailure} {input : Bool × List Text}
    (hfile : host.isfile cmd = false)
    (h : parseCommand host options cmd (closed, args) =
      .error (.commandParseError reason) input) : Refused host (cmd :: args) := by
  -- Most branches never raise it.
  have hnone {p : WordParser (List (ClientCall F))} (hp : Raises p Unforeseen)
      (hrun : p (closed, args) = .error (.commandParseError reason) input) : False :=
    hp _ _ _ hrun reason rfl
  have hbad : ¬ Unforeseen (.commandParseError reason) := fun hall => hall reason rfl
  have hbranch := @parseCommand_branch _ _ _ _ _ host options cmd hfile
  generalize parseCommand host options cmd = p at h hbranch
  cases hbranch with
  | key => exact (hnone (raises_pop.bind fun _ => raises_pure _) h).elim
  | keydown => exact (hnone (raises_pop.bind fun _ => raises_pure _) h).elim
  | keyup => exact (hnone (raises_pop.bind fun _ => raises_pure _) h).elim
  | move =>
      exact (hnone (raises_popInt.bind fun _ => raises_popInt.bind fun _ => raises_pure _) h).elim
  | click => exact (hnone (raises_popInt.bind fun _ => raises_pure _) h).elim
  | mousedown => exact (hnone (raises_popInt.bind fun _ => raises_pure _) h).elim
  | mouseup => exact (hnone (raises_popInt.bind fun _ => raises_pure _) h).elim
  | type => exact (hnone (raises_pop.bind fun _ => raises_pure _) h).elim
  | typefile => exact (hnone (raises_popContent.bind fun _ => raises_pure _) h).elim
  | pastefile => exact (hnone (raises_popContent.bind fun _ => raises_pure _) h).elim
  | capture =>
      rcases raises_pop.second_single recognises_pop hbad h with ⟨filename, _, rest, rfl, rfl, h⟩
      exact .capture (not_picture_of_error h)
  | expect =>
      exact (hnone (raises_pop.bind fun _ => raises_popFloat.bind fun _ => raises_pure _) h).elim
  | rcapture =>
      rcases raises_pop.second_single recognises_pop hbad h with ⟨filename, _, rest, rfl, rfl, h⟩
      rcases raises_popInt.second_single recognises_popInt hbad h with ⟨x, a, rest, rfl, hx, h⟩
      rcases raises_popInt.second_single recognises_popInt hbad h with ⟨y, b, rest, rfl, hy, h⟩
      rcases raises_popInt.second_single recognises_popInt hbad h with ⟨w, c, rest, rfl, hw, h⟩
      rcases raises_popInt.second_single recognises_popInt hbad h with ⟨v, d, rest, rfl, hv, h⟩
      exact .rcapture hx hy hw hv (not_picture_of_error h)
  | rexpect =>
      exact (hnone (raises_pop.bind fun _ => raises_popInt.bind fun _ =>
        raises_popInt.bind fun _ => raises_popFloat.bind fun _ => raises_pure _) h).elim
  | pause =>
      exact (hnone (raises_popFloat.bind fun _ => (raises_quotient _ _).bind fun _ =>
        raises_pure _) h).elim
  | drag =>
      exact (hnone (raises_popInt.bind fun _ => raises_popInt.bind fun _ => raises_pure _) h).elim
  | unknown hunknown hpiece => exact .unknown hunknown hpiece

/-- What is refused raises the exception of a bad command. -/
theorem Refused.raises (h : Refused host (cmd :: args)) (hfile : host.isfile cmd = false)
    (closed : Bool) :
    ∃ reason input,
      parseCommand host options cmd (closed, args) = .error (.commandParseError reason) input := by
  cases h with
  | unknown hunknown hpiece =>
      have hne : ∀ other ∈ commandWords.dropLast, cmd ≠ other := by
        rintro other hother rfl
        exact hunknown (List.mem_of_mem_dropLast hother)
      refine ⟨.unknownCmd cmd, (closed, args), ?_⟩
      rw [parseCommand_other hne, if_neg hpiece, if_neg (by rw [hfile]; exact Bool.false_ne_true)]
      rfl
  | @capture filename rest hpicture =>
      have hbranch : parseCommand host options (text "capture") =
          pop >>= fun filename => checkFormat filename >>= fun _ =>
            pure [.captureScreen filename options.incrementalRefreshes.toNat] := rfl
      refine ⟨.unsupportedFormat (imageFormat filename), (closed, rest), ?_⟩
      rw [hbranch, Streaming.run_bind_ok (pop_cons filename)]
      exact Streaming.run_bind_error (checkFormat_error hpicture (closed, rest))
  | @rcapture filename a b c d x y w v rest hx hy hw hv hpicture =>
      have hbranch : parseCommand host options (text "rcapture") =
          pop >>= fun filename => popInt host >>= fun x => popInt host >>= fun y =>
            popInt host >>= fun w => popInt host >>= fun h => checkFormat filename >>= fun _ =>
              pure [.captureRegion filename x y w h] := rfl
      refine ⟨.unsupportedFormat (imageFormat filename), (closed, rest), ?_⟩
      rw [hbranch, Streaming.run_bind_ok (pop_cons filename), Streaming.run_bind_ok (popInt_cons hx),
        Streaming.run_bind_ok (popInt_cons hy), Streaming.run_bind_ok (popInt_cons hw),
        Streaming.run_bind_ok (popInt_cons hv)]
      exact Streaming.run_bind_error (checkFormat_error hpicture (closed, rest))

end Turn

/-! ## Runs -/

section Words

variable {host : Host F} {closed closed' : Bool} {words rest : List Text}
  {instruction : Instruction F} {instructions : List (Instruction F)}

/-- A command takes a word at least. -/
theorem Taken.ne_nil (h : Taken host instruction closed words closed') : words ≠ [] := by
  intro hnil
  cases h with
  | written h =>
      cases h <;> cases hnil
  | piece h =>
      rcases h with ⟨word, a, b, _, _, _, rfl⟩
      cases hnil

theorem Taken.length_lt (h : Taken host instruction closed words closed') :
    rest.length + 1 ≤ (words ++ rest).length := by
  have hpos : 0 < words.length := List.length_pos_iff.2 h.ne_nil
  rw [List.length_append]
  omega

/-- No words are left exactly where no commands are. -/
theorem phrases_eq_nil_iff (h : Phrases (Taken host) instructions closed words closed') :
    words = [] ↔ instructions = [] := by
  cases h with
  | nil => exact ⟨fun _ => rfl, fun _ => rfl⟩
  | cons hfirst hmore =>
      constructor
      · intro happend
        exact absurd (List.append_eq_nil_iff.1 happend).1 hfirst.ne_nil
      · intro hcons
        cases hcons

/-- The first word of a command is the name of one. -/
theorem Written.head_mem {cmd : Text} {args : List Text}
    (h : Written host instruction closed (cmd :: args) closed') : cmd ∈ commandWords := by
  have hall : ∀ a b : Text, a ∈ commandWords → b ∈ commandWords → cmd = a ∨ cmd = b →
      cmd ∈ commandWords := by
    rintro a b ha hb (rfl | rfl)
    · exact ha
    · exact hb
  cases h with
  | keydown _ _ hword => exact hall _ _ (by decide) (by decide) hword
  | keyup _ _ hword => exact hall _ _ (by decide) (by decide) hword
  | move _ hword => exact hall _ _ (by decide) (by decide) hword
  | mousedown _ hword => exact hall _ _ (by decide) (by decide) hword
  | mouseup _ hword => exact hall _ _ (by decide) (by decide) hword
  | pause _ hword => exact hall _ _ (by decide) (by decide) hword
  | key => decide
  | click => decide
  | type => decide
  | typefile => decide
  | pastefile => decide
  | capture => decide
  | expect => decide
  | rcapture => decide
  | rexpect => decide
  | drag => decide

/-- No sentence begins with a word that is not the name of a command. -/
theorem not_sentence_of_head {cmd : Text} {args : List Text} (hcmd : cmd ∉ commandWords) :
    ¬ ∃ instructions, Sentence host instructions (cmd :: args) := by
  rintro ⟨instructions, closed, hphrases⟩
  generalize hwords : cmd :: args = words at hphrases
  cases hphrases with
  | nil => cases hwords
  | @cons _ _ _ _ _ before after hfirst _ =>
      cases before with
      | nil => exact absurd rfl (Taken.ne_nil (.written hfirst))
      | cons word before =>
          rw [List.cons_append, List.cons.injEq] at hwords
          rw [← hwords.1] at hfirst
          exact hcmd hfirst.head_mem

end Words

section Runs

variable [Zero F] [NatCast F] [Div F] [DecidableEq F] {host : Host F} {options : Options F}
  {closed closed' : Bool} {words rest : List Text} {instruction : Instruction F}
  {instructions : List (Instruction F)}

/-- One turn takes one command off the front. -/
theorem buildLoop_step (h : Taken host instruction closed words closed')
    (hwarp : options.warp ≠ 0) (rest : List Text) (turns : ℕ) :
    buildLoop host options (turns + 1) closed (words ++ rest) =
      (buildLoop host options turns closed' rest).map (Except.map fun later =>
        instruction.calls options ++ (if rest = [] then [] else delayed options) ++ later) := by
  rcases h.parses hwarp with ⟨cmd, args, rfl, hparse⟩
  rw [List.cons_append, buildLoop, hparse rest]

/-- What is taken whole is queued whole. -/
theorem buildLoop_taken (h : Phrases (Taken host) instructions closed words closed')
    (hwarp : options.warp ≠ 0) : ∀ turns, words.length ≤ turns →
      buildLoop host options turns closed words =
        some (.ok (queued options (instructions.map (·.calls options)))) := by
  induction h with
  | nil s =>
      intro turns _
      cases turns <;> rfl
  | @cons first more s s₁ s' before after hfirst hmore ih =>
      intro turns hturns
      have hlength := le_trans (@Taken.length_lt _ _ _ _ _ after _ hfirst) hturns
      cases turns with
      | zero => exact absurd hlength (Nat.not_succ_le_zero _)
      | succ turns =>
          have hmoreNil : more.map (·.calls options) = [] ↔ after = [] := by
            rw [List.map_eq_nil_iff, phrases_eq_nil_iff hmore]
          rw [buildLoop_step hfirst hwarp, ih turns (Nat.le_of_succ_le_succ hlength), List.map_cons,
            queued]
          simp only [hmoreNil]
          rfl

/-- Behind what is taken, an exception goes through. -/
theorem buildLoop_refused {exc : BuildException}
    (h : Phrases (Taken host) instructions closed words closed') (hwarp : options.warp ≠ 0)
    (hrest : ∀ turns, rest.length ≤ turns →
      buildLoop host options turns closed' rest = some (.error exc)) :
    ∀ turns, (words ++ rest).length ≤ turns →
      buildLoop host options turns closed (words ++ rest) = some (.error exc) := by
  induction h with
  | nil s => exact hrest
  | @cons first more s s₁ s' before after hfirst hmore ih =>
      intro turns hturns
      rw [List.append_assoc] at hturns ⊢
      have hlength := le_trans (@Taken.length_lt _ _ _ _ _ (after ++ rest) _ hfirst) hturns
      cases turns with
      | zero => exact absurd hlength (Nat.not_succ_le_zero _)
      | succ turns =>
          rw [buildLoop_step hfirst hwarp, ih hrest turns (Nat.le_of_succ_le_succ hlength)]
          rfl

/-- A refusal raises the exception of a bad command. -/
theorem Refused.buildLoop (h : Refused host words)
    (hfiles : ∀ word ∈ words, host.isfile word = false) (options : Options F) (closed : Bool) :
    ∃ reason, ∀ turns, words.length ≤ turns →
      CommandLine.buildLoop host options turns closed words =
        some (.error (.commandParseError reason)) := by
  cases words with
  | nil => cases h
  | cons cmd args =>
      have hraises := @Refused.raises _ _ _ _ _ host options cmd args h (hfiles cmd List.mem_cons_self) closed
      rcases hraises with ⟨reason, input, hparse⟩
      refine ⟨reason, ?_⟩
      intro turns hturns
      cases turns with
      | zero => exact absurd hturns (Nat.not_succ_le_zero _)
      | succ turns => rw [CommandLine.buildLoop, hparse]

/-- The exception of a bad command is raised at what is refused, behind what is taken. -/
theorem refused_of_buildLoop {reason : ParseFailure} (hwarp : options.warp ≠ 0) {turns : ℕ}
    (hfiles : ∀ word ∈ words, host.isfile word = false)
    (h : buildLoop host options turns closed words = some (.error (.commandParseError reason))) :
    ∃ instructions taken refused closed', words = taken ++ refused ∧
      Phrases (Taken host) instructions closed taken closed' ∧ Refused host refused := by
  induction turns generalizing closed words with
  | zero =>
      cases words with
      | nil => cases h
      | cons cmd args => cases h
  | succ turns ih =>
      cases words with
      | nil => cases h
      | cons cmd args =>
          have hfile := hfiles cmd List.mem_cons_self
          cases hparse : parseCommand host options cmd (closed, args) with
          | error exc input =>
              rw [buildLoop, hparse] at h
              cases h
              exact ⟨[], [], cmd :: args, closed, rfl, .nil closed, refused_of_error hfile hparse⟩
          | ok calls input =>
              rcases input with ⟨closed₁, rest⟩
              rcases takes_of_parses hfile hwarp hparse with
                ⟨instruction, spelling, hsplit, htaken, rfl⟩
              rw [hsplit] at h hfiles
              rw [buildLoop_step htaken hwarp] at h
              cases hrest : buildLoop host options turns closed₁ rest with
              | none =>
                  rw [hrest] at h
                  cases h
              | some result =>
                  cases result with
                  | ok later =>
                      rw [hrest] at h
                      cases h
                  | error exc =>
                      rw [hrest] at h
                      cases h
                      have hfilesRest : ∀ word ∈ rest, host.isfile word = false := by
                        intro word hword
                        exact hfiles word (List.mem_append_right _ hword)
                      rcases ih hfilesRest hrest with
                        ⟨more, taken, refused, closed', rfl, hmore, hrefused⟩
                      refine ⟨instruction :: more, spelling ++ taken, refused, closed', ?_,
                        .cons htaken hmore, hrefused⟩
                      rw [hsplit, List.append_assoc]

/-- Where no word names a file, the words are accepted or refused as the grammar has it exactly if
they are a sentence of it, or come to what the code refuses. -/
theorem acceptsLanguage_iff {words : List Text} (hfiles : ∀ word ∈ words, host.isfile word = false)
    (hwarp : options.warp ≠ 0) : AcceptsLanguage options host words ↔ Handled host words := by
  constructor
  · intro h
    by_cases hsentence : ∃ instructions, Sentence host instructions words
    · exact Or.inl hsentence
    · rcases h.refuses hsentence with ⟨_, hreturns, ⟨reason, rfl⟩, _⟩
      exact Or.inr (refused_of_buildLoop hwarp hfiles (hreturns words.length le_rfl))
  · intro h
    constructor
    · rintro instructions ⟨closed, hphrases⟩
      have htaken : Phrases (Taken host) (instructions.map id) false words closed :=
        hphrases.map fun _ _ _ _ => .written
      rw [List.map_id] at htaken
      exact buildLoop_taken htaken hwarp
    · intro hnone
      rcases h with hsentence | ⟨instructions, taken, refused, closed, rfl, htaken, hrefused⟩
      · exact absurd hsentence hnone
      · have hfilesRefused : ∀ word ∈ refused, host.isfile word = false := by
          intro word hword
          exact hfiles word (List.mem_append_right _ hword)
        rcases hrefused.buildLoop hfilesRefused options closed with ⟨reason, hraises⟩
        exact ⟨_, buildLoop_refused htaken hwarp hraises, ⟨reason, rfl⟩, rfl⟩

end Runs

/-! ## Some words -/

/-- A Python that has no files, and whose numbers are written in decimal digits. -/
def Host.bare : Host ℚ where
  int word := (digitsValue word).map fun n : ℕ => (n : ℤ)
  float word := (digitsValue word).map fun n : ℕ => (n : ℚ)
  isfile _ := false
  read _ := .error .osError
  stdin := .ok []

theorem acceptsLanguage_iff_unknown :
    AcceptsLanguage ({ warp := 1 } : Options ℚ) Host.bare
        [text "move", text "3", text "4", text "nosuch"] ↔
      Handled Host.bare [text "move", text "3", text "4", text "nosuch"] :=
  acceptsLanguage_iff (fun _ _ => rfl) one_ne_zero

/-- A missing argument raises an `IndexError`; and `ra` is obeyed, which is no command. -/
theorem not_acceptsLanguage_missing :
    ¬ AcceptsLanguage ({ warp := 1 } : Options ℚ) Host.bare [text "key"] ∧
      ¬ AcceptsLanguage ({ warp := 1 } : Options ℚ) Host.bare [text "ra", text "3", text "4"] := by
  constructor
  · intro h
    have hruns : buildCommandList Host.bare { warp := 1 } 1 [text "key"] =
        some (.error (.python .indexError)) := rfl
    by_cases hsentence : ∃ instructions, Sentence Host.bare instructions [text "key"]
    · rcases hsentence with ⟨instructions, hsentence⟩
      have hreturns := h.accepts instructions hsentence 1 le_rfl
      rw [hruns] at hreturns
      cases hreturns
    · rcases h.refuses hsentence with ⟨_, hreturns, ⟨reason, rfl⟩, _⟩
      have hraises := hreturns 1 le_rfl
      rw [hruns] at hraises
      cases hraises
  · intro h
    have hruns : buildCommandList Host.bare { warp := 1 } 3 [text "ra", text "3", text "4"] =
        some (.ok [.mouseDrag 3 4]) := by decide +kernel
    rcases h.refuses (not_sentence_of_head (by decide)) with ⟨_, hreturns, ⟨reason, rfl⟩, _⟩
    have hraises := hreturns 3 le_rfl
    rw [hruns] at hraises
    cases hraises

end CommandLine

end Vncdotool
