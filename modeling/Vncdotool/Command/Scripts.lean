import Vncdotool.Command.CommandLanguage
import Vncdotool.Parsing.Expansion

/-!
# Scripts — when `build_command_list` comes to an end

A word that names a file stands for the words in it, which are commands and may be the names of
files in their turn.  Nothing keeps a script from naming itself.  The loop comes to an end exactly
when it meets no script that, read by itself, comes to name itself again while the standard input
is open or closed as it was.
-/

namespace Vncdotool

open Parsing Streaming StateTransition

namespace CommandLine

/-! ## The loop -/

section Loop

variable {F : Type} [Zero F] [NatCast F] [Div F] [DecidableEq F]

/-- One turn of `while args`, the standard input being open or closed; none when the loop is left,
at its end or by an exception. -/
def turn (host : Host F) (options : Options F) : Bool × List Text → Option (Bool × List Text)
  | (_, []) => none
  | (closed, cmd :: args) =>
      match parseCommand host options cmd (closed, args) with
      | .error _ _ => none
      | .ok _ next => some next

/-- `build_command_list` returns or raises. -/
def Ends (host : Host F) (options : Options F) (args : List Text) : Prop :=
  ∃ turns, (buildCommandList host options turns args).isSome = true

/-- Read by itself, the script comes to name itself again. -/
def Recurs (host : Host F) (options : Options F) (closed : Bool) (script : Text) : Prop :=
  ∃ more, Reaches₁ (turn host options) (closed, [script]) (closed, script :: more)

variable {host : Host F} {options : Options F} {closed closed' : Bool} {args args' : List Text}

theorem turn_of_ok {cmd : Text} {calls : List (ClientCall F)} {next : Bool × List Text}
    (h : parseCommand host options cmd (closed, args) = .ok calls next) :
    turn host options (closed, cmd :: args) = some next := by
  unfold turn
  dsimp only
  rw [h]

theorem turn_of_error {cmd : Text} {exc : BuildException} {input : Bool × List Text}
    (h : parseCommand host options cmd (closed, args) = .error exc input) :
    turn host options (closed, cmd :: args) = none := by
  unfold turn
  dsimp only
  rw [h]

theorem ok_of_turn {cmd : Text} {next : Bool × List Text}
    (h : turn host options (closed, cmd :: args) = some next) :
    ∃ calls, parseCommand host options cmd (closed, args) = .ok calls next := by
  cases hparse : parseCommand host options cmd (closed, args) with
  | error exc input =>
      rw [turn_of_error hparse] at h
      cases h
  | ok calls input =>
      rw [turn_of_ok hparse] at h
      exact ⟨calls, congrArg _ (Option.some.inj h)⟩

/-- With a turn to spare the loop sees that it is at rest. -/
theorem isSome_of_run {turns : ℕ} :
    (run (turn host options) turns (closed, args)).isSome = true →
      (buildLoop host options (turns + 1) closed args).isSome = true := by
  induction turns generalizing closed args with
  | zero =>
      intro h
      cases args with
      | nil => rfl
      | cons cmd args =>
          unfold run at h
          unfold buildLoop
          cases hparse : parseCommand host options cmd (closed, args) with
          | error exc input => rfl
          | ok calls input =>
              rw [turn_of_ok hparse] at h
              cases h
  | succ turns ih =>
      intro h
      cases args with
      | nil => rfl
      | cons cmd args =>
          unfold run at h
          unfold buildLoop
          cases hparse : parseCommand host options cmd (closed, args) with
          | error exc input => rfl
          | ok calls input =>
              rw [turn_of_ok hparse] at h
              dsimp only
              rw [Option.isSome_map]
              exact ih h

theorem isSome_of_buildLoop {turns : ℕ} :
    (buildLoop host options turns closed args).isSome = true →
      (run (turn host options) turns (closed, args)).isSome = true := by
  induction turns generalizing closed args with
  | zero =>
      intro h
      cases args with
      | nil => rfl
      | cons cmd args => cases h
  | succ turns ih =>
      intro h
      cases args with
      | nil => rfl
      | cons cmd args =>
          unfold run
          unfold buildLoop at h
          cases hparse : parseCommand host options cmd (closed, args) with
          | error exc input =>
              rw [turn_of_error hparse]
              rfl
          | ok calls input =>
              rw [hparse] at h
              dsimp only at h
              rw [Option.isSome_map] at h
              rw [turn_of_ok hparse]
              exact ih h

theorem ends_iff_terminates : Ends host options args ↔ Terminates (turn host options) (false, args) := by
  constructor
  · rintro ⟨turns, h⟩
    rcases Option.isSome_iff_exists.1 (isSome_of_buildLoop h) with ⟨last, hlast⟩
    exact ⟨last, haltsAt_of_run hlast⟩
  · rintro ⟨last, hlast⟩
    rcases exists_run_of_haltsAt hlast with ⟨turns, hrun⟩
    exact ⟨turns + 1, isSome_of_run (Option.isSome_iff_exists.2 ⟨last, hrun⟩)⟩

end Loop

/-! ## Commands and scripts -/

section Scripts

variable {F : Type} {host : Host F}

/-- The words of a command can be told from what stands behind them. -/
def Regular (p : WordParser (List (ClientCall F))) : Prop :=
  ∃ S, Recognises p S

/-- A command, or a script that is put in the place of its name. -/
def Expands (host : Host F) (cmd : Text) (p : WordParser (List (ClientCall F))) : Prop :=
  Regular p ∨ (host.isfile cmd = true ∧
    ∃ script words, host.read cmd = .ok script ∧ shlexSplit script = .ok words ∧
      ∀ closed args, p (closed, args) = .ok [] (closed, words ++ args))

theorem expands_ite {cmd : Text} {c : Prop} [Decidable c] {p q : WordParser (List (ClientCall F))}
    (hp : c → Regular p) (hq : ¬ c → Expands host cmd q) : Expands host cmd (if c then p else q) := by
  by_cases hc : c
  · rw [if_pos hc]
    exact Or.inl (hp hc)
  · rw [if_neg hc]
    exact hq hc

/-- The branch of a file's name. -/
theorem expands_script {cmd : Text} (hfile : host.isfile cmd = true) :
    Expands host cmd (do
      let script ← lift ((host.read cmd).mapError .file)
      let words ← lift ((shlexSplit script).mapError .python)
      unread words
      return ([] : List (ClientCall F))) := by
  cases hread : host.read cmd with
  | error exc =>
      left
      exact ⟨_, recognises_throw _⟩
  | ok script =>
      cases hsplit : shlexSplit script with
      | error exc =>
          left
          refine ⟨fun _ _ _ _ => False, ?_⟩
          intro calls closed closed' args rest
          constructor
          · intro hrun
            have hraises : (lift ((shlexSplit script).mapError BuildException.python) >>= fun words =>
                unread words >>= fun _ => (pure [] : WordParser (List (ClientCall F)))) (closed, args) =
                  .error (.python exc) (closed, args) := by
              rw [hsplit]
              rfl
            cases hraises.symm.trans hrun
          · rintro ⟨_, _, hfalse⟩
            exact hfalse.elim
      | ok words =>
          right
          refine ⟨hfile, script, words, hread, hsplit, fun closed args => ?_⟩
          have hruns : (lift ((shlexSplit script).mapError BuildException.python) >>= fun words =>
              unread words >>= fun _ => (pure [] : WordParser (List (ClientCall F)))) (closed, args) =
                .ok [] (closed, words ++ args) := by
            rw [hsplit]
            rfl
          exact hruns

variable [Zero F] [NatCast F] [Div F] [DecidableEq F] {options : Options F} {closed closed' : Bool}
  {args args' : List Text}

omit [NatCast F] in
theorem regular_pause : Regular (popFloat host >>= fun seconds =>
    quotient seconds options.warp >>= fun duration => pure [ClientCall.pause duration]) := by
  by_cases hwarp : options.warp = 0
  -- The quotient raises behind the word.
  · have hquotient (seconds : F) : quotient seconds options.warp =
        (throw .zeroDivisionError : WordParser F) := if_pos hwarp
    have hpause (duration : F) := @recognises_pure BuildException Bool Text _
      [(ClientCall.pause duration : ClientCall F)]
    simp only [hquotient]
    exact ⟨_, recognises_popFloat.bind fun _ => (recognises_throw _).bind hpause⟩
  · exact ⟨_, recognises_pause hwarp⟩

theorem parseCommand_expands (cmd : Text) :
    Expands host cmd (parseCommand host options cmd) := by
  unfold parseCommand
  refine expands_ite (fun _ => ⟨_, recognises_word fun key => [.keyPress key]⟩) fun _ => ?_
  refine expands_ite (fun _ => ⟨_, recognises_word fun key => [.keyDown key]⟩) fun _ => ?_
  refine expands_ite (fun _ => ⟨_, recognises_word fun key => [.keyUp key]⟩) fun _ => ?_
  refine expands_ite (fun _ => ⟨_, recognises_ints fun x y => [.mouseMove x y]⟩) fun _ => ?_
  refine expands_ite (fun _ => ⟨_, recognises_int fun button => [.mousePress button]⟩) fun _ => ?_
  refine expands_ite (fun _ => ⟨_, recognises_int fun button => [.mouseDown button]⟩) fun _ => ?_
  refine expands_ite (fun _ => ⟨_, recognises_int fun button => [.mouseUp button]⟩) fun _ => ?_
  refine expands_ite (fun _ => ⟨_, recognises_word fun text =>
    typing options (text.map typedKey)⟩) fun _ => ?_
  refine expands_ite (fun _ => ⟨_, recognises_content fun content =>
    typing options ((content.filter (· ≠ 13)).map typedFileKey)⟩) fun _ => ?_
  refine expands_ite (fun _ => ⟨_, recognises_content fun content =>
    [.paste (replaceCRLF content)]⟩) fun _ => ?_
  refine expands_ite (fun _ => ⟨_, recognises_capture _⟩) fun _ => ?_
  refine expands_ite (fun _ => ⟨_, recognises_expect⟩) fun _ => ?_
  refine expands_ite (fun _ => ⟨_, recognises_rcapture⟩) fun _ => ?_
  refine expands_ite (fun _ => ⟨_, recognises_rexpect⟩) fun _ => ?_
  refine expands_ite (fun _ => regular_pause) fun _ => ?_
  refine expands_ite (fun _ => ⟨_, recognises_ints fun x y => [.mouseDrag x y]⟩) fun _ => ?_
  by_cases hfile : host.isfile cmd = true
  · rw [if_pos hfile]
    exact expands_script hfile
  · rw [if_neg hfile]
    exact Or.inl ⟨_, recognises_throw _⟩

/-- A turn takes a command, or puts the words of a script in the place of its name. -/
theorem turn_expands (h : turn host options (closed, args) = some (closed', args')) :
    ∃ taken produced rest, taken ≠ [] ∧ args = taken ++ rest ∧ args' = produced ++ rest ∧
      (∀ behind, turn host options (closed, taken ++ behind) = some (closed', produced ++ behind)) ∧
        (produced = [] ∨ ∃ name script, taken = [name] ∧ host.isfile name = true ∧
          host.read name = .ok script ∧ shlexSplit script = .ok produced) := by
  cases args with
  | nil => cases h
  | cons cmd args =>
      rcases ok_of_turn h with ⟨calls, hparse⟩
      have hexpands : Expands host cmd (parseCommand host options cmd) := parseCommand_expands cmd
      rcases hexpands with ⟨S, hS⟩ | ⟨hfile, script, words, hread, hsplit, hwords⟩
      · rcases (hS _ _ _ _ _).1 hparse with ⟨spelling, rfl, hspelling⟩
        refine ⟨cmd :: spelling, [], args', List.cons_ne_nil _ _, rfl, rfl, fun behind => ?_,
          Or.inl rfl⟩
        exact turn_of_ok ((hS calls closed closed' (spelling ++ behind) behind).2
          ⟨spelling, rfl, hspelling⟩)
      · cases (hwords closed args).symm.trans hparse
        refine ⟨[cmd], words, args, List.cons_ne_nil _ _, rfl, rfl, fun behind => ?_,
          Or.inr ⟨cmd, script, rfl, hfile, hread, hsplit⟩⟩
        exact turn_of_ok (hwords closed behind)

/-- The loop as a machine over words. -/
def loop (host : Host F) (options : Options F) : Expander Bool Text where
  step := turn host options
  Script name := host.isfile name = true
  step_spec := by
    intro closed args closed' args' h
    rcases turn_expands h with ⟨taken, produced, rest, hne, hargs, hargs', hany, hkind⟩
    refine ⟨taken, produced, rest, hne, hargs, hargs', hany, ?_⟩
    rcases hkind with hnil | ⟨name, script, htaken, hfile, _, _⟩
    · exact Or.inl hnil
    · exact Or.inr ⟨name, htaken, hfile⟩

/-- With finitely many files, `build_command_list` returns or raises exactly when it never comes to
a script that recurs. -/
theorem ends_iff_none_recurs (host : Host F) (options : Options F) (args : List Text)
    (hfiles : {name | host.isfile name = true}.Finite) :
    Ends host options args ↔
      ∀ closed script rest, Reaches (turn host options) (false, args) (closed, script :: rest) →
        ¬ Recurs host options closed script := by
  rw [ends_iff_terminates]
  exact @Expander.terminates_iff _ _ (loop host options) _ hfiles (false, args)

/-! ## Scripts that do not lead back -/

/-- A script has only scripts of lower rank among its words. -/
def Ranked (host : Host F) (rank : Text → ℕ) : Prop :=
  ∀ name script words, host.isfile name = true → host.read name = .ok script →
    shlexSplit script = .ok words →
    ∀ word ∈ words, host.isfile word = true → rank word < rank name

/-- What a script leads to has a lower rank than the script. -/
theorem rank_of_reaches₁ {rank : Text → ℕ} (hranked : Ranked host rank) {name : Text}
    {last : Bool × List Text} (h : Reaches₁ (turn host options) (closed, [name]) last) :
    (last.2 ≠ [] → host.isfile name = true) ∧
      ∀ word ∈ last.2, host.isfile word = true → rank word < rank name := by
  induction h with
  | @single last hstep =>
      rcases turn_expands hstep with ⟨taken, produced, rest, hne, hname, hlast, _, hkind⟩
      rcases List.cons_eq_append_iff.1 hname with ⟨hnil, _⟩ | ⟨taken', rfl, hnil⟩
      · exact absurd hnil hne
      · rcases List.append_eq_nil_iff.1 hnil.symm with ⟨rfl, rfl⟩
        rw [hlast, List.append_nil]
        rcases hkind with rfl | ⟨name', script, heq, hfile, hread, hsplit⟩
        · exact ⟨fun h => absurd rfl h, fun word hmem => absurd hmem List.not_mem_nil⟩
        · cases heq
          exact ⟨fun _ => hfile, hranked name script produced hfile hread hsplit⟩
  | @tail middle last _ hstep ih =>
      rcases turn_expands hstep with ⟨taken, produced, rest, hne, hmiddle, hlast, _, hkind⟩
      have hmiddle_ne : middle.2 ≠ [] := by
        rw [hmiddle]
        exact List.append_ne_nil_of_left_ne_nil hne rest
      refine ⟨fun _ => ih.1 hmiddle_ne, fun word hmem hword => ?_⟩
      rw [hlast] at hmem
      rcases List.mem_append.1 hmem with hproduced | hrest
      · rcases hkind with rfl | ⟨name', script, rfl, hfile, hread, hsplit⟩
        · exact absurd hproduced List.not_mem_nil
        · have hlower : rank word < rank name' :=
            hranked name' script produced hfile hread hsplit word hproduced hword
          have hname' : name' ∈ middle.2 := by
            rw [hmiddle]
            exact List.mem_cons_self
          exact hlower.trans (ih.2 name' hname' hfile)
      · refine ih.2 word ?_ hword
        rw [hmiddle]
        exact List.mem_append_right taken hrest

/-- Where no chain of scripts leads back to its beginning, the loop comes to an end. -/
theorem ends_of_ranked {rank : Text → ℕ} (hranked : Ranked host rank)
    (hfiles : {name | host.isfile name = true}.Finite) : Ends host options args := by
  refine ends_iff_terminates.2 ((@Expander.terminates_iff _ _ (loop host options) _ hfiles _).2 ?_)
  rintro closed name rest _ ⟨more, hmore⟩
  rcases rank_of_reaches₁ hranked hmore with ⟨hfile, hlower⟩
  exact lt_irrefl _ (hlower name List.mem_cons_self (hfile (List.cons_ne_nil _ _)))

end Scripts

/-! ## A script that names itself -/

/-- Python with one file, `loop`, that holds its own name. -/
def Host.looping : Host ℚ :=
  { Host.bare with
    isfile := fun name => decide (name = text "loop")
    read := fun _ => .ok (text "loop") }

theorem finite_looping : {name | Host.looping.isfile name = true}.Finite := by
  refine (Set.finite_singleton (text "loop")).subset ?_
  exact fun name hname => of_decide_eq_true hname

theorem ends_iff_none_recurs_looping :
    Ends Host.looping { warp := 1 } [text "loop"] ↔
      ∀ closed script rest,
        Reaches (turn Host.looping { warp := 1 }) (false, [text "loop"]) (closed, script :: rest) →
          ¬ Recurs Host.looping { warp := 1 } closed script :=
  ends_iff_none_recurs Host.looping { warp := 1 } [text "loop"] finite_looping

/-- The one file is read again and again. -/
theorem not_ends_looping :
    {name | Host.looping.isfile name = true}.Finite ∧
      ¬ Ends Host.looping { warp := 1 } [text "loop"] := by
  refine ⟨finite_looping, fun hends => ?_⟩
  have hagain : turn Host.looping { warp := 1 } (false, [text "loop"]) =
      some (false, [text "loop"]) := by decide +kernel
  refine @not_terminates_of_invariant _ (turn Host.looping { warp := 1 })
    (fun config => config = (false, [text "loop"])) ?_ _ rfl (ends_iff_terminates.1 hends)
  rintro config rfl
  exact ⟨_, hagain, rfl⟩

end CommandLine

end Vncdotool
