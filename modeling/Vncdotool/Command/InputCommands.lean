import Vncdotool.Command.CommandLanguage

/-!
# InputCommands — the input commands are part of the command line

The scripts of a recorded session hold input commands only, and `CommandList` reads nothing else.
What it reads without an exception, the whole of `build_command_list` reads the same way, for any
Python that takes decimal numbers for what they are.  So the replay of a session is a run of `vncdo`
with the session's file for its only word (`buildTool_replay`).
-/

namespace Vncdotool

namespace CommandLine

/-- The call that an input command is; its durations are ten-thousandths of a second. -/
def inputCall : Command → ClientCall ℚ
  | .keyPress key => .keyPress key
  | .keyDown key => .keyDown key
  | .keyUp key => .keyUp key
  | .mouseMove x y => .mouseMove x y
  | .mousePress button => .mousePress button
  | .mouseDown button => .mouseDown button
  | .mouseUp button => .mouseUp button
  | .pause duration => .pause (duration / 10000)

/-- Decimal numbers are read as the numbers they are. -/
structure ReadsDecimals (host : Host ℚ) : Prop where
  int : ∀ {word : Text} {n : ℕ}, digitsValue word = some n → host.int word = some n
  float : ∀ {word : Text} {t : ℤ}, secondsValue word = some t →
    host.float word = some ((t : ℚ) / 10000)

/-- The options of a run with a delay in milliseconds. -/
def delayedBy (delay : ℕ) : Options ℚ :=
  { delay := some delay, warp := 1 }

section Words

variable {cmd : Text} {args rest : List Text} {command : Command} {host : Host ℚ} {delay : ℕ}

theorem popText_eq_ok {word : Text} (h : popText args = .ok (word, rest)) : args = word :: rest := by
  cases args with
  | nil => cases h
  | cons first others =>
      cases h
      rfl

theorem popInt_eq_ok {n : ℕ} (h : Vncdotool.popInt args = .ok (n, rest)) :
    ∃ word, args = word :: rest ∧ digitsValue word = some n := by
  cases args with
  | nil => cases h
  | cons word others =>
      cases hvalue : digitsValue word with
      | none =>
          simp only [Vncdotool.popInt, popText, bind, Except.bind, hvalue] at h
          cases h
      | some m =>
          simp only [Vncdotool.popInt, popText, bind, Except.bind, hvalue] at h
          cases h
          exact ⟨word, rfl, hvalue⟩

theorem popFloat_eq_ok {t : ℤ} (h : Vncdotool.popFloat args = .ok (t, rest)) :
    ∃ word, args = word :: rest ∧ secondsValue word = some t := by
  cases args with
  | nil => cases h
  | cons word others =>
      cases hvalue : secondsValue word with
      | none =>
          simp only [Vncdotool.popFloat, popText, bind, Except.bind, hvalue] at h
          cases h
      | some m =>
          simp only [Vncdotool.popFloat, popText, bind, Except.bind, hvalue] at h
          cases h
          exact ⟨word, rfl, hvalue⟩

/-- What follows an argument that was read. -/
theorem bind_eq_ok {α β : Type} {x : Except BuildError (α × List Text)}
    {f : α × List Text → Except BuildError β} {b : β} (h : (x >>= f) = .ok b) :
    ∃ a args, x = .ok (a, args) ∧ f (a, args) = .ok b := by
  cases hx : x with
  | error exc =>
      rw [hx] at h
      cases h
  | ok first =>
      rw [hx] at h
      exact ⟨first.1, first.2, rfl, h⟩

/-- An input command is one of the grammar. -/
theorem written_of_parseCommand (hhost : ReadsDecimals host)
    (h : Vncdotool.parseCommand cmd args = .ok (command, rest)) (closed : Bool) :
    ∃ instruction spelling, cmd :: args = spelling ++ rest ∧
      Written host instruction closed spelling closed ∧
      instruction.calls (delayedBy delay) = [inputCall command] := by
  unfold Vncdotool.parseCommand at h
  -- Word by word, as the parser compares them; the arguments it has popped are the spelling of the
  -- command.
  by_cases hkey : cmd = text "key"
  · rw [if_pos hkey] at h
    rcases bind_eq_ok h with ⟨key, _, hpop, hret⟩
    rcases popText_eq_ok hpop with rfl
    cases hret
    rw [hkey]
    exact ⟨.key key, [_, key], rfl, .key closed key, rfl⟩
  rw [if_neg hkey] at h
  by_cases hkeydown : cmd = text "kdown" ∨ cmd = text "keydown"
  · rw [if_pos hkeydown] at h
    rcases bind_eq_ok h with ⟨key, _, hpop, hret⟩
    rcases popText_eq_ok hpop with rfl
    cases hret
    exact ⟨.keydown key, [cmd, key], rfl, .keydown closed key hkeydown, rfl⟩
  rw [if_neg hkeydown] at h
  by_cases hkeyup : cmd = text "kup" ∨ cmd = text "keyup"
  · rw [if_pos hkeyup] at h
    rcases bind_eq_ok h with ⟨key, _, hpop, hret⟩
    rcases popText_eq_ok hpop with rfl
    cases hret
    exact ⟨.keyup key, [cmd, key], rfl, .keyup closed key hkeyup, rfl⟩
  rw [if_neg hkeyup] at h
  by_cases hmove : cmd = text "move" ∨ cmd = text "mousemove"
  · rw [if_pos hmove] at h
    rcases bind_eq_ok h with ⟨x, _, hpop, hmore⟩
    rcases popInt_eq_ok hpop with ⟨a, rfl, hx⟩
    dsimp only at hmore
    rcases bind_eq_ok hmore with ⟨y, _, hpop, hret⟩
    rcases popInt_eq_ok hpop with ⟨b, rfl, hy⟩
    cases hret
    exact ⟨.move x y, [cmd, a, b], rfl, .move closed hmove (hhost.int hx) (hhost.int hy), rfl⟩
  rw [if_neg hmove] at h
  by_cases hclick : cmd = text "click"
  · rw [if_pos hclick] at h
    rcases bind_eq_ok h with ⟨n, _, hpop, hret⟩
    rcases popInt_eq_ok hpop with ⟨a, rfl, hn⟩
    cases hret
    rw [hclick]
    exact ⟨.click n, [_, a], rfl, .click closed (hhost.int hn), rfl⟩
  rw [if_neg hclick] at h
  by_cases hmousedown : cmd = text "mdown" ∨ cmd = text "mousedown"
  · rw [if_pos hmousedown] at h
    rcases bind_eq_ok h with ⟨n, _, hpop, hret⟩
    rcases popInt_eq_ok hpop with ⟨a, rfl, hn⟩
    cases hret
    exact ⟨.mousedown n, [cmd, a], rfl, .mousedown closed hmousedown (hhost.int hn), rfl⟩
  rw [if_neg hmousedown] at h
  by_cases hmouseup : cmd = text "mup" ∨ cmd = text "mouseup"
  · rw [if_pos hmouseup] at h
    rcases bind_eq_ok h with ⟨n, _, hpop, hret⟩
    rcases popInt_eq_ok hpop with ⟨a, rfl, hn⟩
    cases hret
    exact ⟨.mouseup n, [cmd, a], rfl, .mouseup closed hmouseup (hhost.int hn), rfl⟩
  rw [if_neg hmouseup] at h
  by_cases hpause : cmd = text "pause" ∨ cmd = text "sleep"
  · rw [if_pos hpause] at h
    rcases bind_eq_ok h with ⟨t, _, hpop, hret⟩
    rcases popFloat_eq_ok hpop with ⟨a, rfl, ht⟩
    cases hret
    refine ⟨.pause (t / 10000), [cmd, a], rfl, .pause closed hpause (hhost.float ht), ?_⟩
    change [ClientCall.pause ((t : ℚ) / 10000 / 1)] = _
    rw [div_one]
    rfl
  · rw [if_neg hpause] at h
    cases h

/-- The pause of `--delay` is the same. -/
theorem delayed_delayedBy :
    (if args = [] then [] else delayed (delayedBy delay)) =
      (Vncdotool.delayed delay args).map inputCall := by
  unfold Vncdotool.delayed
  by_cases hargs : args = []
  · rw [if_pos hargs, if_neg fun h => h.2 hargs]
    rfl
  · rw [if_neg hargs]
    by_cases hdelay : delay = 0
    · rw [if_neg fun h => h.1 hdelay, hdelay]
      rfl
    · have hcast : (delay : ℚ) ≠ 0 := Nat.cast_ne_zero.2 hdelay
      have hseconds : delaySeconds (delayedBy delay) = some ((delay : ℚ) / (1000 : ℕ)) := by
        have hquotient : (delay : ℚ) / (1000 : ℕ) ≠ 0 := div_ne_zero hcast (by norm_num)
        simp [delaySeconds, delayedBy, truthy, hdelay]
      rw [if_pos ⟨hdelay, hargs⟩, delayed, hseconds]
      simp only [Option.toList_some, List.map_cons, List.map_nil, inputCall]
      congr 2
      push_cast
      ring

/-- What the input commands of a script are queued as, the command line queues them as. -/
theorem buildCommandList_input (hhost : ReadsDecimals host) {commands : List Command}
    (h : Vncdotool.buildCommandList delay args = .ok commands) :
    buildCommandList host (delayedBy delay) args.length args =
      some (.ok (commands.map inputCall)) := by
  have hloop : ∀ turns (words : List Text) (commands : List Command), words.length ≤ turns →
      Vncdotool.buildLoop delay turns words = .ok commands →
      buildLoop host (delayedBy delay) turns false words = some (.ok (commands.map inputCall)) := by
    intro turns
    induction turns with
    | zero =>
        intro words commands hlength hbuild
        rcases List.length_eq_zero_iff.1 (Nat.le_zero.1 hlength) with rfl
        cases hbuild
        rfl
    | succ turns ih =>
        intro words commands hlength hbuild
        cases words with
        | nil =>
            cases hbuild
            rfl
        | cons cmd args =>
            rw [Vncdotool.buildLoop] at hbuild
            rcases bind_eq_ok hbuild with ⟨command, rest, hparse, hmore⟩
            dsimp only at hmore
            rcases written_of_parseCommand hhost hparse false with
              ⟨instruction, spelling, hsplit, hwritten, hcalls⟩
            have hrest : rest.length ≤ turns := by
              have hlt := @Taken.length_lt _ _ _ _ _ rest _ (Taken.written hwritten)
              rw [← hsplit] at hlt
              exact Nat.le_of_succ_le_succ (le_trans hlt hlength)
            cases hlater : Vncdotool.buildLoop delay turns rest with
            | error exc =>
                rw [hlater] at hmore
                cases hmore
            | ok later =>
                rw [hlater] at hmore
                cases hmore
                rw [hsplit, buildLoop_step (.written hwritten) one_ne_zero, ih rest later hrest hlater,
                  hcalls, delayed_delayedBy]
                simp [Except.map]
  exact hloop args.length args commands le_rfl h

/-! ## A script in a file -/

/-- A word that `build_command_list` takes for the name of a file, if there is such a file. -/
structure ScriptName (filename : Text) : Prop where
  command : filename ∉ commandWords
  drag : ¬ filename <:+: text "drag"
  stdin : filename ≠ text "-"

variable {filename script : Text}

/-- The words of a file stand in for its name. -/
theorem parseCommand_script (hname : ScriptName filename) (hfile : host.isfile filename = true)
    (hread : host.read filename = .ok script) (hsplit : shlexSplit script = .ok rest)
    (options : Options ℚ) (closed : Bool) :
    parseCommand host options filename (closed, args) = .ok [] (closed, rest ++ args) := by
  have hother : ∀ other ∈ commandWords.dropLast, filename ≠ other := by
    rintro other hmem rfl
    exact hname.command (List.dropLast_subset _ hmem)
  rw [parseCommand_other hother, if_neg hname.drag, if_pos hfile, hread]
  change (Parsing.lift ((shlexSplit script).mapError BuildException.python) >>= fun words =>
    Parsing.unread words >>= fun _ => pure []) (closed, args) = _
  rw [hsplit]
  rfl

/-- Running a script with `vncdo` is what a replay of it is: the whole of `build_tool` queues for the
file's name the commands whose execution sends what the replay sends. -/
theorem buildTool_replay (hhost : ReadsDecimals host) (hname : ScriptName filename)
    (hfile : host.isfile filename = true) (hread : host.read filename = .ok (newlines script))
    {sent : List InputEvent} (h : VNCDoCLIClient.replay delay script = some sent) :
    ∃ turns commands,
      buildTool host (delayedBy delay) turns [filename] =
          some (.connects (commands.map inputCall)) ∧
        VNCDoCLIClient.sentAfter (VNCDoCLIClient.runCommands commands) {} = some sent := by
  unfold VNCDoCLIClient.replay readScript at h
  cases hsplit : shlexSplit (newlines script) with
  | error exc =>
      rw [hsplit] at h
      cases h
  | ok words =>
      cases hbuild : Vncdotool.buildCommandList delay words with
      | error exc =>
          simp only [hsplit, hbuild, Except.map] at h
          cases h
      | ok commands =>
          simp only [hsplit, hbuild, Except.map] at h
          refine ⟨words.length + 1, Vncdotool.delayed delay words ++ commands, ?_, h⟩
          -- The first turn puts the words in the place of the name, the others read them.
          have hone : [filename] ≠ [text "-"] := fun heq => hname.stdin (List.singleton_inj.1 heq)
          have hparse := @parseCommand_script [] words host filename _ hname hfile hread hsplit
            (delayedBy delay) false
          rw [List.append_nil] at hparse
          have hwords : buildLoop host (delayedBy delay) words.length false words =
              some (.ok (commands.map inputCall)) := buildCommandList_input hhost hbuild
          unfold buildTool
          rw [if_neg hone, buildCommandList, buildLoop]
          simp only [hparse, hwords, delayed_delayedBy, Option.map_some, Except.map,
            List.nil_append, start, List.map_append]

end Words

end CommandLine

end Vncdotool
