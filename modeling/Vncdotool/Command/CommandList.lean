import Mathlib.Data.Nat.Bits
import Vncdotool.Command.Shlex
import Vncdotool.RFB.ClientMessages

/-!
# CommandList — the input commands of a script

`build_command_list` queues a command for each of its words and the arguments behind it, and the
queue runs on the client when the session is ready: one command after the other until one fails.
Of the commands, those that press keys, move the pointer, press its buttons or wait are modelled,
with numbers as they are written in decimal.  `--force-caps` is off, and `--warp` is 1.
-/

namespace Vncdotool

/-! ## Commands -/

/-- A method of the client with its arguments. -/
inductive Command
  | keyPress (key : Text)
  | keyDown (key : Text)
  | keyUp (key : Text)
  | mouseMove (x y : ℕ)
  | mousePress (button : ℕ)
  | mouseDown (button : ℕ)
  | mouseUp (button : ℕ)
  /-- In ten-thousandths of a second. -/
  | pause (duration : ℤ)
  deriving DecidableEq, Repr

/-- Why no queue is built: an exception, or a word that is left out here. -/
inductive BuildError
  | python (exc : PyError)
  | leftOut (word : Text)
  deriving DecidableEq, Repr

/-! ## Numbers -/

/-- The value of a text of decimal digits. -/
def digitsValue (word : Text) : Option ℕ :=
  if word ≠ [] ∧ word.all (fun c => 48 ≤ c && c ≤ 57) then
    some (Nat.ofDigits 10 (word.reverse.map (· - 48)))
  else
    none

/-- The value of a text of digits with a point before the last four. -/
def decimalsValue (word : Text) : Option ℕ :=
  let whole := word.takeWhile (· ≠ 46)
  let decimals := word.drop (whole.length + 1)
  if decimals.length = 4 then
    match digitsValue whole, digitsValue decimals with
    | some n, some f => some (10000 * n + f)
    | _, _ => none
  else
    none

def secondsValue (word : Text) : Option ℤ :=
  if word.head? = some 45 then (decimalsValue word.tail).map fun n : ℕ => -(n : ℤ)
  else (decimalsValue word).map fun n : ℕ => (n : ℤ)

/-! ## `build_command_list` -/

/-- `args.pop(0)`. -/
def popText : List Text → Except BuildError (Text × List Text)
  | [] => .error (.python .indexError)
  | word :: args => .ok (word, args)

/-- `int(args.pop(0))`. -/
def popInt (args : List Text) : Except BuildError (ℕ × List Text) := do
  let (word, args) ← popText args
  match digitsValue word with
  | some n => return (n, args)
  | none => throw (.leftOut word)

/-- `float(args.pop(0))`. -/
def popFloat (args : List Text) : Except BuildError (ℤ × List Text) := do
  let (word, args) ← popText args
  match secondsValue word with
  | some t => return (t, args)
  | none => throw (.leftOut word)

/-- One turn of the loop: the command that is queued, and the arguments that are left. -/
def parseCommand (cmd : Text) (args : List Text) : Except BuildError (Command × List Text) :=
  if cmd = text "key" then do
    let (key, args) ← popText args
    return (.keyPress key, args)
  else if cmd = text "kdown" ∨ cmd = text "keydown" then do
    let (key, args) ← popText args
    return (.keyDown key, args)
  else if cmd = text "kup" ∨ cmd = text "keyup" then do
    let (key, args) ← popText args
    return (.keyUp key, args)
  else if cmd = text "move" ∨ cmd = text "mousemove" then do
    let (x, args) ← popInt args
    let (y, args) ← popInt args
    return (.mouseMove x y, args)
  else if cmd = text "click" then do
    let (button, args) ← popInt args
    return (.mousePress button, args)
  else if cmd = text "mdown" ∨ cmd = text "mousedown" then do
    let (button, args) ← popInt args
    return (.mouseDown button, args)
  else if cmd = text "mup" ∨ cmd = text "mouseup" then do
    let (button, args) ← popInt args
    return (.mouseUp button, args)
  else if cmd = text "pause" ∨ cmd = text "sleep" then do
    let (duration, args) ← popFloat args
    return (.pause duration, args)
  else
    throw (.leftOut cmd)

/-- `if delay and args: ... client.pause`, the delay being in milliseconds. -/
def delayed (delay : ℕ) (args : List Text) : List Command :=
  if delay ≠ 0 ∧ args ≠ [] then [.pause (10 * delay)] else []

/-- The loop, for at most `turns` turns: every turn takes an argument at least. -/
def buildLoop (delay : ℕ) : ℕ → List Text → Except BuildError (List Command)
  | _, [] => .ok []
  | 0, _ :: _ => .ok []
  | turns + 1, cmd :: args => do
      let (command, args) ← parseCommand cmd args
      let commands ← buildLoop delay turns args
      return command :: (delayed delay args ++ commands)

def buildCommandList (delay : ℕ) (args : List Text) : Except BuildError (List Command) :=
  buildLoop delay args.length args

/-- The queue of a script file that is the only argument: its words are the arguments then. -/
def readScript (delay : ℕ) (script : Text) : Except BuildError (List Command) :=
  match shlexSplit (newlines script) with
  | .error exc => .error (.python exc)
  | .ok args => (buildCommandList delay args).map (delayed delay args ++ ·)

example : readScript 0 (text "pause 0.0100 keydown '#'\nclick 3 ") =
    .ok [.pause 100, .keyDown (text "#"), .mousePress 3] := by decide +kernel

/-! ## The client -/

/-- What the commands change of a `VNCDoCLIClient`, and the events it has sent. -/
structure VNCDoCLIClient where
  x : ℕ := 0
  y : ℕ := 0
  buttons : ℕ := 0
  sent : List InputEvent := []
  deriving DecidableEq, Repr

abbrev ClientAction : Type :=
  EStateM PyError VNCDoCLIClient Unit

namespace VNCDoCLIClient

/-- `KEYMAP.get(k) or ord(k)`. -/
def keyCode (k : Text) : Except PyError ℕ :=
  match (keymap.find? fun entry => text entry.1 = k).map Prod.snd, k with
  | some code, _ => .ok code
  | none, [c] => .ok c
  | none, _ => .error .typeError

def decodeKey (key : Text) : Except PyError (List ℕ) :=
  let keys := if key.length = 1 then [key] else key.splitOn 45
  keys.mapM keyCode

/-- Sends an event; `struct.pack` raises where a field has no room. -/
def send (event : InputEvent) (packs : Bool) : ClientAction := do
  if packs then modify fun client => { client with sent := client.sent ++ [event] }
  else throw .structError

def keyEvent (key : ℕ) (down : Bool) : ClientAction :=
  send (.keyEvent key down) (decide (RFBClient.Packs 4 key))

def pointerEvent (x y buttonmask : ℕ) : ClientAction :=
  send (.pointerEvent x y buttonmask)
    (decide (RFBClient.Packs 1 buttonmask ∧ RFBClient.Packs 2 x ∧ RFBClient.Packs 2 y))

/-- The callback goes to `reactor.callLater`, which asserts that the delay is not negative. -/
def pause (duration : ℤ) : ClientAction :=
  if 0 ≤ duration then pure () else throw .assertionError

def keyDown (key : Text) : ClientAction :=
  match decodeKey key with
  | .error exc => throw exc
  | .ok keys => keys.forM fun k => keyEvent k true

def keyUp (key : Text) : ClientAction :=
  match decodeKey key with
  | .error exc => throw exc
  | .ok keys => keys.forM fun k => keyEvent k false

def keyPress (key : Text) : ClientAction :=
  match decodeKey key with
  | .error exc => throw exc
  | .ok keys => do
      keys.forM fun k => keyEvent k true
      keys.reverse.forM fun k => keyEvent k false

def mouseMove (x y : ℕ) : ClientAction := do
  modify fun client => { client with x := x, y := y }
  pointerEvent x y (← get).buttons

/-- `1 << (button - 1)`. -/
def buttonBit (button : ℕ) : Except PyError ℕ :=
  if button = 0 then .error .valueError else .ok (2 ^ (button - 1))

def mouseDown (button : ℕ) : ClientAction :=
  match buttonBit button with
  | .error exc => throw exc
  | .ok bit => do
      modify fun client => { client with buttons := client.buttons ||| bit }
      let client ← get
      pointerEvent client.x client.y client.buttons

def mouseUp (button : ℕ) : ClientAction :=
  match buttonBit button with
  | .error exc => throw exc
  | .ok bit => do
      modify fun client => { client with buttons := client.buttons.ldiff bit }
      let client ← get
      pointerEvent client.x client.y client.buttons

def mousePress (button : ℕ) : ClientAction := do
  mouseDown button
  mouseUp button

def runCommand : Command → ClientAction
  | .keyPress key => keyPress key
  | .keyDown key => keyDown key
  | .keyUp key => keyUp key
  | .mouseMove x y => mouseMove x y
  | .mousePress button => mousePress button
  | .mouseDown button => mouseDown button
  | .mouseUp button => mouseUp button
  | .pause duration => pause duration

/-- The callbacks run one after the other; a failure ends the chain. -/
def runCommands : List Command → ClientAction
  | [] => pure ()
  | command :: commands => do
      runCommand command
      runCommands commands

/-- The events sent by the end of an action that does not fail. -/
def sentAfter (action : ClientAction) (client : VNCDoCLIClient) : Option (List InputEvent) :=
  match action client with
  | .error _ _ => none
  | .ok _ client => some client.sent

/-- The events that a script sends, when all of its commands are executed. -/
def replay (delay : ℕ) (script : Text) : Option (List InputEvent) :=
  match readScript delay script with
  | .error _ => none
  | .ok commands => sentAfter (runCommands commands) {}

example : replay 10 (text "move 3 4 mousedown 1 keydown ctrl-x click 2 pause 0.0000 mouseup 1") =
    some [.pointerEvent 3 4 0, .pointerEvent 3 4 1, .keyEvent 0xFFE3 true, .keyEvent 0x78 true,
      .pointerEvent 3 4 3, .pointerEvent 3 4 1, .pointerEvent 3 4 0] := by decide +kernel

end VNCDoCLIClient

/-! ## Numbers as they are recorded -/

theorem digitsValue_map {digits : List ℕ} (hne : digits ≠ []) (hlt : ∀ d ∈ digits, d < 10) :
    digitsValue (digits.reverse.map (48 + ·)) = some (Nat.ofDigits 10 digits) := by
  have hall : (digits.reverse.map (48 + ·)).all (fun c => 48 ≤ c && c ≤ 57) = true := by
    rw [List.all_eq_true]
    intro c hc
    rcases List.mem_map.1 hc with ⟨d, hd, rfl⟩
    have hd' := hlt d (List.mem_reverse.1 hd)
    simp only [Bool.and_eq_true, decide_eq_true_eq]
    omega
  have hback : ((digits.reverse.map (48 + ·)).reverse.map (· - 48)) = digits := by
    simp only [List.map_reverse, List.reverse_reverse, List.map_map]
    calc digits.map ((· - 48) ∘ (48 + ·)) = digits.map id :=
          List.map_congr_left fun d _ => Nat.add_sub_cancel_left 48 d
      _ = digits := List.map_id digits
  rw [digitsValue, if_pos ⟨by simpa using hne, hall⟩, hback]

/-- `int` undoes `"%d"`. -/
theorem digitsValue_decimal (n : ℕ) : digitsValue (decimal n) = some n := by
  unfold decimal
  split_ifs with hzero
  · subst hzero
    decide
  · rw [digitsValue_map (Nat.digits_ne_nil_iff_ne_zero.2 hzero)
      (fun d hd => Nat.digits_lt_base (by decide) hd), Nat.ofDigits_digits]

theorem digitsValue_four {a b c d : ℕ} (ha : a < 10) (hb : b < 10) (hc : c < 10) (hd : d < 10) :
    digitsValue [48 + a, 48 + b, 48 + c, 48 + d] = some (1000 * a + 100 * b + 10 * c + d) := by
  have hlt : ∀ digit ∈ [d, c, b, a], digit < 10 := by
    intro digit hdigit
    simp only [List.mem_cons, List.not_mem_nil, or_false] at hdigit
    rcases hdigit with rfl | rfl | rfl | rfl <;> assumption
  have hvalue : Nat.ofDigits 10 [d, c, b, a] = 1000 * a + 100 * b + 10 * c + d := by
    simp only [Nat.ofDigits_cons, Nat.ofDigits_nil]
    omega
  exact (digitsValue_map (by simp) hlt).trans (congrArg some hvalue)

theorem decimal_digits {n c : ℕ} (hc : c ∈ decimal n) : 48 ≤ c ∧ c ≤ 57 := by
  unfold decimal at hc
  split_ifs at hc
  · rw [List.mem_singleton] at hc
    omega
  · rcases List.mem_map.1 hc with ⟨digit, hdigit, rfl⟩
    have hlt : digit < 10 := Nat.digits_lt_base (by decide) (List.mem_reverse.1 hdigit)
    omega

theorem decimalsValue_decimal (n : ℕ) {a b c d : ℕ} (ha : a < 10) (hb : b < 10) (hc : c < 10)
    (hd : d < 10) :
    decimalsValue (decimal n ++ [46] ++ [48 + a, 48 + b, 48 + c, 48 + d]) =
      some (10000 * n + (1000 * a + 100 * b + 10 * c + d)) := by
  have hpoint : ∀ c ∈ decimal n, decide (c ≠ 46) = true := by
    intro c hc
    have hdigit := decimal_digits hc
    rw [decide_eq_true_eq]
    omega
  have hwhole : (decimal n ++ [46] ++ [48 + a, 48 + b, 48 + c, 48 + d]).takeWhile (· ≠ 46) =
      decimal n := by
    rw [List.append_assoc, List.takeWhile_append_of_pos hpoint]
    simp
  have hdrop : (decimal n ++ [46] ++ [48 + a, 48 + b, 48 + c, 48 + d]).drop
      ((decimal n).length + 1) = [48 + a, 48 + b, 48 + c, 48 + d] := by
    have hlength : (decimal n).length + 1 = (decimal n ++ [46]).length := by simp
    rw [hlength, List.drop_left]
  simp only [decimalsValue, hwhole, hdrop, digitsValue_decimal, digitsValue_four ha hb hc hd]
  rfl

/-- `float` undoes `"%.4f"`. -/
theorem secondsValue_formatSeconds (t : ℤ) : secondsValue (formatSeconds t) = some t := by
  have hmod (n : ℕ) : n % 10 < 10 := Nat.mod_lt n (by decide)
  have hvalue := decimalsValue_decimal (t.natAbs / 10000) (hmod (t.natAbs / 1000))
    (hmod (t.natAbs / 100)) (hmod (t.natAbs / 10)) (hmod t.natAbs)
  have hsum : 10000 * (t.natAbs / 10000) + (1000 * (t.natAbs / 1000 % 10) +
      100 * (t.natAbs / 100 % 10) + 10 * (t.natAbs / 10 % 10) + t.natAbs % 10) = t.natAbs := by
    omega
  rw [hsum] at hvalue
  unfold secondsValue formatSeconds
  split_ifs with hneg hhead hhead
  · simp only [List.cons_append, List.nil_append, List.tail_cons]
    rw [hvalue, Option.map_some]
    congr 1
    omega
  · simp at hhead
  -- A decimal digit is no sign.
  · exfalso
    cases hdecimal : decimal (t.natAbs / 10000) with
    | nil =>
        rw [hdecimal] at hhead
        simp at hhead
    | cons c rest =>
        have hdigit := decimal_digits (hdecimal.symm ▸ List.mem_cons_self : c ∈ _)
        rw [hdecimal] at hhead
        simp only [List.cons_append, List.nil_append, List.head?_cons, Option.some.injEq] at hhead
        omega
  · rw [List.nil_append, hvalue, Option.map_some]
    congr 1
    omega

/-! ## Keys as they are recorded -/

namespace VNCDoCLIClient

/-- A key's name is decoded to that key. -/
theorem decodeKey_name {key : ℕ} {name : String} (h : reverseMap key = some name) :
    decodeKey (text name) = .ok [key] := by
  have hall : ∀ entry ∈ keymap, decodeKey (text entry.1) = .ok [entry.2] := by decide +kernel
  exact hall (name, key) (mem_keymap h)

/-- No name is a single character, so a character stands for itself. -/
theorem decodeKey_char (c : ℕ) : decodeKey [c] = .ok [c] := by
  have hlength : ∀ entry ∈ keymap, (text entry.1).length ≠ 1 := by decide +kernel
  have hnone : keymap.find? (fun entry => text entry.1 = [c]) = none := by
    rw [List.find?_eq_none]
    intro entry hmem heq
    refine hlength entry hmem ?_
    rw [decide_eq_true_eq] at heq
    rw [heq, List.length_singleton]
  have hcode : keyCode [c] = .ok c := by
    unfold keyCode
    rw [hnone]
    rfl
  change [[c]].mapM keyCode = .ok [c]
  rw [List.mapM_cons, hcode]
  rfl

/-! ## Execution -/

section Execution

variable {delay : ℕ}

/-- What the execution of these arguments comes to. -/
def Executes (delay : ℕ) (args : List Text) (action : ClientAction) : Prop :=
  ∀ turns, args.length ≤ turns →
    ∃ commands, buildLoop delay turns args = .ok commands ∧ runCommands commands = action

theorem executes_nil : Executes delay [] (pure ()) := by
  intro turns _
  refine ⟨[], ?_, rfl⟩
  cases turns <;> rfl

/-- The pauses of `--delay` send nothing. -/
theorem runCommands_delayed (args : List Text) (commands : List Command) :
    runCommands (delayed delay args ++ commands) = runCommands commands := by
  unfold delayed
  split_ifs
  · have hpause : runCommand (.pause (10 * delay)) = pure () := by
      change pause (10 * delay) = pure ()
      rw [pause, if_pos (by positivity)]
    rw [List.singleton_append, runCommands, hpause, pure_bind]
  · rfl

theorem Executes.cons {cmd : Text} {args rest : List Text} {command : Command}
    {action : ClientAction} (h : Executes delay rest action)
    (hparse : parseCommand cmd args = .ok (command, rest)) (hlength : rest.length ≤ args.length) :
    Executes delay (cmd :: args) (runCommand command >>= fun _ => action) := by
  intro turns hturns
  cases turns with
  | zero => simp at hturns
  | succ turns =>
      have hrest : rest.length ≤ turns :=
        le_trans hlength (Nat.le_of_succ_le_succ (by simpa using hturns))
      rcases h turns hrest with ⟨commands, hbuild, hrun⟩
      refine ⟨command :: (delayed delay rest ++ commands), ?_, ?_⟩
      · rw [buildLoop, hparse]
        change (buildLoop delay turns rest >>= _) = _
        rw [hbuild]
        rfl
      · rw [runCommands, runCommands_delayed, hrun]

/-- These words do this, whatever follows. -/
def Performs (delay : ℕ) (words : List Text) (action : ClientAction) : Prop :=
  ∀ rest later, Executes delay rest later →
    Executes delay (words ++ rest) (action >>= fun _ => later)

theorem performs_nil : Performs delay [] (pure ()) := by
  intro rest later h
  rwa [List.nil_append, pure_bind]

theorem Performs.append {a b : List Text} {first second : ClientAction}
    (ha : Performs delay a first) (hb : Performs delay b second) :
    Performs delay (a ++ b) (first >>= fun _ => second) := by
  intro rest later h
  rw [List.append_assoc, bind_assoc]
  exact ha _ _ (hb _ _ h)

theorem popInt_decimal (n : ℕ) (args : List Text) : popInt (decimal n :: args) = .ok (n, args) := by
  simp only [popInt, popText, bind, Except.bind, digitsValue_decimal]
  rfl

theorem popFloat_formatSeconds (t : ℤ) (args : List Text) :
    popFloat (formatSeconds t :: args) = .ok (t, args) := by
  simp only [popFloat, popText, bind, Except.bind, secondsValue_formatSeconds]
  rfl

theorem performs_pause (t : ℤ) :
    Performs delay [text "pause", formatSeconds t] (pause t) := by
  intro rest later h
  have hparse : parseCommand (text "pause") (formatSeconds t :: rest) = .ok (.pause t, rest) := by
    unfold parseCommand
    rw [if_neg (by decide), if_neg (by decide), if_neg (by decide), if_neg (by decide),
      if_neg (by decide), if_neg (by decide), if_neg (by decide), if_pos (by decide),
      popFloat_formatSeconds]
    rfl
  exact h.cons hparse (Nat.le_succ _)

theorem performs_keyDown (key : Text) : Performs delay [text "keydown", key] (keyDown key) := by
  intro rest later h
  have hparse : parseCommand (text "keydown") (key :: rest) = .ok (.keyDown key, rest) := by
    unfold parseCommand
    rw [if_neg (by decide), if_pos (by decide)]
    rfl
  exact h.cons hparse (Nat.le_succ _)

theorem performs_keyUp (key : Text) : Performs delay [text "keyup", key] (keyUp key) := by
  intro rest later h
  have hparse : parseCommand (text "keyup") (key :: rest) = .ok (.keyUp key, rest) := by
    unfold parseCommand
    rw [if_neg (by decide), if_neg (by decide), if_pos (by decide)]
    rfl
  exact h.cons hparse (Nat.le_succ _)

theorem performs_move (x y : ℕ) :
    Performs delay [text "move", decimal x, decimal y] (mouseMove x y) := by
  intro rest later h
  have hparse : parseCommand (text "move") (decimal x :: decimal y :: rest) =
      .ok (.mouseMove x y, rest) := by
    unfold parseCommand
    rw [if_neg (by decide), if_neg (by decide), if_neg (by decide), if_pos (by decide),
      popInt_decimal]
    change (popInt (decimal y :: rest) >>= _) = _
    rw [popInt_decimal]
    rfl
  exact h.cons hparse (Nat.le_trans (Nat.le_succ _) (Nat.le_succ _))

theorem performs_click (button : ℕ) :
    Performs delay [text "click", decimal button] (mousePress button) := by
  intro rest later h
  have hparse : parseCommand (text "click") (decimal button :: rest) =
      .ok (.mousePress button, rest) := by
    unfold parseCommand
    rw [if_neg (by decide), if_neg (by decide), if_neg (by decide), if_neg (by decide),
      if_pos (by decide), popInt_decimal]
    rfl
  exact h.cons hparse (Nat.le_succ _)

end Execution

/-! ## Scripts -/

/-- The script reads as commands that do this. -/
def Plays (delay : ℕ) (script : Text) (action : ClientAction) : Prop :=
  ∃ args, shlexSplit (newlines script) = .ok args ∧ Executes delay args action

variable {delay : ℕ}

theorem plays_nil : Plays delay [] (pure ()) :=
  ⟨[], rfl, executes_nil⟩

/-- A line that is split into words that perform an action plays it before the rest. -/
theorem Plays.line {line line' script : Text} {words : List Text} {action later : ClientAction}
    (h : Plays delay script later) (hnewlines : newlines (line ++ script) = line' ++ newlines script)
    (hsplits : Splits line' words) (hwords : Performs delay words action) :
    Plays delay (line ++ script) (action >>= fun _ => later) := by
  rcases h with ⟨args, hargs, hexecutes⟩
  refine ⟨words ++ args, ?_, hwords _ _ hexecutes⟩
  rw [hnewlines, hsplits, hargs]
  rfl

/-- A replay is what the commands come to. -/
theorem Plays.replay_eq {script : Text} {action : ClientAction} (h : Plays delay script action) :
    replay delay script = sentAfter action {} := by
  rcases h with ⟨args, hargs, hexecutes⟩
  rcases hexecutes args.length le_rfl with ⟨commands, hbuild, rfl⟩
  have hread : readScript delay script = .ok (delayed delay args ++ commands) := by
    simp only [readScript, hargs, buildCommandList, hbuild]
    rfl
  simp only [replay, hread, runCommands_delayed]

end VNCDoCLIClient

end Vncdotool
