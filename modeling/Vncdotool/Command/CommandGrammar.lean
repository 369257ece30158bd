import Vncdotool.Command.CommandLine

/-!
# CommandGrammar — the commands that are documented

The grammar of the command line, apart from the code: which words are a command, what its arguments
have to be, and which calls it stands for.  Beside it, what the loop of `build_command_list` takes
for a command and what it refuses.  Of what is no sentence it refuses only an unknown word and a
picture's format: a missing argument, or one of another kind, comes out as an `IndexError`, a
`ValueError` or the error of a file, and a piece of the word `drag` is obeyed as `drag` is.
-/

namespace Vncdotool

open Parsing

namespace CommandLine

variable {F : Type}

/-! ## The grammar -/

/-- A command with its arguments. -/
inductive Instruction (F : Type)
  | key (key : Text)
  | keydown (key : Text)
  | keyup (key : Text)
  | move (x y : ℤ)
  | click (button : ℤ)
  | mousedown (button : ℤ)
  | mouseup (button : ℤ)
  | type (text : Text)
  | typefile (content : Text)
  | pastefile (content : Text)
  | capture (filename : Text)
  | expect (filename : Text) (fuzz : F)
  | rcapture (filename : Text) (x y w h : ℤ)
  | rexpect (filename : Text) (x y : ℤ) (fuzz : F)
  | pause (seconds : F)
  | drag (x y : ℤ)
  deriving DecidableEq, Repr

/-- A picture is saved in the format of its file's name, which has to be one of these. -/
def Picture (filename : Text) : Prop :=
  imageFormat filename ∈ supportedFormats

instance (filename : Text) : Decidable (Picture filename) :=
  inferInstanceAs (Decidable (_ ∈ _))

/-- The words of a command: its name or another one that it goes by, and arguments of the right
kind.  From the standard input there is something to read once. -/
inductive Written (host : Host F) : Instruction F → Bool → List Text → Bool → Prop
  | key (closed : Bool) (k : Text) :
      Written host (.key k) closed [text "key", k] closed
  | keydown (closed : Bool) {word : Text} (k : Text) :
      word = text "kdown" ∨ word = text "keydown" →
      Written host (.keydown k) closed [word, k] closed
  | keyup (closed : Bool) {word : Text} (k : Text) :
      word = text "kup" ∨ word = text "keyup" →
      Written host (.keyup k) closed [word, k] closed
  | move (closed : Bool) {word a b : Text} {x y : ℤ} :
      word = text "move" ∨ word = text "mousemove" →
      host.int a = some x → host.int b = some y →
      Written host (.move x y) closed [word, a, b] closed
  | click (closed : Bool) {a : Text} {button : ℤ} :
      host.int a = some button →
      Written host (.click button) closed [text "click", a] closed
  | mousedown (closed : Bool) {word a : Text} {button : ℤ} :
      word = text "mdown" ∨ word = text "mousedown" → host.int a = some button →
      Written host (.mousedown button) closed [word, a] closed
  | mouseup (closed : Bool) {word a : Text} {button : ℤ} :
      word = text "mup" ∨ word = text "mouseup" → host.int a = some button →
      Written host (.mouseup button) closed [word, a] closed
  | type (closed : Bool) (t : Text) :
      Written host (.type t) closed [text "type", t] closed
  | typefile (closed : Bool) {filename t : Text} :
      content host closed filename = .ok t →
      Written host (.typefile t) closed [text "typefile", filename] (closedBehind closed filename)
  | pastefile (closed : Bool) {filename t : Text} :
      content host closed filename = .ok t →
      Written host (.pastefile t) closed [text "pastefile", filename] (closedBehind closed filename)
  | capture (closed : Bool) {filename : Text} :
      Picture filename →
      Written host (.capture filename) closed [text "capture", filename] closed
  | expect (closed : Bool) (filename : Text) {a : Text} {fuzz : F} :
      host.float a = some fuzz →
      Written host (.expect filename fuzz) closed [text "expect", filename, a] closed
  | rcapture (closed : Bool) {filename a b c d : Text} {x y w h : ℤ} :
      host.int a = some x → host.int b = some y → host.int c = some w → host.int d = some h →
      Picture filename →
      Written host (.rcapture filename x y w h) closed [text "rcapture", filename, a, b, c, d] closed
  | rexpect (closed : Bool) (filename : Text) {a b c : Text} {x y : ℤ} {fuzz : F} :
      host.int a = some x → host.int b = some y → host.float c = some fuzz →
      Written host (.rexpect filename x y fuzz) closed [text "rexpect", filename, a, b, c] closed
  | pause (closed : Bool) {word a : Text} {seconds : F} :
      word = text "pause" ∨ word = text "sleep" → host.float a = some seconds →
      Written host (.pause seconds) closed [word, a] closed
  | drag (closed : Bool) {a b : Text} {x y : ℤ} :
      host.int a = some x → host.int b = some y →
      Written host (.drag x y) closed [text "drag", a, b] closed

/-- These words are these commands, one after the other. -/
def Sentence (host : Host F) (instructions : List (Instruction F)) (words : List Text) : Prop :=
  ∃ closed, Phrases (Written host) instructions false words closed

/-- The names of the commands. -/
def commandWords : List Text :=
  [text "key", text "kdown", text "keydown", text "kup", text "keyup", text "move",
    text "mousemove", text "click", text "mdown", text "mousedown", text "mup", text "mouseup",
    text "type", text "typefile", text "pastefile", text "capture", text "expect", text "rcapture",
    text "rexpect", text "pause", text "sleep", text "drag"]

/-! ## What the commands stand for -/

section Meaning

variable [Zero F] [NatCast F] [Div F] [DecidableEq F] (options : Options F)

/-- The calls of a command. -/
def Instruction.calls : Instruction F → List (ClientCall F)
  | key k => [.keyPress k]
  | keydown k => [.keyDown k]
  | keyup k => [.keyUp k]
  | move x y => [.mouseMove x y]
  | click button => [.mousePress button]
  | mousedown button => [.mouseDown button]
  | mouseup button => [.mouseUp button]
  | type t => typing options (t.map typedKey)
  | typefile t => typing options ((t.filter (· ≠ 13)).map typedFileKey)
  | pastefile t => [.paste (replaceCRLF t)]
  | capture filename => [.captureScreen filename options.incrementalRefreshes.toNat]
  | expect filename fuzz => [.expectScreen filename fuzz]
  | rcapture filename x y w h => [.captureRegion filename x y w h]
  | rexpect filename x y fuzz => [.expectRegion filename x y fuzz]
  | pause seconds => [.pause (seconds / options.warp)]
  | drag x y => [.mouseDrag x y]

/-- The calls of commands, with the delay between one command and the next. -/
def queued : List (List (ClientCall F)) → List (ClientCall F)
  | [] => []
  | calls :: more => calls ++ (if more = [] then [] else delayed options) ++ queued more

/-- `build_command_list` comes to this, however many more turns than words the loop is given. -/
def Returns (host : Host F) (words : List Text)
    (result : Except BuildException (List (ClientCall F))) : Prop :=
  ∀ turns, words.length ≤ turns → buildCommandList host options turns words = some result

/-- The words of a sentence are queued as its commands; any other words are refused with the
exception that `build_tool` turns into the exit status for a bad command line. -/
structure AcceptsLanguage (host : Host F) (words : List Text) : Prop where
  accepts : ∀ instructions, Sentence host instructions words →
    Returns options host words (.ok (queued options (instructions.map (·.calls options))))
  refuses : (¬ ∃ instructions, Sentence host instructions words) →
    ∃ result, Returns options host words result ∧
      (∃ reason, result = .error (.commandParseError reason)) ∧ start result = .exits .usage

end Meaning

/-! ## What the code takes for a command, and what it refuses -/

/-- A piece of the word `drag`, the empty one and the whole included, with two numbers. -/
def PieceOfDrag (host : Host F) (x y : ℤ) (words : List Text) : Prop :=
  ∃ word a b, word <:+: text "drag" ∧ host.int a = some x ∧ host.int b = some y ∧
    words = [word, a, b]

/-- What the code takes: a command, or what it obeys like `drag`. -/
inductive Taken (host : Host F) : Instruction F → Bool → List Text → Bool → Prop
  | written {instruction : Instruction F} {closed closed' : Bool} {words : List Text} :
      Written host instruction closed words closed' →
      Taken host instruction closed words closed'
  | piece {closed : Bool} {words : List Text} {x y : ℤ} :
      PieceOfDrag host x y words → Taken host (.drag x y) closed words closed

/-- What the code refuses at the front of these words: a word that is no command nor a piece of
`drag`, or a picture of a format that is not supported, when its numbers are complete. -/
inductive Refused (host : Host F) : List Text → Prop
  | unknown {word : Text} {rest : List Text} :
      word ∉ commandWords → ¬ word <:+: text "drag" → Refused host (word :: rest)
  | capture {filename : Text} {rest : List Text} :
      ¬ Picture filename → Refused host (text "capture" :: filename :: rest)
  | rcapture {filename a b c d : Text} {x y w h : ℤ} {rest : List Text} :
      host.int a = some x → host.int b = some y → host.int c = some w → host.int d = some h →
      ¬ Picture filename →
      Refused host (text "rcapture" :: filename :: a :: b :: c :: d :: rest)

/-- The words are a sentence, or they come, behind what the code takes, to what it refuses. -/
def Handled (host : Host F) (words : List Text) : Prop :=
  (∃ instructions, Sentence host instructions words) ∨
    ∃ instructions taken refused closed, words = taken ++ refused ∧
      Phrases (Taken host) instructions false taken closed ∧ Refused host refused

end CommandLine

end Vncdotool
