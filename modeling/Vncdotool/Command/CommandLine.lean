import Mathlib.Data.List.Infix
import Vncdotool.Command.ExitStatus
import Vncdotool.Command.Shlex
import Vncdotool.Parsing.Recognisers

/-!
# CommandLine — what the words of a command line are read as

`build_command_list` with every one of its branches.  It takes the words one command at a time and
queues the methods that the client is to call.  Numbers are whatever `int` and `float` make of a
word, and `F` stands for the floats.  A file is read by its name, and `-` is the standard input,
which is closed behind the first command that reads it.
-/

namespace Vncdotool

open Parsing

namespace CommandLine

/-! ## Calls -/

/-- A method of `VNCDoCLIClient` with its arguments, as it is queued. -/
inductive ClientCall (F : Type)
  | keyPress (key : Text)
  | keyDown (key : Text)
  | keyUp (key : Text)
  | mouseMove (x y : ℤ)
  | mousePress (button : ℤ)
  | mouseDown (button : ℤ)
  | mouseUp (button : ℤ)
  | mouseDrag (x y : ℤ)
  | paste (content : Text)
  | captureScreen (filename : Text) (incremental : ℕ)
  | captureRegion (filename : Text) (x y w h : ℤ)
  | expectScreen (filename : Text) (maxrms : F)
  | expectRegion (filename : Text) (x y : ℤ) (maxrms : F)
  | pause (duration : F)
  deriving DecidableEq, Repr

/-- The texts of a `CommandParseError`, by what they interpolate. -/
inductive ParseFailure
  /-- `unsupported image format "{imgformat}", choose one of {SUPPORTED_FORMATS}` -/
  | unsupportedFormat (imgformat : Text)
  /-- `unknown cmd "{cmd}"` -/
  | unknownCmd (cmd : Text)
  deriving DecidableEq, Repr

/-- What goes wrong with a file: it cannot be opened, or is not text. -/
inductive FileError
  | osError
  | valueError
  deriving DecidableEq, Repr

/-- An exception that leaves `build_command_list`. -/
inductive BuildException
  | commandParseError (reason : ParseFailure)
  | python (exc : PyError)
  | zeroDivisionError
  | file (exc : FileError)
  deriving DecidableEq, Repr

/-- The Python that runs the program, and its files. -/
structure Host (F : Type) where
  /-- `int(word)`; `none` where it raises `ValueError`. -/
  int : Text → Option ℤ
  /-- `float(word)`. -/
  float : Text → Option F
  isfile : Text → Bool
  /-- `open(filename).read()`. -/
  read : Text → Except FileError Text
  /-- `sys.stdin.read()`. -/
  stdin : Except FileError Text

/-- The options that the words are read under. -/
structure Options (F : Type) where
  delay : Option F := none
  warp : F
  incrementalRefreshes : Bool := false

/-! ## Formats of pictures -/

def supportedFormats : List Text :=
  [text "png", text "jpg", text "jpeg", text "gif", text "bmp"]

/-- `os.path.splitext(filename)[1][1:]`: what stands behind the last point of the file's name, unless
nothing but points stands before it. -/
def imageFormat (filename : Text) : Text :=
  let base := (filename.reverse.takeWhile (· ≠ 47)).reverse
  let stem := base.dropWhile (· = 46)
  if 46 ∈ stem then (stem.reverse.takeWhile (· ≠ 46)).reverse else []

example : imageFormat (text "shots.d/.hidden") = [] := by decide +kernel

/-! ## Reading arguments -/

/-- A parser of words; its state tells whether the standard input was closed. -/
abbrev WordParser (α : Type) : Type :=
  Parser BuildException Bool Text α

variable {F : Type}

/-- `args.pop(0)`. -/
def pop : WordParser Text :=
  next (.python .indexError)

/-- What a conversion makes of a word, or its `ValueError`. -/
def converted {α : Type} (x : Option α) : WordParser α :=
  match x with
  | some a => pure a
  | none => throw (.python .valueError)

/-- `int(args.pop(0))`. -/
def popInt (host : Host F) : WordParser ℤ := do
  let word ← pop
  converted (host.int word)

/-- `float(args.pop(0))`. -/
def popFloat (host : Host F) : WordParser F := do
  let word ← pop
  converted (host.float word)

/-- `open(filename) if filename != "-" else sys.stdin`, and `read`. -/
def content (host : Host F) (closed : Bool) (filename : Text) : Except BuildException Text :=
  if filename ≠ text "-" then (host.read filename).mapError .file
  else if closed then .error (.python .valueError)
  else host.stdin.mapError .file

/-- The standard input is closed behind a command that has read it. -/
def closedBehind (closed : Bool) (filename : Text) : Bool :=
  closed || decide (filename = text "-")

/-- `filename = args.pop(0)` and the `with` that reads the file. -/
def popContent (host : Host F) : WordParser Text := do
  let filename ← pop
  let closed ← getState
  let text ← lift (content host closed filename)
  setState (closedBehind closed filename)
  return text

/-- `imgformat not in SUPPORTED_FORMATS` raises. -/
def checkFormat (filename : Text) : WordParser Unit :=
  if imageFormat filename ∈ supportedFormats then pure ()
  else throw (.commandParseError (.unsupportedFormat (imageFormat filename)))

/-! ## Keys that are typed -/

/-- The key of a character of `type`. -/
def typedKey (c : ℕ) : Text :=
  if c = 45 then text "minus" else [c]

/-- The key of a character of `typefile`. -/
def typedFileKey (c : ℕ) : Text :=
  if c = 10 then text "enter"
  else if c = 9 then text "tab"
  else if c = 45 then text "minus"
  else [c]

/-- `content.replace("\r\n", "\n")`. -/
def replaceCRLF : Text → Text
  | [] => []
  | 13 :: 10 :: rest => 10 :: replaceCRLF rest
  | c :: rest => c :: replaceCRLF rest

section Build

variable [Zero F] [NatCast F] [Div F] [DecidableEq F]

/-- `if delay`. -/
def truthy (delay : Option F) : Option F :=
  delay.filter (· ≠ 0)

/-- The delay in seconds, where there is one. -/
def delaySeconds (options : Options F) : Option F :=
  truthy ((truthy options.delay).map (· / (1000 : ℕ)))

/-- `if delay: ... client.pause, delay`. -/
def delayed (options : Options F) : List (ClientCall F) :=
  (delaySeconds options).toList.map .pause

/-- A key press for each of the keys, with the delay behind it. -/
def typing (options : Options F) (keys : List Text) : List (ClientCall F) :=
  keys.flatMap fun key => .keyPress key :: delayed options

/-- The division of floats. -/
def quotient (a b : F) : WordParser F :=
  if b = 0 then throw .zeroDivisionError else pure (a / b)

/-! ## `build_command_list` -/

/-- One turn of the loop: the calls that are queued for the word `cmd`. -/
def parseCommand (host : Host F) (options : Options F) (cmd : Text) :
    WordParser (List (ClientCall F)) :=
  if cmd = text "key" then do
    let key ← pop
    return [.keyPress key]
  else if cmd = text "kdown" ∨ cmd = text "keydown" then do
    let key ← pop
    return [.keyDown key]
  else if cmd = text "kup" ∨ cmd = text "keyup" then do
    let key ← pop
    return [.keyUp key]
  else if cmd = text "move" ∨ cmd = text "mousemove" then do
    let x ← popInt host
    let y ← popInt host
    return [.mouseMove x y]
  else if cmd = text "click" then do
    let button ← popInt host
    return [.mousePress button]
  else if cmd = text "mdown" ∨ cmd = text "mousedown" then do
    let button ← popInt host
    return [.mouseDown button]
  else if cmd = text "mup" ∨ cmd = text "mouseup" then do
    let button ← popInt host
    return [.mouseUp button]
  else if cmd = text "type" then do
    let text ← pop
    return typing options (text.map typedKey)
  else if cmd = text "typefile" then do
    let content ← popContent host
    return typing options ((content.filter (· ≠ 13)).map typedFileKey)
  else if cmd = text "pastefile" then do
    let content ← popContent host
    return [.paste (replaceCRLF content)]
  else if cmd = text "capture" then do
    let filename ← pop
    checkFormat filename
    return [.captureScreen filename options.incrementalRefreshes.toNat]
  else if cmd = text "expect" then do
    let filename ← pop
    let rms ← popFloat host
    return [.expectScreen filename rms]
  else if cmd = text "rcapture" then do
    let filename ← pop
    let x ← popInt host
    let y ← popInt host
    let w ← popInt host
    let h ← popInt host
    checkFormat filename
    return [.captureRegion filename x y w h]
  else if cmd = text "rexpect" then do
    let filename ← pop
    let x ← popInt host
    let y ← popInt host
    let rms ← popFloat host
    return [.expectRegion filename x y rms]
  else if cmd = text "pause" ∨ cmd = text "sleep" then do
    let seconds ← popFloat host
    let duration ← quotient seconds options.warp
    return [.pause duration]
  -- `cmd in "drag"`
  else if cmd <:+: text "drag" then do
    let x ← popInt host
    let y ← popInt host
    return [.mouseDrag x y]
  else if host.isfile cmd then do
    let script ← lift ((host.read cmd).mapError .file)
    let words ← lift ((shlexSplit script).mapError .python)
    unread words
    return []
  else
    throw (.commandParseError (.unknownCmd cmd))

/-- The loop, for at most `turns` turns; a script that names itself has no end. -/
def buildLoop (host : Host F) (options : Options F) :
    ℕ → Bool → List Text → Option (Except BuildException (List (ClientCall F)))
  | _, _, [] => some (.ok [])
  | 0, _, _ :: _ => none
  | turns + 1, closed, cmd :: args =>
      match parseCommand host options cmd (closed, args) with
      | .error exc _ => some (.error exc)
      | .ok calls (closed, args) =>
          -- `if delay and args`
          let pauses := if args = [] then [] else delayed options
          (buildLoop host options turns closed args).map
            (Except.map fun later => calls ++ pauses ++ later)

def buildCommandList (host : Host F) (options : Options F) (turns : ℕ) (args : List Text) :
    Option (Except BuildException (List (ClientCall F))) :=
  buildLoop host options turns false args

/-! ## `build_tool` -/

/-- How `build_tool` goes on: it connects with this queue, or ends before that. -/
inductive ToolStart (F : Type)
  | connects (queue : List (ClientCall F))
  | exits (status : ExitStatus)
  | raises (exc : BuildException)

/-- The `except CommandParseError` around `build_command_list`. -/
def start : Except BuildException (List (ClientCall F)) → ToolStart F
  | .ok queue => .connects queue
  | .error (.commandParseError _) => .exits .usage
  | .error exc => .raises exc

/-- The words are those of the standard input where the only one is `-`; nothing is left of it then
for the commands to read. -/
def buildTool (host : Host F) (options : Options F) (turns : ℕ) (args : List Text) :
    Option (ToolStart F) :=
  if args = [text "-"] then
    match host.stdin with
    | .error exc => some (.raises (.file exc))
    | .ok script =>
        match shlexSplit script with
        | .error exc => some (.raises (.python exc))
        | .ok args =>
            (buildCommandList { host with stdin := .ok [] } options turns args).map start
  else
    (buildCommandList host options turns args).map start

end Build

end CommandLine

end Vncdotool
