import Vncdotool.Const
import Vncdotool.Version
import Vncdotool.RFB.PixelFormat
import Vncdotool.Decoders.Buffer

/-!
# Client — the state, callbacks and primitive actions of `RFBClient`

An `RFBClient` is a record; its methods are `EStateM` actions on it, so that a Python exception
leaves the state as it was mutated up to the raise.  Two things are not in the record:

* `_packet`, which belongs to the receive loop (`RFB/Receive.lean`).  Apart from `_handleInitial`,
  which is given it, no handler reads the buffer, and `abortConnection`'s `clear()` is done by the
  loop on seeing the abort flag;
* `_already_expecting`, which only keeps `expect` from re-entering the loop that called the handler.

A parked continuation is a `Handler`: the bound method together with its extra arguments.  What the
outside world sees of a client, in order, is its `log`: the callbacks it invoked, the bytes it
wrote and the `loseConnection` calls it made.
-/

namespace Vncdotool

open Wire

/-! ## Callbacks -/

@[ext] structure Rect where
  x : ℕ
  y : ℕ
  width : ℕ
  height : ℕ
  deriving DecidableEq, Repr

/-- The texts handed to `vncProtocolError`, by what they interpolate. -/
inductive ProtocolFailure
  /-- `invalid initial server response {head!r}` -/
  | invalidInitialResponse (head : Bytes)
  /-- `unknown security types: {types!r}` -/
  | unknownSecurityTypes (types : Bytes)
  /-- `unknown auth response {auth!r}` -/
  | unknownAuthResponse (auth : ℕ)
  /-- `Connection refused: {block!r}` -/
  | connectionRefused (block : Bytes)
  /-- `unknown message received {msgid!r}` -/
  | unknownMessage (msgid : ℕ)
  /-- `unknown encoding received {encoding!r}` -/
  | unknownEncoding (encoding : ℤ)
  /-- `rectangle {width}x{height} does not fit a {limit_w}x{limit_h} framebuffer` -/
  | doesNotFit (width height limitW limitH : ℕ)
  /-- `no memory for a {width}x{height} rectangle` -/
  | noMemory (width height : ℕ)
  /-- `cannot decode this rectangle: {exc}` -/
  | cannotDecode (exc : PyError)
  /-- `decoder asked for {size} bytes` -/
  | negativeSize (size : ℤ)
  /-- `cannot decode the requested pixel format: {exc}` -/
  | undecodableFormat
  deriving DecidableEq, Repr

/-- What `vncAuthFailed` is called with. -/
inductive AuthFailure
  /-- `authentication failed` -/
  | failed
  /-- `too many tries to log in` -/
  | tooManyTries
  | message (block : Bytes)
  deriving DecidableEq, Repr

/-- The overridable methods of `RFBClient`, with the arguments of a call. -/
inductive Callback
  | vncConnectionMade
  | vncRequestPassword
  | vncAuthFailed (reason : AuthFailure)
  | vncProtocolError (reason : ProtocolFailure)
  | beginUpdate
  | commitUpdate (rectangles : List Rect)
  | updateRectangle (x y width height : ℤ) (data : Bytes) (pixelFormat : PixelFormat)
  | copyRectangle (srcx srcy x y width height : ℤ)
  | fillRectangle (x y width height : ℤ) (color : Option Bytes)
  | updateCursor (x y width height : ℤ) (image mask : Bytes)
  | updateDesktopSize (width height : ℤ)
  | setColorMap (first : ℕ) (colors : List (ℕ × ℕ × ℕ))
  | bell
  | copyText (text : String)
  deriving DecidableEq, Repr

/-- What an observer of the client sees it do. -/
inductive Event
  | callback (call : Callback)
  | write (data : Bytes)
  | loseConnection
  deriving DecidableEq, Repr

/-- A failure report: `vncProtocolError`, `vncAuthFailed` or `loseConnection`. -/
def Event.isFailure : Event → Bool
  | .callback (.vncProtocolError _) => true
  | .callback (.vncAuthFailed _) => true
  | .loseConnection => true
  | _ => false

/-! ## Parked continuations -/

/-- The registered decoders of `decoders.DECODERS`. -/
inductive Decoder
  | rawDecoder
  | copyRectDecoder
  deriving DecidableEq, Repr

/-- `self._decoders.get(encoding)`. -/
def Decoder.get? : Option Encoding → Option Decoder
  | some .raw => some .rawDecoder
  | some .copyRectangle => some .copyRectDecoder
  | _ => none

/-- A decoder's generator, before its first `send` or suspended at its one `yield`. -/
inductive Generator
  | decodePixels (target : RectBuffer) (suspended : Bool)
  | decodeForClient (rect : Rect) (suspended : Bool)
  deriving DecidableEq, Repr

/-- The position and colours a Hextile continuation carries. -/
structure HextileTile where
  bg : Option Bytes
  color : Option Bytes
  rect : Rect
  tx : ℕ
  ty : ℕ
  deriving DecidableEq, Repr

/-- `_expected_handler` with `_expected_args`. -/
inductive Handler
  | numberSecurityTypes
  | securityTypes
  | auth
  | connFailed
  | connMessage
  | vncAuth
  | dhAuth
  | dhAuthKey
  | dhAuthCert
  | vncAuthResult
  | authFailed
  | authFailedMessage
  | serverInit
  | serverName
  | connection
  | framebufferUpdate
  | rectangle
  | pumpBlock (generator : Generator) (finish : Option Rect)
  | decodeRRE (rect : Rect)
  | rreSubRectangles (topx topy : ℕ)
  | decodeCORRE (rect : Rect)
  | decodeCORRERectangles (topx topy : ℕ)
  | decodeHextile (tile : HextileTile)
  | decodeHextileSubrect (subencoding : UInt8) (tile : HextileTile) (tw th : ℕ)
  | decodeHextileRAW (tile : HextileTile) (tw th : ℕ)
  | decodeHextileSubrectsColoured (tile : HextileTile)
  | decodeHextileSubrectsFG (tile : HextileTile)
  | decodeZRLE (rect : Rect)
  | decodeZRLEdata (rect : Rect)
  | decodePseudoCursor (rect : Rect)
  | colourMapEntries
  | colourMapEntriesValue (first : ℕ)
  | serverCutText
  | serverCutTextValue
  deriving DecidableEq, Repr

/-! ## The client -/

/-- `self._handler`: the greeting is awaited, or blocks are. -/
inductive Stage
  | handleInitial
  | handleExpected
  deriving DecidableEq, Repr

/-- The attributes of the connection's factory the client reads. -/
structure Factory where
  username : Option String := none
  password : Option String := none
  shared : ℕ := 0
  deriving DecidableEq, Repr

/-- The attributes of an `RFBClient`; `app` holds those a subclass adds. -/
structure RFBClient (σ : Type) where
  stage : Stage := .handleInitial
  expectedHandler : Handler := .connection
  expectedLen : ℕ := 12
  aborted : Bool := false
  version : Ver := ⟨0, 0⟩
  versionServer : Ver := ⟨0, 0⟩
  /-- The blocks the zlib stream has decompressed so far. -/
  zlibStream : List Bytes := []
  negotiatedEncodings : List Encoding := [.raw]
  pixelFormat : PixelFormat := {}
  width : ℕ := 0
  height : ℕ := 0
  rectBacking : Bytes := []
  rectangles : ℕ := 0
  rectanglePos : List Rect := []
  challenge : Bytes := []
  generator : ℕ := 0
  keyLen : ℕ := 0
  modulus : Bytes := []
  serverKey : Bytes := []
  name : Bytes := []
  factory : Factory := {}
  app : σ
  log : List Event := []
  deriving DecidableEq, Repr

/-- An action of a client method. -/
abbrev Py (σ : Type) := EStateM PyError (RFBClient σ)

/-- What the client calls outside this repository. -/
structure Env where
  /-- Whether `bytearray(n)` finds the memory. -/
  alloc : ℕ → Bool
  /-- Single DES of `data` under `key`. -/
  tripleDES : Bytes → Bytes → Bytes
  /-- The DH exchange with prime, generator and server key: shared secret and own public value. -/
  dhExchange : ℕ → ℕ → ℕ → Except PyError (Bytes × ℕ)
  md5 : Bytes → Bytes
  aesECB : Bytes → Bytes → Except PyError Bytes
  /-- `decompress` of a block after the blocks seen before it. -/
  inflate : List Bytes → Bytes → Except PyError Bytes
  /-- What is typed at `input("username: ")` and `getpass.getpass("password:")`. -/
  typedUsername : String
  typedPassword : String

/-- The environment and the callback implementations of a class of clients. -/
structure Runtime (σ : Type) where
  env : Env
  override : Callback → Py σ Unit

variable {σ : Type}

/-! ## Primitive actions -/

def record (event : Event) : Py σ Unit :=
  modify fun c => { c with log := c.log ++ [event] }

/-- `self.transport.write(data)`. -/
def write (data : Bytes) : Py σ Unit :=
  record (.write data)

/-- `self.transport.loseConnection()`. -/
def loseConnection : Py σ Unit :=
  record .loseConnection

/-- `expect` as a handler calls it: `_already_expecting` is set, so it only arms the loop. -/
def expect (handler : Handler) (size : ℕ) : Py σ Unit :=
  modify fun c => { c with expectedHandler := handler, expectedLen := size }

/-- Invoke an overridable method. -/
def Runtime.call (rt : Runtime σ) (cb : Callback) : Py σ Unit := do
  record (.callback cb)
  rt.override cb

/-- `vncProtocolError` and `loseConnection`, the way the exits outside the pump give up. -/
def Runtime.protocolError (rt : Runtime σ) (reason : ProtocolFailure) : Py σ Unit := do
  rt.call (.vncProtocolError reason)
  loseConnection

/-- `vncAuthFailed` and `loseConnection`. -/
def Runtime.authFailed (rt : Runtime σ) (reason : AuthFailure) : Py σ Unit := do
  rt.call (.vncAuthFailed reason)
  loseConnection

/-- Report a protocol failure and stop parsing for good. -/
def Runtime.abortConnection (rt : Runtime σ) (reason : ProtocolFailure) : Py σ Unit := do
  modify fun c => { c with aborted := true }
  rt.protocolError reason

/-! ## Passwords -/

/-- One octet of `reverse_bits`: `sum((128 >> i) if (k & (1 << i)) else 0 for i in range(8))`. -/
def reverseBits (k : UInt8) : UInt8 :=
  UInt8.ofNat (((List.range 8).map fun i => if k.toNat.testBit i then 128 >>> i else 0).sum)

/-- `f"{text:\0<n}"`. -/
def padNul (n : ℕ) (text : List Char) : List Char :=
  text ++ List.replicate (n - text.length) (Char.ofNat 0)

/-- `_vnc_des`: the password cut or padded to eight ASCII characters, bits reversed. -/
def vncDes (password : String) : Except PyError Bytes :=
  let pw := padNul 8 (password.toList.take 8)
  if pw.all fun c => c.toNat < 128 then
    .ok (pw.map fun c => reverseBits (UInt8.ofNat c.toNat))
  else
    .error .unicodeError

/-- Raise what a called function raised. -/
def liftExcept {α : Type} : Except PyError α → Py σ α
  | .ok a => pure a
  | .error e => throw e

/-- `sendPassword(password)`. -/
def Runtime.sendPassword (rt : Runtime σ) (password : String) : Py σ Unit := do
  let key ← liftExcept (vncDes password)
  let c ← get
  write (rt.env.tripleDES key c.challenge)

/-- `ardRequestCredentials`: ask for what the factory lacks. -/
def Runtime.ardRequestCredentials (rt : Runtime σ) : Py σ Unit :=
  modify fun c =>
    { c with
      factory :=
        { c.factory with
          username := some (c.factory.username.getD rt.env.typedUsername)
          password := some (c.factory.password.getD rt.env.typedPassword) } }

/-- `_encryptArd`. -/
def Runtime.encryptArd (rt : Runtime σ) : Py σ Unit := do
  let c ← get
  let username := c.factory.username.getD ""
  let password := c.factory.password.getD ""
  let userStruct := String.ofList (padNul 64 username.toList ++ padNul 64 password.toList)
  let (sharedKey, y) ←
    liftExcept (rt.env.dhExchange (unpackBE c.modulus) c.generator (unpackBE c.serverKey))
  let ciphertext ← liftExcept (rt.env.aesECB (rt.env.md5 sharedKey) userStruct.toUTF8.toList)
  if 256 ^ c.keyLen ≤ y then
    throw .overflowError
  write (ciphertext ++ packBE c.keyLen y)

/-! ## The callbacks of `RFBClient` itself -/

/-- `color * width * height`, empty for a factor that is not positive. -/
def repeatColor (color : Bytes) (width height : ℤ) : Bytes :=
  (List.replicate (width.toNat * height.toNat) color).flatten

/-- The default bodies: two do something, the rest are there to be overridden. -/
def RFBClient.defaultCallback (env : Env) : Callback → Py σ Unit
  | .vncRequestPassword => do
      match (← get).factory.password with
      | none => loseConnection
      | some password => Runtime.sendPassword ⟨env, fun _ => pure ()⟩ password
  | .fillRectangle x y width height color => do
      match color with
      | none => throw .typeError
      | some color =>
          let c ← get
          record (.callback
            (.updateRectangle x y width height (repeatColor color width height) c.pixelFormat))
  | _ => pure ()

/-- A plain `RFBClient`. -/
def RFBClient.runtime (env : Env) : Runtime Unit where
  env := env
  override := RFBClient.defaultCallback env

end Vncdotool
