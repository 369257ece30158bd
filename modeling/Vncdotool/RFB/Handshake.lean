import Vncdotool.RFB.Client

/-!
# Handshake — the states of `RFBClient` used on connection startup

From the server's greeting to the server name.  `handleInitial` is handed the receive buffer and
returns what it leaves of it; every other handler is handed the block it was armed for.
-/

namespace Vncdotool

open Wire

variable {σ : Type} (rt : Runtime σ)

namespace RFBClient

def supportedServerVersions : List Ver :=
  [⟨3, 3⟩, ⟨3, 7⟩, ⟨3, 8⟩, ⟨3, 889⟩, ⟨4, 0⟩, ⟨4, 1⟩, ⟨5, 0⟩]

def maxClientVersion : Ver := ⟨3, 8⟩

def supportedAuths : List ℕ :=
  [AuthTypes.NONE, AuthTypes.VNC_AUTHENTICATION, AuthTypes.DIFFIE_HELLMAN]

/-- `_HEADER`, that is `b"RFB 000.000\n"`. -/
def header : Bytes :=
  [82, 70, 66, 32, 48, 48, 48, 46, 48, 48, 48, 10]

/-- `_HEADER_TRANSLATE`: every digit becomes a zero. -/
def headerTranslate (head : Bytes) : Bytes :=
  head.map fun b => if isDigit b then 48 else b

/-- `max(v for v in SUPPORTED_SERVER_VERSIONS if v <= version_server)`, capped by
`MAX_CLIENT_VERSION`; `none` is `max()` of nothing. -/
def chooseVersion (versionServer : Ver) : Option Ver :=
  (Ver.max? (supportedServerVersions.filter fun v => v ≤ versionServer)).map fun version =>
    if maxClientVersion < version then maxClientVersion else version

def handleInitial (packet : Bytes) : Py σ Bytes := do
  let head := packet.take 12
  let norm := headerTranslate head
  if norm = header then
    let versionServer ←
      match parseVersion head with
      | some versionServer => pure versionServer
      | none => throw .valueError
    let version ←
      match chooseVersion versionServer with
      | some version => pure version
      | none => throw .valueError
    write (versionLine version)
    modify fun c =>
      { c with stage := .handleExpected, version := version, versionServer := versionServer }
    if version < ⟨3, 7⟩ then
      expect .auth 4
    else
      expect .numberSecurityTypes 1
    return packet.drop 12
  else if norm.isPrefixOf header then
    -- The greeting has not arrived completely.
    return packet
  else
    rt.protocolError (.invalidInitialResponse head)
    return packet

/-! ## Security -/

def handleNumberSecurityTypes (block : Bytes) : Py σ Unit :=
  let numTypes := field block 0 1
  if numTypes ≠ 0 then
    expect .securityTypes numTypes
  else
    expect .connFailed 4

def doClientInitialization : Py σ Unit := do
  let c ← get
  write (packBE 1 c.factory.shared)
  expect .serverInit 24

def handleSecurityTypes (block : Bytes) : Py σ Unit := do
  let types := block.map UInt8.toNat
  -- The highest type that both sides know.
  match (types.filter (· ∈ supportedAuths)).max? with
  | some secType =>
      write (packBE 1 secType)
      if secType = AuthTypes.NONE then
        if (← get).version < ⟨3, 8⟩ then
          doClientInitialization
        else
          expect .vncAuthResult 4
      else if secType = AuthTypes.VNC_AUTHENTICATION then
        expect .vncAuth 16
      else if secType = AuthTypes.DIFFIE_HELLMAN then
        expect .dhAuth 4
  | none => rt.protocolError (.unknownSecurityTypes block)

def handleAuth (block : Bytes) : Py σ Unit :=
  let auth := field block 0 4
  if auth = AuthTypes.INVALID then
    expect .connFailed 4
  else if auth = AuthTypes.NONE then
    doClientInitialization
  else if auth = AuthTypes.VNC_AUTHENTICATION then
    expect .vncAuth 16
  else
    rt.protocolError (.unknownAuthResponse auth)

def handleConnFailed (block : Bytes) : Py σ Unit :=
  let waitfor := field block 0 4
  expect .connMessage waitfor

def handleConnMessage (block : Bytes) : Py σ Unit :=
  rt.protocolError (.connectionRefused block)

def handleVNCAuth (block : Bytes) : Py σ Unit := do
  modify fun c => { c with challenge := block }
  rt.call .vncRequestPassword
  expect .vncAuthResult 4

def handleDHAuth (block : Bytes) : Py σ Unit := do
  let keyLen := field block 2 2
  modify fun c => { c with generator := field block 0 2, keyLen := keyLen }
  expect .dhAuthKey keyLen

def handleDHAuthKey (block : Bytes) : Py σ Unit := do
  modify fun c => { c with modulus := block }
  expect .dhAuthCert (← get).keyLen

def handleDHAuthCert (block : Bytes) : Py σ Unit := do
  modify fun c => { c with serverKey := block }
  rt.ardRequestCredentials
  rt.encryptArd
  expect .vncAuthResult 4

def handleVNCAuthResult (block : Bytes) : Py σ Unit := do
  let result := field block 0 4
  let c ← get
  if result = 0 then
    doClientInitialization
  else if result = 1 then
    if c.version < ⟨3, 8⟩ then
      rt.authFailed .failed
    else
      -- From 3.8 on the server says why.
      expect .authFailed 4
  else if result = 2 then
    if c.version < ⟨3, 8⟩ then
      rt.authFailed .tooManyTries
    else
      expect .authFailed 4
  else
    -- An unknown result is only logged.
    loseConnection

def handleAuthFailed (block : Bytes) : Py σ Unit :=
  let waitfor := field block 0 4
  expect .authFailedMessage waitfor

def handleAuthFailedMessage (block : Bytes) : Py σ Unit :=
  rt.authFailed (.message block)

/-! ## Initialisation -/

def handleServerInit (block : Bytes) : Py σ Unit := do
  let namelen := field block 20 4
  modify fun c =>
    { c with
      width := field block 0 2
      height := field block 2 2
      pixelFormat := PixelFormat.fromBytes (slice block 4 16) }
  expect .serverName namelen

def handleServerName (block : Bytes) : Py σ Unit := do
  modify fun c => { c with name := block }
  rt.call .vncConnectionMade
  expect .connection 1

end RFBClient

end Vncdotool
