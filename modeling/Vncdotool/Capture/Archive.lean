import Vncdotool.Capture.Scrubber
import Vncdotool.Replay.Protocol
import Vncdotool.Streaming.Crashes
import Vncdotool.Wire.Json

/-!
# Archive — a capture's zip archive, written and read

What `write_archive` leaves behind, whatever goes wrong on the way, and what `load_capture` makes of
it.  A zip file is taken for the members in its directory; a file whose `ZipFile` has not been
closed has no directory yet, and nothing can be read from it.
-/

namespace Vncdotool

open Wire Streaming

/-! ## Zip files -/

/-- A file, as `zipfile` sees it. -/
inductive ZipContents
  | archive (members : List (String × Bytes))
  /-- Of a `ZipFile` that is open for writing. -/
  | building (members : List (String × Bytes))
  | other (data : Bytes)
  deriving DecidableEq, Repr

namespace ZipContents

/-- `archive.writestr(name, data)`. -/
def writestr (member : String × Bytes) : ZipContents → ZipContents
  | .building members => .building (members ++ [member])
  | contents => contents

/-- `archive.close()`. -/
def close : ZipContents → ZipContents
  | .building members => .archive members
  | contents => contents

end ZipContents

/-- The files of the machine. -/
abbrev ZipDisk := Disk String ZipContents

/-- A program on files, `ε` being what it may raise.  An effect that is not done leaves anything at
the path it works on. -/
abbrev Archiving (ε : Type) := Crashing ZipDisk ε (Option ZipContents)

section Writing

variable {ε : Type}

/-- The calls of `archive.writestr`. -/
def writeMembers (path : String) : List (String × Bytes) → Archiving ε Unit
  | [] => pure ()
  | member :: members => do
      alter path fun file => file.map (ZipContents.writestr member)
      writeMembers path members

/-- `with zipfile.ZipFile(path, "w", zipfile.ZIP_DEFLATED) as archive`. -/
def writeZip (path : String) (members : List (String × Bytes)) : Archiving ε Unit := do
  alter path fun _ => some (.building [])
  closing (writeMembers path members) (alter path fun file => file.map ZipContents.close)

end Writing

/-- `archive.read(name)`, `none` if the name is not in `archive.namelist()`. -/
def readMember (members : List (String × Bytes)) (name : String) : Option Bytes :=
  members.reverse.lookup name

/-! ## Writing a capture -/

/-- The fields of a `CaptureWriter` that only `meta` reads; `encodingsSeen` is
`encodings_list()`. -/
structure Evidence where
  server : String
  captureTimestamp : String
  encodingsSeen : Json

namespace CaptureWriter

/-- `meta`, its keys in the order in which they are written. -/
def captureMeta (w : CaptureWriter) (evidence : Evidence) (vncdotoolVersion : String) : Json :=
  let scrubber := w.scrubber.core
  .obj
    [("auth", .str (if scrubber.preserveAuth then "preserved" else "stripped")),
      ("capture_timestamp", .str evidence.captureTimestamp),
      ("encodings_seen", evidence.encodingsSeen),
      ("geometry",
        match scrubber.width, scrubber.height with
        | some width, some height => .obj [("height", .int height), ("width", .int width)]
        | _, _ => .null),
      ("negotiated_version",
        match scrubber.negotiatedVersion with
        | some version => .arr [.int version.major, .int version.minor]
        | none => .null),
      ("protocol_version", scrubber.protocolVersion.elim .null .str),
      ("security_type", scrubber.securityType.elim .null fun n => .int n),
      ("security_types", .arr (scrubber.securityTypes.map fun n => .int n)),
      ("server", .str evidence.server),
      ("vncdotool_version", .str vncdotoolVersion)]

/-- What is put into the archive. -/
def members (w : CaptureWriter) (metadata : Json) (sessionVdo : Bytes) : List (String × Bytes) :=
  [("s2c.bin", w.s2c), ("c2s.bin", w.c2s), ("session.vdo", sessionVdo),
    ("meta.json", metadata.toBytes)]

/-- `write_archive`. -/
def writeArchive {ε : Type} (w : CaptureWriter) (path : String) (metadata : Json)
    (sessionVdo : Bytes) : Archiving ε Unit :=
  let w := w.flush
  let part := path ++ ".part"
  install part path (writeZip part (w.members metadata sessionVdo))

end CaptureWriter

/-- Why a target or an archive is refused: the `ValueError`s of `check_capture_target` and
`load_capture`. -/
inductive CaptureFault
  /-- `--capture-raw target {path!r} must end in .zip -- captures are written as one archive` -/
  | notZip
  /-- `--capture-raw target {path!r} already exists -- refusing to overwrite a capture; pick another
  filename` -/
  | alreadyExists
  /-- `--capture-raw target directory {parent!r} does not exist` -/
  | noDirectory
  /-- `{archive_path!r}: no such file` -/
  | noSuchFile
  /-- `{archive_path!r}: no s2c.bin inside -- expected a ... archive (see docs/capture.rst)` -/
  | noRecording
  /-- `{archive_path!r}: not a zip archive ({exc}) -- expected a ... archive (see
  docs/capture.rst)` -/
  | notAnArchive
  /-- What `json.loads` says of `meta.json`. -/
  | notJson
  deriving DecidableEq, Repr

/-- `check_capture_target`; `isdir` says whether the parent is a directory. -/
def checkCaptureTarget (disk : ZipDisk) (isdir : Bool) (path : String) :
    Except CaptureFault Unit :=
  if !path.endsWith ".zip" then .error .notZip
  else if (disk path).isSome then .error .alreadyExists
  else if !isdir then .error .noDirectory
  else .ok ()

/-! ## Reading a capture -/

/-- A `Capture`, as `load_capture` returns it. -/
structure LoadedCapture where
  s2c : Bytes
  sessionVdo : Bytes
  metadata : Option Json

namespace LoadedCapture

def authPreserved (capture : LoadedCapture) : Bool :=
  match capture.metadata.bind fun doc => doc.get "auth" with
  | some (.str auth) => auth = "preserved"
  | _ => false

/-- `negotiated_version`; `meta` writes a pair or nothing. -/
def negotiatedVersion (capture : LoadedCapture) : Option Ver :=
  match capture.metadata.bind fun doc => doc.get "negotiated_version" with
  | some (.arr [.int major, .int minor]) => some { major := major, minor := minor }
  | _ => none

/-- What the replay reads of it. -/
def toCapture (capture : LoadedCapture) : Capture where
  s2c := capture.s2c
  negotiatedVersion := capture.negotiatedVersion

end LoadedCapture

/-- `load_capture`. -/
def loadCapture (disk : ZipDisk) (path : String) : Except CaptureFault LoadedCapture :=
  match disk path with
  | none => .error .noSuchFile
  | some (.archive members) =>
      match readMember members "s2c.bin" with
      | none => .error .noRecording
      | some s2c => do
          let metadata ←
            match readMember members "meta.json" with
            | none => pure none
            | some data =>
                match Json.ofBytes data with
                | none => .error .notJson
                | some doc => pure (some doc)
          return {
            s2c := s2c
            sessionVdo := (readMember members "session.vdo").getD []
            metadata := metadata }
  | some _ => .error .notAnArchive

/-! ## What is written is read -/

section RoundTrip

variable {w : CaptureWriter} {evidence : Evidence} {version : String} {metadata : Json}
  {sessionVdo : Bytes} {disk : ZipDisk} {path : String}

theorem loadCapture_members (h : disk path = some (.archive (w.members metadata sessionVdo))) :
    loadCapture disk path =
      .ok { s2c := w.s2c, sessionVdo := sessionVdo, metadata := some metadata } := by
  -- No two members have one name, so each is found.
  have hs2c : readMember (w.members metadata sessionVdo) "s2c.bin" = some w.s2c := by
    simp [readMember, CaptureWriter.members, List.lookup_cons]
  have hvdo : readMember (w.members metadata sessionVdo) "session.vdo" = some sessionVdo := by
    simp [readMember, CaptureWriter.members, List.lookup_cons]
  have hmeta : readMember (w.members metadata sessionVdo) "meta.json" = some metadata.toBytes := by
    simp [readMember, CaptureWriter.members]
  unfold loadCapture
  simp only [h, hs2c, hmeta, hvdo, Json.ofBytes_toBytes]
  rfl

/-- The replay is given the version that was negotiated. -/
theorem negotiatedVersion_captureMeta {s2c : Bytes} :
    (LoadedCapture.mk s2c sessionVdo (some (w.captureMeta evidence version))).negotiatedVersion =
      w.scrubber.core.negotiatedVersion := by
  have hget : (w.captureMeta evidence version).get "negotiated_version" =
      some (match w.scrubber.core.negotiatedVersion with
        | some version => .arr [.int version.major, .int version.minor]
        | none => .null) := by
    simp [CaptureWriter.captureMeta, Json.get, List.lookup_cons]
  unfold LoadedCapture.negotiatedVersion
  rw [Option.bind_some, hget]
  cases w.scrubber.core.negotiatedVersion with
  | none => rfl
  | some version => rfl

/-- The archive says whether the handshake is the real one. -/
theorem authPreserved_captureMeta {s2c : Bytes} :
    (LoadedCapture.mk s2c sessionVdo (some (w.captureMeta evidence version))).authPreserved =
      w.scrubber.core.preserveAuth := by
  have hget : (w.captureMeta evidence version).get "auth" =
      some (.str (if w.scrubber.core.preserveAuth then "preserved" else "stripped")) := by
    simp [CaptureWriter.captureMeta, Json.get, List.lookup_cons]
  unfold LoadedCapture.authPreserved
  rw [Option.bind_some, hget]
  cases w.scrubber.core.preserveAuth with
  | false => rfl
  | true => rfl

end RoundTrip

/-! ## What is written is there whole -/

section Installing

variable {ε : Type} {w : CaptureWriter} {metadata : Json} {sessionVdo : Bytes} {d d' : ZipDisk}
  {part path : String} {written members : List (String × Bytes)}

theorem withstands_writeMembers (h : SameBut part d d')
    (hpart : d' part = some (.building written)) :
    Withstands (writeMembers part members : Archiving ε Unit) d'
      (fun _ d'' => SameBut part d d'' ∧ d'' part = some (.building (written ++ members)))
      (fun _ => SameBut part d) (SameBut part d) := by
  induction members generalizing d' written with
  | nil =>
      refine withstands_pure ⟨h, ?_⟩
      rw [List.append_nil]
      exact hpart
  | cons member members ih =>
      refine Withstands.bind (h.withstands_alter _) fun _ d'' hd'' => ?_
      rcases hd'' with ⟨hsame, hcontents⟩
      rw [hpart] at hcontents
      have hmembers := ih hsame hcontents
      rw [List.append_assoc] at hmembers
      exact hmembers

/-- A zip file is complete when its `with` is left, and concerns no other path meanwhile. -/
theorem withstands_writeZip :
    Withstands (writeZip part members : Archiving ε Unit) d
      (fun _ d' => SameBut part d d' ∧ d' part = some (.archive members))
      (fun _ => SameBut part d) (SameBut part d) := by
  refine Withstands.bind (sameBut_refl.withstands_alter _) fun _ d' hd' => ?_
  rcases hd' with ⟨hsame, hempty⟩
  refine Withstands.closing (withstands_writeMembers hsame hempty) ?_ ?_
  -- Without an exception all members have been written, and closing adds the directory.
  · rintro d'' ⟨hsame', hbuilding⟩
    refine (hsame'.withstands_alter _).mono (fun _ published hpublished => ⟨hpublished.1, ?_⟩)
      (fun _ _ => id) fun _ => id
    rw [hpublished.2, hbuilding]
    rfl
  -- After an exception the file is closed too, whatever has got into it.
  · intro e d'' hsame'
    exact (hsame'.withstands_alter _).mono (fun _ _ hpublished => hpublished.1) (fun _ _ => id)
      fun _ => id

/-- Whatever goes wrong, `write_archive` puts the whole archive at its path or leaves that as it
was, and touches no other path but the one it builds the archive at. -/
theorem withstands_writeArchive :
    Withstands (w.writeArchive path metadata sessionVdo : Archiving ε Unit) d
      (fun _ d' => d' =
        Function.update (Function.update d (path ++ ".part") none) path
          (some (.archive (w.flush.members metadata sessionVdo))))
      (fun _ => SameBut (path ++ ".part") d) (SameBut (path ++ ".part") d) :=
  withstands_install withstands_writeZip

end Installing

end Vncdotool
