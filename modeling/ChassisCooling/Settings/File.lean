import ChassisCooling.Files.Disk
import ChassisCooling.Json.Reader
import ChassisCooling.Json.Writer
import ChassisCooling.Settings.Document

/-! # Settings in a file

Settings are written beside the file that they are meant for and then moved into its place.
-/

namespace ChassisCooling.Settings

open Files

/-- The settings in the bytes of a file. -/
def ofBytes? (bytes : List UInt8) : Option Settings :=
  ((Text.Utf8.decode? bytes).bind Json.read?).bind ofJson?

/-- The settings in a file; without the file, the default ones. -/
def load (d : Disk) (path : Path) : Except Fault Settings :=
  if d.present path then do
    let bytes ← d.read path (Fault.fileRead path) (Fault.fileRead path)
    match Text.Utf8.decode? bytes with
    | none => .error (.fileRead path .notUtf8)
    | some text => match (Json.read? text).bind ofJson? with
      | none => .error .document
      | some s => .ok s
  else .ok .default

/-- The text of a settings file. -/
def fileText (s : Settings) : List Char :=
  s.toJson.indented 0

/-- The steps of saving settings, each of which the system may refuse. -/
inductive SaveStep where
  /-- Making a directory that is missing. -/
  | directory (path : Path)
  /-- Opening the file beside the one that is meant. -/
  | create
  /-- Writing the byte at a place of the text, after those before it have been written. -/
  | write (index : Nat)
  | sync
  | rename
deriving DecidableEq, Repr

/-- The directory that a file goes into, if it has to be made. -/
def missingParent? (d : Disk) (path : Path) : Option Path :=
  (Path.parent? path).filter fun parent => !parent.toList.isEmpty && !d.present parent

/-- Makes the directory that a file goes into, if it has to be made. -/
def prepareWith (refusal : SaveStep → Option Cause) (d : Disk) (path : Path) :
    Except Fault Unit × Disk :=
  match missingParent? d path with
  | none => (.ok (), d)
  | some parent =>
    let (result, made) := d.ensurePathWith (fun path => refusal (.directory path)) parent
    (result.mapError (Fault.fileWrite parent), made)

/-- The file beside another one that is written first. -/
def besidePath (path : Path) : Path :=
  Path.withExtension path "json.tmp"

/-- Saves settings in a file. `refusal` says which steps the system refuses for reasons of its own.
Whatever was done before a step that fails stays done. -/
def saveWith (refusal : SaveStep → Option Cause) (d : Disk) (path : Path) (s : Settings) :
    Except Fault Unit × Disk :=
  match prepareWith refusal d path with
  | (.error fault, d) => (.error fault, d)
  | (.ok (), d) =>
    match unlessRefused (refusal .create) (d.create (besidePath path)) with
    | .error cause => (.error (.fileWrite (besidePath path) cause), d)
    | .ok (id, d) =>
      match d.writeTo (fun index => refusal (.write index)) id (Text.Utf8.encode s.fileText) with
      | (some cause, d) => (.error (.fileWrite (besidePath path) cause), d)
      | (none, d) =>
        match refusal .sync with
        | some cause => (.error (.fileWrite (besidePath path) cause), d)
        | none =>
          match unlessRefused (refusal .rename) (d.rename (besidePath path) path) with
          | .error cause => (.error (.fileWrite path cause), d)
          | .ok d => (.ok (), d)

/-- Saves settings in a file. -/
def save (d : Disk) (path : Path) (s : Settings) : Except Fault Unit × Disk :=
  saveWith (fun _ => none) d path s

end ChassisCooling.Settings
